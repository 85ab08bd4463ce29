import PhpAudit.Yaml.Spelling

/-!
# Anchors, tags and directives

What stands before a node, and before a document: the names of anchors and aliases, tags with their
handles, and directives. A tag may spell bytes by percent escapes; the bytes of one character must
come together, led by a byte that tells their number, but they need not be well-formed UTF-8. Tags are
texts for that reason.
-/

namespace PhpAudit.Yaml

open Scan (need head peek skip fault bound)

/-- A name after the indicator of an anchor or alias. -/
def scanName : Scan String := do
  skip
  let name ← Scan.run isNameChar
  let mayFollow := "?:,]\x7d%@`".toList
  let next ← head
  if name.isEmpty || !(endsWord next || next.any mayFollow.contains) then
    fault "did not find expected alphabetic or numeric character"
  return String.ofList name

/-- A character of a tag besides those of names. -/
def isTagMark (c : Char) : Bool := ";/?:@&=+$,.!~*()[]%".toList.contains c || c == '\x27'

/-- The byte of the percent escape at the cursor. -/
def escapedByte : Scan Nat := do
  need 3
  match (← get).rest with
  | '%' :: a :: b :: _ =>
    match hexNumber? [a, b] with
    | some n =>
      skipMany 3
      return n
    | none => fault "did not find URI escaped octet"
  | _ => fault "did not find URI escaped octet"

/-- The number of bytes after a leading byte; `none` for a byte that leads none. -/
def bytesAfter? (lead : Nat) : Option Nat :=
  if lead < 0x80 then some 0
  else if lead < 0xc0 then none
  else if lead < 0xe0 then some 1
  else if lead < 0xf0 then some 2
  else if lead < 0xf8 then some 3
  else none

/-- The bytes that continue a character, each by an escape. -/
def continuation : Nat → Scan (List UInt8)
  | 0 => return []
  | n + 1 => do
    let b ← escapedByte
    if b < 0x80 || 0xc0 ≤ b then fault "found an incorrect trailing UTF-8 octet"
    return UInt8.ofNat b :: (← continuation n)

/-- The bytes of one character, each by an escape. -/
def escapedBytes : Scan (List UInt8) := do
  let lead ← escapedByte
  match bytesAfter? lead with
  | none => fault "found an incorrect leading UTF-8 octet"
  | some n => return UInt8.ofNat lead :: (← continuation n)

/-- The bytes of a tag at the cursor. -/
def tagBytes : Nat → Scan (List UInt8)
  | 0 => return []
  | fuel + 1 => do
    need 1
    match ← head with
    | none => return []
    | some c =>
      if c == '%' then
        let bytes ← escapedBytes
        return bytes ++ (← tagBytes fuel)
      else if isNameChar c || isTagMark c then
        skip
        return UInt8.ofNat c.toNat :: (← tagBytes fuel)
      else return []

/-- The text of a tag at the cursor, which must not be empty. -/
def scanTagText : Scan Text := do
  let bytes ← tagBytes (← bound)
  if bytes.isEmpty then fault "did not find expected tag URI"
  return ⟨bytes⟩

/-- The handle of a tag at the cursor, which stands on an exclamation mark, and whether the handle is
closed by another. -/
def scanHandle : Scan (List Char × Bool) := do
  skip
  let name ← Scan.run isNameChar
  if (← head) == some '!' then
    skip
    return ('!' :: name ++ ['!'], true)
  return ('!' :: name, false)

/-- **A tag**: its handle and its suffix. A single mark is a suffix without handle. -/
def scanTag : Scan (String × Text) := do
  need 2
  let tag ← do
    if (← peek 1) == some '<' then
      skipMany 2
      let suffix ← scanTagText
      if (← head) != some '>' then fault "did not find the expected '>'"
      skip
      pure ("", suffix)
    else
      let (handle, closed) ← scanHandle
      if closed then pure (String.ofList handle, ← scanTagText)
      else
        let suffix := Text.ofChars (handle.drop 1) ++ ⟨← tagBytes (← bound)⟩
        pure (if suffix = "" then ("", Text.ofString "!") else ("!", suffix))
  need 1
  if !endsWord (← head) then fault "did not find expected whitespace or line break"
  return tag

/-- The most digits of a number of a version. -/
def versionDigits : Nat := 2

/-- A number of a version. -/
def versionNumber : Scan Nat := do
  let digits ← Scan.run Char.isDigit
  if digits.isEmpty then fault "did not find expected version number"
  if versionDigits < digits.length then fault "found extremely long version number"
  return digits.foldl (fun n d => n * 10 + (d.toNat - '0'.toNat)) 0

/-- The version of a directive. -/
def scanVersion : Scan TokenKind := do
  Scan.skipSpaces
  let major ← versionNumber
  if (← head) != some '.' then fault "did not find expected digit or '.' character"
  skip
  return .versionDirective major (← versionNumber)

/-- The handle and the expansion of a directive. -/
def scanExpansion : Scan TokenKind := do
  Scan.skipSpaces
  if (← head) != some '!' then fault "did not find expected '!'"
  let (handle, closed) ← scanHandle
  if !closed && handle.length > 1 then fault "did not find expected '!'"
  need 1
  if !(← head).any isSpace then fault "did not find expected whitespace"
  Scan.skipSpaces
  let expansion ← scanTagText
  if !endsWord (← head) then fault "did not find expected whitespace or line break"
  return .tagDirective (String.ofList handle) expansion

/-- **A directive**, from its percent sign to the end of its line. -/
def scanDirective : Scan TokenKind := do
  skip
  let name ← Scan.run isNameChar
  if name.isEmpty then fault "could not find expected directive name"
  if !endsWord (← head) then fault "found unexpected non-alphabetical character"
  let kind ← match String.ofList name with
    | "YAML" => scanVersion
    | "TAG" => scanExpansion
    | _ => fault "found unknown directive name"
  endOfLine
  return kind

end PhpAudit.Yaml
