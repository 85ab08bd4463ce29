import PhpAudit.Pattern.Basic
import PhpAudit.Pattern.Fault
import PhpAudit.Pattern.Property

/-!
# Escapes and classes

A class of characters is written between brackets, by a letter after a backslash, by a name between
colons, or by a property. Characters are written as they are, or by escapes; an escape may give a code
that is no character, which then is in the class but never in a text.
-/

namespace PhpAudit.Pattern

/-- **The flags in force.** -/
structure Flags where
  foldCase : Bool := false
  dotNewline : Bool := false
  multiline : Bool := false
deriving DecidableEq, Repr

/-- A class of one set. -/
def single (ranges : List (Nat × Nat)) (negated folded : Bool) : CharClass :=
  ⟨[⟨ranges, negated, folded⟩], false⟩

/-- The digits. -/
def digits : List (Nat × Nat) := [(0x30, 0x39)]
/-- White space within a pattern. -/
def spaces : List (Nat × Nat) := [(0x09, 0x0a), (0x0c, 0x0d), (0x20, 0x20)]
/-- The characters of words. -/
def wordChars : List (Nat × Nat) := [(0x30, 0x39), (0x41, 0x5a), (0x5f, 0x5f), (0x61, 0x7a)]

/-- The sets that a letter after a backslash names. -/
def letterSets : List (Char × List (Nat × Nat) × Bool) := [
  ('d', digits, false), ('D', digits, true), ('s', spaces, false), ('S', spaces, true),
  ('w', wordChars, false), ('W', wordChars, true)]

/-- The sets that have a name between colons. -/
def namedSets : List (String × List (Nat × Nat)) := [
  ("alnum", [(0x30, 0x39), (0x41, 0x5a), (0x61, 0x7a)]),
  ("alpha", [(0x41, 0x5a), (0x61, 0x7a)]),
  ("ascii", [(0x00, 0x7f)]),
  ("blank", [(0x09, 0x09), (0x20, 0x20)]),
  ("cntrl", [(0x00, 0x1f), (0x7f, 0x7f)]),
  ("digit", [(0x30, 0x39)]),
  ("graph", [(0x21, 0x7e)]),
  ("lower", [(0x61, 0x7a)]),
  ("print", [(0x20, 0x7e)]),
  ("punct", [(0x21, 0x2f), (0x3a, 0x40), (0x5b, 0x60), (0x7b, 0x7e)]),
  ("space", [(0x09, 0x0d), (0x20, 0x20)]),
  ("upper", [(0x41, 0x5a)]),
  ("word", [(0x30, 0x39), (0x41, 0x5a), (0x5f, 0x5f), (0x61, 0x7a)]),
  ("xdigit", [(0x30, 0x39), (0x41, 0x46), (0x61, 0x66)])]

/-- The value of a hexadecimal digit. -/
def hexDigit? (c : Char) : Option Nat :=
  if c.isDigit then some (c.toNat - '0'.toNat)
  else if 'a' ≤ c ∧ c ≤ 'f' then some (c.toNat - 'a'.toNat + 10)
  else if 'A' ≤ c ∧ c ≤ 'F' then some (c.toNat - 'A'.toNat + 10)
  else none

/-- An octal digit. -/
def isOctal (c : Char) : Bool := '0' ≤ c && c ≤ '7'

/-- **A code that was read**, and the rest after it; or the rest at which it went wrong. -/
abbrev CodeRead := Except Rest (Nat × Rest)

/-- The code between the braces of a hexadecimal escape, from the digits read so far. -/
def bracedCode : Nat → Rest → Nat → Nat → Parse CodeRead
  | 0, s, _, _ => return .error s
  | fuel + 1, s, code, count => do
    match ← next? s with
    | none => return .error []
    | some (c, t) =>
      if c = '\x7d' then return if count = 0 then .error t else .ok (code, t)
      match hexDigit? c with
      | some d =>
        if code * 16 + d > 0x10ffff then return .error t
        bracedCode fuel t (code * 16 + d) (count + 1)
      | none => return .error t

/-- The code of a hexadecimal escape, from its mark on: any digits between braces, or two. -/
def hexCode (s : Rest) : Parse CodeRead := do
  match ← next? s with
  | none => return .error s
  | some (a, t) =>
    if a = '\x7b' then bracedCode (t.length + 1) t 0 0
    else match ← next? t with
      | none => return .error t
      | some (b, t) =>
        match hexDigit? a, hexDigit? b with
        | some x, some y => return .ok (x * 16 + y, t)
        | _, _ => return .error t

/-- The letters that stand for control characters after a backslash. -/
def controlLetters : List (Char × Nat) :=
  [('a', 0x07), ('f', 0x0c), ('n', 0x0a), ('r', 0x0d), ('t', 0x09), ('v', 0x0b)]

/-- The code of an octal escape, from its first digit and what follows it. One digit is enough only if it
is a zero. -/
def octalCode (c : Char) (t : Rest) : CodeRead :=
  if c ≠ '0' ∧ !t.head?.any (Glyph.has isOctal) then .error t
  else
    let more := (t.take 2).takeWhile (Glyph.has isOctal)
    .ok (more.foldl (fun n d => n * 8 + (d.shown.toNat - '0'.toNat)) (c.toNat - '0'.toNat),
      t.drop more.length)

/-- **An escaped character**, by its code; the text starts at the backslash. -/
def escape (s : Rest) : Parse (Nat × Rest) := do
  match ← next? (s.drop 1) with
  | none => refuse .trailingBackslash []
  | some (c, t) =>
    let read : CodeRead ←
      if isOctal c then pure (octalCode c t)
      else if c = 'x' then hexCode t
      else match controlLetters.lookup c with
        | some code => pure (.ok (code, t))
        | none => pure (if c.toNat < 0x80 ∧ !c.isAlphanum then .ok (c.toNat, t) else .error t)
    match read with
    | .ok r => return r
    | .error rest => refuse .badEscape (passed s rest)

/-- What stands before a closing mark of two characters, and what follows the mark. -/
def upTo? (a b : Char) : Rest → Rest → Option (Rest × Rest)
  | x :: y :: rest, before =>
    if x = .char a ∧ y = .char b then some (before.reverse, rest)
    else upTo? a b (y :: rest) (x :: before)
  | _, _ => none

/-- The name of a property, from the backslash on: one letter, or what stands between braces. It is given
with the part that writes it and with the rest. -/
def propertyName (s : Rest) : Parse (Rest × Rest × Rest) := do
  match ← next? (s.drop 2) with
  | some ('\x7b', _) =>
    let before := s.takeWhile (· ≠ .char '\x7d')
    if before.length = s.length then
      wellFormed s
      refuse .badRange s
    wellFormed (before.drop 3)
    return (before.drop 3, before ++ [.char '\x7d'], s.drop (before.length + 1))
  | _ => return ((s.take 3).drop 2, s.take 3, s.drop 3)

/-- A set by property, from its backslash on. A caret before the name turns it around. -/
def propertySet (flags : Flags) (s : Rest) : Parse (CharSet × Rest) := do
  let (name, part, rest) ← propertyName s
  let turned := name.head? == some (.char '^')
  let bare := if turned then name.drop 1 else name
  match Property.codes? (bare.map Glyph.shown) with
  | some codes =>
    let negated := ((s[1]? == some (.char 'P')) != turned) != codes.negated
    return (⟨codes.ranges, negated, flags.foldCase⟩, rest)
  | none => refuse .badRange part

/-- A set that is written as an escape or by name, if one stands here. -/
def setOf? (flags : Flags) (s : Rest) : Parse (Option (CharSet × Rest)) :=
  match s with
  | .char '[' :: .char ':' :: rest =>
    match upTo? ':' ']' rest [] with
    | none => return none
    | some (name, t) =>
      let negated := name.head? == some (.char '^')
      let bare := if negated then name.drop 1 else name
      match namedSets.lookup (String.ofList (bare.map Glyph.shown)) with
      | some ranges => return some (⟨ranges, negated, flags.foldCase⟩, t)
      | none => refuse .badRange (passed s t)
  | .char '\\' :: .char c :: t =>
    if c = 'p' ∨ c = 'P' then return some (← propertySet flags s)
    else match letterSets.lookup c with
      | some (ranges, negated) => return some (⟨ranges, negated, flags.foldCase⟩, t)
      | none => return none
  | _ => return none

/-- A character of a class, by its code; `whole` is the class from its bracket on. -/
def classChar (whole s : Rest) : Parse (Nat × Rest) := do
  if s.head? == some (.char '\\') then escape s
  else match ← next? s with
    | none => refuse .missingBracket whole
    | some (c, t) => return (c.toNat, t)

/-- The sets of a class, up to its closing bracket. A bracket that comes first stands for itself. -/
def classSets (flags : Flags) (whole : Rest) :
    Nat → Bool → Rest → List CharSet → Parse (List CharSet × Rest)
  | 0, _, _, _ => refuse .missingBracket whole
  | fuel + 1, first, s, acc => do
    if !first && s.head? == some (.char ']') then return (acc, s.drop 1)
    match ← setOf? flags s with
    | some (set, t) => classSets flags whole fuel false t (acc ++ [set])
    | none =>
      let (low, t) ← classChar whole s
      let isRange := t.head? == some (.char '-') && t[1]?.any (· ≠ .char ']')
      let (high, t) ← if isRange then classChar whole (t.drop 1) else pure (low, t)
      if high < low then refuse .badRange (passed s t)
      classSets flags whole fuel false t (acc ++ [⟨[(low, high)], false, flags.foldCase⟩])

/-- **A class between brackets.** -/
def classOf (flags : Flags) (s : Rest) : Parse (CharClass × Rest) := do
  let negated := s[1]? == some (.char '^')
  let body := if negated then s.drop 2 else s.drop 1
  let (sets, t) ← classSets flags s (s.length + 1) true body []
  return (⟨sets, negated⟩, t)

/-- The class of the dot. -/
def dot (flags : Flags) : CharClass :=
  if flags.dotNewline then ⟨[], true⟩ else single [(0x0a, 0x0a)] true false

end PhpAudit.Pattern
