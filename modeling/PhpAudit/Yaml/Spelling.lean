import PhpAudit.Yaml.Token

/-!
# The text of scalars

How the text of a scalar is gathered from the document, by style. Between two words of a plain or
quoted scalar stands a **gap**: spaces are kept as they are, one break becomes a space, and further
breaks are kept. A block scalar keeps its lines; a folded one joins lines that start without a
space. The loops take the number of characters left as their bound, and every turn takes at least
one; what they have gathered is held last character first.
-/

namespace PhpAudit.Yaml

open Scan (need head peek skip lineBreak fault bound)

/-- **What stands between two words** of a flow scalar: spaces on one line, or breaks, the last first. An
escaped break has no first break. -/
inductive Gap where
  | spaces (run : List Char)
  | breaks (first : Option Char) (later : List Char)

namespace Gap

/-- A text with what a gap contributes to it, both last character first. -/
def after (text : List Char) : Gap → List Char
  | .spaces run => run ++ text
  | .breaks (some '\n') [] => ' ' :: text
  | .breaks (some '\n') later => later ++ text
  | .breaks first later => later ++ first.toList ++ text

/-- A line was ended in the gap. -/
def endsLine : Gap → Bool
  | .spaces _ => false
  | .breaks _ _ => true

/-- The gap with one more space or tab, which counts only on the line of the word before. -/
def addSpace (c : Char) : Gap → Gap
  | .spaces run => .spaces (c :: run)
  | g => g

/-- The gap with one more break. -/
def addBreak (c : Char) : Gap → Gap
  | .spaces _ => .breaks (some c) []
  | .breaks first later => .breaks first (c :: later)

end Gap

/-- **The gap** at the cursor, from the part read so far. With `least`, a tab before that column is a
fault once a line was ended. -/
def gapFrom (least : Option Nat) : Nat → Gap → Scan Gap
  | 0, gap => return gap
  | fuel + 1, gap => do
    match ← head with
    | none => return gap
    | some c =>
      if isSpace c then
        if c == '\t' && gap.endsLine && least.any ((← Scan.mark).column < ·) then
          fault "found a tab character that violates indentation"
        skip
        need 1
        gapFrom least fuel (gap.addSpace c)
      else if isBreak c then
        need 2
        let b ← lineBreak
        need 1
        gapFrom least fuel (gap.addBreak (b.getD c))
      else return gap

/-- A character that ends a plain scalar in a flow collection. -/
def isFlowMark (c : Char) : Bool :=
  c == ',' || c == '?' || c == '[' || c == ']' || c == '\x7b' || c == '\x7d'

/-- The word of a plain scalar at the cursor, from what was read of it: up to a space, a break, a colon
before the end of a word, or, in a flow collection, a mark of the collection. -/
def plainWord (inFlow : Bool) : Nat → List Char → Scan (List Char)
  | 0, word => return word
  | fuel + 1, word => do
    match ← head with
    | none => return word
    | some c =>
      let ends := isSpace c || isBreak c || (c == ':' && endsWord (← peek 1)) || (inFlow && isFlowMark c)
      if ends then return word
      skip
      need 2
      plainWord inFlow fuel (c :: word)

/-- **A plain scalar**: its text, the line of its last character, and whether a line was ended after its
last word. -/
structure PlainText where
  text : List Char
  lastLine : Nat
  lineEnded : Bool

/-- The words of a plain scalar and the gaps between them, from the text and the gap before a word.
`least` is the column below which a line of a block scalar belongs to the surroundings. -/
def plainFrom (inFlow : Bool) (least : Nat) : Nat → List Char → Gap → Nat → Scan PlainText
  | 0, text, gap, last => return ⟨text.reverse, last, gap.endsLine⟩
  | fuel + 1, text, gap, last => do
    need 4
    if (← Scan.atAnyMarker) || (← head) == some '#' then return ⟨text.reverse, last, gap.endsLine⟩
    let word ← plainWord inFlow (← bound) []
    if word.isEmpty then return ⟨text.reverse, last, gap.endsLine⟩
    let text := word ++ gap.after text
    let last := (← Scan.mark).line
    if (← head).any fun c => isSpace c || isBreak c then
      need 1
      let gap ← gapFrom (some least) (← bound) (.spaces [])
      if !inFlow && (← Scan.mark).column < least then return ⟨text.reverse, last, gap.endsLine⟩
      plainFrom inFlow least fuel text gap last
    else return ⟨text.reverse, last, false⟩

/-- **A plain scalar** at the cursor. -/
def scanPlain (inFlow : Bool) (least : Nat) : Scan PlainText := do
  plainFrom inFlow least (← bound) [] (.spaces []) (← Scan.mark).line

/-- A run of hexadecimal digits as a number. -/
def hexNumber? (cs : List Char) : Option Nat :=
  cs.foldlM (fun n c => (hexValue? c).map (n * 16 + ·)) 0

/-- The character of a one-letter escape. -/
def escapedChar? : Char → Option Char
  | '0' => some '\x00'
  | 'a' => some '\x07'
  | 'b' => some '\x08'
  | 't' => some '\t'
  | '\t' => some '\t'
  | 'n' => some '\n'
  | 'v' => some '\x0b'
  | 'f' => some '\x0c'
  | 'r' => some '\r'
  | 'e' => some '\x1b'
  | ' ' => some ' '
  | '\x22' => some '\x22'
  | '\\' => some '\\'
  | 'N' => some '\u0085'
  | '_' => some '\u00a0'
  | 'L' => some '\u2028'
  | 'P' => some '\u2029'
  | c => if c == '\x27' then some c else none

/-- The number of digits of a numeric escape. -/
def escapeDigits? : Char → Option Nat
  | 'x' => some 2
  | 'u' => some 4
  | 'U' => some 8
  | _ => none

/-- Past some characters, none of them a break. -/
def skipMany : Nat → Scan Unit
  | 0 => return ()
  | n + 1 => do
    skip
    skipMany n

/-- The character of a numeric escape, from its digits on. -/
def scanCode (digits : Nat) : Scan Char := do
  need digits
  let ds := (← get).rest.take digits
  match (if ds.length < digits then none else hexNumber? ds) with
  | none => fault "did not find expected hexdecimal number"
  | some v =>
    if h : v.isValidChar then
      skipMany digits
      return Char.ofNatAux v h
    else fault "found invalid Unicode character escape code"

/-- The escape at the cursor, which stands on a backslash. -/
def scanEscape : Scan Char := do
  match ← peek 1 with
  | none => fault "found unknown escape character"
  | some e =>
    match escapeDigits? e, escapedChar? e with
    | some n, _ =>
      skipMany 2
      scanCode n
    | none, some c =>
      skipMany 2
      return c
    | none, none => fault "found unknown escape character"

/-- A text with the word of a quoted scalar at the cursor, from what was read of them, and whether an
escaped break ends the word. -/
def quotedWord (single : Bool) : Nat → List Char → Scan (List Char × Bool)
  | 0, text => return (text, false)
  | fuel + 1, text => do
    match ← head with
    | none => return (text, false)
    | some c =>
      if isSpace c || isBreak c then return (text, false)
      if single && c == '\x27' then
        if (← peek 1) == some '\x27' then
          skipMany 2
          need 2
          quotedWord single fuel (c :: text)
        else return (text, false)
      else if !single && c == '\x22' then return (text, false)
      else if !single && c == '\\' then
        if (← peek 1).any isBreak then
          need 3
          skip
          let _ ← lineBreak
          return (text, true)
        let e ← scanEscape
        need 2
        quotedWord single fuel (e :: text)
      else
        skip
        need 2
        quotedWord single fuel (c :: text)

/-- The words and gaps of a quoted scalar up to its closing quote, from the text before. -/
def quotedFrom (single : Bool) : Nat → List Char → Scan (List Char)
  | 0, _ => fault "found unexpected end of stream"
  | fuel + 1, text => do
    need 4
    if ← Scan.atAnyMarker then fault "found unexpected document indicator"
    if (← head).isNone then fault "found unexpected end of stream"
    let (text, escapedBreak) ← quotedWord single (← bound) text
    need 1
    if (← head) == some (if single then '\x27' else '\x22') then
      skip
      return text.reverse
    let gap ← gapFrom none (← bound) (if escapedBreak then .breaks none [] else .spaces [])
    quotedFrom single fuel (gap.after text)

/-- **A quoted scalar**, from its opening quote on. -/
def scanQuoted (single : Bool) : Scan String := do
  skip
  return String.ofList (← quotedFrom single (← bound) [])

/-- What happens to the line breaks at the end of a block scalar. -/
inductive Chomping where
  | strip
  | clip
  | keep
deriving DecidableEq

/-- The chomping indicator at the cursor, if one stands here. -/
def scanChomping : Scan (Option Chomping) := do
  need 1
  match ← head with
  | some '+' =>
    skip
    return some .keep
  | some '-' =>
    skip
    return some .strip
  | _ => return none

/-- The indentation indicator at the cursor, if one stands here. -/
def scanIndentation : Scan (Option Nat) := do
  need 1
  match ← head with
  | some d =>
    if d == '0' then fault "found an indentation indicator equal to 0"
    if d.isDigit then
      skip
      return some (d.toNat - '0'.toNat)
    else return none
  | none => return none

/-- The header of a block scalar: its chomping and its indentation, if it states one. -/
def blockHeader : Scan (Chomping × Option Nat) := do
  match ← scanChomping with
  | some chomping => return (chomping, ← scanIndentation)
  | none =>
    match ← scanIndentation with
    | some n => return ((← scanChomping).getD .clip, some n)
    | none => return (.clip, none)

/-- The end of a line on which nothing but a comment is left. -/
def endOfLine : Scan Unit := do
  Scan.skipSpaces
  if (← head) == some '#' then Scan.skipLine
  if !endsLine (← head) then fault "did not find expected comment or line break"
  if (← head).any isBreak then
    need 2
    let _ ← lineBreak

/-- Past spaces, at most up to a column if one is given. -/
def skipIndentation (column : Option Nat) : Nat → Scan Unit
  | 0 => return ()
  | fuel + 1 => do
    if column.all ((← Scan.mark).column < ·) && (← head) == some ' ' then
      skip
      need 1
      skipIndentation column fuel

/-- The blank lines at the cursor of a block scalar, from those read so far: the breaks kept, the last
first, and the deepest column reached. With a known indentation at most that many spaces are taken. -/
def blankLines (indent : Option Nat) : Nat → List Char → Nat → Scan (List Char × Nat)
  | 0, kept, deepest => return (kept, deepest)
  | fuel + 1, kept, deepest => do
    need 1
    skipIndentation indent (← bound)
    let column := (← Scan.mark).column
    let deepest := max deepest column
    if indent.all (column < ·) && (← head) == some '\t' then
      fault "found a tab character where an indentation space is expected"
    if (← head).any isBreak then
      need 2
      let b ← lineBreak
      blankLines indent fuel (b.toList ++ kept) deepest
    else return (kept, deepest)

/-- **The lines of a block scalar**: its text, the break after its last line, and the breaks of the
blank lines after that; text and breaks are held last character first. -/
structure BlockText where
  text : List Char
  lastBreak : Option Char
  blanks : List Char

/-- The lines of a block scalar at an indentation, from those read so far. `spaced` tells whether the
line before starts with a space. -/
def blockLines (isLiteral : Bool) (indent : Nat) : Nat → BlockText → Bool → Scan BlockText
  | 0, b, _ => return b
  | fuel + 1, b, spaced => do
    if (← Scan.mark).column == indent && (← head).isSome then
      let startsSpaced := (← head).any isSpace
      let joint : List Char :=
        if !isLiteral && !spaced && !startsSpaced && b.lastBreak == some '\n' then
          if b.blanks.isEmpty then [' '] else []
        else b.lastBreak.toList
      let line ← Scan.run fun c => !isBreak c
      need 2
      let lastBreak ← lineBreak
      let (blanks, _) ← blankLines (some indent) (← bound) [] 0
      let text := line.reverse ++ (b.blanks ++ (joint ++ b.text))
      blockLines isLiteral indent fuel ⟨text, lastBreak, blanks⟩ startsSpaced
    else return b

/-- **A block scalar**, from its indicator on; `parent` is the indentation of the surroundings. -/
def scanBlockScalar (isLiteral : Bool) (parent : Int) : Scan String := do
  skip
  let (chomping, stated) ← blockHeader
  endOfLine
  let known : Option Nat := stated.map fun n => (max parent 0).toNat + n
  let (blanks, deepest) ← blankLines known (← bound) [] 0
  let indent := known.getD (max deepest (max (parent + 1).toNat 1))
  need 1
  let b ← blockLines isLiteral indent (← bound) ⟨[], none, blanks⟩ false
  let ending : List Char := match chomping with
    | .strip => []
    | .clip => b.lastBreak.toList
    | .keep => b.blanks ++ b.lastBreak.toList
  return String.ofList (ending ++ b.text).reverse

end PhpAudit.Yaml
