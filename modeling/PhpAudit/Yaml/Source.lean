import PhpAudit.Text.Glyph

/-!
# A document while it is read

A **source** is what is left of a document, the place reached, and how far the document has been looked
at. A document is looked at in **blocks** of 512 bytes, less where a character would be cut in two, and
a block only when a character of it is needed: what a later block holds, a control character for
instance, is no fault of a reading that ends before it.

Lines and columns count from zero. A line ends at a line feed, a carriage return, the two together, or
one of the three line separators above ASCII. When a break is kept it is kept as a line feed, except
that the two separators proper are kept as they are.
-/

namespace PhpAudit.Yaml

/-- A place in a document. -/
structure Mark where
  index : Nat
  line : Nat
  column : Nat
deriving DecidableEq, Repr, Inhabited

/-- **Why a document is no YAML**: what is wrong, and the line that is told with it. -/
structure Fault where
  line : Option Nat
  problem : String
deriving DecidableEq, Repr, Inhabited

namespace Fault

/-- The line told with a fault of spelling: that where the token starts, or, when this is the first line
of the document, that where the fault is met. The first line is not told. -/
def inToken (start met : Nat) (problem : String) : Fault :=
  ⟨([start, met].find? (· ≠ 0)).map (· + 1), problem⟩

/-- The line told with a token that does not fit where it stands: that before the start of what it
stands in, or else that before the token. -/
def inNode (start met : Nat) (problem : String) : Fault := ⟨[start, met].find? (· ≠ 0), problem⟩

/-- The wording of a fault. -/
def message (f : Fault) : Text :=
  let place : Text := match f.line with
    | some n => "line " ++ toString n ++ ": "
    | none => ""
  "yaml: " ++ place ++ f.problem

end Fault

/-- A character that ends a line. -/
def isBreak (c : Char) : Bool :=
  c == '\n' || c == '\r' || c == '\u0085' || c == '\u2028' || c == '\u2029'

/-- A space or a tab. -/
def isSpace (c : Char) : Bool := c == ' ' || c == '\t'

/-- A character of a name: an ASCII letter or digit, an underscore or a hyphen. -/
def isNameChar (c : Char) : Bool := c.isAlphanum || c == '_' || c == '-'

/-- The value of a hexadecimal digit. -/
def hexValue? (c : Char) : Option Nat :=
  if c.isDigit then some (c.toNat - '0'.toNat)
  else if 'a' ≤ c ∧ c ≤ 'f' then some (c.toNat - 'a'.toNat + 10)
  else if 'A' ≤ c ∧ c ≤ 'F' then some (c.toNat - 'A'.toNat + 10)
  else none

/-- A place where a word ends: the end of the document, a space, a tab or a break. -/
def endsWord : Option Char → Bool
  | none => true
  | some c => isSpace c || isBreak c

/-- A place where a line ends: the end of the document or a break. -/
def endsLine : Option Char → Bool
  | none => true
  | some c => isBreak c

/-- The mark at the start of a document that tells the order of its bytes. -/
def byteOrderMark : Char := '\ufeff'

/-- A character a document may hold. -/
def isDocumentChar (c : Char) : Bool :=
  let n := c.toNat
  n == 0x09 || n == 0x0a || n == 0x0d || (0x20 ≤ n && n ≤ 0x7e) || n == 0x85 ||
    (0xa0 ≤ n && n ≤ 0xd7ff) || (0xe000 ≤ n && n ≤ 0xfffd) || 0x10000 ≤ n

/-- **A block of a document**: the number of its characters, and whether one of its glyphs is none that
a document may hold. -/
structure Block where
  length : Nat
  faulty : Bool
deriving DecidableEq, Repr

/-- The most bytes of a block. -/
def blockBytes : Nat := 512

/-- The blocks of glyphs, from a block that is begun and has room for some more bytes. -/
def blocksFrom : List Glyph → Nat → Block → List Block
  | [], _, b => if b.length = 0 then [] else [b]
  | g :: gs, room, b =>
    let width := g.bytes.length
    let bad := !g.has isDocumentChar
    if width ≤ room then blocksFrom gs (room - width) ⟨b.length + 1, b.faulty || bad⟩
    else b :: blocksFrom gs (blockBytes - width) ⟨1, bad⟩

/-- **A source.** -/
structure Source where
  /-- The characters that are left. -/
  rest : List Char
  mark : Mark
  /-- The number of characters of the whole document. -/
  size : Nat
  /-- The number of characters ahead that have been looked at; the end of the document counts as a
  character, and once more each time it is looked at in vain. -/
  ahead : Nat
  /-- The blocks that have not been looked at. -/
  blocks : List Block
  /-- The character that was the next one when a block was last looked at is a byte order mark. -/
  marked : Bool
  /-- The number of breaks since the last character that is neither space nor tab. -/
  breaks : Nat
  /-- The line where the token that is read starts. -/
  start : Nat

namespace Source

/-- **The source of a document.** A byte order mark at its start is no part of it. -/
def ofText (t : Text) : Source :=
  let (gs, room) := match t.glyphs with
    | .char '\ufeff' :: gs => (gs, blockBytes - 3)
    | gs => (gs, blockBytes)
  { rest := gs.map Glyph.shown, mark := ⟨0, 0, 0⟩, size := gs.length, ahead := 0
    blocks := blocksFrom gs room ⟨0, false⟩, marked := false, breaks := 0, start := 0 }

/-- The number of characters left. -/
def left (s : Source) : Nat := s.size - s.mark.index

/-- Looks at blocks until some characters are ahead: the blocks left, and the characters ahead. A
faulty block cannot be looked at. -/
def look (wanted : Nat) : List Block → Nat → Option (List Block × Nat)
  | [], ahead => some ([], if ahead < wanted then ahead + 1 else ahead)
  | b :: bs, ahead =>
    if wanted ≤ ahead then some (b :: bs, ahead)
    else if b.faulty then none
    else look wanted bs (ahead + b.length)

/-- The source after some of the next characters have been looked at. -/
def need? (wanted : Nat) (s : Source) : Option Source :=
  if wanted ≤ s.ahead then some s
  else (look wanted s.blocks s.ahead).map fun (blocks, ahead) =>
    { s with blocks, ahead, marked := s.rest.head? == some byteOrderMark }

/-- Past one character, which is no break. -/
def skip (s : Source) : Source :=
  { s with
    rest := s.rest.tail
    mark := { s.mark with index := s.mark.index + 1, column := s.mark.column + 1 }
    ahead := s.ahead - 1
    breaks := if s.rest.head?.any isSpace then s.breaks else 0 }

/-- Past a line break, and the character the break is kept as; `none` where no break stands. -/
def lineBreak? (s : Source) : Option (Char × Source) :=
  let past (n : Nat) : Source :=
    { s with
      rest := s.rest.drop n
      mark := ⟨s.mark.index + n, s.mark.line + 1, 0⟩
      ahead := s.ahead - n
      breaks := s.breaks + 1 }
  match s.rest with
  | '\r' :: '\n' :: _ => some ('\n', past 2)
  | b :: _ =>
    if isBreak b then some (if b == '\u2028' || b == '\u2029' then b else '\n', past 1) else none
  | [] => none

/-- A document marker stands here: three times `m` at the start of a line, before the end of a
word. -/
def atMarker (s : Source) (m : Char) : Bool :=
  s.mark.column == 0 && s.rest[0]? == some m && s.rest[1]? == some m && s.rest[2]? == some m &&
    endsWord s.rest[3]?

end Source

/-- **A step of a reading**: it goes from a source to a value and the source after it, or meets a
fault. -/
abbrev Scan := StateT Source (Except Fault)

namespace Scan

/-- A fault in the token that is read. -/
def fault {α : Type} (problem : String) : Scan α := do
  let s ← get
  throw (.inToken s.start s.mark.line problem)

/-- Looks at some of the next characters. -/
def need (wanted : Nat) : Scan Unit := do
  match (← get).need? wanted with
  | some s => set s
  | none => throw ⟨none, "control characters are not allowed"⟩

/-- The place reached. -/
def mark : Scan Mark := do return (← get).mark

/-- A bound for the steps that a reading can still make. -/
def bound : Scan Nat := do return (← get).left + 1

/-- The next character. -/
def head : Scan (Option Char) := do return (← get).rest.head?

/-- The character `n` places ahead. -/
def peek (n : Nat) : Scan (Option Char) := do return (← get).rest[n]?

/-- Past one character, which is no break. -/
def skip : Scan Unit := modify Source.skip

/-- Past a line break, if one stands here, and the character it is kept as. -/
def lineBreak : Scan (Option Char) := do
  match (← get).lineBreak? with
  | some (c, s) =>
    set s
    return some c
  | none => return none

/-- Either document marker stands here. -/
def atAnyMarker : Scan Bool := do
  let s ← get
  return s.atMarker '-' || s.atMarker '.'

/-- The run of characters with a property, from those read so far, which are held last first. -/
def runFrom (p : Char → Bool) : Nat → List Char → Scan (List Char)
  | 0, run => return run.reverse
  | fuel + 1, run => do
    match ← head with
    | some c =>
      if p c then
        skip
        need 1
        runFrom p fuel (c :: run)
      else return run.reverse
    | none => return run.reverse

/-- **The run of characters** with a property, none of them a break. -/
def run (p : Char → Bool) : Scan (List Char) := do
  need 1
  runFrom p (← bound) []

/-- Past the spaces and tabs here. -/
def skipSpaces : Scan Unit := do let _ ← run isSpace

/-- Past the rest of the line, up to its break. -/
def skipLine : Scan Unit := do let _ ← run fun c => !isBreak c

end Scan

end PhpAudit.Yaml
