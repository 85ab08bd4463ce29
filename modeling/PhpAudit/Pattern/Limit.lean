import PhpAudit.Pattern.Class

/-!
# Limits of patterns

A pattern may nest at most `maxHeight` deep, and with its counted repeats written out it may have at
most `maxSize` steps. Both are kept with every **part** that is read: its height, and its size.

Sizes are not watched from the start. A **budget** counts the parts that were made, less those whose
place a later part takes, and multiplies the counts of all repeats. Once the two could together give a
pattern of `maxSize` steps, the size of every part counts.
-/

namespace PhpAudit.Pattern

/-- The most steps of a pattern. -/
def maxSize : Nat := 3355443

/-- How deep a pattern may nest. -/
def maxHeight : Nat := 1000

/-- What a part is, where that matters to the parts beside or around it. -/
inductive Form where
  /-- Some characters, one after the other; folded when letter case does not count in them. -/
  | letters (count : Nat) (folded : Bool)
  /-- One character of a class. -/
  | oneOf
  /-- A repeat with a count. -/
  | counted (count : Nat)
  | sequence
  | choice
  | other
deriving DecidableEq, Repr

/-- **A part of a pattern**, with what the limits are about. -/
structure Part where
  pattern : Pattern
  form : Form
  size : Nat := 1
  height : Nat := 1
deriving Repr

namespace Part

/-- The part of one character, by its code. -/
def letter (flags : Flags) (code : Nat) : Part :=
  ⟨.char (single [(code, code)] false flags.foldCase), .letters 1 flags.foldCase, 1, 1⟩

/-- A class of one code, whatever letter case, is that character. -/
def ofClass (k : CharClass) : Part :=
  match k with
  | ⟨[⟨[(a, b)], false, false⟩], false⟩ => ⟨.char k, if a = b then .letters 1 false else .oneOf, 1, 1⟩
  | _ => ⟨.char k, .oneOf, 1, 1⟩

/-- The part of a condition. -/
def ofAnchor (a : Anchor) : Part := ⟨.place a, .other, 1, 1⟩

/-- The part that writes nothing. -/
def nothing : Part := ⟨.empty, .other, 1, 1⟩

/-- What opens a group or parts alternatives. -/
def mark : Part := nothing

/-- A part between parentheses that number it. -/
def captured (p : Part) : Part := ⟨p.pattern, .other, p.size + 2, p.height + 1⟩

/-- A part that takes one character. -/
def isOne (p : Part) : Bool :=
  match p.form with
  | .letters n _ => n == 1
  | .oneOf => true
  | _ => false

/-- Two parts of one character each, as a choice between the two characters. -/
def orElse (p q : Part) : Part := ⟨.either p.pattern q.pattern, .oneOf, 1, 1⟩

/-- The size of letters is their number. -/
def measured (p : Part) : Part :=
  match p.form with
  | .letters n _ => { p with size := n }
  | _ => p

/-- Letters after letters, if the two can be one part. Once sizes are watched, the letters that join a
part do not count until the part is used. -/
def joined? (watched : Bool) (p q : Part) : Option Part :=
  match p.form, q.form with
  | .letters n f, .letters m g =>
    if f = g then
      some ⟨.both p.pattern q.pattern, .letters (n + m) f, if watched then p.size else p.size + q.size, 1⟩
    else none
  | _, _ => none

/-- The height of a part inside one of a form: what has that form already does not nest. -/
def heightIn (form : Form) (p : Part) : Nat := if p.form = form then p.height - 1 else p.height

/-- A part that holds others, of which there are some. -/
def holding (form : Form) (join : Pattern → Pattern → Pattern) (size : Nat) (p : Part)
    (ps : List Part) : Part :=
  ⟨ps.foldl (fun q r => join q r.pattern) p.pattern, form, max 1 size,
    ((p :: ps).map (heightIn form)).foldl max 0 + 1⟩

/-- Parts one after the other. -/
def inSequence (p : Part) (ps : List Part) : Part :=
  holding .sequence .both (((p :: ps).map size).foldl (· + ·) 0) p ps

/-- Alternatives. -/
def inChoice (p : Part) (ps : List Part) : Part :=
  holding .choice .either (((p :: ps).map size).foldl (· + ·) 0 + ps.length) p ps

/-- The size of a repeat of something of size `n`, without a count. -/
def freeSize (most : Option Nat) (least n : Nat) : Nat :=
  if least = 0 ∧ most.isNone then n + 2 else n + 1

/-- The size of a repeat of something of size `n`, with a count. -/
def countedSize (most : Option Nat) (least n : Nat) : Nat :=
  match most with
  | some m => m * n + (m - least)
  | none => if least = 0 then n + 2 else least * n + 1

/-- **A part that is repeated**, by a mark or by a count. -/
def times (least : Nat) (most : Option Nat) (isCounted : Bool) (p : Part) : Part :=
  if isCounted then
    ⟨.times least most p.pattern, .counted (most.getD least), max 1 (countedSize most least p.size),
      p.height + 1⟩
  else ⟨.times least most p.pattern, .other, freeSize most least p.size, p.height + 1⟩

end Part

/-- **What a pattern has used up**: the parts made, the places of parts that were given up, the product
of the counts, and whether sizes are watched. -/
structure Budget where
  made : Nat := 0
  spare : Nat := 0
  repeats : Nat := 1
  watched : Bool := false
deriving DecidableEq, Repr

namespace Budget

/-- Makes a part. -/
def take (b : Budget) : Budget :=
  if b.spare = 0 then { b with made := b.made + 1 } else { b with spare := b.spare - 1 }

/-- Gives up the places of `n` parts. -/
def free (n : Nat) (b : Budget) : Budget := { b with spare := b.spare + n }

/-- Uses a part: counts multiply, and sizes are watched once they could matter. -/
def use (p : Part) (b : Budget) : Budget :=
  if b.watched then b
  else
    let n := match p.form with | .counted n => max 1 n | _ => 1
    let repeats := if n > maxSize / b.repeats then maxSize else b.repeats * n
    { b with repeats := repeats, watched := maxSize / repeats ≤ b.made }

end Budget

end PhpAudit.Pattern
