import PhpAudit.Text.Basic

/-!
# Texts as glyphs

Where a text is shown, quoted or compared letter by letter it is read as **glyphs**: a glyph is a
character, or a byte that belongs to no character of a well-formed UTF-8 sequence. `Text.glyphs` reads
a text, `Text.ofGlyphs` spells it again, and `Text.display` shows every stray byte as one replacement
character.

**What it does not establish.** The glyphs of two texts put side by side need not be those of the
texts: stray bytes at the end of the first and the start of the second may join into a character.
-/

namespace PhpAudit

/-- **A glyph**: a character, or a byte outside every well-formed UTF-8 sequence. -/
inductive Glyph where
  | char (c : Char)
  | stray (b : UInt8)
deriving DecidableEq, Repr, Inhabited

namespace Glyph

/-- The bytes of a glyph. -/
def bytes : Glyph → List UInt8
  | .char c => String.utf8EncodeChar c
  | .stray b => [b]

/-- The character that shows a glyph: a stray byte is shown as the replacement character. -/
def shown : Glyph → Char
  | .char c => c
  | .stray _ => '\ufffd'

/-- The glyph is a character with a property. -/
def has (p : Char → Bool) : Glyph → Bool
  | .char c => p c
  | .stray _ => false

end Glyph

namespace Utf8

/-- A continuation byte, without its two marking bits. -/
def tail? (b : UInt8) : Option Nat :=
  if 0x80 ≤ b.toNat ∧ b.toNat < 0xc0 then some (b.toNat - 0x80) else none

/-- The character of a code that a sequence of this length may spell: no shorter sequence spells
it, and it is no surrogate. -/
def scalar? (least code : Nat) : Option Char :=
  if h : least ≤ code ∧ code.isValidChar then some (Char.ofNatAux code h.2) else none

/-- The character that starts with byte `a`, and the number of continuation bytes it takes from
`rest`. -/
def first? (a : UInt8) (rest : List UInt8) : Option (Char × Nat) :=
  let n := a.toNat
  if n < 0x80 then (scalar? 0 n).map (·, 0)
  else if 0xc0 ≤ n ∧ n < 0xe0 then
    match rest with
    | b :: _ => do
      let y ← tail? b
      (scalar? 0x80 ((n - 0xc0) * 64 + y)).map (·, 1)
    | _ => none
  else if 0xe0 ≤ n ∧ n < 0xf0 then
    match rest with
    | b :: c :: _ => do
      let y ← tail? b
      let z ← tail? c
      (scalar? 0x800 (((n - 0xe0) * 64 + y) * 64 + z)).map (·, 2)
    | _ => none
  else if 0xf0 ≤ n ∧ n < 0xf8 then
    match rest with
    | b :: c :: d :: _ => do
      let y ← tail? b
      let z ← tail? c
      let w ← tail? d
      (scalar? 0x10000 ((((n - 0xf0) * 64 + y) * 64 + z) * 64 + w)).map (·, 3)
    | _ => none
  else none

/-- **The glyphs of a byte string**: characters where well-formed sequences stand, stray bytes
elsewhere. -/
def glyphs : List UInt8 → List Glyph
  | [] => []
  | a :: rest =>
    match first? a rest with
    | some (c, n) => .char c :: glyphs (rest.drop n)
    | none => .stray a :: glyphs rest
termination_by bs => bs.length
decreasing_by
  all_goals rw [List.length_cons]
  · have := List.length_drop (i := n) (l := rest)
    omega
  · omega

end Utf8

namespace Text

/-- **The glyphs of a text.** -/
def glyphs (t : Text) : List Glyph := Utf8.glyphs t.bytes

/-- The text that glyphs spell. -/
def ofGlyphs (gs : List Glyph) : Text := ⟨gs.flatMap Glyph.bytes⟩

/-- The characters that show a text. -/
def shown (t : Text) : List Char := t.glyphs.map Glyph.shown

/-- The text as a string, every stray byte shown as the replacement character. -/
def display (t : Text) : String := String.ofList t.shown

@[simp] theorem ofGlyphs_append (gs hs : List Glyph) :
    ofGlyphs (gs ++ hs) = ofGlyphs gs ++ ofGlyphs hs :=
  congrArg mk List.flatMap_append

end Text

end PhpAudit
