import Mathlib.Algebra.Group.Nat.Defs
import PhpAudit.Proofs.Text.Glyphs

/-!
# Escaped text is read back

`unescaped` reads an escaped text: a backslash starts an escape, whose next character tells how many
hexadecimal digits follow, or which character it stands for. Two digits stand for a character below 0x80 and
for a stray byte above it, so what is escaped by its bytes and what is escaped as a character are told
apart.

**The law** (`escaped_is_printable_and_injective`): whatever bytes a text has, its escaped form is a string
of printable characters, and reading that back gives the text. So two texts never look the same.
-/

namespace PhpAudit

namespace Text

/-! ## Hexadecimal digits -/

/-- The value of a hexadecimal digit. -/
def digitValue (c : Char) : Nat := if c.toNat < 0x61 then c.toNat - 0x30 else c.toNat - 0x57

/-- The number that hexadecimal digits write. -/
def hexValue (ds : List Char) : Nat := ds.foldl (fun n d => 16 * n + digitValue d) 0

theorem digitValue_digitChar {n : Nat} (h : n < 16) : digitValue n.digitChar = n := by
  revert n
  decide

theorem hexValue_concat (ds : List Char) (d : Char) :
    hexValue (ds ++ [d]) = 16 * hexValue ds + digitValue d := by
  rw [hexValue, List.foldl_append, List.foldl_cons, List.foldl_nil, hexValue]

theorem hexValue_toDigits (n : Nat) : hexValue (Nat.toDigits 16 n) = n := by
  induction n using Nat.strongRecOn with
  | ind n ih =>
    by_cases small : n < 16
    · rw [Nat.toDigits_of_lt_base small, ← List.nil_append [n.digitChar], hexValue_concat,
        digitValue_digitChar small]
      exact Nat.zero_add n
    · rw [Nat.toDigits_of_base_le (by decide) (Nat.le_of_not_lt small), hexValue_concat,
        ih (n / 16) (by omega), digitValue_digitChar (Nat.mod_lt n (by decide))]
      exact Nat.div_add_mod n 16

theorem hexValue_replicate_append (k : Nat) (ds : List Char) :
    hexValue (List.replicate k '0' ++ ds) = hexValue ds := by
  induction k with
  | zero => rfl
  | succ k ih => exact ih

/-- **The digits of a number write it**, whatever zeros come before them. -/
theorem hexValue_hex (width n : Nat) : hexValue (hex width n) = n := by
  rw [hex, hexValue_replicate_append, hexValue_toDigits]

theorem length_hex {width n : Nat} (some : 0 < width) (small : n < 16 ^ width) :
    (hex width n).length = width := by
  have digits := (Nat.length_toDigits_le_iff (b := 16) (by decide) some).mpr small
  rw [hex, List.length_append, List.length_replicate]
  omega

/-! ## Reading escapes -/

/-- The character of a short escape; a quote and a backslash stand for themselves. -/
def ofShortEscape (e : Char) : Char :=
  match e with
  | 'a' => '\x07'
  | 'b' => '\x08'
  | 'f' => '\x0c'
  | 'n' => '\x0a'
  | 'r' => '\x0d'
  | 't' => '\x09'
  | 'v' => '\x0b'
  | c => c

/-- The number of hexadecimal digits of an escape. -/
def escapeWidth? : Char → Option Nat
  | 'x' => some 2
  | 'u' => some 4
  | 'U' => some 8
  | _ => none

/-- The glyph of so many hexadecimal digits: two of them stand for a byte. -/
def ofDigits (width n : Nat) : Glyph :=
  if width = 2 ∧ 0x80 ≤ n then .stray (UInt8.ofNat n) else .char (Char.ofNat n)

/-- **Reads an escape**, from what stands after its backslash, and gives what stands after it. -/
def readEscape : List Char → Glyph × List Char
  | [] => (.char '\\', [])
  | e :: rest =>
    match escapeWidth? e with
    | some width => (ofDigits width (hexValue (rest.take width)), rest.drop width)
    | none => (.char (ofShortEscape e), rest)

theorem length_readEscape (cs : List Char) : (readEscape cs).2.length ≤ cs.length := by
  cases cs with
  | nil => exact Nat.le_refl 0
  | cons e rest =>
    rw [readEscape]
    cases escapeWidth? e with
    | none => exact Nat.le_succ _
    | some width =>
      rw [List.length_cons, List.length_drop]
      omega

/-- Reads the glyphs of escaped characters. -/
def unescape : List Char → List Glyph
  | [] => []
  | c :: cs =>
    if c = '\\' then (readEscape cs).1 :: unescape (readEscape cs).2
    else .char c :: unescape cs
termination_by cs => cs.length
decreasing_by
  · exact Nat.lt_succ_of_le (length_readEscape cs)
  · exact Nat.lt_succ_self _

/-- **The text of an escaped form.** -/
def unescaped (t : Text) : Text := ofGlyphs (unescape t.shown)

theorem unescape_backslash (cs : List Char) :
    unescape ('\\' :: cs) = (readEscape cs).1 :: unescape (readEscape cs).2 := by
  rw [unescape, if_pos rfl]

/-! ## What is read is what was escaped -/

/-- An escape by digits is read as its number, when the number has no more digits. -/
theorem readEscape_digits {e : Char} {width n : Nat} (wide : escapeWidth? e = some width)
    (some : 0 < width) (small : n < 16 ^ width) (rest : List Char) :
    readEscape (e :: hex width n ++ rest) = (ofDigits width n, rest) := by
  have digits := length_hex some small
  rw [List.cons_append, readEscape, wide]
  simp only [List.take_left' digits, List.drop_left' digits, hexValue_hex]

theorem readEscape_short {c e : Char} (short : shortEscape? c = some e) (rest : List Char) :
    readEscape (e :: rest) = (.char c, rest) := by
  have own : Char.ofNat c.toNat = c := Char.ofNat_toNat c
  unfold shortEscape? at short
  split at short
  case h_8 => cases short
  all_goals
    next code =>
      cases short
      rw [← own, code]
      rfl

theorem unescape_escapeChar (c : Char) (rest : List Char) :
    unescape (escapeChar c ++ rest) = .char c :: unescape rest := by
  have most : c.toNat < 16 ^ 8 := by
    have valid : c.toNat < 0xd800 ∨ 0xdfff < c.toNat ∧ c.toNat < 0x110000 := c.valid
    omega
  have read {width : Nat} (h : ¬ (width = 2 ∧ 0x80 ≤ c.toNat)) : ofDigits width c.toNat = .char c := by
    rw [ofDigits, if_neg h, Char.ofNat_toNat]
  unfold escapeChar
  split
  · next marked =>
    obtain rfl | rfl := marked
    all_goals exact unescape_backslash _
  next unmarked =>
  split
  · have plain : c ≠ '\\' := fun same => unmarked (.inr same)
    rw [List.singleton_append, unescape, if_neg plain]
  split
  · next e short =>
    rw [List.cons_append, unescape_backslash, List.singleton_append, readEscape_short short]
  split
  · rw [List.cons_append, unescape_backslash,
      readEscape_digits rfl (by decide) (by omega), read (by omega)]
  split
  · next basic =>
    rw [List.cons_append, unescape_backslash, readEscape_digits rfl (by decide) basic, read (by omega)]
  · rw [List.cons_append, unescape_backslash, readEscape_digits rfl (by decide) most, read (by omega)]

theorem unescape_escapeGlyph {g : Glyph} (high : ∀ b, g = .stray b → 0x80 ≤ b.toNat)
    (rest : List Char) : unescape (escapeGlyph g ++ rest) = g :: unescape rest := by
  cases g with
  | char c => exact unescape_escapeChar c rest
  | stray b =>
    rw [escapeGlyph, List.cons_append, unescape_backslash, readEscape_digits rfl (by decide) b.toNat_lt,
      ofDigits, if_pos ⟨rfl, high b rfl⟩, UInt8.ofNat_toNat]

/-- **The escaped characters of a text are read as its glyphs.** -/
theorem unescape_escapedChars (t : Text) : unescape t.escapedChars = t.glyphs := by
  have read (gs : List Glyph) (high : ∀ b, .stray b ∈ gs → 0x80 ≤ b.toNat) :
      unescape (gs.flatMap escapeGlyph) = gs := by
    induction gs with
    | nil => rw [List.flatMap_nil, unescape]
    | cons g gs ih =>
      rw [List.flatMap_cons, unescape_escapeGlyph fun b same => high b (same ▸ List.mem_cons_self),
        ih fun b hb => high b (List.mem_cons_of_mem g hb)]
  exact read t.glyphs fun b hb => Utf8.le_of_stray_mem hb

/-- **An escaped text is read back.** -/
theorem unescaped_escaped (t : Text) : unescaped (escaped t) = t := by
  have shown : t.escaped.shown = t.escapedChars := shown_ofChars t.escapedChars
  rw [unescaped, shown, unescape_escapedChars, ofGlyphs_glyphs]

/-- A stray byte, the escape of that byte spelled out, and a character above it. -/
example : escaped ⟨[0x80]⟩ = "\\x80" ∧ escaped "\\x80" = "\\\\x80" ∧ escaped "\x80" = "\\u0080" := by
  decide +kernel

/-- **Escaped text cannot be mistaken.** The escaped form is the quoted one without its quotes. Whatever
bytes a text has, it is the text of a string, so well-formed, whose characters are all printable; a
control character is not among them. And two texts with the same escaped form are the same. -/
theorem escaped_is_printable_and_injective :
    (∀ t : Text, (quoted t).bytes = mark '\x22' :: (escaped t).bytes ++ [mark '\x22']) ∧
    (∀ t : Text, ∃ s : String, escaped t = ofString s ∧
      ∀ c ∈ s.toList, isPrintable c = true ∧ isControl c = false) ∧
    Function.Injective escaped := by
  refine ⟨fun t => rfl, fun t => ?_, Function.LeftInverse.injective unescaped_escaped⟩
  refine ⟨String.ofList t.escapedChars, ?_, fun c hc => ?_⟩
  · rw [ofString_eq, String.toList_ofList]
    rfl
  · rw [String.toList_ofList] at hc
    have printable := isPrintable_of_mem_escapedChars hc
    exact ⟨printable, isControl_of_isPrintable printable⟩

end Text

end PhpAudit
