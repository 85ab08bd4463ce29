import Mathlib.Data.List.TakeWhile
import PhpAudit.Proofs.Text.LetterCase
import PhpAudit.Text.Blank

/-!
# White space around a text

What is trimmed from a text is white space on both of its sides and nothing else
(`exists_around_trimBlank`), and all of it is trimmed (`trimBlank_ofChars`). No letter is white space, in
whatever case it is written (`isBlank_of_isCaseOf`).
-/

namespace PhpAudit.Text

/-- White space is spelled by characters. -/
theorem exists_chars_of_blank {gs : List Glyph} (blank : ∀ g ∈ gs, g.has isBlank = true) :
    ∃ cs : List Char, gs = cs.map .char ∧ ∀ c ∈ cs, isBlank c = true := by
  induction gs with
  | nil => exact ⟨[], rfl, List.forall_mem_nil _⟩
  | cons g gs ih =>
    obtain ⟨first, blank⟩ := List.forall_mem_cons.mp blank
    obtain ⟨cs, rfl, rest⟩ := ih blank
    cases g with
    | char c => exact ⟨c :: cs, rfl, List.forall_mem_cons.mpr ⟨first, rest⟩⟩
    | stray b => cases first

/-- Dropping from both ends of a list drops from both ends only. -/
theorem exists_around_dropWhile {α : Type} (p : α → Bool) (xs : List α) : ∃ before after,
    (∀ x ∈ before, p x = true) ∧ (∀ x ∈ after, p x = true) ∧
      xs = before ++ (((xs.dropWhile p).reverse.dropWhile p).reverse ++ after) := by
  refine ⟨xs.takeWhile p, ((xs.dropWhile p).reverse.takeWhile p).reverse,
    fun x hx => List.mem_takeWhile_imp hx,
    fun x hx => List.mem_takeWhile_imp (List.mem_reverse.mp hx), ?_⟩
  rw [← List.reverse_append, List.takeWhile_append_dropWhile, List.reverse_reverse,
    List.takeWhile_append_dropWhile]

/-- **Only white space is trimmed.** -/
theorem exists_around_trimBlank (t : Text) : ∃ before after : List Char,
    (∀ c ∈ before ++ after, isBlank c = true) ∧
      t = ofChars before ++ trimBlank t ++ ofChars after := by
  obtain ⟨start, finish, first, last, glyphs⟩ :=
    exists_around_dropWhile (Glyph.has isBlank) t.glyphs
  obtain ⟨before, rfl, left⟩ := exists_chars_of_blank first
  obtain ⟨after, rfl, right⟩ := exists_chars_of_blank last
  refine ⟨before, after, List.forall_mem_append.mpr ⟨left, right⟩, ?_⟩
  have spelled := congrArg ofGlyphs glyphs
  rw [ofGlyphs_append, ofGlyphs_append, ofGlyphs_glyphs, ofGlyphs_chars, ofGlyphs_chars] at spelled
  rw [append_assoc]
  exact spelled

/-- A text that does not start with white space is kept from there on. -/
theorem dropWhile_visible {cs : List Char} (some : cs ≠ []) (visible : ∀ c ∈ cs, isBlank c = false)
    (rest : List Glyph) : (cs.map Glyph.char ++ rest).dropWhile (Glyph.has isBlank) =
      cs.map .char ++ rest := by
  cases cs with
  | nil => exact absurd rfl some
  | cons c cs =>
    refine List.dropWhile_cons_of_neg fun blank => ?_
    exact Bool.false_ne_true ((visible c List.mem_cons_self).symm.trans blank)

/-- **All white space is trimmed.** -/
theorem trimBlank_ofChars {before letters after : List Char}
    (blank : ∀ c ∈ before ++ after, isBlank c = true) (some : letters ≠ [])
    (visible : ∀ c ∈ letters, isBlank c = false) :
    trimBlank (ofChars (before ++ letters ++ after)) = ofChars letters := by
  obtain ⟨first, last⟩ := List.forall_mem_append.mp blank
  have dropped {cs : List Char} (blank : ∀ c ∈ cs, isBlank c = true) (rest : List Glyph) :
      (cs.map Glyph.char ++ rest).dropWhile (Glyph.has isBlank) =
        rest.dropWhile (Glyph.has isBlank) := by
    refine List.dropWhile_append_of_pos fun g hg => ?_
    obtain ⟨c, hc, rfl⟩ := List.mem_map.mp hg
    exact blank c hc
  have left : (ofChars (before ++ letters ++ after)).glyphs.dropWhile (Glyph.has isBlank) =
      letters.map .char ++ after.map .char := by
    rw [glyphs_ofChars, List.append_assoc, List.map_append, dropped first, List.map_append,
      dropWhile_visible some visible]
  rw [trimBlank, left, List.reverse_append, ← List.map_reverse, ← List.map_reverse,
    dropped (by simpa using last), ← List.append_nil (letters.reverse.map Glyph.char),
    dropWhile_visible (by simpa using some) (by simpa using visible), List.append_nil,
    ← List.map_reverse, List.reverse_reverse, ofGlyphs_chars]

theorem isBlank_toLower {c : Char} (ascii : c.toNat < 0x80) : isBlank c.toLower = isBlank c :=
  forall_ascii (P := fun c => isBlank c.toLower = isBlank c) (by decide) ascii

/-- **Letter case does not make a character white space.** -/
theorem isBlank_of_isCaseOf {w c : Char} (word : isWordChar w = true) (stands : IsCaseOf w c) :
    isBlank c = isBlank w := by
  obtain ⟨-, ascii⟩ := isWordChar_iff.mp word
  obtain ⟨-, lower⟩ := isWordChar_iff.mp (isWordChar_toLower word)
  rw [← isBlank_toLower ascii]
  obtain same | ⟨same, rfl⟩ | ⟨same, rfl⟩ := stands
  · rw [← same, isBlank_toLower (ascii_of_toLower (same ▸ lower))]
  · rw [same]
    decide
  · rw [same]
    decide

end PhpAudit.Text
