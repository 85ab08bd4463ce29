import Mathlib.Data.List.Forall2
import PhpAudit.Proofs.Text.Glyphs

/-!
# Names in any letter case

Names are compared up to the one-character fold, which knows the letters of every script: the Kelvin
sign folds to `k`, and the long s to `s`. No other character beyond ASCII folds to an ASCII character. So
a name is compared equal to an ASCII word exactly when it is spelled as that word in some mix of upper and
lower case, in which these two stand for their letters (`sameLetters_ascii_iff`). In a word without `s` and
`k` letter case alone is left (`sameLetters_iff`).
-/

namespace PhpAudit

namespace Text

/-! ## Folds of characters -/

/-- A lower case letter of ASCII that no letter beyond ASCII folds to. -/
def isBasicLetter (c : Char) : Bool :=
  0x61 ≤ c.toNat && c.toNat ≤ 0x7a && c ≠ 's' && c ≠ 'k'

theorem isBasicLetter_iff {c : Char} : isBasicLetter c = true ↔
    (0x61 ≤ c.toNat ∧ c.toNat ≤ 0x7a) ∧ c ≠ 's' ∧ c ≠ 'k' := by
  simp only [isBasicLetter, Bool.and_eq_true, decide_eq_true_eq, and_assoc]

/-- An ASCII character other than NUL. -/
def isWordChar (c : Char) : Bool := 0 < c.toNat && c.toNat < 0x80

theorem isWordChar_iff {c : Char} : isWordChar c = true ↔ 0 < c.toNat ∧ c.toNat < 0x80 := by
  simp only [isWordChar, Bool.and_eq_true, decide_eq_true_eq]

/-- **A character stands for an ASCII character in some letter case**: it is that character in lower or
upper case, or the long s for `s`, or the Kelvin sign for `k`. -/
def IsCaseOf (w c : Char) : Prop :=
  c.toLower = w.toLower ∨ w.toLower = 's' ∧ c = '\u017f' ∨ w.toLower = 'k' ∧ c = '\u212a'

instance (w c : Char) : Decidable (IsCaseOf w c) :=
  inferInstanceAs (Decidable (_ ∨ _ ∧ _ ∨ _ ∧ _))

/-- What holds of the first codes holds of the ASCII characters. -/
theorem forall_ascii {P : Char → Prop} (all : ∀ n < 0x80, P (Char.ofNat n)) {c : Char}
    (ascii : c.toNat < 0x80) : P c := by
  have own := all c.toNat ascii
  rwa [Char.ofNat_toNat] at own

theorem foldChar_ascii {c : Char} (ascii : c.toNat < 0x80) : foldChar c = c.toLower :=
  forall_ascii (P := fun c => foldChar c = c.toLower) (by decide +kernel) ascii

/-- The runs stay on their side of ASCII, but for the long s and the Kelvin sign. -/
theorem foldRuns_ascii : ∀ r ∈ foldRuns, r.2.1 < 0x80 ∨ 0x80 ≤ r.1 + r.2.2.2 ∨
    r = (0x17f, 0x17f, 1, -268) ∨ r = (0x212a, 0x212a, 1, -8383) := by
  decide +kernel

theorem toNat_ofNat (n : Nat) : (Char.ofNat n).toNat = n ∨ (Char.ofNat n).toNat = 0 := by
  by_cases valid : n.isValidChar
  · rw [Char.ofNat, dif_pos valid]
    exact .inl rfl
  · rw [Char.ofNat, dif_neg valid]
    exact .inr rfl

/-- **Two characters beyond ASCII fold to ASCII**, and no other. -/
theorem ascii_of_foldChar {c : Char} (word : isWordChar (foldChar c) = true) :
    c.toNat < 0x80 ∨ c = '\u017f' ∨ c = '\u212a' := by
  obtain ⟨some, ascii⟩ := isWordChar_iff.mp word
  cases found : foldRuns.find? (inRun · c.toNat) with
  | none =>
    have own : foldChar c = c := by simp only [foldChar, foldBy, found]
    exact .inl (own ▸ ascii)
  | some r =>
    have fold : foldChar c = Char.ofNat (c.toNat + r.2.2.2).toNat := by
      simp only [foldChar, foldBy, found]
    have inside : inRun r c.toNat = true := List.find?_some (p := (inRun · c.toNat)) found
    simp only [inRun, Bool.and_eq_true, decide_eq_true_eq] at inside
    obtain below | beyond | rfl | rfl := foldRuns_ascii r (List.mem_of_find?_eq_some found)
    · exact .inl (Nat.lt_of_le_of_lt inside.1.2 below)
    · rw [fold] at some ascii
      obtain code | code := toNat_ofNat (c.toNat + r.2.2.2).toNat <;> omega
    · have own : c.toNat = 0x17f := Nat.le_antisymm inside.1.2 inside.1.1
      exact .inr (.inl (own ▸ Char.ofNat_toNat c).symm)
    · have own : c.toNat = 0x212a := Nat.le_antisymm inside.1.2 inside.1.1
      exact .inr (.inr (own ▸ Char.ofNat_toNat c).symm)

theorem ascii_of_toLower {c : Char} (ascii : c.toLower.toNat < 0x80) : c.toNat < 0x80 := by
  unfold Char.toLower at ascii
  split at ascii
  · next upper =>
    have last : c.toNat ≤ 0x5a := UInt32.le_iff_toNat_le.mp upper.2
    omega
  · exact ascii

theorem isWordChar_toLower {w : Char} (word : isWordChar w = true) :
    isWordChar w.toLower = true :=
  forall_ascii (P := fun c => isWordChar c = true → isWordChar c.toLower = true) (by decide)
    (isWordChar_iff.mp word).2 word

/-- **A character folds to an ASCII character** when it stands for it. -/
theorem foldChar_eq_iff {w c : Char} (word : isWordChar w = true) :
    foldChar c = w.toLower ↔ IsCaseOf w c := by
  have lower := isWordChar_toLower word
  have long : foldChar '\u017f' = 's' := by decide +kernel
  have kelvin : foldChar '\u212a' = 'k' := by decide +kernel
  constructor
  · intro same
    obtain ascii | rfl | rfl := ascii_of_foldChar (same ▸ lower)
    · exact .inl ((foldChar_ascii ascii).symm.trans same)
    · exact .inr (.inl ⟨same.symm.trans long, rfl⟩)
    · exact .inr (.inr ⟨same.symm.trans kelvin, rfl⟩)
  · rintro (same | ⟨same, rfl⟩ | ⟨same, rfl⟩)
    · have ascii := ascii_of_toLower (same ▸ (isWordChar_iff.mp lower).2)
      exact (foldChar_ascii ascii).trans same
    · rw [long, same]
    · rw [kelvin, same]

/-! ## Names -/

/-- **A name is spelled as an ASCII word**: each of its characters stands for that of the word. -/
def SpelledAs (word name : Text) : Prop :=
  ∃ letters : List Char, name = ofChars letters ∧ List.Forall₂ IsCaseOf word.shown letters

/-- **A name is a word in any letter case**: it is spelled by characters whose lower case is the word. -/
def IsInAnyCase (word : String) (name : Text) : Prop :=
  ∃ letters : List Char, name = ofChars letters ∧ letters.map Char.toLower = word.toList

/-- Glyphs that fold to a word are characters that stand for its own. -/
theorem exists_letters {gs : List Glyph} {word : List Char} (ascii : ∀ w ∈ word, isWordChar w = true)
    (same : gs.map (foldChar ·.shown) = word.map Char.toLower) :
    ∃ letters : List Char, gs = letters.map .char ∧ List.Forall₂ IsCaseOf word letters := by
  induction gs generalizing word with
  | nil =>
    rw [List.map_eq_nil_iff.mp same.symm]
    exact ⟨[], rfl, .nil⟩
  | cons g gs ih =>
    obtain ⟨w, word, rfl, fold, rest⟩ := List.map_eq_cons_iff.mp same.symm
    obtain ⟨first, ascii⟩ := List.forall_mem_cons.mp ascii
    obtain ⟨letters, rfl, spelled⟩ := ih ascii rest.symm
    cases g with
    | char c => exact ⟨c :: letters, rfl, .cons ((foldChar_eq_iff first).mp fold.symm) spelled⟩
    | stray b =>
      have other : isWordChar (foldChar '\ufffd') = false := by decide +kernel
      have replaced : w.toLower = foldChar '\ufffd' := fold
      have lower := isWordChar_toLower first
      rw [replaced, other] at lower
      cases lower

theorem map_foldChar_of_word {word : List Char} (ascii : ∀ w ∈ word, isWordChar w = true) :
    word.map foldChar = word.map Char.toLower :=
  List.map_congr_left fun w hw => foldChar_ascii (isWordChar_iff.mp (ascii w hw)).2

/-- **Names are compared by letters alone**: a name is the same as an ASCII word exactly when it is
spelled as that word. -/
theorem sameLetters_ascii_iff {word : Text} (ascii : ∀ w ∈ word.shown, isWordChar w = true)
    (name : Text) : sameLetters word name = true ↔ SpelledAs word name := by
  rw [sameLetters, beq_iff_eq, map_foldChar_of_word ascii]
  constructor
  · intro same
    rw [shown.eq_def name, List.map_map] at same
    obtain ⟨letters, read, spelled⟩ := exists_letters ascii same.symm
    exact ⟨letters, eq_ofChars_of_glyphs read, spelled⟩
  · rintro ⟨letters, rfl, spelled⟩
    rw [shown_ofChars]
    generalize word.shown = ws at ascii spelled
    induction spelled with
    | nil => rfl
    | cons case _ ih =>
      obtain ⟨first, ascii⟩ := List.forall_mem_cons.mp ascii
      rw [List.map_cons, List.map_cons, (foldChar_eq_iff first).mpr case, ih ascii]

theorem sameLetters_comm (s t : Text) : sameLetters s t = sameLetters t s := BEq.comm

/-- A basic letter has no case but its own and the upper one. -/
theorem isCaseOf_basic {w c : Char} (basic : isBasicLetter w = true) :
    IsCaseOf w c ↔ c.toLower = w := by
  obtain ⟨⟨least, most⟩, notS, notK⟩ := isBasicLetter_iff.mp basic
  have lower : ¬ (w.val ≥ 'A'.val ∧ w.val ≤ 'Z'.val) := fun upper => by
    have last : w.toNat ≤ 0x5a := UInt32.le_iff_toNat_le.mp upper.2
    omega
  have fixed : w.toLower = w := dif_neg lower
  rw [IsCaseOf, fixed]
  exact ⟨fun h => h.elim id fun h => h.elim (absurd ·.1 notS) (absurd ·.1 notK), .inl⟩

theorem forall₂_isCaseOf_iff {word letters : List Char} (basic : ∀ w ∈ word, isBasicLetter w = true) :
    List.Forall₂ IsCaseOf word letters ↔ letters.map Char.toLower = word := by
  induction word generalizing letters with
  | nil => rw [List.forall₂_nil_left_iff, List.map_eq_nil_iff]
  | cons w word ih =>
    obtain ⟨first, basic⟩ := List.forall_mem_cons.mp basic
    cases letters with
    | nil => simp
    | cons c letters =>
      rw [List.forall₂_cons, List.map_cons, List.cons.injEq, isCaseOf_basic first, ih basic]

/-- **Names are compared by letters alone**: with a word of basic letters, a name is the same exactly
when it is that word in any letter case. -/
theorem sameLetters_iff {word : String} (basic : ∀ w ∈ word.toList, isBasicLetter w = true)
    (name : Text) : sameLetters name word = true ↔ IsInAnyCase word name := by
  have letters : (ofString word).shown = word.toList := by rw [ofString_eq, shown_ofChars]
  have ascii : ∀ w ∈ (ofString word).shown, isWordChar w = true := by
    intro w hw
    obtain ⟨⟨least, most⟩, -⟩ := isBasicLetter_iff.mp (basic w (letters ▸ hw))
    exact isWordChar_iff.mpr ⟨by omega, by omega⟩
  rw [sameLetters_comm, sameLetters_ascii_iff ascii]
  refine exists_congr fun cs => and_congr_right fun _ => ?_
  rw [letters, forall₂_isCaseOf_iff basic]

end Text

end PhpAudit
