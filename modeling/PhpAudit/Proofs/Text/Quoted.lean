import PhpAudit.Text.Quoted

/-!
# Quoted text is printable

Whatever bytes a text holds, its quoted form is made of printable characters
(`isPrintable_of_mem_escapedChars`), so no byte of it is a control character (`le_of_mem_quoted`). A
line with quoted texts on it is therefore one line, and lines that are put one after the other, each
with a break at its end, are found again by splitting at the breaks (`split_lines`).
-/

namespace PhpAudit.Text

/-! ## Printable characters -/

/-- A byte of a character above ASCII is marked in its first bit. -/
theorem marked_of_mem_utf8EncodeChar {c : Char} (above : 0x80 ≤ c.toNat) {b : UInt8}
    (h : b ∈ String.utf8EncodeChar c) : 0x80 ≤ b.toNat := by
  suffices ∃ n, 0x80 ≤ n ∧ n < 0x100 ∧ b = UInt8.ofNat n by
    obtain ⟨n, least, most, rfl⟩ := this
    rw [UInt8.toNat_ofNat']
    omega
  have long : ¬ c.val.toNat ≤ 0x7f := Nat.not_le_of_lt above
  simp only [String.utf8EncodeChar, if_neg long] at h
  split at h
  · simp only [List.mem_cons, List.not_mem_nil, or_false] at h
    obtain rfl | rfl := h
    all_goals exact ⟨_, by omega, by omega, rfl⟩
  split at h
  · simp only [List.mem_cons, List.not_mem_nil, or_false] at h
    obtain rfl | rfl | rfl := h
    all_goals exact ⟨_, by omega, by omega, rfl⟩
  · simp only [List.mem_cons, List.not_mem_nil, or_false] at h
    obtain rfl | rfl | rfl | rfl := h
    all_goals exact ⟨_, by omega, by omega, rfl⟩

/-- **A printable character is spelled without control bytes.** -/
theorem le_of_mem_utf8EncodeChar {c : Char} (printable : isPrintable c = true) {b : UInt8}
    (h : b ∈ String.utf8EncodeChar c) : 0x20 ≤ b.toNat := by
  have visible : 0x20 ≤ c.toNat := Nat.le_of_not_lt fun control => by
    rw [isPrintable_control control] at printable
    exact Bool.false_ne_true printable
  by_cases above : 0x80 ≤ c.toNat
  · exact Nat.le_trans (by decide) (marked_of_mem_utf8EncodeChar above h)
  · have short : c.val.toNat ≤ 0x7f := Nat.le_of_lt_succ (Nat.lt_of_not_le above)
    simp only [String.utf8EncodeChar, if_pos short, List.mem_singleton] at h
    subst h
    rw [UInt8.toNat_ofNat', Nat.mod_eq_of_lt (by omega)]
    exact visible

/-- A hexadecimal digit is printable. -/
theorem isPrintable_digitChar (n : Nat) : isPrintable n.digitChar = true := by
  by_cases small : n < 16
  · revert n
    decide
  · have other : n.digitChar = '*' := by
      unfold Nat.digitChar
      repeat' rw [if_neg (by omega)]
    rw [other]
    rfl

theorem isPrintable_of_mem_toDigits {n : Nat} {x : Char} (h : x ∈ Nat.toDigits 16 n) :
    isPrintable x = true := by
  induction n using Nat.strongRecOn with
  | ind n ih =>
    by_cases small : n < 16
    · rw [Nat.toDigits_of_lt_base small, List.mem_singleton] at h
      exact h ▸ isPrintable_digitChar n
    · rw [Nat.toDigits_of_base_le (by decide) (Nat.le_of_not_lt small), List.mem_append,
        List.mem_singleton] at h
      obtain h | rfl := h
      · exact ih (n / 16) (by omega) h
      · exact isPrintable_digitChar _

theorem isPrintable_of_mem_hex {width n : Nat} {x : Char} (h : x ∈ hex width n) :
    isPrintable x = true := by
  obtain h | h := List.mem_append.mp h
  · exact List.eq_of_mem_replicate h ▸ rfl
  · exact isPrintable_of_mem_toDigits h

/-- An escape by digits is printable. -/
theorem isPrintable_of_mem_numeric {mark x : Char} {width n : Nat} (named : isPrintable mark = true)
    (h : x ∈ '\\' :: mark :: hex width n) : isPrintable x = true := by
  obtain rfl | h := List.mem_cons.mp h
  · rfl
  obtain rfl | h := List.mem_cons.mp h
  · exact named
  · exact isPrintable_of_mem_hex h

/-- An escape of one letter is printable. -/
theorem isPrintable_of_shortEscape? {c e : Char} (h : shortEscape? c = some e) :
    isPrintable e = true := by
  unfold shortEscape? at h
  split at h <;> cases h <;> rfl

theorem isPrintable_of_mem_escapeChar {c x : Char} (h : x ∈ escapeChar c) :
    isPrintable x = true := by
  unfold escapeChar at h
  split at h
  · next marked =>
    obtain rfl | h := List.mem_cons.mp h
    · rfl
    · obtain rfl := List.mem_singleton.mp h
      obtain rfl | rfl := marked <;> rfl
  split at h
  · next printable => exact List.mem_singleton.mp h ▸ printable
  split at h
  · next e short =>
    obtain rfl | h := List.mem_cons.mp h
    · rfl
    · exact List.mem_singleton.mp h ▸ isPrintable_of_shortEscape? short
  split at h
  · exact isPrintable_of_mem_numeric rfl h
  split at h
  · exact isPrintable_of_mem_numeric rfl h
  · exact isPrintable_of_mem_numeric rfl h

/-- **Escaped text is printable.** -/
theorem isPrintable_of_mem_escapedChars {t : Text} {x : Char} (h : x ∈ t.escapedChars) :
    isPrintable x = true := by
  obtain ⟨g, -, h⟩ := List.mem_flatMap.mp h
  cases g with
  | char c => exact isPrintable_of_mem_escapeChar h
  | stray b => exact isPrintable_of_mem_numeric rfl h

/-- **Quoted text has no control characters.** -/
theorem le_of_mem_quoted {t : Text} {b : UInt8} (h : b ∈ (quoted t).bytes) : 0x20 ≤ b.toNat := by
  have mark (hb : b ∈ (ofString "\"").bytes) : 0x20 ≤ b.toNat := by
    obtain rfl : b = 0x22 := List.mem_singleton.mp hb
    decide
  simp only [quoted, bytes_append, List.mem_append] at h
  obtain (h | h) | h := h
  · exact mark h
  · obtain ⟨c, hc, hb⟩ := List.mem_flatMap.mp h
    exact le_of_mem_utf8EncodeChar (isPrintable_of_mem_escapedChars hc) hb
  · exact mark h

/-! ## Lines -/

/-- The byte that ends a line. -/
def lineBreak : UInt8 := 0x0a

/-- A text has no line break. -/
def IsLine (t : Text) : Prop := lineBreak ∉ t.bytes

instance (t : Text) : Decidable t.IsLine := inferInstanceAs (Decidable (lineBreak ∉ t.bytes))

theorem isLine_quoted (t : Text) : IsLine (quoted t) := fun h => by
  have := le_of_mem_quoted h
  revert this
  decide

theorem IsLine.append {s t : Text} (hs : IsLine s) (ht : IsLine t) : IsLine (s ++ t) := fun h =>
  (List.mem_append.mp h).elim hs ht

theorem splitBytes_append {b : UInt8} {xs : List UInt8} (fresh : b ∉ xs) (part ys : List UInt8) :
    splitBytes b (xs ++ b :: ys) part = ⟨part.reverse ++ xs⟩ :: splitBytes b ys [] := by
  induction xs generalizing part with
  | nil => simp [splitBytes]
  | cons x xs ih =>
    rw [List.mem_cons, not_or] at fresh
    rw [List.cons_append, splitBytes, if_neg (Ne.symm fresh.1), ih fresh.2]
    simp

/-- **Lines are found again** in the text that they make up, with nothing after the last break. -/
theorem split_lines {lines : List Text} (whole : ∀ l ∈ lines, IsLine l) :
    (join (lines.map (· ++ ofString "\n"))).split lineBreak = lines ++ [⟨[]⟩] := by
  induction lines with
  | nil => rfl
  | cons l lines ih =>
    obtain ⟨first, whole⟩ := List.forall_mem_cons.mp whole
    have bytes : (join ((l :: lines).map (· ++ ofString "\n"))).bytes =
        l.bytes ++ lineBreak :: (join (lines.map (· ++ ofString "\n"))).bytes := by
      simp only [join, List.map_cons, List.flatMap_cons, bytes_append, List.append_assoc]
      rfl
    rw [split, bytes, splitBytes_append first, ← split, ih whole]
    rfl

end PhpAudit.Text
