import PhpAudit.Proofs.Text.Characters

/-!
# The glyphs of a text spell it

A text is read as glyphs without loss: a character that is read takes exactly the bytes that spell it
(`utf8EncodeChar_of_first?`), so the glyphs spell the text again (`ofGlyphs_glyphs`). A stray byte is never
an ASCII byte, since that would be a character (`le_of_stray_mem`).
-/

namespace PhpAudit

namespace Utf8

variable {a b : UInt8} {rest : List UInt8} {c : Char} {n : Nat}

theorem le_of_scalar? {least code k : Nat} (h : (scalar? least code).map (·, k) = some (c, n)) :
    least ≤ c.toNat ∧ c.toNat = code ∧ n = k := by
  obtain ⟨d, found, same⟩ := Option.map_eq_some_iff.mp h
  obtain ⟨rfl, rfl⟩ := Prod.mk.inj same
  by_cases valid : least ≤ code ∧ code.isValidChar
  · rw [scalar?, dif_pos valid] at found
    obtain rfl := Option.some.inj found
    exact ⟨valid.1, rfl, rfl⟩
  · rw [scalar?, dif_neg valid] at found
    cases found

theorem of_tail? {y : Nat} (h : tail? b = some y) : y < 0x40 ∧ b = UInt8.ofNat (y + 0x80) := by
  unfold tail? at h
  split at h
  · next inside =>
    obtain rfl := Option.some.inj h
    refine ⟨by omega, ?_⟩
    rw [Nat.sub_add_cancel inside.1, UInt8.ofNat_toNat]
  · cases h

/-- The byte with a value. -/
theorem ofNat_eq {k : Nat} (h : k = b.toNat) : UInt8.ofNat k = b := by
  rw [h, UInt8.ofNat_toNat]

/-- **A character takes exactly the bytes that spell it.** -/
theorem utf8EncodeChar_of_first? (h : first? a rest = some (c, n)) :
    String.utf8EncodeChar c = a :: rest.take n := by
  have code : c.val.toNat = c.toNat := rfl
  have most : c.toNat < 0x110000 := by
    have valid : c.toNat < 0xd800 ∨ 0xdfff < c.toNat ∧ c.toNat < 0x110000 := c.valid
    omega
  unfold String.utf8EncodeChar
  simp only [code]
  simp only [first?] at h
  -- one case for each number of continuation bytes, as in the reading of a spelling
  split at h
  · obtain ⟨-, same, rfl⟩ := le_of_scalar? h
    rw [if_pos (by omega), List.take_zero, ofNat_eq same]
  split at h
  · split at h
    · obtain ⟨y, hy, h⟩ := Option.bind_eq_some_iff.mp h
      obtain ⟨least, same, rfl⟩ := le_of_scalar? h
      obtain ⟨ly, rfl⟩ := of_tail? hy
      rw [if_neg (by omega), if_pos (by omega)]
      simp only [List.take_succ_cons, List.take_zero, List.cons.injEq, and_true]
      exact ⟨ofNat_eq (by omega), congrArg UInt8.ofNat (by omega)⟩
    · cases h
  split at h
  · split at h
    · obtain ⟨y, hy, h⟩ := Option.bind_eq_some_iff.mp h
      obtain ⟨z, hz, h⟩ := Option.bind_eq_some_iff.mp h
      obtain ⟨least, same, rfl⟩ := le_of_scalar? h
      obtain ⟨ly, rfl⟩ := of_tail? hy
      obtain ⟨lz, rfl⟩ := of_tail? hz
      rw [if_neg (by omega), if_neg (by omega), if_pos (by omega)]
      simp only [List.take_succ_cons, List.take_zero, List.cons.injEq, and_true]
      exact ⟨ofNat_eq (by omega), congrArg UInt8.ofNat (by omega), congrArg UInt8.ofNat (by omega)⟩
    · cases h
  split at h
  · split at h
    · obtain ⟨y, hy, h⟩ := Option.bind_eq_some_iff.mp h
      obtain ⟨z, hz, h⟩ := Option.bind_eq_some_iff.mp h
      obtain ⟨w, hw, h⟩ := Option.bind_eq_some_iff.mp h
      obtain ⟨least, same, rfl⟩ := le_of_scalar? h
      obtain ⟨ly, rfl⟩ := of_tail? hy
      obtain ⟨lz, rfl⟩ := of_tail? hz
      obtain ⟨lw, rfl⟩ := of_tail? hw
      rw [if_neg (by omega), if_neg (by omega), if_neg (by omega)]
      simp only [List.take_succ_cons, List.take_zero, List.cons.injEq, and_true]
      exact ⟨ofNat_eq (by omega), congrArg UInt8.ofNat (by omega), congrArg UInt8.ofNat (by omega),
        congrArg UInt8.ofNat (by omega)⟩
    · cases h
  · cases h

/-- **The glyphs of bytes spell them.** -/
theorem flatMap_bytes_glyphs (bs : List UInt8) : (glyphs bs).flatMap Glyph.bytes = bs := by
  induction bs using glyphs.induct with
  | case1 =>
    rw [glyphs.eq_1]
    rfl
  | case2 a rest c n found ih =>
    rw [glyphs, found]
    simp only [List.flatMap_cons, Glyph.bytes, utf8EncodeChar_of_first? found, ih, List.cons_append,
      List.take_append_drop]
  | case3 a rest missing ih =>
    rw [glyphs, missing]
    simp only [List.flatMap_cons, Glyph.bytes, ih, List.singleton_append]

/-- A stray byte is not an ASCII byte. -/
theorem le_of_stray_mem {bs : List UInt8} (h : Glyph.stray b ∈ glyphs bs) : 0x80 ≤ b.toNat := by
  induction bs using glyphs.induct with
  | case1 =>
    rw [glyphs.eq_1] at h
    cases h
  | case2 a rest c n found ih =>
    rw [glyphs, found] at h
    exact ih ((List.mem_cons.mp h).resolve_left Glyph.noConfusion)
  | case3 a rest missing ih =>
    by_cases ascii : a.toNat < 0x80
    · rw [glyphs_ascii ascii] at h
      exact ih ((List.mem_cons.mp h).resolve_left Glyph.noConfusion)
    · rw [glyphs, missing] at h
      rcases List.mem_cons.mp h with same | later
      · obtain rfl := Glyph.stray.inj same
        exact Nat.le_of_not_lt ascii
      · exact ih later

end Utf8

namespace Text

/-- **The glyphs of a text spell it.** -/
theorem ofGlyphs_glyphs (t : Text) : ofGlyphs t.glyphs = t :=
  congrArg mk (Utf8.flatMap_bytes_glyphs t.bytes)

theorem ofGlyphs_chars (cs : List Char) : ofGlyphs (cs.map .char) = ofChars cs := by
  rw [ofGlyphs, ofChars, List.flatMap_map]
  rfl

theorem shown_ofChars (cs : List Char) : (ofChars cs).shown = cs := by
  rw [shown, glyphs_ofChars, List.map_map]
  exact List.map_id _

/-- A text is spelled by characters when its glyphs are characters. -/
theorem eq_ofChars_of_glyphs {t : Text} {cs : List Char} (read : t.glyphs = cs.map .char) :
    t = ofChars cs := by
  rw [← ofGlyphs_glyphs t, read, ofGlyphs_chars]

end Text

end PhpAudit
