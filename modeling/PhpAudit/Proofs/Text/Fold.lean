import PhpAudit.Text.CaseFold

/-!
# Folding texts side by side

Bytes at the end of one text and at the start of another may join into a character, so in general
the fold of two texts side by side is not their folds side by side. It is where the second text
starts with an ASCII byte, which goes on with no character (`glyphs_append`). So names with the same
fold keep the same fold when one ending is added to both (`fold_append`).
-/

namespace PhpAudit

namespace Utf8

variable {a b : UInt8} {rest after : List UInt8}

/-- An ASCII byte goes on with no character. -/
theorem tail?_of_ascii (ascii : b.toNat < 0x80) : tail? b = none := by
  unfold tail?
  rw [if_neg]
  omega

/-- A character takes no more continuation bytes than there are. -/
theorem le_length_of_first? {c : Char} {n : Nat} (found : first? a rest = some (c, n)) :
    n ≤ rest.length := by
  -- what `first?` reads is settled by the first three bytes
  rcases rest with _ | ⟨b₁, _ | ⟨b₂, _ | ⟨b₃, rest⟩⟩⟩ <;>
    simp only [first?] at found <;>
    grind [Option.map_eq_some_iff, Option.bind_eq_some_iff]

/-- **A character is not read beyond an ASCII byte.** -/
theorem first?_append (ascii : b.toNat < 0x80) :
    first? a (rest ++ b :: after) = first? a rest := by
  have stop := tail?_of_ascii ascii
  rcases rest with _ | ⟨b₁, _ | ⟨b₂, _ | ⟨b₃, rest⟩⟩⟩
  · rcases after with _ | ⟨c₁, _ | ⟨c₂, after⟩⟩ <;> simp [first?, stop]
  · rcases after with _ | ⟨c₁, after⟩ <;> simp [first?, stop]
  · simp [first?, stop]
  · simp [first?]

/-- **The glyphs of bytes side by side**, where the second start with an ASCII byte. -/
theorem glyphs_append (ascii : b.toNat < 0x80) (bs : List UInt8) :
    glyphs (bs ++ b :: after) = glyphs bs ++ glyphs (b :: after) := by
  induction bs using glyphs.induct with
  | case1 => rw [glyphs.eq_1, List.nil_append, List.nil_append]
  | case2 a rest c n found ih =>
    have inside := le_length_of_first? found
    rw [List.cons_append, glyphs, first?_append ascii, found, glyphs, found]
    dsimp only
    rw [List.drop_append_of_le_length inside, ih, List.cons_append]
  | case3 a rest missing ih =>
    rw [List.cons_append, glyphs, first?_append ascii, missing, glyphs, missing]
    dsimp only
    rw [ih, List.cons_append]

end Utf8

namespace Text

/-- **The fold of texts side by side**, where the second does not start within a character. -/
theorem fold_append {ending : Text} (ascii : ending.bytes.head?.all (·.toNat < 0x80) = true)
    (t : Text) : fold (t ++ ending) = fold t ++ fold ending := by
  obtain ⟨_ | ⟨b, bs⟩⟩ := ending
  · have nothing : fold ⟨[]⟩ = ⟨[]⟩ := by
      rw [fold, glyphs, Utf8.glyphs]
      rfl
    rw [nothing, append_empty, append_empty]
  · have glyphs : (t ++ ⟨b :: bs⟩ : Text).glyphs = t.glyphs ++ (⟨b :: bs⟩ : Text).glyphs :=
      Utf8.glyphs_append (of_decide_eq_true ascii) t.bytes
    rw [fold, glyphs, List.flatMap_append, ofGlyphs_append, fold, fold]

end Text

end PhpAudit
