import PhpAudit.Text.Basic

/-!
# The parts of a text

A text is split at the places of one byte into the parts between them, empty parts included. The parts
give the text back (`split_inj`), they do not hold the byte (`not_mem_of_mem_split`), and texts without the
byte are the parts of what they make up with that byte between them (`split_intercalate`).
-/

namespace PhpAudit.Text

variable {b : UInt8}

/-- The parts between the places of a byte are those of the list of bytes. -/
theorem split_eq (b : UInt8) (t : Text) : t.split b = (t.bytes.splitOn b).map mk := by
  have parts (xs part : List UInt8) :
      splitBytes b xs part = (xs.splitOnPPrepend (· == b) part).map mk := by
    induction xs generalizing part with
    | nil => rfl
    | cons x xs ih =>
      by_cases same : x = b
      · simp [splitBytes, List.splitOnPPrepend, same, ih]
      · simp [splitBytes, List.splitOnPPrepend, same, ih]
  exact parts t.bytes []

theorem split_append (s t : Text) : (s ++ ⟨[b]⟩ ++ t).split b = s.split b ++ t.split b := by
  simp only [split_eq, List.splitOn_eq_splitOnP, bytes_append, List.append_assoc, List.cons_append,
    List.nil_append]
  rw [List.splitOnP_append_cons (p := (· == b)) _ _ (beq_self_eq_true b), List.map_append]

/-- Texts without a byte are found again in the text that they make up with that byte between. -/
theorem split_intercalate {ts : List Text} (some : ts ≠ []) (free : ∀ t ∈ ts, b ∉ t.bytes) :
    (intercalate ⟨[b]⟩ ts).split b = ts := by
  have parts : ∀ l ∈ ts.map bytes, b ∉ l := by
    intro l hl
    obtain ⟨t, ht, rfl⟩ := List.mem_map.mp hl
    exact free t ht
  rw [split_eq, intercalate, List.splitOn_intercalate b parts (by simpa using some), List.map_map]
  exact List.map_id ts

theorem not_mem_of_mem_split {s t : Text} (h : t ∈ s.split b) : b ∉ t.bytes := by
  have parts (xs part : List UInt8) (fresh : b ∉ part) :
      ∀ t ∈ splitBytes b xs part, b ∉ t.bytes := by
    induction xs generalizing part with
    | nil => simpa [splitBytes] using fresh
    | cons x xs ih =>
      unfold splitBytes
      split
      · simpa [fresh] using ih [] List.not_mem_nil
      · next other => exact ih (x :: part) (by simp [Ne.symm other, fresh])
  exact parts s.bytes [] List.not_mem_nil t h

/-- **The parts give the text back.** -/
theorem split_inj {s t : Text} (same : s.split b = t.split b) : s = t := by
  have parts (t : Text) : [b].intercalate ((t.split b).map bytes) = t.bytes := by
    rw [split_eq, List.map_map]
    exact (congrArg _ (List.map_id _)).trans (List.intercalate_splitOn b)
  exact congrArg mk (by rw [← parts s, same, parts t])

end PhpAudit.Text
