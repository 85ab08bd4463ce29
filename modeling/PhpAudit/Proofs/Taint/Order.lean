import PhpAudit.Taint.Basic

/-!
# Risk sets by inclusion

One risk set is within another when every risk of the first is one of the second. Sets with the same
members are the same (`RiskSet.ext_contains`), so what is said of sets is said of members.
-/

namespace PhpAudit.RiskSet

variable {s s' t t' : RiskSet}

@[simp] theorem contains_empty (r : Risk) : (∅ : RiskSet).contains r = false := BitVec.getLsbD_zero

/-- Every risk of the first set is one of the second. -/
instance : HasSubset RiskSet := ⟨fun s t => ∀ r, s.contains r = true → t.contains r = true⟩

@[simp] theorem contains_union (s t : RiskSet) (r : Risk) :
    (s.union t).contains r = (s.contains r || t.contains r) :=
  BitVec.getLsbD_or

@[simp] theorem contains_inter (s t : RiskSet) (r : Risk) :
    (s.inter t).contains r = (s.contains r && t.contains r) :=
  BitVec.getLsbD_and

@[simp] theorem contains_diff (s t : RiskSet) (r : Risk) :
    (s.diff t).contains r = (s.contains r && !t.contains r) := by
  rw [contains, diff, BitVec.getLsbD_and, BitVec.getLsbD_not]
  by_cases h : r.code.toNat < 8
  · simp [contains, h]
  · simp [contains, BitVec.getLsbD_of_ge s.bits r.code.toNat (Nat.le_of_not_lt h)]

/-- Sets with the same members are the same. -/
theorem ext_contains (h : ∀ r, s.contains r = t.contains r) : s = t := by
  obtain ⟨a⟩ := s
  obtain ⟨b⟩ := t
  congr 1
  apply BitVec.eq_of_getLsbD_eq
  intro i hi
  have code : (UInt8.ofNat i).toNat = i := by
    rw [UInt8.toNat_ofNat']
    omega
  have := h ⟨UInt8.ofNat i⟩
  simpa only [contains, code] using this

theorem subset_rfl : s ⊆ s := fun _ => id

/-- Inclusion, in a form that can be evaluated. -/
theorem subset_of_union_eq (h : s.union t = t) : s ⊆ t := by
  intro r hr
  rw [← h, contains_union, hr, Bool.true_or]

theorem union_subset_union (h : s ⊆ t) (h' : s' ⊆ t') : s.union s' ⊆ t.union t' := by
  intro r hr
  simp only [contains_union, Bool.or_eq_true] at hr ⊢
  exact hr.imp (h r) (h' r)

theorem inter_subset_inter (h : s ⊆ t) (h' : s' ⊆ t') : s.inter s' ⊆ t.inter t' := by
  intro r hr
  simp only [contains_inter, Bool.and_eq_true] at hr ⊢
  exact hr.imp (h r) (h' r)

/-- The more is taken away, the less is left. -/
theorem diff_subset_diff (h : s ⊆ t) : s'.diff t ⊆ s'.diff s := by
  intro r hr
  simp only [contains_diff, Bool.and_eq_true, Bool.not_eq_true'] at hr ⊢
  refine hr.imp_right fun out => ?_
  cases hs : s.contains r with
  | false => rfl
  | true => exact absurd (h r hs) (by simp [out])

theorem isEmpty_iff : s.isEmpty = true ↔ s = ∅ := by
  obtain ⟨a⟩ := s
  simp [isEmpty, EmptyCollection.emptyCollection, empty]

theorem isEmpty_eq_false_iff : s.isEmpty = false ↔ ∃ r, s.contains r = true := by
  rw [← Bool.not_eq_true, isEmpty_iff]
  constructor
  · intro some
    refine Classical.byContradiction fun none => some (ext_contains fun r => ?_)
    rw [contains_empty]
    exact Bool.eq_false_iff.mpr fun h => none ⟨r, h⟩
  · rintro ⟨r, h⟩ rfl
    rw [contains_empty] at h
    cases h

/-- A set within an empty one is empty. -/
theorem isEmpty_of_subset (h : s ⊆ t) (none : t.isEmpty = true) : s.isEmpty = true := by
  rw [isEmpty_iff] at none ⊢
  subst none
  apply ext_contains
  intro r
  rw [contains_empty]
  refine Bool.eq_false_iff.mpr fun hr => ?_
  have := h r hr
  rw [contains_empty] at this
  cases this

/-- What was left by wider sets, left by narrower ones, is what those leave. -/
theorem inter_narrow (h : s ⊆ s') (h' : t ⊆ t') (risks : RiskSet) :
    (((risks.inter s').inter t').inter s).inter t = (risks.inter s).inter t := by
  apply ext_contains
  intro r
  have hs := h r
  have ht := h' r
  simp only [contains_inter]
  revert hs ht
  cases risks.contains r <;> cases s.contains r <;> cases t.contains r <;>
    cases s'.contains r <;> cases t'.contains r <;> simp

end PhpAudit.RiskSet
