import PhpAudit.Proofs.Taint.Order
import PhpAudit.Proofs.Walk.Nodes

/-!
# What shows merged taints

Merging unites risks, and keeps one witness. A taint **overtakes** what was merged before it when it
has a witness and either has more risks than all before it together, or comes upon no witness. The
witness of merged taints is that of the last one that overtook (`exists_winner`): whole risk sets are
compared, by their sizes, and nothing is said of which risks they are.

A taint with a risk is **shown** when its witness is known for one. Taints that are shown stay so when
they are merged, in either order (`Shown.merge`): one that has no risk never takes the witness from
one that has.
-/

namespace PhpAudit

open PhpAudit.Tree (Expr)

namespace RiskSet

variable {s t : RiskSet}

theorem isEmpty_union_eq_false_iff :
    (s.union t).isEmpty = false ↔ s.isEmpty = false ∨ t.isEmpty = false := by
  simp only [isEmpty_eq_false_iff, contains_union, Bool.or_eq_true, exists_or]

/-- A set has a size exactly when it has a member. -/
theorem size_pos_iff : 0 < s.size ↔ s.isEmpty = false := by
  rw [size, List.countP_pos_iff, isEmpty_eq_false_iff]
  constructor
  · rintro ⟨i, hi, bit⟩
    have small : i < 8 := List.mem_range.mp hi
    refine ⟨⟨UInt8.ofNat i⟩, ?_⟩
    have code : (UInt8.ofNat i).toNat = i := by
      rw [UInt8.toNat_ofNat']
      omega
    rwa [contains, code]
  · rintro ⟨r, h⟩
    refine ⟨r.code.toNat, List.mem_range.mpr ?_, h⟩
    exact BitVec.lt_of_getLsbD h

/-- Two sets have a member in common. -/
def Meets (s t : RiskSet) : Prop := (s.inter t).isEmpty = false

instance : Decidable (s.Meets t) := inferInstanceAs (Decidable (_ = false))

theorem meets_iff : s.Meets t ↔ ∃ r, s.contains r = true ∧ t.contains r = true := by
  simp only [Meets, isEmpty_eq_false_iff, contains_inter, Bool.and_eq_true]

end RiskSet

namespace Taint

variable {known : Expr → Prop} {a b t : Taint}

/-- The value may carry a risk. -/
def IsRisky (t : Taint) : Prop := t.risks.isEmpty = false

/-- **A taint is shown** by what is known: if it has a risk, its witness is known. -/
def Shown (known : Expr → Prop) (t : Taint) : Prop :=
  t.IsRisky → ∃ w, t.witness = some w ∧ known w

/-- **A taint overtakes** what was merged before it. -/
def Overtakes (t before : Taint) : Prop :=
  t.witness.isSome = true ∧ (before.risks.size < t.risks.size ∨ before.witness.isNone = true)

theorem witness_merge_of_overtakes (h : b.Overtakes a) : (a.merge b).witness = b.witness := by
  obtain ⟨some, wins⟩ := h
  obtain ⟨w, witness⟩ := Option.isSome_iff_exists.mp some
  simp only [merge, witness, gt_iff_lt, if_pos wins]

theorem witness_merge_of_not_overtakes (h : ¬ b.Overtakes a) :
    (a.merge b).witness = a.witness := by
  cases witness : b.witness with
  | none => simp only [merge, witness]
  | some w =>
    have loses : ¬ (a.risks.size < b.risks.size ∨ a.witness.isNone = true) :=
      fun wins => h ⟨by rw [witness]; rfl, wins⟩
    simp only [merge, witness, gt_iff_lt, if_neg loses]

theorem isRisky_merge : (a.merge b).IsRisky ↔ a.IsRisky ∨ b.IsRisky :=
  RiskSet.isEmpty_union_eq_false_iff

theorem shown_none (witness : Option Expr) : (none witness).Shown known := by
  intro risky
  cases risky

theorem Shown.mono {known' : Expr → Prop} (h : t.Shown known) (more : ∀ w, known w → known' w) :
    t.Shown known' := by
  intro risky
  obtain ⟨w, shown, hw⟩ := h risky
  exact ⟨w, shown, more w hw⟩

/-- What a taint without risks came upon is overtaken by what is shown and has a risk. -/
theorem Shown.overtakes (hb : b.Shown known) (risky : b.IsRisky) (ha : ¬ a.IsRisky) :
    b.Overtakes a := by
  obtain ⟨w, shown, -⟩ := hb risky
  have nothing : a.risks.size = 0 := by
    by_contra some
    exact ha (RiskSet.size_pos_iff.mp (Nat.pos_of_ne_zero some))
  refine ⟨by rw [shown]; rfl, .inl ?_⟩
  rw [nothing]
  exact RiskSet.size_pos_iff.mpr risky

/-- What overtakes what is shown has a risk, if there is one at all. -/
theorem Overtakes.isRisky (h : b.Overtakes a) (ha : a.Shown known) (risky : (a.merge b).IsRisky) :
    b.IsRisky := by
  obtain more | none := h.2
  · exact RiskSet.size_pos_iff.mp (Nat.lt_of_le_of_lt (Nat.zero_le _) more)
  · refine (isRisky_merge.mp risky).resolve_left fun ha' => ?_
    obtain ⟨w, shown, -⟩ := ha ha'
    rw [shown] at none
    cases none

/-- **Merged taints are shown when both are.** -/
theorem Shown.merge (ha : a.Shown known) (hb : b.Shown known) : (a.merge b).Shown known := by
  intro risky
  by_cases overtakes : b.Overtakes a
  · rw [witness_merge_of_overtakes overtakes]
    exact hb (overtakes.isRisky ha risky)
  · rw [witness_merge_of_not_overtakes overtakes]
    refine ha (by_contra fun ha' => overtakes ?_)
    exact hb.overtakes ((isRisky_merge.mp risky).resolve_left ha') ha'

end Taint

namespace Walk

variable {known : Expr → Prop}

theorem shown_mergeAll {t : Taint} {ts : List Taint} (ht : t.Shown known)
    (hts : ∀ u ∈ ts, u.Shown known) : (mergeAll t ts).Shown known := by
  induction ts generalizing t with
  | nil => exact ht
  | cons u us ih =>
    obtain ⟨hu, hus⟩ := List.forall_mem_cons.mp hts
    exact ih (ht.merge hu) hus

theorem shown_mergeLinks {t : Taint} {ts : List Taint} (ht : t.Shown known)
    (hts : ∀ u ∈ ts, u.Shown known) : (mergeLinks t ts).Shown known := by
  induction ts generalizing t with
  | nil => exact ht
  | cons u us ih =>
    obtain ⟨hu, hus⟩ := List.forall_mem_cons.mp hts
    exact ht.merge (ih hu hus)

/-- The risks of merged taints are those of all of them. -/
theorem contains_mergeAll {t : Taint} {ts : List Taint} {r : Risk} :
    (mergeAll t ts).risks.contains r = true ↔
      t.risks.contains r = true ∨ ∃ u ∈ ts, u.risks.contains r = true := by
  induction ts generalizing t with
  | nil => simp [mergeAll]
  | cons u us ih =>
    have rest : mergeAll t (u :: us) = mergeAll (t.merge u) us := rfl
    rw [rest, ih, Taint.risks_merge, RiskSet.contains_union, Bool.or_eq_true, or_assoc]
    simp only [List.mem_cons, exists_eq_or_imp]

/-- **The taint that is shown by the witness of merged taints**: the last one that overtook what was
merged before it. -/
def Wins (t : Taint) (ts : List Taint) (u : Taint) : Prop :=
  ∃ before after, ts = before ++ u :: after ∧ u.Overtakes (mergeAll t before) ∧
    ∀ mid v rest, after = mid ++ v :: rest → ¬ v.Overtakes (mergeAll t (before ++ u :: mid))

/-- **The witness of merged taints** is the first, if none overtook, or that of the last that did. -/
theorem exists_winner (t : Taint) (ts : List Taint) :
    ((mergeAll t ts).witness = t.witness ∧
        ∀ before v after, ts = before ++ v :: after → ¬ v.Overtakes (mergeAll t before)) ∨
      ∃ u, Wins t ts u ∧ (mergeAll t ts).witness = u.witness := by
  induction ts generalizing t with
  | nil => exact .inl ⟨rfl, fun before v after split => by cases before <;> cases split⟩
  | cons u us ih =>
    obtain ⟨witness, none⟩ | ⟨v, ⟨before, after, rfl, wins, last⟩, witness⟩ := ih (t.merge u)
    · by_cases overtakes : u.Overtakes t
      · refine .inr ⟨u, ⟨[], us, rfl, overtakes, none⟩, ?_⟩
        exact witness.trans (Taint.witness_merge_of_overtakes overtakes)
      · refine .inl ⟨witness.trans (Taint.witness_merge_of_not_overtakes overtakes), ?_⟩
        intro before v after split
        cases before with
        | nil =>
          obtain ⟨rfl, -⟩ := List.cons.inj split
          exact overtakes
        | cons x xs =>
          obtain ⟨rfl, rest⟩ := List.cons.inj split
          exact none xs v after rest
    · exact .inr ⟨v, ⟨u :: before, after, rfl, wins, last⟩, witness⟩

end Walk

end PhpAudit
