import PhpAudit.Proofs.Analysis.Collected
import PhpAudit.Proofs.Walk.Places
import PhpAudit.Proofs.Walk.Witnesses

/-!
# Where findings and include sites come from

What a session collects of a program is what the records of its scopes give: for every finding and
every include site there is a scope of the program, a node of that scope, and a step of its trace at
which the node makes the record. The steps before it are all that the record hangs on.

* It is placed at the node, or at the last located node of the same scope that the walk came to
  (`records_are_placed`).
* The witness of a finding is an expression of the same scope that was left with a risk before
  (`findings_are_witnessed`).

Both hold of programs whose walk is stopped: what was collected by then is collected in the same way.
-/

namespace PhpAudit

open PhpAudit.Tree (Program Block Expr)
open Walk

/-- A finding is a value at a sink that the catalog lists, with a risk that is left of it. -/
theorem Policy.finding?_eq_some {p : Policy} {e : Event} {f : Finding}
    (found : p.finding? e = some f) : ∃ t dangers, e = .sink f.loc f.sink t ∧
      p.catalog.dangers? f.sink = some dangers ∧
      f.risks = (t.risks.inter p.interest).inter dangers ∧ f.risks.isEmpty = false ∧
      f.witness = t.witness := by
  cases e with
  | sink loc name t =>
    rw [finding?] at found
    cases listed : p.catalog.dangers? name with
    | none =>
      rw [judge_of_unlisted listed] at found
      cases found
    | some dangers =>
      rw [judge_of_dangers listed] at found
      split at found
      · cases found
      · next some =>
        obtain rfl := Option.some.inj found
        exact ⟨t, dangers, rfl, listed, rfl, Bool.eq_false_iff.mpr some, rfl⟩
  | _ => cases found

/-- The risks of a finding are risks of the value. -/
theorem Policy.isRisky_of_finding? {p : Policy} {loc : Location} {name : Text} {t : Taint}
    {f : Finding} (found : p.finding? (.sink loc name t) = some f) : t.IsRisky := by
  obtain ⟨t', dangers, same, -, risks, some, -⟩ := Policy.finding?_eq_some found
  obtain ⟨-, -, rfl⟩ := Event.sink.inj same
  rw [risks] at some
  obtain ⟨r, h⟩ := RiskSet.isEmpty_eq_false_iff.mp some
  simp only [RiskSet.contains_inter, Bool.and_eq_true] at h
  exact RiskSet.isEmpty_eq_false_iff.mpr ⟨r, h.1.1⟩

/-- **A record of a program**: at a node of one of its scopes, after some steps of the trace of that
scope, an event is reported. -/
structure RecordedAt (m : Mitigations) (p : Program) (e : Event) (b : Block) (before : List Step)
    (n : Node) : Prop where
  scope : IsScope p b
  step : ∃ after, traceOf m b = before ++ .report n e :: after
  node : n ∈ nodesOf b
  /-- The node is a call, an `echo`, an include or an `exit`. -/
  records : n.form.Records
  /-- The nodes that the walk came to before are of the same scope. -/
  came : ∀ k, .come k ∈ before → k ∈ nodesOf b

theorem exists_recordedAt {m : Mitigations} {p : Program} {e : Event}
    (he : e ∈ (course m p).events) (record : e.place?.isSome) :
    ∃ b before n, RecordedAt m p e b before n := by
  obtain ⟨b, n, scope, report⟩ := exists_report he record
  obtain ⟨before, after, split⟩ := List.append_of_mem report
  refine ⟨b, before, n, scope, ⟨after, split⟩, mem_nodesOf_of_report report,
    records_of_report report record, fun k hk => ?_⟩
  refine mem_nodesOf_of_come (m := m) ?_
  rw [split]
  exact List.mem_append_left _ hk

/-- **What a session collects of a program** is what its course gives. -/
theorem Session.collection_analyze_eq (s : Session) (p : Program) :
    (s.analyze p).1.collection = s.collection.merge
      ⟨s.policy.findings (course s.mitigations p).events,
        includeSites (course s.mitigations p).events⟩ := by
  rw [analyze_eq, ← findings_program, ← includeSites_program]
  rfl

/-- Every finding of a program comes from a record. -/
theorem exists_recordedAt_of_finding {p : Policy} {m : Mitigations} {q : Program} {f : Finding}
    (hf : f ∈ p.findings (course m q).events) :
    ∃ t b before n, p.finding? (.sink f.loc f.sink t) = some f ∧ f.witness = t.witness ∧
      RecordedAt m q (.sink f.loc f.sink t) b before n := by
  obtain ⟨e, he, found⟩ := List.mem_filterMap.mp hf
  obtain ⟨t, -, rfl, -, -, -, witness⟩ := Policy.finding?_eq_some found
  obtain ⟨b, before, n, recorded⟩ := exists_recordedAt he rfl
  exact ⟨t, b, before, n, found, witness, recorded⟩

/-- Every include site of a program comes from a record. -/
theorem exists_recordedAt_of_site {m : Mitigations} {q : Program} {i : IncludeSite}
    (hi : i ∈ includeSites (course m q).events) :
    ∃ b before n, RecordedAt m q (.inclusion i) b before n := by
  obtain ⟨e, he, site⟩ := List.mem_filterMap.mp hi
  cases e with
  | inclusion i' =>
    obtain rfl := Option.some.inj site
    exact exists_recordedAt he rfl
  | _ => cases site

/-! ## Places -/

/-- **Findings and include sites are placed at the node that makes them**, if it has a location, and
else at the last located node of the same scope that the walk came to before, arguments and operands
of the node included; at no location where there is none. -/
theorem records_are_placed (s : Session) (p : Program) : ∃ found sites,
    (s.analyze p).1.collection = s.collection.merge ⟨found, sites⟩ ∧
      (∀ f ∈ found, ∃ e b before n, s.policy.finding? e = some f ∧
        RecordedAt s.mitigations p e b before n ∧ Placed before n f.loc) ∧
      ∀ i ∈ sites, ∃ b before n,
        RecordedAt s.mitigations p (.inclusion i) b before n ∧ Placed before n i.loc := by
  refine ⟨_, _, s.collection_analyze_eq p, fun f hf => ?_, fun i hi => ?_⟩
  · obtain ⟨t, b, before, n, found, -, recorded⟩ := exists_recordedAt_of_finding hf
    obtain ⟨after, split⟩ := recorded.step
    exact ⟨_, b, before, n, found, recorded, placed split rfl⟩
  · obtain ⟨b, before, n, recorded⟩ := exists_recordedAt_of_site hi
    obtain ⟨after, split⟩ := recorded.step
    exact ⟨b, before, n, recorded, placed split rfl⟩

/-! ## Witnesses -/

/-- **An expression that was left with a risk**: it is a node of the scope, the steps left it with a
taint that has a risk, and that taint is the value of its walk. So it is none of the expressions that
carry no risk by their form. -/
structure LeftWithRisk (m : Mitigations) (b : Block) (before : List Step) (w : Expr) (t : Taint) :
    Prop where
  node : .operand (some w) ∈ nodesOf b
  left : .leave (.operand (some w)) t ∈ before
  value : ∃ s, (expr m w s).value = .ok t
  risky : t.IsRisky
  harmful : isHarmless w = false

theorem exists_leftWithRisk {m : Mitigations} {p : Program} {e : Event} {b : Block}
    {before : List Step} {n : Node} {w : Expr} (recorded : RecordedAt m p e b before n)
    (h : LeftRisky before w) : ∃ t, LeftWithRisk m b before w t := by
  obtain ⟨t, left, risky⟩ := h
  obtain ⟨after, split⟩ := recorded.step
  have here : .leave (.operand (some w)) t ∈ traceOf m b := by
    rw [split]
    exact List.mem_append_left _ left
  obtain ⟨node, s, value⟩ := mem_nodesOf_of_leave here
  refine ⟨t, node, left, ⟨s, value⟩, risky, Bool.eq_false_iff.mpr fun harmless => ?_⟩
  exact value_of_isHarmless harmless value risky

/-- **The witness of a finding** is an expression of the scope of the sink, and the walk had left it
with a risk when the finding was made. -/
theorem findings_are_witnessed (s : Session) (p : Program) : ∃ found sites,
    (s.analyze p).1.collection = s.collection.merge ⟨found, sites⟩ ∧
      ∀ f ∈ found, ∃ e b before n w t, s.policy.finding? e = some f ∧
        RecordedAt s.mitigations p e b before n ∧ f.witness = some w ∧
        LeftWithRisk s.mitigations b before w t := by
  refine ⟨_, _, s.collection_analyze_eq p, fun f hf => ?_⟩
  obtain ⟨t, b, before, n, found, witness, recorded⟩ := exists_recordedAt_of_finding hf
  obtain ⟨after, split⟩ := recorded.step
  obtain ⟨w, shown, known⟩ := witnessed split (Policy.isRisky_of_finding? found)
  obtain ⟨t', left⟩ := exists_leftWithRisk recorded known
  exact ⟨_, b, before, n, w, t', found, recorded, witness.trans shown, left⟩

end PhpAudit
