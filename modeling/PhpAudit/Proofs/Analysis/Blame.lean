import PhpAudit.Proofs.Analysis.Origins

/-!
# What the witness of a call is blamed for

A finding at a call names one argument as its witness. The arguments are merged before anybody knows
what the sink is sensitive to, so the witness is that of the last argument which overtook those
before it, by the sizes of whole risk sets. The finding itself has the risks that are left of all
arguments. So some argument carries a reported risk, and one argument has the witness, but they may
be two different arguments (`witness_without_reported_risk`).

They are one wherever every argument that carries a risk carries a reported one (`Blames.agree`).
-/

namespace PhpAudit

open PhpAudit.Tree (Expr Callee Program)
open Walk

namespace Walk

variable {m : Mitigations}

theorem sizeOf_le_of_mem_own {n k : Node} (h : k ∈ n.own) : sizeOf k ≤ sizeOf n := by
  induction n using Node.induction with | step n ih
  rw [Node.own_eq, List.mem_cons, List.mem_flatMap] at h
  obtain rfl | ⟨c, hc, h⟩ := h
  · exact Nat.le_refl _
  · have child := Node.mem_children_of_mem_within hc
    exact Nat.le_trans (ih c child h) (Nat.le_of_lt (Node.sizeOf_lt_of_mem_children child))

/-- What a node itself reports in its walk is reported when it is entered or left: the nodes below it
are smaller. -/
theorem here_of_report {n : Node} {e : Event} {s : Scope} (h : .report n e ∈ trace m [n] s) :
    Here m s n (.report n e) := by
  rw [trace_cons, List.mem_append] at h
  obtain h | h := h
  · obtain h | ⟨-, h⟩ := mem_steps h
    · exact here_of_mem_steps h
    · obtain ⟨k, hk, s', here⟩ := exists_of_mem_trace h
      have same : k = n := by
        have here := here_of_mem_steps here
        cases here <;> rfl
      subst same
      obtain ⟨c, hc, hk⟩ := List.mem_flatMap.mp hk
      have smaller := Node.sizeOf_lt_of_mem_children hc
      exact absurd (sizeOf_le_of_mem_own hk) (Nat.not_le_of_lt smaller)
  · obtain ⟨t, -, h⟩ := mem_goOn.mp h
    rw [trace_nil] at h
    cases h

/-- What is told of a node that is left is reported in its walk. -/
theorem report_of_told {n : Node} (notBody : ∀ b, n ≠ .body b) {e : Event} {s : Scope}
    {ts : List Taint} (done : (visit m n.children (s.track n.loc)).value = .ok ts)
    (told : e ∈ n.form.told n.self ts
      ((visit m n.children (s.track n.loc)).scope.locate n.loc)) : .report n e ∈ trace m [n] s := by
  rw [trace_cons, steps_of_ne_body notBody, goOn_of_ok done, Node.leaving, events_leave, loc_form]
  exact List.mem_append_left _ (List.mem_append_right _ (List.mem_append_left _
    (List.mem_map_of_mem told)))

theorem length_of_visit {ns : List Node} {s : Scope} {ts : List Taint}
    (done : (visit m ns s).value = .ok ts) : ts.length = ns.length := by
  induction ns generalizing s ts with
  | nil =>
    cases done
    rfl
  | cons n ns ih =>
    obtain ⟨t, us, rfl, -, rest⟩ := visit_cons_eq_ok_iff.mp done
    rw [List.length_cons, List.length_cons, ih rest]

end Walk

/-- **What a finding blames arguments for**, given their taints. -/
structure Blames (f : Finding) (args : List Taint) : Prop where
  /-- Some argument carries a reported risk. -/
  reported : ∃ u ∈ args, u.risks.Meets f.risks
  /-- The witness is that of the last argument that overtook those before it. -/
  witness : f.witness = none ∨ ∃ u, Wins (.none none) args u ∧ f.witness = u.witness
  /-- The two are one argument where all that carry a risk carry a reported one. -/
  agree : (∀ u ∈ args, u.IsRisky → u.witness.isSome ∧ u.risks.Meets f.risks) →
    ∃ u ∈ args, f.witness = u.witness ∧ u.risks.Meets f.risks

theorem blames_mergeAll {f : Finding} {args : List Taint} (some : f.risks.isEmpty = false)
    (within : ∀ r, f.risks.contains r = true →
      (mergeAll (.none none) args).risks.contains r = true)
    (witness : f.witness = (mergeAll (.none none) args).witness) : Blames f args := by
  obtain ⟨r, hr⟩ := RiskSet.isEmpty_eq_false_iff.mp some
  have none (r : Risk) : RiskSet.contains (Taint.none none).risks r = false := BitVec.getLsbD_zero
  have carried : ∃ u ∈ args, u.risks.contains r = true := by
    have merged := contains_mergeAll.mp (within r hr)
    rw [none] at merged
    exact merged.resolve_left Bool.false_ne_true
  refine ⟨?_, ?_, fun shown => ?_⟩
  · obtain ⟨u, hu, h⟩ := carried
    exact ⟨u, hu, RiskSet.meets_iff.mpr ⟨r, h, hr⟩⟩
  · obtain ⟨first, -⟩ | ⟨u, wins, last⟩ := exists_winner (.none Option.none) args
    · exact .inl (witness.trans first)
    · exact .inr ⟨u, wins, witness.trans last⟩
  · -- merged taints are shown by the witness of one that has a risk
    have all : (mergeAll (.none Option.none) args).Shown fun w =>
        ∃ u ∈ args, u.IsRisky ∧ u.witness = Option.some w := by
      refine shown_mergeAll (Taint.shown_none _) fun u hu risky => ?_
      obtain ⟨w, hw⟩ := Option.isSome_iff_exists.mp (shown u hu risky).1
      exact ⟨w, hw, u, hu, risky, hw⟩
    obtain ⟨w, merged, u, hu, risky, hw⟩ :=
      all (RiskSet.isEmpty_eq_false_iff.mpr ⟨r, within r hr⟩)
    exact ⟨u, hu, witness.trans (merged.trans hw.symm), (shown u hu risky).2⟩

/-- **A finding for a call** blames its arguments: from every scope, one that the call itself makes is
judged of the taints that its arguments were walked to, after the operands of its callee. -/
theorem call_finding_blames (p : Policy) (s : Scope) (l : Location) (c : Callee)
    (args : List (Option Expr)) (e : Event) (f : Finding)
    (report : .report (.operand (some (.call l c args))) e ∈
      trace p.catalog.mitigations [.operand (some (.call l c args))] s)
    (found : p.finding? e = some f) : ∃ us ts,
    (visit p.catalog.mitigations ((Part.ofCallee c ++ args).map .operand) (s.track l)).value =
        .ok (us ++ ts) ∧
      us.length = (Part.ofCallee c).length ∧ ts.length = args.length ∧ Blames f ts := by
  obtain ⟨t, dangers, rfl, -, risks, some, witness⟩ := Policy.finding?_eq_some found
  cases here_of_report report with
  | announced he => cases place?_of_announced he
  | @told _ _ ts place done he =>
    have length := length_of_visit done
    rw [Node.children, Node.ofExpr, List.length_map, List.length_append] at length
    have operands : (Part.ofCallee (bare c)).length = (Part.ofCallee c).length := by
      cases c <;> rfl
    have merged : t = mergeAll (.none none) (ts.drop (Part.ofCallee c).length) := by
      rw [← operands]
      exact taint_of_told he
    refine ⟨ts.take (Part.ofCallee c).length, ts.drop (Part.ofCallee c).length, ?_, ?_, ?_, ?_⟩
    · rw [List.take_append_drop]
      exact done
    · rw [List.length_take]
      omega
    · rw [List.length_drop]
      omega
    · refine blames_mergeAll some (fun r hr => ?_) (witness.trans (congrArg _ merged))
      rw [risks] at hr
      simp only [RiskSet.contains_inter, Bool.and_eq_true] at hr
      rw [← merged]
      exact hr.1.1

/-! ## Two arguments, one reported -/

/-- A catalog with a sink for queries, and two functions that mitigate most: one leaves scripts, the
other leaves queries. -/
def queryPolicy : Policy where
  catalog := ⟨[("sink", ⟨1⟩)], [("a", ⟨23⟩), ("b", ⟨30⟩)]⟩
  interest := .all

/-- A call without arguments. -/
def plainCall (name : Text) : Expr := .call .unknown (.function name "") []

/-- `sink(a(), b())`. -/
def queryCall : Expr := .call .unknown (.function "sink" "") [plainCall "a", plainCall "b"]

/-- What reaches the sink: both risks, shown by the first argument. -/
def queryEvent : Event := .sink .unknown "sink" ⟨⟨9⟩, plainCall "a"⟩

theorem queryEvent_reported :
    .report (.operand queryCall) queryEvent ∈
      trace queryPolicy.catalog.mitigations [.operand queryCall] .start := by
  have walked : (visit queryPolicy.catalog.mitigations (Node.operand queryCall).children
      (Scope.start.track .unknown)).value =
        .ok [⟨⟨8⟩, plainCall "a"⟩, ⟨⟨1⟩, plainCall "b"⟩] := rfl
  exact report_of_told (fun b h => by cases h) walked (List.mem_singleton_self _)

/-- The finding is about queries, and its witness is the first argument. -/
def queryFinding : Finding := ⟨.unknown, "sink", ⟨1⟩, plainCall "a"⟩

theorem queryEvent_found : queryPolicy.finding? queryEvent = some queryFinding := rfl

theorem query_call_blames : ∃ us ts,
    (visit queryPolicy.catalog.mitigations
      ((Part.ofCallee (.function "sink" "") ++ [some (plainCall "a"), some (plainCall "b")]).map
        .operand) (Scope.start.track .unknown)).value = .ok (us ++ ts) ∧
      us.length = 0 ∧ ts.length = 2 ∧ Blames queryFinding ts :=
  call_finding_blames queryPolicy .start .unknown (.function "sink" "")
    [plainCall "a", plainCall "b"] queryEvent queryFinding queryEvent_reported queryEvent_found

/-- **The witness need not carry a reported risk**: of `sink(a(), b())` only the second argument may
carry a query, and the witness is the first. -/
theorem witness_without_reported_risk :
    ¬ ∀ (p : Policy) (s : Scope) (l : Location) (c : Callee) (args : List (Option Expr))
      (e : Event) (f : Finding),
      .report (.operand (some (.call l c args))) e ∈
        trace p.catalog.mitigations [.operand (some (.call l c args))] s →
      p.finding? e = some f → ∃ us ts,
        (visit p.catalog.mitigations ((Part.ofCallee c ++ args).map .operand)
          (s.track l)).value = .ok (us ++ ts) ∧
        us.length = (Part.ofCallee c).length ∧
        ∃ u ∈ ts, u.witness = f.witness ∧ u.risks.Meets f.risks := by
  intro claim
  obtain ⟨us, ts, done, length, u, hu, witness, meets⟩ := claim queryPolicy .start .unknown
    (.function "sink" "") [plainCall "a", plainCall "b"] queryEvent queryFinding
    queryEvent_reported queryEvent_found
  obtain rfl := List.length_eq_zero_iff.mp length
  have taints : ts = [⟨⟨8⟩, plainCall "a"⟩, ⟨⟨1⟩, plainCall "b"⟩] := (Except.ok.inj done).symm
  subst taints
  simp only [List.mem_cons, List.not_mem_nil, or_false] at hu
  obtain rfl | rfl := hu
  · exact absurd meets (by decide)
  · have same : plainCall "b" = plainCall "a" := Option.some.inj witness
    obtain ⟨-, callee, -⟩ := Expr.call.inj same
    exact absurd (Callee.function.inj callee).1 (by decide)

end PhpAudit
