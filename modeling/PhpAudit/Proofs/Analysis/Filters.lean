import PhpAudit.Proofs.Analysis.Collected
import PhpAudit.Proofs.Taint.Order

/-!
# Filters only filter

Which sinks are dangerous and which risks are of interest decides what becomes of a value at a sink,
and nothing else. So a policy that asks for less, **narrower** than another, reports the findings of
the other with their risks cut down, and drops those that have none left
(`narrower_reports_less`). The rest of the result is the same.
-/

namespace PhpAudit

open PhpAudit.Tree (Program)

/-- **A finding, cut down** to what a sink is sensitive to and what is of interest; none for a sink
without entry, and none when no risk is left. -/
def Finding.cutDown (catalog : Catalog) (interest : RiskSet) (f : Finding) : Option Finding :=
  match catalog.dangers? f.sink with
  | none => none
  | some dangers =>
    let risks := (f.risks.inter interest).inter dangers
    if risks.isEmpty then none else some { f with risks }

/-- **A policy that is narrower than another**: every sink that it lists is listed by the other,
with at least its risks, and every risk of its interest is of interest to the other. -/
structure Policy.Narrower (p p' : Policy) : Prop where
  dangers : ∀ name risks, p.catalog.dangers? name = some risks →
    ∃ risks', p'.catalog.dangers? name = some risks' ∧ risks ⊆ risks'
  interest : p.interest ⊆ p'.interest

namespace Policy

variable {p p' : Policy}

/-- **One value at a sink**: the narrower policy finds what the other finds, cut down. -/
theorem Narrower.judge (h : p.Narrower p') (loc : Location) (name : Text) (t : Taint) :
    (p.judge loc name t).1 =
      (p'.judge loc name t).1.bind (Finding.cutDown p.catalog p.interest) := by
  cases listed : p.catalog.dangers? name with
  | none =>
    rw [judge_of_unlisted listed]
    symm
    rw [Option.bind_eq_none_iff]
    intro f found
    have sink : f.sink = name := by
      cases listed' : p'.catalog.dangers? name with
      | none =>
        rw [judge_of_unlisted listed'] at found
        cases found
      | some dangers' =>
        rw [judge_of_dangers listed'] at found
        split at found
        · cases found
        · cases found
          rfl
    simp only [Finding.cutDown, sink, listed]
  | some dangers =>
    obtain ⟨dangers', listed', within⟩ := h.dangers name dangers listed
    have narrowed := RiskSet.inter_narrow h.interest within t.risks
    rw [judge_of_dangers listed, judge_of_dangers listed']
    by_cases nothing : ((t.risks.inter p'.interest).inter dangers').isEmpty = true
    · -- nothing is left by the wider policy, so nothing is left by the narrower one
      have less := RiskSet.inter_subset_inter
        (RiskSet.inter_subset_inter (RiskSet.subset_rfl (s := t.risks)) h.interest) within
      rw [if_pos nothing, if_pos (RiskSet.isEmpty_of_subset less nothing)]
      rfl
    · rw [if_neg nothing, Option.bind_some, Finding.cutDown, listed]
      simp only [narrowed]

/-- **The findings of events**: those of the other policy, cut down. -/
theorem Narrower.findings (h : p.Narrower p') (es : List Event) :
    p.findings es = (p'.findings es).filterMap (Finding.cutDown p.catalog p.interest) := by
  have each : p.finding? =
      fun e => (p'.finding? e).bind (Finding.cutDown p.catalog p.interest) := by
    funext e
    cases e with
    | sink loc name t => exact h.judge loc name t
    | _ => rfl
  rw [Policy.findings, Policy.findings, List.filterMap_filterMap, each]

end Policy

/-- **Filters only filter.** Of two configurations with the same mitigations and paths, let the
first list no sink and no risk of a sink that the second does not list, and let its interest, which
is not empty, be within that of the second. Then it reports the findings of the second, in order,
cut down to its own risks; the rest of the result and the error are the same. -/
theorem narrower_reports_less {c c' : Config} {catalog catalog' : Catalog}
    (parsed : Catalog.parse c.dangerous c.mitigating = .ok catalog)
    (parsed' : Catalog.parse c'.dangerous c'.mitigating = .ok catalog')
    (dangers : ∀ name risks, catalog.dangers? name = some risks →
      ∃ risks', catalog'.dangers? name = some risks' ∧ risks ⊆ risks')
    (interest : c.interest.isEmpty = false) (within : c.interest ⊆ c'.interest)
    (mitigating : c.mitigating = c'.mitigating) (paths : c.paths = c'.paths)
    (programs : List Program) :
    (analyzePrograms c programs).result.findings =
      (analyzePrograms c' programs).result.findings.filterMap
        (Finding.cutDown catalog c.interest) ∧
    (analyzePrograms c programs).result.includes = (analyzePrograms c' programs).result.includes ∧
    (analyzePrograms c programs).result.unused = (analyzePrograms c' programs).result.unused ∧
    (analyzePrograms c programs).failure = (analyzePrograms c' programs).failure := by
  have interest' : c'.interest.isEmpty = false := by
    refine Bool.eq_false_iff.mpr fun nothing => ?_
    rw [RiskSet.isEmpty_of_subset within nothing] at interest
    cases interest
  have same : catalog.mitigations = catalog'.mitigations := by
    have read := (Catalog.parse_eq_ok parsed).2
    rw [mitigating, (Catalog.parse_eq_ok parsed').2] at read
    funext name
    rw [Catalog.mitigations, Catalog.mitigations, Catalog.mitigations?, Catalog.mitigations?,
      Except.ok.inj read]
  have narrower : Policy.Narrower ⟨catalog, c.interest⟩ ⟨catalog', c'.interest⟩ := ⟨dangers, within⟩
  obtain ⟨result, failure⟩ := analyzePrograms_eq parsed interest programs
  obtain ⟨result', failure'⟩ := analyzePrograms_eq parsed' interest' programs
  rw [result, result', failure, failure', same, paths]
  exact ⟨narrower.findings _, rfl, rfl, rfl⟩

/-! ## A narrow and a wide configuration -/

/-- A configuration that reports scripts in what is printed. -/
def narrowConfig : Config :=
  { Config.default with
    dangerous := [("echo", "XSS")], mitigating := [], ignored := ["SQL_INJECTION"] }

/-- A configuration that reports more risks of what is printed, and a sink more. -/
def wideConfig : Config :=
  { Config.default with
    dangerous := [("echo", "XSS, SQL_INJECTION"), ("exit", "XSS")], mitigating := [] }

/-- A program that prints an unknown value, and ends with it. -/
def printingProgram : Program where
  file := "a"
  body := .mk .unknown
    [.simple ⟨"a", 1, "", ""⟩ .echo (some (.atom .unknown (.var "x"))),
      .simple ⟨"a", 2, "", ""⟩ .evaluate
        (some (.unary .unknown (.exit false) (some (.atom .unknown (.var "x")))))]
  functions := []

theorem narrower_reports_one_of_two :
    (analyzePrograms narrowConfig [printingProgram]).result.findings.map (·.risks) = [⟨8⟩] ∧
    (analyzePrograms wideConfig [printingProgram]).result.findings.map (·.risks) = [⟨9⟩, ⟨8⟩] ∧
    (analyzePrograms narrowConfig [printingProgram]).result.findings =
      (analyzePrograms wideConfig [printingProgram]).result.findings.filterMap
        (Finding.cutDown ⟨[("echo", ⟨8⟩)], []⟩ narrowConfig.interest) := by
  have parsed : Catalog.parse narrowConfig.dangerous narrowConfig.mitigating =
      .ok ⟨[("echo", ⟨8⟩)], []⟩ := Catalog.parse_eq_of_toOption (by decide +kernel)
  have parsed' : Catalog.parse wideConfig.dangerous wideConfig.mitigating =
      .ok ⟨[("echo", ⟨9⟩), ("exit", ⟨8⟩)], []⟩ := Catalog.parse_eq_of_toOption (by decide +kernel)
  have dangers : ∀ name risks, Catalog.dangers? ⟨[("echo", ⟨8⟩)], []⟩ name = some risks →
      ∃ risks', Catalog.dangers? ⟨[("echo", ⟨9⟩), ("exit", ⟨8⟩)], []⟩ name = some risks' ∧
        risks ⊆ risks' := by
    intro name risks listed
    simp only [Catalog.dangers?, List.lookup_cons] at listed ⊢
    split at listed
    · cases listed
      exact ⟨_, rfl, RiskSet.subset_of_union_eq (by decide)⟩
    · cases listed
  have within : narrowConfig.interest ⊆ wideConfig.interest :=
    RiskSet.subset_of_union_eq (by decide +kernel)
  refine ⟨by decide +kernel, by decide +kernel, ?_⟩
  exact (narrower_reports_less parsed parsed' dangers (by decide +kernel) within rfl rfl _).1

end PhpAudit
