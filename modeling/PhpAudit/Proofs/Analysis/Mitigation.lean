import Mathlib.Data.List.NodupEquivFin
import PhpAudit.Proofs.Analysis.Collected
import PhpAudit.Proofs.Taint.Order
import PhpAudit.Proofs.Walk.Runs

/-!
# Mitigations only remove

A function that mitigates more gives results of fewer risks. Both walks, with fewer and with more
mitigations, bind the same variables at the same places, so a variable that is read as every risk in
one is read so in the other, and what is recorded for one that was assigned has fewer risks in the
second (`weakening`). So every finding of the walk with more mitigations is one of the walk with
fewer, with fewer risks (`more_mitigations_fewer_findings`). Witnesses may differ.
-/

namespace PhpAudit

open PhpAudit.Tree (Program Expr)

namespace Walk

variable {m m' : Mitigations}

/-- **Two walks over the same tree**, the second with more mitigations: its taints have fewer risks.
-/
def weakening (more : ∀ name, m name ⊆ m' name) : Comparison m m' where
  same := Eq
  taint t t' := t'.risks ⊆ t.risks
  cut := []
  goesOn := False
  taint_absent := RiskSet.subset_rfl
  taint_none _ := RiskSet.subset_rfl
  taint_every _ := RiskSet.subset_rfl
  taint_called _ name := RiskSet.diff_subset_diff (more name)
  taint_merge ht hu := RiskSet.union_subset_union ht hu
  taint_shownBy _ ht := ht
  isSome_operand same := by rw [same]
  path_operand same _ := by rw [same]

variable (more : ∀ name, m name ⊆ m' name)

/-- **The walks over a program** end in the same way, with events that are alike. -/
theorem alike_program (p : Program) :
    List.Forall₂ (weakening more).Like (program m p).events (program m' p).events ∧
      (program m p).failure = (program m' p).failure := by
  have refl (ns : List Node) : (weakening more).Agrees 0 (List.Forall₂ (weakening more).taint)
      (visit m ns) (visit m' ns) :=
    Comparison.Variants.agrees (fun _ _ _ (none : False) => none.elim)
      (Comparison.variants_refl (fun _ => rfl) ns)
  have functions : List.Forall₂ (fun f f' => f.head = f'.head ∧
      (weakening more).Agrees 0 (List.Forall₂ (weakening more).taint) (visit m [.function f])
        (visit m' [.function f'])) p.functions p.functions :=
    List.forall₂_same.mpr fun f _ => ⟨rfl, refl _⟩
  obtain ⟨events, failure⟩ := (Comparison.runs_course rfl (refl _) functions).same_end id
  rw [program_eq, program_eq, failure]
  refine ⟨.cons (.remark _) (List.rel_append events ?_), rfl⟩
  cases (course m' p).failure with
  | none => exact .nil
  | some e => exact .cons (.remark _) .nil

/-- **The walks over programs** end in the same way, with events that are alike. -/
theorem alike_programs (ps : List Program) :
    List.Forall₂ (weakening more).Like (programs m ps).1 (programs m' ps).1 ∧
      (programs m ps).2 = (programs m' ps).2 := by
  induction ps with
  | nil => exact ⟨.nil, rfl⟩
  | cons p ps ih =>
    obtain ⟨events, failure⟩ := alike_program more p
    rw [programs, programs, failure]
    cases (program m' p).failure with
    | some e => exact ⟨events, rfl⟩
    | none => exact ⟨List.rel_append events ih.1, ih.2⟩

end Walk

/-- **A finding within another**: at the same place, of the same sink, with fewer risks. -/
structure Finding.Within (f g : Finding) : Prop where
  loc : f.loc = g.loc
  sink : f.sink = g.sink
  risks : f.risks ⊆ g.risks

/-- A value of fewer risks gives a finding within that of the other, or none. -/
theorem Policy.judge_within (p : Policy) (loc : Location) (name : Text) {t t' : Taint}
    (less : t'.risks ⊆ t.risks) {f : Finding} (found : (p.judge loc name t').1 = some f) :
    ∃ g, (p.judge loc name t).1 = some g ∧ f.Within g := by
  cases listed : p.catalog.dangers? name with
  | none =>
    rw [judge_of_unlisted listed] at found
    cases found
  | some dangers =>
    have fewer := RiskSet.inter_subset_inter
      (RiskSet.inter_subset_inter less (RiskSet.subset_rfl (s := p.interest)))
      (RiskSet.subset_rfl (s := dangers))
    rw [judge_of_dangers listed] at found ⊢
    split at found
    · cases found
    · rename_i left
      cases found
      rw [if_neg fun nothing => left (RiskSet.isEmpty_of_subset fewer nothing)]
      exact ⟨_, rfl, rfl, rfl, fewer⟩

/-- What is found does not hang on the mitigations of the catalog. -/
theorem Policy.findings_eq_of_dangerous {catalog catalog' : Catalog}
    (same : catalog.dangerous = catalog'.dangerous) (interest : RiskSet) (es : List Event) :
    Policy.findings ⟨catalog, interest⟩ es = Policy.findings ⟨catalog', interest⟩ es := by
  obtain ⟨dangerous, mitigating⟩ := catalog
  obtain ⟨dangerous', mitigating'⟩ := catalog'
  obtain rfl := same
  rfl

open Walk (Mitigations weakening) in
/-- **The findings of events that are alike**: each of the second is within one of the first, in
order. -/
theorem Policy.findings_within (p : Policy) {m m' : Mitigations} (more : ∀ name, m name ⊆ m' name)
    {es es' : List Event} (h : List.Forall₂ (weakening more).Like es es') :
    List.SublistForall₂ Finding.Within (p.findings es') (p.findings es) := by
  have skip {e : Event} {es : List Event} {fs : List Finding}
      (h : List.SublistForall₂ Finding.Within fs (p.findings es)) :
      List.SublistForall₂ Finding.Within fs (p.findings (e :: es)) := by
    rw [Policy.findings, List.filterMap_cons]
    split
    · exact h
    · exact .cons_right h
  induction h with
  | nil => exact .nil
  | @cons e e' es es' like _ ih =>
    cases like with
    | @sink l name t t' less =>
      cases found : (p.judge l name t').1 with
      | none =>
        have none : p.finding? (.sink l name t') = none := found
        rw [Policy.findings, List.filterMap_cons_none none]
        exact skip ih
      | some f =>
        obtain ⟨g, found', within⟩ := p.judge_within l name less found
        have some' : p.finding? (.sink l name t') = some f := found
        have some : p.finding? (.sink l name t) = some g := found'
        rw [Policy.findings, Policy.findings, List.filterMap_cons_some some',
          List.filterMap_cons_some some]
        exact .cons within ih
    | _ => exact ih

/-- Elements that are related in order, by their positions. -/
theorem exists_orderEmbedding_of_sublistForall₂ {α β : Type} {R : α → β → Prop} {xs : List α}
    {ys : List β} (h : List.SublistForall₂ R xs ys) :
    ∃ place : Fin xs.length ↪o Fin ys.length, ∀ i, R (xs.get i) (ys.get (place i)) := by
  obtain ⟨zs, related, sublist⟩ := List.sublistForall₂_iff.mp h
  obtain ⟨place, same⟩ := List.sublist_iff_exists_fin_orderEmbedding_get_eq.mp sublist
  refine ⟨(Fin.castOrderIso related.length_eq).toOrderEmbedding.trans place, fun i => ?_⟩
  have here := (List.forall₂_iff_get.mp related).2 i i.2 (related.length_eq ▸ i.2)
  have there : zs.get ⟨i, related.length_eq ▸ i.2⟩ = _ := same (Fin.cast related.length_eq i)
  rw [there] at here
  exact here

/-- **Mitigations only remove findings.** Of two configurations that differ in their mitigations
alone, let the second mitigate at least what the first does. Then its findings have places, in
order, among those of the first, where the first has a finding of the same location and sink with at
least the risks; the rest of the result and the error are the same. -/
theorem more_mitigations_fewer_findings {c c' : Config} {catalog catalog' : Catalog}
    (parsed : Catalog.parse c.dangerous c.mitigating = .ok catalog)
    (parsed' : Catalog.parse c'.dangerous c'.mitigating = .ok catalog')
    (more : ∀ name, catalog.mitigations name ⊆ catalog'.mitigations name)
    (dangerous : c.dangerous = c'.dangerous) (interest : c.interest = c'.interest)
    (paths : c.paths = c'.paths) (programs : List Program) :
    (∃ place : Fin (analyzePrograms c' programs).result.findings.length ↪o
        Fin (analyzePrograms c programs).result.findings.length,
      ∀ i, Finding.Within ((analyzePrograms c' programs).result.findings.get i)
        ((analyzePrograms c programs).result.findings.get (place i))) ∧
    (analyzePrograms c programs).result.includes = (analyzePrograms c' programs).result.includes ∧
    (analyzePrograms c programs).result.unused = (analyzePrograms c' programs).result.unused ∧
    (analyzePrograms c programs).failure = (analyzePrograms c' programs).failure := by
  cases nothing : c.interest.isEmpty with
  | true =>
    -- without interest no session is started, in both
    have unstarted : analyzePrograms c programs = ⟨.empty, some (.notStarted .noRisks), []⟩ := by
      rw [analyzePrograms, Session.ofConfig, nothing]
      rfl
    have unstarted' : analyzePrograms c' programs = ⟨.empty, some (.notStarted .noRisks), []⟩ := by
      rw [analyzePrograms, Session.ofConfig, ← interest, nothing]
      rfl
    rw [unstarted, unstarted']
    exact ⟨⟨RelEmbedding.refl _, fun i => i.elim0⟩, rfl, rfl, rfl⟩
  | false =>
    have sinks : catalog.dangerous = catalog'.dangerous := by
      have read := (Catalog.parse_eq_ok parsed).1
      rw [dangerous, (Catalog.parse_eq_ok parsed').1] at read
      exact (Except.ok.inj read).symm
    obtain ⟨result, failure⟩ := analyzePrograms_eq parsed nothing programs
    obtain ⟨result', failure'⟩ := analyzePrograms_eq parsed' (interest ▸ nothing) programs
    obtain ⟨events, same⟩ := Walk.alike_programs more programs
    rw [failure, failure', result, result', ← interest, paths, same]
    refine ⟨exists_orderEmbedding_of_sublistForall₂ ?_, includeSites_eq_of_alike events, ?_, rfl⟩
    · rw [← Policy.findings_eq_of_dangerous sinks]
      exact Policy.findings_within _ more events
    · simp only [unusedDeclarations, foldl_note_eq_of_alike events]

/-! ## A function that comes to mitigate -/

/-- A configuration that reports scripts in what is printed, and knows no mitigation. -/
def trustlessConfig : Config :=
  { Config.default with dangerous := [("echo", "XSS")], mitigating := [] }

/-- The same, with a function that mitigates. -/
def escapingConfig : Config := { trustlessConfig with mitigating := [("escape", "XSS")] }

/-- A program that prints a variable that was assigned the result of that function, and one that was
not assigned. -/
def escapingProgram : Program where
  file := "a"
  body := .mk .unknown
    [.simple ⟨"a", 1, "", ""⟩ .evaluate (some (.binary .unknown (.assign false)
        (some (.atom .unknown (.var "x")))
        (some (.call .unknown (.function "escape" "") [some (.atom .unknown (.var "y"))])))),
      .simple ⟨"a", 2, "", ""⟩ .echo (some (.atom .unknown (.var "x"))),
      .simple ⟨"a", 3, "", ""⟩ .echo (some (.atom .unknown (.var "y")))]
  functions := []

theorem mitigation_removes_one_of_two :
    (analyzePrograms trustlessConfig [escapingProgram]).result.findings.map (·.loc.line) = [2, 3] ∧
    (analyzePrograms escapingConfig [escapingProgram]).result.findings.map (·.loc.line) = [3] ∧
    ∃ place : Fin (analyzePrograms escapingConfig [escapingProgram]).result.findings.length ↪o
        Fin (analyzePrograms trustlessConfig [escapingProgram]).result.findings.length,
      ∀ i, Finding.Within ((analyzePrograms escapingConfig [escapingProgram]).result.findings.get i)
        ((analyzePrograms trustlessConfig [escapingProgram]).result.findings.get (place i)) := by
  have parsed : Catalog.parse trustlessConfig.dangerous trustlessConfig.mitigating =
      .ok ⟨[("echo", ⟨8⟩)], []⟩ := Catalog.parse_eq_of_toOption (by decide +kernel)
  have parsed' : Catalog.parse escapingConfig.dangerous escapingConfig.mitigating =
      .ok ⟨[("echo", ⟨8⟩)], [("escape", ⟨8⟩)]⟩ := Catalog.parse_eq_of_toOption (by decide +kernel)
  have more : ∀ name, Catalog.mitigations ⟨[("echo", ⟨8⟩)], []⟩ name ⊆
      Catalog.mitigations ⟨[("echo", ⟨8⟩)], [("escape", ⟨8⟩)]⟩ name := by
    intro name
    refine RiskSet.subset_of_union_eq ?_
    simp only [Catalog.mitigations, Catalog.mitigations?, List.lookup_cons, List.lookup_nil]
    cases name == Text.ofString "escape" <;> rfl
  refine ⟨by decide +kernel, by decide +kernel, ?_⟩
  exact (more_mitigations_fewer_findings parsed parsed' more rfl rfl rfl _).1

end PhpAudit
