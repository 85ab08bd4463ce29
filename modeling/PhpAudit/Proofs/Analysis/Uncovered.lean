import PhpAudit.Proofs.Analysis.Collected
import PhpAudit.Proofs.Walk.Settled

/-!
# What a stopped run leaves

A run is stopped by the first node of an unknown kind that it reaches, and keeps what it collected
until then: a beginning of what is collected from the program with every such node settled
(`coverage_errors_are_exact`). A finding may be shown by an expression that has nodes of an unknown
kind which the walk leaves out, and is then shown by the settled expression in the other run; so the
findings themselves need not be a beginning of those (`unknown_node_in_witness`).
-/

namespace PhpAudit

open PhpAudit.Tree

/-- A finding, shown by the settled expression. -/
def Finding.settled (f : Finding) : Finding := { f with witness := settleOperand f.witness }

/-- **A part of what is collected**: the findings, shown by settled expressions, and the include
sites are the first of all. -/
structure Collection.Begins (part whole : Collection) : Prop where
  findings : part.findings.map Finding.settled <+: whole.findings
  includes : part.includes <+: whole.includes

/-- Findings that are alike but that the others are shown by settled expressions. -/
theorem map_settled_of_matches {fs gs : List Finding}
    (h : List.Forall₂ (Finding.Matches fun e e' => e' = e.settled) fs gs) :
    fs.map Finding.settled = gs := by
  induction h with
  | nil => rfl
  | @cons f g fs gs matched _ ih =>
    obtain ⟨loc, sink, risks, witness⟩ := f
    obtain ⟨loc', sink', risks', witness'⟩ := g
    obtain ⟨rfl, rfl, rfl, shown⟩ := matched
    have settled : settleOperand witness = witness' := by
      cases shown with
      | none => rfl
      | some same => rw [same, settleOperand]
    rw [List.map_cons, ih, Finding.settled, settled]

/-! ## One program -/

/-- **What is collected from a program** is a beginning of what is collected from the settled one.
-/
theorem begins_analyze_settled (policy : Policy) (paths : List Text) (p : Program) :
    ((Session.start policy paths).analyze p).1.collection.Begins
      ((Session.start policy paths).analyze p.settled).1.collection := by
  rw [collection_analyze, collection_analyze]
  generalize policy.catalog.mitigations = m
  rw [findings_program, includeSites_program, findings_program, includeSites_program]
  -- the events are the first of those of the settled program, stopped or not
  have part : ∃ before after, (Walk.course m p.settled).events = before ++ after ∧
      List.Forall₂ (Walk.settling m).Like (Walk.course m p).events before := by
    have runs := Walk.runs_settled m p
    generalize Walk.course m p = r, Walk.course m p.settled = r' at runs
    cases runs with
    | done events => exact ⟨_, [], (List.append_nil _).symm, events⟩
    | stopped events _ => exact ⟨_, _, rfl, events⟩
  obtain ⟨before, after, events, alike⟩ := part
  rw [events, policy.findings_append, includeSites_append]
  constructor
  · have same := map_settled_of_matches (policy.findings_matches (fun _ _ => id) alike)
    rw [same]
    exact List.prefix_append _ _
  · rw [includeSites_eq_of_alike alike]
    exact List.prefix_append _ _

/-! ## Programs one after the other -/

/-- A walk over programs that reach no node of an unknown kind goes on with the rest. -/
theorem programs_append {m : Walk.Mitigations} {before : List Program}
    (covered : ∀ q ∈ before, Walk.unknowns q = []) (ps : List Program) :
    Walk.programs m (before ++ ps) =
      ((Walk.programs m before).1 ++ (Walk.programs m ps).1, (Walk.programs m ps).2) := by
  induction before with
  | nil => rfl
  | cons q qs ih =>
    obtain ⟨here, rest⟩ := List.forall_mem_cons.mp covered
    have goesOn := Walk.failure_program_eq_none m here
    simp only [List.cons_append, Walk.programs, goesOn, ih rest, List.append_assoc]

section Many

variable {c : Config} {catalog : Catalog}
  (parsed : Catalog.parse c.dangerous c.mitigating = .ok catalog)
  (interest : c.interest.isEmpty = false)
  {before : List Program} (covered : ∀ q ∈ before, Walk.unknowns q = [])

include parsed interest covered

theorem failure_of_covered : (analyzePrograms c before).failure = none := by
  have goesOn := programs_append (m := catalog.mitigations) covered []
  rw [List.append_nil] at goesOn
  rw [(analyzePrograms_eq parsed interest before).2, goesOn]
  rfl

/-- **A run that is stopped at a program**: it ends with the error of that program, and has what was
collected from the programs before and from that one. -/
theorem stopped_at {p : Program} {e : CoverageError}
    (stopped : ((Session.start ⟨catalog, c.interest⟩ c.paths).analyze p).2.2 = some e)
    (after : List Program) :
    (analyzePrograms c (before ++ p :: after)).failure = some (.uncovered p.file e) ∧
    (analyzePrograms c (before ++ p :: after)).result.findings =
      (analyzePrograms c before).result.findings ++
        ((Session.start ⟨catalog, c.interest⟩ c.paths).analyze p).1.collection.findings ∧
    (analyzePrograms c (before ++ p :: after)).result.includes =
      (analyzePrograms c before).result.includes ++
        ((Session.start ⟨catalog, c.interest⟩ c.paths).analyze p).1.collection.includes := by
  have here : Walk.programs catalog.mitigations (p :: after) =
      ((Walk.program catalog.mitigations p).events, some (.uncovered p.file e)) := by
    have failure : (Walk.program catalog.mitigations p).failure = some e := stopped
    simp only [Walk.programs, failure]
  have goesOn := programs_append (m := catalog.mitigations) covered (p :: after)
  rw [here] at goesOn
  obtain ⟨result, failure⟩ := analyzePrograms_eq parsed interest (before ++ p :: after)
  obtain ⟨earlier, -⟩ := analyzePrograms_eq parsed interest before
  rw [goesOn] at result failure
  rw [result, failure, earlier, collection_analyze]
  exact ⟨rfl, Policy.findings_append _ _ _, includeSites_append _ _⟩

end Many

/-- **Coverage errors are exact, and leave what was collected intact.** What the walk comes to first
in a program has no node of an unknown kind exactly when it reaches none and leaves out none. The
program is stopped exactly when it reaches one, at the first, and what was collected is a beginning
of what the settled program gives, which is not stopped. A run over programs is not stopped by those
that reach none; it is stopped by the first other, and keeps what the programs before gave, and then
what that one gave. -/
theorem coverage_errors_are_exact {c : Config} {catalog : Catalog}
    (parsed : Catalog.parse c.dangerous c.mitigating = .ok catalog)
    (interest : c.interest.isEmpty = false) :
    let s := Session.start ⟨catalog, c.interest⟩ c.paths
    (∀ p : Program,
      (∀ n ∈ Walk.starts p, n.settled = n ↔
        Walk.tags [n] = [] ∧ ∀ r ∈ n.reached, ∀ x ∈ r.leftOut, settleOperand x = x) ∧
      (s.analyze p).2.2.map CoverageError.kind = (Walk.unknowns p).head? ∧
      (s.analyze p.settled).2.2 = none ∧
      (s.analyze p).1.collection.Begins (s.analyze p.settled).1.collection) ∧
    ∀ before : List Program, (∀ q ∈ before, Walk.unknowns q = []) →
      (analyzePrograms c before).failure = none ∧
      ∀ (p : Program) (after : List Program), Walk.unknowns p ≠ [] →
        ∃ e, (s.analyze p).2.2 = some e ∧
          (analyzePrograms c (before ++ p :: after)).failure = some (.uncovered p.file e) ∧
          (analyzePrograms c (before ++ p :: after)).result.findings =
            (analyzePrograms c before).result.findings ++ (s.analyze p).1.collection.findings ∧
          (analyzePrograms c (before ++ p :: after)).result.includes =
            (analyzePrograms c before).result.includes ++ (s.analyze p).1.collection.includes := by
  intro s
  refine ⟨fun p => ⟨fun n _ => Walk.settled_eq_self_iff n, Walk.failure_program _ p,
    Walk.failure_program_eq_none _ (Walk.unknowns_settled p), begins_analyze_settled _ _ p⟩,
    fun before covered => ⟨failure_of_covered parsed interest covered, fun p after uncovered => ?_⟩⟩
  have failure := Walk.failure_program catalog.mitigations p
  rw [List.head?_eq_some_head uncovered] at failure
  obtain ⟨e, stopped, -⟩ := Option.map_eq_some_iff.mp failure
  exact ⟨e, stopped, stopped_at parsed interest covered stopped after⟩

/-! ## A program that is stopped -/

/-- A configuration that reports scripts in what is printed. -/
def riddleConfig : Config :=
  { Config.default with dangerous := [("echo", "XSS")], mitigating := [] }

/-- The session that it starts. -/
def riddleSession : Session :=
  .start ⟨⟨[("echo", ⟨8⟩)], []⟩, riddleConfig.interest⟩ riddleConfig.paths

/-- A program that prints a reference to a place to append to, where the array is of an unknown
kind, and goes on with a statement of an unknown kind. -/
def riddleProgram : Program where
  file := "a"
  body := .mk .unknown
    [.simple ⟨"a", 1, "", ""⟩ .echo (some (.unary .unknown .reference
        (some (.unary .unknown .arrayTail (some (.unknown .unknown "mystery")))))),
      .unknown ⟨"a", 2, "", ""⟩ "riddle"]
  functions := []

/-- **What is found is not always a beginning**: it is shown by an expression that has a node of an
unknown kind. -/
theorem unknown_node_in_witness :
    (riddleSession.analyze riddleProgram).2.2.map CoverageError.kind = some "riddle" ∧
    ¬ ((riddleSession.analyze riddleProgram).1.collection.findings.map Finding.text <+:
      (riddleSession.analyze riddleProgram.settled).1.collection.findings.map Finding.text) := by
  decide +kernel

theorem riddle_stops_second_program :
    Walk.unknowns riddleProgram = ["riddle"] ∧
    (riddleSession.analyze riddleProgram).1.collection.findings.map (·.loc.line) = [1] ∧
    ∃ e, (riddleSession.analyze riddleProgram).2.2 = some e ∧
      (analyzePrograms riddleConfig [riddleProgram.settled, riddleProgram, riddleProgram]).failure =
        some (.uncovered "a" e) ∧
      (analyzePrograms riddleConfig
          [riddleProgram.settled, riddleProgram, riddleProgram]).result.findings =
        (analyzePrograms riddleConfig [riddleProgram.settled]).result.findings ++
          (riddleSession.analyze riddleProgram).1.collection.findings := by
  have parsed : Catalog.parse riddleConfig.dangerous riddleConfig.mitigating =
      .ok ⟨[("echo", ⟨8⟩)], []⟩ := Catalog.parse_eq_of_toOption (by decide +kernel)
  have covered : ∀ q ∈ [riddleProgram.settled], Walk.unknowns q = [] :=
    List.forall_mem_singleton.mpr (Walk.unknowns_settled _)
  have unknowns : Walk.unknowns riddleProgram = ["riddle"] := by
    simp [Walk.unknowns, Walk.starts, Walk.tags, Walk.fresh, riddleProgram, Walk.Node.reached_eq,
      Walk.Node.ofStatement, Walk.Node.children, Walk.Node.ofStmt, Walk.Node.ofExpr,
      Walk.skipsOperand, Walk.Node.form, Walk.Form.ofStmt, Walk.Form.ofExpr, Walk.Form.tag?]
  have uncovered : Walk.unknowns riddleProgram ≠ [] := by
    rw [unknowns]
    exact List.cons_ne_nil _ _
  refine ⟨unknowns, by decide +kernel, ?_⟩
  obtain ⟨e, stopped, failure, findings, -⟩ :=
    ((coverage_errors_are_exact parsed (by decide +kernel)).2 _ covered).2 riddleProgram
      [riddleProgram] uncovered
  exact ⟨e, stopped, failure, findings⟩

end PhpAudit
