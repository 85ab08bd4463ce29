import PhpAudit.Proofs.Analysis.Collected
import PhpAudit.Proofs.Walk.Isolation

/-!
# Findings inside a body

What is found in the body of a function, method or closure does not hang on what is around it, nor
the other way round: with the body emptied, what is collected loses one block, which is what is
collected from the body alone (`bodies_are_isolated`).
-/

namespace PhpAudit

open PhpAudit.Tree

/-- **What a finding shows**: its place, its sink and its risks, and the kind, place and printed
form of the expression that shows them. -/
def Finding.shown (f : Finding) :
    Location × Text × RiskSet × Option (Text × Location × Text) :=
  (f.loc, f.sink, f.risks, f.witness.map fun e => (e.kind, e.loc, e.print))

/-- Findings that are alike but for witnesses that look the same show the same. -/
theorem Finding.Matches.shown_eq {f g : Finding} (h : Finding.Matches Walk.Looks f g) :
    f.shown = g.shown := by
  have witness : f.witness.map (fun e => (e.kind, e.loc, e.print)) =
      g.witness.map fun e => (e.kind, e.loc, e.print) := by
    have looks := h.witness
    generalize f.witness = x, g.witness = y at looks
    cases looks with
    | none => rfl
    | some looks => rw [Option.map_some, Option.map_some, looks.kind, looks.loc, looks.print]
  rw [Finding.shown, Finding.shown, h.loc, h.sink, h.risks, witness]

theorem map_shown_of_matches {fs gs : List Finding}
    (h : List.Forall₂ (Finding.Matches Walk.Looks) fs gs) :
    fs.map Finding.shown = gs.map Finding.shown :=
  Walk.map_eq_of_forall₂ (h.imp fun _ _ matched => matched.shown_eq)

/-- **Bodies are isolated.** Let a program without listed functions reach no node of an unknown
kind, and enter a body. Then that body can be emptied, and what is collected from the program with
it emptied lacks one block: what is collected from a program of that body alone. None of the three
is stopped. -/
theorem bodies_are_isolated (policy : Policy) (paths : List Text) {p : Program} {b : Block}
    (noFunctions : p.functions = []) (known : Walk.unknowns p = [])
    (entered : .body b ∈ (Walk.Node.ofStatement (.block p.body)).reached) (file : Text) :
    (∃ body', Walk.Emptied b (.ofStatement (.block p.body)) (.ofStatement (.block body'))) ∧
    ∀ body', Walk.Emptied b (.ofStatement (.block p.body)) (.ofStatement (.block body')) →
      let s := Session.start policy paths
      let whole := s.analyze p
      let rest := s.analyze { p with body := body' }
      let alone := s.analyze ⟨file, b, []⟩
      (whole.2.2 = none ∧ rest.2.2 = none ∧ alone.2.2 = none) ∧
      (∃ before after,
        whole.1.collection.findings = before ++ alone.1.collection.findings ++ after ∧
        rest.1.collection.findings.map Finding.shown = (before ++ after).map Finding.shown) ∧
      ∃ before after,
        whole.1.collection.includes = before ++ alone.1.collection.includes ++ after ∧
        rest.1.collection.includes = before ++ after := by
  refine ⟨Walk.Emptied.exists_block entered, fun body' emptied => ?_⟩
  intro s whole rest alone
  have body : Walk.unknowns ⟨file, b, []⟩ = [] := by
    refine emptied.unknowns_alone ?_ file
    rw [Walk.unknowns, Walk.starts, noFunctions] at known
    exact known
  obtain ⟨spliced, done⟩ :=
    Walk.spliced_course (m := policy.catalog.mitigations) noFunctions known emptied
  obtain ⟨before, after, before', after', events, events', first, second⟩ := spliced.of_one
  have cut : (Walk.emptying policy.catalog.mitigations b).cut =
      (Walk.course policy.catalog.mitigations ⟨file, b, []⟩).events := by
    rw [Walk.course_eq_of_no_functions rfl, Walk.run_visit_block]
    rfl
  refine ⟨⟨Walk.failure_program_eq_none _ known, done, Walk.failure_program_eq_none _ body⟩, ?_⟩
  simp only [whole, rest, alone, s, collection_analyze, findings_program, includeSites_program,
    events, events', cut, Policy.findings_append, includeSites_append]
  refine ⟨⟨_, _, rfl, ?_⟩, ⟨_, _, rfl, ?_⟩⟩
  · rw [List.map_append, List.map_append,
      map_shown_of_matches (policy.findings_matches (fun _ _ => id) first),
      map_shown_of_matches (policy.findings_matches (fun _ _ => id) second)]
  · rw [includeSites_eq_of_alike first, includeSites_eq_of_alike second]

/-! ## A closure that is printed -/

/-- A closure that prints its variable, and includes a file. -/
def printingBody : Block :=
  .mk .unknown
    [.simple ⟨"a", 3, "", ""⟩ .echo (some (.atom .unknown (.var "x"))),
      .simple ⟨"a", 4, "", ""⟩ .evaluate
        (some (.unary .unknown (.inclusion false false) (some (.atom .unknown (.string "b")))))]

/-- A program that assigns a literal to a variable of the same name, then a closure with that body
to another, and prints both. -/
def closureProgram (b : Block) : Program where
  file := "a"
  body := .mk .unknown
    [.simple ⟨"a", 1, "", ""⟩ .evaluate (some (.binary .unknown (.assign false)
        (some (.atom .unknown (.var "x"))) (some (.atom .unknown (.string "safe"))))),
      .simple ⟨"a", 2, "", ""⟩ .evaluate (some (.binary .unknown (.assign false)
        (some (.atom .unknown (.var "f")))
        (some (.closure .unknown
          (some (.mk ⟨.unknown, "", "", .isPublic, false, false⟩ [] (some b))) [])))),
      .simple ⟨"a", 5, "", ""⟩ .echo (some (.atom .unknown (.var "x"))),
      .simple ⟨"a", 6, "", ""⟩ .echo (some (.atom .unknown (.var "f")))]
  functions := []

theorem emptied_closureProgram :
    Walk.Emptied printingBody (.ofStatement (.block (closureProgram printingBody).body))
      (.ofStatement (.block (closureProgram (.mk .unknown [])).body)) := by
  refine @Walk.Emptied.inside _ _ _ _ _ [_] [_, _] rfl rfl rfl rfl ?_
  refine @Walk.Emptied.inside _ _ _ _ _ [] [] rfl rfl rfl rfl ?_
  refine @Walk.Emptied.inside _ _ _ _ _ [] [] rfl rfl rfl rfl ?_
  refine @Walk.Emptied.inside _ _ _ _ _ [] [] rfl rfl rfl rfl ?_
  refine @Walk.Emptied.inside _ _ _ _ _ [] [] rfl rfl rfl rfl ?_
  exact .here .unknown

/-- A session that looks for scripts in what is printed. -/
def printingSession : Session := .start ⟨⟨[("echo", ⟨8⟩)], []⟩, .all⟩ []

theorem closure_body_is_isolated :
    (printingSession.analyze (closureProgram printingBody)).1.collection.findings.map
      (·.loc.line) = [3, 6] ∧
    (printingSession.analyze ⟨"a", printingBody, []⟩).1.collection.findings.map
      (·.loc.line) = [3] ∧
    ∃ before after,
      (printingSession.analyze (closureProgram printingBody)).1.collection.findings =
        before ++ (printingSession.analyze ⟨"a", printingBody, []⟩).1.collection.findings ++ after ∧
      (printingSession.analyze (closureProgram (.mk .unknown []))).1.collection.findings.map
        Finding.shown = (before ++ after).map Finding.shown := by
  have known : Walk.unknowns (closureProgram printingBody) = [] := by
    simp [Walk.unknowns, Walk.starts, Walk.tags, Walk.fresh, closureProgram, printingBody,
      Walk.Node.reached_eq, Walk.Node.ofStatement, Walk.Node.children, Walk.Node.ofStmt,
      Walk.Node.ofExpr, Walk.skipsOperand, Walk.Node.form, Walk.Form.ofStmt, Walk.Form.ofExpr,
      Walk.Form.tag?]
  refine ⟨by decide +kernel, by decide +kernel, ?_⟩
  have isolated := bodies_are_isolated ⟨⟨[("echo", ⟨8⟩)], []⟩, .all⟩ [] rfl known
    emptied_closureProgram.mem_reached "a"
  exact (isolated.2 _ emptied_closureProgram).2.1

end PhpAudit
