import PhpAudit.Proofs.Analysis.Reported
import PhpAudit.Proofs.Analysis.Sharding
import PhpAudit.Proofs.Walk.Settled

/-!
# Nodes of unknown kinds that are not noticed

A run fails at the first node of an unknown kind that it reaches. It does not reach everything: what
the walk leaves out (the targets of assignments, the operands of `unset` and of append places, the
keys and values of loops over objects, the defaults of parameters), and listed functions that are
passed over because one of the same class, name and place is declared already.

**The law** (`unknown_kind_is_noticed_or_hidden`): a node of an unknown kind stops the run, or
stands in one of these places.

**The gap.** There it is passed over in silence (`unknown_target_is_not_noticed`).
-/

namespace PhpAudit

open PhpAudit.Tree

namespace Walk

/-- **A listed function is walked, or is passed over** since another of its key is declared. -/
theorem mem_fresh_or_declared {f : Function} {fs : List Function} (declared : List FunctionKey)
    (given : f ∈ fs) : f ∈ fresh declared fs ∨ f.head.isClosure = false ∧
      FunctionKey.of f.head ∈ declared ++ keys ((fresh declared fs).map .function) := by
  induction fs generalizing declared with
  | nil => cases given
  | cons g fs ih =>
    rw [fresh]
    split
    · next known =>
      obtain rfl | given := List.mem_cons.mp given
      · -- the first of its key was declared before
        simp only [isKnown, Bool.and_eq_true, Bool.not_eq_true', List.contains_iff_mem] at known
        exact .inr ⟨known.1, List.mem_append_left _ known.2⟩
      · exact ih declared given
    · obtain rfl | given := List.mem_cons.mp given
      · exact .inl List.mem_cons_self
      · have rest := ih (declared ++ keys [.function g]) given
        rw [List.append_assoc, ← keys_cons] at rest
        exact rest.imp_left (List.mem_cons_of_mem _)

/-- A node in which some node is of an unknown kind reaches one, or leaves one out. -/
theorem reaches_or_leaves_out {n : Node} (unknown : n.settled ≠ n) :
    tags [n] ≠ [] ∨ ∃ r ∈ n.reached, ∃ x ∈ r.leftOut, settleOperand x ≠ x := by
  by_contra neither
  simp only [not_or, not_exists, not_and, ne_eq, not_not] at neither
  exact unknown ((settled_eq_self_iff n).mpr neither)

/-- **A program in which some node is of an unknown kind** reaches one, leaves one out, or has one
in a listed function that is passed over. -/
theorem reaches_or_hides {p : Program} (unknown : p.settled ≠ p) :
    unknowns p ≠ [] ∨
    (∃ n ∈ (starts p).flatMap Node.reached, ∃ x ∈ n.leftOut, settleOperand x ≠ x) ∨
    ∃ f ∈ p.functions, f.settled ≠ f ∧ .function f ∉ starts p ∧
      f.head.isClosure = false ∧ FunctionKey.of f.head ∈ keys (starts p) := by
  have started : ∀ n ∈ starts p, n.settled ≠ n → unknowns p ≠ [] ∨
      ∃ n ∈ (starts p).flatMap Node.reached, ∃ x ∈ n.leftOut, settleOperand x ≠ x := by
    intro n start unknown
    obtain reaches | ⟨r, reached, out⟩ := reaches_or_leaves_out unknown
    · refine .inl fun none => reaches ?_
      exact tags_eq_nil_iff.mp none n start
    · exact .inr ⟨r, List.mem_flatMap_of_mem start reached, out⟩
  by_cases body : p.body.settled = p.body
  · have listed : ∃ f ∈ p.functions, f.settled ≠ f := by
      by_contra none
      simp only [not_exists, not_and, ne_eq, not_not] at none
      apply unknown
      rw [Program.settled, body, map_eq_self.mpr none]
    obtain ⟨f, given, unknown⟩ := listed
    by_cases start : .function f ∈ starts p
    · have different : (Node.function f).settled ≠ .function f := by
        intro same
        exact unknown (Node.function.inj same)
      exact (started _ start different).imp_right .inl
    · obtain walked | declared :=
        mem_fresh_or_declared (keys [.ofStatement (.block p.body)]) given
      · exact absurd (List.mem_cons_of_mem _ (List.mem_map_of_mem walked)) start
      · rw [← keys_cons] at declared
        exact .inr (.inr ⟨f, given, unknown, start, declared⟩)
  · have different : (Node.ofStatement (.block p.body)).settled ≠ .ofStatement (.block p.body) := by
      intro same
      exact body (Stmt.block.inj (Option.some.inj (Node.statement.inj same)))
    exact (started _ List.mem_cons_self different).imp_right .inl

end Walk

/-- **A node of an unknown kind is noticed or hidden.** A run over a program fails exactly when it
reaches one. Settling replaces all of them, so a program that it changes has one anywhere: then the
run fails at the program, or one is in what a reached node leaves out, or in a listed function that
is passed over for another of the same class, name and place. -/
theorem unknown_kind_is_noticed_or_hidden {c : Config} {root : Session}
    (started : Session.ofConfig c = .ok root) (p : Program) :
    ((analyzePrograms c [p]).failure = none ↔ Walk.unknowns p = []) ∧
    (p.settled ≠ p →
      (∃ e, (analyzePrograms c [p]).failure = some (.uncovered p.file e)) ∨
      (∃ n ∈ (Walk.starts p).flatMap Walk.Node.reached, ∃ x ∈ n.leftOut, settleOperand x ≠ x) ∨
      ∃ f ∈ p.functions, f.settled ≠ f ∧ .function f ∉ Walk.starts p ∧
        f.head.isClosure = false ∧ Walk.FunctionKey.of f.head ∈ Walk.keys (Walk.starts p)) := by
  obtain ⟨catalog, parsed, interest, rfl⟩ := Session.ofConfig_eq_ok started
  constructor
  · rw [Session.failure_analyzePrograms_eq_none_iff started, List.forall_mem_singleton]
    exact Walk.failure_program_eq_none_iff
  · intro unknown
    refine (Walk.reaches_or_hides unknown).imp_left fun reaches => ?_
    rw [(analyzePrograms_eq parsed interest [p]).2, Walk.programs]
    cases failure : (Walk.program catalog.mitigations p).failure with
    | none => exact absurd (Walk.failure_program_eq_none_iff.mp failure) reaches
    | some e => exact ⟨e, rfl⟩

/-- A program that assigns one expression to another. -/
def assigningProgram (target value : Expr) : Program where
  file := "src/a"
  body := .mk .unknown
    [.simple ⟨"src/a", 1, "", ""⟩ .evaluate
      (some (.binary ⟨"src/a", 1, "", ""⟩ (.assign false) (some target) (some value)))]
  functions := []

/-- An assigned value of an unknown kind stops the run. -/
theorem unknown_value_is_noticed :
    let p := assigningProgram (.atom .unknown (.var "x")) (.unknown .unknown "mystery")
    p.settled ≠ p ∧
      ∃ e, (analyzePrograms Session.echoConfig [p]).failure = some (.uncovered "src/a" e) := by
  intro p
  have unknown : p.settled ≠ p := by
    simp [p, assigningProgram, Program.settled, Block.settled, settleStmts, Stmt.settled,
      settleOperand, Expr.settled]
  refine ⟨unknown, ?_⟩
  obtain noticed | ⟨n, reached, x, out, unsettled⟩ | ⟨f, given, -⟩ :=
    (unknown_kind_is_noticed_or_hidden Session.ofConfig_echoConfig p).2 unknown
  · exact noticed
  · -- all that is left out is the variable
    simp only [p, assigningProgram, Walk.starts, Walk.fresh, List.map_nil, List.flatMap_cons,
      List.flatMap_nil, List.append_nil, Walk.Node.reached_eq, Walk.Node.ofStatement,
      Walk.Node.children, Walk.Node.ofStmt, Walk.Node.ofExpr, List.map_cons, List.mem_cons,
      List.not_mem_nil, or_false] at reached
    obtain rfl | rfl | rfl | rfl := reached
    · cases out
    · cases out
    · cases List.mem_singleton.mp out
      exact absurd rfl unsettled
    · cases out
  · cases given

/-! ## A target of an unknown kind -/

/-- **An assignment to an expression of an unknown kind** does not stop the run. -/
theorem unknown_target_is_not_noticed :
    let p := assigningProgram (.unknown .unknown "mystery") (.atom .unknown (.integer 1))
    p.settled ≠ p ∧ (analyzePrograms Session.echoConfig [p]).failure = none := by
  intro p
  have covered : ∀ q ∈ [p], (Session.echoSession.analyze q).2.2 = none := by decide
  refine ⟨?_, (Session.failure_analyzePrograms_eq_none_iff Session.ofConfig_echoConfig).mpr covered⟩
  simp [p, assigningProgram, Program.settled, Block.settled, settleStmts, Stmt.settled,
    settleOperand, Expr.settled]

end PhpAudit
