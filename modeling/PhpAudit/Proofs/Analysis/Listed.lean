import PhpAudit.Proofs.Analysis.Collected
import PhpAudit.Proofs.Analysis.Sharding
import PhpAudit.Proofs.Walk.Enclosed

/-!
# Functions listed beside the statements

A program lists functions beside its statements, and a record of the list may repeat one that its
statements declare. So a listed function is passed over when it is **shadowed**: it is named, and a
function of the same class, name and place was walked before it.

**The law** (`listed_function_is_walked_or_shadowed`): a listed function that is not shadowed is
walked in its turn; one that is shadowed is as good as not listed. What its body gives alone is
found, unless it is shadowed by functions of other bodies only.

**The gap.** Functions without a known line all have the same place, so functions of one name that
have nothing else in common shadow each other (`namesake_without_line_is_lost`).
-/

namespace PhpAudit

open PhpAudit.Tree

namespace Walk

/-- **What was walked** before a place in the list of functions: the functions among the nodes that
are reached from the statements and from the list up to that place. -/
def walkedBefore (p : Program) (before : List Function) (g : Function) : Prop :=
  .function g ∈ (starts { p with functions := before }).flatMap Node.reached

/-- **A listed function is shadowed** by what was walked before it: both are named, of one class, name
and place. -/
def Shadowed (p : Program) (before : List Function) (f : Function) : Prop :=
  f.head.isClosure = false ∧ ∃ g, walkedBefore p before g ∧ FunctionKey.of g.head = .of f.head

variable {p : Program} {before after : List Function} {f : Function}

theorem isKnown_iff_shadowed :
    isKnown (keys (starts { p with functions := before })) f.head = true ↔ Shadowed p before f := by
  rw [isKnown, Bool.and_eq_true, Bool.not_eq_true', List.contains_iff_mem, mem_keys_iff, Shadowed]
  refine and_congr_right fun named => exists_congr fun g => and_congr_right fun _ => ?_
  refine and_iff_right_of_imp fun same => ?_
  -- functions of one name are both anonymous or both named
  have name : g.head.name = f.head.name := congrArg FunctionKey.name same
  rwa [FunctionHead.isClosure, name]

/-- **A listed function that is not shadowed** is walked in its turn. -/
theorem starts_of_not_shadowed (given : p.functions = before ++ f :: after)
    (free : ¬ Shadowed p before f) :
    ∃ later, starts p = starts { p with functions := before } ++ .function f :: later := by
  have split := starts_append p before (f :: after)
  rw [← given] at split
  rw [← isKnown_iff_shadowed] at free
  rw [fresh, if_neg free, List.map_cons] at split
  exact ⟨_, split⟩

/-- **A listed function that is shadowed** is as good as not listed. -/
theorem course_of_shadowed (m : Mitigations) (given : p.functions = before ++ f :: after)
    (shadowed : Shadowed p before f) :
    course m p = course m { p with functions := before ++ after } := by
  have whole := course_append m p before (f :: after)
  rw [← given] at whole
  rw [whole, course_append]
  cases failure : (course m { p with functions := before }).failure with
  | some e => rw [andThen_of_failure failure, andThen_of_failure failure]
  | none =>
    have known := failure_program_eq_none_iff.mp (failure : (program m _).failure = none)
    rw [(covers_course m _).declaredKeys_eq known, listed, if_pos (isKnown_iff_shadowed.mpr shadowed)]

/-- **A body that is reached** is a block of a course that is not stopped. -/
theorem infix_course {m : Mitigations} {b : Block} (done : (course m p).failure = none)
    (reached : .body b ∈ (starts p).flatMap Node.reached) :
    (Run.of (block m b)).events <:+: (course m p).events := by
  obtain ⟨n, start, reached⟩ := List.mem_flatMap.mp reached
  have known : tags [n] = [] :=
    tags_eq_nil_iff.mp (failure_program_eq_none_iff.mp (done : (program m p).failure = none)) n start
  have here : (Run.of (visit m [n])).failure = none := by
    rw [← Option.map_eq_none_iff (f := CoverageError.kind), (run_visit m [n]).failure, known]
    rfl
  rw [events_course done, List.flatMap_def]
  refine (infix_run_visit ?_ here).trans (List.infix_of_mem_flatten (List.mem_map_of_mem start))
  rwa [List.flatMap_singleton]

end Walk

/-- **What a session finds in a body alone**: in a program that is that body, on a fork that has found
nothing. -/
def Session.foundAlone (s : Session) (file : Text) (b : Block) : List Finding :=
  (s.fork.analyze ⟨file, b, []⟩).1.collection.findings

theorem Session.findings_analyze (s : Session) (p : Program) :
    (s.analyze p).1.collection.findings = s.collection.findings ++
      s.policy.findings (Walk.course s.policy.catalog.mitigations p).events := by
  rw [Session.analyze_eq, ← findings_program]
  rfl

theorem Session.foundAlone_eq (s : Session) (file : Text) (b : Block) : s.foundAlone file b =
    s.policy.findings (Walk.Run.of (Walk.block s.policy.catalog.mitigations b)).events := by
  rw [foundAlone, findings_analyze, Walk.course_eq_of_no_functions rfl, Walk.run_visit_block]
  rfl

/-- **What a body that is reached gives alone** is a block of what a program that does not fail
gives. -/
theorem Session.foundAlone_infix (s : Session) {p : Program} {b : Block} (file : Text)
    (covered : (s.analyze p).2.2 = none)
    (reached : .body b ∈ (Walk.starts p).flatMap Walk.Node.reached) :
    s.foundAlone file b <:+: (s.analyze p).1.collection.findings := by
  have done : (Walk.course s.policy.catalog.mitigations p).failure = none := covered
  rw [foundAlone_eq, findings_analyze]
  exact ((Walk.infix_course done reached).filterMap _).trans (List.suffix_append _ _).isInfix

/-- **A listed function is walked or shadowed.** Let a session analyse a program without failing, and
take a function of its list that has a body. If what was walked before it does not shadow it, it is
walked in its turn; if it does, the analysis is that of the program without it. And the findings of
its body alone are a block of what is found, unless it is shadowed and no function of its class, name
and place that was walked before it has that body. -/
theorem listed_function_is_walked_or_shadowed (s : Session) {p : Program}
    {before after : List Function} {f : Function} {b : Block} (covered : (s.analyze p).2.2 = none)
    (given : p.functions = before ++ f :: after) (body : f.body = some b) :
    (¬ Walk.Shadowed p before f → ∃ later,
      Walk.starts p = Walk.starts { p with functions := before } ++ .function f :: later) ∧
    (Walk.Shadowed p before f →
      s.analyze p = s.analyze { p with functions := before ++ after }) ∧
    ((Walk.Shadowed p before f → ∃ g, Walk.walkedBefore p before g ∧
        Walk.FunctionKey.of g.head = .of f.head ∧ g.body = some b) →
      s.foundAlone p.file b <:+: (s.analyze p).1.collection.findings) := by
  refine ⟨Walk.starts_of_not_shadowed given, fun shadowed => ?_, fun kept => ?_⟩
  · have course := Walk.course_of_shadowed s.mitigations given shadowed
    rw [Session.analyze, Session.analyze, Walk.program_eq, Walk.program_eq, course]
  · refine s.foundAlone_infix p.file covered ?_
    by_cases shadowed : Walk.Shadowed p before f
    · obtain ⟨g, walked, -, sameBody⟩ := kept shadowed
      obtain ⟨n, start, reached⟩ := List.mem_flatMap.mp walked
      have split := Walk.starts_append p before (f :: after)
      rw [← given] at split
      rw [split]
      refine List.mem_flatMap.mpr ⟨n, List.mem_append_left _ start, ?_⟩
      exact Walk.Node.mem_reached_trans reached (Walk.body_mem_reached sameBody)
    · obtain ⟨later, split⟩ := Walk.starts_of_not_shadowed given shadowed
      rw [split]
      refine List.mem_flatMap.mpr ⟨.function f, ?_, Walk.body_mem_reached body⟩
      exact List.mem_append_right _ List.mem_cons_self

/-! ## Two listed functions -/

/-- A body that prints a variable. -/
def printingLine : Block :=
  .mk .unknown [.simple ⟨"src/a", 2, "", ""⟩ .echo (some (.atom .unknown (.var "x")))]

/-- A program that lists two functions without a line: one does nothing, the other prints. -/
def listingProgram (idle printing : Text) : Program where
  file := "src/a"
  body := .mk .unknown []
  functions := [
    .mk ⟨.unknown, idle, "", .isPublic, false, false⟩ [] (some (.mk .unknown [])),
    .mk ⟨.unknown, printing, "", .isPublic, false, false⟩ [] (some printingLine)]

/-- A listed function that shares its place, but not its name, with another. -/
theorem listed_stranger_is_found :
    let p := listingProgram "idle" "show"
    let s := Session.echoSession
    (s.analyze p).2.2 = none ∧ (s.foundAlone p.file printingLine).length = 1 ∧
      s.foundAlone p.file printingLine <:+: (s.analyze p).1.collection.findings := by
  intro p s
  have covered : (s.analyze p).2.2 = none := by decide +kernel
  refine ⟨covered, by decide +kernel, ?_⟩
  have given : p.functions = [_] ++ _ :: [] := rfl
  obtain ⟨-, -, found⟩ := listed_function_is_walked_or_shadowed s covered given rfl
  refine found fun shadowed => ?_
  have known := Walk.isKnown_iff_shadowed.mpr shadowed
  simp [p, listingProgram, Walk.starts, Walk.fresh, Walk.keys, Walk.isKnown, Walk.Node.reached_eq,
    Walk.Node.ofStatement, Walk.Node.children, Walk.Node.ofStmt, Walk.Node.form, Walk.Form.ofStmt,
    Walk.Form.key?, Function.head, Walk.FunctionKey.of] at known
  exact absurd known.2.2 (by decide)

/-- **A namesake without a line is lost.** Nothing that is walked has its body, and nothing is found,
though its body alone gives a finding. -/
theorem namesake_without_line_is_lost :
    let p := listingProgram "show" "show"
    let s := Session.echoSession
    (s.analyze p).2.2 = none ∧ (∃ f ∈ p.functions, f.body = some printingLine) ∧
      (∀ g, Walk.walkedBefore p p.functions g → g.body ≠ some printingLine) ∧
      (s.foundAlone p.file printingLine).length = 1 ∧
      (s.analyze p).1.collection.findings = [] := by
  intro p s
  refine ⟨by decide +kernel, ⟨_, List.mem_cons_of_mem _ List.mem_cons_self, rfl⟩, ?_,
    by decide +kernel, List.length_eq_zero_iff.mp (by decide +kernel)⟩
  intro g walked
  have named : (⟨.unknown, "show", "", .isPublic, false, false⟩ : FunctionHead).isClosure = false := by
    decide
  change Walk.Node.function g ∈ (Walk.starts (listingProgram "show" "show")).flatMap _ at walked
  simp [listingProgram, Walk.starts, Walk.fresh, Walk.keys, Walk.isKnown, Walk.Node.reached_eq,
    Walk.Node.ofStatement, Walk.Node.children, Walk.Node.ofStmt, Walk.Node.form, Walk.Form.ofStmt,
    Walk.Form.key?, Function.head, Walk.FunctionKey.of, named] at walked
  subst walked
  simp [Function.body, printingLine]

end PhpAudit
