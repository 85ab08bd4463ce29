import PhpAudit.Proofs.Walk.Comparison
import PhpAudit.Walk.Program

/-!
# Runs, and comparing two runs

The walk over a program is that of its body and then that of the functions listed beside it, its
**course**, between two remarks. The course of a program is that of the program up to a place in its
list, and then that of the rest, given the functions that were declared by then (`course_append`).

Walks that agree make courses that agree (`runs_course`): a listed function is passed over in both
or in neither, since events that are alike declare the same functions.
-/

namespace PhpAudit.Walk

open PhpAudit.Tree

/-- **The course of a program**: its statements, and then the functions listed beside them. -/
def course (m : Mitigations) (p : Program) : Run :=
  (Run.of (block m p.body)).andThen fun _ =>
    listed m (declaredKeys (Run.of (block m p.body)).events) p.functions

/-- The remark at the end of a run that failed. -/
def aborted (file : Text) : Option CoverageError → List Event
  | none => []
  | some e => [.remark ⟨.error, "Analysis of " ++ file ++ " aborted: " ++ e.message⟩]

/-- **The walk over a program** is its course between two remarks. -/
theorem program_eq (m : Mitigations) (p : Program) : program m p =
    ⟨.remark ⟨.debug, "Analyzing program " ++ p.file⟩ :: (course m p).events ++
      aborted p.file (course m p).failure, (course m p).failure⟩ := by
  have last : aborted p.file (course m p).failure = match (course m p).failure with
      | none => []
      | some e => [.remark ⟨.error, "Analysis of " ++ p.file ++ " aborted: " ++ e.message⟩] := by
    cases (course m p).failure <;> rfl
  rw [last]
  rfl

/-! ## The runs of nodes -/

section Runs

variable {α β : Type}

/-- The value of a walk is not seen in its run. -/
theorem run_map (f : α → β) (w : Walk α) : Run.of (f <$> w) = Run.of w := by
  rw [← bind_pure_comp, Run.of, Run.of, bind_apply]
  generalize w .start = o
  obtain ⟨events, scope, value⟩ := o
  cases value <;> simp

theorem run_visit_single (m : Mitigations) (n : Node) :
    Run.of (visit m [n]) = Run.of (n.walk m) := by
  have single : visit m [n] = (fun t => [t]) <$> n.walk m := by simp
  rw [single, run_map]

theorem run_visit_block (m : Mitigations) (b : Block) :
    Run.of (visit m [.ofStatement (.block b)]) = Run.of (block m b) := by
  have walk : (Node.ofStatement (.block b)).walk m = (fun _ => .none none) <$> block m b := by
    simp [Node.ofStatement, Node.walk, stmt?, stmt]
  rw [run_visit_single, walk, run_map]

theorem run_visit_function (m : Mitigations) (f : Function) :
    Run.of (visit m [.function f]) = Run.of (function m f) := by
  have walk : (Node.function f).walk m = (fun _ => .none none) <$> function m f := by
    simp [Node.walk]
  rw [run_visit_single, walk, run_map]

/-- The course of a program without listed functions is the walk of its body. -/
theorem course_eq_of_no_functions {m : Mitigations} {p : Program} (noFunctions : p.functions = []) :
    course m p = Run.of (visit m [.ofStatement (.block p.body)]) := by
  rw [course, noFunctions, run_visit_block, Run.andThen]
  split
  · rfl
  · rename_i done
    simp only [listed, List.append_nil]
    rw [← done]

end Runs

/-! ## Runs in sequence -/

theorem failure_andThen_eq_none_iff {r : Run} {next : Unit → Run} :
    (r.andThen next).failure = none ↔ r.failure = none ∧ (next ()).failure = none := by
  obtain ⟨es, failure⟩ := r
  cases failure <;> simp [Run.andThen]

theorem events_andThen {r : Run} {next : Unit → Run} (done : r.failure = none) :
    (r.andThen next).events = r.events ++ (next ()).events := by
  simp only [Run.andThen, done]

theorem andThen_of_failure {r : Run} {e : CoverageError} (stopped : r.failure = some e)
    (next : Unit → Run) : r.andThen next = r := by
  simp only [Run.andThen, stopped]

theorem run_andThen_assoc (r : Run) (next last : Unit → Run) :
    (r.andThen next).andThen last = r.andThen fun _ => (next ()).andThen last := by
  obtain ⟨es, failure⟩ := r
  cases failure with
  | some e => rfl
  | none =>
    simp only [Run.andThen]
    generalize next () = second
    obtain ⟨es', failure'⟩ := second
    cases failure' <;> simp

theorem declaredKeys_append (es es' : List Event) :
    declaredKeys (es ++ es') = declaredKeys es ++ declaredKeys es' := List.filterMap_append

/-- **Listed functions**, up to a place in the list and after it. -/
theorem listed_append (m : Mitigations) (declared : List FunctionKey) (fs fs' : List Function) :
    listed m declared (fs ++ fs') = (listed m declared fs).andThen fun _ =>
      listed m (declared ++ declaredKeys (listed m declared fs).events) fs' := by
  induction fs generalizing declared with
  | nil => simp [listed, Run.andThen, declaredKeys]
  | cons f fs ih =>
    rw [List.cons_append, listed, listed]
    split
    · exact ih declared
    · dsimp only
      cases failure : (Run.of (function m f)).failure with
      | some e => simp only [andThen_of_failure failure]
      | none =>
        rw [run_andThen_assoc, ih, events_andThen failure, declaredKeys_append, List.append_assoc]

/-- **The course of a program**, up to a place in its list and after it. -/
theorem course_append (m : Mitigations) (p : Program) (fs fs' : List Function) :
    course m { p with functions := fs ++ fs' } =
      (course m { p with functions := fs }).andThen fun _ =>
        listed m (declaredKeys (course m { p with functions := fs }).events) fs' := by
  simp only [course, listed_append]
  cases failure : (Run.of (block m p.body)).failure with
  | some e => simp only [andThen_of_failure failure]
  | none => rw [run_andThen_assoc, events_andThen failure, declaredKeys_append]

/-! ## Runs that agree -/

namespace Comparison

variable {m m' : Mitigations} (K : Comparison m m')

/-- **Runs that agree**: both are done, or the first failed and the second has done as much. -/
inductive Runs : Run → Run → Prop
  | done {es es' : List Event} : List.Forall₂ K.Like es es' → Runs ⟨es, none⟩ ⟨es', none⟩
  | stopped {es before after : List Event} {e : CoverageError} {failure : Option CoverageError} :
      List.Forall₂ K.Like es before → (K.goesOn ∨ after = [] ∧ failure = some e) →
      Runs ⟨es, some e⟩ ⟨before ++ after, failure⟩

variable {K}

/-- Where only nothing can be cut out, nothing is missing. -/
theorem Spliced.forall₂ (nothing : K.cut = []) {n : Nat} {es es' : List Event}
    (h : K.Spliced n es es') : List.Forall₂ K.Like es es' := by
  induction h with
  | nil => exact .nil
  | keep like _ ih => exact .cons like ih
  | cut _ ih =>
    rw [nothing]
    exact ih

theorem Agrees.runs {α β : Type} {n : Nat} {V : α → β → Prop} {w : Walk α} {w' : Walk β}
    (nothing : K.cut = []) (h : K.Agrees n V w w') : K.Runs (Run.of w) (Run.of w') := by
  have outcomes := h .start .start alike_start
  rw [Run.of, Run.of]
  generalize w .start = o at outcomes
  generalize w' .start = o' at outcomes
  cases outcomes with
  | done _ _ events => exact .done (events.forall₂ nothing)
  | stopped events rest =>
    refine .stopped (events.forall₂ nothing) (rest.imp_right fun ⟨ended, same⟩ => ⟨ended, ?_⟩)
    rw [same]

/-- **Runs in sequence.** -/
theorem Runs.andThen {r r' : Run} {next next' : Unit → Run} (h : K.Runs r r')
    (hnext : List.Forall₂ K.Like r.events r'.events → K.Runs (next ()) (next' ())) :
    K.Runs (r.andThen next) (r'.andThen next') := by
  cases h with
  | done events =>
    have second := hnext events
    simp only [Run.andThen]
    generalize next () = p at second
    generalize next' () = p' at second
    cases second with
    | done events' => exact .done (List.rel_append events events')
    | stopped events' rest =>
      dsimp only
      rw [← List.append_assoc]
      exact .stopped (List.rel_append events events') rest
  | @stopped es before after e failure events rest =>
    cases failure with
    | some e' => exact .stopped events rest
    | none =>
      simp only [Run.andThen, List.append_assoc]
      refine .stopped events (rest.imp_right fun ⟨_, same⟩ => ?_)
      cases same

/-- Where the second run does not go on after the first, both end in the same way. -/
theorem Runs.same_end {r r' : Run} (h : K.Runs r r') (ends : ¬ K.goesOn) :
    List.Forall₂ K.Like r.events r'.events ∧ r.failure = r'.failure := by
  cases h with
  | done events => exact ⟨events, rfl⟩
  | stopped events rest =>
    obtain ⟨rfl, rfl⟩ := rest.resolve_left ends
    rw [List.append_nil]
    exact ⟨events, rfl⟩

/-- Events that are alike declare the same functions. -/
theorem declaredKeys_eq {es es' : List Event} (h : List.Forall₂ K.Like es es') :
    declaredKeys es = declaredKeys es' := by
  induction h with
  | nil => rfl
  | cons like _ ih =>
    unfold declaredKeys at ih ⊢
    cases like <;> simp only [List.filterMap_cons, ih]

/-- **Listed functions** with the same heads, and walks that agree. -/
theorem runs_listed (nothing : K.cut = []) {fs fs' : List Function}
    (h : List.Forall₂ (fun f f' => f.head = f'.head ∧
      K.Agrees 0 (List.Forall₂ K.taint) (visit m [.function f]) (visit m' [.function f'])) fs fs')
    (declared : List FunctionKey) : K.Runs (listed m declared fs) (listed m' declared fs') := by
  induction h generalizing declared with
  | nil => exact .done .nil
  | @cons f f' fs fs' hf _ ih =>
    obtain ⟨head, agrees⟩ := hf
    rw [listed, listed, head]
    split
    · exact ih declared
    · rw [← run_visit_function, ← run_visit_function]
      refine (agrees.runs nothing).andThen fun events => ?_
      rw [declaredKeys_eq events]
      exact ih _

/-- **The courses of two programs** with walks that agree. -/
theorem runs_course (nothing : K.cut = []) {p p' : Program}
    (body : K.Agrees 0 (List.Forall₂ K.taint) (visit m [.ofStatement (.block p.body)])
      (visit m' [.ofStatement (.block p'.body)]))
    (functions : List.Forall₂ (fun f f' => f.head = f'.head ∧
      K.Agrees 0 (List.Forall₂ K.taint) (visit m [.function f]) (visit m' [.function f']))
      p.functions p'.functions) : K.Runs (course m p) (course m' p') := by
  rw [course, course, ← run_visit_block, ← run_visit_block]
  refine (body.runs nothing).andThen fun events => ?_
  rw [declaredKeys_eq events]
  exact runs_listed nothing functions _

end Comparison

end PhpAudit.Walk
