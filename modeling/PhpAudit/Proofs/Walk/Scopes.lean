import PhpAudit.Proofs.Walk.Steps

/-!
# The scopes of a program

A program has one scope for its statements, and one for every body that its walk reaches, of a
function, a method or a closure. A scope is walked alone, from its start: its trace does not hang on
where the body stands, nor on what was walked before.

**The law** (`exists_report`): every record that the walk over a program makes, also one that is
stopped, is made at a step of the trace of one scope, and at a node of that scope.
-/

namespace PhpAudit.Walk

open PhpAudit.Tree

/-- **A body is a scope of a program**: it holds the statements of the program, or is reached. -/
def IsScope (p : Program) (b : Block) : Prop :=
  b = p.body ∨ .body b ∈ (starts p).flatMap Node.reached

/-- The nodes of a scope. Bodies among them are not opened. -/
def nodesOf (b : Block) : List Node := (Node.ofStatement (.block b)).own

/-- **The trace of a scope.** -/
def traceOf (m : Mitigations) (b : Block) : List Step := trace m [.ofStatement (.block b)] .start

variable {m : Mitigations} {p : Program} {b : Block} {e : Event} {n : Node}

/-! ## One scope -/

/-- Every step of a scope is made at a node of the scope. -/
theorem exists_here {st : Step} (h : st ∈ traceOf m b) : ∃ n ∈ nodesOf b, ∃ s, Here m s n st := by
  obtain ⟨n, hn, s, here⟩ := exists_of_mem_trace h
  rw [List.flatMap_singleton] at hn
  exact ⟨n, hn, s, here_of_mem_steps here⟩

theorem mem_nodesOf_of_come (h : .come n ∈ traceOf m b) : n ∈ nodesOf b := by
  obtain ⟨k, hk, s, here⟩ := exists_here h
  cases here
  exact hk

theorem mem_nodesOf_of_report (h : .report n e ∈ traceOf m b) : n ∈ nodesOf b := by
  obtain ⟨k, hk, s, here⟩ := exists_here h
  cases here <;> exact hk

/-- A node that is left is of the scope, and its taint is the value of its walk. -/
theorem mem_nodesOf_of_leave {t : Taint} (h : .leave n t ∈ traceOf m b) :
    n ∈ nodesOf b ∧ ∃ s, (n.walk m s).value = .ok t := by
  obtain ⟨k, hk, s, here⟩ := exists_here h
  cases here with
  | leave done => exact ⟨hk, s, done⟩

/-- **Records are made by calls, echoes, includes and exits.** -/
theorem records_of_report (h : .report n e ∈ traceOf m b) (record : e.place?.isSome) :
    n.form.Records := by
  obtain ⟨l, place⟩ := Option.isSome_iff_exists.mp record
  obtain ⟨k, hk, s, here⟩ := exists_here h
  cases here with
  | announced he =>
    rw [place?_of_announced he] at place
    cases place
  | told _ he => exact (place_of_told he place).1

theorem events_traceOf (m : Mitigations) (b : Block) :
    (traceOf m b).flatMap (Step.events m) = (block m b .start).events := by
  rw [traceOf, events_trace]
  exact congrArg Run.events (run_visit_block m b)

/-! ## What is below a node -/

theorem mem_reached_of_mem_own {n k : Node} (h : k ∈ n.own) : k ∈ n.reached := by
  induction n using Node.induction with | step n ih
  rw [Node.own_eq, List.mem_cons, List.mem_flatMap] at h
  obtain rfl | ⟨c, hc, h⟩ := h
  · exact k.mem_reached_self
  · have child := Node.mem_children_of_mem_within hc
    exact Node.mem_reached_of_child child (ih c child h)

/-- A body has the children of the block that it is. -/
theorem children_body (b : Block) :
    (Node.body b).children = (Node.ofStatement (.block b)).children := by
  cases b
  rfl

/-- A body that is passed in a scope is below it. -/
theorem exists_child_of_body {inner : Block} (h : .body inner ∈ traceOf m b) :
    ∃ c ∈ (Node.body b).children, .body inner ∈ c.reached := by
  obtain ⟨k, hk, s, here⟩ := exists_here h
  cases here
  rw [nodesOf, Node.own_eq, List.mem_cons, List.mem_flatMap] at hk
  obtain same | ⟨c, hc, hk⟩ := hk
  · cases same
  · exact ⟨c, children_body b ▸ hc, mem_reached_of_mem_own hk⟩

/-- **What a body reports is reported in one scope**: its own, or that of a body below it. -/
theorem exists_report_of_body {n : Node} (h : .body b ∈ n.reached)
    (he : e ∈ (block m b .start).events) :
    ∃ inner k, .body inner ∈ n.reached ∧ .report k e ∈ traceOf m inner := by
  induction n using Node.induction generalizing b with | step n ih
  have below {c : Node} (hc : c ∈ n.children) {b : Block} (h : .body b ∈ c.reached)
      (he : e ∈ (block m b .start).events) :
      ∃ inner k, .body inner ∈ n.reached ∧ .report k e ∈ traceOf m inner := by
    obtain ⟨inner, k, hi, hk⟩ := ih c hc h he
    exact ⟨inner, k, Node.mem_reached_of_child hc hi, hk⟩
  have up := h
  rw [Node.reached_eq, List.mem_cons, List.mem_flatMap] at h
  obtain rfl | ⟨c, hc, h⟩ := h
  · rw [← events_traceOf, List.mem_flatMap] at he
    obtain ⟨st, hst, he⟩ := he
    cases st with
    | come | leave => cases he
    | report k e' =>
      obtain rfl := List.mem_singleton.mp he
      exact ⟨b, k, up, hst⟩
    | body inner =>
      obtain ⟨c, hc, hi⟩ := exists_child_of_body hst
      exact below hc hi he
  · exact below hc h he

/-! ## Programs -/

/-- What listed functions report is reported by one that is not passed over. -/
theorem exists_of_mem_listed {declared : List FunctionKey} {fs : List Function}
    (he : e ∈ (listed m declared fs).events) :
    ∃ f ∈ fresh declared fs, e ∈ (function m f .start).events := by
  induction fs generalizing declared with
  | nil => cases he
  | cons f fs ih =>
    rw [listed] at he
    rw [fresh]
    split
    · next known =>
      rw [if_pos known] at he
      exact ih he
    · next new =>
      rw [if_neg new] at he
      have covers := run_visit m [.function f]
      rw [run_visit_function] at covers
      cases failure : (Run.of (function m f)).failure with
      | some err =>
        rw [andThen_of_failure failure] at he
        exact ⟨f, List.mem_cons_self, he⟩
      | none =>
        rw [events_andThen failure, List.mem_append, covers.declaredKeys_of_done failure] at he
        obtain he | he := he
        · exact ⟨f, List.mem_cons_self, he⟩
        · obtain ⟨g, hg, he⟩ := ih he
          exact ⟨g, List.mem_cons_of_mem _ hg, he⟩

/-- What a course reports is reported by the statements of the program or by a function of its list
that is not passed over. -/
theorem exists_of_mem_course (he : e ∈ (course m p).events) :
    e ∈ (block m p.body .start).events ∨
      ∃ f, .function f ∈ starts p ∧ e ∈ (function m f .start).events := by
  have covers := run_visit m [.ofStatement (.block p.body)]
  rw [run_visit_block] at covers
  rw [course] at he
  cases failure : (Run.of (block m p.body)).failure with
  | some err =>
    rw [andThen_of_failure failure] at he
    exact .inl he
  | none =>
    rw [events_andThen failure, List.mem_append, covers.declaredKeys_of_done failure] at he
    obtain he | he := he
    · exact .inl he
    · obtain ⟨f, hf, he⟩ := exists_of_mem_listed he
      exact .inr ⟨f, List.mem_cons_of_mem _ (List.mem_map_of_mem hf), he⟩

/-- A record that the walk of a function makes is made in its body. -/
theorem exists_body_of_function {f : Function} (he : e ∈ (function m f .start).events)
    (record : e.place?.isSome) :
    ∃ b, .body b ∈ (Node.function f).reached ∧ e ∈ (block m b .start).events := by
  obtain ⟨head, params, _ | b⟩ := f
  · have events : (function m (.mk head params none) .start).events =
        (Node.function (.mk head params none)).form.announced .unknown := rfl
    rw [events] at he
    rw [place?_of_announced he] at record
    cases record
  · have events : (function m (.mk head params (some b)) .start).events =
        (Node.function (.mk head params (some b))).form.announced .unknown ++
          (block m b .start).events := rfl
    rw [events, List.mem_append] at he
    obtain he | he := he
    · rw [place?_of_announced he] at record
      cases record
    · exact ⟨b, body_mem_reached rfl, he⟩

/-- **Every record of a program is made at a step of the trace of one scope.** -/
theorem exists_report (he : e ∈ (course m p).events) (record : e.place?.isSome) :
    ∃ b n, IsScope p b ∧ .report n e ∈ traceOf m b := by
  obtain he | ⟨f, hf, he⟩ := exists_of_mem_course he
  · obtain ⟨b, n, hb, report⟩ := exists_report_of_body (Node.mem_reached_self _) he
    refine ⟨b, n, ?_, report⟩
    rw [Node.reached_eq, List.mem_cons] at hb
    obtain same | hb := hb
    · exact .inl (Node.body.inj same)
    · refine .inr (List.mem_flatMap_of_mem List.mem_cons_self ?_)
      rw [Node.reached_eq, ← children_body]
      exact List.mem_cons_of_mem _ hb
  · obtain ⟨b, hb, he⟩ := exists_body_of_function he record
    obtain ⟨inner, n, hi, report⟩ := exists_report_of_body hb he
    exact ⟨inner, n, .inr (List.mem_flatMap_of_mem hf hi), report⟩

end PhpAudit.Walk
