import PhpAudit.Proofs.Walk.Enclosed
import PhpAudit.Proofs.Walk.Reports

/-!
# The steps of a walk

The walk through one scope goes by **steps**: it comes to a node, reports at a node, leaves a node
with its taint, or passes a body, which is a scope of its own and is not opened. The **trace** of a
walk lists its steps in order. It is read off the walk: what a step reports is what entering or
leaving the form of the node reports, and the steps together report the events of the walk
(`events_trace`).

**The law** (`Invariant.run`): what one step keeps, a walk keeps. An invariant says what is known of
a scope and of a taint after some steps, and what is to be shown of a report. It is to be shown once
for entering and once for leaving a form; then it holds at every report of the trace, of the
variables and taints that the walk ends with, and in every scope of a program (`exists_report`).
-/

namespace PhpAudit

open PhpAudit.Tree

/-- What comes after an outcome: it goes on from its scope, unless the walk was stopped. -/
def Outcome.goOn {α β : Type} (o : Outcome α) (rest : α → Scope → List β) : List β :=
  match o.value with
  | .ok a => rest a o.scope
  | .error _ => []

namespace Walk

/-- **A step of the walk through one scope.** -/
inductive Step where
  | come (n : Node)
  | report (n : Node) (e : Event)
  /-- The walk leaves a node, which has this taint. -/
  | leave (n : Node) (t : Taint)
  /-- The walk passes a body with a scope of its own. -/
  | body (b : Block)

/-- What a step reports; a body reports what its own walk does. -/
def Step.events (m : Mitigations) : Step → List Event
  | .come _ | .leave _ _ => []
  | .report _ e => [e]
  | .body b => (block m b .start).events

namespace Node

/-- The steps at which a node is left. -/
def leaving (m : Mitigations) (n : Node) (ts : List Taint) (s : Scope) : List Step :=
  let o := n.form.leave m n.self ts s
  o.events.map (.report n) ++ o.goOn fun t _ => [.leave n t]

/-- The steps at a node, given those below it. -/
def steps (m : Mitigations) (below : Scope → List Step) : Node → Scope → List Step
  | .body b, _ => [.body b]
  | n, s =>
    let o := n.form.enter s
    .come n :: o.events.map (.report n) ++ below o.scope ++
      (visit m n.children o.scope).goOn (n.leaving m)

/-- The children of a node that are in the same scope: a body is not opened. -/
def within : Node → List Node
  | .body _ => []
  | n => n.children

theorem mem_children_of_mem_within {n c : Node} (h : c ∈ n.within) : c ∈ n.children := by
  cases n with
  | body b => cases h
  | _ => exact h

/-- **The nodes of a scope** from a node on. The bodies among them are not opened. -/
def own (n : Node) : List Node :=
  n :: n.within.attach.flatMap fun c => c.1.own
termination_by sizeOf n
decreasing_by exact sizeOf_lt_of_mem_children (mem_children_of_mem_within c.2)

theorem own_eq (n : Node) : n.own = n :: n.within.flatMap own := by
  rw [own, List.flatMap_subtype (g := own) fun _ _ => rfl, List.unattach_attach]

/-- A node is a body, or none. -/
theorem body_or (n : Node) : (∃ b, n = .body b) ∨ ∀ b, n ≠ .body b := by
  cases n with
  | body b => exact .inl ⟨b, rfl⟩
  | _ => exact .inr fun b h => by cases h

theorem length_reached_pos (n : Node) : 0 < n.reached.length := by
  rw [reached_eq]
  exact Nat.succ_pos _

end Node

/-- **The steps of the walk through nodes**, one after the other. -/
def trace (m : Mitigations) : List Node → Scope → List Step
  | [], _ => []
  | n :: ns, s =>
    n.steps m (fun s' => trace m n.children s') s ++ (n.walk m s).goOn fun _ s' => trace m ns s'
termination_by ns => (ns.flatMap Node.reached).length
decreasing_by
  · rw [List.flatMap_cons, Node.reached_eq, List.length_append, List.length_cons]
    omega
  · rw [List.flatMap_cons, List.length_append]
    have := n.length_reached_pos
    omega

@[simp] theorem trace_nil (m : Mitigations) (s : Scope) : trace m [] s = [] := by
  rw [trace]

theorem trace_cons (m : Mitigations) (n : Node) (ns : List Node) (s : Scope) :
    trace m (n :: ns) s =
      n.steps m (trace m n.children) s ++ (n.walk m s).goOn fun _ => trace m ns := by
  rw [trace]

/-! ## Walks in sequence -/

section Sequence

variable {α β : Type} {γ : Type}

theorem goOn_of_ok {o : Outcome α} {a : α} (done : o.value = .ok a)
    (rest : α → Scope → List β) : o.goOn rest = rest a o.scope := by
  rw [Outcome.goOn, done]

theorem goOn_of_error {o : Outcome α} {e : CoverageError} (stopped : o.value = .error e)
    (rest : α → Scope → List β) : o.goOn rest = [] := by
  rw [Outcome.goOn, stopped]

theorem flatMap_goOn (o : Outcome α) (rest : α → Scope → List β) (f : β → List γ) :
    (o.goOn rest).flatMap f = o.goOn fun a s => (rest a s).flatMap f := by
  unfold Outcome.goOn
  cases o.value <;> rfl

theorem mem_goOn {o : Outcome α} {rest : α → Scope → List β} {b : β} :
    b ∈ o.goOn rest ↔ ∃ a, o.value = .ok a ∧ b ∈ rest a o.scope := by
  unfold Outcome.goOn
  cases o.value <;> simp

theorem events_bind (w : Walk α) (f : α → Walk β) (s : Scope) :
    ((w >>= f) s).events = (w s).events ++ (w s).goOn fun a s' => (f a s').events := by
  rw [bind_apply, Outcome.goOn]
  cases (w s).value <;> simp

theorem value_bind_eq_ok {w : Walk α} {f : α → Walk β} {s : Scope} {b : β} :
    ((w >>= f) s).value = .ok b ↔
      ∃ a, (w s).value = .ok a ∧ (f a (w s).scope).value = .ok b := by
  rw [bind_apply]
  cases (w s).value <;> simp

end Sequence

/-! ## The walk of a node and the walk through nodes -/

section Visit

variable {m : Mitigations} {n : Node}

/-- **The walk of a node** that is no body enters its form, visits its children, and leaves it. -/
theorem walk_of_ne_body (notBody : ∀ b, n ≠ .body b) :
    n.walk m = (do n.form.enter; let ts ← visit m n.children; n.form.leave m n.self ts) := by
  rw [walk_eq_around]
  cases n with
  | body b => exact absurd rfl (notBody b)
  | operand x =>
    rcases x with _ | e
    · rfl
    · cases e with
      | binary l form a b => cases form <;> rfl
      | _ => rfl
  | statement x =>
    rcases x with _ | s
    · rfl
    · cases s with
      | block b => cases b; rfl
      | _ => rfl
  | link l => cases l; rfl
  | targets ts => cases ts; rfl
  | function f => cases f; rfl
  | classDef d => cases d; rfl

theorem walk_body (b : Block) (s : Scope) :
    (Node.body b).walk m s =
      ⟨(block m b .start).events, s, (block m b .start).value.map fun _ => .none none⟩ := by
  rw [Node.walk, bind_apply, inFreshScope]
  cases (block m b .start).value <;> simp [Except.map]

theorem steps_of_ne_body (notBody : ∀ b, n ≠ .body b) (below : Scope → List Step) (s : Scope) :
    n.steps m below s =
      .come n :: (n.form.announced (s.locate n.loc)).map (.report n) ++ below (s.track n.loc) ++
        (visit m n.children (s.track n.loc)).goOn (n.leaving m) := by
  rw [Node.steps]
  · rw [enter_apply, loc_form]
  · exact notBody

/-- The walk through the children of a node ends as the node is left. -/
theorem walk_eq_ok_iff (notBody : ∀ b, n ≠ .body b) {s : Scope} {t : Taint} :
    (n.walk m s).value = .ok t ↔ ∃ ts, (visit m n.children (s.track n.loc)).value = .ok ts ∧
      (n.form.leave m n.self ts (visit m n.children (s.track n.loc)).scope).value = .ok t := by
  rw [walk_of_ne_body notBody, bind_apply, enter_apply, loc_form, value_bind_eq_ok]

theorem events_walk (notBody : ∀ b, n ≠ .body b) (s : Scope) : (n.walk m s).events =
    n.form.announced (s.locate n.loc) ++ ((visit m n.children (s.track n.loc)).events ++
      (visit m n.children (s.track n.loc)).goOn fun ts s' =>
        (n.form.leave m n.self ts s').events) := by
  rw [walk_of_ne_body notBody, bind_apply, enter_apply, loc_form]
  exact congrArg (_ ++ ·) (events_bind _ _ _)

theorem visit_cons_eq_ok_iff {ns : List Node} {s : Scope} {ts : List Taint} :
    (visit m (n :: ns) s).value = .ok ts ↔ ∃ t us, ts = t :: us ∧ (n.walk m s).value = .ok t ∧
      (visit m ns (n.walk m s).scope).value = .ok us := by
  rw [visit_cons, value_bind_eq_ok]
  constructor
  · rintro ⟨t, first, rest⟩
    obtain ⟨us, rest, made⟩ := value_bind_eq_ok.mp rest
    exact ⟨t, us, (Except.ok.inj made).symm, first, rest⟩
  · rintro ⟨t, us, rfl, first, rest⟩
    exact ⟨t, first, value_bind_eq_ok.mpr ⟨us, rest, rfl⟩⟩

theorem events_visit_cons (ns : List Node) (s : Scope) : (visit m (n :: ns) s).events =
    (n.walk m s).events ++ (n.walk m s).goOn fun _ s' => (visit m ns s').events := by
  rw [visit_cons, events_bind]
  congr 1
  unfold Outcome.goOn
  cases (n.walk m s).value with
  | error e => rfl
  | ok t =>
    dsimp only
    rw [events_bind, Outcome.goOn]
    cases (visit m ns (n.walk m s).scope).value <;> simp

end Visit

/-! ## What steps report -/

section Events

variable (m : Mitigations)

theorem flatMap_events_report (n : Node) (es : List Event) :
    (es.map (Step.report n)).flatMap (Step.events m) = es := by
  rw [List.flatMap_map]
  exact List.flatMap_singleton' es

theorem flatMap_events_leaving (n : Node) (ts : List Taint) (s : Scope) :
    (n.leaving m ts s).flatMap (Step.events m) = (n.form.leave m n.self ts s).events := by
  rw [Node.leaving, List.flatMap_append, flatMap_events_report, flatMap_goOn]
  have quiet : (n.form.leave m n.self ts s).goOn
      (fun t _ => [Step.leave n t].flatMap (Step.events m)) = [] := by
    unfold Outcome.goOn
    split <;> rfl
  rw [quiet, List.append_nil]

theorem flatMap_events_steps (n : Node) (s : Scope)
    (below : ∀ s', (trace m n.children s').flatMap (Step.events m) = (visit m n.children s').events) :
    (n.steps m (trace m n.children) s).flatMap (Step.events m) = (n.walk m s).events := by
  obtain ⟨b, rfl⟩ | notBody := n.body_or
  · rw [walk_body, Node.steps, List.flatMap_singleton]
    rfl
  · rw [steps_of_ne_body notBody, events_walk notBody]
    simp only [List.cons_append, List.flatMap_cons, List.flatMap_append, flatMap_events_report,
      flatMap_goOn, flatMap_events_leaving, below, Step.events, List.nil_append, List.append_assoc]

/-- **The steps of a walk report its events.** -/
theorem events_trace (ns : List Node) (s : Scope) :
    (trace m ns s).flatMap (Step.events m) = (visit m ns s).events := by
  induction ns using Node.forest_induction generalizing s with
  | nil => simp
  | cons n ns below rest =>
    rw [trace_cons, List.flatMap_append, flatMap_events_steps m n s below, flatMap_goOn,
      events_visit_cons]
    simp only [rest]

end Events

/-! ## What is among the steps -/

section Members

variable {m : Mitigations}

/-- A step at a node is one below it, or one of its own. -/
theorem mem_steps {n : Node} {below : Scope → List Step} {s : Scope} {st : Step}
    (h : st ∈ n.steps m below s) : st ∈ n.steps m (fun _ => []) s ∨
      (∀ b, n ≠ .body b) ∧ st ∈ below (s.track n.loc) := by
  obtain ⟨b, rfl⟩ | notBody := n.body_or
  · exact .inl h
  · rw [steps_of_ne_body notBody, List.mem_append, List.mem_append] at h ⊢
    obtain (h | h) | h := h
    · exact .inl (.inl (.inl h))
    · exact .inr ⟨notBody, h⟩
    · exact .inl (.inr h)

/-- **Every step of a walk is made at a node of the scope**, from some scope. -/
theorem exists_of_mem_trace {ns : List Node} {s : Scope} {st : Step} (h : st ∈ trace m ns s) :
    ∃ n ∈ ns.flatMap Node.own, ∃ s', st ∈ n.steps m (fun _ => []) s' := by
  induction ns using Node.forest_induction generalizing s with
  | nil =>
    rw [trace_nil] at h
    cases h
  | cons n ns below rest =>
    simp only [List.flatMap_cons, List.mem_append]
    rw [trace_cons, List.mem_append] at h
    obtain h | h := h
    · obtain h | ⟨notBody, h⟩ := mem_steps h
      · refine ⟨n, .inl ?_, s, h⟩
        rw [Node.own_eq]
        exact List.mem_cons_self
      · obtain ⟨k, hk, found⟩ := below h
        refine ⟨k, .inl ?_, found⟩
        rw [Node.own_eq]
        refine List.mem_cons_of_mem _ ?_
        cases n with
        | body b => exact absurd rfl (notBody b)
        | _ => exact hk
    · obtain ⟨t, -, h⟩ := mem_goOn.mp h
      obtain ⟨k, hk, found⟩ := rest h
      exact ⟨k, .inr hk, found⟩

/-- The steps of a node of its own are made at it. -/
inductive Here (m : Mitigations) (s : Scope) : Node → Step → Prop
  | come (n : Node) : Here m s n (.come n)
  | announced {n : Node} {e : Event} :
      e ∈ n.form.announced (s.locate n.loc) → Here m s n (.report n e)
  | told {n : Node} {e : Event} {ts : List Taint} {place : Location} :
      (visit m n.children (s.track n.loc)).value = .ok ts →
      e ∈ n.form.told n.self ts place → Here m s n (.report n e)
  | leave {n : Node} {t : Taint} : (n.walk m s).value = .ok t → Here m s n (.leave n t)
  | body (b : Block) : Here m s (.body b) (.body b)

theorem here_of_mem_steps {n : Node} {s : Scope} {st : Step}
    (h : st ∈ n.steps m (fun _ => []) s) : Here m s n st := by
  obtain ⟨b, rfl⟩ | notBody := n.body_or
  · obtain rfl := List.mem_singleton.mp h
    exact .body b
  · rw [steps_of_ne_body notBody, List.append_nil, List.cons_append, List.mem_cons, List.mem_append,
      List.mem_map, mem_goOn] at h
    obtain rfl | ⟨e, he, rfl⟩ | ⟨ts, done, h⟩ := h
    · exact .come n
    · exact .announced he
    · rw [Node.leaving, List.mem_append, List.mem_map, mem_goOn] at h
      obtain ⟨e, he, rfl⟩ | ⟨t, left, h⟩ := h
      · rw [events_leave] at he
        exact .told done he
      · obtain rfl := List.mem_singleton.mp h
        exact .leave ((walk_eq_ok_iff notBody).mpr ⟨ts, done, left⟩)

end Members

/-! ## Invariants -/

/-- **What holds at every report** among steps, given the steps before it. -/
def Reported (R : List Step → Node → Event → Prop) (before steps : List Step) : Prop :=
  ∀ pre n e post, steps = pre ++ .report n e :: post → R (before ++ pre) n e

section Reported

variable {R : List Step → Node → Event → Prop} {before xs ys : List Step}

theorem reported_of_forall_ne (none : ∀ n e, .report n e ∉ xs) : Reported R before xs := by
  rintro pre n e post rfl
  exact absurd (List.mem_append_right pre List.mem_cons_self) (none n e)

theorem Reported.append (first : Reported R before xs) (second : Reported R (before ++ xs) ys) :
    Reported R before (xs ++ ys) := by
  intro pre n e post split
  obtain ⟨as, rfl, rest⟩ | ⟨as, rfl, rest⟩ := List.append_eq_append_iff.mp split
  · rw [← List.append_assoc]
    exact second as n e post rest
  · cases as with
    | nil =>
      have here := second [] n e post rest.symm
      rwa [List.append_nil, List.append_nil] at here
    | cons a as =>
      obtain ⟨rfl, rfl⟩ := List.cons.inj rest
      exact first pre n e as rfl

/-- Reports one after the other, at one node. -/
theorem reported_map {n : Node} {es : List Event}
    (each : ∀ es' : List Event, ∀ e ∈ es, R (before ++ es'.map (.report n)) n e) :
    Reported R before (es.map (.report n)) := by
  intro pre k e post split
  obtain ⟨es', rest, rfl, rfl, here⟩ := List.map_eq_append_iff.mp split
  obtain ⟨e', rest, rfl, same, -⟩ := List.map_eq_cons_iff.mp here
  cases same
  exact each es' e (List.mem_append_right es' List.mem_cons_self)

end Reported

/-- **An invariant of walks**: what is known of a scope and of a taint after some steps, and what is
shown of a report after some steps. -/
structure Invariant (m : Mitigations) where
  scope : List Step → Scope → Prop
  taint : List Step → Taint → Prop
  shown : List Step → Node → Event → Prop
  nothing : ∀ before, taint before (.none none)
  /-- What is known of a taint stays known. -/
  keeps : ∀ {before t} steps, taint before t → taint (before ++ steps) t
  /-- A report, or a body that is passed, leaves the scope alone. -/
  quiet : ∀ {before s st}, scope before s → (∀ n, st ≠ .come n) → (∀ n t, st ≠ .leave n t) →
    scope (before ++ [st]) s
  come : ∀ {before s} n, scope before s → scope (before ++ [.come n]) (s.track n.loc)
  announced : ∀ before {place n e}, e ∈ n.form.announced place → shown before n e
  told : ∀ {before s n ts e}, scope before s → (∀ t ∈ ts, taint before t) →
    e ∈ n.form.told n.self ts (s.locate n.loc) → shown before n e
  leave : ∀ {before s n ts t}, scope before s → (∀ t ∈ ts, taint before t) →
    (n.form.leave m n.self ts s).value = .ok t →
    scope (before ++ [.leave n t]) (n.form.leave m n.self ts s).scope ∧
      taint (before ++ [.leave n t]) t

namespace Invariant

variable {m : Mitigations} (I : Invariant m)

/-- **Steps that an invariant holds along**, of a walk with an outcome. -/
structure Runs {α : Type} (taints : α → List Taint) (before steps : List Step) (o : Outcome α) :
    Prop where
  reported : Reported I.shown before steps
  scope : ∀ a, o.value = .ok a → I.scope (before ++ steps) o.scope
  taint : ∀ a, o.value = .ok a → ∀ t ∈ taints a, I.taint (before ++ steps) t

variable {I} {before : List Step} {s : Scope}

theorem scope_reports (h : I.scope before s) (n : Node) (es : List Event) :
    I.scope (before ++ es.map (.report n)) s := by
  induction es generalizing before with
  | nil => rwa [List.map_nil, List.append_nil]
  | cons e es ih =>
    have here : I.scope (before ++ [.report n e]) s := I.quiet h (by simp) (by simp)
    rw [List.map_cons, List.append_cons]
    exact ih here

/-- The steps at which a node is left. -/
theorem runs_leaving {n : Node} {ts : List Taint} (h : I.scope before s)
    (taints : ∀ t ∈ ts, I.taint before t) :
    I.Runs (fun t => [t]) before (n.leaving m ts s) (n.form.leave m n.self ts s) := by
  rw [Node.leaving, events_leave, loc_form]
  generalize made : (n.form.told n.self ts (s.locate n.loc)).map (Step.report n) = reports
  have told : Reported I.shown before reports := by
    rw [← made]
    refine reported_map fun es' e he => ?_
    exact I.told (scope_reports h n es') (fun t ht => I.keeps _ (taints t ht)) he
  have left (t : Taint) (done : (n.form.leave m n.self ts s).value = .ok t) :
      I.scope (before ++ reports ++ [.leave n t]) (n.form.leave m n.self ts s).scope ∧
        I.taint (before ++ reports ++ [.leave n t]) t := by
    refine I.leave ?_ (fun u hu => I.keeps _ (taints u hu)) done
    rw [← made]
    exact scope_reports h n _
  refine ⟨told.append (reported_of_forall_ne fun k e here => ?_), fun t done => ?_,
    fun t done => ?_⟩
  · obtain ⟨t, -, same⟩ := mem_goOn.mp here
    cases List.mem_singleton.mp same
  · rw [goOn_of_ok done, ← List.append_assoc]
    exact (left t done).1
  · rw [goOn_of_ok done, ← List.append_assoc, List.forall_mem_singleton]
    exact (left t done).2

/-- The steps at which a node is entered. -/
theorem runs_entering (n : Node) (h : I.scope before s) : I.Runs (fun _ => []) before
    (.come n :: (n.form.announced (s.locate n.loc)).map (.report n)) (n.form.enter s) := by
  rw [enter_apply, loc_form]
  generalize made : (n.form.announced (s.locate n.loc)).map (Step.report n) = reports
  have come : Reported I.shown before [.come n] :=
    reported_of_forall_ne fun k e here => by cases List.mem_singleton.mp here
  have announced : Reported I.shown (before ++ [.come n]) reports := by
    rw [← made]
    exact reported_map fun es' e he => I.announced _ he
  refine ⟨come.append announced, fun _ _ => ?_, fun _ _ t ht => by cases ht⟩
  rw [List.append_cons, ← made]
  exact scope_reports (I.come n h) n _

/-- A body is passed. -/
theorem runs_passing (b : Block) (h : I.scope before s) :
    I.Runs (fun t => [t]) before [.body b] ((Node.body b).walk m s) := by
  rw [walk_body]
  have passed : I.scope (before ++ [.body b]) s := I.quiet h (by simp) (by simp)
  refine ⟨reported_of_forall_ne fun k e here => ?_, fun _ _ => passed, fun t done => ?_⟩
  · cases List.mem_singleton.mp here
  · dsimp only at done
    cases value : (block m b .start).value with
    | error e => rw [value] at done; cases done
    | ok u =>
      rw [value] at done
      cases done
      exact List.forall_mem_singleton.mpr (I.nothing _)

section Sequence

variable {α β : Type} {w : Walk α} {taints : α → List Taint} {steps : List Step}

/-- **Walks in sequence**: the second goes on from the steps of the first. -/
theorem Runs.bind {f : α → Walk β} {taints' : β → List Taint} {rest : α → Scope → List Step}
    (first : I.Runs taints before steps (w s))
    (second : ∀ a, I.scope (before ++ steps) (w s).scope →
      (∀ t ∈ taints a, I.taint (before ++ steps) t) →
      I.Runs taints' (before ++ steps) (rest a (w s).scope) (f a (w s).scope)) :
    I.Runs taints' before (steps ++ (w s).goOn rest) ((w >>= f) s) := by
  rw [bind_apply]
  cases value : (w s).value with
  | error e =>
    rw [goOn_of_error value, List.append_nil]
    refine ⟨first.reported, fun b done => ?_, fun b done => ?_⟩ <;> cases done
  | ok a =>
    rw [goOn_of_ok value]
    have after := second a (first.scope a value) (first.taint a value)
    refine ⟨first.reported.append after.reported, fun b done => ?_, fun b done => ?_⟩
    · rw [← List.append_assoc]
      exact after.scope b done
    · rw [← List.append_assoc]
      exact after.taint b done

/-- One more taint that was known before. -/
theorem Runs.cons {w : Walk (List Taint)} {t : Taint} (known : I.taint before t)
    (h : I.Runs id before steps (w s)) :
    I.Runs id before steps ((do let ts ← w; return t :: ts : Walk (List Taint)) s) := by
  rw [bind_apply]
  cases value : (w s).value with
  | error e => refine ⟨h.reported, fun us done => ?_, fun us done => ?_⟩ <;> cases done
  | ok ts =>
    refine ⟨h.reported, fun us _ => h.scope ts value, fun us done => ?_⟩
    cases done
    exact List.forall_mem_cons.mpr ⟨I.keeps _ known, h.taint ts value⟩

end Sequence

/-- The steps at a node, given those below it. -/
theorem runs_steps {n : Node} (h : I.scope before s)
    (below : ∀ {before s}, I.scope before s →
      I.Runs id before (trace m n.children s) (visit m n.children s)) :
    I.Runs (fun t => [t]) before (n.steps m (trace m n.children) s) (n.walk m s) := by
  obtain ⟨b, rfl⟩ | notBody := n.body_or
  · exact runs_passing b h
  · have inside {before' : List Step} {s' : Scope} (scope : I.scope before' s') :
        I.Runs (fun t => [t]) before'
          (trace m n.children s' ++ (visit m n.children s').goOn (n.leaving m))
          ((visit m n.children >>= n.form.leave m n.self) s') :=
      (below scope).bind fun _ scope taints => runs_leaving scope taints
    have whole : I.Runs (fun t => [t]) before
        ((.come n :: (n.form.announced (s.locate n.loc)).map (.report n)) ++
          (n.form.enter s).goOn fun _ s' =>
            trace m n.children s' ++ (visit m n.children s').goOn (n.leaving m))
        ((do n.form.enter; let ts ← visit m n.children; n.form.leave m n.self ts) s) :=
      (runs_entering n h).bind fun _ scope _ => inside scope
    rw [enter_apply, loc_form] at whole
    rw [steps_of_ne_body notBody, walk_of_ne_body notBody, List.append_assoc]
    exact whole

/-- **What one step keeps, a walk keeps.** -/
theorem run (ns : List Node) (h : I.scope before s) :
    I.Runs id before (trace m ns s) (visit m ns s) := by
  induction ns using Node.forest_induction generalizing before s with
  | nil =>
    rw [trace_nil]
    have none : Reported I.shown before [] := reported_of_forall_ne fun k e here => by cases here
    refine ⟨none, fun _ _ => ?_, fun ts done => ?_⟩
    · rwa [List.append_nil]
    · cases done
      exact fun t ht => by cases ht
  | cons n ns below rest =>
    rw [trace_cons, visit_cons]
    exact (runs_steps h below).bind fun t scope known =>
      (rest scope).cons (known t (List.mem_singleton_self t))

end Invariant

end Walk

end PhpAudit
