import PhpAudit.Proofs.Walk.Coverage

/-!
# Bodies and records that are walked

A walk **encloses** events when they are one block of its own, from whatever scope it starts. The
walk through nodes encloses, for every body that it reaches, the events of that body walked alone
(`encloses_visit`), since a body has a scope of its own.

**The law** (`events_course`): a course that is not stopped is made of the runs of all that it comes
to. With it comes what the list of functions adds to them: each function of the list is walked in
its turn, unless one of its key was declared before (`fresh_append`, `starts_append`).
-/

namespace PhpAudit.Walk

open PhpAudit.Tree

/-! ## Walks that enclose events -/

section Encloses

variable {α β : Type} {es : List Event}

/-- **A walk that encloses events**: they are a block of its own, unless it is stopped. -/
def Encloses (es : List Event) (w : Walk α) : Prop :=
  ∀ s a, (w s).value = .ok a → es <:+: (w s).events

/-- What the first of two walks encloses. -/
theorem Encloses.andThen {w : Walk α} (h : Encloses es w) (f : α → Walk β) :
    Encloses es (w >>= f) := by
  intro s b done
  rw [bind_apply] at done ⊢
  cases value : (w s).value with
  | error e =>
    rw [value] at done
    cases done
  | ok a => exact (h s a value).trans (List.infix_append [] _ _)

/-- What the second of two walks encloses. -/
theorem Encloses.after {f : α → Walk β} (h : ∀ a, Encloses es (f a)) (w : Walk α) :
    Encloses es (w >>= f) := by
  intro s b done
  rw [bind_apply] at done ⊢
  cases value : (w s).value with
  | error e =>
    rw [value] at done
    cases done
  | ok a =>
    rw [value] at done
    exact (h a _ b done).trans (List.suffix_append _ _).isInfix

theorem Encloses.inFreshScope {w : Walk α} (h : Encloses es w) : Encloses es (inFreshScope w) := by
  intro s u done
  rw [Walk.inFreshScope] at done ⊢
  cases value : (w .start).value with
  | error e =>
    rw [value] at done
    cases done
  | ok a => exact h _ a value

/-- A body in a scope of its own encloses its events. -/
theorem encloses_inFreshScope (w : Walk α) : Encloses (Run.of w).events (Walk.inFreshScope w) :=
  fun _ _ _ => List.infix_refl _

/-- **A form encloses what is enclosed below it.** -/
theorem Encloses.around {m : Mitigations} {below : Walk (List Taint)} (h : Encloses es below)
    (e : Expr) (f : Form) : Encloses es (f.around m e below) := by
  have outside : Encloses es (do f.enter; let ts ← below; f.leave m e ts) :=
    .after (fun _ => h.andThen _) _
  cases f with
  | body l =>
    have inside : Encloses es (do track l; let _ ← below) := .after (fun _ => h.andThen _) _
    exact inside.inFreshScope.andThen _
  | _ => exact outside

/-- **The walk through nodes encloses the bodies that it reaches.** -/
theorem encloses_visit (m : Mitigations) {b : Block} {ns : List Node}
    (h : .body b ∈ ns.flatMap Node.reached) : Encloses (Run.of (block m b)).events (visit m ns) := by
  induction ns using Node.forest_induction with
  | nil => cases h
  | cons n ns below rest =>
    rw [List.flatMap_cons, List.mem_append] at h
    rw [visit_cons]
    obtain h | h := h
    · refine Encloses.andThen ?_ _
      rw [Node.reached_eq, List.mem_cons] at h
      obtain rfl | h := h
      · exact (encloses_inFreshScope _).andThen _
      · rw [walk_eq_around]
        exact (below h).around _ _
    · exact .after (fun _ => (rest h).andThen _) _

/-- A run that is not stopped encloses the bodies that it reaches. -/
theorem infix_run_visit {m : Mitigations} {b : Block} {ns : List Node}
    (h : .body b ∈ ns.flatMap Node.reached) (done : (Run.of (visit m ns)).failure = none) :
    (Run.of (block m b)).events <:+: (Run.of (visit m ns)).events := by
  have enclosed := encloses_visit m h .start
  rw [Run.of] at done
  cases value : (visit m ns .start).value with
  | error e =>
    rw [value] at done
    cases done
  | ok ts => exact enclosed ts value

/-- The body of a function is reached with it. -/
theorem body_mem_reached {f : Function} {b : Block} (body : f.body = some b) :
    .body b ∈ (Node.function f).reached := by
  obtain ⟨head, params, _⟩ := f
  obtain rfl := body
  exact Node.mem_reached_of_child List.mem_cons_self (Node.mem_reached_self _)

end Encloses

/-! ## What a course comes to -/

theorem fresh_append (declared : List FunctionKey) (fs fs' : List Function) :
    fresh declared (fs ++ fs') = fresh declared fs ++
      fresh (declared ++ keys ((fresh declared fs).map .function)) fs' := by
  induction fs generalizing declared with
  | nil => simp [fresh, keys]
  | cons f fs ih =>
    rw [List.cons_append, fresh, fresh]
    split
    · exact ih declared
    · rw [ih, List.cons_append, List.map_cons, keys_cons _ (List.map _ _), List.append_assoc]

/-- **What a program comes to**, up to a place in its list and after it. -/
theorem starts_append (p : Program) (fs fs' : List Function) :
    starts { p with functions := fs ++ fs' } = starts { p with functions := fs } ++
      (fresh (keys (starts { p with functions := fs })) fs').map .function := by
  simp only [starts]
  rw [fresh_append, List.map_append, List.cons_append, ← keys_cons]

/-- The functions that are declared among what is reached, by their keys. -/
theorem mem_keys_iff {ns : List Node} {k : FunctionKey} : k ∈ keys ns ↔
    ∃ g, .function g ∈ ns.flatMap Node.reached ∧ g.head.isClosure = false ∧ .of g.head = k := by
  rw [keys, List.mem_filterMap]
  constructor
  · rintro ⟨n, reached, key⟩
    cases n with
    | function g =>
      obtain ⟨head, params, b⟩ := g
      refine ⟨_, reached, ?_⟩
      simpa [Node.form, Form.key?, Function.head] using key
    | operand x =>
      rcases x with _ | e
      · cases key
      · cases e with
        | binary l form a b => cases form <;> cases key
        | _ => cases key
    | statement x =>
      rcases x with _ | s
      · cases key
      · cases s with
        | block b => cases b; cases key
        | _ => cases key
    | link l => cases l; cases key
    | targets ts => cases ts; cases key
    | classDef d => cases d; cases key
    | body b => cases b; cases key
  · rintro ⟨⟨head, params, b⟩, reached, named, rfl⟩
    refine ⟨_, reached, ?_⟩
    have named : head.isClosure = false := named
    simp [Node.form, Form.key?, named, Function.head]

section Done

variable {m : Mitigations}

/-- Listed functions that are not stopped, one after the other. -/
theorem events_listed {declared : List FunctionKey} {fs : List Function}
    (done : (listed m declared fs).failure = none) : (listed m declared fs).events =
      ((fresh declared fs).map .function).flatMap fun n => (Run.of (visit m [n])).events := by
  induction fs generalizing declared with
  | nil => rfl
  | cons f fs ih =>
    rw [listed] at done ⊢
    rw [fresh]
    split
    · next known =>
      rw [if_pos known] at done
      exact ih done
    · next new =>
      rw [if_neg new] at done
      obtain ⟨here, rest⟩ := failure_andThen_eq_none_iff.mp done
      have covers := run_visit m [.function f]
      rw [run_visit_function] at covers
      rw [covers.declaredKeys_of_done here] at rest
      rw [events_andThen here, covers.declaredKeys_of_done here, ih rest, List.map_cons,
        List.flatMap_cons, run_visit_function]

/-- **A course that is not stopped** is made of the runs of what it comes to. -/
theorem events_course {p : Program} (done : (course m p).failure = none) :
    (course m p).events = (starts p).flatMap fun n => (Run.of (visit m [n])).events := by
  rw [course] at done ⊢
  obtain ⟨here, rest⟩ := failure_andThen_eq_none_iff.mp done
  have covers := run_visit m [.ofStatement (.block p.body)]
  rw [run_visit_block] at covers
  rw [covers.declaredKeys_of_done here] at rest
  rw [events_andThen here, covers.declaredKeys_of_done here, events_listed rest, starts,
    List.flatMap_cons, run_visit_block]

end Done

end PhpAudit.Walk
