import PhpAudit.Proofs.Graph.ElementaryCycles

/-!
# The calls of the cycle search

The search from a start is a tree of calls: each enters a vertex, with the stack of those entered before
it, and makes a call for every successor that is neither the start nor blocked when its turn comes. `Makes`
is this tree for runs with whatever order the released vertices are taken in, `CallsOn` for the search
itself, with what is left of its bound.

**The law** (`calls_keep_stack_blocked`): whenever a call starts or ends, the stack is a simple path of the
component from the start, its vertices are blocked, and a blocked vertex off the stack is a dead end that
waits for each of its successors (`AtRest`). Setting a vertex free when its call ends never sets free one
of the stack below it.

What carries it is the invariant of the search, which says more than this: that no vertex of the stack is
waited for where it could be set free from above.
-/

namespace PhpAudit.Digraph

open CycleSearch (Released)
open Relation (ReflTransGen)

/-- **A call of the search**: the vertex it enters, the stack before that, the last vertex first, and the
state in which it starts. -/
structure Call where
  stack : List Nat
  vertex : Nat
  state : CycleSearch

/-- The call that a search starts with. -/
def Call.outer (start : Nat) : Call := ⟨[], start, .start⟩

variable {successors : Nat → List Nat} {start : Nat}

/-- A call gives an outcome, in a run with any order. -/
def Call.Gives (successors : Nat → List Nat) (start : Nat) (call : Call) (r : Bool × CycleSearch) :
    Prop := Explores successors start call.stack call.vertex call.state r

/-- **A call makes another**, for a successor that is not blocked after those before it were scanned. -/
inductive Makes (successors : Nat → List Nat) (start : Nat) : Call → Call → Prop
  | visit {call : Call} {before after : List Nat} {w : Nat} {found : Bool} {t : CycleSearch} :
      successors call.vertex = before ++ w :: after →
      Scans successors start (call.vertex :: call.stack) before false (call.state.block call.vertex)
        found t →
      w ≠ start → w ∉ t.blocked → Makes successors start call ⟨call.vertex :: call.stack, w, t⟩

/-- What the search has scanned of a call, as far as some of the successors. -/
def Call.scanned (successors : Nat → List Nat) (start fuel : Nat) (call : Call) (ws : List Nat) :
    Bool × CycleSearch :=
  ws.foldl (scanOne successors start fuel (call.vertex :: call.stack))
    (false, call.state.block call.vertex)

/-- What the search makes of a call. -/
def Call.outcome (successors : Nat → List Nat) (start fuel : Nat) (call : Call) : Bool × CycleSearch :=
  circuit successors start fuel call.stack call.vertex call.state

/-- **The search makes a call from another**, each with what is left of the bound. -/
inductive CallsOn (successors : Nat → List Nat) (start : Nat) : Nat × Call → Nat × Call → Prop
  | visit {fuel : Nat} {call : Call} {before after : List Nat} {w : Nat} :
      successors call.vertex = before ++ w :: after → w ≠ start →
      w ∉ (call.scanned successors start fuel before).2.blocked →
      CallsOn successors start (fuel + 1, call)
        (fuel, ⟨call.vertex :: call.stack, w, (call.scanned successors start fuel before).2⟩)

/-! ## What holds between calls -/

variable {a : Adjacency} {least : Nat} {component stack : List Nat} {v w : Nat} {s t : CycleSearch}
  {call call' : Call}

/-- **A simple path of a component from the start**, the last vertex first. -/
structure IsSimplePath (a : Adjacency) (component : List Nat) (start : Nat) (stack : List Nat) :
    Prop where
  first : ∀ v ∈ stack.getLast?, v = start
  unique : stack.Nodup
  inside : ∀ v ∈ stack, v ∈ component
  linked : stack.reverse.IsChain a.Edge

/-- **What holds whenever a call starts or ends.** -/
structure AtRest (a : Adjacency) (component : List Nat) (start : Nat) (stack : List Nat)
    (s : CycleSearch) : Prop where
  path : IsSimplePath a component start stack
  stacked : ∀ v ∈ stack, v ∈ s.blocked
  /-- A blocked vertex off the stack has no edge to the start, and waits for its successors, which
  are blocked. -/
  dead : ∀ u ∈ s.blocked, u ∉ stack → ¬ a.Edge u start ∧
    ∀ w ∈ component, a.Edge u w → w ∈ s.blocked ∧ u ∈ s.waitingFor w

theorem mem_within : w ∈ within a component v ↔ a.Edge v w ∧ w ∈ component := by
  rw [within, List.mem_filter, List.contains_iff_mem, Adjacency.Edge]

theorem IsSimplePath.tail (path : IsSimplePath a component start (v :: stack)) :
    IsSimplePath a component start stack := by
  obtain ⟨first, unique, inside, linked⟩ := path
  refine ⟨fun u hu => first u ?_, (List.nodup_cons.mp unique).2, fun u hu => inside u ?_, ?_⟩
  · rw [List.getLast?_cons, Option.mem_def.mp hu]
    rfl
  · exact List.mem_cons_of_mem v hu
  · rw [List.reverse_cons] at linked
    exact linked.left_of_append

/-- A path goes on along an edge to a vertex that is not on it. -/
theorem IsSimplePath.cons (path : IsSimplePath a component start (v :: stack)) (edge : a.Edge v w)
    (hw : w ∈ component) (fresh : w ∉ v :: stack) :
    IsSimplePath a component start (w :: v :: stack) := by
  obtain ⟨first, unique, inside, linked⟩ := path
  refine ⟨fun u hu => first u ?_, List.nodup_cons.mpr ⟨fresh, unique⟩,
    List.forall_mem_cons.mpr ⟨hw, inside⟩, ?_⟩
  · rwa [List.getLast?_cons_cons] at hu
  · rw [List.reverse_cons]
    refine List.isChain_append.mpr ⟨linked, .singleton w, fun x hx y hy => ?_⟩
    obtain rfl : y = w := by simpa using hy.symm
    obtain rfl : x = v := by simpa using hx.symm
    exact edge

/-- The start alone is a path of its component. -/
theorem LeastCyclic.isSimplePath (chosen : LeastCyclic a least start component) :
    IsSimplePath a component start [start] := by
  have itself : start ∈ component := (chosen.component start).mpr ⟨chosen.cyclic, chosen.cyclic⟩
  refine ⟨fun v hv => ?_, List.nodup_singleton start, ?_, .singleton start⟩
  · simpa using hv.symm
  · exact fun v hv => List.mem_singleton.mp hv ▸ itself

/-- The invariant says what holds between calls. -/
theorem Invariant.atRest (inv : Invariant (within a component) start stack s)
    (path : IsSimplePath a component start stack) (hstart : start ∈ component) :
    AtRest a component start stack s := by
  refine ⟨path, inv.stacked, fun u hu off => ?_⟩
  obtain ⟨closed, next⟩ := inv.dead u hu off
  refine ⟨fun edge => closed (mem_within.mpr ⟨edge, hstart⟩), fun w hw edge => ?_⟩
  obtain ⟨blocked, waits⟩ := next w (mem_within.mpr ⟨edge, hw⟩)
  exact ⟨blocked, CycleSearch.mem_waitingFor.mpr waits⟩

/-! ## What a call keeps -/

/-- **What holds when a vertex is entered.** -/
structure Entered (a : Adjacency) (component : List Nat) (start : Nat) (call : Call) : Prop where
  path : IsSimplePath a component start (call.vertex :: call.stack)
  inv : Invariant (within a component) start call.stack call.state
  fresh : call.vertex ∉ call.state.blocked

/-- The first call enters the start. -/
theorem LeastCyclic.entered (chosen : LeastCyclic a least start component) :
    Entered a component start (.outer start) where
  path := chosen.isSimplePath
  inv := invariant_start
  fresh := by simp [Call.outer, CycleSearch.start]

/-- **A call that is made enters a vertex** as the call that makes it did. -/
theorem Entered.makes (entered : Entered a component start call)
    (made : Makes (within a component) start call call') : Entered a component start call' := by
  cases made with
  | @visit before after w found t split scan _ free =>
    obtain ⟨inner, -⟩ := scan.keeps (entered.inv.enter entered.fresh)
    have next : w ∈ within a component call.vertex := by
      rw [split]
      exact List.mem_append_right before List.mem_cons_self
    obtain ⟨edge, inside⟩ := mem_within.mp next
    exact ⟨entered.path.cons edge inside fun stacked => free (inner.stacked w stacked), inner, free⟩

/-- Every call of a run enters a vertex that is not blocked, at the end of a simple path. -/
theorem LeastCyclic.entered_of_reached (chosen : LeastCyclic a least start component)
    (reached : ReflTransGen (Makes (within a component) start) (.outer start) call) :
    Entered a component start call := by
  induction reached with
  | refl => exact chosen.entered
  | tail _ made ih => exact ih.makes made

/-- Only the first call finds the stack empty. -/
theorem outer_or_stacked (reached : ReflTransGen (Makes successors start) (.outer start) call) :
    call = .outer start ∨ call.stack ≠ [] := by
  cases reached with
  | refl => exact .inl rfl
  | tail _ made =>
    cases made
    exact .inr (List.cons_ne_nil _ _)

/-! ## The search itself -/

/-- The search is within its bound. -/
def WithinBound (a : Adjacency) (fuel : Nat) (call : Call) : Prop :=
  a.order < call.stack.length + fuel

variable {fuel fuel' : Nat}

/-- The vertices of a path in a component, all of which an edge leads to, are vertices of the graph. -/
theorem IsSimplePath.lt_order (path : IsSimplePath a component start stack)
    (bounded : ∀ v ∈ component, v < a.order) : ∀ v ∈ stack, v < a.order :=
  fun v hv => bounded v (path.inside v hv)

theorem lt_order_of_within (edges : a.Bounded) (v : Nat) : ∀ w ∈ within a component v, w < a.order :=
  fun w hw => edges v w (mem_within.mp hw).1

/-- **What the search makes of a call is an outcome of it.** -/
theorem Entered.gives (entered : Entered a component start call) (enough : WithinBound a fuel call)
    (edges : a.Bounded) (bounded : ∀ v ∈ component, v < a.order) :
    call.Gives (within a component) start (call.outcome (within a component) start fuel) :=
  explores_circuit (lt_order_of_within edges) fuel call.stack call.vertex call.state enough
    entered.path.unique (entered.path.lt_order bounded) entered.inv entered.fresh

/-- **The search makes calls as a run does.** -/
theorem Entered.callsOn (entered : Entered a component start call) (enough : WithinBound a fuel call)
    (edges : a.Bounded) (bounded : ∀ v ∈ component, v < a.order)
    (made : CallsOn (within a component) start (fuel, call) (fuel', call')) :
    Makes (within a component) start call call' ∧ WithinBound a fuel' call' := by
  cases made with
  | @visit _ _ before after w split other free =>
    have enough' (t : CycleSearch) : WithinBound a fuel' ⟨call.vertex :: call.stack, w, t⟩ := by
      unfold WithinBound at enough ⊢
      rw [List.length_cons]
      omega
    have deeper (x : Nat) (u : CycleSearch) (hx : x < a.order)
        (inv : Invariant (within a component) start (call.vertex :: call.stack) u)
        (fresh : x ∉ u.blocked) : Explores (within a component) start (call.vertex :: call.stack) x u
          (circuit (within a component) start fuel' (call.vertex :: call.stack) x u) := by
      refine explores_circuit (lt_order_of_within edges) fuel' _ x u (enough' u) ?_ ?_ inv fresh
      · exact List.nodup_cons.mpr ⟨fun h => fresh (inv.stacked x h), entered.path.unique⟩
      · exact List.forall_mem_cons.mpr ⟨hx, entered.path.lt_order bounded⟩
    have below (x : Nat) (hx : x ∈ before) : x < a.order :=
      lt_order_of_within edges call.vertex x (split ▸ List.mem_append_left _ hx)
    have scan := scans_foldl deeper before below false _ (entered.inv.enter entered.fresh)
    exact ⟨.visit split scan other free, enough' _⟩

theorem LeastCyclic.lt_order (chosen : LeastCyclic a least start component) (edges : a.Bounded) :
    ∀ v ∈ component, v < a.order := by
  intro v hv
  exact Adjacency.lt_order_of_transGen edges ((chosen.component v).mp hv).1

/-- **The calls of the search are calls of a run**, and the bound never ends one early. -/
theorem LeastCyclic.callsOn_reached (chosen : LeastCyclic a least start component) (edges : a.Bounded)
    (reached : ReflTransGen (CallsOn (within a component) start) (a.order + 1, .outer start)
      (fuel, call)) :
    ReflTransGen (Makes (within a component) start) (.outer start) call ∧ WithinBound a fuel call := by
  generalize here : (fuel, call) = place at reached
  induction reached generalizing fuel call with
  | refl =>
    obtain ⟨rfl, rfl⟩ := Prod.mk.inj here
    exact ⟨.refl, Nat.lt_of_lt_of_le (Nat.lt_succ_self _) (Nat.le_add_left _ _)⟩
  | @tail before _ _ made ih =>
    obtain ⟨fuel₀, call₀⟩ := before
    subst here
    obtain ⟨run, enough⟩ := ih rfl
    obtain ⟨makes, enough'⟩ :=
      (chosen.entered_of_reached run).callsOn enough edges (chosen.lt_order edges) made
    exact ⟨run.tail makes, enough'⟩

/-- **The stack stays blocked.** For the start that is chosen, whatever the list of its component, and
whatever the order in which released vertices are taken: at the start of every call of the search, before
its vertex comes onto the stack and after, and at its end, the stack is a simple path of the component from
the start, empty around the first call only; its vertices are blocked; a blocked vertex off the stack has
no edge to the start, and its successors in the component are blocked and have it on their lists. And when
a vertex is set free at the end of its call, none of the stack below is set free with it. The search here is
such a run, and each of its calls ends with an outcome of the run. -/
theorem calls_keep_stack_blocked (g : Digraph) {least start : Nat} {component : List Nat}
    (chosen : LeastCyclic g.adjacency least start component) :
    let successors := within g.adjacency component
    (∀ call, ReflTransGen (Makes successors start) (.outer start) call →
      (call = .outer start ∨ call.stack ≠ []) ∧
      AtRest g.adjacency component start call.stack call.state ∧
      AtRest g.adjacency component start (call.vertex :: call.stack) (call.state.block call.vertex) ∧
      (∀ r, call.Gives successors start r → AtRest g.adjacency component start call.stack r.2) ∧
      ∀ t, Scans successors start (call.vertex :: call.stack) (successors call.vertex) false
          (call.state.block call.vertex) true t →
        ∀ x ∈ call.stack, ¬ Released t call.vertex x) ∧
    ∀ fuel call, ReflTransGen (CallsOn successors start) (g.adjacency.order + 1, .outer start)
        (fuel, call) →
      AtRest g.adjacency component start call.stack call.state ∧
      AtRest g.adjacency component start call.stack (call.outcome successors start fuel).2 ∧
      ReflTransGen (Makes successors start) (.outer start) call ∧
      call.Gives successors start (call.outcome successors start fuel) := by
  intro successors
  have edges := bounded_adjacency g
  have hstart : start ∈ component := (chosen.component start).mpr ⟨chosen.cyclic, chosen.cyclic⟩
  have starts {call : Call} (entered : Entered g.adjacency component start call) :
      AtRest g.adjacency component start call.stack call.state :=
    entered.inv.atRest entered.path.tail hstart
  have ends {call : Call} (entered : Entered g.adjacency component start call) {r : Bool × CycleSearch}
      (gives : call.Gives successors start r) :
      AtRest g.adjacency component start call.stack r.2 := by
    obtain ⟨t, scan, leaves⟩ := gives
    exact (entered.inv.visit entered.fresh scan leaves).atRest entered.path.tail hstart
  constructor
  · intro call reached
    have entered := chosen.entered_of_reached reached
    refine ⟨outer_or_stacked reached, starts entered,
      (entered.inv.enter entered.fresh).atRest entered.path hstart, fun r gives => ends entered gives, ?_⟩
    intro t scan x hx released
    obtain ⟨off, inner, -⟩ := entered.inv.scanned entered.fresh scan
    exact (inner.not_released off released).1 hx
  · intro fuel call reached
    obtain ⟨run, enough⟩ := chosen.callsOn_reached edges reached
    have entered := chosen.entered_of_reached run
    have gives := entered.gives enough edges (chosen.lt_order edges)
    exact ⟨starts entered, ends entered gives, run, gives⟩

/-- Three vertices in a row with edges both ways, and one that leads to the middle one. -/
def rowAdditions : List Addition :=
  [.edge "a" "b", .edge "b" "a", .edge "b" "c", .edge "c" "b", .edge "d" "b"]

/-- The search from the first vertex enters the second and, after it has found the start there, the third,
a dead end: when that call ends the third vertex waits for the second, and the first two are on the stack and
blocked. -/
theorem third_vertex_waits_for_stack :
    let g := build rowAdditions
    let component := g.adjacency.component 0
    let successors := within g.adjacency component
    let second : Call := ⟨[0], 1, ((Call.outer 0).scanned successors 0 4 []).2⟩
    let third : Call := ⟨[1, 0], 2, (second.scanned successors 0 3 [0]).2⟩
    g.leastCyclicComponent? 0 (g.componentsSince 0) = some (0, component) ∧
      LeastCyclic g.adjacency 0 0 component ∧
      ReflTransGen (CallsOn successors 0) (g.adjacency.order + 1, .outer 0) (3, third) ∧
      AtRest g.adjacency component 0 [1, 0] (third.outcome successors 0 3).2 ∧
      (third.outcome successors 0 3).2.waitingFor 1 = [2] := by
  intro g component successors second third
  have least : g.leastCyclicComponent? 0 (g.componentsSince 0) = some (0, component) := by
    decide +kernel
  have chosen := leastCyclic_of_chosen (strongSince_componentsSince g 0) least
  have bound : g.adjacency.order + 1 = 5 := by decide +kernel
  have ofFirst : successors 0 = [] ++ 1 :: [] := by decide +kernel
  have ofSecond : successors 1 = [0] ++ 2 :: [] := by decide +kernel
  have first : CallsOn successors 0 (5, .outer 0) (4, second) :=
    .visit ofFirst (by decide) (by decide +kernel)
  have next : CallsOn successors 0 (4, second) (3, third) :=
    .visit ofSecond (by decide) (by decide +kernel)
  have reached : ReflTransGen (CallsOn successors 0) (g.adjacency.order + 1, .outer 0) (3, third) := by
    rw [bound]
    exact (ReflTransGen.single first).tail next
  obtain ⟨-, calls⟩ := calls_keep_stack_blocked g chosen
  obtain ⟨-, rest, -⟩ := calls 3 third reached
  exact ⟨least, chosen, reached, rest, by decide +kernel⟩

end PhpAudit.Digraph
