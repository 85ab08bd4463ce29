import PhpAudit.Graph.Reach

/-!
# Elementary cycles

A cycle is **elementary** when it passes every vertex at most once. The search finds each one from its
least vertex: it starts at the least vertex of the strong components that hold a cycle, walks its
component along all simple paths, and records a cycle whenever the start is next; then it goes on with
the vertices after the start, whose strong components are others.

A vertex from which the start was not found is **blocked**: the walk does not enter it again, until
one of the vertices that stand in its way becomes free. Blocked vertices **wait** for those; a vertex
that becomes free sets free, in turn, the blocked vertices that wait for it.
-/

namespace PhpAudit.Digraph

/-- **What the search keeps**: the blocked vertices, who waits for whom (`(w, v)` when `v` waits for
`w`), and the cycles found, the last first. -/
structure CycleSearch where
  blocked : List Nat
  waits : List (Nat × Nat)
  cycles : List (List Nat)
deriving Inhabited, Repr

namespace CycleSearch

/-- The search before it starts. -/
def start : CycleSearch := ⟨[], [], []⟩

/-- A vertex is blocked. -/
def isBlocked (s : CycleSearch) (v : Nat) : Bool := s.blocked.contains v

/-- Blocks a vertex. -/
def block (s : CycleSearch) (v : Nat) : CycleSearch := { s with blocked := v :: s.blocked }

/-- The vertices that wait for a vertex. -/
def waitingFor (s : CycleSearch) (w : Nat) : List Nat :=
  s.waits.filterMap fun p => if p.1 = w then some p.2 else none

/-- Lets a vertex wait for another, once. -/
def wait (s : CycleSearch) (v w : Nat) : CycleSearch :=
  if s.waits.contains (w, v) then s else { s with waits := s.waits ++ [(w, v)] }

/-- Lets a vertex no longer wait for another. -/
def unwait (s : CycleSearch) (v w : Nat) : CycleSearch :=
  { s with waits := s.waits.filter fun p => p ≠ (w, v) }

/-- **Sets a vertex free**, and with it the blocked vertices that wait for it. The fuel bounds the depth,
which cannot exceed the number of blocked vertices. -/
def unblock : Nat → Nat → CycleSearch → CycleSearch
  | 0, _, s => s
  | fuel + 1, u, s =>
    let s := { s with blocked := s.blocked.filter (· ≠ u) }
    (s.waitingFor u).foldl (fun s w =>
      let s := s.unwait w u
      if s.isBlocked w then unblock fuel w s else s) s

/-- Records a cycle. -/
def record (s : CycleSearch) (cycle : List Nat) : CycleSearch := { s with cycles := cycle :: s.cycles }

end CycleSearch

/-- **Walks from a vertex** along the simple paths of a component, and tells whether the start was found.
`path` holds the vertices on the way, the last first; the fuel bounds its length. -/
def circuit (successors : Nat → List Nat) (start : Nat) :
    Nat → List Nat → Nat → CycleSearch → Bool × CycleSearch
  | 0, _, _, s => (false, s)
  | fuel + 1, path, v, s =>
    let path := v :: path
    let (found, s) := (successors v).foldl (fun (acc : Bool × CycleSearch) w =>
      let (found, s) := acc
      if w = start then (true, s.record (path.reverse ++ [w]))
      else if s.isBlocked w then (found, s)
      else
        let (found', s) := circuit successors start fuel path w s
        (found || found', s)) (false, s.block v)
    if found then (true, CycleSearch.unblock (s.blocked.length + 1) v s)
    else (false, (successors v).foldl (fun s w => s.wait v w) s)

/-! ## The choice of a start -/

/-- Takes a vertex of a component in place of the choice so far, if it is less or there was none. -/
def lesser (component : List Nat) (choice : Option (Nat × List Nat)) (v : Nat) :
    Option (Nat × List Nat) :=
  match choice with
  | none => some (v, component)
  | some (least, _) => if v < least then some (v, component) else choice

/-- **Looks at a component**: its vertices are considered unless it lies below `least` or holds no
cycle. -/
def consider (g : Digraph) (least : Nat) (choice : Option (Nat × List Nat)) (component : List Nat) :
    Option (Nat × List Nat) :=
  if component.headD 0 < least then choice
  else if !g.holdsCycle component then choice
  else component.foldl (lesser component) choice

/-- **The least vertex of the components that hold a cycle**, and the component it lies in, given the
strong components of the vertices from `least` on. -/
def leastCyclicComponent? (g : Digraph) (least : Nat) (components : List (List Nat)) :
    Option (Nat × List Nat) :=
  components.foldl (g.consider least) none

/-! ## All cycles -/

/-- The successors of a vertex inside a component. -/
def within (a : Adjacency) (component : List Nat) (v : Nat) : List Nat :=
  (a.successors v).filter component.contains

/-- The cycles that the search from a start finds inside its component. -/
def cyclesAt (a : Adjacency) (component : List Nat) (start : Nat) : List (List Nat) :=
  (circuit (within a component) start (a.order + 1) [] start .start).2.cycles.reverse

/-- **The cycles from a number on**: those through the start that is chosen there, then those from the
number after it. The strong components of the vertices from each number on are given; the fuel
bounds the number of starts. -/
def cyclesFrom (g : Digraph) (components : Nat → List (List Nat)) : Nat → Nat → List (List Nat)
  | 0, _ => []
  | fuel + 1, least =>
    if least < g.order then
      match g.leastCyclicComponent? least (components least) with
      | none => []
      | some (start, component) =>
        cyclesAt g.adjacency component start ++ g.cyclesFrom components fuel (start + 1)
    else []

/-- **The elementary cycles** as vertices, each from its least vertex, which is repeated at the end;
given the strong components of the vertices from each number on. -/
def elementaryCyclesOf (g : Digraph) (components : Nat → List (List Nat)) : List (List Nat) :=
  g.cyclesFrom components (g.order + 1) 0

/-- The elementary cycles as names, given the same. -/
def namedCyclesOf (g : Digraph) (components : Nat → List (List Nat)) : List (List Text) :=
  (g.elementaryCyclesOf components).map (·.map g.name)

/-- The elementary cycles as names. -/
def namedCycles (g : Digraph) : List (List Text) := g.namedCyclesOf g.componentsSince

end PhpAudit.Digraph
