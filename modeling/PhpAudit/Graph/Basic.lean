import PhpAudit.Text.Basic

/-!
# Directed graphs over names

A graph has named vertices, known by the number of their place in the order of insertion, and edges
between them. An edge between two different vertices is an **arc**, one from a vertex to itself a
**loop**, and they are kept apart: what asks for edges puts the two together. A name is one vertex
and a pair of vertices has at most one edge, however often they are added.
-/

namespace PhpAudit

/-- **A directed graph.** Names, arcs and loops are each listed once, in the order of insertion. -/
structure Digraph where
  names : List Text
  arcs : List (Nat × Nat)
  loops : List Nat
deriving Inhabited, Repr

namespace Digraph

/-- The graph without vertices. -/
def empty : Digraph := ⟨[], [], []⟩

/-- The number of vertices. -/
def order (g : Digraph) : Nat := g.names.length

/-- The vertex of a name. -/
def id? (g : Digraph) (name : Text) : Option Nat := g.names.findIdx? (· == name)

/-- The name of a vertex. -/
def name? (g : Digraph) (v : Nat) : Option Text := g.names[v]?

/-- The name of a vertex, empty for a number that is no vertex. -/
def name (g : Digraph) (v : Nat) : Text := (g.name? v).getD ""

/-- **Adds a vertex**, unless it is there, and gives its number. -/
def addVertex (g : Digraph) (name : Text) : Nat × Digraph :=
  match g.id? name with
  | some v => (v, g)
  | none => (g.order, { g with names := g.names ++ [name] })

/-- Adds an edge between two vertices, unless it is there. -/
def join (g : Digraph) (u v : Nat) : Digraph :=
  if u = v then
    if g.loops.contains u then g else { g with loops := g.loops ++ [u] }
  else if g.arcs.contains (u, v) then g else { g with arcs := g.arcs ++ [(u, v)] }

/-- **Adds an edge**, and its vertices, unless they are there. -/
def addEdge (g : Digraph) (source target : Text) : Digraph :=
  let (u, g) := g.addVertex source
  let (v, g) := g.addVertex target
  g.join u v

/-- There is a loop at a vertex. -/
def hasLoop (g : Digraph) (v : Nat) : Bool := g.loops.contains v

/-- There is an edge between two vertices. -/
def hasEdge (g : Digraph) (u v : Nat) : Bool :=
  if u = v then g.hasLoop u else g.arcs.contains (u, v)

/-- There is an edge between the vertices of two names. -/
def hasNamedEdge (g : Digraph) (a b : Text) : Bool :=
  match g.id? a, g.id? b with
  | some u, some v => g.hasEdge u v
  | _, _ => false

/-- Where the arcs from a vertex lead. -/
def arcTargets (g : Digraph) (v : Nat) : List Nat := (g.arcs.filter fun e => e.1 == v).map (·.2)

/-- Where the arcs to a vertex come from. -/
def arcSources (g : Digraph) (v : Nat) : List Nat := (g.arcs.filter fun e => e.2 == v).map (·.1)

/-- A vertex with a loop, or nothing. -/
def loopAt (g : Digraph) (v : Nat) : List Nat := if g.hasLoop v then [v] else []

/-- **The successors** of a vertex, by increasing number. -/
def successors (g : Digraph) (v : Nat) : List Nat :=
  let targets := g.arcTargets v ++ g.loopAt v
  (List.range g.order).filter targets.contains

/-- Names in order. -/
def sorted (names : List Text) : List Text := names.mergeSort fun a b => decide (a ≤ b)

/-- The names of the successors of a name, in order. -/
def successorNames (g : Digraph) (name : Text) : List Text :=
  match g.id? name with
  | some v => sorted ((g.arcTargets v ++ g.loopAt v).map g.name)
  | none => []

/-- The names of the predecessors of a name, in order. -/
def predecessorNames (g : Digraph) (name : Text) : List Text :=
  match g.id? name with
  | some v => sorted ((g.arcSources v ++ g.loopAt v).map g.name)
  | none => []

/-- **Counts of a graph**: its edges, those among them given twice, those with a cost, its loops, and
its vertices without successor. -/
structure Stats where
  size : Nat
  multi : Nat
  weighted : Nat
  loops : Nat
  isolated : Nat
deriving DecidableEq, Repr

/-- The counts of a graph. No edge is given twice, and every edge has the cost one. -/
def stats (g : Digraph) : Stats where
  size := g.arcs.length + g.loops.length
  multi := 0
  weighted := g.arcs.length + g.loops.length
  loops := g.loops.length
  isolated := (List.range g.order).countP fun v => (g.successors v).isEmpty

/-- **Visits the successors** of a vertex by increasing number, up to the one at which `limit` of them
have been visited; tells whether the visit was broken off there. A limit that is not positive is
reached by the first successor. -/
def visit (g : Digraph) (v : Nat) (limit : Int) : List Nat × Bool :=
  let ws := if v < g.order then g.successors v else []
  let most := max limit.toNat 1
  if most ≤ ws.length then (ws.take most, true) else (ws, false)

/-- **The vertices from a number on.** Those below it stay where they are, without any edge, so a vertex
has the same number in both graphs. -/
def since (g : Digraph) (least : Nat) : Digraph where
  names := g.names
  arcs := g.arcs.filter fun e => least ≤ e.1 && least ≤ e.2
  loops := g.loops.filter fun v => least ≤ v

/-- There is an edge between two different vertices, in either direction. -/
def adjacent (g : Digraph) (u v : Nat) : Bool := u != v && (g.hasEdge u v || g.hasEdge v u)

end Digraph

end PhpAudit
