import PhpAudit.Graph.Basic

/-!
# Reachability

A vertex reaches another when a path of at least one edge leads there; a vertex reaches itself only
through a cycle. The search goes from the successors of a vertex outwards: each round adds the vertices
that are one edge further away, until there are none, which takes at most as many rounds as there are
vertices.

Two vertices that reach each other lie in one **strong component**. The components that hold a cycle
are the **cyclic groups**.
-/

namespace PhpAudit

/-- **The successors of every vertex** of a graph, looked up once. -/
structure Adjacency where
  lists : Array (List Nat)

/-- The adjacency of a graph. -/
def Digraph.adjacency (g : Digraph) : Adjacency :=
  ⟨((List.range g.order).map g.successors).toArray⟩

namespace Adjacency

/-- The number of vertices. -/
def order (a : Adjacency) : Nat := a.lists.size

/-- The successors of a vertex, by increasing number. -/
def successors (a : Adjacency) (v : Nat) : List Nat := (a.lists[v]?).getD []

/-- The vertices of a list that were not seen, each once. -/
def unseen (seen : List Nat) (vs : List Nat) : List Nat :=
  vs.foldl (fun new v => if seen.contains v || new.contains v then new else new ++ [v]) []

/-- Adds what can be seen from a frontier, round by round, at most `n` times. -/
def explore (step : Nat → List Nat) : Nat → List Nat → List Nat → List Nat
  | 0, seen, _ => seen
  | n + 1, seen, frontier =>
    match unseen seen (frontier.flatMap step) with
    | [] => seen
    | new => explore step n (seen ++ new) new

/-- **The vertices that a vertex reaches.** -/
def reachable (a : Adjacency) (v : Nat) : List Nat :=
  let first := unseen [] (a.successors v)
  explore a.successors a.order first first

/-- A vertex reaches another. -/
def reaches (a : Adjacency) (u v : Nat) : Bool := (a.reachable u).contains v

/-- **The strong component of a vertex**: the vertex, and those that it reaches and that reach it. -/
def component (a : Adjacency) (v : Nat) : List Nat :=
  if a.reaches v v then (a.reachable v).filter fun w => a.reaches w v else [v]

/-- The strong components of vertices, each once. -/
def components (a : Adjacency) : List Nat → List (List Nat)
  | [] => []
  | v :: vs =>
    let rest := a.components vs
    if rest.any (·.contains v) then rest else a.component v :: rest

/-- A path, with edges or without, leads from a vertex to another. -/
def leads (a : Adjacency) (u v : Nat) : Bool := u == v || a.reaches u v

end Adjacency

namespace Digraph

/-- The adjacency of a graph without its loops. -/
def arcAdjacency (g : Digraph) : Adjacency :=
  ⟨((List.range g.order).map g.arcTargets).toArray⟩

/-- **The vertex of a name reaches that of another**, given a search that tells whether a path of arcs,
possibly none, leads from a vertex to another. Such a path leads from every vertex to itself, so
there it takes a loop, or an arc to a vertex that leads back. -/
def pathExists (leads : Nat → Nat → Bool) (g : Digraph) (a b : Text) : Bool :=
  match g.id? a, g.id? b with
  | some u, some v =>
    if u ≠ v then leads u v
    else g.hasLoop u || (g.arcTargets u).any fun w => leads w u
  | _, _ => false

/-- The vertex of a name reaches that of another. -/
def reachesNamed (g : Digraph) (a b : Text) : Bool := g.pathExists g.arcAdjacency.leads a b

/-- The strong components of a graph. -/
def strongComponents (g : Digraph) : List (List Nat) :=
  g.adjacency.components (List.range g.order)

/-- The strong components of the vertices from a number on. -/
def componentsSince (g : Digraph) (least : Nat) : List (List Nat) := (g.since least).strongComponents

/-- A strong component holds a cycle: it has two vertices, or one with a loop. -/
def holdsCycle (g : Digraph) (component : List Nat) : Bool :=
  decide (2 ≤ component.length) || g.hasLoop (component.headD 0)

/-- **The cyclic groups** among strong components, each as its names in order, the groups ordered by
their first names. -/
def cyclicGroupsOf (g : Digraph) (components : List (List Nat)) : List (List Text) :=
  let groups := (components.filter g.holdsCycle).map fun c => sorted (c.map g.name)
  groups.mergeSort fun a b => decide (a.headD "" ≤ b.headD "")

/-- The cyclic groups of a graph. -/
def cyclicGroups (g : Digraph) : List (List Text) := g.cyclicGroupsOf g.strongComponents

end Digraph

end PhpAudit
