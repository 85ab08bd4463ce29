import PhpAudit.Graph.Cycles
import PhpAudit.Include.Site

/-!
# The include graph

The files of an application, with an edge from each file to the files it includes. Every file with an
include site is a vertex, also when its target is not known; sites without a file are left out.
-/

namespace PhpAudit

/-- **The include graph.** -/
structure IncludeGraph where
  graph : Digraph
  /-- The sites the graph was built from, in order. -/
  sites : List IncludeSite
  /-- The sites whose target is not known, in order. -/
  unresolved : List IncludeSite

namespace IncludeGraph

/-- The graph of no sites. -/
def empty : IncludeGraph := ⟨.empty, [], []⟩

/-- **Adds a site**, unless it has no file. -/
def addSite (g : IncludeGraph) (s : IncludeSite) : IncludeGraph :=
  if s.file = "" then g
  else if s.resolved then
    { g with graph := g.graph.addEdge s.file s.target, sites := g.sites ++ [s] }
  else
    ⟨(g.graph.addVertex s.file).2, g.sites ++ [s], g.unresolved ++ [s]⟩

/-- **Builds the graph** of sites. -/
def build (sites : List IncludeSite) : IncludeGraph := sites.foldl addSite empty

variable (g : IncludeGraph)

/-- The files, in order. -/
def files : List Text := Digraph.sorted g.graph.names

/-- The files that a file includes directly, in order. -/
def included (file : Text) : List Text := g.graph.successorNames file

/-- The files that include a file directly, in order. -/
def includedBy (file : Text) : List Text := g.graph.predecessorNames file

/-- A file includes another, directly or through others, as a search for paths tells. -/
def doesIncludeBy (leads : Nat → Nat → Bool) (source target : Text) : Bool :=
  g.graph.pathExists leads source target

/-- A file includes another, directly or through others. -/
def doesInclude (source target : Text) : Bool :=
  g.doesIncludeBy g.graph.arcAdjacency.leads source target

/-- The elementary include cycles, given the strong components of the vertices from each number on. -/
def cyclesOf (components : Nat → List (List Nat)) : List (List Text) :=
  g.graph.namedCyclesOf components

/-- The elementary include cycles. -/
def cycles : List (List Text) := g.cyclesOf g.graph.componentsSince

/-- The groups of files that include each other, given the strong components of the graph. -/
def cyclicGroupsOf (components : List (List Nat)) : List (List Text) :=
  g.graph.cyclicGroupsOf components

/-- The groups of files that include each other. -/
def cyclicGroups : List (List Text) := g.cyclicGroupsOf g.graph.strongComponents

/-- The files that no file includes, in order. -/
def roots : List Text :=
  Digraph.sorted (g.graph.names.filter fun f => (g.includedBy f).isEmpty)

/-- The edges by source and target. -/
def edges : List (Text × Text) := g.files.flatMap fun f => (g.included f).map (f, ·)

/-- The number of edges. -/
def edgeCount : Nat := (g.graph.names.flatMap g.included).length

end IncludeGraph

end PhpAudit
