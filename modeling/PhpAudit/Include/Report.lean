import PhpAudit.Include.Graph
import PhpAudit.Report.Json

/-!
# Reports of the include graph

The graph as a text for people, as a JSON document, and as a drawing for Graphviz. In the drawing a
file with an include whose target is not known is dashed, and an edge inside a cyclic group is red.
-/

namespace PhpAudit.IncludeGraph

variable (g : IncludeGraph)

/-- **The report as text.** -/
def textReport : Text :=
  let count := toString g.files.length ++ " file(s), " ++ toString g.edgeCount ++
    " include edge(s), " ++ toString g.unresolved.length ++ " unresolved include(s)\n"
  let cycles := match g.cycles with
    | [] => "No include cycle found.\n"
    | cs => toString cs.length ++ " include cycle(s):\n" ++
        Text.join (cs.map fun c => " ↻ " ++ Text.intercalate " -> " c ++ "\n")
  let unresolved := match g.unresolved with
    | [] => ""
    | ss => "Unresolved includes:\n" ++ Text.join (ss.map fun s => " - " ++ s.loc.text ++ "\n")
  count ++ cycles ++ unresolved

/-- An edge of the report as JSON. -/
def edgeValue (e : Text × Text) : JsonValue := .object [("from", .text e.1), ("to", .text e.2)]

/-- An unresolved site of the report as JSON. -/
def siteValue (s : IncludeSite) : JsonValue := .object [
  ("file", .text s.loc.file), ("line", .int s.loc.line), ("require", .bool s.require),
  ("once", .bool s.once)]

/-- The members of the report as JSON. -/
def reportMembers : List (Text × JsonValue) := [
  ("files", .texts g.files),
  ("edges", .list (g.edges.map edgeValue)),
  ("cycles", .list (g.cycles.map .texts)),
  ("unresolved", .list (g.unresolved.map siteValue))]

/-- **The report as JSON.** -/
def jsonReport : Text := JsonValue.render (.object g.reportMembers)

/-! ## The drawing -/

/-- The number of the group that a file lies in; of several, the last. -/
def groupNumber? (groups : List (List Text)) (f : Text) : Option Nat :=
  (groups.zipIdx.reverse.find? fun g => g.1.contains f).map (·.2)

/-- Two files lie in one of these groups. -/
def inOneGroup (groups : List (List Text)) (a b : Text) : Bool :=
  match groupNumber? groups a, groupNumber? groups b with
  | some i, some j => i == j
  | _, _ => false

/-- The line of a file. -/
def vertexLine (dashed : Bool) (f : Text) : Text :=
  "  " ++ Text.quoted f ++ (if dashed then " [style=dashed]" else "") ++ ";"

/-- The line of an edge. -/
def edgeLine (red : Bool) (a b : Text) : Text :=
  "  " ++ Text.quoted a ++ " -> " ++ Text.quoted b ++ (if red then " [color=red]" else "") ++ ";"

/-- The lines of the drawing, given the strong components of the graph. -/
def drawingLinesOf (components : List (List Nat)) : List Text :=
  let groups := g.cyclicGroupsOf components
  let dashed := g.unresolved.map (·.file)
  let vertices := g.files.map fun f => vertexLine (dashed.contains f) f
  let edges := g.edges.map fun e => edgeLine (inOneGroup groups e.1 e.2) e.1 e.2
  let first : Text := "digraph includes \x7b"
  let last : Text := "\x7d"
  first :: vertices ++ edges ++ [last]

/-- The drawing, given the strong components of the graph. -/
def drawingOf (components : List (List Nat)) : Text :=
  Text.join ((g.drawingLinesOf components).map (· ++ "\n"))

/-- **The drawing** for Graphviz. -/
def drawing : Text := g.drawingOf g.graph.strongComponents

end PhpAudit.IncludeGraph
