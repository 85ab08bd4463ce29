import PhpAudit.Proofs.Include.Closure
import PhpAudit.Proofs.Text.Quoted

/-!
# The drawing of an include graph

A drawing is a text of lines: one for each file, then one for each edge. File names are quoted, so a
line stays one line whatever bytes a name holds. Groups are numbered, and an edge is red when its two
files have the same group number; a file outside every group has none.

**The law** (`red_edges_are_edges_of_cycles`): there is one line for each edge, and the red ones are the
edges of the elementary cycles. An edge between two files of one group lies on a cycle, since its end
leads back to its start; one between two groups lies on none, and neither does one that leaves every
group.
-/

namespace PhpAudit.IncludeGraph

open Relation (TransGen)

/-! ## Group numbers -/

section Groups

variable {groups : List (List Text)} {a b : Text} {i : Nat}

/-- Of disjoint groups, a file lies in the one of its number. -/
theorem groupNumber?_eq_some_iff (disjoint : groups.Pairwise List.Disjoint) :
    groupNumber? groups a = some i ↔ ∃ group, groups[i]? = some group ∧ a ∈ group := by
  have numbered {i : Nat} (h : groupNumber? groups a = some i) :
      ∃ group, groups[i]? = some group ∧ a ∈ group := by
    obtain ⟨⟨group, i⟩, found, rfl⟩ := Option.map_eq_some_iff.mp h
    have listed := List.mem_reverse.mp (List.mem_of_find?_eq_some found)
    have here : a ∈ group := by simpa using List.find?_some found
    exact ⟨group, List.mem_zipIdx_iff_getElem?.mp listed, here⟩
  refine ⟨numbered, ?_⟩
  rintro ⟨group, listed, ha⟩
  obtain ⟨j, found⟩ : ∃ j, groupNumber? groups a = some j := by
    rw [← Option.isSome_iff_exists, groupNumber?, Option.isSome_map, List.find?_isSome]
    exact ⟨(group, i), List.mem_reverse.mpr (List.mem_zipIdx_iff_getElem?.mpr listed),
      List.contains_iff_mem.mpr ha⟩
  obtain ⟨group', listed', ha'⟩ := numbered found
  obtain ⟨hi, rfl⟩ := List.getElem?_eq_some_iff.mp listed
  obtain ⟨hj, rfl⟩ := List.getElem?_eq_some_iff.mp listed'
  have apart := List.pairwise_iff_getElem.mp disjoint
  obtain lt | rfl | gt := Nat.lt_trichotomy i j
  · exact absurd ha' (apart i j hi hj lt ha)
  · exact found
  · exact absurd ha (apart j i hj hi gt ha')

/-- **Two files have the same number** when they lie in one group. -/
theorem inOneGroup_iff (disjoint : groups.Pairwise List.Disjoint) :
    inOneGroup groups a b = true ↔ ∃ group ∈ groups, a ∈ group ∧ b ∈ group := by
  have number {f : Text} {i : Nat} := groupNumber?_eq_some_iff (a := f) (i := i) disjoint
  constructor
  · intro same
    unfold inOneGroup at same
    split at same
    · next i j ha hb =>
      obtain rfl : i = j := beq_iff_eq.mp same
      obtain ⟨group, listed, ha⟩ := number.mp ha
      obtain ⟨group', listed', hb⟩ := number.mp hb
      obtain rfl : group = group' := Option.some.inj (listed.symm.trans listed')
      exact ⟨group, List.mem_of_getElem? listed, ha, hb⟩
    · cases same
  · rintro ⟨group, hgroup, ha, hb⟩
    obtain ⟨i, listed⟩ := List.mem_iff_getElem?.mp hgroup
    rw [inOneGroup, number.mpr ⟨group, listed, ha⟩, number.mpr ⟨group, listed, hb⟩]
    exact beq_self_eq_true i

end Groups

/-! ## Lines -/

theorem isLine_vertexLine (dashed : Bool) (f : Text) : (vertexLine dashed f).IsLine := by
  refine ((Text.IsLine.append ?_ (Text.isLine_quoted f)).append ?_).append ?_
  · decide
  · cases dashed <;> decide
  · decide

theorem isLine_edgeLine (red : Bool) (a b : Text) : (edgeLine red a b).IsLine := by
  refine ((((Text.IsLine.append ?_ (Text.isLine_quoted a)).append ?_).append
    (Text.isLine_quoted b)).append ?_).append ?_
  · decide
  · decide
  · cases red <;> decide
  · decide

/-- **The drawing falls into its lines.** -/
theorem split_drawingOf (g : IncludeGraph) (components : List (List Nat)) :
    (g.drawingOf components).split Text.lineBreak = g.drawingLinesOf components ++ [⟨[]⟩] := by
  refine Text.split_lines fun l h => ?_
  simp only [drawingLinesOf, List.cons_append, List.mem_cons, List.mem_append, List.mem_map,
    List.not_mem_nil, or_false] at h
  obtain rfl | (⟨f, -, rfl⟩ | ⟨e, -, rfl⟩) | rfl := h
  · decide
  · exact isLine_vertexLine _ f
  · exact isLine_edgeLine _ e.1 e.2
  · decide

/-! ## Red edges -/

/-- **An edge lies in one group** when it is an edge of an elementary cycle. -/
theorem inOneGroup_cyclicGroupsOf {sites : List IncludeSite} {components : List (List Nat)}
    {parts : Nat → List (List Nat)} (strong : (build sites).graph.StrongComponents components)
    (since : (build sites).graph.StrongSince parts) {a b : Text} (edge : DirectlyIncludes sites a b) :
    inOneGroup ((build sites).cyclicGroupsOf components) a b = true ↔
      ∃ cycle ∈ (build sites).cyclesOf parts, [a, b] <:+: cycle := by
  unfold cyclicGroupsOf cyclesOf
  rw [graph_build] at strong since ⊢
  have linked := edge_mem_additions.mpr edge
  rw [inOneGroup_iff (Digraph.groups_disjoint strong), Digraph.exists_namedCycle_through_iff since]
  constructor
  · rintro ⟨group, hgroup, ha, hb⟩
    exact ⟨linked, ((Digraph.mem_group_iff strong hgroup ha).mp hb).imp_right And.right⟩
  · rintro ⟨-, back⟩
    have cycle : TransGen (Digraph.Linked (sites.filterMap addition?)) a a := by
      obtain rfl | back := back
      · exact .single linked
      · exact .head linked back
    obtain ⟨group, hgroup, ha⟩ := (Digraph.exists_group_iff strong).mpr cycle
    refine ⟨group, hgroup, ha, (Digraph.mem_group_iff strong hgroup ha).mpr ?_⟩
    exact back.imp_right fun back => ⟨.single linked, back⟩

/-- **The red edges are the edges of cycles.** The drawing falls into lines: the first, one for each file,
one for each edge, and the last, which ends with a break. Each pair of files of which the first
includes the second directly is one edge, and there are no others. Its line is red exactly when its
files follow each other on one of the elementary cycles, the way back to the first file included. -/
theorem red_edges_are_edges_of_cycles (sites : List IncludeSite) {components : List (List Nat)}
    {parts : Nat → List (List Nat)} (strong : (build sites).graph.StrongComponents components)
    (since : (build sites).graph.StrongSince parts) :
    let g := build sites
    ∃ (edges : List (Text × Text)) (red : Text × Text → Bool),
      (g.drawingOf components).split Text.lineBreak =
        ("digraph includes \x7b" : Text) ::
          g.files.map (fun f => vertexLine ((g.unresolved.map (·.file)).contains f) f) ++
          edges.map (fun e => edgeLine (red e) e.1 e.2) ++ [("\x7d" : Text), ⟨[]⟩] ∧
      edges.Nodup ∧ (∀ a b, (a, b) ∈ edges ↔ DirectlyIncludes sites a b) ∧
      ∀ e ∈ edges, red e = true ↔ ∃ cycle ∈ g.cyclesOf parts, [e.1, e.2] <:+: cycle := by
  intro g
  have denotes := denotes_build sites
  have between : ∀ a b, DirectlyIncludes sites a b → IsFile sites a := fun _ _ => isFile_of_includes
  refine ⟨g.edges, fun e => inOneGroup (g.cyclicGroupsOf components) e.1 e.2, ?_,
    denotes.nodup_edges, fun a b => denotes.mem_edges between, fun e he => ?_⟩
  · rw [split_drawingOf, drawingLinesOf, List.append_assoc]
    rfl
  · exact inOneGroup_cyclicGroupsOf strong since ((denotes.mem_edges between).mp he)

/-- Two files that include each other, one of which includes itself and a third. -/
def drawnSites : List IncludeSite :=
  [.including "a" "b", .including "b" "a", .including "b" "b", .including "b" "c"]

/-- The edges between the two files and the loop are red, the edge to the third is not. -/
theorem edges_between_two_are_red :
    let g := build drawnSites
    let lines := (g.drawingOf g.graph.strongComponents).split Text.lineBreak
    g.graph.StrongComponents g.graph.strongComponents ∧
      g.graph.StrongSince g.graph.componentsSince ∧ edgeLine true "a" "b" ∈ lines ∧
      edgeLine true "b" "b" ∈ lines ∧ edgeLine false "b" "c" ∈ lines := by
  intro g lines
  have strong := Digraph.strongComponents_spec g.graph
  have since := Digraph.strongSince_componentsSince g.graph
  obtain ⟨edges, red, split, -, listed, coloured⟩ :=
    red_edges_are_edges_of_cycles drawnSites strong since
  have line {e : Text × Text} (he : e ∈ edges) : edgeLine (red e) e.1 e.2 ∈ lines := by
    show _ ∈ (g.drawingOf g.graph.strongComponents).split Text.lineBreak
    rw [split]
    exact List.mem_append_left _ (List.mem_append_right _ (List.mem_map_of_mem he))
  have cycles : g.cyclesOf g.graph.componentsSince =
      [[("a" : Text), "b", "a"], [("b" : Text), "b"]] := by
    decide +kernel
  have edge {a b : Text} (there : ∃ s ∈ drawnSites, s.file ≠ "" ∧ s.resolved = true ∧ s.file = a ∧
      s.target = b) : (a, b) ∈ edges := (listed a b).mpr there
  have ab := edge (a := "a") (b := "b") (by decide)
  have bb := edge (a := "b") (b := "b") (by decide)
  have bc := edge (a := "b") (b := "c") (by decide)
  refine ⟨strong, since, ?_, ?_, ?_⟩
  · have red_ab : red ("a", "b") = true := (coloured _ ab).mpr (by rw [cycles]; decide)
    exact red_ab ▸ line ab
  · have red_bb : red ("b", "b") = true := (coloured _ bb).mpr (by rw [cycles]; decide)
    exact red_bb ▸ line bb
  · have plain : red ("b", "c") = false := by
      rw [← Bool.not_eq_true, coloured _ bc, cycles]
      decide
    exact plain ▸ line bc

end PhpAudit.IncludeGraph
