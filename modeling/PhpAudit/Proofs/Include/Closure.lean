import PhpAudit.Proofs.Graph.CyclicGroups
import PhpAudit.Proofs.Include.Relation

/-!
# Includes through other files

A file includes another when a chain of direct includes leads there. Whether one does is told by a
search for paths along the arcs of the graph, which files include each other by the strong components
of the graph, and where the search for a cycle starts by those of the vertices from a number on. All of
these may be had from elsewhere, so what is said here is said of every such search (`SearchesPaths`)
and of every list of the components (`StrongComponents`, `StrongSince`).

**The laws.** Includes are the transitive closure of the direct ones (`includes_iff_chain`), so a file
includes itself only through a cycle. And the three ways to see cycles agree
(`cyclic_groups_agree`): the files of the cyclic groups, those on the elementary cycles and those
that include themselves are the same.
-/

namespace PhpAudit.IncludeGraph

open Relation (TransGen)

variable {sites : List IncludeSite} {leads : Nat → Nat → Bool} {components : List (List Nat)}
  {a b : Text}

theorem linked_eq (sites : List IncludeSite) :
    Digraph.Linked (sites.filterMap addition?) = DirectlyIncludes sites :=
  funext fun _ => funext fun _ => propext edge_mem_additions

/-- **Includes are the transitive closure** of the direct ones, by whatever search. -/
theorem doesIncludeBy_iff (search : (build sites).graph.SearchesPaths leads) :
    (build sites).doesIncludeBy leads a b = true ↔ TransGen (DirectlyIncludes sites) a b := by
  rw [graph_build] at search
  rw [doesIncludeBy, graph_build, Digraph.pathExists_build search, linked_eq]

/-- The ends of a chain of includes are files. -/
theorem isFile_of_path (path : TransGen (DirectlyIncludes sites) a b) :
    IsFile sites a ∧ IsFile sites b := by
  obtain ⟨_, first, -⟩ := TransGen.head'_iff.mp path
  obtain ⟨c, -, last⟩ := TransGen.tail'_iff.mp path
  exact ⟨isFile_of_includes first, Or.inr ⟨c, last⟩⟩

/-- The search here is a search for paths. -/
theorem searchesPaths_build (sites : List IncludeSite) :
    (build sites).graph.SearchesPaths (build sites).graph.arcAdjacency.leads := by
  rw [graph_build]
  exact Digraph.searchesPaths_leads _

/-- The files on the elementary cycles are those that include themselves. -/
theorem exists_cycle_iff {parts : Nat → List (List Nat)}
    (search : (build sites).graph.SearchesPaths leads)
    (strong : (build sites).graph.StrongSince parts) (f : Text) :
    (∃ cycle ∈ (build sites).cyclesOf parts, f ∈ cycle) ↔
      (build sites).doesIncludeBy leads f f = true := by
  rw [doesIncludeBy_iff search, ← linked_eq, cyclesOf]
  rw [graph_build] at strong ⊢
  exact Digraph.exists_namedCycle_iff strong

/-- **One file includes another when a chain of sites leads there.** A file includes itself when it lies
on a cycle that passes no file twice, which may be a site that includes its own file; and what is no
file includes nothing and is not included. -/
theorem includes_iff_chain (sites : List IncludeSite) {leads : Nat → Nat → Bool}
    (search : (build sites).graph.SearchesPaths leads) (a b : Text) :
    ((build sites).doesIncludeBy leads a b = true ↔
      ∃ between, (a :: between ++ [b]).IsChain (DirectlyIncludes sites)) ∧
    ((build sites).doesIncludeBy leads a a = true ↔
      ∃ rest, (a :: rest).Nodup ∧ (a :: rest ++ [a]).IsChain (DirectlyIncludes sites)) ∧
    (a ∉ (build sites).files ∨ b ∉ (build sites).files →
      (build sites).doesIncludeBy leads a b = false) := by
  refine ⟨?_, ?_, fun missing => ?_⟩
  · rw [doesIncludeBy_iff search, Digraph.transGen_iff_isChain]
  · rw [doesIncludeBy_iff search, Digraph.transGen_self_iff_simple]
  · rw [← Bool.not_eq_true, doesIncludeBy_iff search]
    intro path
    obtain ⟨source, target⟩ := isFile_of_path path
    rw [(denotes_build sites).mem_files, (denotes_build sites).mem_files] at missing
    exact missing.elim (absurd source) (absurd target)

/-- Two sites, of files that include each other. -/
def mutualSites : List IncludeSite := [.including "a" "b", .including "b" "a"]

/-- Each of the two files includes itself, through the other; what is no file includes nothing. -/
theorem mutual_files_include_themselves :
    let g := build mutualSites
    let leads := g.graph.arcAdjacency.leads
    g.graph.SearchesPaths leads ∧ g.doesIncludeBy leads "a" "a" = true ∧
      g.doesIncludeBy leads "c" "a" = false := by
  intro g leads
  have search : g.graph.SearchesPaths leads := searchesPaths_build mutualSites
  obtain ⟨-, itself, -⟩ := includes_iff_chain mutualSites search "a" "a"
  obtain ⟨-, -, missing⟩ := includes_iff_chain mutualSites search "c" "a"
  have there : DirectlyIncludes mutualSites "a" "b" :=
    ⟨.including "a" "b", List.mem_cons_self, by decide, rfl, rfl, rfl⟩
  have back : DirectlyIncludes mutualSites "b" "a" :=
    ⟨.including "b" "a", List.mem_cons_of_mem _ List.mem_cons_self, by decide, rfl, rfl, rfl⟩
  refine ⟨search, itself.mpr ⟨["b"], by decide, ?_⟩, missing (Or.inl fun file => ?_)⟩
  · exact .cons_cons there (.cons_cons back (.singleton _))
  · have names : g.graph.names = ["a", "b"] := by decide +kernel
    rw [files, Digraph.mem_sorted, names] at file
    revert file
    decide

/-- **The cyclic groups, the cycles and the includes agree**, whatever the search and the lists of strong
components that each is had from. The groups are disjoint, none is empty,
each is strictly increasing and they come by their first names. The files in them are those that
include themselves, and so are those on the elementary cycles. Two such files are in one group when
they are the same or each includes the other. -/
theorem cyclic_groups_agree (sites : List IncludeSite) {leads : Nat → Nat → Bool}
    {components : List (List Nat)} {parts : Nat → List (List Nat)}
    (search : (build sites).graph.SearchesPaths leads)
    (strong : (build sites).graph.StrongComponents components)
    (since : (build sites).graph.StrongSince parts) :
    let g := build sites
    let groups := g.cyclicGroupsOf components
    (∀ group ∈ groups, group ≠ [] ∧ group.Pairwise (· < ·)) ∧
    groups.Pairwise List.Disjoint ∧
    (groups.Pairwise fun group group' => group.headD "" < group'.headD "") ∧
    (∀ f, (∃ group ∈ groups, f ∈ group) ↔ g.doesIncludeBy leads f f = true) ∧
    (∀ f, (∃ cycle ∈ g.cyclesOf parts, f ∈ cycle) ↔ g.doesIncludeBy leads f f = true) ∧
    ∀ a b, g.doesIncludeBy leads a a = true → g.doesIncludeBy leads b b = true →
      ((∃ group ∈ groups, a ∈ group ∧ b ∈ group) ↔
        a = b ∨ g.doesIncludeBy leads a b = true ∧ g.doesIncludeBy leads b a = true) := by
  intro g groups
  have includes (a b : Text) : g.doesIncludeBy leads a b = true ↔
      TransGen (Digraph.Linked (sites.filterMap addition?)) a b := by
    rw [doesIncludeBy_iff search, linked_eq]
  have listed : groups = (Digraph.build (sites.filterMap addition?)).cyclicGroupsOf components := by
    rw [← graph_build]
    rfl
  rw [graph_build] at strong
  have grouped (f : Text) : (∃ group ∈ groups, f ∈ group) ↔ g.doesIncludeBy leads f f = true := by
    rw [includes, listed, Digraph.exists_group_iff strong]
  refine ⟨?_, ?_, ?_, grouped, exists_cycle_iff search since, fun a b ha hb => ?_⟩
  · rw [listed]
    exact fun group hgroup => Digraph.group_strict strong hgroup
  · rw [listed]
    exact Digraph.groups_disjoint strong
  · rw [listed]
    exact Digraph.groups_strict strong
  · rw [includes, includes]
    constructor
    · rintro ⟨group, hgroup, ha, hb⟩
      exact (Digraph.mem_group_iff strong (listed ▸ hgroup) ha).mp hb
    · intro linked
      obtain ⟨group, hgroup, ha⟩ := (grouped a).mpr ha
      exact ⟨group, hgroup, ha, (Digraph.mem_group_iff strong (listed ▸ hgroup) ha).mpr linked⟩

/-- Files that include each other, one that includes itself, and one that includes one of them. -/
def tangledSites : List IncludeSite :=
  [.including "a" "b", .including "b" "a", .including "c" "c", .including "d" "a"]

/-- The files that include each other are in one group, the one that includes itself is in another, and
the last is in none. -/
theorem tangled_files_in_two_groups :
    let g := build tangledSites
    let groups := g.cyclicGroupsOf g.graph.strongComponents
    g.graph.SearchesPaths g.graph.arcAdjacency.leads ∧
      g.graph.StrongComponents g.graph.strongComponents ∧
      g.graph.StrongSince g.graph.componentsSince ∧
      (∃ group ∈ groups, ("a" : Text) ∈ group ∧ ("b" : Text) ∈ group) ∧
      ¬ (∃ group ∈ groups, ("a" : Text) ∈ group ∧ ("c" : Text) ∈ group) ∧
      (∃ group ∈ groups, ("c" : Text) ∈ group) ∧ ¬ ∃ group ∈ groups, ("d" : Text) ∈ group := by
  intro g groups
  have search := searchesPaths_build tangledSites
  have strong := Digraph.strongComponents_spec g.graph
  have since := Digraph.strongSince_componentsSince g.graph
  obtain ⟨-, -, -, grouped, -, together⟩ := cyclic_groups_agree tangledSites search strong since
  refine ⟨search, strong, since, ?_, ?_, ?_, ?_⟩
  · rw [together "a" "b" (by decide +kernel) (by decide +kernel)]
    decide +kernel
  · rw [together "a" "c" (by decide +kernel) (by decide +kernel)]
    decide +kernel
  · rw [grouped]
    decide +kernel
  · rw [grouped]
    decide +kernel

end PhpAudit.IncludeGraph
