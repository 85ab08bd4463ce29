import Mathlib.Data.Set.Card
import PhpAudit.Include.Report
import PhpAudit.Proofs.Graph.Names

/-!
# The relation that an include graph stands for

A file includes another directly when a site of the file has that other as its target
(`DirectlyIncludes`), a loop included. What a graph stands for is said by its answers alone
(`Denotes`): which names are files, and which file includes which, each answer strictly increasing.

**The law** (`build_denotes_sites`): the graph of sites stands for the direct includes of these
sites. So it answers alike for sites in another order or given again (`Denotes.unique`), and the
edges that it counts and reports are the pairs of that relation.
-/

namespace PhpAudit

/-- **A file directly includes another** at one of these sites. -/
def DirectlyIncludes (sites : List IncludeSite) (a b : Text) : Prop :=
  ∃ s ∈ sites, s.file ≠ "" ∧ s.resolved = true ∧ s.file = a ∧ s.target = b

/-- **The files of sites**: those that have one, and those that are included. -/
def IsFile (sites : List IncludeSite) (a : Text) : Prop :=
  (∃ s ∈ sites, s.file ≠ "" ∧ s.file = a) ∨ ∃ b, DirectlyIncludes sites b a

/-- A site of a file that includes another, known one. -/
def IncludeSite.including (file target : Text) : IncludeSite where
  loc := ⟨file, 1, "", ""⟩
  target := target
  resolved := true
  once := false
  require := false

namespace IncludeGraph

/-! ## What a graph answers -/

/-- **A graph stands for a relation** between files. -/
structure Denotes (g : IncludeGraph) (file : Text → Prop) (includes : Text → Text → Prop) :
    Prop where
  files_strict : g.files.Pairwise (· < ·)
  mem_files : ∀ a, a ∈ g.files ↔ file a
  included_strict : ∀ a, (g.included a).Pairwise (· < ·)
  mem_included : ∀ a b, b ∈ g.included a ↔ includes a b
  includedBy_strict : ∀ b, (g.includedBy b).Pairwise (· < ·)
  mem_includedBy : ∀ a b, a ∈ g.includedBy b ↔ includes a b
  hasNamedEdge_iff : ∀ a b, g.graph.hasNamedEdge a b = true ↔ includes a b

/-- **Two graphs answer alike.** -/
structure Agrees (g h : IncludeGraph) : Prop where
  files : g.files = h.files
  included : ∀ a, g.included a = h.included a
  includedBy : ∀ b, g.includedBy b = h.includedBy b
  hasNamedEdge : ∀ a b, g.graph.hasNamedEdge a b = h.graph.hasNamedEdge a b
  edges : g.edges = h.edges
  edgeCount : g.edgeCount = h.edgeCount

section Denotes

variable {g h : IncludeGraph} {file : Text → Prop} {includes : Text → Text → Prop}

/-- As many edges are counted as there are. -/
theorem length_edges (g : IncludeGraph) : g.edges.length = g.edgeCount := by
  have perm := (Digraph.perm_sorted g.graph.names).flatMap_right g.included
  rw [edgeCount, ← perm.length_eq, edges, files]
  simp only [List.length_flatMap, List.length_map]

/-- **Graphs that stand for the same relation answer alike.** -/
theorem Denotes.unique (hg : g.Denotes file includes) (hh : h.Denotes file includes) :
    g.Agrees h := by
  have files : g.files = h.files := Digraph.eq_of_strict hg.files_strict hh.files_strict fun a =>
    (hg.mem_files a).trans (hh.mem_files a).symm
  have included (a : Text) : g.included a = h.included a :=
    Digraph.eq_of_strict (hg.included_strict a) (hh.included_strict a) fun b =>
      (hg.mem_included a b).trans (hh.mem_included a b).symm
  have edges : g.edges = h.edges := by
    simp only [IncludeGraph.edges, files, included]
  refine ⟨files, included, fun b => ?_, fun a b => ?_, edges, ?_⟩
  · exact Digraph.eq_of_strict (hg.includedBy_strict b) (hh.includedBy_strict b) fun a =>
      (hg.mem_includedBy a b).trans (hh.mem_includedBy a b).symm
  · rw [Bool.eq_iff_iff, hg.hasNamedEdge_iff, hh.hasNamedEdge_iff]
  · rw [← length_edges, ← length_edges, edges]

/-- **The edges are the pairs of the relation**, when it is one between files. -/
theorem Denotes.mem_edges (hg : g.Denotes file includes)
    (between : ∀ a b, includes a b → file a) {a b : Text} : (a, b) ∈ g.edges ↔ includes a b := by
  simp only [edges, List.mem_flatMap, List.mem_map, Prod.mk.injEq, hg.mem_files, hg.mem_included]
  constructor
  · rintro ⟨_, -, _, edge, rfl, rfl⟩
    exact edge
  · exact fun edge => ⟨a, between a b edge, b, edge, rfl, rfl⟩

/-- Each edge is reported once. -/
theorem Denotes.nodup_edges (hg : g.Denotes file includes) : g.edges.Nodup := by
  refine List.nodup_flatMap.mpr ⟨fun a _ => ?_, ?_⟩
  · have once : (g.included a).Nodup := (hg.included_strict a).imp Std.ne_of_lt
    exact once.map fun b b' same => (Prod.mk.inj same).2
  · refine hg.files_strict.imp fun {a a'} lt e he he' => ?_
    obtain ⟨b, -, rfl⟩ := List.mem_map.mp he
    obtain ⟨b', -, same⟩ := List.mem_map.mp he'
    exact Std.ne_of_lt lt (Prod.mk.inj same).1.symm

/-- **The edges are counted as the pairs of the relation.** -/
theorem Denotes.edgeCount_eq (hg : g.Denotes file includes)
    (between : ∀ a b, includes a b → file a) :
    g.edgeCount = Set.ncard {e : Text × Text | includes e.1 e.2} := by
  have pairs : {e : Text × Text | includes e.1 e.2} = g.edges.toFinset := by
    ext ⟨a, b⟩
    rw [Set.mem_ofPred_eq, Finset.mem_coe, List.mem_toFinset, hg.mem_edges between]
  rw [pairs, Set.ncard_coe_finset, List.toFinset_card_of_nodup hg.nodup_edges, length_edges]

end Denotes

/-! ## The graph of sites -/

/-- What a site adds to the graph. -/
def addition? (s : IncludeSite) : Option Digraph.Addition :=
  if s.file = "" then none
  else if s.resolved then some (.edge s.file s.target)
  else some (.vertex s.file)

variable {sites : List IncludeSite} {a b : Text}

/-- **What is built of sites**: the graph of what they add, those with a file, and those among them whose
target is not known. -/
theorem build_eq (sites : List IncludeSite) : build sites =
    ⟨Digraph.build (sites.filterMap addition?), sites.filter (·.file ≠ ("" : Text)),
      sites.filter fun s => s.file ≠ ("" : Text) ∧ s.resolved = false⟩ := by
  induction sites using List.reverseRecOn with
  | nil => rfl
  | append_singleton sites s ih =>
    rw [build, List.foldl_concat, ← build, ih, List.filterMap_append, List.filter_append,
      List.filter_append]
    by_cases file : s.file = ""
    · simp [addSite, addition?, file]
    · cases resolved : s.resolved <;>
        simp [addSite, addition?, file, resolved, Digraph.build_concat, Digraph.extend]

theorem graph_build (sites : List IncludeSite) :
    (build sites).graph = Digraph.build (sites.filterMap addition?) :=
  congrArg IncludeGraph.graph (build_eq sites)

theorem edge_mem_additions :
    .edge a b ∈ sites.filterMap addition? ↔ DirectlyIncludes sites a b := by
  rw [List.mem_filterMap, DirectlyIncludes]
  refine exists_congr fun s => and_congr_right fun _ => ?_
  by_cases file : s.file = ""
  · simp [addition?, file]
  · cases resolved : s.resolved <;> simp [addition?, file, resolved]

theorem named_in_additions :
    (∃ x ∈ sites.filterMap addition?, a ∈ x.names) ↔ IsFile sites a := by
  have site (s : IncludeSite) : (∃ x, addition? s = some x ∧ a ∈ x.names) ↔
      (s.file ≠ "" ∧ s.file = a) ∨ (s.file ≠ "" ∧ s.resolved = true ∧ s.target = a) := by
    by_cases file : s.file = ""
    · simp [addition?, file]
    · cases resolved : s.resolved <;>
        simp [addition?, file, resolved, Digraph.Addition.names, eq_comm]
  have included : (∃ b, DirectlyIncludes sites b a) ↔
      ∃ s ∈ sites, s.file ≠ "" ∧ s.resolved = true ∧ s.target = a := by
    constructor
    · rintro ⟨b, s, hs, file, resolved, -, target⟩
      exact ⟨s, hs, file, resolved, target⟩
    · rintro ⟨s, hs, file, resolved, target⟩
      exact ⟨s.file, s, hs, file, resolved, rfl, target⟩
  rw [IsFile, included, ← exists_or]
  simp only [← and_or_left, ← site, List.mem_filterMap]
  constructor
  · rintro ⟨x, ⟨s, hs, added⟩, named⟩
    exact ⟨s, hs, x, added, named⟩
  · rintro ⟨s, hs, x, added, named⟩
    exact ⟨x, ⟨s, hs, added⟩, named⟩

/-- A file that includes another is one of the files. -/
theorem isFile_of_includes (edge : DirectlyIncludes sites a b) : IsFile sites a := by
  obtain ⟨s, hs, file, -, rfl, -⟩ := edge
  exact Or.inl ⟨s, hs, file, rfl⟩

/-- The graph of sites stands for what the sites include. -/
theorem denotes_build (sites : List IncludeSite) :
    (build sites).Denotes (IsFile sites) (DirectlyIncludes sites) := by
  have names := Digraph.reflects_build (sites.filterMap addition?)
  constructor
  · rw [files, graph_build]
    exact Digraph.sorted_strict names.unique
  · intro a
    rw [files, graph_build, Digraph.mem_sorted, Digraph.mem_names_build, named_in_additions]
  · intro a
    rw [included, graph_build]
    exact Digraph.successorNames_strict
  · intro a b
    rw [included, graph_build, Digraph.mem_successorNames_build, edge_mem_additions]
  · intro b
    rw [includedBy, graph_build]
    exact Digraph.predecessorNames_strict
  · intro a b
    rw [includedBy, graph_build, Digraph.mem_predecessorNames_build, edge_mem_additions]
  · intro a b
    rw [graph_build, Digraph.hasNamedEdge_build, edge_mem_additions]

/-- What sites include depends on which sites there are, not on their order or number. -/
theorem includes_congr {others : List IncludeSite} (same : ∀ s, s ∈ others ↔ s ∈ sites) :
    IsFile others = IsFile sites ∧ DirectlyIncludes others = DirectlyIncludes sites := by
  have edges : DirectlyIncludes others = DirectlyIncludes sites :=
    funext fun a => funext fun b => propext (by simp only [DirectlyIncludes, same])
  exact ⟨funext fun a => propext (by simp only [IsFile, edges, same]), edges⟩

/-- **The graph of sites stands for what they include.** The files are those of the sites and those
that are included, and which file includes which, itself perhaps, is told forwards, backwards and
for two files by the sites, each answer strictly increasing. There are as many edges as pairs, each
is in the report as JSON and no other; the sites are those with a file, and the unresolved ones those
among them whose target is not known, in order. And the graph answers alike for any list of the same
sites, in another order or with some of them again. -/
theorem build_denotes_sites (sites : List IncludeSite) :
    (build sites).Denotes (IsFile sites) (DirectlyIncludes sites) ∧
    (build sites).edgeCount =
      Set.ncard {e : Text × Text | DirectlyIncludes sites e.1 e.2} ∧
    (∃ (members : List (Text × JsonValue)) (edges : List (Text × Text)),
      (build sites).jsonReport = JsonValue.render (.object members) ∧
      members.lookup ("edges" : Text) = some (.list (edges.map edgeValue)) ∧
      edges.Nodup ∧ (∀ a b, (a, b) ∈ edges ↔ DirectlyIncludes sites a b) ∧
      edges.length = (build sites).edgeCount) ∧
    (build sites).sites = sites.filter (·.file ≠ ("" : Text)) ∧
    (build sites).unresolved = sites.filter (fun s => s.file ≠ ("" : Text) ∧ s.resolved = false) ∧
    ∀ others : List IncludeSite, (∀ s, s ∈ others ↔ s ∈ sites) →
      (build others).Agrees (build sites) := by
  have denotes := denotes_build sites
  have between : ∀ a b, DirectlyIncludes sites a b → IsFile sites a := fun _ _ => isFile_of_includes
  refine ⟨denotes, denotes.edgeCount_eq between, ?_, congrArg IncludeGraph.sites (build_eq sites),
    congrArg IncludeGraph.unresolved (build_eq sites), fun others same => ?_⟩
  · exact ⟨(build sites).reportMembers, (build sites).edges, rfl, rfl, denotes.nodup_edges,
      fun a b => denotes.mem_edges between, length_edges _⟩
  · have others := denotes_build others
    rw [(includes_congr same).1, (includes_congr same).2] at others
    exact others.unique denotes

/-- Two sites that are given backwards, and one of them again. -/
theorem sites_given_again_agree :
    let sites : List IncludeSite := [.including "a" "b", .including "b" "b"]
    let others : List IncludeSite := [.including "b" "b", .including "a" "b", .including "b" "b"]
    (∀ s, s ∈ others ↔ s ∈ sites) ∧ (build others).Agrees (build sites) := by
  intro sites others
  have same : ∀ s, s ∈ others ↔ s ∈ sites := by
    intro s
    simp only [others, sites, List.mem_cons, List.not_mem_nil, or_false]
    tauto
  obtain ⟨-, -, -, -, -, agrees⟩ := build_denotes_sites sites
  exact ⟨same, agrees others same⟩

end IncludeGraph

end PhpAudit
