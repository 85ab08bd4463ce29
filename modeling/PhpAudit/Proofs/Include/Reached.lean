import PhpAudit.Proofs.Include.Closure
import PhpAudit.Proofs.Include.Roots

/-!
# Where every file is reached from

From a file one can go back to a file that includes it, and from there further back. There are finitely
many files, so going back ends at a file that nothing includes or comes by some file twice.

**The law** (`files_are_reached`): every file is a root, or is included from a root, or is included
from a file that lies on an include cycle, which may be the file itself. In a graph without cycles every
file is a root or is included from one.
-/

namespace PhpAudit

open Relation (TransGen ReflTransGen)

/-- **Going back ends or repeats**: with finitely many sources, everything is reached from something
without a predecessor or from a cycle. -/
theorem exists_source_or_cycle {α : Type} {r : α → α → Prop} {sources : List α}
    (finite : ∀ a b, r a b → a ∈ sources) (b : α) :
    (∃ a, (∀ x, ¬ r x a) ∧ ReflTransGen r a b) ∨ ∃ c, TransGen r c c ∧ ReflTransGen r c b := by
  by_cases cyclic : ∃ c, TransGen r c c ∧ ReflTransGen r c b
  · exact .inr cyclic
  by_cases first : ∀ x, ¬ r x b
  · exact .inl ⟨b, first, .refl⟩
  -- the sources that lead to `b` are ordered by the paths between them, as none is on a cycle
  let Above : Type := {a : α // a ∈ sources ∧ ReflTransGen r a b}
  have : Finite Above := ((List.finite_toSet sources).subset fun a ha => ha.1).to_subtype
  have : Std.Irrefl fun x y : Above => TransGen r x.1 y.1 :=
    ⟨fun x loop => cyclic ⟨x.1, loop, x.2.2⟩⟩
  have : IsTrans Above fun x y => TransGen r x.1 y.1 := ⟨fun _ _ _ h h' => h.trans h'⟩
  have wellFounded := Finite.wellFounded_of_trans_of_irrefl fun x y : Above => TransGen r x.1 y.1
  obtain ⟨x, edge⟩ := not_forall_not.mp first
  obtain ⟨⟨a, source, leads⟩, -, least⟩ :=
    wellFounded.has_min Set.univ ⟨⟨x, finite x b edge, .single edge⟩, trivial⟩
  refine .inl ⟨a, fun y before => ?_, leads⟩
  exact least ⟨y, finite y a before, .head before leads⟩ trivial (.single before)

namespace IncludeGraph

variable {sites : List IncludeSite} {leads : Nat → Nat → Bool}

/-- **Every file is reached from a root or from a cycle.** A file is a root, or a root includes it, or a
file on an include cycle is that file or includes it. So in a graph without cycles every file is reached
from the roots. -/
theorem files_are_reached (sites : List IncludeSite) {leads : Nat → Nat → Bool}
    {parts : Nat → List (List Nat)} (search : (build sites).graph.SearchesPaths leads)
    (strong : (build sites).graph.StrongSince parts) {f : Text} (file : f ∈ (build sites).files) :
    let g := build sites
    (f ∈ g.roots ∨ (∃ r ∈ g.roots, g.doesIncludeBy leads r f = true) ∨
      ∃ c ∈ g.files, (∃ cycle ∈ g.cyclesOf parts, c ∈ cycle) ∧ g.doesIncludeBy leads c c = true ∧
        (c = f ∨ g.doesIncludeBy leads c f = true)) ∧
    (g.cyclesOf parts = [] → f ∈ g.roots ∨ ∃ r ∈ g.roots, g.doesIncludeBy leads r f = true) := by
  intro g
  have denotes := denotes_build sites
  have includes {a b : Text} :
      g.doesIncludeBy leads a b = true ↔ TransGen (DirectlyIncludes sites) a b :=
    doesIncludeBy_iff search
  have finite (a b : Text) (edge : DirectlyIncludes sites a b) : a ∈ g.files :=
    (denotes.mem_files a).mpr (isFile_of_includes edge)
  have reached : f ∈ g.roots ∨ (∃ r ∈ g.roots, g.doesIncludeBy leads r f = true) ∨
      ∃ c ∈ g.files, (∃ cycle ∈ g.cyclesOf parts, c ∈ cycle) ∧ g.doesIncludeBy leads c c = true ∧
        (c = f ∨ g.doesIncludeBy leads c f = true) := by
    rcases exists_source_or_cycle finite f with ⟨a, alone, path⟩ | ⟨c, loop, path⟩
    · rcases Relation.reflTransGen_iff_eq_or_transGen.mp path with rfl | path
      · exact .inl (mem_roots_iff.mpr ⟨(denotes.mem_files f).mp file, alone⟩)
      · exact .inr (.inl ⟨a, mem_roots_iff.mpr ⟨(isFile_of_path path).1, alone⟩, includes.mpr path⟩)
    · have itself := includes.mpr loop
      refine .inr (.inr ⟨c, (denotes.mem_files c).mpr (isFile_of_path loop).1,
        (exists_cycle_iff search strong c).mpr itself, itself, ?_⟩)
      rcases Relation.reflTransGen_iff_eq_or_transGen.mp path with same | path
      · exact .inl same.symm
      · exact .inr (includes.mpr path)
  refine ⟨reached, fun none => ?_⟩
  rcases reached with root | below | ⟨c, -, ⟨cycle, listed, -⟩, -⟩
  · exact .inl root
  · exact .inr below
  · rw [none] at listed
    cases listed

/-- Files that include each other, one that the second of them includes, and one that a root includes. -/
def trailingSites : List IncludeSite :=
  [.including "a" "b", .including "b" "a", .including "b" "c", .including "r" "d"]

/-- One file is reached from the cycle alone, the other from the root alone. -/
theorem files_below_cycle_and_root :
    let g := build trailingSites
    let leads := g.graph.arcAdjacency.leads
    let parts := g.graph.componentsSince
    g.graph.SearchesPaths leads ∧ g.graph.StrongSince parts ∧ g.roots = ["r"] ∧
      (∃ c ∈ g.files, (∃ cycle ∈ g.cyclesOf parts, c ∈ cycle) ∧ g.doesIncludeBy leads c c = true ∧
        (c = "c" ∨ g.doesIncludeBy leads c "c" = true)) ∧
      ∃ r ∈ g.roots, g.doesIncludeBy leads r "d" = true := by
  intro g leads parts
  have search : g.graph.SearchesPaths leads := searchesPaths_build trailingSites
  have strong : g.graph.StrongSince parts := Digraph.strongSince_componentsSince g.graph
  have roots : g.roots = ["r"] := by decide +kernel
  have file (f : Text) (named : f ∈ g.graph.names) : f ∈ g.files := Digraph.mem_sorted.mpr named
  obtain ⟨ofC, -⟩ := files_are_reached trailingSites search strong (file "c" (by decide +kernel))
  obtain ⟨ofD, -⟩ := files_are_reached trailingSites search strong (file "d" (by decide +kernel))
  have notBelow : ¬ ∃ r ∈ g.roots, g.doesIncludeBy leads r "c" = true := by decide +kernel
  have notCyclic : ∀ c ∈ g.graph.names, g.doesIncludeBy leads c c = true →
      ¬ (c = "d" ∨ g.doesIncludeBy leads c "d" = true) := by decide +kernel
  refine ⟨search, strong, roots, (ofC.resolve_left ?_).resolve_left notBelow, ?_⟩
  · rw [roots]
    decide
  · rcases ofD with root | below | ⟨c, hc, -, cyclic, above⟩
    · exact absurd root (by rw [roots]; decide)
    · exact below
    · exact absurd above (notCyclic c (Digraph.mem_sorted.mp hc) cyclic)

end IncludeGraph

end PhpAudit
