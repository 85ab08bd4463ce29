import PhpAudit.Proofs.Include.Relation

/-!
# Where an application starts

An **entry** is a file that no other file includes. The roots of an include graph are the files that
nothing includes, and a file that includes itself is included by something: it is no root, even where
nothing else includes it.

**The law** (`roots_are_entries_without_loop`): the roots are the entries that do not include
themselves, strictly increasing. So they are all the entries exactly when every file that includes
itself is included by another file as well.
-/

namespace PhpAudit

/-- **An entry**: a file that no other file includes directly. -/
def IsEntry (sites : List IncludeSite) (a : Text) : Prop :=
  IsFile sites a ∧ ∀ b, b ≠ a → ¬ DirectlyIncludes sites b a

namespace IncludeGraph

variable {sites : List IncludeSite} {a : Text}

theorem roots_strict (sites : List IncludeSite) : (build sites).roots.Pairwise (· < ·) := by
  have unique : (build sites).graph.names.Nodup := by
    rw [graph_build]
    exact (Digraph.reflects_build _).unique
  exact Digraph.sorted_strict (unique.filter _)

/-- A root is a file that nothing includes, itself among others. -/
theorem mem_roots_iff :
    a ∈ (build sites).roots ↔ IsFile sites a ∧ ∀ b, ¬ DirectlyIncludes sites b a := by
  have denotes := denotes_build sites
  have file : a ∈ (build sites).graph.names ↔ IsFile sites a := by
    rw [← denotes.mem_files, files, Digraph.mem_sorted]
  have alone : ((build sites).includedBy a).isEmpty = true ↔ ∀ b, ¬ DirectlyIncludes sites b a := by
    rw [List.isEmpty_iff, List.eq_nil_iff_forall_not_mem]
    exact forall_congr' fun b => not_congr (denotes.mem_includedBy b a)
  rw [roots, Digraph.mem_sorted, List.mem_filter, file, alone]

/-- **The roots are the entries that do not include themselves.** -/
theorem mem_roots_iff_isEntry :
    a ∈ (build sites).roots ↔ IsEntry sites a ∧ ¬ DirectlyIncludes sites a a := by
  rw [mem_roots_iff, IsEntry, and_assoc]
  refine and_congr_right fun _ => ⟨fun alone => ⟨fun b _ => alone b, alone a⟩, ?_⟩
  rintro ⟨others, loop⟩ b
  by_cases same : b = a
  · exact same ▸ loop
  · exact others b same

/-- **The roots are the entries without a loop**, strictly increasing; and they are the entries exactly
when every file that includes itself is included by another file too. -/
theorem roots_are_entries_without_loop (sites : List IncludeSite) :
    (build sites).roots.Pairwise (· < ·) ∧
    (∀ a, a ∈ (build sites).roots ↔ IsEntry sites a ∧ ¬ DirectlyIncludes sites a a) ∧
    ((∀ a, a ∈ (build sites).roots ↔ IsEntry sites a) ↔
      ∀ a, DirectlyIncludes sites a a → ∃ b, b ≠ a ∧ DirectlyIncludes sites b a) := by
  refine ⟨roots_strict sites, fun a => mem_roots_iff_isEntry, fun all a loop => ?_, fun shared a => ?_⟩
  · by_contra lonely
    have entry : IsEntry sites a :=
      ⟨isFile_of_includes loop, fun b other edge => lonely ⟨b, other, edge⟩⟩
    exact (mem_roots_iff_isEntry.mp ((all a).mpr entry)).2 loop
  · rw [mem_roots_iff_isEntry, and_iff_left_iff_imp]
    rintro ⟨-, others⟩ loop
    obtain ⟨b, other, edge⟩ := shared a loop
    exact others b other edge

/-- A file that only itself includes is an entry, and no root. -/
theorem loop_hides_entry :
    let sites : List IncludeSite := [.including "index.php" "index.php"]
    IsEntry sites "index.php" ∧ (build sites).roots = [] := by
  intro sites
  have site : .including "index.php" "index.php" ∈ sites := List.mem_singleton_self _
  refine ⟨⟨.inl ⟨_, site, by decide, rfl⟩, ?_⟩, by decide +kernel⟩
  rintro b other ⟨s, hs, -, -, rfl, -⟩
  obtain rfl := List.mem_singleton.mp hs
  exact other rfl

end IncludeGraph

end PhpAudit
