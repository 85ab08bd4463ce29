import PhpAudit.Proofs.Graph.Paths

/-!
# Cyclic groups

The strong components of a graph may be had from elsewhere: what is said here is said of every list of
them (`StrongComponents`), and of elementary cycles that come from any lists of them (`StrongSince`).

**The law** (`exists_group_iff`, `mem_group_iff`): the cyclic groups hold the names that lie on a
cycle, and two of these are in one group when a path leads from each to the other. And the names on
the elementary cycles are the same (`exists_namedCycle_iff`), while the edges of these cycles are
those between two names of one group (`exists_namedCycle_through_iff`).
-/

namespace PhpAudit.Digraph

open Relation (TransGen ReflTransGen)

variable {additions : List Addition}

theorem successors_build :
    (fun x y => y ∈ (build additions).successors x) = Joined additions :=
  funext fun _ => funext fun _ => propext mem_successors_build

variable {components : List (List Nat)} {c : List Nat} {u v : Nat} {a b : Text}

theorem StrongComponents.mem_iff (h : (build additions).StrongComponents components)
    (hc : c ∈ components) (hu : u ∈ c) : v ∈ c ↔ Mutual (Joined additions) u v := by
  rw [h.together c hc u hu, successors_build]

theorem StrongComponents.holdsCycle_build (h : (build additions).StrongComponents components)
    (hc : c ∈ components) (hv : v ∈ c) :
    (build additions).holdsCycle c = true ↔ TransGen (Joined additions) v v := by
  rw [h.holdsCycle_iff (reflects_build additions).simple hc hv, successors_build]

/-! ## Groups as names -/

theorem mem_cyclicGroupsOf {g : Digraph} {group : List Text} :
    group ∈ g.cyclicGroupsOf components ↔
      ∃ c ∈ components, g.holdsCycle c = true ∧ sorted (c.map g.name) = group := by
  simp only [cyclicGroupsOf, List.mem_mergeSort, List.mem_map, List.mem_filter, and_assoc]

theorem StrongComponents.mem_names (h : (build additions).StrongComponents components)
    (hc : c ∈ components) :
    a ∈ sorted (c.map (build additions).name) ↔ ∃ v ∈ c, (build additions).id? a = some v := by
  rw [mem_sorted, mem_names_of_vertices fun v hv => h.lt_order hc hv]

/-- **The names of the cyclic groups** are those that lie on a cycle. -/
theorem exists_group_iff (h : (build additions).StrongComponents components) :
    (∃ group ∈ (build additions).cyclicGroupsOf components, a ∈ group) ↔
      TransGen (Linked additions) a a := by
  constructor
  · rintro ⟨group, hgroup, ha⟩
    obtain ⟨c, hc, cyclic, rfl⟩ := mem_cyclicGroupsOf.mp hgroup
    obtain ⟨v, hv, id⟩ := (h.mem_names hc).mp ha
    exact (transGen_joined_iff id id).mp ((h.holdsCycle_build hc hv).mp cyclic)
  · intro path
    obtain ⟨v, -, id, -⟩ := ids_of_path path
    have cycle := (transGen_joined_iff id id).mpr path
    obtain ⟨_, edge, -⟩ := TransGen.head'_iff.mp cycle
    obtain ⟨c, hc, hv⟩ := List.mem_flatten.mp ((h.covers v).mpr (lt_order_of_joined edge).1)
    exact ⟨_, mem_cyclicGroupsOf.mpr ⟨c, hc, (h.holdsCycle_build hc hv).mpr cycle, rfl⟩,
      (h.mem_names hc).mpr ⟨v, hv, id⟩⟩

/-- **A cyclic group holds what leads to and from any of its names.** -/
theorem mem_group_iff (h : (build additions).StrongComponents components) {group : List Text}
    (hgroup : group ∈ (build additions).cyclicGroupsOf components) (ha : a ∈ group) :
    b ∈ group ↔ a = b ∨ TransGen (Linked additions) a b ∧ TransGen (Linked additions) b a := by
  obtain ⟨c, hc, -, rfl⟩ := mem_cyclicGroupsOf.mp hgroup
  obtain ⟨u, hu, ida⟩ := (h.mem_names hc).mp ha
  rw [h.mem_names hc]
  constructor
  · rintro ⟨v, hv, idb⟩
    obtain rfl | ⟨there, back⟩ := mutual_iff.mp ((h.mem_iff hc hu).mp hv)
    · exact Or.inl (Option.some.inj ((name?_of_id? ida).symm.trans (name?_of_id? idb)))
    · exact Or.inr ⟨(transGen_joined_iff ida idb).mp there, (transGen_joined_iff idb ida).mp back⟩
  · rintro (rfl | ⟨there, back⟩)
    · exact ⟨u, hu, ida⟩
    · obtain ⟨-, v, -, idb⟩ := ids_of_path there
      refine ⟨v, (h.mem_iff hc hu).mpr (mutual_iff.mpr (Or.inr ⟨?_, ?_⟩)), idb⟩
      · exact (transGen_joined_iff ida idb).mpr there
      · exact (transGen_joined_iff idb ida).mpr back

/-- No group is empty, and each is strictly increasing. -/
theorem group_strict (h : (build additions).StrongComponents components) {group : List Text}
    (hgroup : group ∈ (build additions).cyclicGroupsOf components) :
    group ≠ [] ∧ group.Pairwise (· < ·) := by
  obtain ⟨c, hc, -, rfl⟩ := mem_cyclicGroupsOf.mp hgroup
  have once : c.Nodup := (List.nodup_flatten.mp h.once).1 c hc
  refine ⟨fun none => h.nonempty ?_, sorted_strict (nodup_names_of_vertices once fun v hv => ?_)⟩
  · have empty := (perm_sorted _).symm.trans (.of_eq none)
    rwa [← List.map_eq_nil_iff.mp empty.eq_nil]
  · exact h.lt_order hc hv

/-- **No name is in two groups.** -/
theorem groups_disjoint (h : (build additions).StrongComponents components) :
    ((build additions).cyclicGroupsOf components).Pairwise List.Disjoint := by
  have apart : (components.filter (build additions).holdsCycle).Pairwise fun c c' =>
      List.Disjoint (sorted (c.map (build additions).name))
        (sorted (c'.map (build additions).name)) := by
    refine List.Pairwise.imp_of_mem ?_ ((List.nodup_flatten.mp h.once).2.filter _)
    intro c c' hc hc' disjoint a ha ha'
    obtain ⟨v, hv, id⟩ := (h.mem_names (List.mem_filter.mp hc).1).mp ha
    obtain ⟨v', hv', id'⟩ := (h.mem_names (List.mem_filter.mp hc').1).mp ha'
    obtain rfl : v = v' := Option.some.inj (id.symm.trans id')
    exact disjoint hv hv'
  exact (List.mergeSort_perm _ _).symm.pairwise (List.pairwise_map.mpr apart) List.disjoint_symm

/-- **Groups come by their first names**, no two of which are the same. -/
theorem groups_strict (h : (build additions).StrongComponents components) :
    ((build additions).cyclicGroupsOf components).Pairwise fun group group' =>
      group.headD "" < group'.headD "" := by
  have first {group : List Text}
      (hgroup : group ∈ (build additions).cyclicGroupsOf components) : group.headD "" ∈ group := by
    cases group with
    | nil => exact absurd rfl (group_strict h hgroup).1
    | cons a rest => exact List.mem_cons_self
  refine List.Pairwise.imp_of_mem ?_ ((groups_disjoint h).and (pairwise_mergeSort_by _ _))
  rintro group group' hgroup hgroup' ⟨disjoint, le⟩
  exact Std.lt_of_le_of_ne le fun same => disjoint (first hgroup) (same ▸ first hgroup')

/-! ## Names on elementary cycles -/

variable {parts : Nat → List (List Nat)}

theorem mem_namedCyclesOf (strong : (build additions).StrongSince parts) {cycle : List Text} :
    cycle ∈ (build additions).namedCyclesOf parts ↔
      ∃ vs, ElementaryCycle (Joined additions) vs ∧ vs.map (build additions).name = cycle := by
  simp only [namedCyclesOf, List.mem_map, mem_elementaryCyclesOf strong]

/-- **The names of the elementary cycles** are those that lie on a cycle. -/
theorem exists_namedCycle_iff (strong : (build additions).StrongSince parts) :
    (∃ cycle ∈ (build additions).namedCyclesOf parts, a ∈ cycle) ↔
      TransGen (Linked additions) a a := by
  have named {vs : List Nat} (elementary : ElementaryCycle (Joined additions) vs) :
      a ∈ vs.map (build additions).name ↔ ∃ v ∈ vs, (build additions).id? a = some v :=
    mem_names_of_vertices elementary.lt_order
  constructor
  · rintro ⟨cycle, hcycle, ha⟩
    obtain ⟨vs, elementary, rfl⟩ := (mem_namedCyclesOf strong).mp hcycle
    obtain ⟨v, hv, id⟩ := (named elementary).mp ha
    exact (transGen_joined_iff id id).mp (transGen_self_iff_elementary.mpr ⟨vs, elementary, hv⟩)
  · intro path
    obtain ⟨v, -, id, -⟩ := ids_of_path path
    obtain ⟨vs, elementary, hv⟩ :=
      transGen_self_iff_elementary.mp ((transGen_joined_iff id id).mpr path)
    exact ⟨_, (mem_namedCyclesOf strong).mpr ⟨vs, elementary, rfl⟩,
      (named elementary).mpr ⟨v, hv, id⟩⟩

/-- Vertices lead back to each other, or are the same, when their names do. -/
theorem leadsBack_iff (ida : (build additions).id? a = some u)
    (idb : (build additions).id? b = some v) :
    ReflTransGen (Joined additions) v u ↔ a = b ∨ TransGen (Linked additions) b a := by
  have same : u = v ↔ a = b := by
    constructor
    · rintro rfl
      exact Option.some.inj ((name?_of_id? ida).symm.trans (name?_of_id? idb))
    · rintro rfl
      exact Option.some.inj (ida.symm.trans idb)
  rw [Relation.reflTransGen_iff_eq_or_transGen, transGen_joined_iff idb ida, same]

/-- **Two names are neighbours on an elementary cycle** when there is an edge from the first to the
second, and the second is the first or leads back to it. -/
theorem exists_namedCycle_through_iff (strong : (build additions).StrongSince parts) :
    (∃ cycle ∈ (build additions).namedCyclesOf parts, [a, b] <:+: cycle) ↔
      Linked additions a b ∧ (a = b ∨ TransGen (Linked additions) b a) := by
  constructor
  · rintro ⟨cycle, hcycle, neighbours⟩
    obtain ⟨vs, elementary, rfl⟩ := (mem_namedCyclesOf strong).mp hcycle
    obtain ⟨pair, here, names⟩ := List.infix_map_iff.mp neighbours
    obtain ⟨u, v, rfl⟩ : ∃ u v, pair = [u, v] :=
      List.length_eq_two.mp (by simpa using (congrArg List.length names).symm)
    obtain ⟨ha, hb⟩ : a = (build additions).name u ∧ b = (build additions).name v := by
      simpa using names
    have id {w : Nat} (hw : w ∈ [u, v]) :
        (build additions).id? ((build additions).name w) = some w :=
      id?_build_iff.mpr (name?_eq_name (elementary.lt_order w (here.subset hw)))
    have ida := ha ▸ id List.mem_cons_self
    have idb := hb ▸ id (List.mem_cons_of_mem _ List.mem_cons_self)
    obtain ⟨edge, back⟩ := exists_elementary_through_iff.mp ⟨vs, elementary, here⟩
    exact ⟨(joined_iff ida idb).mp edge, (leadsBack_iff ida idb).mp back⟩
  · rintro ⟨edge, back⟩
    obtain ⟨u, v, ida, idb⟩ := ids_of_edge edge
    obtain ⟨vs, elementary, here⟩ := exists_elementary_through_iff.mpr
      ⟨(joined_iff ida idb).mpr edge, (leadsBack_iff ida idb).mpr back⟩
    refine ⟨_, (mem_namedCyclesOf strong).mpr ⟨vs, elementary, rfl⟩, ?_⟩
    have names := here.map (build additions).name
    rwa [List.map_cons, List.map_cons, name_of_name? (name?_of_id? ida),
      name_of_name? (name?_of_id? idb)] at names

end PhpAudit.Digraph
