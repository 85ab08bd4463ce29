import Mathlib.Data.List.Nodup
import Mathlib.Logic.Relation
import PhpAudit.Graph.Reach
import PhpAudit.Proofs.Graph.Reachability

/-!
# Strong components

The strong components of a graph list its vertices, each once, and two vertices are in one when a
path, possibly none, leads from each to the other (`StrongComponents`). The components here are such
a list for every graph (`strongComponents_spec`), and nothing more is asked of one for what follows.

**The law** (`StrongComponents.holdsCycle_iff`): a component that is said to hold a cycle is one whose
vertices lie on cycles. Two vertices in a component do, since one leads to the other and back; a
single vertex does only when it has a loop, since no path from it can leave it and come back.

Of the vertices from a number on the components are taken in a graph where the others have no edges
(`mem_successors_since`). A vertex below that number is then a component by itself, and lies on no
cycle there, also when it has a loop in the whole graph (`StrongComponents.cyclic_iff`).
-/

namespace PhpAudit

open Relation (TransGen ReflTransGen)

/-- **Two vertices lead to each other** along edges, or are the same. -/
def Mutual (r : Nat → Nat → Prop) (u v : Nat) : Prop := ReflTransGen r u v ∧ ReflTransGen r v u

section Mutual

variable {r : Nat → Nat → Prop} {u v w : Nat}

theorem Mutual.refl (r : Nat → Nat → Prop) (u : Nat) : Mutual r u u := ⟨.refl, .refl⟩

theorem Mutual.symm (h : Mutual r u v) : Mutual r v u := ⟨h.2, h.1⟩

theorem Mutual.trans (h : Mutual r u v) (h' : Mutual r v w) : Mutual r u w :=
  ⟨h.1.trans h'.1, h'.2.trans h.2⟩

theorem mutual_iff : Mutual r u v ↔ u = v ∨ TransGen r u v ∧ TransGen r v u := by
  rw [Mutual, Relation.reflTransGen_iff_eq_or_transGen, Relation.reflTransGen_iff_eq_or_transGen]
  grind

/-- A vertex that is mutual with one on a cycle lies on a cycle with it. -/
theorem mutual_iff_of_cyclic (cyclic : TransGen r u u) :
    Mutual r u v ↔ TransGen r u v ∧ TransGen r v u := by
  rw [mutual_iff]
  exact ⟨fun h => h.elim (fun same => same ▸ ⟨cyclic, cyclic⟩) id, Or.inr⟩

end Mutual

/-! ## The components here -/

namespace Adjacency

variable {a : Adjacency} {u v : Nat}

theorem mem_component (bounded : a.Bounded) : v ∈ a.component u ↔ Mutual a.Edge u v := by
  unfold component
  split
  · next cyclic =>
    rw [reaches_iff bounded] at cyclic
    rw [mutual_iff_of_cyclic cyclic, List.mem_filter, mem_reachable bounded, reaches_iff bounded]
  · next acyclic =>
    rw [reaches_iff bounded] at acyclic
    rw [mutual_iff, List.mem_singleton]
    exact ⟨fun same => Or.inl same.symm, fun h =>
      h.elim Eq.symm fun there => absurd (there.1.trans there.2) acyclic⟩

theorem nodup_component (a : Adjacency) (u : Nat) : (a.component u).Nodup := by
  unfold component
  split
  · exact (nodup_reachable a u).filter _
  · exact List.nodup_singleton u

/-- Every component is that of a vertex of the list. -/
theorem eq_component_of_mem {c : List Nat} {vs : List Nat} (hc : c ∈ a.components vs) :
    ∃ u ∈ vs, c = a.component u := by
  induction vs with
  | nil => cases hc
  | cons v vs ih =>
    rw [components] at hc
    have later (hc : c ∈ a.components vs) : ∃ u ∈ v :: vs, c = a.component u := by
      obtain ⟨u, hu, rfl⟩ := ih hc
      exact ⟨u, List.mem_cons_of_mem v hu, rfl⟩
    split at hc
    · exact later hc
    · obtain rfl | hc := List.mem_cons.mp hc
      · exact ⟨v, List.mem_cons_self, rfl⟩
      · exact later hc

/-- Every vertex of the list is in a component. -/
theorem mem_flatten_components (bounded : a.Bounded) {vs : List Nat} (hu : u ∈ vs) :
    u ∈ (a.components vs).flatten := by
  induction vs with
  | nil => cases hu
  | cons v vs ih =>
    rw [components]
    obtain rfl | hu := List.mem_cons.mp hu
    · split
      · next listed =>
        obtain ⟨c, hc, hu⟩ := List.any_eq_true.mp listed
        exact List.mem_flatten.mpr ⟨c, hc, List.contains_iff_mem.mp hu⟩
      · exact List.mem_append_left _ ((mem_component bounded).mpr (.refl _ _))
    · split
      · exact ih hu
      · exact List.mem_append_right _ (ih hu)

/-- No vertex is in two components: both would be the component of that vertex. -/
theorem nodup_flatten_components (bounded : a.Bounded) (vs : List Nat) :
    (a.components vs).flatten.Nodup := by
  induction vs with
  | nil => exact List.nodup_nil
  | cons v vs ih =>
    rw [components]
    split
    · exact ih
    · next fresh =>
      refine List.Nodup.append (nodup_component a v) ih fun w hv hw => fresh ?_
      obtain ⟨c, hc, hw⟩ := List.mem_flatten.mp hw
      obtain ⟨u, -, rfl⟩ := eq_component_of_mem hc
      rw [mem_component bounded] at hv hw
      refine List.any_eq_true.mpr ⟨_, hc, List.contains_iff_mem.mpr ?_⟩
      exact (mem_component bounded).mpr (hw.trans hv.symm)

end Adjacency

namespace Digraph

/-- **The strong components** of a graph: its vertices, each once, and in one component those that lead
to each other. -/
structure StrongComponents (g : Digraph) (components : List (List Nat)) : Prop where
  nonempty : [] ∉ components
  once : components.flatten.Nodup
  covers : ∀ v, v ∈ components.flatten ↔ v < g.order
  together : ∀ c ∈ components, ∀ u ∈ c, ∀ v, v ∈ c ↔ Mutual (fun x y => y ∈ g.successors x) u v

variable {g : Digraph} {components : List (List Nat)} {c : List Nat} {u v least : Nat}

/-- A path from a vertex stays in the graph, so the adjacency has all its edges. -/
theorem path_adjacency (path : ReflTransGen (fun x y => y ∈ g.successors x) u v) (hu : u < g.order) :
    v < g.order ∧ ReflTransGen g.adjacency.Edge u v := by
  induction path with
  | refl => exact ⟨hu, .refl⟩
  | tail _ edge ih =>
    obtain ⟨inside, path⟩ := ih
    exact ⟨(mem_successors_iff.mp edge).1, path.tail (mem_successors_adjacency.mpr ⟨inside, edge⟩)⟩

theorem mutual_adjacency (hu : u < g.order) :
    Mutual g.adjacency.Edge u v ↔ Mutual (fun x y => y ∈ g.successors x) u v := by
  have edge (x y : Nat) (edge : g.adjacency.Edge x y) : y ∈ g.successors x :=
    (mem_successors_adjacency.mp edge).2
  constructor
  · exact fun h => ⟨ReflTransGen.mono edge _ _ h.1, ReflTransGen.mono edge _ _ h.2⟩
  · rintro ⟨there, back⟩
    obtain ⟨hv, there⟩ := path_adjacency there hu
    exact ⟨there, (path_adjacency back hv).2⟩

/-- **The components here are the strong components**, whatever the graph. -/
theorem strongComponents_spec (g : Digraph) : g.StrongComponents g.strongComponents := by
  have bounded := bounded_adjacency g
  have member {u v : Nat} (hu : u < g.order) :
      v ∈ g.adjacency.component u ↔ Mutual (fun x y => y ∈ g.successors x) u v := by
    rw [Adjacency.mem_component bounded, mutual_adjacency hu]
  have ofVertex {c : List Nat} (hc : c ∈ g.strongComponents) :
      ∃ u < g.order, c = g.adjacency.component u := by
    obtain ⟨u, hu, rfl⟩ := Adjacency.eq_component_of_mem hc
    exact ⟨u, List.mem_range.mp hu, rfl⟩
  have inside {u v : Nat} (hu : u < g.order) (hv : v ∈ g.adjacency.component u) : v < g.order :=
    (path_adjacency ((member hu).mp hv).1 hu).1
  refine ⟨?_, Adjacency.nodup_flatten_components bounded _, fun v => ⟨fun hv => ?_, fun hv => ?_⟩, ?_⟩
  · intro hc
    obtain ⟨u, hu, none⟩ := ofVertex hc
    exact List.not_mem_nil (none ▸ (member hu).mpr (.refl _ u))
  · obtain ⟨c, hc, hv⟩ := List.mem_flatten.mp hv
    obtain ⟨u, hu, rfl⟩ := ofVertex hc
    exact inside hu hv
  · exact Adjacency.mem_flatten_components bounded (List.mem_range.mpr hv)
  · intro c hc u hu v
    obtain ⟨w, hw, rfl⟩ := ofVertex hc
    have here := (member hw).mp hu
    rw [member hw]
    exact ⟨fun hv => here.symm.trans hv, here.trans⟩

/-- The vertices of a component are vertices of the graph. -/
theorem StrongComponents.lt_order (h : g.StrongComponents components) (hc : c ∈ components)
    (hv : v ∈ c) : v < g.order :=
  (h.covers v).mp (List.mem_flatten.mpr ⟨c, hc, hv⟩)

/-! ## Components that hold a cycle -/

/-- A vertex is its own successor when it has a loop. -/
theorem Simple.mem_successors_self (simple : g.Simple) (hv : v < g.order) :
    v ∈ g.successors v ↔ g.hasLoop v = true := by
  rw [mem_successors_iff, and_iff_right hv]
  exact ⟨fun edge => edge.elim (fun arc => absurd rfl (simple.apart _ arc)) And.right,
    fun loop => Or.inr ⟨rfl, loop⟩⟩

/-- **A component holds a cycle** when its vertices lie on one. -/
theorem StrongComponents.holdsCycle_iff (h : g.StrongComponents components) (simple : g.Simple)
    (hc : c ∈ components) (hv : v ∈ c) :
    g.holdsCycle c = true ↔ TransGen (fun x y => y ∈ g.successors x) v v := by
  have once : c.Nodup := (List.nodup_flatten.mp h.once).1 c hc
  match c, hv with
  | [w], hv =>
    obtain rfl := List.mem_singleton.mp hv
    have loop := simple.mem_successors_self (h.lt_order hc hv)
    suffices v ∈ g.successors v ↔ TransGen (fun x y => y ∈ g.successors x) v v by
      simpa [holdsCycle, ← loop] using this
    refine ⟨fun edge => .single edge, fun cycle => ?_⟩
    obtain ⟨w, edge, back⟩ := TransGen.head'_iff.mp cycle
    have inside : w ∈ [v] := (h.together _ hc v hv w).mpr ⟨.single edge, back⟩
    rwa [List.mem_singleton.mp inside] at edge
  | w :: w' :: rest, hv =>
    refine iff_of_true (by simp [holdsCycle]) ?_
    obtain ⟨x, hx, other⟩ : ∃ x ∈ w :: w' :: rest, x ≠ v := by
      by_cases first : w = v
      · have different : w ≠ w' := by simp at once; tauto
        exact ⟨w', by simp, fun h => different (first.trans h.symm)⟩
      · exact ⟨w, by simp, first⟩
    obtain same | ⟨there, back⟩ := mutual_iff.mp ((h.together _ hc v hv x).mp hx)
    · exact absurd same.symm other
    · exact there.trans back

/-! ## The vertices from a number on -/

/-- **Strong components from each number on**: those of the vertices that are not below it. -/
def StrongSince (g : Digraph) (components : Nat → List (List Nat)) : Prop :=
  ∀ least, (g.since least).StrongComponents (components least)

theorem strongSince_componentsSince (g : Digraph) : g.StrongSince g.componentsSince :=
  fun least => strongComponents_spec (g.since least)

@[simp] theorem order_since (g : Digraph) (least : Nat) : (g.since least).order = g.order := rfl

theorem hasLoop_since : (g.since least).hasLoop v = true ↔ least ≤ v ∧ g.hasLoop v = true := by
  simp [hasLoop, since, and_comm]

/-- **The successors from a number on** are the successors among the vertices from there on. -/
theorem mem_successors_since :
    v ∈ (g.since least).successors u ↔ least ≤ u ∧ least ≤ v ∧ v ∈ g.successors u := by
  have arcs : (u, v) ∈ (g.since least).arcs ↔ (least ≤ u ∧ least ≤ v) ∧ (u, v) ∈ g.arcs := by
    simp [since, and_comm]
  rw [mem_successors_iff, mem_successors_iff, arcs, hasLoop_since, order_since]
  constructor
  · rintro ⟨hv, ⟨⟨hu, hv'⟩, arc⟩ | ⟨rfl, hu, loop⟩⟩
    · exact ⟨hu, hv', hv, Or.inl arc⟩
    · exact ⟨hu, hu, hv, Or.inr ⟨rfl, loop⟩⟩
  · rintro ⟨hu, hv', hv, arc | ⟨rfl, loop⟩⟩
    · exact ⟨hv, Or.inl ⟨⟨hu, hv'⟩, arc⟩⟩
    · exact ⟨hv, Or.inr ⟨rfl, hu, loop⟩⟩

theorem Simple.since (simple : g.Simple) (least : Nat) : (g.since least).Simple :=
  ⟨simple.once.filter _, fun e he => simple.apart e (List.mem_filter.mp he).1⟩

/-- A component of vertices from there on holds a cycle in both graphs, or in neither. -/
theorem holdsCycle_since (above : least ≤ c.headD 0) : (g.since least).holdsCycle c = g.holdsCycle c := by
  have loop : (g.since least).hasLoop (c.headD 0) = g.hasLoop (c.headD 0) := by
    rw [Bool.eq_iff_iff, hasLoop_since, and_iff_right above]
  rw [holdsCycle, holdsCycle, loop]

/-- **A component that is looked at** is one whose vertices lie on cycles of the vertices from there on. -/
theorem StrongComponents.cyclic_iff (h : (g.since least).StrongComponents components)
    (simple : g.Simple) (hc : c ∈ components) (hv : v ∈ c) :
    least ≤ c.headD 0 ∧ g.holdsCycle c = true ↔
      TransGen (fun x y => y ∈ (g.since least).successors x) v v := by
  have cyclic := h.holdsCycle_iff (simple.since least) hc hv
  have head : c.headD 0 ∈ c := by
    cases c with
    | nil => cases hv
    | cons w rest => exact List.mem_cons_self
  constructor
  · rintro ⟨above, holds⟩
    rw [← cyclic, holdsCycle_since above]
    exact holds
  · intro cycle
    -- the first vertex lies on a cycle too, and there is none through a vertex below
    have first := (h.holdsCycle_iff (simple.since least) hc head).mp (cyclic.mpr cycle)
    obtain ⟨_, edge, -⟩ := TransGen.head'_iff.mp first
    have above := (mem_successors_since.mp edge).1
    exact ⟨above, holdsCycle_since above ▸ cyclic.mpr cycle⟩

end Digraph

end PhpAudit
