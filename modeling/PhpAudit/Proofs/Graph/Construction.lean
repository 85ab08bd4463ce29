import Mathlib.Data.List.Induction
import Mathlib.Data.List.Nodup
import PhpAudit.Graph.Basic

/-!
# Graphs as they are built

A graph comes about by adding vertices and edges to the empty one, in any order and any number of
times. `build` is that: additions one after the other.

What holds of every built graph: a name is one vertex, an edge joins vertices of the graph, and
there is an edge between two vertices exactly when one was added between their names
(`hasEdge_build`). Adding something twice, or a vertex after its edges, changes nothing of that.
-/

namespace PhpAudit.Digraph

/-- **One addition** to a graph. -/
inductive Addition where
  | vertex (name : Text)
  | edge (source target : Text)
deriving DecidableEq, Repr

/-- The graph after an addition. -/
def extend (g : Digraph) : Addition → Digraph
  | .vertex name => (g.addVertex name).2
  | .edge source target => g.addEdge source target

/-- **The graph of a list of additions**, made one after the other. -/
def build (additions : List Addition) : Digraph := additions.foldl extend empty

/-! ## Adding a vertex -/

variable {g : Digraph}

theorem name?_of_id? {name : Text} {v : Nat} (h : g.id? name = some v) : g.name? v = some name := by
  obtain ⟨hv, hname, _⟩ := List.findIdx?_eq_some_iff_getElem.mp h
  rw [name?, List.getElem?_eq_getElem hv, beq_iff_eq.mp hname]

theorem name?_eq_name {v : Nat} (h : v < g.order) : g.name? v = some (g.name v) := by
  simp [Digraph.name, Digraph.name?, List.getElem?_eq_getElem h]

/-- The name of a vertex finds it, since no other vertex has that name. -/
theorem id?_of_name? (unique : g.names.Nodup) {name : Text} {v : Nat} (h : g.name? v = some name) :
    g.id? name = some v := by
  obtain ⟨hv, rfl⟩ := List.getElem?_eq_some_iff.mp h
  refine List.findIdx?_eq_some_iff_getElem.mpr ⟨hv, by simp, ?_⟩
  intro j hj heq
  have : j = v := (List.Nodup.getElem_inj_iff unique).mp (beq_iff_eq.mp heq)
  omega

theorem not_mem_names_of_id? {name : Text} (h : g.id? name = none) : name ∉ g.names := by
  intro hmem
  have := List.findIdx?_eq_none_iff.mp h name hmem
  simp at this

@[simp] theorem arcs_addVertex (g : Digraph) (name : Text) :
    (g.addVertex name).2.arcs = g.arcs := by
  unfold addVertex
  split <;> rfl

@[simp] theorem loops_addVertex (g : Digraph) (name : Text) :
    (g.addVertex name).2.loops = g.loops := by
  unfold addVertex
  split <;> rfl

@[simp] theorem hasEdge_addVertex (g : Digraph) (name : Text) (u v : Nat) :
    (g.addVertex name).2.hasEdge u v = g.hasEdge u v := by
  simp only [hasEdge, hasLoop, arcs_addVertex, loops_addVertex]

/-- The vertices that are there keep their places. -/
theorem names_addVertex (g : Digraph) (name : Text) : g.names <+: (g.addVertex name).2.names := by
  unfold addVertex
  split
  · exact List.prefix_refl _
  · exact List.prefix_append _ _

theorem nodup_addVertex (unique : g.names.Nodup) (name : Text) :
    (g.addVertex name).2.names.Nodup := by
  unfold addVertex
  split
  · exact unique
  · next h =>
    have absent := not_mem_names_of_id? h
    exact unique.append (by simp) (List.disjoint_singleton.mpr absent)

theorem id?_addVertex (g : Digraph) (name : Text) :
    (g.addVertex name).2.id? name = some (g.addVertex name).1 := by
  cases h : g.id? name with
  | some v => simp only [addVertex, h]
  | none =>
    have absent : g.names.findIdx? (· == name) = none := h
    have unfolded : g.addVertex name = (g.order, { g with names := g.names ++ [name] }) := by
      simp only [addVertex, h]
    rw [unfolded, id?, List.findIdx?_append, absent]
    simp [order]

/-! ## What longer lists of names keep -/

/-- A graph keeps the vertices of another: its names start with the names of the other. -/
def Keeps (g h : Digraph) : Prop := h.names <+: g.names

theorem Keeps.id? {g h : Digraph} (keeps : g.Keeps h) {name : Text} {v : Nat}
    (found : h.id? name = some v) : g.id? name = some v := by
  obtain ⟨more, hmore⟩ := keeps
  have h' : h.names.findIdx? (· == name) = some v := found
  rw [Digraph.id?, ← hmore, List.findIdx?_append, h', Option.some_or]

theorem Keeps.trans {g h k : Digraph} (first : g.Keeps h) (second : h.Keeps k) : g.Keeps k :=
  List.IsPrefix.trans second first

theorem keeps_addVertex (g : Digraph) (name : Text) : (g.addVertex name).2.Keeps g :=
  names_addVertex g name

/-! ## Adding an edge -/

@[simp] theorem names_join (g : Digraph) (u v : Nat) : (g.join u v).names = g.names := by
  unfold join
  split <;> split <;> rfl

/-- Two vertices that are joined get an edge, and no others do. -/
theorem hasEdge_join (g : Digraph) (u v x y : Nat) : (g.join u v).hasEdge x y = true ↔
    g.hasEdge x y = true ∨ (x, y) = (u, v) := by
  unfold join hasEdge hasLoop
  split
  · split
    · grind
    · simp only [List.contains_iff_mem]
      grind
  · split
    · grind
    · simp only [List.contains_iff_mem]
      grind

/-- **What adding an edge does**: both names have vertices afterwards, and the edges are those there
were and the one between these two. -/
theorem addEdge_spec (g : Digraph) (source target : Text) :
    ∃ u v, (g.addEdge source target).id? source = some u ∧
      (g.addEdge source target).id? target = some v ∧ (g.addEdge source target).Keeps g ∧
      ∀ x y, (g.addEdge source target).hasEdge x y = true ↔
        g.hasEdge x y = true ∨ (x, y) = (u, v) := by
  let g₁ := (g.addVertex source).2
  let g₂ := (g₁.addVertex target).2
  let u := (g.addVertex source).1
  let v := (g₁.addVertex target).1
  have keeps₁ : g₁.Keeps g := keeps_addVertex g source
  have keeps₂ : g₂.Keeps g₁ := keeps_addVertex g₁ target
  have hsource : g₂.id? source = some u := keeps₂.id? (id?_addVertex g source)
  have htarget : g₂.id? target = some v := id?_addVertex g₁ target
  have unfolded : g.addEdge source target = g₂.join u v := rfl
  refine ⟨u, v, ?_⟩
  rw [unfolded]
  simp only [Digraph.id?, Keeps, names_join, hasEdge_join]
  refine ⟨hsource, htarget, keeps₂.trans keeps₁, fun x y => ?_⟩
  simp only [g₂, g₁, hasEdge_addVertex]

theorem nodup_addEdge (unique : g.names.Nodup) (source target : Text) :
    (g.addEdge source target).names.Nodup := by
  rw [addEdge, names_join]
  exact nodup_addVertex (nodup_addVertex unique source) target

/-- **Arcs join different vertices**, and each is listed once. -/
structure Simple (g : Digraph) : Prop where
  once : g.arcs.Nodup
  apart : ∀ e ∈ g.arcs, e.1 ≠ e.2

theorem Simple.addVertex (h : g.Simple) (name : Text) : (g.addVertex name).2.Simple :=
  ⟨(arcs_addVertex g name).symm ▸ h.once, (arcs_addVertex g name).symm ▸ h.apart⟩

theorem Simple.join (h : g.Simple) (u v : Nat) : (g.join u v).Simple := by
  unfold Digraph.join
  split
  · split
    · exact h
    · exact ⟨h.once, h.apart⟩
  · next different =>
    split
    · exact h
    · next absent =>
      rw [List.contains_iff_mem] at absent
      refine ⟨h.once.append (by simp) (List.disjoint_singleton.mpr absent), ?_⟩
      intro e he
      obtain he | he := List.mem_append.mp he
      · exact h.apart e he
      · obtain rfl := List.mem_singleton.mp he
        exact different

/-! ## Every built graph -/

/-- **What is true of a graph after some additions**: its names are distinct, and its edges are the
added ones, as vertices. -/
structure Reflects (g : Digraph) (additions : List Addition) : Prop where
  unique : g.names.Nodup
  simple : g.Simple
  added : ∀ u v, g.hasEdge u v = true →
    ∃ a b, .edge a b ∈ additions ∧ g.id? a = some u ∧ g.id? b = some v
  kept : ∀ a b, .edge a b ∈ additions →
    ∃ u v, g.id? a = some u ∧ g.id? b = some v ∧ g.hasEdge u v = true

theorem Reflects.extend {additions : List Addition} (h : g.Reflects additions) (x : Addition) :
    (g.extend x).Reflects (additions ++ [x]) := by
  cases x with
  | vertex name =>
    have keeps := keeps_addVertex g name
    refine ⟨nodup_addVertex h.unique name, h.simple.addVertex name, ?_, ?_⟩
    · intro u v huv
      rw [Digraph.extend, hasEdge_addVertex] at huv
      obtain ⟨a, b, hab, ha, hb⟩ := h.added u v huv
      exact ⟨a, b, List.mem_append_left _ hab, keeps.id? ha, keeps.id? hb⟩
    · intro a b hab
      obtain ⟨u, v, hu, hv, huv⟩ := h.kept a b (by simpa using hab)
      refine ⟨u, v, keeps.id? hu, keeps.id? hv, ?_⟩
      rwa [Digraph.extend, hasEdge_addVertex]
  | edge source target =>
    obtain ⟨u, v, hu, hv, keeps, edges⟩ := addEdge_spec g source target
    refine ⟨nodup_addEdge h.unique source target,
      ((h.simple.addVertex source).addVertex target).join _ _, ?_, ?_⟩
    · intro x y hxy
      obtain old | new := (edges x y).mp hxy
      · obtain ⟨a, b, hab, ha, hb⟩ := h.added x y old
        exact ⟨a, b, List.mem_append_left _ hab, keeps.id? ha, keeps.id? hb⟩
      · obtain ⟨rfl, rfl⟩ := Prod.mk.inj new
        exact ⟨source, target, by simp, hu, hv⟩
    · intro a b hab
      rcases List.mem_append.mp hab with old | new
      · obtain ⟨u', v', hu', hv', huv⟩ := h.kept a b old
        exact ⟨u', v', keeps.id? hu', keeps.id? hv', (edges u' v').mpr (Or.inl huv)⟩
      · obtain ⟨rfl, rfl⟩ : a = source ∧ b = target := by simpa using new
        exact ⟨u, v, hu, hv, (edges u v).mpr (Or.inr rfl)⟩

theorem build_concat (additions : List Addition) (x : Addition) :
    build (additions ++ [x]) = (build additions).extend x := by
  simp [build]

/-- A built graph has the vertices and edges that were added. -/
theorem reflects_build (additions : List Addition) : (build additions).Reflects additions := by
  induction additions using List.reverseRecOn with
  | nil => exact ⟨List.nodup_nil, ⟨List.nodup_nil, by simp [build, empty]⟩,
      by simp [build, empty, hasEdge, hasLoop], by simp⟩
  | append_singleton additions x ih =>
    rw [build_concat]
    exact ih.extend x

/-- **Two vertices are joined** when an edge was added between their names. -/
def Joined (additions : List Addition) (u v : Nat) : Prop :=
  ∃ a b, Addition.edge a b ∈ additions ∧
    (build additions).name? u = some a ∧ (build additions).name? v = some b

/-- **The edges of a built graph** are the added ones. -/
theorem hasEdge_build (additions : List Addition) (u v : Nat) :
    (build additions).hasEdge u v = true ↔ Joined additions u v := by
  have h := reflects_build additions
  constructor
  · intro huv
    obtain ⟨a, b, hab, ha, hb⟩ := h.added u v huv
    exact ⟨a, b, hab, name?_of_id? ha, name?_of_id? hb⟩
  · rintro ⟨a, b, hab, ha, hb⟩
    obtain ⟨u', v', hu', hv', huv⟩ := h.kept a b hab
    have hu : u' = u := Option.some.inj (hu'.symm.trans (id?_of_name? h.unique ha))
    have hv : v' = v := Option.some.inj (hv'.symm.trans (id?_of_name? h.unique hb))
    rwa [← hu, ← hv]

/-! ## Successors -/

/-- An edge of a built graph joins two of its vertices. -/
theorem lt_order_of_joined {additions : List Addition} {u v : Nat} (h : Joined additions u v) :
    u < (build additions).order ∧ v < (build additions).order := by
  obtain ⟨a, b, _, ha, hb⟩ := h
  exact ⟨(List.getElem?_eq_some_iff.mp ha).1, (List.getElem?_eq_some_iff.mp hb).1⟩

theorem mem_arcTargets_iff {u v : Nat} : v ∈ g.arcTargets u ↔ (u, v) ∈ g.arcs := by
  simp [arcTargets]

theorem mem_arcSources_iff {u v : Nat} : u ∈ g.arcSources v ↔ (u, v) ∈ g.arcs := by
  simp [arcSources]

theorem mem_loopAt_iff {u v : Nat} : v ∈ g.loopAt u ↔ v = u ∧ g.hasLoop u = true := by
  unfold loopAt
  split <;> simp_all

theorem mem_successors_iff {u v : Nat} :
    v ∈ g.successors u ↔ v < g.order ∧ ((u, v) ∈ g.arcs ∨ v = u ∧ g.hasLoop u = true) := by
  simp only [successors, List.mem_filter, List.mem_range, List.contains_iff_mem, List.mem_append,
    mem_arcTargets_iff, mem_loopAt_iff]

/-- An edge is an arc or a loop, never both. -/
theorem Simple.hasEdge_iff (h : g.Simple) {u v : Nat} :
    g.hasEdge u v = true ↔ (u, v) ∈ g.arcs ∨ v = u ∧ g.hasLoop u = true := by
  unfold hasEdge
  split
  · next same =>
    subst same
    exact ⟨fun loop => Or.inr ⟨rfl, loop⟩, fun edge =>
      edge.elim (fun arc => absurd rfl (h.apart _ arc)) And.right⟩
  · next different =>
    rw [List.contains_iff_mem]
    exact ⟨Or.inl, fun edge => edge.resolve_right fun same => different same.1.symm⟩

/-- Successors come by increasing number. -/
theorem successors_increasing (g : Digraph) (u : Nat) : (g.successors u).Pairwise (· < ·) :=
  List.Pairwise.filter _ List.pairwise_lt_range

/-- The successors of a vertex of a built graph are those it is joined to. -/
theorem mem_successors_build {additions : List Addition} {u v : Nat} :
    v ∈ (build additions).successors u ↔ Joined additions u v := by
  rw [mem_successors_iff, ← (reflects_build additions).simple.hasEdge_iff, hasEdge_build]
  exact ⟨And.right, fun h => ⟨(lt_order_of_joined h).2, h⟩⟩

end PhpAudit.Digraph
