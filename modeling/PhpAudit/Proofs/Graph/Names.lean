import Mathlib.Data.List.Nodup
import PhpAudit.Proofs.Graph.Construction

/-!
# Built graphs by their names

What a built graph answers when it is asked by names. Its names are those in the additions, an edge
between two names is one that was added, and the successors and the predecessors of a name are its
edges forwards and backwards.

**The law** (`mem_successorNames_build`, `successorNames_strict`): such an answer has the right
members and is strictly increasing, so it does not depend on the order of the additions or on how
often each was made (`eq_of_strict`). That a loop is not an arc, and an arc is listed once, is what
keeps a name from being listed twice.
-/

namespace PhpAudit.Digraph

/-! ## Names in order -/

@[simp] theorem mem_sorted {names : List Text} {a : Text} : a ∈ sorted names ↔ a ∈ names :=
  List.mem_mergeSort

theorem perm_sorted (names : List Text) : (sorted names).Perm names := List.mergeSort_perm _ _

/-- What is put in order by names comes by increasing names. -/
theorem pairwise_mergeSort_by {α : Type} (name : α → Text) (l : List α) :
    (l.mergeSort fun a b => decide (name a ≤ name b)).Pairwise fun a b => name a ≤ name b := by
  have increasing : (l.mergeSort fun a b => decide (name a ≤ name b)).Pairwise fun a b =>
      decide (name a ≤ name b) := by
    apply List.pairwise_mergeSort
    · intro a b c
      simp only [decide_eq_true_eq]
      exact Std.le_trans
    · intro a b
      simp only [Bool.or_eq_true, decide_eq_true_eq]
      exact Std.le_total
  exact increasing.imp of_decide_eq_true

/-- Names that are distinct are strictly increasing when they are in order. -/
theorem sorted_strict {names : List Text} (unique : names.Nodup) :
    (sorted names).Pairwise (· < ·) := by
  have different : (sorted names).Pairwise (· ≠ ·) := (perm_sorted names).nodup_iff.mpr unique
  refine List.Pairwise.imp ?_ ((pairwise_mergeSort_by id names).and different)
  rintro a b ⟨le, ne⟩
  exact Std.lt_of_le_of_ne le ne

/-- **A strictly increasing list of names is given by its members.** -/
theorem eq_of_strict {names names' : List Text} (strict : names.Pairwise (· < ·))
    (strict' : names'.Pairwise (· < ·)) (same : ∀ a, a ∈ names ↔ a ∈ names') : names = names' := by
  have unique {l : List Text} (h : l.Pairwise (· < ·)) : l.Nodup := h.imp Std.ne_of_lt
  have perm : names.Perm names' :=
    (List.perm_ext_iff_of_nodup (unique strict) (unique strict')).mpr same
  exact perm.eq_of_pairwise (fun _ _ _ _ h h' => absurd h' (Std.not_gt_of_lt h)) strict strict'

/-! ## The names of a built graph -/

/-- The names in an addition. -/
def Addition.names : Addition → List Text
  | .vertex a => [a]
  | .edge a b => [a, b]

theorem mem_names_addVertex {g : Digraph} {name a : Text} :
    a ∈ (g.addVertex name).2.names ↔ a ∈ g.names ∨ a = name := by
  unfold addVertex
  split
  · next found =>
    have there : name ∈ g.names := List.mem_of_getElem? (name?_of_id? found)
    exact ⟨Or.inl, fun h => h.elim id fun same => same ▸ there⟩
  · simp

/-- **The names of a built graph** are those of its additions. -/
theorem mem_names_build {additions : List Addition} {a : Text} :
    a ∈ (build additions).names ↔ ∃ x ∈ additions, a ∈ x.names := by
  induction additions using List.reverseRecOn with
  | nil => simp [build, empty]
  | append_singleton additions x ih =>
    simp only [build_concat, List.mem_append, List.mem_singleton, or_and_right, exists_or,
      exists_eq_left, ← ih]
    cases x with
    | vertex name => simp [extend, mem_names_addVertex, Addition.names]
    | edge source target =>
      simp [extend, addEdge, mem_names_addVertex, Addition.names, or_assoc]

variable {additions : List Addition} {a b : Text} {u v : Nat}

/-- A vertex and its name. -/
theorem id?_build_iff :
    (build additions).id? a = some u ↔ (build additions).name? u = some a :=
  ⟨name?_of_id?, id?_of_name? (reflects_build additions).unique⟩

theorem name_of_name? {g : Digraph} (h : g.name? v = some a) : g.name v = a := by
  rw [name, h, Option.getD_some]

/-- Vertices are told apart by their names. -/
theorem name_inj_build (hu : u < (build additions).order) (hv : v < (build additions).order)
    (same : (build additions).name u = (build additions).name v) : u = v := by
  have named {w : Nat} (hw : w < (build additions).order) :
      (build additions).id? ((build additions).name w) = some w :=
    id?_build_iff.mpr (name?_eq_name hw)
  exact Option.some.inj ((named hu).symm.trans (same ▸ named hv))

/-- Between vertices that are known by their names, the joined ones are those between which an edge was
added. -/
theorem joined_iff (ha : (build additions).id? a = some u) (hb : (build additions).id? b = some v) :
    Joined additions u v ↔ .edge a b ∈ additions := by
  have ha := name?_of_id? ha
  have hb := name?_of_id? hb
  constructor
  · rintro ⟨a', b', added, ha', hb'⟩
    obtain rfl : a' = a := Option.some.inj (ha'.symm.trans ha)
    obtain rfl : b' = b := Option.some.inj (hb'.symm.trans hb)
    exact added
  · exact fun added => ⟨a, b, added, ha, hb⟩

/-- Both names of an added edge have vertices. -/
theorem ids_of_edge (added : .edge a b ∈ additions) :
    ∃ u v, (build additions).id? a = some u ∧ (build additions).id? b = some v := by
  obtain ⟨u, v, hu, hv, -⟩ := (reflects_build additions).kept a b added
  exact ⟨u, v, hu, hv⟩

/-- **Two names have joined vertices** when an edge was added between them. -/
theorem exists_joined_iff : (∃ u v, (build additions).id? a = some u ∧
    (build additions).id? b = some v ∧ Joined additions u v) ↔ .edge a b ∈ additions := by
  constructor
  · rintro ⟨u, v, ha, hb, joined⟩
    exact (joined_iff ha hb).mp joined
  · intro added
    obtain ⟨u, v, ha, hb⟩ := ids_of_edge added
    exact ⟨u, v, ha, hb, (joined_iff ha hb).mpr added⟩

/-- **There is an edge between two names** when it was added. -/
theorem hasNamedEdge_build :
    (build additions).hasNamedEdge a b = true ↔ .edge a b ∈ additions := by
  unfold hasNamedEdge
  split
  · next ha hb => rw [hasEdge_build, joined_iff ha hb]
  · next missing =>
    refine iff_of_false Bool.false_ne_true fun added => ?_
    obtain ⟨u, v, ha, hb⟩ := ids_of_edge added
    exact missing u v ha hb

/-! ## Successors and predecessors -/

/-- An edge of a built graph is an arc or a loop. -/
theorem arc_or_loop_iff : (u, v) ∈ (build additions).arcs ∨
    v = u ∧ (build additions).hasLoop u = true ↔ Joined additions u v := by
  rw [← (reflects_build additions).simple.hasEdge_iff, hasEdge_build]

theorem mem_targets_iff : v ∈ (build additions).arcTargets u ++ (build additions).loopAt u ↔
    Joined additions u v := by
  rw [List.mem_append, mem_arcTargets_iff, mem_loopAt_iff, arc_or_loop_iff]

theorem mem_sources_iff : u ∈ (build additions).arcSources v ++ (build additions).loopAt v ↔
    Joined additions u v := by
  rw [List.mem_append, mem_arcSources_iff, mem_loopAt_iff, ← arc_or_loop_iff]
  grind

/-- The names that a list of vertices stands for. -/
theorem mem_names_of_vertices {vs : List Nat} (below : ∀ w ∈ vs, w < (build additions).order) :
    b ∈ vs.map (build additions).name ↔ ∃ w ∈ vs, (build additions).id? b = some w := by
  rw [List.mem_map]
  refine exists_congr fun w => and_congr_right fun hw => ?_
  rw [id?_build_iff, name?_eq_name (below w hw), Option.some_inj]

/-- **The successors of a name** are the names to which an edge was added. -/
theorem mem_successorNames_build :
    b ∈ (build additions).successorNames a ↔ .edge a b ∈ additions := by
  rw [← exists_joined_iff]
  unfold successorNames
  split
  · next u ha =>
    rw [mem_sorted, mem_names_of_vertices fun w hw => (lt_order_of_joined (mem_targets_iff.mp hw)).2]
    simp only [mem_targets_iff, ha, Option.some_inj, exists_and_left, exists_eq_left']
    exact exists_congr fun _ => and_comm
  · next missing => simp only [missing, List.not_mem_nil, reduceCtorEq, false_and, exists_false]

/-- **The predecessors of a name** are the names from which an edge was added. -/
theorem mem_predecessorNames_build :
    a ∈ (build additions).predecessorNames b ↔ .edge a b ∈ additions := by
  rw [← exists_joined_iff]
  unfold predecessorNames
  split
  · next v hb =>
    rw [mem_sorted, mem_names_of_vertices fun w hw => (lt_order_of_joined (mem_sources_iff.mp hw)).1]
    simp only [mem_sources_iff, hb, Option.some_inj, exists_and_left, exists_eq_left']
    exact exists_congr fun _ => and_comm
  · next missing =>
    simp only [missing, List.not_mem_nil, reduceCtorEq, false_and, and_false, exists_false]

/-- Vertices, each once, have distinct names. -/
theorem nodup_names_of_vertices {vs : List Nat} (once : vs.Nodup)
    (below : ∀ w ∈ vs, w < (build additions).order) : (vs.map (build additions).name).Nodup :=
  once.map_on fun w hw w' hw' => name_inj_build (below w hw) (below w' hw')

theorem nodup_loopAt (g : Digraph) (v : Nat) : (g.loopAt v).Nodup := by
  unfold loopAt
  split <;> simp

theorem Simple.nodup_targets {g : Digraph} (h : g.Simple) (u : Nat) :
    (g.arcTargets u ++ g.loopAt u).Nodup := by
  refine List.Nodup.append ?_ (nodup_loopAt g u) ?_
  · refine (h.once.filter _).map_on ?_
    intro e he e' he' same
    simp only [List.mem_filter, beq_iff_eq] at he he'
    exact Prod.ext (he.2.trans he'.2.symm) same
  · intro v arc loop
    exact h.apart _ (mem_arcTargets_iff.mp arc) (mem_loopAt_iff.mp loop).1.symm

theorem Simple.nodup_sources {g : Digraph} (h : g.Simple) (v : Nat) :
    (g.arcSources v ++ g.loopAt v).Nodup := by
  refine List.Nodup.append ?_ (nodup_loopAt g v) ?_
  · refine (h.once.filter _).map_on ?_
    intro e he e' he' same
    simp only [List.mem_filter, beq_iff_eq] at he he'
    exact Prod.ext same (he.2.trans he'.2.symm)
  · intro u arc loop
    exact h.apart _ (mem_arcSources_iff.mp arc) (mem_loopAt_iff.mp loop).1

/-- Successors are listed in strictly increasing order. -/
theorem successorNames_strict : ((build additions).successorNames a).Pairwise (· < ·) := by
  unfold successorNames
  split
  · refine sorted_strict (nodup_names_of_vertices ?_ fun w hw => ?_)
    · exact (reflects_build additions).simple.nodup_targets _
    · exact (lt_order_of_joined (mem_targets_iff.mp hw)).2
  · exact .nil

/-- Predecessors are listed in strictly increasing order. -/
theorem predecessorNames_strict : ((build additions).predecessorNames b).Pairwise (· < ·) := by
  unfold predecessorNames
  split
  · refine sorted_strict (nodup_names_of_vertices ?_ fun w hw => ?_)
    · exact (reflects_build additions).simple.nodup_sources _
    · exact (lt_order_of_joined (mem_sources_iff.mp hw)).1
  · exact .nil

end PhpAudit.Digraph
