import Mathlib.Data.List.Perm.Subperm
import Mathlib.Data.List.Range
import Mathlib.Logic.Relation
import PhpAudit.Graph.Cycles
import PhpAudit.Proofs.Graph.Construction

/-!
# The search for reachable vertices

The search goes outwards round by round; its rounds are bounded by the number of vertices. It
decides the transitive closure of the edges (`mem_reachable`): nothing is added that no path leads
to, and what is left when the rounds are over is closed under the edges, since a round that adds
nothing ends the search and there cannot be more rounds that add something than there are vertices.
-/

namespace PhpAudit.Adjacency

open Relation (TransGen ReflTransGen)

/-! ## The vertices not seen yet -/

private theorem mem_unseen_from {seen : List Nat} (vs new : List Nat) {x : Nat} :
    x ∈ vs.foldl (fun new v => if seen.contains v || new.contains v then new else new ++ [v]) new ↔
      x ∈ new ∨ (x ∈ vs ∧ x ∉ seen) := by
  induction vs generalizing new with
  | nil => simp
  | cons v vs ih =>
    rw [List.foldl_cons, ih]
    by_cases hseen : v ∈ seen
    · grind
    · by_cases hnew : v ∈ new
      · grind
      · grind

theorem mem_unseen {seen vs : List Nat} {x : Nat} : x ∈ unseen seen vs ↔ x ∈ vs ∧ x ∉ seen := by
  rw [unseen, mem_unseen_from]
  simp

private theorem nodup_unseen_from {seen : List Nat} (vs new : List Nat) (unique : new.Nodup) :
    (vs.foldl (fun new v => if seen.contains v || new.contains v then new else new ++ [v])
      new).Nodup := by
  induction vs generalizing new with
  | nil => exact unique
  | cons v vs ih =>
    rw [List.foldl_cons]
    apply ih
    split
    · exact unique
    · next h =>
      have absent : v ∉ new := by simp at h; exact h.2
      exact unique.append (by simp) (List.disjoint_singleton.mpr absent)

theorem nodup_unseen (seen vs : List Nat) : (unseen seen vs).Nodup :=
  nodup_unseen_from vs [] List.nodup_nil

/-! ## Exploring -/

variable {step : Nat → List Nat} {bound : Nat}

/-- Distinct numbers below a bound, as many as there are, are all of them. -/
theorem mem_of_bound_le_length {seen : List Nat} (unique : seen.Nodup)
    (below : ∀ x ∈ seen, x < bound) (many : bound ≤ seen.length) {y : Nat} (hy : y < bound) :
    y ∈ seen := by
  have sub : seen ⊆ List.range bound := fun x hx => List.mem_range.mpr (below x hx)
  have perm : seen.Perm (List.range bound) :=
    (List.subperm_of_subset unique sub).perm_of_length_le (by simpa using many)
  exact perm.mem_iff.mpr (List.mem_range.mpr hy)

/-- **Between two rounds**: what was seen is distinct and below the bound, and only the frontier has
not been looked beyond. -/
structure Explored (step : Nat → List Nat) (bound : Nat) (seen frontier : List Nat) : Prop where
  unique : seen.Nodup
  below : ∀ x ∈ seen, x < bound
  expanded : ∀ x ∈ seen, x ∉ frontier → ∀ y ∈ step x, y ∈ seen

/-- One round: what is new becomes the frontier. -/
theorem Explored.next {seen frontier : List Nat} (h : Explored step bound seen frontier)
    (bounded : ∀ x, ∀ y ∈ step x, y < bound) :
    Explored step bound (seen ++ unseen seen (frontier.flatMap step))
      (unseen seen (frontier.flatMap step)) := by
  refine ⟨?_, ?_, ?_⟩
  · refine h.unique.append (nodup_unseen _ _) ?_
    intro x hx hnew
    exact (mem_unseen.mp hnew).2 hx
  · intro x hx
    rcases List.mem_append.mp hx with old | new
    · exact h.below x old
    · obtain ⟨z, _, hz⟩ := List.mem_flatMap.mp (mem_unseen.mp new).1
      exact bounded z x hz
  · intro x hx hnew y hy
    have old : x ∈ seen := (List.mem_append.mp hx).resolve_right hnew
    rw [List.mem_append, mem_unseen]
    by_cases hseen : y ∈ seen
    · exact Or.inl hseen
    · -- the only vertices not looked beyond so far were those of the frontier
      have front : x ∈ frontier := by
        by_contra hf
        exact hseen (h.expanded x old hf y hy)
      exact Or.inr ⟨List.mem_flatMap.mpr ⟨x, front, hy⟩, hseen⟩

theorem subset_explore (step : Nat → List Nat) (n : Nat) (seen frontier : List Nat) :
    seen ⊆ explore step n seen frontier := by
  induction n generalizing seen frontier with
  | zero => exact fun x hx => hx
  | succ n ih =>
    intro x hx
    rw [explore]
    split
    · exact hx
    · exact ih _ _ (List.mem_append_left _ hx)

theorem nodup_explore (n : Nat) (seen frontier : List Nat) (unique : seen.Nodup) :
    (explore step n seen frontier).Nodup := by
  induction n generalizing seen frontier with
  | zero => exact unique
  | succ n ih =>
    rw [explore]
    split
    · exact unique
    · refine ih _ _ (unique.append (nodup_unseen _ _) fun x hx hnew => ?_)
      exact (mem_unseen.mp hnew).2 hx

/-- Exploring stays inside any set that is closed under the steps. -/
theorem explore_subset {P : Nat → Prop} (closed : ∀ x, P x → ∀ y ∈ step x, P y) (n : Nat)
    (seen frontier : List Nat) (hseen : ∀ x ∈ seen, P x) (hfrontier : ∀ x ∈ frontier, P x) :
    ∀ x ∈ explore step n seen frontier, P x := by
  induction n generalizing seen frontier with
  | zero => exact hseen
  | succ n ih =>
    rw [explore]
    split
    · exact hseen
    · have hnew : ∀ x ∈ unseen seen (frontier.flatMap step), P x := by
        intro x hx
        obtain ⟨z, hz, hxz⟩ := List.mem_flatMap.mp (mem_unseen.mp hx).1
        exact closed z (hfrontier z hz) x hxz
      refine ih _ _ ?_ hnew
      intro x hx
      exact (List.mem_append.mp hx).elim (hseen x) (hnew x)

/-- With as many rounds as there may be vertices to come, what is left is closed under the steps. -/
theorem explore_closed (bounded : ∀ x, ∀ y ∈ step x, y < bound) (n : Nat) (seen frontier : List Nat)
    (h : Explored step bound seen frontier) (enough : bound ≤ seen.length + n) :
    ∀ x ∈ explore step n seen frontier, ∀ y ∈ step x, y ∈ explore step n seen frontier := by
  induction n generalizing seen frontier with
  | zero =>
    intro x _ y hy
    exact mem_of_bound_le_length h.unique h.below enough (bounded x y hy)
  | succ n ih =>
    have next := h.next bounded
    rw [explore]
    split
    · next hnone =>
      rw [hnone, List.append_nil] at next
      exact fun x hx y hy => next.expanded x hx (by simp) y hy
    · next hsome =>
      refine ih _ _ next ?_
      have : 0 < (unseen seen (frontier.flatMap step)).length := List.length_pos_iff.mpr hsome
      rw [List.length_append]
      omega

/-! ## Reaching -/

variable {a : Adjacency} {least : Nat}

/-- **An edge** between two vertices. -/
def Edge (a : Adjacency) (u v : Nat) : Prop := v ∈ a.successors u

/-- An edge between two vertices from `least` on. -/
def Arc (a : Adjacency) (least u v : Nat) : Prop := least ≤ u ∧ least ≤ v ∧ a.Edge u v

/-- Every successor is a vertex. -/
def Bounded (a : Adjacency) : Prop := ∀ u, ∀ v ∈ a.successors u, v < a.order

/-- **The search decides the transitive closure** of the edges. -/
theorem mem_reachable (bounded : a.Bounded) {u v : Nat} :
    v ∈ a.reachable u ↔ TransGen a.Edge u v := by
  have first : ∀ {x}, x ∈ unseen [] (a.successors u) ↔ a.Edge u x := by
    intro x
    simp [mem_unseen, Edge]
  unfold reachable
  constructor
  · refine explore_subset (P := TransGen a.Edge u) ?_ _ _ _ ?_ ?_ v
    · exact fun x hx y hy => hx.tail hy
    · exact fun x hx => .single (first.mp hx)
    · exact fun x hx => .single (first.mp hx)
  · intro h
    have start : Explored a.successors a.order (unseen [] (a.successors u))
        (unseen [] (a.successors u)) :=
      ⟨nodup_unseen _ _, fun x hx => bounded u x (first.mp hx), fun x hx hx' => absurd hx hx'⟩
    have closed := explore_closed bounded a.order _ _ start (by omega)
    induction h with
    | single h => exact subset_explore _ _ _ _ (first.mpr h)
    | tail _ h ih => exact closed _ ih _ h

theorem nodup_reachable (a : Adjacency) (u : Nat) : (a.reachable u).Nodup :=
  nodup_explore _ _ _ (nodup_unseen _ _)

theorem reaches_iff (bounded : a.Bounded) {u v : Nat} :
    a.reaches u v = true ↔ TransGen a.Edge u v := by
  rw [reaches, List.contains_iff_mem, mem_reachable bounded]

/-- A vertex that reaches something is one from `least` on. -/
theorem le_of_transGen {u v : Nat} (h : TransGen (a.Arc least) u v) : least ≤ u := by
  obtain ⟨_, hfirst, _⟩ := Relation.TransGen.head'_iff.mp h
  exact hfirst.1

/-- What is reached is a vertex. -/
theorem lt_order_of_transGen (bounded : a.Bounded) {u v : Nat} (h : TransGen (a.Arc least) u v) :
    v < a.order := by
  obtain ⟨w, _, hlast⟩ := Relation.TransGen.tail'_iff.mp h
  exact bounded w v hlast.2.2

end PhpAudit.Adjacency

namespace PhpAudit.Digraph

variable {g : Digraph}

@[simp] theorem order_adjacency (g : Digraph) : g.adjacency.order = g.order := by
  simp [adjacency, Adjacency.order]

theorem mem_successors_adjacency {u v : Nat} :
    v ∈ g.adjacency.successors u ↔ u < g.order ∧ v ∈ g.successors u := by
  by_cases h : u < g.order <;> simp [adjacency, Adjacency.successors, h]

theorem bounded_adjacency (g : Digraph) : g.adjacency.Bounded := by
  intro u v hv
  rw [order_adjacency]
  exact (mem_successors_iff.mp (mem_successors_adjacency.mp hv).2).1

theorem adjacency_increasing (g : Digraph) (u : Nat) :
    (g.adjacency.successors u).Pairwise (· < ·) := by
  by_cases h : u < g.order
  · have : g.adjacency.successors u = g.successors u := by simp [adjacency, Adjacency.successors, h]
    rw [this]
    exact successors_increasing g u
  · have : g.adjacency.successors u = [] := by simp [adjacency, Adjacency.successors, h]
    rw [this]
    exact List.Pairwise.nil

/-- The edges of a built graph join what was joined. -/
theorem edge_adjacency_build (additions : List Addition) :
    (build additions).adjacency.Edge = Joined additions := by
  funext u v
  rw [Adjacency.Edge, mem_successors_adjacency, mem_successors_build]
  exact propext ⟨And.right, fun h => ⟨(lt_order_of_joined h).1, h⟩⟩

end PhpAudit.Digraph
