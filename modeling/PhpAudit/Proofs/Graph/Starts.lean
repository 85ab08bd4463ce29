import PhpAudit.Graph.Cycles
import PhpAudit.Proofs.Graph.StrongComponents

/-!
# The start of a cycle search

The search for the cycles of the vertices from a number on starts at the least vertex of their strong
components that hold a cycle, and stays in its component. The components are looked at one after the
other, in whatever order they are listed, and the vertices of each in whatever order they stand in it.

**The law** (`leastCyclic_of_chosen`, `acyclic_of_none_chosen`): what is chosen is the least vertex that
lies on a cycle of the vertices from the number on, and its strong component; when nothing is chosen
there is no such cycle. So a start is never below the number it was sought from, which is what lets the
search end. A vertex below that number may have a loop, and is passed over all the same.

What carries it is `Chooses`: a choice is at every stage the least of the vertices seen so far.
-/

namespace PhpAudit.Digraph

open Relation (TransGen)

/-! ## The least of the vertices seen -/

/-- **A choice of the least** among vertices, each seen in some component: none when no vertex was
seen. -/
def Chooses (seen : Nat → List Nat → Prop) : Option (Nat × List Nat) → Prop
  | none => ∀ v c, ¬ seen v c
  | some (start, component) => seen start component ∧ ∀ v c, seen v c → start ≤ v

variable {seen seen' : Nat → List Nat → Prop} {choice : Option (Nat × List Nat)}
  {component c : List Nat} {start v : Nat}

theorem Chooses.of_iff (chooses : Chooses seen choice) (same : ∀ v c, seen v c ↔ seen' v c) :
    Chooses seen' choice := by
  have : seen = seen' := funext fun v => funext fun c => propext (same v c)
  exact this ▸ chooses

/-- One vertex more is seen. -/
theorem Chooses.lesser (chooses : Chooses seen choice) (component : List Nat) (v : Nat) :
    Chooses (fun w c => seen w c ∨ w = v ∧ c = component) (lesser component choice v) := by
  unfold Digraph.lesser
  split
  · refine ⟨Or.inr ⟨rfl, rfl⟩, ?_⟩
    rintro w c (before | ⟨rfl, -⟩)
    · exact absurd before (chooses w c)
    · exact Nat.le_refl w
  · next least c' =>
    obtain ⟨here, minimal⟩ := chooses
    split
    · next less =>
      refine ⟨Or.inr ⟨rfl, rfl⟩, ?_⟩
      rintro w c (before | ⟨rfl, -⟩)
      · exact (Nat.le_of_lt less).trans (minimal w c before)
      · exact Nat.le_refl w
    · next notLess =>
      refine ⟨Or.inl here, ?_⟩
      rintro w c (before | ⟨rfl, -⟩)
      · exact minimal w c before
      · exact Nat.le_of_not_lt notLess

/-- The vertices of one component are seen. -/
theorem Chooses.vertices (chooses : Chooses seen choice) (component vs : List Nat) :
    Chooses (fun v c => seen v c ∨ v ∈ vs ∧ c = component)
      (vs.foldl (Digraph.lesser component) choice) := by
  induction vs generalizing seen choice with
  | nil => exact chooses.of_iff fun v c => by simp
  | cons w vs ih =>
    refine (ih (chooses.lesser component w)).of_iff fun v c => ?_
    rw [List.mem_cons, or_and_right, or_assoc]

/-- **A component is looked at** when it does not lie below a number, and holds a cycle. -/
def LookedAt (g : Digraph) (least : Nat) (component : List Nat) : Prop :=
  least ≤ component.headD 0 ∧ g.holdsCycle component = true

/-- One component more is looked at, or passed over. -/
theorem Chooses.consider (chooses : Chooses seen choice) (g : Digraph) (least : Nat)
    (component : List Nat) :
    Chooses (fun v c => seen v c ∨ (v ∈ component ∧ c = component) ∧ LookedAt g least component)
      (g.consider least choice component) := by
  have passed (unlooked : ¬ LookedAt g least component) : Chooses (fun v c =>
      seen v c ∨ (v ∈ component ∧ c = component) ∧ LookedAt g least component) choice :=
    chooses.of_iff fun v c => by simp only [unlooked, and_false, or_false]
  unfold Digraph.consider
  split
  · next below => exact passed fun looked => Nat.not_le_of_lt below looked.1
  · next above =>
    split
    · next acyclic => exact passed fun looked => by simp [looked.2] at acyclic
    · next cyclic =>
      have looked : LookedAt g least component := ⟨Nat.le_of_not_lt above, by simpa using cyclic⟩
      exact (chooses.vertices component component).of_iff fun v c => by simp only [looked, and_true]

/-- **The choice is the least** of the vertices in the components that are looked at. -/
theorem chooses_leastCyclicComponent? (g : Digraph) (least : Nat) (components : List (List Nat)) :
    Chooses (fun v c => c ∈ components ∧ v ∈ c ∧ LookedAt g least c)
      (g.leastCyclicComponent? least components) := by
  have stage (components : List (List Nat)) {seen : Nat → List Nat → Prop}
      {choice : Option (Nat × List Nat)} (chooses : Chooses seen choice) :
      Chooses (fun v c => seen v c ∨ c ∈ components ∧ v ∈ c ∧ LookedAt g least c)
        (components.foldl (g.consider least) choice) := by
    induction components generalizing seen choice with
    | nil => exact chooses.of_iff fun v c => by simp
    | cons d components ih =>
      refine (ih (chooses.consider g least d)).of_iff fun v c => ?_
      rw [List.mem_cons, or_and_right, or_assoc]
      refine or_congr_right (or_congr_left ⟨?_, ?_⟩)
      · rintro ⟨⟨hv, rfl⟩, looked⟩
        exact ⟨rfl, hv, looked⟩
      · rintro ⟨rfl, hv, looked⟩
        exact ⟨⟨hv, rfl⟩, looked⟩
  have unseen : Chooses (fun _ _ => False) none := fun _ _ h => h
  exact (stage components unseen).of_iff fun v c => by simp

/-! ## The start -/

/-- **The strong component of a vertex**, among the vertices from `least` on. -/
def IsComponent (a : Adjacency) (least start : Nat) (component : List Nat) : Prop :=
  ∀ v, v ∈ component ↔ TransGen (a.Arc least) start v ∧ TransGen (a.Arc least) v start

/-- The least vertex that lies on a cycle, and its component. -/
structure LeastCyclic (a : Adjacency) (least start : Nat) (component : List Nat) : Prop where
  cyclic : TransGen (a.Arc least) start start
  minimal : ∀ v, TransGen (a.Arc least) v v → start ≤ v
  component : IsComponent a least start component

theorem LeastCyclic.le {a : Adjacency} {least : Nat} (found : LeastCyclic a least start component) :
    least ≤ start := Adjacency.le_of_transGen found.cyclic

variable {additions : List Addition} {least : Nat} {components : List (List Nat)}

/-- The successors from a number on are what the arcs from there on lead to. -/
theorem successors_since_build : (fun x y => y ∈ ((build additions).since least).successors x) =
    (build additions).adjacency.Arc least := by
  funext x y
  rw [mem_successors_since, mem_successors_build, ← edge_adjacency_build]
  rfl

/-- Of strong components, those that are looked at are those with vertices on cycles. -/
theorem lookedAt_iff (strong : ((build additions).since least).StrongComponents components)
    (hc : c ∈ components) (hv : v ∈ c) : LookedAt (build additions) least c ↔
      TransGen ((build additions).adjacency.Arc least) v v := by
  rw [← successors_since_build]
  exact strong.cyclic_iff (reflects_build additions).simple hc hv

/-- A vertex on a cycle is in one of the components that are looked at. -/
theorem exists_lookedAt (strong : ((build additions).since least).StrongComponents components)
    (cyclic : TransGen ((build additions).adjacency.Arc least) v v) :
    ∃ c ∈ components, v ∈ c ∧ LookedAt (build additions) least c := by
  have inside := Adjacency.lt_order_of_transGen (bounded_adjacency _) cyclic
  rw [order_adjacency, ← order_since _ least] at inside
  obtain ⟨c, hc, hv⟩ := List.mem_flatten.mp ((strong.covers v).mpr inside)
  exact ⟨c, hc, hv, (lookedAt_iff strong hc hv).mpr cyclic⟩

/-- **Nothing is chosen** when no vertex lies on a cycle. -/
theorem acyclic_of_none_chosen
    (strong : ((build additions).since least).StrongComponents components)
    (nothing : (build additions).leastCyclicComponent? least components = none) (v : Nat) :
    ¬ TransGen ((build additions).adjacency.Arc least) v v := by
  intro cyclic
  have chooses := chooses_leastCyclicComponent? (build additions) least components
  rw [nothing] at chooses
  obtain ⟨c, hc, hv, looked⟩ := exists_lookedAt strong cyclic
  exact chooses v c ⟨hc, hv, looked⟩

/-- **What is chosen is the least vertex on a cycle**, and its strong component. -/
theorem leastCyclic_of_chosen
    (strong : ((build additions).since least).StrongComponents components)
    (chosen : (build additions).leastCyclicComponent? least components = some (start, component)) :
    LeastCyclic (build additions).adjacency least start component := by
  have chooses := chooses_leastCyclicComponent? (build additions) least components
  rw [chosen] at chooses
  obtain ⟨⟨hc, hstart, looked⟩, minimal⟩ := chooses
  have cyclic := (lookedAt_iff strong hc hstart).mp looked
  refine ⟨cyclic, fun v hv => ?_, fun v => ?_⟩
  · obtain ⟨c, hc, hv, looked⟩ := exists_lookedAt strong hv
    exact minimal v c ⟨hc, hv, looked⟩
  · rw [strong.together _ hc start hstart, successors_since_build, mutual_iff_of_cyclic cyclic]

end PhpAudit.Digraph
