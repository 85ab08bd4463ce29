import Mathlib.Data.List.Chain
import Mathlib.Logic.Relation
import PhpAudit.Graph.Reach
import PhpAudit.Proofs.Graph.ElementaryCycles
import PhpAudit.Proofs.Graph.Names

/-!
# Paths between names

A path of at least one edge is the transitive closure of the edges. It is a list of what it passes
(`transGen_iff_isChain`), and one that ends where it starts can be had without passing anything
twice (`transGen_self_iff_simple`), from any vertex on it (`transGen_self_iff_elementary`), and
along any edge whose end leads back to its start (`exists_elementary_through_iff`).

**The law** (`pathExists_build`): asked for two names, a built graph tells whether a path of at least
one edge leads from the first to the second. It asks a search for paths of arcs, possibly none; any
search will do that answers this (`SearchesPaths`), and the search here does
(`searchesPaths_leads`).
-/

namespace PhpAudit.Digraph

open Relation (TransGen ReflTransGen)

/-! ## Paths as lists -/

section Paths

variable {α : Type} {r : α → α → Prop} {a b : α}

/-- **A path** is a chain with something between its ends, or nothing. -/
theorem transGen_iff_isChain :
    TransGen r a b ↔ ∃ between, (a :: between ++ [b]).IsChain r := by
  constructor
  · intro path
    induction path using TransGen.head_induction_on with
    | single edge => exact ⟨[], by simpa using edge⟩
    | @head a c edge _ ih =>
      obtain ⟨between, chain⟩ := ih
      exact ⟨c :: between, List.isChain_cons_cons.mpr ⟨edge, chain⟩⟩
  · rintro ⟨between, chain⟩
    have pairs := List.isChain_iff_pairwise.mp (chain.imp fun _ _ edge => TransGen.single edge)
    exact (List.pairwise_cons.mp pairs).1 b (by simp)

/-- A path can be had that passes nothing twice and its ends not at all. -/
theorem exists_simple_path (path : TransGen r a b) : ∃ between : List α, between.Nodup ∧
    a ∉ between ∧ b ∉ between ∧ (a :: between ++ [b]).IsChain r := by
  induction path using TransGen.head_induction_on with
  | single edge => exact ⟨[], List.nodup_nil, by simp, by simp, by simpa using edge⟩
  | @head a c edge _ ih =>
    obtain ⟨between, once, hc, hb, chain⟩ := ih
    by_cases last : c = b
    · -- the end is reached at once
      exact ⟨[], List.nodup_nil, by simp, by simp, by simpa using last ▸ edge⟩
    · by_cases first : a = c
      · exact ⟨between, once, first ▸ hc, hb, first ▸ chain⟩
      · by_cases passed : a ∈ between
        · -- what was walked before the start was passed again is cut off
          obtain ⟨before, after, rfl⟩ := List.append_of_mem passed
          obtain ⟨-, once, -⟩ := List.nodup_append.mp once
          obtain ⟨fresh, once⟩ := List.nodup_cons.mp once
          refine ⟨after, once, fresh, fun h => hb (by simp [h]), ?_⟩
          have split : c :: (before ++ a :: after) ++ [b] = (c :: before) ++ a :: (after ++ [b]) := by
            simp
          rw [split] at chain
          exact (List.isChain_split.mp chain).2
        · refine ⟨c :: between, List.nodup_cons.mpr ⟨hc, once⟩, by simp [first, passed],
            by simp [Ne.symm last, hb], List.isChain_cons_cons.mpr ⟨edge, chain⟩⟩

/-- **A way back to itself** can be had as a cycle that passes nothing twice. -/
theorem transGen_self_iff_simple :
    TransGen r a a ↔ ∃ rest : List α, (a :: rest).Nodup ∧ (a :: rest ++ [a]).IsChain r := by
  constructor
  · intro path
    obtain ⟨rest, once, fresh, -, chain⟩ := exists_simple_path path
    exact ⟨rest, List.nodup_cons.mpr ⟨fresh, once⟩, chain⟩
  · rintro ⟨rest, -, chain⟩
    exact transGen_iff_isChain.mpr ⟨rest, chain⟩

/-- Steps in place add nothing to a path but the path in place. -/
theorem transGen_or_loop_iff {arc : α → α → Prop} {loop : α → Prop} :
    TransGen (fun x y => arc x y ∨ y = x ∧ loop x) a b ↔
      (b = a ∧ loop a) ∨ ∃ c, arc a c ∧ ReflTransGen arc c b := by
  have skip {x y} (path : ReflTransGen (fun x y => arc x y ∨ y = x ∧ loop x) x y) :
      ReflTransGen arc x y := by
    refine path.lift' id ?_
    rintro x y (edge | ⟨rfl, -⟩)
    · exact .single edge
    · exact .refl
  constructor
  · intro path
    obtain ⟨c, edge | ⟨rfl, here⟩, rest⟩ := TransGen.head'_iff.mp path
    · exact Or.inr ⟨c, edge, skip rest⟩
    · obtain rfl | ⟨d, edge, rest⟩ := (skip rest).cases_head
      · exact Or.inl ⟨rfl, here⟩
      · exact Or.inr ⟨d, edge, rest⟩
  · rintro (⟨rfl, here⟩ | ⟨c, edge, rest⟩)
    · exact .single (Or.inr ⟨rfl, here⟩)
    · exact TransGen.head' (Or.inl edge) (ReflTransGen.mono (fun _ _ => Or.inl) _ _ rest)

end Paths

/-! ## Elementary cycles -/

/-- **A cycle can be walked from anything that it passes**, along the same edges. -/
theorem exists_turn {α : Type} {rest : List α} {a b : α} (passed : b ∈ a :: rest) :
    ∃ others, (b :: others).Perm (a :: rest) ∧ ∀ r : α → α → Prop,
      (b :: others ++ [b]).IsChain r ↔ (a :: rest ++ [a]).IsChain r := by
  obtain ⟨before, after, split⟩ := List.append_of_mem passed
  have perm : (b :: after ++ before).Perm (before ++ b :: after) := List.perm_append_comm
  refine ⟨after ++ before, split ▸ perm, fun r => ?_⟩
  cases before with
  | nil =>
    obtain ⟨rfl, rfl⟩ := List.cons.inj split
    rw [List.append_nil]
  | cons first before =>
    rw [List.cons_append] at split
    obtain ⟨rfl, rfl⟩ := List.cons.inj split
    -- the two halves of the walk, put together the other way round
    have whole : a :: (before ++ b :: after) ++ [a] = (a :: before) ++ b :: (after ++ [a]) := by simp
    have turned : b :: (after ++ a :: before) ++ [b] = (b :: after) ++ a :: (before ++ [b]) := by simp
    constructor
    · intro chain
      rw [turned, List.isChain_split] at chain
      rw [whole, List.isChain_split]
      exact ⟨chain.2, chain.1⟩
    · intro chain
      rw [whole, List.isChain_split] at chain
      rw [turned, List.isChain_split]
      exact ⟨chain.2, chain.1⟩

/-- Two things are neighbours in a list unless all neighbours in it are others. -/
theorem infix_pair_iff {α : Type} {l : List α} {a b : α} :
    [a, b] <:+: l ↔ ¬ l.IsChain fun x y => ¬ (x = a ∧ y = b) := by
  constructor
  · intro here chain
    have pair := List.IsChain.infix chain here
    exact List.isChain_pair.mp pair ⟨rfl, rfl⟩
  · intro found
    by_contra missing
    refine found (List.isChain_iff_forall_rel_of_append_cons_cons.mpr ?_)
    rintro x y before after rfl ⟨rfl, rfl⟩
    exact missing ⟨before, after, by simp⟩

/-- A cycle that passes nothing twice, walked from its least vertex. -/
theorem exists_elementary {r : Nat → Nat → Prop} {v : Nat} {rest : List Nat}
    (once : (v :: rest).Nodup) (chain : (v :: rest ++ [v]).IsChain r) :
    ∃ cycle, ElementaryCycle r cycle ∧ v ∈ cycle ∧
      ∀ x y, [x, y] <:+: v :: rest ++ [v] → [x, y] <:+: cycle := by
  obtain ⟨least, passed, hleast⟩ : ∃ least ∈ v :: rest, ∀ w ∈ v :: rest, least ≤ w :=
    ⟨_, List.min_mem (List.cons_ne_nil v rest), fun w hw => List.min_le_of_mem hw⟩
  obtain ⟨others, perm, turned⟩ := exists_turn passed
  refine ⟨_, ⟨least, others, rfl, perm.nodup_iff.mpr once, fun w hw => ?_, (turned r).mpr chain⟩,
    ?_, fun x y => ?_⟩
  · exact hleast w (perm.mem_iff.mp (List.mem_cons_of_mem _ hw))
  · exact List.mem_append_left _ (perm.mem_iff.mpr List.mem_cons_self)
  · rw [infix_pair_iff, infix_pair_iff, turned]
    exact id

/-- The vertices of an elementary cycle lead to each other. -/
theorem ElementaryCycle.transGen {r : Nat → Nat → Prop} {cycle : List Nat}
    (h : ElementaryCycle r cycle) {u v : Nat} (hu : u ∈ cycle) (hv : v ∈ cycle) :
    TransGen r u v := by
  obtain ⟨first, rest, rfl, -, -, chain⟩ := h
  have passed {w : Nat} (hw : w ∈ first :: rest ++ [first]) : w ∈ first :: rest := by
    simpa [or_comm] using hw
  obtain ⟨others, perm, turned⟩ := exists_turn (passed hu)
  have pairs := List.isChain_iff_pairwise.mp
    (((turned r).mpr chain).imp fun _ _ edge => TransGen.single edge)
  rw [List.cons_append, List.pairwise_cons] at pairs
  refine pairs.1 v ?_
  obtain rfl | there := List.mem_cons.mp (perm.mem_iff.mpr (passed hv))
  · exact List.mem_append_right _ (List.mem_singleton_self v)
  · exact List.mem_append_left _ there

/-- **What lies on a cycle lies on an elementary cycle**: one that passes nothing twice, walked from its
least vertex. -/
theorem transGen_self_iff_elementary {r : Nat → Nat → Prop} {v : Nat} :
    TransGen r v v ↔ ∃ cycle, ElementaryCycle r cycle ∧ v ∈ cycle := by
  constructor
  · intro path
    obtain ⟨rest, once, chain⟩ := transGen_self_iff_simple.mp path
    obtain ⟨cycle, elementary, passed, -⟩ := exists_elementary once chain
    exact ⟨cycle, elementary, passed⟩
  · rintro ⟨cycle, elementary, passed⟩
    exact elementary.transGen passed passed

/-- **An edge whose end leads back to its start is an edge of an elementary cycle.** -/
theorem exists_elementary_through_iff {r : Nat → Nat → Prop} {u v : Nat} :
    (∃ cycle, ElementaryCycle r cycle ∧ [u, v] <:+: cycle) ↔ r u v ∧ ReflTransGen r v u := by
  constructor
  · rintro ⟨cycle, elementary, neighbours⟩
    have passed := neighbours.subset
    refine ⟨?_, (elementary.transGen (passed (by simp)) (passed (by simp))).to_reflTransGen⟩
    obtain ⟨_, _, rfl, -, -, chain⟩ := elementary
    have pair := List.IsChain.infix chain neighbours
    exact List.isChain_pair.mp pair
  · rintro ⟨edge, back⟩
    suffices ∃ rest, (u :: rest).Nodup ∧ (u :: rest ++ [u]).IsChain r ∧
        [u, v] <:+: u :: rest ++ [u] by
      obtain ⟨rest, once, chain, neighbours⟩ := this
      obtain ⟨cycle, elementary, -, edges⟩ := exists_elementary once chain
      exact ⟨cycle, elementary, edges u v neighbours⟩
    by_cases loop : v = u
    · subst loop
      exact ⟨[], by simp, by simpa using edge, List.infix_rfl⟩
    · obtain same | path := Relation.reflTransGen_iff_eq_or_transGen.mp back
      · exact absurd same.symm loop
      · obtain ⟨between, once, fresh, last, chain⟩ := exists_simple_path path
        refine ⟨v :: between, ?_, .cons_cons edge chain, [], between ++ [u], rfl⟩
        exact List.nodup_cons.mpr ⟨by simp [Ne.symm loop, last], List.nodup_cons.mpr ⟨fresh, once⟩⟩

/-! ## Paths in built graphs -/

variable {additions : List Addition} {a b : Text} {u v : Nat}

/-- **Two names are linked** when an edge was added between them. -/
def Linked (additions : List Addition) (a b : Text) : Prop := .edge a b ∈ additions

/-- Paths between names are paths between their vertices. -/
theorem transGen_joined_iff (ha : (build additions).id? a = some u)
    (hb : (build additions).id? b = some v) :
    TransGen (Joined additions) u v ↔ TransGen (Linked additions) a b := by
  constructor
  · intro path
    have step : ∀ x y, Joined additions x y →
        Linked additions ((build additions).name x) ((build additions).name y) := by
      rintro x y ⟨c, d, added, hc, hd⟩
      rwa [name_of_name? hc, name_of_name? hd]
    have named : TransGen (Linked additions) ((build additions).name u) ((build additions).name v) :=
      TransGen.lift (build additions).name step u v path
    rwa [name_of_name? (name?_of_id? ha), name_of_name? (name?_of_id? hb)] at named
  · intro path
    let number (c : Text) : Nat := ((build additions).id? c).getD 0
    have step : ∀ c d, Linked additions c d → Joined additions (number c) (number d) := by
      intro c d added
      obtain ⟨x, y, hx, hy⟩ := ids_of_edge added
      simpa only [number, hx, hy, Option.getD_some] using (joined_iff hx hy).mpr added
    have numbered : TransGen (Joined additions) (number a) (number b) :=
      TransGen.lift number step a b path
    simpa only [number, ha, hb, Option.getD_some] using numbered

/-- The ends of a path between names are names of the graph. -/
theorem ids_of_path (path : TransGen (Linked additions) a b) :
    ∃ u v, (build additions).id? a = some u ∧ (build additions).id? b = some v := by
  obtain ⟨_, first, -⟩ := TransGen.head'_iff.mp path
  obtain ⟨_, -, last⟩ := TransGen.tail'_iff.mp path
  obtain ⟨u, -, hu, -⟩ := ids_of_edge first
  obtain ⟨-, v, -, hv⟩ := ids_of_edge last
  exact ⟨u, v, hu, hv⟩

/-- There is an arc between two vertices. -/
def HasArc (g : Digraph) (u v : Nat) : Prop := (u, v) ∈ g.arcs

/-- **A search for paths** tells of any two vertices whether a path of arcs, possibly none, leads from
the one to the other. -/
def SearchesPaths (g : Digraph) (leads : Nat → Nat → Bool) : Prop :=
  ∀ u v, u < g.order → v < g.order → (leads u v = true ↔ ReflTransGen g.HasArc u v)

/-- A path in a built graph is a loop, or it starts with an arc and goes on along arcs. -/
theorem transGen_joined_iff_arcs : TransGen (Joined additions) u v ↔
    (v = u ∧ (build additions).hasLoop u = true) ∨
      ∃ w, (build additions).HasArc u w ∧ ReflTransGen (build additions).HasArc w v := by
  have edges : Joined additions = fun x y =>
      (build additions).HasArc x y ∨ y = x ∧ (build additions).hasLoop x = true :=
    funext fun x => funext fun y => propext arc_or_loop_iff.symm
  rw [edges]
  exact transGen_or_loop_iff

/-- **A path is found between two names** when there is one, of at least one edge. -/
theorem pathExists_build {leads : Nat → Nat → Bool} (search : (build additions).SearchesPaths leads) :
    (build additions).pathExists leads a b = true ↔ TransGen (Linked additions) a b := by
  unfold pathExists
  split
  · next u v ha hb =>
    have hu : u < (build additions).order := (List.getElem?_eq_some_iff.mp (name?_of_id? ha)).1
    have hv : v < (build additions).order := (List.getElem?_eq_some_iff.mp (name?_of_id? hb)).1
    rw [← transGen_joined_iff ha hb, transGen_joined_iff_arcs]
    split
    · next different =>
      rw [search u v hu hv, Relation.reflTransGen_iff_eq_or_transGen, TransGen.head'_iff]
      simp only [Ne.symm different, false_and, false_or]
    · next same =>
      obtain rfl : u = v := not_not.mp same
      simp only [Bool.or_eq_true, List.any_eq_true, mem_arcTargets_iff, true_and]
      refine or_congr_right (exists_congr fun w => and_congr_right fun arc => ?_)
      exact search w u (lt_order_of_joined (arc_or_loop_iff.mp (Or.inl arc))).2 hu
  · next missing =>
    refine iff_of_false Bool.false_ne_true fun path => ?_
    obtain ⟨u, v, ha, hb⟩ := ids_of_path path
    exact missing u v ha hb

/-! ## The search along arcs -/

theorem edge_arcAdjacency {g : Digraph} :
    g.arcAdjacency.Edge u v ↔ u < g.order ∧ g.HasArc u v := by
  by_cases h : u < g.order <;>
    simp [Adjacency.Edge, arcAdjacency, Adjacency.successors, HasArc, h, mem_arcTargets_iff]

/-- The search along the arcs of a built graph is a search for paths. -/
theorem searchesPaths_leads (additions : List Addition) :
    (build additions).SearchesPaths (build additions).arcAdjacency.leads := by
  have below {x y} (arc : (build additions).HasArc x y) :=
    lt_order_of_joined (arc_or_loop_iff.mp (Or.inl arc))
  have bounded : (build additions).arcAdjacency.Bounded := by
    intro x y edge
    simpa [arcAdjacency, Adjacency.order] using (below (edge_arcAdjacency.mp edge).2).2
  have edges : (build additions).arcAdjacency.Edge = (build additions).HasArc :=
    funext fun x => funext fun y => propext (edge_arcAdjacency.trans
      (and_iff_right_of_imp fun arc => (below arc).1))
  intro u v _ _
  rw [Adjacency.leads, Bool.or_eq_true, beq_iff_eq, Adjacency.reaches_iff bounded, edges,
    Relation.reflTransGen_iff_eq_or_transGen, eq_comm]

end PhpAudit.Digraph
