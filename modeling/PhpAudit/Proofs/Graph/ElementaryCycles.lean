import Mathlib.Data.List.Chain
import Mathlib.Data.List.Sort
import PhpAudit.Graph.Cycles
import PhpAudit.Proofs.Graph.Search
import PhpAudit.Proofs.Graph.Starts

/-!
# The elementary cycles are all found

An elementary cycle is said without the search: vertices that are pairwise distinct, the least of
them first and once more at the end, with an edge between each two neighbours (`ElementaryCycle`).

`Enumerates` is the enumeration as a run without bounds: from a number on, the search from the start
that is chosen among the strong components of the vertices from there on, kept to its component, and
then the same from the number after the start, until the numbers are used up or nothing is chosen.
The strong components may be had from elsewhere; what is said here is said of all lists of them.

**The law** (`Enumerates.exact`): every run lists exactly the elementary cycles whose least vertex is at
least the number it starts from, in strictly increasing order. A cycle stays inside the component of
its least vertex, and the restart leaves out only cycles through the start. The enumeration of a
graph is such a run (`enumerates_elementaryCyclesOf`), so it ends of itself.
-/

namespace PhpAudit.Digraph

open Relation (TransGen)

/-- **An elementary cycle** along some edges, from its least vertex. -/
def ElementaryCycle (edge : Nat → Nat → Prop) (cycle : List Nat) : Prop :=
  ∃ first rest, cycle = first :: rest ++ [first] ∧ (first :: rest).Nodup ∧
    (∀ v ∈ rest, first ≤ v) ∧ cycle.IsChain edge

/-! ## Ways on as lists -/

variable {successors : Nat → List Nat} {start : Nat}

theorem WayOn.toChain {stack way : List Nat} (h : WayOn successors start stack way) :
    ∀ v below, stack = v :: below → ∃ rest, way = rest ++ [start] ∧ rest.Nodup ∧
      (∀ x ∈ rest, x ∉ v :: below) ∧ (v :: way).IsChain fun u w => w ∈ successors u := by
  induction h with
  | close hclose =>
    intro v below heq
    obtain ⟨rfl, rfl⟩ := List.cons.inj heq
    exact ⟨[], rfl, List.nodup_nil, by simp, by simpa using hclose⟩
  | @step u w below way hw hnew _ ih =>
    intro v below' heq
    obtain ⟨rfl, rfl⟩ := List.cons.inj heq
    obtain ⟨rest, rfl, unique, off, chain⟩ := ih w _ rfl
    refine ⟨w :: rest, rfl, ?_, ?_, List.isChain_cons_cons.mpr ⟨hw, chain⟩⟩
    · exact List.nodup_cons.mpr ⟨fun hmem => off w hmem List.mem_cons_self, unique⟩
    · intro x hx
      rcases List.mem_cons.mp hx with rfl | hx
      · exact hnew
      · exact fun hmem => off x hx (List.mem_cons_of_mem _ hmem)

theorem WayOn.ofChain (rest : List Nat) (v : Nat) (below : List Nat) (unique : rest.Nodup)
    (off : ∀ x ∈ rest, x ∉ v :: below)
    (chain : (v :: (rest ++ [start])).IsChain fun u w => w ∈ successors u) :
    WayOn successors start (v :: below) (rest ++ [start]) := by
  induction rest generalizing v below with
  | nil => exact .close (by simpa using chain)
  | cons w rest ih =>
    obtain ⟨hw, chain⟩ := List.isChain_cons_cons.mp chain
    obtain ⟨fresh, unique⟩ := List.nodup_cons.mp unique
    refine .step hw (off w List.mem_cons_self)
      (ih w (v :: below) unique (fun x hx hmem => ?_) chain)
    rcases List.mem_cons.mp hmem with rfl | hmem
    · exact fresh hx
    · exact off x (List.mem_cons_of_mem _ hx) hmem

/-- The ways on from the start alone: what comes after it on a cycle through distinct vertices. -/
theorem wayOn_start {way : List Nat} : WayOn successors start [start] way ↔
    ∃ rest, way = rest ++ [start] ∧ (start :: rest).Nodup ∧
      (start :: way).IsChain fun u w => w ∈ successors u := by
  constructor
  · intro h
    obtain ⟨rest, hway, unique, off, chain⟩ := h.toChain start [] rfl
    refine ⟨rest, hway, List.nodup_cons.mpr ⟨fun hmem => off start hmem ?_, unique⟩, chain⟩
    exact List.mem_singleton.mpr rfl
  · rintro ⟨rest, rfl, unique, chain⟩
    obtain ⟨fresh, unique⟩ := List.nodup_cons.mp unique
    refine .ofChain rest start [] unique (fun x hx hmem => fresh ?_) chain
    exact List.mem_singleton.mp hmem ▸ hx

/-- What holds wherever a chain goes holds of all but its first member. -/
theorem forall_of_isChain {P : Nat → Prop} {v : Nat} {l : List Nat}
    (chain : (v :: l).IsChain fun _ x => P x) : ∀ x ∈ l, P x := by
  have : Trans (fun _ x => P x) (fun _ x => P x) (fun (_ : Nat) x => P x) := ⟨fun _ hx => hx⟩
  exact fun x hx => chain.rel_cons hx

/-! ## One start -/

/-- **What the search from a start records**: the cycles made of the start and a way on from it, in
lexicographic order. -/
theorem Explores.cycles {r : Bool × CycleSearch}
    (h : Explores successors start [] start .start r)
    (increasing : ∀ v, (successors v).Pairwise (· < ·)) :
    r.2.cycles.reverse.Pairwise (· < ·) ∧ ∀ cycle, cycle ∈ r.2.cycles.reverse ↔
      ∃ way, cycle = start :: way ∧ WayOn successors start [start] way := by
  obtain ⟨t, scan, leaves⟩ := h
  have entered : Invariant successors start [start] (CycleSearch.start.block start) :=
    invariant_start.enter (by simp [CycleSearch.start])
  obtain ⟨ways, recorded, inc, mem_iff⟩ := scan.finds increasing start [] rfl entered (by simp)
    (fun _ h => h) (increasing start)
  have cycles : r.2.cycles.reverse = ways.map (start :: ·) := by
    rw [leaves.cycles, recorded]
    simp [CycleSearch.block, CycleSearch.start]
  rw [cycles]
  refine ⟨List.pairwise_map.mpr (inc.imp fun h => List.Lex.cons h), ?_⟩
  intro cycle
  rw [List.mem_map]
  constructor
  · rintro ⟨way, hway, rfl⟩
    exact ⟨way, rfl, ((mem_iff way).mp hway).1⟩
  · rintro ⟨way, rfl, hway⟩
    exact ⟨way, (mem_iff way).mpr ⟨hway, hway.head_mem⟩, rfl⟩

/-! ## Cycles and components -/

variable {a : Adjacency} {least : Nat}

/-- The vertices of a cycle reach each other among the vertices from `least` on. -/
theorem ElementaryCycle.reach {first : Nat} {rest : List Nat} (hleast : least ≤ first)
    (hfirst : ∀ v ∈ rest, first ≤ v) (chain : (first :: rest ++ [first]).IsChain a.Edge) :
    TransGen (a.Arc least) first first ∧ ∀ v ∈ rest,
      TransGen (a.Arc least) first v ∧ TransGen (a.Arc least) v first := by
  have above : ∀ v ∈ first :: rest ++ [first], least ≤ v := by
    intro v hv
    have : v = first ∨ v ∈ rest := by simp at hv; tauto
    rcases this with rfl | h
    · exact hleast
    · exact hleast.trans (hfirst v h)
  have arcs : (first :: rest ++ [first]).IsChain (TransGen (a.Arc least)) :=
    chain.imp_of_mem_imp fun u v hu hv h => .single ⟨above u hu, above v hv, h⟩
  -- reaching is transitive, so what a chain says of neighbours holds of any two
  have pairs := List.isChain_iff_pairwise.mp arcs
  rw [List.cons_append, List.pairwise_cons, List.pairwise_append] at pairs
  obtain ⟨after, _, _, before⟩ := pairs
  refine ⟨after first (by simp), fun v hv => ⟨after v (by simp [hv]), ?_⟩⟩
  exact before v hv first (by simp)

/-- The least vertex of an elementary cycle lies on a cycle of the vertices from any number up to it. -/
theorem ElementaryCycle.cyclic {cycle : List Nat} {v : Nat} (h : ElementaryCycle a.Edge cycle)
    (head : cycle.head? = some v) (hv : least ≤ v) : TransGen (a.Arc least) v v := by
  obtain ⟨first, rest, rfl, _, hfirst, chain⟩ := h
  obtain rfl : first = v := Option.some.inj head
  exact (ElementaryCycle.reach hv hfirst chain).1

/-- **The cycles through the start inside its component** are the elementary cycles from it. -/
theorem LeastCyclic.wayOn_iff {component cycle : List Nat}
    (h : LeastCyclic a least start component) :
    (∃ way, cycle = start :: way ∧ WayOn (within a component) start [start] way) ↔
      ElementaryCycle a.Edge cycle ∧ cycle.head? = some start := by
  have hleast : least ≤ start := h.le
  constructor
  · rintro ⟨way, rfl, hway⟩
    obtain ⟨rest, rfl, unique, chain⟩ := wayOn_start.mp hway
    refine ⟨⟨start, rest, rfl, unique, ?_, ?_⟩, rfl⟩
    · intro v hv
      -- whatever the walk enters is in the component, so it lies on a cycle itself
      have entered : (start :: (rest ++ [start])).IsChain fun _ x => x ∈ component :=
        chain.imp fun _ x hx => List.contains_iff_mem.mp (List.mem_filter.mp hx).2
      have inside : v ∈ component := forall_of_isChain entered v (by simp [hv])
      obtain ⟨there, back⟩ := (h.component v).mp inside
      exact h.minimal v (back.trans there)
    · exact chain.imp fun _ _ hx => (List.mem_filter.mp hx).1
  · rintro ⟨⟨first, rest, rfl, unique, hfirst, chain⟩, head⟩
    obtain rfl : first = start := Option.some.inj head
    obtain ⟨itself, others⟩ := ElementaryCycle.reach hleast hfirst chain
    have inside : ∀ v ∈ first :: rest ++ [first], v ∈ component := by
      intro v hv
      rw [h.component]
      have : v = first ∨ v ∈ rest := by simp at hv; tauto
      rcases this with rfl | hv
      · exact ⟨itself, itself⟩
      · exact others v hv
    refine ⟨rest ++ [first], rfl, wayOn_start.mpr ⟨rest, rfl, unique, ?_⟩⟩
    exact chain.imp_of_mem_imp fun u v _ hv huv =>
      List.mem_filter.mpr ⟨huv, List.contains_iff_mem.mpr (inside v hv)⟩

/-! ## All starts -/

/-- **Runs of the enumeration** from a number on, given the strong components of the vertices from each
number on. -/
inductive Enumerates (g : Digraph) (components : Nat → List (List Nat)) :
    Nat → List (List Nat) → Prop
  | ended {least : Nat} : g.order ≤ least → Enumerates g components least []
  | acyclic {least : Nat} : least < g.order →
      g.leastCyclicComponent? least (components least) = none → Enumerates g components least []
  | next {least start : Nat} {component : List Nat} {r : Bool × CycleSearch}
      {later : List (List Nat)} : least < g.order →
      g.leastCyclicComponent? least (components least) = some (start, component) →
      Explores (within g.adjacency component) start [] start .start r →
      Enumerates g components (start + 1) later →
      Enumerates g components least (r.2.cycles.reverse ++ later)

variable {additions : List Addition} {components : Nat → List (List Nat)}

/-- From a number past all vertices on there is no cycle. -/
theorem acyclic_of_order_le (bounded : a.Bounded) (past : a.order ≤ least) (v : Nat) :
    ¬ TransGen (a.Arc least) v v := by
  intro cyclic
  have := Adjacency.lt_order_of_transGen bounded cyclic
  have := Adjacency.le_of_transGen cyclic
  omega

/-- **What every run lists**: the elementary cycles from a number on, each once, in strictly
increasing order. -/
theorem Enumerates.exact (strong : (build additions).StrongSince components)
    {cycles : List (List Nat)} (run : Enumerates (build additions) components least cycles) :
    cycles.Pairwise (· < ·) ∧ ∀ cycle, cycle ∈ cycles ↔
      ElementaryCycle (Joined additions) cycle ∧ ∃ v, cycle.head? = some v ∧ least ≤ v := by
  rw [← edge_adjacency_build]
  have nothing {least : Nat}
      (acyclic : ∀ v, ¬ TransGen ((build additions).adjacency.Arc least) v v) :
      ([] : List (List Nat)).Pairwise (· < ·) ∧ ∀ cycle, cycle ∈ [] ↔
        ElementaryCycle (build additions).adjacency.Edge cycle ∧
          ∃ v, cycle.head? = some v ∧ least ≤ v :=
    ⟨.nil, fun cycle => iff_of_false List.not_mem_nil fun ⟨h, v, head, hv⟩ =>
      acyclic v (h.cyclic head hv)⟩
  induction run with
  | ended past =>
    refine nothing (acyclic_of_order_le (bounded_adjacency _) ?_)
    rwa [order_adjacency]
  | acyclic _ unchosen => exact nothing (acyclic_of_none_chosen (strong _) unchosen)
  | @next least start component r later _ chosen explores _ ih =>
    have found := leastCyclic_of_chosen (strong least) chosen
    obtain ⟨inc, mem⟩ := explores.cycles fun v => (adjacency_increasing _ v).filter _
    have mem' : ∀ cycle, cycle ∈ r.2.cycles.reverse ↔
        ElementaryCycle (build additions).adjacency.Edge cycle ∧ cycle.head? = some start :=
      fun cycle => (mem cycle).trans found.wayOn_iff
    obtain ⟨incLater, memLater⟩ := ih
    constructor
    · refine List.pairwise_append.mpr ⟨inc, incLater, ?_⟩
      intro c hc c' hc'
      obtain ⟨_, v, head, hv⟩ := (memLater c').mp hc'
      exact lt_of_head_lt ((mem' c).mp hc).2 head hv
    · intro cycle
      rw [List.mem_append, mem', memLater]
      constructor
      · rintro (⟨h, head⟩ | ⟨h, v, head, hv⟩)
        · exact ⟨h, start, head, found.le⟩
        · exact ⟨h, v, head, found.le.trans (Nat.le_of_succ_le hv)⟩
      · rintro ⟨h, v, head, hv⟩
        have hle : start ≤ v := found.minimal v (h.cyclic head hv)
        rcases Nat.eq_or_lt_of_le hle with rfl | hlt
        · exact Or.inl ⟨h, head⟩
        · exact Or.inr ⟨h, v, head, hlt⟩

/-- Two runs list the same cycles in the same order, also when they are given different lists of the
strong components. -/
theorem Enumerates.unique {components' : Nat → List (List Nat)} {cycles cycles' : List (List Nat)}
    (strong : (build additions).StrongSince components)
    (strong' : (build additions).StrongSince components')
    (run : Enumerates (build additions) components least cycles)
    (run' : Enumerates (build additions) components' least cycles') : cycles = cycles' := by
  obtain ⟨inc, mem⟩ := run.exact strong
  obtain ⟨inc', mem'⟩ := run'.exact strong'
  have perm : cycles.Perm cycles' :=
    (List.perm_ext_iff_of_nodup inc.nodup inc'.nodup).mpr fun c => (mem c).trans (mem' c).symm
  exact perm.eq_of_pairwise (fun _ _ _ _ h h' => absurd (h.trans h') (lt_irrefl _)) inc inc'

/-! ## The enumeration is such a run -/

/-- The search from a start is a run. -/
theorem explores_cyclesAt (component : List Nat) (bounded : a.Bounded) (hstart : start < a.order) :
    ∃ r, Explores (within a component) start [] start .start r ∧
      cyclesAt a component start = r.2.cycles.reverse := by
  have inside : ∀ v, ∀ w ∈ within a component v, w < a.order :=
    fun v w hw => bounded v w (List.mem_filter.mp hw).1
  have inv : Invariant (within a component) start [] .start := invariant_start
  exact ⟨_, explores_circuit inside (a.order + 1) [] start .start (by simp) (by simp)
    (by simpa using hstart) inv (by simp [CycleSearch.start]), rfl⟩

/-- The enumeration is a run: each start is above the last, so there are not more of them than there
are vertices. -/
theorem enumerates_cyclesFrom (strong : (build additions).StrongSince components)
    (fuel least : Nat) (enough : (build additions).order < least + fuel) :
    Enumerates (build additions) components least
      ((build additions).cyclesFrom components fuel least) := by
  induction fuel generalizing least with
  | zero => exact .ended (Nat.le_of_lt enough)
  | succ fuel ih =>
    rw [cyclesFrom]
    split
    · next inside =>
      split
      · next unchosen => exact .acyclic inside unchosen
      · next start component chosen =>
        have found := leastCyclic_of_chosen (strong least) chosen
        have bounded := bounded_adjacency (build additions)
        obtain ⟨r, explores, cycles⟩ :=
          explores_cyclesAt component bounded (Adjacency.lt_order_of_transGen bounded found.cyclic)
        have := found.le
        rw [cycles]
        exact .next inside chosen explores (ih (start + 1) (by omega))
    · next past => exact .ended (Nat.le_of_not_lt past)

theorem enumerates_elementaryCyclesOf (strong : (build additions).StrongSince components) :
    Enumerates (build additions) components 0 ((build additions).elementaryCyclesOf components) :=
  enumerates_cyclesFrom strong _ 0 (by omega)

/-! ## Built graphs -/

theorem mem_elementaryCyclesOf (strong : (build additions).StrongSince components)
    {cycle : List Nat} : cycle ∈ (build additions).elementaryCyclesOf components ↔
      ElementaryCycle (Joined additions) cycle := by
  rw [((enumerates_elementaryCyclesOf strong).exact strong).2]
  refine ⟨And.left, fun h => ⟨h, ?_⟩⟩
  obtain ⟨first, rest, rfl, _⟩ := h
  exact ⟨first, rfl, Nat.zero_le _⟩

/-- The vertices of a cycle are vertices of the graph: an edge leads to each. -/
theorem ElementaryCycle.lt_order {cycle : List Nat} (h : ElementaryCycle (Joined additions) cycle) :
    ∀ v ∈ cycle, v < (build additions).order := by
  obtain ⟨first, rest, rfl, _, _, chain⟩ := h
  have links : (first :: rest ++ [first]).IsChain fun _ v => v < (build additions).order :=
    chain.imp fun _ _ h => (lt_order_of_joined h).2
  have entered := forall_of_isChain links
  intro v hv
  exact (List.mem_cons.mp hv).elim (fun heq => heq ▸ entered first (by simp)) (entered v)

/-- Names tell cycles apart. -/
theorem nodup_namedCyclesOf (strong : (build additions).StrongSince components) :
    ((build additions).namedCyclesOf components).Nodup := by
  have increasing := ((enumerates_elementaryCyclesOf strong).exact strong).1
  have read : ∀ cycle ∈ (build additions).elementaryCyclesOf components,
      (cycle.map (build additions).name).map (build additions).id? = cycle.map some := by
    intro cycle hc
    rw [List.map_map]
    apply List.map_congr_left
    intro v hv
    have hlt := ((mem_elementaryCyclesOf strong).mp hc).lt_order v hv
    exact id?_of_name? (reflects_build additions).unique (name?_eq_name hlt)
  apply increasing.nodup.map_on
  intro c hc c' hc' heq
  apply List.map_injective_iff.mpr (Option.some_injective Nat)
  rw [← read c hc, ← read c' hc', heq]

/-- **The cycles of a built graph**, whatever the lists of strong components among which the starts are
chosen. The enumeration ends, and all its runs have one outcome, whatever the lists they are given; it
lists the elementary cycles along the added edges and nothing else, each once and in strictly
increasing order; and their names are listed in the same order, each cycle once. -/
theorem namedCycles_list_elementary_cycles (additions : List Addition)
    {components : Nat → List (List Nat)}
    (strong : (build additions).StrongSince components) :
    let g := build additions
    Enumerates g components 0 (g.elementaryCyclesOf components) ∧
    (∀ components' cycles, g.StrongSince components' → Enumerates g components' 0 cycles →
      cycles = g.elementaryCyclesOf components) ∧
    (g.elementaryCyclesOf components).Pairwise (· < ·) ∧
    (∀ cycle, cycle ∈ g.elementaryCyclesOf components ↔ ElementaryCycle (Joined additions) cycle) ∧
    (g.namedCyclesOf components).map (·.map some) =
      (g.elementaryCyclesOf components).map (·.map g.name?) ∧
    (g.namedCyclesOf components).Nodup := by
  intro g
  have run := enumerates_elementaryCyclesOf strong
  refine ⟨run, fun _ _ strong' run' => run'.unique strong' strong run, (run.exact strong).1,
    fun _ => mem_elementaryCyclesOf strong, ?_, nodup_namedCyclesOf strong⟩
  rw [namedCyclesOf, List.map_map]
  apply List.map_congr_left
  intro cycle hc
  rw [Function.comp_apply, List.map_map]
  apply List.map_congr_left
  intro v hv
  exact (name?_eq_name (((mem_elementaryCyclesOf strong).mp hc).lt_order v hv)).symm

/-- Two cycles that share a vertex, and a loop there. -/
def sharingAdditions : List Addition :=
  [.edge "a" "b", .edge "b" "a", .edge "b" "c", .edge "c" "b", .edge "b" "b"]

/-- After the cycle through the first vertex come the loop and the other cycle, which are found from the
second. From the third on nothing is chosen: the second has a loop, but lies below. -/
theorem sharing_cycles_are_listed :
    let g := build sharingAdditions
    g.StrongSince g.componentsSince ∧
      g.leastCyclicComponent? 0 (g.componentsSince 0) = some (0, [1, 0, 2]) ∧
      g.leastCyclicComponent? 1 (g.componentsSince 1) = some (1, [1, 2]) ∧
      g.leastCyclicComponent? 2 (g.componentsSince 2) = none ∧
      ∀ cycles, Enumerates g g.componentsSince 0 cycles → cycles = [[0, 1, 0], [1, 1], [1, 2, 1]] := by
  intro g
  have strong : g.StrongSince g.componentsSince := strongSince_componentsSince g
  obtain ⟨-, unique, -⟩ := namedCycles_list_elementary_cycles sharingAdditions strong
  have listed : g.elementaryCyclesOf g.componentsSince = [[0, 1, 0], [1, 1], [1, 2, 1]] := by
    decide +kernel
  refine ⟨strong, ?_, ?_, ?_, fun cycles run => (unique _ cycles strong run).trans listed⟩
  · decide +kernel
  · decide +kernel
  · decide +kernel

end PhpAudit.Digraph
