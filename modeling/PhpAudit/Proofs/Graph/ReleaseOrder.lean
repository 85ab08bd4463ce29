import Mathlib.Data.List.Chain
import Mathlib.Logic.Relation
import Mathlib.Order.Bounds.Defs
import Mathlib.Tactic.ByContra
import PhpAudit.Proofs.Graph.Release

/-!
# The order in which vertices are set free

The vertices that wait for a vertex have no order, and a call that sets the vertex free may take them
in any. While it goes through them it takes them off, calls itself for those that are blocked, and may
come back to vertices that other calls are going through: who waits for whom may be a circle, or a
vertex that waits for itself.

`Step` is this with its order left open. The calls in progress are a stack, and each of them remembers
whom it has taken: it takes nobody twice, and nobody who was taken off before.

**The law** (`freeing_ends_in_one_state`): every run ends, with at most twice as many steps as entries
of waiting vertices, and one more, and with never more calls in progress than blocked vertices, and one
more; and there is one state in which all runs end. It is what the search gives, and what `Outcome` says
of the vertices released.

A step takes an entry off, or ends a call: that bounds a run (`Step.work_lt`). What a run does between
the start of a call and its end is what `Drains` says (`Unwinds`), and all runs of that leave one state
(`Drains.unique`).
-/

namespace PhpAudit.Digraph.CycleSearch

open Relation (ReflTransGen)

/-- **A call in progress**: the vertex that it sets free, and those it has taken of the vertices that
wait for it. -/
structure Freeing where
  vertex : Nat
  taken : List Nat

/-- **A stage of setting a vertex free**: the calls in progress, the last first, and the state. -/
structure Stage where
  calls : List Freeing
  state : CycleSearch

/-- A call starts: its vertex is not blocked any more, and it has taken nobody. -/
def Stage.enter (u : Nat) (calls : List Freeing) (s : CycleSearch) : Stage :=
  ⟨⟨u, []⟩ :: calls, s.free u⟩

@[simp] theorem calls_enter (u : Nat) (calls : List Freeing) (s : CycleSearch) :
    (Stage.enter u calls s).calls = ⟨u, []⟩ :: calls := rfl

@[simp] theorem state_enter (u : Nat) (calls : List Freeing) (s : CycleSearch) :
    (Stage.enter u calls s).state = s.free u := rfl

/-- The stage with which setting a vertex free starts. -/
def Stage.first (u : Nat) (s : CycleSearch) : Stage := .enter u [] s

/-- **A step of the last call.** It takes off any vertex that waits still and that it has not taken, and
sets it free in turn when it is blocked. When there is none, it ends. -/
inductive Step : Stage → Stage → Prop
  | pass {u w : Nat} {taken : List Nat} {calls : List Freeing} {s : CycleSearch} :
      w ∈ s.waitingFor u → w ∉ taken → w ∉ s.blocked →
      Step ⟨⟨u, taken⟩ :: calls, s⟩ ⟨⟨u, w :: taken⟩ :: calls, s.unwait w u⟩
  | release {u w : Nat} {taken : List Nat} {calls : List Freeing} {s : CycleSearch} :
      w ∈ s.waitingFor u → w ∉ taken → w ∈ s.blocked →
      Step ⟨⟨u, taken⟩ :: calls, s⟩ (.enter w (⟨u, w :: taken⟩ :: calls) (s.unwait w u))
  | leave {u : Nat} {taken : List Nat} {calls : List Freeing} {s : CycleSearch} :
      (∀ w ∈ s.waitingFor u, w ∈ taken) → Step ⟨⟨u, taken⟩ :: calls, s⟩ ⟨calls, s⟩

variable {s t : CycleSearch} {u w : Nat} {p q : Stage}

/-! ## Every run ends -/

/-- **How much there is to do** at most: to take off whoever waits, with a call for each, and to end
the calls in progress. -/
def Stage.work (p : Stage) : Nat := 2 * p.state.waits.length + p.calls.length

theorem length_waits_unwait_lt (hwait : w ∈ s.waitingFor u) :
    (s.unwait w u).waits.length < s.waits.length := by
  apply List.length_filter_lt_length_iff_exists.mpr
  exact ⟨(u, w), mem_waitingFor.mp hwait, by simp⟩

/-- **Every step leaves less to do.** -/
theorem Step.work_lt (step : Step p q) : q.work < p.work := by
  cases step with
  | pass hwait _ _ =>
    have fewer := length_waits_unwait_lt hwait
    simp only [Stage.work, List.length_cons]
    omega
  | release hwait _ _ =>
    have fewer := length_waits_unwait_lt hwait
    simp only [Stage.work, calls_enter, state_enter, waits_free, List.length_cons]
    omega
  | leave _ => exact Nat.lt_succ_self _

/-- A run has no more steps than there was to do. -/
theorem length_le_work (stages : List Stage) (p : Stage) (run : (p :: stages).IsChain Step) :
    stages.length ≤ p.work := by
  induction stages generalizing p with
  | nil => exact Nat.zero_le _
  | cons q stages ih =>
    obtain ⟨step, rest⟩ := List.isChain_cons_cons.mp run
    exact Nat.succ_le_of_lt (Nat.lt_of_le_of_lt (ih q rest) step.work_lt)

/-- A run goes on as long as a call is in progress. -/
theorem ended_or_step (p : Stage) : p.calls = [] ∨ ∃ q, Step p q := by
  obtain ⟨calls, s⟩ := p
  rcases calls with _ | ⟨⟨u, taken⟩, calls⟩
  · exact .inl rfl
  right
  by_cases left : ∃ w ∈ s.waitingFor u, w ∉ taken
  · obtain ⟨w, hwait, fresh⟩ := left
    by_cases hblocked : w ∈ s.blocked
    · exact ⟨_, .release hwait fresh hblocked⟩
    · exact ⟨_, .pass hwait fresh hblocked⟩
  · refine ⟨_, .leave ?_⟩
    intro w hwait
    by_contra fresh
    exact left ⟨w, hwait, fresh⟩

/-- A call is made for a blocked vertex only, which is blocked no longer. -/
theorem Step.depth_le (step : Step p q) :
    q.calls.length + q.state.blocked.length ≤ p.calls.length + p.state.blocked.length := by
  cases step with
  | pass _ _ _ => exact Nat.le_refl _
  | @release u w taken calls s _ _ hblocked =>
    have fewer : ((s.unwait w u).free w).blocked.length < s.blocked.length :=
      length_blocked_free_lt hblocked
    simp only [calls_enter, state_enter, List.length_cons]
    omega
  | leave _ => exact Nat.add_le_add_right (Nat.le_succ _) _

/-- No more calls are in progress than vertices were blocked, and one. -/
theorem depth_le_of_run (run : ReflTransGen Step (.first u s) p) :
    p.calls.length ≤ s.blocked.length + 1 := by
  have bound : p.calls.length + p.state.blocked.length ≤ 1 + (s.free u).blocked.length := by
    induction run with
    | refl => exact Nat.le_refl _
    | tail _ step ih => exact Nat.le_trans step.depth_le ih
  have fewer : (s.free u).blocked.length ≤ s.blocked.length := List.length_filter_le _ _
  omega

/-! ## A run is what its calls say -/

/-- **Whom a call has taken does not wait any more.** -/
def Freeing.TakenOff (c : Freeing) (s : CycleSearch) : Prop := ∀ w ∈ c.taken, w ∉ s.waitingFor c.vertex

theorem takenOff_nil : Freeing.TakenOff ⟨u, []⟩ s := by
  intro w hw
  cases hw

theorem Freeing.TakenOff.of_subset {c : Freeing} (off : c.TakenOff s) (sub : t.waits ⊆ s.waits) :
    c.TakenOff t := by
  intro w hw hwait
  exact off w hw (mem_waitingFor.mpr (sub (mem_waitingFor.mp hwait)))

theorem waits_unwait_subset : (s.unwait w u).waits ⊆ s.waits :=
  fun _ h => (mem_waits_unwait.mp h).1

theorem Freeing.TakenOff.take {taken : List Nat} (off : Freeing.TakenOff ⟨u, taken⟩ s) (w : Nat) :
    Freeing.TakenOff ⟨u, w :: taken⟩ (s.unwait w u) := by
  intro x hx hwait
  obtain ⟨old, other⟩ := mem_waits_unwait.mp (mem_waitingFor.mp hwait)
  rcases List.mem_cons.mp hx with rfl | hx
  · exact other rfl
  · exact off x hx (mem_waitingFor.mpr old)

/-- Every step keeps this of all calls in progress. -/
theorem Step.takenOff (step : Step p q) (off : ∀ c ∈ p.calls, c.TakenOff p.state) :
    ∀ c ∈ q.calls, c.TakenOff q.state := by
  cases step with
  | @pass u w taken calls s _ _ _ =>
    obtain ⟨last, rest⟩ := List.forall_mem_cons.mp off
    refine List.forall_mem_cons.mpr ⟨last.take w, ?_⟩
    intro c hc
    exact (rest c hc).of_subset waits_unwait_subset
  | @release u w taken calls s _ _ _ =>
    obtain ⟨last, rest⟩ := List.forall_mem_cons.mp off
    refine List.forall_mem_cons.mpr ⟨takenOff_nil, List.forall_mem_cons.mpr ⟨last.take w, ?_⟩⟩
    intro c hc
    exact (rest c hc).of_subset waits_unwait_subset
  | leave _ => exact (List.forall_mem_cons.mp off).2

/-- **What is still to come of calls in progress**: each takes care of its vertex, the last first. -/
def Unwinds : List Freeing → CycleSearch → CycleSearch → Prop
  | [], s, s' => s = s'
  | c :: calls, s, s' => ∃ t, Drains c.vertex s t ∧ Unwinds calls t s'

/-- A step is the beginning of what is to come. -/
theorem Step.unwinds (step : Step p q) (off : ∀ c ∈ p.calls, c.TakenOff p.state)
    (rest : Unwinds q.calls q.state t) : Unwinds p.calls p.state t := by
  cases step with
  | pass hwait _ hfree =>
    obtain ⟨_, run, rest⟩ := rest
    exact ⟨_, .pass (mem_waitingFor.mp hwait) hfree run, rest⟩
  | release hwait _ hblocked =>
    obtain ⟨_, inner, _, outer, rest⟩ := rest
    exact ⟨_, .release (mem_waitingFor.mp hwait) hblocked inner outer, rest⟩
  | @leave u taken calls s all =>
    -- whoever waits was taken, and whoever was taken does not wait: so nobody does
    refine ⟨s, .done ?_, rest⟩
    intro w hwait
    have waits := mem_waitingFor.mpr hwait
    exact off _ List.mem_cons_self w (all w waits) waits

/-- A run that ends has done what was to come. -/
theorem unwinds_of_run (run : ReflTransGen Step p ⟨[], t⟩)
    (off : ∀ c ∈ p.calls, c.TakenOff p.state) : Unwinds p.calls p.state t := by
  induction run using ReflTransGen.head_induction_on with
  | refl => rfl
  | head step _ ih => exact step.unwinds off (ih (step.takenOff off))

/-- A call can be run to its end, whatever calls are in progress around it. -/
theorem Drains.steps {taken : List Nat} (run : Drains u s t) (off : Freeing.TakenOff ⟨u, taken⟩ s)
    (calls : List Freeing) : ReflTransGen Step ⟨⟨u, taken⟩ :: calls, s⟩ ⟨calls, t⟩ := by
  induction run generalizing taken calls with
  | done nobody =>
    apply ReflTransGen.single
    apply Step.leave
    intro w hwait
    exact absurd (mem_waitingFor.mp hwait) (nobody w)
  | @pass u w s t hwait hfree _ ih =>
    have waits := mem_waitingFor.mpr hwait
    have fresh : w ∉ taken := fun h => off w h waits
    exact .head (.pass waits fresh hfree) (ih (off.take w) calls)
  | @release u w s t s' hwait hblocked first _ ih₁ ih₂ =>
    have waits := mem_waitingFor.mpr hwait
    have fresh : w ∉ taken := fun h => off w h waits
    have inner := ih₁ takenOff_nil (⟨u, w :: taken⟩ :: calls)
    -- the calls made in between only take off more
    have outer := ih₂ ((off.take w).of_subset first.cutDown.waits_subset) calls
    exact .head (.release waits fresh hblocked) (inner.trans outer)

/-- **The states in which runs end.** -/
theorem run_iff_drains : ReflTransGen Step (.first u s) ⟨[], t⟩ ↔ Drains u (s.free u) t := by
  constructor
  · intro run
    have off : ∀ c ∈ (Stage.first u s).calls, c.TakenOff (Stage.first u s).state :=
      List.forall_mem_singleton.mpr takenOff_nil
    obtain ⟨_, drains, rfl⟩ := unwinds_of_run run off
    exact drains
  · intro drains
    exact drains.steps takenOff_nil []

/-! ## The law -/

/-- The released vertices are the least set that holds the vertex and every blocked vertex that waits
for a member. -/
theorem isLeast_released (s : CycleSearch) (u : Nat) :
    IsLeast {R : Set Nat | u ∈ R ∧ ∀ x ∈ R, ∀ w ∈ s.blocked, w ∈ s.waitingFor x → w ∈ R}
      {x | Released s u x} := by
  constructor
  · refine ⟨.self, ?_⟩
    intro x hx w hblocked hwait
    exact Released.waiting hx (mem_waitingFor.mp hwait) hblocked
  · rintro R ⟨hu, closed⟩ x hx
    induction hx with
    | self => exact hu
    | @waiting y w _ hwait hblocked ih => exact closed y ih w hblocked (mem_waitingFor.mpr hwait)

/-- **Setting a vertex free ends, and in one state, whatever the order.** A run has at most twice as many
steps as entries of waiting vertices, and one more; never are more calls in progress than vertices were
blocked, and one more; and each run goes on until no call is in progress. The state is then the same for
all: the vertices of the least set that holds `u` and every blocked vertex that waits for a member are
free, nobody waits for them, and nothing else has changed. With more fuel than vertices are blocked, the
search gives that state. -/
theorem freeing_ends_in_one_state (s : CycleSearch) (u : Nat) :
    IsLeast {R : Set Nat | u ∈ R ∧ ∀ x ∈ R, ∀ w ∈ s.blocked, w ∈ s.waitingFor x → w ∈ R}
      {x | Released s u x} ∧
    (∀ stages, (Stage.first u s :: stages).IsChain Step →
      stages.length ≤ 2 * s.waits.length + 1) ∧
    (∀ p, ReflTransGen Step (.first u s) p →
      p.calls.length ≤ s.blocked.length + 1 ∧ (p.calls = [] ∨ ∃ q, Step p q)) ∧
    ∃ t, Outcome s u t ∧ ReflTransGen Step (.first u s) ⟨[], t⟩ ∧
      (∀ p, ReflTransGen Step (.first u s) p → p.calls = [] → p.state = t) ∧
      ∀ fuel, s.blocked.length < fuel → unblock fuel u s = t := by
  have free : u ∉ (s.free u).blocked := fun h => (mem_blocked_free.mp h).2 rfl
  have searched {fuel : Nat} (enough : s.blocked.length < fuel) :
      Drains u (s.free u) (unblock fuel u s) :=
    drains_unblock fuel u s (Nat.lt_of_le_of_lt (List.length_filter_le _ _) enough)
  have drains := searched (Nat.lt_succ_self _)
  refine ⟨isLeast_released s u, fun stages run => length_le_work stages _ run, ?_, ?_⟩
  · intro p run
    exact ⟨depth_le_of_run run, ended_or_step p⟩
  · refine ⟨_, drains.outcome_free, run_iff_drains.mpr drains, ?_, ?_⟩
    · rintro ⟨calls, t⟩ run rfl
      exact (run_iff_drains.mp run).unique drains free
    · intro fuel enough
      exact (searched enough).unique drains free

/-- Two vertices that wait for each other and for a third, which waits for itself; one that waits and is
free; and one that has nothing to do with them. -/
def tangle : CycleSearch :=
  ⟨[0, 1, 2, 5], [(0, 0), (0, 1), (0, 2), (1, 2), (2, 1), (2, 3), (4, 5)], []⟩

/-- The search for the vertices set free with the first takes the second before the third. A run that
takes the third first, and the second for it, ends in the same state. -/
theorem third_before_second_ends_alike :
    ReflTransGen Step (.first 0 tangle) ⟨[], ⟨[5], [(4, 5)], []⟩⟩ ∧
      unblock 5 0 tangle = ⟨[5], [(4, 5)], []⟩ := by
  have run : ReflTransGen Step (.first 0 tangle) ⟨[], ⟨[5], [(4, 5)], []⟩⟩ := by
    refine .head (@Step.release 0 2 _ _ _ (by decide) (by decide) (by decide)) ?_
    refine .head (@Step.release 2 1 _ _ _ (by decide) (by decide) (by decide)) ?_
    refine .head (@Step.pass 1 2 _ _ _ (by decide) (by decide) (by decide)) ?_
    refine .head (Step.leave (by decide)) ?_
    refine .head (@Step.pass 2 3 _ _ _ (by decide) (by decide) (by decide)) ?_
    refine .head (Step.leave (by decide)) ?_
    refine .head (@Step.pass 0 0 _ _ _ (by decide) (by decide) (by decide)) ?_
    refine .head (@Step.pass 0 1 _ _ _ (by decide) (by decide) (by decide)) ?_
    exact .single (Step.leave (by decide))
  obtain ⟨-, -, -, t, -, -, same, search⟩ := freeing_ends_in_one_state tangle 0
  have ended : (⟨[5], [(4, 5)], []⟩ : CycleSearch) = t := same ⟨[], _⟩ run rfl
  exact ⟨run, (search 5 (by decide)).trans ended.symm⟩

end PhpAudit.Digraph.CycleSearch
