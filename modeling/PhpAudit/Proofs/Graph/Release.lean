import Mathlib.Tactic.Tauto
import PhpAudit.Graph.Cycles

/-!
# Setting vertices free

Setting a vertex free sets free the blocked vertices that wait for it, and so on. Which ones these
are is a set said without the search, `Released`: the least one that holds the vertex and every
blocked vertex that waits for a member.

`Drains` is the search itself, without a bound on its depth and with the waiting vertices taken in
any order. Every run of it has the same outcome (`Drains.outcome`): exactly the released vertices
are free, nobody waits for them, and all else is as it was. As nothing is put anywhere, that is one
state for all of them (`Drains.unique`). `unblock` is such a run (`drains_unblock`), so its bound is
never what stops it.
-/

namespace PhpAudit.Digraph.CycleSearch

/-- **The vertices set free with a vertex.** -/
inductive Released (s : CycleSearch) (u : Nat) : Nat → Prop
  | self : Released s u u
  | waiting {x w : Nat} : Released s u x → (x, w) ∈ s.waits → w ∈ s.blocked → Released s u w

/-- A vertex is not blocked any more. -/
def free (s : CycleSearch) (u : Nat) : CycleSearch := { s with blocked := s.blocked.filter (· ≠ u) }

/-- **Runs that take care of the vertices waiting for `u`**, which is free: one of them at a time,
in any order, and with each that is blocked those that wait for it. -/
inductive Drains : Nat → CycleSearch → CycleSearch → Prop
  | done {u : Nat} {s : CycleSearch} : (∀ w, (u, w) ∉ s.waits) → Drains u s s
  | pass {u w : Nat} {s s' : CycleSearch} : (u, w) ∈ s.waits → w ∉ s.blocked →
      Drains u (s.unwait w u) s' → Drains u s s'
  | release {u w : Nat} {s t s' : CycleSearch} : (u, w) ∈ s.waits → w ∈ s.blocked →
      Drains w ((s.unwait w u).free w) t → Drains u t s' → Drains u s s'

/-! ## The parts of a state -/

variable {s t t' : CycleSearch} {u w x : Nat}

theorem isBlocked_iff : s.isBlocked w = true ↔ w ∈ s.blocked := by
  rw [isBlocked, List.contains_iff_mem]

@[simp] theorem mem_blocked_free : x ∈ (s.free u).blocked ↔ x ∈ s.blocked ∧ x ≠ u := by
  simp [free]

@[simp] theorem waits_free : (s.free u).waits = s.waits := rfl

@[simp] theorem blocked_unwait : (s.unwait w u).blocked = s.blocked := rfl

@[simp] theorem mem_waits_unwait {p : Nat × Nat} :
    p ∈ (s.unwait w u).waits ↔ p ∈ s.waits ∧ p ≠ (u, w) := by
  simp [unwait]

theorem mem_waitingFor : w ∈ s.waitingFor u ↔ (u, w) ∈ s.waits := by
  simp [waitingFor]

/-! ## The released vertices -/

theorem Released.mem_blocked (h : Released s u x) : x = u ∨ x ∈ s.blocked := by
  cases h with
  | self => exact Or.inl rfl
  | waiting _ _ hb => exact Or.inr hb

/-- The vertex itself is released. -/
theorem ne_of_not_released (h : ¬ Released s u x) : x ≠ u := by
  rintro rfl
  exact h .self

/-- With fewer blocked and fewer waiting vertices, fewer are released. -/
theorem Released.mono (hb : t.blocked ⊆ s.blocked) (hw : t.waits ⊆ s.waits) (base : Released s u w)
    (h : Released t w x) : Released s u x := by
  induction h with
  | self => exact base
  | waiting _ hwait hblocked ih => exact ih.waiting (hw hwait) (hb hblocked)

/-- The vertex that is set free need not be blocked for others to be released with it. -/
theorem released_free : Released (s.free u) u x ↔ Released s u x := by
  constructor
  · exact Released.mono (fun _ h => (mem_blocked_free.mp h).1) (fun _ h => h) .self
  · intro h
    induction h with
    | self => exact .self
    | @waiting _ w _ hwait hblocked ih =>
      by_cases hwu : w = u
      · subst hwu
        exact .self
      · exact ih.waiting hwait (mem_blocked_free.mpr ⟨hblocked, hwu⟩)

/-- With nobody waiting for it, a vertex is released alone. -/
theorem released_of_nobody (nobody : ∀ w, (u, w) ∉ s.waits) : Released s u x ↔ x = u := by
  constructor
  · intro h
    induction h with
    | self => rfl
    | waiting _ hwait _ ih =>
      subst ih
      exact absurd hwait (nobody _)
  · rintro rfl
    exact .self

/-! ## Every run has the same outcome -/

/-- **What a run leaves**: the released vertices are free, nobody waits for them, and all else is as
it was. -/
structure Outcome (s : CycleSearch) (u : Nat) (s' : CycleSearch) : Prop where
  blocked : ∀ x, x ∈ s'.blocked ↔ x ∈ s.blocked ∧ ¬ Released s u x
  waits : ∀ x w, (x, w) ∈ s'.waits ↔ (x, w) ∈ s.waits ∧ ¬ Released s u x
  cycles : s'.cycles = s.cycles

/-- Taking a waiting vertex that is not blocked off the list releases nothing else. -/
theorem released_unwait (free : w ∉ s.blocked) :
    Released (s.unwait w u) u x ↔ Released s u x := by
  constructor
  · exact Released.mono (fun _ h => h) (fun _ h => (mem_waits_unwait.mp h).1) .self
  · intro h
    induction h with
    | self => exact .self
    | @waiting y z _ hwait hblocked ih =>
      refine ih.waiting (mem_waits_unwait.mpr ⟨hwait, ?_⟩) hblocked
      intro heq
      obtain ⟨rfl, rfl⟩ := Prod.mk.inj heq
      exact free hblocked

/-- **The released vertices in two portions**: those that go with one waiting vertex, and those that
still wait after that. -/
theorem released_split {s t : CycleSearch} {u w : Nat} (hwait : (u, w) ∈ s.waits)
    (hblocked : w ∈ s.blocked) (out : Outcome ((s.unwait w u).free w) w t) {x : Nat} :
    Released s u x ↔ Released ((s.unwait w u).free w) w x ∨ Released t u x := by
  have blocked_sub : ((s.unwait w u).free w).blocked ⊆ s.blocked :=
    fun _ h => (mem_blocked_free.mp h).1
  have waits_sub : ((s.unwait w u).free w).waits ⊆ s.waits := fun _ h => (mem_waits_unwait.mp h).1
  constructor
  · intro h
    induction h with
    | self => exact Or.inr .self
    | @waiting y z _ hyz hz ih =>
      by_cases hzw : z = w
      · subst hzw
        exact Or.inl .self
      have hz₁ : z ∈ ((s.unwait w u).free w).blocked := mem_blocked_free.mpr ⟨hz, hzw⟩
      have hyz₁ : (y, z) ∈ ((s.unwait w u).free w).waits :=
        mem_waits_unwait.mpr ⟨hyz, fun heq => hzw (Prod.mk.inj heq).2⟩
      by_cases hy : Released ((s.unwait w u).free w) w y
      · exact Or.inl (hy.waiting hyz₁ hz₁)
      by_cases hz' : Released ((s.unwait w u).free w) w z
      · exact Or.inl hz'
      · have hty := ih.resolve_left hy
        exact Or.inr (hty.waiting ((out.waits y z).mpr ⟨hyz₁, hy⟩) ((out.blocked z).mpr ⟨hz₁, hz'⟩))
  · rintro (h | h)
    · exact Released.mono blocked_sub waits_sub (Released.self.waiting hwait hblocked) h
    · exact Released.mono (fun x hx => blocked_sub ((out.blocked x).mp hx).1)
        (fun ⟨x, y⟩ hxy => waits_sub ((out.waits x y).mp hxy).1) .self h

/-- **The outcome of a run**, in whatever order the waiting vertices were taken. -/
theorem Drains.outcome {u : Nat} {s s' : CycleSearch} (run : Drains u s s') (hu : u ∉ s.blocked) :
    Outcome s u s' := by
  induction run with
  | @done u s nobody =>
    refine ⟨?_, ?_, rfl⟩
    · intro x
      rw [released_of_nobody nobody]
      exact ⟨fun h => ⟨h, fun heq => hu (heq ▸ h)⟩, And.left⟩
    · intro x w
      rw [released_of_nobody nobody]
      exact ⟨fun h => ⟨h, fun heq => nobody w (heq ▸ h)⟩, And.left⟩
  | @pass u w s s' _ hfree _ ih =>
    obtain ⟨blocked, waits, cycles⟩ := ih hu
    refine ⟨?_, ?_, cycles⟩
    · intro x
      rw [blocked, released_unwait hfree, blocked_unwait]
    · intro x y
      rw [waits, released_unwait hfree, mem_waits_unwait]
      -- the entry taken off belongs to `u`, which is released
      have other : ¬ Released s u x → (x, y) ≠ (u, w) :=
        fun hx heq => ne_of_not_released hx (Prod.mk.inj heq).1
      tauto
  | @release u w s t s' hwait hblocked _ _ ih₁ ih₂ =>
    have out := ih₁ (by simp)
    have ht : u ∉ t.blocked := fun h => hu (mem_blocked_free.mp ((out.blocked u).mp h).1).1
    obtain ⟨blocked, waits, cycles⟩ := ih₂ ht
    refine ⟨?_, ?_, cycles.trans out.cycles⟩
    · intro x
      rw [blocked, out.blocked, released_split hwait hblocked out, mem_blocked_free]
      have other : ¬ Released ((s.unwait w u).free w) w x → x ≠ w := ne_of_not_released
      tauto
    · intro x y
      rw [waits, out.waits, released_split hwait hblocked out, waits_free, mem_waits_unwait]
      have other : ¬ Released t u x → (x, y) ≠ (u, w) :=
        fun hx heq => ne_of_not_released hx (Prod.mk.inj heq).1
      tauto

/-- What setting a blocked or a free vertex free leaves. -/
theorem Drains.outcome_free {u : Nat} {s s' : CycleSearch} (run : Drains u (s.free u) s') :
    Outcome s u s' := by
  obtain ⟨blocked, waits, cycles⟩ := run.outcome (by simp)
  refine ⟨?_, ?_, cycles⟩
  · intro x
    rw [blocked, released_free, mem_blocked_free]
    have other : ¬ Released s u x → x ≠ u := ne_of_not_released
    tauto
  · intro x w
    rw [waits, released_free, waits_free]

/-! ## Every run leaves the same state -/

/-- **A state is cut down** to another: blocked vertices and waiting ones are left out, and those that
are left stand in their old order. -/
def CutDown (s t : CycleSearch) : Prop :=
  ∃ (stays : Nat → Bool) (waits : Nat × Nat → Bool),
    t = ⟨s.blocked.filter stays, s.waits.filter waits, s.cycles⟩

theorem CutDown.refl (s : CycleSearch) : CutDown s s := by
  refine ⟨fun _ => true, fun _ => true, ?_⟩
  rw [List.filter_eq_self.mpr fun _ _ => rfl, List.filter_eq_self.mpr fun _ _ => rfl]

theorem CutDown.trans (first : CutDown s t) (second : CutDown t t') : CutDown s t' := by
  obtain ⟨stays, waits, rfl⟩ := first
  obtain ⟨stays', waits', rfl⟩ := second
  refine ⟨fun x => stays' x && stays x, fun e => waits' e && waits e, ?_⟩
  rw [List.filter_filter, List.filter_filter]

theorem cutDown_free (s : CycleSearch) (u : Nat) : CutDown s (s.free u) := by
  refine ⟨fun x => x ≠ u, fun _ => true, ?_⟩
  rw [List.filter_eq_self.mpr fun _ _ => rfl, free]

theorem cutDown_unwait (s : CycleSearch) (w u : Nat) : CutDown s (s.unwait w u) := by
  refine ⟨fun _ => true, fun e => e ≠ (u, w), ?_⟩
  rw [List.filter_eq_self.mpr fun _ _ => rfl, unwait]

theorem CutDown.blocked_sublist (cut : CutDown s t) : t.blocked.Sublist s.blocked := by
  obtain ⟨_, _, rfl⟩ := cut
  exact List.filter_sublist

theorem CutDown.waits_subset (cut : CutDown s t) : t.waits ⊆ s.waits := by
  obtain ⟨_, _, rfl⟩ := cut
  exact List.filter_sublist.subset

/-- What a state is cut down to is known from who is left. -/
theorem CutDown.ext (cut : CutDown s t) (cut' : CutDown s t')
    (blocked : ∀ x, x ∈ t.blocked ↔ x ∈ t'.blocked) (waits : ∀ e, e ∈ t.waits ↔ e ∈ t'.waits) :
    t = t' := by
  obtain ⟨stays, holds, rfl⟩ := cut
  obtain ⟨stays', holds', rfl⟩ := cut'
  have blocked_eq : s.blocked.filter stays = s.blocked.filter stays' := by
    apply List.filter_congr
    intro x hx
    have same := blocked x
    rw [List.mem_filter, List.mem_filter, and_iff_right hx, and_iff_right hx] at same
    exact Bool.eq_iff_iff.mpr same
  have waits_eq : s.waits.filter holds = s.waits.filter holds' := by
    apply List.filter_congr
    intro e he
    have same := waits e
    rw [List.mem_filter, List.mem_filter, and_iff_right he, and_iff_right he] at same
    exact Bool.eq_iff_iff.mpr same
  rw [blocked_eq, waits_eq]

/-- Setting vertices free puts nothing anywhere. -/
theorem Drains.cutDown (run : Drains u s t) : CutDown s t := by
  induction run with
  | @done u s _ => exact .refl s
  | @pass u w s _ _ _ _ ih => exact (cutDown_unwait s w u).trans ih
  | @release u w s _ _ _ _ _ _ ih₁ ih₂ =>
    have entered : CutDown s ((s.unwait w u).free w) := (cutDown_unwait s w u).trans (cutDown_free _ w)
    exact (entered.trans ih₁).trans ih₂

/-- **All runs for a free vertex leave the same state.** -/
theorem Drains.unique (run : Drains u s t) (run' : Drains u s t') (hu : u ∉ s.blocked) : t = t' := by
  have out := run.outcome hu
  have out' := run'.outcome hu
  apply run.cutDown.ext run'.cutDown
  · intro x
    exact (out.blocked x).trans (out'.blocked x).symm
  · rintro ⟨x, w⟩
    exact (out.waits x w).trans (out'.waits x w).symm

/-! ## The search is such a run -/

/-- One waiting vertex, as the search takes it. -/
def takeWaiting (fuel u : Nat) (s : CycleSearch) (w : Nat) : CycleSearch :=
  if (s.unwait w u).isBlocked w then unblock fuel w (s.unwait w u) else s.unwait w u

theorem unblock_succ (fuel u : Nat) (s : CycleSearch) :
    unblock (fuel + 1) u s = ((s.free u).waitingFor u).foldl (takeWaiting fuel u) (s.free u) := rfl

theorem takeWaiting_of_mem (fuel : Nat) (h : w ∈ s.blocked) :
    takeWaiting fuel u s w = unblock fuel w (s.unwait w u) :=
  if_pos (isBlocked_iff.mpr h)

theorem takeWaiting_of_not_mem (fuel : Nat) (h : w ∉ s.blocked) :
    takeWaiting fuel u s w = s.unwait w u :=
  if_neg fun hb => h (isBlocked_iff.mp hb)

theorem unwait_of_not_mem (h : (u, w) ∉ s.waits) : s.unwait w u = s := by
  have : s.waits.filter (fun p => p ≠ (u, w)) = s.waits := by
    apply List.filter_eq_self.mpr
    intro p hp
    simpa using fun heq : p = (u, w) => h (heq ▸ hp)
  rw [unwait, this]

theorem length_blocked_free_lt (h : w ∈ s.blocked) :
    (s.free w).blocked.length < s.blocked.length := by
  apply List.length_filter_lt_length_iff_exists.mpr
  exact ⟨w, h, by simp⟩

/-- Taking the vertices of a list one after the other is a run, when the list holds all that wait,
and those of it that do not wait any more are free. -/
theorem drains_foldl {fuel u : Nat}
    (deeper : ∀ (w : Nat) (s : CycleSearch), (s.free w).blocked.length < fuel →
      Drains w (s.free w) (unblock fuel w s))
    (ws : List Nat) (s : CycleSearch) (hu : u ∉ s.blocked) (enough : s.blocked.length ≤ fuel)
    (complete : ∀ w, (u, w) ∈ s.waits → w ∈ ws)
    (settled : ∀ w ∈ ws, (u, w) ∈ s.waits ∨ w ∉ s.blocked) :
    Drains u s (ws.foldl (takeWaiting fuel u) s) := by
  induction ws generalizing s with
  | nil => exact .done fun w hw => by simpa using complete w hw
  | cons w ws ih =>
    rw [List.foldl_cons]
    have later : ∀ x ∈ ws, (u, x) ∈ s.waits ∨ x ∉ s.blocked :=
      fun x hx => settled x (List.mem_cons_of_mem _ hx)
    by_cases hblocked : w ∈ s.blocked
    · have hwait := (settled w List.mem_cons_self).resolve_right fun h => h hblocked
      have run := deeper w (s.unwait w u)
        (Nat.lt_of_lt_of_le (length_blocked_free_lt hblocked) enough)
      rw [takeWaiting_of_mem fuel hblocked]
      have out := run.outcome (by simp)
      have sub : (unblock fuel w (s.unwait w u)).blocked.Sublist s.blocked :=
        run.cutDown.blocked_sublist.trans List.filter_sublist
      -- the deeper run leaves the list of `u` alone, since `u` is free
      have kept : ¬ Released ((s.unwait w u).free w) w u := by
        intro h
        rcases h.mem_blocked with heq | hb
        · exact hu (heq ▸ hblocked)
        · exact hu (mem_blocked_free.mp hb).1
      refine .release hwait hblocked run
        (ih _ (fun h => hu (sub.subset h)) (Nat.le_trans sub.length_le enough) ?_ ?_)
      · intro x hx
        obtain ⟨hx, hne⟩ := mem_waits_unwait.mp ((out.waits u x).mp hx).1
        exact (List.mem_cons.mp (complete x hx)).resolve_left fun heq => hne (heq ▸ rfl)
      · intro x hx
        by_cases hxw : x = w
        · subst hxw
          exact Or.inr fun hb => (mem_blocked_free.mp ((out.blocked x).mp hb).1).2 rfl
        rcases later x hx with h | h
        · refine Or.inl ((out.waits u x).mpr ⟨mem_waits_unwait.mpr ⟨h, ?_⟩, kept⟩)
          exact fun heq => hxw (Prod.mk.inj heq).2
        · exact Or.inr fun hb => h (sub.subset hb)
    · rw [takeWaiting_of_not_mem fuel hblocked]
      have rest : Drains u (s.unwait w u) (ws.foldl (takeWaiting fuel u) (s.unwait w u)) := by
        refine ih _ hu enough ?_ ?_
        · intro x hx
          obtain ⟨hx, hne⟩ := mem_waits_unwait.mp hx
          exact (List.mem_cons.mp (complete x hx)).resolve_left fun heq => hne (heq ▸ rfl)
        · intro x hx
          by_cases hxw : x = w
          · exact Or.inr (hxw ▸ hblocked)
          · refine (later x hx).imp (fun h => mem_waits_unwait.mpr ⟨h, ?_⟩) id
            exact fun heq => hxw (Prod.mk.inj heq).2
      by_cases hwait : (u, w) ∈ s.waits
      · exact .pass hwait hblocked rest
      · rwa [unwait_of_not_mem hwait] at rest ⊢

/-- **The search for the vertices to set free is a run**: with as much fuel as vertices are blocked,
it is not cut off. -/
theorem drains_unblock (fuel u : Nat) (s : CycleSearch)
    (enough : (s.free u).blocked.length < fuel) :
    Drains u (s.free u) (unblock fuel u s) := by
  induction fuel generalizing u s with
  | zero => exact absurd enough (Nat.not_lt_zero _)
  | succ fuel ih =>
    rw [unblock_succ]
    refine drains_foldl ih _ _ (by simp) (Nat.lt_succ_iff.mp enough) ?_ ?_
    · exact fun w hw => mem_waitingFor.mpr hw
    · exact fun w hw => Or.inl (mem_waitingFor.mp hw)

end PhpAudit.Digraph.CycleSearch
