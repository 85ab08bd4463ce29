import Mathlib.Data.List.Perm.Subperm
import PhpAudit.Proofs.Graph.Release

/-!
# The search for the cycles through a start

The walk goes along simple paths from a start, whose vertices are its **stack**, and does not enter
blocked vertices. `Scans` is this walk without a bound on its depth, with whatever order the
released vertices are taken in.

**The invariant** (`Invariant`) says what blocking means: the vertices of the stack are blocked, and
a blocked vertex off the stack is a dead end, whose successors are all blocked and have it on their
lists. One clause more carries it: whoever is on the stack and still on the list of another vertex,
from a time when it was blocked before, will not be set free from above, since every way from that
other vertex back to the stack comes out below (`behind`). So no vertex is set free while it is on
the stack.

From it the two halves of what a scan finds (`Scans.finds`): a way on to the start that enters a
blocked vertex does not exist, so nothing is lost, and a stack of blocked vertices is entered once,
so what is found is simple. The ways found come in lexicographic order because successors do.
-/

namespace PhpAudit.Digraph

open CycleSearch (Drains Released)

/-- A vertex waits for every vertex of a list. -/
def CycleSearch.waitForAll (s : CycleSearch) (v : Nat) (ws : List Nat) : CycleSearch :=
  ws.foldl (fun s w => s.wait v w) s

/-- **Leaving a vertex** after its successors were scanned: it is set free when the start was found,
and waits for its successors otherwise. -/
inductive Leaves (successors : Nat → List Nat) (v : Nat) : Bool → CycleSearch → CycleSearch → Prop
  | found {s s' : CycleSearch} : Drains v (s.free v) s' → Leaves successors v true s s'
  | missed {s : CycleSearch} : Leaves successors v false s (s.waitForAll v (successors v))

/-- **Runs over successors** `ws` of the vertex on top of the stack: from whether the start was
found and a state, to the same after them. -/
inductive Scans (successors : Nat → List Nat) (start : Nat) :
    List Nat → List Nat → Bool → CycleSearch → Bool → CycleSearch → Prop
  | done {stack : List Nat} {b : Bool} {s : CycleSearch} : Scans successors start stack [] b s b s
  | close {stack ws : List Nat} {b b' : Bool} {s s' : CycleSearch} :
      Scans successors start stack ws true (s.record (stack.reverse ++ [start])) b' s' →
      Scans successors start stack (start :: ws) b s b' s'
  | pass {stack ws : List Nat} {w : Nat} {b b' : Bool} {s s' : CycleSearch} :
      w ≠ start → w ∈ s.blocked → Scans successors start stack ws b s b' s' →
      Scans successors start stack (w :: ws) b s b' s'
  | visit {stack ws : List Nat} {w : Nat} {b b' found : Bool} {s t t' s' : CycleSearch} :
      w ≠ start → w ∉ s.blocked →
      Scans successors start (w :: stack) (successors w) false (s.block w) found t →
      Leaves successors w found t t' → Scans successors start stack ws (b || found) t' b' s' →
      Scans successors start stack (w :: ws) b s b' s'

/-! ## Ways back to the stack -/

/-- **A vertex leads to another** past the stack: on the way there, no vertex of the stack is left.
-/
inductive Leads (successors : Nat → List Nat) (stack : List Nat) : Nat → Nat → Prop
  | here {x : Nat} : Leads successors stack x x
  | step {w y x : Nat} : w ∉ stack → y ∈ successors w → Leads successors stack y x →
      Leads successors stack w x

variable {successors : Nat → List Nat} {start : Nat} {stack : List Nat} {v w x : Nat}

/-- With a vertex more on the stack, fewer ways are left. -/
theorem Leads.of_cons (h : Leads successors (v :: stack) w x) : Leads successors stack w x := by
  induction h with
  | here => exact .here
  | step hw hy _ ih => exact .step (fun hmem => hw (List.mem_cons_of_mem _ hmem)) hy ih

/-- A way that is lost when a vertex comes onto the stack led to that vertex. -/
theorem Leads.cons_or (v : Nat) (h : Leads successors stack w x) :
    Leads successors (v :: stack) w x ∨ Leads successors (v :: stack) w v := by
  induction h with
  | here => exact Or.inl .here
  | @step w y x hw hy _ ih =>
    by_cases hwv : w = v
    · exact Or.inr (hwv ▸ .here)
    · have off : w ∉ v :: stack := by simp [hwv, hw]
      exact ih.imp (.step off hy) (.step off hy)

/-! ## The invariant -/

/-- **What holds at every stage** of the search with some stack. -/
structure Invariant (successors : Nat → List Nat) (start : Nat) (stack : List Nat)
    (s : CycleSearch) : Prop where
  /-- The vertices of the stack are blocked. -/
  stacked : ∀ v ∈ stack, v ∈ s.blocked
  /-- A blocked vertex off the stack is a dead end, and will hear when that changes. -/
  dead : ∀ u ∈ s.blocked, u ∉ stack →
    start ∉ successors u ∧ ∀ w ∈ successors u, w ∈ s.blocked ∧ (w, u) ∈ s.waits
  /-- A vertex waits for blocked successors only. -/
  waits : ∀ w u, (w, u) ∈ s.waits → w ∈ successors u ∧ w ∈ s.blocked
  /-- Whoever a vertex of the stack waits for leads back to the stack below that vertex only. -/
  behind : ∀ above v below, stack = above ++ v :: below → ∀ w, (w, v) ∈ s.waits →
    ∀ x ∈ stack, Leads successors stack w x → x ∈ below

variable {s s' t : CycleSearch}

/-- What a blocked vertex leads to past the stack is blocked. -/
theorem Invariant.blocked_of_leads (inv : Invariant successors start stack s)
    (h : Leads successors stack w x) (hw : w ∈ s.blocked) : x ∈ s.blocked := by
  induction h with
  | here => exact hw
  | step hoff hy _ ih => exact ih (((inv.dead _ hw hoff).2 _ hy).1)

/-- Nobody is blocked or waits before the search. -/
theorem invariant_start : Invariant successors start [] .start where
  stacked := by simp
  dead := by simp [CycleSearch.start]
  waits := by simp [CycleSearch.start]
  behind := by simp

/-- Cycles that are recorded do not count for the invariant. -/
theorem Invariant.record (inv : Invariant successors start stack s) (cycle : List Nat) :
    Invariant successors start stack (s.record cycle) :=
  ⟨inv.stacked, inv.dead, inv.waits, inv.behind⟩

/-- **Entering a vertex** that is not blocked. -/
theorem Invariant.enter (inv : Invariant successors start stack s) (hv : v ∉ s.blocked) :
    Invariant successors start (v :: stack) (s.block v) := by
  have grow : ∀ {x}, x ∈ s.blocked → x ∈ (s.block v).blocked := List.mem_cons_of_mem v
  -- whoever is waited for is blocked, so it does not lead to the new top of the stack
  have old : ∀ w u x, (w, u) ∈ s.waits → x ∈ v :: stack → Leads successors (v :: stack) w x →
      x ∈ stack := by
    intro w u x hwait hx lead
    have hblocked := inv.blocked_of_leads lead.of_cons (inv.waits w u hwait).2
    exact (List.mem_cons.mp hx).resolve_left fun heq => hv (heq ▸ hblocked)
  refine ⟨?_, ?_, ?_, ?_⟩
  · intro x hx
    exact (List.mem_cons.mp hx).elim (fun heq => heq ▸ List.mem_cons_self)
      fun h => grow (inv.stacked x h)
  · intro u hu hoff
    have hne : u ≠ v := fun heq => hoff (heq ▸ List.mem_cons_self)
    have hu' : u ∈ s.blocked := (List.mem_cons.mp hu).resolve_left hne
    obtain ⟨hstart, hnext⟩ := inv.dead u hu' fun h => hoff (List.mem_cons_of_mem _ h)
    exact ⟨hstart, fun w hw => ⟨grow (hnext w hw).1, (hnext w hw).2⟩⟩
  · intro w u h
    exact ⟨(inv.waits w u h).1, grow (inv.waits w u h).2⟩
  · intro above u below heq w hwait x hx lead
    have hmem := old w u x hwait hx lead
    cases above with
    | nil =>
      obtain ⟨rfl, rfl⟩ := List.cons.inj heq
      exact hmem
    | cons a above =>
      obtain ⟨rfl, rfl⟩ := List.cons.inj heq
      exact inv.behind above u below rfl w hwait x hmem lead.of_cons

/-- When the top of the stack is left, the others stay behind: nobody they wait for leads to it. -/
theorem Invariant.behind_leave (inv : Invariant successors start (v :: stack) s) (hv : v ∉ stack)
    {above below : List Nat} {u : Nat} (heq : stack = above ++ u :: below)
    (hwait : (w, u) ∈ s.waits) (hx : x ∈ stack) (lead : Leads successors stack w x) :
    x ∈ below := by
  have split : v :: stack = (v :: above) ++ u :: below := by rw [heq]; rfl
  rcases lead.cons_or v with h | h
  · exact inv.behind _ u below split w hwait x (List.mem_cons_of_mem _ hx) h
  · have hbelow := inv.behind _ u below split w hwait v List.mem_cons_self h
    exact absurd (heq ▸ by simp [hbelow]) hv

theorem mem_waits_waitForAll {ws : List Nat} {p : Nat × Nat} :
    p ∈ (s.waitForAll v ws).waits ↔ p ∈ s.waits ∨ ∃ w ∈ ws, p = (w, v) := by
  induction ws generalizing s with
  | nil => simp [CycleSearch.waitForAll]
  | cons w ws ih =>
    have unfolded : s.waitForAll v (w :: ws) = (s.wait v w).waitForAll v ws := rfl
    have one : p ∈ (s.wait v w).waits ↔ p ∈ s.waits ∨ p = (w, v) := by
      unfold CycleSearch.wait
      split
      · next h =>
        rw [List.contains_iff_mem] at h
        exact ⟨Or.inl, fun hp => hp.elim id fun heq => heq ▸ h⟩
      · simp
    rw [unfolded, ih, one]
    simp [or_assoc]

/-- Waiting blocks nobody and records nothing. -/
theorem waitForAll_frame (s : CycleSearch) (v : Nat) (ws : List Nat) :
    (s.waitForAll v ws).blocked = s.blocked ∧ (s.waitForAll v ws).cycles = s.cycles := by
  induction ws generalizing s with
  | nil => exact ⟨rfl, rfl⟩
  | cons w ws ih =>
    have unfolded : s.waitForAll v (w :: ws) = (s.wait v w).waitForAll v ws := rfl
    have one : (s.wait v w).blocked = s.blocked ∧ (s.wait v w).cycles = s.cycles := by
      unfold CycleSearch.wait
      split <;> exact ⟨rfl, rfl⟩
    rw [unfolded]
    exact ⟨(ih _).1.trans one.1, (ih _).2.trans one.2⟩

@[simp] theorem blocked_waitForAll {ws : List Nat} : (s.waitForAll v ws).blocked = s.blocked :=
  (waitForAll_frame s v ws).1

/-- **Leaving a vertex** from which the start was not found: it becomes a dead end. -/
theorem Invariant.leave_missed (inv : Invariant successors start (v :: stack) s) (hv : v ∉ stack)
    (hstart : start ∉ successors v) (hnext : ∀ w ∈ successors v, w ∈ s.blocked) :
    Invariant successors start stack (s.waitForAll v (successors v)) := by
  refine ⟨?_, ?_, ?_, ?_⟩
  · intro x hx
    rw [blocked_waitForAll]
    exact inv.stacked x (List.mem_cons_of_mem _ hx)
  · intro u hu hoff
    simp only [blocked_waitForAll, mem_waits_waitForAll] at hu ⊢
    by_cases huv : u = v
    · subst huv
      exact ⟨hstart, fun w hw => ⟨hnext w hw, Or.inr ⟨w, hw, rfl⟩⟩⟩
    · obtain ⟨h₁, h₂⟩ := inv.dead u hu (by simp [huv, hoff])
      exact ⟨h₁, fun w hw => ⟨(h₂ w hw).1, Or.inl (h₂ w hw).2⟩⟩
  · intro w u h
    rw [blocked_waitForAll]
    rcases mem_waits_waitForAll.mp h with old | ⟨z, hz, heq⟩
    · exact inv.waits w u old
    · obtain ⟨rfl, rfl⟩ := Prod.mk.inj heq
      exact ⟨hz, hnext w hz⟩
  · intro above u below heq w hwait x hx lead
    rcases mem_waits_waitForAll.mp hwait with old | ⟨z, hz, heq'⟩
    · exact inv.behind_leave hv heq old hx lead
    · obtain ⟨rfl, rfl⟩ := Prod.mk.inj heq'
      exact absurd (heq ▸ by simp) hv

/-- **No vertex of the stack is released** with the top that is left: a released vertex leads to the
top past the stack, and whoever the vertices of the stack wait for does not. -/
theorem Invariant.not_released (inv : Invariant successors start (v :: stack) s) (hv : v ∉ stack)
    (h : Released s v x) : x ∉ stack ∧ Leads successors (v :: stack) x v := by
  induction h with
  | self => exact ⟨hv, .here⟩
  | @waiting x w _ hwait hblocked ih =>
    by_cases hwv : w = v
    · subst hwv
      exact ⟨hv, .here⟩
    have off : w ∉ stack := by
      intro hw
      obtain ⟨above, below, heq⟩ := List.append_of_mem hw
      have split : v :: stack = (v :: above) ++ w :: below := by rw [heq]; rfl
      have hbelow := inv.behind _ w below split x hwait v List.mem_cons_self ih.2
      exact hv (heq ▸ by simp [hbelow])
    exact ⟨off, .step (by simp [hwv, off]) (inv.waits x w hwait).1 ih.2⟩

/-- **Leaving a vertex** from which the start was found: it is set free. -/
theorem Invariant.leave_found (inv : Invariant successors start (v :: stack) s) (hv : v ∉ stack)
    (run : Drains v (s.free v) s') : Invariant successors start stack s' := by
  obtain ⟨blocked, waits, _⟩ := run.outcome_free
  refine ⟨?_, ?_, ?_, ?_⟩
  · intro x hx
    exact (blocked x).mpr ⟨inv.stacked x (List.mem_cons_of_mem _ hx),
      fun h => (inv.not_released hv h).1 hx⟩
  · intro u hu hoff
    obtain ⟨hu, hfree⟩ := (blocked u).mp hu
    have huv : u ≠ v := CycleSearch.ne_of_not_released hfree
    obtain ⟨h₁, h₂⟩ := inv.dead u hu (by simp [huv, hoff])
    refine ⟨h₁, ?_⟩
    intro w hw
    -- had a successor been released, this vertex would have been too
    have hw' : ¬ Released s v w := fun h => hfree (h.waiting (h₂ w hw).2 hu)
    exact ⟨(blocked w).mpr ⟨(h₂ w hw).1, hw'⟩, (waits w u).mpr ⟨(h₂ w hw).2, hw'⟩⟩
  · intro w u h
    obtain ⟨old, hfree⟩ := (waits w u).mp h
    exact ⟨(inv.waits w u old).1, (blocked w).mpr ⟨(inv.waits w u old).2, hfree⟩⟩
  · intro above u below heq w hwait x hx lead
    exact inv.behind_leave hv heq ((waits w u).mp hwait).1 hx lead

/-! ## What a run keeps -/

/-- Leaving a vertex, with what its scan gave, goes back to the stack below it. -/
theorem Invariant.leave {found : Bool} (inv : Invariant successors start (v :: stack) s)
    (hv : v ∉ stack) (leaves : Leaves successors v found s s')
    (missed : found = false → ∀ w ∈ successors v, w ≠ start ∧ w ∈ s.blocked) :
    Invariant successors start stack s' := by
  cases leaves with
  | found run => exact inv.leave_found hv run
  | missed =>
    refine inv.leave_missed hv ?_ fun w hw => (missed rfl w hw).2
    intro h
    exact (missed rfl start h).1 rfl

/-- Leaving a vertex records no cycle. -/
theorem Leaves.cycles {found : Bool} (h : Leaves successors v found s s') :
    s'.cycles = s.cycles := by
  cases h with
  | found run => exact run.outcome_free.cycles
  | missed => exact (waitForAll_frame _ _ _).2

/-- **A run keeps the invariant**, and one that does not find the start sets nobody free and leaves
all it scanned blocked. -/
theorem Scans.keeps {ws : List Nat} {b b' : Bool} (run : Scans successors start stack ws b s b' s')
    (inv : Invariant successors start stack s) :
    Invariant successors start stack s' ∧ (b' = false → b = false ∧ s.blocked ⊆ s'.blocked ∧
      ∀ w ∈ ws, w ≠ start ∧ w ∈ s'.blocked) := by
  induction run with
  | done => exact ⟨inv, fun hb => ⟨hb, fun _ h => h, by simp⟩⟩
  | close _ ih =>
    obtain ⟨inv', missed⟩ := ih (inv.record _)
    exact ⟨inv', fun hb => absurd (missed hb).1 (by simp)⟩
  | pass hne hblocked _ ih =>
    obtain ⟨inv', missed⟩ := ih inv
    refine ⟨inv', ?_⟩
    intro hb
    obtain ⟨hb₀, sub, hws⟩ := missed hb
    refine ⟨hb₀, sub, ?_⟩
    intro x hx
    rcases List.mem_cons.mp hx with rfl | hx
    · exact ⟨hne, sub hblocked⟩
    · exact hws x hx
  | @visit stack ws w b b' found s t t' s' hne hfree _ leaves _ ih₁ ih₂ =>
    have off : w ∉ stack := fun h => hfree (inv.stacked w h)
    obtain ⟨inner, innerMissed⟩ := ih₁ (inv.enter hfree)
    have left := inner.leave off leaves fun hb => (innerMissed hb).2.2
    obtain ⟨inv', missed⟩ := ih₂ left
    refine ⟨inv', ?_⟩
    intro hb
    obtain ⟨hor, sub, hws⟩ := missed hb
    obtain ⟨hb₀, hfound⟩ := Bool.or_eq_false_iff.mp hor
    subst hfound
    -- without a find, leaving the vertex left everybody blocked
    have same : t'.blocked = t.blocked := by
      cases leaves
      exact blocked_waitForAll
    have entered : (s.block w).blocked ⊆ s'.blocked :=
      fun x hx => sub (same ▸ (innerMissed rfl).2.1 hx)
    refine ⟨hb₀, fun x hx => entered (List.mem_cons_of_mem _ hx), ?_⟩
    intro x hx
    rcases List.mem_cons.mp hx with rfl | hx
    · exact ⟨hne, entered List.mem_cons_self⟩
    · exact hws x hx

/-- When the successors of a vertex that was entered are scanned, the invariant holds with that vertex on
the stack, and what was not found is blocked. -/
theorem Invariant.scanned {found : Bool} (inv : Invariant successors start stack s)
    (fresh : v ∉ s.blocked)
    (scan : Scans successors start (v :: stack) (successors v) false (s.block v) found t) :
    v ∉ stack ∧ Invariant successors start (v :: stack) t ∧
      (found = false → ∀ w ∈ successors v, w ≠ start ∧ w ∈ t.blocked) := by
  obtain ⟨inner, missed⟩ := scan.keeps (inv.enter fresh)
  exact ⟨fun h => fresh (inv.stacked v h), inner, fun none => (missed none).2.2⟩

/-- **Entering a vertex, scanning its successors and leaving it** keeps the invariant. -/
theorem Invariant.visit {found : Bool} (inv : Invariant successors start stack s)
    (fresh : v ∉ s.blocked)
    (scan : Scans successors start (v :: stack) (successors v) false (s.block v) found t)
    (leaves : Leaves successors v found t s') : Invariant successors start stack s' := by
  obtain ⟨off, inner, missed⟩ := inv.scanned fresh scan
  exact inner.leave off leaves missed

/-! ## What a run finds -/

/-- **A way on** from the top of a stack to the start: what comes after the stack on a cycle that
closes without entering a vertex twice. -/
inductive WayOn (successors : Nat → List Nat) (start : Nat) : List Nat → List Nat → Prop
  | close {v : Nat} {below : List Nat} : start ∈ successors v →
      WayOn successors start (v :: below) [start]
  | step {v w : Nat} {below rest : List Nat} : w ∈ successors v → w ∉ v :: below →
      WayOn successors start (w :: v :: below) rest →
      WayOn successors start (v :: below) (w :: rest)

/-- There is no way on through a dead end. -/
theorem Invariant.no_wayOn (inv : Invariant successors start stack s) {stack' way : List Nat}
    (h : WayOn successors start stack' way) :
    ∀ u below, stack' = u :: below → stack ⊆ below → u ∈ s.blocked → u ∉ stack → False := by
  induction h with
  | close hclose =>
    intro u below heq _ hu hoff
    obtain ⟨rfl, rfl⟩ := List.cons.inj heq
    exact (inv.dead _ hu hoff).1 hclose
  | step hw hnew _ ih =>
    intro u below heq sub hu hoff
    obtain ⟨rfl, rfl⟩ := List.cons.inj heq
    refine ih _ _ rfl (fun x hx => List.mem_cons_of_mem _ (sub hx)) ?_ ?_
    · exact ((inv.dead _ hu hoff).2 _ hw).1
    · exact fun h => hnew (List.mem_cons_of_mem _ (sub h))

/-- The ways on whose first vertex is one of a list. -/
def WayOnBy (successors : Nat → List Nat) (start : Nat) (stack ws way : List Nat) : Prop :=
  WayOn successors start stack way ∧ ∃ w ∈ ws, way.head? = some w

/-- A way on by the start is the start alone, since the start is on the stack. -/
theorem WayOn.eq_of_head_start {way : List Nat} (h : WayOn successors start stack way)
    (hstart : start ∈ stack) (head : way.head? = some start) : way = [start] := by
  cases h with
  | close _ => rfl
  | step _ hnew _ =>
    obtain rfl := Option.some.inj head
    exact absurd hstart hnew

/-- A way on by another vertex enters it, and goes on from there. -/
theorem WayOn.of_head {way : List Nat} (h : WayOn successors start (v :: stack) way)
    (hne : w ≠ start) (head : way.head? = some w) :
    ∃ rest, way = w :: rest ∧ w ∉ v :: stack ∧ WayOn successors start (w :: v :: stack) rest := by
  cases h with
  | close _ => exact absurd (Option.some.inj head).symm hne
  | step _ hnew rest =>
    obtain rfl := Option.some.inj head
    exact ⟨_, rfl, hnew, rest⟩

/-- A way on starts with a successor of the top. -/
theorem WayOn.head_mem {way : List Nat} (h : WayOn successors start (v :: stack) way) :
    ∃ w ∈ successors v, way.head? = some w := by
  cases h with
  | close hclose => exact ⟨_, hclose, rfl⟩
  | step hw _ _ => exact ⟨_, hw, rfl⟩

/-- **What a run finds**: the ways on by the vertices it scans, each once, in lexicographic order.
Their cycles are recorded, the last first, before those there were. -/
structure Finds (successors : Nat → List Nat) (start : Nat) (stack ws : List Nat)
    (s s' : CycleSearch) (ways : List (List Nat)) : Prop where
  recorded : s'.cycles = (ways.map (stack.reverse ++ ·)).reverse ++ s.cycles
  increasing : ways.Pairwise (· < ·)
  mem_iff : ∀ way, way ∈ ways ↔ WayOnBy successors start stack ws way

theorem lt_of_head_lt {way way' : List Nat} {a b : Nat} (ha : way.head? = some a)
    (hb : way'.head? = some b) (h : a < b) : way < way' := by
  obtain ⟨rest, rfl⟩ := List.head?_eq_some_iff.mp ha
  obtain ⟨rest', rfl⟩ := List.head?_eq_some_iff.mp hb
  exact List.Lex.rel h

/-- The ways by one vertex, then those by later ones, are in order. -/
theorem pairwise_append_of_heads {ws : List Nat} {first rest : List (List Nat)}
    (hfirst : first.Pairwise (· < ·)) (hrest : rest.Pairwise (· < ·))
    (byFirst : ∀ way ∈ first, way.head? = some w)
    (byRest : ∀ way ∈ rest, ∃ x ∈ ws, way.head? = some x)
    (later : ∀ x ∈ ws, w < x) : (first ++ rest).Pairwise (· < ·) := by
  refine List.pairwise_append.mpr ⟨hfirst, hrest, ?_⟩
  intro way hway way' hway'
  obtain ⟨x, hx, head⟩ := byRest way' hway'
  exact lt_of_head_lt (byFirst way hway) head (later x hx)

/-- **A run finds all ways on, and nothing else.** -/
theorem Scans.finds {ws : List Nat} {b b' : Bool} (run : Scans successors start stack ws b s b' s')
    (increasing : ∀ v, (successors v).Pairwise (· < ·)) :
    ∀ v below, stack = v :: below → Invariant successors start stack s → start ∈ stack →
      ws ⊆ successors v → ws.Pairwise (· < ·) →
      ∃ ways, Finds successors start stack ws s s' ways := by
  induction run with
  | done =>
    intro v below _ _ _ _ _
    exact ⟨[], by simp, List.Pairwise.nil, by simp [WayOnBy]⟩
  | @close stack ws b b' s s' _ ih =>
    intro v below heq inv hstart sub sorted
    obtain ⟨first, rest⟩ := List.pairwise_cons.mp sorted
    obtain ⟨ways, recorded, inc, mem_iff⟩ := ih v below heq (inv.record _) hstart
      (fun x hx => sub (List.mem_cons_of_mem _ hx)) rest
    have closes : WayOn successors start stack [start] := by
      rw [heq]
      exact .close (sub List.mem_cons_self)
    refine ⟨[start] :: ways, ?_, ?_, ?_⟩
    · simp [recorded, CycleSearch.record]
    · change ([[start]] ++ ways).Pairwise (· < ·)
      exact pairwise_append_of_heads (by simp) inc (by simp)
        (fun way h => ((mem_iff way).mp h).2) first
    · intro way
      rw [List.mem_cons, mem_iff]
      constructor
      · rintro (rfl | ⟨h, x, hx, head⟩)
        · exact ⟨closes, start, List.mem_cons_self, rfl⟩
        · exact ⟨h, x, List.mem_cons_of_mem _ hx, head⟩
      · rintro ⟨h, x, hx, head⟩
        rcases List.mem_cons.mp hx with rfl | hx
        · exact Or.inl (h.eq_of_head_start hstart head)
        · exact Or.inr ⟨h, x, hx, head⟩
  | @pass stack ws w b b' s s' hne hblocked _ ih =>
    intro v below heq inv hstart sub sorted
    obtain ⟨ways, recorded, inc, mem_iff⟩ := ih v below heq inv hstart
      (fun x hx => sub (List.mem_cons_of_mem _ hx)) (List.pairwise_cons.mp sorted).2
    refine ⟨ways, recorded, inc, fun way => (mem_iff way).trans ⟨?_, ?_⟩⟩
    · rintro ⟨h, x, hx, head⟩
      exact ⟨h, x, List.mem_cons_of_mem _ hx, head⟩
    · rintro ⟨h, x, hx, head⟩
      rcases List.mem_cons.mp hx with rfl | hx
      · -- a blocked vertex is on the stack or a dead end
        subst heq
        obtain ⟨rest, rfl, off, on⟩ := h.of_head hne head
        exact (inv.no_wayOn on x _ rfl (fun _ h => h) hblocked off).elim
      · exact ⟨h, x, hx, head⟩
  | @visit stack ws w b b' found s t t' s' hne hfree scan leaves _ ih₁ ih₂ =>
    intro v below heq inv hstart sub sorted
    obtain ⟨first, rest⟩ := List.pairwise_cons.mp sorted
    have off : w ∉ stack := fun h => hfree (inv.stacked w h)
    have left := inv.visit hfree scan leaves
    obtain ⟨ways₁, recorded₁, inc₁, mem₁⟩ := ih₁ w stack rfl (inv.enter hfree)
      (List.mem_cons_of_mem _ hstart) (fun _ h => h) (increasing w)
    obtain ⟨ways₂, recorded₂, inc₂, mem₂⟩ := ih₂ v below heq left hstart
      (fun x hx => sub (List.mem_cons_of_mem _ hx)) rest
    refine ⟨ways₁.map (w :: ·) ++ ways₂, ?_, ?_, ?_⟩
    · rw [recorded₂, leaves.cycles, recorded₁]
      simp [CycleSearch.block, Function.comp_def]
    · refine pairwise_append_of_heads ?_ inc₂ (by simp) (fun way h => ((mem₂ way).mp h).2) first
      exact List.pairwise_map.mpr (inc₁.imp fun h => List.Lex.cons h)
    · intro way
      rw [List.mem_append, List.mem_map, mem₂]
      subst heq
      constructor
      · rintro (⟨way, h, rfl⟩ | ⟨h, x, hx, head⟩)
        · exact ⟨.step (sub List.mem_cons_self) off ((mem₁ way).mp h).1, w, List.mem_cons_self, rfl⟩
        · exact ⟨h, x, List.mem_cons_of_mem _ hx, head⟩
      · rintro ⟨h, x, hx, head⟩
        rcases List.mem_cons.mp hx with rfl | hx
        · obtain ⟨way, rfl, _, on⟩ := h.of_head hne head
          exact Or.inl ⟨way, (mem₁ way).mpr ⟨on, on.head_mem⟩, rfl⟩
        · exact Or.inr ⟨h, x, hx, head⟩

/-! ## The search is such a run -/

/-- One successor, as the search scans it. -/
def scanOne (successors : Nat → List Nat) (start fuel : Nat) (stack : List Nat)
    (acc : Bool × CycleSearch) (w : Nat) : Bool × CycleSearch :=
  if w = start then (true, acc.2.record (stack.reverse ++ [w]))
  else if acc.2.isBlocked w then acc
  else (acc.1 || (circuit successors start fuel stack w acc.2).1,
    (circuit successors start fuel stack w acc.2).2)

/-- The search leaves a vertex. -/
def leave (successors : Nat → List Nat) (v : Nat) (r : Bool × CycleSearch) : Bool × CycleSearch :=
  if r.1 then (true, CycleSearch.unblock (r.2.blocked.length + 1) v r.2)
  else (false, r.2.waitForAll v (successors v))

theorem circuit_succ (fuel : Nat) (stack : List Nat) (v : Nat) (s : CycleSearch) :
    circuit successors start (fuel + 1) stack v s =
      leave successors v
        ((successors v).foldl (scanOne successors start fuel (v :: stack)) (false, s.block v)) :=
  rfl

/-- Entering a vertex, scanning its successors and leaving it. -/
def Explores (successors : Nat → List Nat) (start : Nat) (stack : List Nat) (v : Nat)
    (s : CycleSearch) (r : Bool × CycleSearch) : Prop :=
  ∃ t, Scans successors start (v :: stack) (successors v) false (s.block v) r.1 t ∧
    Leaves successors v r.1 t r.2

/-- The search leaves a vertex as a run does; its bound does not stop it. -/
theorem explores_leave {r : Bool × CycleSearch}
    (scan : Scans successors start (v :: stack) (successors v) false (s.block v) r.1 r.2) :
    Explores successors start stack v s (leave successors v r) := by
  obtain ⟨found, t⟩ := r
  cases found with
  | false => exact ⟨t, scan, .missed⟩
  | true =>
    refine ⟨t, scan, .found (CycleSearch.drains_unblock _ v t ?_)⟩
    exact Nat.lt_succ_of_le List.filter_sublist.length_le

/-- Scanning the vertices of a list one after the other is a run, when the deeper searches are. -/
theorem scans_foldl {fuel bound : Nat}
    (deeper : ∀ w s, w < bound → Invariant successors start stack s →
      w ∉ s.blocked → Explores successors start stack w s (circuit successors start fuel stack w s))
    (ws : List Nat) (hws : ∀ w ∈ ws, w < bound) (b : Bool) (s : CycleSearch)
    (inv : Invariant successors start stack s) :
    Scans successors start stack ws b s
      (ws.foldl (scanOne successors start fuel stack) (b, s)).1
      (ws.foldl (scanOne successors start fuel stack) (b, s)).2 := by
  induction ws generalizing b s with
  | nil => exact .done
  | cons w ws ih =>
    have hrest : ∀ x ∈ ws, x < bound := fun x hx => hws x (List.mem_cons_of_mem _ hx)
    rw [List.foldl_cons]
    by_cases hstart : w = start
    · subst hstart
      have closes : scanOne successors w fuel stack (b, s) w =
          (true, s.record (stack.reverse ++ [w])) := if_pos rfl
      rw [closes]
      exact .close (ih hrest _ _ (inv.record _))
    by_cases hblocked : w ∈ s.blocked
    · have passed : scanOne successors start fuel stack (b, s) w = (b, s) := by
        simp [scanOne, hstart, CycleSearch.isBlocked_iff.mpr hblocked]
      rw [passed]
      exact .pass hstart hblocked (ih hrest _ _ inv)
    · have visited : scanOne successors start fuel stack (b, s) w =
          (b || (circuit successors start fuel stack w s).1,
            (circuit successors start fuel stack w s).2) := by
        have : ¬ s.isBlocked w = true := fun h => hblocked (CycleSearch.isBlocked_iff.mp h)
        simp [scanOne, hstart, this]
      obtain ⟨t, scan, leaves⟩ := deeper w s (hws w List.mem_cons_self) inv hblocked
      rw [visited]
      exact .visit hstart hblocked scan leaves (ih hrest _ _ (inv.visit hblocked scan leaves))

/-- **The search is a run**: a simple path is not longer than there are vertices, so the bound on
its length does not stop it. -/
theorem explores_circuit {bound : Nat} (bounded : ∀ v, ∀ w ∈ successors v, w < bound) (fuel : Nat)
    (stack : List Nat) (v : Nat) (s : CycleSearch) (enough : bound < stack.length + fuel)
    (unique : (v :: stack).Nodup) (below : ∀ x ∈ v :: stack, x < bound)
    (inv : Invariant successors start stack s) (hv : v ∉ s.blocked) :
    Explores successors start stack v s (circuit successors start fuel stack v s) := by
  induction fuel generalizing stack v s with
  | zero =>
    have sub : v :: stack ⊆ List.range bound := fun x hx => List.mem_range.mpr (below x hx)
    have short := (List.subperm_of_subset unique sub).length_le
    rw [List.length_cons, List.length_range] at short
    omega
  | succ fuel ih =>
    have deeper : ∀ w t, w < bound → Invariant successors start (v :: stack) t → w ∉ t.blocked →
        Explores successors start (v :: stack) w t
          (circuit successors start fuel (v :: stack) w t) := by
      intro w t hw inv' hfree
      refine ih (v :: stack) w t (by simp; omega) ?_ ?_ inv' hfree
      · exact List.nodup_cons.mpr ⟨fun h => hfree (inv'.stacked w h), unique⟩
      · exact fun x hx => (List.mem_cons.mp hx).elim (fun heq => heq ▸ hw) (below x)
    rw [circuit_succ]
    exact explores_leave (scans_foldl deeper (successors v) (bounded v) false _ (inv.enter hv))

end PhpAudit.Digraph
