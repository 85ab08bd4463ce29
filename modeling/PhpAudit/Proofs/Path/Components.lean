import Mathlib.Tactic.Tauto
import PhpAudit.Path
import PhpAudit.Proofs.Text.Split

/-!
# Walking over the components of a path

`resolve` walks over components one **step** at a time, with the stack of those kept. A component is a
name, a step up, or nothing at all (`component_cases`), and the stacks that a walk can reach are names
above steps up, the latter only in a relative path (`IsStack`).

**The laws.**
* From the root a walk is that of a place in a tree of directories (`reverse_resolve_rooted`): a name
  goes down, and a step up takes the last name away, if there is one.
* A relative walk can be cut short (`resolve_resolve`): from any stack, the components that it kept lead
  where all its components lead.
* What a relative walk goes down less what it goes up is kept (`descent_resolve`). A walk that goes down as
  far as it goes up can be repeated (`resolve_twice`).
-/

namespace PhpAudit.Path

/-! ## Steps -/

/-- **A name**: a component that goes down. -/
def IsName (c : Text) : Prop := c ≠ "" ∧ c ≠ "." ∧ c ≠ ".."

/-- One component from a stack. -/
def step (rooted : Bool) (stack : List Text) (c : Text) : List Text := resolve rooted [c] stack

variable {rooted : Bool} {c n : Text} {cs stack : List Text}

/-- A component goes nowhere, up, or down. -/
theorem component_cases (c : Text) : (c = "" ∨ c = ".") ∨ c = ".." ∨ IsName c := by
  unfold IsName
  tauto

theorem IsName.not_blank (h : IsName c) : ¬ (c = "" ∨ c = ".") := fun blank =>
  blank.elim h.1 h.2.1

theorem step_blank (h : c = "" ∨ c = ".") : step rooted stack c = stack := if_pos h

theorem step_name (h : IsName c) : step rooted stack c = c :: stack := by
  unfold step resolve
  rw [if_neg h.not_blank, if_neg h.2.2, resolve]

theorem step_up_name (h : IsName n) : step rooted (n :: stack) ".." = stack := by
  unfold step resolve
  rw [if_neg (by decide), if_pos rfl]
  simp only [if_neg h.2.2, resolve]

theorem step_up_up :
    step rooted ((".." : Text) :: stack) ".." = (".." : Text) :: (".." : Text) :: stack := rfl

theorem resolve_eq_foldl (rooted : Bool) (cs stack : List Text) :
    resolve rooted cs stack = cs.foldl (step rooted) stack := by
  induction cs generalizing stack with
  | nil => rfl
  | cons c cs ih =>
    have first : resolve rooted (c :: cs) stack = resolve rooted cs (step rooted stack c) := by
      unfold step
      simp only [resolve]
      split
      · rfl
      split
      · cases stack with
        | nil => cases rooted <;> rfl
        | cons top below => dsimp only; split <;> rfl
      · rfl
    rw [first, ih, List.foldl_cons]

theorem resolve_nil : resolve rooted [] stack = stack := rfl

theorem resolve_cons : resolve rooted (c :: cs) stack = resolve rooted cs (step rooted stack c) := by
  rw [resolve_eq_foldl, List.foldl_cons, ← resolve_eq_foldl]

/-- **A walk goes on** from the stack that it has reached. -/
theorem resolve_append (cs ds : List Text) :
    resolve rooted (cs ++ ds) stack = resolve rooted ds (resolve rooted cs stack) := by
  simp only [resolve_eq_foldl, List.foldl_append]

theorem resolve_names (names : ∀ c ∈ cs, IsName c) : resolve rooted cs stack = cs.reverse ++ stack := by
  induction cs generalizing stack with
  | nil => rfl
  | cons c cs ih =>
    obtain ⟨first, names⟩ := List.forall_mem_cons.mp names
    rw [resolve_cons, step_name first, ih names, List.reverse_cons, List.append_assoc,
      List.singleton_append]

/-- A walk keeps components that it came to, and steps up. -/
theorem mem_resolve (h : n ∈ resolve rooted cs stack) : n ∈ stack ∨ n ∈ cs ∨ n = ".." := by
  induction cs generalizing stack with
  | nil => exact .inl h
  | cons c cs ih =>
    rw [resolve_cons] at h
    obtain h | h | h := ih h
    · unfold step at h
      simp only [resolve] at h
      split at h
      · exact .inl h
      split at h
      · split at h
        · next top below =>
          split at h
          · obtain rfl | h := List.mem_cons.mp h
            · exact .inr (.inr rfl)
            · exact .inl h
          · exact .inl (List.mem_cons_of_mem _ h)
        · split at h
          · cases h
          · exact .inr (.inr (List.mem_singleton.mp h))
      · obtain rfl | h := List.mem_cons.mp h
        · exact .inr (.inl List.mem_cons_self)
        · exact .inl h
    · exact .inr (.inl (List.mem_cons_of_mem _ h))
    · exact .inr (.inr h)

/-! ## Stacks -/

/-- **The stacks of a walk**: names above steps up, of which a rooted walk keeps none. -/
inductive IsStack (rooted : Bool) : List Text → Prop
  | ups (m : Nat) : (rooted = true → m = 0) → IsStack rooted (List.replicate m "..")
  | name {n : Text} {stack : List Text} : IsName n → IsStack rooted stack →
      IsStack rooted (n :: stack)

theorem isStack_nil : IsStack rooted [] := .ups 0 fun _ => rfl

/-- A stack is empty, or has a name or a step up on top. -/
theorem IsStack.cases_top (h : IsStack rooted stack) :
    stack = [] ∨ (∃ n below, stack = n :: below ∧ IsName n ∧ IsStack rooted below) ∨
      ∃ below, rooted = false ∧ stack = (".." : Text) :: below ∧ IsStack rooted below := by
  cases h with
  | ups m none =>
    cases m with
    | zero => exact .inl rfl
    | succ m =>
      have relative : rooted = false := Bool.eq_false_iff.mpr fun h => Nat.succ_ne_zero m (none h)
      have few : rooted = true → m = 0 := fun h => absurd (h.symm.trans relative) (by decide)
      exact .inr (.inr ⟨_, relative, rfl, .ups m few⟩)
  | name hn below => exact .inr (.inl ⟨_, _, rfl, hn, below⟩)

theorem IsStack.up {below : List Text} (relative : rooted = false) (h : IsStack rooted below)
    (top : below = [] ∨ below.head? = some "..") : IsStack rooted ((".." : Text) :: below) := by
  cases h with
  | ups m _ => exact .ups (m + 1) fun h => absurd (h.symm.trans relative) (by decide)
  | name hn _ =>
    obtain top | top := top
    · cases top
    · exact absurd (Option.some.inj top) hn.2.2

theorem IsStack.step (h : IsStack rooted stack) (c : Text) : IsStack rooted (step rooted stack c) := by
  obtain blank | rfl | name := component_cases c
  · rwa [step_blank blank]
  · obtain rfl | ⟨n, below, rfl, hn, rest⟩ | ⟨below, relative, rfl, -⟩ := h.cases_top
    · cases rooted with
      | true => exact isStack_nil
      | false => exact isStack_nil.up rfl (.inl rfl)
    · rwa [step_up_name hn]
    · exact h.up relative (.inr rfl)
  · rw [step_name name]
    exact .name name h

theorem IsStack.resolve (h : IsStack rooted stack) (cs : List Text) :
    IsStack rooted (resolve rooted cs stack) := by
  induction cs generalizing stack with
  | nil => exact h
  | cons c cs ih =>
    rw [resolve_cons]
    exact ih (h.step c)

/-- A stack is some names above some steps up. -/
theorem IsStack.exists_eq (h : IsStack rooted stack) : ∃ (names : List Text) (m : Nat),
    (rooted = true → m = 0) ∧ (∀ n ∈ names, IsName n) ∧
      stack = names ++ List.replicate m (".." : Text) := by
  induction h with
  | ups m none => exact ⟨[], m, none, List.forall_mem_nil _, rfl⟩
  | name hn _ ih =>
    obtain ⟨names, m, none, all, rfl⟩ := ih
    exact ⟨_ :: names, m, none, List.forall_mem_cons.mpr ⟨hn, all⟩, rfl⟩

theorem IsStack.isName (h : IsStack true stack) : ∀ n ∈ stack, IsName n := by
  obtain ⟨names, m, none, all, rfl⟩ := h.exists_eq
  obtain rfl := none rfl
  simpa using all

theorem IsStack.ne_empty (h : IsStack rooted stack) : ∀ n ∈ stack, n ≠ "" := by
  obtain ⟨names, m, -, all, rfl⟩ := h.exists_eq
  intro n hn
  obtain hn | hn := List.mem_append.mp hn
  · exact (all n hn).1
  · rw [List.eq_of_mem_replicate hn]
    decide

/-! ## Walks from the root -/

/-- **One component from a place**, the names from the root on: nothing, one name up if there is one,
or a name down. -/
def descend (place : List Text) (c : Text) : List Text :=
  if c = "" ∨ c = "." then place else if c = ".." then place.dropLast else place ++ [c]

/-- **The place that components lead to** from the root, read from left to right. -/
def place (cs : List Text) : List Text := cs.foldl descend []

theorem reverse_step_rooted (h : IsStack true stack) (c : Text) :
    (step true stack c).reverse = descend stack.reverse c := by
  unfold descend
  obtain blank | rfl | name := component_cases c
  · rw [step_blank blank, if_pos blank]
  · rw [if_neg (by decide), if_pos rfl, List.dropLast_reverse]
    obtain rfl | ⟨n, below, rfl, hn, -⟩ | ⟨-, relative, -⟩ := h.cases_top
    · rfl
    · rw [step_up_name hn, List.tail_cons]
    · cases relative
  · rw [step_name name, if_neg name.not_blank, if_neg name.2.2, List.reverse_cons]

/-- **A walk from the root** ends at the place that its components lead to. -/
theorem reverse_resolve_rooted (cs : List Text) : (resolve true cs []).reverse = place cs := by
  have run {stack : List Text} (h : IsStack true stack) :
      (resolve true cs stack).reverse = cs.foldl descend stack.reverse := by
    induction cs generalizing stack with
    | nil => rfl
    | cons c cs ih => rw [resolve_cons, ih (h.step c), reverse_step_rooted h, List.foldl_cons]
  exact run isStack_nil

theorem isName_of_mem_place (h : n ∈ place cs) : IsName n := by
  rw [← reverse_resolve_rooted, List.mem_reverse] at h
  exact (isStack_nil.resolve cs).isName n h

/-- The names of a place are among the components that lead to it. -/
theorem mem_of_mem_place (h : n ∈ place cs) : n ∈ cs := by
  have name := isName_of_mem_place h
  rw [← reverse_resolve_rooted, List.mem_reverse] at h
  obtain h | h | rfl := mem_resolve h
  · cases h
  · exact h
  · exact absurd rfl name.2.2

theorem place_of_names {names : List Text} (h : ∀ n ∈ names, IsName n) : place names = names := by
  rw [← reverse_resolve_rooted, resolve_names h, List.append_nil, List.reverse_reverse]

/-! ## Relative walks -/

theorem resolve_step (h : IsStack false stack) (c : Text) (below : List Text) :
    resolve rooted (step false stack c).reverse below =
      resolve rooted (stack.reverse ++ [c]) below := by
  obtain blank | rfl | name := component_cases c
  · rw [step_blank blank, resolve_append, resolve_cons, step_blank blank, resolve_nil]
  · obtain rfl | ⟨n, under, rfl, hn, -⟩ | ⟨under, -, rfl, -⟩ := h.cases_top
    · rfl
    · rw [step_up_name hn, List.reverse_cons, List.append_assoc, resolve_append]
      simp only [List.singleton_append, resolve_cons, step_name hn, step_up_name hn, resolve_nil]
    · rw [step_up_up, List.reverse_cons]
  · rw [step_name name, List.reverse_cons]

/-- **A relative walk can be cut short** to the components that it kept, wherever it starts. -/
theorem resolve_resolve (cs below : List Text) :
    resolve rooted (resolve false cs []).reverse below = resolve rooted cs below := by
  have run {stack : List Text} (h : IsStack false stack) :
      resolve rooted (resolve false cs stack).reverse below =
        resolve rooted (stack.reverse ++ cs) below := by
    induction cs generalizing stack with
    | nil => rw [resolve_nil, List.append_nil]
    | cons c cs ih =>
      rw [resolve_cons, ih (h.step c), resolve_append, resolve_step h, ← resolve_append,
        List.append_assoc, List.singleton_append]
  exact run isStack_nil

/-- What a component goes down, or up. -/
def rise (c : Text) : Int := if c = "" ∨ c = "." then 0 else if c = ".." then -1 else 1

/-- **What components go down**, less what they go up. -/
def descent : List Text → Int
  | [] => 0
  | c :: cs => rise c + descent cs

theorem rise_blank (h : c = "" ∨ c = ".") : rise c = 0 := if_pos h

theorem rise_name (h : IsName c) : rise c = 1 := by
  rw [rise, if_neg h.not_blank, if_neg h.2.2]

theorem rise_up : rise ".." = -1 := rfl

theorem descent_cons : descent (c :: cs) = rise c + descent cs := rfl

theorem descent_append (cs ds : List Text) : descent (cs ++ ds) = descent cs + descent ds := by
  induction cs with
  | nil => exact (Int.zero_add _).symm
  | cons c cs ih =>
    rw [List.cons_append, descent_cons, ih, descent_cons]
    omega

theorem descent_reverse (cs : List Text) : descent cs.reverse = descent cs := by
  induction cs with
  | nil => rfl
  | cons c cs ih =>
    have last : descent [c] = rise c := Int.add_zero _
    rw [List.reverse_cons, descent_append, ih, last, descent_cons]
    omega

theorem descent_step (h : IsStack false stack) (c : Text) :
    descent (step false stack c) = rise c + descent stack := by
  obtain blank | rfl | name := component_cases c
  · rw [step_blank blank, rise_blank blank, Int.zero_add]
  · obtain rfl | ⟨n, under, rfl, hn, -⟩ | ⟨under, -, rfl, -⟩ := h.cases_top
    · rfl
    · rw [step_up_name hn, descent_cons, rise_name hn, rise_up]
      omega
    · rw [step_up_up, descent_cons]
  · rw [step_name name, descent_cons]

/-- **A relative walk keeps what it goes down**, less what it goes up. -/
theorem descent_resolve (h : IsStack false stack) (cs : List Text) :
    descent (resolve false cs stack) = descent cs + descent stack := by
  induction cs generalizing stack with
  | nil =>
    rw [resolve_nil]
    exact (Int.zero_add _).symm
  | cons c cs ih =>
    rw [resolve_cons, ih (h.step c), descent_step h, descent_cons]
    omega

theorem resolve_ups {names : List Text} (h : ∀ n ∈ names, IsName n) (below : List Text) :
    resolve rooted (List.replicate names.length "..") (names ++ below) = below := by
  induction names with
  | nil => rfl
  | cons n names ih =>
    obtain ⟨first, h⟩ := List.forall_mem_cons.mp h
    rw [List.length_cons, List.replicate_succ, resolve_cons, List.cons_append, step_up_name first, ih h]

theorem descent_names {names : List Text} (h : ∀ n ∈ names, IsName n) :
    descent names = names.length := by
  induction names with
  | nil => rfl
  | cons n names ih =>
    obtain ⟨first, h⟩ := List.forall_mem_cons.mp h
    rw [descent_cons, rise_name first, ih h, List.length_cons]
    omega

theorem descent_ups (m : Nat) : descent (List.replicate m "..") = -m := by
  induction m with
  | zero => rfl
  | succ m ih =>
    rw [List.replicate_succ, descent_cons, ih, rise_up]
    omega

/-- **A walk that goes down as far as up can be repeated**: its second half takes back the names that
the first half has kept, and goes down them again. -/
theorem resolve_twice (level : descent cs = 0) :
    resolve false cs (resolve false cs []) = resolve false cs [] := by
  have h : IsStack false (resolve false cs []) := isStack_nil.resolve cs
  have even : descent (resolve false cs []) = 0 := by
    rw [descent_resolve isStack_nil, level]
    rfl
  rw [← resolve_resolve cs (resolve false cs [])]
  obtain ⟨names, m, -, all, kept⟩ := h.exists_eq
  rw [kept] at even ⊢
  rw [descent_append, descent_names all, descent_ups] at even
  obtain rfl : m = names.length := by omega
  rw [List.reverse_append, List.reverse_replicate, resolve_append, resolve_ups all,
    resolve_names fun n hn => all n (List.mem_reverse.mp hn), List.reverse_reverse]

end PhpAudit.Path
