import Mathlib.Data.List.Induction
import PhpAudit.Proofs.Walk.Parts

/-!
# What a variable holds

Variables are bound by assignments alone. A scope does not say which assignments it has seen, so
they are kept beside it: the **journal** of a walk lists the assignments to variables that it
completes, each with the taint that the walk gave the assigned value. A **moment** of a walk is a
scope that it passes through, with the journal up to there. The last one is where the walk ends, or
where it is stopped (`exists_moment_at_end`).

At every moment the scope holds what the journal says and nothing else: its variables are those of
the assignments replayed (`Moment.replay`). So a variable is recorded when it was assigned, and
with the risks of everything that was assigned to it.
-/

namespace PhpAudit

/-- **A completed assignment**: the variable, and the taint of the assigned value. -/
structure Assignment where
  name : Text
  taint : Taint

/-! ## Replayed assignments -/

namespace RiskSet

theorem union_comm (s t : RiskSet) : s.union t = t.union s :=
  congrArg RiskSet.mk (BitVec.or_comm s.bits t.bits)

theorem empty_union (s : RiskSet) : RiskSet.union ∅ s = s :=
  congrArg RiskSet.mk BitVec.zero_or

end RiskSet

namespace Scope

/-- The scope after an assignment: the new taint is merged with the recorded one. -/
def record (s : Scope) (a : Assignment) : Scope :=
  s.bind a.name <| match s.lookup? a.name with
    | some old => a.taint.merge old
    | none => a.taint

/-- The scope after assignments, one after the other. -/
def replay (s : Scope) (j : List Assignment) : Scope := j.foldl record s

theorem replay_append (s : Scope) (j k : List Assignment) :
    s.replay (j ++ k) = (s.replay j).replay k :=
  List.foldl_append

/-- What is recorded for the other variables stays when one is taken out. -/
theorem lookup_without {name other : Text} (h : other ≠ name) (vs : List (Text × Taint)) :
    (vs.filter fun v => v.1 ≠ name).lookup other = vs.lookup other := by
  induction vs with
  | nil => rfl
  | cons v vs ih =>
    obtain ⟨key, t⟩ := v
    by_cases gone : key = name
    · have miss : (other == name) = false := by simpa using h
      simp [List.lookup_cons, gone, miss, ← ih]
    · simp [List.lookup_cons, gone, ← ih]

theorem lookup?_bind (s : Scope) (name other : Text) (t : Taint) :
    (s.bind name t).lookup? other = if other = name then some t else s.lookup? other := by
  by_cases h : other = name
  · simp [bind, lookup?, h]
  · have miss : (other == name) = false := by simpa using h
    rw [if_neg h, lookup?, bind, List.lookup_cons, miss]
    exact lookup_without h s.assigned

/-- Only the assigned variables matter to what is recorded. -/
theorem assigned_record_congr {s s' : Scope} (h : s.assigned = s'.assigned) (a : Assignment) :
    (s.record a).assigned = (s'.record a).assigned := by
  simp only [record, bind, lookup?, h]

theorem assigned_replay_congr {s s' : Scope} (h : s.assigned = s'.assigned) (j : List Assignment) :
    (s.replay j).assigned = (s'.replay j).assigned := by
  induction j generalizing s s' with
  | nil => exact h
  | cons a j ih => exact ih (assigned_record_congr h a)

theorem lookup?_record (s : Scope) (a : Assignment) (name : Text) : (s.record a).lookup? name =
    if name = a.name then some (match s.lookup? a.name with
      | some old => a.taint.merge old
      | none => a.taint) else s.lookup? name :=
  lookup?_bind s a.name name _

/-- **The risks that were assigned to a variable**, all together. -/
def risksAssigned (j : List Assignment) (name : Text) : RiskSet :=
  (j.filter fun a => a.name = name).foldl (fun risks a => risks.union a.taint.risks) ∅

theorem risksAssigned_concat (j : List Assignment) (a : Assignment) (name : Text) :
    risksAssigned (j ++ [a]) name = if a.name = name
      then (risksAssigned j name).union a.taint.risks else risksAssigned j name := by
  by_cases h : a.name = name
  · simp [risksAssigned, List.filter_append, h]
  · simp [risksAssigned, List.filter_append, h]

theorem risksAssigned_of_none {j : List Assignment} {name : Text} (h : ¬ ∃ a ∈ j, a.name = name) :
    risksAssigned j name = ∅ := by
  have nothing : (j.filter fun a => a.name = name) = [] := by
    refine List.filter_eq_nil_iff.mpr fun a ha hname => h ⟨a, ha, ?_⟩
    exact of_decide_eq_true hname
  rw [risksAssigned, nothing]
  rfl

/-- **Replayed from the start**, assignments record the assigned variables and their risks. -/
theorem lookup?_replay_start (j : List Assignment) (name : Text) :
    (((start.replay j).lookup? name).isSome = true ↔ ∃ a ∈ j, a.name = name) ∧
      ∀ t, (start.replay j).lookup? name = some t → t.risks = risksAssigned j name := by
  induction j using List.reverseRecOn with
  | nil => simp [replay, start, lookup?]
  | append_singleton j a ih =>
    obtain ⟨recorded, risks⟩ := ih
    rw [replay_append, replay, List.foldl_cons, List.foldl_nil, lookup?_record,
      risksAssigned_concat]
    by_cases h : name = a.name
    · subst h
      rw [if_pos rfl, if_pos rfl]
      refine ⟨by simp, ?_⟩
      intro t ht
      obtain rfl := Option.some.inj ht
      cases old : (start.replay j).lookup? a.name with
      | none =>
        have new : ¬ ∃ b ∈ j, b.name = a.name := by
          rw [← recorded, old]
          exact Bool.false_ne_true
        rw [risksAssigned_of_none new, RiskSet.empty_union]
      | some t =>
        rw [Taint.risks_merge, risks t old]
        exact RiskSet.union_comm _ _
    · have other : ¬ a.name = name := fun e => h e.symm
      rw [if_neg h, if_neg other]
      refine ⟨recorded.trans ?_, risks⟩
      simp [or_and_right, exists_or, other]

/-- **Nothing that was recorded is lost** when assignments are replayed. -/
theorem lookup?_replay_grows {s : Scope} {name : Text} {t : Taint} (h : s.lookup? name = some t)
    (j : List Assignment) : ∃ t', (s.replay j).lookup? name = some t' ∧
      ∀ r, t.risks.contains r = true → t'.risks.contains r = true := by
  induction j generalizing s t with
  | nil => exact ⟨t, h, fun _ => id⟩
  | cons a j ih =>
    have one : ∃ t', (s.record a).lookup? name = some t' ∧
        ∀ r, t.risks.contains r = true → t'.risks.contains r = true := by
      rw [lookup?_record]
      by_cases here : name = a.name
      · subst here
        rw [if_pos rfl, h]
        refine ⟨_, rfl, ?_⟩
        intro r hr
        simp only [RiskSet.contains, RiskSet.union, Taint.risks_merge, BitVec.getLsbD_or] at hr ⊢
        rw [hr, Bool.or_true]
      · rw [if_neg here]
        exact ⟨t, h, fun _ => id⟩
    obtain ⟨t', h', kept⟩ := one
    obtain ⟨t'', h'', kept'⟩ := ih h'
    exact ⟨t'', h'', fun r hr => kept' r (kept r hr)⟩

end Scope

namespace Walk

open PhpAudit.Tree

variable {m : Mitigations} {p : Part} {ps : List Part} {s s' : Scope} {j j' : List Assignment}

/-! ## The journal of a walk -/

/-- **The assignment that a part itself completes**, when it is walked from a scope: the value is
walked after the location of the assignment was taken note of. -/
def Part.own (m : Mitigations) (s : Scope) : Part → List Assignment
  | .expr e =>
    match assignment? e with
    | some (name, l, value) =>
      match (operand m value (s.track l)).value with
      | .ok t => [⟨name, t⟩]
      | .error _ => []
    | none => []
  | _ => []

/-- **The journal**: the assignments that the walk through parts completes, in order. What a part
does comes after what its parts do. -/
def journal (m : Mitigations) : List Part → Scope → List Assignment
  | [], _ => []
  | p :: ps, s =>
    journal m p.within s ++ p.own m s ++
      match (p.walk m s).value with
      | .ok _ => journal m ps (p.walk m s).scope
      | .error _ => []
termination_by ps => Part.sizes ps
decreasing_by
  all_goals
    have := p.sizes_within
    simp only [Part.sizes_cons]
    omega

/-- **A moment of the walk** through parts: where it starts, inside the part it is at, or after that
part, once its walk is done. -/
inductive Moment (m : Mitigations) :
    List Part → Scope → List Assignment → Scope → List Assignment → Prop
  | here {ps : List Part} {s : Scope} {j : List Assignment} : Moment m ps s j s j
  | inside {p : Part} {ps : List Part} {s s' : Scope} {j j' : List Assignment} :
      Moment m p.within s j s' j' → Moment m (p :: ps) s j s' j'
  | after {p : Part} {ps : List Part} {s s' : Scope} {j j' : List Assignment} :
      (p.walk m s).value = .ok () →
      Moment m ps (p.walk m s).scope (j ++ journal m [p] s) s' j' → Moment m (p :: ps) s j s' j'

/-! ## What a part does to its scope -/

theorem scope_of_outline {α β : Type} {w : Walk α} {u : Walk β} (h : outline w = outline u)
    (s : Scope) : (w s).scope = (u s).scope :=
  congrArg Outcome.scope (congrFun h s)

theorem value_of_outline {w u : Walk Unit} (h : outline w = outline u) (s : Scope) :
    (w s).value = (u s).value := by
  have forget (v : Except CoverageError Unit) : v.map (fun _ => ()) = v := by cases v <;> rfl
  have values := congrArg Outcome.value (congrFun h s)
  exact (forget _).symm.trans (values.trans (forget _))

/-- The part is an assignment to a variable. -/
def Part.Binds : Part → Prop
  | .expr e => assignment? e ≠ none
  | _ => False

/-- **A part that binds nothing leaves the variables as its parts do**, also when it is stopped. -/
theorem assigned_walk (h : ¬ p.Binds) (s : Scope) :
    (p.walk m s).scope.assigned = (inOrder m p.within s).scope.assigned := by
  cases p with
  | expr e =>
    rw [scope_of_outline (outline_ofExpr m (not_ne_iff.mp h)) s]
    rfl
  | stmt s' =>
    rw [scope_of_outline (outline_ofStmt m s') s]
    rfl
  | place l =>
    show (s.track l).assigned = s.assigned
    unfold Scope.track
    split <;> rfl
  | body b => rfl
  | halt l tag => rfl

/-- **An assignment to a variable** walks the value, and then records its taint. -/
theorem walk_assignment {e : Expr} {name : Text} {l : Location} {value : Option Expr}
    (h : assignment? e = some (name, l, value)) (m : Mitigations) (s : Scope) :
    (∃ t, (operand m value (s.track l)).value = .ok t ∧
      (inOrder m (Part.ofExpr e) s).value = .ok () ∧ (Part.walk m (.expr e) s).value = .ok () ∧
      (Part.walk m (.expr e) s).scope = (inOrder m (Part.ofExpr e) s).scope.record ⟨name, t⟩) ∨
    (∃ err, (Part.walk m (.expr e) s).value = .error err ∧
      (Part.walk m (.expr e) s).scope = (inOrder m (Part.ofExpr e) s).scope) := by
  obtain ⟨byReference, l', rfl⟩ : ∃ byReference l', e =
      .binary l (.assign byReference) (some (.atom l' (.var name))) value := by
    unfold assignment? at h
    split at h
    · cases h
      exact ⟨_, _, rfl⟩
    · cases h
  have parts : outline (inOrder m (Part.ofExpr (.binary l (.assign byReference)
      (some (.atom l' (.var name))) value))) = outline (do track l; let _ ← operand m value) := by
    simp [Part.ofExpr]
  rw [value_of_outline parts, scope_of_outline parts]
  simp only [Part.walk, expr, bind_apply, track]
  generalize operand m value (s.track l) = o
  obtain ⟨events, scope, v⟩ := o
  cases v with
  | error err => exact Or.inr ⟨err, rfl, rfl⟩
  | ok t => exact Or.inl ⟨t, rfl, rfl, rfl, rfl⟩

theorem own_of_not_binds (h : ¬ p.Binds) (s : Scope) : p.own m s = [] := by
  cases p with
  | expr e => simp only [Part.own, not_ne_iff.mp h]
  | _ => rfl

/-- **A part whose walk is done** has walked its parts, and then made its own assignment. -/
theorem walk_replays (ok : (p.walk m s).value = .ok ()) :
    (inOrder m p.within s).value = .ok () ∧
      (p.walk m s).scope.assigned = ((inOrder m p.within s).scope.replay (p.own m s)).assigned := by
  by_cases binds : p.Binds
  · cases p with
    | expr e =>
      obtain ⟨⟨name, l, value⟩, h⟩ := Option.ne_none_iff_exists'.mp binds
      obtain ⟨t, ht, done, _, scope⟩ | ⟨err, stopped, _⟩ := walk_assignment h m s
      · have own : Part.own m s (.expr e) = [⟨name, t⟩] := by simp only [Part.own, h, ht]
        rw [own, scope]
        exact ⟨done, rfl⟩
      · rw [ok] at stopped
        cases stopped
    | _ => exact binds.elim
  · rw [own_of_not_binds binds]
    refine ⟨?_, assigned_walk binds s⟩
    cases p with
    | expr e =>
      rw [Part.within, ← value_of_outline (outline_ofExpr m (not_ne_iff.mp binds))]
      exact ok
    | stmt s' =>
      rw [Part.within, ← value_of_outline (outline_ofStmt m s')]
      exact ok
    | _ => rfl

/-- A part whose walk is stopped leaves the variables as its parts do. -/
theorem assigned_walk_of_stopped {err : CoverageError} (stopped : (p.walk m s).value = .error err) :
    (p.walk m s).scope.assigned = (inOrder m p.within s).scope.assigned := by
  by_cases binds : p.Binds
  · cases p with
    | expr e =>
      obtain ⟨⟨name, l, value⟩, h⟩ := Option.ne_none_iff_exists'.mp binds
      obtain ⟨_, _, _, done, _⟩ | ⟨_, _, scope⟩ := walk_assignment h m s
      · rw [done] at stopped
        cases stopped
      · rw [scope]
        rfl
    | _ => exact binds.elim
  · exact assigned_walk binds s

/-! ## What a walk does to its scope -/

theorem inOrder_cons_ok (ok : (inOrder m (p :: ps) s).value = .ok ()) :
    (p.walk m s).value = .ok () ∧ (inOrder m ps (p.walk m s).scope).value = .ok () ∧
      (inOrder m (p :: ps) s).scope = (inOrder m ps (p.walk m s).scope).scope := by
  rw [inOrder, bind_apply] at ok ⊢
  cases h : (p.walk m s).value with
  | error e =>
    rw [h] at ok
    cases ok
  | ok a =>
    rw [h] at ok
    exact ⟨rfl, ok, rfl⟩

/-- **The walk through parts replays its journal.** -/
theorem inOrder_replays (ps : List Part) (s : Scope) (ok : (inOrder m ps s).value = .ok ()) :
    (inOrder m ps s).scope.assigned = (s.replay (journal m ps s)).assigned := by
  induction ps, s using journal.induct m with
  | case1 s =>
    rw [journal]
    rfl
  | case2 p ps s ihWithin ih =>
    obtain ⟨okHere, okRest, scope⟩ := inOrder_cons_ok ok
    obtain ⟨okWithin, here⟩ := walk_replays okHere
    rw [journal, okHere, scope, ih okRest, Scope.replay_append, Scope.replay_append]
    refine Scope.assigned_replay_congr (here.trans ?_) _
    exact Scope.assigned_replay_congr (ihWithin okWithin) _

/-- **At every moment the journal, replayed, gives the variables of the scope.** -/
theorem Moment.replay (moment : Moment m ps s j s' j') :
    ∃ more, j' = j ++ more ∧ s'.assigned = (s.replay more).assigned := by
  induction moment with
  | here => exact ⟨[], (List.append_nil _).symm, rfl⟩
  | inside _ ih => exact ih
  | @after p ps s s' j j' ok _ ih =>
    obtain ⟨more, rfl, scope⟩ := ih
    have here : (p.walk m s).scope.assigned = (s.replay (journal m [p] s)).assigned := by
      have single : inOrder m [p] = p.walk m := bind_pure_unit
      have law := inOrder_replays (m := m) [p] s (by rw [single]; exact ok)
      rwa [single] at law
    refine ⟨journal m [p] s ++ more, List.append_assoc _ _ _, ?_⟩
    rw [scope, Scope.replay_append]
    exact Scope.assigned_replay_congr here more

/-- **Every walk ends in a moment**, also when it is stopped. -/
theorem exists_moment_at_end (ps : List Part) (s : Scope) (j : List Assignment) :
    ∃ s' j', Moment m ps s j s' j' ∧ s'.assigned = (inOrder m ps s).scope.assigned := by
  induction ps, s using journal.induct m generalizing j with
  | case1 s => exact ⟨s, j, .here, rfl⟩
  | case2 p ps s ihWithin ih =>
    rw [inOrder, bind_apply]
    cases h : (p.walk m s).value with
    | ok a =>
      obtain ⟨s', j', moment, scope⟩ := ih (j ++ journal m [p] s)
      exact ⟨s', j', .after h moment, scope⟩
    | error err =>
      obtain ⟨s', j', moment, scope⟩ := ihWithin j
      refine ⟨s', j', .inside moment, scope.trans ?_⟩
      exact (assigned_walk_of_stopped h).symm

/-! ## Bodies -/

/-- **A variable holds everything that was assigned to it.** At every moment of the walk of a body a
variable is recorded just when an assignment to it is completed, with the risks of all assigned
values. Whatever is walked next, it stays recorded and loses no risk; and of all that can be walked,
only an assignment to a variable changes more than its parts do. -/
theorem variable_holds_union_of_assigned (body : Block)
    (moment : Moment m [.stmt (.block body)] .start [] s j) (name : Text) :
    ((s.lookup? name).isSome = true ↔ ∃ a ∈ j, a.name = name) ∧
    (∀ t, s.lookup? name = some t → t.risks = Scope.risksAssigned j name) ∧
    (∀ t ps s' j', s.lookup? name = some t → Moment m ps s j s' j' →
      ∃ t', s'.lookup? name = some t' ∧
        ∀ r, t.risks.contains r = true → t'.risks.contains r = true) ∧
    (∀ p : Part, ¬ p.Binds →
      (p.walk m s).scope.lookup? name = (inOrder m p.within s).scope.lookup? name) := by
  obtain ⟨more, hj, scope⟩ := moment.replay
  obtain rfl : j = more := hj
  have now : s.lookup? name = (Scope.start.replay j).lookup? name :=
    congrArg (List.lookup name) scope
  obtain ⟨recorded, risks⟩ := Scope.lookup?_replay_start j name
  rw [← now] at recorded risks
  refine ⟨recorded, risks, ?_, ?_⟩
  · intro t ps s' j' ht later
    obtain ⟨next, _, scope'⟩ := later.replay
    have next' : s'.lookup? name = (s.replay next).lookup? name :=
      congrArg (List.lookup name) scope'
    rw [next']
    exact Scope.lookup?_replay_grows ht next
  · intro p binds
    exact congrArg (List.lookup name) (assigned_walk binds s)

/-- A body that assigns a text and then an unknown value to a variable, and unsets it. -/
def reassigningBody : Block :=
  .mk .unknown
    [.simple .unknown .evaluate (some (.binary .unknown (.assign false)
      (some (.atom .unknown (.var "x"))) (some (.atom .unknown (.string "a"))))),
    .simple .unknown .evaluate (some (.binary .unknown (.assign true)
      (some (.atom .unknown (.var "x"))) (some (.atom .unknown (.var "y"))))),
    .simple .unknown .evaluate (some (.unary .unknown .unset (some (.atom .unknown (.var "x")))))]

theorem variable_holds_both_assigned : ∃ s j,
    Moment (fun _ => ∅) [.stmt (.block reassigningBody)] .start [] s j ∧
    (s.lookup? "x").map (·.risks) = some .all ∧ Scope.risksAssigned j "x" = .all := by
  have ok : (Part.walk (fun _ => ∅) (.stmt (.block reassigningBody)) .start).value = .ok () := rfl
  have moment : Moment (fun _ => ∅) [.stmt (.block reassigningBody)] .start [] _ _ :=
    .after ok .here
  obtain ⟨_, risks, _, _⟩ := variable_holds_union_of_assigned reassigningBody moment "x"
  refine ⟨_, _, moment, rfl, ?_⟩
  exact (risks _ rfl).symm

end Walk

end PhpAudit
