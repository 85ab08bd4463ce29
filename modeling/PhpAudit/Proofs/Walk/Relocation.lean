import PhpAudit.Proofs.Walk.Steps

/-!
# The same walk after another location

What a walk finds hangs on the variables of the scope, and where it finds it on the last known
location. So a walk from two scopes that know the same variables and came from two locations has one
value, assigns the same variables and reports the same events, one by one; what it reports at the
first location in the one, it reports at the second in the other. The walk is **moved**.

**The law** (`moves_expr`): every walk moves. Nothing else may differ: what a node with a location
of its own reports is the same event in both.
-/

namespace PhpAudit

open PhpAudit.Tree

/-- **A location that is moved**: it is the same one, or the first of two in place of which the
second stands. -/
inductive Location.Moved (k k' : Location) : Location → Location → Prop
  | same (l : Location) : Moved k k' l l
  | moved : Moved k k' k k'

/-- **An event that is moved**: it is the same one, or it is reported at another location. -/
inductive Event.Moved (k k' : Location) : Event → Event → Prop
  | same (e : Event) : Moved k k' e e
  | sink (name : Text) (t : Taint) : Moved k k' (.sink k name t) (.sink k' name t)
  | inclusion (once require : Bool) (x : Option Expr) :
      Moved k k' (.inclusion (.of k once require x)) (.inclusion (.of k' once require x))
  | remark (level : Level) (text : Text) :
      Moved k k' (.remark ⟨level, text ++ k.text⟩) (.remark ⟨level, text ++ k'.text⟩)

/-- **A scope that is moved** knows the same variables. -/
structure Scope.Moved (k k' : Location) (s s' : Scope) : Prop where
  assigned : s'.assigned = s.assigned
  lastKnown : Location.Moved k k' s.lastKnown s'.lastKnown

/-- **An outcome that is moved** has the same value, or was stopped at a node of the same kind. -/
inductive Outcome.Moved {α : Type} (k k' : Location) : Outcome α → Outcome α → Prop
  | done {es es' : List Event} {s s' : Scope} (a : α) : List.Forall₂ (Event.Moved k k') es es' →
      s.Moved k k' s' → Moved k k' ⟨es, s, .ok a⟩ ⟨es', s', .ok a⟩
  | stopped {es es' : List Event} {s s' : Scope} (kind : Text) {l l' : Location} :
      List.Forall₂ (Event.Moved k k') es es' → s.Moved k k' s' → Location.Moved k k' l l' →
      Moved k k' ⟨es, s, .error ⟨kind, l⟩⟩ ⟨es', s', .error ⟨kind, l'⟩⟩

/-- A walk moves if its outcomes are moved as the scopes that it starts from. -/
def Walk.Moves {α : Type} (k k' : Location) (w : Walk α) : Prop :=
  ∀ s s' : Scope, s.Moved k k' s' → (w s).Moved k k' (w s')

section Same

variable (k k' : Location)

theorem moved_events_refl (es : List Event) : List.Forall₂ (Event.Moved k k') es es :=
  List.forall₂_same.mpr fun e _ => .same e

theorem Scope.Moved.refl (s : Scope) : s.Moved k k' s := ⟨rfl, .same _⟩

/-- An outcome that is left as it is. -/
theorem Outcome.Moved.refl {α : Type} (o : Outcome α) : o.Moved k k' o := by
  obtain ⟨es, s, value⟩ := o
  cases value with
  | ok a => exact .done a (moved_events_refl k k' es) (.refl k k' s)
  | error e => exact .stopped e.kind (moved_events_refl k k' es) (.refl k k' s) (.same _)

end Same

section Places

variable {k k' : Location}

/-- What is reported at a place is moved with it. -/
theorem Location.Moved.events {l l' : Location} (h : Location.Moved k k' l l')
    (report : Location → List Event)
    (moved : List.Forall₂ (Event.Moved k k') (report k) (report k')) :
    List.Forall₂ (Event.Moved k k') (report l) (report l') := by
  cases h with
  | same => exact moved_events_refl k k' _
  | moved => exact moved

/-- Only where a node has no location of its own, the place of it is moved. -/
theorem Location.Moved.orElse {l l' : Location} (h : Location.Moved k k' l l') (own : Location) :
    Location.Moved k k' (own.orElse l) (own.orElse l') := by
  unfold Location.orElse
  split
  · exact h
  · exact .same own

theorem Scope.Moved.track {s s' : Scope} (h : s.Moved k k' s') (l : Location) :
    (s.track l).Moved k k' (s'.track l) := by
  refine ⟨?_, ?_⟩
  · rw [Walk.assigned_track, Walk.assigned_track, h.assigned]
  · rw [Walk.lastKnown_track, Walk.lastKnown_track]
    exact h.lastKnown.orElse l

end Places

namespace Walk

open PhpAudit.Tree

variable {k k' : Location} (m : Mitigations)

/-! ## Entering and leaving -/

theorem moved_hidden (c : Callee) :
    List.Forall₂ (Event.Moved k k') (hidden k c) (hidden k' c) := by
  cases c with
  | classVariableMethod | variableClassVariableMethod => exact .cons (.remark _ _) .nil
  | _ => exact .nil

/-- Of what a node reports on entry, only the remark about a hidden method has a place. -/
theorem moved_announced (f : Form) :
    List.Forall₂ (Event.Moved k k') (f.announced k) (f.announced k') := by
  cases f with
  | call l c => exact List.rel_append (moved_hidden c) (moved_events_refl k k' _)
  | unary l form given => cases form <;> exact moved_events_refl k k' _
  | function head params hasBody => cases hasBody <;> exact moved_events_refl k k' _
  | _ => exact moved_events_refl k k' _

theorem moved_told (e : Expr) (ts : List Taint) (f : Form) :
    List.Forall₂ (Event.Moved k k') (f.told e ts k) (f.told e ts k') := by
  refine List.rel_append (List.rel_append ?_ ?_) ?_
  · unfold Form.noted
    split
    · exact moved_events_refl k k' _
    · exact .cons (.remark _ _) .nil
    · exact .nil
  · cases f.sink? e ts with
    | none => exact .nil
    | some name => exact .cons (.sink _ _) .nil
  · unfold Form.site?
    split
    · exact .cons (.inclusion _ _ _) .nil
    · exact .nil

theorem moves_enter (f : Form) : Moves k k' f.enter := by
  intro s s' h
  rw [enter_apply, enter_apply]
  have place := h.lastKnown.orElse f.loc
  exact .done () (place.events (fun l => f.announced l) (moved_announced f))
    (h.track f.loc)

theorem moves_leave (e : Expr) (f : Form) (ts : List Taint) : Moves k k' (f.leave m e ts) := by
  intro s s' h
  -- the scopes differ in nothing but the location that they came from
  have first := leave_from m e s f ts s.lastKnown
  have second := leave_from m e s f ts s'.lastKnown
  rw [← h.assigned] at second
  have place := h.lastKnown.orElse f.loc
  have events := place.events (fun l => f.told e ts l) (moved_told e ts f)
  rw [first, second]
  cases (f.leave m e ts s).value with
  | ok t => exact .done t events ⟨rfl, h.lastKnown⟩
  | error err => exact .stopped err.kind events ⟨rfl, h.lastKnown⟩ place

/-! ## Walks -/

theorem moves_pure {α : Type} (a : α) : Moves k k' (pure a : Walk α) :=
  fun _ _ h => .done a .nil h

theorem Moves.bind {α β : Type} {w : Walk α} {f : α → Walk β} (first : Moves k k' w)
    (rest : ∀ a, Moves k k' (f a)) : Moves k k' (w >>= f) := by
  intro s s' h
  have moved := first s s' h
  rw [bind_apply, bind_apply]
  generalize w s = o at moved
  generalize w s' = o' at moved
  cases moved with
  | stopped kind events scope place => exact .stopped kind events scope place
  | @done _ _ s₁ s₁' a events scope =>
    have after := rest a s₁ s₁' scope
    dsimp only
    generalize f a s₁ = p at after ⊢
    generalize f a s₁' = p' at after ⊢
    cases after with
    | done b events' scope' => exact .done b (List.rel_append events events') scope'
    | stopped kind events' scope' place =>
      exact .stopped kind (List.rel_append events events') scope' place

/-- The walk of a node moves if that through its children does; a body does not know where the walk
came from. -/
theorem moves_walk {n : Node} (below : Moves k k' (visit m n.children)) :
    Moves k k' (n.walk m) := by
  obtain ⟨b, rfl⟩ | notBody := n.body_or
  · intro s s' h
    rw [walk_body, walk_body]
    cases (block m b .start).value with
    | ok u => exact .done _ (moved_events_refl k k' _) h
    | error e => exact .stopped e.kind (moved_events_refl k k' _) h (.same _)
  · rw [walk_of_ne_body notBody]
    exact (moves_enter n.form).bind fun _ => below.bind (moves_leave m n.self n.form)

/-- **Walks move**, one node after the other. -/
theorem moves_visit (ns : List Node) : Moves k k' (visit m ns) := by
  induction ns using Node.forest_induction with
  | nil => exact moves_pure []
  | cons n ns below rest =>
    rw [visit_cons]
    exact (moves_walk m below).bind fun t => rest.bind fun ts => moves_pure (t :: ts)

theorem walk_some (e : Expr) : (Node.operand (some e)).walk m = expr m e := by
  rw [Node.walk, operand]

/-- **The walk of an expression** from another location. -/
theorem moves_expr (e : Expr) : Moves k k' (expr m e) := by
  rw [← walk_some]
  exact moves_walk m (moves_visit m _)

/-- A node is entered as it is after its location was taken note of. -/
theorem enter_track (f : Form) (s : Scope) : f.enter (s.track f.loc) = f.enter s := by
  have again : (s.track f.loc).track f.loc = s.track f.loc := by
    unfold Scope.track
    split <;> rfl
  rw [enter_apply, enter_apply, locate_track, again]

/-- **An expression takes note of its own location**: it may as well have been taken note of. -/
theorem expr_track (e : Expr) (s : Scope) : expr m e (s.track e.loc) = expr m e s := by
  have entered := enter_track (Form.ofExpr e) s
  have loc : (Form.ofExpr e).loc = e.loc := loc_form (.operand (some e))
  rw [loc] at entered
  rw [← walk_some, walk_of_ne_body (fun b h => by cases h), bind_apply, bind_apply]
  exact entered ▸ rfl

end Walk

end PhpAudit
