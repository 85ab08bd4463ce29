import PhpAudit.Walk.Event

/-!
# Walks

A **scope** is what a walk knows inside one body: the taint of every variable assigned so far, and
the last location it came across. A **walk** goes from a scope to an outcome: the events it reports,
the scope it leaves, and its value or the error that stopped it. Events before an error are kept,
and so are the assignments.

A walk never sees its own events, so what it does in a scope cannot hang on what was reported before.
-/

namespace PhpAudit

/-- **What is known inside one body.** -/
structure Scope where
  /-- The assigned variables, each once. -/
  assigned : List (Text × Taint)
  lastKnown : Location

namespace Scope

/-- The scope at the start of a body. -/
def start : Scope := ⟨[], .unknown⟩

/-- The taint recorded for a variable, if it was assigned. -/
def lookup? (s : Scope) (name : Text) : Option Taint := s.assigned.lookup name

/-- Records the taint of a variable in place of what was recorded. -/
def bind (s : Scope) (name : Text) (t : Taint) : Scope :=
  { s with assigned := (name, t) :: s.assigned.filter fun v => v.1 ≠ name }

/-- Takes note of a location, unless it is unknown. -/
def track (s : Scope) (l : Location) : Scope := if l.isUnknown then s else { s with lastKnown := l }

/-- The location to report a node at: its own, or the last known one. -/
def locate (s : Scope) (l : Location) : Location := l.orElse s.lastKnown

end Scope

/-- **The outcome of a walk.** -/
structure Outcome (α : Type) where
  events : List Event
  scope : Scope
  value : Except CoverageError α

/-- **A walk** from a scope to an outcome. -/
def Walk (α : Type) := Scope → Outcome α

namespace Walk

variable {α β : Type}

/-- The walk that does nothing. -/
def done (a : α) : Walk α := fun s => ⟨[], s, .ok a⟩

/-- One walk after another; an error of the first is the error of both. -/
def andThen (w : Walk α) (f : α → Walk β) : Walk β := fun s =>
  let o := w s
  match o.value with
  | .error e => ⟨o.events, o.scope, .error e⟩
  | .ok a =>
    let o' := f a o.scope
    ⟨o.events ++ o'.events, o'.scope, o'.value⟩

instance : Monad Walk where
  pure := done
  bind := andThen

/-- Reports an event. -/
def report (e : Event) : Walk Unit := fun s => ⟨[e], s, .ok ()⟩

/-- Reports a use of a name. -/
def use (i : Identity) : Walk Unit := report (.use i)

/-- Adds a remark to the log. -/
def remark (level : Level) (text : Text) : Walk Unit := report (.remark ⟨level, text⟩)

/-- Takes note of a location. -/
def track (l : Location) : Walk Unit := fun s => ⟨[], s.track l, .ok ()⟩

/-- The location to report a node at. -/
def locate (l : Location) : Walk Location := fun s => ⟨[], s, .ok (s.locate l)⟩

/-- The taint of a variable, if it was assigned. -/
def lookup? (name : Text) : Walk (Option Taint) := fun s => ⟨[], s, .ok (s.lookup? name)⟩

/-- Records the taint of a variable. -/
def bindVariable (name : Text) (t : Taint) : Walk Unit := fun s => ⟨[], s.bind name t, .ok ()⟩

/-- Stops at a node of an unknown kind. -/
def stop (l : Location) (kind : Text) : Walk α := fun s => ⟨[], s, .error ⟨kind, s.locate l⟩⟩

/-- **Walks a body in a scope of its own**: it starts empty, and the scope around is left as it was. -/
def inFreshScope (w : Walk α) : Walk Unit := fun s =>
  let o := w .start
  ⟨o.events, s, o.value.map fun _ => ()⟩

@[simp] theorem pure_apply (a : α) (s : Scope) : (pure a : Walk α) s = ⟨[], s, .ok a⟩ := rfl

theorem bind_apply (w : Walk α) (f : α → Walk β) (s : Scope) :
    (w >>= f) s = match (w s).value with
      | .error e => ⟨(w s).events, (w s).scope, .error e⟩
      | .ok a => ⟨(w s).events ++ (f a (w s).scope).events, (f a (w s).scope).scope,
          (f a (w s).scope).value⟩ := rfl

/-- A body in a scope of its own leaves the scope around as it was. -/
@[simp] theorem scope_inFreshScope (w : Walk α) (s : Scope) : (inFreshScope w s).scope = s := rfl

end Walk

end PhpAudit
