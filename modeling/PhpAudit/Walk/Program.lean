import PhpAudit.Walk.Tree

/-!
# The walk over a program

A program is walked from its statements to the functions listed beside them. A listed function that
a record of the same class, name and place was declared for is passed over; anonymous functions are
always walked. The first node of an unknown kind ends the walk, and the events before it are kept.
-/

namespace PhpAudit.Walk

open PhpAudit.Tree

/-- **What a walk over a program gives**: its events, and the error that ended it, if one did. -/
structure Run where
  events : List Event
  failure : Option CoverageError

/-- The run of a walk from the start of a body. -/
def Run.of {α : Type} (w : Walk α) : Run :=
  let o := w .start
  ⟨o.events, match o.value with | .ok _ => none | .error e => some e⟩

/-- One run after another, unless the first failed. -/
def Run.andThen (r : Run) (next : Unit → Run) : Run :=
  match r.failure with
  | some _ => r
  | none => ⟨r.events ++ (next ()).events, (next ()).failure⟩

/-- What tells the records of named functions apart. -/
structure FunctionKey where
  className : Text
  name : Text
  loc : Location
deriving DecidableEq, Repr

/-- The key of a function. -/
def FunctionKey.of (f : FunctionHead) : FunctionKey := ⟨f.className, f.name, f.loc⟩

/-- The keys of the named functions that events declare. -/
def declaredKeys (events : List Event) : List FunctionKey :=
  events.filterMap fun
    | .function head => if head.isClosure then none else some (.of head)
    | _ => none

/-- A listed function is passed over: it is named, and declared already. -/
def isKnown (declared : List FunctionKey) (f : FunctionHead) : Bool :=
  !f.isClosure && declared.contains (.of f)

/-- Walks the listed functions that are not declared yet. -/
def listed (m : Mitigations) (declared : List FunctionKey) : List Function → Run
  | [] => ⟨[], none⟩
  | f :: fs =>
    if isKnown declared f.head then listed m declared fs
    else
      let r := Run.of (function m f)
      r.andThen fun _ => listed m (declared ++ declaredKeys r.events) fs

/-- **Walks a program.** -/
def program (m : Mitigations) (p : Program) : Run :=
  let body := Run.of (block m p.body)
  let run := body.andThen fun _ => listed m (declaredKeys body.events) p.functions
  let first : Event := .remark ⟨.debug, "Analyzing program " ++ p.file⟩
  let last := match run.failure with
    | none => []
    | some e => [.remark ⟨.error, "Analysis of " ++ p.file ++ " aborted: " ++ e.message⟩]
  ⟨first :: run.events ++ last, run.failure⟩

end PhpAudit.Walk
