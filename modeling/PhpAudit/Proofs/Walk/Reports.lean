import PhpAudit.Proofs.Walk.Coverage

/-!
# What a node reports

A node reports twice: on entry, what it declares and uses by name, and when it is left, the values
that reach its sink and the file that it includes. Both are said here by the form of the node, the
taints of its children and one **place**, where what has no location of its own is reported: the
location of the node, or the last one that the walk came across.

So the scope around a node has two says in what is reported at it. The variables are in the taints
already, and the last known location is in the place: leaving a node from a scope that differs in
nothing else gives the same report at another place (`leave_from`).

A **record** is what a finding or an include site is made of. Only calls, `echo`, includes and
`exit` make records, and they make them when they are left, at their place (`place_of_told`).
-/

namespace PhpAudit

open PhpAudit.Tree

/-- The location that a value at a sink, or an include, is reported at; other events have none. -/
def Event.place? : Event → Option Location
  | .sink l _ _ => some l
  | .inclusion site => some site.loc
  | .use _ | .function _ | .classDef _ | .remark _ => none

/-- The site of an include is where the include is. -/
@[simp] theorem IncludeSite.loc_of (l : Location) (once require : Bool) (x : Option Expr) :
    (IncludeSite.of l once require x).loc = l := by
  unfold IncludeSite.of
  split <;> rfl

namespace Walk

/-- **The location of a node.** Functions and classes are placed by their records, and a body is no
node of the scope around it. -/
def Node.loc : Node → Location
  | .operand (some e) => e.loc
  | .statement (some s) => s.loc
  | .link (.mk l _) => l
  | .targets (.mk l _) => l
  | .operand none | .statement none | .function _ | .classDef _ | .body _ => .unknown

/-- The name of the sink that the arguments of a call reach, if they reach one. -/
def sinkName? : Callee → Option Text
  | .function name _ | .method _ name | .ownMethod name | .classMethod _ name
  | .virtualMethod name | .variableClassMethod _ name => some name
  | .variableFunction _ => some sinks.variableFunction
  | .variableMethod _ _ => some sinks.variableMethod
  | .ownVariableMethod _ => some sinks.ownVariableMethod
  | .classVariableMethod _ _ => some sinks.classVariableMethod
  | .variableClassVariableMethod _ _ => some sinks.variableClassVariableMethod
  | .constructor _ => some sinks.construct
  | .createVariable _ => some sinks.createVariable
  | .createVirtual => some sinks.createVirtual
  | .create _ => none

/-- The remark about a method that only a variable names. -/
def hidden (place : Location) : Callee → List Event
  | .classVariableMethod _ _ | .variableClassVariableMethod _ _ =>
    [.remark ⟨.warn, "Found class::$method()-expression at " ++ place.text⟩]
  | _ => []

namespace Form

/-- The location that the walk takes note of when it comes to a node of this form. -/
def loc : Form → Location
  | .atom l _ | .unary l _ _ | .binary l _ | .assign l _ _ | .conditional l | .list l _ | .array l
  | .append l | .assignList l _ | .call l _ | .closure l _ | .link l | .targets l | .simple l _
  | .compound l _ | .unknown l _ => l
  | .absent | .function _ _ _ | .classDef _ | .body _ => .unknown

/-- **What is reported on entry**, where the place is that of the node. -/
def announced (place : Location) : Form → List Event
  | .unary _ (.instanceOf c) _ => [.use (.ofClass c)]
  | .call _ c => hidden place c ++ (usedBy c).map .use
  | .function head _ true => [.function head,
      .remark ⟨.trace, "Analyzing function " ++ head.text ++ " at " ++ head.loc.text⟩]
  | .function head _ false => [.function head,
      .remark ⟨.trace, "Skipping body of abstract function " ++ head.text⟩]
  | .classDef head => [
      .remark ⟨.trace, "Analyzing class " ++ head.name ++ " at " ++ head.loc.text⟩, .classDef head]
  | _ => []

/-- The taint that reaches the sink of a form, from those of its children: the arguments of a call,
merged, or the only operand. -/
def offered (ts : List Taint) : Form → Taint
  | .call _ c => mergeAll (.none none) (ts.drop (Part.ofCallee c).length)
  | _ => ts.headD (.none none)

/-- What is told of a node that is left, apart from records. -/
def noted (place : Location) : Form → List Event
  | .atom _ (.classConstant c _) => [.use (.ofClass c)]
  | .unary _ .variableVariable _ =>
    [.remark ⟨.warn, "Found $$var-expression at " ++ place.text⟩]
  | _ => []

/-- The name of the sink that a value reaches at a node that is left, if one does. -/
def sink? (e : Expr) (ts : List Taint) : Form → Option Text
  | .call _ c => sinkName? c
  | .simple _ .echo => if ts.length = 1 then some sinks.echo else none
  | .unary _ (.inclusion once _) _ => some (if once then sinks.inclusionOnce else sinks.inclusion)
  | .unary _ (.exit die) _ =>
    if (operand? e).isSome then some (if die then sinks.die else sinks.exit) else none
  | _ => none

/-- The site of an include that is left. -/
def site? (e : Expr) (place : Location) : Form → Option IncludeSite
  | .unary _ (.inclusion once require) _ => some (.of place once require (operand? e))
  | _ => none

/-- **What is reported when a node is left**, where the place is that of the node: notes, a value at
a sink, and the site of an include. -/
def told (e : Expr) (ts : List Taint) (place : Location) (f : Form) : List Event :=
  f.noted place ++ (f.sink? e ts).toList.map (fun name => .sink place name (f.offered ts)) ++
    (f.site? e place).toList.map .inclusion

/-- **A form that makes records**: a call, an `echo`, an include or an `exit`. -/
inductive Records : Form → Prop
  | call (l : Location) (c : Callee) : Records (.call l c)
  | echo (l : Location) : Records (.simple l .echo)
  | inclusion (l : Location) (once require given : Bool) :
      Records (.unary l (.inclusion once require) given)
  | exit (l : Location) (die given : Bool) : Records (.unary l (.exit die) given)

end Form

/-- The location of a node is that of its form. -/
theorem loc_form (n : Node) : n.form.loc = n.loc := by
  cases n with
  | operand x =>
    rcases x with _ | e
    · rfl
    · cases e with
      | binary l form a b => cases form <;> rfl
      | _ => rfl
  | statement x =>
    rcases x with _ | s
    · rfl
    · cases s with
      | block b => cases b; rfl
      | _ => rfl
  | link l => cases l; rfl
  | targets ts => cases ts; rfl
  | function f => cases f; rfl
  | classDef d => cases d; rfl
  | body b => cases b; rfl

/-! ## Places -/

section Places

variable (s : Scope) (l : Location)

/-- What comes next is reported at the location that was taken note of last. -/
theorem lastKnown_track : (s.track l).lastKnown = s.locate l := by
  unfold Scope.track Scope.locate Location.orElse
  split <;> rfl

theorem locate_track : (s.track l).locate l = s.locate l := by
  unfold Scope.locate Location.orElse
  split
  · next unknown => rw [Scope.track, if_pos unknown]
  · rfl

@[simp] theorem assigned_track : (s.track l).assigned = s.assigned := by
  unfold Scope.track
  split <;> rfl

end Places

/-! ## Entering a node -/

section Enter

variable (s : Scope)

theorem announce_apply (l : Location) (c : Callee) :
    announce l c s = ⟨hidden (s.locate l) c ++ (usedBy c).map .use, s, .ok ()⟩ := by
  cases c with
  | function name qualified =>
    by_cases both : qualified ≠ "" ∧ qualified ≠ name
    · simp only [announce, usedBy, if_pos both]
      rfl
    · simp only [announce, usedBy, if_neg both]
      rfl
  | _ => rfl

/-- **A node is entered** by taking note of its location. -/
theorem enter_apply (f : Form) :
    f.enter s = ⟨f.announced (s.locate f.loc), s.track f.loc, .ok ()⟩ := by
  cases f with
  | unary l form given => cases form <;> rfl
  | call l c =>
    have below := announce_apply (s.track l) l c
    rw [locate_track] at below
    calc (Form.call l c).enter s
        = ⟨(announce l c (s.track l)).events, (announce l c (s.track l)).scope,
            (announce l c (s.track l)).value⟩ := rfl
      _ = _ := by rw [below]; rfl
  | function head params hasBody => cases hasBody <;> rfl
  | _ => rfl

/-- Nothing that is reported on entry is a record. -/
theorem place?_of_announced {f : Form} {place : Location} {e : Event}
    (h : e ∈ f.announced place) : e.place? = none := by
  cases f with
  | unary l form given =>
    cases form with
    | instanceOf c => rw [List.mem_singleton.mp h]; rfl
    | _ => cases h
  | call l c =>
    obtain h | h := List.mem_append.mp h
    · cases c with
      | classVariableMethod | variableClassVariableMethod => rw [List.mem_singleton.mp h]; rfl
      | _ => cases h
    · obtain ⟨i, -, rfl⟩ := List.mem_map.mp h
      rfl
  | function head params hasBody =>
    cases hasBody <;> simp only [Form.announced, List.mem_cons, List.not_mem_nil, or_false] at h <;>
      obtain rfl | rfl := h <;> rfl
  | classDef head =>
    simp only [Form.announced, List.mem_cons, List.not_mem_nil, or_false] at h
    obtain rfl | rfl := h <;> rfl
  | _ => cases h

end Enter

/-! ## Leaving a node -/

section Leave

variable (m : Mitigations) (e : Expr) (s : Scope)

/-- **A node is left** with its report at its place, and without coming across a location. From a
scope that came from another location, only the place differs. -/
theorem leave_from (f : Form) (ts : List Taint) (k : Location) :
    f.leave m e ts { s with lastKnown := k } =
      ⟨f.told e ts (f.loc.orElse k), { (f.leave m e ts s).scope with lastKnown := k },
        (f.leave m e ts s).value.mapError fun err => ⟨err.kind, f.loc.orElse k⟩⟩ := by
  cases f with
  | atom l a => cases a <;> rfl
  | unary l form given =>
    cases form with
    | cast type => unfold Form.leave afterOperand; split <;> rfl
    | exit die =>
      by_cases given : (operand? e).isSome
      · simp only [Form.leave, afterOperand, Form.told, Form.sink?, if_pos given]
        rfl
      · simp only [Form.leave, afterOperand, Form.told, Form.sink?, if_neg given]
        rfl
    | _ => rfl
  | assign l byReference name =>
    rcases ts with _ | ⟨t, _ | _⟩
    · rfl
    · cases name <;> rfl
    · rfl
  | call l c => cases c <;> rfl
  | simple l form => rcases ts with _ | ⟨t, _ | _⟩ <;> cases form <;> rfl
  | binary l form | conditional l | append l | link l =>
    rcases ts with _ | ⟨t, _ | ⟨t, _ | ⟨t, _ | _⟩⟩⟩ <;> rfl
  | _ => rfl

theorem events_leave (f : Form) (ts : List Taint) :
    (f.leave m e ts s).events = f.told e ts (s.locate f.loc) :=
  congrArg Outcome.events (leave_from m e s f ts s.lastKnown)

@[simp] theorem lastKnown_leave (f : Form) (ts : List Taint) :
    (f.leave m e ts s).scope.lastKnown = s.lastKnown :=
  congrArg (fun o => o.scope.lastKnown) (leave_from m e s f ts s.lastKnown)

end Leave

/-! ## Records -/

theorem place?_of_noted {f : Form} {place : Location} {r : Event} (h : r ∈ f.noted place) :
    r.place? = none := by
  unfold Form.noted at h
  split at h
  · rw [List.mem_singleton.mp h]
    rfl
  · rw [List.mem_singleton.mp h]
    rfl
  · cases h

theorem records_of_sink? {f : Form} {e : Expr} {ts : List Taint} {name : Text}
    (h : f.sink? e ts = some name) : f.Records := by
  unfold Form.sink? at h
  split at h
  · exact .call ..
  · exact .echo ..
  · exact .inclusion ..
  · exact .exit ..
  · cases h

/-- What a form tells of is a note, a value that reaches its sink, or the site of an include. -/
theorem mem_told {f : Form} {e : Expr} {ts : List Taint} {place : Location} {r : Event} :
    r ∈ f.told e ts place ↔ r ∈ f.noted place ∨
      (∃ name, f.sink? e ts = some name ∧ r = .sink place name (f.offered ts)) ∨
      ∃ site, f.site? e place = some site ∧ r = .inclusion site := by
  simp only [Form.told, List.mem_append, List.mem_map, Option.mem_toList, or_assoc, @eq_comm _ r]

/-- **Records are made by calls, echoes, includes and exits**, at the place of the node. -/
theorem place_of_told {f : Form} {e : Expr} {ts : List Taint} {place p : Location} {r : Event}
    (h : r ∈ f.told e ts place) (record : r.place? = some p) : f.Records ∧ p = place := by
  obtain h | ⟨name, sink, rfl⟩ | ⟨site, made, rfl⟩ := mem_told.mp h
  · rw [place?_of_noted h] at record
    cases record
  · exact ⟨records_of_sink? sink, (Option.some.inj record).symm⟩
  · unfold Form.site? at made
    split at made
    · obtain rfl := Option.some.inj made
      rw [Event.place?, IncludeSite.loc_of] at record
      exact ⟨.inclusion .., (Option.some.inj record).symm⟩
    · cases made

/-- What reaches a sink is what is offered to it. -/
theorem taint_of_told {f : Form} {e : Expr} {ts : List Taint} {place l : Location} {name : Text}
    {t : Taint} (h : .sink l name t ∈ f.told e ts place) : t = f.offered ts := by
  obtain h | ⟨_, _, same⟩ | ⟨_, _, same⟩ := mem_told.mp h
  · cases place?_of_noted h
  · exact (Event.sink.inj same).2.2
  · cases same

end Walk

end PhpAudit
