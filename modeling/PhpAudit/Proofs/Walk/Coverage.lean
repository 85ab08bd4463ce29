import PhpAudit.Proofs.Usage.Entries
import PhpAudit.Proofs.Walk.Runs

/-!
# What a walk covers

The nodes that a walk **reaches** are a node and what is below its children, in the order of the
walk. A walk that reaches no node of an unknown kind is done, and its events make the entries of the
nodes that it reached: their declarations and uses, in order. Any other is stopped at the first node
of an unknown kind (`covers_visit`).

**The law** (`covers_program`): the walk over a program fails exactly when it reaches a node of an
unknown kind, in its body or in a listed function that is not passed over, and names the tag of the
first (`failure_program`); one that does not fail makes the entries of all that it reaches
(`entriesOf_program`). It follows the walk of a node (`walk_eq_around`), so nothing is said here of
single kinds.
-/

namespace PhpAudit.Walk

open PhpAudit.Tree
open PhpAudit.Ledger (Entry)

/-- The tag of a form of an unknown kind. -/
def Form.tag? : Form → Option Text
  | .unknown _ tag => some tag
  | _ => none

/-- The key of the function of a form, unless it is anonymous. -/
def Form.key? : Form → Option FunctionKey
  | .function head _ _ => if head.isClosure then none else some (.of head)
  | _ => none

/-- The identities that a call uses by the names in its callee. -/
def usedBy : Callee → List Identity
  | .function name qualified =>
    .ofFunction name :: if qualified ≠ "" ∧ qualified ≠ name then [.ofFunction qualified] else []
  | .method _ name | .ownMethod name => [.ofMethod name]
  | .classMethod c name => [.ofStaticMethod name, .ofClass c]
  | .virtualMethod name | .variableClassMethod _ name => [.ofStaticMethod name]
  | .classVariableMethod c _ | .create c | .constructor c => [.ofClass c]
  | .variableClassVariableMethod _ _ | .variableFunction _ | .variableMethod _ _
  | .ownVariableMethod _ | .createVariable _ | .createVirtual => []

/-- The entries that are made when a form is entered. -/
def Form.entered : Form → List Entry
  | .unary _ (.instanceOf c) _ => [.use (.ofClass c)]
  | .call _ c => (usedBy c).map .use
  | .function head _ _ => [.function head]
  | .classDef head => [.classLike head]
  | _ => []

/-- The entries that are made when a form is left. -/
def Form.left : Form → List Entry
  | .atom _ (.classConstant c _) => [.use (.ofClass c)]
  | _ => []

/-- **The entries of a form.** -/
def Form.entries (f : Form) : List Entry := f.entered ++ f.left

/-- **The nodes that the walk of a node reaches**, in order. -/
def Node.reached (n : Node) : List Node :=
  n :: n.children.attach.flatMap fun c => c.1.reached
termination_by sizeOf n
decreasing_by exact Node.sizeOf_lt_of_mem_children c.2

theorem Node.reached_eq (n : Node) : n.reached = n :: n.children.flatMap reached := by
  rw [reached, List.flatMap_subtype (g := reached) fun _ _ => rfl, List.unattach_attach]

theorem Node.mem_reached_self (n : Node) : n ∈ n.reached := by
  rw [reached_eq]
  exact List.mem_cons_self

theorem Node.mem_reached_of_child {n c r : Node} (child : c ∈ n.children) (h : r ∈ c.reached) :
    r ∈ n.reached := by
  rw [reached_eq]
  exact List.mem_cons_of_mem _ (List.mem_flatMap_of_mem child h)

/-- A node below a reached node is reached. -/
theorem Node.mem_reached_trans {n r t : Node} (first : r ∈ n.reached) (second : t ∈ r.reached) :
    t ∈ n.reached := by
  induction n using Node.induction with | step n ih
  rw [Node.reached_eq, List.mem_cons, List.mem_flatMap] at first
  obtain rfl | ⟨c, hc, first⟩ := first
  · exact second
  · exact Node.mem_reached_of_child hc (ih c hc first)

/-- The tags of unknown kinds among the nodes that a walk reaches. -/
def tags (ns : List Node) : List Text := (ns.flatMap Node.reached).filterMap fun n => n.form.tag?

/-- The keys of the functions among the nodes that a walk reaches. -/
def keys (ns : List Node) : List FunctionKey :=
  (ns.flatMap Node.reached).filterMap fun n => n.form.key?

/-- The entries of the nodes that a walk reaches. -/
def noted (ns : List Node) : List Entry := (ns.flatMap Node.reached).flatMap fun n => n.form.entries

/-- The listed functions that are not passed over. -/
def fresh (declared : List FunctionKey) : List Function → List Function
  | [] => []
  | f :: fs =>
    if isKnown declared f.head then fresh declared fs
    else f :: fresh (declared ++ keys [.function f]) fs

theorem fresh_sublist (declared : List FunctionKey) (fs : List Function) :
    List.Sublist (fresh declared fs) fs := by
  induction fs generalizing declared with
  | nil => exact .slnil
  | cons f fs ih =>
    rw [fresh]
    split
    · exact (ih _).cons f
    · exact (ih _).cons_cons f

/-- What the walk over a program comes to first: its body, and the listed functions that are not
passed over. -/
def starts (p : Program) : List Node :=
  .ofStatement (.block p.body) ::
    (fresh (keys [.ofStatement (.block p.body)]) p.functions).map .function

/-- **The tags of unknown kinds among the nodes that the walk over a program reaches.** -/
def unknowns (p : Program) : List Text := tags (starts p)

/-! ## Tags and entries node by node -/

@[simp] theorem tags_nil : tags [] = [] := rfl

theorem tags_cons (n : Node) (ns : List Node) : tags (n :: ns) = tags [n] ++ tags ns := by
  simp only [tags, List.flatMap_cons, List.flatMap_nil, List.append_nil, List.filterMap_append]

theorem keys_cons (n : Node) (ns : List Node) : keys (n :: ns) = keys [n] ++ keys ns := by
  simp only [keys, List.flatMap_cons, List.flatMap_nil, List.append_nil, List.filterMap_append]

theorem noted_cons (n : Node) (ns : List Node) : noted (n :: ns) = noted [n] ++ noted ns := by
  simp only [noted, List.flatMap_cons, List.flatMap_nil, List.append_nil, List.flatMap_append]

theorem tags_eq_nil_iff {ns : List Node} : tags ns = [] ↔ ∀ n ∈ ns, tags [n] = [] := by
  induction ns with
  | nil => simp
  | cons n ns ih => rw [tags_cons, List.append_eq_nil_iff, ih, List.forall_mem_cons]

theorem tags_node (n : Node) : tags [n] = n.form.tag?.toList ++ tags n.children := by
  rw [tags, List.flatMap_singleton, Node.reached_eq, List.filterMap_cons]
  cases n.form.tag? <;> rfl

/-- Below a node that reaches no unknown kind, none is reached. -/
theorem tags_of_mem_reached {n r : Node} (known : tags [n] = []) (h : r ∈ n.reached) :
    tags [r] = [] := by
  induction n using Node.induction with | step n ih
  rw [Node.reached_eq, List.mem_cons, List.mem_flatMap] at h
  obtain rfl | ⟨c, hc, h⟩ := h
  · exact known
  · rw [tags_node, List.append_eq_nil_iff] at known
    exact ih c hc (tags_eq_nil_iff.mp known.2 c hc) h

theorem noted_node (n : Node) : noted [n] = n.form.entries ++ noted n.children := by
  rw [noted, List.flatMap_singleton, Node.reached_eq, List.flatMap_cons]
  rfl

/-- A node of an unknown kind has nothing below it. -/
theorem children_of_tag {n : Node} {tag : Text} (unknown : n.form.tag? = some tag) :
    n.children = [] := by
  cases n with
  | operand x =>
    rcases x with _ | e
    · rfl
    · cases e with
      | unknown l tag => rfl
      | binary l form a b => cases form <;> cases unknown
      | _ => cases unknown
  | statement x =>
    rcases x with _ | s
    · rfl
    · cases s with
      | unknown l tag => rfl
      | block b => cases b; cases unknown
      | _ => cases unknown
  | link l => cases l; cases unknown
  | targets ts => cases ts; cases unknown
  | function f => cases f; cases unknown
  | classDef d => cases d; cases unknown
  | body b => cases b; cases unknown

/-- A node that makes entries when it is left has nothing below it. -/
theorem left_eq_nil_or_children (n : Node) : n.form.left = [] ∨ n.children = [] := by
  cases n with
  | operand x =>
    rcases x with _ | e
    · exact .inl rfl
    · cases e with
      | atom l a => exact .inr rfl
      | binary l form a b => cases form <;> exact .inl rfl
      | _ => exact .inl rfl
  | statement x =>
    rcases x with _ | s
    · exact .inl rfl
    · cases s with
      | block b => cases b; exact .inl rfl
      | _ => exact .inl rfl
  | link l => cases l; exact .inl rfl
  | targets ts => cases ts; exact .inl rfl
  | function f => cases f; exact .inl rfl
  | classDef d => cases d; exact .inl rfl
  | body b => cases b; exact .inl rfl

/-! ## Keys by entries -/

/-- The key of the function that an entry declares, unless it is anonymous. -/
def keyOf? : Entry → Option FunctionKey
  | .function head => if head.isClosure then none else some (.of head)
  | .classLike _ | .use _ => none

theorem declaredKeys_eq_filterMap (es : List Event) :
    declaredKeys es = (entriesOf es).filterMap keyOf? := by
  rw [entriesOf, List.filterMap_filterMap, declaredKeys]
  congr 1
  funext e
  cases e <;> rfl

theorem key?_eq (f : Form) : f.key?.toList = f.entries.filterMap keyOf? := by
  cases f with
  | function head params hasBody =>
    cases anonymous : head.isClosure <;>
      simp [Form.key?, Form.entries, Form.entered, Form.left, keyOf?, anonymous]
  | atom l a => cases a <;> rfl
  | unary l form given => cases form <;> rfl
  | call l c =>
    have uses : ∀ is : List Identity, (is.map Entry.use).filterMap keyOf? = [] := by
      intro is
      simp [List.filterMap_map, Function.comp_def, keyOf?]
    simp [Form.key?, Form.entries, Form.entered, Form.left, uses]
  | _ => rfl

/-- The keys of the functions that are reached are those of the entries. -/
theorem keys_eq_filterMap (ns : List Node) : keys ns = (noted ns).filterMap keyOf? := by
  rw [keys, noted]
  generalize ns.flatMap Node.reached = rs
  induction rs with
  | nil => rfl
  | cons r rs ih =>
    rw [List.flatMap_cons, List.filterMap_append, ← ih, ← key?_eq, List.filterMap_cons]
    cases r.form.key? <;> rfl

/-! ## Walks that cover what they reach -/

variable {α β : Type}

/-- **An outcome that covers tags and entries**: there is no tag and the entries are made, or the
walk is stopped at the first tag. -/
inductive Covered : List Text → List Entry → Outcome α → Prop
  | done {xs : List Entry} {es : List Event} {s : Scope} {a : α} :
      entriesOf es = xs → Covered [] xs ⟨es, s, .ok a⟩
  | stopped {tag : Text} {ts : List Text} {xs : List Entry} {es : List Event} {s : Scope}
      {e : CoverageError} : e.kind = tag → Covered (tag :: ts) xs ⟨es, s, .error e⟩

/-- **A walk that covers tags and entries**, from every scope. -/
def Covers (ts : List Text) (xs : List Entry) (w : Walk α) : Prop := ∀ s, Covered ts xs (w s)

theorem covers_pure (a : α) : Covers [] [] (pure a : Walk α) := fun _ => .done rfl

theorem covers_track (l : Location) : Covers [] [] (track l) := fun _ => .done rfl

theorem covers_locate (l : Location) : Covers [] [] (locate l) := fun _ => .done rfl

theorem covers_lookup? (name : Text) : Covers [] [] (lookup? name) := fun _ => .done rfl

theorem covers_bindVariable (name : Text) (t : Taint) : Covers [] [] (bindVariable name t) :=
  fun _ => .done rfl

theorem covers_report (e : Event) : Covers [] (entriesOf [e]) (report e) := fun _ => .done rfl

theorem covers_stop (l : Location) (tag : Text) : Covers [tag] [] (stop l tag : Walk α) :=
  fun _ => .stopped rfl

/-- **Walks in sequence** cover what each covers. -/
theorem Covers.bind {ts ts' : List Text} {xs xs' : List Entry} {w : Walk α} {f : α → Walk β}
    (h : Covers ts xs w) (hf : ∀ a, Covers ts' xs' (f a)) :
    Covers (ts ++ ts') (xs ++ xs') (w >>= f) := by
  intro s
  rw [bind_apply]
  have first := h s
  generalize w s = o at first
  cases first with
  | stopped kind => exact .stopped kind
  | @done _ es t a made =>
    have second := hf a t
    dsimp only
    generalize f a t = o' at second
    cases second with
    | stopped kind => exact .stopped kind
    | done made' =>
      refine .done ?_
      rw [entriesOf_append, made, made']

/-- Walks in sequence, where the first reaches nothing that counts. -/
theorem Covers.after {ts : List Text} {xs : List Entry} {w : Walk α} {f : α → Walk β}
    (h : Covers [] [] w) (hf : ∀ a, Covers ts xs (f a)) : Covers ts xs (w >>= f) :=
  h.bind hf

/-- Walks in sequence, where the second reaches nothing that counts. -/
theorem Covers.before {ts : List Text} {xs : List Entry} {w : Walk α} {f : α → Walk β}
    (h : Covers ts xs w) (hf : ∀ a, Covers [] [] (f a)) : Covers ts xs (w >>= f) := by
  have both := h.bind hf
  rwa [List.append_nil, List.append_nil] at both

theorem Covers.inFreshScope {ts : List Text} {xs : List Entry} {w : Walk α}
    (h : Covers ts xs w) : Covers ts xs (inFreshScope w) := by
  intro s
  have inside := h .start
  rw [Walk.inFreshScope]
  generalize w .start = o at inside
  cases inside with
  | done made => exact .done made
  | stopped kind => exact .stopped kind

theorem covers_use (i : Identity) : Covers [] [.use i] (use i) := covers_report (.use i)

theorem covers_remark (level : Level) (text : Text) : Covers [] [] (remark level text) :=
  covers_report (.remark _)

theorem covers_reach (l : Location) (name : Text) (t : Taint) : Covers [] [] (reach l name t) :=
  (covers_locate l).after fun place => covers_report (.sink place name t)

/-! ## Entering and leaving a form -/

theorem covers_announce (l : Location) (c : Callee) :
    Covers [] ((usedBy c).map .use) (announce l c) := by
  cases c with
  | function name qualified =>
    refine (covers_use _).bind fun _ => ?_
    split
    · exact covers_use _
    · exact covers_pure _
  | method _ name | ownMethod name | virtualMethod name | variableClassMethod _ name =>
    exact covers_use _
  | create c | constructor c => exact covers_use _
  | classMethod c name => exact (covers_use _).bind fun _ => covers_use _
  | classVariableMethod c _ =>
    exact (covers_locate l).after fun _ => (covers_remark _ _).after fun _ => covers_use _
  | variableClassVariableMethod _ _ => exact (covers_locate l).after fun _ => covers_remark _ _
  | _ => exact covers_pure _

/-- **Entering a form** makes the entries of what it declares and of what it uses. -/
theorem covers_enter (f : Form) : Covers [] f.entered f.enter := by
  cases f with
  | absent => exact covers_pure _
  | body l => exact covers_pure _
  | unary l form given =>
    refine (covers_track l).after fun _ => ?_
    cases form with
    | instanceOf c => exact covers_use _
    | _ => exact covers_pure _
  | call l c => exact (covers_track l).after fun _ => covers_announce l c
  | function head params hasBody =>
    refine (covers_report (.function head)).before fun _ => ?_
    split
    · exact covers_remark _ _
    · exact covers_remark _ _
  | classDef head => exact (covers_remark _ _).after fun _ => covers_report (.classDef head)
  | _ => exact covers_track _

theorem covers_atom (e : Expr) (l : Location) (a : Atom) :
    Covers [] (Form.atom l a).left (atom e a) := by
  cases a with
  | var name => exact (covers_lookup? name).after fun _ => covers_pure _
  | classConstant c name => exact (covers_use _).before fun _ => covers_pure _
  | _ => exact covers_pure _

theorem covers_afterOperand (e : Expr) (l : Location) (x : Option Expr) (t : Taint)
    (form : UnaryForm) : Covers [] [] (afterOperand e l x t form) := by
  cases form with
  | variableVariable =>
    exact (covers_locate l).after fun _ => (covers_remark _ _).after fun _ => covers_pure _
  | inclusion once require =>
    refine (covers_locate l).after fun place => ?_
    refine (covers_report (.sink _ _ _)).after fun _ => ?_
    exact (covers_report (.inclusion _)).after fun _ => covers_pure _
  | exit die =>
    rw [afterOperand]
    split
    · exact (covers_reach _ _ _).after fun _ => covers_pure _
    · exact covers_pure _
  | _ => exact covers_pure _

theorem covers_assign (target : Option Expr) (t : Taint) : Covers [] [] (assign target t) := by
  unfold assign
  split
  · refine (covers_lookup? _).after fun _ => ?_
    exact (covers_bindVariable _ _).after fun _ => covers_pure _
  · exact covers_pure _

theorem covers_answer (m : Mitigations) (e : Expr) (l : Location) (c : Callee) (ts : List Taint) :
    Covers [] [] (answer m e l c ts) := by
  cases c with
  | create c => exact covers_pure _
  | _ => exact (covers_reach _ _ _).after fun _ => covers_pure _

/-- **Leaving a form** of an unknown kind stops the walk. -/
theorem covers_leave (m : Mitigations) (e : Expr) (f : Form) (ts : List Taint) :
    Covers f.tag?.toList f.left (f.leave m e ts) := by
  cases f with
  | atom l a => exact covers_atom e l a
  | unary l form given => exact covers_afterOperand e l _ _ form
  | call l c => exact covers_answer m e l c ts
  | unknown l tag => exact covers_stop l tag
  | assign l byReference name =>
    rcases ts with _ | ⟨t, _ | _⟩
    · exact covers_pure _
    · exact covers_assign _ t
    · exact covers_pure _
  | simple l form =>
    rcases ts with _ | ⟨t, _ | _⟩
    · cases form <;> exact covers_pure _
    · cases form with
      | echo => exact (covers_reach _ _ _).after fun _ => covers_pure _
      | _ => exact covers_pure _
    · cases form <;> exact covers_pure _
  | _ =>
    unfold Form.leave
    split <;> first | exact covers_pure _ | contradiction

/-! ## Nodes -/

/-- **A node covers what it is and what is below it.** -/
theorem covers_around (m : Mitigations) (n : Node)
    (below : Covers (tags n.children) (noted n.children) (visit m n.children)) :
    Covers (tags [n]) (noted [n]) (n.walk m) := by
  -- The tag and the entries of the node come first, yet the walk is stopped, or makes an entry, when
  -- it leaves the node: no children.
  have order : n.form.tag?.toList ++ tags n.children = tags n.children ++ n.form.tag?.toList := by
    cases tag : n.form.tag? with
    | none => simp
    | some t => simp [children_of_tag tag]
  have late : n.form.entries ++ noted n.children =
      n.form.entered ++ (noted n.children ++ n.form.left) := by
    obtain none | none := left_eq_nil_or_children n <;> simp [Form.entries, none, noted]
  rw [walk_eq_around, tags_node, noted_node, order, late]
  generalize n.form = f
  have outside : Covers (tags n.children ++ f.tag?.toList)
      (f.entered ++ (noted n.children ++ f.left))
      (do f.enter; let ts ← visit m n.children; f.leave m n.self ts) :=
    (covers_enter f).bind fun _ => below.bind fun ts => covers_leave m n.self f ts
  cases f with
  | body l =>
    have inside : Covers (tags n.children) (noted n.children)
        (do track l; let _ ← visit m n.children) :=
      (covers_track l).after fun _ => below.before fun _ => covers_pure _
    simp only [Form.tag?, Form.entered, Form.left, Option.toList_none, List.append_nil,
      List.nil_append]
    exact inside.inFreshScope.before fun _ => covers_pure _
  | _ => exact outside

/-- **The walk through nodes covers what it reaches.** -/
theorem covers_visit (m : Mitigations) (ns : List Node) :
    Covers (tags ns) (noted ns) (visit m ns) := by
  induction ns using Node.forest_induction with
  | nil => exact covers_pure _
  | cons n ns below rest =>
    rw [tags_cons, noted_cons]
    exact (covers_around m n below).bind fun _ => rest.before fun _ => covers_pure _

/-! ## Programs -/

/-- **A run that covers tags and entries**: its failure is the first tag, and one that does not fail
makes the entries. -/
structure Run.Covers (r : Run) (ts : List Text) (xs : List Entry) : Prop where
  failure : r.failure.map CoverageError.kind = ts.head?
  entries : ts = [] → entriesOf r.events = xs

/-- What a run from the start of a body covers. -/
theorem run_visit (m : Mitigations) (ns : List Node) :
    (Run.of (visit m ns)).Covers (tags ns) (noted ns) := by
  have covered := covers_visit m ns .start
  rw [Run.of]
  generalize tags ns = ts, noted ns = xs, visit m ns .start = o at covered
  cases covered with
  | done made => exact ⟨rfl, fun _ => made⟩
  | stopped kind =>
    refine ⟨congrArg some kind, ?_⟩
    intro none
    cases none

/-- **Runs in sequence** cover what each covers. -/
theorem Run.Covers.andThen {r : Run} {next : Unit → Run} {ts ts' : List Text}
    {xs xs' : List Entry} (first : r.Covers ts xs)
    (second : ts = [] → (next ()).Covers ts' xs') :
    (r.andThen next).Covers (ts ++ ts') (xs ++ xs') := by
  obtain ⟨failure, entries⟩ := first
  cases ts with
  | nil =>
    have goesOn : r.failure = none := Option.map_eq_none_iff.mp failure
    obtain ⟨failure', entries'⟩ := second rfl
    rw [Run.andThen, goesOn]
    refine ⟨failure', fun none => ?_⟩
    rw [entriesOf_append, entries rfl, entries' none]
  | cons t ts =>
    obtain ⟨e, stopped, -⟩ := Option.map_eq_some_iff.mp failure
    rw [andThen_of_failure stopped]
    constructor
    · rw [failure]
      rfl
    · intro none
      cases none

/-- A run that reached nodes and did not fail declared the functions among them. -/
theorem Run.Covers.declaredKeys_eq {r : Run} {ns : List Node} (h : r.Covers (tags ns) (noted ns))
    (known : tags ns = []) : declaredKeys r.events = keys ns := by
  rw [declaredKeys_eq_filterMap, h.entries known, keys_eq_filterMap]

theorem Run.Covers.declaredKeys_of_done {r : Run} {ns : List Node}
    (h : r.Covers (tags ns) (noted ns)) (done : r.failure = none) :
    declaredKeys r.events = keys ns := by
  refine h.declaredKeys_eq ?_
  rw [← List.head?_eq_none_iff, ← h.failure, done]
  rfl

theorem covers_listed (m : Mitigations) (declared : List FunctionKey) (fs : List Function) :
    (listed m declared fs).Covers (tags ((fresh declared fs).map .function))
      (noted ((fresh declared fs).map .function)) := by
  induction fs generalizing declared with
  | nil => exact ⟨rfl, fun _ => rfl⟩
  | cons f fs ih =>
    rw [listed, fresh]
    split
    · exact ih declared
    · have here := run_visit m [.function f]
      rw [List.map_cons, tags_cons, noted_cons]
      rw [run_visit_function] at here
      refine here.andThen fun known => ?_
      rw [here.declaredKeys_eq known]
      exact ih _

/-- The course of a program covers what it reaches. -/
theorem covers_course (m : Mitigations) (p : Program) :
    (course m p).Covers (unknowns p) (noted (starts p)) := by
  have body := run_visit m [.ofStatement (.block p.body)]
  rw [run_visit_block] at body
  rw [unknowns, starts, tags_cons, noted_cons]
  refine body.andThen fun known => ?_
  rw [body.declaredKeys_eq known]
  exact covers_listed m _ _

/-- **The walk over a program covers what it reaches.** -/
theorem covers_program (m : Mitigations) (p : Program) :
    (program m p).Covers (unknowns p) (noted (starts p)) := by
  have course := covers_course m p
  rw [program_eq]
  refine ⟨course.failure, fun known => ?_⟩
  have goesOn : (Walk.course m p).failure = none := by
    have failure := course.failure
    rw [known] at failure
    exact Option.map_eq_none_iff.mp failure
  rw [goesOn, aborted, List.append_nil]
  exact course.entries known

/-- **A walk over a program fails exactly when it reaches a node of an unknown kind**, and names the
tag of the first. -/
theorem failure_program (m : Mitigations) (p : Program) :
    (program m p).failure.map CoverageError.kind = (unknowns p).head? :=
  (covers_program m p).failure

theorem failure_program_eq_none_iff {m : Mitigations} {p : Program} :
    (program m p).failure = none ↔ unknowns p = [] := by
  rw [← Option.map_eq_none_iff (f := CoverageError.kind), failure_program, List.head?_eq_none_iff]

/-- A walk over a program that reaches no node of an unknown kind does not fail. -/
theorem failure_program_eq_none (m : Mitigations) {p : Program} (known : unknowns p = []) :
    (program m p).failure = none :=
  failure_program_eq_none_iff.mpr known

/-- **The entries of a program that does not fail** are those of the nodes that it reaches. -/
theorem entriesOf_program {m : Mitigations} {p : Program} (goesOn : (program m p).failure = none) :
    entriesOf (program m p).events = noted (starts p) :=
  (covers_program m p).entries (failure_program_eq_none_iff.mp goesOn)

end PhpAudit.Walk
