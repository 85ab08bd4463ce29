import Mathlib.Data.List.Basic
import PhpAudit.Proofs.Walk.Parts

/-!
# The walk, node by node

What the walk of a node does is said here once, apart from what it does below the node. A **node**
is anything the walk comes to; its **form** is what it is, apart from what is below it; its
**children** are what the walk goes on to, in order, and **left out** is what the walk never comes
to.

**The law** (`walk_eq_around`): the walk of a node enters its form, visits its children, and leaves
the form with the taints of the children. So whatever is to be said of all walks is said of forms,
and carried from the children to the node.
-/

namespace PhpAudit.Walk

open PhpAudit.Tree

/-- **A node that the walk comes to.** An operand or a statement may be absent. -/
inductive Node where
  | operand (x : Option Expr)
  | statement (x : Option Stmt)
  | link (l : Link)
  | targets (ts : Targets)
  | function (f : Function)
  | classDef (d : ClassDef)
  /-- A body, which has a scope of its own. -/
  | body (b : Block)

/-- What a statement that reports nothing is, apart from what is below it. -/
inductive Compound where
  | block
  | inert (form : InertForm)
  | branch
  | loop (testFirst : Bool)
  | count
  | each
  | switch (shapes : List (Bool × Nat × Nat))
  | guarded (handlers : List (List Text × Text))
  | classDef
  | functionDef
deriving DecidableEq

/-- **The form of a node**: what it is, apart from what is below it. -/
inductive Form where
  | absent
  | atom (l : Location) (a : Atom)
  | unary (l : Location) (form : UnaryForm) (given : Bool)
  | binary (l : Location) (form : BinaryForm)
  /-- An assignment, to the variable of a name if its target is one. -/
  | assign (l : Location) (byReference : Bool) (name : Option Text)
  | conditional (l : Location)
  | list (l : Location) (form : ListForm)
  | array (l : Location)
  | append (l : Location)
  | assignList (l : Location) (each : Bool)
  /-- A call, its callee without the operands. -/
  | call (l : Location) (callee : Callee)
  | closure (l : Location) (uses : List Text)
  | link (l : Location)
  | targets (l : Location)
  | simple (l : Location) (form : SimpleForm)
  | compound (l : Location) (form : Compound)
  | function (head : FunctionHead) (params : List Text) (hasBody : Bool)
  | classDef (head : ClassHead)
  | body (l : Location)
  | unknown (l : Location) (tag : Text)

/-- The name of the variable that an expression is. -/
def targetName? : Option Expr → Option Text
  | some (.atom _ (.var name)) => some name
  | _ => none

/-- A callee without its operands. -/
def bare : Callee → Callee
  | .variableFunction _ => .variableFunction none
  | .method _ name => .method none name
  | .variableMethod _ _ => .variableMethod none none
  | .ownVariableMethod _ => .ownVariableMethod none
  | .variableClassMethod _ name => .variableClassMethod none name
  | .classVariableMethod c _ => .classVariableMethod c none
  | .variableClassVariableMethod _ _ => .variableClassVariableMethod none none
  | .createVariable _ => .createVariable none
  | c => c

/-- A case of a switch without its content: whether it is the default, and how many tests and
statements it has. -/
def shape : Case → Bool × Nat × Nat
  | .mk isDefault tests ss => (isDefault, tests.length, ss.length)

/-- A handler without its body. -/
def catches : Handler → List Text × Text
  | .mk types caught _ => (types, caught)

/-- The name of a parameter. -/
def paramName : Param → Text
  | .mk name _ => name

/-- The default of a parameter. -/
def paramDefault : Param → Option Expr
  | .mk _ initial => initial

namespace Form

/-- The form of an expression. -/
def ofExpr : Expr → Form
  | .atom l a => .atom l a
  | .unary l form x => .unary l form x.isSome
  | .binary l (.assign byReference) a _ => .assign l byReference (targetName? a)
  | .binary l form _ _ => .binary l form
  | .conditional l _ _ _ => .conditional l
  | .list l form _ => .list l form
  | .array l _ => .array l
  | .append l _ _ => .append l
  | .assignList l each _ _ => .assignList l each
  | .call l c _ => .call l (bare c)
  | .closure l _ uses => .closure l uses
  | .unknown l tag => .unknown l tag

/-- The form of a statement. -/
def ofStmt : Stmt → Form
  | .block (.mk l _) => .compound l .block
  | .simple l form _ => .simple l form
  | .inert l form => .compound l (.inert form)
  | .branch l _ _ _ => .compound l .branch
  | .loop l testFirst _ _ => .compound l (.loop testFirst)
  | .count l _ _ _ _ => .compound l .count
  | .each l _ _ _ _ => .compound l .each
  | .switch l _ cs => .compound l (.switch (cs.map shape))
  | .guarded l _ hs _ => .compound l (.guarded (hs.map catches))
  | .classDef l _ => .compound l .classDef
  | .functionDef l _ => .compound l .functionDef
  | .unknown l tag => .unknown l tag

end Form

namespace Node

/-- **The form of a node.** -/
def form : Node → Form
  | .operand none | .statement none => .absent
  | .operand (some e) => .ofExpr e
  | .statement (some s) => .ofStmt s
  | .link (.mk l _) => .link l
  | .targets (.mk l _) => .targets l
  | .function (.mk head params b) => .function head (params.map paramName) b.isSome
  | .classDef (.mk head _) => .classDef head
  | .body (.mk l _) => .body l

/-- A statement that is there, as a node. -/
def ofStatement (s : Stmt) : Node := .statement (some s)

/-- An array entry: its key and its value. -/
def ofItem : Item → List Node
  | .mk k v => [.operand k, .operand v]

/-- A case of a switch: its tests and its statements. -/
def ofCase : Case → List Node
  | .mk _ tests ss => tests.map .operand ++ ss.map ofStatement

/-- A handler: its body. -/
def ofHandler : Handler → Node
  | .mk _ _ s => .statement s

/-- The children of an expression, in the order of the walk. -/
def ofExpr : Expr → List Node
  | .atom _ _ => []
  | .unary _ form x => if skipsOperand form then [] else [.operand x]
  | .binary _ (.assign _) _ b => [.operand b]
  | .binary _ .objectFieldVariable a b => [.operand b, .operand a]
  | .binary _ _ a b => [.operand a, .operand b]
  | .conditional _ test yes no => [.operand test, .operand yes, .operand no]
  | .list _ _ ms => ms.map .operand
  | .array _ is => is.flatMap ofItem
  | .append _ v ls => .operand v :: ls.map .link
  | .assignList _ _ ts v => (ts.map .targets).toList ++ [.operand v]
  | .call _ c as => (Part.ofCallee c ++ as).map .operand
  | .closure _ f _ => (f.map .function).toList
  | .unknown _ _ => []

/-- The children of a statement, in the order of the walk. -/
def ofStmt : Stmt → List Node
  | .block (.mk _ ss) => ss.map ofStatement
  | .simple _ _ x => [.operand x]
  | .inert _ _ => []
  | .branch _ test yes no => [.operand test, .statement yes, .statement no]
  | .loop _ _ test s => [.operand test, .statement s]
  | .count _ start test step s => [.operand start, .operand test, .operand step, .statement s]
  | .each _ object _ _ s => [.operand object, .statement s]
  | .switch _ value cs => .operand value :: cs.flatMap ofCase
  | .guarded _ s hs last => .statement s :: hs.map ofHandler ++ [.statement last]
  | .classDef _ d => (d.map .classDef).toList
  | .functionDef _ f => (f.map .function).toList
  | .unknown _ _ => []

/-- **The children of a node**: what the walk goes on to, in order. -/
def children : Node → List Node
  | .operand none | .statement none => []
  | .operand (some e) => ofExpr e
  | .statement (some s) => ofStmt s
  | .link (.mk _ v) => [.operand v]
  | .targets (.mk _ ms) => ms.map .operand
  | .function (.mk _ _ b) => (b.map .body).toList
  | .classDef (.mk _ members) => members.map .function
  | .body (.mk _ ss) => ss.map ofStatement

/-- **What the walk leaves out**: the operand of an append place and of `unset`, the target of an
assignment, the key and value of a loop over an object, and the defaults of parameters. -/
def leftOut : Node → List (Option Expr)
  | .operand (some (.unary _ form x)) => if skipsOperand form then [x] else []
  | .operand (some (.binary _ (.assign _) target _)) => [target]
  | .statement (some (.each _ _ key value _)) => [key, value]
  | .function (.mk _ params _) => params.map paramDefault
  | _ => []

/-- The expression that shows the taint of a node. -/
def self : Node → Expr
  | .operand (some e) => e
  | _ => default

/-- **The walk of a node.** Only operands and links have a taint. -/
def walk (m : Mitigations) : Node → Walk Taint
  | .operand x => Walk.operand m x
  | .statement x => do
    stmt? m x
    return .none none
  | .link (.mk l v) => do
    track l
    Walk.operand m v
  | .targets ts => do
    Walk.targets m (some ts)
    return .none none
  | .function f => do
    Walk.function m f
    return .none none
  | .classDef d => do
    class? m (some d)
    return .none none
  | .body b => do
    inFreshScope (block m b)
    return .none none

end Node

/-- **The walk through nodes**, one after the other, with their taints. -/
def visit (m : Mitigations) : List Node → Walk (List Taint)
  | [] => return []
  | n :: ns => do
    let t ← n.walk m
    return t :: (← visit m ns)

/-! ## Entering and leaving -/

/-- What a call reports before anything below it is walked. -/
def announce (l : Location) : Callee → Walk Unit
  | .function name qualified => do
    use (.ofFunction name)
    if qualified ≠ "" ∧ qualified ≠ name then use (.ofFunction qualified)
  | .method _ name | .ownMethod name => use (.ofMethod name)
  | .classMethod c name => do
    use (.ofStaticMethod name)
    use (.ofClass c)
  | .virtualMethod name | .variableClassMethod _ name => use (.ofStaticMethod name)
  | .classVariableMethod c _ => do
    remark .warn ("Found class::$method()-expression at " ++ (← locate l).text)
    use (.ofClass c)
  | .variableClassVariableMethod _ _ => do
    remark .warn ("Found class::$method()-expression at " ++ (← locate l).text)
  | .create c | .constructor c => use (.ofClass c)
  | .variableFunction _ | .variableMethod _ _ | .ownVariableMethod _ | .createVariable _
  | .createVirtual => return ()

/-- Taints merged one after the other. -/
def mergeAll (t : Taint) (ts : List Taint) : Taint := ts.foldl Taint.merge t

/-- The taint of a concatenation: each value merged with what comes after it. -/
def mergeLinks (t : Taint) : List Taint → Taint
  | [] => t
  | u :: us => t.merge (mergeLinks u us)

/-- The taint of a call, everything below it walked: the operands of its callee come first. -/
def answer (m : Mitigations) (e : Expr) (l : Location) (c : Callee) (ts : List Taint) :
    Walk Taint :=
  let args := mergeAll (.none none) (ts.drop (Part.ofCallee c).length)
  match c with
  | .function name _ | .method _ name | .ownMethod name | .classMethod _ name
  | .virtualMethod name => do
    reach l name args
    return called m e name
  | .variableClassMethod _ name => do
    reach l name args
    return (ts.headD (.none none)).merge (called m e name)
  | .variableFunction _ => do
    reach l sinks.variableFunction args
    return .every (some e)
  | .variableMethod _ _ => do
    reach l sinks.variableMethod args
    return .every (some e)
  | .ownVariableMethod _ => do
    reach l sinks.ownVariableMethod args
    return .every (some e)
  | .classVariableMethod _ _ => do
    reach l sinks.classVariableMethod args
    return .every (some e)
  | .variableClassVariableMethod _ _ => do
    reach l sinks.variableClassVariableMethod args
    return .every (some e)
  | .create _ => return .none (some e)
  | .constructor _ => do
    reach l sinks.construct args
    return .none (some e)
  | .createVariable _ => do
    reach l sinks.createVariable args
    return .none (some e)
  | .createVirtual => do
    reach l sinks.createVirtual args
    return .none (some e)

/-- The operand of a unary expression. -/
def operand? : Expr → Option Expr
  | .unary _ _ x => x
  | _ => none

namespace Form

/-- **What is done at a node before its children.** -/
def enter : Form → Walk Unit
  | .absent | .body _ => return ()
  | .atom l _ | .binary l _ | .assign l _ _ | .conditional l | .list l _ | .array l | .append l
  | .assignList l _ | .closure l _ | .link l | .targets l | .simple l _ | .compound l _
  | .unknown l _ => track l
  | .unary l form _ => do
    track l
    beforeOperand form
  | .call l c => do
    track l
    announce l c
  | .function head _ hasBody => do
    report (.function head)
    if hasBody then remark .trace ("Analyzing function " ++ head.text ++ " at " ++ head.loc.text)
    else remark .trace ("Skipping body of abstract function " ++ head.text)
  | .classDef head => do
    remark .trace ("Analyzing class " ++ head.name ++ " at " ++ head.loc.text)
    report (.classDef head)

/-- **What is done at a node after its children**, given their taints; `e` shows the taint of the
node. -/
def leave (m : Mitigations) (e : Expr) : Form → List Taint → Walk Taint
  | .atom _ a, _ => Walk.atom e a
  | .unary l form _, ts => afterOperand e l (operand? e) (ts.headD (.none none)) form
  | .binary _ form, [a, b] => return afterOperands e a b form
  | .assign _ _ name, [t] => Walk.assign (name.map fun n => .atom .unknown (.var n)) t
  | .conditional _, [_, yes, no] => return yes.merge no
  | .list _ _, _ => return .none (some e)
  | .array _, _ => return .every (some e)
  | .append _, t :: ts => return mergeLinks t ts
  | .assignList _ _, ts => return ts.getLastD (.none none)
  | .call l c, ts => answer m e l c ts
  | .closure _ _, _ => return .every (some e)
  | .link _, [t] => return t
  | .simple l .echo, [t] => do
    reach l sinks.echo t
    return .none none
  | .unknown l tag, _ => stop l tag
  | _, _ => return .none none

/-- **The walk of a node of this form**, given the walk through its children. A body is walked in a
scope of its own. -/
def around (m : Mitigations) (e : Expr) (below : Walk (List Taint)) : Form → Walk Taint
  | .body l => do
    inFreshScope (do track l; let _ ← below)
    return .none none
  | form => do
    form.enter
    let ts ← below
    form.leave m e ts

end Form

/-! ## The walk of a node by its form and its children -/

section Around

variable (m : Mitigations)

@[simp] theorem visit_nil : visit m [] = pure [] := rfl

@[simp] theorem visit_cons (n : Node) (ns : List Node) :
    visit m (n :: ns) = (do let t ← n.walk m; let ts ← visit m ns; return t :: ts) := rfl

theorem visit_append (ns ns' : List Node) :
    visit m (ns ++ ns') = (do let ts ← visit m ns; let us ← visit m ns'; return ts ++ us) := by
  induction ns with
  | nil => simp
  | cons n ns ih => simp [ih]

/-- An assignment looks at its target only for the name of a variable. -/
theorem assign_eq (target : Option Expr) (t : Taint) :
    assign target t = assign ((targetName? target).map fun n => .atom .unknown (.var n)) t := by
  cases target with
  | none => rfl
  | some e =>
    cases e with
    | atom l a => cases a <;> rfl
    | _ => rfl

theorem operands_eq_visit (xs : List (Option Expr)) :
    operands m xs = (do let _ ← visit m (xs.map .operand)) := by
  induction xs with
  | nil => simp [operands]
  | cons x xs ih => simp [operands, ih, Node.walk]

theorem arguments_eq_visit (t : Taint) (xs : List (Option Expr)) :
    arguments m t xs = (do let ts ← visit m (xs.map .operand); return mergeAll t ts) := by
  induction xs generalizing t with
  | nil => simp [arguments, mergeAll]
  | cons x xs ih => simp [arguments, ih, Node.walk, mergeAll]

theorem items_eq_visit (is : List Item) :
    items m is = (do let _ ← visit m (is.flatMap Node.ofItem)) := by
  induction is with
  | nil => simp [items]
  | cons i is ih =>
    obtain ⟨k, v⟩ := i
    simp [items, ih, Node.walk, Node.ofItem]

theorem links_eq_visit (t : Taint) (ls : List Link) :
    links m t ls = (do let ts ← visit m (ls.map .link); return mergeLinks t ts) := by
  induction ls generalizing t with
  | nil => simp [links, mergeLinks]
  | cons l ls ih =>
    obtain ⟨loc, v⟩ := l
    simp [links, ih, Node.walk, mergeLinks]

theorem stmts_eq_visit (ss : List Stmt) :
    stmts m ss = (do let _ ← visit m (ss.map Node.ofStatement)) := by
  induction ss with
  | nil => simp [stmts]
  | cons s ss ih => simp [stmts, ih, Node.walk, Node.ofStatement, stmt?]

theorem cases_eq_visit (cs : List Case) :
    cases m cs = (do let _ ← visit m (cs.flatMap Node.ofCase)) := by
  induction cs with
  | nil => simp [cases]
  | cons c cs ih =>
    obtain ⟨isDefault, tests, ss⟩ := c
    simp [cases, ih, visit_append, operands_eq_visit, stmts_eq_visit, Node.ofCase]

theorem handlers_eq_visit (hs : List Handler) :
    handlers m hs = (do let _ ← visit m (hs.map Node.ofHandler)) := by
  induction hs with
  | nil => simp [handlers]
  | cons h hs ih =>
    obtain ⟨types, caught, s⟩ := h
    simp [handlers, ih, Node.walk, Node.ofHandler]

theorem functions_eq_visit (fs : List Function) :
    functions m fs = (do let _ ← visit m (fs.map .function)) := by
  induction fs with
  | nil => simp [functions]
  | cons f fs ih => simp [functions, ih, Node.walk]

/-- A call reports, walks the operands of its callee and its arguments, and answers. -/
theorem callee_eq_visit (l : Location) (c : Callee) (as : List (Option Expr)) :
    callee m (.call l c as) (arguments m (.none none) as) c = (do
      announce l (bare c)
      let ts ← visit m ((Part.ofCallee c ++ as).map .operand)
      answer m (.call l c as) l (bare c) ts) := by
  cases c with
  | function name qualified =>
    simp [callee, announce, answer, bare, Part.ofCallee, arguments_eq_visit, afterArguments,
      Expr.loc]
    split <;> simp
  | _ => simp [callee, announce, answer, bare, Part.ofCallee, arguments_eq_visit, afterArguments,
      Node.walk, Expr.loc]

attribute [local simp] Form.ofExpr Form.ofStmt Form.around Form.enter Form.leave Node.form
  Node.ofExpr Node.ofStmt Node.children Node.walk

theorem walk_expr (e : Expr) :
    expr m e = (Form.ofExpr e).around m e (visit m (Node.ofExpr e)) := by
  cases e with
  | unary l form x =>
    by_cases skipped : skipsOperand form = true <;> simp [expr, skipped, operand?]
  | binary l form a b =>
    cases form with
    | assign byReference => simp [expr, ← assign_eq]
    | _ => simp [expr, afterOperands]
  | list l form ms => simp [expr, operands_eq_visit]
  | array l is => simp [expr, items_eq_visit]
  | append l v ls => simp [expr, links_eq_visit]
  | assignList l each ts v =>
    cases ts with
    | none => simp [expr, targets]
    | some ts => simp [expr]
  | call l c as => simp [expr, callee_eq_visit]
  | closure l f uses => cases f <;> simp [expr, function?]
  | _ => simp [expr]

theorem walk_stmt (s : Stmt) :
    (do let _ ← stmt m s; return .none none) =
      (Form.ofStmt s).around m default (visit m (Node.ofStmt s)) := by
  cases s with
  | block b =>
    obtain ⟨l, ss⟩ := b
    simp [stmt, block, stmts_eq_visit]
  | simple l form x => cases form <;> simp [stmt]
  | switch l value cs => simp [stmt, cases_eq_visit]
  | guarded l s hs last => simp [stmt, handlers_eq_visit, visit_append]
  | classDef l d =>
    cases d with
    | none => simp [stmt, class?]
    | some d => simp [stmt]
  | functionDef l f => cases f <;> simp [stmt, function?]
  | unknown l tag =>
    have stopped : (fun _ => Taint.none none) <$> (stop l tag : Walk Taint) = stop l tag := rfl
    simp [stmt, stopped]
  | _ => simp [stmt]

/-- **The walk of a node** enters its form, visits its children, and leaves the form. -/
theorem walk_eq_around (n : Node) :
    n.walk m = n.form.around m n.self (visit m n.children) := by
  cases n with
  | operand x =>
    cases x with
    | none => simp [operand]
    | some e =>
      rw [Node.walk, operand, walk_expr]
      rfl
  | statement x =>
    cases x with
    | none => simp [stmt?]
    | some s =>
      rw [Node.walk, stmt?, bind_assoc]
      exact walk_stmt m s
  | link l => cases l; simp
  | targets ts => cases ts; simp [targets, operands_eq_visit]
  | function f =>
    obtain ⟨head, params, b⟩ := f
    cases b <;> simp [function]
  | classDef d => cases d; simp [class?, functions_eq_visit]
  | body b => cases b; simp [block, stmts_eq_visit]

end Around

/-! ## Children are smaller -/

namespace Node

theorem sizeOf_operand_lt {xs : List (Option Expr)} {c : Node} (h : c ∈ xs.map operand) :
    sizeOf c < 1 + sizeOf xs := by
  obtain ⟨x, hx, rfl⟩ := List.mem_map.mp h
  have := List.sizeOf_lt_of_mem hx
  simp only [operand.sizeOf_spec]
  omega

theorem sizeOf_ofStatement_lt {ss : List Stmt} {c : Node} (h : c ∈ ss.map ofStatement) :
    sizeOf c < 2 + sizeOf ss := by
  obtain ⟨s, hs, rfl⟩ := List.mem_map.mp h
  have := List.sizeOf_lt_of_mem hs
  simp only [ofStatement, statement.sizeOf_spec, Option.some.sizeOf_spec]
  omega

theorem sizeOf_lt_of_mem_ofCallee {c : Callee} {x : Option Expr} (h : x ∈ Part.ofCallee c) :
    sizeOf x < sizeOf c := by
  cases c <;> simp only [Part.ofCallee, List.mem_cons, List.not_mem_nil, or_false] at h <;>
    grind [Callee.variableFunction.sizeOf_spec, Callee.method.sizeOf_spec,
      Callee.variableMethod.sizeOf_spec, Callee.ownVariableMethod.sizeOf_spec,
      Callee.variableClassMethod.sizeOf_spec, Callee.classVariableMethod.sizeOf_spec,
      Callee.variableClassVariableMethod.sizeOf_spec, Callee.createVariable.sizeOf_spec]

theorem sizeOf_lt_of_mem_ofExpr {e : Expr} {c : Node} (h : c ∈ ofExpr e) :
    sizeOf c < 1 + sizeOf e := by
  cases e with
  | atom l a => cases h
  | unary l form x =>
    simp only [ofExpr] at h
    split at h
    · cases h
    · obtain rfl := List.mem_singleton.mp h
      simp only [operand.sizeOf_spec, Expr.unary.sizeOf_spec]
      omega
  | binary l form a b =>
    cases form <;> simp only [ofExpr, List.mem_cons, List.not_mem_nil, or_false] at h <;>
      grind [operand.sizeOf_spec, Expr.binary.sizeOf_spec]
  | conditional l test yes no =>
    simp only [ofExpr, List.mem_cons, List.not_mem_nil, or_false] at h
    grind [operand.sizeOf_spec, Expr.conditional.sizeOf_spec]
  | list l form ms =>
    have := sizeOf_operand_lt h
    simp only [Expr.list.sizeOf_spec]
    omega
  | array l is =>
    obtain ⟨⟨k, v⟩, hi, hc⟩ := List.mem_flatMap.mp h
    have := List.sizeOf_lt_of_mem hi
    simp only [Item.mk.sizeOf_spec] at this
    simp only [ofItem, List.mem_cons, List.not_mem_nil, or_false] at hc
    grind [operand.sizeOf_spec, Expr.array.sizeOf_spec]
  | append l v ls =>
    obtain rfl | h := List.mem_cons.mp h
    · simp only [operand.sizeOf_spec, Expr.append.sizeOf_spec]
      omega
    · obtain ⟨k, hk, rfl⟩ := List.mem_map.mp h
      have := List.sizeOf_lt_of_mem hk
      simp only [link.sizeOf_spec, Expr.append.sizeOf_spec]
      omega
  | assignList l each ts v =>
    cases ts <;> simp [ofExpr] at h <;>
      grind [operand.sizeOf_spec, targets.sizeOf_spec, Expr.assignList.sizeOf_spec]
  | call l c as =>
    obtain ⟨x, hx, rfl⟩ := List.mem_map.mp h
    simp only [operand.sizeOf_spec, Expr.call.sizeOf_spec]
    obtain hx | hx := List.mem_append.mp hx
    · have := sizeOf_lt_of_mem_ofCallee hx
      omega
    · have := List.sizeOf_lt_of_mem hx
      omega
  | closure l f uses =>
    cases f with
    | none => cases h
    | some f =>
      obtain rfl := List.mem_singleton.mp h
      simp only [function.sizeOf_spec, Expr.closure.sizeOf_spec, Option.some.sizeOf_spec]
      omega
  | unknown l tag => cases h

theorem sizeOf_lt_of_mem_ofStmt {s : Stmt} {c : Node} (h : c ∈ ofStmt s) :
    sizeOf c < 1 + sizeOf s := by
  cases s with
  | block b =>
    obtain ⟨l, ss⟩ := b
    have := sizeOf_ofStatement_lt h
    simp only [Stmt.block.sizeOf_spec, Block.mk.sizeOf_spec]
    omega
  | simple l form x =>
    simp only [ofStmt, List.mem_singleton] at h
    subst h
    simp only [operand.sizeOf_spec, Stmt.simple.sizeOf_spec]
    omega
  | inert l form => cases h
  | branch l test yes no =>
    simp only [ofStmt, List.mem_cons, List.not_mem_nil, or_false] at h
    grind [operand.sizeOf_spec, statement.sizeOf_spec, Stmt.branch.sizeOf_spec]
  | loop l testFirst test s =>
    simp only [ofStmt, List.mem_cons, List.not_mem_nil, or_false] at h
    grind [operand.sizeOf_spec, statement.sizeOf_spec, Stmt.loop.sizeOf_spec]
  | count l start test step s =>
    simp only [ofStmt, List.mem_cons, List.not_mem_nil, or_false] at h
    grind [operand.sizeOf_spec, statement.sizeOf_spec, Stmt.count.sizeOf_spec]
  | each l object key value s =>
    simp only [ofStmt, List.mem_cons, List.not_mem_nil, or_false] at h
    grind [operand.sizeOf_spec, statement.sizeOf_spec, Stmt.each.sizeOf_spec]
  | switch l value cs =>
    obtain rfl | h := List.mem_cons.mp h
    · simp only [operand.sizeOf_spec, Stmt.switch.sizeOf_spec]
      omega
    · obtain ⟨⟨isDefault, tests, ss⟩, hcase, h⟩ := List.mem_flatMap.mp h
      have := List.sizeOf_lt_of_mem hcase
      simp only [Case.mk.sizeOf_spec, Stmt.switch.sizeOf_spec] at this ⊢
      obtain h | h := List.mem_append.mp h
      · have := sizeOf_operand_lt h
        omega
      · have := sizeOf_ofStatement_lt h
        omega
  | guarded l s hs last =>
    simp only [ofStmt, List.cons_append, List.mem_cons, List.mem_append, List.mem_map,
      List.not_mem_nil, or_false] at h
    obtain rfl | ⟨⟨types, caught, s⟩, hh, rfl⟩ | rfl := h
    · simp only [statement.sizeOf_spec, Stmt.guarded.sizeOf_spec]
      omega
    · have := List.sizeOf_lt_of_mem hh
      simp only [Handler.mk.sizeOf_spec, ofHandler, statement.sizeOf_spec,
        Stmt.guarded.sizeOf_spec] at this ⊢
      omega
    · simp only [statement.sizeOf_spec, Stmt.guarded.sizeOf_spec]
      omega
  | classDef l d =>
    cases d with
    | none => cases h
    | some d =>
      obtain rfl := List.mem_singleton.mp h
      simp only [classDef.sizeOf_spec, Stmt.classDef.sizeOf_spec, Option.some.sizeOf_spec]
      omega
  | functionDef l f =>
    cases f with
    | none => cases h
    | some f =>
      obtain rfl := List.mem_singleton.mp h
      simp only [function.sizeOf_spec, Stmt.functionDef.sizeOf_spec, Option.some.sizeOf_spec]
      omega
  | unknown l tag => cases h

/-- **The children of a node are smaller.** -/
theorem sizeOf_lt_of_mem_children {n c : Node} (h : c ∈ n.children) : sizeOf c < sizeOf n := by
  cases n with
  | operand x =>
    cases x with
    | none => cases h
    | some e =>
      have := sizeOf_lt_of_mem_ofExpr h
      simp only [operand.sizeOf_spec, Option.some.sizeOf_spec]
      omega
  | statement x =>
    cases x with
    | none => cases h
    | some s =>
      have := sizeOf_lt_of_mem_ofStmt h
      simp only [statement.sizeOf_spec, Option.some.sizeOf_spec]
      omega
  | link l =>
    obtain ⟨l, v⟩ := l
    obtain rfl := List.mem_singleton.mp h
    simp only [operand.sizeOf_spec, link.sizeOf_spec, Link.mk.sizeOf_spec]
    omega
  | targets ts =>
    obtain ⟨l, ms⟩ := ts
    have := sizeOf_operand_lt h
    simp only [targets.sizeOf_spec, Targets.mk.sizeOf_spec]
    omega
  | function f =>
    obtain ⟨head, params, b⟩ := f
    cases b with
    | none => cases h
    | some b =>
      obtain rfl := List.mem_singleton.mp h
      simp only [body.sizeOf_spec, function.sizeOf_spec, Function.mk.sizeOf_spec,
        Option.some.sizeOf_spec]
      omega
  | classDef d =>
    obtain ⟨head, members⟩ := d
    obtain ⟨f, hf, rfl⟩ := List.mem_map.mp h
    have := List.sizeOf_lt_of_mem hf
    simp only [function.sizeOf_spec, classDef.sizeOf_spec, ClassDef.mk.sizeOf_spec]
    omega
  | body b =>
    obtain ⟨l, ss⟩ := b
    have := sizeOf_ofStatement_lt h
    simp only [body.sizeOf_spec, Block.mk.sizeOf_spec]
    omega

/-- **Induction from the children to the node.** -/
theorem induction {P : Node → Prop} (step : ∀ n : Node, (∀ c ∈ n.children, P c) → P n) (n : Node) :
    P n :=
  step n fun c h =>
    have := sizeOf_lt_of_mem_children h
    induction step c
termination_by sizeOf n

/-- **Induction through nodes one after the other**, from what is below the first and from the rest.
-/
theorem forest_induction {P : List Node → Prop} (nil : P [])
    (cons : ∀ (n : Node) (ns : List Node), P n.children → P ns → P (n :: ns)) (ns : List Node) :
    P ns := by
  have each : ∀ (n : Node) (ns : List Node), P ns → P (n :: ns) := by
    refine Node.induction fun n ih ns rest => cons n ns ?_ rest
    generalize n.children = cs at ih
    induction cs with
    | nil => exact nil
    | cons c cs ihcs =>
      exact ih c List.mem_cons_self cs (ihcs fun c hc => ih c (List.mem_cons_of_mem _ hc))
  induction ns with
  | nil => exact nil
  | cons n ns ih => exact each n ns ih

end Node

end PhpAudit.Walk
