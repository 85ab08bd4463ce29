import PhpAudit.Tree.Operator
import PhpAudit.Walk.Basic

/-!
# The walk over a tree

Every expression has a taint. A value about which nothing is known carries every risk; a literal, a
number, a truth value and a new object carry none; a variable carries what was assigned to it, all
assignments together. A call carries every risk but those its callee mitigates: arguments do not
flow into results. The arguments of a call, merged, reach the sink of its name.

The walk visits operands in a fixed order and leaves some out: the target of an assignment, the
operand of `unset` and of an append place, the key and value of a loop over an object, and the
defaults of parameters. A function, method or closure body is walked in a scope of its own.
-/

namespace PhpAudit.Walk

open PhpAudit.Tree

/-- **The risks that a function of a name removes** from its result; none for a name that is not
listed. -/
abbrev Mitigations := Text → RiskSet

/-- The names of the sinks that are no functions. -/
structure SinkNames where
  echo : Text := "echo"
  exit : Text := "exit"
  die : Text := "die"
  inclusion : Text := "include"
  inclusionOnce : Text := "include_once"
  construct : Text := "__construct"
  variableFunction : Text := "$variable"
  variableMethod : Text := "$var->$method"
  ownVariableMethod : Text := "$this->\x7b$variable\x7d"
  createVariable : Text := "new $variable"
  createVirtual : Text := "new static"
  classVariableMethod : Text := "Class::$method"
  variableClassVariableMethod : Text := "$class::$method"

/-- The sinks that are no functions. -/
def sinks : SinkNames := {}

/-- Reports a value that reaches a sink, at a node of this location. -/
def reach (l : Location) (name : Text) (t : Taint) : Walk Unit := do
  report (.sink (← locate l) name t)

/-- The taint of a call: every risk but those the callee mitigates. -/
def called (m : Mitigations) (e : Expr) (name : Text) : Taint := (Taint.every (some e)).remove (m name)

/-- The taint of an atom, after it was come across. -/
def atom (e : Expr) : Atom → Walk Taint
  | .var name => do return (← lookup? name).getD (.every (some e))
  | .thisField _ => return .every (some e)
  | .classConstant c _ => do
    use (.ofClass c)
    return .none (some e)
  | _ => return .none (some e)

/-- The operand of this form is not walked. -/
def skipsOperand : UnaryForm → Bool
  | .arrayTail | .unset => true
  | _ => false

/-- What a unary form reports before its operand is walked. -/
def beforeOperand : UnaryForm → Walk Unit
  | .instanceOf c => use (.ofClass c)
  | _ => return ()

/-- The taint of a unary expression, its operand walked. -/
def afterOperand (e : Expr) (loc : Location) (operand : Option Expr) (t : Taint) :
    UnaryForm → Walk Taint
  | .variableVariable => do
    remark .warn ("Found $$var-expression at " ++ (← locate loc).text)
    return .every (some e)
  | .reference | .objectField _ | .thisFieldVariable => return .every (some e)
  | .arrayTail | .classFieldVariable _ | .variableClassField _ | .variableClassConstant _
  | .operator _ | .step _ _ | .instanceOf _ | .unset => return .none (some e)
  | .cast type => return if scalarTypes.contains type then .none (some e) else t.shownBy e
  | .suppress | .clone => return t.shownBy e
  | .inclusion once require => do
    let place ← locate loc
    report (.sink place (if once then sinks.inclusionOnce else sinks.inclusion) t)
    report (.inclusion (.of place once require operand))
    return .every (some e)
  | .exit die => do
    if operand.isSome then reach loc (if die then sinks.die else sinks.exit) t
    return .none (some e)

/-- The taint of a binary expression that is no assignment, its operands walked. -/
def afterOperands (e : Expr) (a b : Taint) : BinaryForm → Taint
  | .operator op => if op = additionOperator then a.merge b else .none (some e)
  | .elvis => a.merge b
  | .arrayGet | .charAt | .objectFieldVariable | .assign _ => .every (some e)

/-- Binds an assigned value to its target, when that is a variable: the variable is as risky as any
value it has held. -/
def assign (target : Option Expr) (t : Taint) : Walk Taint :=
  match target with
  | some (.atom _ (.var name)) => do
    let t := match ← lookup? name with
      | some old => t.merge old
      | none => t
    bindVariable name t
    return t
  | _ => return t

/-- The arguments of a call have been walked: they reach the sink of its name. -/
def afterArguments (m : Mitigations) (e : Expr) (name : Text) (args : Taint) : Walk Taint := do
  reach e.loc name args
  return called m e name

mutual

/-- **Walks an expression**, and gives its taint. -/
def expr (m : Mitigations) : Expr → Walk Taint
  | e@(.atom loc form) => do
    track loc
    atom e form
  | e@(.unary loc form x) => do
    track loc
    beforeOperand form
    let t ← if skipsOperand form then pure (.none none) else operand m x
    afterOperand e loc x t form
  | e@(.binary loc form a b) => do
    track loc
    match form with
    | .assign _ => do
      let t ← operand m b
      assign a t
    | .objectFieldVariable => do
      let second ← operand m b
      let first ← operand m a
      return afterOperands e first second form
    | _ => do
      let first ← operand m a
      let second ← operand m b
      return afterOperands e first second form
  | .conditional loc test yes no => do
    track loc
    let _ ← operand m test
    let y ← operand m yes
    let n ← operand m no
    return y.merge n
  | e@(.list loc _ ms) => do
    track loc
    operands m ms
    return .none (some e)
  | e@(.array loc is) => do
    track loc
    items m is
    return .every (some e)
  | .append loc v ls => do
    track loc
    let t ← operand m v
    links m t ls
  | .assignList loc _ ts v => do
    track loc
    targets m ts
    operand m v
  | e@(.call loc c as) => do
    track loc
    callee m e (arguments m (.none none) as) c
  | e@(.closure loc f _) => do
    track loc
    function? m f
    return .every (some e)
  | .unknown loc tag => do
    track loc
    stop loc tag

/-- Walks an operand; one that is left out carries no risk and has no witness. -/
def operand (m : Mitigations) : Option Expr → Walk Taint
  | none => return .none none
  | some e => expr m e

/-- Walks operands one after the other. -/
def operands (m : Mitigations) : List (Option Expr) → Walk Unit
  | [] => return ()
  | e :: es => do
    let _ ← operand m e
    operands m es

/-- Walks the entries of an array. -/
def items (m : Mitigations) : List Item → Walk Unit
  | [] => return ()
  | .mk k v :: is => do
    let _ ← operand m k
    let _ ← operand m v
    items m is

/-- Walks the links of a concatenation whose value before them has this taint. -/
def links (m : Mitigations) (t : Taint) : List Link → Walk Taint
  | [] => return t
  | .mk loc v :: ls => do
    track loc
    let t' ← operand m v
    return t.merge (← links m t' ls)

/-- Walks the targets of a list assignment. They are not bound: reads of them stay unknown. -/
def targets (m : Mitigations) : Option Targets → Walk Unit
  | none => return ()
  | some (.mk loc ms) => do
    track loc
    operands m ms

/-- Walks the arguments of a call and merges their taints into `t`. -/
def arguments (m : Mitigations) (t : Taint) : List (Option Expr) → Walk Taint
  | [] => return t
  | e :: es => do
    let t' ← operand m e
    arguments m (t.merge t') es

/-- Walks a call: what it calls, then its arguments, whose walk gives their merged taint. -/
def callee (m : Mitigations) (e : Expr) (args : Walk Taint) : Callee → Walk Taint
  | .function name qualified => do
    use (.ofFunction name)
    if qualified ≠ "" ∧ qualified ≠ name then use (.ofFunction qualified)
    let t ← args
    afterArguments m e name t
  | .method object name => do
    use (.ofMethod name)
    let _ ← operand m object
    let t ← args
    afterArguments m e name t
  | .ownMethod name => do
    use (.ofMethod name)
    let t ← args
    afterArguments m e name t
  | .classMethod c name => do
    use (.ofStaticMethod name)
    use (.ofClass c)
    let t ← args
    afterArguments m e name t
  | .virtualMethod name => do
    use (.ofStaticMethod name)
    let t ← args
    afterArguments m e name t
  | .variableClassMethod c name => do
    use (.ofStaticMethod name)
    let first ← operand m c
    let t ← args
    return first.merge (← afterArguments m e name t)
  | .variableFunction name => do
    let _ ← operand m name
    let t ← args
    reach e.loc sinks.variableFunction t
    return .every (some e)
  | .variableMethod object name => do
    let _ ← operand m object
    let _ ← operand m name
    let t ← args
    reach e.loc sinks.variableMethod t
    return .every (some e)
  | .ownVariableMethod name => do
    let _ ← operand m name
    let t ← args
    reach e.loc sinks.ownVariableMethod t
    return .every (some e)
  | .classVariableMethod c name => do
    remark .warn ("Found class::$method()-expression at " ++ (← locate e.loc).text)
    use (.ofClass c)
    let _ ← operand m name
    let t ← args
    reach e.loc sinks.classVariableMethod t
    return .every (some e)
  | .variableClassVariableMethod c name => do
    remark .warn ("Found class::$method()-expression at " ++ (← locate e.loc).text)
    let _ ← operand m c
    let _ ← operand m name
    let t ← args
    reach e.loc sinks.variableClassVariableMethod t
    return .every (some e)
  | .create c => do
    use (.ofClass c)
    let _ ← args
    return .none (some e)
  | .constructor c => do
    use (.ofClass c)
    let t ← args
    reach e.loc sinks.construct t
    return .none (some e)
  | .createVariable c => do
    let _ ← operand m c
    let t ← args
    reach e.loc sinks.createVariable t
    return .none (some e)
  | .createVirtual => do
    let t ← args
    reach e.loc sinks.createVirtual t
    return .none (some e)

/-- **Walks a statement.** An expression statement, an echo and a return have the taint of their
expression, every other statement has none. -/
def stmt (m : Mitigations) : Stmt → Walk Taint
  | .block b => do
    block m b
    return .none none
  | .simple loc form e => do
    track loc
    let t ← operand m e
    match form with
    | .evaluate | .result | .resultReference => return t
    | .echo => do
      reach loc sinks.echo t
      return t
    | .stop | .next | .raise | .classStatic _ _ | .localStatic _ => return .none none
  | .inert loc _ => do
    track loc
    return .none none
  | .branch loc test yes no => do
    track loc
    let _ ← operand m test
    stmt? m yes
    stmt? m no
    return .none none
  | .loop loc _ test body => do
    track loc
    let _ ← operand m test
    stmt? m body
    return .none none
  | .count loc start test step body => do
    track loc
    let _ ← operand m start
    let _ ← operand m test
    let _ ← operand m step
    stmt? m body
    return .none none
  | .each loc object _ _ body => do
    track loc
    let _ ← operand m object
    stmt? m body
    return .none none
  | .switch loc value cs => do
    track loc
    let _ ← operand m value
    cases m cs
    return .none none
  | .guarded loc body hs last => do
    track loc
    stmt? m body
    handlers m hs
    stmt? m last
    return .none none
  | .classDef loc d => do
    track loc
    class? m d
    return .none none
  | .functionDef loc f => do
    track loc
    function? m f
    return .none none
  | .unknown loc tag => do
    track loc
    stop loc tag

/-- Walks a statement that may be left out. -/
def stmt? (m : Mitigations) : Option Stmt → Walk Unit
  | none => return ()
  | some s => do
    let _ ← stmt m s

/-- Walks statements one after the other. -/
def stmts (m : Mitigations) : List Stmt → Walk Unit
  | [] => return ()
  | s :: ss => do
    let _ ← stmt m s
    stmts m ss

/-- Walks a block. -/
def block (m : Mitigations) : Block → Walk Unit
  | .mk loc ss => do
    track loc
    stmts m ss

/-- Walks the cases of a switch. -/
def cases (m : Mitigations) : List Case → Walk Unit
  | [] => return ()
  | .mk _ tests body :: cs => do
    operands m tests
    stmts m body
    cases m cs

/-- Walks the handlers of a guarded statement. -/
def handlers (m : Mitigations) : List Handler → Walk Unit
  | [] => return ()
  | .mk _ _ body :: hs => do
    stmt? m body
    handlers m hs

/-- **Walks a function**: reports its declaration, and walks its body in a scope of its own. -/
def function (m : Mitigations) : Function → Walk Unit
  | .mk head _ none => do
    report (.function head)
    remark .trace ("Skipping body of abstract function " ++ head.text)
  | .mk head _ (some body) => do
    report (.function head)
    remark .trace ("Analyzing function " ++ head.text ++ " at " ++ head.loc.text)
    inFreshScope (block m body)

/-- Walks a function that may be left out. -/
def function? (m : Mitigations) : Option Function → Walk Unit
  | none => return ()
  | some f => function m f

/-- Walks functions one after the other. -/
def functions (m : Mitigations) : List Function → Walk Unit
  | [] => return ()
  | f :: fs => do
    function m f
    functions m fs

/-- Walks a class that may be left out: reports its declaration, and walks its members. -/
def class? (m : Mitigations) : Option ClassDef → Walk Unit
  | none => return ()
  | some (.mk head members) => do
    remark .trace ("Analyzing class " ++ head.name ++ " at " ++ head.loc.text)
    report (.classDef head)
    functions m members

end

end PhpAudit.Walk
