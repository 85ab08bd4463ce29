import PhpAudit.Tree.Fields
import PhpAudit.Tree.Operator

/-!
# What a kind of node is read from

For every kind of expression and statement, the fields it is read from, in the order in which they
are read. A node of a kind that is not listed is kept as unknown, and none of its fields is looked
at.

`Expr.ofFields` and `Stmt.ofFields` give a node the kind it was read with: `Expr.kind` of an
expression read from the fields of kind `k` is `k`.
-/

namespace PhpAudit.Tree

/-- How an expression of one kind is read. -/
abbrev ExprReader := Fields → Reads Expr

/-- How a statement of one kind is read. -/
abbrev StmtReader := Fields → Reads Stmt

/-- An atom, by its data. -/
def readAtom (data : Fields → Reads Atom) : ExprReader := fun f => do
  return .atom f.loc (← data f)

/-- A unary expression whose data stand before its operand. -/
def readUnary (data : Fields → Reads UnaryForm) (operand : String) : ExprReader := fun f => do
  let form ← data f
  return .unary f.loc form (← f.expr operand)

/-- A unary expression whose operand stands before its data. -/
def readOperand (operand : String) (data : Fields → Reads UnaryForm) : ExprReader := fun f => do
  let e ← f.expr operand
  return .unary f.loc (← data f) e

/-- A binary expression, by its data and the fields of its operands. -/
def readBinary (data : Fields → Reads BinaryForm) (first second : String) : ExprReader := fun f => do
  let form ← data f
  let a ← f.expr first
  return .binary f.loc form a (← f.expr second)

/-- A call: its callee, then its arguments. -/
def readCall (callee : Fields → Reads Callee) : ExprReader := fun f => do
  let c ← callee f
  return .call f.loc c (← f.exprs "args")

/-- A field that must be one of some words. -/
def readWord (key : String) (words : List Text) (cause : Text → Cause) (f : Fields) :
    Reads Text := do
  let w ← f.text key
  if words.contains w then return w else f.refuse (cause w)

/-- The expressions without operands. -/
def atomReaders : List (Text × ExprReader) := [
  ("literal_string", readAtom fun f => return .string (← f.text "value")),
  ("literal_long", readAtom fun f => return .integer (← f.integer "value")),
  ("literal", readAtom fun f => return .literal (← f.text "value")),
  ("literal_null", readAtom fun _ => return .null),
  ("var", readAtom fun f => return .var (← f.text "name")),
  ("this", readAtom fun _ => return .this),
  ("this_field", readAtom fun f => return .thisField (← f.text "name")),
  ("class_field", readAtom fun f => do
    let c ← f.text "class_name"
    return .classField c (← f.text "name")),
  ("class_virtual_field", readAtom fun f => return .virtualField (← f.text "name")),
  ("const", readAtom fun f => return .constant (← f.text "name")),
  ("const_file", readAtom fun _ => return .file),
  ("const_dir", readAtom fun _ => return .directory),
  ("class_const", readAtom fun f => do
    let c ← f.text "class_name"
    return .classConstant c (← f.text "name")),
  ("class_virtual_const", readAtom fun f => return .virtualConstant (← f.text "name")),
  ("get_class", readAtom fun _ => return .currentClass),
  ("get_called_class", readAtom fun _ => return .calledClass)]

/-- The expressions with one operand. -/
def unaryReaders : List (Text × ExprReader) := [
  ("var_var", readUnary (fun _ => return .variableVariable) "expr"),
  ("ref", readUnary (fun _ => return .reference) "expr"),
  ("array_tail", readUnary (fun _ => return .arrayTail) "expr"),
  ("object_field", readOperand "object" fun f => return .objectField (← f.text "name")),
  ("this_field_var", readUnary (fun _ => return .thisFieldVariable) "name"),
  ("class_field_var", readUnary (fun f => return .classFieldVariable (← f.text "class_name")) "name"),
  ("class_var_field", readOperand "class_expr" fun f => return .variableClassField (← f.text "name")),
  ("class_var_const", readOperand "class_expr" fun f =>
    return .variableClassConstant (← f.text "name")),
  ("unary", readUnary (fun f =>
    return .operator (← readWord "op" unaryOperators .unknownUnaryOperator f)) "expr"),
  ("incdec", readUnary (fun f => do
    let op ← readWord "op" stepOperators .unknownStepOperator f
    return .step op (← f.flag "prefix")) "expr"),
  ("instanceof", readOperand "expr" fun f => return .instanceOf (← f.text "class_name")),
  ("cast", readUnary (fun f => return .cast (← readWord "type" castTypes .unknownCastType f)) "expr"),
  ("suppress", readUnary (fun _ => return .suppress) "expr"),
  ("clone", readUnary (fun _ => return .clone) "expr"),
  ("unset", readUnary (fun _ => return .unset) "expr"),
  ("include", readOperand "expr" fun f => do
    let once ← f.flag "once"
    return .inclusion once (← f.flag "require")),
  ("exit", readUnary (fun f => return .exit (← f.flag "die")) "value")]

/-- The expressions with two operands. -/
def binaryReaders : List (Text × ExprReader) := [
  ("array_get", readBinary (fun _ => return .arrayGet) "expr" "index"),
  ("char_at", readBinary (fun _ => return .charAt) "expr" "index"),
  ("object_field_var", readBinary (fun _ => return .objectFieldVariable) "object" "name"),
  ("binary", readBinary (fun f =>
    return .operator (← readWord "op" binaryOperators .unknownBinaryOperator f)) "left" "right"),
  ("conditional_short", readBinary (fun _ => return .elvis) "test" "false"),
  ("assign", readBinary (fun _ => return .assign false) "var" "value"),
  ("assign_ref", readBinary (fun _ => return .assign true) "var" "value")]

/-- The calls. -/
def callReaders : List (Text × ExprReader) := [
  ("call", readCall fun f => do
    let name ← f.text "name"
    return .function name (← f.text "ns_name")),
  ("call_var", readCall fun f => return .variableFunction (← f.expr "name")),
  ("object_method", readCall fun f => do
    let o ← f.expr "object"
    return .method o (← f.text "name")),
  ("object_method_var", readCall fun f => do
    let o ← f.expr "object"
    return .variableMethod o (← f.expr "name")),
  ("this_method", readCall fun f => return .ownMethod (← f.text "name")),
  ("this_method_var", readCall fun f => return .ownVariableMethod (← f.expr "name")),
  ("class_method", readCall fun f => do
    let c ← f.text "class_name"
    return .classMethod c (← f.text "name")),
  ("class_virtual_method", readCall fun f => return .virtualMethod (← f.text "name")),
  ("class_var_method", readCall fun f => do
    let c ← f.expr "class_expr"
    return .variableClassMethod c (← f.text "name")),
  ("class_method_var", readCall fun f => do
    let c ← f.text "class_name"
    return .classVariableMethod c (← f.expr "name")),
  ("class_var_method_var", readCall fun f => do
    let c ← f.expr "class_expr"
    return .variableClassVariableMethod c (← f.expr "name")),
  ("class_construct", readCall fun f => return .constructor (← f.text "class_name")),
  ("new", readCall fun f => return .create (← f.text "class_name")),
  ("new_var", readCall fun f => return .createVariable (← f.expr "class_expr")),
  ("new_static", readCall fun _ => return .createVirtual)]

/-- The links a value continues a concatenation with: those of a concatenation, or one of its own. -/
def linksOf : Option Expr → List Link
  | none => []
  | some (.append loc v rest) => .mk loc v :: rest
  | some e => [.mk e.loc (some e)]

/-- A concatenation: the values of a list, or a value and what comes next. An empty list of parts
counts as none. -/
def readAppend : ExprReader := fun f => do
  match ← f.exprs "parts" with
  | first :: rest => return .append f.loc first (rest.map (.mk f.loc))
  | [] =>
    let v ← f.expr "value"
    return .append f.loc v (linksOf (← f.expr "next"))

/-- A list assignment. -/
def readAssignList (each : Bool) : ExprReader := fun f => do
  let ts ← f.targets "list"
  return .assignList f.loc each ts (← f.expr "value")

/-- The other expressions. -/
def otherReaders : List (Text × ExprReader) := [
  ("conditional", fun f => do
    let t ← f.expr "test"
    let y ← f.expr "true"
    return .conditional f.loc t y (← f.expr "false")),
  ("isset", fun f => return .list f.loc .isset (← f.exprs "exprs")),
  ("list_head", fun f => return .list f.loc .targets (← f.exprs "vars")),
  ("array", fun f => return .array f.loc (← f.items "items")),
  ("append", readAppend),
  ("assign_list", readAssignList false),
  ("assign_list_each", readAssignList true),
  ("closure", fun f => do
    let d ← f.function "definition"
    return .closure f.loc d (← f.texts "uses"))]

/-- **How the expressions of each kind are read.** -/
def exprReaders : List (Text × ExprReader) :=
  atomReaders ++ unaryReaders ++ binaryReaders ++ callReaders ++ otherReaders

/-- **An expression of a kind**, read from its fields. -/
def Expr.ofFields (kind : Text) (f : Fields) : Reads Expr :=
  if kind = "" then f.refuse .expressionWithoutKind
  else match exprReaders.lookup kind with
    | some read => read f
    | none => return .unknown f.loc kind

/-- A simple statement: its data, then its operand. -/
def readSimple (data : Fields → Reads SimpleForm) (operand : String) : StmtReader := fun f => do
  let form ← data f
  return .simple f.loc form (← f.expr operand)

/-- The statements about one expression. -/
def simpleReaders : List (Text × StmtReader) := [
  ("expr", readSimple (fun _ => return .evaluate) "expr"),
  ("echo", readSimple (fun _ => return .echo) "expr"),
  ("break", readSimple (fun _ => return .stop) "target"),
  ("continue", readSimple (fun _ => return .next) "target"),
  ("return", readSimple (fun _ => return .result) "expr"),
  ("return_ref", readSimple (fun _ => return .resultReference) "expr"),
  ("throw", readSimple (fun _ => return .raise) "expr"),
  ("class_static", readSimple (fun f => do
    let c ← f.text "class_name"
    return .classStatic c (← f.text "name")) "init"),
  ("static", readSimple (fun f => return .localStatic (← f.text "name")) "init")]

/-- The other statements. -/
def compoundReaders : List (Text × StmtReader) := [
  ("block", fun f => return .block (.mk f.loc (← f.stmts "stmts"))),
  ("if", fun f => do
    let t ← f.expr "test"
    let y ← f.stmt "true"
    return .branch f.loc t y (← f.stmt "false")),
  ("while", fun f => do
    let t ← f.expr "test"
    return .loop f.loc true t (← f.stmt "body")),
  ("do", fun f => do
    let b ← f.stmt "body"
    return .loop f.loc false (← f.expr "test") b),
  ("for", fun f => do
    let start ← f.expr "init"
    let test ← f.expr "test"
    let step ← f.expr "incr"
    return .count f.loc start test step (← f.stmt "body")),
  ("foreach", fun f => do
    let object ← f.expr "object"
    let key ← f.expr "key"
    let value ← f.expr "value"
    return .each f.loc object key value (← f.stmt "body")),
  ("switch", fun f => do
    let v ← f.expr "value"
    return .switch f.loc v (← f.cases "cases")),
  ("text", fun f => return .inert f.loc (.text (← f.text "value"))),
  ("null", fun f => return .inert f.loc .empty),
  ("global", fun f => return .inert f.loc (.global (← f.texts "names"))),
  ("class_def", fun f => return .classDef f.loc (← f.classDef "definition")),
  ("function_def", fun f => return .functionDef f.loc (← f.function "definition")),
  ("try", fun f => do
    let b ← f.stmt "body"
    let last ← f.stmt "finally"
    return .guarded f.loc b (← f.handlers "catches") last)]

/-- **How the statements of each kind are read.** -/
def stmtReaders : List (Text × StmtReader) := simpleReaders ++ compoundReaders

/-- **A statement of a kind**, read from its fields. -/
def Stmt.ofFields (kind : Text) (f : Fields) : Reads Stmt :=
  if kind = "" then f.refuse .statementWithoutKind
  else match stmtReaders.lookup kind with
    | some read => read f
    | none => return .unknown f.loc kind

end PhpAudit.Tree
