import PhpAudit.Tree.Forms
import PhpAudit.Yaml.Document

/-!
# Reading tree documents

A tree document is walked from its root down. The walk keeps the names of the class and of the
function around a node, which a node's location takes over unless it names its own. A statement may
be written as a list of statements, which is a block without a place.

The walk is tied as one knot: `Readers n` is how the parts of a node `n`, which are smaller than `n`,
are read, and each step says what a node is given the readings of its parts.
-/

namespace PhpAudit.Tree

open Yaml (Node Convert)

/-- **Where the walk is**: the document, the file it names, and the class and function around. -/
structure Context where
  document : Yaml.Document
  file : Text
  className : Text
  function : Text

/-- A node below `n`. -/
abbrev Part (n : Node) := { c : Node // sizeOf c < sizeOf n }

/-- A part of a part. -/
def Part.within {n : Node} (m : Part n) (p : Part m.1) : Part n := ⟨p.1, Nat.lt_trans p.2 m.2⟩

/-- The value of a key, as a part. -/
def part? (n : Node) (key : String) : Option (Part n) :=
  match h : n.field? key with
  | some c => some ⟨c, Node.sizeOf_lt_of_field? h⟩
  | none => none

/-- The items of a sequence, as parts. -/
def itemParts (n : Node) : List (Part n) :=
  n.items.attach.map fun c => ⟨c.1, Node.sizeOf_lt_of_mem_items c.2⟩

namespace Context

/-- Blames a node. -/
def refuse {α : Type} (ctx : Context) (n : Node) (cause : Cause) : Reads α :=
  .error ⟨ctx.file, n.line, cause⟩

/-- The value of a key converted to a simple type; `default` when it is absent or null. -/
def value {α : Type} (read : Yaml.Document → Node → Convert (Option α)) (default : α)
    (ctx : Context) (n : Node) (key : String) : Reads α :=
  match n.field? key with
  | none => return default
  | some v =>
    if v.isNull then return default
    else match (read ctx.document v).run with
      | .ok a => return a.getD default
      | .error r => ctx.refuse v (.badValue key r)

/-- The text of a key. -/
def text : Context → Node → String → Reads Text := value Convert.text ""

/-- The integer of a key. -/
def integer : Context → Node → String → Reads Int := value (Convert.integer "int64") 0

/-- The truth value of a key. -/
def flag : Context → Node → String → Reads Bool := value Convert.flag false

/-- The texts of a key. -/
def texts : Context → Node → String → Reads (List Text) := value Convert.texts []

/-- The items of a key, which must hold a list. -/
def list (ctx : Context) (n : Node) (key : String) : Reads (List (Part n)) :=
  match part? n key with
  | none => return []
  | some v =>
    if v.1.isNull then return []
    else if v.1.isSequence then return (itemParts v.1).map v.within
    else ctx.refuse v.1 (.notList key)

/-- The visibility of a function record; public where none is given. -/
def visibility (ctx : Context) (n : Node) : Reads Visibility := do
  let word ← ctx.text n "visibility"
  if word = "" ∨ word = Visibility.text .isPublic then return .isPublic
  else if word = Visibility.text .isProtected then return .isProtected
  else if word = Visibility.text .isPrivate then return .isPrivate
  else ctx.refuse n (.unknownVisibility word)

/-- **The location of a node**: unknown without a positive line, else in the document's file, with the
class and function the node names, or those around it. -/
def location (ctx : Context) (n : Node) : Reads Location := do
  let line ← ctx.integer n "line"
  if line ≤ 0 then return .unknown
  let className ← ctx.text n "class"
  let function ← ctx.text n "function"
  return {
    file := ctx.file
    line := line
    className := if className = "" then ctx.className else className
    function := if function = "" then ctx.function else function }

end Context

/-- **How the parts of a node are read.** A function is read with the name of the class it is a member
of, empty if it is none. -/
structure Readers (n : Node) where
  expr : Context → Part n → Reads (Option Expr)
  stmt : Context → Part n → Reads (Option Stmt)
  function : Context → Text → Part n → Reads (Option Function)
  classDef : Context → Part n → Reads (Option ClassDef)

namespace Readers

/-- How the parts of a part are read. -/
def within {n : Node} (r : Readers n) (m : Part n) : Readers m.1 where
  expr ctx p := r.expr ctx (m.within p)
  stmt ctx p := r.stmt ctx (m.within p)
  function ctx c p := r.function ctx c (m.within p)
  classDef ctx p := r.classDef ctx (m.within p)

variable {n : Node} (r : Readers n) (ctx : Context)

/-- The expression of a key. -/
def exprOf (key : String) : Reads (Option Expr) :=
  match part? n key with
  | some p => r.expr ctx p
  | none => return none

/-- The expressions of a key that holds a list. -/
def exprsOf (key : String) : Reads (List (Option Expr)) := do (← ctx.list n key).mapM (r.expr ctx)

/-- The statement of a key. -/
def stmtOf (key : String) : Reads (Option Stmt) :=
  match part? n key with
  | some p => r.stmt ctx p
  | none => return none

/-- Statements that follow each other; those left out are dropped. -/
def sequenceOf (ps : List (Part n)) : Reads (List Stmt) := do
  return (← ps.mapM (r.stmt ctx)).filterMap id

/-- The block of a key; a single statement is a block of its own. -/
def blockOf (key : String) : Reads (Option Block) := do
  match ← r.stmtOf ctx key with
  | none => return none
  | some (.block b) => return some b
  | some s => return some (.mk s.loc [s])

/-- The targets of a list assignment: a list of expressions, placed like the assignment, or a node of
their own. -/
def targetsOf (loc : Location) (key : String) : Reads (Option Targets) := do
  match part? n key with
  | none => return none
  | some p =>
    if p.1.isNull then return none
    if p.1.isSequence then
      return some (.mk loc (← (itemParts p.1).mapM fun c => r.expr ctx (p.within c)))
    match ← r.expr ctx p with
    | none => return none
    | some (.list l .targets ms) => return some (.mk l ms)
    | some e => ctx.refuse p.1 (.notTargets e.kind)

/-- The entries of an array. -/
def itemsOf (key : String) : Reads (List Item) := do
  (← ctx.list n key).mapM fun p => do
    let k ← (r.within p).exprOf ctx "key"
    return .mk k (← (r.within p).exprOf ctx "value")

/-- The cases of a switch. A body that is a block without a place gives its statements. -/
def casesOf (key : String) : Reads (List Case) := do
  (← ctx.list n key).mapM fun p => do
    let isDefault ← ctx.flag p.1 "default"
    let tests ← (r.within p).exprsOf ctx "exprs"
    let body ← (r.within p).stmtOf ctx "body"
    return .mk isDefault tests <| match body with
      | none => []
      | some (.block b) => if b.loc.isUnknown then b.stmts else [.block b]
      | some s => [s]

/-- The handlers of a guarded statement. -/
def handlersOf (key : String) : Reads (List Handler) := do
  (← ctx.list n key).mapM fun p => do
    let types ← ctx.texts p.1 "types"
    let caught ← ctx.text p.1 "var"
    return .mk types caught (← (r.within p).stmtOf ctx "body")

/-- The parameters of a function; one written as a scalar has a name only. -/
def paramsOf (key : String) : Reads (List Param) := do
  (← ctx.list n key).mapM fun p => do
    match p.1 with
    | .scalar _ _ value => return .mk value none
    | _ =>
      let name ← ctx.text p.1 "name"
      return .mk name (← (r.within p).exprOf ctx "default")

/-- The fields of the node. -/
def fields (loc : Location) : Fields where
  file := ctx.file
  line := n.line
  loc := loc
  text := ctx.text n
  integer := ctx.integer n
  flag := ctx.flag n
  texts := ctx.texts n
  expr := r.exprOf ctx
  exprs := r.exprsOf ctx
  stmt := r.stmtOf ctx
  targets := r.targetsOf ctx loc
  function key := match part? n key with
    | some p => r.function ctx "" p
    | none => return none
  classDef key := match part? n key with
    | some p => r.classDef ctx p
    | none => return none
  items := r.itemsOf ctx
  cases := r.casesOf ctx
  handlers := r.handlersOf ctx
  stmts key := do r.sequenceOf ctx (← ctx.list n key)

/-- **An expression**, given the readings of its parts. -/
def exprStep : Reads (Option Expr) :=
  if n.isNull then return none
  else if n.isMapping then do
    let kind ← ctx.text n "kind"
    let loc ← ctx.location n
    return some (← Expr.ofFields kind (r.fields ctx loc))
  else ctx.refuse n .expressionNotMapping

/-- **A statement**, given the readings of its parts. -/
def stmtStep : Reads (Option Stmt) :=
  if n.isNull then return none
  else if n.isSequence then do
    return some (.block (.mk .unknown (← r.sequenceOf ctx (itemParts n))))
  else if n.isMapping then do
    let kind ← ctx.text n "kind"
    let loc ← ctx.location n
    return some (← Stmt.ofFields kind (r.fields ctx loc))
  else ctx.refuse n .statementNotMapping

/-- **A function record**, given the readings of its parts. Outside every class it may name its class
itself. A function without a name is a closure. -/
def functionStep (memberOf : Text) : Reads (Option Function) :=
  if n.isNull then return none
  else if n.isMapping then do
    let className ← if memberOf = "" ∧ ctx.className = "" then ctx.text n "class" else pure memberOf
    let given ← ctx.text n "name"
    let name := if given = "" then closureName else given
    let isStatic ← ctx.flag n "static"
    let isAbstract ← ctx.flag n "abstract"
    let visibility ← ctx.visibility n
    let inner := { ctx with
      className := if className = "" then ctx.className else className
      function := name }
    let loc ← inner.location n
    let params ← r.paramsOf inner "params"
    let body ← r.blockOf inner "body"
    return some (.mk ⟨loc, name, className, visibility, isStatic, isAbstract⟩ params body)
  else ctx.refuse n .functionNotMapping

/-- **A class record**, given the readings of its parts. -/
def classStep : Reads (Option ClassDef) :=
  if n.isNull then return none
  else if n.isMapping then do
    let name ← ctx.text n "name"
    let parent ← ctx.text n "parent"
    let interfaces ← ctx.texts n "interfaces"
    let isInterface ← ctx.flag n "interface"
    let inner := { ctx with className := name, function := "" }
    let loc ← inner.location n
    let members ← (← inner.list n "functions").mapM (r.function inner name)
    return some (.mk ⟨loc, name, parent, interfaces, isInterface⟩ (members.filterMap id))
  else ctx.refuse n .classNotMapping

end Readers

mutual

/-- **Reads an expression**; a null is none. -/
def readExpr (ctx : Context) (n : Node) : Reads (Option Expr) :=
  Readers.exprStep (n := n)
    ⟨fun c p => readExpr c p.1, fun c p => readStmt c p.1, fun c m p => readFunction c m p.1,
      fun c p => readClass c p.1⟩ ctx
termination_by sizeOf n
decreasing_by all_goals exact p.2

/-- **Reads a statement**; a null is none. -/
def readStmt (ctx : Context) (n : Node) : Reads (Option Stmt) :=
  Readers.stmtStep (n := n)
    ⟨fun c p => readExpr c p.1, fun c p => readStmt c p.1, fun c m p => readFunction c m p.1,
      fun c p => readClass c p.1⟩ ctx
termination_by sizeOf n
decreasing_by all_goals exact p.2

/-- **Reads a function record**, a member of the class of this name; a null is none. -/
def readFunction (ctx : Context) (memberOf : Text) (n : Node) : Reads (Option Function) :=
  Readers.functionStep (n := n)
    ⟨fun c p => readExpr c p.1, fun c p => readStmt c p.1, fun c m p => readFunction c m p.1,
      fun c p => readClass c p.1⟩ ctx memberOf
termination_by sizeOf n
decreasing_by all_goals exact p.2

/-- **Reads a class record**; a null is none. -/
def readClass (ctx : Context) (n : Node) : Reads (Option ClassDef) :=
  Readers.classStep (n := n)
    ⟨fun c p => readExpr c p.1, fun c p => readStmt c p.1, fun c m p => readFunction c m p.1,
      fun c p => readClass c p.1⟩ ctx
termination_by sizeOf n
decreasing_by all_goals exact p.2

end

/-- How the parts of any node are read. -/
def readers (n : Node) : Readers n where
  expr ctx p := readExpr ctx p.1
  stmt ctx p := readStmt ctx p.1
  function ctx c p := readFunction ctx c p.1
  classDef ctx p := readClass ctx p.1

/-- **Why a text is no program**: it is no YAML, it holds no document, or the document is no tree. -/
inductive ReadError where
  | notYaml (fault : Yaml.Fault)
  | noDocument
  | misread (e : Misread)
deriving DecidableEq, Repr

/-- The wording of a failed reading. -/
def ReadError.message : ReadError → Text
  | .notYaml fault => "could not parse tree document: " ++ fault.message
  | .noDocument => "could not parse tree document: EOF"
  | .misread e => e.message

/-- **Reads a program** from a document, whose root must be a mapping. -/
def Program.ofDocument (d : Yaml.Document) : Reads Program :=
  if d.root.isMapping then do
    let file ← Context.text ⟨d, "", "", ""⟩ d.root "file"
    let ctx : Context := ⟨d, file, "", ""⟩
    let body ← (readers d.root).blockOf ctx "statements"
    let functions ← (← ctx.list d.root "functions").mapM ((readers d.root).function ctx "")
    return ⟨file, body.getD (.mk .unknown []), functions.filterMap id⟩
  else .error ⟨"", d.root.line, .programNotMapping⟩

/-- **Reads a program** from the text of a tree document. -/
def Program.read (text : Text) : Except ReadError Program := do
  match Yaml.Document.parse text with
  | .error fault => throw (.notYaml fault)
  | .ok none => throw .noDocument
  | .ok (some d) =>
    match Program.ofDocument d with
    | .ok p => return p
    | .error e => throw (.misread e)

end PhpAudit.Tree
