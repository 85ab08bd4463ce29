import PhpAudit.Location

/-!
# Syntax trees

The tree of one source file. Expressions are grouped by the operands they have: an **atom** has
none, a **unary** form has one, a **binary** form two; what tells the forms of a group apart is data
of the form, not of the tree. A call has a **callee**, which may hold expressions of its own, and
arguments. A concatenation is a chain of links, each placed on its own. An operand that is left out
is `none`, a place the analysis walks past.

A function or class record is split into its **head**, what a declaration says of itself, and its
content. Every form carries the location of its node.
-/

namespace PhpAudit.Tree

/-- The declared visibility of a class member. -/
inductive Visibility where
  | isPublic
  | isProtected
  | isPrivate
deriving DecidableEq, Repr, Inhabited

/-- The spelling of a visibility. -/
def Visibility.text : Visibility → Text
  | .isPublic => "public"
  | .isProtected => "protected"
  | .isPrivate => "private"

/-- The name of the record of an anonymous function. -/
def closureName : Text := "\x7bclosure\x7d"

/-- **The head of a function record**: what the declaration says, without parameters and body. -/
structure FunctionHead where
  loc : Location
  name : Text
  /-- The declaring class, empty for a free function. -/
  className : Text
  visibility : Visibility
  isStatic : Bool
  isAbstract : Bool
deriving DecidableEq, Repr, Inhabited

namespace FunctionHead

/-- The function is anonymous. -/
def isClosure (f : FunctionHead) : Bool := f.name == "" || f.name == closureName

/-- The function is declared in a class. -/
def isMethod (f : FunctionHead) : Bool := f.className != ""

/-- The name of a function, qualified by its class. -/
def text (f : FunctionHead) : Text :=
  if f.className = "" then f.name else f.className ++ "::" ++ f.name

end FunctionHead

/-- **The head of a class record**. -/
structure ClassHead where
  loc : Location
  name : Text
  parent : Text
  interfaces : List Text
  isInterface : Bool
deriving DecidableEq, Repr, Inhabited

/-- **An expression without operands.** -/
inductive Atom where
  | string (value : Text)
  | integer (value : Int)
  /-- Any other literal, by its source spelling. -/
  | literal (spelling : Text)
  | null
  | var (name : Text)
  | this
  /-- `$this->name`. -/
  | thisField (name : Text)
  /-- `Class::$name`. -/
  | classField (className name : Text)
  /-- `static::$name`. -/
  | virtualField (name : Text)
  | constant (name : Text)
  /-- `__FILE__`. -/
  | file
  /-- `__DIR__`. -/
  | directory
  /-- `Class::NAME`. -/
  | classConstant (className name : Text)
  /-- `static::NAME`. -/
  | virtualConstant (name : Text)
  /-- `__CLASS__`. -/
  | currentClass
  | calledClass
deriving DecidableEq, Repr, Inhabited

/-- **An expression with one operand.** -/
inductive UnaryForm where
  /-- `$$operand`. -/
  | variableVariable
  | reference
  /-- `operand[]`, a place to append to. -/
  | arrayTail
  /-- `operand->name`. -/
  | objectField (name : Text)
  /-- `$this->$operand`. -/
  | thisFieldVariable
  /-- `Class::$$operand`. -/
  | classFieldVariable (className : Text)
  /-- `operand::$name`. -/
  | variableClassField (name : Text)
  /-- `operand::NAME`. -/
  | variableClassConstant (name : Text)
  | operator (op : Text)
  /-- `++` or `--`, before or after the operand. -/
  | step (op : Text) (before : Bool)
  | instanceOf (className : Text)
  | cast (type : Text)
  /-- `@operand`. -/
  | suppress
  | clone
  | unset
  | inclusion (once require : Bool)
  | exit (die : Bool)
deriving DecidableEq, Repr, Inhabited

/-- **An expression with two operands.** -/
inductive BinaryForm where
  /-- `first[second]`. -/
  | arrayGet
  /-- The character of `first` at index `second`. -/
  | charAt
  /-- `first->$second`. -/
  | objectFieldVariable
  | operator (op : Text)
  /-- `first ?: second`. -/
  | elvis
  /-- `first = second`, by reference or not. -/
  | assign (byReference : Bool)
deriving DecidableEq, Repr, Inhabited

/-- **An expression over a list**: a test for definedness, or the targets of a list assignment. -/
inductive ListForm where
  | isset
  | targets
deriving DecidableEq, Repr, Inhabited

/-- **A statement about one expression.** -/
inductive SimpleForm where
  | evaluate
  | echo
  | stop
  | next
  | result
  | resultReference
  | raise
  | classStatic (className name : Text)
  | localStatic (name : Text)
deriving DecidableEq, Repr, Inhabited

/-- **A statement without expressions.** -/
inductive InertForm where
  /-- Text outside the code. -/
  | text (value : Text)
  | empty
  | global (names : List Text)
deriving DecidableEq, Repr, Inhabited

mutual

/-- **An expression.** -/
inductive Expr where
  | atom (loc : Location) (form : Atom)
  | unary (loc : Location) (form : UnaryForm) (operand : Option Expr)
  | binary (loc : Location) (form : BinaryForm) (first second : Option Expr)
  | conditional (loc : Location) (test yes no : Option Expr)
  | list (loc : Location) (form : ListForm) (members : List (Option Expr))
  | array (loc : Location) (items : List Item)
  /-- A concatenation: its first value, and the links after it. -/
  | append (loc : Location) (value : Option Expr) (rest : List Link)
  /-- `list(...) = value`, or the same with the next pair of `value`. -/
  | assignList (loc : Location) (each : Bool) (targets : Option Targets) (value : Option Expr)
  | call (loc : Location) (callee : Callee) (args : List (Option Expr))
  | closure (loc : Location) (definition : Option Function) (uses : List Text)
  /-- A node of a kind this tree does not know. -/
  | unknown (loc : Location) (tag : Text)

/-- An entry of an array; a positional entry has no key. -/
inductive Item where
  | mk (key value : Option Expr)

/-- A link of a concatenation after the first. -/
inductive Link where
  | mk (loc : Location) (value : Option Expr)

/-- The targets of a list assignment; a skipped position is `none`. -/
inductive Targets where
  | mk (loc : Location) (members : List (Option Expr))

/-- **What a call calls.** -/
inductive Callee where
  /-- A function by name, and by its qualified name when one is known. -/
  | function (name qualified : Text)
  /-- `$name(...)`. -/
  | variableFunction (name : Option Expr)
  /-- `object->name(...)`. -/
  | method (object : Option Expr) (name : Text)
  /-- `object->$name(...)`. -/
  | variableMethod (object name : Option Expr)
  /-- `$this->name(...)`. -/
  | ownMethod (name : Text)
  /-- `$this->$name(...)`. -/
  | ownVariableMethod (name : Option Expr)
  /-- `Class::name(...)`. -/
  | classMethod (className name : Text)
  /-- `static::name(...)`. -/
  | virtualMethod (name : Text)
  /-- `$class::name(...)`. -/
  | variableClassMethod (className : Option Expr) (name : Text)
  /-- `Class::$name(...)`. -/
  | classVariableMethod (className : Text) (name : Option Expr)
  /-- `$class::$name(...)`. -/
  | variableClassVariableMethod (className name : Option Expr)
  /-- `Class::__construct(...)`. -/
  | constructor (className : Text)
  /-- `new Class(...)`. -/
  | create (className : Text)
  /-- `new $class(...)`. -/
  | createVariable (className : Option Expr)
  /-- `new static(...)`. -/
  | createVirtual

/-- **A statement.** -/
inductive Stmt where
  | block (body : Block)
  | simple (loc : Location) (form : SimpleForm) (operand : Option Expr)
  | inert (loc : Location) (form : InertForm)
  | branch (loc : Location) (test : Option Expr) (yes no : Option Stmt)
  /-- A loop with one test, before or after the body. -/
  | loop (loc : Location) (testFirst : Bool) (test : Option Expr) (body : Option Stmt)
  | count (loc : Location) (start test step : Option Expr) (body : Option Stmt)
  | each (loc : Location) (object key value : Option Expr) (body : Option Stmt)
  | switch (loc : Location) (value : Option Expr) (cases : List Case)
  | guarded (loc : Location) (body : Option Stmt) (handlers : List Handler) (last : Option Stmt)
  | classDef (loc : Location) (definition : Option ClassDef)
  | functionDef (loc : Location) (definition : Option Function)
  /-- A node of a kind this tree does not know. -/
  | unknown (loc : Location) (tag : Text)

/-- A sequence of statements. -/
inductive Block where
  | mk (loc : Location) (stmts : List Stmt)

/-- A case of a switch. -/
inductive Case where
  | mk (isDefault : Bool) (tests : List (Option Expr)) (body : List Stmt)

/-- A handler of a guarded statement. -/
inductive Handler where
  | mk (types : List Text) (caught : Text) (body : Option Stmt)

/-- A formal parameter. -/
inductive Param where
  | mk (name : Text) (initial : Option Expr)

/-- **A function, method or closure.** One without body is a signature. -/
inductive Function where
  | mk (head : FunctionHead) (params : List Param) (body : Option Block)

/-- **A class or interface**, its members in the order of declaration. -/
inductive ClassDef where
  | mk (head : ClassHead) (members : List Function)

end

/-- **The tree of one source file**: its statements, and the functions listed beside them. -/
structure Program where
  file : Text
  body : Block
  functions : List Function

instance : Inhabited Expr := ⟨.atom .unknown .null⟩

/-- The location of an expression. -/
def Expr.loc : Expr → Location
  | .atom l _ | .unary l _ _ | .binary l _ _ _ | .conditional l _ _ _ | .list l _ _ | .array l _
  | .append l _ _ | .assignList l _ _ _ | .call l _ _ | .closure l _ _ | .unknown l _ => l

/-- The location of a block. -/
def Block.loc : Block → Location
  | .mk l _ => l

/-- The statements of a block. -/
def Block.stmts : Block → List Stmt
  | .mk _ ss => ss

/-- The location of a statement. -/
def Stmt.loc : Stmt → Location
  | .block b => b.loc
  | .simple l _ _ | .inert l _ | .branch l _ _ _ | .loop l _ _ _ | .count l _ _ _ _
  | .each l _ _ _ _ | .switch l _ _ | .guarded l _ _ _ | .classDef l _ | .functionDef l _
  | .unknown l _ => l

/-- The head of a function. -/
def Function.head : Function → FunctionHead
  | .mk h _ _ => h

/-- The body of a function, if it has one. -/
def Function.body : Function → Option Block
  | .mk _ _ b => b

/-- The head of a class. -/
def ClassDef.head : ClassDef → ClassHead
  | .mk h _ => h

/-- The members of a class. -/
def ClassDef.members : ClassDef → List Function
  | .mk _ ms => ms

end PhpAudit.Tree
