import PhpAudit.Tree.Kind
import PhpAudit.Yaml.Record

/-!
# The fields of a tree node

A tree document writes a node as a mapping from field names to values. `Fields` is how the fields of
one mapping are read, each by the type it is wanted as; what a kind of node makes of its fields is
said elsewhere, without knowing how documents are walked.

A field that is absent or null has the empty value of its type. What is ill-formed is a **misread**:
the file the document names, the line of the node to blame, and the cause. The first one ends the
reading, so the order in which fields are read is the order in which faults are found.
-/

namespace PhpAudit.Tree

/-- **Why a document is no tree.** -/
inductive Cause where
  | programNotMapping
  | expressionNotMapping
  | statementNotMapping
  | functionNotMapping
  | classNotMapping
  | expressionWithoutKind
  | statementWithoutKind
  | notList (key : String)
  | badValue (key : String) (reason : Yaml.Refusal)
  | unknownBinaryOperator (op : Text)
  | unknownUnaryOperator (op : Text)
  | unknownStepOperator (op : Text)
  | unknownCastType (type : Text)
  | unknownVisibility (word : Text)
  /-- The target of a list assignment is an expression of another kind. -/
  | notTargets (kind : Text)
deriving DecidableEq, Repr

/-- The wording of a cause. -/
def Cause.message : Cause → Text
  | .programNotMapping => "program document must be a mapping"
  | .expressionNotMapping => "expression must be a mapping"
  | .statementNotMapping => "statement must be a mapping"
  | .functionNotMapping => "function record must be a mapping"
  | .classNotMapping => "class record must be a mapping"
  | .expressionWithoutKind => "expression without kind"
  | .statementWithoutKind => "statement without kind"
  | .notList key => Text.quoted key ++ " must be a list"
  | .badValue key reason => "bad value for " ++ Text.quoted key ++ ": " ++ reason.message
  | .unknownBinaryOperator op => "unknown binary operator " ++ Text.quoted op
  | .unknownUnaryOperator op => "unknown unary operator " ++ Text.quoted op
  | .unknownStepOperator op => "unknown increment operator " ++ Text.quoted op
  | .unknownCastType t => "unknown cast type " ++ Text.quoted t
  | .unknownVisibility v => "unknown visibility " ++ Text.quoted v
  | .notTargets kind => "list assignment target must be list_head, got " ++ kind

/-- **A fault of a tree document**: the file it names, the line of the document, and the cause. -/
structure Misread where
  file : Text
  line : Nat
  cause : Cause
deriving DecidableEq, Repr

/-- The wording of a fault. -/
def Misread.message (e : Misread) : Text :=
  let place := "tree line " ++ toString e.line ++ ": " ++ e.cause.message
  if e.file = "" then place else e.file ++ ": " ++ place

/-- A reading, or the first fault. -/
abbrev Reads := Except Misread

/-- **How the fields of one node are read.** -/
structure Fields where
  /-- The file the document names. -/
  file : Text
  /-- The line of the node in the document. -/
  line : Nat
  /-- The location of the node in the sources. -/
  loc : Location
  text : String → Reads Text
  integer : String → Reads Int
  flag : String → Reads Bool
  texts : String → Reads (List Text)
  expr : String → Reads (Option Expr)
  exprs : String → Reads (List (Option Expr))
  stmt : String → Reads (Option Stmt)
  targets : String → Reads (Option Targets)
  function : String → Reads (Option Function)
  classDef : String → Reads (Option ClassDef)
  items : String → Reads (List Item)
  cases : String → Reads (List Case)
  handlers : String → Reads (List Handler)
  stmts : String → Reads (List Stmt)

/-- Blames the node. -/
def Fields.refuse {α : Type} (f : Fields) (c : Cause) : Reads α := .error ⟨f.file, f.line, c⟩

end PhpAudit.Tree
