import PhpAudit.Tree.Kind

/-!
# Printed expressions

The compact source-like text of an expression, used to show which expression carries a risk. A
string literal is cut after forty bytes, which may leave part of a character at the cut; the
printed form is a text for that reason. A left-out operand prints as nothing, a closure without its
body, and a statement or an unknown node as its kind tag.
-/

namespace PhpAudit.Tree

/-- The number of bytes of a string literal that are printed. -/
def printedBytes : Nat := 40

/-- A quote with a backslash before it, and any other byte as it is. -/
def escapeQuote (b : UInt8) : List UInt8 := if b = Text.mark '\x27' then [Text.mark '\\', b] else [b]

/-- A string literal between single quotes: cut, then with its quotes escaped. -/
def quoteLiteral (t : Text) : Text :=
  let shown := if t.size > printedBytes then t.take printedBytes ++ "..." else t
  "'" ++ ⟨shown.bytes.flatMap escapeQuote⟩ ++ "'"

/-- The printed form of an atom. -/
def Atom.print : Atom → Text
  | .string v => quoteLiteral v
  | .integer n => toString n
  | .literal t => t
  | .null => "null"
  | .var n => "$" ++ n
  | .this => "$this"
  | .thisField n => "$this->" ++ n
  | .classField c n => c ++ "::$" ++ n
  | .virtualField n => "static::$" ++ n
  | .constant n => n
  | .file => "__FILE__"
  | .directory => "__DIR__"
  | .classConstant c n => c ++ "::" ++ n
  | .virtualConstant n => "static::" ++ n
  | .currentClass => "__CLASS__"
  | .calledClass => "get_called_class()"

/-- What stands before and after the operand of a unary form. -/
def UnaryForm.around : UnaryForm → Text × Text
  | .variableVariable => ("$", "")
  | .reference => ("&", "")
  | .arrayTail => ("", "[]")
  | .objectField n => ("", "->" ++ n)
  | .thisFieldVariable => ("$this->", "")
  | .classFieldVariable c => (c ++ "::$", "")
  | .variableClassField n => ("", "::$" ++ n)
  | .variableClassConstant n => ("", "::" ++ n)
  | .operator op => (op, "")
  | .step op true => (op, "")
  | .step op false => ("", op)
  | .instanceOf c => ("", " instanceof " ++ c)
  | .cast t => ("(" ++ t ++ ")", "")
  | .suppress => ("@", "")
  | .clone => ("clone ", "")
  | .unset => ("unset(", ")")
  | .inclusion true true => ("require_once ", "")
  | .inclusion false true => ("require ", "")
  | .inclusion true false => ("include_once ", "")
  | .inclusion false false => ("include ", "")
  | .exit true => ("die(", ")")
  | .exit false => ("exit(", ")")

/-- What stands between and after the operands of a binary form. -/
def BinaryForm.around : BinaryForm → Text × Text
  | .arrayGet => ("[", "]")
  | .charAt => ("\x7b", "\x7d")
  | .objectFieldVariable => ("->", "")
  | .operator op => (" " ++ op ++ " ", "")
  | .elvis => (" ?: ", "")
  | .assign false => (" = ", "")
  | .assign true => (" =& ", "")

/-- The word before the members of a list form. -/
def ListForm.word : ListForm → Text
  | .isset => "isset"
  | .targets => "list"

/-- Texts with a comma between them. -/
def commaSeparated (ts : List Text) : Text := Text.intercalate ", " ts

mutual

/-- **The printed form of an expression.** -/
def Expr.print : Expr → Text
  | .atom _ f => f.print
  | .unary _ f e => f.around.1 ++ printOperand e ++ f.around.2
  | .binary _ f a b =>
    printOperand a ++ f.around.1 ++ printOperand b ++ f.around.2
  | .conditional _ t y n =>
    printOperand t ++ " ? " ++ printOperand y ++ " : " ++ printOperand n
  | .list _ f ms => f.word ++ "(" ++ commaSeparated (printOperands ms) ++ ")"
  | .array _ is => "[" ++ commaSeparated (printItems is) ++ "]"
  | .append _ v ls => printOperand v ++ printLinks ls
  | .assignList _ false ts v => printTargets ts ++ " = " ++ printOperand v
  | .assignList _ true ts v =>
    printTargets ts ++ " = each(" ++ printOperand v ++ ")"
  | .call _ c as => c.print ++ "(" ++ commaSeparated (printOperands as) ++ ")"
  | .closure _ _ _ => "function() \x7b...\x7d"
  | .unknown _ tag => "<" ++ tag ++ ">"

/-- The printed form of an operand; nothing when it is left out. -/
def printOperand : Option Expr → Text
  | none => ""
  | some e => e.print

/-- The printed forms of operands. -/
def printOperands : List (Option Expr) → List Text
  | [] => []
  | e :: es => printOperand e :: printOperands es

/-- The printed forms of array entries. -/
def printItems : List Item → List Text
  | [] => []
  | .mk none v :: is => printOperand v :: printItems is
  | .mk (some k) v :: is => (k.print ++ " => " ++ printOperand v) :: printItems is

/-- The printed form of the links of a concatenation. -/
def printLinks : List Link → Text
  | [] => ""
  | .mk _ v :: ls => " . " ++ printOperand v ++ printLinks ls

/-- The printed form of the targets of a list assignment. -/
def printTargets : Option Targets → Text
  | none => "list()"
  | some (.mk _ ms) => "list(" ++ commaSeparated (printOperands ms) ++ ")"

/-- The printed form of a callee. -/
def Callee.print : Callee → Text
  | .function n _ => n
  | .variableFunction n => printOperand n
  | .method o n => printOperand o ++ "->" ++ n
  | .variableMethod o n => printOperand o ++ "->" ++ printOperand n
  | .ownMethod n => "$this->" ++ n
  | .ownVariableMethod n => "$this->" ++ printOperand n
  | .classMethod c n => c ++ "::" ++ n
  | .virtualMethod n => "static::" ++ n
  | .variableClassMethod c n => printOperand c ++ "::" ++ n
  | .classVariableMethod c n => c ++ "::" ++ printOperand n
  | .variableClassVariableMethod c n => printOperand c ++ "::" ++ printOperand n
  | .constructor c => c ++ "::__construct"
  | .create c => "new " ++ c
  | .createVariable c => "new " ++ printOperand c
  | .createVirtual => "new static"

end

/-- **The printed form of a statement**: its kind tag. -/
def Stmt.print (s : Stmt) : Text := "<" ++ s.kind ++ ">"

end PhpAudit.Tree
