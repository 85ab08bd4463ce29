import PhpAudit.Text.Basic

/-!
# Operators and casts

The spellings of the operators of the analysed language. Concatenation is not among the binary
operators: a chain of it is an expression of its own. A **scalar** cast gives a number or a truth
value, which cannot carry injected text.
-/

namespace PhpAudit.Tree

/-- The binary operators. -/
def binaryOperators : List Text := [
  "+", "-", "*", "/", "%", "**", "&", "|", "^", "<<", ">>", "&&", "||", "and", "or", "xor",
  "==", "!=", "<>", "===", "!==", "<", "<=", ">", ">=", "<=>", "??"]

/-- The binary operator that carries the risks of its operands: the union of two arrays. -/
def additionOperator : Text := "+"

/-- The unary operators. -/
def unaryOperators : List Text := ["!", "-", "+", "~"]

/-- The increment and the decrement operator. -/
def stepOperators : List Text := ["++", "--"]

/-- The targets of a cast. -/
def castTypes : List Text := ["int", "bool", "double", "string", "array", "object"]

/-- The targets of a cast whose values carry no text. -/
def scalarTypes : List Text := ["int", "bool", "double"]

end PhpAudit.Tree
