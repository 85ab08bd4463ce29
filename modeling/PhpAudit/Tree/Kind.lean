import PhpAudit.Tree.Basic

/-!
# Kind tags

Every node has a **kind tag**, the name under which it stands in a tree document and in messages. A
node of an unknown kind keeps the tag it was read with.
-/

namespace PhpAudit.Tree

/-- The tag of an atom. -/
def Atom.kind : Atom → Text
  | .string _ => "literal_string"
  | .integer _ => "literal_long"
  | .literal _ => "literal"
  | .null => "literal_null"
  | .var _ => "var"
  | .this => "this"
  | .thisField _ => "this_field"
  | .classField _ _ => "class_field"
  | .virtualField _ => "class_virtual_field"
  | .constant _ => "const"
  | .file => "const_file"
  | .directory => "const_dir"
  | .classConstant _ _ => "class_const"
  | .virtualConstant _ => "class_virtual_const"
  | .currentClass => "get_class"
  | .calledClass => "get_called_class"

/-- The tag of a unary form. -/
def UnaryForm.kind : UnaryForm → Text
  | .variableVariable => "var_var"
  | .reference => "ref"
  | .arrayTail => "array_tail"
  | .objectField _ => "object_field"
  | .thisFieldVariable => "this_field_var"
  | .classFieldVariable _ => "class_field_var"
  | .variableClassField _ => "class_var_field"
  | .variableClassConstant _ => "class_var_const"
  | .operator _ => "unary"
  | .step _ _ => "incdec"
  | .instanceOf _ => "instanceof"
  | .cast _ => "cast"
  | .suppress => "suppress"
  | .clone => "clone"
  | .unset => "unset"
  | .inclusion _ _ => "include"
  | .exit _ => "exit"

/-- The tag of a binary form. -/
def BinaryForm.kind : BinaryForm → Text
  | .arrayGet => "array_get"
  | .charAt => "char_at"
  | .objectFieldVariable => "object_field_var"
  | .operator _ => "binary"
  | .elvis => "conditional_short"
  | .assign false => "assign"
  | .assign true => "assign_ref"

/-- The tag of a list form. -/
def ListForm.kind : ListForm → Text
  | .isset => "isset"
  | .targets => "list_head"

/-- The tag of a call, by its callee. -/
def Callee.kind : Callee → Text
  | .function _ _ => "call"
  | .variableFunction _ => "call_var"
  | .method _ _ => "object_method"
  | .variableMethod _ _ => "object_method_var"
  | .ownMethod _ => "this_method"
  | .ownVariableMethod _ => "this_method_var"
  | .classMethod _ _ => "class_method"
  | .virtualMethod _ => "class_virtual_method"
  | .variableClassMethod _ _ => "class_var_method"
  | .classVariableMethod _ _ => "class_method_var"
  | .variableClassVariableMethod _ _ => "class_var_method_var"
  | .constructor _ => "class_construct"
  | .create _ => "new"
  | .createVariable _ => "new_var"
  | .createVirtual => "new_static"

/-- **The kind tag of an expression.** -/
def Expr.kind : Expr → Text
  | .atom _ f => f.kind
  | .unary _ f _ => f.kind
  | .binary _ f _ _ => f.kind
  | .conditional _ _ _ _ => "conditional"
  | .list _ f _ => f.kind
  | .array _ _ => "array"
  | .append _ _ _ => "append"
  | .assignList _ false _ _ => "assign_list"
  | .assignList _ true _ _ => "assign_list_each"
  | .call _ c _ => c.kind
  | .closure _ _ _ => "closure"
  | .unknown _ tag => tag

/-- The tag of a simple statement. -/
def SimpleForm.kind : SimpleForm → Text
  | .evaluate => "expr"
  | .echo => "echo"
  | .stop => "break"
  | .next => "continue"
  | .result => "return"
  | .resultReference => "return_ref"
  | .raise => "throw"
  | .classStatic _ _ => "class_static"
  | .localStatic _ => "static"

/-- The tag of a statement without expressions. -/
def InertForm.kind : InertForm → Text
  | .text _ => "text"
  | .empty => "null"
  | .global _ => "global"

/-- **The kind tag of a statement.** -/
def Stmt.kind : Stmt → Text
  | .block _ => "block"
  | .simple _ f _ => f.kind
  | .inert _ f => f.kind
  | .branch _ _ _ _ => "if"
  | .loop _ true _ _ => "while"
  | .loop _ false _ _ => "do"
  | .count _ _ _ _ _ => "for"
  | .each _ _ _ _ _ => "foreach"
  | .switch _ _ _ => "switch"
  | .guarded _ _ _ _ => "try"
  | .classDef _ _ => "class_def"
  | .functionDef _ _ => "function_def"
  | .unknown _ tag => tag

end PhpAudit.Tree
