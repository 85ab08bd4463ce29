import PhpAudit.Location
import PhpAudit.Text.CaseFold

/-!
# Identities

What is declared and used is known by its **identity**: the name of a function, of a method without
its class, or of a class. Identities are compared by their text, ignoring letter case.
-/

namespace PhpAudit

/-- What an identity names. -/
inductive Entity where
  | function
  | staticMethod
  | method
  | classLike
deriving DecidableEq, Repr, Inhabited

/-- The word for an entity. -/
def Entity.text : Entity → Text
  | .function => "function"
  | .staticMethod => "static method"
  | .method => "method"
  | .classLike => "class"

/-- **An identity**: what is named, and its name. -/
structure Identity where
  entity : Entity
  name : Text
deriving DecidableEq, Repr, Inhabited

namespace Identity

/-- The text of an identity. -/
def text (i : Identity) : Text :=
  match i.entity with
  | .function => i.name ++ "()"
  | .staticMethod => "static::" ++ i.name ++ "()"
  | .method => "$object->" ++ i.name ++ "()"
  | .classLike => i.name ++ ".class"

/-- The identity of a function. -/
def ofFunction (name : Text) : Identity := ⟨.function, name⟩

/-- The identity of a static method. -/
def ofStaticMethod (name : Text) : Identity := ⟨.staticMethod, name⟩

/-- The identity of an instance method. -/
def ofMethod (name : Text) : Identity := ⟨.method, name⟩

/-- The identity of a class or interface. -/
def ofClass (name : Text) : Identity := ⟨.classLike, name⟩

end Identity

/-- **A declaration**: an identity and the place that declares it. -/
structure Declaration where
  identity : Identity
  loc : Location
deriving DecidableEq, Repr

namespace Declaration

/-- The text of the declared identity. -/
def name (d : Declaration) : Text := d.identity.text

/-- The declaration as text. -/
def text (d : Declaration) : Text := d.name ++ " at " ++ d.loc.text

/-- Declarations are ordered by file, line and name. -/
def before (a b : Declaration) : Bool :=
  if a.loc.file ≠ b.loc.file then decide (a.loc.file < b.loc.file)
  else if a.loc.line ≠ b.loc.line then decide (a.loc.line < b.loc.line)
  else decide (a.name ≤ b.name)

end Declaration

end PhpAudit
