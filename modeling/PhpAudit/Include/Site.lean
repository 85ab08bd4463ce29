import PhpAudit.Path
import PhpAudit.Text.CaseFold
import PhpAudit.Tree.Basic

/-!
# Include sites

An include names the file it includes by an expression. The **static path** of an expression is its
value where that hangs on string literals, the names of the current file and directory, and calls
of `dirname` alone. A site whose expression has one is **resolved**: its target is that path, taken
from the directory of the including file when it is relative, and cleaned.
-/

namespace PhpAudit

open PhpAudit.Tree (Expr Link Atom Callee)

/-- **A place that includes a file.** The target is meaningful when the site is resolved. -/
structure IncludeSite where
  loc : Location
  target : Text
  resolved : Bool
  once : Bool
  require : Bool
deriving DecidableEq, Repr, Inhabited

/-- The including file. -/
def IncludeSite.file (s : IncludeSite) : Text := s.loc.file

namespace StaticPath

/-- The directory of a path that is not empty. -/
def directoryOf (p : Text) : Option Text := if p = "" then none else some (Path.directory p)

mutual

/-- **The static path** of an expression in a file. -/
def ofExpr (file : Text) : Expr → Option Text
  | .atom _ (.string v) => some v
  | .atom _ .file => if file = "" then none else some file
  | .atom _ .directory => directoryOf file
  | .call _ (.function name _) args =>
    if Text.sameLetters name "dirname" then (ofOnly file args).bind directoryOf else none
  | .append _ v links =>
    match ofOperand file v, ofLinks file links with
    | some a, some b => if a ++ b = "" then none else some (a ++ b)
    | _, _ => none
  | _ => none

/-- The static path of an operand; one that is left out has none. -/
def ofOperand (file : Text) : Option Expr → Option Text
  | none => none
  | some e => ofExpr file e

/-- The static path of the only argument of a call. -/
def ofOnly (file : Text) : List (Option Expr) → Option Text
  | [e] => ofOperand file e
  | _ => none

/-- The static path of the links of a concatenation. -/
def ofLinks (file : Text) : List Link → Option Text
  | [] => some ""
  | .mk _ v :: rest =>
    match ofOperand file v, ofLinks file rest with
    | some a, some b => some (a ++ b)
    | _, _ => none

end

end StaticPath

/-- **The site of an include** at a location. -/
def IncludeSite.of (loc : Location) (once require : Bool) (e : Option Expr) : IncludeSite :=
  match StaticPath.ofOperand loc.file e with
  | none => ⟨loc, "", false, once, require⟩
  | some p =>
    let target :=
      if Path.isAbsolute p ∨ loc.file = "" then p else Path.join (Path.directory loc.file) p
    ⟨loc, Path.clean target, true, once, require⟩

end PhpAudit
