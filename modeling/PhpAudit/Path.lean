import PhpAudit.Text.Basic

/-!
# Slash separated paths

A path is cleaned to the shortest path that names the same place by its spelling alone: empty and
`.` components are dropped, and a `..` takes away the component before it. At the root a `..` has
nothing to take away and is dropped; at the start of a relative path it is kept. The empty path
cleans to `.`.

`resolve` is the whole of the rule, a walk over the components with the stack of those kept so far.
-/

namespace PhpAudit.Path

/-- The byte of a slash. -/
def slash : UInt8 := Text.mark '/'

/-- The components of a path: what stands between slashes, empty components included. -/
def components (p : Text) : List Text := p.split slash

/-- The path starts at the root. -/
def isAbsolute (p : Text) : Bool := p.bytes.head? == some slash

/-- Walks over components with the stack of those kept, last first. -/
def resolve (rooted : Bool) : List Text → List Text → List Text
  | [], stack => stack
  | c :: cs, stack =>
    if c = "" ∨ c = "." then resolve rooted cs stack
    else if c = ".." then
      match stack with
      | top :: below =>
        if top = ".." then resolve rooted cs (".." :: stack) else resolve rooted cs below
      | [] => if rooted then resolve rooted cs [] else resolve rooted cs [".."]
    else resolve rooted cs (c :: stack)

/-- **The shortest spelling** of a path. -/
def clean (p : Text) : Text :=
  let rooted := isAbsolute p
  let body := Text.intercalate "/" (resolve rooted (components p) []).reverse
  if rooted then "/" ++ body else if body = "" then "." else body

/-- The path up to its last slash, that slash included. -/
def upToSlash (p : Text) : Text :=
  ⟨(p.bytes.reverse.dropWhile (· ≠ slash)).reverse⟩

/-- **The directory** of a path, cleaned. -/
def directory (p : Text) : Text := clean (upToSlash p)

/-- **Joins** a path below another and cleans the result; an empty part is left out. -/
def join (p q : Text) : Text :=
  if p = "" then (if q = "" then "" else clean q)
  else if q = "" then clean p
  else clean (p ++ "/" ++ q)

end PhpAudit.Path
