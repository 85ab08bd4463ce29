import PhpAudit.Path

/-!
# Disks

A **disk** holds files and directories, each at a **place**: the names that lead to it from the
working directory. A place that starts at the root of the file system has `/` as its first name, and
one outside the working directory starts with `..`.

A path is followed name by name. Each name is looked up in the place reached so far, which must be a
directory: so a slash at the end of a path asks for a directory, and a `..` after a name that does not
exist is an error, although the cleaned path may name something.
-/

namespace PhpAudit

/-- Where something is on a disk. -/
abbrev Place := List Text

/-- **A disk.** A directory that holds something need not be listed. -/
structure Disk where
  files : List (Place × Text)
  directories : List Place

/-- Why a path leads to nothing, or to something else than wanted. -/
inductive PathFault where
  | missing
  | notDirectory
  | isDirectory
  | tooLong
  | invalid
deriving DecidableEq, Repr

/-- The wording of a fault. -/
def PathFault.message : PathFault → Text
  | .missing => "no such file or directory"
  | .notDirectory => "not a directory"
  | .isDirectory => "is a directory"
  | .tooLong => "file name too long"
  | .invalid => "invalid argument"

/-- What is done with the thing at a path. -/
inductive Access where
  | inspect
  | enter
  | fetch
deriving DecidableEq, Repr

/-- The word for an access. -/
def Access.verb : Access → Text
  | .inspect => "stat"
  | .enter => "open"
  | .fetch => "read"

/-- **A failed access** to a path. -/
structure AccessError where
  access : Access
  path : Text
  fault : PathFault
deriving DecidableEq, Repr

/-- The wording of a failed access. -/
def AccessError.message (e : AccessError) : Text :=
  e.access.verb ++ " " ++ e.path ++ ": " ++ e.fault.message

namespace Disk

/-- The disk with nothing on it. -/
def empty : Disk := ⟨[], []⟩

/-- The content of the file at a place. -/
def content? (d : Disk) (p : Place) : Option Text := d.files.lookup p

/-- The root of the file system. -/
def root : Place := ["/"]

/-- The name of the directory above. -/
def above : Text := ".."

/-- A place from which others start: the working directory, those above it, and the root. -/
def isOrigin (p : Place) : Bool := p == root || p.all (· == above)

/-- A directory: an origin, a listed place, or one above a place that is in use. -/
def isDirectory (d : Disk) (p : Place) : Bool :=
  isOrigin p || d.directories.any p.isPrefixOf || d.files.any fun f => p != f.1 && p.isPrefixOf f.1

/-- The place above a place. The root is above itself. -/
def parent (p : Place) : Place :=
  if p == root then p else if p.all (· == above) then above :: p else p.dropLast

/-- The longest name that a directory can hold, in bytes. -/
def longestName : Nat := 255

/-- The longest path that can be followed, in bytes, with the mark that ends it. -/
def longestPath : Nat := 4096

/-- **Follows names** from a place. -/
def follow (d : Disk) : List Text → Place → Except PathFault Place
  | [], p => .ok p
  | name :: rest, p =>
    if !d.isDirectory p then .error .notDirectory
    else if name = "" ∨ name = "." then d.follow rest p
    else if name = ".." then d.follow rest (parent p)
    else if longestName < name.size then .error .tooLong
    else
      let next := p ++ [name]
      if (d.content? next).isSome || d.isDirectory next then d.follow rest next else .error .missing

/-- The place where a path starts. -/
def origin (path : Text) : Place := if Path.isAbsolute path then root else []

/-- What is wrong with the spelling of a path. -/
def misspelled? (path : Text) : Option PathFault :=
  if path.bytes.contains 0 then some .invalid
  else if path = "" then some .missing
  else if longestPath ≤ path.size then some .tooLong
  else none

/-- **The place that a path leads to.** -/
def locate (d : Disk) (path : Text) : Except PathFault Place :=
  match misspelled? path with
  | some fault => .error fault
  | none => d.follow (Path.components path) (origin path)

/-- **The content of a file.** A directory can be entered, but has no content. -/
def read (d : Disk) (path : Text) : Except AccessError Text :=
  match d.locate path with
  | .error fault => .error ⟨.enter, path, fault⟩
  | .ok p =>
    match d.content? p with
    | some text => .ok text
    | none => .error ⟨.fetch, path, .isDirectory⟩

/-- The disk with a file at a place. -/
def put (d : Disk) (p : Place) (text : Text) : Disk :=
  { d with files := d.files.filter (fun f => f.1 != p) ++ [(p, text)] }

/-- Where a file of this path is to be written: its directory must exist, and the path must not name a
directory. -/
def target (d : Disk) (path : Text) : Except PathFault Place :=
  match misspelled? path with
  | some fault => .error fault
  | none =>
    let names := Path.components path
    let trimmed := (names.reverse.dropWhile fun name : Text => name = "").reverse
    match trimmed.getLast? with
    | none => .error .isDirectory
    | some name => do
      let directory ← d.follow (trimmed.dropLast ++ [⟨[]⟩]) (origin path)
      if trimmed.length < names.length ∨ name = "." ∨ name = ".." then throw .isDirectory
      if longestName < name.size then throw .tooLong
      if d.isDirectory (directory ++ [name]) then throw .isDirectory
      return directory ++ [name]

/-- **Writes a file**, over the one that is there, if any. -/
def write (d : Disk) (path text : Text) : Except AccessError Disk :=
  match d.target path with
  | .error fault => .error ⟨.enter, path, fault⟩
  | .ok p => .ok (d.put p text)

/-- **The files below a directory**, as the names that lead to them from there, in the order of these
names. -/
def filesBelow (d : Disk) (p : Place) : List (List Text) :=
  let below := (d.files.filter fun f => p.isPrefixOf f.1).map fun f => f.1.drop p.length
  below.mergeSort fun a b => decide (a ≤ b)

/-- The place that a cleaned path spells, without looking at a disk. -/
def placeOf (path : Text) : Place :=
  let rooted := Path.isAbsolute path
  let names := (Path.resolve rooted (Path.components path) []).reverse
  if rooted then "/" :: names else names

/-- A path that leads to a place. -/
def pathOf : Place → Text
  | [] => "."
  | name :: names =>
    if name = "/" then "/" ++ Text.intercalate "/" names else Text.intercalate "/" (name :: names)

/-- The disk with a directory at a place. -/
def putDirectory (d : Disk) (p : Place) : Disk := { d with directories := d.directories ++ [p] }

/-- The files that are new or changed on another disk. -/
def changes (d other : Disk) : List (Place × Text) :=
  other.files.filter fun f => d.content? f.1 != some f.2

/-- **The disk of a list of paths with contents.** A path that ends with a slash is a directory. -/
def ofList (entries : List (Text × Text)) : Disk :=
  entries.foldl (fun d (path, text) =>
    if path.endsWith "/" then d.putDirectory (placeOf path)
    else d.put (placeOf path) text) empty

end Disk

end PhpAudit
