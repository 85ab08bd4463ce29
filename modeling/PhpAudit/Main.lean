import PhpAudit.Command.Basic

/-!
# The program

The outer layer: it takes a picture of the disk as far as the command line looks at it, runs the
command line, and does what its outcome says. Paths are UTF-8; the contents of files are any bytes.
-/

namespace PhpAudit.Main

/-- What is at a path, without following a last link; nothing where nothing can be seen. -/
def typeAt (path : Text) : IO (Option IO.FS.FileType) :=
  try return some (← (← IO.FS.realPath path.display).metadata).type catch _ => return none

/-- Adds the file at a path. -/
def addFile (d : Disk) (path : Text) : IO Disk := do
  return d.put (Disk.placeOf path) ⟨(← IO.FS.readBinFile path.display).toList⟩

/-- Adds what is below a directory. Links are not followed. -/
partial def addBelow (d : Disk) (path : Text) : IO Disk := do
  let mut d := d
  for entry in ← (← IO.FS.realPath path.display).readDir do
    let inner : Text := path ++ "/" ++ entry.fileName
    match (← entry.path.symlinkMetadata).type with
    | .dir => d ← addBelow (d.putDirectory (Disk.placeOf inner)) inner
    | .file => d ← addFile d inner
    | _ => pure ()
  return d

/-- The paths that lead to a path, itself the last. -/
def leading (path : Text) : List Text :=
  let names := Path.components path
  ((List.range names.length).map fun i => Text.intercalate "/" (names.take (i + 1))).filter
    (· ≠ ⟨[]⟩)

/-- Adds what a command line looks at. -/
def addLook (d : Disk) (look : Command.Look) : IO Disk := do
  let mut d := d
  for path in leading look.path do
    match ← typeAt path with
    | some .dir => d := d.putDirectory (Disk.placeOf path)
    | some .file => d ← addFile d path
    | _ => pure ()
  match ← typeAt look.path with
  | some .dir => if look.below then addBelow d look.path else return d
  | _ => return d

/-- The picture of the disk that a command line needs. -/
def picture (args : List Text) : IO Disk :=
  ((Command.looks args).filter fun look => look.path ≠ ⟨[]⟩).foldlM addLook .empty

/-- Writes a text to a stream. -/
def put (stream : IO.FS.Stream) (text : Text) : IO Unit := stream.write ⟨text.bytes.toArray⟩

end PhpAudit.Main

/-- Runs the command line and gives its exit status. -/
def main (args : List String) : IO UInt32 := do
  let args := args.map PhpAudit.Text.ofString
  let d ← PhpAudit.Main.picture args
  let outcome := PhpAudit.Command.run d args
  for m in outcome.log do
    PhpAudit.Main.put (← IO.getStderr) m.line
  for (place, text) in d.changes outcome.disk do
    IO.FS.writeBinFile (PhpAudit.Disk.pathOf place).display ⟨text.bytes.toArray⟩
  PhpAudit.Main.put (← IO.getStdout) outcome.output
  PhpAudit.Main.put (← IO.getStderr) outcome.errors
  return outcome.status.toUInt32
