import PhpAudit.Analysis.Run
import PhpAudit.Disk
import PhpAudit.Tree.Read

/-!
# Runs over files

The tree files of a run are found from paths: a file counts as it is, and a directory for the files
below it whose name matches the file pattern. Each file is analysed in a fork of one session, and the
forks are merged in the order of the files. A file that cannot be read is skipped; a program that
cannot be covered fails the run, which then has no result.

`conclude` is the whole of how outcomes of files become that of a run: it knows nothing of the order
in which they came about.
-/

namespace PhpAudit

open PhpAudit.Tree (Program)

/-- **Why a tree file is skipped.** -/
inductive FileError where
  | inaccessible (e : AccessError)
  | misread (path : Text) (e : Tree.ReadError)
deriving DecidableEq, Repr

/-- The wording of a skipped file. -/
def FileError.message : FileError → Text
  | .inaccessible e =>
    match e.access with
    | .fetch => e.path ++ ": could not parse tree document: yaml: input error: " ++ e.message
    | _ => "could not open tree file: " ++ e.message
  | .misread path e => path ++ ": " ++ e.message

/-- **Why no files are found.** -/
inductive SearchError where
  | inaccessible (e : AccessError)
  | nothing (paths : List Text)
deriving DecidableEq, Repr

/-- The wording of a failed search. -/
def SearchError.message : SearchError → Text
  | .inaccessible e => "could not find tree files: " ++ e.message
  | .nothing paths => "no tree file to analyze in [" ++ Text.intercalate " " paths ++ "]"

namespace Disk

/-- The files that a path stands for. -/
def filesAt (d : Disk) (c : Config) (path : Text) : Except SearchError (List Text) :=
  match d.locate path with
  | .error fault => .error (.inaccessible ⟨.inspect, path, fault⟩)
  | .ok p =>
    if d.isDirectory p then
      let chosen := (d.filesBelow p).filter fun names => c.selects (names.getLast?.getD "")
      .ok (chosen.map fun names => Path.join path (Text.intercalate "/" names))
    else .ok [path]

/-- **The files that paths stand for**, each once. -/
def search (d : Disk) (c : Config) (paths : List Text) : Except SearchError (List Text) := do
  let files := (← paths.mapM (d.filesAt c)).flatten.eraseDups
  if files.isEmpty then throw (.nothing paths) else return files

/-- **The program of a tree file.** A tree that does not name its file takes the path of the tree. -/
def program (d : Disk) (path : Text) : Except FileError Program :=
  match d.read path with
  | .error e => .error (.inaccessible e)
  | .ok text =>
    match Program.read text with
    | .error e => .error (.misread path e)
    | .ok p => .ok (if p.file = "" then { p with file := path } else p)

end Disk

/-- **What becomes of one file** of a run. -/
inductive FileOutcome where
  | skipped (e : FileError)
  | uncovered (path : Text) (e : CoverageError)
  | analyzed (session : Session)

/-- Analyses one file in a fork of a session. -/
def Session.analyzeFile (root : Session) (d : Disk) (path : Text) : FileOutcome × List Message :=
  match d.program path with
  | .error e => (.skipped e, [⟨.error, "Skipping " ++ path ++ ": " ++ e.message⟩])
  | .ok p =>
    match root.fork.analyze p with
    | (_, ms, some e) => (.uncovered path e, ms)
    | (s, ms, none) => (.analyzed s, ms)

namespace FileOutcome

/-- The error of a file that cannot be covered. -/
def failure? : FileOutcome → Option RunError
  | .uncovered path e => some (.uncovered path e)
  | _ => none

/-- The error of a skipped file. -/
def skipped? : FileOutcome → Option FileError
  | .skipped e => some e
  | _ => none

/-- The session of an analysed file. -/
def session? : FileOutcome → Option Session
  | .analyzed s => some s
  | _ => none

end FileOutcome

/-- **What a run over files gives.** -/
structure FilesRun where
  result : Result
  skipped : List FileError
  failure : Option RunError
  messages : List Message

/-- A run that failed, without a result. -/
def FilesRun.failed (e : RunError) (messages : List Message) : FilesRun :=
  ⟨.empty, [], some e, messages⟩

/-- **Concludes a run** from the outcomes of its files: the first file that cannot be covered fails it,
else the sessions are merged in order. -/
def Session.conclude (root : Session) (outcomes : List FileOutcome) : FilesRun :=
  match outcomes.findSome? FileOutcome.failure? with
  | some e => .failed e []
  | none =>
    let merged := (outcomes.filterMap FileOutcome.session?).foldl Session.merge root
    let (result, ms) := merged.result
    ⟨result, outcomes.filterMap FileOutcome.skipped?, none, ms⟩

/-- **A run over files.** A run that is cancelled before it starts fails, unless there is nothing to do. -/
def analyzeFiles (d : Disk) (c : Config) (paths : List Text) (cancelled : Bool) : FilesRun :=
  match Session.ofConfig c with
  | .error e => .failed (.notStarted e) []
  | .ok root =>
    let start : Message :=
      ⟨.info, "Analyzing " ++ toString paths.length ++ " files ..."⟩
    if cancelled && !paths.isEmpty then .failed .cancelled [start]
    else
      let outcomes := paths.map (root.analyzeFile d)
      let run := root.conclude (outcomes.map (·.1))
      let done : List Message := match run.failure with
        | some _ => []
        | none =>
          [⟨.info, "Analysis done: " ++ toString run.result.findings.length ++ " findings."⟩]
      { run with messages := start :: (outcomes.map (·.2)).flatten ++ run.messages ++ done }

end PhpAudit
