import PhpAudit.Analysis.Report
import PhpAudit.Command.Hint
import PhpAudit.Command.Options
import PhpAudit.Include.Report

/-!
# The command line

A command line names a tool, gives it flags, and the paths of the trees. Its **outcome** is what it
prints, logs and writes, and an exit status. `Command.run` is the whole program, as a function of the
arguments and of the disk.
-/

namespace PhpAudit.Command

/-- **The outcome of a command line.** Everything logged is logged before the errors are printed. -/
structure Outcome where
  status : Nat
  output : Text
  log : List Message
  errors : Text
  disk : Disk

/-- The version of the program. -/
def version : Text := "v0.1.0"

/-- What the program does and how it is called. -/
def help : Text := Text.intercalate "\n" [
  "phpscan: static analysis of PHP syntax trees",
  "Usage:",
  "  phpscan [tool] [options] <tree file or directory>...",
  "Tools:",
  "  - taint: reports arguments of dangerous operations carrying unmitigated risks",
  "  - unused: reports functions, methods and classes that are declared but never used",
  "  - includes: prints the include graph, its cycles and the includes with a dynamic target",
  "Examples:",
  "  Run the taint analysis: phpscan taint -config config.yaml trees/",
  "  List unused declarations: phpscan unused -path /srv/app/ trees/"]

/-- The lines about a failed command. -/
def CommandError.lines (e : CommandError) : Text :=
  "error: " ++ e.message ++ "\n" ++
    match hint? e.message with
    | some hint => "Hint: " ++ hint ++ "\n"
    | none => ""

/-- Finds and analyses the trees of a tool. -/
def analyzePaths (tool : Tool) (d : Disk) (c : Config) (paths : List Text) :
    List Message × Except CommandError Result :=
  let first : Message := ⟨.info, "phpscan " ++ tool.name ++ " - " ++ version⟩
  match d.search c paths with
  | .error e => ([first], .error (.notFound e))
  | .ok files =>
    let run := analyzeFiles d c files false
    let found : Message := ⟨.info, "Reading " ++ toString files.length ++ " tree files"⟩
    let skipped : List Message :=
      if run.skipped.isEmpty then []
      else [⟨.warn, toString run.skipped.length ++
        " tree file(s) could not be decoded and were skipped"⟩]
    match run.failure with
    | some e => (first :: found :: run.messages, .error (.notAnalyzed tool e))
    | none => (first :: found :: run.messages ++ skipped, .ok run.result)

/-- What the include tool prints: the answer to a question, or a report. -/
def includeText (o : Options) (c : Config) (g : IncludeGraph) : Text :=
  if o.source ≠ "" then
    let verb := if g.doesInclude o.source o.target then " includes " else " does not include "
    o.source ++ verb ++ o.target ++ "\n"
  else match c.format with
    | .json => g.jsonReport
    | .text => g.textReport

/-- **What a tool prints and writes** for a result. -/
def present (tool : Tool) (o : Options) (d : Disk) (c : Config) (r : Result) :
    Except CommandError (Text × Disk) :=
  match tool with
  | .taint => .ok (r.report c, d)
  | .unused => .ok (r.unusedReport c, d)
  | .includes =>
    let g := IncludeGraph.build r.includes
    if o.drawing = "" then .ok (includeText o c g, d)
    else match d.write o.drawing g.drawing with
      | .ok d => .ok (includeText o c g, d)
      | .error e => .error (.notWritten e)

/-- The outcome of a failed command. -/
def Outcome.failed (d : Disk) (log : List Message) (e : CommandError) : Outcome :=
  ⟨e.status, "", log, e.lines, d⟩

/-- **Runs a tool** with options on the trees of some paths. -/
def runTool (tool : Tool) (o : Options) (d : Disk) (paths : List Text) : Outcome :=
  match o.configure tool d with
  | .error e => .failed d [] e
  | .ok c =>
    let (messages, analysis) := analyzePaths tool d c paths
    let log := Message.upTo c.logLevel messages
    match analysis >>= present tool o d c with
    | .error e => .failed d log e
    | .ok (text, d) => ⟨0, text, log, "", d⟩

/-- **Runs a command line.** -/
def run (d : Disk) : List Text → Outcome
  | [] => ⟨2, "", [], "error: expected subcommand\n" ++ help ++ "\n", d⟩
  | name :: args =>
    if name = "-help" ∨ name = "--help" then ⟨0, help ++ "\n", [], "", d⟩
    else if name = "-version" ∨ name = "--version" then ⟨0, version ++ "\n", [], "", d⟩
    else match Tool.named.lookup name with
      | none =>
        ⟨2, "", [], "error: unexpected command: " ++ name ++ "\nusage:\n" ++ help ++ "\n", d⟩
      | some tool =>
        match Flag.parse tool.flags args {} with
        | .error e => ⟨if e = .help then 0 else 2, "", [], e.line ++ tool.help, d⟩
        | .ok (o, paths) => runTool tool o d paths

/-- A path that a command line looks at, and whether it looks at what is below it, too. -/
structure Look where
  path : Text
  below : Bool
deriving DecidableEq, Repr

/-- **The paths that a command line looks at.** On two disks that agree on these it does the same. -/
def looks : List Text → List Look
  | [] => []
  | name :: args =>
    match Tool.named.lookup name with
    | none => []
    | some tool =>
      match Flag.parse tool.flags args {} with
      | .error _ => []
      | .ok (o, paths) => [⟨o.config, false⟩, ⟨o.drawing, false⟩] ++ paths.map (⟨·, true⟩)

end PhpAudit.Command
