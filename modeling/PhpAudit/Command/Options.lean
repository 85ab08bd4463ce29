import PhpAudit.Analysis.Files
import PhpAudit.Command.Flag

/-!
# Options of the tools

There are three **tools**, which share most of their flags. The flags set **options**, and the options
change the configuration that was read from a file, or the default one.
-/

namespace PhpAudit.Command

/-- **A tool.** -/
inductive Tool where
  | taint
  | unused
  | includes
deriving DecidableEq, Repr

/-- The tools by name. -/
def Tool.named : List (Text × Tool) :=
  [("taint", .taint), ("unused", .unused), ("includes", .includes)]

/-- The name of a tool. -/
def Tool.name : Tool → Text
  | .taint => "taint"
  | .unused => "unused"
  | .includes => "includes"

/-- **What the flags of a command line say.** -/
structure Options where
  config : Text := ""
  verbose : Bool := false
  ignored : List Text := []
  format : Text := ""
  noColor : Bool := false
  maxAlarms : Int := 0
  paths : List Text := []
  source : Text := ""
  target : Text := ""
  drawing : Text := ""
deriving Repr

/-- The flags of every tool. -/
def commonFlags : List (Flag Options) := [
  .text "config" "config file path for analysis" fun v o => { o with config := v },
  .switch "verbose" "verbose printing on standard error" fun v o => { o with verbose := v },
  .risks "ignore-risk" "risk category that should not be reported (repeatable)" Options.ignored
    fun v o => { o with ignored := v },
  .text "format" "report format, text or json (overrides the config)" fun v o => { o with format := v },
  .switch "no-color" "never color the report" fun v o => { o with noColor := v }]

/-- **The flags of a tool.** -/
def Tool.flags : Tool → List (Flag Options)
  | .taint => commonFlags ++ [
      .integer "max-alarms" "override the maximum number of reported findings in config"
        fun v o => { o with maxAlarms := v }]
  | .unused => commonFlags ++ [
      .texts "path" "path prefix of the declarations to check (repeatable)"
        fun v o => { o with paths := o.paths ++ [v] }]
  | .includes => commonFlags ++ [
      .text "from" "with -to, check whether this file includes the other one"
        fun v o => { o with source := v },
      .text "to" "with -from, check whether this file is included by the other one"
        fun v o => { o with target := v },
      .text "dot" "also write the graph in graphviz format to this file"
        fun v o => { o with drawing := v }]

/-- What a tool does and how it is called. -/
def Tool.about : Tool → Text
  | .taint => Text.intercalate "\n" [
      " Report the arguments of dangerous PHP operations that carry unmitigated risks.",
      "Usage:",
      "  phpscan taint [options] <tree file or directory>...",
      "Examples:",
      "  % phpscan taint -config config.yaml trees/",
      "  % phpscan taint -ignore-risk XSS -format json trees/index.json",
      ""]
  | .unused => Text.intercalate "\n" [
      " Report the functions, methods and classes declared under some paths that are never used.",
      "Usage:",
      "  phpscan unused [options] <tree file or directory>...",
      "Examples:",
      "  % phpscan unused -path /srv/app/ trees/",
      ""]
  | .includes => Text.intercalate "\n" [
      " Print the include graph of PHP files: include cycles and includes whose target is not static.",
      "Usage:",
      "  phpscan includes [options] <tree file or directory>...",
      "Examples:",
      "  % phpscan includes trees/",
      "  % phpscan includes -dot includes.dot trees/",
      "  % phpscan includes -from /srv/app/index.php -to /srv/app/lib/db.php trees/",
      ""]

/-- The help for a tool. -/
def Tool.help (t : Tool) : Text := t.about ++ "\nOptions:\n" ++ Flag.lines t.flags

/-- Why a configuration file gives no configuration. -/
inductive LoadError where
  | inaccessible (e : AccessError)
  | refused (e : ConfigError)
deriving DecidableEq, Repr

/-- The wording of the error. -/
def LoadError.message : LoadError → Text
  | .inaccessible e => "could not read config file: " ++ e.message
  | .refused e => e.message

/-- The configuration of a file; of no file, the default one. -/
def loadConfig (d : Disk) (path : Text) : Except LoadError Config :=
  if path = "" then .ok .default
  else match d.read path with
    | .error e => .error (.inaccessible e)
    | .ok text =>
      match Config.parse path text with
      | .error e => .error (.refused e)
      | .ok c => .ok c

/-- **Why a command fails.** -/
inductive CommandError where
  | notLoaded (path : Text) (e : LoadError)
  | unknownFormat (name : Text)
  | oneEnd
  | noPaths
  | notFound (e : SearchError)
  | notAnalyzed (tool : Tool) (e : RunError)
  | notWritten (e : AccessError)
deriving DecidableEq, Repr

/-- The wording of a failed command. -/
def CommandError.message : CommandError → Text
  | .notLoaded path e => "failed to load config file " ++ path ++ ": " ++ e.message
  | .unknownFormat name => "unknown report format " ++ Text.quoted name
  | .oneEnd => "-from and -to must be used together"
  | .noPaths => "no declaration paths to check; use -path or unused-declaration-paths"
  | .notFound e => e.message
  | .notAnalyzed tool e => tool.name ++ " analysis failed: " ++ e.message
  | .notWritten e => "could not create file: " ++ e.message

/-- The exit status of a failed command: one for a tree that the analysis cannot cover, else two. -/
def CommandError.status : CommandError → Nat
  | .notAnalyzed _ (.uncovered ..) => 1
  | _ => 2

namespace Options

/-- The configuration with the options that every tool has. -/
def adjust (o : Options) (c : Config) : Except CommandError Config :=
  let c := { c with
    logLevel := if o.verbose then Level.debug.rank else c.logLevel
    ignored := c.ignored ++ o.ignored }
  if o.format = "" then .ok c
  else match ReportFormat.named.lookup o.format with
    | some f => .ok { c with format := f }
    | none => .error (.unknownFormat o.format)

/-- **The configuration of a tool**: what a file says, changed by the options. -/
def configure (o : Options) (tool : Tool) (d : Disk) : Except CommandError Config := do
  if tool = .includes ∧ (o.source = "") ≠ (o.target = "") then throw .oneEnd
  let c ← match loadConfig d o.config with
    | .ok c => o.adjust c
    | .error e => throw (.notLoaded o.config e)
  match tool with
  | .taint => return if 0 < o.maxAlarms then { c with maxAlarms := o.maxAlarms } else c
  | .unused =>
    let c := { c with paths := c.paths ++ o.paths }
    if c.checksUse then return c else throw .noPaths
  | .includes => return c

end Options

end PhpAudit.Command
