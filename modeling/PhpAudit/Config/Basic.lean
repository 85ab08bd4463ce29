import PhpAudit.Analysis.Catalog
import PhpAudit.Config.BuiltIn
import PhpAudit.Path
import PhpAudit.Pattern.Parse
import PhpAudit.Yaml.Document
import PhpAudit.Yaml.Record

/-!
# Configurations

A **configuration** says which risks are reported, the catalog of methods, where declarations are
checked for use, and the options of a run. It is read from a YAML document; what the document leaves
out has a default. A document is read in two steps: its values are taken into a **draft**, and the
draft is checked. The checks are made in a fixed order, and the first that fails is the error.
-/

namespace PhpAudit

open Yaml (Convert)

/-- The format of a report. -/
inductive ReportFormat where
  | text
  | json
deriving DecidableEq, Repr, Inhabited

/-- The formats by name. -/
def ReportFormat.named : List (Text × ReportFormat) := [("text", .text), ("json", .json)]

/-- The name of a format. -/
def ReportFormat.name : ReportFormat → Text
  | .text => "text"
  | .json => "json"

/-- A table of methods, from names to comma separated risk names. -/
abbrev MethodTable := List (Text × Text)

/-- **A configuration.** -/
structure Config where
  /-- The file it was read from; relative paths start at its directory. -/
  source : Text
  logLevel : Int
  filePattern : Text
  /-- The file pattern, read. -/
  pattern : Pattern
  /-- At most this many findings are shown; all of them unless it is positive. -/
  maxAlarms : Int
  parallelism : Int
  format : ReportFormat
  ignored : List Text
  dangerous : MethodTable
  mitigating : MethodTable
  paths : List Text

/-- **Why a configuration is refused.** -/
inductive ConfigError where
  | notYaml (fault : Yaml.Fault)
  | refused (reason : Yaml.Refusal)
  | badLogLevel (level : Int)
  | badPattern (pattern : Text) (reason : PatternError)
  | unknownFormat (name : Text)
  | badTable (table : Text) (entry : BadEntry)
  | badIgnored (reason : UnknownRisk)
deriving DecidableEq, Repr

/-- The wording of a refused configuration. -/
def ConfigError.message : ConfigError → Text
  | .notYaml fault => "could not unmarshal config file: " ++ fault.message
  | .refused reason => "could not unmarshal config file: " ++ reason.message
  | .badLogLevel n => "log-level must be between 1 and 5, got " ++ toString n
  | .badPattern p reason => "invalid file-pattern " ++ Text.quoted p ++ ": " ++ reason.message
  | .unknownFormat name => "unknown report-format " ++ Text.quoted name
  | .badTable table e => "in " ++ table ++ ", " ++ e.message
  | .badIgnored reason => "in ignored-risks: " ++ reason.message

namespace Config

/-- The pattern of the files that are taken from a directory. -/
def defaultPattern : Text := ".*\\.(json|ya?ml)$"

/-- The log level of a configuration that names none. -/
def defaultLogLevel : Int := 3

/-- **What a document says**, before it is checked. -/
structure Draft where
  logLevel : Int := defaultLogLevel
  filePattern : Text := defaultPattern
  maxAlarms : Int := 0
  parallelism : Int := 0
  reportFormat : Text := "text"
  ignored : List Text := []
  dangerous : Option MethodTable := none
  mitigating : Option MethodTable := none
  paths : List Text := []

/-- The fields of the options. -/
def optionFields : List (Text × Convert.Field Draft) := [
  ("log-level", .simple (Convert.integer "int") fun n d => { d with logLevel := n }),
  ("file-pattern", .simple Convert.text fun s d => { d with filePattern := s }),
  ("max-alarms", .simple (Convert.integer "int") fun n d => { d with maxAlarms := n }),
  ("parallelism", .simple (Convert.integer "int") fun n d => { d with parallelism := n }),
  ("report-format", .simple Convert.text fun s d => { d with reportFormat := s })]

/-- The fields of a configuration. -/
def fields : List (Text × Convert.Field Draft) := [
  ("options", Convert.record "config.Options" optionFields),
  ("ignored-risks", .simple Convert.texts fun ss d => { d with ignored := ss }),
  ("dangerous-methods", fun doc n d => do return { d with dangerous := ← Convert.table doc n }),
  ("mitigating-methods", fun doc n d => do return { d with mitigating := ← Convert.table doc n }),
  ("unused-declaration-paths", .simple Convert.texts fun ss d => { d with paths := ss })]

/-- The draft of a document. The document counts as a node beside its root. -/
def Draft.ofDocument (doc : Yaml.Document) : Except Yaml.Refusal Draft :=
  (do Convert.count; Convert.record "config.Config" fields doc doc.root {} : Convert Draft).run

/-- Checks the entries of a table. -/
def checkTable (name : Text) (table : MethodTable) : Except ConfigError Unit :=
  match Catalog.parseTable table with
  | .ok _ => .ok ()
  | .error e => .error (.badTable name e)

/-- Checks the names of risks that are ignored. -/
def checkIgnored (names : List Text) : Except ConfigError Unit :=
  names.forM fun name =>
    match Risk.parse? name with
    | .ok _ => .ok ()
    | .error e => .error (.badIgnored e)

/-- **Checks a draft.** A log level of zero, an empty pattern and an empty format stand for the default,
and a table that is left out for the built-in one. -/
def ofDraft (source : Text) (d : Draft) : Except ConfigError Config := do
  let logLevel := if d.logLevel = 0 then defaultLogLevel else d.logLevel
  if logLevel < 1 ∨ 5 < logLevel then throw (.badLogLevel logLevel)
  let filePattern := if d.filePattern = "" then defaultPattern else d.filePattern
  let pattern ← match Pattern.parse filePattern with
    | .ok p => pure p
    | .error e => throw (.badPattern filePattern e)
  let format ← match ReportFormat.named.lookup d.reportFormat with
    | some f => pure f
    | none => if d.reportFormat = "" then pure .text else throw (.unknownFormat d.reportFormat)
  let dangerous := d.dangerous.getD BuiltIn.dangerous
  let mitigating := d.mitigating.getD BuiltIn.mitigating
  checkTable "dangerous-methods" dangerous
  checkTable "mitigating-methods" mitigating
  checkIgnored d.ignored
  return {
    source, logLevel, filePattern, pattern, format, dangerous, mitigating
    maxAlarms := d.maxAlarms
    parallelism := d.parallelism
    ignored := d.ignored
    paths := d.paths }

/-- **Reads a configuration** from the text of a file. A text without document gives the defaults. -/
def parse (source text : Text) : Except ConfigError Config :=
  match Yaml.Document.parse text with
  | .error fault => .error (.notYaml fault)
  | .ok none => ofDraft source {}
  | .ok (some doc) =>
    match Draft.ofDocument doc with
    | .error reason => .error (.refused reason)
    | .ok d => ofDraft source d

/-- **The default configuration**: every risk is reported, with the built-in catalog, and no declaration
is checked for use. -/
def default : Config where
  source := ""
  logLevel := defaultLogLevel
  filePattern := defaultPattern
  pattern := (Pattern.parse defaultPattern).toOption.getD .empty
  maxAlarms := 0
  parallelism := 0
  format := .text
  ignored := []
  dangerous := BuiltIn.dangerous
  mitigating := BuiltIn.mitigating
  paths := []

instance : Inhabited Config := ⟨default⟩

/-- A path relative to the file of the configuration. -/
def relative (c : Config) (path : Text) : Text := Path.join (Path.directory c.source) path

/-- A file name matches the file pattern. -/
def selects (c : Config) (name : Text) : Bool := c.pattern.accepts name

/-- **The risks that are reported**: all that are not ignored. -/
def interest (c : Config) : RiskSet :=
  RiskSet.all.diff (.ofList (c.ignored.filterMap fun name => (Risk.parse? name).toOption))

/-- Declarations are checked for use. -/
def checksUse (c : Config) : Bool := !c.paths.isEmpty

/-- The log level is above that of information. -/
def isVerbose (c : Config) : Bool := decide (4 ≤ c.logLevel)

end Config

end PhpAudit
