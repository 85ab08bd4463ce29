import PhpAudit.Analysis.Session
import PhpAudit.Config.Basic

/-!
# Runs of the analysis

A configuration starts a session, unless it ignores every risk. `analyzePrograms` analyses programs
one after the other in one session, up to the first that cannot be covered.
-/

namespace PhpAudit

open PhpAudit.Tree (Program)

/-- Why a configuration starts no session. -/
inductive SessionError where
  | noRisks
  | badCatalog (e : CatalogError)
deriving DecidableEq, Repr

/-- The wording of the error. -/
def SessionError.message : SessionError → Text
  | .noRisks => "no risks to analyze"
  | .badCatalog e => "invalid method catalog: " ++ e.message

/-- **The session of a configuration.** -/
def Session.ofConfig (c : Config) : Except SessionError Session :=
  if c.interest.isEmpty then .error .noRisks
  else match Catalog.parse c.dangerous c.mitigating with
    | .error e => .error (.badCatalog e)
    | .ok catalog => .ok (.start ⟨catalog, c.interest⟩ c.paths)

/-- **Why a run fails.** -/
inductive RunError where
  | notStarted (e : SessionError)
  /-- A program, known by its file, has a node of an unknown kind. -/
  | uncovered (file : Text) (e : CoverageError)
  /-- The run was told to stop before it was done. -/
  | cancelled
deriving DecidableEq, Repr

/-- The wording of a failed run. -/
def RunError.message : RunError → Text
  | .notStarted e => e.message
  | .uncovered file e => file ++ ": " ++ e.message
  | .cancelled => "context canceled"

/-- **What a run over programs gives**: the result of what was analysed, the error that ended it, if one
did, and the messages for the log. -/
structure ProgramsRun where
  result : Result
  failure : Option RunError
  messages : List Message

/-- **Analyses programs** in a session, up to the first that fails. -/
def Session.analyzeAll (s : Session) : List Program → Session × List Message × Option RunError
  | [] => (s, [], none)
  | p :: ps =>
    match s.analyze p with
    | (s, ms, some e) => (s, ms, some (.uncovered p.file e))
    | (s, ms, none) =>
      let (s, ms', failure) := s.analyzeAll ps
      (s, ms ++ ms', failure)

/-- **A run over programs.** A failed run keeps what it found before. -/
def analyzePrograms (c : Config) (programs : List Program) : ProgramsRun :=
  match Session.ofConfig c with
  | .error e => ⟨.empty, some (.notStarted e), []⟩
  | .ok s =>
    let (s, ms, failure) := s.analyzeAll programs
    let (result, ms') := s.result
    ⟨result, failure, ms ++ ms'⟩

end PhpAudit
