import PhpAudit.Analysis.Findings
import PhpAudit.Usage.Ledger
import PhpAudit.Walk.Program

/-!
# Sessions

A **session** takes in the events of walks: values at sinks become findings, includes are kept, and
declarations and uses go into the ledger. Programs can be analysed in forks of one session, each
starting empty, and the forks merged in order: the result is that of one session.
-/

namespace PhpAudit

open PhpAudit.Tree (Program Stmt)

/-- **A session**: what is reported, and what was collected. -/
structure Session where
  policy : Policy
  collection : Collection
  ledger : Ledger

namespace Session

/-- A session that has collected nothing. -/
def start (policy : Policy) (paths : List Text) : Session := ⟨policy, .empty, .empty paths⟩

/-- An empty session with the same policy and paths. -/
def fork (s : Session) : Session := ⟨s.policy, .empty, s.ledger.fork⟩

/-- **Takes in an event**, with the messages it gives. -/
def absorb (s : Session) : Event → Session × List Message
  | .sink loc name t =>
    let (c, ms) := s.collection.sink s.policy loc name t
    ({ s with collection := c }, ms)
  | .inclusion site =>
    let (c, ms) := s.collection.inclusion site
    ({ s with collection := c }, ms)
  | .use i => ({ s with ledger := s.ledger.use i.text }, [])
  | .function head =>
    let (l, ms) := s.ledger.declareFunction head
    ({ s with ledger := l }, ms)
  | .classDef head =>
    let (l, ms) := s.ledger.declareClass head
    ({ s with ledger := l }, ms)
  | .remark m => (s, [m])

/-- Takes in events one after the other. -/
def absorbAll (s : Session) : List Event → Session × List Message
  | [] => (s, [])
  | e :: es =>
    let (s, ms) := s.absorb e
    let (s, ms') := s.absorbAll es
    (s, ms ++ ms')

/-- The risks that functions remove in this session. -/
def mitigations (s : Session) : Walk.Mitigations := s.policy.catalog.mitigations

/-- **Analyses a program** and takes in its events, also those before an error. -/
def analyze (s : Session) (p : Program) : Session × List Message × Option CoverageError :=
  let run := Walk.program s.mitigations p
  let (s, ms) := s.absorbAll run.events
  (s, ms, run.failure)

/-- **Analyses one statement** in a scope and takes in its events; the outcome holds the scope after
it. -/
def statement (s : Session) (scope : Scope) (st : Stmt) : Session × List Message × Outcome Taint :=
  let outcome := Walk.stmt s.mitigations st scope
  let (s, ms) := s.absorbAll outcome.events
  (s, ms, outcome)

/-- **Merges** another session after this one. -/
def merge (s other : Session) : Session :=
  ⟨s.policy, s.collection.merge other.collection, s.ledger.merge other.ledger⟩

end Session

/-- **The result of an analysis.** -/
structure Result where
  findings : List Finding
  unused : List Declaration
  includes : List IncludeSite

/-- The result without anything. -/
def Result.empty : Result := ⟨[], [], []⟩

/-- **The result of a session**, with the messages of the search for unused declarations. -/
def Session.result (s : Session) : Result × List Message :=
  if s.ledger.isEnabled then
    (⟨s.collection.findings, s.ledger.unused, s.collection.includes⟩, s.ledger.unusedMessages)
  else (⟨s.collection.findings, [], s.collection.includes⟩, [])

end PhpAudit
