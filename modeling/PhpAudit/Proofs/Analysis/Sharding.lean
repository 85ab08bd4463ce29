import PhpAudit.Analysis.Run
import PhpAudit.Proofs.Usage.Merge

/-!
# Sessions in shards

A session takes in the events of a walk, and a walk knows nothing of the session, so programs may be
analysed each in a fork of its own and the forks merged in order. Merging a session that took in
events is taking them in oneself (`merge_absorbAll`): findings and includes come after those there
are, and the ledgers agree.

The law (`foldl_merge_forks`): the merged forks are the session that analysed the programs one after
the other, all of it: its collection and its ledger.
-/

namespace PhpAudit.Session

open PhpAudit.Tree (Program)

/-- Two sessions report the same, and their ledgers are kept in the same way. -/
def Alike (s t : Session) : Prop := s.policy = t.policy ∧ s.ledger.fork = t.ledger.fork

variable {s t : Session}

theorem alike_fork (s : Session) : Alike s s.fork := ⟨rfl, rfl⟩

/-- Sessions that are alike have the same forks. -/
theorem Alike.fork_eq (h : Alike s t) : s.fork = t.fork := by
  rw [fork, fork, h.1, h.2]

/-- An empty session adds nothing. -/
theorem merge_fork (s : Session) : s.merge s.fork = s := by
  simp [merge, fork, Collection.merge, Collection.empty, Ledger.merge_fork]

/-! ## Taking in events -/

/-- Taking in an event changes what was collected, not what is reported or kept. -/
theorem alike_absorb (s : Session) (e : Event) : Alike s (s.absorb e).1 := by
  cases e with
  | sink loc name t => exact ⟨rfl, rfl⟩
  | inclusion site => exact ⟨rfl, rfl⟩
  | use i => exact ⟨rfl, rfl⟩
  | function head => exact ⟨rfl, (Ledger.fork_declareFunction _ _).symm⟩
  | classDef head => exact ⟨rfl, (Ledger.fork_declareClass _ _).symm⟩
  | remark m => exact ⟨rfl, rfl⟩

theorem Alike.trans {r : Session} (h : Alike r s) (h' : Alike s t) : Alike r t :=
  ⟨h.1.trans h'.1, h.2.trans h'.2⟩

theorem alike_absorbAll (s : Session) (es : List Event) : Alike s (s.absorbAll es).1 := by
  induction es generalizing s with
  | nil => exact ⟨rfl, rfl⟩
  | cons e es ih => exact (alike_absorb s e).trans (ih _)

/-- **An event taken in by the second session** is one taken in by the merged session. -/
theorem merge_absorb (alike : Alike s t) (e : Event) :
    s.merge (t.absorb e).1 = ((s.merge t).absorb e).1 := by
  cases e with
  | sink loc name taint =>
    simp only [absorb, Collection.sink, merge, Collection.merge, alike.1, List.append_assoc]
  | inclusion site =>
    simp only [absorb, Collection.inclusion, merge, Collection.merge, List.append_assoc]
  | use i => simp only [absorb, merge, Ledger.merge_use alike.2.symm]
  | function head => simp only [absorb, merge, Ledger.merge_declareFunction alike.2.symm]
  | classDef head => simp only [absorb, merge, Ledger.merge_declareClass alike.2.symm]
  | remark m => rfl

theorem merge_absorbAll (alike : Alike s t) (es : List Event) :
    s.merge (t.absorbAll es).1 = ((s.merge t).absorbAll es).1 := by
  induction es generalizing t with
  | nil => rfl
  | cons e es ih =>
    have next := ih (alike.trans (alike_absorb t e))
    rw [merge_absorb alike e] at next
    exact next

/-! ## Analysing programs -/

/-- A program has the same walk in a fork, and so the same error. -/
theorem failure_fork_analyze (s : Session) (p : Program) :
    (s.fork.analyze p).2.2 = (s.analyze p).2.2 := rfl

/-- **One program in a fork**, merged, is the program analysed in the session itself. -/
theorem merge_fork_analyze (s : Session) (p : Program) :
    s.merge (s.fork.analyze p).1 = (s.analyze p).1 := by
  have law := merge_absorbAll (alike_fork s) (Walk.program s.mitigations p).events
  rw [merge_fork] at law
  exact law

theorem alike_analyze (s : Session) (p : Program) : Alike s (s.analyze p).1 :=
  alike_absorbAll s _

theorem analyzeAll_cons (s : Session) (p : Program) (ps : List Program)
    (ok : (s.analyze p).2.2 = none) :
    ((s.analyzeAll (p :: ps)).1 = ((s.analyze p).1.analyzeAll ps).1) ∧
      (s.analyzeAll (p :: ps)).2.2 = ((s.analyze p).1.analyzeAll ps).2.2 := by
  rcases h : s.analyze p with ⟨s', ms, failure⟩
  rw [h] at ok
  subst ok
  simp only [analyzeAll, h, and_self]

/-- **Forks merged in order** are the session that analysed the programs one after the other, when
none of them fails. -/
theorem foldl_merge_forks {root : Session} (alike : Alike s root) (programs : List Program)
    (ok : ∀ p ∈ programs, (root.fork.analyze p).2.2 = none) :
    (programs.map fun p => (root.fork.analyze p).1).foldl merge s = (s.analyzeAll programs).1 ∧
      (s.analyzeAll programs).2.2 = none := by
  induction programs generalizing s with
  | nil => exact ⟨rfl, rfl⟩
  | cons p ps ih =>
    have okHere : (s.analyze p).2.2 = none := by
      rw [← failure_fork_analyze, alike.fork_eq]
      exact ok p List.mem_cons_self
    have here : s.merge (root.fork.analyze p).1 = (s.analyze p).1 := by
      rw [← alike.fork_eq]
      exact merge_fork_analyze s p
    have alike' : Alike (s.analyze p).1 root :=
      ⟨(alike_analyze s p).1.symm.trans alike.1, (alike_analyze s p).2.symm.trans alike.2⟩
    obtain ⟨merged, noFailure⟩ := ih alike' fun q hq => ok q (List.mem_cons_of_mem _ hq)
    obtain ⟨session, failure⟩ := analyzeAll_cons s p ps okHere
    rw [List.map_cons, List.foldl_cons, here, merged, session, failure]
    exact ⟨rfl, noFailure⟩

/-- **A session that was kept in shards**: each program analysed in its own fork, and the forks
merged in order. -/
def sharded (root : Session) (programs : List Program) : Session :=
  (programs.map fun p => (root.fork.analyze p).1).foldl merge root

/-- **Sharding is not seen in the result**: when no program fails, the forks merged in order give
the findings, includes and unused declarations of the run over the programs, and the counts of uses
and the kept declarations of its session. -/
theorem sharded_agrees_with_analyzePrograms {c : Config} {root : Session}
    (started : Session.ofConfig c = .ok root) (programs : List Program)
    (ok : ∀ p ∈ programs, (root.fork.analyze p).2.2 = none) :
    (analyzePrograms c programs).failure = none ∧
    (root.sharded programs).result.1 = (analyzePrograms c programs).result ∧
    (∀ identity, (root.sharded programs).ledger.useCount identity =
      (root.analyzeAll programs).1.ledger.useCount identity) ∧
    (root.sharded programs).ledger.declarations =
      (root.analyzeAll programs).1.ledger.declarations := by
  obtain ⟨merged, noFailure⟩ := foldl_merge_forks ⟨rfl, rfl⟩ programs ok
  have session : root.sharded programs = (root.analyzeAll programs).1 := merged
  have run : analyzePrograms c programs = ⟨(root.analyzeAll programs).1.result.1,
      (root.analyzeAll programs).2.2,
      (root.analyzeAll programs).2.1 ++ (root.analyzeAll programs).1.result.2⟩ := by
    simp only [analyzePrograms, started]
  rw [run, session]
  exact ⟨noFailure, rfl, fun _ => rfl, rfl⟩

/-! ## Two programs -/

/-- A configuration that reports what is printed unescaped, and checks declarations below `src`. -/
def echoConfig : Config where
  source := ""
  logLevel := 3
  filePattern := ""
  pattern := .empty
  maxAlarms := 0
  parallelism := 0
  format := .text
  ignored := []
  dangerous := [("echo", "XSS")]
  mitigating := []
  paths := ["src"]

/-- The session of that configuration. -/
def echoSession : Session :=
  .start ⟨⟨[("echo", .singleton .crossSiteScripting)], []⟩, .all⟩ ["src"]

theorem ofConfig_echoConfig : Session.ofConfig echoConfig = .ok echoSession := by
  let dangerous : List (Text × RiskSet) := [("echo", .singleton .crossSiteScripting)]
  have parsed : (match Catalog.parse echoConfig.dangerous echoConfig.mitigating with
      | .ok catalog => decide (catalog.dangerous = dangerous ∧ catalog.mitigating = [])
      | .error _ => false) = true := by decide +kernel
  have interest : echoConfig.interest = .all := by decide
  rw [Session.ofConfig, interest]
  cases h : Catalog.parse echoConfig.dangerous echoConfig.mitigating with
  | error e =>
    rw [h] at parsed
    cases parsed
  | ok catalog =>
    rw [h] at parsed
    obtain ⟨hdangerous, hmitigating⟩ := of_decide_eq_true parsed
    obtain ⟨_, _⟩ := catalog
    subst hdangerous hmitigating
    rfl

/-- A program that prints a variable and declares a function. -/
def declaringProgram : Program where
  file := "src/a"
  body := .mk .unknown
    [.simple ⟨"src/a", 1, "", ""⟩ .echo (some (.atom .unknown (.var "x"))),
      .functionDef ⟨"src/a", 2, "", ""⟩
        (some (.mk ⟨⟨"src/a", 2, "", ""⟩, "f", "", .isPublic, false, false⟩ [] none))]
  functions := []

/-- A program that calls that function, in other letters. -/
def callingProgram : Program where
  file := "src/b"
  body := .mk .unknown [.simple .unknown .evaluate (some (.call .unknown (.function "F" "") []))]
  functions := []

theorem sharded_agrees_on_two_programs :
    Session.ofConfig echoConfig = .ok echoSession ∧
    (∀ p ∈ [declaringProgram, callingProgram], (echoSession.fork.analyze p).2.2 = none) ∧
    (analyzePrograms echoConfig [declaringProgram, callingProgram]).failure = none ∧
    (echoSession.sharded [declaringProgram, callingProgram]).result.1 =
      (analyzePrograms echoConfig [declaringProgram, callingProgram]).result ∧
    (∀ identity, (echoSession.sharded [declaringProgram, callingProgram]).ledger.useCount identity =
      (echoSession.analyzeAll [declaringProgram, callingProgram]).1.ledger.useCount identity) ∧
    (echoSession.sharded [declaringProgram, callingProgram]).ledger.declarations =
      (echoSession.analyzeAll [declaringProgram, callingProgram]).1.ledger.declarations := by
  have ok : ∀ p ∈ [declaringProgram, callingProgram], (echoSession.fork.analyze p).2.2 = none := by
    decide
  exact ⟨ofConfig_echoConfig, ok, sharded_agrees_with_analyzePrograms ofConfig_echoConfig _ ok⟩

end PhpAudit.Session
