import Mathlib.Algebra.GroupWithZero.Nat
import Mathlib.Data.List.Basic
import Mathlib.Logic.Relation
import Mathlib.Tactic.ByContra
import PhpAudit.Analysis.Files
import PhpAudit.Proofs.Analysis.Sharding

/-!
# Runs over files in any order

The files of a run are the tasks of a **pool**: each is started when fewer than a limit of them run,
looks whether the pool was cancelled, reads its file, and analyses the program in a fork of the
session. A file that cannot be read is noted in the shard of the task. A program that cannot be
covered makes the task fail: the first task that tells the pool of its error sets the error of the
run, and then cancels the pool, so tasks that start later fail too, with another error that nobody
hears of. Telling and cancelling are two steps: others may come between them.

`Step` lets any task go on at any time. What holds in every pool that is reached is `Consistent`,
and with it a pool whose tasks have all finished says nothing of the order in which they did:
without a program that cannot be covered its shards, in the order of the files, are what the files
give by themselves, and with one the run has failed, with the error of one of them.
-/

namespace PhpAudit

open PhpAudit.Tree (Program)

/-- What a task leaves behind. -/
inductive Shard where
  | empty
  | skipped (e : FileError)
  | analyzed (session : Session)

/-- **Where a task stands.** -/
inductive Phase where
  | waiting
  /-- Started, before it looks whether the pool is cancelled. -/
  | started
  | reading
  | analyzing (p : Program)
  /-- It has failed, and did not tell the pool yet. -/
  | failing (e : RunError)
  /-- It told the pool first, and did not cancel the pool yet. -/
  | cancelling
  | finished (shard : Shard)

/-- The most steps that a task in some phase has before it. -/
def Phase.rest : Phase → Nat
  | .waiting => 6
  | .started => 5
  | .reading => 4
  | .analyzing _ => 3
  | .failing _ => 2
  | .cancelling => 1
  | .finished _ => 0

/-- A task: a file, and where its analysis stands. -/
structure Task where
  path : Text
  phase : Phase

/-- A task that is neither waiting nor finished runs. -/
def Task.isRunning (t : Task) : Bool :=
  match t.phase with
  | .waiting | .finished _ => false
  | _ => true

/-- The shard of a task that has finished; before that it is empty. -/
def Task.shard (t : Task) : Shard :=
  match t.phase with
  | .finished shard => shard
  | _ => .empty

/-- The error of a skipped file. -/
def Shard.skipped? : Shard → Option FileError
  | .skipped e => some e
  | _ => none

/-- The session of an analysed file. -/
def Shard.session? : Shard → Option Session
  | .analyzed s => some s
  | _ => none

/-- **The tasks of a run**, in the order of its files, the error it was told of first, and whether
it was cancelled. -/
structure Pool where
  tasks : List Task
  failure : Option RunError
  cancelled : Bool

namespace Pool

/-- The pool before anything happens. -/
def start (paths : List Text) : Pool := ⟨paths.map (⟨·, .waiting⟩), none, false⟩

/-- Every task has finished. -/
def Complete (pool : Pool) : Prop := ∀ t ∈ pool.tasks, ∃ shard, t.phase = .finished shard

/-- **How a task that runs goes on**, given the error and the cancellation of the pool, which it may
change. -/
inductive Move (root : Session) (d : Disk) (path : Text) :
    Phase → Option RunError → Bool → Phase → Option RunError → Bool → Prop
  | abandon {f : Option RunError} : Move root d path .started f true (.failing .cancelled) f true
  | proceed {f : Option RunError} : Move root d path .started f false .reading f false
  | skip {f : Option RunError} {c : Bool} {e : FileError} : d.program path = .error e →
      Move root d path .reading f c (.finished (.skipped e)) f c
  | read {f : Option RunError} {c : Bool} {p : Program} : d.program path = .ok p →
      Move root d path .reading f c (.analyzing p) f c
  | analyze {f : Option RunError} {c : Bool} {p : Program} : (root.fork.analyze p).2.2 = none →
      Move root d path (.analyzing p) f c (.finished (.analyzed (root.fork.analyze p).1)) f c
  | fail {f : Option RunError} {c : Bool} {p : Program} {e : CoverageError} :
      (root.fork.analyze p).2.2 = some e →
      Move root d path (.analyzing p) f c (.failing (.uncovered path e)) f c
  | tell {c : Bool} {e : RunError} : Move root d path (.failing e) none c .cancelling (some e) c
  | cancel {f : Option RunError} {c : Bool} :
      Move root d path .cancelling f c (.finished .empty) f true
  | fall {c : Bool} {e first : RunError} :
      Move root d path (.failing e) (some first) c (.finished .empty) (some first) c

/-- **A step of a pool**: a task is started while fewer than `limit` of them run, or goes on. -/
inductive Step (root : Session) (d : Disk) (limit : Nat) : Pool → Pool → Prop
  | start {before after : List Task} {path : Text} {f : Option RunError} {c : Bool} :
      (before ++ after).countP Task.isRunning < limit →
      Step root d limit ⟨before ++ ⟨path, .waiting⟩ :: after, f, c⟩
        ⟨before ++ ⟨path, .started⟩ :: after, f, c⟩
  | move {before after : List Task} {path : Text} {phase phase' : Phase} {f f' : Option RunError}
      {c c' : Bool} : Move root d path phase f c phase' f' c' →
      Step root d limit ⟨before ++ ⟨path, phase⟩ :: after, f, c⟩
        ⟨before ++ ⟨path, phase'⟩ :: after, f', c'⟩

/-- The pools that can be reached from the start, in whatever order the tasks go on. -/
def Reaches (root : Session) (d : Disk) (limit : Nat) (paths : List Text) : Pool → Prop :=
  Relation.ReflTransGen (Step root d limit) (start paths)

/-- **The outcome of a complete pool**: that of its error, or else the shards merged in the order of
the files. What tasks write to the log is left out, as its order is that of the tasks. -/
def outcome (root : Session) (pool : Pool) : FilesRun :=
  match pool.failure with
  | some e => .failed e []
  | none =>
    let shards := pool.tasks.map Task.shard
    let merged := (shards.filterMap Shard.session?).foldl Session.merge root
    ⟨merged.result.1, shards.filterMap Shard.skipped?, none, merged.result.2⟩

end Pool

/-! ## What the files give by themselves -/

/-- **A file that can be read and whose program cannot be covered**, with the error of its analysis.
-/
def Session.FailsOn (root : Session) (d : Disk) (path : Text) (e : CoverageError) : Prop :=
  ∃ p, d.program path = .ok p ∧ (root.fork.analyze p).2.2 = some e

/-- **What a file gives by itself**: the error of reading it, or the session of its program. -/
def Session.shardOf (root : Session) (d : Disk) (path : Text) : Shard :=
  match d.program path with
  | .error e => .skipped e
  | .ok p => .analyzed (root.fork.analyze p).1

/-- The sessions of the files that can be read, in order. -/
def Session.ofReadable (root : Session) (d : Disk) (paths : List Text) : List Session :=
  (paths.map (root.shardOf d)).filterMap Shard.session?

/-- The errors of the files that cannot be read, in order. -/
def Disk.unreadable (d : Disk) (paths : List Text) : List FileError :=
  paths.filterMap fun path =>
    match d.program path with
    | .ok _ => none
    | .error e => some e

theorem filterMap_skipped_shardOf (root : Session) (d : Disk) (paths : List Text) :
    (paths.map (root.shardOf d)).filterMap Shard.skipped? = d.unreadable paths := by
  rw [Disk.unreadable, List.filterMap_map]
  apply List.filterMap_congr
  intro path _
  cases h : d.program path <;> simp [Session.shardOf, h, Shard.skipped?]

namespace Pool

variable {root : Session} {d : Disk} {limit : Nat} {paths : List Text} {pool next : Pool}

/-! ## The invariant -/

/-- **What the phase of a task says** of its file, and of the pool: a task gives up only when the
pool has an error. -/
def Means (root : Session) (d : Disk) (path : Text) (failed : Bool) : Phase → Prop
  | .waiting | .started | .reading => True
  | .analyzing p => d.program path = .ok p
  | .failing e =>
    (e = .cancelled ∧ failed = true) ∨ ∃ e', root.FailsOn d path e' ∧ e = .uncovered path e'
  | .cancelling | .finished .empty => failed = true
  | .finished (.skipped e) => d.program path = .error e
  | .finished (.analyzed s) =>
    ∃ p, d.program path = .ok p ∧ (root.fork.analyze p).2.2 = none ∧ s = (root.fork.analyze p).1

/-- An error of the pool is there to stay, and all else that a phase says is about its file. -/
theorem Means.mono {path : Text} {failed failed' : Bool} {phase : Phase}
    (h : Means root d path failed phase) (stays : failed = true → failed' = true) :
    Means root d path failed' phase := by
  cases phase with
  | waiting => trivial
  | started => trivial
  | reading => trivial
  | analyzing p => exact h
  | failing e => exact h.imp (fun h => ⟨h.1, stays h.2⟩) id
  | cancelling => exact stays h
  | finished shard =>
    cases shard with
    | empty => exact stays h
    | skipped e => exact h
    | analyzed s => exact h

/-- **What holds of every pool that is reached.** -/
structure Consistent (root : Session) (d : Disk) (paths : List Text) (pool : Pool) : Prop where
  tasks : pool.tasks.map Task.path = paths
  /-- The error of the run is that of a file. -/
  failure : ∀ e, pool.failure = some e →
    ∃ path ∈ paths, ∃ e', root.FailsOn d path e' ∧ e = .uncovered path e'
  /-- The pool is not cancelled before it has an error. -/
  cancelled : pool.cancelled = true → pool.failure.isSome = true
  phases : ∀ t ∈ pool.tasks, Means root d t.path pool.failure.isSome t.phase

theorem consistent_start : Consistent root d paths (start paths) where
  tasks := by simp [start, Function.comp_def]
  failure := by simp [start]
  cancelled := by simp [start]
  phases := by
    intro t ht
    obtain ⟨path, _, rfl⟩ := List.mem_map.mp ht
    trivial

/-- **What a task that goes on does**: its new phase is true of its file, and it neither takes the
error of the pool back nor sets one that is not of its file, nor cancels a pool without error. -/
theorem Move.keeps {path : Text} {phase phase' : Phase} {f f' : Option RunError} {c c' : Bool}
    (move : Move root d path phase f c phase' f' c') (means : Means root d path f.isSome phase)
    (cancelled : c = true → f.isSome = true) :
    Means root d path f'.isSome phase' ∧ (f' = f ∨ f = none ∧ ∃ e, f' = some (.uncovered path e) ∧
      root.FailsOn d path e) ∧ (c' = true → f'.isSome = true) := by
  cases move with
  | abandon => exact ⟨Or.inl ⟨rfl, cancelled rfl⟩, Or.inl rfl, cancelled⟩
  | proceed => exact ⟨trivial, Or.inl rfl, cancelled⟩
  | skip h => exact ⟨h, Or.inl rfl, cancelled⟩
  | read h => exact ⟨h, Or.inl rfl, cancelled⟩
  | analyze h => exact ⟨⟨_, means, h, rfl⟩, Or.inl rfl, cancelled⟩
  | fail h => exact ⟨Or.inr ⟨_, ⟨_, means, h⟩, rfl⟩, Or.inl rfl, cancelled⟩
  | tell =>
    -- a task fails by cancellation only once the pool has an error, so the first error is not that
    obtain ⟨_, h⟩ | ⟨e, fails, rfl⟩ := means
    · exact absurd h (by simp)
    · exact ⟨rfl, Or.inr ⟨rfl, e, rfl, fails⟩, fun _ => rfl⟩
  | cancel => exact ⟨means, Or.inl rfl, fun _ => means⟩
  | fall => exact ⟨rfl, Or.inl rfl, fun _ => rfl⟩

/-- **A step keeps the invariant.** -/
theorem Consistent.step (h : Consistent root d paths pool) (step : Step root d limit pool next) :
    Consistent root d paths next := by
  cases step with
  | @start before after path f c _ =>
    refine ⟨by simpa using h.tasks, h.failure, h.cancelled, ?_⟩
    intro t ht
    rcases List.mem_append.mp ht with ht | ht
    · exact h.phases t (List.mem_append_left _ ht)
    · rcases List.mem_cons.mp ht with rfl | ht
      · trivial
      · exact h.phases t (List.mem_append_right _ (List.mem_cons_of_mem _ ht))
  | @move before after path phase phase' f f' c c' move =>
    have here : path ∈ paths := by rw [← h.tasks]; simp
    obtain ⟨means, failure, cancelled⟩ :=
      move.keeps (h.phases ⟨path, phase⟩ (by simp)) h.cancelled
    have stays : f.isSome = true → f'.isSome = true := by
      rcases failure with rfl | ⟨rfl, _⟩
      · exact id
      · simp
    refine ⟨by simpa using h.tasks, ?_, cancelled, ?_⟩
    · intro e he
      rcases failure with rfl | ⟨_, e', rfl, fails⟩
      · exact h.failure e he
      · obtain rfl := Option.some.inj he
        exact ⟨path, here, e', fails, rfl⟩
    · intro t ht
      rcases List.mem_append.mp ht with ht | ht
      · exact (h.phases t (List.mem_append_left _ ht)).mono stays
      · rcases List.mem_cons.mp ht with rfl | ht
        · exact means
        · exact (h.phases t (List.mem_append_right _ (List.mem_cons_of_mem _ ht))).mono stays

/-- **Every pool that is reached is consistent.** -/
theorem Reaches.consistent (run : Reaches root d limit paths pool) :
    Consistent root d paths pool := by
  induction run with
  | refl => exact consistent_start
  | tail _ step ih => exact ih.step step

/-! ## Every run goes on until all tasks have finished -/

/-- A task that runs can go on. -/
theorem exists_move {t : Task} (running : t.isRunning = true) (f : Option RunError) (c : Bool) :
    ∃ phase' f' c', Move root d t.path t.phase f c phase' f' c' := by
  obtain ⟨path, phase⟩ := t
  cases phase with
  | waiting => cases running
  | started =>
    cases c with
    | true => exact ⟨_, _, _, .abandon⟩
    | false => exact ⟨_, _, _, .proceed⟩
  | reading =>
    cases h : d.program path with
    | error e => exact ⟨_, _, _, .skip h⟩
    | ok p => exact ⟨_, _, _, .read h⟩
  | analyzing p =>
    cases h : (root.fork.analyze p).2.2 with
    | none => exact ⟨_, _, _, .analyze h⟩
    | some e => exact ⟨_, _, _, .fail h⟩
  | failing e =>
    cases f with
    | none => exact ⟨_, _, _, .tell⟩
    | some first => exact ⟨_, _, _, .fall⟩
  | cancelling => exact ⟨_, _, _, .cancel⟩
  | finished shard => cases running

/-- **A pool that is not complete can go on**, when there is room for one task. -/
theorem complete_or_step (room : 1 ≤ limit) (pool : Pool) :
    pool.Complete ∨ ∃ next, Step root d limit pool next := by
  obtain ⟨tasks, f, c⟩ := pool
  by_cases running : ∃ t ∈ tasks, t.isRunning = true
  · obtain ⟨t, ht, running⟩ := running
    obtain ⟨before, after, rfl⟩ := List.append_of_mem ht
    obtain ⟨phase', f', c', move⟩ := exists_move running f c
    exact Or.inr ⟨_, .move move⟩
  · by_cases complete : ∀ t ∈ tasks, ∃ shard, t.phase = .finished shard
    · exact Or.inl complete
    · push Not at complete
      obtain ⟨t, ht, unfinished⟩ := complete
      obtain ⟨before, after, rfl⟩ := List.append_of_mem ht
      -- nobody runs, so the task that has not finished waits, and there is room for it
      have waits : t = ⟨t.path, .waiting⟩ := by
        have idle : t.isRunning = false := by
          by_contra h
          exact running ⟨t, ht, by simpa using h⟩
        obtain ⟨path, phase⟩ := t
        cases phase with
        | waiting => rfl
        | finished shard => exact absurd rfl (unfinished shard)
        | _ => cases idle
      have none : (before ++ after).countP Task.isRunning = 0 := by
        refine List.countP_eq_zero.mpr fun u hu h => running ⟨u, ?_, h⟩
        rcases List.mem_append.mp hu with hu | hu
        · exact List.mem_append_left _ hu
        · exact List.mem_append_right _ (List.mem_cons_of_mem _ hu)
      rw [waits]
      exact Or.inr ⟨_, .start (by omega)⟩

/-- The most steps that a pool has before it. -/
def rest (pool : Pool) : Nat := (pool.tasks.map fun t => t.phase.rest).sum

theorem Move.rest_lt {path : Text} {phase phase' : Phase} {f f' : Option RunError} {c c' : Bool}
    (move : Move root d path phase f c phase' f' c') : phase'.rest < phase.rest := by
  cases move <;> simp only [Phase.rest] <;> omega

/-- **Every step brings a pool nearer to its end.** -/
theorem Step.rest_lt (step : Step root d limit pool next) : next.rest < pool.rest := by
  cases step with
  | start _ => simp [rest, Phase.rest]
  | move move =>
    have := move.rest_lt
    simp only [rest, List.map_append, List.map_cons, List.sum_append, List.sum_cons]
    omega

/-! ## What a complete pool gives -/

/-- **As long as the pool has no error, a finished task has the shard of its file**, and its program
was covered. -/
theorem Consistent.shard (h : Consistent root d paths pool) (complete : pool.Complete)
    (noFailure : pool.failure = none) {t : Task} (ht : t ∈ pool.tasks) :
    t.shard = root.shardOf d t.path ∧ ∀ e, ¬ root.FailsOn d t.path e := by
  obtain ⟨shard, phase⟩ := complete t ht
  have means := h.phases t ht
  have hshard : t.shard = shard := by rw [Task.shard, phase]
  rw [noFailure, phase] at means
  rw [hshard]
  cases shard with
  | empty => exact absurd means (by simp [Means])
  | skipped e =>
    have he : d.program t.path = .error e := means
    refine ⟨by simp only [Session.shardOf, he], ?_⟩
    intro e' fails
    obtain ⟨p, hp, _⟩ := fails
    rw [he] at hp
    cases hp
  | analyzed s =>
    obtain ⟨p, hp, ok, rfl⟩ := means
    refine ⟨by simp only [Session.shardOf, hp], ?_⟩
    intro e' fails
    obtain ⟨p', hp', failed⟩ := fails
    rw [hp] at hp'
    cases hp'
    rw [ok] at failed
    cases failed

/-- **Without an error the shards are those of the files**, in their order. -/
theorem Consistent.outcome_of_no_failure (h : Consistent root d paths pool)
    (complete : pool.Complete) (noFailure : pool.failure = none) : pool.outcome root =
      ⟨((root.ofReadable d paths).foldl Session.merge root).result.1, d.unreadable paths, none,
        ((root.ofReadable d paths).foldl Session.merge root).result.2⟩ := by
  have shards : pool.tasks.map Task.shard = paths.map (root.shardOf d) := by
    rw [← h.tasks, List.map_map]
    exact List.map_congr_left fun t ht => (h.shard complete noFailure ht).1
  simp only [outcome, noFailure, shards, filterMap_skipped_shardOf]
  rfl

/-- **A program that cannot be covered fails a complete pool**: without an error its task would have
finished with a program that was covered. -/
theorem Consistent.failure_of_failsOn (h : Consistent root d paths pool) (complete : pool.Complete)
    {path : Text} (hpath : path ∈ paths) {e : CoverageError} (fails : root.FailsOn d path e) :
    ∃ e, pool.failure = some e := by
  rw [← h.tasks] at hpath
  obtain ⟨t, ht, rfl⟩ := List.mem_map.mp hpath
  cases noFailure : pool.failure with
  | some e => exact ⟨e, rfl⟩
  | none => exact absurd fails ((h.shard complete noFailure ht).2 e)

end Pool

/-! ## The run over files -/

/-- The outcome of a file whose program is covered is its shard. -/
theorem Session.analyzeFile_of_covered {root : Session} {d : Disk} {path : Text}
    (covered : ∀ e, ¬ root.FailsOn d path e) :
    (root.analyzeFile d path).1.failure? = none ∧
      (root.analyzeFile d path).1.session? = (root.shardOf d path).session? ∧
      (root.analyzeFile d path).1.skipped? = (root.shardOf d path).skipped? := by
  cases h : d.program path with
  | error e =>
    simp only [Session.analyzeFile, Session.shardOf, h]
    exact ⟨rfl, rfl, rfl⟩
  | ok p =>
    rcases hrun : root.fork.analyze p with ⟨s, ms, failure⟩
    cases failure with
    | some e => exact absurd ⟨p, h, by rw [hrun]⟩ (covered e)
    | none =>
      simp only [Session.analyzeFile, Session.shardOf, h, hrun]
      exact ⟨rfl, rfl, rfl⟩

/-- **When every program can be covered**, the run over files gives what the merged sessions do. -/
theorem analyzeFiles_of_covered {c : Config} {root : Session}
    (started : Session.ofConfig c = .ok root) {d : Disk} {paths : List Text}
    (covered : ∀ path ∈ paths, ∀ e, ¬ root.FailsOn d path e) :
    (analyzeFiles d c paths false).result =
        ((root.ofReadable d paths).foldl Session.merge root).result.1 ∧
      (analyzeFiles d c paths false).skipped = d.unreadable paths ∧
      (analyzeFiles d c paths false).failure = none := by
  have law := fun path hpath => Session.analyzeFile_of_covered (covered path hpath)
  have noFailure : (paths.map fun path => (root.analyzeFile d path).1).findSome?
      FileOutcome.failure? = none := by
    rw [List.findSome?_map, List.findSome?_eq_none_iff]
    exact fun path hpath => (law path hpath).1
  have sessions : (paths.map fun path => (root.analyzeFile d path).1).filterMap
      FileOutcome.session? = root.ofReadable d paths := by
    rw [Session.ofReadable, List.filterMap_map, List.filterMap_map]
    exact List.filterMap_congr fun path hpath => (law path hpath).2.1
  have skipped : (paths.map fun path => (root.analyzeFile d path).1).filterMap
      FileOutcome.skipped? = d.unreadable paths := by
    rw [← filterMap_skipped_shardOf root, List.filterMap_map, List.filterMap_map]
    exact List.filterMap_congr fun path hpath => (law path hpath).2.2
  simp only [analyzeFiles, started, Session.conclude, List.map_map, Function.comp_def,
    Bool.false_and, Bool.false_eq_true, if_false, noFailure, sessions, skipped, and_self]

namespace Pool

variable {root : Session} {d : Disk} {limit : Nat} {paths : List Text} {pool : Pool}

/-- **A run over files does not hang on the order of its tasks.** Whatever happened so far, the run
is complete or goes on, and not forever. When it is complete, and no program was in the way, it
gives the sessions of the readable files merged in the order of the files, and the errors of the
others, which is what `analyzeFiles` gives. With a program that cannot be covered it fails, without
a result, and with the error of such a program. -/
theorem outcome_of_any_schedule (room : 1 ≤ limit) (run : Reaches root d limit paths pool) :
    (pool.Complete ∨ ∃ next, Step root d limit pool next) ∧
    (∀ next, Step root d limit pool next → next.rest < pool.rest) ∧
    (pool.Complete →
      ((∀ path ∈ paths, ∀ e, ¬ root.FailsOn d path e) →
        (pool.outcome root).failure = none ∧
        (pool.outcome root).result =
          ((root.ofReadable d paths).foldl Session.merge root).result.1 ∧
        (pool.outcome root).skipped = d.unreadable paths ∧
        ∀ c, Session.ofConfig c = .ok root →
          (analyzeFiles d c paths false).failure = none ∧
          (analyzeFiles d c paths false).result = (pool.outcome root).result ∧
          (analyzeFiles d c paths false).skipped = (pool.outcome root).skipped) ∧
      ((∃ path ∈ paths, ∃ e, root.FailsOn d path e) →
        ∃ path ∈ paths, ∃ e, root.FailsOn d path e ∧
          pool.outcome root = .failed (.uncovered path e) [])) := by
  have consistent := run.consistent
  refine ⟨complete_or_step room pool, fun next step => step.rest_lt, fun complete => ⟨?_, ?_⟩⟩
  · intro covered
    have noFailure : pool.failure = none := by
      by_contra hne
      obtain ⟨e, he⟩ := Option.ne_none_iff_exists'.mp hne
      obtain ⟨path, hpath, e', fails, _⟩ := consistent.failure e he
      exact covered path hpath e' fails
    rw [consistent.outcome_of_no_failure complete noFailure]
    refine ⟨rfl, rfl, rfl, ?_⟩
    intro c started
    obtain ⟨result, skipped, failure⟩ := analyzeFiles_of_covered started covered
    exact ⟨failure, result, skipped⟩
  · rintro ⟨path, hpath, e, fails⟩
    obtain ⟨e', failure⟩ := consistent.failure_of_failsOn complete hpath fails
    obtain ⟨path', hpath', e'', fails', rfl⟩ := consistent.failure e' failure
    refine ⟨path', hpath', e'', fails', ?_⟩
    simp only [outcome, failure]

/-! ## A run that fails -/

/-- A disk with the tree of a program that cannot be covered. -/
def uncoveredDisk : Disk := ⟨[(["a"], "statements: [\x7bkind: zz\x7d]")], []⟩

theorem uncoveredDisk_program : ∃ p, uncoveredDisk.program "a" = .ok p ∧
    (Session.echoSession.fork.analyze p).2.2 = some ⟨"zz", .unknown⟩ := by
  have fails : (match uncoveredDisk.program "a" with
      | .ok p => decide ((Session.echoSession.fork.analyze p).2.2 = some ⟨"zz", .unknown⟩)
      | .error _ => false) = true := by decide +kernel
  split at fails
  · exact ⟨_, ‹_›, of_decide_eq_true fails⟩
  · cases fails

/-- The pool of two files after the first has failed and the second was given up. -/
def givenUp : Pool where
  tasks := [⟨"a", .finished .empty⟩, ⟨"b", .finished .empty⟩]
  failure := some (.uncovered "a" ⟨"zz", .unknown⟩)
  cancelled := true

/-- One task at a time: the first file fails, and the second is given up before it is read. -/
theorem reaches_givenUp : Reaches Session.echoSession uncoveredDisk 1 ["a", "b"] givenUp := by
  obtain ⟨p, program, failed⟩ := uncoveredDisk_program
  have first {phase phase' : Phase} {f f' : Option RunError} {c c' : Bool}
      (move : Move Session.echoSession uncoveredDisk "a" phase f c phase' f' c') :
      Step Session.echoSession uncoveredDisk 1 ⟨[⟨"a", phase⟩, ⟨"b", .waiting⟩], f, c⟩
        ⟨[⟨"a", phase'⟩, ⟨"b", .waiting⟩], f', c'⟩ :=
    @Step.move _ _ _ [] _ _ _ _ _ _ _ _ move
  have second {phase phase' : Phase} {f f' : Option RunError} {c c' : Bool}
      (move : Move Session.echoSession uncoveredDisk "b" phase f c phase' f' c') :
      Step Session.echoSession uncoveredDisk 1 ⟨[⟨"a", .finished .empty⟩, ⟨"b", phase⟩], f, c⟩
        ⟨[⟨"a", .finished .empty⟩, ⟨"b", phase'⟩], f', c'⟩ :=
    @Step.move _ _ _ [_] [] _ _ _ _ _ _ _ move
  refine .head (@Step.start _ _ _ [] [_] "a" _ _ (by decide)) ?_
  refine .head (first .proceed) ?_
  refine .head (first (.read program)) ?_
  refine .head (first (.fail failed)) ?_
  refine .head (first .tell) ?_
  refine .head (first .cancel) ?_
  refine .head (@Step.start _ _ _ [_] [] "b" _ _ (by decide)) ?_
  refine .head (second .abandon) ?_
  exact .single (second .fall)

theorem outcome_of_givenUp :
    1 ≤ 1 ∧ Reaches Session.echoSession uncoveredDisk 1 ["a", "b"] givenUp ∧ givenUp.Complete ∧
    ∃ path ∈ (["a", "b"] : List Text), ∃ e, Session.echoSession.FailsOn uncoveredDisk path e ∧
      givenUp.outcome Session.echoSession = .failed (.uncovered path e) [] := by
  obtain ⟨p, program, failed⟩ := uncoveredDisk_program
  have complete : givenUp.Complete := by
    intro t ht
    rcases List.mem_pair.mp ht with rfl | rfl
    · exact ⟨.empty, rfl⟩
    · exact ⟨.empty, rfl⟩
  obtain ⟨_, _, law⟩ := outcome_of_any_schedule (Nat.le_refl 1) reaches_givenUp
  refine ⟨Nat.le_refl 1, reaches_givenUp, complete, (law complete).2 ?_⟩
  exact ⟨"a", by simp, _, p, program, failed⟩

end Pool

end PhpAudit
