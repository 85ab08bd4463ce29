import PhpAudit.Proofs.Analysis.Collected
import PhpAudit.Proofs.Usage.Entries

/-!
# What a run reports

The events of a run make entries in its ledger, and the ledger sees nothing else of them
(`foldl_note`). A run over programs that do not fail is the runs over each of them put together: its
findings and include sites are those of the programs, one after the other, and its ledger is that of
their entries (`reported_of_covered`).
-/

namespace PhpAudit

open PhpAudit.Tree (Program)

/-- **The ledger after events** is the ledger after their entries. -/
theorem Ledger.foldl_note (l : Ledger) (es : List Event) :
    es.foldl Ledger.note l = (entriesOf es).foldl Ledger.enter l := by
  induction es generalizing l with
  | nil => rfl
  | cons e es ih =>
    rw [List.foldl_cons, ih]
    cases e <;> rfl

/-- Without paths nothing can be kept. -/
theorem Ledger.declarationsOf_no_paths (entries : List Ledger.Entry) :
    Ledger.declarationsOf [] entries = [] := by
  rw [Ledger.declarationsOf, List.filterMap_eq_nil_iff]
  intro e _
  cases e with
  | function f =>
    simp only [Ledger.Entry.declaration?]
    split <;> simp [Ledger.keeps]
  | classLike c => simp [Ledger.Entry.declaration?, Ledger.keeps]
  | use i => rfl

/-- **The unused declarations of events** are those of the ledger of their entries, with paths or
without. -/
theorem unusedDeclarations_eq (paths : List Text) (es : List Event) :
    unusedDeclarations paths es = ((entriesOf es).foldl Ledger.enter (.empty paths)).unused := by
  rw [unusedDeclarations, Ledger.foldl_note]
  split
  · rfl
  · next disabled =>
    have none : paths = [] := by
      simpa [Ledger.foldl_enter, Ledger.isEnabled, Ledger.empty, Ledger.comparing] using disabled
    subst none
    symm
    rw [List.eq_nil_iff_forall_not_mem]
    intro d reported
    have declared := Ledger.mem_declarationsOf_of_mem_unused reported
    rw [Ledger.declarationsOf_no_paths] at declared
    cases declared

/-! ## Programs one after the other -/

/-- Programs are covered exactly when none of them fails. -/
theorem Walk.programs_snd_eq_none_iff {m : Walk.Mitigations} {ps : List Program} :
    (Walk.programs m ps).2 = none ↔ ∀ p ∈ ps, (Walk.program m p).failure = none := by
  induction ps with
  | nil => simp [Walk.programs]
  | cons p ps ih =>
    rw [Walk.programs, List.forall_mem_cons]
    cases failure : (Walk.program m p).failure with
    | none => simp [ih]
    | some e => simp

theorem Walk.programs_fst_of_covered {m : Walk.Mitigations} {ps : List Program}
    (covered : ∀ p ∈ ps, (Walk.program m p).failure = none) :
    (Walk.programs m ps).1 = ps.flatMap fun p => (Walk.program m p).events := by
  induction ps with
  | nil => rfl
  | cons p ps ih =>
    obtain ⟨here, rest⟩ := List.forall_mem_cons.mp covered
    rw [Walk.programs, here, List.flatMap_cons, ih rest]

namespace Session

/-- **What starting a session takes**: a catalog that is read and a risk that is not ignored. -/
theorem ofConfig_eq_ok {c : Config} {root : Session} (started : Session.ofConfig c = .ok root) :
    ∃ catalog, Catalog.parse c.dangerous c.mitigating = .ok catalog ∧ c.interest.isEmpty = false ∧
      root = .start ⟨catalog, c.interest⟩ c.paths := by
  unfold Session.ofConfig at started
  split at started
  · cases started
  · next interest =>
    split at started
    · cases started
    · next catalog parsed =>
      cases started
      exact ⟨catalog, parsed, Bool.eq_false_iff.mpr interest, rfl⟩

/-- **The entries that a program makes** in the ledger of a session. -/
def entries (s : Session) (p : Program) : List Ledger.Entry :=
  entriesOf (Walk.program s.mitigations p).events

/-- **The declarations of a program** that the ledger of a session can keep. -/
def declarations (s : Session) (p : Program) : List Declaration :=
  Ledger.declarationsOf s.ledger.paths (s.entries p)

section Covered

variable {c : Config} {root : Session} (started : Session.ofConfig c = .ok root)
  {ps : List Program}

include started

theorem declarationsOf_flatMap_entries :
    Ledger.declarationsOf c.paths (ps.flatMap root.entries) = ps.flatMap root.declarations := by
  obtain ⟨catalog, -, -, rfl⟩ := ofConfig_eq_ok started
  exact List.filterMap_flatMap

/-- A run fails exactly when one of its programs does. -/
theorem failure_analyzePrograms_eq_none_iff :
    (analyzePrograms c ps).failure = none ↔ ∀ p ∈ ps, (root.analyze p).2.2 = none := by
  obtain ⟨catalog, parsed, interest, rfl⟩ := ofConfig_eq_ok started
  rw [(analyzePrograms_eq parsed interest ps).2]
  exact Walk.programs_snd_eq_none_iff

variable (covered : ∀ p ∈ ps, (root.analyze p).2.2 = none)

include covered

/-- **What a run over programs that do not fail reports.** -/
theorem reported_of_covered :
    (analyzePrograms c ps).result.findings =
      ps.flatMap (fun p => (root.analyze p).1.collection.findings) ∧
    (analyzePrograms c ps).result.includes =
      ps.flatMap (fun p => (root.analyze p).1.collection.includes) ∧
    (analyzePrograms c ps).result.unused =
      ((ps.flatMap root.entries).foldl Ledger.enter (.empty c.paths)).unused := by
  obtain ⟨catalog, parsed, interest, rfl⟩ := ofConfig_eq_ok started
  have events := Walk.programs_fst_of_covered (m := catalog.mitigations) covered
  rw [(analyzePrograms_eq parsed interest ps).1, events, unusedDeclarations_eq]
  have entries : entriesOf (ps.flatMap fun p => (Walk.program catalog.mitigations p).events) =
      ps.flatMap (Session.entries (.start ⟨catalog, c.interest⟩ c.paths)) :=
    List.filterMap_flatMap
  simp only [collection_analyze, entries]
  exact ⟨List.filterMap_flatMap, List.filterMap_flatMap, trivial⟩

/-- The ledger of a session that analysed programs that do not fail. -/
theorem ledger_of_covered : (root.analyzeAll ps).1.ledger =
    (ps.flatMap root.entries).foldl Ledger.enter (.empty c.paths) := by
  obtain ⟨catalog, parsed, interest, rfl⟩ := ofConfig_eq_ok started
  have events := Walk.programs_fst_of_covered (m := catalog.mitigations) covered
  rw [(analyzeAll_eq _ ps).1]
  show (Walk.programs catalog.mitigations ps).1.foldl Ledger.note (.empty c.paths) = _
  rw [events, Ledger.foldl_note, entriesOf, List.filterMap_flatMap]
  rfl

end Covered

end Session

end PhpAudit
