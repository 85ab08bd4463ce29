import PhpAudit.Proofs.Analysis.Reported
import PhpAudit.Proofs.Analysis.Sharding

/-!
# Programs in another order

A walk over a program knows nothing of the programs before it, so programs in another order make the
same entries and give the same findings, in another order. What a ledger counts, and which keys it
reports as unused, does not depend on the order of its entries; which declaration it keeps of a key
that is declared more than once does.

**The law** (`reordered_programs_report_alike`): runs over the same programs in different orders
report the same, but for the order of programs, and but for which of several declarations of one key
is shown.
-/

namespace PhpAudit.Ledger

variable {fold : Text → Text} {paths : List Text} {xs ys : List Entry}

theorem declarationsOf_perm (reordered : xs.Perm ys) :
    (declarationsOf paths xs).Perm (declarationsOf paths ys) :=
  reordered.filterMap _

theorem usesOf_perm (reordered : xs.Perm ys) : (usesOf xs).Perm (usesOf ys) :=
  reordered.flatMap_right _

/-- **How often an identity is used** is the number of uses of its key. -/
theorem useCount_foldl_enter (identity : Text) :
    (xs.foldl enter (comparing fold paths)).useCount identity =
      (usesOf xs).countP fun i => fold i.text = fold identity := by
  rw [foldl_enter_comparing, useCount, key, count_countUses]
  exact Nat.zero_add _

theorem useCount_eq_of_perm (reordered : xs.Perm ys) (identity : Text) :
    (xs.foldl enter (comparing fold paths)).useCount identity =
      (ys.foldl enter (comparing fold paths)).useCount identity := by
  rw [useCount_foldl_enter, useCount_foldl_enter]
  exact (usesOf_perm reordered).countP_eq _

/-- **The keys of the unused declarations** do not depend on the order of the entries. -/
theorem keys_unused_iff_of_perm (reordered : xs.Perm ys) (k : Text) :
    (∃ d ∈ (xs.foldl enter (comparing fold paths)).unused, fold d.name = k) ↔
      ∃ d ∈ (ys.foldl enter (comparing fold paths)).unused, fold d.name = k := by
  rw [mem_keys_unused, mem_keys_unused]
  simp only [(declarationsOf_perm reordered).mem_iff, (usesOf_perm reordered).mem_iff]

/-- The only declaration of a key is unused when the key is. -/
theorem mem_unused_of_only {d : Declaration}
    (only : ∀ d' ∈ declarationsOf paths xs, fold d'.name = fold d.name → d' = d) :
    d ∈ (xs.foldl enter (comparing fold paths)).unused ↔
      d ∈ declarationsOf paths xs ∧ ∀ i ∈ usesOf xs, fold i.text ≠ fold d.name := by
  constructor
  · intro reported
    exact ⟨mem_declarationsOf_of_mem_unused reported, (mem_unused_foldl_enter.mp reported).2⟩
  · rintro ⟨declared, unused⟩
    obtain ⟨d', reported, same⟩ := mem_keys_unused.mpr ⟨⟨d, declared, rfl⟩, unused⟩
    exact only d' (mem_declarationsOf_of_mem_unused reported) same ▸ reported

/-- **A declaration that is the only one of its key** is unused in either order or in none. -/
theorem mem_unused_iff_of_perm (reordered : xs.Perm ys) {d : Declaration}
    (only : ∀ d' ∈ declarationsOf paths xs, fold d'.name = fold d.name → d' = d) :
    d ∈ (xs.foldl enter (comparing fold paths)).unused ↔
      d ∈ (ys.foldl enter (comparing fold paths)).unused := by
  have only' : ∀ d' ∈ declarationsOf paths ys, fold d'.name = fold d.name → d' = d := by
    intro d' declared
    exact only d' ((declarationsOf_perm reordered).mem_iff.mpr declared)
  rw [mem_unused_of_only only, mem_unused_of_only only']
  simp only [(declarationsOf_perm reordered).mem_iff, (usesOf_perm reordered).mem_iff]

end PhpAudit.Ledger

namespace PhpAudit.Session

open PhpAudit.Tree (Program)

/-- **The order of programs is not seen beyond order**: when no program fails, programs in another
order give the findings of each program in one block, in their order, the same include sites, the
same counts of uses, and unused declarations of the same keys; a declaration that is the only one of
its key is reported in both orders or in none. -/
theorem reordered_programs_report_alike {c : Config} {root : Session}
    (started : Session.ofConfig c = .ok root) {ps qs : List Program} (reordered : ps.Perm qs)
    (covered : ∀ p ∈ ps, (root.analyze p).2.2 = none) :
    let run := analyzePrograms c ps
    let run' := analyzePrograms c qs
    let block := fun p => (root.analyze p).1.collection.findings
    (run.failure = none ∧ run'.failure = none) ∧
    (run.result.findings = ps.flatMap block ∧ run'.result.findings = qs.flatMap block ∧
      run.result.findings.Perm run'.result.findings) ∧
    run.result.includes.Perm run'.result.includes ∧
    (∀ identity, (root.analyzeAll ps).1.ledger.useCount identity =
      (root.analyzeAll qs).1.ledger.useCount identity) ∧
    (∀ k, (∃ d ∈ run.result.unused, Text.fold d.name = k) ↔
      ∃ d ∈ run'.result.unused, Text.fold d.name = k) ∧
    ∀ d, (∀ d' ∈ ps.flatMap root.declarations, Text.fold d'.name = Text.fold d.name → d' = d) →
      (d ∈ run.result.unused ↔ d ∈ run'.result.unused) := by
  intro run run' block
  have covered' : ∀ q ∈ qs, (root.analyze q).2.2 = none := by
    intro q hq
    exact covered q (reordered.mem_iff.mpr hq)
  obtain ⟨findings, includes, unused⟩ := reported_of_covered started covered
  obtain ⟨findings', includes', unused'⟩ := reported_of_covered started covered'
  have entries : (ps.flatMap root.entries).Perm (qs.flatMap root.entries) :=
    reordered.flatMap_right _
  refine ⟨⟨?_, ?_⟩, ⟨findings, findings', ?_⟩, ?_, ?_, ?_, ?_⟩
  · exact (failure_analyzePrograms_eq_none_iff started).mpr covered
  · exact (failure_analyzePrograms_eq_none_iff started).mpr covered'
  · show (analyzePrograms c ps).result.findings.Perm (analyzePrograms c qs).result.findings
    rw [findings, findings']
    exact reordered.flatMap_right _
  · show (analyzePrograms c ps).result.includes.Perm (analyzePrograms c qs).result.includes
    rw [includes, includes']
    exact reordered.flatMap_right _
  · intro identity
    rw [ledger_of_covered started covered, ledger_of_covered started covered']
    exact Ledger.useCount_eq_of_perm entries identity
  · intro k
    show (∃ d ∈ (analyzePrograms c ps).result.unused, _) ↔
      ∃ d ∈ (analyzePrograms c qs).result.unused, _
    rw [unused, unused']
    exact Ledger.keys_unused_iff_of_perm entries k
  · intro d only
    show d ∈ (analyzePrograms c ps).result.unused ↔ d ∈ (analyzePrograms c qs).result.unused
    rw [unused, unused']
    apply Ledger.mem_unused_iff_of_perm entries
    rw [declarationsOf_flatMap_entries started]
    exact only

/-! ## Two declarations of one key -/

/-- A program that declares the function of `declaringProgram` in other letters, and another. -/
def redeclaringProgram : Program where
  file := "src/b"
  body := .mk .unknown
    [.functionDef ⟨"src/b", 3, "", ""⟩
        (some (.mk ⟨⟨"src/b", 3, "", ""⟩, "F", "", .isPublic, false, false⟩ [] none)),
      .functionDef ⟨"src/b", 4, "", ""⟩
        (some (.mk ⟨⟨"src/b", 4, "", ""⟩, "g", "", .isPublic, false, false⟩ [] none))]
  functions := []

/-- A function that is declared twice, in other letters: the keys that are reported are the same in
both orders, and so is the declaration of the other function. -/
theorem redeclaration_in_either_order :
    [declaringProgram, redeclaringProgram].flatMap echoSession.declarations =
      [⟨.ofFunction "f", ⟨"src/a", 2, "", ""⟩⟩, ⟨.ofFunction "F", ⟨"src/b", 3, "", ""⟩⟩,
        ⟨.ofFunction "g", ⟨"src/b", 4, "", ""⟩⟩] ∧
    (∀ k, (∃ d ∈ (analyzePrograms echoConfig [declaringProgram, redeclaringProgram]).result.unused,
        Text.fold d.name = k) ↔
      ∃ d ∈ (analyzePrograms echoConfig [redeclaringProgram, declaringProgram]).result.unused,
        Text.fold d.name = k) ∧
    (⟨.ofFunction "g", ⟨"src/b", 4, "", ""⟩⟩ ∈
        (analyzePrograms echoConfig [declaringProgram, redeclaringProgram]).result.unused ↔
      ⟨.ofFunction "g", ⟨"src/b", 4, "", ""⟩⟩ ∈
        (analyzePrograms echoConfig [redeclaringProgram, declaringProgram]).result.unused) := by
  have covered : ∀ p ∈ [declaringProgram, redeclaringProgram],
      (echoSession.analyze p).2.2 = none := by decide
  obtain ⟨-, -, -, -, keys, only⟩ :=
    reordered_programs_report_alike ofConfig_echoConfig (.swap _ _ []) covered
  exact ⟨by decide +kernel, keys, only _ (by decide +kernel)⟩

end PhpAudit.Session
