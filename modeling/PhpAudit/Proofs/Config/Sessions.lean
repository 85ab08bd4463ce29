import PhpAudit.Analysis.Run
import PhpAudit.Command.Options
import PhpAudit.Proofs.Analysis.Collected
import PhpAudit.Proofs.Config.RiskNames

/-!
# Sessions of accepted configurations

Names of risks are read at three times: the tables and the ignored risks when a configuration is read, the
values of a flag when it is set, and all of them again when a session is started. There the catalog is read
once more, and an ignored name that is no risk would be passed over without a word.

**The laws.** All three accept the same names, those that name a risk. A configuration that is read has
tables that can be read, and ignores risks only (`Config.isChecked_of_parse`); the values of the flag add
risks only (`Config.foldlM_addRisk_eq_ok`). A configuration of this kind has no session exactly when it
ignores every risk, and its session follows it otherwise (`Session.ofConfig_of_isChecked`).
-/

namespace PhpAudit

open Command (Flag Options)

namespace Config

variable {c c' : Config} {source text : Text}

/-- **The names in a configuration can be read**: those in its tables, and those that it ignores. -/
structure IsChecked (c : Config) : Prop where
  dangerous : ∃ read, Catalog.parseTable c.dangerous = .ok read
  mitigating : ∃ read, Catalog.parseTable c.mitigating = .ok read
  ignored : ∀ name ∈ c.ignored, ∃ r : Risk, r.IsNamedBy name

/-! ## Checks -/

theorem checkTable_eq_ok_iff {name : Text} {table : MethodTable} :
    checkTable name table = .ok () ↔ ∃ read, Catalog.parseTable table = .ok read := by
  unfold checkTable
  cases Catalog.parseTable table with
  | error e => simp
  | ok read => simp

/-- Ignored names are accepted when each names a risk. -/
theorem checkIgnored_eq_ok_iff {names : List Text} :
    checkIgnored names = .ok () ↔ ∀ name ∈ names, ∃ r : Risk, r.IsNamedBy name := by
  simp only [← Risk.parse?_eq_ok_iff]
  induction names with
  | nil => exact iff_of_true rfl (List.forall_mem_nil _)
  | cons name names ih =>
    rw [List.forall_mem_cons, ← ih, checkIgnored, List.forM_eq_forM, List.forM_cons]
    cases Risk.parse? name with
    | error e => simp [bind, Except.bind]
    | ok r => exact (and_iff_right ⟨r, rfl⟩).symm

/-- A check comes first: what follows is done when it passes. -/
theorem passed_of_then {ε α : Type} {check : Except ε Unit} {next : Except ε α} {a : α}
    (h : (do check; next) = .ok a) : check = .ok () ∧ next = .ok a := by
  cases check with
  | error e => cases h
  | ok u => exact ⟨rfl, h⟩

/-- The checks of the names come last. -/
theorem isChecked_of_last {dangerous mitigating : MethodTable} {ignored : List Text} (h : (do
      checkTable "dangerous-methods" dangerous
      checkTable "mitigating-methods" mitigating
      checkIgnored ignored
      return c') = .ok c)
    (hd : c'.dangerous = dangerous) (hm : c'.mitigating = mitigating) (hi : c'.ignored = ignored) :
    c.IsChecked := by
  obtain ⟨first, h⟩ := passed_of_then h
  obtain ⟨second, h⟩ := passed_of_then h
  obtain ⟨third, h⟩ := passed_of_then h
  obtain rfl := Except.ok.inj h
  subst hd hm hi
  exact ⟨checkTable_eq_ok_iff.mp first, checkTable_eq_ok_iff.mp second,
    checkIgnored_eq_ok_iff.mp third⟩

/-- A draft that is accepted is checked. -/
theorem isChecked_of_ofDraft {d : Draft} (h : ofDraft source d = .ok c) : c.IsChecked := by
  unfold ofDraft at h
  -- with the defaults out of the way, the cases are those of the checks
  generalize (if d.logLevel = 0 then defaultLogLevel else d.logLevel) = level at h
  generalize (if d.filePattern = "" then defaultPattern else d.filePattern) = filePattern at h
  dsimp only at h
  split at h
  · cases h
  split at h
  · rw [pure_bind] at h
    split at h
    · exact isChecked_of_last h rfl rfl rfl
    · split at h
      · exact isChecked_of_last h rfl rfl rfl
      · cases h
  · cases h

/-- **A configuration that is read is checked.** -/
theorem isChecked_of_parse (h : parse source text = .ok c) : c.IsChecked := by
  unfold parse at h
  split at h
  · cases h
  · exact isChecked_of_ofDraft h
  · split at h
    · cases h
    · exact isChecked_of_ofDraft h

/-- The built-in catalog can be read. -/
theorem builtIn_lists : ∀ e ∈ BuiltIn.dangerous ++ BuiltIn.mitigating,
    ∃ s, RiskSet.parseList? e.2 = .ok s := by
  have read : ∀ e ∈ BuiltIn.dangerous ++ BuiltIn.mitigating,
      (RiskSet.parseList? e.2).toOption.isSome = true := by
    decide +kernel
  intro e he
  obtain ⟨s, own⟩ := Option.isSome_iff_exists.mp (read e he)
  exact ⟨s, toOption_eq_some_iff.mp own⟩

/-- The default configuration is checked. -/
theorem isChecked_default : IsChecked .default := by
  obtain ⟨dangerous, mitigating⟩ := List.forall_mem_append.mp builtIn_lists
  exact ⟨Catalog.exists_parseTable dangerous, Catalog.exists_parseTable mitigating,
    List.forall_mem_nil _⟩

/-! ## Flags -/

/-- **The values of the flag** are kept as they are given, and each names a risk. -/
theorem foldlM_addRisk_eq_ok {names values all : List Text}
    (given : values.foldlM Flag.addRisk names = .ok all) :
    all = names ++ values ∧ ∀ value ∈ values, ∃ r : Risk, r.IsNamedBy value := by
  induction values generalizing names with
  | nil =>
    obtain rfl := Except.ok.inj given
    exact ⟨(List.append_nil _).symm, List.forall_mem_nil _⟩
  | cons value values ih =>
    rw [List.foldlM_cons, Flag.addRisk] at given
    cases read : Risk.parse? value with
    | error e =>
      rw [read] at given
      cases given
    | ok r =>
      rw [read] at given
      obtain ⟨rfl, others⟩ := ih given
      exact ⟨List.append_assoc _ _ _,
        List.forall_mem_cons.mpr ⟨⟨r, Risk.parse?_eq_ok_iff.mp read⟩, others⟩⟩

/-- The options of a tool leave the tables as they are, and add to what is ignored. -/
theorem exists_adjust {o : Options} (known : o.format = "" ∨ ∃ f : ReportFormat, o.format = f.name)
    (c : Config) : ∃ c', o.adjust c = .ok c' ∧ c'.ignored = c.ignored ++ o.ignored ∧
      c'.dangerous = c.dangerous ∧ c'.mitigating = c.mitigating := by
  unfold Options.adjust
  obtain unset | ⟨f, set⟩ := known
  · exact ⟨_, if_pos unset, rfl, rfl, rfl⟩
  · have found : ReportFormat.named.lookup o.format = some f := by
      rw [set]
      cases f <;> decide
    have given : o.format ≠ "" := by
      rw [set]
      cases f <;> decide
    simp only [if_neg given, found]
    exact ⟨_, rfl, rfl, rfl, rfl⟩

/-! ## The risks of interest -/

/-- The risks of interest are the named ones that are not ignored. -/
theorem contains_interest {r : Risk} : c.interest.contains r = true ↔
    (∃ name, (r, name) ∈ Risk.named) ∧ ¬ r.IsNamedAmong c.ignored := by
  have ignored (r : Risk) : r ∈ c.ignored.filterMap (fun name => (Risk.parse? name).toOption) ↔
      r.IsNamedAmong c.ignored := by
    simp only [List.mem_filterMap, toOption_eq_some_iff, Risk.parse?_eq_ok_iff, Risk.IsNamedAmong]
  have small : ∀ r ∈ c.ignored.filterMap (fun name => (Risk.parse? name).toOption),
      r.code.toNat < 8 := by
    intro r hr
    obtain ⟨name, -, named⟩ := (ignored r).mp hr
    exact named.code_lt
  rw [interest, RiskSet.contains_diff, Bool.and_eq_true, Bool.not_eq_true', RiskSet.contains_all,
    ← Bool.not_eq_true, RiskSet.contains_ofList small, ignored]

/-- **No risk is of interest** exactly when every risk is ignored. -/
theorem isEmpty_interest_iff :
    c.interest.isEmpty = true ↔ ∀ e ∈ Risk.named, e.1.IsNamedAmong c.ignored := by
  rw [← not_iff_not, Bool.not_eq_true, RiskSet.isEmpty_eq_false_iff]
  simp only [contains_interest, not_forall]
  exact ⟨fun ⟨r, ⟨name, listed⟩, out⟩ => ⟨(r, name), listed, out⟩,
    fun ⟨e, listed, out⟩ => ⟨e.1, ⟨e.2, listed⟩, out⟩⟩

end Config

namespace Session

variable {c : Config}

/-- **A session follows a configuration** in which some names are ignored. -/
structure Follows (s : Session) (c : Config) (ignored : List Text) : Prop where
  /-- The risks of interest are the named ones that are not ignored. -/
  interest : ∀ r, s.policy.interest.contains r = true ↔
    (∃ name, (r, name) ∈ Risk.named) ∧ ¬ r.IsNamedAmong ignored
  /-- A sink is sensitive to the risks of its list; what has no list has no entry. -/
  dangers : ∀ name, Option.Rel RiskSet.IsOf (c.dangerous.lookup name)
    (s.policy.catalog.dangers? name)
  /-- A function removes the risks of its list; what has no list has no entry. -/
  mitigations : ∀ name, Option.Rel RiskSet.IsOf (c.mitigating.lookup name)
    (s.policy.catalog.mitigations? name)

/-- **A checked configuration has a session that follows it**, unless it ignores every risk. -/
theorem ofConfig_of_isChecked (checked : c.IsChecked) :
    (ofConfig c = .error .noRisks ∧ ∀ e ∈ Risk.named, e.1.IsNamedAmong c.ignored) ∨
      ∃ s, ofConfig c = .ok s ∧ s.Follows c c.ignored ∧
        ¬ ∀ e ∈ Risk.named, e.1.IsNamedAmong c.ignored := by
  obtain ⟨d, dangerous⟩ := checked.dangerous
  obtain ⟨m, mitigating⟩ := checked.mitigating
  have parsed : Catalog.parse c.dangerous c.mitigating = .ok ⟨d, m⟩ := by
    rw [Catalog.parse, dangerous, mitigating]
  rw [← Config.isEmpty_interest_iff]
  cases none : c.interest.isEmpty with
  | true => exact .inl ⟨by rw [ofConfig, none, if_pos rfl], rfl⟩
  | false =>
    exact .inr ⟨_, ofConfig_eq parsed none, ⟨fun r => Config.contains_interest,
      Catalog.lookup_parseTable dangerous, Catalog.lookup_parseTable mitigating⟩,
      Bool.false_ne_true⟩

end Session

namespace Config

/-- **Accepted configurations start.** Take a configuration that was read, or the default one, and values of
the flag that were accepted one by one. The configuration with these is made, and nothing that it ignores
is passed over. It has no session exactly when all risks are named in the one or the other; the error is then
that there is no risk. The session otherwise follows the configuration: it reports the risks that are not
named, and knows each name of a table by the risks of its list, and no other name. -/
theorem accepted_configuration_starts {c : Config} {o : Options} {values : List Text}
    (accepted : c = .default ∨ ∃ source text, parse source text = .ok c)
    (given : values.foldlM Flag.addRisk [] = .ok o.ignored)
    (known : o.format = "" ∨ ∃ f : ReportFormat, o.format = f.name) :
    ∃ c', o.adjust c = .ok c' ∧
      (∀ name ∈ c.ignored ++ values, ∃ r : Risk, r.IsNamedBy name) ∧
      ((∃ e, Session.ofConfig c' = .error e) ↔
        ∀ e ∈ Risk.named, e.1.IsNamedAmong (c.ignored ++ values)) ∧
      (∀ e, Session.ofConfig c' = .error e → e = .noRisks) ∧
      ∀ s, Session.ofConfig c' = .ok s → s.Follows c (c.ignored ++ values) := by
  have checked : c.IsChecked := by
    obtain rfl | ⟨source, text, read⟩ := accepted
    · exact isChecked_default
    · exact isChecked_of_parse read
  obtain ⟨kept, valid⟩ := foldlM_addRisk_eq_ok given
  rw [List.nil_append] at kept
  obtain ⟨c', adjusted, ignored, dangerous, mitigating⟩ := exists_adjust known c
  rw [kept] at ignored
  have checked' : c'.IsChecked :=
    ⟨dangerous ▸ checked.dangerous, mitigating ▸ checked.mitigating,
      ignored ▸ List.forall_mem_append.mpr ⟨checked.ignored, valid⟩⟩
  refine ⟨c', adjusted, ignored ▸ checked'.ignored, ?_⟩
  rw [← ignored]
  obtain ⟨refused, all⟩ | ⟨s, started, follows, some⟩ := Session.ofConfig_of_isChecked checked'
  · rw [refused]
    refine ⟨iff_of_true ⟨_, rfl⟩ all, fun e h => (Except.error.inj h).symm, fun s h => ?_⟩
    cases h
  · rw [started]
    refine ⟨iff_of_false (fun ⟨e, h⟩ => ?_) some, fun e h => ?_, fun s' h => ?_⟩
    · cases h
    · cases h
    · obtain rfl := Except.ok.inj h
      exact ⟨follows.interest, dangerous ▸ follows.dangers, mitigating ▸ follows.mitigations⟩

/-- Options that ignore two risks, the one spelled with a long s between blanks. -/
def ignoringOptions : Options := { ignored := [" x\u017fs\t", "Sql_Injection"] }

/-- With a text that leaves everything out and two risks ignored, a session starts. -/
theorem commented_configuration_starts : ∃ c c' s, parse "c.yaml" "# the built-in catalog\n" = .ok c ∧
    ignoringOptions.ignored.foldlM Flag.addRisk [] = .ok ignoringOptions.ignored ∧
    ignoringOptions.adjust c = .ok c' ∧ Session.ofConfig c' = .ok s ∧
    s.policy.interest.contains .codeEvaluation = true ∧
    s.policy.interest.contains .crossSiteScripting = false := by
  obtain ⟨c, read, ignored⟩ : ∃ c, parse "c.yaml" "# the built-in catalog\n" = .ok c ∧
      c.ignored = [] := by
    have seen : (parse "c.yaml" "# the built-in catalog\n").toOption.map Config.ignored = some [] := by
      decide +kernel
    obtain ⟨c, read, ignored⟩ := Option.map_eq_some_iff.mp seen
    exact ⟨c, toOption_eq_some_iff.mp read, ignored⟩
  have given : ignoringOptions.ignored.foldlM Flag.addRisk [] = .ok ignoringOptions.ignored := by
    decide +kernel
  obtain ⟨c', adjusted, -, refused, -, follows⟩ :=
    accepted_configuration_starts (.inr ⟨_, _, read⟩) given (.inl rfl)
  have listed : (Risk.codeEvaluation, ("CODE_EVALUATION" : Text)) ∈ Risk.named := by decide
  have left : ¬ Risk.IsNamedAmong .codeEvaluation (c.ignored ++ ignoringOptions.ignored) := by
    rw [ignored]
    decide +kernel
  have out : Risk.IsNamedAmong .crossSiteScripting (c.ignored ++ ignoringOptions.ignored) := by
    rw [ignored]
    decide +kernel
  cases started : Session.ofConfig c' with
  | error e => exact absurd (refused.mp ⟨e, started⟩ _ listed) left
  | ok s =>
    have interest := (follows s started).interest
    exact ⟨c, c', s, read, given, adjusted, started, (interest _).mpr ⟨⟨_, listed⟩, left⟩,
      Bool.eq_false_iff.mpr fun h => ((interest _).mp h).2 out⟩

end Config

end PhpAudit
