import PhpAudit.Analysis.Run
import PhpAudit.Proofs.Walk.Runs

/-!
# What a session collects

A session takes in events one after the other; what it holds in the end is what it held before and
what the events give: findings, include sites, and the notes of the ledger (`absorbAll_eq`). A walk
does not see the session, so a run over programs is a list of events and the error that ended it
(`Walk.programs`), and its result is what those events give (`result_eq`, `failure_eq`).
-/

namespace PhpAudit

open PhpAudit.Tree (Program Expr)

deriving instance DecidableEq for Catalog

/-- The finding that an event gives, if it gives one. -/
def Policy.finding? (p : Policy) : Event → Option Finding
  | .sink loc name t => (p.judge loc name t).1
  | _ => none

/-- What a policy finds at a sink that it lists: a finding with the risks that are left, if any. -/
theorem Policy.judge_of_dangers {p : Policy} {name : Text} {dangers : RiskSet}
    (listed : p.catalog.dangers? name = some dangers) (loc : Location) (t : Taint) :
    (p.judge loc name t).1 =
      if ((t.risks.inter p.interest).inter dangers).isEmpty then none
      else some ⟨loc, name, (t.risks.inter p.interest).inter dangers, t.witness⟩ := by
  simp only [Policy.judge, listed]
  split <;> rfl

theorem Policy.judge_of_unlisted {p : Policy} {name : Text}
    (unlisted : p.catalog.dangers? name = none) (loc : Location) (t : Taint) :
    (p.judge loc name t).1 = none := by
  simp only [Policy.judge, unlisted]

/-- **The findings that events give**, in order. -/
def Policy.findings (p : Policy) (es : List Event) : List Finding := es.filterMap p.finding?

/-- The include site that an event tells of, if it tells of one. -/
def Event.site? : Event → Option IncludeSite
  | .inclusion site => some site
  | _ => none

/-- **The include sites that events tell of**, in order. -/
def includeSites (es : List Event) : List IncludeSite := es.filterMap Event.site?

theorem Policy.findings_append (p : Policy) (es es' : List Event) :
    p.findings (es ++ es') = p.findings es ++ p.findings es' :=
  List.filterMap_append

theorem includeSites_append (es es' : List Event) :
    includeSites (es ++ es') = includeSites es ++ includeSites es' :=
  List.filterMap_append

/-- The ledger after an event. -/
def Ledger.note (l : Ledger) : Event → Ledger
  | .use i => l.use i.text
  | .function head => (l.declareFunction head).1
  | .classDef head => (l.declareClass head).1
  | .sink _ _ _ | .inclusion _ | .remark _ => l

/-- **The unused declarations** among those that events tell of, for declarations below some paths.
-/
def unusedDeclarations (paths : List Text) (es : List Event) : List Declaration :=
  let l := es.foldl Ledger.note (.empty paths)
  if l.isEnabled then l.unused else []

/-- **The events of a run over programs**, up to the first that fails, and the error of that one. -/
def Walk.programs (m : Walk.Mitigations) : List Program → List Event × Option RunError
  | [] => ([], none)
  | p :: ps =>
    match (Walk.program m p).failure with
    | some e => ((Walk.program m p).events, some (.uncovered p.file e))
    | none => ((Walk.program m p).events ++ (programs m ps).1, (programs m ps).2)

namespace Session

/-- The session after events, with what they give. -/
def after (s : Session) (es : List Event) : Session where
  policy := s.policy
  collection :=
    ⟨s.collection.findings ++ s.policy.findings es, s.collection.includes ++ includeSites es⟩
  ledger := es.foldl Ledger.note s.ledger

theorem after_append (s : Session) (es es' : List Event) :
    s.after (es ++ es') = (s.after es).after es' := by
  simp [after, Policy.findings_append, includeSites_append, List.foldl_append]

theorem absorb_eq (s : Session) (e : Event) : (s.absorb e).1 = s.after [e] := by
  simp only [after, Policy.findings, includeSites, List.filterMap_cons, List.filterMap_nil]
  cases e with
  | sink loc name t =>
    cases h : (s.policy.judge loc name t).1 <;>
      simp [absorb, Collection.sink, Policy.finding?, Event.site?, Ledger.note, h]
  | _ => simp [absorb, Collection.inclusion, Policy.finding?, Event.site?, Ledger.note]

/-- **A session that took in events holds what they give.** -/
theorem absorbAll_eq (s : Session) (es : List Event) : (s.absorbAll es).1 = s.after es := by
  induction es generalizing s with
  | nil => simp [absorbAll, after, Policy.findings, includeSites]
  | cons e es ih =>
    calc ((s.absorbAll (e :: es)).1 : Session) = ((s.absorb e).1.absorbAll es).1 := rfl
      _ = (s.after [e]).after es := by rw [ih, absorb_eq]
      _ = s.after (e :: es) := (after_append s [e] es).symm

/-- **A session that analysed a program.** -/
theorem analyze_eq (s : Session) (p : Program) :
    (s.analyze p).1 = s.after (Walk.program s.mitigations p).events :=
  absorbAll_eq s _

/-- **A session that analysed programs**, up to the first that fails. -/
theorem analyzeAll_eq (s : Session) (programs : List Program) :
    (s.analyzeAll programs).1 = s.after (Walk.programs s.mitigations programs).1 ∧
      (s.analyzeAll programs).2.2 = (Walk.programs s.mitigations programs).2 := by
  induction programs generalizing s with
  | nil => simp [analyzeAll, Walk.programs, after, Policy.findings, includeSites]
  | cons p ps ih =>
    have session := analyze_eq s p
    obtain ⟨ih, ihFailure⟩ := ih (s.analyze p).1
    have policy : (s.analyze p).1.mitigations = s.mitigations := by
      rw [session]
      rfl
    rw [policy] at ih ihFailure
    have failure : (Walk.program s.mitigations p).failure = (s.analyze p).2.2 := rfl
    rw [Walk.programs, failure, analyzeAll]
    generalize s.analyze p = analyzed at session ih ihFailure
    obtain ⟨s', ms, failed⟩ := analyzed
    cases failed with
    | some e => exact ⟨session, rfl⟩
    | none =>
      simp only [after_append, ← session]
      exact ⟨ih, ihFailure⟩

/-- A session that was started for a configuration. -/
theorem ofConfig_eq {c : Config} {catalog : Catalog}
    (parsed : Catalog.parse c.dangerous c.mitigating = .ok catalog)
    (interest : c.interest.isEmpty = false) :
    Session.ofConfig c = .ok (.start ⟨catalog, c.interest⟩ c.paths) := by
  rw [Session.ofConfig, parsed, interest]
  rfl

end Session

/-- A catalog is read from two tables, each on its own. -/
theorem Catalog.parse_eq_ok {dangerous mitigating : List (Text × Text)} {catalog : Catalog}
    (parsed : Catalog.parse dangerous mitigating = .ok catalog) :
    Catalog.parseTable dangerous = .ok catalog.dangerous ∧
      Catalog.parseTable mitigating = .ok catalog.mitigating := by
  unfold Catalog.parse at parsed
  split at parsed
  · cases parsed
  · rename_i read
    split at parsed
    · cases parsed
    · rename_i read'
      cases parsed
      exact ⟨read, read'⟩

/-- A success, in a form that can be evaluated. -/
theorem toOption_eq_some_iff {ε α : Type} {x : Except ε α} {a : α} :
    x.toOption = some a ↔ x = .ok a := by
  cases x with
  | error e => simp [Except.toOption]
  | ok b => simp [Except.toOption]

/-- Tables that are read, in a form that can be evaluated. -/
theorem Catalog.parse_eq_of_toOption {dangerous mitigating : List (Text × Text)} {catalog : Catalog}
    (read : (Catalog.parse dangerous mitigating).toOption = some catalog) :
    Catalog.parse dangerous mitigating = .ok catalog :=
  toOption_eq_some_iff.mp read

/-- **The result of a run** is what its events give. -/
theorem analyzePrograms_eq {c : Config} {catalog : Catalog}
    (parsed : Catalog.parse c.dangerous c.mitigating = .ok catalog)
    (interest : c.interest.isEmpty = false) (programs : List Program) :
    let events := (Walk.programs catalog.mitigations programs).1
    (analyzePrograms c programs).result =
      ⟨Policy.findings ⟨catalog, c.interest⟩ events, unusedDeclarations c.paths events,
        includeSites events⟩ ∧
    (analyzePrograms c programs).failure = (Walk.programs catalog.mitigations programs).2 := by
  obtain ⟨session, failure⟩ :=
    Session.analyzeAll_eq (.start ⟨catalog, c.interest⟩ c.paths) programs
  simp only [analyzePrograms, Session.ofConfig_eq parsed interest]
  refine ⟨?_, failure⟩
  rw [session, Session.result, apply_ite Prod.fst]
  have ledger : (Session.after (.start ⟨catalog, c.interest⟩ c.paths)
      (Walk.programs catalog.mitigations programs).1).ledger =
      (Walk.programs catalog.mitigations programs).1.foldl Ledger.note (.empty c.paths) := rfl
  have mitigations : (Session.start ⟨catalog, c.interest⟩ c.paths).mitigations =
      catalog.mitigations := rfl
  rw [mitigations, unusedDeclarations, ledger]
  split <;> rfl

/-! ## Events that are alike -/

section Alike

variable {m m' : Walk.Mitigations} {K : Walk.Comparison m m'} {es es' : List Event}

/-- Events that are alike tell of the same include sites. -/
theorem includeSites_eq_of_alike (h : List.Forall₂ K.Like es es') :
    includeSites es = includeSites es' := by
  induction h with
  | nil => rfl
  | cons like _ ih =>
    unfold includeSites at ih ⊢
    cases like <;> simp only [List.filterMap_cons, Event.site?, ih]

/-- Events that are alike leave the same ledger. -/
theorem foldl_note_eq_of_alike (h : List.Forall₂ K.Like es es') (l : Ledger) :
    es.foldl Ledger.note l = es'.foldl Ledger.note l := by
  induction h generalizing l with
  | nil => rfl
  | @cons e e' es es' like _ ih =>
    have here : l.note e = l.note e' := by cases like <;> rfl
    rw [List.foldl_cons, List.foldl_cons, here, ih]

/-- **Findings that are alike but for what shows them**. -/
structure Finding.Matches (same : Expr → Expr → Prop) (f g : Finding) : Prop where
  loc : f.loc = g.loc
  sink : f.sink = g.sink
  risks : f.risks = g.risks
  witness : Option.Rel same f.witness g.witness

/-- What is found of values that are alike but for what shows them. -/
theorem Policy.judge_matches (p : Policy) (loc : Location) (name : Text)
    {same : Expr → Expr → Prop} {t t' : Taint} (h : Walk.Comparison.Matches same t t') :
    Option.Rel (Finding.Matches same) (p.judge loc name t).1 (p.judge loc name t').1 := by
  cases listed : p.catalog.dangers? name with
  | none =>
    rw [judge_of_unlisted listed, judge_of_unlisted listed]
    exact .none
  | some dangers =>
    rw [judge_of_dangers listed, judge_of_dangers listed, h.risks]
    split
    · exact .none
    · exact .some ⟨rfl, rfl, rfl, h.witness⟩

/-- **The findings of events that are alike**, where taints differ only in what shows them. -/
theorem Policy.findings_matches (p : Policy) {same : Expr → Expr → Prop}
    (exact : ∀ t t', K.taint t t' → Walk.Comparison.Matches same t t')
    (h : List.Forall₂ K.Like es es') :
    List.Forall₂ (Finding.Matches same) (p.findings es) (p.findings es') := by
  induction h with
  | nil => exact .nil
  | cons like _ ih =>
    unfold Policy.findings at ih ⊢
    cases like with
    | @sink l name t t' ht =>
      have found := p.judge_matches l name (exact _ _ ht)
      simp only [List.filterMap_cons, Policy.finding?]
      generalize (p.judge l name t).1 = f at found
      generalize (p.judge l name t').1 = g at found
      cases found with
      | none => exact ih
      | some matched => exact .cons matched ih
    | _ => exact ih

end Alike

/-! ## What a program gives -/

theorem collection_analyze (policy : Policy) (paths : List Text) (p : Program) :
    ((Session.start policy paths).analyze p).1.collection =
      ⟨policy.findings (Walk.program policy.catalog.mitigations p).events,
        includeSites (Walk.program policy.catalog.mitigations p).events⟩ := by
  rw [Session.analyze_eq]
  rfl

/-- The remarks around the course of a program give no finding. -/
theorem findings_program (p : Policy) (m : Walk.Mitigations) (q : Program) :
    p.findings (Walk.program m q).events = p.findings (Walk.course m q).events := by
  rw [Walk.program_eq]
  cases (Walk.course m q).failure <;>
    simp [Walk.aborted, Policy.findings, Policy.finding?, List.filterMap_cons]

/-- The remarks around the course of a program tell of no include site. -/
theorem includeSites_program (m : Walk.Mitigations) (q : Program) :
    includeSites (Walk.program m q).events = includeSites (Walk.course m q).events := by
  rw [Walk.program_eq]
  cases (Walk.course m q).failure <;>
    simp [Walk.aborted, includeSites, Event.site?, List.filterMap_cons]

end PhpAudit
