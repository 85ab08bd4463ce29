import PhpAudit.Proofs.Analysis.Collected
import PhpAudit.Proofs.Tree.Chains
import PhpAudit.Proofs.Walk.Relocation

/-!
# What hangs on how a concatenation is written

A concatenation is read from three forms: flat, linked, and linked with a last value that is written
plainly. The first two are one expression. The third has the same values, so it is printed alike and
names the same file; but its last link is placed where the last value is, and the chain is not taken
note of once more before that value.

**The law** (`concatenation_forms_agree`): the walk of the third form is that of the first, with the
part of the last value moved (`SameButPlace`). Where that value has a location, or the chain has
none, the two walks are the same.
-/

namespace PhpAudit

open PhpAudit.Tree
open Walk

/-! ## Chains of the same values -/

section Values

variable {l l' : Location} {v v' : Option Expr} {ls ls' : List Link}

theorem printLinks_eq_of_values (same : ls.map Link.value = ls'.map Link.value) :
    printLinks ls = printLinks ls' := by
  induction ls generalizing ls' with
  | nil =>
    obtain rfl := List.map_eq_nil_iff.mp same.symm
    rfl
  | cons k ls ih =>
    obtain ⟨k', ls', rfl, value, rest⟩ := List.map_eq_cons_iff.mp same.symm
    obtain ⟨⟨_, w⟩, ⟨_, w'⟩⟩ := k, k'
    obtain rfl : w' = w := value
    rw [printLinks, printLinks, ih rest.symm]

theorem ofLinks_eq_of_values (file : Text) (same : ls.map Link.value = ls'.map Link.value) :
    StaticPath.ofLinks file ls = StaticPath.ofLinks file ls' := by
  induction ls generalizing ls' with
  | nil =>
    obtain rfl := List.map_eq_nil_iff.mp same.symm
    rfl
  | cons k ls ih =>
    obtain ⟨k', ls', rfl, value, rest⟩ := List.map_eq_cons_iff.mp same.symm
    obtain ⟨⟨_, w⟩, ⟨_, w'⟩⟩ := k, k'
    obtain rfl : w' = w := value
    rw [StaticPath.ofLinks, StaticPath.ofLinks, ih rest.symm]

/-- **Chains of the same values are printed alike.** -/
theorem print_eq_of_values (same : (Expr.append l v ls).values = (Expr.append l' v' ls').values) :
    (Expr.append l v ls).print = (Expr.append l' v' ls').print := by
  obtain ⟨rfl, rest⟩ := List.cons.inj same
  rw [Expr.print, Expr.print, printLinks_eq_of_values rest]

/-- **Chains of the same values have the same static path**, in every file. -/
theorem path_eq_of_values (file : Text)
    (same : (Expr.append l v ls).values = (Expr.append l' v' ls').values) :
    StaticPath.ofExpr file (.append l v ls) = StaticPath.ofExpr file (.append l' v' ls') := by
  obtain ⟨rfl, rest⟩ := List.cons.inj same
  rw [StaticPath.ofExpr, StaticPath.ofExpr, ofLinks_eq_of_values file rest]

end Values

/-! ## Findings that are moved -/

/-- **A finding that is moved**: it is the same one, or it is at another location. -/
inductive Finding.Moved (k k' : Location) : Finding → Finding → Prop
  | same (f : Finding) : Moved k k' f f
  | moved (name : Text) (risks : RiskSet) (witness : Option Expr) :
      Moved k k' ⟨k, name, risks, witness⟩ ⟨k', name, risks, witness⟩

section Findings

variable {k k' : Location} (p : Policy)

/-- The place of a value at a sink does not decide whether it is a finding. -/
theorem moved_finding {e e' : Event} (h : e.Moved k k' e') :
    Option.Rel (Finding.Moved k k') (p.finding? e) (p.finding? e') := by
  cases h with
  | same =>
    cases p.finding? e with
    | none => exact .none
    | some f => exact .some (.same f)
  | sink name t =>
    rw [Policy.finding?, Policy.finding?]
    cases listed : p.catalog.dangers? name with
    | none =>
      rw [Policy.judge_of_unlisted listed, Policy.judge_of_unlisted listed]
      exact .none
    | some dangers =>
      rw [Policy.judge_of_dangers listed, Policy.judge_of_dangers listed]
      split
      · exact .none
      · exact .some (.moved _ _ _)
  | inclusion | remark => exact .none

/-- **Findings are moved as events are.** -/
theorem moved_findings {es es' : List Event} (h : List.Forall₂ (Event.Moved k k') es es') :
    List.Forall₂ (Finding.Moved k k') (p.findings es) (p.findings es') :=
  List.rel_filterMap (fun _ _ moved => moved_finding p moved) h

end Findings

/-! ## The walk of a chain -/

/-- An outcome after some events. -/
def Outcome.after {α : Type} (es : List Event) (o : Outcome α) : Outcome α :=
  { o with events := es ++ o.events }

section Chain

variable (m : Mitigations) (l : Location) (v : Option Expr) (ls : List Link) (e : Expr)
  (s : Scope)

/-- The walk through the values of a chain, with the taint of the first and those of the others. -/
def chained : Walk (Taint × List Taint) := do
  track l
  let t ← operand m v
  let ts ← visit m (ls.map .link)
  return (t, ts)

/-- The walk of one more value, with the taint of the chain. -/
def lastOf (ts : Taint × List Taint) : Walk Taint := do
  let u ← expr m e
  return mergeLinks ts.1 (ts.2 ++ [u])

theorem expr_append : expr m (.append l v ls) = (do
    let ts ← chained m l v ls
    return mergeLinks ts.1 ts.2) := by
  simp [expr, chained, links_eq_visit]

theorem expr_append_concat (l' : Location) : expr m (.append l v (ls ++ [.mk l' (some e)])) = (do
    let ts ← chained m l v ls
    track l'
    lastOf m e ts) := by
  simp [expr, chained, lastOf, links_eq_visit, visit_append, Node.walk, operand]

/-- A value takes note of its own location, before anything else. -/
theorem lastOf_track (ts : Taint × List Taint) : lastOf m e ts (s.track e.loc) = lastOf m e ts s := by
  rw [lastOf, bind_apply, bind_apply, expr_track]

theorem moves_lastOf {k k' : Location} (ts : Taint × List Taint) : Moves k k' (lastOf m e ts) :=
  (moves_expr m e).bind fun _ => moves_pure _

/-- Where the chain ended before, it is the scope in which it would go on. -/
theorem scope_expr_append : (expr m (.append l v ls) s).scope = (chained m l v ls s).scope := by
  rw [expr_append, bind_apply]
  cases (chained m l v ls s).value <;> rfl

theorem events_expr_append : (expr m (.append l v ls) s).events = (chained m l v ls s).events := by
  rw [expr_append, bind_apply]
  cases (chained m l v ls s).value with
  | error err => rfl
  | ok ts => exact List.append_nil _

/-- A scope that took note of a location, and the same scope before. -/
theorem moved_track : (s.track l).Moved l s.lastKnown s := by
  refine ⟨(assigned_track s l).symm, ?_⟩
  rw [lastKnown_track, Scope.locate, Location.orElse]
  split
  · exact .same _
  · exact .moved

/-- **The last value decides how far two chains differ**: up to it both walks are that of the chain
before it, and its own walk is moved. -/
theorem expr_last_moved : ∃ o o' : Outcome Taint,
    o.Moved l (expr m (.append l v ls) s).scope.lastKnown o' ∧
      expr m (.append l v (ls ++ [.mk l (some e)])) s = o.after (expr m (.append l v ls) s).events ∧
      expr m (.append l v (ls ++ [.mk e.loc (some e)])) s =
        o'.after (expr m (.append l v ls) s).events := by
  rw [scope_expr_append, events_expr_append, expr_append_concat, expr_append_concat, bind_apply,
    bind_apply]
  generalize chained m l v ls s = b
  obtain ⟨es, s₁, value⟩ := b
  cases value with
  | error err =>
    refine ⟨⟨[], s₁, .error err⟩, ⟨[], s₁, .error err⟩, .refl _ _ _, ?_, ?_⟩
    all_goals rw [Outcome.after, List.append_nil]
  | ok ts =>
    refine ⟨lastOf m e ts (s₁.track l), lastOf m e ts s₁,
      moves_lastOf m e ts _ _ (moved_track l s₁), rfl, ?_⟩
    rw [← lastOf_track m e s₁ ts]
    rfl

/-- **Where the last value has a location, or the chain has none**, the walks are the same. -/
theorem expr_last_eq (h : l.isUnknown = true ∨ e.loc.isUnknown = false) :
    expr m (.append l v (ls ++ [.mk l (some e)])) s =
      expr m (.append l v (ls ++ [.mk e.loc (some e)])) s := by
  have same (ts : Taint × List Taint) (s₁ : Scope) :
      lastOf m e ts (s₁.track l) = lastOf m e ts (s₁.track e.loc) := by
    obtain unknown | known := h
    · rw [lastOf_track, Scope.track, if_pos unknown]
    · rw [← lastOf_track m e (s₁.track l)]
      congr 1
      simp only [Scope.track, known, Bool.false_eq_true, if_false]
      split <;> rfl
  rw [expr_append_concat, expr_append_concat, bind_apply, bind_apply]
  cases (chained m l v ls s).value with
  | error err => rfl
  | ok ts =>
    have rest := same ts (chained m l v ls s).scope
    simp only [bind_apply, Walk.track, List.nil_append, rest]

end Chain

/-! ## The law -/

/-- **Two chains that differ in the place of their last value**: after the values of `before` comes
the value `last`, in the first chain at the place of the chain, in the second at its own. -/
structure SameButPlace (before last x y : Expr) : Prop where
  values : x.values = before.values ++ [some last]
  values_eq : y.values = x.values
  print_eq : y.print = x.print
  path_eq (file : Text) : StaticPath.ofExpr file y = StaticPath.ofExpr file x
  /-- The walks are the same unless the chain is placed and the last value is not. -/
  walk_eq (m : Mitigations) (s : Scope) : x.loc.isUnknown = true ∨ last.loc.isUnknown = false →
    expr m y s = expr m x s
  /-- In any case the same is found, and what is found at the place of the chain by the walk of the
  last value is found at the last known location before that value. -/
  moved (m : Mitigations) (s : Scope) : ∃ o o' : Outcome Taint,
    o.Moved x.loc (expr m before s).scope.lastKnown o' ∧
      expr m x s = o.after (expr m before s).events ∧
      expr m y s = o'.after (expr m before s).events
  findings (p : Policy) (m : Mitigations) (s : Scope) :
    List.Forall₂ (Finding.Moved x.loc (expr m before s).scope.lastKnown)
      (p.findings (expr m x s).events) (p.findings (expr m y s).events)

theorem Outcome.Moved.events {α : Type} {k k' : Location} {o o' : Outcome α}
    (h : o.Moved k k' o') : List.Forall₂ (Event.Moved k k') o.events o'.events := by
  cases h with
  | done _ events _ => exact events
  | stopped _ events _ _ => exact events

theorem sameButPlace (l : Location) (v : Option Expr) (ls : List Link) (e : Expr) :
    SameButPlace (.append l v ls) e (.append l v (ls ++ [.mk l (some e)]))
      (.append l v (ls ++ [.mk e.loc (some e)])) := by
  have values : (Expr.append l v (ls ++ [.mk e.loc (some e)])).values =
      (Expr.append l v (ls ++ [.mk l (some e)])).values := by
    simp only [Expr.values, List.map_append, List.map_cons, List.map_nil, Link.value]
  refine ⟨?_, values, print_eq_of_values values, fun file => path_eq_of_values file values,
    fun m s h => (expr_last_eq m l v ls e s h).symm, fun m s => expr_last_moved m l v ls e s,
    fun p m s => ?_⟩
  · simp only [Expr.values, List.map_append, List.map_cons, List.map_nil, Link.value,
      List.cons_append]
  · obtain ⟨o, o', moved, first, second⟩ := expr_last_moved m l v ls e s
    rw [first, second]
    exact moved_findings p (List.rel_append (moved_events_refl _ _ _) moved.events)

/-- **The forms of a concatenation**: the flat and the linked form of the same parts are read alike.
Where the last part is written plainly, it has the same faults; and the expressions that are read are
the same but for the place of the last value. -/
theorem concatenation_forms_agree {own : List (Yaml.Node × Yaml.Node)} (places : PlacesOnly own)
    (ctx : Context) (line : Nat) (p : Nat × Yaml.Node) (ps : List (Nat × Yaml.Node)) :
    readExpr ctx (flatForm own line (p.2 :: ps.map (·.2))) =
        readExpr ctx (linkedForm own none p ps) ∧
      ∀ q, IsPlain ctx q →
        (∃ fault, readExpr ctx (flatForm own line (p.2 :: (ps.map (·.2) ++ [q]))) = .error fault ∧
          readExpr ctx (linkedForm own (some q) p ps) = .error fault) ∨
        ∃ before last x y,
          readExpr ctx (flatForm own line (p.2 :: ps.map (·.2))) = .ok (some before) ∧
          readExpr ctx q = .ok (some last) ∧
          readExpr ctx (flatForm own line (p.2 :: (ps.map (·.2) ++ [q]))) = .ok (some x) ∧
          readExpr ctx (linkedForm own (some q) p ps) = .ok (some y) ∧
          SameButPlace before last x y := by
  refine ⟨read_flat_eq_read_linked places ctx line p ps, fun q plain => ?_⟩
  obtain fault | ⟨l, v, ls, e, before, last, flat, linked⟩ :=
    read_plain places ctx line plain p ps
  · exact .inl fault
  · exact .inr ⟨_, e, _, _, before, last, flat, linked, sameButPlace l v ls e⟩

/-! ## A chain that ends with a call -/

/-- No document around, in a file. -/
def bareContext : Context where
  document := ⟨wordNode 0 "", []⟩
  file := "a.php"
  className := ""
  function := ""

/-- A line of a document that names a line of the sources. -/
def lineEntry (line : Nat) (named : String) : Yaml.Node × Yaml.Node :=
  (wordNode line "line", .scalar line Yaml.Tag.int named)

/-- A literal on the third line of the sources. -/
def placedLiteral : Yaml.Node :=
  .mapping 1 Yaml.Tag.map [(wordNode 1 "kind", wordNode 1 "literal_string"), lineEntry 1 "3",
    (wordNode 1 "value", wordNode 1 "a")]

/-- `print($x)`, without a location. -/
def printCall : Yaml.Node :=
  .mapping 2 Yaml.Tag.map [(wordNode 2 "kind", wordNode 2 "call"),
    (wordNode 2 "name", wordNode 2 "print"),
    (wordNode 2 "args", .sequence 2 Yaml.Tag.seq [.mapping 2 Yaml.Tag.map
      [(wordNode 2 "kind", wordNode 2 "var"), (wordNode 2 "name", wordNode 2 "x")]])]

/-- A catalog in which `print` is a sink for scripts. -/
def printPolicy : Policy where
  catalog := ⟨[("print", ⟨8⟩)], []⟩
  interest := .all

/-- Where an expression that was read has findings. -/
def foundAt (r : Reads (Option Expr)) : Option (List Location) :=
  (r.toOption.bind id).map fun x =>
    (printPolicy.findings (expr printPolicy.catalog.mitigations x .start).events).map Finding.loc

theorem exists_of_foundAt {r : Reads (Option Expr)} {ls : List Location}
    (found : foundAt r = some ls) : ∃ x, r = .ok (some x) ∧
      (printPolicy.findings (expr printPolicy.catalog.mitigations x .start).events).map
        Finding.loc = ls := by
  cases r with
  | error e => cases found
  | ok x =>
    cases x with
    | none => cases found
    | some x => exact ⟨x, rfl, Option.some.inj found⟩

theorem foundAt_flat : foundAt (readExpr bareContext
    (flatForm [lineEntry 1 "1"] 1 [placedLiteral, printCall])) = some [⟨"a.php", 1, "", ""⟩] := by
  decide +kernel

theorem foundAt_linked : foundAt (readExpr bareContext
    (linkedForm [lineEntry 1 "1"] (some printCall) (1, placedLiteral) [])) =
      some [⟨"a.php", 3, "", ""⟩] := by
  decide +kernel

theorem placesOnly_lineEntry (line : Nat) (named : String) :
    PlacesOnly [lineEntry line named] :=
  List.forall_mem_singleton.mpr List.mem_cons_self

theorem isPlain_printCall : IsPlain bareContext printCall := ⟨rfl, by decide +kernel⟩

/-- A literal and a call, in three forms. -/
theorem print_forms_agree : PlacesOnly [lineEntry 1 "1"] ∧ IsPlain bareContext printCall ∧
    ∃ before last x y,
      readExpr bareContext (flatForm [lineEntry 1 "1"] 1 [placedLiteral]) = .ok (some before) ∧
      readExpr bareContext printCall = .ok (some last) ∧
      readExpr bareContext (flatForm [lineEntry 1 "1"] 1 [placedLiteral, printCall]) =
        .ok (some x) ∧
      readExpr bareContext (linkedForm [lineEntry 1 "1"] (some printCall) (1, placedLiteral) []) =
        .ok (some y) ∧
      SameButPlace before last x y := by
  refine ⟨placesOnly_lineEntry 1 "1", isPlain_printCall, ?_⟩
  obtain ⟨fault, flat, -⟩ | agree := (concatenation_forms_agree (placesOnly_lineEntry 1 "1")
    bareContext 1 (1, placedLiteral) []).2 printCall isPlain_printCall
  · obtain ⟨x, accepted, -⟩ := exists_of_foundAt foundAt_flat
    exact absurd (accepted.symm.trans flat) (by simp)
  · exact agree

/-- **A last value that is written plainly may be found elsewhere**: the call has no location, so it
is found at the chain in the flat form, and at the literal in the other. -/
theorem plain_last_value_is_found_elsewhere :
    ¬ ∀ (own : List (Yaml.Node × Yaml.Node)) (ctx : Context) (line : Nat) (p : Nat × Yaml.Node)
      (ps : List (Nat × Yaml.Node)) (q : Yaml.Node) (x y : Expr), PlacesOnly own → IsPlain ctx q →
      readExpr ctx (flatForm own line (p.2 :: (ps.map (·.2) ++ [q]))) = .ok (some x) →
      readExpr ctx (linkedForm own (some q) p ps) = .ok (some y) → ∀ (policy : Policy) (s : Scope),
        policy.findings (expr policy.catalog.mitigations x s).events =
          policy.findings (expr policy.catalog.mitigations y s).events := by
  intro claim
  obtain ⟨x, flat, first⟩ := exists_of_foundAt foundAt_flat
  obtain ⟨y, linked, second⟩ := exists_of_foundAt foundAt_linked
  have same := claim [lineEntry 1 "1"] bareContext 1 (1, placedLiteral) [] printCall x y
    (placesOnly_lineEntry 1 "1") isPlain_printCall flat linked printPolicy .start
  rw [same, second] at first
  exact absurd first (by decide)

end PhpAudit
