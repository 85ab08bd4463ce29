import PhpAudit.Proofs.Walk.Assignments
import PhpAudit.Proofs.Walk.Merging
import PhpAudit.Proofs.Walk.Scopes

/-!
# What shows the value at a sink

A value with a risk at a sink has a witness, and the witness is an expression of the same scope whose
own walk gave it a risk. Many expressions pass on the witness of another (a variable what was
assigned to it, a concatenation what its values show), and some show their own: those carry a risk
themselves, since they give their witness to their own taint.

**The law** (`witnessed`) is the run of one invariant: every variable of a scope, and every taint of
the walk, is shown by an expression that the walk left with a risk. Merging keeps it, and so does
reassignment. An expression that is **harmless** by its form never carries a risk, so it is no
witness of one (`value_of_isHarmless`).
-/

namespace PhpAudit

open PhpAudit.Tree

/-- Every variable of the scope is shown by what is known. -/
def Scope.Shown (known : Expr → Prop) (s : Scope) : Prop :=
  ∀ name t, s.lookup? name = some t → t.Shown known

namespace Walk

variable {m : Mitigations}

/-- An expression that carries no risk, whatever is below it: a literal, a constant, a field of a
class, `$this`, a cast to a scalar, an operation other than `+`, a test, `unset`, `exit`, or a new
object. -/
def isHarmless : Expr → Bool
  | .atom _ (.var _) | .atom _ (.thisField _) => false
  | .atom _ _ => true
  | .unary _ form _ =>
    match form with
    | .variableVariable | .reference | .objectField _ | .thisFieldVariable | .suppress | .clone
    | .inclusion _ _ => false
    | .cast type => scalarTypes.contains type
    | .arrayTail | .classFieldVariable _ | .variableClassField _ | .variableClassConstant _
    | .operator _ | .step _ _ | .instanceOf _ | .unset | .exit _ => true
  | .binary _ (.operator op) _ _ => decide (op ≠ additionOperator)
  | .list _ _ _ => true
  | .call _ c _ =>
    match c with
    | .constructor _ | .create _ | .createVariable _ | .createVirtual => true
    | _ => false
  | _ => false

/-- The form of an expression, of a kind that is known. -/
def Form.isExpr : Form → Bool
  | .absent | .link _ | .targets _ | .simple _ _ | .compound _ _ | .function _ _ _ | .classDef _
  | .body _ | .unknown _ _ => false
  | _ => true

theorem eq_operand_of_isExpr {n : Node} (h : n.form.isExpr = true) :
    n = .operand (some n.self) := by
  cases n with
  | operand x =>
    rcases x with _ | e
    · cases h
    · rfl
  | statement x =>
    rcases x with _ | s
    · cases h
    · cases s with
      | block b => cases b; cases h
      | _ => cases h
  | link l => cases l; cases h
  | targets ts => cases ts; cases h
  | function f => cases f; cases h
  | classDef d => cases d; cases h
  | body b => cases b; cases h

/-! ## Leaving a form -/

section Leave

variable {known : Expr → Prop} {e : Expr} {s : Scope} {ts : List Taint} {t : Taint}

/-- What is known, or the expression itself where the form is one of an expression. -/
def KnownAt (known : Expr → Prop) (f : Form) (e w : Expr) : Prop :=
  known w ∨ f.isExpr = true ∧ w = e

theorem shown_self {f : Form} (isExpr : f.isExpr = true) (risks : RiskSet) :
    (Taint.mk risks (some e)).Shown (KnownAt known f e) :=
  fun _ => ⟨e, rfl, .inr ⟨isExpr, rfl⟩⟩

theorem shown_at {f : Form} (h : t.Shown known) : t.Shown (KnownAt known f e) :=
  h.mono fun _ hw => .inl hw

theorem shown_headD (taints : ∀ u ∈ ts, u.Shown known) :
    (ts.headD (.none none)).Shown known := by
  cases ts with
  | nil => exact Taint.shown_none _
  | cons u us => exact taints u List.mem_cons_self

theorem shown_answer (taints : ∀ u ∈ ts, u.Shown known) {l : Location} {c : Callee}
    (done : (answer m e l c ts s).value = .ok t) :
    (answer m e l c ts s).scope = s ∧ t.Shown (KnownAt known (.call l c) e) := by
  cases c with
  | variableClassMethod x name =>
    cases done
    exact ⟨rfl, (shown_at (shown_headD taints)).merge (shown_self rfl _)⟩
  | create | constructor | createVariable | createVirtual =>
    cases done
    exact ⟨rfl, Taint.shown_none _⟩
  | _ =>
    cases done
    exact ⟨rfl, shown_self rfl _⟩

theorem shown_afterOperand {l : Location} {form : UnaryForm} {x : Option Expr} {u : Taint}
    (given : Bool) (done : (afterOperand e l x u form s).value = .ok t) :
    (afterOperand e l x u form s).scope = s ∧
      t.Shown (KnownAt known (.unary l form given) e) := by
  cases form with
  | cast type =>
    by_cases scalar : scalarTypes.contains type = true
    · simp only [afterOperand, if_pos scalar] at done ⊢
      cases done
      exact ⟨rfl, Taint.shown_none _⟩
    · simp only [afterOperand, if_neg scalar] at done ⊢
      cases done
      exact ⟨rfl, shown_self rfl _⟩
  | exit die =>
    by_cases some : x.isSome = true
    · simp only [afterOperand, if_pos some] at done ⊢
      cases done
      exact ⟨rfl, Taint.shown_none _⟩
    · simp only [afterOperand, if_neg some] at done ⊢
      cases done
      exact ⟨rfl, Taint.shown_none _⟩
  | arrayTail | classFieldVariable _ | variableClassField _ | variableClassConstant _ | operator _
  | step _ _ | instanceOf _ | unset =>
    cases done
    exact ⟨rfl, Taint.shown_none _⟩
  | _ =>
    cases done
    exact ⟨rfl, shown_self rfl _⟩

theorem shown_atom (assigned : s.Shown known) {l : Location} {a : Atom}
    (done : (atom e a s).value = .ok t) :
    (atom e a s).scope = s ∧ t.Shown (KnownAt known (.atom l a) e) := by
  cases a with
  | var name =>
    refine ⟨rfl, ?_⟩
    have value : t = (s.lookup? name).getD (.every (some e)) := (Except.ok.inj done).symm
    cases bound : s.lookup? name with
    | none =>
      rw [value, bound]
      exact shown_self rfl _
    | some u =>
      rw [value, bound]
      exact shown_at (assigned name u bound)
  | thisField name =>
    cases done
    exact ⟨rfl, shown_self rfl _⟩
  | _ =>
    cases done
    exact ⟨rfl, Taint.shown_none _⟩

/-- **Reassignment keeps what is shown**: the old taint of a variable is merged into the new one. -/
theorem shown_assign (assigned : s.Shown known) {u : Taint} (hu : u.Shown known)
    {name : Option Text}
    (done : (assign (name.map fun n => .atom .unknown (.var n)) u s).value = .ok t) :
    (assign (name.map fun n => .atom .unknown (.var n)) u s).scope.Shown known ∧
      t.Shown known := by
  cases name with
  | none =>
    cases done
    exact ⟨assigned, hu⟩
  | some name =>
    have bound (v : Taint) (hv : v.Shown known) : (s.bind name v).Shown known := by
      intro other w held
      rw [Scope.lookup?_bind] at held
      split at held
      · obtain rfl := Option.some.inj held
        exact hv
      · exact assigned other w held
    obtain ⟨v, hv, run⟩ : ∃ v : Taint, v.Shown known ∧
        assign (some (.atom .unknown (.var name))) u s = ⟨[], s.bind name v, .ok v⟩ := by
      cases old : s.lookup? name with
      | none =>
        refine ⟨u, hu, ?_⟩
        simp only [assign, bind_apply, Walk.lookup?, bindVariable, old]
        rfl
      | some before =>
        refine ⟨u.merge before, hu.merge (assigned name before old), ?_⟩
        simp only [assign, bind_apply, Walk.lookup?, bindVariable, old]
        rfl
    rw [Option.map_some, run] at done ⊢
    obtain rfl := Except.ok.inj done
    exact ⟨bound v hv, hv⟩

theorem shown_afterOperands {a b : Taint} (ha : a.Shown known) (hb : b.Shown known)
    (form : BinaryForm) (l : Location) :
    (afterOperands e a b form).Shown (KnownAt known (.binary l form) e) := by
  cases form with
  | operator op =>
    by_cases addition : op = additionOperator
    · simp only [afterOperands, if_pos addition]
      exact shown_at (ha.merge hb)
    · simp only [afterOperands, if_neg addition]
      exact Taint.shown_none _
  | elvis => exact shown_at (ha.merge hb)
  | _ => exact shown_self rfl _

/-- **Leaving a form** keeps the variables shown, and its taint is shown by what was known or, where
the form is one of an expression, by the expression itself. -/
theorem shown_leave (f : Form) (assigned : s.Shown known) (taints : ∀ u ∈ ts, u.Shown known)
    (done : (f.leave m e ts s).value = .ok t) :
    (f.leave m e ts s).scope.Shown known ∧ t.Shown (KnownAt known f e) := by
  have nothing : Taint.Shown (KnownAt known f e) (.none none) := Taint.shown_none _
  cases f with
  | atom l a =>
    obtain ⟨scope, shown⟩ := shown_atom (l := l) assigned done
    exact ⟨scope.symm ▸ assigned, shown⟩
  | unary l form given =>
    obtain ⟨scope, shown⟩ := shown_afterOperand given done
    exact ⟨scope.symm ▸ assigned, shown⟩
  | call l c =>
    obtain ⟨scope, shown⟩ := shown_answer taints done
    exact ⟨scope.symm ▸ assigned, shown⟩
  | assign l byReference name =>
    rcases ts with _ | ⟨u, _ | _⟩
    · cases done
      exact ⟨assigned, nothing⟩
    · obtain ⟨scope, shown⟩ := shown_assign assigned (taints u List.mem_cons_self) done
      exact ⟨scope, shown_at shown⟩
    · cases done
      exact ⟨assigned, nothing⟩
  | binary l form =>
    rcases ts with _ | ⟨a, _ | ⟨b, _ | _⟩⟩ <;> cases done
    on_goal 3 =>
      simp only [List.forall_mem_cons] at taints
      exact ⟨assigned, shown_afterOperands taints.1 taints.2.1 form l⟩
    all_goals exact ⟨assigned, nothing⟩
  | conditional l =>
    rcases ts with _ | ⟨a, _ | ⟨b, _ | ⟨c, _ | _⟩⟩⟩ <;> cases done
    on_goal 4 =>
      simp only [List.forall_mem_cons] at taints
      exact ⟨assigned, shown_at (taints.2.1.merge taints.2.2.1)⟩
    all_goals exact ⟨assigned, nothing⟩
  | append l =>
    rcases ts with _ | ⟨u, us⟩ <;> cases done
    · exact ⟨assigned, nothing⟩
    · obtain ⟨hu, hus⟩ := List.forall_mem_cons.mp taints
      exact ⟨assigned, shown_at (shown_mergeLinks hu hus)⟩
  | assignList l each =>
    cases done
    refine ⟨assigned, shown_at ?_⟩
    rcases List.eq_nil_or_concat ts with rfl | ⟨us, u, rfl⟩
    · exact Taint.shown_none _
    · rw [List.concat_eq_append, List.getLastD_concat]
      exact taints u (by simp)
  | link l =>
    rcases ts with _ | ⟨u, _ | _⟩ <;> cases done
    on_goal 2 => exact ⟨assigned, shown_at (taints t List.mem_cons_self)⟩
    all_goals exact ⟨assigned, nothing⟩
  | simple l form =>
    rcases ts with _ | ⟨u, _ | _⟩ <;> cases form <;> cases done <;> exact ⟨assigned, nothing⟩
  | array l | closure l uses =>
    cases done
    exact ⟨assigned, shown_self rfl _⟩
  | list l form =>
    cases done
    exact ⟨assigned, Taint.shown_none _⟩
  | unknown l tag => cases done
  | _ =>
    cases done
    exact ⟨assigned, nothing⟩

/-- What is offered to a sink is shown by what is known. -/
theorem shown_offered (f : Form) (taints : ∀ u ∈ ts, u.Shown known) :
    (f.offered ts).Shown known := by
  cases f with
  | call l c =>
    exact shown_mergeAll (Taint.shown_none _) fun u hu => taints u (List.mem_of_mem_drop hu)
  | _ => exact shown_headD taints

end Leave

/-! ## The invariant -/

/-- **An expression that steps left with a risk.** -/
def LeftRisky (steps : List Step) (w : Expr) : Prop :=
  ∃ t, .leave (.operand (some w)) t ∈ steps ∧ t.IsRisky

theorem LeftRisky.append {steps : List Step} {w : Expr} (h : LeftRisky steps w)
    (more : List Step) : LeftRisky (steps ++ more) w := by
  obtain ⟨t, left, risky⟩ := h
  exact ⟨t, List.mem_append_left more left, risky⟩

theorem LeftRisky.of_knownAt {before : List Step} {n : Node} {t : Taint} {w : Expr}
    (h : KnownAt (LeftRisky before) n.form n.self w) (risky : t.IsRisky) :
    LeftRisky (before ++ [.leave n t]) w := by
  obtain h | ⟨isExpr, rfl⟩ := h
  · exact h.append _
  · rw [eq_operand_of_isExpr isExpr]
    exact ⟨t, List.mem_append_right _ (List.mem_singleton_self _), risky⟩

/-- **What shows taints is left with a risk**: of the variables, of what is walked, and of what is
reported. -/
def witnesses (m : Mitigations) : Invariant m where
  scope before s := s.Shown (LeftRisky before)
  taint before t := t.Shown (LeftRisky before)
  shown before _ e := ∀ l name t, e = .sink l name t → t.Shown (LeftRisky before)
  nothing _ := Taint.shown_none _
  keeps steps h := h.mono fun _ hw => hw.append steps
  quiet h _ _ name t held := (h name t held).mono fun _ hw => hw.append _
  come n h name t held := by
    refine (h name t ?_).mono fun _ hw => hw.append _
    rwa [Scope.lookup?, assigned_track] at held
  announced _ _ _ _ he l name t same := by
    subst same
    cases place?_of_announced he
  told _ taints he l name t same := by
    subst same
    rw [taint_of_told he]
    exact shown_offered _ taints
  leave {_ _ n _ t} h taints done := by
    obtain ⟨scope, shown⟩ := shown_leave n.form h taints done
    refine ⟨fun name u held => (scope name u held).mono fun _ hw => hw.append _, fun risky => ?_⟩
    obtain ⟨w, witness, known⟩ := shown risky
    exact ⟨w, witness, .of_knownAt known risky⟩

/-- **A value with a risk at a sink** is shown by an expression that the trace of its scope left with
a risk before. -/
theorem witnessed {m : Mitigations} {b : Block} {before after : List Step} {n : Node} {l : Location}
    {name : Text} {t : Taint} (split : traceOf m b = before ++ .report n (.sink l name t) :: after)
    (risky : t.IsRisky) : ∃ w, t.witness = some w ∧ LeftRisky before w := by
  have start : (witnesses m).scope [] .start := fun name t held => by cases held
  have shown := ((witnesses m).run [.ofStatement (.block b)] start).reported before n _ after split
  exact shown l name t rfl risky

/-! ## Harmless expressions -/

/-- **A harmless expression carries no risk.** -/
theorem value_of_isHarmless {e : Expr} (harmless : isHarmless e = true) {s : Scope} {t : Taint}
    (done : (expr m e s).value = .ok t) : ¬ t.IsRisky := by
  have none (witness : Option Expr) : ¬ (Taint.none witness).IsRisky := fun risky => by cases risky
  obtain ⟨ts, -, left⟩ := (walk_eq_ok_iff (n := .operand (some e)) fun _ h => by cases h).mp done
  generalize (visit m _ _).scope = s' at left
  cases e with
  | atom l a =>
    cases a with
    | var | thisField => cases harmless
    | _ =>
      cases left
      exact none _
  | unary l form x =>
    have left : (afterOperand (.unary l form x) l x (ts.headD (.none Option.none)) form s').value =
        .ok t := left
    cases form with
    | cast type =>
      have scalar : scalarTypes.contains type = true := harmless
      simp only [afterOperand, if_pos scalar] at left
      cases left
      exact none _
    | exit die =>
      by_cases given : x.isSome = true
      · simp only [afterOperand, if_pos given] at left
        cases left
        exact none _
      · simp only [afterOperand, if_neg given] at left
        cases left
        exact none _
    | variableVariable | reference | objectField | thisFieldVariable | suppress | clone
    | inclusion => cases harmless
    | _ =>
      cases left
      exact none _
  | binary l form a b =>
    cases form with
    | operator op =>
      have other : op ≠ additionOperator := of_decide_eq_true harmless
      rcases ts with _ | ⟨a, _ | ⟨b, _ | _⟩⟩
      on_goal 3 =>
        simp only [Node.form, Form.ofExpr, Form.leave, afterOperands, if_neg other] at left
      all_goals
        cases left
        exact none _
    | _ => cases harmless
  | list l form ms =>
    cases left
    exact none _
  | call l c as =>
    cases c with
    | constructor | create | createVariable | createVirtual =>
      cases left
      exact none _
    | _ => cases harmless
  | _ => cases harmless

end Walk

end PhpAudit
