import Mathlib.Data.List.Forall2
import PhpAudit.Proofs.Walk.Nodes

/-!
# Comparing two walks

Two walks over trees that correspond are compared step by step: from scopes that are alike they
report events that are alike, and end in scopes that are alike. What "alike" means is the choice of
a **comparison**: which expressions are taken for the same, which taints are alike, which events may
be cut out of the first walk, and whether the second walk may go on where the first is stopped.

**The law** (`Variants.agrees`): walks through nodes that differ only in what a comparison was told
of agree. It is proved over the form of a node and its children, so no constructor of the tree comes
up in it but in what is done at a node.
-/

namespace PhpAudit.Walk

open PhpAudit.Tree

/-- **How two walks are compared**, the first with mitigations `m`, the second with `m'`. -/
structure Comparison (m m' : Mitigations) where
  /-- Expressions that are taken for the same when they show a taint. -/
  same : Expr → Expr → Prop
  /-- Taints that are alike. -/
  taint : Taint → Taint → Prop
  /-- The events that may be missing in the second walk. -/
  cut : List Event
  /-- The second walk may go on where the first is stopped. -/
  goesOn : Prop
  taint_absent : taint (.none none) (.none none)
  taint_none : ∀ {e e'}, same e e' → taint (.none (some e)) (.none (some e'))
  taint_every : ∀ {e e'}, same e e' → taint (.every (some e)) (.every (some e'))
  taint_called : ∀ {e e'}, same e e' → ∀ name, taint (called m e name) (called m' e' name)
  taint_merge : ∀ {t t' u u'}, taint t t' → taint u u' → taint (t.merge u) (t'.merge u')
  taint_shownBy : ∀ {e e' t t'}, same e e' → taint t t' → taint (t.shownBy e) (t'.shownBy e')
  isSome_operand : ∀ {e e'}, same e e' → (operand? e).isSome = (operand? e').isSome
  path_operand : ∀ {e e'}, same e e' →
    ∀ file, StaticPath.ofOperand file (operand? e) = StaticPath.ofOperand file (operand? e')

namespace Comparison

variable {m m' : Mitigations} (K : Comparison m m')

/-- **Events that are alike**: the same, but for the taint of a value at a sink. -/
inductive Like : Event → Event → Prop
  | sink (l : Location) (name : Text) {t t' : Taint} :
      K.taint t t' → Like (.sink l name t) (.sink l name t')
  | inclusion (site : IncludeSite) : Like (.inclusion site) (.inclusion site)
  | use (i : Identity) : Like (.use i) (.use i)
  | function (head : FunctionHead) : Like (.function head) (.function head)
  | classDef (head : ClassHead) : Like (.classDef head) (.classDef head)
  | remark (message : Message) : Like (.remark message) (.remark message)

/-- **Events from which `n` blocks were cut out**, and those that are left. -/
inductive Spliced : Nat → List Event → List Event → Prop
  | nil : Spliced 0 [] []
  | keep {n : Nat} {e e' : Event} {es es' : List Event} :
      K.Like e e' → Spliced n es es' → Spliced n (e :: es) (e' :: es')
  | cut {n : Nat} {es es' : List Event} : Spliced n es es' → Spliced (n + 1) (K.cut ++ es) es'

/-- **Scopes that are alike**: the same location, and the same variables with taints that are alike.
-/
structure Alike (s s' : Scope) : Prop where
  lastKnown : s.lastKnown = s'.lastKnown
  assigned : List.Forall₂ (fun v v' => v.1 = v'.1 ∧ K.taint v.2 v'.2) s.assigned s'.assigned

/-- **Outcomes that agree**: both walks are done, or the first is stopped and the second has done as
much. -/
inductive Outcomes {α β : Type} (n : Nat) (V : α → β → Prop) : Outcome α → Outcome β → Prop
  | done {es es' : List Event} {s s' : Scope} {a : α} {a' : β} :
      V a a' → K.Alike s s' → K.Spliced n es es' → Outcomes n V ⟨es, s, .ok a⟩ ⟨es', s', .ok a'⟩
  | stopped {k : Nat} {es before after : List Event} {s s' : Scope} {e : CoverageError}
      {v : Except CoverageError β} :
      K.Spliced k es before → (K.goesOn ∨ after = [] ∧ v = .error e) →
      Outcomes n V ⟨es, s, .error e⟩ ⟨before ++ after, s', v⟩

/-- **Walks that agree**, with `n` blocks cut out of the second. -/
def Agrees {α β : Type} (n : Nat) (V : α → β → Prop) (w : Walk α) (w' : Walk β) : Prop :=
  ∀ s s', K.Alike s s' → K.Outcomes n V (w s) (w' s')

variable {K}

/-! ## Events and scopes -/

theorem Spliced.append {n k : Nat} {es es' fs fs' : List Event} (h : K.Spliced n es es')
    (h' : K.Spliced k fs fs') : K.Spliced (n + k) (es ++ fs) (es' ++ fs') := by
  induction h with
  | nil => simpa using h'
  | keep like _ ih => exact .keep like ih
  | cut _ ih =>
    rw [List.append_assoc, Nat.add_right_comm]
    exact .cut ih

/-- Events from which nothing was cut out. -/
theorem Spliced.of_zero {es es' : List Event} (h : K.Spliced 0 es es') :
    List.Forall₂ K.Like es es' := by
  generalize zero : 0 = n at h
  induction h with
  | nil => exact .nil
  | keep like _ ih => exact .cons like (ih zero)
  | cut _ _ => cases zero

/-- **Events from which one block was cut out**: what is before it, and what is after it, is left.
-/
theorem Spliced.of_one {es es' : List Event} (h : K.Spliced 1 es es') :
    ∃ before after before' after', es = before ++ K.cut ++ after ∧ es' = before' ++ after' ∧
      List.Forall₂ K.Like before before' ∧ List.Forall₂ K.Like after after' := by
  generalize one : 1 = n at h
  induction h with
  | nil => cases one
  | keep like _ ih =>
    obtain ⟨before, after, before', after', rfl, rfl, first, second⟩ := ih one
    exact ⟨_ :: before, after, _ :: before', after', rfl, rfl, .cons like first, second⟩
  | @cut n es es' rest _ =>
    obtain rfl : 0 = n := Nat.succ.inj one
    exact ⟨[], es, [], es', rfl, rfl, .nil, rest.of_zero⟩

theorem Spliced.single {e e' : Event} (h : K.Like e e') : K.Spliced 0 [e] [e'] := .keep h .nil

theorem alike_start : K.Alike .start .start := ⟨rfl, .nil⟩

theorem Alike.lookup? {s s' : Scope} (h : K.Alike s s') (name : Text) :
    Option.Rel K.taint (s.lookup? name) (s'.lookup? name) := by
  have assigned := h.assigned
  rw [Scope.lookup?, Scope.lookup?]
  generalize s.assigned = vs, s'.assigned = vs' at assigned
  induction assigned with
  | nil => exact .none
  | @cons v v' vs vs' hv _ ih =>
    obtain ⟨key, t⟩ := v
    obtain ⟨key', t'⟩ := v'
    obtain ⟨rfl, ht⟩ := hv
    rw [List.lookup_cons, List.lookup_cons]
    cases name == key with
    | true => exact .some ht
    | false => exact ih

theorem Alike.bind {s s' : Scope} (h : K.Alike s s') (name : Text) {t t' : Taint}
    (ht : K.taint t t') : K.Alike (s.bind name t) (s'.bind name t') := by
  refine ⟨h.lastKnown, .cons ⟨rfl, ht⟩ ?_⟩
  have assigned := h.assigned
  generalize s.assigned = vs, s'.assigned = vs' at assigned
  induction assigned with
  | nil => exact .nil
  | @cons v v' vs vs' hv _ ih =>
    simp only [List.filter_cons, hv.1]
    split
    · exact .cons hv ih
    · exact ih

theorem Alike.track {s s' : Scope} (h : K.Alike s s') (l : Location) :
    K.Alike (s.track l) (s'.track l) := by
  unfold Scope.track
  split
  · exact h
  · exact ⟨rfl, h.assigned⟩

theorem Alike.locate {s s' : Scope} (h : K.Alike s s') (l : Location) :
    s.locate l = s'.locate l := by
  rw [Scope.locate, Scope.locate, h.lastKnown]

/-! ## Steps of a walk -/

section Steps

variable {α β γ δ : Type} {n k : Nat} {V : α → β → Prop} {U : γ → δ → Prop}

theorem agrees_pure {a : α} {a' : β} (h : V a a') :
    K.Agrees 0 V (pure a : Walk α) (pure a' : Walk β) :=
  fun _ _ alike => .done h alike .nil

/-- **Walks in sequence.** -/
theorem Agrees.bind {w : Walk α} {w' : Walk β} {f : α → Walk γ} {f' : β → Walk δ}
    (h : K.Agrees n V w w') (hf : ∀ a a', V a a' → K.Agrees k U (f a) (f' a')) :
    K.Agrees (n + k) U (w >>= f) (w' >>= f') := by
  intro s s' alike
  rw [bind_apply, bind_apply]
  have first := h s s' alike
  generalize w s = o at first
  generalize w' s' = o' at first
  cases first with
  | @done es es' t t' a a' value alike' events =>
    have second := hf a a' value t t' alike'
    dsimp only
    generalize f a t = p at second
    generalize f' a' t' = p' at second
    cases second with
    | done value' alike'' events' => exact .done value' alike'' (events.append events')
    | stopped events' rest =>
      dsimp only
      rw [← List.append_assoc]
      exact .stopped (events.append events') rest
  | @stopped j es before after t t' e v events rest =>
    cases v with
    | error e' =>
      refine .stopped events (rest.imp_right fun ⟨nothing, same⟩ => ⟨nothing, ?_⟩)
      cases same
      rfl
    | ok a' =>
      dsimp only
      rw [List.append_assoc]
      refine .stopped events (rest.imp_right fun ⟨_, same⟩ => ?_)
      cases same

/-- Walks in sequence, with nothing cut out of the first. -/
theorem Agrees.andThen {w : Walk α} {w' : Walk β} {f : α → Walk γ} {f' : β → Walk δ}
    (h : K.Agrees 0 V w w') (hf : ∀ a a', V a a' → K.Agrees k U (f a) (f' a')) :
    K.Agrees k U (w >>= f) (w' >>= f') :=
  Nat.zero_add k ▸ h.bind hf

theorem agrees_track (l : Location) : K.Agrees 0 Eq (track l) (track l) :=
  fun _ _ alike => .done rfl (alike.track l) .nil

theorem agrees_locate (l : Location) : K.Agrees 0 Eq (locate l) (locate l) :=
  fun _ _ alike => .done (alike.locate l) alike .nil

theorem agrees_report {e e' : Event} (h : K.Like e e') : K.Agrees 0 Eq (report e) (report e') :=
  fun _ _ alike => .done rfl alike (.single h)

theorem agrees_lookup? (name : Text) :
    K.Agrees 0 (Option.Rel K.taint) (lookup? name) (lookup? name) :=
  fun _ _ alike => .done (alike.lookup? name) alike .nil

theorem agrees_bindVariable (name : Text) {t t' : Taint} (h : K.taint t t') :
    K.Agrees 0 Eq (bindVariable name t) (bindVariable name t') :=
  fun _ _ alike => .done rfl (alike.bind name h) .nil

/-- Two walks that are stopped at the same node. -/
theorem agrees_stop (l : Location) (tag : Text) :
    K.Agrees 0 V (stop l tag : Walk α) (stop l tag : Walk β) := by
  intro s s' alike
  have same : (⟨[], s', .error ⟨tag, s'.locate l⟩⟩ : Outcome β) =
      ⟨[] ++ [], s', .error ⟨tag, s.locate l⟩⟩ := by
    rw [alike.locate]
    rfl
  rw [stop, stop, same]
  exact .stopped .nil (.inr ⟨rfl, rfl⟩)

/-- Bodies in scopes of their own: the scopes around do not matter to them. -/
theorem Agrees.inFreshScope {w : Walk α} {w' : Walk β} (h : K.Agrees n V w w') :
    K.Agrees n Eq (inFreshScope w) (inFreshScope w') := by
  intro s s' alike
  have inside := h .start .start alike_start
  rw [Walk.inFreshScope, Walk.inFreshScope]
  generalize w .start = o at inside
  generalize w' .start = o' at inside
  cases inside with
  | done _ _ events => exact .done rfl alike events
  | stopped events rest =>
    refine .stopped events (rest.imp_right fun ⟨nothing, same⟩ => ⟨nothing, ?_⟩)
    rw [same]
    rfl

theorem agrees_use (i : Identity) : K.Agrees 0 Eq (use i) (use i) := agrees_report (.use i)

theorem agrees_remark (level : Level) (text : Text) :
    K.Agrees 0 Eq (remark level text) (remark level text) :=
  agrees_report (.remark _)

/-- A remark about the place of a node. -/
theorem agrees_warn (l : Location) (text : Location → Text) :
    K.Agrees 0 Eq (do remark .warn (text (← locate l))) (do remark .warn (text (← locate l))) :=
  (agrees_locate l).andThen fun _ _ place => place ▸ agrees_remark .warn _

theorem agrees_reach (l : Location) (name : Text) {t t' : Taint} (h : K.taint t t') :
    K.Agrees 0 Eq (reach l name t) (reach l name t') :=
  (agrees_locate l).andThen fun _ _ place => place ▸ agrees_report (.sink _ name h)

/-- A value at a sink, and then the taint of the node. -/
theorem agrees_reach_return (l : Location) (name : Text) {t t' u u' : Taint} (h : K.taint t t')
    (hu : K.taint u u') :
    K.Agrees 0 K.taint (do reach l name t; return u) (do reach l name t'; return u') :=
  (agrees_reach l name h).andThen fun _ _ _ => agrees_pure hu

end Steps

/-! ## Entering and leaving a form -/

theorem agrees_beforeOperand (form : UnaryForm) :
    K.Agrees 0 Eq (beforeOperand form) (beforeOperand form) := by
  cases form with
  | instanceOf c => exact agrees_use _
  | _ => exact agrees_pure rfl

theorem agrees_announce (l : Location) (c : Callee) :
    K.Agrees 0 Eq (announce l c) (announce l c) := by
  cases c with
  | function name qualified =>
    refine (agrees_use _).andThen fun _ _ _ => ?_
    split
    · exact agrees_use _
    · exact agrees_pure rfl
  | method _ name | ownMethod name | virtualMethod name | variableClassMethod _ name =>
    exact agrees_use _
  | create c | constructor c => exact agrees_use _
  | classMethod c name => exact (agrees_use _).andThen fun _ _ _ => agrees_use _
  | classVariableMethod c _ =>
    refine (agrees_locate l).andThen fun _ _ place => place ▸ ?_
    exact (agrees_remark _ _).andThen fun _ _ _ => agrees_use _
  | variableClassVariableMethod _ _ => exact agrees_warn l _
  | _ => exact agrees_pure rfl

/-- **Entering a form** is the same in both walks. -/
theorem agrees_enter (f : Form) : K.Agrees 0 Eq f.enter f.enter := by
  cases f with
  | absent => exact agrees_pure rfl
  | body l => exact agrees_pure rfl
  | unary l form given => exact (agrees_track l).andThen fun _ _ _ => agrees_beforeOperand form
  | call l c => exact (agrees_track l).andThen fun _ _ _ => agrees_announce l c
  | function head params hasBody =>
    refine (agrees_report (.function head)).andThen fun _ _ _ => ?_
    split
    · exact agrees_remark _ _
    · exact agrees_remark _ _
  | classDef head =>
    exact (agrees_remark _ _).andThen fun _ _ _ => agrees_report (.classDef head)
  | _ => exact agrees_track _

section Leaving

variable {e e' : Expr} {ts ts' : List Taint}

theorem agrees_atom (h : K.same e e') (a : Atom) :
    K.Agrees 0 K.taint (atom e a) (atom e' a) := by
  cases a with
  | var name =>
    refine (agrees_lookup? name).andThen fun _ _ value => agrees_pure ?_
    cases value with
    | none => exact K.taint_every h
    | some ht => exact ht
  | thisField name => exact agrees_pure (K.taint_every h)
  | classConstant c name =>
    exact (agrees_use _).andThen fun _ _ _ => agrees_pure (K.taint_none h)
  | _ => exact agrees_pure (K.taint_none h)

/-- The site of an include hangs on the path of the operand alone. -/
theorem site_eq_of_path {x x' : Option Expr} (l : Location) (once require : Bool)
    (path : StaticPath.ofOperand l.file x = StaticPath.ofOperand l.file x') :
    IncludeSite.of l once require x = IncludeSite.of l once require x' := by
  rw [IncludeSite.of, IncludeSite.of, path]

theorem agrees_afterOperand (h : K.same e e') (l : Location) {t t' : Taint} (ht : K.taint t t')
    (form : UnaryForm) :
    K.Agrees 0 K.taint (afterOperand e l (operand? e) t form)
      (afterOperand e' l (operand? e') t' form) := by
  cases form with
  | variableVariable =>
    refine (agrees_locate l).andThen fun _ _ place => place ▸ ?_
    exact (agrees_remark _ _).andThen fun _ _ _ => agrees_pure (K.taint_every h)
  | reference | objectField name | thisFieldVariable => exact agrees_pure (K.taint_every h)
  | cast type =>
    refine agrees_pure ?_
    split
    · exact K.taint_none h
    · exact K.taint_shownBy h ht
  | suppress | clone => exact agrees_pure (K.taint_shownBy h ht)
  | inclusion once require =>
    refine (agrees_locate l).andThen fun _ _ place => place ▸ ?_
    refine (agrees_report (.sink _ _ ht)).andThen fun _ _ _ => ?_
    rw [site_eq_of_path _ once require (K.path_operand h _)]
    exact (agrees_report (.inclusion _)).andThen fun _ _ _ => agrees_pure (K.taint_every h)
  | exit die =>
    rw [afterOperand, afterOperand, K.isSome_operand h]
    split
    · exact agrees_reach_return l _ ht (K.taint_none h)
    · exact agrees_pure (K.taint_none h)
  | _ => exact agrees_pure (K.taint_none h)

theorem taint_afterOperands (h : K.same e e') {a a' b b' : Taint} (ha : K.taint a a')
    (hb : K.taint b b') (form : BinaryForm) :
    K.taint (afterOperands e a b form) (afterOperands e' a' b' form) := by
  cases form with
  | operator op =>
    simp only [afterOperands]
    split
    · exact K.taint_merge ha hb
    · exact K.taint_none h
  | elvis => exact K.taint_merge ha hb
  | _ => exact K.taint_every h

theorem agrees_assign (target : Option Expr) {t t' : Taint} (ht : K.taint t t') :
    K.Agrees 0 K.taint (assign target t) (assign target t') := by
  unfold assign
  split
  · refine (agrees_lookup? _).andThen fun old old' value => ?_
    cases value with
    | none => exact (agrees_bindVariable _ ht).andThen fun _ _ _ => agrees_pure ht
    | some hold =>
      have merged := K.taint_merge ht hold
      exact (agrees_bindVariable _ merged).andThen fun _ _ _ => agrees_pure merged
  · exact agrees_pure ht

theorem taint_mergeAll {t t' : Taint} (ht : K.taint t t') (hts : List.Forall₂ K.taint ts ts') :
    K.taint (mergeAll t ts) (mergeAll t' ts') := by
  induction hts generalizing t t' with
  | nil => exact ht
  | cons hu _ ih => exact ih (K.taint_merge ht hu)

theorem taint_mergeLinks {t t' : Taint} (ht : K.taint t t') (hts : List.Forall₂ K.taint ts ts') :
    K.taint (mergeLinks t ts) (mergeLinks t' ts') := by
  induction hts generalizing t t' with
  | nil => exact ht
  | cons hu _ ih => exact K.taint_merge ht (ih hu)

theorem taint_headD (hts : List.Forall₂ K.taint ts ts') :
    K.taint (ts.headD (.none none)) (ts'.headD (.none none)) := by
  cases hts with
  | nil => exact K.taint_absent
  | cons ht _ => exact ht

theorem taint_getLastD {t t' : Taint} (ht : K.taint t t') (hts : List.Forall₂ K.taint ts ts') :
    K.taint (ts.getLastD t) (ts'.getLastD t') := by
  induction hts generalizing t t' with
  | nil => exact ht
  | cons hu _ ih =>
    rw [List.getLastD_cons, List.getLastD_cons]
    exact ih hu

theorem agrees_answer (h : K.same e e') (hts : List.Forall₂ K.taint ts ts') (l : Location)
    (c : Callee) : K.Agrees 0 K.taint (answer m e l c ts) (answer m' e' l c ts') := by
  have args : K.taint (mergeAll (.none none) (ts.drop (Part.ofCallee c).length))
      (mergeAll (.none none) (ts'.drop (Part.ofCallee c).length)) :=
    taint_mergeAll K.taint_absent (List.forall₂_drop _ hts)
  cases c with
  | function name _ | method _ name | ownMethod name | classMethod _ name | virtualMethod name =>
    exact agrees_reach_return l name args (K.taint_called h name)
  | variableClassMethod _ name =>
    exact agrees_reach_return l name args
      (K.taint_merge (taint_headD hts) (K.taint_called h name))
  | create c => exact agrees_pure (K.taint_none h)
  | constructor _ | createVariable _ | createVirtual =>
    exact agrees_reach_return l _ args (K.taint_none h)
  | _ => exact agrees_reach_return l _ args (K.taint_every h)

/-- **Leaving a form** with taints that are alike. -/
theorem agrees_leave (h : K.same e e') (hts : List.Forall₂ K.taint ts ts') (f : Form) :
    K.Agrees 0 K.taint (f.leave m e ts) (f.leave m' e' ts') := by
  cases f with
  | atom l a => exact agrees_atom h a
  | unary l form given => exact agrees_afterOperand h l (taint_headD hts) form
  | list l form => exact agrees_pure (K.taint_none h)
  | array l => exact agrees_pure (K.taint_every h)
  | closure l uses => exact agrees_pure (K.taint_every h)
  | assignList l each => exact agrees_pure (taint_getLastD K.taint_absent hts)
  | call l c => exact agrees_answer h hts l c
  | unknown l tag => exact agrees_stop l tag
  | binary l form =>
    rcases hts with _ | ⟨ha, _ | ⟨hb, _ | ⟨_, _⟩⟩⟩
    · exact agrees_pure K.taint_absent
    · exact agrees_pure K.taint_absent
    · exact agrees_pure (taint_afterOperands h ha hb form)
    · exact agrees_pure K.taint_absent
  | assign l byReference name =>
    rcases hts with _ | ⟨ht, _ | ⟨_, _⟩⟩
    · exact agrees_pure K.taint_absent
    · exact agrees_assign _ ht
    · exact agrees_pure K.taint_absent
  | conditional l =>
    rcases hts with _ | ⟨_, _ | ⟨hyes, _ | ⟨hno, _ | ⟨_, _⟩⟩⟩⟩
    · exact agrees_pure K.taint_absent
    · exact agrees_pure K.taint_absent
    · exact agrees_pure K.taint_absent
    · exact agrees_pure (K.taint_merge hyes hno)
    · exact agrees_pure K.taint_absent
  | append l =>
    cases hts with
    | nil => exact agrees_pure K.taint_absent
    | cons ht hts => exact agrees_pure (taint_mergeLinks ht hts)
  | link l =>
    rcases hts with _ | ⟨ht, _ | ⟨_, _⟩⟩
    · exact agrees_pure K.taint_absent
    · exact agrees_pure ht
    · exact agrees_pure K.taint_absent
  | simple l form =>
    rcases hts with _ | ⟨ht, _ | ⟨_, _⟩⟩
    · cases form <;> exact agrees_pure K.taint_absent
    · cases form with
      | echo => exact agrees_reach_return l _ ht K.taint_absent
      | _ => exact agrees_pure K.taint_absent
    · cases form <;> exact agrees_pure K.taint_absent
  | _ => exact agrees_pure K.taint_absent

end Leaving

/-- **A node of a form**, with children whose walks agree. -/
theorem Agrees.around {n : Nat} {e e' : Expr} {below below' : Walk (List Taint)}
    (h : K.same e e') (agrees : K.Agrees n (List.Forall₂ K.taint) below below') (f : Form) :
    K.Agrees n K.taint (f.around m e below) (f.around m' e' below') := by
  have outside (f : Form) : K.Agrees n K.taint (do f.enter; let ts ← below; f.leave m e ts)
      (do f.enter; let ts ← below'; f.leave m' e' ts) :=
    (agrees_enter f).andThen fun _ _ _ => agrees.bind fun _ _ hts => agrees_leave h hts f
  cases f with
  | body l =>
    have inside : K.Agrees n Eq (do track l; let _ ← below) (do track l; let _ ← below') :=
      (agrees_track l).andThen fun _ _ _ => agrees.bind fun _ _ _ => agrees_pure rfl
    exact inside.inFreshScope.bind fun _ _ _ => agrees_pure K.taint_absent
  | _ => exact outside _

/-! ## Nodes that differ only in what was replaced -/

variable (K) in
/-- **Variants**: nodes of the same forms with the same below them, but for nodes that were
replaced. Each replaced node counts for the blocks that are cut out with it. -/
inductive Variants (replaced : Nat → Node → Node → Prop) : Nat → List Node → List Node → Prop
  | nil : Variants replaced 0 [] []
  | replace {n k : Nat} {a a' : Node} {as as' : List Node} :
      replaced n a a' → Variants replaced k as as' → Variants replaced (n + k) (a :: as) (a' :: as')
  | node {n k : Nat} {a a' : Node} {as as' : List Node} :
      a.form = a'.form → K.same a.self a'.self → Variants replaced n a.children a'.children →
      Variants replaced k as as' → Variants replaced (n + k) (a :: as) (a' :: as')

/-- **The walks through variants agree**, when those of the replaced nodes do. -/
theorem Variants.agrees {replaced : Nat → Node → Node → Prop}
    (each : ∀ n a a', replaced n a a' → K.Agrees n K.taint (a.walk m) (a'.walk m'))
    {n : Nat} {as as' : List Node} (variants : K.Variants replaced n as as') :
    K.Agrees n (List.Forall₂ K.taint) (visit m as) (visit m' as') := by
  have both {n k : Nat} {a a' : Node} {as as' : List Node}
      (here : K.Agrees n K.taint (a.walk m) (a'.walk m'))
      (rest : K.Agrees k (List.Forall₂ K.taint) (visit m as) (visit m' as')) :
      K.Agrees (n + k) (List.Forall₂ K.taint) (visit m (a :: as)) (visit m' (a' :: as')) :=
    here.bind fun _ _ ht => rest.bind fun _ _ hts => agrees_pure (.cons ht hts)
  induction variants with
  | nil => exact agrees_pure .nil
  | replace h _ ih => exact both (each _ _ _ h) ih
  | @node n k a a' as as' form self _ _ below rest =>
    refine both ?_ rest
    rw [walk_eq_around, walk_eq_around, form]
    exact below.around self a'.form

theorem Variants.append {replaced : Nat → Node → Node → Prop} {n k : Nat}
    {as as' bs bs' : List Node} (h : K.Variants replaced n as as')
    (h' : K.Variants replaced k bs bs') : K.Variants replaced (n + k) (as ++ bs) (as' ++ bs') := by
  induction h with
  | nil => simpa using h'
  | replace here _ ih =>
    rw [Nat.add_assoc]
    exact .replace here ih
  | node form self below _ _ ih =>
    rw [Nat.add_assoc]
    exact .node form self below ih

/-- Nodes are variants of themselves, when expressions are taken for the same as themselves. -/
theorem variants_refl {replaced : Nat → Node → Node → Prop} (same : ∀ e, K.same e e)
    (as : List Node) : K.Variants replaced 0 as as := by
  induction as using Node.forest_induction with
  | nil => exact .nil
  | cons n ns below rest => exact .node rfl (same _) below rest

/-! ## Exact comparisons -/

/-- **Taints that are alike but for what shows them**: the same risks, and expressions that are
taken for the same. -/
structure Matches (same : Expr → Expr → Prop) (t t' : Taint) : Prop where
  risks : t.risks = t'.risks
  witness : Option.Rel same t.witness t'.witness

theorem Matches.merge {same : Expr → Expr → Prop} {t t' u u' : Taint} (h : Matches same t t')
    (h' : Matches same u u') : Matches same (t.merge u) (t'.merge u') := by
  obtain ⟨risks, w⟩ := t
  obtain ⟨risks', w'⟩ := t'
  obtain ⟨more, v⟩ := u
  obtain ⟨more', v'⟩ := u'
  obtain ⟨rfl : risks = risks', witness : Option.Rel same w w'⟩ := h
  obtain ⟨rfl : more = more', witness' : Option.Rel same v v'⟩ := h'
  refine ⟨rfl, ?_⟩
  have none : w.isNone = w'.isNone := by cases witness <;> rfl
  cases witness' with
  | none => exact witness
  | some h =>
    simp only [Taint.merge, none]
    split
    · exact .some h
    · exact witness

/-- **An exact comparison** of walks with the same mitigations: taints that are alike differ only in
what shows them. -/
def exact (m : Mitigations) (same : Expr → Expr → Prop) (cut : List Event) (goesOn : Prop)
    (isSome : ∀ {e e'}, same e e' → (operand? e).isSome = (operand? e').isSome)
    (path : ∀ {e e'}, same e e' →
      ∀ file, StaticPath.ofOperand file (operand? e) = StaticPath.ofOperand file (operand? e')) :
    Comparison m m where
  same := same
  taint := Matches same
  cut := cut
  goesOn := goesOn
  taint_absent := ⟨rfl, .none⟩
  taint_none h := ⟨rfl, .some h⟩
  taint_every h := ⟨rfl, .some h⟩
  taint_called h _ := ⟨rfl, .some h⟩
  taint_merge ht hu := ht.merge hu
  taint_shownBy h ht := ⟨ht.risks, .some h⟩
  isSome_operand := isSome
  path_operand := path

end Comparison

end PhpAudit.Walk
