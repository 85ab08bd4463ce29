import Mathlib.Data.List.Forall2
import PhpAudit.Proofs.Walk.Nodes

/-!
# Replacing a child

A child of a node can be replaced by any node of the same sort: there is a node of the same form,
with the same left out, whose children are those of the first but for that one
(`replaceable_children`).
-/

namespace PhpAudit.Walk

open PhpAudit.Tree

/-- **Nodes of the same sort**, none of them absent: the one can stand where the other does. -/
inductive SameSort : Node → Node → Prop
  | operand (e e' : Expr) : SameSort (.operand (some e)) (.operand (some e'))
  | statement (s s' : Stmt) : SameSort (.statement (some s)) (.statement (some s'))
  | link (l l' : Link) : SameSort (.link l) (.link l')
  | targets (ts ts' : Targets) : SameSort (.targets ts) (.targets ts')
  | function (f f' : Function) : SameSort (.function f) (.function f')
  | classDef (d d' : ClassDef) : SameSort (.classDef d) (.classDef d')
  | body (b b' : Block) : SameSort (.body b) (.body b')

/-- **A node among those of `x` can be replaced**: there is an `x'` like `x` with the other in its
place.
-/
def Replaceable {α : Type} (f : α → List Node) (like : α → α → Prop) : Prop :=
  ∀ ⦃x : α⦄ ⦃before : List Node⦄ ⦃c : Node⦄ ⦃after : List Node⦄ ⦃c' : Node⦄,
    f x = before ++ c :: after → SameSort c c' → ∃ x', f x' = before ++ c' :: after ∧ like x x'

section Combine

variable {α β : Type} {f : α → List Node} {g : β → List Node} {like : α → α → Prop}
  {like' : β → β → Prop}

theorem replaceable_single {f : α → Node}
    (each : ∀ x c', SameSort (f x) c' → ∃ x', f x' = c' ∧ like x x') :
    Replaceable (fun x => [f x]) like := by
  intro x before c after c' h same
  obtain ⟨rfl, rfl, rfl⟩ : before = [] ∧ c = f x ∧ after = [] := by
    rcases before with _ | ⟨d, _ | _⟩ <;> simp_all
  obtain ⟨x', rfl, hx⟩ := each x c' same
  exact ⟨x', rfl, hx⟩

/-- An element of two lists one after the other is in the first or in the second. -/
theorem append_split {xs ys before after : List α} {c : α} (h : xs ++ ys = before ++ c :: after) :
    (∃ rest, xs = before ++ c :: rest ∧ after = rest ++ ys) ∨
      ∃ rest, before = xs ++ rest ∧ ys = rest ++ c :: after := by
  obtain ⟨rest, front, back⟩ | ⟨rest, front, back⟩ := List.append_eq_append_iff.mp h
  · exact .inr ⟨rest, front, back⟩
  · rcases rest with _ | ⟨d, rest⟩
    · exact .inr ⟨[], by simpa using front.symm, back.symm⟩
    · obtain ⟨rfl, rfl⟩ := List.cons.inj back
      exact .inl ⟨rest, front, rfl⟩

theorem Replaceable.pair (hf : Replaceable f like) (hg : Replaceable g like')
    (refl : ∀ x, like x x) (refl' : ∀ y, like' y y) :
    Replaceable (fun p : α × β => f p.1 ++ g p.2) fun p q => like p.1 q.1 ∧ like' p.2 q.2 := by
  rintro ⟨x, y⟩ before c after c' h same
  obtain ⟨rest, first, rfl⟩ | ⟨rest, rfl, second⟩ := append_split h
  · obtain ⟨x', hx, like⟩ := hf first same
    exact ⟨(x', y), by simp [hx], like, refl' y⟩
  · obtain ⟨y', hy, like⟩ := hg second same
    exact ⟨(x, y'), by simp [hy], refl x, like⟩

theorem Replaceable.list (hf : Replaceable f like) (refl : ∀ x, like x x) :
    Replaceable (fun xs : List α => xs.flatMap f) (List.Forall₂ like) := by
  intro xs before c after c' h same
  induction xs generalizing before with
  | nil => simp at h
  | cons x xs ih =>
    obtain ⟨rest, first, rfl⟩ | ⟨rest, rfl, second⟩ := append_split h
    · obtain ⟨x', hx, like⟩ := hf first same
      refine ⟨x' :: xs, ?_, .cons like (List.forall₂_same.mpr fun y _ => refl y)⟩
      simp only [List.flatMap_cons, hx, List.append_assoc]
      rfl
    · obtain ⟨xs', hxs, like⟩ := ih second
      exact ⟨x :: xs', by simp [hxs], .cons (refl x) like⟩

theorem Replaceable.map {f : α → Node} (hf : Replaceable (fun x => [f x]) like)
    (refl : ∀ x, like x x) : Replaceable (fun xs : List α => xs.map f) (List.Forall₂ like) := by
  have single (xs : List α) : xs.map f = xs.flatMap fun x => [f x] := List.map_eq_flatMap
  simp only [single]
  exact hf.list refl

theorem Replaceable.option {f : α → Node} (hf : Replaceable (fun x => [f x]) like) :
    Replaceable (fun x : Option α => (x.map f).toList) fun x x' => x.isSome = x'.isSome := by
  intro x before c after c' h same
  cases x with
  | none => simp at h
  | some x =>
    obtain ⟨x', hx, -⟩ := hf h same
    exact ⟨some x', hx, rfl⟩

end Combine

/-! ## Parts of nodes -/

/-- Nothing is to stay the same. -/
abbrev Free {α : Type} (_ _ : α) : Prop := True

/-- It stays so that there is something, or nothing. -/
abbrev AsGiven {α : Type} (x x' : Option α) : Prop := x.isSome = x'.isSome

theorem replaceable_operand : Replaceable (fun x => [Node.operand x]) AsGiven := by
  refine replaceable_single fun x c' same => ?_
  cases same with
  | operand e e' => exact ⟨some e', rfl, rfl⟩

theorem replaceable_statement : Replaceable (fun x => [Node.statement x]) AsGiven := by
  refine replaceable_single fun x c' same => ?_
  cases same with
  | statement s s' => exact ⟨some s', rfl, rfl⟩

theorem replaceable_ofStatement : Replaceable (fun s => [Node.ofStatement s]) Free := by
  refine replaceable_single fun s c' same => ?_
  cases same with
  | statement s s' => exact ⟨s', rfl, trivial⟩

theorem replaceable_link : Replaceable (fun l => [Node.link l]) Free := by
  refine replaceable_single fun f c' same => ?_
  cases same with
  | link l l' => exact ⟨l', rfl, trivial⟩

theorem replaceable_targets : Replaceable (fun ts => [Node.targets ts]) Free := by
  refine replaceable_single fun f c' same => ?_
  cases same with
  | targets ts ts' => exact ⟨ts', rfl, trivial⟩

theorem replaceable_function : Replaceable (fun f => [Node.function f]) Free := by
  refine replaceable_single fun f c' same => ?_
  cases same with
  | function f f' => exact ⟨f', rfl, trivial⟩

theorem replaceable_classDef : Replaceable (fun d => [Node.classDef d]) Free := by
  refine replaceable_single fun f c' same => ?_
  cases same with
  | classDef d d' => exact ⟨d', rfl, trivial⟩

theorem replaceable_body : Replaceable (fun b => [Node.body b]) Free := by
  refine replaceable_single fun f c' same => ?_
  cases same with
  | body b b' => exact ⟨b', rfl, trivial⟩

theorem replaceable_operands :
    Replaceable (fun xs : List (Option Expr) => xs.map Node.operand) (List.Forall₂ AsGiven) :=
  replaceable_operand.map fun _ => rfl

theorem replaceable_statements :
    Replaceable (fun ss : List Stmt => ss.map Node.ofStatement) (List.Forall₂ Free) :=
  replaceable_ofStatement.map fun _ => trivial

theorem replaceable_two {α β : Type} {f : Option α → Node} {g : Option β → Node}
    (hf : Replaceable (fun x => [f x]) AsGiven) (hg : Replaceable (fun x => [g x]) AsGiven) :
    Replaceable (fun p : Option α × Option β => [f p.1, g p.2]) fun _ _ => True := by
  intro x before c after c' h same
  obtain ⟨x', hx, -⟩ := hf.pair hg (fun _ => rfl) (fun _ => rfl) h same
  exact ⟨x', hx, trivial⟩

theorem replaceable_callee :
    Replaceable (fun c => (Part.ofCallee c).map Node.operand) fun c c' => bare c = bare c' := by
  have two := replaceable_two replaceable_operand replaceable_operand
  intro k before c after c' h same
  cases k with
  | variableFunction a =>
    obtain ⟨a', hx, -⟩ := replaceable_operand (x := a) h same
    exact ⟨.variableFunction a', hx, rfl⟩
  | method a name =>
    obtain ⟨a', hx, -⟩ := replaceable_operand (x := a) h same
    exact ⟨.method a' name, hx, rfl⟩
  | ownVariableMethod a =>
    obtain ⟨a', hx, -⟩ := replaceable_operand (x := a) h same
    exact ⟨.ownVariableMethod a', hx, rfl⟩
  | variableClassMethod a name =>
    obtain ⟨a', hx, -⟩ := replaceable_operand (x := a) h same
    exact ⟨.variableClassMethod a' name, hx, rfl⟩
  | classVariableMethod k a =>
    obtain ⟨a', hx, -⟩ := replaceable_operand (x := a) h same
    exact ⟨.classVariableMethod k a', hx, rfl⟩
  | createVariable a =>
    obtain ⟨a', hx, -⟩ := replaceable_operand (x := a) h same
    exact ⟨.createVariable a', hx, rfl⟩
  | variableMethod a b =>
    obtain ⟨⟨a', b'⟩, hx, -⟩ := two (x := (a, b)) h same
    exact ⟨.variableMethod a' b', hx, rfl⟩
  | variableClassVariableMethod a b =>
    obtain ⟨⟨a', b'⟩, hx, -⟩ := two (x := (a, b)) h same
    exact ⟨.variableClassVariableMethod a' b', hx, rfl⟩
  | _ => simp [Part.ofCallee] at h

/-- What stays the same at an expression. -/
def LikeExpr (e e' : Expr) : Prop :=
  Form.ofExpr e = Form.ofExpr e' ∧
    (Node.operand (some e)).leftOut = (Node.operand (some e')).leftOut

theorem replaceable_expr : Replaceable Node.ofExpr LikeExpr := by
  have two := replaceable_two replaceable_operand replaceable_operand
  intro e before c after c' h same
  cases e with
  | unary l form x =>
    by_cases skipped : skipsOperand form = true
    · simp [Node.ofExpr, skipped] at h
    · simp only [Node.ofExpr, skipped] at h
      obtain ⟨x', hx, like⟩ := replaceable_operand h same
      refine ⟨.unary l form x', ?_, congrArg (Form.unary l form) like, ?_⟩
      · rw [Node.ofExpr, if_neg skipped]
        exact hx
      · simp only [Node.leftOut, skipped]
        rfl
  | binary l form a b =>
    cases form with
    | assign byReference =>
      obtain ⟨b', hx, like⟩ := replaceable_operand (x := b) h same
      exact ⟨.binary l (.assign byReference) a b', hx, rfl, rfl⟩
    | objectFieldVariable =>
      obtain ⟨⟨b', a'⟩, hx, -⟩ := two (x := (b, a)) h same
      exact ⟨.binary l .objectFieldVariable a' b', hx, rfl, rfl⟩
    | arrayGet =>
      obtain ⟨⟨a', b'⟩, hx, -⟩ := two (x := (a, b)) h same
      exact ⟨.binary l .arrayGet a' b', hx, rfl, rfl⟩
    | charAt =>
      obtain ⟨⟨a', b'⟩, hx, -⟩ := two (x := (a, b)) h same
      exact ⟨.binary l .charAt a' b', hx, rfl, rfl⟩
    | operator op =>
      obtain ⟨⟨a', b'⟩, hx, -⟩ := two (x := (a, b)) h same
      exact ⟨.binary l (.operator op) a' b', hx, rfl, rfl⟩
    | elvis =>
      obtain ⟨⟨a', b'⟩, hx, -⟩ := two (x := (a, b)) h same
      exact ⟨.binary l .elvis a' b', hx, rfl, rfl⟩
  | conditional l test yes no =>
    obtain ⟨⟨t, y, n⟩, hx, -⟩ := (replaceable_operand.pair two (fun _ => rfl) (fun _ => trivial))
      (x := (test, yes, no)) h same
    exact ⟨.conditional l t y n, hx, rfl, rfl⟩
  | list l form ms =>
    obtain ⟨ms', hx, -⟩ := replaceable_operands (x := ms) h same
    exact ⟨.list l form ms', hx, rfl, rfl⟩
  | array l is =>
    have item : Replaceable Node.ofItem Free := by
      rintro ⟨k, v⟩ before c after c' h same
      obtain ⟨⟨k', v'⟩, hx, -⟩ := two (x := (k, v)) h same
      exact ⟨.mk k' v', hx, trivial⟩
    obtain ⟨is', hx, -⟩ := item.list (fun _ => trivial) (x := is) h same
    exact ⟨.array l is', hx, rfl, rfl⟩
  | append l v ls =>
    have links := replaceable_link.map fun _ => trivial
    obtain ⟨⟨v', ls'⟩, hx, -⟩ := (replaceable_operand.pair links (fun _ => rfl)
      (fun _ => List.forall₂_same.mpr fun _ _ => trivial)) (x := (v, ls)) h same
    exact ⟨.append l v' ls', hx, rfl, rfl⟩
  | assignList l each ts v =>
    obtain ⟨⟨ts', v'⟩, hx, -⟩ := (replaceable_targets.option.pair replaceable_operand (fun _ => rfl)
      (fun _ => rfl)) (x := (ts, v)) h same
    exact ⟨.assignList l each ts' v', hx, rfl, rfl⟩
  | call l k as =>
    rw [Node.ofExpr, List.map_append] at h
    obtain ⟨⟨k', as'⟩, hx, like, -⟩ := (replaceable_callee.pair replaceable_operands (fun _ => rfl)
      (fun _ => List.forall₂_same.mpr fun _ _ => rfl)) (x := (k, as)) h same
    refine ⟨.call l k' as', ?_, congrArg (Form.call l) like, rfl⟩
    rw [Node.ofExpr, List.map_append]
    exact hx
  | closure l f uses =>
    obtain ⟨f', hx, -⟩ := replaceable_function.option (x := f) h same
    exact ⟨.closure l f' uses, hx, rfl, rfl⟩
  | _ => simp [Node.ofExpr] at h

theorem replaceable_case : Replaceable Node.ofCase fun c c' => shape c = shape c' := by
  rintro ⟨isDefault, tests, ss⟩ before c after c' h same
  have all := replaceable_operands.pair replaceable_statements
    (fun _ => List.forall₂_same.mpr fun _ _ => rfl)
    (fun _ => List.forall₂_same.mpr fun _ _ => trivial)
  obtain ⟨⟨tests', ss'⟩, hx, like, like'⟩ := all (x := (tests, ss)) h same
  have tests : tests.length = tests'.length := like.length_eq
  have statements : ss.length = ss'.length := like'.length_eq
  exact ⟨.mk isDefault tests' ss', hx, by simp only [shape, tests, statements]⟩

theorem replaceable_handler :
    Replaceable (fun h => [Node.ofHandler h]) fun h h' => catches h = catches h' := by
  rintro ⟨types, caught, s⟩ before c after c' h same
  obtain ⟨s', hx, -⟩ := replaceable_statement (x := s) h same
  exact ⟨.mk types caught s', hx, rfl⟩

theorem map_eq_of_forall₂ {α β : Type} {f : α → β} {xs ys : List α}
    (h : List.Forall₂ (fun x y => f x = f y) xs ys) : xs.map f = ys.map f := by
  induction h with
  | nil => rfl
  | cons same _ ih => rw [List.map_cons, List.map_cons, same, ih]

/-- What stays the same at a statement. -/
def LikeStmt (s s' : Stmt) : Prop :=
  Form.ofStmt s = Form.ofStmt s' ∧ (Node.ofStatement s).leftOut = (Node.ofStatement s').leftOut

theorem replaceable_stmt : Replaceable Node.ofStmt LikeStmt := by
  have operand := replaceable_operand
  have statement := replaceable_statement
  have two := replaceable_two operand operand
  intro s before c after c' h same
  cases s with
  | block b =>
    obtain ⟨l, ss⟩ := b
    obtain ⟨ss', hx, -⟩ := replaceable_statements (x := ss) h same
    exact ⟨.block (.mk l ss'), hx, rfl, rfl⟩
  | simple l form x =>
    obtain ⟨x', hx, -⟩ := operand (x := x) h same
    exact ⟨.simple l form x', hx, rfl, rfl⟩
  | branch l test yes no =>
    have all := operand.pair (replaceable_two statement statement) (fun _ => rfl) fun _ => trivial
    obtain ⟨⟨t, y, n⟩, hx, -⟩ := all (x := (test, yes, no)) h same
    exact ⟨.branch l t y n, hx, rfl, rfl⟩
  | loop l testFirst test s =>
    obtain ⟨⟨t, s'⟩, hx, -⟩ := (replaceable_two operand statement) (x := (test, s)) h same
    exact ⟨.loop l testFirst t s', hx, rfl, rfl⟩
  | count l start test step s =>
    have all := two.pair (replaceable_two operand statement) (fun _ => trivial) fun _ => trivial
    obtain ⟨⟨⟨a, t⟩, n, s'⟩, hx, -⟩ := all (x := ((start, test), step, s)) h same
    exact ⟨.count l a t n s', hx, rfl, rfl⟩
  | each l object key value s =>
    obtain ⟨⟨o, s'⟩, hx, -⟩ := (replaceable_two operand statement) (x := (object, s)) h same
    exact ⟨.each l o key value s', hx, rfl, rfl⟩
  | switch l value cs =>
    have all := operand.pair (replaceable_case.list fun _ => rfl) (fun _ => rfl)
      fun _ => List.forall₂_same.mpr fun _ _ => rfl
    obtain ⟨⟨v, cs'⟩, hx, -, like⟩ := all (x := (value, cs)) h same
    refine ⟨.switch l v cs', hx, ?_, rfl⟩
    rw [Form.ofStmt, Form.ofStmt, map_eq_of_forall₂ like]
  | guarded l s hs last =>
    have handlers := (statement.pair (replaceable_handler.map fun _ => rfl) (fun _ => rfl)
      fun _ => List.forall₂_same.mpr fun _ _ => rfl)
    have all := handlers.pair statement
      (fun _ => ⟨rfl, List.forall₂_same.mpr fun _ _ => rfl⟩) fun _ => rfl
    obtain ⟨⟨⟨s', hs'⟩, last'⟩, hx, ⟨-, like⟩, -⟩ := all (x := ((s, hs), last)) h same
    refine ⟨.guarded l s' hs' last', hx, ?_, rfl⟩
    rw [Form.ofStmt, Form.ofStmt, map_eq_of_forall₂ like]
  | classDef l d =>
    obtain ⟨d', hx, -⟩ := replaceable_classDef.option (x := d) h same
    exact ⟨.classDef l d', hx, rfl, rfl⟩
  | functionDef l f =>
    obtain ⟨f', hx, -⟩ := replaceable_function.option (x := f) h same
    exact ⟨.functionDef l f', hx, rfl, rfl⟩
  | _ => simp [Node.ofStmt] at h

/-- **A child of a node can be replaced** by one of the same sort. -/
theorem replaceable_children : Replaceable Node.children fun n n' =>
    n.form = n'.form ∧ n.leftOut = n'.leftOut ∧ SameSort n n' := by
  intro n before c after c' h same
  cases n with
  | operand x =>
    rcases x with _ | e
    · simp [Node.children] at h
    · obtain ⟨e', hx, form, out⟩ := replaceable_expr (x := e) h same
      exact ⟨.operand (some e'), hx, form, out, .operand e e'⟩
  | statement x =>
    rcases x with _ | s
    · simp [Node.children] at h
    · obtain ⟨s', hx, form, out⟩ := replaceable_stmt (x := s) h same
      exact ⟨.statement (some s'), hx, form, out, .statement s s'⟩
  | link k =>
    obtain ⟨l, v⟩ := k
    obtain ⟨v', hx, -⟩ := replaceable_operand (x := v) h same
    exact ⟨.link (.mk l v'), hx, rfl, rfl, .link _ _⟩
  | targets ts =>
    obtain ⟨l, ms⟩ := ts
    obtain ⟨ms', hx, -⟩ := replaceable_operands (x := ms) h same
    exact ⟨.targets (.mk l ms'), hx, rfl, rfl, .targets _ _⟩
  | function f =>
    obtain ⟨head, params, b⟩ := f
    obtain ⟨b', hx, like⟩ := replaceable_body.option (x := b) h same
    exact ⟨.function (.mk head params b'), hx, congrArg (Form.function head _) like, rfl,
      .function _ _⟩
  | classDef d =>
    obtain ⟨head, members⟩ := d
    obtain ⟨members', hx, -⟩ := (replaceable_function.map fun _ => trivial) (x := members) h same
    exact ⟨.classDef (.mk head members'), hx, rfl, rfl, .classDef _ _⟩
  | body b =>
    obtain ⟨l, ss⟩ := b
    obtain ⟨ss', hx, -⟩ := replaceable_statements (x := ss) h same
    exact ⟨.body (.mk l ss'), hx, rfl, rfl, .body _ _⟩

end PhpAudit.Walk
