import Mathlib.Data.List.Forall2
import PhpAudit.Proofs.Tree.Elements
import PhpAudit.Proofs.Tree.Grammar
import PhpAudit.Tree.Forms
import PhpAudit.Tree.Kind

/-!
# Rows and readers

The reader of a kind and the rows of the kind say the same in two ways. `Fields.gather` reads rows
from the fields of a node, one after the other, and keeps the elements in them. A reader **observes**
rows if it fails as they do, and if not, gives a node of its kind, placed as its fields say, whose
parts are the elements in the rows.

All kinds of statements and all but one of expressions observe their rows. A concatenation does not:
the links of its chain are no elements of its rows.
-/

namespace PhpAudit.Tree

open Element

namespace Fields

variable (f : Fields)

/-- The word of a key, which must be known. -/
def word (key : String) (ws : Vocabulary) : Reads Text := do
  let w ← f.text key
  if ws.knows w then return w else f.refuse (ws.cause w)

/-- **The elements that are read from a row.** Simple values have none. -/
def elements : Row → Reads (List Element)
  | (key, .value .text) => (fun _ => []) <$> f.text key
  | (key, .value .integer) => (fun _ => []) <$> f.integer key
  | (key, .value .flag) => (fun _ => []) <$> f.flag key
  | (key, .value .texts) => (fun _ => []) <$> f.texts key
  | (key, .word ws) => (fun _ => []) <$> f.word key ws
  | (key, .node .expression) => ofOperand <$> f.expr key
  | (key, .node .statement) => ofStatement <$> f.stmt key
  | (key, .node .function) => ofDefinition <$> f.function key
  | (key, .node .classRecord) => ofClass <$> f.classDef key
  | (key, .list (.node .expression)) => ofOperands <$> f.exprs key
  | (key, .list (.node .statement)) => List.map .stmt <$> f.stmts key
  | (key, .list .item) => List.flatMap ofItem <$> f.items key
  | (key, .list .case) => List.flatMap ofCase <$> f.cases key
  | (key, .list .handler) => List.flatMap ofHandler <$> f.handlers key
  | (key, .targets) => ofTargets <$> f.targets key
  | _ => return []

/-- The elements that are read from some rows, in their order. -/
def gather : List Row → Reads (List Element)
  | [] => return []
  | row :: rows => do
    let xs ← f.elements row
    return xs ++ (← gather rows)

/-- The words that a field may be are the vocabularies of the grammar. -/
theorem readWord_eq (key : String) :
    readWord key binaryOperators .unknownBinaryOperator f = f.word key .binary ∧
    readWord key unaryOperators .unknownUnaryOperator f = f.word key .unary ∧
    readWord key stepOperators .unknownStepOperator f = f.word key .step ∧
    readWord key castTypes .unknownCastType f = f.word key .cast := ⟨rfl, rfl, rfl, rfl⟩

end Fields

/-- What is to be seen of an expression: its kind, its location and its parts. -/
def seeExpr (e : Expr) : Text × Location × List Element := (e.kind, e.loc, ofExpr e)

/-- What is to be seen of a statement. -/
def seeStmt (s : Stmt) : Text × Location × List Element := (s.kind, s.loc, ofStmt s)

/-- **A reader observes the rows of a kind.** -/
def Observes {α : Type} (see : α → Text × Location × List Element) (kind : Text)
    (read : Fields → Reads α) (rows : List Row) : Prop :=
  ∀ f, see <$> read f = (fun xs => (kind, f.loc, xs)) <$> f.gather rows

/-- The readers of a table observe the rows of another, kind by kind; exceptions are left out. -/
abbrev Tabled {α : Type} (see : α → Text × Location × List Element) (exceptions : List Text) :
    List (Text × (Fields → Reads α)) → List (Text × List Row) → Prop :=
  List.Forall₂ fun a b => a.1 = b.1 ∧ (b.1 ∉ exceptions → Observes see b.1 a.2 b.2)

/-! ## The kinds of expressions

A reader observes its rows because both read the same fields in the same order; what is made of them
at the end shows the same kind, location and parts. -/

theorem tabled_atoms : Tabled seeExpr [] atomReaders atomGrammar := by
  simp only [Tabled, atomReaders, atomGrammar, List.forall₂_cons, List.Forall₂.nil, Observes,
    readAtom, seeExpr, Expr.kind, Atom.kind, Expr.loc, ofExpr, Fields.gather, Fields.elements,
    map_eq_pure_bind, bind_assoc, pure_bind, List.append_nil, implies_true, and_self]

theorem tabled_unary : Tabled seeExpr [] unaryReaders unaryGrammar := by
  simp only [Tabled, unaryReaders, unaryGrammar, List.forall₂_cons, List.Forall₂.nil, Observes,
    readUnary, readOperand, seeExpr, Expr.kind, UnaryForm.kind, Expr.loc, ofExpr, Fields.gather,
    Fields.elements, Fields.readWord_eq, map_eq_pure_bind, bind_assoc, pure_bind, List.nil_append,
    List.append_nil, implies_true, and_self]

theorem tabled_binary : Tabled seeExpr [] binaryReaders binaryGrammar := by
  simp only [Tabled, binaryReaders, binaryGrammar, List.forall₂_cons, List.Forall₂.nil, Observes,
    readBinary, seeExpr, Expr.kind, BinaryForm.kind, Expr.loc, ofExpr, Fields.gather,
    Fields.elements, Fields.readWord_eq, map_eq_pure_bind, bind_assoc, pure_bind, List.nil_append,
    List.append_nil, implies_true, and_self]

theorem tabled_calls : Tabled seeExpr [] callReaders callGrammar := by
  simp only [Tabled, callReaders, callGrammar, List.forall₂_cons, List.Forall₂.nil, Observes,
    readCall, seeExpr, Expr.kind, Callee.kind, Expr.loc, ofExpr, ofCallee, Fields.gather,
    Fields.elements, map_eq_pure_bind, bind_assoc, pure_bind, List.nil_append, List.append_nil,
    List.append_assoc, implies_true, and_self]

theorem tabled_others : Tabled seeExpr ["append"] otherReaders otherGrammar := by
  simp only [Tabled, otherReaders, otherGrammar, List.forall₂_cons, List.Forall₂.nil, Observes,
    readAssignList, seeExpr, Expr.kind, ListForm.kind, Expr.loc, ofExpr, Fields.gather,
    Fields.elements, map_eq_pure_bind, bind_assoc, pure_bind, List.append_nil, List.append_assoc,
    implies_true, and_self, List.mem_singleton, not_true_eq_false, false_implies]

/-- **Every kind of expression observes its rows**, but for the concatenation. -/
theorem tabled_expr : Tabled seeExpr ["append"] exprReaders exprGrammar := by
  have weaken {as : List (Text × ExprReader)} {bs : List (Text × List Row)}
      (h : Tabled seeExpr [] as bs) : Tabled seeExpr ["append"] as bs :=
    List.Forall₂.imp (fun _ _ e => ⟨e.1, fun _ => e.2 List.not_mem_nil⟩) h
  exact List.rel_append (List.rel_append (List.rel_append (List.rel_append
    (weaken tabled_atoms) (weaken tabled_unary)) (weaken tabled_binary)) (weaken tabled_calls))
    tabled_others

/-! ## The kinds of statements -/

theorem tabled_simple : Tabled seeStmt [] simpleReaders simpleGrammar := by
  simp only [Tabled, simpleReaders, simpleGrammar, List.forall₂_cons, List.Forall₂.nil, Observes,
    readSimple, seeStmt, Stmt.kind, SimpleForm.kind, Stmt.loc, ofStmt, Fields.gather,
    Fields.elements, map_eq_pure_bind, bind_assoc, pure_bind, List.nil_append, List.append_nil,
    implies_true, and_self]

theorem tabled_compound : Tabled seeStmt [] compoundReaders compoundGrammar := by
  simp only [Tabled, compoundReaders, compoundGrammar, List.forall₂_cons, List.Forall₂.nil,
    Observes, seeStmt, Stmt.kind, InertForm.kind, Stmt.loc, Block.loc, ofStmt, Block.stmts,
    Fields.gather, Fields.elements, map_eq_pure_bind, bind_assoc, pure_bind, List.append_nil,
    List.append_assoc, implies_true, and_self]

/-- **Every kind of statement observes its rows.** -/
theorem tabled_stmt : Tabled seeStmt [] stmtReaders stmtGrammar :=
  List.rel_append tabled_simple tabled_compound

/-! ## Looking up a kind -/

/-- A kind has a reader exactly if it has rows, and they go together. -/
theorem Tabled.lookup {α : Type} {see : α → Text × Location × List Element} {exceptions : List Text}
    {readers : List (Text × (Fields → Reads α))} {grammar : List (Text × List Row)}
    (h : Tabled see exceptions readers grammar) (kind : Text) :
    (readers.lookup kind = none ∧ grammar.lookup kind = none) ∨
      ∃ read rows, readers.lookup kind = some read ∧ grammar.lookup kind = some rows ∧
        (kind ∉ exceptions → Observes see kind read rows) := by
  induction h with
  | nil => exact .inl ⟨rfl, rfl⟩
  | @cons a b readers grammar here _ ih =>
    obtain ⟨name, read⟩ := a
    obtain ⟨name', rows⟩ := b
    obtain ⟨rfl, observes⟩ := here
    by_cases eq : kind = name
    · subst eq
      exact .inr ⟨read, rows, List.lookup_cons_self, List.lookup_cons_self, observes⟩
    · have other : (kind == name) = false := beq_eq_false_iff_ne.2 eq
      simpa only [List.lookup_cons, other] using ih

/-! ## The kind and the place of what is read -/

/-- A reader that observes some rows gives a node of its kind, placed as its fields say. -/
theorem Observes.shown {α : Type} {see : α → Text × Location × List Element} {kind : Text}
    {read : Fields → Reads α} {rows : List Row} (h : Observes see kind read rows) {f : Fields} {a : α}
    (done : read f = .ok a) : (see a).1 = kind ∧ (see a).2.1 = f.loc := by
  have same := h f
  rw [done] at same
  cases hg : f.gather rows with
  | error e => rw [hg] at same; cases same
  | ok xs =>
    rw [hg] at same
    have same : see a = (kind, f.loc, xs) := Except.ok.inj same
    simp [same]

/-- What a reader that observes some rows leaves of a node are the elements in them. -/
theorem Observes.parts {α : Type} {see : α → Text × Location × List Element} {kind : Text}
    {read : Fields → Reads α} {rows : List Row} (h : Observes see kind read rows) (f : Fields) :
    (fun a => (see a).2.2) <$> read f = f.gather rows := by
  have same := congrArg (Functor.map fun e => e.2.2) (h f)
  simpa only [Functor.map_map, id_map'] using same

theorem readAppend_shown {f : Fields} {e : Expr} (done : readAppend f = .ok e) :
    e.kind = "append" ∧ e.loc = f.loc := by
  unfold readAppend at done
  cases hp : f.exprs "parts" with
  | error r => simp [hp, bind, Except.bind] at done
  | ok ps =>
    cases ps with
    | cons first rest =>
      simp only [hp, bind, Except.bind, pure, Except.pure, Except.ok.injEq] at done
      exact done ▸ ⟨rfl, rfl⟩
    | nil =>
      cases hv : f.expr "value" with
      | error r => simp [hp, hv, bind, Except.bind] at done
      | ok v =>
        cases hn : f.expr "next" with
        | error r => simp [hp, hv, hn, bind, Except.bind] at done
        | ok next =>
          simp only [hp, hv, hn, bind, Except.bind, pure, Except.pure, Except.ok.injEq] at done
          exact done ▸ ⟨rfl, rfl⟩

/-- **An expression has the kind it is read with**, and is placed as its fields say. -/
theorem Expr.ofFields_shown {kind : Text} {f : Fields} {e : Expr}
    (done : Expr.ofFields kind f = .ok e) : e.kind = kind ∧ e.loc = f.loc := by
  unfold Expr.ofFields at done
  split at done
  · cases done
  · obtain ⟨unread, -⟩ | ⟨read, rows, found, -, observes⟩ := tabled_expr.lookup kind
    · rw [unread] at done
      cases done
      exact ⟨rfl, rfl⟩
    · rw [found] at done
      by_cases append : kind = "append"
      · subst append
        obtain rfl : readAppend = read := Option.some.inj found
        exact readAppend_shown done
      · exact (observes (by simpa using append)).shown done

/-- What is read as the targets of a list assignment are targets, and nothing else is. -/
theorem Expr.ofFields_targets {kind : Text} {f : Fields} {e : Expr}
    (done : Expr.ofFields kind f = .ok e) :
    kind = "list_head" ↔ ∃ l ms, e = .list l .targets ms := by
  constructor
  · rintro rfl
    have done : (do return .list f.loc .targets (← f.exprs "vars")) = Except.ok e := done
    cases hm : f.exprs "vars" with
    | error r => rw [hm] at done; cases done
    | ok ms => rw [hm] at done; exact ⟨f.loc, ms, (Except.ok.inj done).symm⟩
  · rintro ⟨l, ms, rfl⟩
    exact (Expr.ofFields_shown done).1.symm

/-- **A statement has the kind it is read with**, and is placed as its fields say. -/
theorem Stmt.ofFields_shown {kind : Text} {f : Fields} {s : Stmt}
    (done : Stmt.ofFields kind f = .ok s) : s.kind = kind ∧ s.loc = f.loc := by
  unfold Stmt.ofFields at done
  split at done
  · cases done
  · obtain ⟨unread, -⟩ | ⟨read, rows, found, -, observes⟩ := tabled_stmt.lookup kind
    · rw [unread] at done
      cases done
      exact ⟨rfl, rfl⟩
    · rw [found] at done
      exact (observes List.not_mem_nil).shown done

end PhpAudit.Tree
