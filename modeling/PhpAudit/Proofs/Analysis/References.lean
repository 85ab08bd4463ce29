import PhpAudit.Proofs.Analysis.Reported
import PhpAudit.Proofs.Analysis.Sharding
import PhpAudit.Proofs.Text.Fold
import PhpAudit.Proofs.Usage.Unused
import PhpAudit.Proofs.Walk.Coverage

/-!
# Classes that are named

A class is **named** by an expression with a class name in it, and by a class with that parent or
interface. A walk that does not fail makes an entry of every name that it reaches but for those in
reads of class fields (`ofClass_mem_usesOf_iff`). So a class is reported as unused exactly when it
is the first of its key and nothing that is reached names it otherwise (`class_unused_iff`).

**The gap.** A class of which only fields are read is reported (`class_of_read_field_is_reported`).
-/

namespace PhpAudit

open PhpAudit.Tree

namespace Walk

/-- **A node names a class.** -/
inductive Node.Names : Node → Text → Prop
  /-- `Class::NAME`. -/
  | constant {l : Location} {c name : Text} :
      Names (.operand (some (.atom l (.classConstant c name)))) c
  /-- `Class::$name`. -/
  | field {l : Location} {c name : Text} : Names (.operand (some (.atom l (.classField c name)))) c
  /-- `Class::$$operand`. -/
  | variableField {l : Location} {c : Text} {x : Option Expr} :
      Names (.operand (some (.unary l (.classFieldVariable c) x))) c
  | instanceOf {l : Location} {c : Text} {x : Option Expr} :
      Names (.operand (some (.unary l (.instanceOf c) x))) c
  /-- `Class::name(...)`. -/
  | method {l : Location} {c name : Text} {args : List (Option Expr)} :
      Names (.operand (some (.call l (.classMethod c name) args))) c
  /-- `Class::$name(...)`. -/
  | variableMethod {l : Location} {c : Text} {x : Option Expr} {args : List (Option Expr)} :
      Names (.operand (some (.call l (.classVariableMethod c x) args))) c
  /-- `Class::__construct(...)`. -/
  | constructor {l : Location} {c : Text} {args : List (Option Expr)} :
      Names (.operand (some (.call l (.constructor c) args))) c
  /-- `new Class(...)`. -/
  | create {l : Location} {c : Text} {args : List (Option Expr)} :
      Names (.operand (some (.call l (.create c) args))) c
  | parent {head : ClassHead} {members : List Function} : head.parent ≠ "" →
      Names (.classDef (.mk head members)) head.parent
  | interface {head : ClassHead} {members : List Function} {name : Text} :
      name ∈ head.interfaces → Names (.classDef (.mk head members)) name

/-- A node that reads a field of a class that it names. -/
def Node.readsClassField : Node → Bool
  | .operand (some (.atom _ (.classField _ _))) => true
  | .operand (some (.unary _ (.classFieldVariable _) _)) => true
  | _ => false

/-! ## The entries of names -/

theorem usesOf_map_use (is : List Identity) : Ledger.usesOf (is.map .use) = is := by
  induction is with
  | nil => rfl
  | cons i is ih =>
    rw [List.map_cons, Ledger.usesOf, List.flatMap_cons]
    exact congrArg (i :: ·) ih

theorem usesOf_call (l : Location) (callee : Callee) (args : List (Option Expr)) :
    Ledger.usesOf (Node.operand (some (.call l callee args))).form.entries =
      usedBy (bare callee) := by
  have entries : (Node.operand (some (.call l callee args))).form.entries =
      (usedBy (bare callee)).map .use := List.append_nil _
  rw [entries, usesOf_map_use]

theorem usesOf_classDef (head : ClassHead) (members : List Function) :
    Ledger.usesOf (Node.classDef (.mk head members)).form.entries =
      (Ledger.Entry.classLike head).used :=
  List.append_nil _

/-- A call uses no other classes than it names. -/
theorem names_of_mem_usedBy {l : Location} {callee : Callee} {args : List (Option Expr)}
    {name : Text} (used : .ofClass name ∈ usedBy (bare callee)) :
    Node.Names (.operand (some (.call l callee args))) name := by
  cases callee with
  | classMethod c f =>
    obtain other | same := List.mem_cons.mp used
    · cases other
    · cases List.mem_singleton.mp same
      exact .method
  | classVariableMethod c x =>
    cases List.mem_singleton.mp used
    exact .variableMethod
  | constructor c =>
    cases List.mem_singleton.mp used
    exact .constructor
  | create c =>
    cases List.mem_singleton.mp used
    exact .create
  | function f qualified =>
    obtain other | other := List.mem_cons.mp used
    · cases other
    · split at other
      · cases List.mem_singleton.mp other
      · cases other
  | method _ f | ownMethod f | virtualMethod f | variableClassMethod _ f =>
    cases List.mem_singleton.mp used
  | _ => cases used

/-- A node makes entries of no other classes than it names, and none when it reads a field. -/
theorem names_of_mem_usesOf {n : Node} {name : Text}
    (used : .ofClass name ∈ Ledger.usesOf n.form.entries) :
    n.Names name ∧ n.readsClassField = false := by
  cases n with
  | operand x =>
    rcases x with _ | e
    · cases used
    · cases e with
      | atom l a =>
        cases a with
        | classConstant c f =>
          cases List.mem_singleton.mp used
          exact ⟨.constant, rfl⟩
        | _ => cases used
      | unary l form x =>
        cases form with
        | instanceOf c =>
          cases List.mem_singleton.mp used
          exact ⟨.instanceOf, rfl⟩
        | _ => cases used
      | call l callee args =>
        rw [usesOf_call] at used
        exact ⟨names_of_mem_usedBy used, rfl⟩
      | binary l form a b => cases form <;> cases used
      | _ => cases used
  | statement x =>
    rcases x with _ | s
    · cases used
    · cases s with
      | block b => cases b; cases used
      | _ => cases used
  | link l => cases l; cases used
  | targets ts => cases ts; cases used
  | function f => cases f; cases used
  | classDef d =>
    obtain ⟨head, members⟩ := d
    rw [usesOf_classDef, Ledger.mem_used_iff] at used
    cases used with
    | parent given => exact ⟨.parent given, rfl⟩
    | interface interface => exact ⟨.interface interface, rfl⟩
  | body b => cases b; cases used

/-- **The classes that a node makes entries of** are those that it names, unless it reads a field.
-/
theorem ofClass_mem_usesOf_iff {n : Node} {name : Text} :
    .ofClass name ∈ Ledger.usesOf n.form.entries ↔ n.Names name ∧ n.readsClassField = false := by
  constructor
  · exact names_of_mem_usesOf
  · rintro ⟨names, recorded⟩
    cases names with
    | constant => exact List.mem_singleton_self _
    | field => cases recorded
    | variableField => cases recorded
    | instanceOf => exact List.mem_singleton_self _
    | method =>
      rw [usesOf_call]
      exact List.mem_cons_of_mem _ (List.mem_singleton_self _)
    | variableMethod | constructor | create =>
      rw [usesOf_call]
      exact List.mem_singleton_self _
    | parent given =>
      rw [usesOf_classDef, Ledger.mem_used_iff]
      exact .parent given
    | interface interface =>
      rw [usesOf_classDef, Ledger.mem_used_iff]
      exact .interface interface

end Walk

/-! ## Keys of classes -/

theorem fold_ofClass (name : Text) :
    Text.fold (Identity.ofClass name).text = Text.fold name ++ ".class" := by
  -- the ending is its own fold, and does not start within a character
  have ending : Text.fold ".class" = ".class" := by decide +kernel
  show Text.fold (name ++ ".class") = _
  rw [Text.fold_append (by decide), ending]

/-- The text of a function or method, folded, is not that of a class. -/
theorem fold_call_ne (t name : Text) :
    Text.fold (t ++ "()") ≠ Text.fold (Identity.ofClass name).text := by
  have ending : Text.fold "()" = "()" := by decide +kernel
  rw [fold_ofClass, Text.fold_append (by decide), ending]
  intro same
  have last := congrArg (fun u : Text => u.bytes.getLast?) same
  have call : ("()" : Text).bytes = [40, 41] := by decide
  have dotted : (".class" : Text).bytes = [46, 99, 108, 97, 115, 115] := by decide
  simp [call, dotted] at last

/-- **The keys of classes** are those of no other identities, and are the same for names that have
the same fold. -/
theorem fold_text_eq_iff {i : Identity} {name : Text} :
    Text.fold i.text = Text.fold (Identity.ofClass name).text ↔
      ∃ c, i = .ofClass c ∧ Text.fold c = Text.fold name := by
  have other : ∀ t e, e ≠ Entity.classLike →
      (Text.fold (t ++ "()") = Text.fold (Identity.ofClass name).text ↔
        ∃ c, (⟨e, i.name⟩ : Identity) = .ofClass c ∧ Text.fold c = Text.fold name) := by
    intro t e different
    refine iff_of_false (fold_call_ne t name) ?_
    rintro ⟨c, same, -⟩
    exact different (congrArg Identity.entity same)
  obtain ⟨entity, t⟩ := i
  cases entity with
  | function => exact other t .function (by decide)
  | staticMethod => exact other ("static::" ++ t) .staticMethod (by decide)
  | method => exact other ("$object->" ++ t) .method (by decide)
  | classLike =>
    show Text.fold (Identity.ofClass t).text = _ ↔ _
    rw [fold_ofClass, fold_ofClass]
    constructor
    · intro same
      have bytes := List.append_cancel_right (congrArg Text.bytes same)
      exact ⟨t, rfl, congrArg Text.mk bytes⟩
    · rintro ⟨c, ⟨⟩, same⟩
      rw [same]

/-! ## What is reported -/

/-- The identities that a covered program uses are those of the nodes that it reaches. -/
theorem mem_usesOf_entries_iff {s : Session} {p : Program} (covered : (s.analyze p).2.2 = none)
    {i : Identity} : i ∈ Ledger.usesOf (s.entries p) ↔
      ∃ n ∈ (Walk.starts p).flatMap Walk.Node.reached, i ∈ Ledger.usesOf n.form.entries := by
  have entries : s.entries p = Walk.noted (Walk.starts p) := Walk.entriesOf_program covered
  rw [entries, Walk.noted, Ledger.usesOf, List.flatMap_assoc, List.mem_flatMap]
  rfl

section Covered

variable {c : Config} {root : Session} (started : Session.ofConfig c = .ok root)
  {programs : List Program} (covered : ∀ p ∈ programs, (root.analyze p).2.2 = none)

include started covered

/-- **A class is reported as unused** exactly when it is the first declaration of its key, and no
node that is reached names it but in reads of its fields. -/
theorem class_unused_iff {name : Text} {loc : Location} :
    ⟨.ofClass name, loc⟩ ∈ (analyzePrograms c programs).result.unused ↔
      (∃ before after,
        programs.flatMap root.declarations = before ++ ⟨.ofClass name, loc⟩ :: after ∧
          ∀ d ∈ before, Text.fold d.name ≠ Text.fold (Identity.ofClass name).text) ∧
      ∀ p ∈ programs, ∀ n ∈ (Walk.starts p).flatMap Walk.Node.reached, n.readsClassField = false →
        ∀ c, n.Names c → Text.fold c ≠ Text.fold name := by
  obtain ⟨-, -, unused⟩ := Session.reported_of_covered started covered
  rw [unused, Ledger.empty, Ledger.mem_unused_foldl_enter,
    Session.declarationsOf_flatMap_entries started]
  refine and_congr_right fun _ => ?_
  constructor
  · intro unused p given n reached recorded c names same
    have used : Identity.ofClass c ∈ Ledger.usesOf (root.entries p) := by
      rw [mem_usesOf_entries_iff (covered p given)]
      exact ⟨n, reached, Walk.ofClass_mem_usesOf_iff.mpr ⟨names, recorded⟩⟩
    refine unused (.ofClass c) ?_ (fold_text_eq_iff.mpr ⟨c, rfl, same⟩)
    rw [Ledger.usesOf, List.flatMap_assoc]
    exact List.mem_flatMap.mpr ⟨p, given, used⟩
  · intro unnamed i used same
    obtain ⟨c, rfl, folds⟩ := fold_text_eq_iff.mp same
    rw [Ledger.usesOf, List.flatMap_assoc] at used
    obtain ⟨p, given, used⟩ := List.mem_flatMap.mp used
    obtain ⟨n, reached, used⟩ := (mem_usesOf_entries_iff (covered p given)).mp used
    obtain ⟨names, recorded⟩ := Walk.ofClass_mem_usesOf_iff.mp used
    exact unnamed p given n reached recorded c names folds

end Covered

/-- **A class that is named is not reported**: when no program fails, no class that is reported as
unused has the name, in whatever letters, of a class that a reached node names, but in reads of
class fields. -/
theorem named_class_is_not_reported {c : Config} {programs : List Program}
    (covered : (analyzePrograms c programs).failure = none) :
    ∀ d ∈ (analyzePrograms c programs).result.unused, d.identity.entity = .classLike →
      ∀ p ∈ programs, ∀ n ∈ (Walk.starts p).flatMap Walk.Node.reached, n.readsClassField = false →
        ∀ name, n.Names name → Text.fold name ≠ Text.fold d.identity.name := by
  cases started : Session.ofConfig c with
  | error e =>
    rw [analyzePrograms, started] at covered
    cases covered
  | ok root =>
    rintro ⟨⟨entity, name⟩, loc⟩ reported rfl
    have each := (Session.failure_analyzePrograms_eq_none_iff started).mp covered
    exact ((class_unused_iff started each).mp reported).2

/-- A program with two classes that makes an object of one of them, in other letters. -/
def creatingProgram : Program where
  file := "src/a"
  body := .mk .unknown
    [.classDef ⟨"src/a", 1, "", ""⟩ (some (.mk ⟨⟨"src/a", 1, "", ""⟩, "Idle", "", [], false⟩ [])),
      .classDef ⟨"src/a", 2, "", ""⟩ (some (.mk ⟨⟨"src/a", 2, "", ""⟩, "Busy", "", [], false⟩ [])),
      .simple ⟨"src/a", 3, "", ""⟩ .evaluate
        (some (.call ⟨"src/a", 3, "", ""⟩ (.create "busy") []))]
  functions := []

/-- The class that an object is made of is not reported, and the other is. -/
theorem created_class_is_not_reported :
    ⟨.ofClass "Idle", ⟨"src/a", 1, "", ""⟩⟩ ∈
      (analyzePrograms Session.echoConfig [creatingProgram]).result.unused ∧
    ∀ d ∈ (analyzePrograms Session.echoConfig [creatingProgram]).result.unused,
      d.identity.entity = .classLike → Text.fold d.identity.name ≠ Text.fold "Busy" := by
  have each : ∀ p ∈ [creatingProgram], (Session.echoSession.analyze p).2.2 = none := by decide
  constructor
  · rw [(Session.reported_of_covered Session.ofConfig_echoConfig each).2.2]
    refine Ledger.mem_unused_foldl_enter.mpr
      ⟨⟨[], [⟨.ofClass "Busy", ⟨"src/a", 2, "", ""⟩⟩], ?_, nofun⟩, ?_⟩
    · decide +kernel
    · decide +kernel
  · intro d reported isClass same
    have covered :=
      (Session.failure_analyzePrograms_eq_none_iff Session.ofConfig_echoConfig).mpr each
    have folds : Text.fold "busy" = Text.fold "Busy" := by decide +kernel
    refine named_class_is_not_reported covered d reported isClass creatingProgram
      (List.mem_singleton_self _) (.operand (some (.call ⟨"src/a", 3, "", ""⟩ (.create "busy") [])))
      ?_ rfl "busy" .create (folds.trans same.symm)
    refine List.mem_flatMap_of_mem List.mem_cons_self (Walk.Node.mem_reached_of_child
      (.tail _ (.tail _ (.head _))) (Walk.Node.mem_reached_of_child (.head _) ?_))
    exact Walk.Node.mem_reached_self _

/-! ## A class that only a field is read of -/

/-- A program with a class that prints a field of it. -/
def fieldReadingProgram : Program where
  file := "src/a"
  body := .mk .unknown
    [.classDef ⟨"src/a", 1, "", ""⟩ (some (.mk ⟨⟨"src/a", 1, "", ""⟩, "Foo", "", [], false⟩ [])),
      .simple ⟨"src/a", 2, "", ""⟩ .echo
        (some (.atom ⟨"src/a", 2, "", ""⟩ (.classField "Foo" "x")))]
  functions := []

/-- **The class is reported**, although an expression that is reached names it. -/
theorem class_of_read_field_is_reported :
    (analyzePrograms Session.echoConfig [fieldReadingProgram]).failure = none ∧
    ⟨.ofClass "Foo", ⟨"src/a", 1, "", ""⟩⟩ ∈
      (analyzePrograms Session.echoConfig [fieldReadingProgram]).result.unused ∧
    ∃ n ∈ (Walk.starts fieldReadingProgram).flatMap Walk.Node.reached, n.Names "Foo" := by
  have each : ∀ p ∈ [fieldReadingProgram], (Session.echoSession.analyze p).2.2 = none := by decide
  refine ⟨(Session.failure_analyzePrograms_eq_none_iff Session.ofConfig_echoConfig).mpr each, ?_,
    .operand (some (.atom ⟨"src/a", 2, "", ""⟩ (.classField "Foo" "x"))), ?_, .field⟩
  · rw [(Session.reported_of_covered Session.ofConfig_echoConfig each).2.2]
    refine Ledger.mem_unused_foldl_enter.mpr ⟨⟨[], [], ?_, nofun⟩, ?_⟩
    · decide +kernel
    · decide +kernel
  · refine List.mem_flatMap_of_mem List.mem_cons_self (Walk.Node.mem_reached_of_child
      (.tail _ (.head _)) (Walk.Node.mem_reached_of_child (.head _) ?_))
    exact Walk.Node.mem_reached_self _

end PhpAudit
