import PhpAudit.Proofs.Tree.Reading

/-!
# The keys of a mapping

What the walk of a document reads from one key of a mapping is read from the position of that key: a
simple value, a node, a list of nodes or of entries, the targets of an assignment, a body. All this
is relative to `ReadsBelow`: that smaller nodes are read from their positions.

Three things in a tree are put together from what is read, and are not read as they stand there. The
body of a case loses a block without a place, a statement that is a whole body gains one, and a list
of targets gains a node, placed like the assignment.
-/

namespace PhpAudit.Tree

open Yaml (Node)
open Element

variable {α β : Type} {d : Yaml.Document} {l : Location} {n : Node} {path : Path} {key : String}

/-! ## Locations -/

theorem text_eq_ok {file c f t : Text} (h : Context.text ⟨d, file, c, f⟩ n key = .ok t) :
    t = textOf d n key := Context.value_eq_ok h

theorem integer_eq_ok {file c f : Text} {i : Int}
    (h : Context.integer ⟨d, file, c, f⟩ n key = .ok i) : i = integerOf d n key :=
  Context.value_eq_ok h

namespace IsReading

theorem text (path : Path) (c f : Text) : IsReading d l [.ofRow path n (key, .text)]
    ((fun _ => []) <$> Context.text ⟨d, namedFile d, c, f⟩ n key) := value (fun _ => rfl) path c f

theorem integer (path : Path) (c f : Text) : IsReading d l [.ofRow path n (key, .integer)]
    ((fun _ => []) <$> Context.integer ⟨d, namedFile d, c, f⟩ n key) := value (fun _ => rfl) path c f

theorem flag (path : Path) (c f : Text) : IsReading d l [.ofRow path n (key, .flag)]
    ((fun _ => []) <$> Context.flag ⟨d, namedFile d, c, f⟩ n key) := value (fun _ => rfl) path c f

theorem texts (path : Path) (c f : Text) : IsReading d l [.ofRow path n (key, .texts)]
    ((fun _ => []) <$> Context.texts ⟨d, namedFile d, c, f⟩ n key) := value (fun _ => rfl) path c f

/-- Nothing is read and nothing is given. -/
theorem done (a : α) : IsReading d l [] ((fun _ => []) <$> (pure a : Reads α)) := nil

/-- Silent readings in sequence. -/
theorem silently {x : Reads α} {y : α → Reads β} {qs ps : List Position}
    (hx : IsReading d l qs ((fun _ => []) <$> x))
    (hy : ∀ a, x = .ok a → IsReading d l ps ((fun _ => []) <$> y a)) :
    IsReading d l (qs ++ ps) ((fun _ => []) <$> (x >>= y)) := by
  rw [map_bind]
  exact hx.after hy

/-- The rows of a location are read when a node is placed. -/
theorem location (path : Path) (c f : Text) :
    IsReading d l ((locationRows d n).map (.ofRow path n))
      ((fun _ => []) <$> Context.location ⟨d, namedFile d, c, f⟩ n) := by
  refine (integer path c f).silently fun line hline => ?_
  obtain rfl := integer_eq_ok hline
  by_cases unplaced : integerOf d n "line" ≤ 0
  · simp only [if_pos unplaced]
    exact done _
  · simp only [if_neg unplaced]
    exact (text path c f).silently fun _ _ => (text path c f).silently fun _ _ => done _

end IsReading

/-- **A node is placed where its mapping asks for.** -/
theorem location_eq {loc : Location} (h : (contextIn d path).location n = .ok loc) :
    loc = locationIn d path n := by
  unfold Context.location at h
  obtain ⟨line, hline, h⟩ := bind_eq_ok_iff.1 h
  obtain rfl := integer_eq_ok hline
  rw [locationIn]
  by_cases unplaced : integerOf d n "line" ≤ 0
  · rw [if_pos unplaced] at h ⊢
    exact (Except.ok.inj h).symm
  · rw [if_neg unplaced] at h ⊢
    obtain ⟨className, hc, h⟩ := bind_eq_ok_iff.1 h
    obtain ⟨function, hf, h⟩ := bind_eq_ok_iff.1 h
    obtain rfl := text_eq_ok hc
    obtain rfl := text_eq_ok hf
    exact (Except.ok.inj h).symm

/-! ## The nodes of a mapping -/

namespace Role

variable (ctx : Context)

theorem read_expression : ofOperand <$> readExpr ctx n = Option.toList <$> expression.read ctx n := by
  rw [read, Functor.map_map]
  rfl

theorem read_statement : ofStatement <$> readStmt ctx n = Option.toList <$> statement.read ctx n := by
  rw [read, Functor.map_map]
  rfl

theorem read_function :
    ofDefinition <$> readFunction ctx "" n = Option.toList <$> function.read ctx n := by
  rw [read, Functor.map_map]
  rfl

theorem read_member :
    ofDefinition <$> readFunction ctx ctx.className n = Option.toList <$> member.read ctx n := by
  rw [read, Functor.map_map]
  rfl

theorem read_classRecord : ofClass <$> readClass ctx n = Option.toList <$> classRecord.read ctx n := by
  rw [read, Functor.map_map]
  rfl

end Role

/-- **Everything smaller than a node is read from its position**, whatever its role and wherever it
stands. -/
def ReadsBelow (d : Yaml.Document) (n : Node) : Prop :=
  ∀ c, sizeOf c < sizeOf n → ∀ r path holder key l,
    IsReading d l [⟨path, holder, key, some c, .node r⟩] (Option.toList <$> r.read (contextIn d path) c)

theorem ReadsBelow.part (below : ReadsBelow d n) (p : Part n) : ReadsBelow d p.1 :=
  fun c hc => below c (Nat.lt_trans hc p.2)

theorem part?_eq_none (h : n.field? key = none) : part? n key = none := by
  unfold part?
  split
  next c hc => simp [h] at hc
  next => rfl

theorem part?_eq_some {v : Node} (h : n.field? key = some v) :
    part? n key = some ⟨v, Node.sizeOf_lt_of_field? h⟩ := by
  unfold part?
  split
  next c hc =>
    obtain rfl : v = c := Option.some.inj (h.symm.trans hc)
    rfl
  next hc => simp [h] at hc

/-- The parts of a list are its items. -/
theorem map_itemParts (n : Node) (pos : Node → Position) :
    (itemParts n).map (fun p => pos p.1) = n.items.map pos := by
  rw [itemParts, List.map_map]
  exact List.attach_map_val

theorem Node.plain_of_isNull {v : Node} (null : v.isNull = true) :
    v.items = [] ∧ v.isMapping = false ∧ v.isSequence = false := by
  cases v <;> simp_all [Node.isNull, Node.items, Node.isMapping, Node.isSequence]

/-! ## The steps of the walk -/

theorem readExpr_eq (ctx : Context) (n : Node) : readExpr ctx n = (readers n).exprStep ctx := by
  rw [readExpr]
  rfl

theorem readStmt_eq (ctx : Context) (n : Node) : readStmt ctx n = (readers n).stmtStep ctx := by
  rw [readStmt]
  rfl

theorem readFunction_eq (ctx : Context) (memberOf : Text) (n : Node) :
    readFunction ctx memberOf n = (readers n).functionStep ctx memberOf := by
  rw [readFunction]
  rfl

theorem readClass_eq (ctx : Context) (n : Node) : readClass ctx n = (readers n).classStep ctx := by
  rw [readClass]
  rfl

/-- An expression that is not null is there when it is read, of the kind its mapping names. -/
theorem readExpr_kind {ctx : Context} {e : Option Expr} (present : n.isNull = false)
    (done : readExpr ctx n = .ok e) :
    ∃ e' kind f, e = some e' ∧ ctx.text n "kind" = .ok kind ∧ Expr.ofFields kind f = .ok e' := by
  rw [readExpr_eq, Readers.exprStep, present] at done
  by_cases mapping : n.isMapping
  · simp only [mapping, Bool.false_eq_true, if_false, if_true] at done
    obtain ⟨kind, hkind, done⟩ := bind_eq_ok_iff.1 done
    obtain ⟨loc, -, done⟩ := bind_eq_ok_iff.1 done
    obtain ⟨e', he, done⟩ := bind_eq_ok_iff.1 done
    exact ⟨e', kind, _, (Except.ok.inj done).symm, hkind, he⟩
  · simp [mapping, Context.refuse] at done

namespace IsReading

/-- Nothing is read where a key is absent. -/
theorem absent {q : Position} (empty : q.node = none) (right : q.wrong? d = none) :
    IsReading d l [q] (pure []) := by
  refine within right (fun _ _ h => by simpa [empty] using h.node) ?_
  simpa [Position.parts, empty] using nil

/-- An expression below a node. -/
theorem part (below : ReadsBelow d n) (p : Part n) (holder : Node) :
    IsReading d l [⟨path, holder, key, some p.1, .expr⟩]
      (ofOperand <$> (readers n).expr (contextIn d path) p) := by
  have h := below p.1 p.2 .expression path holder key l
  rwa [← Role.read_expression] at h

/-- The node of a key. -/
theorem keyed (below : ReadsBelow d n) (r : Role) :
    IsReading d l [.ofRow path n (key, .node r)]
      (match part? n key with
        | some p => Option.toList <$> r.read (contextIn d path) p.1
        | none => pure []) := by
  cases h : n.field? key with
  | none =>
    rw [part?_eq_none h]
    exact absent h (by simp [Position.wrong?, Position.ofRow, h])
  | some v =>
    rw [part?_eq_some h, Position.ofRow, h]
    exact below v (Node.sizeOf_lt_of_field? h) r path n key l

/-- The list of a key, item by item. -/
theorem list {w : Want} {f : β → List Element} {g : Part n → Reads β} (c fn : Text)
    (item : ∀ v : Part n, ∀ p : Part n, IsReading d l [.ofItem path key w v.1 p.1] (f <$> g p)) :
    IsReading d l [.ofRow path n (key, .list w)]
      (List.flatMap f <$> (Context.list ⟨d, namedFile d, c, fn⟩ n key >>= fun ps => ps.mapM g)) := by
  unfold Context.list
  cases h : n.field? key with
  | none =>
    rw [part?_eq_none h]
    exact absent h (by simp [Position.wrong?, Position.ofRow, h])
  | some v =>
    rw [part?_eq_some h]
    have plain : ∀ r m, ¬ (Position.ofRow path n (key, .list w)).Describes r m :=
      fun _ _ h => Want.noConfusion h.want
    by_cases null : v.isNull
    · simp only [null, if_true]
      refine within (by simp [Position.wrong?, Position.ofRow, h, null]) plain ?_
      simpa [Position.parts, Position.ofRow, h, Node.plain_of_isNull null] using nil
    · by_cases sequence : v.isSequence
      · simp only [null, sequence, Bool.false_eq_true, if_false, if_true, pure_bind]
        refine within (by simp [Position.wrong?, Position.ofRow, h, sequence]) plain ?_
        let whole : Part n := ⟨v, Node.sizeOf_lt_of_field? h⟩
        have parts : (Position.ofRow path n (key, .list w)).parts d =
            ((itemParts v).map whole.within).map fun p => .ofItem path key w v p.1 := by
          rw [List.map_map]
          exact (by simp [Position.parts, Position.ofRow, h] : _ = v.items.map _).trans
            (map_itemParts v _).symm
        rw [parts]
        exact mapM fun p _ => item whole p
      · simp only [null, sequence]
        have wrong : (Position.ofRow path n (key, .list w)).wrong? d = some (v.line, .notList key) := by
          simp [Position.wrong?, Position.ofRow, h, null, sequence]
        exact failing wrong

/-- The node of a key, read as what it is in the tree. -/
theorem one {γ : Type} {f : Option γ → List Element} {x : Part n → Reads (Option γ)}
    (below : ReadsBelow d n) (r : Role) (missing : f none = [])
    (same : ∀ p, f <$> x p = Option.toList <$> r.read (contextIn d path) p.1) :
    IsReading d l [.ofRow path n (key, .node r)]
      (f <$> match part? n key with
        | some p => x p
        | none => pure none) := by
  have h : IsReading d l [.ofRow path n (key, .node r)] _ := keyed below r
  cases hp : part? n key with
  | none => simpa [hp, missing] using h
  | some p => simpa [hp, same] using h

theorem expr (below : ReadsBelow d n) : IsReading d l [.ofRow path n (key, .expr)]
    (ofOperand <$> (readers n).exprOf (contextIn d path) key) :=
  one below .expression rfl fun _ => Role.read_expression _

theorem stmt (below : ReadsBelow d n) : IsReading d l [.ofRow path n (key, .stmt)]
    (ofStatement <$> (readers n).stmtOf (contextIn d path) key) :=
  one below .statement rfl fun _ => Role.read_statement _

/-- The nodes of one role in the list of a key. -/
theorem many {γ : Type} {f : Option γ → List Element} {x : Part n → Reads (Option γ)} (c fn : Text)
    (below : ReadsBelow d n) (r : Role)
    (same : ∀ p, f <$> x p = Option.toList <$> r.read (contextIn d path) p.1) :
    IsReading d l [.ofRow path n (key, .list (.node r))]
      (List.flatMap f <$> (Context.list ⟨d, namedFile d, c, fn⟩ n key >>= fun ps => ps.mapM x)) :=
  list c fn fun v p => by
    rw [same]
    exact below p.1 p.2 r path v.1 key l

theorem exprs (below : ReadsBelow d n) : IsReading d l [.ofRow path n (key, .exprs)]
    (ofOperands <$> (readers n).exprsOf (contextIn d path) key) :=
  many _ _ below .expression fun _ => Role.read_expression _

/-- Statements in sequence. -/
theorem map_sequenceOf (ctx : Context) (ps : List (Part n)) :
    List.map .stmt <$> (readers n).sequenceOf ctx ps =
      List.flatMap ofStatement <$> ps.mapM (readers n |>.stmt ctx) := by
  simp only [Readers.sequenceOf, map_eq_pure_bind, bind_assoc, pure_bind, map_filterMap_id]
  rfl

theorem stmts (below : ReadsBelow d n) : IsReading d l [.ofRow path n (key, .list .stmt)]
    (List.map .stmt <$> (do
      (readers n).sequenceOf (contextIn d path) (← (contextIn d path).list n key))) := by
  simp only [map_bind, map_sequenceOf]
  rw [← map_bind]
  exact many _ _ below .statement fun _ => Role.read_statement _

theorem items (below : ReadsBelow d n) : IsReading d l [.ofRow path n (key, .list .item)]
    (List.flatMap ofItem <$> (readers n).itemsOf (contextIn d path) key) :=
  list _ _ fun v p => by
    refine within rfl (fun _ _ h => Want.noConfusion h.want) ?_
    simp only [map_bind, map_pure]
    exact (expr (below.part p)).andThen (g := fun _ => ofOperand) fun _ _ => expr (below.part p)

/-- What is read where no place is known has the unknown location, unless it has a line. -/
theorem unplaced {qs : List Position} {x : Reads (List Element)} (hx : IsReading d .unknown qs x)
    {xs : List Element} (done : x = .ok xs) {z : Element} (holds : Holds xs z)
    (unknown : z.loc.isUnknown = true) : z.loc = .unknown := by
  obtain h | h | ⟨q, -, r, m, -, h⟩ := hx.placed xs done z holds
  · exact h
  · exact h
  · by_cases line : integerOf d m "line" ≤ 0
    · rw [h, locationIn, if_pos line]
    · simp [h, locationIn, Location.isUnknown, line] at unknown

/-- The statements of a case: those of its body, if that is a block without a place. -/
theorem caseBody (below : ReadsBelow d n) : IsReading d l [.ofRow path n (key, .stmt)]
    ((fun body => [Element.stmt (.block (.mk .unknown (match body with
      | none => []
      | some (.block b) => if b.loc.isUnknown then b.stmts else [.block b]
      | some s => [s])))]) <$> (readers n).stmtOf (contextIn d path) key) := by
  refine (stmt below).regroup (fun body done z hz => ?_) (fun body done z hz => ?_)
  · rcases body with _ | s
    · simp at hz
    · obtain rfl := List.mem_singleton.1 hz
      cases s with
      | block b =>
        by_cases unknown : b.loc.isUnknown
        · have place : b.loc = .unknown := (stmt below).unplaced (z := .stmt (.block b))
            (map_eq_ok_iff.2 ⟨_, done, rfl⟩) (.here (List.mem_singleton_self _)) unknown
          obtain ⟨loc, ss⟩ := b
          obtain rfl : loc = .unknown := place
          exact .here (List.mem_singleton_self _)
        · simp only [unknown]
          exact .inside (List.mem_singleton_self _) (.here (List.mem_singleton_self _))
      | _ => exact .inside (List.mem_singleton_self _) (.here (List.mem_singleton_self _))
  · obtain rfl | hz := Holds.singleton_iff.1 hz
    · exact .inl rfl
    · refine .inr (.inr ⟨z, ?_, rfl⟩)
      rcases body with _ | s
      · exact (Holds.not_nil hz).elim
      · cases s with
        | block b =>
          by_cases unknown : b.loc.isUnknown
          · simp only [unknown, if_true] at hz
            exact .inside (List.mem_singleton_self _) hz
          · simp only [unknown] at hz
            exact hz
        | _ => exact hz

theorem cases (below : ReadsBelow d n) : IsReading d l [.ofRow path n (key, .list .case)]
    (List.flatMap ofCase <$> (readers n).casesOf (contextIn d path) key) :=
  list _ _ fun v p => by
    refine within rfl (fun _ _ h => Want.noConfusion h.want) ?_
    simp only [map_bind, map_pure]
    refine (flag _ _ _).after fun _ _ => ?_
    exact (exprs (below.part p)).andThen fun _ _ => caseBody (below.part p)

theorem handlers (below : ReadsBelow d n) : IsReading d l [.ofRow path n (key, .list .handler)]
    (List.flatMap ofHandler <$> (readers n).handlersOf (contextIn d path) key) :=
  list _ _ fun v p => by
    refine within rfl (fun _ _ h => Want.noConfusion h.want) ?_
    simp only [map_bind, map_pure]
    exact (texts _ _ _).after fun _ _ => (text _ _ _).after fun _ _ => stmt (below.part p)

/-- A parameter that is a scalar has no default. -/
theorem params (below : ReadsBelow d n) : IsReading d l [.ofRow path n (key, .list .param)]
    (List.flatMap ofParam <$> (readers n).paramsOf (contextIn d path) key) :=
  list _ _ fun v p => by
    refine within rfl (fun _ _ h => Want.noConfusion h.want) ?_
    have whole : IsReading d l (Position.parts d (.ofItem path key .param v.1 p.1)) (do
        let _ ← (contextIn d path).text p.1 "name"
        ofOperand <$> (readers p.1).exprOf (contextIn d path) "default") :=
      (text _ _ _).after fun _ _ => expr (below.part p)
    obtain ⟨p, hp⟩ := p
    cases p with
    | scalar => exact whole
    | sequence | mapping | reference =>
      simp only [map_bind, map_pure]
      exact whole

/-- The body of a function, or the statements of a program: a statement alone makes a block. -/
theorem block (below : ReadsBelow d n) : IsReading d l [.ofRow path n (key, .stmt)]
    ((fun b : Option Block => ofStatement (b.map .block)) <$>
      (readers n).blockOf (contextIn d path) key) := by
  have same : (fun b : Option Block => ofStatement (b.map .block)) <$>
      (readers n).blockOf (contextIn d path) key = (fun s => match s with
        | none => []
        | some (.block b) => [.stmt (.block b)]
        | some s => [.stmt (.block (.mk s.loc [s]))]) <$>
          (readers n).stmtOf (contextIn d path) key := by
    unfold Readers.blockOf
    cases (readers n).stmtOf (contextIn d path) key with
    | error e => rfl
    | ok s =>
      rcases s with _ | s
      · rfl
      · cases s <;> rfl
  rw [same]
  refine (stmt below).regroup (fun body done z hz => ?_) (fun body done z hz => ?_)
  · rcases body with _ | s
    · simp at hz
    · obtain rfl := List.mem_singleton.1 hz
      cases s with
      | block b => exact .here (List.mem_singleton_self _)
      | _ => exact .inside (List.mem_singleton_self _) (.here (List.mem_singleton_self _))
  · refine .inr (.inr ?_)
    rcases body with _ | s
    · exact (Holds.not_nil hz).elim
    · cases s with
      | block b => exact ⟨z, hz, rfl⟩
      | _ =>
        obtain rfl | hz := Holds.singleton_iff.1 hz
        · exact ⟨_, .here (List.mem_singleton_self _), rfl⟩
        · exact ⟨z, hz, rfl⟩

/-- Targets that are written as a list are placed like the assignment. -/
theorem targetList (below : ReadsBelow d n) (p : Part n) :
    IsReading d l ((itemParts p.1).map fun c => .ofItem path key .expr p.1 c.1)
      ((fun ms => [Element.expr (.list l .targets ms)]) <$>
        (itemParts p.1).mapM fun c => (readers n).expr (contextIn d path) (p.within c)) := by
  have items := mapM fun c (_ : c ∈ itemParts p.1) =>
    (part below (p.within c) p.1 : IsReading d l [.ofItem path key .expr p.1 c.1] _)
  refine items.regroup (fun ms _ z hz => ?_) (fun ms _ z hz => ?_)
  · exact .inside (List.mem_singleton_self _) (.here hz)
  · obtain rfl | hz := Holds.singleton_iff.1 hz
    · exact .inr (.inl rfl)
    · exact .inr (.inr ⟨z, hz, rfl⟩)

/-- Targets that are written out are an expression of their kind. -/
theorem targetNode (below : ReadsBelow d n) (p : Part n) (present : p.1.isNull = false) :
    IsReading d l [⟨path, n, key, some p.1, .expr⟩, .ofRow path p.1 ("kind", .word .targetsKind)]
      (ofTargets <$> do
        match ← (readers n).expr (contextIn d path) p with
        | none => return none
        | some (.list l .targets ms) => return some (.mk l ms)
        | some e => (contextIn d path).refuse p.1 (.notTargets e.kind)) := by
  refine (part below p n).checked (fun e done => ?_) (fun e b done hb => ?_)
  · obtain ⟨e, kind, f, rfl, hkind, he⟩ := readExpr_kind present done
    refine word path (classAround d path) (functionAround d path) ?_
    rw [contextIn] at hkind
    obtain rfl := text_eq_ok hkind
    rw [hkind, fault?_ok, Option.none_or]
    by_cases targets : textOf d p.1 "kind" = "list_head"
    · obtain ⟨l', ms, rfl⟩ := (Expr.ofFields_targets he).1 targets
      simp [Vocabulary.knows, targets, pure, Except.pure]
    · have unknown : Vocabulary.targetsKind.knows (textOf d p.1 "kind") = false := by
        simpa [Vocabulary.knows] using targets
      rw [unknown]
      split
      next h => cases h
      next l' ms h =>
        cases h
        exact (targets ((Expr.ofFields_targets he).2 ⟨l', ms, rfl⟩)).elim
      next e' _ h =>
        obtain rfl := Option.some.inj h
        rw [(Expr.ofFields_shown he).1]
        rfl
  · split at hb <;> cases hb <;> rfl

/-- The targets of a list assignment. -/
theorem targets (below : ReadsBelow d n) : IsReading d l [.ofRow path n (key, .targets)]
    (ofTargets <$> (readers n).targetsOf (contextIn d path) l key) := by
  have right : (Position.ofRow path n (key, .targets)).wrong? d = none := rfl
  unfold Readers.targetsOf
  cases h : n.field? key with
  | none =>
    rw [part?_eq_none h]
    exact absent h right
  | some v =>
    let p : Part n := ⟨v, Node.sizeOf_lt_of_field? h⟩
    rw [part?_eq_some h]
    refine within right (fun _ _ h => Want.noConfusion h.want) ?_
    by_cases null : v.isNull
    · simpa [Position.parts, Position.ofRow, h, null, ofTargets] using nil
    · by_cases sequence : v.isSequence
      · have parts : (Position.ofRow path n (key, .targets)).parts d =
            (itemParts v).map fun c => .ofItem path key .expr v c.1 := by
          refine Eq.trans ?_ (map_itemParts v _).symm
          simp [Position.parts, Position.ofRow, h, null, sequence]
        simp only [null, sequence, Bool.false_eq_true, if_false, if_true, map_bind, map_pure]
        rw [parts, bind_pure_comp]
        exact targetList below p
      · have parts : (Position.ofRow path n (key, .targets)).parts d =
            [⟨path, n, key, some v, .expr⟩, .ofRow path v ("kind", .word .targetsKind)] := by
          simp [Position.parts, Position.ofRow, h, null, sequence]
        simp only [null, sequence, Bool.false_eq_true, if_false]
        rw [parts]
        exact targetNode below p (by simpa using null)

end IsReading

end PhpAudit.Tree
