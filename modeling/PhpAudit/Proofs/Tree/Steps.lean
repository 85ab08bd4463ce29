import PhpAudit.Proofs.Tree.Kinds

/-!
# The steps of the walk

In every role, a node of the tree is read from its position. For a mapping this is one step of the
walk: the keys of its role are read in the order of its rows, in the context of the records around
them, and what they hold is what the node holds. The step of a function record is where contexts
change: its content is read in the context that its path stands for (`innerOf_eq`).

`readsBelow` is the induction over the size of nodes that puts the steps together.
-/

namespace PhpAudit.Tree

open Yaml (Node)
open Element

variable {d : Yaml.Document} {l : Location} {n : Node} {path : Path} {key : String}

/-! ## What a mapping is read as -/

theorem Node.shape_of_isMapping (mapping : n.isMapping = true) :
    n.isNull = false ∧ n.isSequence = false := by
  cases n <;> simp_all [Node.isNull, Node.isMapping, Node.isSequence]

/-- The class a function record belongs to: the class it is a member of, or the one that it names
itself in no class. -/
def ownerOf (ctx : Context) (m : Text) (n : Node) : Reads Text :=
  if m = "" ∧ ctx.className = "" then ctx.text n "class" else pure m

/-- The context of the content of a function record. -/
def innerOf (ctx : Context) (owner given : Text) : Context :=
  { ctx with
    className := if owner = "" then ctx.className else owner
    function := if given = "" then closureName else given }

namespace Role

variable (ctx : Context)

theorem read_expression_mapping (mapping : n.isMapping = true) : expression.read ctx n = (do
    let kind ← ctx.text n "kind"
    let loc ← ctx.location n
    return some (.expr (← Expr.ofFields kind ((readers n).fields ctx loc)))) := by
  rw [Role.read, readExpr_eq, Readers.exprStep]
  simp only [Node.shape_of_isMapping mapping, mapping, Bool.false_eq_true, if_false, if_true,
    map_bind, map_pure, Option.map_some]

theorem read_statement_mapping (mapping : n.isMapping = true) : statement.read ctx n = (do
    let kind ← ctx.text n "kind"
    let loc ← ctx.location n
    return some (.stmt (← Stmt.ofFields kind ((readers n).fields ctx loc)))) := by
  rw [Role.read, readStmt_eq, Readers.stmtStep]
  simp only [Node.shape_of_isMapping mapping, mapping, Bool.false_eq_true, if_false, if_true,
    map_bind, map_pure, Option.map_some]

/-- The class that a function record is said to be a member of. -/
def memberOf (r : Role) (ctx : Context) : Text :=
  match r with
  | .member => ctx.className
  | _ => ""

/-- A function record, a member or not. -/
theorem read_record_mapping {r : Role} (record : r = .function ∨ r = .member)
    (mapping : n.isMapping = true) : r.read ctx n = (do
      let owner ← ownerOf ctx (r.memberOf ctx) n
      let given ← ctx.text n "name"
      let isStatic ← ctx.flag n "static"
      let isAbstract ← ctx.flag n "abstract"
      let visibility ← ctx.visibility n
      let inner := innerOf ctx owner given
      let loc ← inner.location n
      let params ← (readers n).paramsOf inner "params"
      let body ← (readers n).blockOf inner "body"
      return some (.function (.mk ⟨loc, inner.function, owner, visibility, isStatic, isAbstract⟩
        params body))) := by
  have step : r.read ctx n =
      Option.map .function <$> (readers n).functionStep ctx (r.memberOf ctx) := by
    obtain rfl | rfl := record <;> rw [Role.read, readFunction_eq] <;> rfl
  rw [step]
  unfold Readers.functionStep ownerOf innerOf
  simp only [Node.shape_of_isMapping mapping, mapping, Bool.false_eq_true, if_false, if_true]
  split <;> simp only [map_bind, map_pure, Option.map_some]

theorem read_classRecord_mapping (mapping : n.isMapping = true) : classRecord.read ctx n = (do
    let name ← ctx.text n "name"
    let parent ← ctx.text n "parent"
    let interfaces ← ctx.texts n "interfaces"
    let isInterface ← ctx.flag n "interface"
    let inner := { ctx with className := name, function := "" }
    let loc ← inner.location n
    let members ← inner.list n "functions" >>= fun ps => ps.mapM ((readers n).function inner name)
    return some (.classDef (.mk ⟨loc, name, parent, interfaces, isInterface⟩
      (members.filterMap id)))) := by
  rw [Role.read, readClass_eq, Readers.classStep]
  simp only [Node.shape_of_isMapping mapping, mapping, Bool.false_eq_true, if_false, if_true,
    map_bind, map_pure, Option.map_some, bind_assoc]

end Role

/-! ## Records and contexts -/

/-- In no class, or in one without a name, a function record names its class itself. -/
theorem ownerOf_of_alone (r : Role) (alone : classAround d path = "") :
    ownerOf (contextIn d path) (r.memberOf (contextIn d path)) n =
      (contextIn d path).text n "class" := by
  have none : r.memberOf (contextIn d path) = "" := by
    cases r <;> first | rfl | exact alone
  rw [ownerOf, none]
  exact if_pos ⟨rfl, alone⟩

/-- Within a class that has a name, a function record is of that class or of none. -/
theorem ownerOf_of_around (r : Role) (around : classAround d path ≠ "") :
    ownerOf (contextIn d path) (r.memberOf (contextIn d path)) n =
      pure (r.memberOf (contextIn d path)) :=
  if_neg fun h => around h.2

/-- The class a function record belongs to, within some records. -/
theorem ownerOf_eq {r : Role} {owner : Text}
    (done : ownerOf (contextIn d path) (r.memberOf (contextIn d path)) n = .ok owner) :
    owner = if classAround d path = "" then textOf d n "class"
      else r.memberOf (contextIn d path) := by
  by_cases alone : classAround d path = ""
  · rw [if_pos alone]
    rw [ownerOf_of_alone r alone] at done
    exact text_eq_ok done
  · rw [if_neg alone]
    rw [ownerOf_of_around r alone] at done
    exact (Except.ok.inj done).symm

/-- **The content of a function record is read in the context of the record.** -/
theorem innerOf_eq {r : Role} {owner given : Text}
    (howner : ownerOf (contextIn d path) (r.memberOf (contextIn d path)) n = .ok owner)
    (hgiven : (contextIn d path).text n "name" = .ok given) :
    innerOf (contextIn d path) owner given = contextIn d (.function n :: path) := by
  obtain rfl := ownerOf_eq howner
  obtain rfl := text_eq_ok hgiven
  by_cases alone : classAround d path = ""
  · simp only [innerOf, contextIn, classAround, functionAround, alone, if_true]
    congr 1
    split
    next empty => exact empty.symm
    next => rfl
  · simp only [innerOf, contextIn, classAround, functionAround, alone, if_false]
    cases r <;> simp [Role.memberOf, alone]

/-- **A mapping is read as a node that is placed where the mapping asks for.** -/
theorem exists_of_read {r : Role} {o : Option Element} (mapping : n.isMapping = true)
    (done : r.read (contextIn d path) n = .ok o) :
    ∃ z, o = some z ∧ z.loc = locationIn d (r.scope path n) n := by
  cases r with
  | expression =>
    rw [Role.read_expression_mapping _ mapping] at done
    obtain ⟨kind, -, done⟩ := bind_eq_ok_iff.1 done
    obtain ⟨loc, hloc, done⟩ := bind_eq_ok_iff.1 done
    obtain rfl := location_eq hloc
    obtain ⟨e, he, done⟩ := bind_eq_ok_iff.1 done
    exact ⟨.expr e, (Except.ok.inj done).symm, (Expr.ofFields_shown he).2⟩
  | statement =>
    rw [Role.read_statement_mapping _ mapping] at done
    obtain ⟨kind, -, done⟩ := bind_eq_ok_iff.1 done
    obtain ⟨loc, hloc, done⟩ := bind_eq_ok_iff.1 done
    obtain rfl := location_eq hloc
    obtain ⟨s, hs, done⟩ := bind_eq_ok_iff.1 done
    exact ⟨.stmt s, (Except.ok.inj done).symm, (Stmt.ofFields_shown hs).2⟩
  | function | member =>
    rw [Role.read_record_mapping _ (by simp) mapping] at done
    obtain ⟨owner, howner, done⟩ := bind_eq_ok_iff.1 done
    obtain ⟨given, hgiven, done⟩ := bind_eq_ok_iff.1 done
    obtain ⟨_, -, done⟩ := bind_eq_ok_iff.1 done
    obtain ⟨_, -, done⟩ := bind_eq_ok_iff.1 done
    obtain ⟨_, -, done⟩ := bind_eq_ok_iff.1 done
    rw [innerOf_eq howner hgiven] at done
    obtain ⟨loc, hloc, done⟩ := bind_eq_ok_iff.1 done
    obtain rfl := location_eq hloc
    obtain ⟨_, -, done⟩ := bind_eq_ok_iff.1 done
    obtain ⟨_, -, done⟩ := bind_eq_ok_iff.1 done
    exact ⟨_, (Except.ok.inj done).symm, rfl⟩
  | classRecord =>
    rw [Role.read_classRecord_mapping _ mapping] at done
    obtain ⟨name, hname, done⟩ := bind_eq_ok_iff.1 done
    obtain rfl := text_eq_ok hname
    obtain ⟨_, -, done⟩ := bind_eq_ok_iff.1 done
    obtain ⟨_, -, done⟩ := bind_eq_ok_iff.1 done
    obtain ⟨_, -, done⟩ := bind_eq_ok_iff.1 done
    obtain ⟨loc, hloc, done⟩ := bind_eq_ok_iff.1 done
    obtain rfl : loc = locationIn d (.classRecord n :: path) n := location_eq hloc
    obtain ⟨_, -, done⟩ := bind_eq_ok_iff.1 done
    exact ⟨_, (Except.ok.inj done).symm, rfl⟩

/-! ## Steps -/

namespace IsReading

variable {holder : Node}

/-- A mapping is read in its role when its parts are read from its rows. -/
theorem mapping {r : Role} (mapping : n.isMapping = true)
    (hx : IsReading d (locationIn d (r.scope path n) n)
      ((r.rows d path n).map (.ofRow (r.scope path n) n))
      (partsOf <$> r.read (contextIn d path) n)) :
    IsReading d l [⟨path, holder, key, some n, .node r⟩]
      (Option.toList <$> r.read (contextIn d path) n) := by
  refine node ⟨rfl, rfl, mapping⟩ ?_ fun o done => exists_of_read mapping done
  simpa [Position.parts, mapping] using hx

/-- The step of an expression. -/
theorem expression (below : ReadsBelow d n) (isMapping : n.isMapping = true) :
    IsReading d l [⟨path, holder, key, some n, .expr⟩]
      (Option.toList <$> Role.expression.read (contextIn d path) n) := by
  refine mapping isMapping ?_
  rw [Role.rows, List.map_cons, List.map_append, Role.read_expression_mapping _ isMapping]
  simp only [map_bind, map_pure]
  refine (text _ _ _).first fun kind hkind => ?_
  obtain rfl := text_eq_ok hkind
  refine (location _ _ _).after fun loc hloc => ?_
  obtain rfl := location_eq hloc
  rw [bind_pure_comp]
  exact exprOfFields below hkind

/-- The step of a statement. -/
theorem statement (below : ReadsBelow d n) (isMapping : n.isMapping = true) :
    IsReading d l [⟨path, holder, key, some n, .stmt⟩]
      (Option.toList <$> Role.statement.read (contextIn d path) n) := by
  refine mapping isMapping ?_
  rw [Role.rows, List.map_cons, List.map_append, Role.read_statement_mapping _ isMapping]
  simp only [map_bind, map_pure]
  refine (text _ _ _).first fun kind hkind => ?_
  obtain rfl := text_eq_ok hkind
  refine (location _ _ _).after fun loc hloc => ?_
  obtain rfl := location_eq hloc
  rw [bind_pure_comp]
  exact stmtOfFields below hkind

/-- A list of statements is a block without a place. -/
theorem statements (below : ReadsBelow d n) (sequence : n.isSequence = true) :
    IsReading d l [⟨path, holder, key, some n, .stmt⟩]
      (Option.toList <$> Role.statement.read (contextIn d path) n) := by
  have shape : n.isNull = false ∧ n.isMapping = false := by
    cases n <;> simp_all [Node.isNull, Node.isMapping, Node.isSequence]
  have step : Option.toList <$> Role.statement.read (contextIn d path) n =
      (fun ss => [Element.stmt (.block (.mk .unknown ss))]) <$>
        (readers n).sequenceOf (contextIn d path) (itemParts n) := by
    rw [Role.read, readStmt_eq, Readers.stmtStep]
    simp only [shape.1, sequence, Bool.false_eq_true, if_false, if_true, bind_pure_comp,
      Functor.map_map]
    rfl
  have items : IsReading d l ((itemParts n).map fun p => .ofItem path key .stmt n p.1)
      (List.map Element.stmt <$> (readers n).sequenceOf (contextIn d path) (itemParts n)) := by
    rw [map_sequenceOf]
    refine mapM fun p _ => ?_
    rw [show (readers n).stmt (contextIn d path) p = readStmt (contextIn d path) p.1 from rfl,
      Role.read_statement]
    exact below p.1 p.2 .statement path n key l
  rw [step]
  refine within ?_ (fun r m h => ?_) ?_
  · simp [Position.wrong?, sequence]
  · obtain rfl := Option.some.inj h.node
    exact absurd h.isMapping (by simp [shape.2])
  · have parts : Position.parts d ⟨path, holder, key, some n, .stmt⟩ =
        (itemParts n).map fun p => .ofItem path key .stmt n p.1 := by
      refine Eq.trans ?_ (map_itemParts n _).symm
      simp [Position.parts, shape.2]
    rw [parts]
    refine items.regroup (fun ss _ z hz => ?_) (fun ss _ z hz => ?_)
    · exact .inside (List.mem_singleton_self _) (.here hz)
    · obtain rfl | hz := Holds.singleton_iff.1 hz
      · exact .inl rfl
      · exact .inr (.inr ⟨z, hz, rfl⟩)

/-- The visibility of a function record. -/
theorem visibility (path : Path) (c f : Text) :
    IsReading d l [.ofRow path n ("visibility", .word .visibility)]
      ((fun _ => []) <$> Context.visibility ⟨d, namedFile d, c, f⟩ n) := by
  refine word path c f (fault?_bind fun w hw => ?_)
  obtain rfl := text_eq_ok hw
  generalize textOf d n "visibility" = w
  by_cases isPublic : w = "" ∨ w = Visibility.text .isPublic
  · obtain rfl | rfl := isPublic <;> rfl
  · by_cases isProtected : w = Visibility.text .isProtected
    · subst isProtected
      rfl
    · by_cases isPrivate : w = Visibility.text .isPrivate
      · subst isPrivate
        rfl
      · have unknown : Vocabulary.visibility.knows w = false := by
          rw [not_or] at isPublic
          simpa [Vocabulary.knows, isPublic.1] using
            ⟨isPublic.2, isProtected, isPrivate⟩
        simp only [isPublic, isProtected, isPrivate, unknown, if_false, Bool.false_eq_true]
        rfl

/-- The class that a function record names itself, if it is in no class or in one without a name. -/
theorem owner (r : Role) (inner : Path) : IsReading d l
    ((if classAround d path = "" then [("class", .text)] else []).map (.ofRow inner n))
    ((fun _ => []) <$> ownerOf (contextIn d path) (r.memberOf (contextIn d path)) n) := by
  by_cases alone : classAround d path = ""
  · rw [if_pos alone, ownerOf_of_alone r alone]
    exact text _ _ _
  · rw [if_neg alone, ownerOf_of_around r alone]
    exact done _

/-- The step of a function record, a member or not. -/
theorem functionRecord (below : ReadsBelow d n) (isMapping : n.isMapping = true) {r : Role}
    (record : r = .function ∨ r = .member) : IsReading d l [⟨path, holder, key, some n, .node r⟩]
      (Option.toList <$> r.read (contextIn d path) n) := by
  have scope : r.scope path n = .function n :: path := by
    obtain rfl | rfl := record <;> rfl
  have rows : r.rows d path n = Role.function.rows d path n := by
    obtain rfl | rfl := record <;> rfl
  refine mapping isMapping ?_
  rw [scope, rows, Role.rows, Role.read_record_mapping _ record isMapping]
  simp only [map_bind, map_pure, List.append_assoc, List.map_append]
  refine (owner r _).after fun owner howner => ?_
  refine (text _ _ _).first fun given hgiven => ?_
  refine (flag _ _ _).first fun _ _ => ?_
  refine (flag _ _ _).first fun _ _ => ?_
  refine (visibility _ _ _).first fun _ _ => ?_
  rw [innerOf_eq howner hgiven]
  refine (location _ _ _).after fun _ _ => ?_
  exact (params below).andThen (g := fun _ (b : Option Block) => ofStatement (b.map .block))
    fun _ _ => block below

/-- The step of a class record. -/
theorem classRecord (below : ReadsBelow d n) (isMapping : n.isMapping = true) :
    IsReading d l [⟨path, holder, key, some n, .node .classRecord⟩]
      (Option.toList <$> Role.classRecord.read (contextIn d path) n) := by
  refine mapping isMapping ?_
  rw [Role.rows, Role.read_classRecord_mapping _ isMapping]
  simp only [map_bind, map_pure, List.append_assoc, List.map_append]
  refine (text _ _ _).first fun name hname => ?_
  obtain rfl := text_eq_ok hname
  refine (text _ _ _).first fun _ _ => ?_
  refine (texts _ _ _).first fun _ _ => ?_
  refine (flag _ _ _).first fun _ _ => ?_
  refine (location _ _ _).after fun _ _ => ?_
  simp only [partsOf, Element.parts, map_filterMap_id]
  rw [bind_pure_comp]
  exact many _ _ below .member fun _ => Role.read_member _

/-! ## The walk -/

/-- A null is read as nothing, in every role. -/
theorem null (r : Role) (isNull : n.isNull = true) :
    IsReading d l [⟨path, holder, key, some n, .node r⟩]
      (Option.toList <$> r.read (contextIn d path) n) := by
  have step : r.read (contextIn d path) n = pure none := by
    cases r with
    | expression => simp [Role.read, readExpr_eq, Readers.exprStep, isNull]
    | statement => simp [Role.read, readStmt_eq, Readers.stmtStep, isNull]
    | function | member => simp [Role.read, readFunction_eq, Readers.functionStep, isNull]
    | classRecord => simp [Role.read, readClass_eq, Readers.classStep, isNull]
  obtain ⟨items, mapping, -⟩ := Node.plain_of_isNull isNull
  rw [step]
  refine within (by simp [Position.wrong?, isNull]) (fun _ _ h => ?_) ?_
  · obtain rfl := Option.some.inj h.node
    exact absurd h.isMapping (by simp [mapping])
  · simpa [Position.parts, mapping, items] using nil

/-- A node that is neither null nor a mapping is refused, but for a list of statements. -/
theorem refused (r : Role) (present : n.isNull = false) (mapping : n.isMapping = false)
    (sequence : r = .statement → n.isSequence = false) :
    IsReading d l [⟨path, holder, key, some n, .node r⟩]
      (Option.toList <$> r.read (contextIn d path) n) := by
  have step : r.read (contextIn d path) n = .error ⟨namedFile d, n.line, r.notMapping⟩ := by
    cases r with
    | expression => simp [Role.read, readExpr_eq, Readers.exprStep, present, mapping]; rfl
    | statement => simp [Role.read, readStmt_eq, Readers.stmtStep, present, mapping, sequence rfl]; rfl
    | function | member =>
      simp [Role.read, readFunction_eq, Readers.functionStep, present, mapping]; rfl
    | classRecord => simp [Role.read, readClass_eq, Readers.classStep, present, mapping]; rfl
  have wrong : Position.wrong? d ⟨path, holder, key, some n, .node r⟩ =
      some (n.line, r.notMapping) := by
    by_cases statement : r = .statement
    · simp [Position.wrong?, present, mapping, statement, sequence statement]
    · simp [Position.wrong?, present, mapping, statement]
  rw [step]
  exact failing wrong

end IsReading

/-- **Every node is read from its position**, in every role and wherever it stands: the walk is the
reading of the positions below it. -/
theorem readsBelow (d : Yaml.Document) (n : Node) : ReadsBelow d n := by
  suffices h : ∀ size, ∀ c : Node, sizeOf c ≤ size → ∀ r path holder key l,
      IsReading d l [⟨path, holder, key, some c, .node r⟩] (Option.toList <$> r.read (contextIn d path) c) from
    fun c hc => h _ c (Nat.le_refl _)
  intro size
  induction size with
  | zero =>
    intro c hc
    cases c <;> simp at hc
  | succ size ih =>
    intro c hc r path holder key l
    have below : ReadsBelow d c := fun c' hc' => ih c' (by omega)
    cases present : c.isNull with
    | true => exact IsReading.null r present
    | false =>
      cases mapping : c.isMapping with
      | true =>
        cases r with
        | expression => exact IsReading.expression below mapping
        | statement => exact IsReading.statement below mapping
        | function => exact IsReading.functionRecord below mapping (.inl rfl)
        | member => exact IsReading.functionRecord below mapping (.inr rfl)
        | classRecord => exact IsReading.classRecord below mapping
      | false =>
        by_cases list : r = .statement ∧ c.isSequence = true
        · obtain ⟨rfl, sequence⟩ := list
          exact IsReading.statements below sequence
        · exact IsReading.refused r present mapping fun statement =>
            Bool.eq_false_iff.2 fun sequence => list ⟨statement, sequence⟩

end PhpAudit.Tree
