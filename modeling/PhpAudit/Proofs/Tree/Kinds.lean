import PhpAudit.Proofs.Tree.Keys

/-!
# The kinds of nodes

An expression or a statement is read from the rows of its kind, after its location. For most kinds
this is what observing rows means. The exception is the concatenation, which is built as a chain: of
the parts it lists, or of a value and what comes next, which may be a chain already. All links of a
listed chain are placed like the node itself.
-/

namespace PhpAudit.Tree

open Yaml (Node)
open Element

variable {α β : Type} {d : Yaml.Document} {l : Location} {n : Node} {path : Path} {key : String}

/-! ## Rows of expressions and statements -/

/-- What may be wanted in a row of an expression or a statement. -/
def Want.isField : Want → Bool
  | .value _ | .word _ | .targets => true
  | .node .expression | .node .statement | .node .function | .node .classRecord => true
  | .list (.node .expression) | .list (.node .statement) => true
  | .list .item | .list .case | .list .handler => true
  | _ => false

theorem isField_of_lookup {grammar : List (Text × List Row)} {kind : Text} {rows : List Row}
    (fields : ∀ e ∈ grammar, ∀ row ∈ e.2, row.2.isField = true)
    (found : grammar.lookup kind = some rows) : ∀ row ∈ rows, row.2.isField = true := by
  obtain ⟨before, after, whole, -⟩ := List.lookup_eq_some_iff.1 found
  exact fields (kind, rows) (by simp [whole])

/-- The fields of a node, read within some records and placed at `l`. -/
abbrev fieldsIn (d : Yaml.Document) (path : Path) (n : Node) (l : Location) : Fields :=
  (readers n).fields (contextIn d path) l

namespace IsReading

theorem row (below : ReadsBelow d n) : ∀ row : Row, row.2.isField = true →
    IsReading d l [.ofRow path n row] ((fieldsIn d path n l).elements row)
  | (key, .value .text), _ => text _ _ _
  | (key, .value .integer), _ => integer _ _ _
  | (key, .value .flag), _ => flag _ _ _
  | (key, .value .texts), _ => texts _ _ _
  | (key, .word ws), _ => by
    refine word path (classAround d path) (functionAround d path) ?_
    refine fault?_bind fun w hw => ?_
    obtain rfl := text_eq_ok hw
    by_cases known : ws.knows (textOf d n key)
    · simp [known, pure, Except.pure]
    · simp [known, Fields.refuse, Readers.fields, contextIn]
  | (key, .node .expression), _ => expr below
  | (key, .node .statement), _ => stmt below
  | (key, .node .function), _ => one below .function rfl fun _ => Role.read_function _
  | (key, .node .classRecord), _ => one below .classRecord rfl fun _ => Role.read_classRecord _
  | (key, .list (.node .expression)), _ => exprs below
  | (key, .list (.node .statement)), _ => stmts below
  | (key, .list .item), _ => items below
  | (key, .list .case), _ => cases below
  | (key, .list .handler), _ => handlers below
  | (key, .targets), _ => targets below

/-- The rows of a node are read one after the other. -/
theorem gather (below : ReadsBelow d n) : ∀ rows : List Row, (∀ row ∈ rows, row.2.isField = true) →
    IsReading d l (rows.map (.ofRow path n)) ((fieldsIn d path n l).gather rows)
  | [], _ => nil
  | row :: rows, fields =>
    (IsReading.row below row (fields row List.mem_cons_self)).both
      (gather below rows fun row h => fields row (List.mem_cons_of_mem _ h))

end IsReading

/-! ## Concatenations -/

theorem length_of_mapM {g : α → Reads β} : ∀ {xs : List α} {ys : List β}, xs.mapM g = .ok ys →
    ys.length = xs.length
  | [], ys, done => by
    rw [List.mapM_nil] at done
    simp [← Except.ok.inj done]
  | x :: xs, ys, done => by
    rw [List.mapM_cons] at done
    obtain ⟨y, -, done⟩ := bind_eq_ok_iff.1 done
    obtain ⟨rest, hrest, done⟩ := bind_eq_ok_iff.1 done
    simp [← Except.ok.inj done, length_of_mapM hrest]

/-- Expressions are read from a list unless it is empty. -/
theorem exprsOf_eq_nil_iff {ctx : Context} {es : List (Option Expr)}
    (done : (readers n).exprsOf ctx key = .ok es) : es = [] ↔ hasItems n key = false := by
  unfold Readers.exprsOf at done
  obtain ⟨ps, hps, hes⟩ := bind_eq_ok_iff.1 done
  rw [← List.length_eq_zero_iff, length_of_mapM hes, hasItems]
  unfold Context.list at hps
  cases h : n.field? key with
  | none =>
    rw [part?_eq_none h] at hps
    simp [← Except.ok.inj hps]
  | some v =>
    rw [part?_eq_some h] at hps
    by_cases null : v.isNull
    · simp only [null, if_true] at hps
      simp [← Except.ok.inj hps, Node.plain_of_isNull null]
    · by_cases sequence : v.isSequence
      · simp only [null, sequence, Bool.false_eq_true, if_false, if_true] at hps
        simp [← Except.ok.inj hps, itemParts]
      · simp [null, sequence, Context.refuse] at hps

/-- The values of a chain are held by it. -/
theorem holds_ofLinks {es : List (Option Expr)} {z : Element} (h : z ∈ ofOperands es) :
    Holds (ofLinks (es.map (.mk l))) z := by
  induction es with
  | nil => simp at h
  | cons e es ih =>
    refine .inside (List.mem_singleton_self _) (Holds.append_iff.2 ?_)
    obtain h | h := List.mem_append.1 h
    · exact .inl (.here h)
    · exact .inr (ih h)

/-- A chain holds its values and links, which are placed at one place. -/
theorem loc_of_holds_ofLinks {es : List (Option Expr)} {z : Element}
    (h : Holds (ofLinks (es.map (.mk l))) z) : z.loc = l ∨ Holds (ofOperands es) z := by
  induction es with
  | nil => exact (Holds.not_nil h).elim
  | cons e es ih =>
    obtain rfl | h := Holds.singleton_iff.1 h
    · exact .inl rfl
    · rw [ofOperands_cons]
      obtain h | h := Holds.append_iff.1 h
      · exact .inr (Holds.append_iff.2 (.inl h))
      · exact (ih h).imp_right fun h => Holds.append_iff.2 (.inr h)

namespace IsReading

/-- A concatenation that lists its parts. -/
theorem appendParts (below : ReadsBelow d n) (listed : hasItems n "parts" = true) :
    IsReading d l [.ofRow path n ("parts", .exprs)]
      (ofExpr <$> readAppend (fieldsIn d path n l)) := by
  have same : ofExpr <$> readAppend (fieldsIn d path n l) =
      (fun es => ofOperand (es.headD none) ++ ofLinks (es.tail.map (.mk l))) <$>
        (readers n).exprsOf (contextIn d path) "parts" := by
    unfold readAppend
    change ofExpr <$> ((readers n).exprsOf (contextIn d path) "parts" >>= _) = _
    cases he : (readers n).exprsOf (contextIn d path) "parts" with
    | error e => rfl
    | ok es =>
      cases es with
      | nil => exact absurd ((exprsOf_eq_nil_iff he).1 rfl) (by simp [listed])
      | cons first rest => rfl
  rw [same]
  refine (exprs below).regroup (fun es _ z hz => ?_) (fun es _ z hz => ?_)
  · cases es with
    | nil => simp at hz
    | cons first rest =>
      obtain h | h := List.mem_append.1 hz
      · exact Holds.append_iff.2 (.inl (.here h))
      · exact Holds.append_iff.2 (.inr (holds_ofLinks h))
  · cases es with
    | nil => exact (Holds.not_nil hz).elim
    | cons first rest =>
      obtain h | h := Holds.append_iff.1 hz
      · exact .inr (.inr ⟨z, Holds.append_iff.2 (.inl h), rfl⟩)
      · obtain h | h := loc_of_holds_ofLinks h
        · exact .inr (.inl h)
        · exact .inr (.inr ⟨z, Holds.append_iff.2 (.inr h), rfl⟩)

/-- What follows in a concatenation is a chain of its own. -/
theorem next (below : ReadsBelow d n) : IsReading d l [.ofRow path n (key, .expr)]
    ((fun e => ofLinks (linksOf e)) <$> (readers n).exprOf (contextIn d path) key) := by
  refine (expr below).regroup (fun e _ z hz => ?_) (fun e _ z hz => ?_)
  · rcases e with _ | e
    · simp at hz
    · obtain rfl := List.mem_singleton.1 hz
      cases e with
      | append => exact .here (List.mem_singleton_self _)
      | _ => exact .inside (List.mem_singleton_self _) (.here (List.mem_singleton_self _))
  · refine .inr (.inr ?_)
    rcases e with _ | e
    · exact (Holds.not_nil hz).elim
    · cases e with
      | append => exact ⟨z, hz, rfl⟩
      | _ =>
        obtain rfl | hz := Holds.singleton_iff.1 hz
        · exact ⟨_, .here (List.mem_singleton_self _), rfl⟩
        · exact ⟨z, hz, rfl⟩

/-- A concatenation that does not list its parts. -/
theorem appendLinked (below : ReadsBelow d n) (unlisted : hasItems n "parts" = false) :
    IsReading d l ([("parts", .exprs), ("value", .expr), ("next", .expr)].map (.ofRow path n))
      (ofExpr <$> readAppend (fieldsIn d path n l)) := by
  have parts : IsReading d l [.ofRow path n ("parts", .exprs)]
      ((fun _ => []) <$> (readers n).exprsOf (contextIn d path) "parts") :=
    (exprs below).regroup (fun es done z hz => by
      simp [(exprsOf_eq_nil_iff done).2 unlisted] at hz) fun _ _ _ h => (Holds.not_nil h).elim
  unfold readAppend
  rw [map_bind]
  refine parts.after fun es done => ?_
  obtain rfl := (exprsOf_eq_nil_iff done).2 unlisted
  simp only [map_bind, map_pure]
  exact (expr below).andThen fun _ _ => next below

/-! ## Kinds -/

/-- The kind of a node is checked after its location is read. -/
theorem kind {ws : Vocabulary} {cause : Cause} {y : Reads (List Element)} {ps : List Position}
    (knows : ∀ w, ws.knows w = (w != "")) (blames : ∀ w, ws.cause w = cause)
    (named : (contextIn d path).text n "kind" = .ok (textOf d n "kind"))
    (hy : IsReading d l ps y) :
    IsReading d l (.ofRow path n ("kind", .word ws) :: ps)
      (if textOf d n "kind" = "" then (fieldsIn d path n l).refuse cause else y) := by
  have check : IsReading d l [.ofRow path n ("kind", .word ws)] ((fun _ => []) <$>
      (if textOf d n "kind" = "" then (fieldsIn d path n l).refuse cause else pure () : Reads Unit)) := by
    refine word path (classAround d path) (functionAround d path) ?_
    rw [contextIn] at named
    rw [named, fault?_ok, Option.none_or, knows, blames]
    by_cases empty : textOf d n "kind" = "" <;>
      simp [empty, Fields.refuse, Readers.fields, contextIn, pure, Except.pure]
  have whole := check.after fun _ _ => hy
  by_cases empty : textOf d n "kind" = ""
  · simpa [empty, Fields.refuse, bind, Except.bind] using whole
  · simpa [empty] using whole

/-- An expression is read from the rows of its kind. -/
theorem exprOfKind (below : ReadsBelow d n) :
    IsReading d l ((exprRows d n).map (.ofRow path n))
      (ofExpr <$> match exprReaders.lookup (textOf d n "kind") with
        | some read => read (fieldsIn d path n l)
        | none => pure (.unknown l (textOf d n "kind"))) := by
  unfold exprRows
  obtain ⟨unread, norows⟩ | ⟨read, rows, found, rowsFound, observes⟩ :=
    tabled_expr.lookup (textOf d n "kind")
  · have other : textOf d n "kind" ≠ "append" := by
      intro same
      rw [same] at unread
      exact absurd unread (by decide)
    simpa [unread, norows, other, ofExpr] using nil
  · rw [found]
    by_cases append : textOf d n "kind" = "append"
    · rw [append] at found rowsFound
      obtain rfl : readAppend = read := Option.some.inj found
      obtain rfl : [("parts", .exprs), ("value", .expr), ("next", .expr)] = rows :=
        Option.some.inj rowsFound
      cases listed : hasItems n "parts" with
      | true => simpa [append] using appendParts below listed
      | false => simpa [append, rowsFound] using appendLinked below listed
    · have whole : IsReading d l (rows.map (.ofRow path n)) _ :=
        IsReading.gather below rows (isField_of_lookup (by decide) rowsFound)
      simp only [append, false_and, if_false, rowsFound, Option.getD_some]
      rwa [← (observes (by simpa using append)).parts] at whole

/-- A statement is read from the rows of its kind. -/
theorem stmtOfKind (below : ReadsBelow d n) :
    IsReading d l ((stmtRows d n).map (.ofRow path n))
      (ofStmt <$> match stmtReaders.lookup (textOf d n "kind") with
        | some read => read (fieldsIn d path n l)
        | none => pure (.unknown l (textOf d n "kind"))) := by
  unfold stmtRows
  obtain ⟨unread, norows⟩ | ⟨read, rows, found, rowsFound, observes⟩ :=
    tabled_stmt.lookup (textOf d n "kind")
  · simpa [unread, norows, ofStmt] using nil
  · have whole : IsReading d l (rows.map (.ofRow path n)) _ :=
      IsReading.gather below rows (isField_of_lookup (by decide) rowsFound)
    rw [found, rowsFound]
    rwa [← (observes List.not_mem_nil).parts] at whole

/-- An expression is read from its kind and the rows of its kind. -/
theorem exprOfFields (below : ReadsBelow d n)
    (named : (contextIn d path).text n "kind" = .ok (textOf d n "kind")) :
    IsReading d l ((("kind", .word .expressionKind) :: exprRows d n).map (.ofRow path n))
      (ofExpr <$> Expr.ofFields (textOf d n "kind") (fieldsIn d path n l)) := by
  have whole : IsReading d l (.ofRow path n ("kind", .word .expressionKind) ::
      (exprRows d n).map (.ofRow path n)) _ :=
    kind (fun _ => rfl) (fun _ => rfl) named (exprOfKind below)
  unfold Expr.ofFields
  split
  next empty => rwa [if_pos empty] at whole
  next given => rwa [if_neg given] at whole

/-- A statement is read from its kind and the rows of its kind. -/
theorem stmtOfFields (below : ReadsBelow d n)
    (named : (contextIn d path).text n "kind" = .ok (textOf d n "kind")) :
    IsReading d l ((("kind", .word .statementKind) :: stmtRows d n).map (.ofRow path n))
      (ofStmt <$> Stmt.ofFields (textOf d n "kind") (fieldsIn d path n l)) := by
  have whole : IsReading d l (.ofRow path n ("kind", .word .statementKind) ::
      (stmtRows d n).map (.ofRow path n)) _ :=
    kind (fun _ => rfl) (fun _ => rfl) named (stmtOfKind below)
  unfold Stmt.ofFields
  split
  next empty => rwa [if_pos empty] at whole
  next given => rwa [if_neg given] at whole

end IsReading

end PhpAudit.Tree
