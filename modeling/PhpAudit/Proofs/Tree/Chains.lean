import PhpAudit.Proofs.Tree.Acceptance

/-!
# The forms of a concatenation

A concatenation is written in two ways: **flat**, with a list of its parts, or **linked**, each link
with a value and what comes next. What comes after the last link may be a link as well, or any other
expression, which then is the last value. The links of a chain are placed by the same keys.

**The law** (`read_flat`, `read_linked`): both are read as one chain of the values of the parts, from
left to right, and what follows a link is one reading more. So the flat and the linked form of the
same parts are read alike, faults included (`read_flat_eq_read_linked`). A last value that is written
plainly ends the same chain of values, but its link is placed where the value is and not where the
chain is (`read_plain`).
-/

namespace PhpAudit.Tree

open Yaml (Node)

/-- The keys that place a node. -/
def placeKeys : List String := ["line", "class", "function"]

/-- **Entries that place a node**, and say nothing else of it. -/
def PlacesOnly (own : List (Node × Node)) : Prop := ∀ e ∈ own, e.1.value ∈ placeKeys

/-- A mapping of the kind of concatenations. -/
def appendNode (own content : List (Node × Node)) (line : Nat) : Node :=
  .mapping line Yaml.Tag.map ((wordNode line "kind", wordNode line "append") :: (own ++ content))

/-- **The flat form** of a concatenation: its parts, in a list. -/
def flatForm (own : List (Node × Node)) (line : Nat) (parts : List Node) : Node :=
  appendNode own [(wordNode line "parts", .sequence line Yaml.Tag.seq parts)] line

/-- A link, and what comes next. -/
def linkNode (own : List (Node × Node)) (line : Nat) (value : Node) (next : Option Node) : Node :=
  appendNode own
    ((wordNode line "value", value) :: next.toList.map fun n => (wordNode line "next", n)) line

/-- **The linked form** of a concatenation: one link for each part, on a line of its own, and what
comes after the last link. -/
def linkedForm (own : List (Node × Node)) (last : Option Node) :
    Nat × Node → List (Nat × Node) → Node
  | (line, p), [] => linkNode own line p last
  | (line, p), r :: rs => linkNode own line p (some (linkedForm own last r rs))

/-- **A node that is written plainly**: neither null, which is no expression, nor a concatenation. -/
def IsPlain (ctx : Context) (q : Node) : Prop :=
  q.isNull = false ∧ ctx.text q "kind" ≠ .ok "append"

/-! ## The keys of a concatenation -/

section Keys

variable {own content : List (Node × Node)} {line : Nat} {key : String} {ctx : Context}

/-- Another key than the kind is one of those that place the node, or of its content. -/
theorem field?_appendNode (notKind : key ≠ "kind") : (appendNode own content line).field? key =
    ((own.find? fun e => e.1.value == key).or (content.find? fun e => e.1.value == key)).map
      (·.2) := by
  have skipped : ("kind" == key) = false := beq_eq_false_iff_ne.2 notKind.symm
  rw [Node.field?, appendNode, Node.entries, List.find?_cons, ← List.find?_append]
  simp only [wordNode, Node.value, skipped]

theorem field?_of_not_mem_placeKeys (places : PlacesOnly own) (notKind : key ≠ "kind")
    (notPlace : key ∉ placeKeys) : (appendNode own content line).field? key =
      (content.find? fun e => e.1.value == key).map (·.2) := by
  have skipped : (own.find? fun e => e.1.value == key) = none := by
    refine List.find?_eq_none.2 fun e he same => notPlace ?_
    exact beq_iff_eq.1 same ▸ places e he
  rw [field?_appendNode notKind, skipped, Option.none_or]

theorem field?_of_mem_placeKeys (place : key ∈ placeKeys)
    (plain : ∀ e ∈ content, e.1.value ∉ placeKeys) : (appendNode own content line).field? key =
      (own.find? fun e => e.1.value == key).map (·.2) := by
  have notKind : key ≠ "kind" := by
    rintro rfl
    exact absurd place (by decide)
  have skipped : (content.find? fun e => e.1.value == key) = none := by
    refine List.find?_eq_none.2 fun e he same => plain e he ?_
    exact beq_iff_eq.1 same ▸ place
  rw [field?_appendNode notKind, skipped, Option.or_none]

/-- Where the entries of a chain place it. -/
def placeOf (ctx : Context) (own : List (Node × Node)) : Reads Location :=
  ctx.location (appendNode own [] 0)

/-- **Only the keys that place a node have a say in its location.** -/
theorem location_appendNode (plain : ∀ e ∈ content, e.1.value ∉ placeKeys) :
    ctx.location (appendNode own content line) = placeOf ctx own := by
  have same (key : String) (place : key ∈ placeKeys) :
      (appendNode own content line).field? key = (appendNode own [] 0).field? key := by
    rw [field?_of_mem_placeKeys place plain, field?_of_mem_placeKeys place (by simp)]
  have line := same "line" (by decide)
  have className := same "class" (by decide)
  have function := same "function" (by decide)
  simp only [placeOf, Context.location, Context.integer, Context.text, Context.value, line,
    className, function]

theorem kind_appendNode : ctx.text (appendNode own content line) "kind" = .ok "append" := rfl

/-- A concatenation is placed, and then read by its content. -/
theorem readExpr_appendNode (plain : ∀ e ∈ content, e.1.value ∉ placeKeys) :
    readExpr ctx (appendNode own content line) = (do
      let loc ← placeOf ctx own
      return some (← readAppend ((readers (appendNode own content line)).fields ctx loc))) := by
  rw [readExpr_eq, Readers.exprStep, kind_appendNode, location_appendNode plain]
  rfl

end Keys

/-! ## What is read of a key -/

section Parts

variable {n : Node} {key : String} {ctx : Context}

theorem exprOf_eq (n : Node) (key : String) (ctx : Context) : (readers n).exprOf ctx key =
    match n.field? key with
    | some v => readExpr ctx v
    | none => pure none := by
  rw [Readers.exprOf]
  cases found : n.field? key with
  | none => rw [part?_eq_none found]
  | some v => rw [part?_eq_some found]; rfl

theorem exprsOf_of_none (absent : n.field? key = none) :
    (readers n).exprsOf ctx key = pure [] := by
  rw [Readers.exprsOf, Context.list, part?_eq_none absent]
  rfl

theorem exprsOf_of_sequence {line : Nat} {tag : Text} {ps : List Node}
    (found : n.field? key = some (.sequence line tag ps)) :
    (readers n).exprsOf ctx key = ps.mapM (readExpr ctx) := by
  have items : (itemParts (.sequence line tag ps)).map (·.1) = ps := by
    rw [itemParts, List.map_map]
    exact List.attach_map_subtype_val ps
  have parts : ctx.list n key = .ok ((itemParts (.sequence line tag ps)).map
      (Part.within ⟨_, Node.sizeOf_lt_of_field? found⟩)) := by
    rw [Context.list, part?_eq_some found]
    rfl
  calc (readers n).exprsOf ctx key
      = ((itemParts (.sequence line tag ps)).map
          (Part.within ⟨_, Node.sizeOf_lt_of_field? found⟩)).mapM fun p => readExpr ctx p.1 := by
        rw [Readers.exprsOf, parts]
        rfl
    _ = ((itemParts (.sequence line tag ps)).map (·.1)).mapM (readExpr ctx) := by
        rw [List.mapM_map, List.mapM_map]
        rfl
    _ = ps.mapM (readExpr ctx) := by rw [items]

end Parts

/-! ## The two forms -/

section Forms

variable {own : List (Node × Node)} (places : PlacesOnly own) (ctx : Context) (line : Nat)

include places

/-- **The flat form is read part by part.** -/
theorem read_flat (p : Node) (ps : List Node) : readExpr ctx (flatForm own line (p :: ps)) = (do
    let loc ← placeOf ctx own
    let v ← readExpr ctx p
    let vs ← ps.mapM (readExpr ctx)
    return some (.append loc v (vs.map (.mk loc)))) := by
  have plain : ∀ e ∈ [(wordNode line "parts", Node.sequence line Yaml.Tag.seq (p :: ps))],
      e.1.value ∉ placeKeys := by
    simp [wordNode, Node.value, placeKeys]
  have found : (appendNode own [(wordNode line "parts", .sequence line Yaml.Tag.seq (p :: ps))]
      line).field? "parts" = some (.sequence line Yaml.Tag.seq (p :: ps)) :=
    field?_of_not_mem_placeKeys places (by decide) (by decide)
  rw [flatForm, readExpr_appendNode plain]
  congr 1
  funext loc
  rw [readAppend, Readers.fields]
  dsimp only
  rw [exprsOf_of_sequence found, List.mapM_cons]
  simp only [bind_assoc, pure_bind]

theorem read_link (p : Node) (next : Option Node) : readExpr ctx (linkNode own line p next) = (do
    let loc ← placeOf ctx own
    let v ← readExpr ctx p
    let x ← next.elim (pure none) (readExpr ctx)
    return some (.append loc v (linksOf x))) := by
  rw [linkNode]
  generalize given : ((wordNode line "value", p) :: next.toList.map fun n =>
    (wordNode line "next", n)) = content
  have plain : ∀ e ∈ content, e.1.value ∉ placeKeys := by
    rw [← given]
    cases next <;> simp [wordNode, Node.value, placeKeys]
  have field {key : String} (notKind : key ≠ "kind") (notPlace : key ∉ placeKeys) :
      (appendNode own content line).field? key =
        (content.find? fun e => e.1.value == key).map (·.2) :=
    field?_of_not_mem_placeKeys places notKind notPlace
  have parts : (appendNode own content line).field? "parts" = none := by
    rw [field (by decide) (by decide), ← given]
    cases next <;> rfl
  have value : (appendNode own content line).field? "value" = some p := by
    rw [field (by decide) (by decide), ← given]
    rfl
  have rest : (appendNode own content line).field? "next" = next := by
    rw [field (by decide) (by decide), ← given]
    cases next <;> rfl
  rw [readExpr_appendNode plain]
  congr 1
  funext loc
  rw [readAppend, Readers.fields]
  dsimp only
  rw [exprsOf_of_none parts, exprOf_eq, exprOf_eq, value, rest]
  cases next <;> simp only [Option.elim, bind_assoc, pure_bind]

/-- **The linked form is read link by link.** -/
theorem read_linked (last : Option Node) (p : Nat × Node) (ps : List (Nat × Node)) :
    readExpr ctx (linkedForm own last p ps) = (do
      let loc ← placeOf ctx own
      let v ← readExpr ctx p.2
      let vs ← (ps.map (·.2)).mapM (readExpr ctx)
      let x ← last.elim (pure none) (readExpr ctx)
      return some (.append loc v (vs.map (.mk loc) ++ linksOf x))) := by
  induction ps generalizing p with
  | nil =>
    rw [linkedForm, read_link places]
    simp only [List.map_nil, List.mapM_nil, pure_bind, List.nil_append]
  | cons r rs ih =>
    rw [linkedForm, read_link places]
    simp only [Option.elim, ih, List.map_cons, List.mapM_cons, bind_assoc, pure_bind]
    -- the rest of the chain is placed as the link is, since the same keys place it
    cases placeOf ctx own with
    | error e => rfl
    | ok loc => rfl

/-- **The flat and the linked form of the same parts are read alike**, to the same expression or the
same fault. -/
theorem read_flat_eq_read_linked (p : Nat × Node) (ps : List (Nat × Node)) :
    readExpr ctx (flatForm own line (p.2 :: ps.map (·.2))) =
      readExpr ctx (linkedForm own none p ps) := by
  rw [read_flat places, read_linked places]
  simp only [Option.elim, linksOf, pure_bind, List.append_nil]

omit places in
/-- What is written plainly at the end of a chain is one more value, placed on its own. -/
theorem linksOf_of_plain {q : Node} {x : Option Expr} (plain : IsPlain ctx q)
    (done : readExpr ctx q = .ok x) : ∃ e, x = some e ∧ linksOf x = [.mk e.loc (some e)] := by
  obtain ⟨e, kind, f, rfl, hkind, read⟩ := readExpr_kind plain.1 done
  refine ⟨e, rfl, ?_⟩
  have shown := (Expr.ofFields_shown read).1
  cases e with
  | append l v ls =>
    have append : kind = "append" := shown.symm
    exact absurd (append ▸ hkind) plain.2
  | _ => rfl

/-- **A chain whose last value is written plainly** has the faults of the flat form, and the values of
the parts before and then that value. Only the place of the last link differs: it is that of the
value. -/
theorem read_plain {q : Node} (plain : IsPlain ctx q) (p : Nat × Node) (ps : List (Nat × Node)) :
    (∃ fault, readExpr ctx (flatForm own line (p.2 :: (ps.map (·.2) ++ [q]))) = .error fault ∧
      readExpr ctx (linkedForm own (some q) p ps) = .error fault) ∨
    ∃ loc v ls e,
      readExpr ctx (flatForm own line (p.2 :: ps.map (·.2))) = .ok (some (.append loc v ls)) ∧
      readExpr ctx q = .ok (some e) ∧
      readExpr ctx (flatForm own line (p.2 :: (ps.map (·.2) ++ [q]))) =
        .ok (some (.append loc v (ls ++ [.mk loc (some e)]))) ∧
      readExpr ctx (linkedForm own (some q) p ps) =
        .ok (some (.append loc v (ls ++ [.mk e.loc (some e)]))) := by
  rw [read_flat places, read_flat places, read_linked places]
  simp only [Option.elim, List.mapM_append, List.mapM_cons, List.mapM_nil, bind_assoc, pure_bind]
  cases placeOf ctx own with
  | error fault => exact .inl ⟨fault, rfl, rfl⟩
  | ok loc =>
    cases readExpr ctx p.2 with
    | error fault => exact .inl ⟨fault, rfl, rfl⟩
    | ok v =>
      cases (ps.map (·.2)).mapM (readExpr ctx) with
      | error fault => exact .inl ⟨fault, rfl, rfl⟩
      | ok vs =>
        cases last : readExpr ctx q with
        | error fault => exact .inl ⟨fault, rfl, rfl⟩
        | ok x =>
          obtain ⟨e, rfl, links⟩ := linksOf_of_plain ctx plain last
          refine .inr ⟨loc, v, vs.map (.mk loc), e, rfl, rfl, ?_, ?_⟩
          · simp only [pure, Except.pure, bind, Except.bind, List.map_append, List.map_cons,
              List.map_nil]
          · simp only [pure, Except.pure, bind, Except.bind, links]

end Forms

/-! ## The values of a chain -/

/-- The value of a link. -/
def Link.value : Link → Option Expr
  | .mk _ v => v

/-- **The values of a chain**, from left to right. Another expression is no chain. -/
def Expr.values : Expr → List (Option Expr)
  | .append _ v ls => v :: ls.map Link.value
  | _ => []

end PhpAudit.Tree
