import PhpAudit.Tree.Fields
import PhpAudit.Tree.Operator
import PhpAudit.Yaml.Document

/-!
# The grammar of tree documents

What a tree document must look like, said without reading it. A **position** is a place of the
document where something is wanted: a simple value, a word, a node of the tree, a list. It holds a
node of the document, or none where its key is absent, and it is well-formed or not by itself,
whatever stands below it.

Below a node of the tree stand the positions of its **rows**, the keys of its kind with what is
wanted of them. `visited` lists a position and everything below it, in the order of the document's
rows. Which rows there are depends on the document only in a few ways: on the kind, on whether the
line is positive, on whether a function record has a class around it, and on whether a concatenation
lists its parts.

A position knows the class and function records around it. They give the class and the function of a
location that names none itself.
-/

namespace PhpAudit.Tree

open Yaml (Node Convert)

/-- The failure of a result that may fail. -/
def fault? {ε α : Type} : Except ε α → Option ε
  | .ok _ => none
  | .error e => some e

@[simp] theorem fault?_ok {ε α : Type} (a : α) : fault? (.ok a : Except ε α) = none := rfl

@[simp] theorem fault?_error {ε α : Type} (e : ε) : fault? (.error e : Except ε α) = some e := rfl

/-! ## Simple values -/

/-- **The types of simple values.** -/
inductive Simple where
  | text
  | integer
  | flag
  | texts
deriving DecidableEq

/-- Why a value is not of a simple type, if it is not. -/
def Simple.refusal? (t : Simple) (d : Yaml.Document) (v : Node) : Option Yaml.Refusal :=
  match t with
  | .text => fault? (Convert.text d v).run
  | .integer => fault? (Convert.integer "int64" d v).run
  | .flag => fault? (Convert.flag d v).run
  | .texts => fault? (Convert.texts d v).run

/-- The value of a key; `default` when it is absent, null, or of another type. -/
def valueOf {α : Type} (read : Yaml.Document → Node → Convert (Option α)) (default : α)
    (d : Yaml.Document) (n : Node) (key : String) : α :=
  match n.field? key with
  | none => default
  | some v =>
    if v.isNull then default
    else match (read d v).run with
      | .ok a => a.getD default
      | .error _ => default

/-- The text of a key. -/
def textOf : Yaml.Document → Node → String → Text := valueOf Convert.text ""

/-- The integer of a key. -/
def integerOf : Yaml.Document → Node → String → Int := valueOf (Convert.integer "int64") 0

/-- The file a document names. -/
def namedFile (d : Yaml.Document) : Text := textOf d d.root "file"

/-- **Sets of words**: the operators, types and visibilities that are known, and the kinds that a
node may have where it stands. -/
inductive Vocabulary where
  | binary
  | unary
  | step
  | cast
  | visibility
  | expressionKind
  | statementKind
  | targetsKind
deriving DecidableEq

/-- The words of a vocabulary. A node may have any kind but the empty one; where none is given, the
visibility is empty. -/
def Vocabulary.knows : Vocabulary → Text → Bool
  | .binary, w => binaryOperators.contains w
  | .unary, w => unaryOperators.contains w
  | .step, w => stepOperators.contains w
  | .cast, w => castTypes.contains w
  | .visibility, w => ([("" : Text), "public", "protected", "private"]).contains w
  | .expressionKind, w => w != ""
  | .statementKind, w => w != ""
  | .targetsKind, w => w == "list_head"

/-- What is wrong with a word that is not in a vocabulary. -/
def Vocabulary.cause : Vocabulary → Text → Cause
  | .binary, w => .unknownBinaryOperator w
  | .unary, w => .unknownUnaryOperator w
  | .step, w => .unknownStepOperator w
  | .cast, w => .unknownCastType w
  | .visibility, w => .unknownVisibility w
  | .expressionKind, _ => .expressionWithoutKind
  | .statementKind, _ => .statementWithoutKind
  | .targetsKind, w => .notTargets w

/-! ## What is wanted -/

/-- **The roles of a node of the tree.** A member is a function record listed in a class record. -/
inductive Role where
  | expression
  | statement
  | function
  | member
  | classRecord
deriving DecidableEq

/-- **What is wanted in a position.** -/
inductive Want where
  | value (type : Simple)
  | word (words : Vocabulary)
  | node (role : Role)
  | list (items : Want)
  /-- The targets of a list assignment. -/
  | targets
  /-- An entry of an array. -/
  | item
  /-- A case of a switch. -/
  | case
  /-- A handler of a guarded statement. -/
  | handler
  /-- A parameter of a function. -/
  | param
deriving DecidableEq

namespace Want

abbrev text : Want := .value .text

abbrev integer : Want := .value .integer

abbrev flag : Want := .value .flag

abbrev texts : Want := .value .texts

abbrev expr : Want := .node .expression

abbrev exprs : Want := .list .expr

abbrev stmt : Want := .node .statement

end Want

/-- **A row of the grammar**: a key, and what is wanted of its value. -/
abbrev Row := String × Want

/-- The expressions without operands. -/
def atomGrammar : List (Text × List Row) := [
  ("literal_string", [("value", .text)]),
  ("literal_long", [("value", .integer)]),
  ("literal", [("value", .text)]),
  ("literal_null", []),
  ("var", [("name", .text)]),
  ("this", []),
  ("this_field", [("name", .text)]),
  ("class_field", [("class_name", .text), ("name", .text)]),
  ("class_virtual_field", [("name", .text)]),
  ("const", [("name", .text)]),
  ("const_file", []),
  ("const_dir", []),
  ("class_const", [("class_name", .text), ("name", .text)]),
  ("class_virtual_const", [("name", .text)]),
  ("get_class", []),
  ("get_called_class", [])]

/-- The expressions with one operand. -/
def unaryGrammar : List (Text × List Row) := [
  ("var_var", [("expr", .expr)]),
  ("ref", [("expr", .expr)]),
  ("array_tail", [("expr", .expr)]),
  ("object_field", [("object", .expr), ("name", .text)]),
  ("this_field_var", [("name", .expr)]),
  ("class_field_var", [("class_name", .text), ("name", .expr)]),
  ("class_var_field", [("class_expr", .expr), ("name", .text)]),
  ("class_var_const", [("class_expr", .expr), ("name", .text)]),
  ("unary", [("op", .word .unary), ("expr", .expr)]),
  ("incdec", [("op", .word .step), ("prefix", .flag), ("expr", .expr)]),
  ("instanceof", [("expr", .expr), ("class_name", .text)]),
  ("cast", [("type", .word .cast), ("expr", .expr)]),
  ("suppress", [("expr", .expr)]),
  ("clone", [("expr", .expr)]),
  ("unset", [("expr", .expr)]),
  ("include", [("expr", .expr), ("once", .flag), ("require", .flag)]),
  ("exit", [("die", .flag), ("value", .expr)])]

/-- The expressions with two operands. -/
def binaryGrammar : List (Text × List Row) := [
  ("array_get", [("expr", .expr), ("index", .expr)]),
  ("char_at", [("expr", .expr), ("index", .expr)]),
  ("object_field_var", [("object", .expr), ("name", .expr)]),
  ("binary", [("op", .word .binary), ("left", .expr), ("right", .expr)]),
  ("conditional_short", [("test", .expr), ("false", .expr)]),
  ("assign", [("var", .expr), ("value", .expr)]),
  ("assign_ref", [("var", .expr), ("value", .expr)])]

/-- The calls. -/
def callGrammar : List (Text × List Row) := [
  ("call", [("name", .text), ("ns_name", .text), ("args", .exprs)]),
  ("call_var", [("name", .expr), ("args", .exprs)]),
  ("object_method", [("object", .expr), ("name", .text), ("args", .exprs)]),
  ("object_method_var", [("object", .expr), ("name", .expr), ("args", .exprs)]),
  ("this_method", [("name", .text), ("args", .exprs)]),
  ("this_method_var", [("name", .expr), ("args", .exprs)]),
  ("class_method", [("class_name", .text), ("name", .text), ("args", .exprs)]),
  ("class_virtual_method", [("name", .text), ("args", .exprs)]),
  ("class_var_method", [("class_expr", .expr), ("name", .text), ("args", .exprs)]),
  ("class_method_var", [("class_name", .text), ("name", .expr), ("args", .exprs)]),
  ("class_var_method_var", [("class_expr", .expr), ("name", .expr), ("args", .exprs)]),
  ("class_construct", [("class_name", .text), ("args", .exprs)]),
  ("new", [("class_name", .text), ("args", .exprs)]),
  ("new_var", [("class_expr", .expr), ("args", .exprs)]),
  ("new_static", [("args", .exprs)])]

/-- The other expressions. -/
def otherGrammar : List (Text × List Row) := [
  ("conditional", [("test", .expr), ("true", .expr), ("false", .expr)]),
  ("isset", [("exprs", .exprs)]),
  ("list_head", [("vars", .exprs)]),
  ("array", [("items", .list .item)]),
  ("append", [("parts", .exprs), ("value", .expr), ("next", .expr)]),
  ("assign_list", [("list", .targets), ("value", .expr)]),
  ("assign_list_each", [("list", .targets), ("value", .expr)]),
  ("closure", [("definition", .node .function), ("uses", .texts)])]

/-- **The rows of each kind of expression.** -/
def exprGrammar : List (Text × List Row) :=
  atomGrammar ++ unaryGrammar ++ binaryGrammar ++ callGrammar ++ otherGrammar

/-- The statements about one expression. -/
def simpleGrammar : List (Text × List Row) := [
  ("expr", [("expr", .expr)]),
  ("echo", [("expr", .expr)]),
  ("break", [("target", .expr)]),
  ("continue", [("target", .expr)]),
  ("return", [("expr", .expr)]),
  ("return_ref", [("expr", .expr)]),
  ("throw", [("expr", .expr)]),
  ("class_static", [("class_name", .text), ("name", .text), ("init", .expr)]),
  ("static", [("name", .text), ("init", .expr)])]

/-- The other statements. -/
def compoundGrammar : List (Text × List Row) := [
  ("block", [("stmts", .list .stmt)]),
  ("if", [("test", .expr), ("true", .stmt), ("false", .stmt)]),
  ("while", [("test", .expr), ("body", .stmt)]),
  ("do", [("body", .stmt), ("test", .expr)]),
  ("for", [("init", .expr), ("test", .expr), ("incr", .expr), ("body", .stmt)]),
  ("foreach", [("object", .expr), ("key", .expr), ("value", .expr), ("body", .stmt)]),
  ("switch", [("value", .expr), ("cases", .list .case)]),
  ("text", [("value", .text)]),
  ("null", []),
  ("global", [("names", .texts)]),
  ("class_def", [("definition", .node .classRecord)]),
  ("function_def", [("definition", .node .function)]),
  ("try", [("body", .stmt), ("finally", .stmt), ("catches", .list .handler)])]

/-- **The rows of each kind of statement.** -/
def stmtGrammar : List (Text × List Row) := simpleGrammar ++ compoundGrammar

/-- The rows of the program. -/
def programGrammar : List Row :=
  [("file", .text), ("statements", .stmt), ("functions", .list (.node .function))]

/-! ## The records around a position -/

/-- A record that a position stands in. -/
inductive Scope where
  | function (record : Node)
  | classRecord (record : Node)

/-- The records around a position, the innermost first. -/
abbrev Path := List Scope

/-- **The class around**: the name of the innermost class record. A function record in no class, or
in one without a name, makes its own class the class around. -/
def classAround (d : Yaml.Document) : Path → Text
  | [] => ""
  | .classRecord n :: _ => textOf d n "name"
  | .function n :: outer => if classAround d outer = "" then textOf d n "class" else classAround d outer

/-- **The function around**: the name of the innermost function record, within the innermost class
record. -/
def functionAround (d : Yaml.Document) : Path → Text
  | [] | .classRecord _ :: _ => ""
  | .function n :: _ => if textOf d n "name" = "" then closureName else textOf d n "name"

/-- **The location a mapping asks for** within some records. -/
def locationIn (d : Yaml.Document) (path : Path) (n : Node) : Location :=
  if integerOf d n "line" ≤ 0 then .unknown
  else {
    file := namedFile d
    line := integerOf d n "line"
    className := if textOf d n "class" = "" then classAround d path else textOf d n "class"
    function := if textOf d n "function" = "" then functionAround d path else textOf d n "function" }

namespace Role

/-- The records around the content of a node: a record is around its own content. -/
def scope (r : Role) (path : Path) (n : Node) : Path :=
  match r with
  | .expression | .statement => path
  | .function | .member => .function n :: path
  | .classRecord => .classRecord n :: path

/-- What is said of a node that is no mapping. -/
def notMapping : Role → Cause
  | .expression => .expressionNotMapping
  | .statement => .statementNotMapping
  | .function | .member => .functionNotMapping
  | .classRecord => .classNotMapping

end Role

/-! ## Rows -/

/-- The rows of a location: class and function are looked at only when the line is positive. -/
def locationRows (d : Yaml.Document) (n : Node) : List Row :=
  ("line", .integer) ::
    if integerOf d n "line" ≤ 0 then [] else [("class", .text), ("function", .text)]

/-- The mapping has a list under a key, and the list is not empty. -/
def hasItems (n : Node) (key : String) : Bool := (n.field? key).any fun c => !c.items.isEmpty

/-- The rows of an expression after its kind and location. A concatenation that lists its parts has no
others. -/
def exprRows (d : Yaml.Document) (n : Node) : List Row :=
  if textOf d n "kind" = "append" ∧ hasItems n "parts" then [("parts", .exprs)]
  else (exprGrammar.lookup (textOf d n "kind")).getD []

/-- The rows of a statement after its kind and location. -/
def stmtRows (d : Yaml.Document) (n : Node) : List Row :=
  (stmtGrammar.lookup (textOf d n "kind")).getD []

/-- **The rows of a node of the tree**, within some records. -/
def Role.rows (d : Yaml.Document) (r : Role) (path : Path) (n : Node) : List Row :=
  match r with
  | .expression =>
    ("kind", .text) :: (locationRows d n ++ ("kind", .word .expressionKind) :: exprRows d n)
  | .statement =>
    ("kind", .text) :: (locationRows d n ++ ("kind", .word .statementKind) :: stmtRows d n)
  | .function | .member =>
    (if classAround d path = "" then [("class", .text)] else []) ++
      [("name", .text), ("static", .flag), ("abstract", .flag), ("visibility", .word .visibility)] ++
      locationRows d n ++ [("params", .list .param), ("body", .stmt)]
  | .classRecord =>
    [("name", .text), ("parent", .text), ("interfaces", .texts), ("interface", .flag)] ++
      locationRows d n ++ [("functions", .list (.node .member))]

/-! ## Positions -/

/-- **A position of a document.** -/
structure Position where
  /-- The records around. -/
  path : Path
  /-- The node the position belongs to: the mapping of its key, or the list it is an item of. -/
  holder : Node
  key : String
  /-- The node in the position, if there is one. -/
  node : Option Node
  want : Want

namespace Position

variable (d : Yaml.Document)

/-- The position of a row in a mapping. -/
def ofRow (path : Path) (n : Node) (row : Row) : Position := ⟨path, n, row.1, n.field? row.1, row.2⟩

/-- The position of an item of a list under a key. -/
def ofItem (path : Path) (key : String) (w : Want) (n c : Node) : Position := ⟨path, n, key, some c, w⟩

/-- What is wrong with a simple value, if something is. -/
def valueFault? (q : Position) (t : Simple) : Option (Nat × Cause) :=
  q.node.bind fun v =>
    if v.isNull then none else (t.refusal? d v).map fun r => (v.line, .badValue q.key r)

/-- **What is wrong with a position itself**, and on which line, if something is. What is absent or
null is right unless a word is wanted. -/
def wrong? (q : Position) : Option (Nat × Cause) :=
  match q.want with
  | .value t => q.valueFault? d t
  | .word ws =>
    (q.valueFault? d .text).or <|
      let w := textOf d q.holder q.key
      if ws.knows w then none else some (q.holder.line, ws.cause w)
  | .node r => q.node.bind fun n =>
    if n.isNull || n.isMapping || (r == .statement && n.isSequence) then none
    else some (n.line, r.notMapping)
  | .list _ => q.node.bind fun n =>
    if n.isNull || n.isSequence then none else some (n.line, .notList q.key)
  | .targets | .item | .case | .handler | .param => none

/-- The value of a position, if there is one, is of a simple type. -/
def HasType (q : Position) (t : Simple) : Prop :=
  ∀ v, q.node = some v → v.isNull = true ∨ t.refusal? d v = none

/-- **A position is well-formed**, by itself. -/
def WellFormed (q : Position) : Prop :=
  match q.want with
  | .value t => q.HasType d t
  | .word ws => q.HasType d .text ∧ ws.knows (textOf d q.holder q.key) = true
  | .node .statement => ∀ n, q.node = some n →
    n.isNull = true ∨ n.isMapping = true ∨ n.isSequence = true
  | .node _ => ∀ n, q.node = some n → n.isNull = true ∨ n.isMapping = true
  | .list _ => ∀ n, q.node = some n → n.isNull = true ∨ n.isSequence = true
  | .targets | .item | .case | .handler | .param => True

theorem valueFault?_eq_none_iff (q : Position) (t : Simple) :
    q.valueFault? d t = none ↔ q.HasType d t := by
  rw [valueFault?, HasType]
  cases q.node with
  | none => simp
  | some v => by_cases null : v.isNull <;> simp [null]

/-- Nothing is wrong with a position exactly if it is well-formed. -/
theorem wrong?_eq_none_iff (q : Position) : q.wrong? d = none ↔ q.WellFormed d := by
  unfold wrong? WellFormed
  cases q.want with
  | value t => exact valueFault?_eq_none_iff d q t
  | word ws =>
    rw [Option.or_eq_none_iff, valueFault?_eq_none_iff]
    simp
  | node r =>
    cases q.node with
    | none => cases r <;> simp
    | some n => cases r <;> grind
  | list w =>
    cases q.node with
    | none => simp
    | some n => grind
  | targets | item | case | handler | param => simp

/-- **The fault of a position**, if it is ill-formed. -/
def fault? (q : Position) : Option Misread :=
  (q.wrong? d).map fun e => ⟨namedFile d, e.1, e.2⟩

theorem fault?_eq_none_iff (q : Position) : q.fault? d = none ↔ q.WellFormed d := by
  rw [fault?, Option.map_eq_none_iff, wrong?_eq_none_iff]

/-- **The positions directly below one**, in their order. Entries that are no mappings have none. -/
def parts (q : Position) : List Position :=
  match q.node with
  | none => []
  | some n =>
    match q.want with
    | .value _ | .word _ => []
    | .node r =>
      if n.isMapping then (r.rows d q.path n).map (ofRow (r.scope q.path n) n)
      else if r = .statement then n.items.map (ofItem q.path q.key .stmt n) else []
    | .list w => n.items.map (ofItem q.path q.key w n)
    | .targets =>
      if n.isNull then []
      else if n.isSequence then n.items.map (ofItem q.path q.key .expr n)
      else [⟨q.path, q.holder, q.key, some n, .expr⟩, ofRow q.path n ("kind", .word .targetsKind)]
    | .item => [("key", .expr), ("value", .expr)].map (ofRow q.path n)
    | .case => [("default", .flag), ("exprs", .exprs), ("body", .stmt)].map (ofRow q.path n)
    | .handler => [("types", .texts), ("var", .text), ("body", .stmt)].map (ofRow q.path n)
    | .param => [("name", .text), ("default", .expr)].map (ofRow q.path n)

/-- A measure of a position, larger than that of every position below it. The targets of an assignment
are looked at once more as an expression. -/
noncomputable def size (q : Position) : Nat :=
  match q.node with
  | none => 0
  | some n => 2 * sizeOf n + match q.want with
    | .targets => 1
    | _ => 0

theorem size_le {q : Position} {n : Node} (h : q.node = some n) : 2 * sizeOf n ≤ q.size := by
  simp only [size, h]
  omega

theorem size_ofRow_lt (path : Path) (n : Node) (row : Row) :
    (ofRow path n row).size < 2 * sizeOf n := by
  cases hf : n.field? row.1 with
  | none =>
    have : 0 < sizeOf n := by cases n <;> simp only [Node.scalar.sizeOf_spec,
      Node.sequence.sizeOf_spec, Node.mapping.sizeOf_spec, Node.reference.sizeOf_spec] <;> omega
    simp only [size, ofRow, hf]
    omega
  | some c =>
    have := Node.sizeOf_lt_of_field? hf
    simp only [size, ofRow, hf]
    split <;> omega

theorem size_ofItem_lt {n c : Node} (h : c ∈ n.items) (path : Path) (key : String) (w : Want) :
    (ofItem path key w n c).size < 2 * sizeOf n := by
  have := Node.sizeOf_lt_of_mem_items h
  simp only [size, ofItem]
  split <;> omega

/-- What stands below a position is smaller. -/
theorem size_lt_of_mem_parts {q p : Position} (h : p ∈ q.parts d) : p.size < q.size := by
  cases hn : q.node with
  | none => simp [parts, hn] at h
  | some n =>
    have hq := size_le hn
    have rows {path : Path} {rs : List Row} (h : p ∈ rs.map (ofRow path n)) : p.size < q.size := by
      obtain ⟨row, -, rfl⟩ := List.mem_map.1 h
      exact Nat.lt_of_lt_of_le (size_ofRow_lt path n row) hq
    have items {w : Want} (h : p ∈ n.items.map (ofItem q.path q.key w n)) : p.size < q.size := by
      obtain ⟨c, hc, rfl⟩ := List.mem_map.1 h
      exact Nat.lt_of_lt_of_le (size_ofItem_lt hc q.path q.key w) hq
    simp only [parts, hn] at h
    cases hw : q.want with
    | value t => simp [hw] at h
    | word ws => simp [hw] at h
    | node r =>
      simp only [hw] at h
      split at h
      · exact rows h
      · split at h
        · exact items h
        · simp at h
    | list w =>
      simp only [hw] at h
      exact items h
    | targets =>
      simp only [hw] at h
      split at h
      · simp at h
      · split at h
        · exact items h
        · simp only [List.mem_cons, List.not_mem_nil, or_false] at h
          rcases h with rfl | rfl
          · simp [size, hn, hw]
          · exact Nat.lt_of_lt_of_le (size_ofRow_lt q.path n _) hq
    | item | case | handler | param =>
      simp only [hw] at h
      exact rows h

/-- **A position and everything below it**, in the order of the rows. -/
def visited (q : Position) : List Position := q :: (q.parts d).attach.flatMap fun p => visited p.1
termination_by q.size
decreasing_by exact size_lt_of_mem_parts d p.2

end Position

/-- Some positions and everything below them. -/
def visitedAll (d : Yaml.Document) (qs : List Position) : List Position := qs.flatMap (·.visited d)

/-- **The positions of a document**, in the order in which they are visited. -/
def positions (d : Yaml.Document) : List Position :=
  visitedAll d (programGrammar.map (Position.ofRow [] d.root))

/-- The fault of the first ill-formed position. -/
def firstFault? (d : Yaml.Document) (qs : List Position) : Option Misread :=
  qs.findSome? (·.fault? d)

end PhpAudit.Tree
