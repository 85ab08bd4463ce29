import PhpAudit.Proofs.Walk.Coverage

/-!
# What is seen of a node

Of the expression that shows the taint of a node, five things are seen from outside: its kind and
location, its printed form, whether it has an operand, and the static path of that. Each is made of
the form of the node, of what is left out at it, and of what is seen of its children (`composed`).
So nodes that differ only where nothing is seen, as in the body of a closure, look the same
(`looks_of_children`).
-/

namespace PhpAudit.Walk

open PhpAudit.Tree

/-- A text that may be absent, and is then empty. -/
def shown (t : Option Text) : Text := t.getD ""

/-- What is printed of a node in the printed form of the node above it. -/
def Node.text? : Node → Option Text
  | .operand x => x.map Expr.print
  | .link (.mk _ v) => some (printOperand v)
  | .targets ts => some (printTargets (some ts))
  | _ => none

/-- The static path of a node in that of the node above it. -/
def Node.path (file : Text) : Node → Option Text
  | .operand x | .link (.mk _ x) => StaticPath.ofOperand file x
  | _ => none

/-- The printed form of a callee, from those of its operands. -/
def printCallee : Callee → List Text → Text
  | .variableFunction _, [a] => a
  | .method _ name, [a] => a ++ "->" ++ name
  | .variableMethod _ _, [a, b] => a ++ "->" ++ b
  | .ownVariableMethod _, [a] => "$this->" ++ a
  | .variableClassMethod _ name, [a] => a ++ "::" ++ name
  | .classVariableMethod c _, [a] => c ++ "::" ++ a
  | .variableClassVariableMethod _ _, [a, b] => a ++ "::" ++ b
  | .createVariable _, [a] => "new " ++ a
  | c, _ => c.print

/-- The printed forms of array entries, from those of their keys and values. -/
def printEntries : List (Option Text) → List Text
  | none :: v :: rest => shown v :: printEntries rest
  | some k :: v :: rest => (k ++ " => " ++ shown v) :: printEntries rest
  | _ => []

/-- The printed form of the links of a concatenation, from those of their values. -/
def printRest (ls : List (Option Text)) : Text :=
  ls.foldr (fun t rest => " . " ++ shown t ++ rest) ""

namespace Form

/-- **The printed form of an expression of this form**, from those of what is left out at it and
below it. -/
def print? (out below : List (Option Text)) : Form → Option Text
  | .atom _ a => some a.print
  | .unary _ form _ =>
    some (form.around.1 ++ shown ((out ++ below).headD none) ++ form.around.2)
  | .binary _ form =>
    match form, below with
    -- the walk comes to the name of the field first
    | .objectFieldVariable, [b, a] | _, [a, b] =>
      some (shown a ++ form.around.1 ++ shown b ++ form.around.2)
    | _, _ => none
  | .assign _ byReference _ =>
    let around := (BinaryForm.assign byReference).around
    some (shown (out.headD none) ++ around.1 ++ shown (below.headD none) ++ around.2)
  | .conditional _ =>
    match below with
    | [test, yes, no] => some (shown test ++ " ? " ++ shown yes ++ " : " ++ shown no)
    | _ => none
  | .list _ form => some (form.word ++ "(" ++ commaSeparated (below.map shown) ++ ")")
  | .array _ => some ("[" ++ commaSeparated (printEntries below) ++ "]")
  | .append _ => some (shown (below.headD none) ++ printRest below.tail)
  | .assignList _ each =>
    let targets : Text := if below.length = 1 then "list()" else shown (below.headD none)
    let value := shown (below.getLastD none)
    some (if each then targets ++ " = each(" ++ value ++ ")" else targets ++ " = " ++ value)
  | .call _ c =>
    let n := (Part.ofCallee c).length
    some (printCallee c ((below.take n).map shown) ++ "(" ++
      commaSeparated ((below.drop n).map shown) ++ ")")
  | .closure _ _ => some "function() \x7b...\x7d"
  | _ => none

/-- What is printed of a node of this form in the printed form of the node above it. -/
def text? (out below : List (Option Text)) : Form → Option Text
  | .link _ => some (shown (below.headD none))
  | .targets _ => some ("list(" ++ commaSeparated (below.map shown) ++ ")")
  | form => form.print? out below

/-- **The static path of a node of this form**, from those of what is below it. -/
def path (file : Text) (below : List (Option Text)) : Form → Option Text
  | .atom l a => StaticPath.ofExpr file (.atom l a)
  | .call _ (.function name _) =>
    if Text.sameLetters name "dirname" then (only below).bind StaticPath.directoryOf else none
  | .append _ =>
    match below.headD none, joined below.tail with
    | some a, some b => if a ++ b = "" then none else some (a ++ b)
    | _, _ => none
  | .link _ => below.headD none
  | _ => none
where
  /-- The path of the only argument of a call. -/
  only : List (Option Text) → Option Text
    | [p] => p
    | _ => none
  /-- The paths of the links of a concatenation, one after the other. -/
  joined : List (Option Text) → Option Text
    | [] => some ""
    | p :: ps =>
      match p, joined ps with
      | some a, some b => some (a ++ b)
      | _, _ => none

/-- The expression of a form, with nothing below it. -/
def alone : Form → Expr
  | .atom l a => .atom l a
  | .unary l form _ => .unary l form none
  | .binary l form => .binary l form none none
  | .assign l byReference _ => .binary l (.assign byReference) none none
  | .conditional l => .conditional l none none none
  | .list l form => .list l form []
  | .array l => .array l []
  | .append l => .append l none []
  | .assignList l each => .assignList l each none none
  | .call l c => .call l c []
  | .closure l uses => .closure l none uses
  | _ => default

/-- Whether the expression of this form has an operand. -/
def given : Form → Bool
  | .unary _ _ given => given
  | _ => false

/-- The static path of the operand of a form. -/
def operandPath (out below : List (Option Text)) : Form → Option Text
  | .unary _ _ _ => (out ++ below).headD none
  | _ => none

end Form

/-! ## Printed forms -/

theorem shown_map (x : Option Expr) : shown (x.map Expr.print) = printOperand x := by
  cases x <;> rfl

theorem shown_operand (x : Option Expr) : shown (Node.operand x).text? = printOperand x :=
  shown_map x

theorem shown_targets (ts : Targets) : shown (Node.targets ts).text? = printTargets (some ts) := rfl

theorem printOperands_eq (xs : List (Option Expr)) :
    printOperands xs = ((xs.map Node.operand).map Node.text?).map shown := by
  induction xs with
  | nil => rfl
  | cons x xs ih => simp only [printOperands, ih, List.map_cons, shown_operand]

theorem printItems_eq (is : List Item) :
    printItems is = printEntries ((is.flatMap Node.ofItem).map Node.text?) := by
  induction is with
  | nil => rfl
  | cons i is ih =>
    obtain ⟨k, v⟩ := i
    cases k <;> simp [printItems, printEntries, Node.ofItem, Node.text?, shown_map, ih]

theorem printLinks_eq (ls : List Link) :
    printLinks ls = printRest ((ls.map .link).map Node.text?) := by
  induction ls with
  | nil => rfl
  | cons l ls ih =>
    obtain ⟨l, v⟩ := l
    simp only [printLinks, ih]
    rfl

theorem printCallee_eq (c : Callee) :
    c.print = printCallee (bare c) (printOperands (Part.ofCallee c)) := by
  cases c <;> rfl

theorem length_ofCallee_bare (c : Callee) :
    (Part.ofCallee (bare c)).length =
      (((Part.ofCallee c).map Node.operand).map Node.text?).length := by
  cases c <;> rfl

section Print

attribute [local simp] Node.leftOut Node.ofExpr Form.ofExpr Form.print? Expr.print shown_operand

theorem print_expr {e : Expr} (known : (Form.ofExpr e).tag? = none) :
    some e.print = (Form.ofExpr e).print?
      ((Node.operand (some e)).leftOut.map fun x => x.map Expr.print)
      ((Node.ofExpr e).map Node.text?) := by
  cases e with
  | unary l form x =>
    by_cases skipped : skipsOperand form = true <;> simp [skipped, shown_map]
  | binary l form a b => cases form <;> simp [shown_map]
  | list l form ms => simp only [Expr.print, printOperands_eq]; rfl
  | array l is => simp [printItems_eq]
  | append l v ls => simp [printLinks_eq]
  | assignList l each ts v =>
    cases ts with
    | none => cases each <;> simp [printTargets]
    | some ts => cases each <;> simp [shown_targets]
  | call l c as =>
    rw [Expr.print, Form.ofExpr, Node.ofExpr, Form.print?, List.map_append, List.map_append,
      length_ofCallee_bare, List.take_left, List.drop_left, printCallee_eq, printOperands_eq,
      printOperands_eq]
  | unknown l tag => cases known
  | _ => simp

end Print

/-! ## Static paths -/

theorem ofLinks_eq (file : Text) (ls : List Link) :
    StaticPath.ofLinks file ls = Form.path.joined ((ls.map Node.link).map (Node.path file)) := by
  induction ls with
  | nil => rfl
  | cons l ls ih =>
    obtain ⟨l, v⟩ := l
    rw [StaticPath.ofLinks, ih]
    rfl

theorem ofOnly_eq (file : Text) (xs : List (Option Expr)) :
    StaticPath.ofOnly file xs = Form.path.only ((xs.map Node.operand).map (Node.path file)) := by
  rcases xs with _ | ⟨x, _ | ⟨y, xs⟩⟩ <;> rfl

theorem path_expr (e : Expr) (file : Text) :
    StaticPath.ofExpr file e =
      (Form.ofExpr e).path file ((Node.ofExpr e).map (Node.path file)) := by
  cases e with
  | binary l form a b => cases form <;> rfl
  | append l v ls =>
    rw [StaticPath.ofExpr, ofLinks_eq]
    rfl
  | call l c as =>
    cases c with
    | function name qualified =>
      rw [StaticPath.ofExpr, ofOnly_eq]
      rfl
    | _ => rfl
  | _ => rfl

theorem operandPath_expr (e : Expr) (file : Text) :
    StaticPath.ofOperand file (operand? e) =
      (Form.ofExpr e).operandPath
        ((Node.operand (some e)).leftOut.map (StaticPath.ofOperand file))
        ((Node.ofExpr e).map (Node.path file)) := by
  cases e with
  | unary l form x =>
    by_cases skipped : skipsOperand form = true <;>
      simp [operand?, Form.ofExpr, Form.operandPath, Node.leftOut, Node.ofExpr, Node.path, skipped]
  | binary l form a b => cases form <;> rfl
  | _ => rfl

/-! ## Nodes -/

theorem alone_expr {e : Expr} (known : (Form.ofExpr e).tag? = none) :
    e.kind = (Form.ofExpr e).alone.kind ∧ e.loc = (Form.ofExpr e).alone.loc := by
  cases e with
  | binary l form a b => cases form <;> exact ⟨rfl, rfl⟩
  | assignList l each ts v => cases each <;> exact ⟨rfl, rfl⟩
  | call l c as => cases c <;> exact ⟨rfl, rfl⟩
  | unknown l tag => cases known
  | _ => exact ⟨rfl, rfl⟩

/-- **What is seen of a node is made of what is seen of its children.** -/
structure Composed (n : Node) : Prop where
  text : n.text? =
    n.form.text? (n.leftOut.map fun x => x.map Expr.print) (n.children.map Node.text?)
  print : n.self.print =
    (n.form.print? (n.leftOut.map fun x => x.map Expr.print) (n.children.map Node.text?)).getD
      (default : Expr).print
  kind : n.self.kind = n.form.alone.kind
  loc : n.self.loc = n.form.alone.loc
  path : ∀ file, n.path file = n.form.path file (n.children.map (Node.path file))
  given : (operand? n.self).isSome = n.form.given
  operandPath : ∀ file, StaticPath.ofOperand file (operand? n.self) =
    n.form.operandPath (n.leftOut.map (StaticPath.ofOperand file))
      (n.children.map (Node.path file))

theorem composed {n : Node} (known : n.form.tag? = none) : Composed n := by
  cases n with
  | operand x =>
    rcases x with _ | e
    · exact ⟨rfl, rfl, rfl, rfl, fun _ => rfl, rfl, fun _ => rfl⟩
    · have print := print_expr known
      have text (out below : List (Option Text)) :
          (Form.ofExpr e).text? out below = (Form.ofExpr e).print? out below := by
        cases e with
        | binary l form a b => cases form <;> rfl
        | _ => rfl
      have given : (operand? e).isSome = (Form.ofExpr e).given := by
        cases e with
        | binary l form a b => cases form <;> rfl
        | _ => rfl
      obtain ⟨kind, loc⟩ := alone_expr known
      refine ⟨print.trans ?_, ?_, kind, loc, path_expr e, given, operandPath_expr e⟩
      · exact (text _ _).symm
      · exact congrArg (fun t => t.getD (default : Expr).print) print
  | statement x =>
    rcases x with _ | s
    · exact ⟨rfl, rfl, rfl, rfl, fun _ => rfl, rfl, fun _ => rfl⟩
    · cases s with
      | block b => cases b; exact ⟨rfl, rfl, rfl, rfl, fun _ => rfl, rfl, fun _ => rfl⟩
      | unknown l tag => cases known
      | _ => exact ⟨rfl, rfl, rfl, rfl, fun _ => rfl, rfl, fun _ => rfl⟩
  | link l =>
    obtain ⟨l, v⟩ := l
    exact ⟨congrArg some (shown_operand v).symm, rfl, rfl, rfl, fun _ => rfl, rfl, fun _ => rfl⟩
  | targets ts =>
    obtain ⟨l, ms⟩ := ts
    refine ⟨?_, rfl, rfl, rfl, fun _ => rfl, rfl, fun _ => rfl⟩
    simp only [Node.text?, printTargets, printOperands_eq]
    rfl
  | function f => cases f; exact ⟨rfl, rfl, rfl, rfl, fun _ => rfl, rfl, fun _ => rfl⟩
  | classDef d => cases d; exact ⟨rfl, rfl, rfl, rfl, fun _ => rfl, rfl, fun _ => rfl⟩
  | body b => cases b; exact ⟨rfl, rfl, rfl, rfl, fun _ => rfl, rfl, fun _ => rfl⟩

/-! ## Nodes that look the same -/

/-- **Expressions that look the same**: the same is seen of both. -/
structure Looks (e e' : Expr) : Prop where
  kind : e.kind = e'.kind
  loc : e.loc = e'.loc
  print : e.print = e'.print
  given : (operand? e).isSome = (operand? e').isSome
  path : ∀ file, StaticPath.ofOperand file (operand? e) = StaticPath.ofOperand file (operand? e')

/-- What is seen of a node from the node above it. -/
def Node.seen (n : Node) : Option Text × (Text → Option Text) := (n.text?, fun file => n.path file)

theorem Looks.refl (e : Expr) : Looks e e := ⟨rfl, rfl, rfl, rfl, fun _ => rfl⟩

/-- **Nodes of the same form look the same**, with the same left out, when their children do. -/
theorem looks_of_children {n n' : Node} (known : n.form.tag? = none) (form : n.form = n'.form)
    (out : n.leftOut = n'.leftOut) (below : n.children.map Node.seen = n'.children.map Node.seen) :
    n.seen = n'.seen ∧ Looks n.self n'.self := by
  have texts : n.children.map Node.text? = n'.children.map Node.text? := by
    have fst := congrArg (List.map Prod.fst) below
    rwa [List.map_map, List.map_map] at fst
  have paths (file : Text) :
      n.children.map (Node.path file) = n'.children.map (Node.path file) := by
    have snd := congrArg (List.map fun seen => seen.2 file) below
    rwa [List.map_map, List.map_map] at snd
  have here := composed known
  have there := composed (form ▸ known : n'.form.tag? = none)
  have seen : n.text? = n'.text? ∧ ∀ file, n.path file = n'.path file := by
    refine ⟨?_, fun file => ?_⟩
    · rw [here.text, there.text, form, out, texts]
    · rw [here.path, there.path, form, paths]
  refine ⟨Prod.ext seen.1 (funext seen.2), ⟨?_, ?_, ?_, ?_, fun file => ?_⟩⟩
  · rw [here.kind, there.kind, form]
  · rw [here.loc, there.loc, form]
  · rw [here.print, there.print, form, out, texts]
  · rw [here.given, there.given, form]
  · rw [here.operandPath, there.operandPath, form, out, paths]

end PhpAudit.Walk
