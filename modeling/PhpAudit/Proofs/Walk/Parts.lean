import Mathlib.Algebra.GroupWithZero.Nat
import Mathlib.Data.List.Basic
import PhpAudit.Walk.Tree

/-!
# The parts of a node

The walk of a node takes note of its location, walks what is below it in a fixed order, and reports.
`within` lists what it goes through: places to take note of, operands and statements, bodies with a
scope of their own, and the halt at a node of an unknown kind. What the walk leaves out is not
listed.

Seen from the scope, nothing else happens: the **outline** of a walk, what it does to its scope and
the error it ends with, is that of the walk through the parts (`outline_ofExpr`, `outline_ofStmt`).
The exception is an assignment to a variable, which binds the variable after its parts.

The parts of a node are smaller than the node (`sizes_within`), so what is said of parts by way of
their parts is well founded.
-/

namespace PhpAudit.Walk

open PhpAudit.Tree

variable {α β : Type}

/-! ## Laws of walks -/

theorem andThen_done (w : Walk α) : (w >>= fun a => pure a) = w := by
  funext s
  rw [bind_apply]
  rcases w s with ⟨events, scope, value⟩
  cases value <;> simp

theorem andThen_assoc {γ : Type} (w : Walk α) (f : α → Walk β) (g : β → Walk γ) :
    (w >>= f >>= g) = (w >>= fun a => f a >>= g) := by
  funext s
  simp only [bind_apply]
  rcases w s with ⟨events, scope, value⟩
  cases value with
  | error e => rfl
  | ok a =>
    simp only []
    rcases f a scope with ⟨events', scope', value'⟩
    cases value' <;> simp

instance : LawfulMonad Walk :=
  LawfulMonad.mk' Walk andThen_done (fun _ _ => rfl) andThen_assoc

/-! ## Outlines -/

/-- **The outline of a walk**: what it does to its scope, and the error it ends with, if one does.
-/
def outline (w : Walk α) : Walk Unit := fun s => ⟨[], (w s).scope, (w s).value.map fun _ => ()⟩

@[simp] theorem outline_pure (a : α) : outline (pure a) = pure () := rfl

@[simp] theorem outline_report (e : Event) : outline (report e) = pure () := rfl

@[simp] theorem outline_use (i : Identity) : outline (use i) = pure () := rfl

@[simp] theorem outline_remark (level : Level) (text : Text) :
    outline (remark level text) = pure () := rfl

@[simp] theorem outline_locate (l : Location) : outline (locate l) = pure () := rfl

@[simp] theorem outline_track (l : Location) : outline (track l) = track l := rfl

@[simp] theorem outline_stop (l : Location) (tag : Text) :
    outline (stop l tag : Walk α) = stop l tag := rfl

/-- **Outlines in sequence**, when what comes second looks the same whatever the value of the first.
-/
theorem outline_bind (w : Walk α) {f : α → Walk β} {u : Walk Unit} (h : ∀ a, outline (f a) = u) :
    outline (w >>= f) = (do outline w; u) := by
  funext s
  rw [outline, bind_apply, bind_apply, outline]
  rcases w s with ⟨events, scope, value⟩
  cases value with
  | error e => rfl
  | ok a =>
    have hf := congrFun (h a) scope
    simp only [Except.map, ← hf]
    rfl

@[simp] theorem outline_seq (w : Walk α) (u : Walk β) :
    outline (w >>= fun _ => u) = (do outline w; outline u) :=
  outline_bind w fun _ => rfl

/-- What follows a walk is not seen when it leaves the scope alone. -/
theorem outline_bind_quiet (w : Walk α) {f : α → Walk β} (h : ∀ a, outline (f a) = pure ()) :
    outline (w >>= f) = outline w := by
  rw [outline_bind w h]
  exact bind_pure_unit

@[simp] theorem outline_map (f : α → β) (w : Walk α) : outline (f <$> w) = outline w := by
  rw [← bind_pure_comp]
  exact outline_bind_quiet w fun _ => rfl

/-- The values of two walks, put together. -/
@[simp] theorem outline_both {γ : Type} (w : Walk α) (u : Walk β) (f : α → β → γ) :
    outline (w >>= fun a => f a <$> u) = (do outline w; outline u) :=
  outline_bind w fun a => outline_map (f a) u

/-! ## Parts -/

/-- **What the walk of a node goes through.** -/
inductive Part where
  | expr (e : Expr)
  | stmt (s : Stmt)
  /-- A location to take note of. -/
  | place (l : Location)
  /-- A body with a scope of its own. -/
  | body (b : Block)
  /-- The end at a node of an unknown kind. -/
  | halt (l : Location) (tag : Text)

namespace Part

/-- The walk of a part. -/
def walk (m : Mitigations) : Part → Walk Unit
  | .expr e => do
    let _ ← Walk.expr m e
  | .stmt s => do
    let _ ← Walk.stmt m s
  | .place l => track l
  | .body b => inFreshScope (block m b)
  | .halt l tag => stop l tag

/-- The operands that are there. -/
def ofOperands (es : List (Option Expr)) : List Part := es.filterMap fun e => e.map .expr

/-- The statements that are there. -/
def ofStmts (ss : List (Option Stmt)) : List Part := ss.filterMap fun s => s.map .stmt

/-- The key and the value of an entry. -/
def ofItem : Item → List Part
  | .mk k v => ofOperands [k, v]

/-- The place and the value of a link. -/
def ofLink : Link → List Part
  | .mk l v => .place l :: ofOperands [v]

/-- The place of the targets of a list assignment, and the targets. -/
def ofTargets : Option Targets → List Part
  | none => []
  | some (.mk l ms) => .place l :: ofOperands ms

/-- The expressions of a callee. -/
def ofCallee : Callee → List (Option Expr)
  | .variableFunction x | .method x _ | .ownVariableMethod x | .variableClassMethod x _
  | .classVariableMethod _ x | .createVariable x => [x]
  | .variableMethod x y | .variableClassVariableMethod x y => [x, y]
  | _ => []

/-- The tests and statements of a case. -/
def ofCase : Case → List Part
  | .mk _ tests ss => ofOperands tests ++ ss.map .stmt

/-- The statement of a handler. -/
def ofHandler : Handler → List Part
  | .mk _ _ s => ofStmts [s]

/-- The body of a function, if it has one. -/
def ofFunction (f : Function) : List Part := (f.body.map Part.body).toList

/-- The bodies of the members of a class. -/
def ofClass (d : ClassDef) : List Part := d.members.flatMap ofFunction

/-- **The parts of an expression**, in the order of the walk. -/
def ofExpr : Expr → List Part
  | .atom l _ => [.place l]
  | .unary l form x => .place l :: if skipsOperand form then [] else ofOperands [x]
  | .binary l (.assign _) _ b => .place l :: ofOperands [b]
  | .binary l .objectFieldVariable a b => .place l :: ofOperands [b, a]
  | .binary l _ a b => .place l :: ofOperands [a, b]
  | .conditional l test yes no => .place l :: ofOperands [test, yes, no]
  | .list l _ ms => .place l :: ofOperands ms
  | .array l is => .place l :: is.flatMap ofItem
  | .append l v ls => .place l :: (ofOperands [v] ++ ls.flatMap ofLink)
  | .assignList l _ ts v => .place l :: (ofTargets ts ++ ofOperands [v])
  | .call l c as => .place l :: ofOperands (ofCallee c ++ as)
  | .closure l f _ => .place l :: f.toList.flatMap ofFunction
  | .unknown l tag => [.place l, .halt l tag]

/-- **The parts of a statement**, in the order of the walk. -/
def ofStmt : Stmt → List Part
  | .block (.mk l ss) => .place l :: ss.map .stmt
  | .simple l _ x => .place l :: ofOperands [x]
  | .inert l _ => [.place l]
  | .branch l test yes no => .place l :: (ofOperands [test] ++ ofStmts [yes, no])
  | .loop l _ test s => .place l :: (ofOperands [test] ++ ofStmts [s])
  | .count l start test step s => .place l :: (ofOperands [start, test, step] ++ ofStmts [s])
  | .each l object _ _ s => .place l :: (ofOperands [object] ++ ofStmts [s])
  | .switch l value cs => .place l :: (ofOperands [value] ++ cs.flatMap ofCase)
  | .guarded l s hs last => .place l :: (ofStmts [s] ++ hs.flatMap ofHandler ++ ofStmts [last])
  | .classDef l d => .place l :: d.toList.flatMap ofClass
  | .functionDef l f => .place l :: f.toList.flatMap ofFunction
  | .unknown l tag => [.place l, .halt l tag]

/-- **The parts of a part.** A body is closed: what is below it belongs to another scope. -/
def within : Part → List Part
  | .expr e => ofExpr e
  | .stmt s => ofStmt s
  | .place _ | .body _ | .halt _ _ => []

/-! ## Parts are smaller -/

/-- A bound on how much there is to walk in a part. -/
noncomputable def size : Part → Nat
  | .expr e => 1 + sizeOf e
  | .stmt s => 1 + sizeOf s
  | .place _ | .body _ | .halt _ _ => 1

/-- A bound on how much there is to walk in parts. -/
noncomputable def sizes (ps : List Part) : Nat := (ps.map size).sum

@[simp] theorem sizes_nil : sizes [] = 0 := rfl

@[simp] theorem sizes_cons (p : Part) (ps : List Part) : sizes (p :: ps) = p.size + sizes ps := by
  simp [sizes]

@[simp] theorem sizes_append (ps qs : List Part) : sizes (ps ++ qs) = sizes ps + sizes qs := by
  simp [sizes]

theorem sizes_ofOperands_nil : sizes (ofOperands []) = 0 := rfl

theorem sizes_ofOperands_cons (x : Option Expr) (xs : List (Option Expr)) :
    sizes (ofOperands (x :: xs)) ≤ sizeOf x + sizes (ofOperands xs) := by
  cases x with
  | none => simp [ofOperands]
  | some e => simp [ofOperands, size]

theorem sizes_ofOperands (xs : List (Option Expr)) : sizes (ofOperands xs) ≤ sizeOf xs := by
  induction xs with
  | nil => simp [ofOperands]
  | cons x xs ih =>
    have := sizes_ofOperands_cons x xs
    simp only [List.cons.sizeOf_spec]
    omega

theorem sizes_ofStmts_nil : sizes (ofStmts []) = 0 := rfl

theorem sizes_ofStmts_cons (x : Option Stmt) (xs : List (Option Stmt)) :
    sizes (ofStmts (x :: xs)) ≤ sizeOf x + sizes (ofStmts xs) := by
  cases x with
  | none => simp [ofStmts]
  | some s => simp [ofStmts, size]

theorem sizes_stmts (ss : List Stmt) : sizes (ss.map .stmt) ≤ sizeOf ss := by
  induction ss with
  | nil => simp
  | cons s ss ih =>
    simp only [List.map_cons, sizes_cons, size, List.cons.sizeOf_spec]
    omega

/-- Parts taken from the elements of a list are together no larger than the list. -/
theorem sizes_flatMap {α : Type} [SizeOf α] {f : α → List Part} (h : ∀ a, sizes (f a) ≤ sizeOf a)
    (as : List α) : sizes (as.flatMap f) ≤ sizeOf as := by
  induction as with
  | nil => simp
  | cons a as ih =>
    have := h a
    simp only [List.flatMap_cons, sizes_append, List.cons.sizeOf_spec]
    omega

theorem sizes_toList_flatMap {α : Type} [SizeOf α] {f : α → List Part}
    (h : ∀ a, sizes (f a) ≤ sizeOf a) (x : Option α) : sizes (x.toList.flatMap f) ≤ sizeOf x := by
  cases x with
  | none => simp
  | some a =>
    have := h a
    simp only [Option.toList_some, List.flatMap_singleton, Option.some.sizeOf_spec]
    omega

theorem sizes_ofItem (i : Item) : sizes (ofItem i) ≤ sizeOf i := by
  obtain ⟨k, v⟩ := i
  grind [ofItem, sizes_ofOperands_cons, sizes_ofOperands_nil, Item.mk.sizeOf_spec]

theorem sizes_ofLink (l : Link) : sizes (ofLink l) ≤ sizeOf l := by
  obtain ⟨loc, v⟩ := l
  grind [ofLink, size, sizes_cons, sizes_ofOperands_cons, sizes_ofOperands_nil, Link.mk.sizeOf_spec]

theorem sizes_ofTargets (ts : Option Targets) : sizes (ofTargets ts) ≤ sizeOf ts := by
  cases ts with
  | none => simp [ofTargets]
  | some ts =>
    obtain ⟨l, ms⟩ := ts
    have := sizes_ofOperands ms
    simp only [ofTargets, size, sizes_cons, Option.some.sizeOf_spec, Targets.mk.sizeOf_spec]
    omega

theorem sizes_ofCallee (c : Callee) (xs : List (Option Expr)) :
    sizes (ofOperands (ofCallee c ++ xs)) ≤ sizeOf c + sizeOf xs := by
  have := sizes_ofOperands xs
  cases c <;> simp only [ofCallee, List.cons_append, List.nil_append, Callee.function.sizeOf_spec,
    Callee.variableFunction.sizeOf_spec, Callee.method.sizeOf_spec,
    Callee.variableMethod.sizeOf_spec, Callee.ownVariableMethod.sizeOf_spec,
    Callee.variableClassMethod.sizeOf_spec, Callee.classVariableMethod.sizeOf_spec,
    Callee.variableClassVariableMethod.sizeOf_spec, Callee.createVariable.sizeOf_spec] <;>
    grind [sizes_ofOperands_cons]

theorem sizes_ofCase (c : Case) : sizes (ofCase c) ≤ sizeOf c := by
  obtain ⟨isDefault, tests, ss⟩ := c
  have := sizes_ofOperands tests
  have := sizes_stmts ss
  simp only [ofCase, sizes_append, Case.mk.sizeOf_spec]
  omega

theorem sizes_ofHandler (h : Handler) : sizes (ofHandler h) ≤ sizeOf h := by
  obtain ⟨types, caught, s⟩ := h
  grind [ofHandler, sizes_ofStmts_cons, sizes_ofStmts_nil, Handler.mk.sizeOf_spec]

theorem sizes_ofFunction (f : Function) : sizes (ofFunction f) ≤ sizeOf f := by
  obtain ⟨head, params, body⟩ := f
  cases body with
  | none => simp [ofFunction, Function.body]
  | some b =>
    simp only [ofFunction, Function.body, Option.map_some, Option.toList_some, sizes_cons,
      sizes_nil, size, Function.mk.sizeOf_spec, Option.some.sizeOf_spec]
    omega

theorem sizes_ofClass (d : ClassDef) : sizes (ofClass d) ≤ sizeOf d := by
  obtain ⟨head, members⟩ := d
  have := sizes_flatMap sizes_ofFunction members
  simp only [ofClass, ClassDef.members, ClassDef.mk.sizeOf_spec]
  omega

theorem sizeOf_location_pos (l : Location) : 0 < sizeOf l := by
  obtain ⟨file, line, className, function⟩ := l
  simp only [Location.mk.sizeOf_spec]
  omega

theorem sizes_ofExpr (e : Expr) : sizes (ofExpr e) < size (.expr e) := by
  cases e with
  | atom l form =>
    simp only [ofExpr, size, sizes_cons, sizes_nil, Expr.atom.sizeOf_spec]
    omega
  | unary l form x =>
    simp only [ofExpr, size, sizes_cons, Expr.unary.sizeOf_spec]
    split
    · grind [sizes_nil]
    · grind [sizes_ofOperands_cons, sizes_ofOperands_nil]
  | binary l form a b =>
    cases form <;> simp only [ofExpr, size, sizes_cons, Expr.binary.sizeOf_spec] <;>
      grind [sizes_ofOperands_cons, sizes_ofOperands_nil]
  | conditional l test yes no =>
    simp only [ofExpr, size, sizes_cons, Expr.conditional.sizeOf_spec]
    grind [sizes_ofOperands_cons, sizes_ofOperands_nil]
  | list l form ms =>
    have := sizes_ofOperands ms
    simp only [ofExpr, size, sizes_cons, Expr.list.sizeOf_spec]
    omega
  | array l is =>
    have := sizes_flatMap sizes_ofItem is
    simp only [ofExpr, size, sizes_cons, Expr.array.sizeOf_spec]
    omega
  | append l v ls =>
    have := sizes_flatMap sizes_ofLink ls
    simp only [ofExpr, size, sizes_cons, sizes_append, Expr.append.sizeOf_spec]
    grind [sizes_ofOperands_cons, sizes_ofOperands_nil]
  | assignList l each ts v =>
    have := sizes_ofTargets ts
    simp only [ofExpr, size, sizes_cons, sizes_append, Expr.assignList.sizeOf_spec]
    grind [sizes_ofOperands_cons, sizes_ofOperands_nil]
  | call l c args =>
    have := sizes_ofCallee c args
    simp only [ofExpr, size, sizes_cons, Expr.call.sizeOf_spec]
    omega
  | closure l f uses =>
    have := sizes_toList_flatMap sizes_ofFunction f
    simp only [ofExpr, size, sizes_cons, Expr.closure.sizeOf_spec]
    omega
  | unknown l tag =>
    have := sizeOf_location_pos l
    simp only [ofExpr, size, sizes_cons, sizes_nil, Expr.unknown.sizeOf_spec]
    omega

theorem sizes_ofStmt (s : Stmt) : sizes (ofStmt s) < size (.stmt s) := by
  cases s with
  | block b =>
    obtain ⟨l, ss⟩ := b
    have := sizes_stmts ss
    simp only [ofStmt, size, sizes_cons, Stmt.block.sizeOf_spec, Block.mk.sizeOf_spec]
    omega
  | simple l form x =>
    simp only [ofStmt, size, sizes_cons, Stmt.simple.sizeOf_spec]
    grind [sizes_ofOperands_cons, sizes_ofOperands_nil]
  | inert l form =>
    simp only [ofStmt, size, sizes_cons, sizes_nil, Stmt.inert.sizeOf_spec]
    omega
  | branch l test yes no =>
    simp only [ofStmt, size, sizes_cons, sizes_append, Stmt.branch.sizeOf_spec]
    grind [sizes_ofOperands_cons, sizes_ofOperands_nil, sizes_ofStmts_cons, sizes_ofStmts_nil]
  | loop l testFirst test s =>
    simp only [ofStmt, size, sizes_cons, sizes_append, Stmt.loop.sizeOf_spec]
    grind [sizes_ofOperands_cons, sizes_ofOperands_nil, sizes_ofStmts_cons, sizes_ofStmts_nil]
  | count l start test step s =>
    simp only [ofStmt, size, sizes_cons, sizes_append, Stmt.count.sizeOf_spec]
    grind [sizes_ofOperands_cons, sizes_ofOperands_nil, sizes_ofStmts_cons, sizes_ofStmts_nil]
  | each l object key value s =>
    simp only [ofStmt, size, sizes_cons, sizes_append, Stmt.each.sizeOf_spec]
    grind [sizes_ofOperands_cons, sizes_ofOperands_nil, sizes_ofStmts_cons, sizes_ofStmts_nil]
  | switch l value cs =>
    have := sizes_flatMap sizes_ofCase cs
    simp only [ofStmt, size, sizes_cons, sizes_append, Stmt.switch.sizeOf_spec]
    grind [sizes_ofOperands_cons, sizes_ofOperands_nil]
  | guarded l s hs last =>
    have := sizes_flatMap sizes_ofHandler hs
    simp only [ofStmt, size, sizes_cons, sizes_append, Stmt.guarded.sizeOf_spec]
    grind [sizes_ofStmts_cons, sizes_ofStmts_nil]
  | classDef l d =>
    have := sizes_toList_flatMap sizes_ofClass d
    simp only [ofStmt, size, sizes_cons, Stmt.classDef.sizeOf_spec]
    omega
  | functionDef l f =>
    have := sizes_toList_flatMap sizes_ofFunction f
    simp only [ofStmt, size, sizes_cons, Stmt.functionDef.sizeOf_spec]
    omega
  | unknown l tag =>
    have := sizeOf_location_pos l
    simp only [ofStmt, size, sizes_cons, sizes_nil, Stmt.unknown.sizeOf_spec]
    omega

/-- **The parts of a part are smaller together.** -/
theorem sizes_within (p : Part) : sizes p.within < p.size := by
  cases p with
  | expr e => exact sizes_ofExpr e
  | stmt s => exact sizes_ofStmt s
  | _ => exact Nat.one_pos

end Part

/-- The walk through parts, one after the other. -/
def inOrder (m : Mitigations) : List Part → Walk Unit
  | [] => pure ()
  | p :: ps => do
    p.walk m
    inOrder m ps

section Outlines

variable (m : Mitigations)

@[simp] theorem outline_inOrder_nil : outline (inOrder m []) = pure () := rfl

@[simp] theorem outline_inOrder_cons (p : Part) (ps : List Part) :
    outline (inOrder m (p :: ps)) = (do outline (p.walk m); outline (inOrder m ps)) :=
  outline_seq _ _

@[simp] theorem outline_inOrder_append (ps qs : List Part) :
    outline (inOrder m (ps ++ qs)) = (do outline (inOrder m ps); outline (inOrder m qs)) := by
  induction ps with
  | nil => simp
  | cons p ps ih => simp [ih]

@[simp] theorem outline_place (l : Location) : outline (Part.walk m (.place l)) = track l := rfl

@[simp] theorem outline_halt (l : Location) (tag : Text) :
    outline (Part.walk m (.halt l tag)) = stop l tag := rfl

@[simp] theorem outline_expr (e : Expr) :
    outline (Part.walk m (.expr e)) = outline (expr m e) :=
  outline_bind_quiet _ fun _ => rfl

@[simp] theorem outline_stmt (s : Stmt) :
    outline (Part.walk m (.stmt s)) = outline (stmt m s) :=
  outline_bind_quiet _ fun _ => rfl

/-! ### Families of parts -/

@[simp] theorem outline_operand_none : outline (operand m none) = pure () := by
  rw [operand]
  rfl

@[simp] theorem outline_operand_some (e : Expr) :
    outline (operand m (some e)) = outline (expr m e) := by
  rw [operand]

@[simp] theorem outline_ofOperands_nil : outline (inOrder m (Part.ofOperands [])) = pure () := rfl

@[simp] theorem outline_ofOperands_cons (x : Option Expr) (xs : List (Option Expr)) :
    outline (inOrder m (Part.ofOperands (x :: xs))) =
      (do outline (operand m x); outline (inOrder m (Part.ofOperands xs))) := by
  cases x with
  | none => simp [Part.ofOperands]
  | some e => simp [Part.ofOperands]

@[simp] theorem outline_ofOperands_append (xs ys : List (Option Expr)) :
    outline (inOrder m (Part.ofOperands (xs ++ ys))) =
      (do outline (inOrder m (Part.ofOperands xs)); outline (inOrder m (Part.ofOperands ys))) := by
  rw [Part.ofOperands, List.filterMap_append, outline_inOrder_append]
  rfl

@[simp] theorem outline_stmt?_none : outline (stmt? m none) = pure () := by
  rw [stmt?]
  rfl

@[simp] theorem outline_stmt?_some (s : Stmt) :
    outline (stmt? m (some s)) = outline (stmt m s) := by
  rw [stmt?]
  exact outline_bind_quiet _ fun _ => rfl

@[simp] theorem outline_ofStmts_nil : outline (inOrder m (Part.ofStmts [])) = pure () := rfl

@[simp] theorem outline_ofStmts_cons (x : Option Stmt) (xs : List (Option Stmt)) :
    outline (inOrder m (Part.ofStmts (x :: xs))) =
      (do outline (stmt? m x); outline (inOrder m (Part.ofStmts xs))) := by
  cases x with
  | none => simp [Part.ofStmts]
  | some s => simp [Part.ofStmts]

theorem outline_operands (es : List (Option Expr)) :
    outline (operands m es) = outline (inOrder m (Part.ofOperands es)) := by
  induction es with
  | nil => rw [operands]; rfl
  | cons e es ih => simp [operands, ih]

theorem outline_items (is : List Item) :
    outline (items m is) = outline (inOrder m (is.flatMap Part.ofItem)) := by
  induction is with
  | nil => rw [items]; rfl
  | cons i is ih =>
    obtain ⟨k, v⟩ := i
    simp [items, Part.ofItem, ih]

theorem outline_links (t : Taint) (ls : List Link) :
    outline (links m t ls) = outline (inOrder m (ls.flatMap Part.ofLink)) := by
  induction ls generalizing t with
  | nil => rw [links]; rfl
  | cons l ls ih =>
    obtain ⟨loc, v⟩ := l
    have rest (t' : Taint) : outline (do return t.merge (← links m t' ls)) =
        outline (inOrder m (ls.flatMap Part.ofLink)) := by
      rw [outline_bind_quiet _ fun _ => rfl, ih]
    rw [links, outline_seq, outline_bind _ rest]
    simp [Part.ofLink]

theorem outline_targets (ts : Option Targets) :
    outline (targets m ts) = outline (inOrder m (Part.ofTargets ts)) := by
  cases ts with
  | none => rw [targets]; rfl
  | some ts =>
    obtain ⟨l, ms⟩ := ts
    simp [targets, Part.ofTargets, outline_operands]

theorem outline_arguments (t : Taint) (es : List (Option Expr)) :
    outline (arguments m t es) = outline (inOrder m (Part.ofOperands es)) := by
  induction es generalizing t with
  | nil => rw [arguments]; rfl
  | cons e es ih =>
    rw [arguments, outline_bind _ fun t' => ih (t.merge t')]
    simp

theorem outline_stmts (ss : List Stmt) :
    outline (stmts m ss) = outline (inOrder m (ss.map .stmt)) := by
  induction ss with
  | nil => rw [stmts]; rfl
  | cons s ss ih => simp [stmts, ih]

theorem outline_cases (cs : List Case) :
    outline (cases m cs) = outline (inOrder m (cs.flatMap Part.ofCase)) := by
  induction cs with
  | nil => rw [cases]; rfl
  | cons c cs ih =>
    obtain ⟨isDefault, tests, ss⟩ := c
    simp [cases, Part.ofCase, outline_operands, outline_stmts, ih]

theorem outline_handlers (hs : List Handler) :
    outline (handlers m hs) = outline (inOrder m (hs.flatMap Part.ofHandler)) := by
  induction hs with
  | nil => rw [handlers]; rfl
  | cons h hs ih =>
    obtain ⟨types, caught, s⟩ := h
    simp [handlers, Part.ofHandler, ih]

/-- A function is seen from the scope around it as its body is. -/
theorem outline_function (f : Function) :
    outline (function m f) = outline (inOrder m (Part.ofFunction f)) := by
  obtain ⟨head, params, body⟩ := f
  cases body with
  | none => simp [function, Part.ofFunction, Function.body]
  | some b => simp [function, Part.ofFunction, Function.body, Part.walk]

theorem outline_function? (f : Option Function) :
    outline (function? m f) = outline (inOrder m (f.toList.flatMap Part.ofFunction)) := by
  cases f with
  | none => rw [function?]; rfl
  | some f => simp [function?, outline_function]

theorem outline_functions (fs : List Function) :
    outline (functions m fs) = outline (inOrder m (fs.flatMap Part.ofFunction)) := by
  induction fs with
  | nil => rw [functions]; rfl
  | cons f fs ih => simp [functions, outline_function, ih]

theorem outline_class? (d : Option ClassDef) :
    outline (class? m d) = outline (inOrder m (d.toList.flatMap Part.ofClass)) := by
  cases d with
  | none => rw [class?]; rfl
  | some d =>
    obtain ⟨head, members⟩ := d
    simp [class?, Part.ofClass, ClassDef.members, outline_functions]

/-! ### Reports are not seen -/

@[simp] theorem outline_reach (l : Location) (name : Text) (t : Taint) :
    outline (reach l name t) = pure () :=
  outline_bind_quiet _ fun _ => rfl

@[simp] theorem outline_afterArguments (e : Expr) (name : Text) (t : Taint) :
    outline (afterArguments m e name t) = pure () := by
  simp [afterArguments]

@[simp] theorem outline_atom (e : Expr) (form : Atom) : outline (atom e form) = pure () := by
  cases form with
  | var name => exact outline_bind_quiet _ fun _ => rfl
  | classConstant c name => simp [atom]
  | _ => rfl

@[simp] theorem outline_beforeOperand (form : UnaryForm) :
    outline (beforeOperand form) = pure () := by
  cases form <;> rfl

@[simp] theorem outline_afterOperand (e : Expr) (l : Location) (x : Option Expr) (t : Taint)
    (form : UnaryForm) : outline (afterOperand e l x t form) = pure () := by
  cases form with
  | variableVariable =>
    rw [afterOperand, outline_bind_quiet]
    · rfl
    · intro l'
      simp
  | inclusion once require =>
    rw [afterOperand, outline_bind_quiet]
    · rfl
    · intro l'
      simp
  | exit die =>
    rw [afterOperand]
    split <;> simp
  | _ => rfl

/-- A call is seen as what its callee holds, and its arguments. -/
theorem outline_callee (e : Expr) (args : Walk Taint) (c : Callee) :
    outline (callee m e args c) =
      (do outline (inOrder m (Part.ofOperands (Part.ofCallee c))); outline args) := by
  have sink (name : Text) : outline (do let t ← args; afterArguments m e name t) = outline args :=
    outline_bind_quiet _ fun _ => outline_afterArguments m e name _
  have reached (name : Text) (r : Taint) :
      outline (do let t ← args; reach e.loc name t; return r) = outline args :=
    outline_bind_quiet _ fun _ => by simp
  have warned (f : Location → Text) {w : Walk Taint} :
      outline (do remark .warn (f (← locate e.loc)); w) = outline w := by
    have rest (l : Location) : outline (do remark .warn (f l); w) = outline w := by simp
    rw [outline_bind _ rest]
    simp
  cases c with
  | function name qualified =>
    simp only [callee, Part.ofCallee]
    split <;> simp [sink]
  | variableClassMethod c name =>
    have rest (first : Taint) :
        outline (do let t ← args; return first.merge (← afterArguments m e name t)) =
          outline args :=
      outline_bind_quiet _ fun t => by rw [outline_bind_quiet _ fun _ => rfl]; simp
    rw [callee, outline_seq, outline_bind _ rest]
    simp [Part.ofCallee]
  | classVariableMethod c name => simp [callee, Part.ofCallee, warned, reached, -bind_pure_comp]
  | variableClassVariableMethod c name =>
    simp [callee, Part.ofCallee, warned, reached, -bind_pure_comp]
  | create c => simp [callee, Part.ofCallee]
  | _ => simp [callee, Part.ofCallee, sink, reached, -bind_pure_comp]

/-! ### Nodes -/

/-- The name of the variable that an expression is an assignment to, and what is assigned. -/
def assignment? : Expr → Option (Text × Location × Option Expr)
  | .binary l (.assign _) (some (.atom _ (.var name))) b => some (name, l, b)
  | _ => none

/-- An assigned value is kept only when the target is a variable. -/
theorem outline_assign_other {target : Option Expr}
    (h : ∀ l name, target ≠ some (.atom l (.var name))) (t : Taint) :
    outline (assign target t) = pure () := by
  unfold assign
  split
  · exact absurd rfl (h _ _)
  · rfl

/-- **An expression that binds nothing is seen as its parts.** -/
theorem outline_ofExpr {e : Expr} (h : assignment? e = none) :
    outline (Part.walk m (.expr e)) = outline (inOrder m (Part.ofExpr e)) := by
  rw [outline_expr]
  cases e with
  | atom l form => simp [expr, Part.ofExpr]
  | unary l form x =>
    have rest (t : Taint) : outline (afterOperand (.unary l form x) l x t form) = pure () :=
      outline_afterOperand _ _ _ _ _
    by_cases skipped : skipsOperand form = true
    · simp [expr, Part.ofExpr, skipped]
    · simp [expr, Part.ofExpr, skipped, outline_bind_quiet (operand m x) rest]
  | binary l form a b =>
    cases form with
    | assign byReference =>
      have other : ∀ l' name, a ≠ some (.atom l' (.var name)) := by
        rintro l' name rfl
        cases h
      rw [expr, outline_seq, outline_bind_quiet _ (outline_assign_other other)]
      simp [Part.ofExpr]
    | _ => simp [expr, Part.ofExpr]
  | conditional l test yes no => simp [expr, Part.ofExpr]
  | list l form ms => simp [expr, Part.ofExpr, outline_operands]
  | array l is => simp [expr, Part.ofExpr, outline_items]
  | append l v ls =>
    rw [expr, outline_seq, outline_bind _ fun t => outline_links m t ls]
    simp [Part.ofExpr]
  | assignList l each ts v => simp [expr, Part.ofExpr, outline_targets]
  | call l c args => simp [expr, Part.ofExpr, outline_callee, outline_arguments]
  | closure l f uses => simp [expr, Part.ofExpr, outline_function?]
  | unknown l tag => simp [expr, Part.ofExpr]

/-- **A statement is seen as its parts.** -/
theorem outline_ofStmt (s : Stmt) :
    outline (Part.walk m (.stmt s)) = outline (inOrder m (Part.ofStmt s)) := by
  rw [outline_stmt]
  cases s with
  | block b =>
    obtain ⟨l, ss⟩ := b
    simp [stmt, block, Part.ofStmt, outline_stmts]
  | simple l form x =>
    rw [stmt, outline_seq, outline_bind_quiet]
    · simp [Part.ofStmt]
    · intro t
      cases form <;> simp
  | inert l form => simp [stmt, Part.ofStmt]
  | branch l test yes no => simp [stmt, Part.ofStmt]
  | loop l testFirst test s => simp [stmt, Part.ofStmt]
  | count l start test step s => simp [stmt, Part.ofStmt]
  | each l object key value s => simp [stmt, Part.ofStmt]
  | switch l value cs => simp [stmt, Part.ofStmt, outline_cases]
  | guarded l s hs last => simp [stmt, Part.ofStmt, outline_handlers]
  | classDef l d => simp [stmt, Part.ofStmt, outline_class?]
  | functionDef l f => simp [stmt, Part.ofStmt, outline_function?]
  | unknown l tag => simp [stmt, Part.ofStmt]

end Outlines

end PhpAudit.Walk
