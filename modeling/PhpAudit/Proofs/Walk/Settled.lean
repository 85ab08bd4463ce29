import PhpAudit.Proofs.Walk.Coverage

/-!
# Settled trees

A tree is **settled** when every node of an unknown kind in it, reached or not, was replaced at its
location by one that does nothing: an expression by the null literal, a statement by the empty one.
A settled node has the form of the node and the settled children of it, but for nodes of an unknown
kind, and so the walk over a settled tree does what the walk over the tree does, up to the first
such node that it reaches (`runs_settled`), and does not stop (`unknowns_settled`).

What shows a taint may hold nodes that the walk leaves out, so it is settled with the tree.
-/

namespace PhpAudit.Tree

mutual

/-- **An expression, settled.** -/
def Expr.settled : Expr → Expr
  | .atom l form => .atom l form
  | .unary l form x => .unary l form (settleOperand x)
  | .binary l form a b => .binary l form (settleOperand a) (settleOperand b)
  | .conditional l test yes no =>
    .conditional l (settleOperand test) (settleOperand yes) (settleOperand no)
  | .list l form ms => .list l form (settleOperands ms)
  | .array l is => .array l (settleItems is)
  | .append l v ls => .append l (settleOperand v) (settleLinks ls)
  | .assignList l each ts v => .assignList l each (settleTargets? ts) (settleOperand v)
  | .call l c as => .call l c.settled (settleOperands as)
  | .closure l f uses => .closure l (settleFunction? f) uses
  | .unknown l _ => .atom l .null

def settleOperand : Option Expr → Option Expr
  | none => none
  | some e => some e.settled

def settleOperands : List (Option Expr) → List (Option Expr)
  | [] => []
  | x :: xs => settleOperand x :: settleOperands xs

def Item.settled : Item → Item
  | .mk k v => .mk (settleOperand k) (settleOperand v)

def settleItems : List Item → List Item
  | [] => []
  | i :: is => i.settled :: settleItems is

def Link.settled : Link → Link
  | .mk l v => .mk l (settleOperand v)

def settleLinks : List Link → List Link
  | [] => []
  | l :: ls => l.settled :: settleLinks ls

def Targets.settled : Targets → Targets
  | .mk l ms => .mk l (settleOperands ms)

def settleTargets? : Option Targets → Option Targets
  | none => none
  | some ts => some ts.settled

def Callee.settled : Callee → Callee
  | .function name qualified => .function name qualified
  | .variableFunction x => .variableFunction (settleOperand x)
  | .method x name => .method (settleOperand x) name
  | .variableMethod x y => .variableMethod (settleOperand x) (settleOperand y)
  | .ownMethod name => .ownMethod name
  | .ownVariableMethod x => .ownVariableMethod (settleOperand x)
  | .classMethod c name => .classMethod c name
  | .virtualMethod name => .virtualMethod name
  | .variableClassMethod x name => .variableClassMethod (settleOperand x) name
  | .classVariableMethod c x => .classVariableMethod c (settleOperand x)
  | .variableClassVariableMethod x y =>
    .variableClassVariableMethod (settleOperand x) (settleOperand y)
  | .constructor c => .constructor c
  | .create c => .create c
  | .createVariable x => .createVariable (settleOperand x)
  | .createVirtual => .createVirtual

/-- **A statement, settled.** -/
def Stmt.settled : Stmt → Stmt
  | .block b => .block b.settled
  | .simple l form x => .simple l form (settleOperand x)
  | .inert l form => .inert l form
  | .branch l test yes no => .branch l (settleOperand test) (settleStmt? yes) (settleStmt? no)
  | .loop l testFirst test s => .loop l testFirst (settleOperand test) (settleStmt? s)
  | .count l start test step s =>
    .count l (settleOperand start) (settleOperand test) (settleOperand step) (settleStmt? s)
  | .each l object key value s =>
    .each l (settleOperand object) (settleOperand key) (settleOperand value) (settleStmt? s)
  | .switch l value cs => .switch l (settleOperand value) (settleCases cs)
  | .guarded l s hs last => .guarded l (settleStmt? s) (settleHandlers hs) (settleStmt? last)
  | .classDef l d => .classDef l (settleClass? d)
  | .functionDef l f => .functionDef l (settleFunction? f)
  | .unknown l _ => .inert l .empty

def settleStmt? : Option Stmt → Option Stmt
  | none => none
  | some s => some s.settled

def settleStmts : List Stmt → List Stmt
  | [] => []
  | s :: ss => s.settled :: settleStmts ss

def Block.settled : Block → Block
  | .mk l ss => .mk l (settleStmts ss)

def Case.settled : Case → Case
  | .mk isDefault tests ss => .mk isDefault (settleOperands tests) (settleStmts ss)

def settleCases : List Case → List Case
  | [] => []
  | c :: cs => c.settled :: settleCases cs

def Handler.settled : Handler → Handler
  | .mk types caught s => .mk types caught (settleStmt? s)

def settleHandlers : List Handler → List Handler
  | [] => []
  | h :: hs => h.settled :: settleHandlers hs

def Param.settled : Param → Param
  | .mk name initial => .mk name (settleOperand initial)

def settleParams : List Param → List Param
  | [] => []
  | p :: ps => p.settled :: settleParams ps

def settleBody? : Option Block → Option Block
  | none => none
  | some b => some b.settled

/-- **A function, settled.** -/
def Function.settled : Function → Function
  | .mk head params b => .mk head (settleParams params) (settleBody? b)

def settleFunction? : Option Function → Option Function
  | none => none
  | some f => some f.settled

def settleFunctions : List Function → List Function
  | [] => []
  | f :: fs => f.settled :: settleFunctions fs

def ClassDef.settled : ClassDef → ClassDef
  | .mk head members => .mk head (settleFunctions members)

def settleClass? : Option ClassDef → Option ClassDef
  | none => none
  | some d => some d.settled

end

/-- **A program, settled.** -/
def Program.settled (p : Program) : Program :=
  ⟨p.file, p.body.settled, p.functions.map Function.settled⟩

/-! ## Settling lists -/

section Maps

theorem eq_map {α β : Type} {f : α → β} {fs : List α → List β} (nil : fs [] = [])
    (cons : ∀ x xs, fs (x :: xs) = f x :: fs xs) (xs : List α) : fs xs = xs.map f := by
  induction xs with
  | nil => exact nil
  | cons x xs ih => rw [cons, ih, List.map_cons]

theorem settleOperands_eq (xs : List (Option Expr)) : settleOperands xs = xs.map settleOperand :=
  eq_map rfl (fun _ _ => rfl) xs

theorem settleItems_eq (is : List Item) : settleItems is = is.map Item.settled :=
  eq_map rfl (fun _ _ => rfl) is

theorem settleLinks_eq (ls : List Link) : settleLinks ls = ls.map Link.settled :=
  eq_map rfl (fun _ _ => rfl) ls

theorem settleStmts_eq (ss : List Stmt) : settleStmts ss = ss.map Stmt.settled :=
  eq_map rfl (fun _ _ => rfl) ss

theorem settleCases_eq (cs : List Case) : settleCases cs = cs.map Case.settled :=
  eq_map rfl (fun _ _ => rfl) cs

theorem settleHandlers_eq (hs : List Handler) : settleHandlers hs = hs.map Handler.settled :=
  eq_map rfl (fun _ _ => rfl) hs

theorem settleParams_eq (ps : List Param) : settleParams ps = ps.map Param.settled :=
  eq_map rfl (fun _ _ => rfl) ps

theorem settleFunctions_eq (fs : List Function) : settleFunctions fs = fs.map Function.settled :=
  eq_map rfl (fun _ _ => rfl) fs

end Maps

end PhpAudit.Tree

namespace PhpAudit.Walk

open PhpAudit.Tree

/-- **A node, settled.** -/
def Node.settled : Node → Node
  | .operand x => .operand (settleOperand x)
  | .statement x => .statement (settleStmt? x)
  | .link l => .link l.settled
  | .targets ts => .targets ts.settled
  | .function f => .function f.settled
  | .classDef d => .classDef d.settled
  | .body b => .body b.settled

/-! ## The form and the children of a settled node -/

theorem targetName?_settled (x : Option Expr) : targetName? (settleOperand x) = targetName? x := by
  cases x with
  | none => rfl
  | some e => cases e <;> rfl

theorem bare_settled (c : Callee) : bare c.settled = bare c := by
  cases c <;> rfl

theorem ofCallee_settled (c : Callee) :
    Part.ofCallee c.settled = (Part.ofCallee c).map settleOperand := by
  cases c <;> rfl

theorem isSome_settleOperand (x : Option Expr) : (settleOperand x).isSome = x.isSome := by
  cases x <;> rfl

/-- **A settled node has the form of the node**, unless that is of an unknown kind. -/
theorem form_settled {n : Node} (known : n.form.tag? = none) : n.settled.form = n.form := by
  cases n with
  | operand x =>
    rcases x with _ | e
    · rfl
    · cases e with
      | unary l form x =>
        simp only [Node.settled, settleOperand, Expr.settled, Node.form, Form.ofExpr,
          isSome_settleOperand]
      | binary l form a b =>
        cases form with
        | assign byReference =>
          simp only [Node.settled, settleOperand, Expr.settled, Node.form, Form.ofExpr,
            targetName?_settled]
        | _ => rfl
      | call l c as =>
        simp only [Node.settled, settleOperand, Expr.settled, Node.form, Form.ofExpr, bare_settled]
      | unknown l tag => cases known
      | _ => rfl
  | statement x =>
    rcases x with _ | s
    · rfl
    · cases s with
      | block b => cases b; rfl
      | switch l value cs =>
        simp only [Node.settled, settleStmt?, Stmt.settled, Node.form, Form.ofStmt, settleCases_eq,
          List.map_map]
        congr 3
        funext c
        cases c
        simp [Case.settled, shape, settleOperands_eq, settleStmts_eq]
      | guarded l s hs last =>
        simp only [Node.settled, settleStmt?, Stmt.settled, Node.form, Form.ofStmt,
          settleHandlers_eq, List.map_map]
        congr 3
        funext h
        cases h
        rfl
      | unknown l tag => cases known
      | _ => rfl
  | link l => cases l; rfl
  | targets ts => cases ts; rfl
  | function f =>
    obtain ⟨head, params, b⟩ := f
    simp only [Node.settled, Function.settled, Node.form, settleParams_eq, List.map_map]
    congr 1
    · congr 1
      funext p
      cases p
      rfl
    · cases b <;> rfl
  | classDef d => cases d; rfl
  | body b => cases b; rfl

theorem operands_settled (xs : List (Option Expr)) :
    (settleOperands xs).map Node.operand = (xs.map Node.operand).map Node.settled := by
  rw [settleOperands_eq, List.map_map, List.map_map]
  rfl

theorem statements_settled (ss : List Stmt) :
    (settleStmts ss).map Node.ofStatement = (ss.map Node.ofStatement).map Node.settled := by
  rw [settleStmts_eq, List.map_map, List.map_map]
  rfl

/-- **The children of a settled expression.** -/
theorem ofExpr_settled (e : Expr) : Node.ofExpr e.settled = (Node.ofExpr e).map Node.settled := by
  cases e with
  | unary l form x =>
    simp only [Expr.settled, Node.ofExpr]
    split <;> rfl
  | binary l form a b => cases form <;> rfl
  | list l form ms => exact operands_settled ms
  | array l is =>
    simp only [Expr.settled, Node.ofExpr, settleItems_eq, List.flatMap_map, List.map_flatMap]
    congr 1
    funext i
    cases i
    rfl
  | append l v ls =>
    simp only [Expr.settled, Node.ofExpr, settleLinks_eq, List.map_map, List.map_cons]
    rfl
  | assignList l each ts v => cases ts <;> rfl
  | call l c as =>
    rw [Expr.settled, Node.ofExpr, Node.ofExpr, ofCallee_settled, ← settleOperands_eq,
      List.map_append, List.map_append, List.map_append, operands_settled, operands_settled]
  | closure l f uses => cases f <;> rfl
  | _ => rfl

/-- **The children of a settled statement.** -/
theorem ofStmt_settled (s : Stmt) : Node.ofStmt s.settled = (Node.ofStmt s).map Node.settled := by
  cases s with
  | block b =>
    obtain ⟨l, ss⟩ := b
    exact statements_settled ss
  | switch l value cs =>
    simp only [Stmt.settled, Node.ofStmt, settleCases_eq, List.flatMap_map, List.map_cons,
      List.map_flatMap]
    congr 2
    funext c
    obtain ⟨isDefault, tests, ss⟩ := c
    rw [Node.ofCase, List.map_append, ← operands_settled, ← statements_settled]
    rfl
  | guarded l s hs last =>
    simp only [Stmt.settled, Node.ofStmt, settleHandlers_eq, List.map_map, List.map_cons,
      List.map_append, List.map_nil]
    congr 3
    funext h
    cases h
    rfl
  | classDef l d => cases d <;> rfl
  | functionDef l f => cases f <;> rfl
  | _ => rfl

/-- **The children of a settled node are those of the node, settled.** -/
theorem children_settled (n : Node) : n.settled.children = n.children.map Node.settled := by
  cases n with
  | operand x =>
    rcases x with _ | e
    · rfl
    · exact ofExpr_settled e
  | statement x =>
    rcases x with _ | s
    · rfl
    · exact ofStmt_settled s
  | link l => cases l; rfl
  | targets ts =>
    obtain ⟨l, ms⟩ := ts
    exact operands_settled ms
  | function f =>
    obtain ⟨head, params, b⟩ := f
    cases b <;> rfl
  | classDef d =>
    obtain ⟨head, members⟩ := d
    simp only [Node.settled, ClassDef.settled, Node.children, settleFunctions_eq, List.map_map]
    rfl
  | body b =>
    obtain ⟨l, ss⟩ := b
    exact statements_settled ss

/-! ## What is in a tree and what is reached -/

theorem leftOut_settled (n : Node) : n.settled.leftOut = n.leftOut.map settleOperand := by
  cases n with
  | operand x =>
    rcases x with _ | e
    · rfl
    · cases e with
      | unary l form x =>
        simp only [Node.settled, settleOperand, Expr.settled, Node.leftOut]
        split <;> rfl
      | binary l form a b => cases form <;> rfl
      | _ => rfl
  | statement x =>
    rcases x with _ | s
    · rfl
    · cases s <;> rfl
  | function f =>
    obtain ⟨head, params, b⟩ := f
    simp only [Node.settled, Function.settled, Node.leftOut, settleParams_eq, List.map_map]
    congr 1
    funext p
    cases p
    rfl
  | _ => rfl

/-- A settled node is of a known kind. -/
theorem tag?_settled (n : Node) : n.settled.form.tag? = none := by
  cases n with
  | operand x =>
    rcases x with _ | e
    · rfl
    · cases e with
      | binary l form a b => cases form <;> rfl
      | _ => rfl
  | statement x =>
    rcases x with _ | s
    · rfl
    · cases s with
      | block b => cases b; rfl
      | _ => rfl
  | link l => cases l; rfl
  | targets ts => cases ts; rfl
  | function f => cases f; rfl
  | classDef d => cases d; rfl
  | body b => cases b; rfl

/-- **Settled nodes reach no node of an unknown kind.** -/
theorem tags_settled (ns : List Node) : tags (ns.map Node.settled) = [] := by
  induction ns using Node.forest_induction with
  | nil => rfl
  | cons n ns below rest =>
    rw [List.map_cons, tags_cons, rest, tags_node, tag?_settled, children_settled, below]
    rfl

section Below

theorem map_eq_self {α : Type} {f : α → α} {xs : List α} : xs.map f = xs ↔ ∀ x ∈ xs, f x = x := by
  conv_lhs => rw [← List.map_id' xs, List.map_map]
  exact List.map_inj_left

theorem settleOperands_eq_self {xs : List (Option Expr)}
    (h : ∀ c ∈ xs.map Node.operand, c.settled = c) : settleOperands xs = xs := by
  rw [settleOperands_eq]
  exact map_eq_self.mpr fun x hx => Node.operand.inj (h _ (List.mem_map_of_mem hx))

theorem settleStmts_eq_self {ss : List Stmt} (h : ∀ c ∈ ss.map Node.ofStatement, c.settled = c) :
    settleStmts ss = ss := by
  rw [settleStmts_eq]
  refine map_eq_self.mpr fun s hs => ?_
  exact Option.some.inj (Node.statement.inj (h _ (List.mem_map_of_mem hs)))

theorem callee_settled_eq_self {c : Callee} (h : ∀ x ∈ Part.ofCallee c, settleOperand x = x) :
    c.settled = c := by
  cases c <;> simp_all [Callee.settled, Part.ofCallee]

theorem expr_settled_eq_self {e : Expr} (known : (Form.ofExpr e).tag? = none)
    (below : ∀ c ∈ Node.ofExpr e, c.settled = c)
    (out : ∀ x ∈ (Node.operand (some e)).leftOut, settleOperand x = x) : e.settled = e := by
  cases e with
  | atom l a => rfl
  | unary l form x =>
    simp only [Node.ofExpr, Node.leftOut] at below out
    split at below <;> simp_all [Node.settled, Expr.settled]
  | binary l form a b =>
    cases form <;> simp_all [Node.settled, Expr.settled, Node.ofExpr, Node.leftOut]
  | conditional l test yes no => simp_all [Node.settled, Expr.settled, Node.ofExpr]
  | list l form ms => rw [Expr.settled, settleOperands_eq_self below]
  | array l is =>
    rw [Expr.settled, settleItems_eq, map_eq_self.mpr]
    intro i hi
    obtain ⟨k, v⟩ := i
    have key := below (.operand k) (List.mem_flatMap.mpr ⟨_, hi, by simp [Node.ofItem]⟩)
    have value := below (.operand v) (List.mem_flatMap.mpr ⟨_, hi, by simp [Node.ofItem]⟩)
    rw [Item.settled, Node.operand.inj key, Node.operand.inj value]
  | append l v ls =>
    obtain ⟨first, rest⟩ := List.forall_mem_cons.mp below
    rw [Expr.settled, Node.operand.inj first, settleLinks_eq, map_eq_self.mpr]
    exact fun k hk => Node.link.inj (rest _ (List.mem_map_of_mem hk))
  | assignList l each ts v =>
    cases ts <;> simp_all [Node.settled, Expr.settled, Node.ofExpr, settleTargets?]
  | call l c as =>
    simp only [Node.ofExpr, List.map_append, List.forall_mem_append] at below
    rw [Expr.settled, settleOperands_eq_self below.2, callee_settled_eq_self]
    exact fun x hx => Node.operand.inj (below.1 _ (List.mem_map_of_mem hx))
  | closure l f uses =>
    cases f <;> simp_all [Node.settled, Expr.settled, Node.ofExpr, settleFunction?]
  | unknown l tag => cases known

theorem stmt_settled_eq_self {s : Stmt} (known : (Form.ofStmt s).tag? = none)
    (below : ∀ c ∈ Node.ofStmt s, c.settled = c)
    (out : ∀ x ∈ (Node.ofStatement s).leftOut, settleOperand x = x) : s.settled = s := by
  cases s with
  | block b =>
    obtain ⟨l, ss⟩ := b
    rw [Stmt.settled, Block.settled, settleStmts_eq_self below]
  | switch l value cs =>
    obtain ⟨first, rest⟩ := List.forall_mem_cons.mp below
    rw [Stmt.settled, Node.operand.inj first, settleCases_eq, map_eq_self.mpr]
    intro c hc
    obtain ⟨isDefault, tests, ss⟩ := c
    have inside := fun n hn => rest n (List.mem_flatMap.mpr ⟨_, hc, hn⟩)
    obtain ⟨htests, hss⟩ := List.forall_mem_append.mp inside
    rw [Case.settled, settleOperands_eq_self htests, settleStmts_eq_self hss]
  | guarded l s hs last =>
    simp only [Node.ofStmt, List.cons_append, List.forall_mem_cons, List.forall_mem_append] at below
    obtain ⟨first, handlers, final, -⟩ := below
    rw [Stmt.settled, Node.statement.inj first, Node.statement.inj final, settleHandlers_eq,
      map_eq_self.mpr]
    intro h hh
    have inside := handlers _ (List.mem_map_of_mem hh)
    obtain ⟨types, caught, s⟩ := h
    rw [Handler.settled, Node.statement.inj inside]
  | classDef l d => cases d <;> simp_all [Node.settled, Stmt.settled, Node.ofStmt, settleClass?]
  | functionDef l f =>
    cases f <;> simp_all [Node.settled, Stmt.settled, Node.ofStmt, settleFunction?]
  | unknown l tag => cases known
  | _ => simp_all [Node.settled, Stmt.settled, Node.ofStmt, Node.ofStatement, Node.leftOut]

/-- A node of a known kind is settled when its children and what is left out at it are. -/
theorem settled_eq_of_below {n : Node} (known : n.form.tag? = none)
    (below : ∀ c ∈ n.children, c.settled = c) (out : ∀ x ∈ n.leftOut, settleOperand x = x) :
    n.settled = n := by
  cases n with
  | operand x =>
    rcases x with _ | e
    · rfl
    · exact congrArg (Node.operand ∘ some) (expr_settled_eq_self known below out)
  | statement x =>
    rcases x with _ | s
    · rfl
    · exact congrArg (Node.statement ∘ some) (stmt_settled_eq_self known below out)
  | link l =>
    obtain ⟨l, v⟩ := l
    simp_all [Node.settled, Node.children, Link.settled]
  | targets ts =>
    obtain ⟨l, ms⟩ := ts
    rw [Node.settled, Targets.settled, settleOperands_eq_self below]
  | function f =>
    obtain ⟨head, params, b⟩ := f
    have defaults : settleParams params = params := by
      rw [settleParams_eq]
      refine map_eq_self.mpr fun p hp => ?_
      have initial := out _ (List.mem_map_of_mem hp)
      obtain ⟨name, x⟩ := p
      exact congrArg (Param.mk name) initial
    rw [Node.settled, Function.settled, defaults]
    cases b with
    | none => rfl
    | some b => rw [settleBody?, Node.body.inj (below _ (List.mem_singleton_self _))]
  | classDef d =>
    obtain ⟨head, members⟩ := d
    rw [Node.settled, ClassDef.settled, settleFunctions_eq, map_eq_self.mpr]
    exact fun f hf => Node.function.inj (below _ (List.mem_map_of_mem hf))
  | body b =>
    obtain ⟨l, ss⟩ := b
    rw [Node.settled, Block.settled, settleStmts_eq_self below]

/-- **Every node in a tree is reached or left out**: a tree without nodes of an unknown kind is one
that reaches none, and leaves out no expression that has one. -/
theorem settled_eq_self_iff (n : Node) :
    n.settled = n ↔ tags [n] = [] ∧ ∀ r ∈ n.reached, ∀ x ∈ r.leftOut, settleOperand x = x := by
  induction n using Node.induction with | step n ih
  refine ⟨fun settled => ?_, fun ⟨known, out⟩ => ?_⟩
  · have below : ∀ c ∈ n.children, c.settled = c := by
      rw [← map_eq_self, ← children_settled, settled]
    have here : ∀ x ∈ n.leftOut, settleOperand x = x := by
      rw [← map_eq_self, ← leftOut_settled, settled]
    refine ⟨settled ▸ tags_settled [n], fun r hr => ?_⟩
    rw [Node.reached_eq, List.mem_cons, List.mem_flatMap] at hr
    obtain rfl | ⟨c, hc, hr⟩ := hr
    · exact here
    · exact ((ih c hc).mp (below c hc)).2 r hr
  · rw [tags_node, List.append_eq_nil_iff, Option.toList_eq_nil_iff] at known
    rw [Node.reached_eq, List.forall_mem_cons] at out
    refine settled_eq_of_below known.1 (fun c hc => (ih c hc).mpr ⟨?_, fun r hr => ?_⟩) out.1
    · exact tags_eq_nil_iff.mp known.2 c hc
    · exact out.2 r (List.mem_flatMap_of_mem hc hr)

end Below

/-! ## The walk over a settled tree -/

mutual

/-- A settled expression has the static path of the expression. -/
theorem path_settled (file : Text) (e : Expr) :
    StaticPath.ofExpr file e.settled = StaticPath.ofExpr file e := by
  cases e with
  | append l v ls =>
    simp only [Expr.settled, StaticPath.ofExpr, path_settleOperand file v, path_settleLinks file ls]
  | call l c as =>
    cases c with
    | function name qualified =>
      simp only [Expr.settled, Callee.settled, StaticPath.ofExpr, path_settleOnly file as]
    | _ => simp only [Expr.settled, Callee.settled, StaticPath.ofExpr]
  | atom l a => rfl
  | _ => simp only [Expr.settled, StaticPath.ofExpr]

theorem path_settleOperand (file : Text) (x : Option Expr) :
    StaticPath.ofOperand file (settleOperand x) = StaticPath.ofOperand file x := by
  cases x with
  | none => rfl
  | some e => exact path_settled file e

theorem path_settleOnly (file : Text) (xs : List (Option Expr)) :
    StaticPath.ofOnly file (settleOperands xs) = StaticPath.ofOnly file xs := by
  rcases xs with _ | ⟨x, _ | ⟨y, xs⟩⟩
  · rfl
  · exact path_settleOperand file x
  · rfl

theorem path_settleLinks (file : Text) (ls : List Link) :
    StaticPath.ofLinks file (settleLinks ls) = StaticPath.ofLinks file ls := by
  rcases ls with _ | ⟨⟨l, v⟩, ls⟩
  · rfl
  · simp only [settleLinks, Link.settled, StaticPath.ofLinks, path_settleOperand file v,
      path_settleLinks file ls]

end

theorem operand?_settled (e : Expr) : operand? e.settled = settleOperand (operand? e) := by
  cases e <;> rfl

/-- **A walk and the walk over the settled tree**, which goes on where the first is stopped. -/
def settling (m : Mitigations) : Comparison m m :=
  .exact m (fun e e' => e' = e.settled) [] True
    (fun same => by rw [same, operand?_settled, isSome_settleOperand])
    (fun same file => by rw [same, operand?_settled, path_settleOperand])

/-- A walk that is stopped at once agrees with any that may go on. -/
theorem agrees_of_tag {m : Mitigations} {a : Node} {tag : Text} (unknown : a.form.tag? = some tag)
    {w : Walk Taint} : (settling m).Agrees 0 (settling m).taint (a.walk m) w := by
  intro s s' _
  have stopped : ∃ (t : Scope) (e : CoverageError), a.walk m s = ⟨[], t, .error e⟩ := by
    rw [walk_eq_around, children_of_tag unknown]
    generalize a.form = f at unknown
    cases f with
    | unknown l tag => exact ⟨_, _, rfl⟩
    | _ => cases unknown
  obtain ⟨t, e, stopped⟩ := stopped
  have nothing : w s' = ⟨[] ++ (w s').events, (w s').scope, (w s').value⟩ := rfl
  rw [stopped, nothing]
  exact .stopped .nil (.inl trivial)

theorem self_settled (n : Node) : n.settled.self = n.self.settled := by
  cases n with
  | operand x => cases x <;> rfl
  | _ => rfl

/-- Settled nodes differ from the nodes only where those are of an unknown kind. -/
theorem variants_settled (m : Mitigations) (ns : List Node) :
    (settling m).Variants (fun n a _ => n = 0 ∧ a.form.tag? ≠ none) 0 ns (ns.map Node.settled) := by
  induction ns using Node.forest_induction with
  | nil => exact .nil
  | cons n ns below rest =>
    -- a node of an unknown kind is replaced as a whole, any other keeps its form
    by_cases known : n.form.tag? = none
    · refine .node (form_settled known).symm (self_settled n) ?_ rest
      rw [children_settled]
      exact below
    · exact .replace ⟨rfl, known⟩ rest

/-- **The walk over settled nodes** does what the walk over the nodes does, and may go on. -/
theorem agrees_settled (m : Mitigations) (ns : List Node) :
    (settling m).Agrees 0 (List.Forall₂ (settling m).taint) (visit m ns)
      (visit m (ns.map Node.settled)) := by
  refine Comparison.Variants.agrees (fun n a a' replaced => ?_) (variants_settled m ns)
  obtain ⟨rfl, unknown⟩ := replaced
  obtain ⟨tag, unknown⟩ := Option.ne_none_iff_exists'.mp unknown
  exact agrees_of_tag unknown

/-- **The course of a settled program** does what that of the program does, and may go on. -/
theorem runs_settled (m : Mitigations) (p : Program) :
    (settling m).Runs (course m p) (course m p.settled) := by
  refine Comparison.runs_course rfl (agrees_settled m [.ofStatement (.block p.body)]) ?_
  rw [Program.settled, List.forall₂_map_right_iff, List.forall₂_same]
  intro f _
  refine ⟨?_, agrees_settled m [.function f]⟩
  cases f
  rfl

/-- **A settled program reaches no node of an unknown kind.** -/
theorem unknowns_settled (p : Program) : unknowns p.settled = [] := by
  refine tags_eq_nil_iff.mpr (List.forall_mem_cons.mpr ⟨?_, List.forall_mem_map.mpr fun f hf => ?_⟩)
  · exact tags_settled [.ofStatement (.block p.body)]
  · obtain ⟨g, -, rfl⟩ := List.mem_map.mp ((fresh_sublist _ _).subset hf)
    exact tags_settled [.function g]

end PhpAudit.Walk
