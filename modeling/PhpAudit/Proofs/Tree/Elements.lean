import PhpAudit.Tree.Basic

/-!
# The elements of a tree

An **element** is anything in a tree that has a location of its own: an expression, a statement, a
function record, a class record. `parts` lists the elements directly below one. Unlike a walk of the
analysis, it leaves nothing out: the targets of assignments and the defaults of parameters are parts
as well.

What stands in a tree under another type is listed as the element it is when written out: the targets
of a list assignment are an expression, what is left of a concatenation is a concatenation, and the
body of a function or of a case is a block. The body of a case has no place of its own.

`Holds` says that an element is at or below one of some elements, at any depth.
-/

namespace PhpAudit.Tree

/-- **What has a location in a tree.** -/
inductive Element where
  | expr (e : Expr)
  | stmt (s : Stmt)
  | function (f : Function)
  | classDef (c : ClassDef)

namespace Element

/-- The location of an element. -/
def loc : Element → Location
  | .expr e => e.loc
  | .stmt s => s.loc
  | .function f => f.head.loc
  | .classDef c => c.head.loc

/-! ## Parts -/

/-- An operand that is there. -/
def ofOperand (e : Option Expr) : List Element := (e.map Element.expr).toList

/-- The operands that are there. -/
def ofOperands (es : List (Option Expr)) : List Element := es.flatMap ofOperand

/-- A statement that is there. -/
def ofStatement (s : Option Stmt) : List Element := (s.map Element.stmt).toList

/-- A function record that is there. -/
def ofDefinition (f : Option Function) : List Element := (f.map Element.function).toList

/-- A class record that is there. -/
def ofClass (c : Option ClassDef) : List Element := (c.map Element.classDef).toList

/-- The targets of a list assignment, as the expression they are when written out. -/
def ofTargets : Option Targets → List Element
  | none => []
  | some (.mk l ms) => [.expr (.list l .targets ms)]

/-- The key and the value of an entry. -/
def ofItem : Item → List Element
  | .mk k v => ofOperand k ++ ofOperand v

/-- What is left of a concatenation. -/
def ofLinks : List Link → List Element
  | [] => []
  | .mk l v :: rest => [.expr (.append l v rest)]

/-- The expressions of a callee. -/
def ofCallee : Callee → List Element
  | .function _ _ | .ownMethod _ | .classMethod _ _ | .virtualMethod _ | .constructor _ | .create _
  | .createVirtual => []
  | .variableFunction e | .method e _ | .ownVariableMethod e | .variableClassMethod e _
  | .classVariableMethod _ e | .createVariable e => ofOperand e
  | .variableMethod e n | .variableClassVariableMethod e n => ofOperand e ++ ofOperand n

/-- The tests of a case, and its body as a block without a place. -/
def ofCase : Case → List Element
  | .mk _ ts ss => ofOperands ts ++ [.stmt (.block (.mk .unknown ss))]

/-- The body of a handler. -/
def ofHandler : Handler → List Element
  | .mk _ _ b => ofStatement b

/-- The default of a parameter. -/
def ofParam : Param → List Element
  | .mk _ e => ofOperand e

/-- The parts of an expression. -/
def ofExpr : Expr → List Element
  | .atom _ _ | .unknown _ _ => []
  | .unary _ _ e => ofOperand e
  | .binary _ _ a b => ofOperand a ++ ofOperand b
  | .conditional _ t y n => ofOperand t ++ ofOperand y ++ ofOperand n
  | .list _ _ es => ofOperands es
  | .array _ is => is.flatMap ofItem
  | .append _ v rest => ofOperand v ++ ofLinks rest
  | .assignList _ _ ts v => ofTargets ts ++ ofOperand v
  | .call _ c as => ofCallee c ++ ofOperands as
  | .closure _ d _ => ofDefinition d

/-- The parts of a statement. -/
def ofStmt : Stmt → List Element
  | .block b => b.stmts.map .stmt
  | .simple _ _ e => ofOperand e
  | .inert _ _ | .unknown _ _ => []
  | .branch _ t y n => ofOperand t ++ ofStatement y ++ ofStatement n
  | .loop _ true t b => ofOperand t ++ ofStatement b
  | .loop _ false t b => ofStatement b ++ ofOperand t
  | .count _ i t s b => ofOperand i ++ ofOperand t ++ ofOperand s ++ ofStatement b
  | .each _ o k v b => ofOperand o ++ ofOperand k ++ ofOperand v ++ ofStatement b
  | .switch _ v cs => ofOperand v ++ cs.flatMap ofCase
  | .guarded _ b hs l => ofStatement b ++ ofStatement l ++ hs.flatMap ofHandler
  | .classDef _ c => ofClass c
  | .functionDef _ f => ofDefinition f

/-- **The elements directly below one.** -/
def parts : Element → List Element
  | .expr e => ofExpr e
  | .stmt s => ofStmt s
  | .function (.mk _ ps b) => ps.flatMap ofParam ++ ofStatement (b.map .block)
  | .classDef (.mk _ ms) => ms.map .function

@[simp] theorem ofOperand_none : ofOperand none = [] := rfl

@[simp] theorem ofOperands_nil : ofOperands [] = [] := rfl

@[simp] theorem ofOperands_cons (e : Option Expr) (es : List (Option Expr)) :
    ofOperands (e :: es) = ofOperand e ++ ofOperands es := rfl

@[simp] theorem ofStatement_none : ofStatement none = [] := rfl

/-- What is left out of a list is no element. -/
theorem map_filterMap_id {α : Type} (form : α → Element) (xs : List (Option α)) :
    (xs.filterMap id).map form = xs.flatMap fun x => (x.map form).toList := by
  induction xs with
  | nil => rfl
  | cons x xs ih => cases x <;> simpa using ih

end Element

/-! ## Being held -/

/-- **An element is at or below one of some elements.** -/
inductive Holds : List Element → Element → Prop where
  | here {xs : List Element} {x : Element} : x ∈ xs → Holds xs x
  | inside {xs : List Element} {x y : Element} : x ∈ xs → Holds x.parts y → Holds xs y

namespace Holds

variable {xs ys zs : List Element} {x y z : Element}

theorem mono (sub : xs ⊆ ys) (h : Holds xs x) : Holds ys x := by
  cases h with
  | here hx => exact .here (sub hx)
  | inside hy h => exact .inside (sub hy) h

/-- What is held below a held element is held. -/
theorem trans (h : Holds xs y) (below : Holds y.parts z) : Holds xs z := by
  induction h with
  | here hx => exact .inside hx below
  | inside hx _ ih => exact .inside hx (ih below)

theorem not_nil : ¬ Holds [] x := by
  rintro (h | ⟨h, -⟩) <;> simp at h

theorem singleton_iff : Holds [x] y ↔ y = x ∨ Holds x.parts y := by
  constructor
  · rintro (h | ⟨h, below⟩)
    · exact .inl (List.mem_singleton.1 h)
    · exact .inr (List.mem_singleton.1 h ▸ below)
  · rintro (rfl | below)
    · exact .here (List.mem_singleton_self _)
    · exact .inside (List.mem_singleton_self _) below

theorem append_iff : Holds (xs ++ ys) x ↔ Holds xs x ∨ Holds ys x := by
  constructor
  · rintro (h | ⟨h, below⟩)
    · exact (List.mem_append.1 h).imp .here .here
    · exact (List.mem_append.1 h).imp (.inside · below) (.inside · below)
  · rintro (h | h)
    · exact h.mono (List.subset_append_left xs ys)
    · exact h.mono (List.subset_append_right xs ys)

/-- To hold everything that is held, it is enough to hold what holds it. -/
theorem of_forall (sub : ∀ z ∈ zs, Holds ys z) (h : Holds zs x) : Holds ys x := by
  cases h with
  | here hx => exact sub x hx
  | inside hy below => exact (sub _ hy).trans below

end Holds

/-- The elements a program starts from: its statements, and the functions listed beside them. -/
def Program.roots (p : Program) : List Element := .stmt (.block p.body) :: p.functions.map .function

end PhpAudit.Tree
