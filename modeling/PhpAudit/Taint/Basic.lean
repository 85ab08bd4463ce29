import PhpAudit.Risk
import PhpAudit.Tree.Print

/-!
# Taint

The **taint** of a value is the set of risks it may carry, and a witness: the expression that best
shows them. Merging two taints unites their risks; the witness of the second takes over when it
shows more risks than the first had, or when the first has none. Merging is not commutative.
-/

namespace PhpAudit

open PhpAudit.Tree (Expr)

/-- **The taint of a value.** -/
structure Taint where
  risks : RiskSet
  witness : Option Expr

namespace Taint

/-- No risk at all. -/
def none (witness : Option Expr) : Taint := ⟨∅, witness⟩

/-- Every risk: a value about which nothing is known. -/
def every (witness : Option Expr) : Taint := ⟨.all, witness⟩

/-- The taint with some risks added. -/
def add (t : Taint) (s : RiskSet) : Taint := { t with risks := t.risks.union s }

/-- The taint with some risks taken away. -/
def remove (t : Taint) (s : RiskSet) : Taint := { t with risks := t.risks.diff s }

/-- The same risks, shown by another expression. -/
def shownBy (t : Taint) (e : Expr) : Taint := { t with witness := some e }

/-- **Merges** two taints. -/
def merge (first second : Taint) : Taint where
  risks := first.risks.union second.risks
  witness :=
    match second.witness with
    | some w =>
      if second.risks.size > first.risks.size ∨ first.witness.isNone then some w else first.witness
    | Option.none => first.witness

/-- The taint as text. -/
def text (t : Taint) : Text :=
  t.risks.text ++ " via " ++ Tree.printOperand t.witness

@[simp] theorem risks_merge (a b : Taint) : (a.merge b).risks = a.risks.union b.risks := rfl

end Taint

end PhpAudit
