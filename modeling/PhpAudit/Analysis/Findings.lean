import PhpAudit.Analysis.Catalog
import PhpAudit.Walk.Event

/-!
# Findings

A **finding** is a value that reaches a sink with risks that the sink is sensitive to, that the
operator wants reported, and that were not mitigated. `Finding.of?` decides it for one value; it is
the only place where dangers and interest count.

A collection keeps findings and include sites in the order in which they were met.
-/

namespace PhpAudit

open PhpAudit.Tree (Expr)

/-- **A finding.** Its risks are never empty. -/
structure Finding where
  loc : Location
  sink : Text
  risks : RiskSet
  witness : Option Expr

/-- The finding as text. -/
def Finding.text (f : Finding) : Text :=
  f.sink ++ " = " ++ f.risks.text ++ ", at " ++ f.loc.text ++ ", via expression: " ++
    Tree.printOperand f.witness

/-- What is reported: the catalog, and the risks of interest. -/
structure Policy where
  catalog : Catalog
  interest : RiskSet

/-- **Judges a value that reaches a sink**: the finding, if it is one, and the message for the log. -/
def Policy.judge (p : Policy) (loc : Location) (name : Text) (t : Taint) :
    Option Finding × Message :=
  match p.catalog.dangers? name with
  | none =>
    (none, ⟨.debug, "No risk information known for method: " ++ name ++ ", at " ++ loc.text⟩)
  | some dangers =>
    let risks := (t.risks.inter p.interest).inter dangers
    if risks.isEmpty then
      (none, ⟨.debug, "All risks for method mitigated: " ++ name ++ ", at " ++ loc.text⟩)
    else
      let f : Finding := ⟨loc, name, risks, t.witness⟩
      (some f, ⟨.warn, "Unmitigated risks for method: " ++ f.text⟩)

/-- The message about an include site. -/
def IncludeSite.message (s : IncludeSite) : Message :=
  if s.resolved then ⟨.trace, "Include of " ++ s.target ++ " at " ++ s.loc.text⟩
  else ⟨.debug, "Include with a dynamic target at " ++ s.loc.text⟩

/-- **The findings and include sites** met so far, in order. -/
structure Collection where
  findings : List Finding
  includes : List IncludeSite

namespace Collection

/-- Nothing collected. -/
def empty : Collection := ⟨[], []⟩

/-- Adds what a value at a sink gives. -/
def sink (c : Collection) (p : Policy) (loc : Location) (name : Text) (t : Taint) :
    Collection × List Message :=
  let (found, message) := p.judge loc name t
  ({ c with findings := c.findings ++ found.toList }, [message])

/-- Adds an include site. -/
def inclusion (c : Collection) (s : IncludeSite) : Collection × List Message :=
  ({ c with includes := c.includes ++ [s] }, [s.message])

/-- Appends another collection. -/
def merge (c other : Collection) : Collection :=
  ⟨c.findings ++ other.findings, c.includes ++ other.includes⟩

end Collection

end PhpAudit
