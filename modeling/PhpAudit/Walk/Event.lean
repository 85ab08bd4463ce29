import PhpAudit.Include.Site
import PhpAudit.Log
import PhpAudit.Taint.Basic
import PhpAudit.Usage.Identity

/-!
# Events of a walk

A walk over a tree reports what it meets, in order: values that reach a sink, includes, uses and
declarations of names, and remarks for the log. What becomes of an event (a finding, an unused
declaration, nothing) is decided by whoever reads the events; the walk itself does not know.
-/

namespace PhpAudit

open PhpAudit.Tree (FunctionHead ClassHead)

/-- **What a walk reports.** -/
inductive Event where
  /-- A value of this taint reaches the sink of this name. -/
  | sink (loc : Location) (name : Text) (taint : Taint)
  | inclusion (site : IncludeSite)
  | use (identity : Identity)
  | function (head : FunctionHead)
  | classDef (head : ClassHead)
  | remark (message : Message)

/-- **Why a walk stops**: a node of a kind that the walk does not know. Going on could hide a sink. -/
structure CoverageError where
  kind : Text
  /-- The location of the node, or the last known one before it. -/
  loc : Location
deriving DecidableEq, Repr

/-- The wording of the error. -/
def CoverageError.message (e : CoverageError) : Text :=
  "unknown node kind " ++ Text.quoted e.kind ++ " at " ++ e.loc.text

end PhpAudit
