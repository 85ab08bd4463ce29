import PhpAudit.Text.Basic

/-!
# Locations

A **location** is a place in the analysed sources: a file, a line counted from one, and the class
and function around it. A line that is not positive means that the place is unknown.
-/

namespace PhpAudit

/-- **A place in the sources.** -/
structure Location where
  file : Text
  line : Int
  className : Text
  function : Text
deriving DecidableEq, Repr, Inhabited

namespace Location

/-- The location of a node the parser did not place. -/
def unknown : Location := ⟨"", 0, "", ""⟩

/-- No line is known. -/
def isUnknown (l : Location) : Bool := decide (l.line ≤ 0)

/-- The location as text: file, line, and the class and function around it when there are any. -/
def text (l : Location) : Text :=
  if l.isUnknown then "<unknown location>"
  else
    let place := l.file ++ ":" ++ toString l.line
    if l.className = "" then
      if l.function = "" then place else place ++ " (" ++ l.function ++ ")"
    else if l.function = "" then place ++ " (" ++ l.className ++ ")"
    else place ++ " (" ++ l.className ++ "::" ++ l.function ++ ")"

/-- The first location when it is known, the second otherwise. -/
def orElse (l last : Location) : Location := if l.isUnknown then last else l

@[simp] theorem isUnknown_unknown : unknown.isUnknown = true := rfl

end Location

end PhpAudit
