import PhpAudit.Yaml.Source

/-!
# Comments

A comment goes from its mark to the end of the line. After a comment the next one is looked for, over
spaces, tabs and blank lines, at most 511 characters ahead: comments that follow each other are passed
together, so a comment after another may be indented with tabs. Only breaks of ASCII are looked over.
Behind a token a comment is looked for on the same line only.
-/

namespace PhpAudit.Yaml

open Scan (need head lineBreak)

/-- How far ahead a comment starts, looked for over characters of a kind from `n` places ahead on, at
most `fuel` times. -/
def commentAhead (passes : Char → Bool) : Nat → Nat → Scan (Option Nat)
  | 0, _ => return none
  | fuel + 1, n => do
    need (n + 1)
    match ← Scan.peek n with
    | some c =>
      if c == '#' then return some n
      else if passes c then commentAhead passes fuel (n + 1)
      else return none
    | none => return none

/-- The characters within which a comment is looked for. -/
def commentReach : Nat := 512

/-- Past spaces and breaks up to an index. -/
def passTo (index : Nat) : Nat → Scan Unit
  | 0 => return ()
  | fuel + 1 => do
    need 1
    if (← Scan.mark).index < index then
      if (← head).any isBreak then
        need 2
        let _ ← lineBreak
      else Scan.skip
      passTo index fuel

/-- Past a comment that starts some places ahead, to the end of its line. -/
def passComment (n : Nat) : Scan Unit := do
  passTo ((← Scan.mark).index + n) (n + 1)
  Scan.skipLine

/-- A space, a tab, or a break of ASCII. -/
def isBlankLineChar (c : Char) : Bool := isSpace c || c == '\n' || c == '\r'

/-- Past a comment, which starts at most `n` places ahead, and those after it. -/
def skipCommentsFrom : Nat → Nat → Scan Unit
  | 0, _ => return ()
  | fuel + 1, n => do
    match ← commentAhead isBlankLineChar (commentReach - n) n with
    | none => return ()
    | some n =>
      passComment n
      if (← head).all isBlankLineChar then skipCommentsFrom fuel 1

/-- **Past the comments here**: the first starts at the cursor. -/
def skipComments : Scan Unit := do skipCommentsFrom (← Scan.bound) 0

/-- **Past the comment behind a token**, unless a line was ended since. -/
def skipLineComment : Scan Unit := do
  if (← get).breaks == 0 then
    match ← commentAhead isSpace commentReach 0 with
    | none => return ()
    | some n => passComment n

end PhpAudit.Yaml
