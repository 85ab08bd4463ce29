import PhpAudit.Text.Glyph

/-!
# Integers as they are spelled

An integer is spelled with an optional sign and digits of a base. The base is told by how the digits
start: `0x`, `0o` and `0b` mark bases sixteen, eight and two, a zero alone marks base eight, and all
else is base ten. On a command line digits may be grouped with underscores; the value must fit into
64 bits.
-/

namespace PhpAudit.Integer

/-- The value of a digit or letter in a base up to thirty-six. -/
def digit? (c : Char) : Option Nat :=
  if c.isDigit then some (c.toNat - '0'.toNat)
  else if c.isLower then some (c.toNat - 'a'.toNat + 10)
  else if c.isUpper then some (c.toNat - 'A'.toNat + 10)
  else none

/-- The number of some digits of a base, all of them digits. -/
def digitsIn? (base : Nat) (cs : List Char) : Option Nat :=
  cs.foldlM (fun n c => (digit? c).bind fun d => if d < base then some (n * base + d) else none) 0

/-- **The base** of a spelling without sign, and its digits without the mark of the base. -/
def splitBase : List Char → Nat × List Char
  | '0' :: p :: d :: ds =>
    if p == 'x' || p == 'X' then (16, d :: ds)
    else if p == 'o' || p == 'O' then (8, d :: ds)
    else if p == 'b' || p == 'B' then (2, d :: ds)
    else (8, p :: d :: ds)
  | '0' :: ds => (8, ds)
  | ds => (10, ds)

/-- Splits a sign off: whether it is a minus, and the rest. -/
def splitSign : List Char → Bool × List Char
  | '-' :: cs => (true, cs)
  | '+' :: cs => (false, cs)
  | cs => (false, cs)

/-- Why a spelling is refused. -/
inductive Fault where
  | malformed
  | outOfRange
deriving DecidableEq, Repr

/-- The number of digits and underscores, from the number read so far. A number that is too large is
found before a later character that is no digit. -/
def magnitude (base : Nat) : List Char → Nat → Except Fault Nat
  | [], n => .ok n
  | c :: cs, n =>
    if c = '_' then magnitude base cs n
    else match digit? c with
      | none => .error .malformed
      | some d =>
        if base ≤ d then .error .malformed
        else if Nat.pow 2 64 ≤ n * base + d then .error .outOfRange
        else magnitude base cs (n * base + d)

/-- Each underscore stands between two other characters. -/
def isGrouped : List Char → Bool
  | [] => true
  | [c] => c != '_'
  | c :: d :: cs => !(c == '_' && d == '_') && isGrouped (d :: cs)

/-- The underscores of digits group them: none comes first, last, or after another. -/
def hasGroups (cs : List Char) : Bool := cs.head? != some '_' && isGrouped cs

/-- **A signed 64-bit integer** from its spelling. -/
def parse (t : Text) : Except Fault Int := do
  let (negative, cs) := splitSign t.shown
  if cs.isEmpty then throw .malformed
  let (base, ds) := splitBase cs
  let n ← magnitude base ds 0
  if !hasGroups cs then throw .malformed
  if negative then
    if Nat.pow 2 63 < n then throw .outOfRange
    return -n
  else
    if Nat.pow 2 63 ≤ n then throw .outOfRange
    return n

end PhpAudit.Integer
