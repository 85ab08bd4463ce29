/-!
# Rounding to 64-bit binary floating point

A positive quotient is rounded to the nearest number with a significand of at most 53 bits and an
exponent of at least −1074; a tie goes to the even significand. A quotient that rounds to 2^1024 or
more is out of range. Only what a document's numbers need is here: rounding, and the integer part of
a rounded number.
-/

namespace PhpAudit

/-- **A floating point number**: signed significand times a power of two, an infinity, or no number
at all. -/
inductive Binary64 where
  | finite (negative : Bool) (significand : Nat) (exponent : Int)
  | infinite (negative : Bool)
  | nan
deriving DecidableEq, Repr, Inhabited

namespace Binary64

/-- A quotient rounded to the nearest integer, a tie to the even one. -/
def roundDiv (num den : Nat) : Nat :=
  let q := num / den
  let r := num % den
  if 2 * r < den then q
  else if 2 * r > den then q + 1
  else q + q % 2

/-- The exponent that gives a positive quotient a significand of 53 bits, or the least one. -/
def exponentOf (num den : Nat) : Int :=
  let guess : Int := (Nat.log2 num : Int) - Nat.log2 den
  let scaled (e : Int) : Bool := -- the quotient is at least 2^e
    if e ≥ 0 then num ≥ den * Nat.pow 2 e.toNat else num * Nat.pow 2 (-e).toNat ≥ den
  let top := if scaled guess then guess else guess - 1
  max (top - 52) (-1074)

/-- **A quotient as a floating point number**; `none` when it is out of range. -/
def ofQuotient? (negative : Bool) (num den : Nat) : Option Binary64 :=
  if num = 0 then some (.finite negative 0 0)
  else
    let e := exponentOf num den
    let m :=
      if e ≥ 0 then roundDiv num (den * Nat.pow 2 e.toNat)
      else roundDiv (num * Nat.pow 2 (-e).toNat) den
    if (Nat.log2 m : Int) + e ≥ 1024 then none else some (.finite negative m e)

/-- **A decimal number**: digits times a power of ten. Powers far out of range are not computed. -/
def ofDecimal? (negative : Bool) (digits : Nat) (exponent : Int) : Option Binary64 :=
  let size : Int := (Nat.toDigits 10 digits).length
  if digits = 0 then some (.finite negative 0 0)
  else if size + exponent > 400 then none
  else if size + exponent < -400 then some (.finite negative 0 0)
  else if exponent ≥ 0 then ofQuotient? negative (digits * Nat.pow 10 exponent.toNat) 1
  else ofQuotient? negative digits (Nat.pow 10 (-exponent).toNat)

/-- The magnitude of the integer part. -/
def integerPart (significand : Nat) (exponent : Int) : Nat :=
  if exponent ≥ 0 then significand * Nat.pow 2 exponent.toNat
  else significand / Nat.pow 2 (-exponent).toNat

/-- The least 64-bit signed integer. -/
def leastInt64 : Int := -(Nat.pow 2 63 : Nat)

/-- **The number as a 64-bit signed integer**, its fraction dropped. A number above 2^63 and one that
is no number have none; 2^63 itself and every number below the range give the least integer. -/
def toInt64? : Binary64 → Option Int
  | .nan => none
  | .infinite negative => if negative then some leastInt64 else none
  | .finite negative m e =>
    let n := integerPart m e
    if negative then some (if n ≥ Nat.pow 2 63 then leastInt64 else -(n : Int))
    else if n < Nat.pow 2 63 then some n
    else if e ≥ 0 && n == Nat.pow 2 63 then some leastInt64
    else none

end Binary64

end PhpAudit
