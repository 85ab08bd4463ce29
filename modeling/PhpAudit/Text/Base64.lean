import PhpAudit.Text.Basic

/-!
# Base 64

Bytes written as letters: each group of four letters stands for three bytes, and a last group is
filled up with equals signs. Line breaks between the letters do not count.
-/

namespace PhpAudit.Text

/-- The value of a letter. -/
def base64Value? (c : Char) : Option Nat :=
  if c.isUpper then some (c.toNat - 'A'.toNat)
  else if c.isLower then some (c.toNat - 'a'.toNat + 26)
  else if c.isDigit then some (c.toNat - '0'.toNat + 52)
  else if c = '+' then some 62
  else if c = '/' then some 63
  else none

/-- The bytes of groups of four letters. -/
def base64Groups : List Char → Option (List UInt8)
  | [] => some []
  | [a, b, '=', '='] => do
    let x ← base64Value? a
    let y ← base64Value? b
    return [UInt8.ofNat (x * 4 + y / 16)]
  | [a, b, c, '='] => do
    let x ← base64Value? a
    let y ← base64Value? b
    let z ← base64Value? c
    return [UInt8.ofNat (x * 4 + y / 16), UInt8.ofNat (y % 16 * 16 + z / 4)]
  | a :: b :: c :: d :: rest => do
    let x ← base64Value? a
    let y ← base64Value? b
    let z ← base64Value? c
    let w ← base64Value? d
    let tail ← base64Groups rest
    return UInt8.ofNat (x * 4 + y / 16) :: UInt8.ofNat (y % 16 * 16 + z / 4)
      :: UInt8.ofNat (z % 4 * 64 + w) :: tail
  | _ => none

/-- **The text that a spelling stands for in base 64**, if it is well-formed. -/
def ofBase64? (s : String) : Option Text :=
  (base64Groups (s.toList.filter fun c => c ≠ '\n' ∧ c ≠ '\r')).map .mk

end PhpAudit.Text
