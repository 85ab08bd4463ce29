import PhpAudit.Text.Glyph
import PhpAudit.Text.Printable

/-!
# Quoted text

A quoted text stands between double quotes and is written with printable characters only. A quote
and a backslash are escaped, the seven usual control characters have short escapes, any other
control character and every stray byte is written as two hexadecimal digits, and a character that
is not printable as four or eight. `escaped` is the same text without the quotes around it.
-/

namespace PhpAudit.Text

/-- A number as at least `width` hexadecimal digits. -/
def hex (width n : Nat) : List Char :=
  let digits := Nat.toDigits 16 n
  List.replicate (width - digits.length) '0' ++ digits

/-- The short escape of a control character. -/
def shortEscape? (c : Char) : Option Char :=
  match c.toNat with
  | 0x07 => some 'a'
  | 0x08 => some 'b'
  | 0x0c => some 'f'
  | 0x0a => some 'n'
  | 0x0d => some 'r'
  | 0x09 => some 't'
  | 0x0b => some 'v'
  | _ => none

/-- A character of a quoted text. -/
def escapeChar (c : Char) : List Char :=
  if c = '\x22' ∨ c = '\\' then ['\\', c]
  else if isPrintable c then [c]
  else match shortEscape? c with
    | some e => ['\\', e]
    | none =>
      if c.toNat < 0x80 then '\\' :: 'x' :: hex 2 c.toNat
      else if c.toNat < 0x10000 then '\\' :: 'u' :: hex 4 c.toNat
      else '\\' :: 'U' :: hex 8 c.toNat

/-- A glyph of a quoted text. -/
def escapeGlyph : Glyph → List Char
  | .char c => escapeChar c
  | .stray b => '\\' :: 'x' :: hex 2 b.toNat

/-- The characters of the escaped form of a text. -/
def escapedChars (t : Text) : List Char := t.glyphs.flatMap escapeGlyph

/-- **The escaped form** of a text: printable characters only. -/
def escaped (t : Text) : Text := ofChars t.escapedChars

/-- **The quoted form** of a text. -/
def quoted (t : Text) : Text := "\"" ++ t.escaped ++ "\""

end PhpAudit.Text
