import PhpAudit.Text.Glyph

/-!
# Blank characters

The white space that is trimmed from the ends of a name: the ASCII space and the five controls from
tab to carriage return, the next-line control, and the space and line separators above ASCII.
-/

namespace PhpAudit.Text

/-- **Blank**: white space. -/
def isBlank (c : Char) : Bool :=
  let n := c.toNat
  (0x09 ≤ n && n ≤ 0x0d) || n == 0x20 || n == 0x85 || n == 0xa0 || n == 0x1680 ||
    (0x2000 ≤ n && n ≤ 0x200a) || n == 0x2028 || n == 0x2029 || n == 0x202f || n == 0x205f ||
    n == 0x3000

/-- The text without the white space at its ends. -/
def trimBlank (t : Text) : Text :=
  let rest := t.glyphs.dropWhile (Glyph.has isBlank)
  ofGlyphs (rest.reverse.dropWhile (Glyph.has isBlank)).reverse

end PhpAudit.Text
