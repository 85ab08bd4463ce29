import PhpAudit.Text.Glyph

/-!
# Faults of patterns

What is refused is shown by the part of the pattern that is at fault. A pattern that is too large or
nests too deeply is shown as a whole.
-/

namespace PhpAudit

/-- **Why a text is no pattern.** -/
inductive PatternFault where
  | badRange
  | badEscape
  | badGroupName
  | badGroup
  | nestedRepeat
  | badRepeatCount
  | malformedText
  | missingBracket
  | missingParen
  | nothingToRepeat
  | tooDeep
  | tooLarge
  | trailingBackslash
  | unexpectedParen
deriving DecidableEq, Repr

/-- The wording of a fault. -/
def PatternFault.text : PatternFault → Text
  | .badRange => "invalid character class range"
  | .badEscape => "invalid escape sequence"
  | .badGroupName => "invalid named capture"
  | .badGroup => "invalid or unsupported Perl syntax"
  | .nestedRepeat => "invalid nested repetition operator"
  | .badRepeatCount => "invalid repeat count"
  | .malformedText => "invalid UTF-8"
  | .missingBracket => "missing closing ]"
  | .missingParen => "missing closing )"
  | .nothingToRepeat => "missing argument to repetition operator"
  | .tooDeep => "expression nests too deeply"
  | .tooLarge => "expression too large"
  | .trailingBackslash => "trailing backslash at end of expression"
  | .unexpectedParen => "unexpected )"

/-- A fault, and the part of the pattern that is at fault. -/
structure PatternError where
  fault : PatternFault
  part : Text
deriving DecidableEq, Repr

/-- The wording of the error. -/
def PatternError.message (e : PatternError) : Text :=
  "error parsing regexp: " ++ e.fault.text ++ ": `" ++ e.part ++ "`"

namespace Pattern

/-- A reading, or the fault that ends it. -/
abbrev Parse := Except PatternError

/-- What is left of a pattern that is being read. -/
abbrev Rest := List Glyph

/-- Refuses a part of the pattern. -/
def refuse {α : Type} (fault : PatternFault) (part : Rest) : Parse α :=
  .error ⟨fault, Text.ofGlyphs part⟩

/-- What was read on the way from one rest of the pattern to a later one. -/
def passed (before after : Rest) : Rest := before.take (before.length - after.length)

/-- The next character, if there is one. A stray byte is refused, with all that follows it. -/
def next? : Rest → Parse (Option (Char × Rest))
  | [] => return none
  | .char c :: t => return some (c, t)
  | .stray b :: t => refuse .malformedText (.stray b :: t)

/-- Refuses stray bytes, with all that follows them. -/
def wellFormed : Rest → Parse Unit
  | [] => return ()
  | .char _ :: t => wellFormed t
  | .stray b :: t => refuse .malformedText (.stray b :: t)

end Pattern

end PhpAudit
