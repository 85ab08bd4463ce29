import PhpAudit.Yaml.Source

/-!
# Tokens

The tokens of a document. A mapping key may be written without a mark before it, so the scanner
only learns at the colon that a token was the start of a key; the key token is then put in front of
it. Tokens carry the lines of their start and end, counted from zero.
-/

namespace PhpAudit.Yaml

/-- How a scalar is written. -/
inductive Style where
  | plain
  | singleQuoted
  | doubleQuoted
  | literal
  | folded
deriving DecidableEq, Repr, Inhabited

/-- **What a token is.** -/
inductive TokenKind where
  | streamStart
  | streamEnd
  | versionDirective (major minor : Nat)
  | tagDirective (handle : String) (expansion : Text)
  | documentStart
  | documentEnd
  | blockSequenceStart
  | blockMappingStart
  | blockEnd
  | flowSequenceStart
  | flowSequenceEnd
  | flowMappingStart
  | flowMappingEnd
  | blockEntry
  | flowEntry
  | key
  | value
  | reference (name : String)
  | anchor (name : String)
  | tag (handle : String) (suffix : Text)
  | scalar (style : Style) (value : String)
deriving DecidableEq, Repr, Inhabited

/-- **A token**, with the lines where it starts and ends. -/
structure Token where
  kind : TokenKind
  line : Nat
  lastLine : Nat
deriving DecidableEq, Repr, Inhabited

end PhpAudit.Yaml
