import PhpAudit.Text.Quoted

/-!
# JSON documents

A JSON value, and its text: one member a line, two spaces of indentation a level, an empty list or
object on one line, a line break at the end. Inside a string the characters that could end a script
or an element (`<`, `>`, `&` and the two line separators) are written as escapes, and a stray byte as
the replacement character.
-/

namespace PhpAudit

/-- **A JSON value**; the members of an object keep their order. -/
inductive JsonValue where
  | bool (b : Bool)
  | int (n : Int)
  | text (t : Text)
  | list (items : List JsonValue)
  | object (members : List (Text × JsonValue))

namespace JsonValue

/-- Texts as a value. -/
def texts (ts : List Text) : JsonValue := .list (ts.map .text)

/-- The short escapes of control characters. -/
def shortEscapes : List (Char × Char) := [
  ('\x22', '\x22'), ('\\', '\\'), ('\x08', 'b'), ('\x0c', 'f'), ('\n', 'n'), ('\r', 'r'), ('\t', 't')]

/-- A character of a string. -/
def escapeChar (c : Char) : List Char :=
  match shortEscapes.lookup c with
  | some e => ['\\', e]
  | none =>
    if c.toNat < 0x20 ∨ c = '<' ∨ c = '>' ∨ c = '&' ∨ c = '\u2028' ∨ c = '\u2029' then
      '\\' :: 'u' :: Text.hex 4 c.toNat
    else [c]

/-- A text between quotes. -/
def quote (t : Text) : Text := "\"" ++ Text.ofChars (t.shown.flatMap escapeChar) ++ "\""

/-- A line break and the indentation of a level. -/
def newLine (level : Nat) : Text := "\n" ++ Text.ofChars (List.replicate (2 * level) ' ')

/-- Parts between two brackets, one a line; the brackets alone when there is none. -/
def bracketed (opening closing : Text) (level : Nat) (parts : List Text) : Text :=
  if parts.isEmpty then opening ++ closing
  else
    opening ++ newLine (level + 1) ++ Text.intercalate ("," ++ newLine (level + 1)) parts ++
      newLine level ++ closing

mutual

/-- The text of a value at a level of indentation. -/
def renderAt (level : Nat) : JsonValue → Text
  | .bool b => if b then "true" else "false"
  | .int n => toString n
  | .text t => quote t
  | .list items => bracketed "[" "]" level (renderItems (level + 1) items)
  | .object members => bracketed "\x7b" "\x7d" level (renderMembers (level + 1) members)

/-- The texts of the items of a list. -/
def renderItems (level : Nat) : List JsonValue → List Text
  | [] => []
  | v :: vs => renderAt level v :: renderItems level vs

/-- The texts of the members of an object. -/
def renderMembers (level : Nat) : List (Text × JsonValue) → List Text
  | [] => []
  | (k, v) :: ms => (quote k ++ ": " ++ renderAt level v) :: renderMembers level ms

end

/-- **The text of a document.** -/
def render (v : JsonValue) : Text := renderAt 0 v ++ "\n"

end JsonValue

end PhpAudit
