/-!
# Texts

A **text** is a string of bytes. Most texts are well-formed UTF-8, but encoded bytes in a document and
a literal that is cut in the middle of a character give texts that are not, so nothing here asks for
it. Texts are compared, ordered and cut by their bytes. A string literal stands for the text of its
UTF-8 bytes.
-/

namespace PhpAudit

/-- **A text**: a string of bytes. -/
structure Text where
  bytes : List UInt8
deriving DecidableEq, Repr, Inhabited

namespace Text

/-- The text of a string: its UTF-8 bytes. -/
def ofString (s : String) : Text := ⟨s.toByteArray.data.toList⟩

instance : Coe String Text := ⟨ofString⟩

/-- The text of some characters. -/
def ofChars (cs : List Char) : Text := ⟨cs.flatMap String.utf8EncodeChar⟩

/-- The byte of an ASCII character. -/
def mark (c : Char) : UInt8 := UInt8.ofNat c.toNat

instance : Append Text := ⟨fun s t => ⟨s.bytes ++ t.bytes⟩⟩

instance : LT Text := ⟨fun s t => s.bytes < t.bytes⟩

instance : LE Text := ⟨fun s t => s.bytes ≤ t.bytes⟩

instance : DecidableLT Text := fun s t => inferInstanceAs (Decidable (s.bytes < t.bytes))

instance : DecidableLE Text := fun s t => inferInstanceAs (Decidable (s.bytes ≤ t.bytes))

/-- The number of bytes. -/
def size (t : Text) : Nat := t.bytes.length

/-- The first `n` bytes. -/
def take (n : Nat) (t : Text) : Text := ⟨t.bytes.take n⟩

/-- The text without its first `n` bytes. -/
def drop (n : Nat) (t : Text) : Text := ⟨t.bytes.drop n⟩

/-- A text starts with another. -/
def startsWith (t start : Text) : Bool := start.bytes.isPrefixOf t.bytes

/-- A text ends with another. -/
def endsWith (t ending : Text) : Bool := ending.bytes.isSuffixOf t.bytes

/-- Texts one after the other. -/
def join (ts : List Text) : Text := ⟨ts.flatMap bytes⟩

/-- Texts one after the other, with a text between each two. -/
def intercalate (between : Text) (ts : List Text) : Text := ⟨between.bytes.intercalate (ts.map bytes)⟩

/-- The parts of a byte string between the places of one byte, from the part read so far, which is
held last byte first. -/
def splitBytes (b : UInt8) : List UInt8 → List UInt8 → List Text
  | [], part => [⟨part.reverse⟩]
  | x :: xs, part =>
    if x = b then ⟨part.reverse⟩ :: splitBytes b xs [] else splitBytes b xs (x :: part)

/-- **The parts of a text** between the places of one byte, empty parts included. -/
def split (b : UInt8) (t : Text) : List Text := splitBytes b t.bytes []

@[simp] theorem bytes_append (s t : Text) : (s ++ t).bytes = s.bytes ++ t.bytes := rfl

@[simp] theorem append_assoc (s t u : Text) : s ++ t ++ u = s ++ (t ++ u) :=
  congrArg mk (List.append_assoc s.bytes t.bytes u.bytes)

@[simp] theorem append_empty (t : Text) : t ++ (⟨[]⟩ : Text) = t :=
  congrArg mk (List.append_nil t.bytes)

@[simp] theorem empty_append (t : Text) : (⟨[]⟩ : Text) ++ t = t := rfl

/-- Texts are in the order of dictionaries, byte by byte. -/
instance : Std.IsLinearOrder Text where
  le_refl t := List.le_refl t.bytes
  le_trans _ _ _ h h' := List.le_trans (α := UInt8) h h'
  le_antisymm _ _ h h' := congrArg mk (List.le_antisymm (α := UInt8) h h')
  le_total s t := List.le_total (α := UInt8) s.bytes t.bytes

instance : Std.LawfulOrderLT Text where
  lt_iff s t := Std.LawfulOrderLT.lt_iff s.bytes t.bytes

end Text

end PhpAudit
