import PhpAudit.Number.Integer
import PhpAudit.Text.Category
import PhpAudit.Text.Script

/-!
# Sets of characters by property

A pattern may name a set of characters by a property that Unicode gives them: a general category, a
group of categories by its one letter, or a script. Categories and groups have long names too. Names
are compared loosely: letter case, underscores, hyphens and spaces do not count.

A set is given by ranges of codes, or by the ranges of all others: the codes that are not assigned are
those without a category.
-/

namespace PhpAudit.Property

/-- A code in hexadecimal. -/
def code (s : String) : Nat := (Integer.digitsIn? 16 s.toList).getD 0

/-- The codes that an entry of a table writes: one, a run, or every other of a run. -/
def entry (s : String) : List (Nat × Nat) :=
  match s.splitOn "-", s.splitOn ":" with
  | [a, b], _ => [(code a, code b)]
  | _, [a, b] =>
    (List.range ((code b - code a) / 2 + 1)).map fun i => (code a + 2 * i, code a + 2 * i)
  | _, _ => [(code s, code s)]

/-- The codes that the lines of a table write. -/
def entries (lines : List String) : List (Nat × Nat) :=
  lines.flatMap fun line => (line.splitOn " ").flatMap entry

/-- **A set of codes**: those of its ranges, or all others. -/
structure Codes where
  ranges : List (Nat × Nat)
  negated : Bool

/-- What counts of a name. -/
def looseName (cs : List Char) : List Char :=
  (cs.filter fun c => c ≠ '_' ∧ c ≠ '-' ∧ c ≠ ' ').map Char.toLower

/-- A loose name stands for a name. -/
def isNamed (loose : List Char) (name : String) : Bool := looseName name.toList == loose

/-- The codes of the categories that some letters start the names of. -/
def startingWith (letters : List Char) : List (Nat × Nat) :=
  entries ((Text.categories.filter fun c => c.1.toList.head?.any letters.contains).flatMap (·.2))

/-- The codes of some categories. -/
def categoriesOf (names : List String) : List (Nat × Nat) :=
  entries ((Text.categories.filter fun c => names.contains c.1).flatMap (·.2))

/-- The groups of categories of assigned characters that are no control, format or private ones. -/
def groups : List Char := ['L', 'M', 'N', 'P', 'S', 'Z']

/-- The long names of categories and groups. -/
def longNames : List (String × String) := [
  ("Cased_Letter", "LC"), ("Close_Punctuation", "Pe"), ("Combining_Mark", "M"),
  ("Connector_Punctuation", "Pc"), ("Control", "Cc"), ("cntrl", "Cc"), ("Currency_Symbol", "Sc"),
  ("Dash_Punctuation", "Pd"), ("Decimal_Number", "Nd"), ("digit", "Nd"), ("Enclosing_Mark", "Me"),
  ("Final_Punctuation", "Pf"), ("Format", "Cf"), ("Initial_Punctuation", "Pi"), ("Letter", "L"),
  ("Letter_Number", "Nl"), ("Line_Separator", "Zl"), ("Lowercase_Letter", "Ll"), ("Mark", "M"),
  ("Math_Symbol", "Sm"), ("Modifier_Letter", "Lm"), ("Modifier_Symbol", "Sk"),
  ("Nonspacing_Mark", "Mn"), ("Number", "N"), ("Open_Punctuation", "Ps"), ("Other", "C"),
  ("Other_Letter", "Lo"), ("Other_Number", "No"), ("Other_Punctuation", "Po"),
  ("Other_Symbol", "So"), ("Paragraph_Separator", "Zp"), ("Private_Use", "Co"),
  ("Punctuation", "P"), ("punct", "P"), ("Separator", "Z"), ("Space_Separator", "Zs"),
  ("Spacing_Mark", "Mc"), ("Surrogate", "Cs"), ("Symbol", "S"), ("Titlecase_Letter", "Lt"),
  ("Unassigned", "Cn"), ("Uppercase_Letter", "Lu")]

/-- The codes of a category or of a group of categories. -/
def category? (loose : List Char) : Option Codes :=
  if isNamed loose "Cn" then some ⟨startingWith ('C' :: groups), true⟩
  else if isNamed loose "C" then some ⟨startingWith groups, true⟩
  else if isNamed loose "LC" then some ⟨categoriesOf ["Lu", "Ll", "Lt"], false⟩
  else match groups.find? fun g => isNamed loose (String.singleton g) with
    | some g => some ⟨startingWith [g], false⟩
    | none =>
      (Text.categories.find? fun c => isNamed loose c.1).map fun c => ⟨entries c.2, false⟩

/-- The codes of a script. -/
def script? (loose : List Char) : Option Codes :=
  (Text.scripts.find? fun s => isNamed loose s.1).map fun s => ⟨entries s.2, false⟩

/-- **The codes with a property**, `none` for a name that is no property. -/
def codes? (name : List Char) : Option Codes :=
  let loose := looseName name
  if isNamed loose "Any" then some ⟨[(0, 0x10ffff)], false⟩
  else if isNamed loose "Assigned" then some ⟨startingWith ('C' :: groups), false⟩
  else if isNamed loose "ASCII" then some ⟨[(0, 0x7f)], false⟩
  else
    (category? loose).or <| (script? loose).or <|
      (longNames.find? fun n => isNamed loose n.1).bind fun n => category? (looseName n.2.toList)

end PhpAudit.Property
