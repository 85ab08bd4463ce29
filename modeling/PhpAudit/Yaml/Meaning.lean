import PhpAudit.Number.Binary64
import PhpAudit.Number.Integer
import PhpAudit.Yaml.Token

/-!
# What a scalar means

A plain scalar is read by its spelling: as null, a truth value, an integer, a floating point number,
a point in time, or else as text. A scalar with a tag is read as the tag says, or refused when its
spelling does not fit. The spelling stays with the scalar: where text is asked for, the spelling is
the answer, whatever the scalar means.
-/

namespace PhpAudit.Yaml

open Integer (digitsIn? splitBase splitSign)

/-- **The meaning of a scalar.** -/
inductive Meaning where
  | null
  | bool (b : Bool)
  | int (n : Int)
  | float (x : Binary64)
  | timestamp
  | text (t : Text)
deriving DecidableEq, Repr, Inhabited

namespace Tag

/-- The tags of the core types, in their short form. -/
def null : Text := "!!null"
/-- The tag of truth values. -/
def bool : Text := "!!bool"
/-- The tag of integers. -/
def int : Text := "!!int"
/-- The tag of floating point numbers. -/
def float : Text := "!!float"
/-- The tag of points in time. -/
def timestamp : Text := "!!timestamp"
/-- The tag of text. -/
def str : Text := "!!str"
/-- The tag of sequences. -/
def seq : Text := "!!seq"
/-- The tag of mappings. -/
def map : Text := "!!map"
/-- The tag of encoded bytes. -/
def binary : Text := "!!binary"
/-- The tag of the key that merges mappings. -/
def merge : Text := "!!merge"

/-- What the short form of a core tag stands for. -/
def corePrefix : Text := "tag:yaml.org,2002:"

/-- The short form of a tag. -/
def short (tag : Text) : Text :=
  if tag.startsWith corePrefix then "!!" ++ tag.drop corePrefix.size else tag

end Tag

/-- The tag of a meaning. -/
def Meaning.tag : Meaning → Text
  | .null => Tag.null
  | .bool _ => Tag.bool
  | .int _ => Tag.int
  | .float _ => Tag.float
  | .timestamp => Tag.timestamp
  | .text _ => Tag.str

/-- A number without sign, its base told by how it starts. -/
def unsigned? (cs : List Char) : Option Nat :=
  if cs.isEmpty then none else digitsIn? (splitBase cs).1 (splitBase cs).2

/-- A signed 64-bit integer, its digits read by `read`. -/
def signed64? (read : List Char → Option Nat) (cs : List Char) : Option Int :=
  let (negative, ds) := splitSign cs
  match read ds with
  | some n =>
    if negative then (if n ≤ Nat.pow 2 63 then some (-(n : Int)) else none)
    else if n < Nat.pow 2 63 then some n else none
  | none => none

/-- An unsigned 64-bit integer, its digits read by `read`. -/
def unsigned64? (read : List Char → Option Nat) (cs : List Char) : Option Int :=
  (read cs).bind fun n => if n < Nat.pow 2 64 then some (n : Int) else none

/-- Digits in a stated base; none is no number. -/
def someDigits? (base : Nat) (cs : List Char) : Option Nat :=
  if cs.isEmpty then none else digitsIn? base cs

/-- **An integer**, from its spelling without underscores. A sign may also stand after the marks `0b`
and `0o`. -/
def integer? (cs : List Char) : Option Int :=
  (signed64? unsigned? cs).or <| (unsigned64? unsigned? cs).or <|
    match cs with
    | '0' :: 'b' :: ds => (signed64? (someDigits? 2) ds).or (unsigned64? (someDigits? 2) ds)
    | '0' :: 'o' :: ds => (signed64? (someDigits? 8) ds).or (unsigned64? (someDigits? 8) ds)
    | _ => none

/-- **A decimal number**, from its spelling without underscores: digits with at most one point among
them, and an exponent. -/
def decimal? (cs : List Char) : Option Binary64 :=
  let (negative, cs) := splitSign cs
  let whole := cs.takeWhile Char.isDigit
  let cs := cs.dropWhile Char.isDigit
  let (fraction, cs) : List Char × List Char := match cs with
    | '.' :: rest => (rest.takeWhile Char.isDigit, rest.dropWhile Char.isDigit)
    | _ => ([], cs)
  if whole.isEmpty && fraction.isEmpty then none
  else
    let exponent? : Option Int := match cs with
      | [] => some 0
      | e :: rest =>
        if e == 'e' || e == 'E' then
          let (minus, ds) := splitSign rest
          (someDigits? 10 ds).map fun n => if minus then -(n : Int) else (n : Int)
        else none
    match exponent?, digitsIn? 10 (whole ++ fraction) with
    | some e, some n => Binary64.ofDecimal? negative n (e - fraction.length)
    | _, _ => none

/-- Every underscore stands between two digits. -/
def underscoresBetweenDigits : Bool → List Char → Bool
  | _, [] => true
  | digitBefore, '_' :: cs => digitBefore && cs.head?.any Char.isDigit && underscoresBetweenDigits false cs
  | _, c :: cs => underscoresBetweenDigits c.isDigit cs

namespace Timestamp

/-- A number of one or two digits. -/
def short? : List Char → Option (Nat × List Char)
  | a :: b :: cs =>
    if !a.isDigit then none
    else if b.isDigit then some ((a.toNat - 48) * 10 + (b.toNat - 48), cs)
    else some (a.toNat - 48, b :: cs)
  | [a] => if a.isDigit then some (a.toNat - 48, []) else none
  | [] => none

/-- The number of days of a month. -/
def daysIn (year month : Nat) : Nat :=
  if month = 2 then
    if year % 4 = 0 ∧ (year % 100 ≠ 0 ∨ year % 400 = 0) then 29 else 28
  else if month = 4 ∨ month = 6 ∨ month = 9 ∨ month = 11 then 30
  else 31

/-- A date of four digits, a month and a day. -/
def date? (cs : List Char) : Option (List Char) := do
  let year := cs.take 4
  if year.length ≠ 4 ∨ !year.all Char.isDigit then none
  else match cs.drop 4 with
    | '-' :: cs =>
      let (month, cs) ← short? cs
      match cs with
      | '-' :: cs =>
        let (day, cs) ← short? cs
        let y := (digitsIn? 10 year).getD 0
        if 1 ≤ month ∧ month ≤ 12 ∧ 1 ≤ day ∧ day ≤ daysIn y month then some cs else none
      | _ => none
    | _ => none

/-- A fraction of a second, if one stands here. -/
def skipFraction : List Char → List Char
  | p :: d :: cs =>
    if (p == '.' || p == ',') && d.isDigit then (d :: cs).dropWhile Char.isDigit else p :: d :: cs
  | cs => cs

/-- A time of day. -/
def time? (cs : List Char) : Option (List Char) := do
  let (hour, cs) ← short? cs
  match cs with
  | ':' :: cs =>
    let (minute, cs) ← short? cs
    match cs with
    | ':' :: cs =>
      let (second, cs) ← short? cs
      if hour < 24 ∧ minute < 60 ∧ second < 60 then some (skipFraction cs) else none
    | _ => none
  | _ => none

/-- A time zone: `Z`, or a signed offset of hours and minutes. -/
def zone? : List Char → Option (List Char)
  | 'Z' :: cs => some cs
  | s :: a :: b :: ':' :: c :: d :: cs =>
    if (s == '+' || s == '-') && [a, b, c, d].all Char.isDigit &&
        (digitsIn? 10 [a, b]).getD 99 ≤ 24 && (digitsIn? 10 [c, d]).getD 99 ≤ 60 then some cs
    else none
  | _ => none

/-- **A point in time**: a date, alone or followed by a time of day. The letter T is followed by a
time with a zone, spaces by one without. -/
def isTimestamp (cs : List Char) : Bool :=
  match date? cs with
  | none => false
  | some [] => true
  | some (sep :: cs) =>
    if sep == 'T' || sep == 't' then ((time? cs).bind zone?) == some []
    else if sep == ' ' then time? (cs.dropWhile (· == ' ')) == some []
    else false

end Timestamp

/-- The words that mean null, a truth value or a special number. -/
def words : List (String × Meaning) := [
  ("", .null), ("~", .null), ("null", .null), ("Null", .null), ("NULL", .null),
  ("true", .bool true), ("True", .bool true), ("TRUE", .bool true),
  ("false", .bool false), ("False", .bool false), ("FALSE", .bool false),
  (".nan", .float .nan), (".NaN", .float .nan), (".NAN", .float .nan),
  (".inf", .float (.infinite false)), (".Inf", .float (.infinite false)),
  (".INF", .float (.infinite false)), ("+.inf", .float (.infinite false)),
  ("+.Inf", .float (.infinite false)), ("+.INF", .float (.infinite false)),
  ("-.inf", .float (.infinite true)), ("-.Inf", .float (.infinite true)),
  ("-.INF", .float (.infinite true))]

/-- The number a spelling means: an integer where one fits, else a decimal number. -/
def number? (cs : List Char) : Option Meaning :=
  let bare := cs.filter (· ≠ '_')
  ((signed64? unsigned? bare).or (unsigned64? unsigned? bare)).map Meaning.int
    |>.or ((decimal? bare).map Meaning.float)
    |>.or ((integer? bare).map Meaning.int)

/-- **The meaning of a plain spelling.** A point in time is looked for only when `times` is set. -/
def Meaning.ofSpelling (times : Bool) (s : String) : Meaning :=
  match words.find? (·.1 == s) with
  | some (_, m) => m
  | none =>
    let cs := s.toList
    match cs.head? with
    | none => .null
    | some c =>
      if c == '.' then
        match (if underscoresBetweenDigits false cs then decimal? (cs.filter (· ≠ '_')) else none) with
        | some x => .float x
        | none => .text s
      else if c.isDigit || c == '+' || c == '-' then
        if times && Timestamp.isTimestamp cs then .timestamp else (number? cs).getD (.text s)
      else .text s

/-- A scalar whose spelling does not fit its tag. -/
structure Misfit where
  found : Text
  spelling : String
  wanted : Text
deriving DecidableEq, Repr

/-- The wording of a misfit. -/
def Misfit.message (e : Misfit) : Text :=
  "yaml: cannot decode " ++ e.found ++ " `" ++ e.spelling ++ "` as a " ++ e.wanted

/-- **The meaning of a scalar with a tag.** A tag of no core type leaves the spelling as text; an
integer fits where a floating point number is wanted. -/
def Meaning.ofTagged (tag : Text) (spelling : String) : Except Misfit Meaning :=
  let tag := Tag.short tag
  if tag = Tag.str then .ok (.text spelling)
  else if tag = Tag.null ∨ tag = Tag.bool ∨ tag = Tag.int ∨ tag = Tag.float ∨ tag = Tag.timestamp then
    let m := Meaning.ofSpelling (tag == Tag.timestamp) spelling
    if m.tag = tag then .ok m
    else match m with
      | .int n =>
        if tag = Tag.float ∧ n < (Nat.pow 2 63 : Nat) then
          match Binary64.ofQuotient? (n < 0) n.natAbs 1 with
          | some x => .ok (.float x)
          | none => .error ⟨m.tag, spelling, tag⟩
        else .error ⟨m.tag, spelling, tag⟩
      | _ => .error ⟨m.tag, spelling, tag⟩
  else if tag = "" then .ok (Meaning.ofSpelling true spelling)
  else .ok (.text spelling)

end PhpAudit.Yaml
