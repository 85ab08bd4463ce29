import PhpAudit.Text.Base64
import PhpAudit.Text.Quoted
import PhpAudit.Yaml.Node

/-!
# Nodes as values

A node is converted to the type a reader wants. A value of another type is a **problem**: it is noted
with its line, the conversion goes on, and all problems are reported together. What cannot be made
sense of at all is **refused** at once.

A scalar is text under every meaning but null: its spelling is the text, or the bytes it encodes. A null
is no value; where a list is read its place is skipped. An alias is followed. The nodes that are
converted are counted, and a conversion that goes almost only through aliases is refused: a short
document could stand for a huge one.
-/

namespace PhpAudit.Yaml

/-- **A problem of a conversion.** -/
inductive Problem where
  /-- The value has another type than the wanted one. -/
  | mismatch (line : Nat) (tag : Text) (value wanted : String)
  /-- A key of a mapping was given before, on the line `first`. -/
  | repeatedKey (line : Nat) (key : String) (first : Nat)
  /-- A field of a record was given before under another spelling of its key. -/
  | repeatedField (line : Nat) (name : Text) (record : String)
deriving DecidableEq, Repr

/-- The part of a value that is shown: all of it up to ten bytes, else the first seven. -/
def excerpt (value : Text) : Text := if value.size > 10 then value.take 7 ++ "..." else value

/-- The wording of a problem. The value of a scalar stands between marks, unless its tag is that of a
sequence or mapping. -/
def Problem.message : Problem → Text
  | .mismatch line tag value wanted =>
    let shown : Text := if tag = Tag.seq ∨ tag = Tag.map then value else " `" ++ excerpt value ++ "`"
    "line " ++ toString line ++ ": cannot unmarshal " ++ Tag.short tag ++ shown ++ " into " ++ wanted
  | .repeatedKey line key first =>
    "line " ++ toString line ++ ": mapping key " ++ Text.quoted key ++
      " already defined at line " ++ toString first
  | .repeatedField line name record =>
    "line " ++ toString line ++ ": field " ++ name ++ " already set in type " ++ record

/-- **Why a conversion fails.** -/
inductive Refusal where
  | problems (ps : List Problem)
  | misfit (m : Misfit)
  | badBinary
  /-- What is merged into a mapping is neither a mapping nor a sequence of mappings. -/
  | badMerge
  /-- An anchor is merged into itself. -/
  | cyclicMerge (name : String)
  | excessiveAliasing
deriving DecidableEq, Repr

/-- The wording of a failed conversion. -/
def Refusal.message : Refusal → Text
  | .problems ps => "yaml: unmarshal errors:\n  " ++ Text.intercalate "\n  " (ps.map Problem.message)
  | .misfit m => m.message
  | .badBinary => "yaml: !!binary value contains invalid base64 data"
  | .badMerge => "yaml: map merge requires map or sequence of maps as the value"
  | .cyclicMerge name => "yaml: anchor '" ++ name ++ "' value contains itself"
  | .excessiveAliasing => "yaml: document contains excessive aliasing"

/-- **How far a conversion has come.** -/
structure Progress where
  /-- The problems so far, in order. -/
  problems : List Problem := []
  /-- The number of nodes converted. -/
  nodes : Nat := 0
  /-- The number of those that were converted inside of aliases. -/
  aliased : Nat := 0
  /-- The number of aliases around. -/
  depth : Nat := 0

namespace Progress

/-- The share of aliased nodes that is allowed among so many nodes, in parts of 360 million: 99 percent
up to 400 thousand nodes, 10 percent from 4 million on, and between these on a straight line. -/
def allowedShare (nodes : Nat) : Nat :=
  if nodes ≤ 400000 then 99 * 3600000
  else if 4000000 ≤ nodes then 10 * 3600000
  else 99 * 3600000 - 89 * (nodes - 400000)

/-- Too many nodes were converted inside of aliases; a few are never too many. -/
def isExcessive (p : Progress) : Bool :=
  100 < p.aliased && 1000 < p.nodes && p.nodes * allowedShare p.nodes < p.aliased * 360000000

/-- One more node. -/
def count (p : Progress) : Progress :=
  { p with nodes := p.nodes + 1, aliased := if p.depth = 0 then p.aliased else p.aliased + 1 }

end Progress

/-- **A conversion under way.** -/
abbrev Convert := StateT Progress (Except Refusal)

namespace Convert

/-- Counts a node. -/
def count : Convert Unit := do
  modify Progress.count
  if (← get).isExcessive then throw .excessiveAliasing

/-- A conversion inside of an alias. -/
def inAlias {α : Type} (c : Convert α) : Convert α := do
  modify fun p => { p with depth := p.depth + 1 }
  let a ← c
  modify fun p => { p with depth := p.depth - 1 }
  return a

/-- **Converts a node**; in the place of an alias, the node it stands for. -/
def enter {α : Type} (d : Document) (n : Node) (convert : Node → Convert α) : Convert α := do
  count
  match n with
  | .reference _ _ _ => inAlias do
    count
    convert (d.follow n)
  | n => convert n

/-- The keys that a mapping gives twice: each later entry against each earlier one. -/
def repeatedKeys : List (Node × Node) → List Problem
  | [] => []
  | (k, _) :: rest =>
    (rest.filter fun e => e.1.sameKind k && e.1.value == k.value).map
        (fun e => .repeatedKey e.1.line e.1.value k.line)
      ++ repeatedKeys rest

/-- Notes problems. -/
def note (problems : List Problem) : Convert Unit :=
  modify fun p => { p with problems := p.problems ++ problems }

/-- Notes that a node is not of the wanted type. Of a mapping with repeated keys only these are
noted. -/
def mismatch {α : Type} (n : Node) (wanted : String) : Convert (Option α) := do
  match repeatedKeys n.entries with
  | [] => note [.mismatch n.line n.tag n.value wanted]
  | ps => note ps
  return none

/-- The outcome of a conversion: its value, or all its problems. -/
def run {α : Type} (c : Convert α) : Except Refusal α :=
  match StateT.run c {} with
  | .ok (a, p) => if p.problems.isEmpty then .ok a else .error (.problems p.problems)
  | .error r => .error r

/-- The meaning of a scalar; encoded bytes are text. -/
def meaning (tag : Text) (value : String) : Convert Meaning :=
  if tag = Tag.binary then
    match Text.ofBase64? value with
    | some t => return .text t
    | none => throw .badBinary
  else
    match Meaning.ofTagged tag value with
    | .ok m => return m
    | .error m => throw (.misfit m)

/-- Converts a scalar by its meaning; a null is no value. -/
def scalar {α : Type} (wanted : String) (read : Meaning → Option α) (d : Document) (n : Node) :
    Convert (Option α) := enter d n fun
  | .scalar line tag value => do
    match ← meaning tag value with
    | .null => return none
    | m =>
      match read m with
      | some a => return some a
      | none => mismatch (.scalar line tag value) wanted
  | n => mismatch n wanted

/-- **A node as text**: the spelling of a scalar. -/
def text (d : Document) (n : Node) : Convert (Option Text) := enter d n fun
  | .scalar _ tag value => do
    match ← meaning tag value with
    | .null => return none
    | .text t => return some t
    | _ => return some (Text.ofString value)
  | n => mismatch n "string"

/-- The integer of a meaning: an integer that fits 64 bits with sign, or the integer part of a
number. -/
def integerOf : Meaning → Option Int
  | .int n => if n < (Nat.pow 2 63 : Nat) then some n else none
  | .float x => x.toInt64?
  | _ => none

/-- **A node as an integer**, of a type that has this name. -/
def integer (name : String) : Document → Node → Convert (Option Int) := scalar name integerOf

/-- The words that stand for a truth value where one is wanted. -/
def flagWords : List (Text × Bool) := [
  ("y", true), ("Y", true), ("yes", true), ("Yes", true), ("YES", true),
  ("on", true), ("On", true), ("ON", true),
  ("n", false), ("N", false), ("no", false), ("No", false), ("NO", false),
  ("off", false), ("Off", false), ("OFF", false)]

/-- The truth value of a meaning. -/
def flagOf : Meaning → Option Bool
  | .bool b => some b
  | .text t => flagWords.lookup t
  | _ => none

/-- **A node as a truth value.** -/
def flag : Document → Node → Convert (Option Bool) := scalar "bool" flagOf

/-- **A node as a list of texts**; a null gives the empty list, and null items are skipped. -/
def texts (d : Document) (n : Node) : Convert (Option (List Text)) := enter d n fun
  | .sequence _ _ items => do return some ((← items.mapM (text d)).filterMap id)
  | .scalar line tag value => do
    match ← meaning tag value with
    | .null => return some []
    | _ => mismatch (.scalar line tag value) "[]string"
  | n => mismatch n "[]string"

end Convert

end PhpAudit.Yaml
