import PhpAudit.Text.Blank
import PhpAudit.Text.CaseFold
import PhpAudit.Text.Quoted

/-!
# Risks and sets of risks

A **risk** is a category of vulnerability, known by its code; five codes have names. A **risk set**
is one bit per code below eight, so sets of codes without a name can be held too. Names are read
ignoring letter case and the white space around them; a list of names is separated by commas, and
its blank elements are skipped.

`Risk.parse?` answers exactly for the five names; `RiskSet.names` lists the named members in the
order of their codes.
-/

namespace PhpAudit

/-- **A risk**, by its code. -/
structure Risk where
  code : UInt8
deriving DecidableEq, Repr, Inhabited

namespace Risk

/-- Attacker data reaches a database query. -/
def sqlInjection : Risk := ⟨0⟩
/-- Attacker data reaches an operating system command. -/
def commandInjection : Risk := ⟨1⟩
/-- Attacker data names the file that is included. -/
def fileInclusion : Risk := ⟨2⟩
/-- Attacker data reaches a web page. -/
def crossSiteScripting : Risk := ⟨3⟩
/-- Attacker data is evaluated as code. -/
def codeEvaluation : Risk := ⟨4⟩

/-- The risks that have a name, in the order of their codes. -/
def named : List (Risk × Text) := [
  (sqlInjection, "SQL_INJECTION"),
  (commandInjection, "COMMAND_INJECTION"),
  (fileInclusion, "FILE_INCLUSION"),
  (crossSiteScripting, "XSS"),
  (codeEvaluation, "CODE_EVALUATION")]

/-- The name of a risk; a code without a name is shown as a number. -/
def name (r : Risk) : Text :=
  match named.find? (·.1 == r) with
  | some (_, n) => n
  | none => "Risk(" ++ toString r.code.toNat ++ ")"

end Risk

/-- **Why a list of risk names is refused**: an element, without the blanks around it, names no
risk. -/
structure UnknownRisk where
  spelling : Text
deriving DecidableEq, Repr

/-- The wording of a refused name. -/
def UnknownRisk.message (e : UnknownRisk) : Text :=
  "unknown risk " ++ Text.quoted e.spelling

/-- **The risk of a name**, ignoring letter case and the blanks around it. -/
def Risk.parse? (s : Text) : Except UnknownRisk Risk :=
  let spelling := Text.trimBlank s
  match Risk.named.find? fun r => Text.sameLetters r.2 spelling with
  | some (r, _) => .ok r
  | none => .error ⟨spelling⟩

/-- **A set of risks**, one bit per code. -/
structure RiskSet where
  bits : BitVec 8
deriving DecidableEq, Repr, Inhabited

namespace RiskSet

/-- The set without members. -/
def empty : RiskSet := ⟨0⟩

instance : EmptyCollection RiskSet := ⟨empty⟩

/-- The set of the named risks. -/
def all : RiskSet := ⟨0x1f⟩

/-- The set of one risk; empty for a code that has no bit. -/
def singleton (r : Risk) : RiskSet := ⟨1#8 <<< r.code.toNat⟩

/-- The members of either set. -/
def union (s t : RiskSet) : RiskSet := ⟨s.bits ||| t.bits⟩

/-- The members of both sets. -/
def inter (s t : RiskSet) : RiskSet := ⟨s.bits &&& t.bits⟩

/-- The members of the first set that are not in the second. -/
def diff (s t : RiskSet) : RiskSet := ⟨s.bits &&& ~~~ t.bits⟩

/-- The set with a risk added. -/
def insert (s : RiskSet) (r : Risk) : RiskSet := s.union (singleton r)

/-- Membership. -/
def contains (s : RiskSet) (r : Risk) : Bool := s.bits.getLsbD r.code.toNat

/-- The number of members, named or not. -/
def size (s : RiskSet) : Nat := (List.range 8).countP fun i => s.bits.getLsbD i

/-- No member at all. -/
def isEmpty (s : RiskSet) : Bool := s.bits == 0

/-- The set of the risks of a list. -/
def ofList (rs : List Risk) : RiskSet := rs.foldl insert empty

/-- The named members, in the order of their codes. -/
def members (s : RiskSet) : List Risk := (Risk.named.map (·.1)).filter s.contains

/-- The names of the named members, in the order of their codes. -/
def names (s : RiskSet) : List Text := s.members.map Risk.name

/-- The set as text: the names between brackets. -/
def text (s : RiskSet) : Text := "[" ++ Text.intercalate ", " s.names ++ "]"

/-- **The set of a comma separated list of names**; blank elements are skipped, and the first name
that is no risk refuses the list. -/
def parseList? (s : Text) : Except UnknownRisk RiskSet :=
  (s.split (Text.mark ',')).foldlM (fun acc part =>
    if Text.trimBlank part = "" then .ok acc else (Risk.parse? part).map acc.insert) empty

end RiskSet

end PhpAudit
