import PhpAudit.Analysis.Session
import PhpAudit.Config.Basic
import PhpAudit.Report.Json

/-!
# Reports of an analysis

The findings and the unused declarations, as a text for people or as a JSON document. The number of
findings shown can be limited; the text report says how many are not shown.
-/

namespace PhpAudit

/-- At most `limit` findings, all of them unless the limit is positive. -/
def shownFindings (findings : List Finding) (limit : Int) : List Finding :=
  if limit > 0 then findings.take limit.toNat else findings

namespace Finding

/-- A finding as a record. -/
def json (f : Finding) : JsonValue :=
  let optional (key value : Text) : List (Text × JsonValue) :=
    if value = "" then [] else [(key, .text value)]
  let place : List (Text × JsonValue) := [("file", .text f.loc.file), ("line", .int f.loc.line)]
  let danger : List (Text × JsonValue) :=
    [("sink", .text f.sink), ("risks", .texts f.risks.names),
      ("witness", .text (Tree.printOperand f.witness))]
  .object (place ++ optional "class" f.loc.className ++ optional "function" f.loc.function ++ danger)

/-- The three lines of a finding. The witness is written with printable characters only. -/
def lines (f : Finding) : Text :=
  " 💀 " ++ f.sink ++ " at " ++ f.loc.text ++ "\n" ++
  "    risks:   " ++ f.risks.text ++ "\n" ++
  "    witness: " ++ Text.escaped (Tree.printOperand f.witness) ++ "\n"

end Finding

/-- A declaration as a record. -/
def Declaration.json (d : Declaration) : JsonValue :=
  .object [("name", .text d.name), ("kind", .text d.identity.entity.text),
    ("file", .text d.loc.file), ("line", .int d.loc.line)]

namespace Result

/-- The lines about unused declarations. -/
def unusedLines (unused : List Declaration) : Text :=
  toString unused.length ++ " unused declaration(s):\n" ++
    Text.join (unused.map fun d => " - " ++ d.name ++ " at " ++ d.loc.text ++ "\n")

/-- **The report as text.** -/
def textReport (r : Result) (limit : Int) : Text :=
  let shown := shownFindings r.findings limit
  let count : Text := if shown.isEmpty then "No unmitigated risk found.\n"
    else toString shown.length ++ " unmitigated risk(s):\n"
  let more : Text := if r.findings.length > shown.length then
      "(" ++ toString (r.findings.length - shown.length) ++ " more not shown, max-alarms is " ++
        toString limit ++ ")\n"
    else ""
  let unused : Text := if r.unused.isEmpty then "" else unusedLines r.unused
  count ++ Text.join (shown.map Finding.lines) ++ more ++ unused

/-- **The report as JSON.** -/
def jsonReport (r : Result) (limit : Int) : Text := JsonValue.render <| .object [
  ("findings", .list ((shownFindings r.findings limit).map Finding.json)),
  ("unused", .list (r.unused.map Declaration.json))]

/-- **The report** in the format and with the limit of a configuration. -/
def report (r : Result) (c : Config) : Text :=
  match c.format with
  | .json => r.jsonReport c.maxAlarms
  | .text => r.textReport c.maxAlarms

/-- **The report of the unused declarations** alone. -/
def unusedReport (r : Result) (c : Config) : Text :=
  match c.format with
  | .json => { r with findings := [] }.jsonReport 0
  | .text => if r.unused.isEmpty then "No unused declaration found.\n" else unusedLines r.unused

end Result

end PhpAudit
