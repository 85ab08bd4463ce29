import PhpAudit.Analysis.Report
import PhpAudit.Proofs.Text.Characters

/-!
# The lines of a report

A report is written line by line: one that counts the findings, three for each finding shown, one more
where some are not shown, and those about unused declarations. What an analysed program can put into
them is the name of a sink, the names in a location, the name of a declaration and a witness. The witness
is escaped; the names are written as they are.

**The law** (`text_report_is_lines_iff`): the report has exactly its lines, and no control characters but
their breaks, when no name in it has control characters, and only then. So a line break in the name of a
file adds a line to the report, whatever that line says (`break_in_file_name_adds_line`).
-/

namespace PhpAudit

open Text (IsPlain IsLines unlines)

/-! ## Names in lines -/

namespace Location

/-- **The names of a location have no control characters**, as far as they are written. -/
def IsPlain (l : Location) : Prop := l.isUnknown = false →
  l.file.controls = [] ∧ l.className.controls = [] ∧ l.function.controls = []

theorem controls_text {l : Location} (known : l.isUnknown = false) :
    l.text.controls = l.file.controls ++ (l.className.controls ++ l.function.controls) := by
  have none : (Text.ofString "").controls = [] := Text.controls_literal rfl
  unfold text
  rw [if_neg (by simp [known])]
  by_cases inClass : l.className = "" <;> by_cases inFunction : l.function = "" <;>
    simp (disch := decide) only [inClass, inFunction, if_true, if_false, Text.append_assoc, none,
      Text.controls_separated, Text.controls_ended, Text.controls_integer, List.append_nil,
      List.nil_append]

theorem controls_text_eq_nil_iff (l : Location) : l.text.controls = [] ↔ l.IsPlain := by
  cases known : l.isUnknown with
  | true =>
    have text : l.text = "<unknown location>" := if_pos known
    rw [text, Text.controls_literal rfl, IsPlain, known]
    simp
  | false =>
    rw [controls_text known, IsPlain, known]
    simp

end Location

theorem Identity.controls_text (i : Identity) : i.text.controls = i.name.controls := by
  obtain ⟨entity, name⟩ := i
  cases entity <;>
    simp (disch := decide) only [text, Text.append_assoc, Text.controls_ended,
      Text.controls_literal_append]

theorem Risk.isPlain_name {r : Risk} (h : r ∈ named.map (·.1)) : IsPlain r.name := by
  have literal {s : String} (h : Text.isLiteral s = true) := Text.isPlain_of_isLiteral h
  simp only [named, List.map_cons, List.map_nil, List.mem_cons, List.not_mem_nil, or_false] at h
  obtain rfl | rfl | rfl | rfl | rfl := h
  · exact literal (s := "SQL_INJECTION") rfl
  · exact literal (s := "COMMAND_INJECTION") rfl
  · exact literal (s := "FILE_INCLUSION") rfl
  · exact literal (s := "XSS") rfl
  · exact literal (s := "CODE_EVALUATION") rfl

theorem RiskSet.isPlain_text (s : RiskSet) : IsPlain s.text := by
  have literal {t : String} (h : Text.isLiteral t = true) := Text.isPlain_of_isLiteral h
  have names : ∀ n ∈ s.names, IsPlain n := by
    intro n hn
    obtain ⟨r, hr, rfl⟩ := List.mem_map.mp hn
    exact Risk.isPlain_name (List.mem_filter.mp hr).1
  exact ((literal rfl).append (Text.isPlain_intercalate (literal rfl) names)).append (literal rfl)

/-! ## Lines -/

namespace Finding

/-- The lines of a finding, without their breaks. -/
def reportLines (f : Finding) : List Text := [
  " 💀 " ++ f.sink ++ " at " ++ f.loc.text,
  "    risks:   " ++ f.risks.text,
  "    witness: " ++ Text.escaped (Tree.printOperand f.witness)]

theorem lines_eq (f : Finding) : f.lines = unlines f.reportLines := by
  simp only [lines, reportLines, Text.unlines_cons, Text.unlines_nil, Text.append_assoc,
    Text.append_empty]

/-- **A finding is written plainly** when the names of its sink and of its location are plain; its risks
and its witness always are. -/
theorem reportLines_plain_iff (f : Finding) : (∀ l ∈ f.reportLines, l.controls = []) ↔
    f.sink.controls = [] ∧ f.loc.IsPlain := by
  have head : (" 💀 " ++ f.sink ++ " at " ++ f.loc.text : Text).controls =
      f.sink.controls ++ f.loc.text.controls := by
    simp (disch := decide) only [Text.append_assoc, Text.controls_literal_append,
      Text.controls_separated]
  have risks : ("    risks:   " ++ f.risks.text : Text).controls = [] := by
    rw [Text.controls_literal_append rfl, f.risks.isPlain_text.controls]
  have witness : ("    witness: " ++ Text.escaped (Tree.printOperand f.witness) : Text).controls = [] := by
    rw [Text.controls_literal_append rfl, (Text.isPlain_escaped _).controls]
  rw [reportLines, ← Location.controls_text_eq_nil_iff]
  simp only [List.forall_mem_cons, head, risks, witness, List.append_eq_nil_iff]
  simp

end Finding

namespace Declaration

/-- The line of an unused declaration, without its break. -/
def reportLine (d : Declaration) : Text := " - " ++ d.name ++ " at " ++ d.loc.text

theorem reportLine_plain_iff (d : Declaration) : d.reportLine.controls = [] ↔
    d.identity.name.controls = [] ∧ d.loc.IsPlain := by
  have line : d.reportLine.controls = d.name.controls ++ d.loc.text.controls := by
    simp (disch := decide) only [reportLine, Text.append_assoc, Text.controls_literal_append,
      Text.controls_separated]
  rw [line, List.append_eq_nil_iff, name, Identity.controls_text, Location.controls_text_eq_nil_iff]

end Declaration

namespace Result

variable (r : Result) (limit : Int)

/-- The line that counts the findings shown. -/
def countLine : Text :=
  if (shownFindings r.findings limit).isEmpty then "No unmitigated risk found."
  else toString (shownFindings r.findings limit).length ++ " unmitigated risk(s):"

/-- The line about the findings that are not shown, if there are any. -/
def moreLines : List Text :=
  let shown := shownFindings r.findings limit
  if r.findings.length > shown.length then
    ["(" ++ toString (r.findings.length - shown.length) ++ " more not shown, max-alarms is " ++
      toString limit ++ ")"]
  else []

/-- The lines about unused declarations, if there are any. -/
def unusedReportLines : List Text :=
  if r.unused.isEmpty then []
  else (toString r.unused.length ++ " unused declaration(s):") :: r.unused.map Declaration.reportLine

/-- **The lines of a report**, without their breaks. -/
def reportLines : List Text :=
  r.countLine limit :: (shownFindings r.findings limit).flatMap Finding.reportLines ++
    r.moreLines limit ++ r.unusedReportLines

theorem count_eq :
    (if (shownFindings r.findings limit).isEmpty then ("No unmitigated risk found.\n" : Text)
      else toString (shownFindings r.findings limit).length ++ " unmitigated risk(s):\n") =
    r.countLine limit ++ "\n" := by
  unfold countLine
  split
  · rfl
  · rw [Text.append_assoc]
    rfl

theorem more_eq : (if r.findings.length > (shownFindings r.findings limit).length then
      ("(" ++ toString (r.findings.length - (shownFindings r.findings limit).length) ++
        " more not shown, max-alarms is " ++ toString limit ++ ")\n" : Text)
      else "") = unlines (r.moreLines limit) := by
  unfold moreLines
  dsimp only
  split
  · rw [Text.unlines_cons, Text.unlines_nil, Text.append_empty]
    simp only [Text.append_assoc]
    rfl
  · rfl

theorem unusedLines_eq : (if r.unused.isEmpty then ("" : Text) else unusedLines r.unused) =
    unlines r.unusedReportLines := by
  unfold unusedReportLines
  split
  · rfl
  · have title : (" unused declaration(s):\n" : Text) = " unused declaration(s):" ++ "\n" := rfl
    have lines : unlines (r.unused.map Declaration.reportLine) =
        Text.join (r.unused.map fun d => " - " ++ d.name ++ " at " ++ d.loc.text ++ "\n") :=
      congrArg Text.join List.map_map
    rw [Text.unlines_cons, unusedLines, title, lines]
    simp only [Text.append_assoc]

/-- **A report is its lines**, each with a break at its end. -/
theorem textReport_eq : r.textReport limit = unlines (r.reportLines limit) := by
  have findings : Text.join ((shownFindings r.findings limit).map Finding.lines) =
      unlines ((shownFindings r.findings limit).flatMap Finding.reportLines) := by
    rw [Text.unlines_flatMap, funext Finding.lines_eq]
  unfold textReport
  dsimp only
  rw [count_eq, findings, more_eq, unusedLines_eq, reportLines, Text.unlines_append,
    Text.unlines_append, Text.unlines_cons]

theorem length_flatMap_reportLines (fs : List Finding) :
    (fs.flatMap Finding.reportLines).length = 3 * fs.length := by
  induction fs with
  | nil => rfl
  | cons f fs ih =>
    have own : f.reportLines.length = 3 := rfl
    rw [List.flatMap_cons, List.length_append, own, ih, List.length_cons]
    omega

theorem length_moreLines : (r.moreLines limit).length =
    if r.findings.length > (shownFindings r.findings limit).length then 1 else 0 := by
  unfold moreLines
  dsimp only
  split <;> rfl

theorem length_unusedReportLines :
    r.unusedReportLines.length = if r.unused.isEmpty then 0 else 1 + r.unused.length := by
  unfold unusedReportLines
  split
  · rfl
  · rw [List.length_cons, List.length_map, Nat.add_comm]

/-- **The number of lines of a report.** -/
theorem length_reportLines : (r.reportLines limit).length =
    1 + 3 * (shownFindings r.findings limit).length +
      (if r.findings.length > (shownFindings r.findings limit).length then 1 else 0) +
      (if r.unused.isEmpty then 0 else 1 + r.unused.length) := by
  rw [reportLines, List.length_append, List.length_append, List.length_cons,
    length_flatMap_reportLines, length_moreLines, length_unusedReportLines]
  omega

theorem controls_countLine : (r.countLine limit).controls = [] := by
  unfold countLine
  split
  · exact Text.controls_literal rfl
  · rw [(Text.isPlain_natural _).controls_append, Text.controls_literal rfl]

theorem controls_moreLines : ∀ l ∈ r.moreLines limit, l.controls = [] := by
  unfold moreLines
  dsimp only
  split
  · simp (disch := decide) only [List.forall_mem_singleton, Text.append_assoc,
      Text.controls_literal_append, Text.controls_separated, Text.controls_ended,
      Text.controls_integer, (Text.isPlain_natural _).controls, List.append_nil]
  · exact List.forall_mem_nil _

theorem unusedReportLines_plain_iff : (∀ l ∈ r.unusedReportLines, l.controls = []) ↔
    ∀ d ∈ r.unused, d.identity.name.controls = [] ∧ d.loc.IsPlain := by
  have title (n : Nat) : (toString n ++ " unused declaration(s):" : Text).controls = [] := by
    rw [(Text.isPlain_natural n).controls_append, Text.controls_literal rfl]
  unfold unusedReportLines
  split
  · next none =>
    rw [List.isEmpty_iff.mp none]
    simp
  · simp only [List.forall_mem_cons, title, true_and, List.forall_mem_map,
      Declaration.reportLine_plain_iff]

/-- **The lines of a report are plain** when the names in it are. -/
theorem reportLines_plain_iff : (∀ l ∈ r.reportLines limit, l.controls = []) ↔
    (∀ f ∈ shownFindings r.findings limit, f.sink.controls = [] ∧ f.loc.IsPlain) ∧
      ∀ d ∈ r.unused, d.identity.name.controls = [] ∧ d.loc.IsPlain := by
  have findings (fs : List Finding) : (∀ l ∈ fs.flatMap Finding.reportLines, l.controls = []) ↔
      ∀ f ∈ fs, f.sink.controls = [] ∧ f.loc.IsPlain := by
    simp only [← Finding.reportLines_plain_iff, List.mem_flatMap]
    exact ⟨fun h f hf l hl => h l ⟨f, hf, hl⟩, fun h l ⟨f, hf, hl⟩ => h f hf l hl⟩
  simp only [reportLines, List.cons_append, List.forall_mem_cons, List.forall_mem_append,
    r.controls_countLine limit, findings, r.unusedReportLines_plain_iff, true_and]
  exact and_congr_left fun _ => and_iff_left (r.controls_moreLines limit)

end Result

/-- As many findings are shown as there are, or as the limit allows. -/
theorem length_shownFindings (findings : List Finding) (limit : Int) :
    (shownFindings findings limit).length =
      if limit ≤ 0 then findings.length else min findings.length limit.toNat := by
  unfold shownFindings
  split <;> split
  · omega
  · rw [List.length_take, Nat.min_comm]
  · rfl
  · omega

/-- **A report has exactly its lines**, and no control character but their breaks, when the names that it
shows have none: those of sinks and of unused declarations, and the file, class and function of known
locations. Whatever the witnesses are, they add nothing. One control character in one of these names, and
the report has other lines, or a control character within a line. -/
theorem text_report_is_lines_iff (r : Result) (limit : Int) :
    let shown := shownFindings r.findings limit
    shown.length = (if limit ≤ 0 then r.findings.length else min r.findings.length limit.toNat) ∧
    (IsLines (1 + 3 * shown.length + (if r.findings.length > shown.length then 1 else 0) +
        (if r.unused.isEmpty then 0 else 1 + r.unused.length)) (r.textReport limit) ↔
      (∀ f ∈ shown, f.sink.controls = [] ∧ f.loc.IsPlain) ∧
        ∀ d ∈ r.unused, d.identity.name.controls = [] ∧ d.loc.IsPlain) := by
  intro shown
  refine ⟨length_shownFindings r.findings limit, ?_⟩
  rw [← r.length_reportLines limit, r.textReport_eq, Text.isLines_iff, r.reportLines_plain_iff]

/-- A finding in a file whose name holds a line of a report. -/
def forgedResult : Result where
  findings := [⟨⟨"a.php:1\nNo unmitigated risk found.", 1, "", ""⟩, "echo", ⟨0x08⟩, none⟩]
  unused := []
  includes := []

/-- The name adds a line, and the report of one finding says that there is none. -/
theorem break_in_file_name_adds_line :
    ¬ IsLines 4 (forgedResult.textReport 0) ∧
      ("No unmitigated risk found.:1" : Text) ∈
        (forgedResult.textReport 0).split Text.lineBreak := by
  have five : ((forgedResult.textReport 0).split Text.lineBreak).length = 5 + 1 := by
    decide +kernel
  refine ⟨?_, by decide +kernel⟩
  rintro ⟨lines, four, split, -⟩
  rw [split, List.length_append, four] at five
  exact absurd five (by decide)

end PhpAudit
