import PhpAudit.Proofs.Tree.Steps

/-!
# Which documents are trees

A program is read from the positions of its document (`IsReading.program`). So a document whose root is
a mapping is accepted exactly if all its positions are well-formed, and otherwise refused with the fault
of the first that is not. A reading stops at its first fault; the positions are listed as if it went on,
which makes no difference to which of them is the first.
-/

namespace PhpAudit.Tree

open Yaml (Node Convert)
open Element

variable {d : Yaml.Document}

/-- The name of the file is read before it is known. If it is ill-formed the document names no file,
and its fault says so. -/
theorem fault?_file (d : Yaml.Document) : fault? (Context.text ⟨d, "", "", ""⟩ d.root "file") =
    fault? ((contextIn d []).text d.root "file") := by
  unfold Context.text
  rw [Context.fault?_value, Context.fault?_value, contextIn]
  cases h : d.root.field? "file" with
  | none => rfl
  | some v =>
    by_cases null : v.isNull
    · simp [null]
    · cases hr : (Convert.text d v).run with
      | ok t => simp [null, hr]
      | error r =>
        have unnamed : namedFile d = "" := by simp [namedFile, textOf, valueOf, h, null, hr]
        simp [null, hr, unnamed]

namespace IsReading

/-- **A program is read from the positions of its document.** -/
theorem program (mapping : d.root.isMapping = true) :
    IsReading d .unknown (programGrammar.map (.ofRow [] d.root))
      (Program.roots <$> Program.ofDocument d) := by
  have below := readsBelow d d.root
  have file : IsReading d .unknown [.ofRow [] d.root ("file", .text)]
      ((fun _ => []) <$> Context.text ⟨d, "", "", ""⟩ d.root "file") := by
    refine silent (Position.parts_value [] .text) (fun _ _ h => Want.noConfusion h.want) ?_
    rw [fault?_file]
    exact Context.fault?_value_eq (fun _ => rfl) [] "" "" _
  have body : IsReading d .unknown [.ofRow [] d.root ("statements", .stmt)]
      ((fun b : Option Block => [Element.stmt (.block (b.getD (.mk .unknown [])))]) <$>
        (readers d.root).blockOf (contextIn d []) "statements") := by
    refine (block below).regroup (fun b _ z hz => ?_) (fun b _ z hz => ?_)
    · cases b with
      | none => simp at hz
      | some b => exact .here hz
    · cases b with
      | none =>
        obtain rfl | hz := Holds.singleton_iff.1 hz
        · exact .inl rfl
        · exact (Holds.not_nil hz).elim
      | some b => exact .inr (.inr ⟨z, hz, rfl⟩)
  unfold Program.ofDocument
  rw [if_pos mapping, map_bind]
  refine file.first fun name hname => ?_
  obtain rfl := text_eq_ok hname
  have functions : IsReading d .unknown [.ofRow [] d.root ("functions", .list (.node .function))] _ :=
    many "" "" below .function fun _ => Role.read_function _
  have whole := body.andThen (g := fun _ => List.flatMap ofDefinition) fun _ _ => functions
  simp only [map_bind, map_pure, Program.roots, map_filterMap_id]
  simp only [bind_assoc] at whole
  exact whole

end IsReading

/-- A document that is accepted has a mapping for its root. -/
theorem root_isMapping {p : Program} (accepted : Program.ofDocument d = .ok p) :
    d.root.isMapping = true := by
  by_contra other
  simp [Program.ofDocument, other] at accepted

theorem roots_of_ofDocument {p : Program} (accepted : Program.ofDocument d = .ok p) :
    Program.roots <$> Program.ofDocument d = .ok p.roots := by
  rw [accepted]
  rfl

/-- A document fails as its positions do, the first ill-formed one before the others. -/
theorem fault?_ofDocument (mapping : d.root.isMapping = true) :
    fault? (Program.ofDocument d) = firstFault? d (positions d) := by
  rw [← fault?_map Program.roots]
  exact (IsReading.program mapping).fault

/-- **A document is a tree exactly if none of its positions is ill-formed.** If one is, the document is
refused with the fault of the first: its line, and what is wrong with it. -/
theorem document_is_tree_iff_wellFormed (mapping : d.root.isMapping = true) :
    ((∃ p, Program.ofDocument d = .ok p) ↔ ∀ q ∈ positions d, q.WellFormed d) ∧
      ∀ e, Program.ofDocument d = .error e ↔ ∃ before q after, positions d = before ++ q :: after ∧
        (∀ b ∈ before, b.WellFormed d) ∧ q.fault? d = some e := by
  have faults := fault?_ofDocument mapping
  constructor
  · calc (∃ p, Program.ofDocument d = .ok p)
      _ ↔ fault? (Program.ofDocument d) = none := by
        cases Program.ofDocument d <;> simp
      _ ↔ firstFault? d (positions d) = none := by rw [faults]
      _ ↔ ∀ q ∈ positions d, q.WellFormed d := by
        simp only [firstFault?, List.findSome?_eq_none_iff, Position.fault?_eq_none_iff]
  · intro e
    calc Program.ofDocument d = .error e
      _ ↔ fault? (Program.ofDocument d) = some e := by
        cases Program.ofDocument d <;> simp
      _ ↔ firstFault? d (positions d) = some e := by rw [faults]
      _ ↔ _ := by
        simp only [firstFault?, List.findSome?_eq_some_iff, Position.fault?_eq_none_iff]
        constructor
        · rintro ⟨before, q, after, whole, wrong, right⟩
          exact ⟨before, q, after, whole, right, wrong⟩
        · rintro ⟨before, q, after, whole, right, wrong⟩
          exact ⟨before, q, after, whole, wrong, right⟩

/-- A scalar of a document, as text. -/
def wordNode (line : Nat) (word : String) : Node := .scalar line Yaml.Tag.str word

/-- A document with one statement: `echo`, of a binary expression with this operator. -/
def operatorDocument (op : String) : Yaml.Document where
  root := .mapping 1 Yaml.Tag.map [(wordNode 1 "statements", .sequence 1 Yaml.Tag.seq [
    .mapping 2 Yaml.Tag.map [(wordNode 2 "kind", wordNode 2 "echo"),
      (wordNode 3 "expr", .mapping 3 Yaml.Tag.map [(wordNode 3 "kind", wordNode 3 "binary"),
        (wordNode 4 "op", wordNode 4 op)])]])]
  anchored := []

/-- The operator decides: the document is a tree with one that is known, and refused with another,
with the line of the expression. -/
theorem known_operator_is_read_other_is_refused :
    ((operatorDocument "+").root.isMapping = true ∧
      ∃ p, Program.ofDocument (operatorDocument "+") = .ok p) ∧
    ((operatorDocument "?").root.isMapping = true ∧
      Program.ofDocument (operatorDocument "?") =
        .error ⟨"", 3, .unknownBinaryOperator "?"⟩) := by
  refine ⟨⟨rfl, (document_is_tree_iff_wellFormed rfl).1.2 fun q hq => ?_⟩, rfl,
    ((document_is_tree_iff_wellFormed rfl).2 _).2 ?_⟩
  · have none : firstFault? (operatorDocument "+") (positions (operatorDocument "+")) = none := by
      decide +kernel
    exact (q.fault?_eq_none_iff _).1 (List.findSome?_eq_none_iff.1 none q hq)
  · have first : firstFault? (operatorDocument "?") (positions (operatorDocument "?")) =
        some ⟨"", 3, .unknownBinaryOperator "?"⟩ := by
      decide +kernel
    obtain ⟨before, q, after, whole, wrong, right⟩ := List.findSome?_eq_some_iff.1 first
    exact ⟨before, q, after, whole, fun b hb => (b.fault?_eq_none_iff _).1 (right b hb), wrong⟩

end PhpAudit.Tree
