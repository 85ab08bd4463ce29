import PhpAudit.Proofs.Tree.Acceptance

/-!
# Locations follow the records around

Every mapping of an accepted document that describes an expression, a statement, a function or a class
is read in the context that its path stands for, and nothing else of the document has a say in it: what
stands before it, or in other records, does not. So its location is the one it asks for (`locationIn`),
with the class and the function of the records around it where it names none.

A function record has a class in two cases: as a member of a class that has a name, and, where no class
with a name is around, by naming one. A function inside of a method is of no class.
-/

namespace PhpAudit.Tree

open Yaml (Node)
open Element

variable {d : Yaml.Document} {n : Node} {path : Path}

/-! ## Members -/

/-- **What is kept from a position to those directly below it holds of everything visited.** -/
theorem Position.forall_visited {P : Position → Prop}
    (step : ∀ q, P q → ∀ p ∈ q.parts d, P p) (q : Position) (start : P q) :
    ∀ p ∈ q.visited d, P p := by
  intro p hp
  rw [q.visited_eq, List.mem_cons] at hp
  obtain rfl | hp := hp
  · exact start
  · obtain ⟨c, hc, hp⟩ := List.mem_flatMap.1 hp
    exact forall_visited step c (step q start c hc) p hp
termination_by q.size
decreasing_by exact Position.size_lt_of_mem_parts d hc

/-- A member is wanted, or a list of members. -/
def Want.ofMembers : Want → Bool
  | .node .member => true
  | .list w => w.ofMembers
  | _ => false

theorem Want.not_ofMembers_of_isField {w : Want} (field : w.isField = true) :
    w.ofMembers = false := by
  unfold Want.isField at field
  split at field <;> first | rfl | cases field

theorem not_ofMembers_of_mem_locationRows {row : Row} (h : row ∈ locationRows d n) :
    row.2.ofMembers = false := by
  unfold locationRows at h
  split at h <;> simp only [List.mem_cons, List.not_mem_nil, or_false] at h
  · rw [h]
    rfl
  · obtain rfl | rfl | rfl := h <;> rfl

theorem not_ofMembers_of_mem_exprRows {row : Row} (h : row ∈ exprRows d n) :
    row.2.ofMembers = false := by
  unfold exprRows at h
  split at h
  · rw [List.mem_singleton.1 h]
    rfl
  · cases found : exprGrammar.lookup (textOf d n "kind") with
    | none => simp [found] at h
    | some rows =>
      rw [found] at h
      exact Want.not_ofMembers_of_isField (isField_of_lookup (by decide) found row h)

theorem not_ofMembers_of_mem_stmtRows {row : Row} (h : row ∈ stmtRows d n) :
    row.2.ofMembers = false := by
  unfold stmtRows at h
  cases found : stmtGrammar.lookup (textOf d n "kind") with
  | none => simp [found] at h
  | some rows =>
    rw [found] at h
    exact Want.not_ofMembers_of_isField (isField_of_lookup (by decide) found row h)

/-- Members are listed in class records only. -/
theorem eq_classRecord_of_ofMembers {r : Role} {row : Row} (h : row ∈ r.rows d path n)
    (members : row.2.ofMembers = true) : r = .classRecord := by
  have leaf {rows : List Row} (plain : ∀ row ∈ rows, row.2.ofMembers = false) : row ∉ rows :=
    fun h => by simp [plain row h] at members
  cases r with
  | classRecord => rfl
  | expression =>
    refine (leaf (fun row h => ?_) h).elim
    simp only [Role.rows, List.mem_cons, List.mem_append] at h
    obtain rfl | h | rfl | h := h
    · rfl
    · exact not_ofMembers_of_mem_locationRows h
    · rfl
    · exact not_ofMembers_of_mem_exprRows h
  | statement =>
    refine (leaf (fun row h => ?_) h).elim
    simp only [Role.rows, List.mem_cons, List.mem_append] at h
    obtain rfl | h | rfl | h := h
    · rfl
    · exact not_ofMembers_of_mem_locationRows h
    · rfl
    · exact not_ofMembers_of_mem_stmtRows h
  | function | member =>
    refine (leaf (fun row h => ?_) h).elim
    simp only [Role.rows, List.mem_append, List.mem_cons, List.not_mem_nil, or_false] at h
    obtain ((h | rfl | rfl | rfl | rfl) | h) | rfl | rfl := h
    · split at h
      · rw [List.mem_singleton.1 h]
        rfl
      · simp at h
    · rfl
    · rfl
    · rfl
    · rfl
    · exact not_ofMembers_of_mem_locationRows h
    · rfl
    · rfl

/-- Where members are wanted, the innermost record is a class record. -/
def Position.InClass (q : Position) : Prop :=
  q.want.ofMembers = true → ∃ record outer, q.path = .classRecord record :: outer

theorem Position.InClass.parts {q : Position} (h : q.InClass) : ∀ p ∈ q.parts d, p.InClass := by
  intro p hp members
  cases hn : q.node with
  | none => simp [Position.parts, hn] at hp
  | some n =>
    have rows {path : Path} {rs : List Row} (hp : p ∈ rs.map (ofRow path n)) :
        ∃ row ∈ rs, row.2.ofMembers = true ∧ p.path = path := by
      obtain ⟨row, hrow, rfl⟩ := List.mem_map.1 hp
      exact ⟨row, hrow, members, rfl⟩
    simp only [Position.parts, hn] at hp
    cases hw : q.want with
    | value t => simp [hw] at hp
    | word ws => simp [hw] at hp
    | node r =>
      simp only [hw] at hp
      split at hp
      · obtain ⟨row, hrow, members, hpath⟩ := rows hp
        obtain rfl := eq_classRecord_of_ofMembers hrow members
        exact ⟨n, q.path, hpath⟩
      · split at hp
        · obtain ⟨c, -, rfl⟩ := List.mem_map.1 hp
          cases members
        · simp at hp
    | list w =>
      simp only [hw] at hp
      obtain ⟨c, -, rfl⟩ := List.mem_map.1 hp
      exact h (by rw [hw]; exact members)
    | targets =>
      simp only [hw] at hp
      split at hp
      · simp at hp
      · split at hp
        · obtain ⟨c, -, rfl⟩ := List.mem_map.1 hp
          cases members
        · simp only [List.mem_cons, List.not_mem_nil, or_false] at hp
          obtain rfl | rfl := hp <;> cases members
    | item | case | handler | param =>
      simp only [hw] at hp
      obtain ⟨row, hrow, members, -⟩ := rows hp
      simp only [List.mem_cons, List.not_mem_nil, or_false] at hrow
      obtain rfl | rfl | rfl := hrow <;> cases members

/-- **A member of a document is listed in a class record.** -/
theorem exists_class_of_member {q : Position} (hq : q ∈ positions d) (h : q.Describes .member n) :
    ∃ record outer, q.path = .classRecord record :: outer := by
  obtain ⟨start, hstart, hq⟩ := List.mem_flatMap.1 hq
  obtain ⟨row, hrow, rfl⟩ := List.mem_map.1 hstart
  have inClass : (Position.ofRow [] d.root row).InClass := fun members => by
    simp only [programGrammar, List.mem_cons, List.not_mem_nil, or_false] at hrow
    obtain rfl | rfl | rfl := hrow <;> cases members
  exact Position.forall_visited (fun _ h => h.parts) _ inClass q hq (by rw [h.want]; rfl)

/-! ## The class of a function -/

/-- What is read as a function record has the role of one. -/
theorem record_of_read {ctx : Context} {r : Role} {f : Function}
    (done : r.read ctx n = .ok (some (.function f))) : r = .function ∨ r = .member := by
  cases r with
  | function => exact .inl rfl
  | member => exact .inr rfl
  | expression | statement | classRecord =>
    obtain ⟨o, -, h⟩ := map_eq_ok_iff.1 done
    cases o <;> cases h

/-- The class of a function record, within some records. -/
theorem className_of_read {r : Role} {f : Function} (mapping : n.isMapping = true)
    (done : r.read (contextIn d path) n = .ok (some (.function f))) :
    f.head.className = if classAround d path = "" then textOf d n "class"
      else r.memberOf (contextIn d path) := by
  rw [Role.read_record_mapping _ (record_of_read done) mapping] at done
  obtain ⟨owner, howner, done⟩ := bind_eq_ok_iff.1 done
  obtain ⟨given, -, done⟩ := bind_eq_ok_iff.1 done
  obtain ⟨_, -, done⟩ := bind_eq_ok_iff.1 done
  obtain ⟨_, -, done⟩ := bind_eq_ok_iff.1 done
  obtain ⟨_, -, done⟩ := bind_eq_ok_iff.1 done
  obtain ⟨_, -, done⟩ := bind_eq_ok_iff.1 done
  obtain ⟨_, -, done⟩ := bind_eq_ok_iff.1 done
  obtain ⟨_, -, done⟩ := bind_eq_ok_iff.1 done
  obtain rfl := Element.function.inj (Option.some.inj (Except.ok.inj done))
  exact ownerOf_eq howner

/-- A function record has a class exactly as a member of a class with a name, or where it names one
itself in no class or in one without a name. -/
theorem className_ne_empty_iff {q : Position} {r : Role} {f : Function} (hq : q ∈ positions d)
    (here : q.Describes r n) (done : r.read (contextIn d q.path) n = .ok (some (.function f))) :
    f.head.className ≠ "" ↔
      (r = .member ∧ ∃ record outer, q.path = .classRecord record :: outer ∧
        textOf d record "name" ≠ "") ∨
      (classAround d q.path = "" ∧ textOf d n "class" ≠ "") := by
  rw [className_of_read here.isMapping done]
  obtain rfl | rfl := record_of_read done
  · by_cases alone : classAround d q.path = "" <;> simp [alone, Role.memberOf]
  · obtain ⟨record, outer, hpath⟩ := exists_class_of_member hq here
    have around : classAround d q.path = textOf d record "name" := by rw [hpath, classAround]
    have named : (∃ record outer, q.path = .classRecord record :: outer ∧
        textOf d record "name" ≠ "") ↔ classAround d q.path ≠ "" := by
      constructor
      · rintro ⟨record, outer, h, named⟩
        rwa [h, classAround]
      · intro named
        exact ⟨record, outer, hpath, around ▸ named⟩
    rw [named]
    by_cases alone : classAround d q.path = "" <;> simp [alone, Role.memberOf, contextIn]

/-- **Locations follow the records around.** Whatever a mapping of an accepted document describes is
read in the context of the records around it, is part of the program, and is placed where the mapping
asks for. A function record has a class exactly as a direct member of a class with a name, or where it
names one itself and there is no class around. -/
theorem locations_follow_records {p : Program} (accepted : Program.ofDocument d = .ok p) :
    ∀ q ∈ positions d, ∀ r n, q.Describes r n →
      ∃ z, r.read (contextIn d q.path) n = .ok (some z) ∧ Holds p.roots z ∧
        z.loc = locationIn d (r.scope q.path n) n ∧
        ∀ f, z = .function f → (f.head.className ≠ "" ↔
          (r = .member ∧ ∃ record outer, q.path = .classRecord record :: outer ∧
            textOf d record "name" ≠ "") ∨
          (classAround d q.path = "" ∧ textOf d n "class" ≠ "")) := by
  intro q hq r n here
  have whole := IsReading.program (root_isMapping accepted)
  obtain ⟨z, hz, holds⟩ := whole.held _ (roots_of_ofDocument accepted) q hq r n here
  obtain ⟨z', same, loc⟩ := exists_of_read here.isMapping hz
  obtain rfl := Option.some.inj same
  refine ⟨z, hz, holds, loc, ?_⟩
  rintro f rfl
  exact className_ne_empty_iff hq here hz

/-- A document with a class `A`, whose method `f` has a statement that names the class `B`, and another
statement after the class. -/
def overrideDocument : Yaml.Document where
  root := .mapping 1 Yaml.Tag.map [(wordNode 1 "file", wordNode 1 "a.php"),
    (wordNode 1 "statements", .sequence 1 Yaml.Tag.seq [
      .mapping 2 Yaml.Tag.map [(wordNode 2 "kind", wordNode 2 "class_def"),
        (wordNode 2 "definition", .mapping 2 Yaml.Tag.map [(wordNode 2 "name", wordNode 2 "A"),
          (wordNode 2 "functions", .sequence 2 Yaml.Tag.seq [
            .mapping 3 Yaml.Tag.map [(wordNode 3 "name", wordNode 3 "f"),
              (wordNode 3 "body", .mapping 4 Yaml.Tag.map [(wordNode 4 "kind", wordNode 4 "echo"),
                (wordNode 4 "line", .scalar 4 Yaml.Tag.int "3"),
                (wordNode 4 "class", wordNode 4 "B")])]])])],
      .mapping 5 Yaml.Tag.map [(wordNode 5 "kind", wordNode 5 "echo"),
        (wordNode 5 "line", .scalar 5 Yaml.Tag.int "4")]])]
  anchored := []

/-- The statement in the method is placed in the class it names and in the method, the statement after
the class in neither. -/
theorem override_stays_in_its_statement : ∃ p, Program.ofDocument overrideDocument = .ok p ∧
    (∃ z, Holds p.roots z ∧ z.loc = ⟨"a.php", 3, "B", "f"⟩) ∧
    ∃ z, Holds p.roots z ∧ z.loc = ⟨"a.php", 4, "", ""⟩ := by
  have sound : fault? (Program.ofDocument overrideDocument) = none := by decide +kernel
  have asked (l : Location) (found : (positions overrideDocument).any (fun q => q.node.any fun n =>
      decide (q.want = .stmt) && n.isMapping && decide (locationIn overrideDocument q.path n = l))) :
      ∃ q ∈ positions overrideDocument, ∃ n, q.Describes .statement n ∧
        locationIn overrideDocument q.path n = l := by
    obtain ⟨q, hq, found⟩ := List.any_eq_true.1 found
    obtain ⟨n, hn, found⟩ := (Option.any_eq_true ..).1 found
    simp only [Bool.and_eq_true, decide_eq_true_eq] at found
    exact ⟨q, hq, n, ⟨found.1.1, hn, found.1.2⟩, found.2⟩
  cases accepted : Program.ofDocument overrideDocument with
  | error e => simp [accepted] at sound
  | ok p =>
    refine ⟨p, rfl, ?_, ?_⟩
    · obtain ⟨q, hq, n, here, loc⟩ := asked ⟨"a.php", 3, "B", "f"⟩ (by decide +kernel)
      obtain ⟨z, -, holds, hz, -⟩ := locations_follow_records accepted q hq .statement n here
      exact ⟨z, holds, hz.trans loc⟩
    · obtain ⟨q, hq, n, here, loc⟩ := asked ⟨"a.php", 4, "", ""⟩ (by decide +kernel)
      obtain ⟨z, -, holds, hz, -⟩ := locations_follow_records accepted q hq .statement n here
      exact ⟨z, holds, hz.trans loc⟩

end PhpAudit.Tree
