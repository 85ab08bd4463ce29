import PhpAudit.Analysis.Catalog
import PhpAudit.Proofs.Taint.Order
import PhpAudit.Proofs.Text.Blank

/-!
# Names of risks and lists of them

A text names a risk when it is the name of that risk in some letter case, with white space around it
(`Risk.IsNamedBy`); a list names the risks that are named between its commas (`Risk.IsListedIn`).

**The laws.** A name is read as the risk it names, and what names no risk is refused
(`Risk.parse?_eq_ok_iff`). A list that is accepted is read as the set of the risks it names
(`RiskSet.isOf_of_parseList?`). A table that is accepted has an entry for each of its names and for no
other, with the set of the list of the name (`Catalog.lookup_parseTable`).
-/

namespace PhpAudit

open Text (isBlank isWordChar ofChars foldChar sameLetters trimBlank)

/-- **A text names a risk**: the name of the risk in some letter case, with white space around it. -/
def Risk.IsNamedBy (r : Risk) (t : Text) : Prop :=
  ∃ name core, ∃ before after : List Char, (r, name) ∈ Risk.named ∧ Text.SpelledAs name core ∧
    (∀ c ∈ before ++ after, isBlank c = true) ∧ t = ofChars before ++ core ++ ofChars after

/-- **One of some texts names a risk.** -/
def Risk.IsNamedAmong (r : Risk) (names : List Text) : Prop := ∃ name ∈ names, r.IsNamedBy name

/-- **A comma separated list names a risk** in one of its parts. -/
def Risk.IsListedIn (r : Risk) (list : Text) : Prop := r.IsNamedAmong (list.split (Text.mark ','))

/-- **The set of a list** has the risks that the list names, and no other. -/
def RiskSet.IsOf (list : Text) (s : RiskSet) : Prop :=
  ∀ r, s.contains r = true ↔ r.IsListedIn list

namespace Risk

variable {r r' : Risk} {t name : Text}

/-- The names are words without white space. -/
theorem named_words : ∀ e ∈ named, e.2.shown ≠ [] ∧
    ∀ w ∈ e.2.shown, isWordChar w = true ∧ isBlank w = false := by
  have words : ∀ e ∈ named, e.2.shown ≠ [] ∧
      (e.2.shown.all fun w => isWordChar w && !isBlank w) = true := by
    decide +kernel
  simpa only [List.all_eq_true, Bool.and_eq_true, Bool.not_eq_true'] using words

/-- No two names are the same in any letter case. -/
theorem named_apart : ∀ e ∈ named, ∀ e' ∈ named,
    e.2.shown.map foldChar = e'.2.shown.map foldChar → e = e' := by
  decide +kernel

theorem sameLetters_name_iff (h : (r, name) ∈ named) :
    sameLetters name t = true ↔ Text.SpelledAs name t :=
  Text.sameLetters_ascii_iff (fun w hw => ((named_words _ h).2 w hw).1) t

/-- A text is a spelling of one name at most. -/
theorem eq_of_sameLetters {name' : Text} (h : (r, name) ∈ named) (h' : (r', name') ∈ named)
    (same : sameLetters name t = true) (same' : sameLetters name' t = true) : r = r' := by
  rw [sameLetters, beq_iff_eq] at same same'
  exact (Prod.mk.inj (named_apart _ h _ h' (same.trans same'.symm))).1

/-- The spelling of a name is a text without white space. -/
theorem visible_of_spelledAs {word letters : List Char}
    (visible : ∀ w ∈ word, isWordChar w = true ∧ isBlank w = false)
    (spelled : List.Forall₂ Text.IsCaseOf word letters) : ∀ c ∈ letters, isBlank c = false := by
  induction spelled with
  | nil => exact List.forall_mem_nil _
  | cons stands _ ih =>
    obtain ⟨⟨word, first⟩, visible⟩ := List.forall_mem_cons.mp visible
    exact List.forall_mem_cons.mpr ⟨(Text.isBlank_of_isCaseOf word stands).trans first, ih visible⟩

/-- The white space around a spelling of a name is what is trimmed. -/
theorem trimBlank_of_spelledAs {core : Text} {before after : List Char} (h : (r, name) ∈ named)
    (spelled : Text.SpelledAs name core) (blank : ∀ c ∈ before ++ after, isBlank c = true) :
    trimBlank (ofChars before ++ core ++ ofChars after) = core := by
  obtain ⟨letters, rfl, spelled⟩ := spelled
  obtain ⟨some, visible⟩ := named_words _ h
  rw [← Text.ofChars_append, ← Text.ofChars_append]
  refine Text.trimBlank_ofChars blank ?_ (visible_of_spelledAs visible spelled)
  rintro rfl
  exact some (List.forall₂_nil_right_iff.mp spelled)

/-- **A text is read as the risk that it names**, and refused when it names none. -/
theorem parse?_eq_ok_iff : parse? t = .ok r ↔ r.IsNamedBy t := by
  rw [parse?]
  constructor
  · intro h
    cases found : named.find? fun e : Risk × Text => sameLetters e.2 (trimBlank t) with
    | none =>
      rw [found] at h
      cases h
    | some e =>
      rw [found] at h
      obtain ⟨r', name⟩ := e
      obtain rfl := Except.ok.inj h
      have member := List.mem_of_find?_eq_some found
      have same := List.find?_some (p := fun e : Risk × Text => sameLetters e.2 (trimBlank t)) found
      obtain ⟨before, after, blank, around⟩ := Text.exists_around_trimBlank t
      exact ⟨name, trimBlank t, before, after, member, (sameLetters_name_iff member).mp same, blank,
        around⟩
  · rintro ⟨name, core, before, after, member, spelled, blank, rfl⟩
    rw [trimBlank_of_spelledAs member spelled blank]
    have same := (sameLetters_name_iff member).mpr spelled
    cases found : named.find? fun e : Risk × Text => sameLetters e.2 core with
    | none => exact absurd same (List.find?_eq_none.mp found _ member)
    | some e =>
      have first := List.find?_some (p := fun e : Risk × Text => sameLetters e.2 core) found
      have listed := List.mem_of_find?_eq_some found
      exact congrArg Except.ok (eq_of_sameLetters listed member first same)

instance (r : Risk) (t : Text) : Decidable (r.IsNamedBy t) :=
  decidable_of_iff (parse? t = .ok r) parse?_eq_ok_iff

instance (r : Risk) (names : List Text) : Decidable (r.IsNamedAmong names) :=
  inferInstanceAs (Decidable (∃ name ∈ names, r.IsNamedBy name))

/-- A risk that is named has a bit. -/
theorem IsNamedBy.code_lt (h : r.IsNamedBy t) : r.code.toNat < 8 := by
  obtain ⟨name, -, -, -, member, -⟩ := h
  have small : ∀ e ∈ named, e.1.code.toNat < 8 := by decide
  exact small _ member

end Risk

namespace RiskSet

variable {s : RiskSet} {r r' : Risk} {list : Text}

theorem contains_singleton (small : r.code.toNat < 8) :
    (singleton r).contains r' = true ↔ r' = r := by
  have bits : (singleton r).contains r' = true ↔ r'.code.toNat = r.code.toNat := by
    simp only [contains, singleton, BitVec.getLsbD_shiftLeft, BitVec.getLsbD_one, Bool.and_eq_true,
      Bool.not_eq_true', decide_eq_true_eq, decide_eq_false_iff_not]
    omega
  rw [bits, UInt8.toNat_inj]
  exact ⟨fun same => congrArg Risk.mk same, congrArg Risk.code⟩

theorem contains_insert (small : r.code.toNat < 8) :
    (s.insert r).contains r' = true ↔ s.contains r' = true ∨ r' = r := by
  rw [insert, contains_union, Bool.or_eq_true, contains_singleton small]

/-- The set of a list has the members of the list. -/
theorem contains_ofList {rs : List Risk} (small : ∀ r ∈ rs, r.code.toNat < 8) :
    (ofList rs).contains r = true ↔ r ∈ rs := by
  suffices all : ∀ s : RiskSet, (rs.foldl insert s).contains r = true ↔ s.contains r = true ∨ r ∈ rs by
    rw [ofList, all, show (empty : RiskSet).contains r = false from contains_empty r]
    simp
  induction rs with
  | nil => simp
  | cons r₀ rs ih =>
    intro s
    obtain ⟨first, small⟩ := List.forall_mem_cons.mp small
    rw [List.foldl_cons, ih small, contains_insert first, List.mem_cons, or_assoc]

/-- The set of all risks has the named ones. -/
theorem contains_all : all.contains r = true ↔ ∃ name, (r, name) ∈ Risk.named := by
  have bits : ∀ n < 8, (all.contains ⟨UInt8.ofNat n⟩ = true ↔
      (⟨UInt8.ofNat n⟩ : Risk) ∈ Risk.named.map (·.1)) := by decide
  have listed : (∃ name, (r, name) ∈ Risk.named) ↔ r ∈ Risk.named.map (·.1) := by simp
  rw [listed]
  by_cases small : r.code.toNat < 8
  · have own := bits r.code.toNat small
    rwa [UInt8.ofNat_toNat] at own
  · have out : ∀ r ∈ Risk.named.map (·.1), r.code.toNat < 8 := by decide
    rw [contains, BitVec.getLsbD_of_ge _ _ (Nat.le_of_not_lt small)]
    exact iff_of_false Bool.false_ne_true fun h => small (out r h)

/-! ## Lists -/

/-- One part of a list, as it is read. -/
def addPart (s : RiskSet) (part : Text) : Except UnknownRisk RiskSet :=
  if trimBlank part = "" then .ok s else (Risk.parse? part).map s.insert

/-- A blank names no risk. -/
theorem not_isNamedBy_of_blank {part : Text} (blank : trimBlank part = "") : ¬ r.IsNamedBy part := by
  have none : Risk.named.find? (fun e => sameLetters e.2 "") = none := by decide +kernel
  rw [← Risk.parse?_eq_ok_iff, Risk.parse?, blank, none]
  exact fun h => by cases h

/-- Reading a part adds the risk that it names. -/
theorem contains_of_addPart {part : Text} {s' : RiskSet} (h : addPart s part = .ok s') :
    s'.contains r = true ↔ s.contains r = true ∨ r.IsNamedBy part := by
  unfold addPart at h
  split at h
  · next blank =>
    obtain rfl := Except.ok.inj h
    exact (or_iff_left (not_isNamedBy_of_blank blank)).symm
  · cases read : Risk.parse? part with
    | error e =>
      rw [read] at h
      cases h
    | ok r₀ =>
      rw [read] at h
      obtain rfl := Except.ok.inj h
      have named := Risk.parse?_eq_ok_iff.mp read
      rw [contains_insert named.code_lt, ← Risk.parse?_eq_ok_iff, read, Except.ok.injEq,
        eq_comm (a := r)]

/-- **A list is read as the set of the risks that it names.** -/
theorem isOf_of_parseList? (h : parseList? list = .ok s) : IsOf list s := by
  intro r
  suffices parts : ∀ (ps : List Text) (s₀ : RiskSet), ps.foldlM addPart s₀ = .ok s →
      (s.contains r = true ↔ s₀.contains r = true ∨ r.IsNamedAmong ps) by
    rw [parts _ _ h, show (empty : RiskSet).contains r = false from contains_empty r]
    exact or_iff_right Bool.false_ne_true
  intro ps
  induction ps with
  | nil =>
    intro s₀ h
    obtain rfl := Except.ok.inj h
    simp [Risk.IsNamedAmong]
  | cons part ps ih =>
    intro s₀ h
    rw [List.foldlM_cons] at h
    cases first : addPart s₀ part with
    | error e =>
      rw [first] at h
      cases h
    | ok s₁ =>
      rw [first] at h
      rw [ih s₁ h, contains_of_addPart first, Risk.IsNamedAmong, Risk.IsNamedAmong,
        List.exists_mem_cons_iff, or_assoc]

end RiskSet

namespace Catalog

variable {table : List (Text × Text)} {read : List (Text × RiskSet)}

/-- A table is read entry by entry. -/
theorem parseTable_cons_eq_ok_iff {e : Text × Text} : parseTable (e :: table) = .ok read ↔
    ∃ s rest, RiskSet.parseList? e.2 = .ok s ∧ parseTable table = .ok rest ∧
      read = (e.1, s) :: rest := by
  rw [parseTable, List.mapM_cons, ← parseTable.eq_def]
  dsimp only
  cases RiskSet.parseList? e.2 with
  | error fault => simp [bind, Except.bind]
  | ok s => cases parseTable table <;> simp [bind, Except.bind, pure, Except.pure, eq_comm]

/-- **A table has the entries that were read.** -/
theorem lookup_parseTable (h : parseTable table = .ok read) (name : Text) :
    Option.Rel RiskSet.IsOf (table.lookup name) (read.lookup name) := by
  induction table generalizing read with
  | nil =>
    obtain rfl := Except.ok.inj h
    exact .none
  | cons e table ih =>
    obtain ⟨s, rest, first, others, rfl⟩ := parseTable_cons_eq_ok_iff.mp h
    rw [List.lookup_cons, List.lookup_cons]
    cases name == e.1 with
    | true => exact .some (RiskSet.isOf_of_parseList? first)
    | false => exact ih others

/-- A table is accepted when each of its lists is. -/
theorem exists_parseTable (lists : ∀ e ∈ table, ∃ s, RiskSet.parseList? e.2 = .ok s) :
    ∃ read, parseTable table = .ok read := by
  induction table with
  | nil => exact ⟨[], rfl⟩
  | cons e table ih =>
    obtain ⟨⟨s, first⟩, others⟩ := List.forall_mem_cons.mp lists
    obtain ⟨rest, others⟩ := ih others
    exact ⟨(e.1, s) :: rest, parseTable_cons_eq_ok_iff.mpr ⟨s, rest, first, others, rfl⟩⟩

end Catalog

end PhpAudit
