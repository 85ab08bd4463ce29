import PhpAudit.Proofs.Usage.Entries

/-!
# The unused declarations

What a ledger reports as unused is said here by its entries alone, without the ledger: the
declarations that can be kept, are the first of their key and have a key that no entry uses
(`FirstDeclared`, `Entry.Uses`), in strictly increasing order of file, line and name.

**The law** (`unused_of_any_order`): it holds for every fold of names to keys, and in whatever order
the ledger gives out what it keeps. Declarations that are kept have different names, so the order of
file, line and name tells any two of them apart, and sorting leaves nothing to the order before.
-/

namespace PhpAudit

namespace Declaration

variable {a b c : Declaration}

/-- **Strictly before** in the order of file, line and name. -/
def Precedes (a b : Declaration) : Prop :=
  a.loc.file < b.loc.file ∨ a.loc.file = b.loc.file ∧
    (a.loc.line < b.loc.line ∨ a.loc.line = b.loc.line ∧ a.name < b.name)

theorem before_iff : a.before b ↔ a.loc.file < b.loc.file ∨ a.loc.file = b.loc.file ∧
    (a.loc.line < b.loc.line ∨ a.loc.line = b.loc.line ∧ a.name ≤ b.name) := by
  unfold before
  by_cases file : a.loc.file = b.loc.file
  · by_cases line : a.loc.line = b.loc.line
    · simp [file, line, Std.lt_irrefl]
    · simp [file, line, Std.lt_irrefl]
  · simp [file]

theorem before_trans (h : a.before b) (h' : b.before c) : a.before c := by
  rw [before_iff] at h h' ⊢
  obtain file | ⟨file, line | ⟨line, name⟩⟩ := h
  · obtain file' | ⟨file', -⟩ := h'
    · exact .inl (Std.lt_trans file file')
    · exact .inl (file' ▸ file)
  · obtain file' | ⟨file', line' | ⟨line', -⟩⟩ := h'
    · exact .inl (file ▸ file')
    · exact .inr ⟨file.trans file', .inl (by omega)⟩
    · exact .inr ⟨file.trans file', .inl (by omega)⟩
  · obtain file' | ⟨file', line' | ⟨line', name'⟩⟩ := h'
    · exact .inl (file ▸ file')
    · exact .inr ⟨file.trans file', .inl (by omega)⟩
    · exact .inr ⟨file.trans file', .inr ⟨by omega, Std.le_trans name name'⟩⟩

theorem before_total (a b : Declaration) : a.before b ∨ b.before a := by
  rw [before_iff, before_iff]
  obtain file | file | file := Std.lt_trichotomy a.loc.file b.loc.file
  · exact .inl (.inl file)
  · obtain line | line | line := Int.lt_trichotomy a.loc.line b.loc.line
    · exact .inl (.inr ⟨file, .inl line⟩)
    · obtain name | name := Std.le_total (a := a.name) (b := b.name)
      · exact .inl (.inr ⟨file, .inr ⟨line, name⟩⟩)
      · exact .inr (.inr ⟨file.symm, .inr ⟨line.symm, name⟩⟩)
    · exact .inr (.inr ⟨file.symm, .inl line⟩)
  · exact .inr (.inl file)

/-- Of two declarations of different names, the one that comes before comes strictly before. -/
theorem precedes_of_before (h : a.before b) (different : a.name ≠ b.name) : a.Precedes b := by
  rw [before_iff] at h
  obtain file | ⟨file, line | ⟨line, name⟩⟩ := h
  · exact .inl file
  · exact .inr ⟨file, .inl line⟩
  · exact .inr ⟨file, .inr ⟨line, Std.lt_of_le_of_ne name different⟩⟩

end Declaration

namespace Ledger

open PhpAudit.Tree (FunctionHead ClassHead)

/-- A location at which declarations are kept: it is known, and its file starts with one of the
paths. -/
def Kept (paths : List Text) (loc : Location) : Prop :=
  0 < loc.line ∧ ∃ p ∈ paths, p.bytes <+: loc.file.bytes

/-- **A function that is kept track of**: it is named and not magic, and as a method it is public and
not named like its class. -/
structure Tracked (f : FunctionHead) : Prop where
  named : f.isClosure = false
  notMagic : ¬ ("__" : Text).bytes <+: f.name.bytes
  isPublic : f.isMethod → f.visibility = .isPublic
  notLikeClass : f.isMethod → f.className ≠ f.name

/-- The identity of a function: that of a free function, or of a method by its name. -/
def identityOf (f : FunctionHead) : Identity :=
  if f.isMethod then if f.isStatic then .ofStaticMethod f.name else .ofMethod f.name
  else .ofFunction f.name

namespace Entry

/-- **An entry declares** what can be kept. -/
inductive Declares (paths : List Text) : Entry → Declaration → Prop
  | function {f : FunctionHead} : Tracked f → Kept paths f.loc →
      Declares paths (.function f) ⟨identityOf f, f.loc⟩
  | classLike {c : ClassHead} : Kept paths c.loc →
      Declares paths (.classLike c) ⟨.ofClass c.name, c.loc⟩

/-- **An entry uses an identity**: it says so, or it is a class with that parent or interface. -/
inductive Uses : Entry → Identity → Prop
  | use {i : Identity} : Uses (.use i) i
  | parent {c : ClassHead} : c.parent ≠ "" → Uses (.classLike c) (.ofClass c.parent)
  | interface {c : ClassHead} {name : Text} : name ∈ c.interfaces →
      Uses (.classLike c) (.ofClass name)

end Entry

/-- **The first declaration of its key** among entries. -/
def FirstDeclared (fold : Text → Text) (paths : List Text) (entries : List Entry)
    (d : Declaration) : Prop :=
  ∃ before e after, entries = before ++ e :: after ∧ e.Declares paths d ∧
    ∀ e' ∈ before, ∀ d', e'.Declares paths d' → fold d'.name ≠ fold d.name

/-! ## Entries read off by the ledger -/

theorem keeps_iff {paths : List Text} {loc : Location} :
    keeps paths loc = true ↔ Kept paths loc := by
  simp [keeps, Kept, Location.isUnknown, Text.startsWith, List.isPrefixOf_iff_prefix]

/-- Closures and magic functions are not kept track of. -/
theorem eligibility_of_hidden {f : FunctionHead} (hidden : (f.isClosure || isMagic f.name) = true) :
    eligibility f = .untracked := by
  rw [eligibility, if_pos hidden]

theorem isMagic_iff {name : Text} : isMagic name = true ↔ ("__" : Text).bytes <+: name.bytes := by
  rw [isMagic, Text.startsWith, List.isPrefixOf_iff_prefix]

/-- **What is kept track of**, under which identity. -/
theorem eligibility_eq_tracked_iff {f : FunctionHead} {i : Identity} :
    eligibility f = .tracked i ↔ Tracked f ∧ i = identityOf f := by
  by_cases hidden : (f.isClosure || isMagic f.name) = true
  · rw [eligibility_of_hidden hidden]
    refine ⟨nofun, ?_⟩
    rintro ⟨tracked, -⟩
    obtain closure | magic := Bool.or_eq_true_iff.mp hidden
    · rw [tracked.named] at closure
      cases closure
    · exact absurd (isMagic_iff.mp magic) tracked.notMagic
  · rw [eligibility, if_neg hidden]
    have shown : f.isClosure = false ∧ ¬ ("__" : Text).bytes <+: f.name.bytes := by
      rw [Bool.or_eq_true, not_or, isMagic_iff, Bool.not_eq_true] at hidden
      exact hidden
    by_cases method : f.isMethod = true
    · by_cases like : f.className = f.name
      · simp only [method, like, Bool.not_true, Bool.false_eq_true, if_false, if_true]
        refine ⟨nofun, ?_⟩
        rintro ⟨tracked, -⟩
        exact absurd like (tracked.notLikeClass method)
      · by_cases visible : f.visibility = .isPublic
        · have tracked : Tracked f := ⟨shown.1, shown.2, fun _ => visible, fun _ => like⟩
          cases static : f.isStatic <;>
            simp [method, like, visible, static, tracked, identityOf, eq_comm]
        · simp only [method, like, visible, Bool.not_true, Bool.false_eq_true, if_false, if_true,
            ne_eq, not_false_eq_true]
          refine ⟨nofun, ?_⟩
          rintro ⟨tracked, -⟩
          exact absurd (tracked.isPublic method) visible
    · have tracked : Tracked f :=
        ⟨shown.1, shown.2, fun h => absurd h method, fun h => absurd h method⟩
      simp [method, tracked, identityOf, eq_comm]

/-- The declaration that the ledger makes of an entry is the one that the entry declares. -/
theorem declaration?_eq_some_iff {paths : List Text} {e : Entry} {d : Declaration} :
    e.declaration? paths = some d ↔ e.Declares paths d := by
  cases e with
  | function f =>
    constructor
    · intro made
      simp only [Entry.declaration?] at made
      split at made
      · next i eligible =>
        obtain ⟨tracked, rfl⟩ := eligibility_eq_tracked_iff.mp eligible
        obtain ⟨kept, same⟩ := Option.ite_none_right_eq_some.mp made
        cases same
        exact .function tracked (keeps_iff.mp kept)
      · cases made
      · cases made
    · rintro (⟨tracked, kept⟩ | _)
      rw [Entry.declaration?, eligibility_eq_tracked_iff.mpr ⟨tracked, rfl⟩]
      exact if_pos (keeps_iff.mpr kept)
  | classLike c =>
    constructor
    · intro made
      obtain ⟨kept, same⟩ := Option.ite_none_right_eq_some.mp made
      cases same
      exact .classLike (keeps_iff.mp kept)
    · rintro (_ | kept)
      exact if_pos (keeps_iff.mpr kept)
  | use i =>
    constructor
    · intro made
      cases made
    · intro declares
      cases declares

theorem mem_used_iff {e : Entry} {i : Identity} : i ∈ e.used ↔ e.Uses i := by
  cases e with
  | function f => exact ⟨nofun, nofun⟩
  | classLike c =>
    constructor
    · intro used
      obtain ⟨name, named, rfl⟩ := List.mem_map.mp used
      obtain parent | interface := List.mem_append.mp named
      · split at parent
        · cases parent
        · next given =>
          obtain rfl := List.mem_singleton.mp parent
          exact .parent given
      · exact .interface interface
    · rintro (_ | given | interface)
      · refine List.mem_map_of_mem (List.mem_append_left _ ?_)
        rw [if_neg given]
        exact List.mem_singleton_self _
      · exact List.mem_map_of_mem (List.mem_append_right _ interface)
  | use i =>
    constructor
    · intro used
      obtain rfl := List.mem_singleton.mp used
      exact .use
    · rintro ⟨⟩
      exact List.mem_singleton_self _

/-- **The first declarations of their keys** are those that are first in the list of all. -/
theorem firstDeclared_iff {fold : Text → Text} {paths : List Text} {entries : List Entry}
    {d : Declaration} : FirstDeclared fold paths entries d ↔
      ∃ before after, declarationsOf paths entries = before ++ d :: after ∧
        ∀ d' ∈ before, fold d'.name ≠ fold d.name := by
  unfold declarationsOf
  constructor
  · rintro ⟨before, e, after, rfl, declares, first⟩
    refine ⟨before.filterMap (Entry.declaration? paths), after.filterMap (Entry.declaration? paths),
      ?_, ?_⟩
    · rw [List.filterMap_append, List.filterMap_cons_some (declaration?_eq_some_iff.mpr declares)]
    · intro d' found
      obtain ⟨e', he', made⟩ := List.mem_filterMap.mp found
      exact first e' he' d' (declaration?_eq_some_iff.mp made)
  · rintro ⟨before, after, split, first⟩
    obtain ⟨es, rest, rfl, rfl, rest'⟩ := List.filterMap_eq_append_iff.mp split
    obtain ⟨skipped, e, later, rfl, none, made, rfl⟩ := List.filterMap_eq_cons_iff.mp rest'
    refine ⟨es ++ skipped, e, later, (List.append_assoc _ _ _).symm,
      declaration?_eq_some_iff.mp made, ?_⟩
    intro e' he' d' declares
    have made' := declaration?_eq_some_iff.mpr declares
    obtain he' | he' := List.mem_append.mp he'
    · exact first d' (List.mem_filterMap.mpr ⟨e', he', made'⟩)
    · rw [none e' he'] at made'
      cases made'

/-- The uses that the ledger counts are those of the entries. -/
theorem mem_usesOf_iff {entries : List Entry} {i : Identity} :
    i ∈ usesOf entries ↔ ∃ e ∈ entries, e.Uses i := by
  simp only [usesOf, List.mem_flatMap, mem_used_iff]

/-! ## What is reported -/

/-- **Unused declarations are strictly increasing**, where each is kept under its key and each key
once. -/
theorem pairwise_unused {l : Ledger} (once : (l.declared.map Prod.fst).Nodup)
    (keyed : ∀ p ∈ l.declared, p.1 = l.fold p.2.name) : l.unused.Pairwise Declaration.Precedes := by
  have keys : l.declared.map Prod.fst =
      ((l.declared.map (·.2)).map Declaration.name).map l.fold := by
    rw [List.map_map, List.map_map]
    exact List.map_congr_left keyed
  have names : (l.declared.map (·.2)).Pairwise fun a b => a.name ≠ b.name := by
    rw [keys] at once
    exact List.pairwise_map.mp (List.Pairwise.of_map _ (fun _ _ => mt (congrArg l.fold)) once)
  have different : l.declarations.Pairwise fun a b => a.name ≠ b.name :=
    (List.mergeSort_perm _ _).symm.pairwise names Ne.symm
  have sorted : l.declarations.Pairwise fun a b => a.before b := by
    apply List.pairwise_mergeSort
    · intro a b c
      exact Declaration.before_trans
    · intro a b
      exact Bool.or_eq_true_iff.mpr (Declaration.before_total a b)
  refine List.Pairwise.filter _ (List.Pairwise.imp ?_ (sorted.and different))
  rintro a b ⟨before, differ⟩
  exact Declaration.precedes_of_before before differ

/-- **The unused declarations**, for every fold of names to keys and in whatever order declarations
and counts are given out: strictly increasing by file, line and name, they are the declarations that
are the first of their key and whose key no entry uses. -/
theorem unused_of_any_order (fold : Text → Text) (paths : List Text) (entries : List Entry)
    {declared : List (Text × Declaration)} {uses : List (Text × Nat)}
    (anyDeclared : declared.Perm (entries.foldl enter (comparing fold paths)).declared)
    (anyUses : uses.Perm (entries.foldl enter (comparing fold paths)).uses) :
    (Ledger.mk paths fold declared uses).unused.Pairwise Declaration.Precedes ∧
    ∀ d, d ∈ (Ledger.mk paths fold declared uses).unused ↔
      FirstDeclared fold paths entries d ∧
        ∀ e ∈ entries, ∀ i, e.Uses i → fold i.text ≠ fold d.name := by
  constructor
  · rw [foldl_enter_comparing] at anyDeclared
    apply pairwise_unused
    · exact (anyDeclared.map Prod.fst).nodup_iff.mpr nodup_keepFirst
    · rintro ⟨k, d⟩ found
      exact (mem_keepFirst.mp (anyDeclared.mem_iff.mp found)).1
  · intro d
    have same : d ∈ (Ledger.mk paths fold declared uses).unused ↔
        d ∈ (entries.foldl enter (comparing fold paths)).unused := by
      simp only [mem_unused_iff, anyDeclared.mem_iff, (anyUses.map Prod.fst).mem_iff,
        foldl_enter_comparing]
    rw [same, mem_unused_foldl_enter, firstDeclared_iff]
    refine and_congr_right fun _ => ?_
    constructor
    · intro unused e he i uses
      exact unused i (mem_usesOf_iff.mpr ⟨e, he, uses⟩)
    · intro unused i used
      obtain ⟨e, he, uses⟩ := mem_usesOf_iff.mp used
      exact unused e he i uses

/-- A function, a class below another that it names in other letters, that other class, and the
function declared again in other letters. -/
def zipEntries : List Entry := [
  .function ⟨⟨"src/b", 2, "", ""⟩, "zip", "", .isPublic, false, false⟩,
  .classLike ⟨⟨"src/a", 5, "", ""⟩, "Child", "BASE", [], false⟩,
  .classLike ⟨⟨"src/a", 1, "", ""⟩, "Base", "", [], false⟩,
  .function ⟨⟨"src/a", 9, "", ""⟩, "Zip", "", .isPublic, false, false⟩]

/-- The ledger of these entries, which gives out what it keeps backwards. -/
def zipLedger : Ledger :=
  let l := zipEntries.foldl enter (comparing Text.fold ["src"])
  ⟨["src"], Text.fold, l.declared.reverse, l.uses⟩

/-- The class below and the first of the two functions are reported. -/
theorem zip_and_child_unused :
    zipLedger.unused.map Declaration.name = (["Child.class", "zip()"] : List Text) ∧
    zipLedger.unused.Pairwise Declaration.Precedes ∧
    ∀ d, d ∈ zipLedger.unused ↔ FirstDeclared Text.fold ["src"] zipEntries d ∧
      ∀ e ∈ zipEntries, ∀ i, e.Uses i → Text.fold i.text ≠ Text.fold d.name := by
  have given : zipLedger.declared.map (·.2) = [⟨.ofClass "Base", ⟨"src/a", 1, "", ""⟩⟩,
      ⟨.ofClass "Child", ⟨"src/a", 5, "", ""⟩⟩, ⟨.ofFunction "zip", ⟨"src/b", 2, "", ""⟩⟩] := by
    decide +kernel
  -- backwards they are in order already
  have sorted : zipLedger.declarations = zipLedger.declared.map (·.2) := by
    apply List.mergeSort_of_pairwise
    rw [given]
    decide +kernel
  refine ⟨?_, unused_of_any_order Text.fold ["src"] zipEntries (List.reverse_perm _) (.refl _)⟩
  rw [unused, sorted, given]
  decide +kernel

end Ledger

end PhpAudit
