import PhpAudit.Proofs.Usage.Merge
import PhpAudit.Walk.Event

/-!
# What a ledger holds

A ledger is kept by **entries**: functions, classes and uses of names. What it holds after entries is
given by two lists that are read off the entries, one after the other: the declarations that can be
kept, and the identities that are used (`foldl_enter`).

Of the declarations of one key the first is kept (`mem_keepFirst`), and the uses of one key are
counted (`count_countUses`). So which declaration is kept depends on the order of the entries; which
keys are declared, and how often they are used, does not.
-/

namespace PhpAudit.Ledger

open PhpAudit.Tree (FunctionHead ClassHead)

/-- **What is entered into a ledger.** -/
inductive Entry where
  | function (f : FunctionHead)
  | classLike (c : ClassHead)
  | use (i : Identity)
deriving DecidableEq, Repr

/-- **The ledger after an entry.** -/
def enter (l : Ledger) : Entry → Ledger
  | .function f => (l.declareFunction f).1
  | .classLike c => (l.declareClass c).1
  | .use i => l.use i.text

/-- A declaration at this location can be kept. -/
def keeps (paths : List Text) (loc : Location) : Bool :=
  !loc.isUnknown && paths.any fun p => loc.file.startsWith p

namespace Entry

/-- The declaration that an entry makes, if it makes one that can be kept. -/
def declaration? (paths : List Text) : Entry → Option Declaration
  | .function f =>
    match eligibility f with
    | .tracked i => if keeps paths f.loc then some ⟨i, f.loc⟩ else none
    | .namedLikeClass | .untracked => none
  | .classLike c => if keeps paths c.loc then some ⟨.ofClass c.name, c.loc⟩ else none
  | .use _ => none

/-- The identities that an entry uses. -/
def used : Entry → List Identity
  | .function _ => []
  | .classLike c => (ancestors c).map Identity.ofClass
  | .use i => [i]

end Entry

/-- **The declarations of entries** that can be kept, one after the other. -/
def declarationsOf (paths : List Text) (entries : List Entry) : List Declaration :=
  entries.filterMap (Entry.declaration? paths)

/-- **The identities that entries use**, one after the other. -/
def usesOf (entries : List Entry) : List Identity := entries.flatMap Entry.used

/-- The declarations of a list that are kept, each under its key. -/
def keepFirst (fold : Text → Text) (ds : List Declaration) (kept : List (Text × Declaration)) :
    List (Text × Declaration) :=
  (ds.map fun d => (fold d.name, d)).foldl addNew kept

/-- The uses of identities, counted. -/
def countUses (fold : Text → Text) (is : List Identity) (counted : List (Text × Nat)) :
    List (Text × Nat) :=
  addCounts counted (is.map fun i => (fold i.text, 1))

/-! ## One entry -/

theorem declare_eq_keepFirst (l : Ledger) (d : Declaration) : (l.declare d).1 =
    { l with declared :=
      keepFirst l.fold (if keeps l.paths d.loc then [d] else []) l.declared } := by
  rw [declare_eq]
  by_cases kept : keeps l.paths d.loc = true
  · have eligible : (l.paths.isEmpty || d.loc.isUnknown || !l.covers d.loc.file) = false := by
      simp only [keeps, Bool.and_eq_true, Bool.not_eq_true'] at kept
      have some : l.paths.isEmpty = false := by
        rw [← Bool.not_eq_true, List.isEmpty_iff]
        intro none
        rw [none] at kept
        cases kept.2
      rw [some, kept.1, covers, kept.2]
      rfl
    rw [eligible, if_pos kept]
    rfl
  · have ineligible : (l.paths.isEmpty || d.loc.isUnknown || !l.covers d.loc.file) = true := by
      simp only [keeps, Bool.and_eq_true, Bool.not_eq_true', not_and, Bool.not_eq_true] at kept
      by_cases unknown : d.loc.isUnknown = true
      · simp [unknown]
      · have outside : l.covers d.loc.file = false := kept (by simpa using unknown)
        simp [outside]
    rw [ineligible, if_neg kept]
    rfl

theorem foldl_use (l : Ledger) (names : List Text) :
    names.foldl (fun l name => l.use (Identity.ofClass name).text) l =
      { l with uses := countUses l.fold (names.map Identity.ofClass) l.uses } := by
  induction names generalizing l with
  | nil => rfl
  | cons name names ih =>
    rw [List.foldl_cons, ih]
    rfl

/-- **What an entry does**: it adds its declaration, unless the key has one, and counts its uses. -/
theorem enter_eq (l : Ledger) (e : Entry) : l.enter e =
    { l with
      declared := keepFirst l.fold (e.declaration? l.paths).toList l.declared
      uses := countUses l.fold e.used l.uses } := by
  cases e with
  | function f =>
    simp only [enter, declareFunction, Entry.declaration?]
    cases eligibility f with
    | tracked i =>
      simp only [declare_eq_keepFirst]
      split <;> rfl
    | namedLikeClass => rfl
    | untracked => rfl
  | classLike c =>
    simp only [enter, declareClass, Entry.declaration?, foldl_use, declare_eq_keepFirst]
    split <;> rfl
  | use i => rfl

theorem declarationsOf_cons (paths : List Text) (e : Entry) (entries : List Entry) :
    declarationsOf paths (e :: entries) =
      (e.declaration? paths).toList ++ declarationsOf paths entries := by
  unfold declarationsOf
  cases h : e.declaration? paths <;> simp [h]

/-- **What a ledger holds after entries.** -/
theorem foldl_enter (l : Ledger) (entries : List Entry) : entries.foldl enter l =
    { l with
      declared := keepFirst l.fold (declarationsOf l.paths entries) l.declared
      uses := countUses l.fold (usesOf entries) l.uses } := by
  induction entries generalizing l with
  | nil => rfl
  | cons e entries ih =>
    have uses : usesOf (e :: entries) = e.used ++ usesOf entries := List.flatMap_cons
    rw [List.foldl_cons, ih, enter_eq, declarationsOf_cons, uses]
    simp only [keepFirst, countUses, addCounts, List.map_append, List.foldl_append]

/-- What a ledger that was empty holds after entries. -/
theorem foldl_enter_comparing (fold : Text → Text) (paths : List Text) (entries : List Entry) :
    entries.foldl enter (comparing fold paths) =
      ⟨paths, fold, keepFirst fold (declarationsOf paths entries) [],
        countUses fold (usesOf entries) []⟩ :=
  foldl_enter _ entries

/-! ## Keyed lists -/

section Keyed

variable {α : Type} {xs : List (Text × α)} {k : Text} {a : α}

/-- Nothing is found exactly under the keys that are not there. -/
theorem lookup_eq_none_iff_keys : xs.lookup k = none ↔ k ∉ xs.map Prod.fst := by
  rw [List.lookup_eq_none_iff]
  constructor
  · intro missing found
    obtain ⟨p, hp, rfl⟩ := List.mem_map.mp found
    simpa using missing p hp
  · intro missing p hp
    rw [bne_iff_ne]
    rintro rfl
    exact missing (List.mem_map_of_mem hp)

/-- Where each key is there once, what is there is what is found. -/
theorem lookup_eq_some_iff_mem (once : (xs.map Prod.fst).Nodup) :
    xs.lookup k = some a ↔ (k, a) ∈ xs := by
  rw [List.lookup_eq_some_iff]
  constructor
  · rintro ⟨before, after, rfl, -⟩
    exact List.mem_append_right _ List.mem_cons_self
  · intro found
    obtain ⟨before, after, rfl⟩ := List.append_of_mem found
    refine ⟨before, after, rfl, ?_⟩
    intro p hp
    rw [List.map_append, List.nodup_append] at once
    rw [bne_iff_ne]
    exact (once.2.2 p.1 (List.mem_map_of_mem hp) k (by simp)).symm

end Keyed

/-! ## Declarations of one key -/

section Declared

variable {ds kept : List (Text × Declaration)} {k : Text}

theorem lookup_addNew (d : Text × Declaration) :
    (addNew kept d).lookup k = (kept.lookup k).or ([d].lookup k) := by
  unfold addNew
  split
  · next known =>
    cases found : kept.lookup k with
    | some _ => rfl
    | none =>
      have other : k ∉ [d].map Prod.fst := by
        intro same
        obtain rfl := List.mem_singleton.mp same
        rw [found] at known
        cases known
      rw [lookup_eq_none_iff_keys.mpr other]
      rfl
  · exact List.lookup_append

/-- **The first declaration of a key is the one that is kept.** -/
theorem lookup_foldl_addNew :
    (ds.foldl addNew kept).lookup k = (kept.lookup k).or (ds.lookup k) := by
  induction ds generalizing kept with
  | nil => simp
  | cons d ds ih =>
    have first : (d :: ds).lookup k = ([d].lookup k).or (ds.lookup k) := by
      rw [← List.lookup_append]
      rfl
    rw [List.foldl_cons, ih, lookup_addNew, first, Option.or_assoc]

/-- Each key is kept once. -/
theorem nodup_foldl_addNew (once : (kept.map Prod.fst).Nodup) :
    ((ds.foldl addNew kept).map Prod.fst).Nodup := by
  induction ds generalizing kept with
  | nil => exact once
  | cons d ds ih =>
    rw [List.foldl_cons]
    apply ih
    unfold addNew
    split
    · exact once
    · next missing =>
      have fresh : d.1 ∉ kept.map Prod.fst :=
        lookup_eq_none_iff_keys.mp (Option.not_isSome_iff_eq_none.mp missing)
      rw [List.map_append, List.nodup_append]
      refine ⟨once, by simp, ?_⟩
      intro k hk k' hk' same
      obtain rfl := List.mem_singleton.mp hk'
      exact fresh (same ▸ hk)

end Declared

theorem nodup_keepFirst {fold : Text → Text} {ds : List Declaration} :
    ((keepFirst fold ds []).map Prod.fst).Nodup := by
  have none : (([] : List (Text × Declaration)).map Prod.fst).Nodup := List.nodup_nil
  exact nodup_foldl_addNew none

/-- **The declarations that are kept** are the first of their keys. -/
theorem mem_keepFirst {fold : Text → Text} {ds : List Declaration} {k : Text} {d : Declaration} :
    (k, d) ∈ keepFirst fold ds [] ↔ k = fold d.name ∧
      ∃ before after, ds = before ++ d :: after ∧ ∀ d' ∈ before, fold d'.name ≠ fold d.name := by
  rw [← lookup_eq_some_iff_mem nodup_keepFirst, keepFirst, lookup_foldl_addNew, List.lookup_nil,
    Option.none_or, List.lookup_eq_some_iff]
  constructor
  · rintro ⟨before, after, split, first⟩
    obtain ⟨before, rest, rfl, rfl, rest'⟩ := List.map_eq_append_iff.mp split
    obtain ⟨d', after, rfl, same, rfl⟩ := List.map_eq_cons_iff.mp rest'
    obtain ⟨rfl, rfl⟩ := Prod.mk.inj same
    refine ⟨rfl, before, after, rfl, ?_⟩
    intro e he
    exact (bne_iff_ne.mp (first _ (List.mem_map_of_mem he))).symm
  · rintro ⟨rfl, before, after, rfl, first⟩
    refine ⟨before.map fun d => (fold d.name, d), after.map fun d => (fold d.name, d), by simp, ?_⟩
    intro p hp
    obtain ⟨e, he, rfl⟩ := List.mem_map.mp hp
    exact bne_iff_ne.mpr (first e he).symm

/-- The keys of the declarations that are kept are those of all. -/
theorem mem_keys_keepFirst {fold : Text → Text} {ds : List Declaration} {k : Text} :
    k ∈ (keepFirst fold ds []).map Prod.fst ↔ ∃ d ∈ ds, fold d.name = k := by
  have keys : k ∈ (keepFirst fold ds []).map Prod.fst ↔
      k ∈ (ds.map fun d => (fold d.name, d)).map Prod.fst := by
    rw [← Decidable.not_iff_not, ← lookup_eq_none_iff_keys, ← lookup_eq_none_iff_keys, keepFirst,
      lookup_foldl_addNew, List.lookup_nil, Option.none_or]
  simp [keys]

/-! ## Uses of one key -/

/-- Counting uses changes the count of their key alone. -/
theorem count_addCount (k k' : Text) (n : Nat) (us : List (Text × Nat)) :
    ((addCount k' n us).lookup k).getD 0 =
      (us.lookup k).getD 0 + if k' = k then n else 0 := by
  induction us with
  | nil =>
    by_cases same : k' = k
    · simp [addCount, same]
    · have other : (k == k') = false := beq_eq_false_iff_ne.mpr (Ne.symm same)
      simp [addCount, List.lookup_cons, same, other]
  | cons u us ih =>
    obtain ⟨k'', c⟩ := u
    rw [addCount]
    by_cases here : k'' = k
    · subst here
      by_cases same : k'' = k'
      · simp [same]
      · simp [same, Ne.symm same]
    · have other : (k == k'') = false := beq_eq_false_iff_ne.mpr (Ne.symm here)
      by_cases same : k'' = k'
      · subst same
        simp [List.lookup_cons, other, here]
      · simp [List.lookup_cons, other, same, ih]

variable {fold : Text → Text} {is : List Identity} {us : List (Text × Nat)} {k : Text}

/-- **The count of a key** is the number of uses of it. -/
theorem count_countUses : ((countUses fold is us).lookup k).getD 0 =
    (us.lookup k).getD 0 + is.countP (fun i => fold i.text = k) := by
  induction is generalizing us with
  | nil => rfl
  | cons i is ih =>
    have next : countUses fold (i :: is) us = countUses fold is (addCount (fold i.text) 1 us) := rfl
    rw [next, ih, count_addCount, List.countP_cons]
    simp only [decide_eq_true_eq]
    omega

/-- The keys that are counted are those that are used. -/
theorem mem_keys_countUses : k ∈ (countUses fold is us).map Prod.fst ↔
    k ∈ us.map Prod.fst ∨ ∃ i ∈ is, fold i.text = k := by
  induction is generalizing us with
  | nil => simp [countUses, addCounts]
  | cons i is ih =>
    have next : countUses fold (i :: is) us = countUses fold is (addCount (fold i.text) 1 us) := rfl
    rw [next, ih, mem_keys_addCount]
    simp only [List.mem_cons, exists_eq_or_imp]
    rw [or_comm (a := k = fold i.text), or_assoc, eq_comm (a := k)]

/-! ## What is unused -/

/-- A declaration is reported as unused when it is kept and its key is not counted. -/
theorem mem_unused_iff {l : Ledger} {d : Declaration} : d ∈ l.unused ↔
    (∃ k, (k, d) ∈ l.declared) ∧ l.fold d.name ∉ l.uses.map Prod.fst := by
  simp only [unused, declarations, List.mem_filter, List.mem_mergeSort, List.mem_map, Prod.exists,
    exists_eq_right, Option.isNone_iff_eq_none, lookup_eq_none_iff_keys, key]

section Unused

variable {paths : List Text} {entries : List Entry}

theorem not_mem_keys_countUses :
    k ∉ (countUses fold is []).map Prod.fst ↔ ∀ i ∈ is, fold i.text ≠ k := by
  simp [mem_keys_countUses]

/-- **The unused declarations after entries**: the first of their keys, of keys that are not used. -/
theorem mem_unused_foldl_enter {d : Declaration} :
    d ∈ (entries.foldl enter (comparing fold paths)).unused ↔
      (∃ before after, declarationsOf paths entries = before ++ d :: after ∧
        ∀ d' ∈ before, fold d'.name ≠ fold d.name) ∧
      ∀ i ∈ usesOf entries, fold i.text ≠ fold d.name := by
  rw [foldl_enter_comparing, mem_unused_iff]
  refine and_congr ?_ not_mem_keys_countUses
  constructor
  · rintro ⟨k, kept⟩
    exact (mem_keepFirst.mp kept).2
  · intro first
    exact ⟨_, mem_keepFirst.mpr ⟨rfl, first⟩⟩

/-- What is unused is declared. -/
theorem mem_declarationsOf_of_mem_unused {d : Declaration}
    (reported : d ∈ (entries.foldl enter (comparing fold paths)).unused) :
    d ∈ declarationsOf paths entries := by
  obtain ⟨⟨before, after, split, -⟩, -⟩ := mem_unused_foldl_enter.mp reported
  rw [split]
  exact List.mem_append_right _ List.mem_cons_self

/-- The keys of the unused declarations are those that are declared and not used. -/
theorem mem_keys_unused :
    (∃ d ∈ (entries.foldl enter (comparing fold paths)).unused, fold d.name = k) ↔
      (∃ d ∈ declarationsOf paths entries, fold d.name = k) ∧
        ∀ i ∈ usesOf entries, fold i.text ≠ k := by
  constructor
  · rintro ⟨d, reported, rfl⟩
    exact ⟨⟨d, mem_declarationsOf_of_mem_unused reported, rfl⟩,
      (mem_unused_foldl_enter.mp reported).2⟩
  · rintro ⟨declared, unused⟩
    obtain ⟨⟨k', d⟩, kept, rfl⟩ := List.mem_map.mp (mem_keys_keepFirst.mpr declared)
    obtain ⟨rfl, -⟩ := mem_keepFirst.mp kept
    rw [foldl_enter_comparing]
    exact ⟨d, mem_unused_iff.mpr ⟨⟨_, kept⟩, not_mem_keys_countUses.mpr unused⟩, rfl⟩

end Unused

end PhpAudit.Ledger

namespace PhpAudit

/-- The entry that an event makes in a ledger, if it makes one. -/
def Event.entry? : Event → Option Ledger.Entry
  | .use i => some (.use i)
  | .function head => some (.function head)
  | .classDef head => some (.classLike head)
  | .sink _ _ _ | .inclusion _ | .remark _ => none

/-- **The entries that events make**, one after the other. -/
def entriesOf (es : List Event) : List Ledger.Entry := es.filterMap Event.entry?

theorem entriesOf_append (es es' : List Event) :
    entriesOf (es ++ es') = entriesOf es ++ entriesOf es' :=
  List.filterMap_append

end PhpAudit
