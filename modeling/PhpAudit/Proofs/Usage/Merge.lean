import PhpAudit.Usage.Ledger

/-!
# Merging ledgers

Merging keeps the first declaration of an identity and sums its uses. It agrees with entering things
one after the other: what is declared or used in the second ledger might as well have been declared
or used in the merged one (`merge_declare`, `merge_use`). So a ledger that was kept in pieces,
merged in order, is the ledger kept in one.
-/

namespace PhpAudit.Ledger

open PhpAudit.Tree (FunctionHead ClassHead)

/-! ## Counts -/

/-- Uses of a key are summed. -/
theorem addCount_addCount (k : Text) (m n : Nat) (us : List (Text × Nat)) :
    addCount k n (addCount k m us) = addCount k (m + n) us := by
  induction us with
  | nil => simp [addCount]
  | cons u us ih =>
    obtain ⟨k', c⟩ := u
    by_cases h : k' = k
    · simp [addCount, h, Nat.add_assoc]
    · simp [addCount, h, ih]

theorem mem_keys_addCount {k k' : Text} {n : Nat} {us : List (Text × Nat)} :
    k ∈ (addCount k' n us).map Prod.fst ↔ k = k' ∨ k ∈ us.map Prod.fst := by
  induction us with
  | nil => simp [addCount]
  | cons u us ih =>
    obtain ⟨k'', c⟩ := u
    by_cases h : k'' = k'
    · subst h
      simp [addCount]
    · rw [addCount, if_neg h, List.map_cons, List.mem_cons, ih, List.map_cons, List.mem_cons]
      exact or_left_comm

/-- Uses of a key that is counted already may be added before or after others: no key changes its
place. -/
theorem addCount_comm {k : Text} {us : List (Text × Nat)} (known : k ∈ us.map Prod.fst) (k' : Text)
    (m n : Nat) : addCount k n (addCount k' m us) = addCount k' m (addCount k n us) := by
  induction us with
  | nil => simp at known
  | cons u us ih =>
    obtain ⟨k'', c⟩ := u
    by_cases h : k'' = k
    · by_cases h' : k'' = k'
      · subst h
        simp [addCount, h', Nat.add_right_comm]
      · simp [addCount, h, show ¬ k = k' from fun heq => h' (h.trans heq)]
    · have known : k ∈ us.map Prod.fst := by simpa [Ne.symm h] using known
      by_cases h' : k'' = k'
      · simp [addCount, h', show ¬ k' = k from fun heq => h (h'.trans heq)]
      · simp [addCount, h, h', ih known]

/-- The counts of a list, added to others. -/
def addCounts (us more : List (Text × Nat)) : List (Text × Nat) :=
  more.foldl (fun us u => addCount u.1 u.2 us) us

theorem addCount_addCounts {k : Text} {us : List (Text × Nat)} (known : k ∈ us.map Prod.fst)
    (n : Nat) (more : List (Text × Nat)) :
    addCount k n (addCounts us more) = addCounts (addCount k n us) more := by
  induction more generalizing us with
  | nil => rfl
  | cons u more ih =>
    have known' : k ∈ (addCount u.1 u.2 us).map Prod.fst := mem_keys_addCount.mpr (Or.inr known)
    rw [addCounts, List.foldl_cons]
    exact (ih known').trans (by rw [addCount_comm known]; rfl)

/-- Counting in the second list is counting in the sum. -/
theorem addCounts_addCount (us : List (Text × Nat)) (k : Text) (n : Nat)
    (more : List (Text × Nat)) :
    addCounts us (addCount k n more) = addCount k n (addCounts us more) := by
  induction more generalizing us with
  | nil => rfl
  | cons u more ih =>
    obtain ⟨k', c⟩ := u
    by_cases h : k' = k
    · subst h
      have unfolded : addCounts us (addCount k' n ((k', c) :: more)) =
          addCounts (addCount k' (c + n) us) more := by simp [addCount, addCounts]
      rw [unfolded, ← addCount_addCount]
      exact (addCount_addCounts (mem_keys_addCount.mpr (Or.inl rfl)) n more).symm
    · have unfolded : addCounts us (addCount k n ((k', c) :: more)) =
          addCounts (addCount k' c us) (addCount k n more) := by simp [addCount, addCounts, h]
      rw [unfolded, ih]
      rfl

/-! ## Declarations -/

/-- A declaration, unless its key has one. -/
def addNew (ds : List (Text × Declaration)) (d : Text × Declaration) : List (Text × Declaration) :=
  if (ds.lookup d.1).isSome then ds else ds ++ [d]

theorem isSome_lookup_addNew {ds : List (Text × Declaration)} {d : Text × Declaration} {k : Text} :
    ((addNew ds d).lookup k).isSome = ((ds.lookup k).isSome || k == d.1) := by
  unfold addNew
  split
  · next h =>
    by_cases hk : k = d.1
    · simp [hk, h]
    · simp [hk]
  · rw [List.lookup_append, Option.isSome_or]
    congr 1
    obtain ⟨k', d⟩ := d
    cases hk : k == k' <;> simp [List.lookup_cons, hk]

/-- A key is declared in the merged list when it is in one of the two. -/
theorem isSome_lookup_foldl_addNew (ds more : List (Text × Declaration)) (k : Text) :
    ((more.foldl addNew ds).lookup k).isSome =
      ((ds.lookup k).isSome || (more.lookup k).isSome) := by
  induction more generalizing ds with
  | nil => simp
  | cons d more ih =>
    obtain ⟨k', d⟩ := d
    rw [List.foldl_cons, ih, isSome_lookup_addNew, List.lookup_cons]
    cases h : k == k' <;> simp

/-- Declaring in the second list is declaring in the merged one. -/
theorem foldl_addNew_addNew (ds more : List (Text × Declaration)) (d : Text × Declaration) :
    (addNew more d).foldl addNew ds = addNew (more.foldl addNew ds) d := by
  have known := isSome_lookup_foldl_addNew ds more d.1
  by_cases h : (more.lookup d.1).isSome = true
  · rw [h, Bool.or_true] at known
    rw [show addNew more d = more from if_pos h]
    exact (if_pos known).symm
  · rw [show addNew more d = more ++ [d] from if_neg h, List.foldl_append]
    rfl

/-! ## Ledgers -/

variable {l other : Ledger}

theorem merge_eq (l other : Ledger) : l.merge other =
    ⟨l.paths, l.fold, other.declared.foldl addNew l.declared, addCounts l.uses other.uses⟩ := rfl

/-- An empty ledger adds nothing. -/
theorem merge_fork (l : Ledger) : l.merge l.fork = l := rfl

/-- Ledgers with the same forks keep declarations of the same files, under the same keys. -/
theorem fork_eq_iff : other.fork = l.fork ↔ other.paths = l.paths ∧ other.fold = l.fold := by
  simp [fork, comparing]

@[simp] theorem fork_declare (l : Ledger) (d : Declaration) : (l.declare d).1.fork = l.fork := by
  unfold declare
  split
  · rfl
  · split
    · rfl
    · split <;> rfl

/-- **A use in the second ledger is a use in the merged one.** -/
theorem merge_use (same : other.fork = l.fork) (i : Text) :
    l.merge (other.use i) = (l.merge other).use i := by
  have key : other.key i = l.key i := congrFun (fork_eq_iff.mp same).2 i
  rw [merge_eq, merge_eq, use, use, addCounts_addCount, key]
  rfl

/-- What declaring does to a ledger: nothing when the declaration cannot be kept, and else adding it
unless its key has one. -/
theorem declare_eq (l : Ledger) (d : Declaration) : (l.declare d).1 =
    if l.paths.isEmpty || d.loc.isUnknown || !l.covers d.loc.file then l
    else { l with declared := addNew l.declared (l.key d.name, d) } := by
  unfold declare addNew
  by_cases h₁ : (l.paths.isEmpty || d.loc.isUnknown) = true
  · simp [h₁]
  · by_cases h₂ : (!l.covers d.loc.file) = true
    · simp [h₁, h₂]
    · by_cases h₃ : (l.declared.lookup (l.key d.name)).isSome = true
      · simp [h₁, h₂, h₃]
      · simp [h₁, h₂, h₃]

/-- **A declaration in the second ledger is one in the merged ledger**: either has a declaration of
the key already, or it comes last in both. -/
theorem merge_declare (same : other.fork = l.fork) (d : Declaration) :
    l.merge (other.declare d).1 = ((l.merge other).declare d).1 := by
  obtain ⟨paths, fold⟩ := fork_eq_iff.mp same
  have covers : (l.merge other).covers d.loc.file = other.covers d.loc.file := by
    rw [Ledger.covers, Ledger.covers, paths]
    rfl
  have empty : (l.merge other).paths.isEmpty = other.paths.isEmpty := by rw [paths]; rfl
  have key : other.key d.name = (l.merge other).key d.name := congrFun fold _
  rw [declare_eq, declare_eq, covers, empty, ← key]
  split
  · rfl
  · rw [merge_eq, foldl_addNew_addNew]
    rfl

theorem merge_declareFunction (same : other.fork = l.fork) (f : FunctionHead) :
    l.merge (other.declareFunction f).1 = ((l.merge other).declareFunction f).1 := by
  unfold declareFunction
  split
  · exact merge_declare same _
  · rfl
  · rfl

theorem merge_uses (same : other.fork = l.fork) (names : List Text) :
    l.merge (names.foldl (fun l name => l.use (Identity.ofClass name).text) other) =
      names.foldl (fun l name => l.use (Identity.ofClass name).text) (l.merge other) := by
  induction names generalizing other with
  | nil => rfl
  | cons name names ih =>
    have next : (other.use (Identity.ofClass name).text).fork = l.fork := same
    rw [List.foldl_cons, List.foldl_cons, ih next, merge_use same]

theorem merge_declareClass (same : other.fork = l.fork) (c : ClassHead) :
    l.merge (other.declareClass c).1 = ((l.merge other).declareClass c).1 := by
  have next : (other.declare ⟨.ofClass c.name, c.loc⟩).1.fork = l.fork := by
    rw [fork_declare, same]
  simp only [declareClass]
  rw [merge_uses next, merge_declare same]

theorem fork_declareFunction (l : Ledger) (f : FunctionHead) :
    (l.declareFunction f).1.fork = l.fork := by
  unfold declareFunction
  split
  · exact fork_declare _ _
  · rfl
  · rfl

theorem fork_declareClass (l : Ledger) (c : ClassHead) : (l.declareClass c).1.fork = l.fork := by
  have uses : ∀ (names : List Text) (l : Ledger),
      (names.foldl (fun l name => l.use (Identity.ofClass name).text) l).fork = l.fork := by
    intro names
    induction names with
    | nil => exact fun _ => rfl
    | cons name names ih => exact fun l => ih _
  simp only [declareClass]
  rw [uses, fork_declare]

end PhpAudit.Ledger
