import PhpAudit.Yaml.Convert

/-!
# Mappings as records and tables

A mapping is converted to a record of fields, or to a table of texts. Under the key `<<` a mapping may
name others that are **merged** into it: an entry of its own wins over a merged one, and of two
merged entries the one that is met first. Nothing is merged into itself: the aliases on the way to a
mapping name different anchors, which is why `Merging.mapping` ends.
-/

namespace PhpAudit.Yaml

/-- The number of anchors outside a path. -/
def Document.unvisited (d : Document) (path : List Nat) : Nat :=
  d.anchored.countP fun a => !path.contains a.1

/-- An anchor that is not on a path leaves fewer anchors once it is. -/
theorem Document.unvisited_cons_lt {d : Document} {path : List Nat} {i : Nat} {n : Node}
    (hp : path.contains i = false) (hn : d.anchored.lookup i = some n) :
    d.unvisited (i :: path) < d.unvisited path := by
  unfold Document.unvisited
  generalize d.anchored = as at hn
  induction as with
  | nil => simp at hn
  | cons a as ih =>
    obtain ⟨j, m⟩ := a
    have weaker : as.countP (fun a => !(i :: path).contains a.1)
        ≤ as.countP fun a => !path.contains a.1 :=
      List.countP_mono_left fun x _ hx => by
        rw [List.contains_cons] at hx
        revert hx
        cases path.contains x.1 <;> simp
    rw [List.countP_cons, List.countP_cons]
    by_cases hij : j = i
    · subst hij
      have hself : (j :: path).contains j = true := by simp
      simp only [hself, hp, Bool.not_true, Bool.not_false, if_true, Bool.false_eq_true, if_false]
      omega
    · have hne : (i == j) = false := by simp [Ne.symm (a := j) (b := i) hij]
      have := ih (by simpa [List.lookup_cons, hne] using hn)
      have hsame : (i :: path).contains j = path.contains j := by simp [hij]
      simp only [hsame]
      omega

namespace Convert

/-- The key that merges. -/
def isMergeKey : Node → Bool
  | .scalar _ tag value => value == "<<" && tag == Tag.merge
  | _ => false

/-- What is merged into a mapping: the value of its last merge key. -/
def merged? (entries : List (Node × Node)) : Option Node :=
  (entries.reverse.find? fun e => isMergeKey e.1).map (·.2)

/-- What is merged is smaller than the entries. -/
theorem sizeOf_merged?_lt {entries : List (Node × Node)} {m : Node}
    (h : merged? entries = some m) : sizeOf m < sizeOf entries := by
  obtain ⟨e, he, rfl⟩ := Option.map_eq_some_iff.1 h
  have hmem : e ∈ entries := List.mem_reverse.1 (List.mem_of_find?_eq_some he)
  have := List.sizeOf_lt_of_mem hmem
  obtain ⟨k, v⟩ := e
  simp only [Prod.mk.sizeOf_spec] at this ⊢
  omega

/-- **An entry that is taken in.** -/
structure Entry where
  /-- The node of the key. -/
  key : Node
  name : Text
  value : Node
  /-- The keys met before in the same mapping. -/
  before : List Text
  /-- The entry is the mapping's own, not merged into it. -/
  own : Bool

/-- **How a mapping is taken in**: what an entry does to the value so far. -/
abbrev Intake (σ : Type) := Entry → σ → Convert σ

/-- A value into which a mapping is taken, and the keys that no longer count: none while the entries
are the mapping's own. -/
structure Merging (σ : Type) where
  value : σ
  taken : Option (List Text)

/-- The keys of a mapping that are text, whatever could also be read as text left aside. -/
def textKeys (d : Document) (entries : List (Node × Node)) : Convert (List Text) := do
  let keys ← entries.mapM fun e => enter d e.1 fun
    | .scalar _ tag value => do
      match ← meaning tag value with
      | .text t => return some t
      | _ => return none
    | _ => return none
  return keys.filterMap id

/-- Takes in the entries of one mapping. -/
def takeEntries {σ : Type} (d : Document) (take : Intake σ) :
    List (Node × Node) → List Text → Merging σ → Convert (Merging σ)
  | [], _, s => return s
  | (k, v) :: rest, before, s => do
    if isMergeKey k then takeEntries d take rest before s
    else
      match ← text d k with
      | none => takeEntries d take rest before s
      | some name =>
        if (s.taken.getD []).contains name then takeEntries d take rest before s
        else
          let value ← take ⟨k, name, v, before, s.taken.isNone⟩ s.value
          takeEntries d take rest (name :: before) ⟨value, s.taken.map (name :: ·)⟩

mutual

/-- **Takes in a mapping** and what is merged into it. -/
def mapping {σ : Type} (d : Document) (take : Intake σ) (path : List Nat) (n : Node)
    (s : Merging σ) : Convert (Merging σ) :=
  match n with
  | .mapping _ _ entries => do
    match repeatedKeys entries with
    | p :: ps =>
      note (p :: ps)
      return s
    | [] =>
      let s ← takeEntries d take entries [] s
      match _h : merged? entries with
      | none => return s
      | some m =>
        let taken ← match s.taken with
          | some ks => pure ks
          | none => textKeys d entries
        mergeAll d take path m ⟨s.value, some taken⟩
  | _ => throw .badMerge
termination_by (d.unvisited path, sizeOf n, 0)
decreasing_by
  apply Prod.Lex.right
  apply Prod.Lex.left
  have := sizeOf_merged?_lt _h
  simp only [Node.mapping.sizeOf_spec]
  omega

/-- Takes in what a merge key names: a mapping, an alias of one, or a sequence of such. -/
def mergeAll {σ : Type} (d : Document) (take : Intake σ) (path : List Nat) (n : Node)
    (s : Merging σ) : Convert (Merging σ) :=
  match n with
  | .sequence _ _ items => items.attach.foldlM (fun s m => mergeOne d take path m.1 s) s
  | n => mergeOne d take path n s
termination_by (d.unvisited path, sizeOf n, 2)
decreasing_by
  · apply Prod.Lex.right
    apply Prod.Lex.left
    have := List.sizeOf_lt_of_mem m.2
    simp only [Node.sequence.sizeOf_spec]
    omega
  · apply Prod.Lex.right
    apply Prod.Lex.right
    omega

/-- Takes in a mapping, or the mapping an alias stands for. -/
def mergeOne {σ : Type} (d : Document) (take : Intake σ) (path : List Nat) (n : Node)
    (s : Merging σ) : Convert (Merging σ) :=
  match n with
  | .reference _ name i =>
    if _hp : path.contains i then throw (.cyclicMerge name)
    else
      match _hn : d.anchored.lookup i with
      | some target => do
        count
        inAlias do
          count
          mapping d take (i :: path) target s
      | none => throw .badMerge
  | n => do
    count
    mapping d take path n s
termination_by (d.unvisited path, sizeOf n, 1)
decreasing_by
  · apply Prod.Lex.left
    exact Document.unvisited_cons_lt (by simpa using _hp) _hn
  · apply Prod.Lex.right
    apply Prod.Lex.right
    omega

end

/-- A node that is converted by its entries, from the value `opened`. A null gives `onNull`, and any
other node a problem. -/
def structured {σ : Type} (wanted : String) (onNull opened : σ) (take : Intake σ) (d : Document)
    (n : Node) : Convert σ := enter d n fun
  | .mapping line tag entries => do
    let path := match n with
      | .reference _ _ i => [i]
      | _ => []
    return (← mapping d take path (.mapping line tag entries) ⟨opened, none⟩).value
  | .scalar line tag v => do
    match ← meaning tag v with
    | .null => return onNull
    | _ => return (← mismatch (.scalar line tag v) wanted).getD opened
  | m => do return (← mismatch m wanted).getD opened

/-- **A field of a record**: how its value changes the record. -/
abbrev Field (σ : Type) := Document → Node → σ → Convert σ

/-- A field that holds a value of a simple type; a value that is none leaves the field as it was. -/
def Field.simple {σ α : Type} (read : Document → Node → Convert (Option α)) (put : α → σ → σ) :
    Field σ := fun d n s => do
  match ← read d n with
  | some a => return put a s
  | none => return s

/-- **A node as a record**: known fields are converted, other keys passed over. A null leaves the
record as it is. -/
def record {σ : Type} (name : String) (fields : List (Text × Field σ)) : Field σ :=
  fun d n value =>
    let take : Intake σ := fun e s =>
      match fields.lookup e.name with
      | none => return s
      | some put =>
        if e.before.contains e.name then do
          note [.repeatedField e.key.line e.name name]
          return s
        else put d e.value s
    structured name value value take d n

/-- A table of texts, its keys in the order of their first entries. -/
abbrev Table := List (Text × Text)

/-- A table with an entry set. -/
def Table.set : Table → Text → Text → Table
  | [], k, v => [(k, v)]
  | (k', v') :: t, k, v => if k' = k then (k, v) :: t else (k', v') :: Table.set t k v

/-- **A node as a table of texts.** A null stands for no table. A null value gives the empty text to its
key; a merged one only if the key has none yet. -/
def table (d : Document) (n : Node) : Convert (Option Table) :=
  let take : Intake (Option Table) := fun e t => do
    let so := t.getD []
    match ← text d e.value with
    | some v => return some (so.set e.name v)
    | none =>
      if (d.follow e.value).tag == Tag.null && (e.own || (so.lookup e.name).isNone) then
        return some (so.set e.name "")
      else return t
  structured "map[string]string" none (some []) take d n

end Convert

end PhpAudit.Yaml
