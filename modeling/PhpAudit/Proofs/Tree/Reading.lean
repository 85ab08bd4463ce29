import PhpAudit.Proofs.Tree.Rows
import PhpAudit.Tree.Read

/-!
# The reading of positions

What the walk of a document gives is compared with the positions it goes through. **Some elements are
read from some positions** (`IsReading`) if three things hold: the reading fails exactly as the first
ill-formed position does; whatever a mapping among the positions describes is held by the elements; and
the elements have no locations of their own making.

The comparison follows the shape of the walk. No positions give no elements (`nil`), readings follow
each other as positions do (`andThen`), lists are read item by item (`mapM`), and a position is read
from those below it (`within`, `node`), unless it is ill-formed itself (`failing`). A walk may put what it
has read together in another way (`regroup`).
-/

namespace PhpAudit.Tree

open Yaml (Node Convert)
open Element

/-! ## What is visited -/

section Visited

variable (d : Yaml.Document)

/-- A position is visited before those below it. -/
theorem Position.visited_eq (q : Position) : q.visited d = q :: visitedAll d (q.parts d) := by
  rw [Position.visited, visitedAll, List.flatMap_subtype (fun _ _ => rfl), List.unattach_attach]

@[simp] theorem visitedAll_nil : visitedAll d [] = [] := rfl

theorem visitedAll_append (qs ps : List Position) :
    visitedAll d (qs ++ ps) = visitedAll d qs ++ visitedAll d ps := List.flatMap_append

theorem visitedAll_single (q : Position) : visitedAll d [q] = q :: visitedAll d (q.parts d) := by
  rw [visitedAll, List.flatMap_singleton, q.visited_eq]

theorem firstFault?_append (qs ps : List Position) :
    firstFault? d (qs ++ ps) = (firstFault? d qs).or (firstFault? d ps) := List.findSome?_append

theorem firstFault?_single (q : Position) :
    firstFault? d (visitedAll d [q]) = (q.fault? d).or (firstFault? d (visitedAll d (q.parts d))) := by
  rw [visitedAll_single, firstFault?, List.findSome?_cons]
  cases q.fault? d <;> rfl

end Visited

/-! ## Readings -/

/-- How a node of a role is read. -/
def Role.read (r : Role) (ctx : Context) (n : Node) : Reads (Option Element) :=
  match r with
  | .expression => Option.map .expr <$> readExpr ctx n
  | .statement => Option.map .stmt <$> readStmt ctx n
  | .function => Option.map .function <$> readFunction ctx "" n
  | .member => Option.map .function <$> readFunction ctx ctx.className n
  | .classRecord => Option.map .classDef <$> readClass ctx n

/-- The parts of a node, if there is one. -/
def partsOf : Option Element → List Element
  | none => []
  | some z => z.parts

/-- The context of the walk within some records. -/
def contextIn (d : Yaml.Document) (path : Path) : Context :=
  ⟨d, namedFile d, classAround d path, functionAround d path⟩

/-- **A mapping describes a node of the tree**, of some role, in a position. -/
structure Position.Describes (q : Position) (r : Role) (n : Node) : Prop where
  want : q.want = .node r
  node : q.node = some n
  isMapping : n.isMapping = true

/-- **Some elements are read from some positions**, for a node placed at `l`. The reading fails with
the fault of the first ill-formed position. If it does not fail, the elements hold what is read from
each mapping that describes a node, and they have no locations but those the mappings ask for, that of
the node itself, and the unknown one. -/
structure IsReading (d : Yaml.Document) (l : Location) (qs : List Position)
    (x : Reads (List Element)) : Prop where
  /-- The fault is the first. -/
  fault : fault? x = firstFault? d (visitedAll d qs)
  /-- Nothing that is described is lost. -/
  held : ∀ xs, x = .ok xs → ∀ q ∈ visitedAll d qs, ∀ r n, q.Describes r n →
    ∃ z, r.read (contextIn d q.path) n = .ok (some z) ∧ Holds xs z
  /-- No location is made up. -/
  placed : ∀ xs, x = .ok xs → ∀ z, Holds xs z → z.loc = .unknown ∨ z.loc = l ∨
    ∃ q ∈ visitedAll d qs, ∃ r n, q.Describes r n ∧ z.loc = locationIn d (r.scope q.path n) n

/-! ## Results in sequence -/

section Faults

variable {α β : Type}

theorem fault?_map (f : α → β) (x : Reads α) : fault? (f <$> x) = fault? x := by
  cases x <;> rfl

theorem fault?_bind {x : Reads α} {y : α → Reads β} {o : Option Misread}
    (h : ∀ a, x = .ok a → fault? (y a) = o) : fault? (x >>= y) = (fault? x).or o := by
  cases x with
  | error e => rfl
  | ok a => exact h a rfl

theorem map_eq_ok_iff {f : α → β} {x : Reads α} {b : β} :
    f <$> x = .ok b ↔ ∃ a, x = .ok a ∧ f a = b := by
  cases x with
  | error e => simp [Functor.map, Except.map]
  | ok a => simp [Functor.map, Except.map]

theorem bind_eq_ok_iff {x : Reads α} {y : α → Reads β} {b : β} :
    x >>= y = .ok b ↔ ∃ a, x = .ok a ∧ y a = .ok b := by
  cases x with
  | error e => simp [bind, Except.bind]
  | ok a => simp [bind, Except.bind]

end Faults

namespace IsReading

variable {α β : Type} {d : Yaml.Document} {l : Location} {qs ps : List Position}

/-- No positions give no elements. -/
theorem nil : IsReading d l [] (pure []) where
  fault := rfl
  held _ _ q hq := by simp at hq
  placed xs hxs z hz := by
    cases hxs
    exact (Holds.not_nil hz).elim

/-- **One reading after another**: the positions follow each other, and so do the elements. -/
theorem andThen {x : Reads α} {f : α → List Element} {y : α → Reads β}
    {g : α → β → List Element} (hx : IsReading d l qs (f <$> x))
    (hy : ∀ a, x = .ok a → IsReading d l ps (g a <$> y a)) :
    IsReading d l (qs ++ ps) (do let a ← x; let b ← y a; pure (f a ++ g a b)) where
  fault := by
    rw [fault?_bind (o := firstFault? d (visitedAll d ps)) fun a ha => ?_, visitedAll_append,
      firstFault?_append, ← hx.fault, fault?_map]
    rw [bind_pure_comp, fault?_map, ← (hy a ha).fault, fault?_map]
  held xs hxs q hq r n here := by
    obtain ⟨a, ha, hxs⟩ := bind_eq_ok_iff.1 hxs
    obtain ⟨b, hb, rfl⟩ := map_eq_ok_iff.1 (by simpa only [bind_pure_comp] using hxs)
    rw [visitedAll_append, List.mem_append] at hq
    obtain hq | hq := hq
    · obtain ⟨z, hz, holds⟩ := hx.held _ (map_eq_ok_iff.2 ⟨a, ha, rfl⟩) q hq r n here
      exact ⟨z, hz, Holds.append_iff.2 (.inl holds)⟩
    · obtain ⟨z, hz, holds⟩ := (hy a ha).held _ (map_eq_ok_iff.2 ⟨b, hb, rfl⟩) q hq r n here
      exact ⟨z, hz, Holds.append_iff.2 (.inr holds)⟩
  placed xs hxs z hz := by
    obtain ⟨a, ha, hxs⟩ := bind_eq_ok_iff.1 hxs
    obtain ⟨b, hb, rfl⟩ := map_eq_ok_iff.1 (by simpa only [bind_pure_comp] using hxs)
    simp only [visitedAll_append, List.mem_append]
    obtain hz | hz := Holds.append_iff.1 hz
    · obtain h | h | ⟨q, hq, h⟩ := hx.placed _ (map_eq_ok_iff.2 ⟨a, ha, rfl⟩) z hz
      · exact .inl h
      · exact .inr (.inl h)
      · exact .inr (.inr ⟨q, .inl hq, h⟩)
    · obtain h | h | ⟨q, hq, h⟩ := (hy a ha).placed _ (map_eq_ok_iff.2 ⟨b, hb, rfl⟩) z hz
      · exact .inl h
      · exact .inr (.inl h)
      · exact .inr (.inr ⟨q, .inr hq, h⟩)

/-- Elements that are read apart, put together. -/
theorem both {x y : Reads (List Element)} (hx : IsReading d l qs x) (hy : IsReading d l ps y) :
    IsReading d l (qs ++ ps) (do let xs ← x; let ys ← y; pure (xs ++ ys)) :=
  andThen (f := id) (by rwa [id_map]) (g := fun _ => id) fun _ _ => by rwa [id_map]

/-- A reading after one that gives no elements. -/
theorem after {x : Reads α} {y : α → Reads (List Element)}
    (hx : IsReading d l qs ((fun _ => []) <$> x)) (hy : ∀ a, x = .ok a → IsReading d l ps (y a)) :
    IsReading d l (qs ++ ps) (x >>= y) := by
  have h := hx.andThen (g := fun _ xs => xs) fun a ha => by simpa using hy a ha
  simpa only [List.nil_append, bind_pure] using h

/-- A position that gives no elements, and what follows it. -/
theorem first {q : Position} {x : Reads α} {y : α → Reads (List Element)}
    (hx : IsReading d l [q] ((fun _ => []) <$> x))
    (hy : ∀ a, x = .ok a → IsReading d l ps (y a)) : IsReading d l (q :: ps) (x >>= y) :=
  hx.after hy

/-- A reading, and a check that leaves its elements as they are. -/
theorem checked {x : Reads α} {f : α → List Element} {y : α → Reads β} {g : β → List Element}
    (hx : IsReading d l qs (f <$> x))
    (hy : ∀ a, x = .ok a → IsReading d l ps ((fun _ => []) <$> y a))
    (same : ∀ a b, x = .ok a → y a = .ok b → g b = f a) :
    IsReading d l (qs ++ ps) (g <$> (x >>= y)) := by
  have h := hx.andThen (g := fun _ _ => []) hy
  cases hxa : x with
  | error e => rw [hxa] at h; exact h
  | ok a =>
    rw [hxa] at h
    cases hyb : y a with
    | error e =>
      simp only [bind, Except.bind, hyb] at h ⊢
      exact h
    | ok b =>
      simp only [bind, Except.bind, hyb, List.append_nil, ← same a b hxa hyb] at h ⊢
      exact h

/-- The same reading, its elements put together in another way: everything is still held, and no
location is new. -/
theorem regroup {x : Reads α} {f g : α → List Element} (hx : IsReading d l qs (f <$> x))
    (sub : ∀ a, x = .ok a → ∀ z ∈ f a, Holds (g a) z)
    (loc : ∀ a, x = .ok a → ∀ z, Holds (g a) z →
      z.loc = .unknown ∨ z.loc = l ∨ ∃ z', Holds (f a) z' ∧ z'.loc = z.loc) :
    IsReading d l qs (g <$> x) where
  fault := by rw [fault?_map, ← hx.fault, fault?_map]
  held xs hxs q hq r n here := by
    obtain ⟨a, ha, rfl⟩ := map_eq_ok_iff.1 hxs
    obtain ⟨z, hz, holds⟩ := hx.held _ (map_eq_ok_iff.2 ⟨a, ha, rfl⟩) q hq r n here
    exact ⟨z, hz, holds.of_forall (sub a ha)⟩
  placed xs hxs z hz := by
    obtain ⟨a, ha, rfl⟩ := map_eq_ok_iff.1 hxs
    obtain h | h | ⟨z', hz', same⟩ := loc a ha z hz
    · exact .inl h
    · exact .inr (.inl h)
    · rw [← same]
      exact hx.placed _ (map_eq_ok_iff.2 ⟨a, ha, rfl⟩) z' hz'

/-- The items of a list, one after the other. -/
theorem mapM {γ : Type} {f : β → List Element} {g : γ → Reads β} {pos : γ → Position} :
    ∀ {cs : List γ}, (∀ c ∈ cs, IsReading d l [pos c] (f <$> g c)) →
      IsReading d l (cs.map pos) (List.flatMap f <$> cs.mapM g)
  | [], _ => by simpa using nil
  | c :: cs, h => by
    have rest := mapM fun c hc => h c (List.mem_cons_of_mem _ hc)
    simp only [List.mapM_cons, map_bind, map_pure, List.flatMap_cons]
    exact (h c List.mem_cons_self).andThen (g := fun _ => List.flatMap f) fun _ _ => rest

/-- An ill-formed position gives nothing but its fault. -/
theorem failing {q : Position} {e : Nat × Cause} (wrong : q.wrong? d = some e) :
    IsReading d l [q] (.error ⟨namedFile d, e.1, e.2⟩) where
  fault := by rw [firstFault?_single, Position.fault?, wrong]; rfl
  held _ hxs := by simp at hxs
  placed _ hxs := by simp at hxs

/-- A well-formed position that holds no mapping of a node is read from what is below it. -/
theorem within {q : Position} {x : Reads (List Element)} (right : q.wrong? d = none)
    (plain : ∀ r n, ¬ q.Describes r n) (hx : IsReading d l (q.parts d) x) : IsReading d l [q] x where
  fault := by rw [firstFault?_single, Position.fault?, right, hx.fault]; rfl
  held xs hxs p hp r n here := by
    rw [visitedAll_single, List.mem_cons] at hp
    obtain rfl | hp := hp
    · exact (plain r n here).elim
    · exact hx.held xs hxs p hp r n here
  placed xs hxs z hz := by
    obtain h | h | ⟨p, hp, h⟩ := hx.placed xs hxs z hz
    · exact .inl h
    · exact .inr (.inl h)
    · exact .inr (.inr ⟨p, by simp [visitedAll_single, hp], h⟩)

/-- A position with nothing below it, read without elements. -/
theorem silent {x : Reads α} {q : Position} (leaf : q.parts d = [])
    (plain : ∀ r n, ¬ q.Describes r n) (same : fault? x = q.fault? d) :
    IsReading d l [q] ((fun _ => []) <$> x) := by
  cases x with
  | ok a =>
    refine within (Option.map_eq_none_iff.1 same.symm) plain ?_
    rw [leaf]
    exact nil
  | error e =>
    obtain ⟨w, hw, rfl⟩ := Option.map_eq_some_iff.1 same.symm
    exact failing hw

/-- **A mapping that describes a node** is read from what is below it. -/
theorem node {q : Position} {r : Role} {n : Node} (here : q.Describes r n)
    (hx : IsReading d (locationIn d (r.scope q.path n) n) (q.parts d)
      (partsOf <$> r.read (contextIn d q.path) n))
    (present : ∀ o, r.read (contextIn d q.path) n = .ok o →
      ∃ z, o = some z ∧ z.loc = locationIn d (r.scope q.path n) n) :
    IsReading d l [q] (Option.toList <$> r.read (contextIn d q.path) n) where
  fault := by
    have right : q.wrong? d = none := by
      simp [Position.wrong?, here.want, here.node, here.isMapping]
    rw [firstFault?_single, Position.fault?, right, fault?_map, ← hx.fault, fault?_map]
    rfl
  held xs hxs p hp r' n' here' := by
    obtain ⟨o, ho, rfl⟩ := map_eq_ok_iff.1 hxs
    obtain ⟨z, rfl, -⟩ := present o ho
    rw [visitedAll_single, List.mem_cons] at hp
    obtain rfl | hp := hp
    · obtain rfl : r = r' := Want.node.inj (here.want.symm.trans here'.want)
      obtain rfl : n = n' := Option.some.inj (here.node.symm.trans here'.node)
      exact ⟨z, ho, .here (List.mem_singleton_self z)⟩
    · obtain ⟨z', hz', holds⟩ := hx.held _ (map_eq_ok_iff.2 ⟨_, ho, rfl⟩) p hp r' n' here'
      exact ⟨z', hz', Holds.singleton_iff.2 (.inr holds)⟩
  placed xs hxs y hy := by
    obtain ⟨o, ho, rfl⟩ := map_eq_ok_iff.1 hxs
    obtain ⟨z, rfl, loc⟩ := present o ho
    have self : q ∈ visitedAll d [q] := by simp [visitedAll_single]
    obtain rfl | hy := Holds.singleton_iff.1 hy
    · exact .inr (.inr ⟨q, self, r, n, here, loc⟩)
    · obtain h | h | ⟨p, hp, h⟩ := hx.placed _ (map_eq_ok_iff.2 ⟨_, ho, rfl⟩) y hy
      · exact .inl h
      · exact .inr (.inr ⟨q, self, r, n, here, h⟩)
      · exact .inr (.inr ⟨p, by simp [visitedAll_single, hp], h⟩)

end IsReading

/-! ## Simple values -/

section Values

variable {α : Type} {d : Yaml.Document} {l : Location} {n : Node} {key : String}

/-- A simple value fails where it is neither absent nor null nor convertible. -/
theorem Context.fault?_value (read : Yaml.Document → Node → Convert (Option α)) (default : α)
    (ctx : Context) : fault? (ctx.value read default n key) = (n.field? key).bind fun v =>
      if v.isNull then none
      else (fault? (read ctx.document v).run).map fun r => ⟨ctx.file, v.line, .badValue key r⟩ := by
  unfold Context.value
  cases n.field? key with
  | none => rfl
  | some v =>
    by_cases null : v.isNull
    · simp [null, pure, Except.pure]
    · cases hr : (read ctx.document v).run <;> simp [null, hr, pure, Except.pure, Context.refuse]

/-- A simple value that is read is the one the document has. -/
theorem Context.value_eq_ok {read : Yaml.Document → Node → Convert (Option α)} {default a : α}
    {ctx : Context} (h : ctx.value read default n key = .ok a) :
    a = valueOf read default ctx.document n key := by
  unfold Context.value at h
  unfold valueOf
  cases hf : n.field? key with
  | none => simpa [hf, pure, Except.pure] using h.symm
  | some v =>
    by_cases null : v.isNull
    · simpa [hf, null, pure, Except.pure] using h.symm
    · cases hr : (read ctx.document v).run with
      | ok o => simpa [hf, null, hr, pure, Except.pure] using h.symm
      | error r => simp [hf, null, hr, Context.refuse] at h

/-- A simple value fails as its position does. -/
theorem Context.fault?_value_eq {t : Simple} {read : Yaml.Document → Node → Convert (Option α)}
    {default : α} (type : ∀ v, t.refusal? d v = fault? (read d v).run) (path : Path) (c f : Text)
    (w : Want) : fault? (Context.value read default ⟨d, namedFile d, c, f⟩ n key) =
      ((Position.ofRow path n (key, w)).valueFault? d t).map fun e => ⟨namedFile d, e.1, e.2⟩ := by
  rw [Context.fault?_value, Position.valueFault?, Position.ofRow]
  cases n.field? key with
  | none => rfl
  | some v =>
    by_cases null : v.isNull
    · simp [null]
    · simp [null, type, Function.comp_def]

theorem Position.parts_value (path : Path) (t : Simple) :
    (Position.ofRow path n (key, .value t)).parts d = [] := by
  cases h : n.field? key <;> simp [Position.parts, Position.ofRow, h]

theorem Position.parts_word (path : Path) (ws : Vocabulary) :
    (Position.ofRow path n (key, .word ws)).parts d = [] := by
  cases h : n.field? key <;> simp [Position.parts, Position.ofRow, h]

namespace IsReading

/-- A simple value is read from its position. -/
theorem value {t : Simple} {read : Yaml.Document → Node → Convert (Option α)} {default : α}
    (type : ∀ v, t.refusal? d v = fault? (read d v).run) (path : Path) (c f : Text) :
    IsReading d l [.ofRow path n (key, .value t)]
      ((fun _ => []) <$> Context.value read default ⟨d, namedFile d, c, f⟩ n key) :=
  silent (Position.parts_value path t) (fun _ _ h => Want.noConfusion h.want)
    (Context.fault?_value_eq type path c f _)

/-- A word that must be known is read from its position. -/
theorem word {ws : Vocabulary} {x : Reads α} (path : Path) (c f : Text)
    (same : fault? x = (fault? (Context.text ⟨d, namedFile d, c, f⟩ n key)).or
      (if ws.knows (textOf d n key) then none
        else some ⟨namedFile d, n.line, ws.cause (textOf d n key)⟩)) :
    IsReading d l [.ofRow path n (key, .word ws)] ((fun _ => []) <$> x) := by
  refine silent (Position.parts_word path ws) (fun _ _ h => Want.noConfusion h.want) ?_
  rw [same, Context.text, Context.fault?_value_eq (t := .text) (fun _ => rfl) path c f (.word ws),
    Position.fault?, Position.wrong?]
  cases ((Position.ofRow path n (key, .word ws)).valueFault? d .text) with
  | some e => rfl
  | none =>
    by_cases known : ws.knows (textOf d n key)
    · simp [Position.ofRow, known]
    · simp [Position.ofRow, known]

end IsReading
end Values
end PhpAudit.Tree
