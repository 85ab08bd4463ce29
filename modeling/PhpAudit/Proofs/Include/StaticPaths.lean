import Mathlib.Logic.Relation
import PhpAudit.Include.Site
import PhpAudit.Proofs.Text.LetterCase
import PhpAudit.Proofs.Tree.Chains

/-!
# Static paths

Which path an expression stands for, said by rules (`Spells`): a string literal stands for itself, the
constants for the file and its directory, a call of `dirname` for the directory of the path of its only
argument, and a concatenation for the paths of its values, one after the other. Neither the argument of
a call nor a concatenation may be empty.

**The laws.**
* The static path of an expression is the path that it stands for by these rules
  (`ofOperand_eq_some_iff`), so there is at most one.
* An expression has no static path exactly when one of its parts is at fault (`ofOperand_eq_none_iff`).
  The parts are those that the rules read (`Reads`), and a part is at fault (`IsFlawed`) by itself: it is
  of another kind, or has the wrong number of arguments, or gives nothing where a path is asked for.
-/

namespace PhpAudit.StaticPath

open PhpAudit.Tree (Expr Link)

/-- **The name of a call of `dirname`**, in any letter case. -/
def IsDirname (name : Text) : Prop := Text.IsInAnyCase "dirname" name

theorem sameLetters_dirname_iff {name : Text} :
    Text.sameLetters name "dirname" = true ↔ IsDirname name :=
  Text.sameLetters_iff (List.all_eq_true.mp rfl) name

/-! ## The rules -/

/-- **An operand stands for a path** in a file. -/
inductive Spells (file : Text) : Option Expr → Text → Prop
  | string (l : Location) (v : Text) : Spells file (some (.atom l (.string v))) v
  | file (l : Location) : Spells file (some (.atom l .file)) file
  | directory (l : Location) : Spells file (some (.atom l .directory)) (Path.directory file)
  | dirname (l : Location) {name : Text} (qualified : Text) {x : Option Expr} {p : Text} :
      IsDirname name → Spells file x p → p ≠ "" →
      Spells file (some (.call l (.function name qualified) [x])) (Path.directory p)
  | chain (l : Location) {v : Option Expr} {links : List Link} {ps : List Text} :
      List.Forall₂ (Spells file) (v :: links.map Link.value) ps → Text.join ps ≠ "" →
      Spells file (some (.append l v links)) (Text.join ps)

/-- **An operand reads a part**: the argument of `dirname`, or a value of a concatenation. -/
inductive Reads : Option Expr → Option Expr → Prop
  | argument (l : Location) {name : Text} (qualified : Text) (x : Option Expr) : IsDirname name →
      Reads (some (.call l (.function name qualified) [x])) x
  | value (l : Location) {v : Option Expr} {links : List Link} {x : Option Expr} :
      x ∈ v :: links.map Link.value → Reads (some (.append l v links)) x

/-- **The kinds of expressions that have a static path.** -/
inductive IsStatic : Expr → Prop
  | string (l : Location) (v : Text) : IsStatic (.atom l (.string v))
  | file (l : Location) : IsStatic (.atom l .file)
  | directory (l : Location) : IsStatic (.atom l .directory)
  | dirname (l : Location) {name : Text} (qualified : Text) (args : List (Option Expr)) :
      IsDirname name → IsStatic (.call l (.function name qualified) args)
  | chain (l : Location) (v : Option Expr) (links : List Link) : IsStatic (.append l v links)

/-- **An operand is at fault by itself.** -/
inductive IsFlawed (file : Text) : Option Expr → Prop
  | missing : IsFlawed file none
  | kind {e : Expr} : ¬ IsStatic e → IsFlawed file (some e)
  | arguments (l : Location) {name : Text} (qualified : Text) {args : List (Option Expr)} :
      IsDirname name → args.length ≠ 1 →
      IsFlawed file (some (.call l (.function name qualified) args))
  | noDirectory (l : Location) {name : Text} (qualified : Text) {x : Option Expr} :
      IsDirname name → Spells file x "" →
      IsFlawed file (some (.call l (.function name qualified) [x]))
  | nothing (l : Location) {v : Option Expr} {links : List Link} {ps : List Text} :
      List.Forall₂ (Spells file) (v :: links.map Link.value) ps → Text.join ps = "" →
      IsFlawed file (some (.append l v links))

/-- A part is smaller than what reads it. -/
theorem Reads.sizeOf_lt {x y : Option Expr} (h : Reads x y) : sizeOf y < sizeOf x := by
  cases h with
  | argument =>
    simp only [Option.some.sizeOf_spec, Expr.call.sizeOf_spec, List.cons.sizeOf_spec]
    omega
  | value l h =>
    simp only [Option.some.sizeOf_spec, Expr.append.sizeOf_spec]
    obtain rfl | h := List.mem_cons.mp h
    · omega
    · obtain ⟨⟨l', v'⟩, hl, rfl⟩ := List.mem_map.mp h
      have link := List.sizeOf_lt_of_mem hl
      simp only [Link.mk.sizeOf_spec] at link
      simp only [Link.value]
      omega

/-- **Induction over the parts of an operand.** -/
theorem Reads.induction {motive : Option Expr → Prop}
    (step : ∀ x, (∀ y, Reads x y → motive y) → motive x) (x : Option Expr) : motive x :=
  (measure (sizeOf : Option Expr → Nat)).wf.induction x fun x ih =>
    step x fun y h => ih y h.sizeOf_lt

/-! ## What the rules give -/

section Path

variable {file p : Text}

theorem directoryOf_eq_some_iff {q : Text} :
    directoryOf q = some p ↔ q ≠ "" ∧ p = Path.directory q := by
  unfold directoryOf
  split
  · next empty => simp [empty]
  · next some => simp [some, eq_comm]

/-- A call has a static path when it is one of `dirname` with one argument, and that has a path. -/
theorem ofOperand_call {l : Location} {name qualified : Text} {args : List (Option Expr)} :
    ofOperand file (some (.call l (.function name qualified) args)) = some p ↔
      IsDirname name ∧ ∃ x q, args = [x] ∧ ofOperand file x = some q ∧ q ≠ "" ∧
        p = Path.directory q := by
  rw [ofOperand, ofExpr, ← sameLetters_dirname_iff]
  split
  · next dirname =>
    rcases args with _ | ⟨x, _ | ⟨y, ys⟩⟩
    · simp [ofOnly]
    · simp [ofOnly, dirname, Option.bind_eq_some_iff, directoryOf_eq_some_iff]
    · simp [ofOnly]
  · next other => simp [other]

/-- Operands have static paths, one by one. -/
def HavePaths (file : Text) : List (Option Expr) → List Text → Prop :=
  List.Forall₂ fun x p => ofOperand file x = some p

theorem havePaths_cons_iff {x : Option Expr} {xs : List (Option Expr)} {ps : List Text} :
    HavePaths file (x :: xs) ps ↔
      ∃ q qs, ofOperand file x = some q ∧ HavePaths file xs qs ∧ ps = q :: qs := by
  rw [HavePaths, List.forall₂_cons_left_iff]

theorem ofLinks_eq_some_iff {links : List Link} : ofLinks file links = some p ↔
    ∃ ps, HavePaths file (links.map Link.value) ps ∧ p = Text.join ps := by
  induction links generalizing p with
  | nil =>
    rw [ofLinks, List.map_nil]
    constructor
    · intro same
      exact ⟨[], .nil, (Option.some.inj same).symm⟩
    · rintro ⟨ps, none, rfl⟩
      cases none
      rfl
  | cons link links ih =>
    obtain ⟨l, v⟩ := link
    rw [ofLinks, List.map_cons]
    simp only [havePaths_cons_iff]
    constructor
    · intro same
      split at same
      · next a b first rest =>
        obtain ⟨ps, paths, rfl⟩ := ih.mp rest
        exact ⟨a :: ps, ⟨a, ps, first, paths, rfl⟩, (Option.some.inj same).symm⟩
      · cases same
    · rintro ⟨-, ⟨a, ps, first, paths, rfl⟩, rfl⟩
      have first : ofOperand file v = some a := first
      rw [first, ih.mpr ⟨ps, paths, rfl⟩]
      rfl

/-- A concatenation has a static path when all its values have one, and together they are not empty. -/
theorem ofOperand_append {l : Location} {v : Option Expr} {links : List Link} :
    ofOperand file (some (.append l v links)) = some p ↔
      ∃ ps, HavePaths file (v :: links.map Link.value) ps ∧ p = Text.join ps ∧ p ≠ "" := by
  rw [ofOperand, ofExpr]
  simp only [havePaths_cons_iff]
  constructor
  · intro same
    split at same
    · next a b first rest =>
      obtain ⟨ps, paths, rfl⟩ := ofLinks_eq_some_iff.mp rest
      split at same
      · cases same
      · next some =>
        obtain rfl := Option.some.inj same
        exact ⟨a :: ps, ⟨a, ps, first, paths, rfl⟩, rfl, some⟩
    · cases same
  · rintro ⟨-, ⟨a, ps, first, paths, rfl⟩, rfl, some⟩
    rw [first, ofLinks_eq_some_iff.mpr ⟨ps, paths, rfl⟩]
    exact if_neg some

theorem ofOperand_file (named : file ≠ "") (l : Location) :
    ofOperand file (some (.atom l .file)) = some file := if_neg named

theorem ofOperand_directory (named : file ≠ "") (l : Location) :
    ofOperand file (some (.atom l .directory)) = some (Path.directory file) := if_neg named

/-- Another kind of expression has no static path. -/
theorem ofOperand_of_not_isStatic {e : Expr} (other : ¬ IsStatic e) : ofOperand file (some e) = none := by
  cases e with
  | atom l a =>
    cases a with
    | string v => exact absurd (.string l v) other
    | file => exact absurd (.file l) other
    | directory => exact absurd (.directory l) other
    | _ => rfl
  | call l callee args =>
    cases callee with
    | function name qualified =>
      refine if_neg fun same => other ?_
      exact .dirname l qualified args (sameLetters_dirname_iff.mp same)
    | _ => rfl
  | append l v links => exact absurd (.chain l v links) other
  | _ => rfl

/-- All of some operands have static paths, or one has none. -/
theorem havePaths_or (file : Text) (xs : List (Option Expr)) :
    (∃ ps, HavePaths file xs ps) ∨ ∃ x ∈ xs, ofOperand file x = none := by
  induction xs with
  | nil => exact .inl ⟨[], .nil⟩
  | cons x xs ih =>
    cases path : ofOperand file x with
    | none => exact .inr ⟨x, List.mem_cons_self, path⟩
    | some p =>
      obtain ⟨ps, paths⟩ | ⟨y, hy, none⟩ := ih
      · exact .inl ⟨p :: ps, .cons path paths⟩
      · exact .inr ⟨y, List.mem_cons_of_mem x hy, none⟩

theorem havePaths_iff_of_mem {xs : List (Option Expr)} {ps : List Text}
    (each : ∀ x ∈ xs, ∀ p, ofOperand file x = some p ↔ Spells file x p) :
    HavePaths file xs ps ↔ List.Forall₂ (Spells file) xs ps := by
  induction xs generalizing ps with
  | nil => rw [HavePaths, List.forall₂_nil_left_iff, List.forall₂_nil_left_iff]
  | cons x xs ih =>
    obtain ⟨first, each⟩ := List.forall_mem_cons.mp each
    simp only [havePaths_cons_iff, List.forall₂_cons_left_iff, first, ih each]

/-! ## The laws -/

/-- **The static path of an operand** is what it stands for. -/
theorem ofOperand_eq_some_iff (named : file ≠ "") {x : Option Expr} :
    ofOperand file x = some p ↔ Spells file x p := by
  induction x using Reads.induction generalizing p with | step x ih
  constructor
  · intro path
    rcases x with _ | e
    · cases path
    by_cases kind : IsStatic e
    · cases kind with
      | string l v =>
        obtain rfl := Option.some.inj path
        exact .string l v
      | file l =>
        obtain rfl := Option.some.inj ((ofOperand_file named l).symm.trans path)
        exact .file l
      | directory l =>
        obtain rfl := Option.some.inj ((ofOperand_directory named l).symm.trans path)
        exact .directory l
      | dirname l qualified args dirname =>
        obtain ⟨-, x, q, rfl, argument, some, rfl⟩ := ofOperand_call.mp path
        exact .dirname l qualified dirname ((ih x (.argument l qualified x dirname)).mp argument) some
      | chain l v links =>
        obtain ⟨ps, paths, rfl, some⟩ := ofOperand_append.mp path
        exact .chain l ((havePaths_iff_of_mem fun x hx _ => ih x (.value l hx)).mp paths) some
    · rw [ofOperand_of_not_isStatic kind] at path
      cases path
  · intro spells
    cases spells with
    | string l v => rfl
    | file l => exact ofOperand_file named l
    | directory l => exact ofOperand_directory named l
    | dirname l qualified dirname argument some =>
      have path := (ih _ (.argument l qualified _ dirname)).mpr argument
      exact ofOperand_call.mpr ⟨dirname, _, _, rfl, path, some, rfl⟩
    | chain l values some =>
      have paths := (havePaths_iff_of_mem fun x hx _ => ih x (.value l hx)).mpr values
      exact ofOperand_append.mpr ⟨_, paths, rfl, some⟩

/-- An operand stands for one path. -/
theorem Spells.unique (named : file ≠ "") {x : Option Expr} {q : Text} (hp : Spells file x p)
    (hq : Spells file x q) : p = q := by
  rw [← ofOperand_eq_some_iff named] at hp hq
  exact Option.some.inj (hp.symm.trans hq)

theorem havePaths_iff (named : file ≠ "") {xs : List (Option Expr)} {ps : List Text} :
    HavePaths file xs ps ↔ List.Forall₂ (Spells file) xs ps :=
  havePaths_iff_of_mem fun _ _ _ => ofOperand_eq_some_iff named

theorem HavePaths.unique {xs : List (Option Expr)} {ps qs : List Text} (h : HavePaths file xs ps)
    (h' : HavePaths file xs qs) : ps = qs :=
  Relator.RightUnique.forall₂ (fun _ _ _ hp hq => Option.some.inj (hp.symm.trans hq)) h h'

theorem HavePaths.exists_of_mem {xs : List (Option Expr)} {ps : List Text} (h : HavePaths file xs ps)
    {x : Option Expr} (hx : x ∈ xs) : ∃ p, ofOperand file x = some p := by
  induction h with
  | nil => cases hx
  | cons first _ ih =>
    obtain rfl | hx := List.mem_cons.mp hx
    · exact ⟨_, first⟩
    · exact ih hx

/-- What reads a part without a static path has none. -/
theorem ofOperand_eq_none_of_reads {x y : Option Expr} (reads : Reads x y)
    (absent : ofOperand file y = none) : ofOperand file x = none := by
  rw [Option.eq_none_iff_forall_ne_some]
  intro p path
  cases reads with
  | argument l qualified y dirname =>
    obtain ⟨-, x, q, same, argument, -⟩ := ofOperand_call.mp path
    obtain rfl := List.singleton_inj.mp same
    cases absent.symm.trans argument
  | value l hy =>
    obtain ⟨ps, paths, -⟩ := ofOperand_append.mp path
    obtain ⟨q, value⟩ := paths.exists_of_mem hy
    cases absent.symm.trans value

/-- An operand that is at fault has no static path. -/
theorem ofOperand_eq_none_of_isFlawed (named : file ≠ "") {x : Option Expr}
    (flawed : IsFlawed file x) : ofOperand file x = none := by
  rw [Option.eq_none_iff_forall_ne_some]
  intro p path
  cases flawed with
  | missing => cases path
  | kind other => cases (ofOperand_of_not_isStatic other).symm.trans path
  | arguments l qualified dirname many =>
    obtain ⟨-, x, q, rfl, -⟩ := ofOperand_call.mp path
    exact many rfl
  | noDirectory l qualified dirname empty =>
    obtain ⟨-, x, q, same, argument, some, -⟩ := ofOperand_call.mp path
    obtain rfl := List.singleton_inj.mp same
    rw [← ofOperand_eq_some_iff named, argument] at empty
    exact some (Option.some.inj empty)
  | nothing l values empty =>
    obtain ⟨qs, paths, rfl, some⟩ := ofOperand_append.mp path
    rw [paths.unique ((havePaths_iff named).mpr values)] at some
    exact some empty

/-- **An operand has no static path** exactly when one of its parts is at fault. -/
theorem ofOperand_eq_none_iff (named : file ≠ "") {x : Option Expr} :
    ofOperand file x = none ↔ ∃ part, Relation.ReflTransGen Reads x part ∧ IsFlawed file part := by
  constructor
  · intro none
    induction x using Reads.induction with | step x ih
    have inside {y : Option Expr} (reads : Reads x y) (none : ofOperand file y = .none) :
        ∃ part, Relation.ReflTransGen Reads x part ∧ IsFlawed file part := by
      obtain ⟨part, below, flawed⟩ := ih y reads none
      exact ⟨part, below.head reads, flawed⟩
    rcases x with _ | e
    · exact ⟨_, .refl, .missing⟩
    by_cases kind : IsStatic e
    · cases kind with
      | string l v => cases none
      | file l => cases (ofOperand_file named l).symm.trans none
      | directory l => cases (ofOperand_directory named l).symm.trans none
      | dirname l qualified args dirname =>
        by_cases one : args.length = 1
        · obtain ⟨y, rfl⟩ := List.length_eq_one_iff.mp one
          cases path : ofOperand file y with
          | none => exact inside (.argument l qualified y dirname) path
          | some q =>
            by_cases empty : q = ""
            · rw [empty, ofOperand_eq_some_iff named] at path
              exact ⟨_, .refl, .noDirectory l qualified dirname path⟩
            · cases none.symm.trans (ofOperand_call.mpr ⟨dirname, y, q, rfl, path, empty, rfl⟩)
        · exact ⟨_, .refl, .arguments l qualified dirname one⟩
      | chain l v links =>
        obtain ⟨ps, paths⟩ | ⟨y, hy, path⟩ := havePaths_or file (v :: links.map Link.value)
        · by_cases empty : Text.join ps = ""
          · exact ⟨_, .refl, .nothing l ((havePaths_iff named).mp paths) empty⟩
          · cases none.symm.trans (ofOperand_append.mpr ⟨ps, paths, rfl, empty⟩)
        · exact inside (.value l hy) path
    · exact ⟨_, .refl, .kind kind⟩
  · rintro ⟨part, below, flawed⟩
    induction below using Relation.ReflTransGen.head_induction_on with
    | refl => exact ofOperand_eq_none_of_isFlawed named flawed
    | head reads _ ih => exact ofOperand_eq_none_of_reads reads ih

end Path

end PhpAudit.StaticPath
