import PhpAudit.Log
import PhpAudit.Tree.Basic
import PhpAudit.Usage.Identity

/-!
# The ledger of declarations and uses

A ledger keeps the declarations whose file starts with one of its **paths**, and counts the uses of
every identity. Identities that differ by letter case only are one: the first declaration of an
identity is kept, later ones are not. A ledger without paths keeps no declaration.

A kept declaration is **unused** when its identity was never used.
-/

namespace PhpAudit

open PhpAudit.Tree (FunctionHead ClassHead)

/-- **The ledger.** Both lists are keyed by the folded text of an identity, each key once. -/
structure Ledger where
  paths : List Text
  /-- What texts are compared by. -/
  fold : Text → Text
  declared : List (Text × Declaration)
  uses : List (Text × Nat)

namespace Ledger

/-- The empty ledger of some paths, where texts are compared by some fold. -/
def comparing (fold : Text → Text) (paths : List Text) : Ledger := ⟨paths, fold, [], []⟩

/-- The empty ledger of some paths, where letter case is ignored. -/
def empty (paths : List Text) : Ledger := comparing Text.fold paths

/-- An empty ledger of the same paths. -/
def fork (l : Ledger) : Ledger := comparing l.fold l.paths

/-- Declarations can be kept. -/
def isEnabled (l : Ledger) : Bool := !l.paths.isEmpty

/-- The key of an identity, given by its text. -/
def key (l : Ledger) (identity : Text) : Text := l.fold identity

/-- A file under one of the paths. -/
def covers (l : Ledger) (file : Text) : Bool := l.paths.any fun p => file.startsWith p

/-- **Declares** an identity, unless it cannot be kept or is declared already. -/
def declare (l : Ledger) (d : Declaration) : Ledger × List Message :=
  if l.paths.isEmpty || d.loc.isUnknown then (l, [])
  else if !l.covers d.loc.file then
    (l, [⟨.trace, "Skipping declaration on unallowed path: " ++ d.text⟩])
  else if (l.declared.lookup (l.key d.name)).isSome then
    (l, [⟨.debug, "Collector already contains a declaration for " ++ d.name⟩])
  else
    ({ l with declared := l.declared ++ [(l.key d.name, d)] },
      [⟨.trace, "Adding declaration of " ++ d.name⟩])

/-- A count list with some uses of a key added. -/
def addCount (key : Text) (n : Nat) : List (Text × Nat) → List (Text × Nat)
  | [] => [(key, n)]
  | (k, c) :: rest => if k = key then (k, c + n) :: rest else (k, c) :: addCount key n rest

/-- **Counts a use** of an identity, given by its text. -/
def use (l : Ledger) (identity : Text) : Ledger :=
  { l with uses := addCount (l.key identity) 1 l.uses }

/-- The number of uses of an identity, given by its text. -/
def useCount (l : Ledger) (identity : Text) : Nat := (l.uses.lookup (l.key identity)).getD 0

/-- A name that the language itself calls. -/
def isMagic (name : Text) : Bool := name.startsWith "__"

/-- What declaring a function means for the ledger. -/
inductive Eligibility where
  /-- The function is kept track of under an identity. -/
  | tracked (i : Identity)
  /-- A method named like its class, which makes objects. -/
  | namedLikeClass
  /-- A closure, a magic method, or a method that is not public. -/
  | untracked
deriving DecidableEq, Repr

/-- The identity under which a function is kept track of, if it is. -/
def eligibility (f : FunctionHead) : Eligibility :=
  if f.isClosure || isMagic f.name then .untracked
  else if !f.isMethod then .tracked (.ofFunction f.name)
  else if f.className = f.name then .namedLikeClass
  else if f.visibility ≠ .isPublic then .untracked
  else if f.isStatic then .tracked (.ofStaticMethod f.name)
  else .tracked (.ofMethod f.name)

/-- **Declares a function.** -/
def declareFunction (l : Ledger) (f : FunctionHead) : Ledger × List Message :=
  match eligibility f with
  | .tracked i => l.declare ⟨i, f.loc⟩
  | .namedLikeClass => (l, [⟨.debug, "Found old fashioned constructor: " ++ f.text⟩])
  | .untracked => (l, [])

/-- The classes that a class uses by its declaration: its parent and its interfaces. -/
def ancestors (c : ClassHead) : List Text :=
  (if c.parent = "" then [] else [c.parent]) ++ c.interfaces

/-- **Declares a class**, which uses its parent and its interfaces. -/
def declareClass (l : Ledger) (c : ClassHead) : Ledger × List Message :=
  let (l, ms) := l.declare ⟨.ofClass c.name, c.loc⟩
  ((ancestors c).foldl (fun l name => l.use (Identity.ofClass name).text) l, ms)

/-- The kept declarations by file, line and name. -/
def declarations (l : Ledger) : List Declaration :=
  (l.declared.map (·.2)).mergeSort Declaration.before

/-- **The kept declarations whose identity was never used.** -/
def unused (l : Ledger) : List Declaration :=
  l.declarations.filter fun d => (l.uses.lookup (l.key d.name)).isNone

/-- What is logged when the unused declarations are looked for. -/
def unusedMessages (l : Ledger) : List Message :=
  ⟨.info, "Starting analysis of " ++ toString l.declared.length ++ " declarations"⟩
    :: l.unused.map fun d => ⟨.info, "Found unused declaration: " ++ d.text⟩

/-- **Merges** another ledger: declarations of the first win, and uses are summed. -/
def merge (l other : Ledger) : Ledger where
  paths := l.paths
  fold := l.fold
  declared := other.declared.foldl (fun ds d =>
    if (ds.lookup d.1).isSome then ds else ds ++ [d]) l.declared
  uses := other.uses.foldl (fun us u => addCount u.1 u.2 us) l.uses

end Ledger

end PhpAudit
