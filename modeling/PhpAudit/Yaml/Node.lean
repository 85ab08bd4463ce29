import PhpAudit.Yaml.Meaning

/-!
# Nodes

The **node** is what a document says, free of how it is laid out: a scalar with its tag and spelling,
a sequence, a mapping with its entries in order, or an alias. An alias names an anchor; it holds the
anchor's ordinal among the anchors of the document, so that a name that is given twice means the
node that bore it last *before* the alias. A node may hold an alias of itself.

Lines count from one; a node stands on the line of its first token, anchor and tag included.
-/

namespace PhpAudit.Yaml

/-- **A node of a document.** Tags are kept in short form, and every scalar has one: the tag it was
written with, or the tag of what its spelling means. -/
inductive Node where
  | scalar (line : Nat) (tag : Text) (value : String)
  | sequence (line : Nat) (tag : Text) (items : List Node)
  | mapping (line : Nat) (tag : Text) (entries : List (Node × Node))
  /-- A reference to the anchor of the given ordinal. -/
  | reference (line : Nat) (name : String) (anchor : Nat)
deriving Inhabited, Repr

namespace Node

/-- The line of a node. -/
def line : Node → Nat
  | .scalar l _ _ | .sequence l _ _ | .mapping l _ _ | .reference l _ _ => l

/-- The tag of a node; an alias has none. -/
def tag : Node → Text
  | .scalar _ t _ | .sequence _ t _ | .mapping _ t _ => t
  | .reference _ _ _ => ""

/-- The text of a node by itself: the spelling of a scalar, the name of an alias. -/
def value : Node → String
  | .scalar _ _ v => v
  | .reference _ n _ => n
  | .sequence _ _ _ | .mapping _ _ _ => ""

/-- The node is a null that is written out; an alias of one is not. -/
def isNull : Node → Bool
  | .scalar _ t _ => t == Tag.null
  | _ => false

/-- The node is a mapping. -/
def isMapping : Node → Bool
  | .mapping _ _ _ => true
  | _ => false

/-- The node is a sequence. -/
def isSequence : Node → Bool
  | .sequence _ _ _ => true
  | _ => false

/-- Two nodes are of one kind. -/
def sameKind : Node → Node → Bool
  | .scalar _ _ _, .scalar _ _ _ | .sequence _ _ _, .sequence _ _ _
  | .mapping _ _ _, .mapping _ _ _ | .reference _ _ _, .reference _ _ _ => true
  | _, _ => false

/-- The entries of a mapping; any other node has none. -/
def entries : Node → List (Node × Node)
  | .mapping _ _ es => es
  | _ => []

/-- The items of a sequence; any other node has none. -/
def items : Node → List Node
  | .sequence _ _ ns => ns
  | _ => []

/-- **The value of a key** in a mapping, that of the first entry whose key has this text. -/
def field? (n : Node) (key : String) : Option Node :=
  (n.entries.find? fun e => e.1.value == key).map (·.2)

/-- An item of a sequence is smaller than the sequence. -/
theorem sizeOf_lt_of_mem_items {n c : Node} (h : c ∈ n.items) : sizeOf c < sizeOf n := by
  cases n with
  | sequence l t ns =>
    have := List.sizeOf_lt_of_mem h
    simp only [items] at this
    simp only [sequence.sizeOf_spec]
    omega
  | scalar | mapping | reference => simp [items] at h

/-- The value of an entry is smaller than its mapping. -/
theorem sizeOf_lt_of_mem_entries {n : Node} {e : Node × Node} (h : e ∈ n.entries) :
    sizeOf e.2 < sizeOf n := by
  cases n with
  | mapping l t es =>
    have := List.sizeOf_lt_of_mem h
    obtain ⟨k, v⟩ := e
    simp only [entries, Prod.mk.sizeOf_spec] at this
    simp only [mapping.sizeOf_spec]
    omega
  | scalar | sequence | reference => simp [entries] at h

/-- The value of a key is smaller than its mapping. -/
theorem sizeOf_lt_of_field? {n c : Node} {key : String} (h : n.field? key = some c) :
    sizeOf c < sizeOf n := by
  obtain ⟨e, he, rfl⟩ := Option.map_eq_some_iff.1 h
  exact sizeOf_lt_of_mem_entries (List.mem_of_find?_eq_some he)

end Node

/-- **A document**: its root, and the nodes that bear anchors, by ordinal. -/
structure Document where
  root : Node
  anchored : List (Nat × Node)
deriving Inhabited

/-- The node an alias stands for; any other node stands for itself. -/
def Document.follow (d : Document) : Node → Node
  | .reference l name i => (d.anchored.lookup i).getD (.reference l name i)
  | n => n

end PhpAudit.Yaml
