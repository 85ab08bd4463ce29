import PhpAudit.Yaml.Node
import PhpAudit.Yaml.Tokens

/-!
# Reading a document

The first document of a text, read off its tokens by recursive descent. A node that is left out is an
empty scalar. Only as much of the text is read as the first document and the token after it need.

The fuel of the descent counts calls; every call that is not the last one reads a token, and the
wrapper `Document.parse` gives more fuel than a text has tokens: a character gives at most four.
-/

namespace PhpAudit.Yaml

/-- **The state of the reader**: the scanner, the tag handles in force, and the anchors met. -/
structure Reader where
  scanner : Scanner
  handles : List (String × Text)
  /-- The ordinals of the anchors by name, the latest first. -/
  anchors : List (String × Nat)
  count : Nat
  anchored : List (Nat × Node)

/-- A step of the reader. -/
abbrev Reading := StateT Reader (Except Fault)

namespace Reading

/-- The next token. -/
def peek : Reading Token := do
  let r ← get
  match StateT.run Fetch.peek r.scanner with
  | .ok (t, scanner) =>
    set { r with scanner }
    return t
  | .error f => throw f

/-- Takes the next token. -/
def skip : Reading Unit := modify fun r => { r with scanner := r.scanner.take }

/-- A fault at a token, inside of something that starts on a line. -/
def refuse {α : Type} (start : Nat) (t : Token) (problem : String) : Reading α :=
  throw (.inNode start t.line problem)

/-- The next token is one of these. -/
def ahead (kinds : List TokenKind) : Reading Bool := do return kinds.contains (← peek).kind

/-- A scalar that is left out, on a line counted from zero. -/
def emptyScalar (line : Nat) : Node := .scalar (line + 1) Tag.null ""

/-- The tag of a node: the one it is written with, unless that is the mark that means none. -/
def tagOr (written default : Text) : Text :=
  if written = "" ∨ written = "!" then default else Tag.short written

/-- The tag of a scalar by its style and spelling. -/
def scalarTag (style : Style) (value : String) : Text :=
  if style = .plain then
    if value = "<<" then Tag.merge else (Meaning.ofSpelling true value).tag
  else Tag.str

/-- What a written tag stands for, its handle looked up. -/
def expandTag (start : Nat) (t : Token) (handle : String) (suffix : Text) : Reading Text := do
  if handle = "" then return suffix
  match (← get).handles.lookup handle with
  | some expansion =>
    if expansion ++ suffix = "" then refuse start t "found undefined tag handle" else return expansion ++ suffix
  | none => refuse start t "found undefined tag handle"

/-- **The properties of a node**: its anchor and tag, in either order, and the line it starts on. -/
structure Properties where
  line : Nat
  anchor : Option String
  tag : Text

/-- The anchor and tag before a node. -/
def properties : Reading Properties := do
  let first ← peek
  match first.kind with
  | .anchor name =>
    skip
    let next ← peek
    match next.kind with
    | .tag handle suffix =>
      skip
      let _ ← peek
      return ⟨first.line, some name, ← expandTag first.line next handle suffix⟩
    | _ => return ⟨first.line, some name, ""⟩
  | .tag handle suffix =>
    skip
    let next ← peek
    match next.kind with
    | .anchor name =>
      skip
      let _ ← peek
      return ⟨first.line, some name, ← expandTag first.line first handle suffix⟩
    | _ => return ⟨first.line, none, ← expandTag first.line first handle suffix⟩
  | _ => return ⟨first.line, none, ""⟩

/-- Gives an anchor its ordinal, before the node that bears it is read. -/
def declareAnchor (anchor : Option String) : Reading (Option Nat) :=
  match anchor with
  | none => return none
  | some name => modifyGet fun r =>
      (some r.count, { r with anchors := (name, r.count) :: r.anchors, count := r.count + 1 })

/-- Keeps a node under the ordinal of its anchor. -/
def keepAnchored (ordinal : Option Nat) (n : Node) : Reading Node :=
  match ordinal with
  | none => return n
  | some i => modifyGet fun r => (n, { r with anchored := (i, n) :: r.anchored })

/-- An alias of the latest anchor of its name. -/
def aliasNode (t : Token) (name : String) : Reading Node := do
  match (← get).anchors.lookup name with
  | some i => return .reference (t.line + 1) name i
  | none => throw ⟨none, "unknown anchor '" ++ name ++ "' referenced"⟩

mutual

/-- **A node.** Block collections may start here when `block` is set, and a sequence that is not
indented when `flush` is. -/
def node (block flush : Bool) : Nat → Reading Node
  | 0 => do refuse 0 (← peek) "did not find expected node content"
  | fuel + 1 => do
    let t ← peek
    if let .reference name := t.kind then
      let n ← aliasNode t name
      skip
      return n
    let p ← properties
    let t ← peek
    let line := p.line + 1
    match t.kind with
    | .scalar style value =>
      let ordinal ← declareAnchor p.anchor
      skip
      keepAnchored ordinal (.scalar line (tagOr p.tag (scalarTag style value)) value)
    | .flowSequenceStart =>
      let ordinal ← declareAnchor p.anchor
      skip
      keepAnchored ordinal (.sequence line (tagOr p.tag Tag.seq) (← flowItems t.line true fuel))
    | .flowMappingStart =>
      let ordinal ← declareAnchor p.anchor
      skip
      keepAnchored ordinal (.mapping line (tagOr p.tag Tag.map) (← flowEntries t.line true fuel))
    | kind =>
      if flush && kind == .blockEntry then
        let ordinal ← declareAnchor p.anchor
        keepAnchored ordinal (.sequence line (tagOr p.tag Tag.seq) (← flushItems fuel))
      else if block && kind == .blockSequenceStart then
        let ordinal ← declareAnchor p.anchor
        skip
        keepAnchored ordinal (.sequence line (tagOr p.tag Tag.seq) (← blockItems t.line fuel))
      else if block && kind == .blockMappingStart then
        let ordinal ← declareAnchor p.anchor
        skip
        keepAnchored ordinal (.mapping line (tagOr p.tag Tag.map) (← blockEntries t.line fuel))
      else if p.anchor.isSome || p.tag != "" then
        let ordinal ← declareAnchor p.anchor
        keepAnchored ordinal (.scalar line (tagOr p.tag (scalarTag .plain "")) "")
      else refuse p.line t "did not find expected node content"
termination_by structural fuel => fuel

/-- The items of an indented sequence, and its end. -/
def blockItems (start : Nat) : Nat → Reading (List Node)
  | 0 => do refuse 0 (← peek) "did not find expected '-' indicator"
  | fuel + 1 => do
    let t ← peek
    match t.kind with
    | .blockEntry =>
      skip
      let item ← do
        if ← ahead [.blockEntry, .blockEnd] then pure (emptyScalar t.lastLine) else node true false fuel
      return item :: (← blockItems start fuel)
    | .blockEnd =>
      skip
      return []
    | _ => refuse start t "did not find expected '-' indicator"
termination_by structural fuel => fuel

/-- The items of a sequence that is not indented. -/
def flushItems : Nat → Reading (List Node)
  | 0 => return []
  | fuel + 1 => do
    let t ← peek
    match t.kind with
    | .blockEntry =>
      skip
      let item ← do
        if ← ahead [.blockEntry, .key, .value, .blockEnd] then pure (emptyScalar t.lastLine)
        else node true false fuel
      return item :: (← flushItems fuel)
    | _ => return []
termination_by structural fuel => fuel

/-- The entries of a block mapping, and its end. -/
def blockEntries (start : Nat) : Nat → Reading (List (Node × Node))
  | 0 => do refuse 0 (← peek) "did not find expected key"
  | fuel + 1 => do
    let t ← peek
    match t.kind with
    | .key =>
      skip
      let key ← do
        if ← ahead [.key, .value, .blockEnd] then pure (emptyScalar t.lastLine)
        else node true true fuel
      let v ← peek
      let value ← do
        if v.kind == .value then
          skip
          if ← ahead [.key, .value, .blockEnd] then pure (emptyScalar v.lastLine)
          else node true true fuel
        else pure (emptyScalar v.line)
      return (key, value) :: (← blockEntries start fuel)
    | .blockEnd =>
      skip
      return []
    | _ => refuse start t "did not find expected key"
termination_by structural fuel => fuel

/-- The items of a bracketed sequence, and its end. An entry written as a key is a mapping of one
entry. -/
def flowItems (start : Nat) (first : Bool) : Nat → Reading (List Node)
  | 0 => do refuse 0 (← peek) "did not find expected ',' or ']'"
  | fuel + 1 => do
    let t ← peek
    if t.kind == .flowSequenceEnd then
      skip
      return []
    if !first then
      if t.kind == .flowEntry then skip else refuse start t "did not find expected ',' or ']'"
    let t ← peek
    match t.kind with
    | .key =>
      skip
      let entry ← flowPair fuel
      return .mapping (t.line + 1) Tag.map [entry] :: (← flowItems start false fuel)
    | .flowSequenceEnd =>
      skip
      return []
    | _ =>
      let item ← node false false fuel
      return item :: (← flowItems start false fuel)
termination_by structural fuel => fuel

/-- The entry of a mapping that stands as an item of a bracketed sequence. A key that is left out
takes the token after it along. -/
def flowPair : Nat → Reading (Node × Node)
  | 0 => do refuse 0 (← peek) "did not find expected node content"
  | fuel + 1 => do
    let k ← peek
    let key ← do
      if [.value, .flowEntry, .flowSequenceEnd].contains k.kind then
        skip
        pure (emptyScalar k.lastLine)
      else node false false fuel
    let v ← peek
    if v.kind == .value then
      skip
      unless ← ahead [.flowEntry, .flowSequenceEnd] do
        return (key, ← node false false fuel)
    return (key, emptyScalar v.line)
termination_by structural fuel => fuel

/-- The entries of a braced mapping, and its end. -/
def flowEntries (start : Nat) (first : Bool) : Nat → Reading (List (Node × Node))
  | 0 => do refuse 0 (← peek) "did not find expected ',' or '\x7d'"
  | fuel + 1 => do
    let t ← peek
    if t.kind == .flowMappingEnd then
      skip
      return []
    if !first then
      if t.kind == .flowEntry then skip else refuse start t "did not find expected ',' or '\x7d'"
    let t ← peek
    match t.kind with
    | .key =>
      skip
      let key ← do
        if ← ahead [.value, .flowEntry, .flowMappingEnd] then pure (emptyScalar (← peek).line)
        else node false false fuel
      let value ← do
        if (← peek).kind == .value then
          skip
          if ← ahead [.flowEntry, .flowMappingEnd] then pure (emptyScalar (← peek).line)
          else node false false fuel
        else pure (emptyScalar (← peek).line)
      return (key, value) :: (← flowEntries start false fuel)
    | .flowMappingEnd =>
      skip
      return []
    | _ =>
      let key ← node false false fuel
      let value := emptyScalar (← peek).line
      return (key, value) :: (← flowEntries start false fuel)
termination_by structural fuel => fuel

end

/-- The directives before a document: at most one version, which is 1.1, and handles, each given
once. -/
def directives (versioned : Bool) : Nat → Reading Unit
  | 0 => return ()
  | fuel + 1 => do
    let t ← peek
    match t.kind with
    | .versionDirective major minor =>
      if versioned then refuse 0 t "found duplicate %YAML directive"
      if major != 1 || minor != 1 then refuse 0 t "found incompatible YAML document"
      skip
      directives true fuel
    | .tagDirective handle expansion =>
      if ((← get).handles.lookup handle).isSome then refuse 0 t "found duplicate %TAG directive"
      modify fun r => { r with handles := (handle, expansion) :: r.handles }
      skip
      directives versioned fuel
    | _ => return ()

/-- The handles that need no directive. -/
def defaultHandles : List (String × Text) := [("!", "!"), ("!!", Tag.corePrefix)]

/-- The tokens that stand between documents. -/
def isOutside : TokenKind → Bool
  | .versionDirective _ _ | .tagDirective _ _ | .documentStart | .streamEnd => true
  | _ => false

/-- **The first document**; `none` when there is none. -/
def document (fuel : Nat) : Reading (Option Node) := do
  let _ ← peek
  skip
  let t ← peek
  if t.kind == .streamEnd then return none
  let root ← do
    if isOutside t.kind then
      directives false fuel
      let start ← peek
      if start.kind != .documentStart then refuse 0 start "did not find expected <document start>"
      skip
      modify fun r => { r with handles := r.handles ++ defaultHandles }
      let t ← peek
      if isOutside t.kind || t.kind == .documentEnd then pure (emptyScalar t.line)
      else node true false fuel
    else
      modify fun r => { r with handles := defaultHandles }
      node true false fuel
  let _ ← peek
  return some root

end Reading

/-- **The first document of a text**: `none` for a text without one, and a fault where the text is no
YAML as far as the document goes. -/
def Document.parse (text : Text) : Except Fault (Option Document) := do
  let scanner := Scanner.start text
  let (root, r) ← (Reading.document (8 * scanner.source.size + 16)).run ⟨scanner, [], [], 0, []⟩
  return root.map (⟨·, r.anchored⟩)

end PhpAudit.Yaml
