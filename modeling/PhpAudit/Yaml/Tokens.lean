import PhpAudit.Yaml.Comment
import PhpAudit.Yaml.Property

/-!
# Scanning a document

The scanner turns a document into tokens, as they are asked for. In block style it keeps the indentation
of the collections that are open: a deeper column opens one, and a line further left closes those it
leaves. In flow style only the brackets count.

A mapping key may stand without a mark: any token that could start one is remembered as a **pending
key**, one per level of brackets. A colon on the same line, at most 1024 characters on, makes it a
key; a pending key that has to be one (it stands where the keys of the open block mapping stand) and
finds no colon is a fault.

**What a reader sees.** A token is handed out only when two more have been fetched after it, and not
as long as it is listed as a pending key: so a fault is met as far ahead as that. Only a listed key is
waited for; the end of a bracket takes the latest key of its level off the list, and where there was
none, the bracket itself.
-/

namespace PhpAudit.Yaml

/-- **A token that may be the start of a key.** -/
structure PendingKey where
  /-- It can still become a key. -/
  possible : Bool
  /-- It must become a key. -/
  required : Bool
  /-- The number of tokens before it. -/
  number : Nat
  mark : Mark

/-- **The state of the scanner.** -/
structure Scanner where
  source : Source
  /-- The tokens that have been fetched and not been taken, in order. -/
  queue : List Token
  /-- The number of tokens that have been taken. -/
  taken : Nat
  /-- The number of tokens that have been fetched. -/
  count : Nat
  /-- The number of open brackets. -/
  flowLevel : Nat
  /-- The column of the innermost open block collection, −1 outside. -/
  indent : Int
  /-- The columns around it. -/
  indents : List Int
  /-- The number of open block collections. -/
  depth : Nat
  /-- A key without mark may start here. -/
  keyAllowed : Bool
  /-- The pending key of the current level. -/
  key : PendingKey
  /-- The pending keys of the levels around it, the innermost first. -/
  outerKeys : List PendingKey
  /-- The pending keys that are waited for, the latest first: the number of each, and its level. Those of
  tokens that were taken are forgotten. -/
  listed : List (Nat × Nat)

/-- A step of the scanner. -/
abbrev Fetch := StateT Scanner (Except Fault)

namespace Scanner

/-- The scanner at the start of a document. -/
def start (t : Text) : Scanner :=
  { source := .ofText t, queue := [], taken := 0, count := 0, flowLevel := 0, indent := -1
    indents := [], depth := 0, keyAllowed := true, key := ⟨false, false, 0, ⟨0, 0, 0⟩⟩
    outerKeys := [], listed := [] }

/-- The pending key of a level. -/
def keyAt? (s : Scanner) (level : Nat) : Option PendingKey :=
  if s.flowLevel ≤ level then some s.key else s.outerKeys[s.flowLevel - 1 - level]?

/-- The scanner with another pending key at a level. -/
def setKey (s : Scanner) (level : Nat) (k : PendingKey) : Scanner :=
  if s.flowLevel ≤ level then { s with key := k }
  else { s with outerKeys := s.outerKeys.set (s.flowLevel - 1 - level) k }

/-- Takes the key of a number off the list. -/
def unlist (s : Scanner) (number : Nat) : Scanner :=
  { s with listed := s.listed.filter fun e => e.1 != number }

/-- Adds a token at the end. -/
def push (s : Scanner) (kind : TokenKind) (line lastLine : Nat) : Scanner :=
  { s with queue := s.queue ++ [⟨kind, line, lastLine⟩], count := s.count + 1 }

/-- Puts a token in front of that of a number; at the end, if that was taken already. -/
def insert (s : Scanner) (number : Nat) (kind : TokenKind) (line : Nat) : Scanner :=
  if number < s.taken then s.push kind line line
  else { s with
    queue := s.queue.insertIdx (number - s.taken) ⟨kind, line, line⟩
    count := s.count + 1 }

/-- Takes the first token. -/
def take (s : Scanner) : Scanner := { s with queue := s.queue.tail, taken := s.taken + 1 }

/-- Closes the block collections that stand further right than a column. -/
def closeBlocks (column : Int) (line : Nat) : List Int → Scanner → Scanner
  | [], s => s
  | outer :: rest, s =>
    if s.indent > column then
      closeBlocks column line rest { s.push .blockEnd line line with
        indent := outer, indents := rest, depth := s.depth - 1 }
    else s

/-- Closes the block collections left of which the scanner has moved. -/
def unroll (s : Scanner) (column : Int) (line : Nat) : Scanner :=
  if s.flowLevel == 0 then closeBlocks column line s.indents s else s

end Scanner

namespace Fetch

/-- A step of the reading below. -/
def scan {α : Type} (step : Scan α) : Fetch α := do
  let s ← get
  match StateT.run step s.source with
  | .ok (a, source) =>
    set { s with source }
    return a
  | .error f => throw f

/-- The place reached. -/
def mark : Fetch Mark := do return (← get).source.mark

/-- A fault of a token that cannot stand here. -/
def fault {α : Type} (problem : String) : Fetch α := do
  throw (.inToken (← mark).line (← mark).line problem)

/-- The fault of a pending key that should have become one. -/
def keyFault {α : Type} (k : PendingKey) : Fetch α := do
  throw (.inToken k.mark.line (← mark).line "could not find expected ':'")

/-- How far a colon can be from the start of its key, in characters. -/
def keyReach : Nat := 1024

/-- **The pending key of a level can still become a key**; one that is out of reach is given up. -/
def keyIsLive (level : Nat) : Fetch Bool := do
  let s ← get
  match s.keyAt? level with
  | none => return false
  | some k =>
    let m := s.source.mark
    if !k.possible then return false
    if k.mark.line == m.line && m.index ≤ k.mark.index + keyReach then return true
    if k.required then keyFault k
    set (s.setKey level { k with possible := false })
    return false

/-- Gives up the pending key of the current level. -/
def dropKey : Fetch Unit := do
  let s ← get
  if s.key.possible then
    if s.key.required then keyFault s.key
    set ({ s with key := { s.key with possible := false } }.unlist s.key.number)

/-- Remembers the coming token as a pending key, where one is allowed. -/
def saveKey : Fetch Unit := do
  if (← get).keyAllowed then
    dropKey
    modify fun s =>
      let required := s.flowLevel == 0 && s.indent == (s.source.mark.column : Int)
      { s with
        key := ⟨true, required, s.count, s.source.mark⟩
        listed := (s.count, s.flowLevel) :: s.listed.takeWhile fun e => s.taken ≤ e.1 }

/-- Says whether a key without mark may start here. -/
def allowKey (allowed : Bool) : Fetch Unit := modify fun s => { s with keyAllowed := allowed }

/-- The number of collections that can be open one inside the other, of either style. -/
def deepest : Nat := 10000

/-- Opens a block collection at a column, if it is deeper than the open one. The collection starts in
front of the token of a number. -/
def openBlock (column number : Nat) (kind : TokenKind) (line : Nat) : Fetch Unit := do
  let s ← get
  if s.flowLevel == 0 && s.indent < column then
    if s.depth == deepest then fault "exceeded max depth of 10000"
    set { s.insert number kind line with
      indents := s.indent :: s.indents, depth := s.depth + 1, indent := column }

/-- Opens a block collection here, if it is deeper than the open one. -/
def openBlockHere (kind : TokenKind) : Fetch Unit := do
  let m ← mark
  openBlock m.column (← get).count kind m.line

/-- Past the spaces, comments and breaks before the next token. Tabs count as spaces only where no
key can start. -/
def toNextToken : Nat → Fetch Unit
  | 0 => return ()
  | fuel + 1 => do
    let s ← get
    let tabs := s.flowLevel > 0 || !s.keyAllowed
    let lineEnded ← scan do
      Scan.need 1
      let source ← get
      if source.mark.column == 0 && source.marked then Scan.skip
      let _ ← Scan.run fun c => c == ' ' || (tabs && c == '\t')
      if (← Scan.head) == some '#' then skipComments
      if (← Scan.head).any isBreak then
        Scan.need 2
        let _ ← Scan.lineBreak
        return true
      return false
    if lineEnded then
      if s.flowLevel == 0 then allowKey true
      toNextToken fuel

/-- A token, read by a step. -/
def accept (step : Scan TokenKind) : Fetch Unit := do
  let line := (← mark).line
  let kind ← scan step
  let last := (← mark).line
  modify (·.push kind line last)

/-- A token of one character. -/
def acceptOne (kind : TokenKind) : Fetch Unit := accept do
  Scan.skip
  return kind

/-- What stands outside of documents: every open collection is closed before it. -/
def leaveAll : Fetch Unit := do
  let m ← mark
  modify (·.unroll (-1) m.line)
  dropKey
  allowKey false

/-- The end of the document, on a line of its own. -/
def fetchEnd : Fetch Unit := do
  modify fun s =>
    let m := s.source.mark
    let m := if m.column == 0 then m else { m with line := m.line + 1, column := 0 }
    { s with source := { s.source with mark := m } }
  leaveAll
  let line := (← mark).line
  modify (·.push .streamEnd line line)

/-- A document marker. -/
def fetchMarker (kind : TokenKind) : Fetch Unit := do
  leaveAll
  accept do
    skipMany 3
    return kind

/-- The start of a flow collection. -/
def fetchFlowStart (kind : TokenKind) : Fetch Unit := do
  saveKey
  if (← get).flowLevel == deepest then fault "exceeded max depth of 10000"
  modify fun s => { s with
    flowLevel := s.flowLevel + 1
    outerKeys := s.key :: s.outerKeys
    key := ⟨false, false, s.count, s.source.mark⟩ }
  allowKey true
  acceptOne kind

/-- The end of a flow collection. -/
def fetchFlowEnd (kind : TokenKind) : Fetch Unit := do
  dropKey
  modify fun s =>
    match s.flowLevel, s.outerKeys with
    | n + 1, k :: ks => { s.unlist s.key.number with flowLevel := n, key := k, outerKeys := ks }
    | _, _ => s
  allowKey false
  acceptOne kind

/-- What separates the entries of a flow collection. -/
def fetchFlowEntry : Fetch Unit := do
  dropKey
  allowKey true
  acceptOne .flowEntry

/-- An entry of a block sequence. -/
def fetchBlockEntry : Fetch Unit := do
  let s ← get
  if s.flowLevel == 0 then
    if !s.keyAllowed then fault "block sequence entries are not allowed in this context"
    openBlockHere .blockSequenceStart
  dropKey
  allowKey true
  acceptOne .blockEntry

/-- A key with a mark before it. -/
def fetchKey : Fetch Unit := do
  let s ← get
  if s.flowLevel == 0 then
    if !s.keyAllowed then fault "mapping keys are not allowed in this context"
    openBlockHere .blockMappingStart
  dropKey
  allowKey (s.flowLevel == 0)
  acceptOne .key

/-- A colon: it makes a key of the pending key in reach, or else stands after a key with a mark. -/
def fetchValue : Fetch Unit := do
  let s ← get
  if ← keyIsLive s.flowLevel then
    let k := s.key
    modify (·.insert k.number .key k.mark.line)
    openBlock k.mark.column k.number .blockMappingStart k.mark.line
    modify fun s => { s with key := { k with possible := false } }.unlist k.number
    allowKey false
  else
    if s.flowLevel == 0 then
      if !s.keyAllowed then fault "mapping values are not allowed in this context"
      openBlockHere .blockMappingStart
    allowKey (s.flowLevel == 0)
  acceptOne .value

/-- A token that may start a key, read by a step. -/
def fetchKeyStart (step : Scan TokenKind) : Fetch Unit := do
  saveKey
  allowKey false
  accept step

/-- A block scalar. -/
def fetchBlockScalar (isLiteral : Bool) : Fetch Unit := do
  dropKey
  allowKey true
  let parent := (← get).indent
  accept do return .scalar (if isLiteral then .literal else .folded) (← scanBlockScalar isLiteral parent)

/-- A plain scalar. A line ended after its last word lets a key start. -/
def fetchPlain : Fetch Unit := do
  saveKey
  let s ← get
  let p ← scan (scanPlain (s.flowLevel > 0) (s.indent + 1).toNat)
  modify (·.push (.scalar .plain (String.ofList p.text)) s.source.mark.line p.lastLine)
  allowKey p.lineEnded

/-- A plain scalar may start with this character, given the one after it. -/
def startsPlain (inFlow : Bool) (c : Char) (next : Option Char) : Bool :=
  if c == '-' then !next.any isSpace
  else if c == '?' || c == ':' then !inFlow && !endsWord next
  else !(isSpace c || isBreak c || ",[]#&*!|>%@`\x7b\x7d\"".toList.contains c || c == '\x27')

/-- The token that starts with a character, given the one after it. -/
def fetchToken (c : Char) (next : Option Char) : Fetch Unit := do
  let inFlow := (← get).flowLevel > 0
  if c == '[' then fetchFlowStart .flowSequenceStart
  else if c == '\x7b' then fetchFlowStart .flowMappingStart
  else if c == ']' then fetchFlowEnd .flowSequenceEnd
  else if c == '\x7d' then fetchFlowEnd .flowMappingEnd
  else if c == ',' then fetchFlowEntry
  else if c == '-' && endsWord next then fetchBlockEntry
  else if c == '?' && (inFlow || endsWord next) then fetchKey
  else if c == ':' && (inFlow || endsWord next) then fetchValue
  else if c == '*' then fetchKeyStart do return .reference (← scanName)
  else if c == '&' then fetchKeyStart do return .anchor (← scanName)
  else if c == '!' then fetchKeyStart do
    let (handle, suffix) ← scanTag
    return .tag handle suffix
  else if c == '|' && !inFlow then fetchBlockScalar true
  else if c == '>' && !inFlow then fetchBlockScalar false
  else if c == '\x27' then fetchKeyStart do return .scalar .singleQuoted (← scanQuoted true)
  else if c == '\x22' then fetchKeyStart do return .scalar .doubleQuoted (← scanQuoted false)
  else if startsPlain inFlow c next then fetchPlain
  else fault "found character that cannot start any token"
  if !(c == '-' && endsWord next) then scan skipLineComment

/-- **Fetches the next token**, and with it those that it opens or closes. -/
def fetch : Fetch Unit := do
  scan (Scan.need 1)
  if (← get).count == 0 then modify (·.push .streamStart 0 0)
  else
    let line := (← mark).line
    toNextToken (← scan Scan.bound)
    let m ← mark
    modify fun s => { s.unroll m.column line with source := { s.source with start := m.line } }
    scan (Scan.need 4)
    let source := (← get).source
    match source.rest.head? with
    | none => fetchEnd
    | some c =>
      if c == '%' && source.mark.column == 0 then
        leaveAll
        accept scanDirective
      else if source.atMarker '-' then fetchMarker .documentStart
      else if source.atMarker '.' then fetchMarker .documentEnd
      else fetchToken c source.rest[1]?

/-- The first token can be handed out. -/
def isSettled : Fetch Bool := do
  let s ← get
  if s.count ≤ s.taken + 2 then return false
  match s.listed.lookup s.taken with
  | none => return true
  | some level => return !(← keyIsLive level)

/-- Fetches tokens until the first can be handed out. -/
def settle : Nat → Fetch Unit
  | 0 => return ()
  | fuel + 1 => do
    if !(← isSettled) then
      fetch
      settle fuel

/-- **The first token that was not taken.** -/
def peek : Fetch Token := do
  settle ((← get).source.left + 4)
  match (← get).queue with
  | t :: _ => return t
  | [] => fault "did not find expected token"

end Fetch

end PhpAudit.Yaml
