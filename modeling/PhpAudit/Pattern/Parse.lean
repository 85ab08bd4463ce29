import PhpAudit.Pattern.Limit

/-!
# Reading patterns

A pattern is read from left to right. Open groups are kept on a stack; each holds the alternatives it
has finished and the sequence it is in. A flag setting inside a group holds to the end of the group.

Texts that would only be wrong elsewhere are taken literally: a brace that starts no repeat count stands
for itself. The limits are checked whenever a part is added, so of a limit and another fault the one
that is met first is told.
-/

namespace PhpAudit.Pattern

/-- **An open group**: the flags to return to, whether it is numbered, the alternatives it has finished,
the last first, and the parts of the sequence it is in, the last first. -/
structure Group where
  flags : Flags := {}
  numbered : Bool := false
  alternatives : List Part := []
  parts : List Part := []

/-- **The state of the reader**: the innermost group, those around it, the flags in force, and what was
used up. -/
structure State where
  group : Group := {}
  around : List Group := []
  flags : Flags := {}
  budget : Budget := {}

namespace State

/-- Every part that waits to be used. -/
def waiting (st : State) : List Part :=
  (st.group :: st.around).flatMap fun g => g.parts ++ g.alternatives

/-- The sequence with other parts. -/
def withParts (st : State) (ps : List Part) : State := { st with group := { st.group with parts := ps } }

/-- Makes a part. -/
def make (st : State) : State := { st with budget := st.budget.take }

/-- Gives up the places of `n` parts. -/
def free (n : Nat) (st : State) : State := { st with budget := st.budget.free n }

/-- Checks the limits for a part that is used. The parts that wait are checked too when sizes start to
be watched. -/
def check (whole : Rest) (p : Part) (st : State) : Parse State := do
  let budget := st.budget.use p
  if budget.watched then
    if p.size > maxSize then refuse .tooLarge whole
    if !st.budget.watched && st.waiting.any (·.size > maxSize) then refuse .tooLarge whole
  if p.height > maxHeight then refuse .tooDeep whole
  return { st with budget := budget }

/-- Joins the last two parts if they are letters. -/
def joinLetters (st : State) : State :=
  match st.group.parts with
  | q :: p :: ps =>
    match p.joined? st.budget.watched q with
    | some r => (st.withParts (r :: ps)).free 1
    | none => st
  | _ => st

/-- Adds a part that was made. -/
def add (whole : Rest) (p : Part) (st : State) : Parse State :=
  let st := st.joinLetters
  (st.withParts (p.measured :: st.group.parts)).check whole p.measured

/-- Makes a part and adds it. -/
def addNew (whole : Rest) (p : Part) (st : State) : Parse State := st.make.add whole p

/-- Opens a group, inside which other flags may hold. -/
def opened (whole : Rest) (numbered : Bool) (flags : Flags) (st : State) : Parse State := do
  let st ← st.make.joinLetters.check whole .mark
  return { st with
    group := { flags := st.flags, numbered := numbered }, around := st.group :: st.around, flags := flags }

/-- Finishes the sequence of the group: makes it one part. -/
def sequenceDone (whole : Rest) (st : State) : Parse State :=
  let st := st.joinLetters
  let rest := st.withParts []
  match st.group.parts.reverse with
  | [] => rest.addNew whole .nothing
  | [p] => rest.add whole p
  | p :: ps => (rest.make.free ((p :: ps).countP (·.form = .sequence))).add whole (.inSequence p ps)

/-- Puts a finished sequence to the alternatives. Alternatives of one character each make one. -/
def alternativeDone (st : State) : State :=
  match st.group.parts, st.group.alternatives with
  | p :: _, q :: qs =>
    if p.isOne && q.isOne then
      ({ st with group := { st.group with alternatives := q.orElse p :: qs, parts := [] } }).free 1
    else { st with group := { st.group with alternatives := p :: q :: qs, parts := [] } }
  | ps, qs => { st with group := { st.group with alternatives := ps ++ qs, parts := [] } }

/-- Starts the next alternative. -/
def nextAlternative (whole : Rest) (st : State) : Parse State := do
  let st ← st.sequenceDone whole
  let st ← if st.group.alternatives.isEmpty then st.make.check whole .mark else pure st
  return st.alternativeDone

/-- **Finishes the group**: makes it one part. -/
def groupDone (whole : Rest) (st : State) : Parse State := do
  let st := (← st.sequenceDone whole).alternativeDone
  let rest := { st with group := { st.group with alternatives := [] } }
  match st.group.alternatives.reverse with
  | [] => return rest
  | [p] => rest.add whole p
  | p :: ps => (rest.make.free ((p :: ps).countP (·.form = .choice))).add whole (.inChoice p ps)

/-- The pattern of a finished group. -/
def pattern (st : State) : Pattern := (st.group.parts.head?.map Part.pattern).getD .empty

/-- Closes the innermost group. -/
def closed (whole : Rest) (st : State) : Parse State := do
  let st ← st.groupDone whole
  match st.around, st.group.parts with
  | outer :: rest, p :: _ =>
    let st' : State := { st with group := outer, around := rest, flags := st.group.flags }
    st'.add whole (if st.group.numbered then p.captured else p)
  | _, _ => refuse .unexpectedParen whole

end State

/-- Repeats nested in a pattern multiply; together they may ask for at most `n`. -/
def repeatsWithin (n : Nat) : Pattern → Bool
  | .both p q | .either p q => repeatsWithin n p && repeatsWithin n q
  | .times least most p =>
    match most with
    | some m => if m == 0 then true else m ≤ n && repeatsWithin (n / m) p
    | none => least ≤ n && repeatsWithin (if least > 0 then n / least else n) p
  | _ => true

/-- Puts a repetition around the last part. `before` is the text from the operator on, `after` what
follows it, and `last` the text from an operator just before it. -/
def repeated (whole : Rest) (st : State) (least : Nat) (most : Option Nat) (counted : Bool)
    (before after last : Rest) : Parse (State × Rest) := do
  let after := if after.head? == some (.char '?') then after.drop 1 else after
  if !last.isEmpty then refuse .nestedRepeat (passed last after)
  match st.group.parts with
  | [] => refuse .nothingToRepeat (passed before after)
  | p :: ps =>
    let q := p.times least most counted
    let st ← (st.make.withParts (q :: ps)).check whole q
    if counted && (least ≥ 2 || most.any (· ≥ 2)) && !repeatsWithin 1000 q.pattern then
      refuse .badRepeatCount (passed before after)
    return (st, after)

/-- A number of a repeat count, without leading zeros; one that is far too large is kept as such. -/
def count? (s : Rest) : Option (Nat × Rest) :=
  let ds := s.takeWhile (Glyph.has Char.isDigit)
  match ds with
  | [] => none
  | .char '0' :: _ :: _ => none
  | _ => some ((ds.take 10).foldl (fun n d => n * 10 + (d.shown.toNat - '0'.toNat)) 0, s.drop ds.length)

/-- A repeat count between braces, if one stands here. -/
def counts? (s : Rest) : Option (Nat × Option Nat × Rest) := do
  let (least, t) ← count? (s.drop 1)
  match t with
  | .char '\x7d' :: t => some (least, some least, t)
  | .char ',' :: .char '\x7d' :: t => some (least, none, t)
  | .char ',' :: t =>
    let (most, t) ← count? t
    match t with
    | .char '\x7d' :: t => some (least, some most, t)
    | _ => none
  | _ => none

/-- A name of a group. -/
def isGroupName (name : Rest) : Bool := !name.isEmpty && name.all (Glyph.has isWordChar)

/-- A group with a name; `s` starts at the parenthesis, the name at `start`. -/
def namedGroup (whole : Rest) (st : State) (s : Rest) (start : Nat) : Parse (State × Rest) := do
  let upToMark := s.takeWhile (· ≠ .char '>')
  if upToMark.length = s.length then
    wellFormed s
    refuse .badGroupName s
  wellFormed (upToMark.drop start)
  if !isGroupName (upToMark.drop start) then refuse .badGroupName (upToMark ++ [.char '>'])
  return (← st.opened whole true st.flags, s.drop (upToMark.length + 1))

/-- The flags of a group. `on` tells whether flags are switched on, `seen` whether one was given since
that changed. -/
def groupFlags (whole : Rest) (st : State) (s : Rest) (on seen : Bool) (flags : Flags) :
    Rest → Parse (State × Rest)
  | [] => refuse .badGroup s
  | .stray b :: t => refuse .malformedText (.stray b :: t)
  | .char c :: t =>
    if c = 'i' then groupFlags whole st s on true { flags with foldCase := on } t
    else if c = 'm' then groupFlags whole st s on true { flags with multiline := on } t
    else if c = 's' then groupFlags whole st s on true { flags with dotNewline := on } t
    else if c = 'U' then groupFlags whole st s on true flags t
    else if c = '-' ∧ on then groupFlags whole st s false false flags t
    else if (c = ':' ∨ c = ')') ∧ (on ∨ seen) then
      if c = ':' then (st.opened whole false flags).map (·, t) else return ({ st with flags := flags }, t)
    else refuse .badGroup (passed s t)

/-- What follows an open parenthesis and a question mark. -/
def specialGroup (whole : Rest) (st : State) (s : Rest) : Parse (State × Rest) :=
  match s.drop 2 with
  | .char 'P' :: .char '<' :: _ :: _ => namedGroup whole st s 4
  | .char '<' :: _ :: _ => namedGroup whole st s 3
  | t => groupFlags whole st s true false st.flags t

/-- The places that a letter after a backslash names. -/
def letterAnchors : List (Char × Anchor) :=
  [('A', .textStart), ('b', .wordBoundary), ('B', .noWordBoundary), ('z', .textEnd)]

/-- Literal characters up to an end mark or the end of the pattern. -/
def quotedPart (s : Rest) : Rest × Rest :=
  match upTo? '\\' 'E' s [] with
  | some r => r
  | none => (s, [])

/-- Adds characters as they are. -/
def addLetters (whole : Rest) (st : State) : Rest → Parse State
  | [] => return st
  | .char c :: t => do addLetters whole (← st.addNew whole (.letter st.flags c.toNat)) t
  | .stray b :: t => refuse .malformedText (.stray b :: t)

/-- What stands at a backslash. -/
def backslash (whole : Rest) (st : State) (s : Rest) : Parse (State × Rest) := do
  let letter := match s with | _ :: .char c :: _ => some c | _ => none
  match letter.bind (letterAnchors.lookup ·) with
  | some a => return (← st.addNew whole (.ofAnchor a), s.drop 2)
  | none =>
    if letter = some 'C' then refuse .badEscape (s.take 2)
    if letter = some 'Q' then
      let (literal, t) := quotedPart (s.drop 2)
      return (← addLetters whole st literal, t)
    match ← setOf? st.flags s with
    | some (set, t) => return (← st.addNew whole (.ofClass ⟨[set], false⟩), t)
    | none =>
      let (code, t) ← escape s
      return (← st.addNew whole (.letter st.flags code), t)

/-- Reads a pattern to its end. `last` is the text from the repetition just read, if one was. -/
def parts (whole : Rest) : Nat → Rest → Rest → State → Parse State
  | 0, _, _, st => return st
  | fuel + 1, last, s, st => do
    match ← next? s with
    | none => return st
    | some (c, t) =>
      let plain (r : State × Rest) : Parse State := parts whole fuel [] r.2 r.1
      let part (p : Part) : Parse State := do plain (← st.addNew whole p, t)
      if c = '(' then
        if t.head? == some (.char '?') then plain (← specialGroup whole st s)
        else plain (← st.opened whole true st.flags, t)
      else if c = '|' then plain (← st.nextAlternative whole, t)
      else if c = ')' then plain (← st.closed whole, t)
      else if c = '^' then part (.ofAnchor (if st.flags.multiline then .lineStart else .textStart))
      else if c = '$' then part (.ofAnchor (if st.flags.multiline then .lineEnd else .textEnd))
      else if c = '.' then part (.ofClass (dot st.flags))
      else if c = '[' then
        let (k, t) ← classOf st.flags s
        plain (← st.addNew whole (.ofClass k), t)
      else if c = '*' ∨ c = '+' ∨ c = '?' then
        let least := if c = '+' then 1 else 0
        let most := if c = '?' then some 1 else none
        let (st, after) ← repeated whole st least most false s t last
        parts whole fuel s after st
      else if c = '\x7b' then
        match counts? s with
        | none => part (.letter st.flags c.toNat)
        | some (least, most, after) =>
          if least > 1000 || most.any (fun m => m > 1000 || least > m) then
            refuse .badRepeatCount (passed s after)
          else
            let (st, after) ← repeated whole st least most true s after last
            parts whole fuel s after st
      else if c = '\\' then plain (← backslash whole st s)
      else part (.letter st.flags c.toNat)

/-- **Reads a pattern.** -/
def parse (text : Text) : Parse Pattern := do
  let s := text.glyphs
  let st ← (← parts s (s.length + 1) [] s {}).groupDone s
  if st.around.isEmpty then return st.pattern else refuse .missingParen s

end PhpAudit.Pattern
