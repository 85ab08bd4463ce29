import PhpAudit.Text.CaseFold

/-!
# Patterns

A **pattern** describes texts: single characters by class, places in the text, and sequences,
alternatives and repetitions of patterns. Places are counted in characters, so a text of `n`
characters has the places `0` to `n`, and a pattern leads from places to places. `Route.ends` is what a
pattern means in a text: to which places it leads from a set of places. A text matches a pattern when
the pattern leads from any place of it to any other.

A set of places is a number whose bits are the places, so a step over a character is a shift.
-/

namespace PhpAudit

/-- **A set of characters** by ranges of codes; the set of all others when it is negated. A folded set
has with a character all those that differ from it by letter case. -/
structure CharSet where
  ranges : List (Nat × Nat)
  negated : Bool
  folded : Bool
deriving DecidableEq, Repr, Inhabited

namespace CharSet

/-- A code within the ranges. -/
def covers (s : CharSet) (c : Char) : Bool := s.ranges.any fun r => r.1 ≤ c.toNat && c.toNat ≤ r.2

/-- Membership. -/
def contains (s : CharSet) (c : Char) : Bool :=
  (s.covers c || (s.folded && (Text.caseVariants c).any s.covers)) != s.negated

end CharSet

/-- **A class of characters**: those of any of its sets, or all others. -/
structure CharClass where
  sets : List CharSet
  negated : Bool
deriving DecidableEq, Repr, Inhabited

/-- Membership in a class. -/
def CharClass.contains (k : CharClass) (c : Char) : Bool := k.sets.any (·.contains c) != k.negated

/-- A condition on a place of a text. -/
inductive Anchor where
  | textStart
  | textEnd
  | lineStart
  | lineEnd
  | wordBoundary
  | noWordBoundary
deriving DecidableEq, Repr, Inhabited

/-- **A pattern.** -/
inductive Pattern where
  /-- Leads from every place to itself. -/
  | empty
  /-- One character of a class. -/
  | char (k : CharClass)
  | place (a : Anchor)
  | both (first second : Pattern)
  | either (first second : Pattern)
  /-- At least `least` times, and at most `most` times if that is given. -/
  | times (least : Nat) (most : Option Nat) (p : Pattern)
deriving Repr, Inhabited

/-- **A pattern in a text**: for each class and condition, the set of the places where it holds. -/
inductive Route where
  | stay
  /-- Over the character at one of the places. -/
  | step (places : Nat)
  | place (places : Nat)
  | both (first second : Route)
  | either (first second : Route)
  | times (least : Nat) (most : Option Nat) (r : Route)

namespace Route

/-- The places reached by at most `n` steps from the new ones among those that were seen. -/
def closure (step : Nat → Nat) : Nat → Nat → Nat → Nat
  | 0, seen, _ => seen
  | n + 1, seen, new =>
    let next := (step new ||| seen) ^^^ seen
    if next = 0 then seen else closure step n (seen ||| next) next

/-- The places reached by exactly `n` steps. -/
def iterate (step : Nat → Nat) : Nat → Nat → Nat
  | 0, s => s
  | n + 1, s => if s = 0 then 0 else iterate step n (step s)

/-- **The places a route leads to** from a set of places, in a text of `n` characters. Without an upper
bound, as many steps as the text has places reach all that can be reached. -/
def ends (n : Nat) : Route → Nat → Nat
  | .stay, s => s
  | .step m, s => (s &&& m) <<< 1
  | .place m, s => s &&& m
  | .both r q, s => q.ends n (r.ends n s)
  | .either r q, s => r.ends n s ||| q.ends n s
  | .times least most r, s =>
    let start := iterate (r.ends n) least s
    closure (r.ends n) (match most with | some m => m - least | none => n + 1) start start

/-- A repetition. To repeat what can be repeated freely, once at least or not at all, is to repeat it
freely. -/
def repeated (least : Nat) (most : Option Nat) : Route → Route
  | .times l none r =>
    if least ≤ 1 ∧ most.isNone ∧ l ≤ 1 then .times (least * l) none r
    else .times least most (.times l none r)
  | r => .times least most r

end Route

namespace Pattern

/-- A letter, digit or underscore of ASCII. -/
def isWordChar (c : Char) : Bool := c.isAlphanum || c == '_'

/-- A place satisfies a condition, given the characters before and after it. -/
def holds (before after : Option Char) : Anchor → Bool
  | .textStart => before.isNone
  | .textEnd => after.isNone
  | .lineStart => before.all (· == '\n')
  | .lineEnd => after.all (· == '\n')
  | .wordBoundary => before.any isWordChar != after.any isWordChar
  | .noWordBoundary => before.any isWordChar == after.any isWordChar

/-- The places before the characters with a property. -/
def placesBefore (p : Char → Bool) (t : List Char) : Nat :=
  t.foldr (fun c s => 2 * s + (if p c then 1 else 0)) 0

/-- The places that satisfy a condition, from one on, given the character before it. -/
def placesAt (a : Anchor) : Option Char → List Char → Nat
  | before, [] => if holds before none a then 1 else 0
  | before, c :: t => 2 * placesAt a (some c) t + (if holds before (some c) a then 1 else 0)

/-- **The route of a pattern** in a text. -/
def route (t : List Char) : Pattern → Route
  | .empty => .stay
  | .char k => .step (placesBefore k.contains t)
  | .place a => .place (placesAt a none t)
  | .both p q => .both (route t p) (route t q)
  | .either p q => .either (route t p) (route t q)
  | .times least most p => (route t p).repeated least most

/-- **A text matches**: the pattern leads from some place of it to some place. -/
def accepts (p : Pattern) (text : Text) : Bool :=
  let t := text.shown
  (p.route t).ends t.length (Nat.pow 2 (t.length + 1) - 1) != 0

end Pattern

end PhpAudit
