import PhpAudit.Proofs.Walk.Scopes

/-!
# Where records are placed

A record is placed at its node, or, where the node has no location, at the last located node of the
same scope that the walk came to before it made the record. The operands of the node come before it
in this sense: they are walked by then. Where the scope has no located node so far, the place is
unknown, wherever the body stands: what is around it, below it or beside it has other traces.

**The law** (`placed`) is the run of one invariant: the last known location of a scope is the last
one that its trace came to.
-/

namespace PhpAudit.Walk

open PhpAudit.Tree

/-- **Steps that come to no located node.** -/
def Unplaced (steps : List Step) : Prop := ∀ n, .come n ∈ steps → n.loc.isUnknown = true

/-- **The last location that steps came to**, unknown if they came to none. -/
inductive LastPlace : List Step → Location → Prop
  | nowhere {steps : List Step} : Unplaced steps → LastPlace steps .unknown
  | located {pre post : List Step} {n : Node} : n.loc.isUnknown = false → Unplaced post →
      LastPlace (pre ++ .come n :: post) n.loc

/-- **The place of a record** at a node, after some steps: that of the node, if it has one, or the
last location that the steps came to. -/
inductive Placed (before : List Step) (n : Node) : Location → Prop
  | own : n.loc.isUnknown = false → Placed before n n.loc
  | last {l : Location} : n.loc.isUnknown = true → LastPlace before l → Placed before n l

theorem Unplaced.append {xs ys : List Step} (first : Unplaced xs) (second : Unplaced ys) :
    Unplaced (xs ++ ys) := fun n h => (List.mem_append.mp h).elim (first n) (second n)

/-- Steps that come to no located node leave the last location as it is. -/
theorem LastPlace.append {steps more : List Step} {l : Location} (h : LastPlace steps l)
    (unplaced : Unplaced more) : LastPlace (steps ++ more) l := by
  cases h with
  | nowhere none => exact .nowhere (none.append unplaced)
  | located known rest =>
    rw [List.append_assoc, List.cons_append]
    exact .located known (rest.append unplaced)

theorem LastPlace.come {steps : List Step} {l : Location} (h : LastPlace steps l) (n : Node) :
    LastPlace (steps ++ [.come n]) (n.loc.orElse l) := by
  unfold Location.orElse
  split
  · next unknown =>
    refine h.append fun k hk => ?_
    obtain rfl := Step.come.inj (List.mem_singleton.mp hk)
    exact unknown
  · next known => exact .located (Bool.eq_false_iff.mpr known) fun k hk => by cases hk

/-- A node with a location reports at it, any other at the last location. -/
theorem placed_orElse {before : List Step} {last : Location} (h : LastPlace before last)
    (n : Node) : Placed before n (n.loc.orElse last) := by
  unfold Location.orElse
  split
  · next unknown => exact .last unknown h
  · next known => exact .own (Bool.eq_false_iff.mpr known)

/-- **The last known location of a scope is the last one that its trace came to.** -/
def places (m : Mitigations) : Invariant m where
  scope before s := LastPlace before s.lastKnown
  taint _ _ := True
  shown before n e := ∀ l, e.place? = some l → Placed before n l
  nothing _ := trivial
  keeps _ _ := trivial
  quiet h noCome _ := h.append fun k hk => absurd (List.mem_singleton.mp hk).symm (noCome k)
  come n h := by
    rw [lastKnown_track]
    exact h.come n
  announced _ _ _ _ he l place := by
    rw [place?_of_announced he] at place
    cases place
  told {_ _ n _ _} h _ he l place := by
    obtain ⟨-, rfl⟩ := place_of_told he place
    exact placed_orElse h n
  leave {_ _ n _ t} h _ _ := by
    refine ⟨?_, trivial⟩
    rw [lastKnown_leave]
    exact h.append fun k hk => by cases List.mem_singleton.mp hk

/-- **Records are placed at their node, or where the trace of their scope came to last.** -/
theorem placed {m : Mitigations} {b : Block} {before after : List Step} {n : Node} {e : Event}
    {l : Location} (split : traceOf m b = before ++ .report n e :: after)
    (place : e.place? = some l) : Placed before n l := by
  have start : (places m).scope [] .start := LastPlace.nowhere fun n h => by cases h
  have shown := ((places m).run [.ofStatement (.block b)] start).reported before n e after split
  exact shown l place

end PhpAudit.Walk
