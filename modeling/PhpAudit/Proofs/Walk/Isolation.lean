import PhpAudit.Proofs.Walk.Replacement
import PhpAudit.Proofs.Walk.Shown

/-!
# Bodies are isolated

The body of a function, method or closure is walked in a scope of its own. So a tree in which one
such body was emptied (`Emptied`) is walked as the tree is, but that one block of events is missing:
the events of the walk of that body alone (`spliced_course`). Nothing that was bound or seen around
the body counts in it, and nothing in it counts around it.
-/

namespace PhpAudit.Walk

open PhpAudit.Tree

/-- **Nodes that differ in one body**, at any depth, which is `b` in the first and empty in the
second. -/
inductive Emptied (b : Block) : Node → Node → Prop
  | here (l : Location) : Emptied b (.body b) (.body (.mk l []))
  | inside {n n' c c' : Node} {before after : List Node} :
      n.form = n'.form → n.leftOut = n'.leftOut →
      n.children = before ++ c :: after → n'.children = before ++ c' :: after →
      Emptied b c c' → Emptied b n n'

namespace Emptied

variable {b : Block} {n n' : Node}

/-- Emptied bodies are not seen. -/
theorem seen_eq (h : Emptied b n n') : n.seen = n'.seen ∧ Looks n.self n'.self := by
  induction h with
  | here l =>
    obtain ⟨l', ss⟩ := b
    exact ⟨rfl, .refl _⟩
  | @inside n n' c c' before after form out children children' _ ih =>
    refine looks_of_children ?_ form out ?_
    · -- a node of an unknown kind has no children, so nothing can be emptied in it
      refine Option.eq_none_iff_forall_not_mem.mpr fun tag unknown => ?_
      rw [children_of_tag unknown] at children
      cases before <;> cases children
    · simp only [children, children', List.map_append, List.map_cons, ih.1]

/-- The emptied body is reached. -/
theorem mem_reached (h : Emptied b n n') : .body b ∈ n.reached := by
  induction h with
  | here l => exact Node.mem_reached_self _
  | @inside n n' c c' before after form out children children' _ ih =>
    refine Node.mem_reached_of_child ?_ ih
    rw [children]
    exact List.mem_append_right _ List.mem_cons_self

/-- **Every body that is reached can be emptied.** -/
theorem exists_of_mem_reached {n : Node} (h : .body b ∈ n.reached) :
    ∃ n', Emptied b n n' ∧ SameSort n n' := by
  induction n using Node.induction with | step n ih
  rw [Node.reached_eq, List.mem_cons, List.mem_flatMap] at h
  obtain rfl | ⟨c, hc, h⟩ := h
  · exact ⟨_, .here .unknown, .body _ _⟩
  · obtain ⟨c', emptied, same⟩ := ih c hc h
    obtain ⟨before, after, children⟩ := List.append_of_mem hc
    obtain ⟨n', children', form, out, same'⟩ := replaceable_children children same
    exact ⟨n', .inside form out children children' emptied, same'⟩

/-- Every body that is reached in a block can be emptied, and leaves a block. -/
theorem exists_block {body : Block} (h : .body b ∈ (Node.ofStatement (.block body)).reached) :
    ∃ body', Emptied b (.ofStatement (.block body)) (.ofStatement (.block body')) := by
  obtain ⟨n', emptied, same⟩ := exists_of_mem_reached h
  cases same with
  | statement s s' =>
    have form : Form.ofStmt (.block body) = Form.ofStmt s' := by
      cases emptied with
      | inside form _ _ _ _ => exact form
    obtain ⟨l, ss⟩ := body
    cases s' with
    | block body' => exact ⟨body', emptied⟩
    | _ => cases form

/-- A body that was emptied in a tree that reaches no unknown kind reaches none. -/
theorem unknowns_alone (h : Emptied b n n') (known : tags [n] = []) (file : Text) :
    unknowns ⟨file, b, []⟩ = [] := by
  have body := tags_of_mem_reached known h.mem_reached
  obtain ⟨l, ss⟩ := b
  rw [tags_node] at body
  rw [unknowns, starts, fresh, List.map_nil, tags_node]
  exact body

end Emptied

/-- **A walk and the walk with a body emptied**, whose events may be missing. -/
def emptying (m : Mitigations) (b : Block) : Comparison m m :=
  .exact m Looks (block m b .start).events True (fun looks => looks.given) (fun looks => looks.path)

section Emptying

variable {m : Mitigations} {b : Block}

/-- An emptied body is walked as the body, without its events. -/
theorem agrees_emptied (l : Location) : (emptying m b).Agrees 1 (emptying m b).taint
    ((Node.body b).walk m) ((Node.body (.mk l [])).walk m) := by
  have cut : (emptying m b).Spliced 1 (block m b .start).events [] := by
    have whole := Comparison.Spliced.cut (.nil : (emptying m b).Spliced 0 [] [])
    rwa [List.append_nil] at whole
  intro s s' alike
  have empty : (Node.body (.mk l [])).walk m s' = ⟨[], s', .ok (.none none)⟩ := by
    simp only [Node.walk, block, stmts]
    rfl
  rw [empty, Node.walk, bind_apply, inFreshScope]
  generalize block m b .start = o at cut
  obtain ⟨events, scope, value⟩ := o
  cases value with
  | ok _ =>
    simp only [Except.map, pure_apply, List.append_nil]
    exact .done (emptying m b).taint_absent alike cut
  | error e => exact .stopped cut (.inl trivial)

/-- A body that was emptied. -/
def Gone (b : Block) (k : Nat) (a a' : Node) : Prop :=
  k = 1 ∧ a = .body b ∧ ∃ l, a' = .body (.mk l [])

/-- What is left of a tree when a body in it is emptied. -/
theorem variants_emptied {n n' : Node} (h : Emptied b n n') :
    (emptying m b).Variants (Gone b) 1 [n] [n'] := by
  have refl (ns : List Node) : (emptying m b).Variants (Gone b) 0 ns ns :=
    Comparison.variants_refl Looks.refl ns
  induction h with
  | here l => exact .replace ⟨rfl, rfl, l, rfl⟩ .nil
  | @inside n n' c c' before after form out children children' h ih =>
    refine .node form (Emptied.inside form out children children' h).seen_eq.2 ?_ .nil
    rw [children, children']
    exact (refl before).append (ih.append (refl after))

/-- **The walk of a tree and that with a body emptied** agree, but for the events of the body. -/
theorem agrees_of_emptied {n n' : Node} (h : Emptied b n n') :
    (emptying m b).Agrees 1 (List.Forall₂ (emptying m b).taint) (visit m [n]) (visit m [n']) := by
  refine Comparison.Variants.agrees (fun k a a' gone => ?_) (variants_emptied h)
  obtain ⟨rfl, rfl, l, rfl⟩ := gone
  exact agrees_emptied l

/-- **The courses of a program and of that with a body emptied**: neither is stopped, and one block
of events is missing in the second. -/
theorem spliced_course {p : Program} {body' : Block} (noFunctions : p.functions = [])
    (known : unknowns p = [])
    (h : Emptied b (.ofStatement (.block p.body)) (.ofStatement (.block body'))) :
    (emptying m b).Spliced 1 (course m p).events (course m { p with body := body' }).events ∧
      (course m { p with body := body' }).failure = none := by
  have done : (course m p).failure = none := failure_program_eq_none m known
  rw [course_eq_of_no_functions noFunctions] at done ⊢
  rw [course_eq_of_no_functions (p := { p with body := body' }) noFunctions]
  have outcomes := agrees_of_emptied h (m := m) .start .start Comparison.alike_start
  rw [Run.of] at done
  rw [Run.of, Run.of]
  generalize visit m [.ofStatement (.block p.body)] .start = o at outcomes done
  generalize visit m [.ofStatement (.block body')] .start = o' at outcomes
  -- the walk of the whole tree is not stopped, so the second is not either
  cases outcomes with
  | done _ _ events => exact ⟨events, rfl⟩
  | stopped _ _ => cases done

end Emptying

end PhpAudit.Walk
