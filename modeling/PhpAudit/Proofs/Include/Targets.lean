import PhpAudit.Proofs.Analysis.Collected
import PhpAudit.Proofs.Include.Relation
import PhpAudit.Proofs.Include.StaticPaths
import PhpAudit.Proofs.Path.Clean
import PhpAudit.Proofs.Walk.Reports

/-!
# Targets of includes

The walk over an include ends with its site, unless it is stopped within the operand
(`WalkedInclude.site?_eq`). A site is resolved when its operand has a static path, and then the target is
the **route** of that path, cleaned: the path itself, or the path below the directory of the file.

**The law** (`include_targets_are_canonical`): in a file that is named from the root, a target is the
spelling of the place that its route leads to. So sites whose routes lead to one place have one vertex in
the include graph, and others have different vertices. A site is not resolved exactly when a part of its
operand is at fault.

**What it does not establish.** Places are compared by their spelling alone; a link on the disk may give
one file two places. In a file with a relative name a target is cleaned too, but where it leads hangs on
the directory that the name starts from.
-/

namespace PhpAudit

open PhpAudit.Tree (Expr)
open PhpAudit.StaticPath (Spells Reads IsFlawed)
open PhpAudit.Path (atRoot place components)

/-! ## Resolved sites -/

/-- **The route of a path** in a file: a relative path starts at the directory of the file. -/
def route (file p : Text) : Text :=
  if Path.isAbsolute p = true then p else Path.directory file ++ "/" ++ p

theorem isAbsolute_route {file : Text} (rooted : Path.isAbsolute file = true) (p : Text) :
    Path.isAbsolute (route file p) = true := by
  unfold route
  split
  · assumption
  · rw [Text.append_assoc, Path.isAbsolute_append (Path.directory_ne_empty file),
      Path.isAbsolute_directory, rooted]

theorem ne_empty_of_isAbsolute {p : Text} (rooted : Path.isAbsolute p = true) : p ≠ "" := by
  rintro rfl
  cases rooted

namespace IncludeSite

variable {loc : Location} {x : Option Expr}

/-- A site without a static path is not resolved. -/
theorem of_eq_unresolved (absent : StaticPath.ofOperand loc.file x = none) (once require : Bool) :
    IncludeSite.of loc once require x = ⟨loc, "", false, once, require⟩ := by
  rw [IncludeSite.of, absent]

/-- **A site with a static path is resolved**: its target is the route of the path, cleaned. -/
theorem of_eq_resolved {p : Text} (named : loc.file ≠ "")
    (path : StaticPath.ofOperand loc.file x = some p) (once require : Bool) :
    IncludeSite.of loc once require x = ⟨loc, Path.clean (route loc.file p), true, once, require⟩ := by
  rw [IncludeSite.of, path]
  dsimp only
  unfold route
  by_cases rooted : Path.isAbsolute p = true
  · rw [if_pos (.inl rooted), if_pos rooted]
  · rw [if_neg (not_or_intro rooted named), if_neg rooted,
      Path.join_eq (Path.directory_ne_empty _), Path.clean_clean]

end IncludeSite

/-- **What is right about the site of an include** in a file that is named from the root. -/
structure IsCanonical (x : Option Expr) (i : IncludeSite) : Prop where
  /-- It is not resolved exactly when a part of the operand is at fault. -/
  unresolved_iff : i.resolved = false ↔
    ∃ part, Relation.ReflTransGen Reads x part ∧ IsFlawed i.file part
  /-- If it is resolved, its target is the spelling of the place that its route leads to. -/
  target_eq : i.resolved = true →
    ∃ p, Spells i.file x p ∧ i.target = atRoot (place (components (route i.file p)))

/-- **Two operands name the same place**, each in its file. -/
def SamePlace (file : Text) (x : Option Expr) (file' : Text) (y : Option Expr) : Prop :=
  ∃ p q, Spells file x p ∧ Spells file' y q ∧
    place (components (route file p)) = place (components (route file' q))

/-- **The site of an include is canonical** where the file is named from the root. -/
theorem isCanonical_of {loc : Location} (rooted : Path.isAbsolute loc.file = true) (once require : Bool)
    (x : Option Expr) : IsCanonical x (.of loc once require x) := by
  have named := ne_empty_of_isAbsolute rooted
  have file : (IncludeSite.of loc once require x).file = loc.file :=
    congrArg Location.file (IncludeSite.loc_of loc once require x)
  cases path : StaticPath.ofOperand loc.file x with
  | none =>
    have site := IncludeSite.of_eq_unresolved path once require
    refine ⟨?_, ?_⟩
    · rw [file, ← StaticPath.ofOperand_eq_none_iff named, path, site]
      simp
    · intro resolved
      rw [site] at resolved
      cases resolved
  | some p =>
    have site := IncludeSite.of_eq_resolved named path once require
    refine ⟨?_, ?_⟩
    · rw [file, ← StaticPath.ofOperand_eq_none_iff named, path, site]
      simp
    · intro _
      refine ⟨p, ?_, ?_⟩
      · rw [file]
        exact (StaticPath.ofOperand_eq_some_iff named).mp path
      · rw [file, site]
        exact Path.clean_of_rooted (isAbsolute_route rooted p)

/-! ## Vertices -/

namespace IncludeGraph

variable {sites : List IncludeSite} {i j : IncludeSite}

/-- The target of a resolved site is a vertex. -/
theorem exists_vertex (hi : i ∈ sites) (named : i.file ≠ "") (resolved : i.resolved = true) :
    ∃ v, (build sites).graph.id? i.target = some v := by
  have edge : DirectlyIncludes sites i.file i.target := ⟨i, hi, named, resolved, rfl, rfl⟩
  rw [graph_build]
  obtain ⟨-, v, -, vertex, -⟩ :=
    (Digraph.reflects_build _).kept i.file i.target (edge_mem_additions.mpr edge)
  exact ⟨v, vertex⟩

/-- A vertex has one name. -/
theorem vertex_eq_iff {g : Digraph} {a b : Text} {v w : Nat} (ha : g.id? a = some v)
    (hb : g.id? b = some w) : v = w ↔ a = b := by
  constructor
  · rintro rfl
    exact Option.some.inj ((Digraph.name?_of_id? ha).symm.trans (Digraph.name?_of_id? hb))
  · rintro rfl
    exact Option.some.inj (ha.symm.trans hb)

end IncludeGraph

/-- Two resolved sites have the same target exactly when their operands name the same place. -/
theorem target_eq_iff {x y : Option Expr} {i j : IncludeSite} (hi : IsCanonical x i)
    (hj : IsCanonical y j) (ri : i.resolved = true) (rj : j.resolved = true)
    (ni : i.file ≠ "") (nj : j.file ≠ "") :
    i.target = j.target ↔ SamePlace i.file x j.file y := by
  obtain ⟨p, hp, ti⟩ := hi.target_eq ri
  obtain ⟨q, hq, tj⟩ := hj.target_eq rj
  rw [ti, tj, Path.atRoot_place_inj]
  constructor
  · exact fun same => ⟨p, q, hp, hq, same⟩
  · rintro ⟨p', q', hp', hq', same⟩
    rwa [hp.unique ni hp', hq.unique nj hq']

/-! ## Includes -/

/-- **An include that a walk comes through**: where it stands, what it includes, and a scope in which
the walk over its operand is not stopped. -/
structure WalkedInclude where
  mitigations : Walk.Mitigations
  scope : Scope
  loc : Location
  once : Bool
  require : Bool
  operand : Option Expr
  finished : ∃ t, (Walk.operand mitigations operand (scope.track loc)).value = .ok t

namespace WalkedInclude

variable (a : WalkedInclude)

/-- The include as an expression. -/
def expr : Expr := .unary a.loc (.inclusion a.once a.require) a.operand

/-- **The outcome of the walk** over the include. -/
def outcome : Outcome Taint := Walk.expr a.mitigations a.expr a.scope

/-- **The site that the include records**: the last event of its walk. -/
def site? : Option IncludeSite := a.outcome.events.getLast?.bind Event.site?

/-- The walk over an include: what its operand reports, and then the value at the sink and the site. -/
theorem outcome_eq {t : Taint}
    (finished : (Walk.operand a.mitigations a.operand (a.scope.track a.loc)).value = .ok t) :
    let o := Walk.operand a.mitigations a.operand (a.scope.track a.loc)
    let place := o.scope.locate a.loc
    a.outcome = ⟨o.events ++ [
        .sink place (if a.once then Walk.sinks.inclusionOnce else Walk.sinks.inclusion) t,
        .inclusion (.of place a.once a.require a.operand)],
      o.scope, .ok (.every (some a.expr))⟩ := by
  intro o place
  have steps : a.outcome = (Walk.operand a.mitigations a.operand >>= fun t =>
      Walk.afterOperand a.expr a.loc a.operand t (.inclusion a.once a.require))
        (a.scope.track a.loc) := by
    rw [outcome, expr, Walk.expr]
    rfl
  rw [steps, Walk.bind_apply, finished]
  rfl

/-- **An include records its site** where it stands, or at the last known location. -/
theorem site?_eq : a.site? =
    some (.of (a.outcome.scope.locate a.loc) a.once a.require a.operand) := by
  obtain ⟨t, finished⟩ := a.finished
  rw [site?, a.outcome_eq finished, List.getLast?_append]
  rfl

/-- The site of an include, and that it is canonical. -/
theorem exists_site : ∃ i, a.site? = some i ∧ i.loc = a.outcome.scope.locate a.loc ∧
    (Path.isAbsolute i.file = true → IsCanonical a.operand i) := by
  have place := IncludeSite.loc_of (a.outcome.scope.locate a.loc) a.once a.require a.operand
  refine ⟨_, a.site?_eq, place, fun rooted => isCanonical_of ?_ a.once a.require a.operand⟩
  rwa [IncludeSite.file, place] at rooted

end WalkedInclude

/-- **Targets are canonical.** An include records a site where it stands. In a file that is named from
the root, it is not resolved exactly when a part of its operand is at fault; and if it is resolved, its
target is the spelling of the place that its route leads to, so that two resolved sites have the same
vertex in the include graph of any sites exactly when their operands name the same place. -/
theorem include_targets_are_canonical (a b : WalkedInclude) : ∃ i j,
    a.site? = some i ∧ i.loc = a.outcome.scope.locate a.loc ∧
    b.site? = some j ∧ j.loc = b.outcome.scope.locate b.loc ∧
    (Path.isAbsolute i.file = true → IsCanonical a.operand i ∧
      (Path.isAbsolute j.file = true → i.resolved = true → j.resolved = true →
        ∀ sites : List IncludeSite, i ∈ sites → j ∈ sites →
          ∃ v w, (IncludeGraph.build sites).graph.id? i.target = some v ∧
            (IncludeGraph.build sites).graph.id? j.target = some w ∧
            (v = w ↔ SamePlace i.file a.operand j.file b.operand))) := by
  obtain ⟨i, hi, li, canonical⟩ := a.exists_site
  obtain ⟨j, hj, lj, canonical'⟩ := b.exists_site
  refine ⟨i, j, hi, li, hj, lj, fun rooted => ⟨canonical rooted, ?_⟩⟩
  intro rooted' ri rj sites mi mj
  have ni := ne_empty_of_isAbsolute rooted
  have nj := ne_empty_of_isAbsolute rooted'
  obtain ⟨v, hv⟩ := IncludeGraph.exists_vertex mi ni ri
  obtain ⟨w, hw⟩ := IncludeGraph.exists_vertex mj nj rj
  refine ⟨v, w, hv, hw, ?_⟩
  rw [IncludeGraph.vertex_eq_iff hv hw]
  exact target_eq_iff (canonical rooted) (canonical' rooted') ri rj ni nj

/-- An include in `/srv/app/index.php`. -/
def includeAt (line : Int) (x : Option Expr)
    (finished : ∃ t, (Walk.operand (fun _ => .empty) x
      (Scope.start.track ⟨"/srv/app/index.php", line, "", ""⟩)).value = .ok t) : WalkedInclude :=
  ⟨fun _ => .empty, .start, ⟨"/srv/app/index.php", line, "", ""⟩, false, true, x, finished⟩

/-- `require DirName(__FILE__) . '/../lib//db.php'` -/
def belowParent : WalkedInclude := includeAt 1
  (some (.append .unknown
    (some (.call .unknown (.function "DirName" "") [some (.atom .unknown .file)]))
    [.mk .unknown (some (.atom .unknown (.string "/../lib//db.php")))]))
  ⟨_, rfl⟩

/-- `require '/srv/./lib/db.php/'` -/
def fromRoot : WalkedInclude :=
  includeAt 2 (some (.atom .unknown (.string "/srv/./lib/db.php/"))) ⟨_, rfl⟩

/-- Both include `/srv/lib/db.php`, which is one vertex. -/
theorem two_routes_have_one_vertex : ∃ i j v,
    belowParent.site? = some i ∧ fromRoot.site? = some j ∧
    Path.isAbsolute i.file = true ∧ Path.isAbsolute j.file = true ∧
    i.resolved = true ∧ j.resolved = true ∧ i.target = "/srv/lib/db.php" ∧
    (IncludeGraph.build [i, j]).graph.id? i.target = some v ∧
    (IncludeGraph.build [i, j]).graph.id? j.target = some v := by
  obtain ⟨i, j, hi, -, hj, -, law⟩ := include_targets_are_canonical belowParent fromRoot
  have si : belowParent.site? = some ⟨⟨"/srv/app/index.php", 1, "", ""⟩, "/srv/lib/db.php", true,
    false, true⟩ := by decide +kernel
  have sj : fromRoot.site? = some ⟨⟨"/srv/app/index.php", 2, "", ""⟩, "/srv/lib/db.php", true,
    false, true⟩ := by decide +kernel
  obtain rfl := Option.some.inj (hi.symm.trans si)
  obtain rfl := Option.some.inj (hj.symm.trans sj)
  have dirname : StaticPath.IsDirname "DirName" :=
    ⟨['D', 'i', 'r', 'N', 'a', 'm', 'e'], rfl, rfl⟩
  have place : SamePlace "/srv/app/index.php" belowParent.operand "/srv/app/index.php"
      fromRoot.operand := by
    refine ⟨_, _, .chain _ (.cons (.dirname _ _ dirname (.file _) (by decide)) (.cons (.string _ _) .nil)) ?_,
      .string _ _, ?_⟩
    · decide +kernel
    · decide +kernel
  obtain ⟨v, w, hv, hw, same⟩ := (law rfl).2 rfl rfl rfl _ List.mem_cons_self
    (List.mem_cons_of_mem _ List.mem_cons_self)
  obtain rfl := same.mpr place
  exact ⟨_, _, v, hi, hj, rfl, rfl, rfl, rfl, rfl, hv, hw⟩

end PhpAudit
