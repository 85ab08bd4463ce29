import PhpAudit.Proofs.Include.Targets

/-!
# Spellings of a relative include

A file can include another by a relative path, or by that path below its own directory, which is spelled
`__DIR__` or `dirname(__FILE__)`. The three are meant to name one target, and `__FILE__` the file itself.
All of them are resolved. But a constant stands for a path that has the directory of the file already, and
where the name of the file is relative the directory is put in front of it once more.

**The law** (`include_spellings_agree_iff`): the spellings agree, and `__FILE__` names the file, exactly
when the name of the file is given from the root, or its directory goes down as far as up, as that of a
bare name does. The two spellings of the directory agree in any case.
-/

namespace PhpAudit

open PhpAudit.Tree (Expr)
open PhpAudit.StaticPath (Spells IsDirname)

/-- **An expression for the directory of its file**: `__DIR__`, or `dirname(__FILE__)` in any letter
case. -/
inductive IsOwnDirectory : Expr → Prop
  | constant (l : Location) : IsOwnDirectory (.atom l .directory)
  | call (l l' : Location) {name : Text} (qualified : Text) : IsDirname name →
      IsOwnDirectory (.call l (.function name qualified) [some (.atom l' .file)])

/-- **A path below a directory**, as an expression: the directory, a slash and the path. The nodes stand
where they may. -/
def belowDirectory (l : Nat → Location) (d : Expr) (p : Text) : Expr :=
  .append (l 0) (some d) [.mk (l 1) (some (.atom (l 2) (.string "/"))),
    .mk (l 3) (some (.atom (l 4) (.string p)))]

section Spelled

variable {file : Text} {d : Expr}

theorem IsOwnDirectory.spells (named : file ≠ "") (own : IsOwnDirectory d) :
    Spells file (some d) (Path.directory file) := by
  cases own with
  | constant l => exact .directory l
  | call l l' qualified dirname => exact .dirname l qualified dirname (.file l') named

theorem spells_belowDirectory (named : file ≠ "") (own : IsOwnDirectory d) (l : Nat → Location)
    (p : Text) : Spells file (some (belowDirectory l d p)) (Path.directory file ++ "/" ++ p) := by
  have whole : Text.join [Path.directory file, "/", p] = Path.directory file ++ "/" ++ p := by
    rw [Text.append_assoc]
    exact congrArg Text.mk (by simp)
  have some : Path.directory file ++ "/" ++ p ≠ "" := by
    intro nothing
    rw [Text.append_assoc] at nothing
    have bytes := List.append_eq_nil_iff.mp (congrArg Text.bytes nothing)
    exact Path.directory_ne_empty file (congrArg Text.mk bytes.1)
  rw [← whole] at some ⊢
  exact .chain (l 0) (.cons (own.spells named) (.cons (.string ..) (.cons (.string ..) .nil))) some

/-- The directory of a file in front of a path has one place, or is taken twice. -/
theorem clean_route_iff {p : Text} (starts : Path.isAbsolute file = false →
      Path.isAbsolute p = false ∧ Path.StartsIn (Path.directory file) p)
    (rooted : Path.isAbsolute file = true → Path.isAbsolute p = true) :
    Path.clean (route file p) = Path.clean p ↔
      Path.isAbsolute file = true ∨ Path.level (Path.directory file) = 0 := by
  cases absolute : Path.isAbsolute file with
  | true =>
    rw [route, if_pos (rooted absolute)]
    simp
  | false =>
    obtain ⟨relative, starts⟩ := starts absolute
    rw [route, relative, if_neg (by decide), Path.clean_append_of_startsIn
      (Path.directory_ne_empty file) ((Path.isAbsolute_directory file).trans absolute) relative starts]
    simp

end Spelled

/-- **The spellings of a relative include agree** exactly when the file has its name from the root, or a
directory that goes down as far as up; and then, and only then, the constant names the file itself. All
of them are resolved, and the two spellings with the directory always have the same target. -/
theorem include_spellings_agree_iff {loc : Location} {p : Text} (named : loc.file ≠ "")
    (relative : Path.isAbsolute p = false) {d d' : Expr} (own : IsOwnDirectory d)
    (own' : IsOwnDirectory d') (l l' : Nat → Location) (k k' : Location) (once require : Bool) :
    let site (e : Expr) : IncludeSite := .of loc once require (some e)
    let plain := site (.atom k (.string p))
    let below := site (belowDirectory l d p)
    let below' := site (belowDirectory l' d' p)
    let self := site (.atom k' .file)
    let settled := Path.isAbsolute loc.file = true ∨ Path.level (Path.directory loc.file) = 0
    plain.resolved = true ∧ below.resolved = true ∧ self.resolved = true ∧
      below.target = below'.target ∧ (below.target = plain.target ↔ settled) ∧
      (self.target = Path.clean loc.file ↔ settled) := by
  intro site plain below below' self settled
  have resolved {e : Expr} {q : Text} (h : Spells loc.file (some e) q) :
      site e = ⟨loc, Path.clean (route loc.file q), true, once, require⟩ :=
    IncludeSite.of_eq_resolved named ((StaticPath.ofOperand_eq_some_iff named).mpr h) once require
  have hplain : plain = _ := resolved (.string k p)
  have hbelow : below = _ := resolved (spells_belowDirectory named own l p)
  have hbelow' : below' = _ := resolved (spells_belowDirectory named own' l' p)
  have hself : self = _ := resolved (.file k')
  have direct : route loc.file p = Path.directory loc.file ++ "/" ++ p := by
    rw [route, relative, if_neg (by decide)]
  have absolute : Path.isAbsolute (Path.directory loc.file ++ "/" ++ p) =
      Path.isAbsolute loc.file := by
    rw [Text.append_assoc, Path.isAbsolute_append (Path.directory_ne_empty _),
      Path.isAbsolute_directory]
  rw [hplain, hbelow, hbelow', hself, direct]
  refine ⟨rfl, rfl, rfl, rfl, ?_, ?_⟩
  · exact clean_route_iff (fun h => ⟨absolute.trans h, Path.startsIn_append _ p⟩) absolute.trans
  · exact clean_route_iff (fun h => ⟨h, Path.startsIn_directory h⟩) id

/-- The directory of `../app/a.php` goes down as far as up, so that it can be taken twice. -/
theorem include_spellings_agree_beside :
    let loc : Location := ⟨"../app/a.php", 1, "", ""⟩
    let site (e : Expr) : IncludeSite := .of loc true true (some e)
    let here (d : Expr) : Expr := belowDirectory (fun _ => loc) d "lib/b.php"
    let dirname : Expr := .call loc (.function "DirName" "") [some (.atom loc .file)]
    loc.file ≠ "" ∧ Path.isAbsolute "lib/b.php" = false ∧ IsOwnDirectory dirname ∧
      (site (here dirname)).target = (site (here (.atom loc .directory))).target ∧
      (site (here dirname)).target = (site (.atom loc (.string "lib/b.php"))).target ∧
      (site (.atom loc .file)).target = Path.clean loc.file := by
  intro loc site here dirname
  have own : IsOwnDirectory dirname :=
    .call loc loc "" ⟨['D', 'i', 'r', 'N', 'a', 'm', 'e'], rfl, rfl⟩
  have level : Path.level (Path.directory loc.file) = 0 := by decide +kernel
  have named : loc.file ≠ "" := by decide
  have relative : Path.isAbsolute "lib/b.php" = false := by decide
  obtain ⟨-, -, -, same, below, self⟩ := include_spellings_agree_iff named relative own (.constant loc)
    (fun _ => loc) (fun _ => loc) loc loc true true
  exact ⟨named, relative, own, same, below.mpr (.inr level), self.mpr (.inr level)⟩

/-- In `src/a.php` the path `b.php` is that of `src/b.php`, but below the directory it is that of
`src/src/b.php`, and the file itself is taken for `src/src/a.php`. -/
theorem relative_name_takes_directory_twice :
    let loc : Location := ⟨"src/a.php", 1, "", ""⟩
    let site (e : Expr) : IncludeSite := .of loc true true (some e)
    let here (d : Expr) : Expr := belowDirectory (fun _ => loc) d "b.php"
    (site (.atom loc (.string "b.php"))).target = "src/b.php" ∧
      (site (here (.atom loc .directory))).target = "src/src/b.php" ∧
      (site (here (.call loc (.function "dirname" "") [some (.atom loc .file)]))).target =
        "src/src/b.php" ∧
      (site (.atom loc .file)).target = "src/src/a.php" ∧ Path.clean "src/a.php" = "src/a.php" := by
  decide +kernel

end PhpAudit
