import PhpAudit.Analysis.Files
import PhpAudit.Proofs.Tree.Locations

/-!
# The file of a program and the files of its locations

Locations are in the file that the document names: every known location of a program has that file, at
whatever depth. A program that is read from a disk has the same file, unless the document names none.

**The gap.** A program whose document names no file takes the path of its tree file, but it does so
after its nodes were placed. Their locations stay in the file with the empty name
(`unnamed_program_has_other_file`).
-/

namespace PhpAudit

open PhpAudit.Tree

/-- A program has the file that its document names. -/
theorem Tree.file_of_ofDocument {d : Yaml.Document} {p : Program}
    (accepted : Program.ofDocument d = .ok p) : p.file = namedFile d := by
  unfold Program.ofDocument at accepted
  split at accepted
  · obtain ⟨file, hfile, accepted⟩ := bind_eq_ok_iff.1 accepted
    obtain ⟨body, -, accepted⟩ := bind_eq_ok_iff.1 accepted
    obtain ⟨items, -, accepted⟩ := bind_eq_ok_iff.1 accepted
    obtain ⟨functions, -, accepted⟩ := bind_eq_ok_iff.1 accepted
    rw [← Except.ok.inj accepted]
    exact text_eq_ok hfile
  · cases accepted

/-- Every location of a program that is known is in the file that its document names. -/
theorem Tree.file_of_holds {d : Yaml.Document} {p : Program} {z : Element}
    (accepted : Program.ofDocument d = .ok p) (holds : Holds p.roots z)
    (known : z.loc.isUnknown = false) : z.loc.file = namedFile d := by
  have mapping := root_isMapping accepted
  obtain h | h | ⟨q, -, r, n, -, h⟩ :=
    (IsReading.program mapping).placed _ (roots_of_ofDocument accepted) z holds
  · simp [h] at known
  · simp [h] at known
  · rw [h] at known ⊢
    unfold locationIn at known ⊢
    split at known
    · simp at known
    · simp [*]

/-- A program that is read from a text is read from the document of the text. -/
theorem Tree.Program.document_of_read {text : Text} {p : Program}
    (done : Program.read text = .ok p) :
    ∃ d, Yaml.Document.parse text = .ok (some d) ∧ Program.ofDocument d = .ok p := by
  unfold Program.read at done
  split at done
  next => cases done
  next => cases done
  next d parsed =>
    split at done
    next p' whole =>
      obtain rfl := Except.ok.inj done
      exact ⟨d, parsed, whole⟩
    next => cases done

namespace Disk

/-- A program that is read from a disk is read from the document of its file, and takes the path of the
file if the document names none. -/
theorem document_of_program {disk : Disk} {path : Text} {p : Program}
    (accepted : disk.program path = .ok p) :
    ∃ text d p', disk.read path = .ok text ∧ Yaml.Document.parse text = .ok (some d) ∧
      Program.ofDocument d = .ok p' ∧
      p = { p' with file := if namedFile d = "" then path else namedFile d } := by
  unfold program at accepted
  cases read : disk.read path with
  | error e => simp [read] at accepted
  | ok text =>
    cases tree : Program.read text with
    | error e => simp [read, tree] at accepted
    | ok p' =>
      obtain ⟨d, parsed, whole⟩ := Program.document_of_read tree
      refine ⟨text, d, p', rfl, parsed, whole, ?_⟩
      simp only [read, tree, Except.ok.injEq] at accepted
      rw [← accepted, ← file_of_ofDocument whole]
      split <;> rfl

/-- **The file of a program and the files of its locations.** Every known location is in the file that
the document names. The program is in that file too, unless the document names none: then the program
takes the path of the tree file, and its locations are in no file. -/
theorem locations_keep_named_file {disk : Disk} {path : Text} {p : Program}
    (accepted : disk.program path = .ok p) :
    ∃ text d, disk.read path = .ok text ∧ Yaml.Document.parse text = .ok (some d) ∧
      (namedFile d ≠ "" → p.file = namedFile d ∧
        ∀ z, Holds p.roots z → z.loc.isUnknown = false → z.loc.file = p.file) ∧
      (namedFile d = "" → p.file = path ∧
        ∀ z, Holds p.roots z → z.loc.isUnknown = false → z.loc.file = "") := by
  obtain ⟨text, d, p', read, parsed, whole, rfl⟩ := document_of_program accepted
  refine ⟨text, d, read, parsed, fun named => ⟨if_neg named, fun z holds known => ?_⟩,
    fun unnamed => ⟨if_pos unnamed, fun z holds known => ?_⟩⟩
  · exact (file_of_holds whole holds known).trans (if_neg named).symm
  · exact (file_of_holds whole holds known).trans unnamed

/-- A disk with one tree file, of one statement on a line. -/
def echoDisk (file : Text) : Disk :=
  ⟨[(["t.json"], file ++ "statements: [\x7bkind: echo, line: 1\x7d]")], []⟩

/-- The program of a disk, by what is seen of it. -/
theorem exists_program {α : Type} {disk : Disk} {path : Text} {see : Program → α} {a : α}
    (seen : (disk.program path).toOption.map see = some a) :
    ∃ p, disk.program path = .ok p ∧ see p = a := by
  cases accepted : disk.program path with
  | error e => simp [accepted, Except.toOption] at seen
  | ok p => exact ⟨p, rfl, by simpa [accepted, Except.toOption] using seen⟩

/-- The one location of a program that names its file is in that file. -/
theorem named_program_keeps_its_file : ∃ p, (echoDisk "file: a.php\n").program "t.json" = .ok p ∧
    p.file = "a.php" ∧
    ∀ z, Holds p.roots z → z.loc.isUnknown = false → z.loc.file = "a.php" := by
  obtain ⟨p, accepted, named⟩ : ∃ p, (echoDisk "file: a.php\n").program "t.json" = .ok p ∧
      p.file = "a.php" := exists_program (by decide +kernel)
  obtain ⟨text, d, -, -, keeps, takes⟩ := locations_keep_named_file accepted
  by_cases unnamed : namedFile d = ""
  · exact absurd (named.symm.trans (takes unnamed).1) (by decide)
  · exact ⟨p, accepted, named, fun z holds known => named ▸ (keeps unnamed).2 z holds known⟩

/-- A program that takes the path of its tree file has a location in no file. -/
theorem unnamed_program_has_other_file : ¬ ∀ (disk : Disk) (path : Text) (p : Program),
    disk.program path = .ok p →
      ∀ z, Holds p.roots z → z.loc.isUnknown = false → z.loc.file = p.file := by
  intro claim
  let line : Location := ⟨"", 1, "", ""⟩
  obtain ⟨p, accepted, seen⟩ : ∃ p, (echoDisk "").program "t.json" = .ok p ∧
      (p.file, p.body.stmts.map Stmt.loc) = (("t.json" : Text), [line]) :=
    exists_program (by decide +kernel)
  obtain ⟨file, locs⟩ := Prod.mk.inj seen
  obtain ⟨s, hs, loc⟩ : ∃ s ∈ p.body.stmts, s.loc = ⟨"", 1, "", ""⟩ :=
    List.mem_map.1 (locs ▸ List.mem_singleton_self _)
  have holds : Holds p.roots (.stmt s) :=
    .inside List.mem_cons_self (.here (List.mem_map_of_mem hs))
  have same := claim _ _ p accepted (.stmt s) holds (by rw [Element.loc, loc]; rfl)
  rw [file, Element.loc, loc] at same
  exact absurd same (by decide)

end Disk
end PhpAudit
