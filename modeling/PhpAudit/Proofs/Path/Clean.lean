import Mathlib.Data.List.TakeWhile
import PhpAudit.Proofs.Path.Components

/-!
# Cleaned paths

What `clean` does to a path as a text, said by the walk over its components.

**The laws.**
* A path from the root is cleaned to the place that its components lead to (`clean_of_rooted`), and
  such a spelling is read back as that place (`place_components_atRoot`). So one place has one spelling.
* A cleaned path leads where the path leads (`resolve_clean`), so cleaning is done once (`clean_clean`).
* A relative path keeps its **level** when it is cleaned (`level_clean`): what it goes down, less what it
  goes up. So a directory can be taken twice exactly when its level is zero
  (`clean_append_of_startsIn`).
-/

namespace PhpAudit.Path

variable {p q : Text} {names : List Text}

/-! ## Paths as components -/

theorem components_append (p q : Text) :
    components (p ++ "/" ++ q) = components p ++ components q := Text.split_append p q

theorem components_slash_append (q : Text) : components ("/" ++ q) = ("" : Text) :: components q :=
  components_append "" q

theorem components_append_slash (p : Text) : components (p ++ "/") = components p ++ [("" : Text)] := by
  have cut := components_append p ""
  rwa [show p ++ "/" ++ "" = p ++ "/" from Text.append_empty _] at cut

theorem slash_not_mem_of_mem_components {c : Text} (h : c ∈ components p) : slash ∉ c.bytes :=
  Text.not_mem_of_mem_split h

theorem components_intercalate (some : names ≠ []) (free : ∀ n ∈ names, slash ∉ n.bytes) :
    components (Text.intercalate "/" names) = names := Text.split_intercalate some free

/-- A path without slashes is its only component. -/
theorem components_of_not_mem (h : slash ∉ p.bytes) : components p = [p] := by
  have single : Text.intercalate "/" [p] = p := congrArg Text.mk (by simp [List.intercalate])
  have free : ∀ n ∈ [p], slash ∉ n.bytes := List.forall_mem_singleton.mpr h
  have only := components_intercalate (List.cons_ne_nil p []) free
  rwa [single] at only

theorem isAbsolute_append (some : p ≠ "") (q : Text) : isAbsolute (p ++ q) = isAbsolute p := by
  obtain ⟨_ | ⟨b, bs⟩⟩ := p
  · exact absurd rfl some
  · rfl

theorem isAbsolute_slash_append (q : Text) : isAbsolute ("/" ++ q) = true := rfl

theorem isAbsolute_of_not_mem (h : slash ∉ p.bytes) : isAbsolute p = false := by
  obtain ⟨_ | ⟨b, bs⟩⟩ := p
  · rfl
  · have other : b ≠ slash := fun same => h (same ▸ List.mem_cons_self)
    simpa [isAbsolute] using other

/-- What a walk over the components of a path keeps has no slashes in it. -/
theorem slash_not_mem_of_mem_resolve {rooted : Bool} {n : Text}
    (h : n ∈ resolve rooted (components p) []) : slash ∉ n.bytes := by
  obtain h | h | rfl := mem_resolve h
  · cases h
  · exact slash_not_mem_of_mem_components h
  · decide

/-! ## Paths from the root -/

/-- **The spelling of a place**: its names, each after a slash, and one slash for the root. -/
def atRoot (names : List Text) : Text := "/" ++ Text.intercalate "/" names

theorem clean_of_rooted (rooted : isAbsolute p = true) : clean p = atRoot (place (components p)) := by
  unfold clean
  simp only [rooted, if_true, reverse_resolve_rooted, atRoot]

theorem slash_not_mem_of_mem_place {n : Text} (h : n ∈ place (components p)) : slash ∉ n.bytes :=
  slash_not_mem_of_mem_components (mem_of_mem_place h)

/-- The components of the spelling of a place: an empty one, and the names. -/
theorem place_components_atRoot (all : ∀ n ∈ names, IsName n) (free : ∀ n ∈ names, slash ∉ n.bytes) :
    place (components (atRoot names)) = names := by
  rw [atRoot, components_slash_append]
  by_cases some : names = []
  · rw [some]
    rfl
  · rw [components_intercalate some free]
    exact place_of_names all

/-- **One place has one spelling.** -/
theorem atRoot_place_inj : atRoot (place (components p)) = atRoot (place (components q)) ↔
    place (components p) = place (components q) := by
  refine ⟨fun same => ?_, congrArg atRoot⟩
  have read (p : Text) : place (components (atRoot (place (components p)))) = place (components p) :=
    place_components_atRoot (fun n => isName_of_mem_place) fun n => slash_not_mem_of_mem_place
  rw [← read p, same, read q]

/-! ## Relative paths -/

/-- **What a relative path is cleaned to**: what its walk keeps, or a dot. -/
theorem components_clean (relative : isAbsolute p = false) :
    components (clean p) = (resolve false (components p) []).reverse ∨
      components (clean p) = [("." : Text)] ∧ resolve false (components p) [] = [] := by
  unfold clean
  simp only [relative, Bool.false_eq_true, if_false]
  by_cases nothing : resolve false (components p) [] = []
  · rw [nothing]
    exact .inr ⟨rfl, rfl⟩
  · have some : (resolve false (components p) []).reverse ≠ [] := by simpa using nothing
    have read := components_intercalate some fun n hn =>
      slash_not_mem_of_mem_resolve (List.mem_reverse.mp hn)
    rw [if_neg]
    · exact .inl read
    · intro empty
      have member : ("" : Text) ∈ resolve false (components p) [] := by
        rw [← List.mem_reverse, ← read, empty]
        decide
      exact (isStack_nil.resolve (components p)).ne_empty "" member rfl

/-- **A cleaned relative path leads where the path leads**, from any stack. -/
theorem resolve_components_clean (relative : isAbsolute p = false) (rooted : Bool)
    (below : List Text) :
    resolve rooted (components (clean p)) below = resolve rooted (components p) below := by
  obtain read | ⟨read, nothing⟩ := components_clean relative
  · rw [read, resolve_resolve]
  · rw [read, ← resolve_resolve (components p), nothing]
    rfl

/-! ## Cleaning -/

theorem clean_ne_empty (p : Text) : clean p ≠ "" := by
  unfold clean
  dsimp only
  split
  · exact fun h => by cases congrArg Text.bytes h
  split
  · decide
  · assumption

theorem isAbsolute_clean (p : Text) : isAbsolute (clean p) = isAbsolute p := by
  cases rooted : isAbsolute p with
  | true => rw [clean_of_rooted rooted, atRoot, isAbsolute_slash_append]
  | false =>
    have first : ∀ c, (components (clean p)).head? = some c → c ≠ "" := by
      intro c hc
      obtain read | ⟨read, -⟩ := components_clean rooted
      · rw [read] at hc
        have kept : c ∈ resolve false (components p) [] :=
          List.mem_reverse.mp (List.mem_of_mem_head? hc)
        exact (isStack_nil.resolve (components p)).ne_empty c kept
      · rw [read] at hc
        obtain rfl := Option.some.inj hc
        decide
    -- a text that starts with a slash has an empty first component
    rw [← Bool.not_eq_true]
    intro absolute
    obtain ⟨_ | ⟨b, bs⟩, same⟩ : ∃ t, clean p = t := ⟨_, rfl⟩
    · exact clean_ne_empty p same
    · rw [same] at absolute first
      obtain rfl : b = slash := by simpa [isAbsolute] using absolute
      have cut : components (⟨slash :: bs⟩ : Text) = ("" : Text) :: components ⟨bs⟩ :=
        components_slash_append ⟨bs⟩
      rw [cut] at first
      exact first "" rfl rfl

/-- Paths whose walks end alike are cleaned alike. -/
theorem clean_congr (absolute : isAbsolute p = isAbsolute q)
    (same : resolve (isAbsolute q) (components p) [] = resolve (isAbsolute q) (components q) []) :
    clean p = clean q := by
  unfold clean
  simp only [absolute, same]

theorem resolve_clean (p : Text) : resolve (isAbsolute p) (components (clean p)) [] =
    resolve (isAbsolute p) (components p) [] := by
  cases rooted : isAbsolute p with
  | true =>
    rw [← List.reverse_inj, reverse_resolve_rooted, reverse_resolve_rooted, clean_of_rooted rooted]
    exact place_components_atRoot (fun n => isName_of_mem_place) fun n => slash_not_mem_of_mem_place
  | false => exact resolve_components_clean rooted false []

/-- **Cleaning is done once.** -/
theorem clean_clean (p : Text) : clean (clean p) = clean p :=
  clean_congr (isAbsolute_clean p) (resolve_clean p)

/-- **Joining** is cleaning the two with a slash between, also where the second is empty. -/
theorem join_eq (some : p ≠ "") (q : Text) : join p q = clean (p ++ "/" ++ q) := by
  unfold join
  rw [if_neg some]
  split
  · next empty =>
    subst empty
    refine clean_congr ?_ ?_
    · rw [Text.append_assoc, isAbsolute_append some]
    · rw [components_append, resolve_append]
      rfl
  · rfl

/-! ## Directories -/

/-- A path is what it has up to its last slash, and a component after it. -/
theorem exists_base (p : Text) : ∃ base, p = upToSlash p ++ base ∧ slash ∉ base.bytes := by
  refine ⟨⟨(p.bytes.reverse.takeWhile (· ≠ slash)).reverse⟩, congrArg Text.mk ?_, fun h => ?_⟩
  · rw [upToSlash, ← List.reverse_append, List.takeWhile_append_dropWhile, List.reverse_reverse]
  · have other := List.mem_takeWhile_imp (List.mem_reverse.mp h)
    simp at other

/-- What a path has up to its last slash is nothing, or ends with that slash. -/
theorem upToSlash_cases (p : Text) : upToSlash p = "" ∨ ∃ q, upToSlash p = q ++ "/" := by
  cases kept : p.bytes.reverse.dropWhile (· ≠ slash) with
  | nil =>
    refine .inl (congrArg Text.mk ?_)
    rw [kept]
    rfl
  | cons b bs =>
    have last : b = slash := by
      have head := List.head?_dropWhile_not (· ≠ slash) p.bytes.reverse
      rw [kept] at head
      simpa using head
    refine .inr ⟨⟨bs.reverse⟩, congrArg Text.mk ?_⟩
    rw [kept, List.reverse_cons, last]
    rfl

theorem isAbsolute_directory (p : Text) : isAbsolute (directory p) = isAbsolute p := by
  rw [directory, isAbsolute_clean]
  obtain ⟨base, whole, free⟩ := exists_base p
  by_cases nothing : upToSlash p = ""
  · have alone : p = base := by
      rw [whole, nothing]
      rfl
    rw [nothing, alone, isAbsolute_of_not_mem free]
    rfl
  · calc isAbsolute (upToSlash p) = isAbsolute (upToSlash p ++ base) :=
          (isAbsolute_append nothing base).symm
      _ = isAbsolute p := by rw [← whole]

theorem directory_ne_empty (p : Text) : directory p ≠ "" := clean_ne_empty _

/-- **A relative path leads into its directory**, and by one component further. -/
theorem resolve_components_directory (relative : isAbsolute p = false) : ∃ base, ∀ below,
    resolve false (components p) below =
      step false (resolve false (components (directory p)) below) base := by
  obtain ⟨base, whole, free⟩ := exists_base p
  have up : isAbsolute (upToSlash p) = false := by
    rw [← isAbsolute_clean]
    exact (isAbsolute_directory p).trans relative
  refine ⟨base, fun below => ?_⟩
  rw [directory, resolve_components_clean up]
  obtain nothing | ⟨q, slashed⟩ := upToSlash_cases p
  · rw [nothing] at whole ⊢
    have alone : p = base := whole
    rw [alone, components_of_not_mem free]
    rfl
  · rw [slashed] at whole
    have cut : components p = components q ++ [base] := by
      rw [whole, components_append, components_of_not_mem free]
    rw [slashed, cut, components_append_slash, resolve_append, resolve_append]
    rfl

/-! ## Levels -/

/-- **The level of a path**: what it goes down, less what it goes up. -/
def level (p : Text) : Int := descent (components p)

theorem level_append (p q : Text) : level (p ++ "/" ++ q) = level p + level q := by
  rw [level, components_append, descent_append, level, level]

/-- **A relative path keeps its level** when it is cleaned. -/
theorem level_clean (relative : isAbsolute p = false) : level (clean p) = level p := by
  have kept : descent (resolve false (components p) []) = level p := by
    rw [descent_resolve isStack_nil]
    exact Int.add_zero _
  rw [← kept, level]
  obtain read | ⟨read, nothing⟩ := components_clean relative
  · rw [read, descent_reverse]
  · rw [read, nothing]
    rfl

/-- **A path starts in a directory**: wherever the walks start, that over the path goes on from the end
of that over the directory. -/
def StartsIn (d p : Text) : Prop := ∃ goOn : List Text → List Text, ∀ below,
  resolve false (components p) below = goOn (resolve false (components d) below)

theorem startsIn_append (d q : Text) : StartsIn d (d ++ "/" ++ q) := by
  refine ⟨resolve false (components q), fun below => ?_⟩
  rw [components_append, resolve_append]

theorem startsIn_directory (relative : isAbsolute p = false) : StartsIn (directory p) p := by
  obtain ⟨base, further⟩ := resolve_components_directory relative
  exact ⟨(step false · base), further⟩

/-- **A directory in front of a path that starts in it** is taken twice. That leads to the same place
exactly when the directory goes down as far as up. -/
theorem clean_append_of_startsIn {d : Text} (some : d ≠ "") (hd : isAbsolute d = false)
    (hp : isAbsolute p = false) (starts : StartsIn d p) :
    clean (d ++ "/" ++ p) = clean p ↔ level d = 0 := by
  have relative : isAbsolute (d ++ "/" ++ p) = false := by
    rw [Text.append_assoc, isAbsolute_append some, hd]
  constructor
  · intro same
    have levels := congrArg level same
    rw [level_clean relative, level_clean hp, level_append] at levels
    omega
  · intro even
    obtain ⟨goOn, further⟩ := starts
    refine clean_congr (relative.trans hp.symm) ?_
    rw [hp, components_append, resolve_append, further, further, resolve_twice even]

end PhpAudit.Path
