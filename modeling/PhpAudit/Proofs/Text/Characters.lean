import PhpAudit.Proofs.Text.Fold
import PhpAudit.Proofs.Text.Quoted
import PhpAudit.Proofs.Text.Split

/-!
# Control characters in texts

The spelling of a character is read as that character, whatever stands after it
(`glyphs_utf8EncodeChar_append`). So the glyphs of texts side by side are those of the texts, where the
first is spelled by characters or the second starts with an ASCII byte.

The **control characters** of a text are listed in order (`Text.controls`). A text that is spelled by
other characters is **plain**; literals, numbers and escaped texts are plain, and a plain text adds
nothing to the control characters of what it stands in front of.

**The law** (`isLines_iff`): lines that are written one after the other, each with a break at its end, are
read back as that many lines without control characters exactly when none of them has any.
-/

namespace PhpAudit

namespace Utf8

theorem toNat_ofNat {n : Nat} (h : n < 0x100) : (UInt8.ofNat n).toNat = n := by
  rw [UInt8.toNat_ofNat', Nat.mod_eq_of_lt h]

theorem tail?_ofNat {n : Nat} (h : n < 0x40) : tail? (UInt8.ofNat (n + 0x80)) = some n := by
  unfold tail?
  rw [toNat_ofNat (by omega), if_pos (by omega), Nat.add_sub_cancel]

theorem scalar?_of_eq {least code : Nat} {c : Char} (same : code = c.toNat) (h : least ≤ c.toNat) :
    scalar? least code = some c := by
  subst same
  rw [scalar?, dif_pos ⟨h, c.valid⟩]
  exact congrArg some (Char.ext (UInt32.toNat_inj.mp rfl))

/-- **The spelling of a character is read as that character.** -/
theorem first?_utf8EncodeChar (c : Char) (rest : List UInt8) : ∃ a bs,
    String.utf8EncodeChar c = a :: bs ∧ first? a (bs ++ rest) = some (c, bs.length) := by
  have code : c.val.toNat = c.toNat := rfl
  have most : c.toNat < 0x110000 := by
    have valid : c.toNat < 0xd800 ∨ 0xdfff < c.toNat ∧ c.toNat < 0x110000 := c.valid
    omega
  unfold String.utf8EncodeChar
  simp only [code]
  -- one case for each number of continuation bytes; the arithmetic is that of the digits to base 64
  split
  · refine ⟨_, _, rfl, ?_⟩
    simp only [first?]
    rw [toNat_ofNat (by omega), if_pos (by omega), scalar?_of_eq rfl (Nat.zero_le _)]
    rfl
  split
  · refine ⟨_, _, rfl, ?_⟩
    simp only [first?, List.cons_append]
    rw [toNat_ofNat (by omega), if_neg (by omega), if_pos (by omega), tail?_ofNat (by omega)]
    simp only [Option.bind_eq_bind, Option.bind_some]
    rw [scalar?_of_eq (c := c) (by omega) (by omega)]
    rfl
  split
  · refine ⟨_, _, rfl, ?_⟩
    simp only [first?, List.cons_append]
    rw [toNat_ofNat (by omega), if_neg (by omega), if_neg (by omega), if_pos (by omega),
      tail?_ofNat (by omega), tail?_ofNat (by omega)]
    simp only [Option.bind_eq_bind, Option.bind_some]
    rw [scalar?_of_eq (c := c) (by omega) (by omega)]
    rfl
  · refine ⟨_, _, rfl, ?_⟩
    simp only [first?, List.cons_append]
    rw [toNat_ofNat (by omega), if_neg (by omega), if_neg (by omega), if_neg (by omega),
      if_pos (by omega), tail?_ofNat (by omega), tail?_ofNat (by omega), tail?_ofNat (by omega)]
    simp only [Option.bind_eq_bind, Option.bind_some]
    rw [scalar?_of_eq (c := c) (by omega) (by omega)]
    rfl

theorem glyphs_utf8EncodeChar_append (c : Char) (rest : List UInt8) :
    glyphs (String.utf8EncodeChar c ++ rest) = .char c :: glyphs rest := by
  obtain ⟨a, bs, spelled, found⟩ := first?_utf8EncodeChar c rest
  rw [spelled, List.cons_append, glyphs, found]
  simp only [List.drop_left]

/-- An ASCII byte is read as a character of its own. -/
theorem glyphs_ascii {b : UInt8} (ascii : b.toNat < 0x80) (rest : List UInt8) :
    glyphs (b :: rest) = .char (Char.ofNat b.toNat) :: glyphs rest := by
  have valid : b.toNat.isValidChar := .inl (by omega)
  have found : first? b rest = some (Char.ofNat b.toNat, 0) := by
    simp only [first?]
    rw [if_pos ascii, scalar?, dif_pos ⟨Nat.zero_le _, valid⟩, Char.ofNat, dif_pos valid]
    rfl
  rw [glyphs, found]
  rfl

end Utf8

namespace Text

/-! ## Texts side by side -/

theorem ofString_eq (s : String) : ofString s = ofChars s.toList := by
  have bytes : s.toByteArray = (s.toList.flatMap String.utf8EncodeChar).toByteArray :=
    String.utf8Encode_toList.symm
  rw [ofString, ofChars, bytes]
  simp

theorem ofChars_append (cs ds : List Char) : ofChars (cs ++ ds) = ofChars cs ++ ofChars ds :=
  congrArg mk List.flatMap_append

/-- **Characters are read one by one**, whatever stands after them. -/
theorem glyphs_ofChars_append (cs : List Char) (t : Text) :
    (ofChars cs ++ t).glyphs = cs.map .char ++ t.glyphs := by
  induction cs with
  | nil => rfl
  | cons c cs ih =>
    have spelled : ofChars (c :: cs) ++ t = ⟨String.utf8EncodeChar c ++ (ofChars cs ++ t).bytes⟩ :=
      congrArg mk (by simp [ofChars])
    rw [spelled, glyphs, Utf8.glyphs_utf8EncodeChar_append, List.map_cons, List.cons_append, ← ih]
    rfl

theorem glyphs_empty : (⟨[]⟩ : Text).glyphs = [] := Utf8.glyphs.eq_1

theorem glyphs_ofChars (cs : List Char) : (ofChars cs).glyphs = cs.map .char := by
  have h := glyphs_ofChars_append cs ⟨[]⟩
  rwa [append_empty, glyphs_empty, List.append_nil] at h

/-- The text starts with an ASCII byte, unless it is empty. -/
def startsAscii (t : Text) : Bool := t.bytes.head?.all (·.toNat < 0x80)

theorem glyphs_append {t : Text} (ascii : t.startsAscii = true) (s : Text) :
    (s ++ t).glyphs = s.glyphs ++ t.glyphs := by
  obtain ⟨_ | ⟨b, bs⟩⟩ := t
  · rw [append_empty, glyphs_empty, List.append_nil]
  · exact Utf8.glyphs_append (of_decide_eq_true ascii) s.bytes

/-! ## Control characters -/

/-- **A control character**: one below the space, or from the delete character up to the no-break
space. -/
def isControl (c : Char) : Bool := c.toNat < 0x20 || (0x7f ≤ c.toNat && c.toNat < 0xa0)

/-- The control character of a glyph, if it is one. -/
def control? : Glyph → Option Char
  | .char c => if isControl c then some c else none
  | .stray _ => none

/-- **The control characters of a text**, in order. -/
def controls (t : Text) : List Char := t.glyphs.filterMap control?

theorem controls_append {t : Text} (ascii : t.startsAscii = true) (s : Text) :
    (s ++ t).controls = s.controls ++ t.controls := by
  rw [controls, glyphs_append ascii, List.filterMap_append, controls, controls]

/-- An ASCII control character is among those of the text. -/
theorem mem_controls_of_mem {t : Text} {b : UInt8} (ascii : b.toNat < 0x80)
    (control : isControl (Char.ofNat b.toNat) = true) (h : b ∈ t.bytes) :
    Char.ofNat b.toNat ∈ t.controls := by
  obtain ⟨before, after, split⟩ := List.append_of_mem h
  refine List.mem_filterMap.mpr ⟨.char (Char.ofNat b.toNat), ?_, if_pos control⟩
  rw [glyphs, split, Utf8.glyphs_append ascii, Utf8.glyphs_ascii ascii]
  simp

/-- A text without control characters is one line. -/
theorem isLine_of_controls {t : Text} (none : t.controls = []) : t.IsLine := fun h => by
  have member := mem_controls_of_mem (b := lineBreak) (by decide) (by decide) h
  rw [none] at member
  cases member

/-! ## Plain texts -/

/-- **A plain text** is spelled by characters that are no control characters. -/
def IsPlain (t : Text) : Prop := ∃ cs, t = ofChars cs ∧ ∀ c ∈ cs, isControl c = false

theorem isPlain_ofString {s : String} (h : ∀ c ∈ s.toList, isControl c = false) :
    IsPlain (ofString s) := ⟨s.toList, ofString_eq s, h⟩

theorem IsPlain.append {s t : Text} (hs : IsPlain s) (ht : IsPlain t) : IsPlain (s ++ t) := by
  obtain ⟨cs, rfl, first⟩ := hs
  obtain ⟨ds, rfl, second⟩ := ht
  refine ⟨cs ++ ds, (ofChars_append cs ds).symm, fun c hc => ?_⟩
  exact (List.mem_append.mp hc).elim (first c) (second c)

theorem isPlain_intercalate {between : Text} (hb : IsPlain between) {ts : List Text}
    (h : ∀ t ∈ ts, IsPlain t) : IsPlain (intercalate between ts) := by
  induction ts with
  | nil => exact ⟨[], rfl, fun c h => by cases h⟩
  | cons t ts ih =>
    obtain ⟨first, rest⟩ := List.forall_mem_cons.mp h
    cases ts with
    | nil =>
      have alone : intercalate between [t] = t := congrArg mk (by simp [List.intercalate])
      rwa [alone]
    | cons u ts =>
      have split : intercalate between (t :: u :: ts) =
          t ++ between ++ intercalate between (u :: ts) :=
        congrArg mk List.intercalate_cons_cons
      rw [split]
      exact (first.append hb).append (ih rest)

/-- A printable character is no control character. -/
theorem isControl_of_isPrintable {c : Char} (h : isPrintable c = true) : isControl c = false := by
  have least : ∀ r ∈ printableRanges, 0xa1 ≤ r.1 := by decide +kernel
  unfold isPrintable at h
  split at h
  · simp only [Bool.and_eq_true, decide_eq_true_eq] at h
    simp only [isControl, Bool.or_eq_false_iff, Bool.and_eq_false_iff, decide_eq_false_iff_not]
    omega
  · obtain ⟨r, hr, inside⟩ := List.any_eq_true.mp h
    simp only [Bool.and_eq_true, decide_eq_true_eq] at inside
    have above := least r hr
    simp only [isControl, Bool.or_eq_false_iff, Bool.and_eq_false_iff, decide_eq_false_iff_not]
    omega

/-- **Escaped text is plain.** -/
theorem isPlain_escaped (t : Text) : IsPlain t.escaped :=
  ⟨t.escapedChars, rfl, fun _ h => isControl_of_isPrintable (isPrintable_of_mem_escapedChars h)⟩

theorem isControl_of_isDigit {c : Char} (h : c.isDigit = true) : isControl c = false := by
  have digit : 48 ≤ c.toNat ∧ c.toNat ≤ 57 := by
    simpa [Char.isDigit, UInt32.le_iff_toNat_le] using h
  simp only [isControl, Bool.or_eq_false_iff, Bool.and_eq_false_iff, decide_eq_false_iff_not]
  omega

theorem isPlain_natural (n : Nat) : IsPlain (ofString (toString n)) := by
  refine isPlain_ofString fun c hc => isControl_of_isDigit ?_
  have digits : (toString n).toList = Nat.toDigits 10 n := Nat.toList_repr
  rw [digits] at hc
  exact Nat.isDigit_of_mem_toDigits (by decide) (by decide) hc

theorem isPlain_integer (i : Int) : IsPlain (ofString (toString i)) := by
  cases i with
  | ofNat n => exact isPlain_natural n
  | negSucc n =>
    have signed : ofString (toString (Int.negSucc n)) = ofString "-" ++ ofString (toString (n + 1)) := by
      rw [ofString_eq, ofString_eq, ofString_eq, ← ofChars_append, ← String.toList_append]
      rfl
    have sign : IsPlain "-" := isPlain_ofString fun c hc => by
      obtain rfl : c = '-' := List.mem_singleton.mp hc
      rfl
    rw [signed]
    exact sign.append (isPlain_natural (n + 1))

/-- **A plain text adds no control characters** to what it stands in front of. -/
theorem IsPlain.controls_append {s : Text} (h : IsPlain s) (t : Text) :
    (s ++ t).controls = t.controls := by
  obtain ⟨cs, rfl, plain⟩ := h
  have none : (cs.map Glyph.char).filterMap control? = [] := by
    rw [List.filterMap_map, List.filterMap_eq_nil_iff]
    intro c hc
    simp [control?, plain c hc]
  rw [controls, glyphs_ofChars_append, List.filterMap_append, none, List.nil_append, controls]

theorem controls_empty : (⟨[]⟩ : Text).controls = [] := by
  rw [controls, glyphs_empty, List.filterMap_nil]

theorem IsPlain.controls {t : Text} (h : IsPlain t) : t.controls = [] := by
  have last := h.controls_append ⟨[]⟩
  rwa [append_empty, controls_empty] at last

/-! ## Literals between names -/

/-- A literal without control characters. -/
def isLiteral (s : String) : Bool := s.toList.all fun c => !isControl c

/-- A literal without control characters that starts with an ASCII character. -/
def isSeparator (s : String) : Bool := (ofString s).bytes.head?.any (·.toNat < 0x80) && isLiteral s

theorem isPlain_of_isLiteral {s : String} (h : isLiteral s = true) : IsPlain (ofString s) :=
  isPlain_ofString fun c hc => by simpa using List.all_eq_true.mp h c hc

theorem controls_literal {s : String} (h : isLiteral s = true) : (ofString s).controls = [] :=
  (isPlain_of_isLiteral h).controls

theorem controls_literal_append {s : String} (h : isLiteral s = true) (t : Text) :
    (ofString s ++ t).controls = t.controls := (isPlain_of_isLiteral h).controls_append t

theorem controls_integer (i : Int) : (ofString (toString i)).controls = [] := (isPlain_integer i).controls

theorem startsAscii_append {s : String} (h : isSeparator s = true) (t : Text) :
    (ofString s ++ t).startsAscii = true := by
  unfold isSeparator at h
  unfold startsAscii
  rw [bytes_append]
  generalize (ofString s).bytes = bs at h ⊢
  cases bs with
  | nil => cases h
  | cons b bs => exact (Bool.and_eq_true_iff.mp h).1

/-- **A separator keeps the control characters of two texts apart.** -/
theorem controls_separated {s : String} (h : isSeparator s = true) (t u : Text) :
    (t ++ (ofString s ++ u)).controls = t.controls ++ u.controls := by
  rw [controls_append (startsAscii_append h u), controls_literal_append (Bool.and_eq_true_iff.mp h).2]

theorem controls_ended {s : String} (h : isSeparator s = true) (t : Text) :
    (t ++ ofString s).controls = t.controls := by
  have last := controls_separated h t ⟨[]⟩
  rwa [append_empty, controls_empty, List.append_nil] at last

/-! ## Lines -/

/-- **A text of some lines without control characters**, each of which ends with a break. -/
def IsLines (n : Nat) (t : Text) : Prop := ∃ lines : List Text, lines.length = n ∧
  t.split lineBreak = lines ++ [⟨[]⟩] ∧ ∀ l ∈ lines, l.controls = []

/-- Lines one after the other, each with a break at its end. -/
def unlines (lines : List Text) : Text := join (lines.map (· ++ ofString "\n"))

@[simp] theorem unlines_nil : unlines [] = ⟨[]⟩ := rfl

theorem unlines_cons (l : Text) (lines : List Text) :
    unlines (l :: lines) = l ++ ofString "\n" ++ unlines lines := rfl

theorem unlines_append (lines more : List Text) :
    unlines (lines ++ more) = unlines lines ++ unlines more := by
  simp only [unlines, join, List.map_append, List.flatMap_append]
  rfl

theorem unlines_flatMap {α : Type} (lines : α → List Text) (xs : List α) :
    unlines (xs.flatMap lines) = join (xs.map fun x => unlines (lines x)) := by
  induction xs with
  | nil => rfl
  | cons x xs ih =>
    rw [List.flatMap_cons, unlines_append, ih]
    rfl

/-- The control characters of lines: those of each, and its break. -/
theorem controls_unlines (lines : List Text) :
    (unlines lines).controls = lines.flatMap fun l => l.controls ++ ['\n'] := by
  induction lines with
  | nil => exact controls_empty
  | cons l lines ih =>
    have line : (ofString "\n" ++ unlines lines).controls = '\n' :: (unlines lines).controls := by
      have first : ofString "\n" = ofChars ['\n'] := ofString_eq "\n"
      rw [first, controls, glyphs_ofChars_append]
      rfl
    rw [unlines_cons, append_assoc, controls_append rfl, line, ih, List.flatMap_cons,
      List.append_assoc, List.singleton_append]

theorem length_controls_unlines (lines : List Text) : (unlines lines).controls.length =
    (lines.flatMap controls).length + lines.length := by
  rw [controls_unlines]
  induction lines with
  | nil => rfl
  | cons l lines ih =>
    simp only [List.flatMap_cons, List.length_append, ih, List.length_cons, List.length_nil]
    omega

/-- **Lines are read back as so many plain lines** exactly when none of them has a control character:
a break inside a line would make it two. -/
theorem isLines_iff {lines : List Text} :
    IsLines lines.length (unlines lines) ↔ ∀ l ∈ lines, l.controls = [] := by
  have split_of {lines : List Text} (plain : ∀ l ∈ lines, l.controls = []) :
      (unlines lines).split lineBreak = lines ++ [⟨[]⟩] :=
    split_lines fun l hl => isLine_of_controls (plain l hl)
  refine ⟨?_, fun plain => ⟨lines, rfl, split_of plain, plain⟩⟩
  rintro ⟨read, many, split, plain⟩
  have same : unlines lines = unlines read := split_inj (split.trans (split_of plain).symm)
  -- both lists of lines are as long and have the same text, so as many control characters
  have none : read.flatMap controls = [] := List.flatMap_eq_nil_iff.mpr plain
  have length := length_controls_unlines lines
  rw [same, length_controls_unlines, none, many, List.length_nil] at length
  have all : (lines.flatMap controls).length = 0 := by omega
  exact List.flatMap_eq_nil_iff.mp (List.length_eq_zero_iff.mp all)

end Text

end PhpAudit
