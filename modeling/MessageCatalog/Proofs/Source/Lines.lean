import Mathlib.Data.List.Infix
import Mathlib.Data.List.TakeWhile
import MessageCatalog.Proofs.Validity
import MessageCatalog.Source.Line

/-!
# What the significant lines of a source are

A significant line is not empty, is one line, has no comment, and neither starts nor ends with a blank (`IsLineText`).
Significant lines keep their order, so their numbers increase. In the other direction, a text of this kind is found
again as the significant part of every line that has it between blanks and in front of a comment.
-/

namespace MessageCatalog

/-! ## Comments -/

/-- An empty text has no comment. -/
theorem hasNoComment_nil : HasNoComment [] := by
  simp [HasNoComment]

/-- A part of a text without a comment has none. -/
theorem HasNoComment.of_isInfix {text whole : List Char} (h : HasNoComment whole) (hi : text <:+: whole) : HasNoComment text :=
  fun hc => h (hc.trans hi)

/-- A text has no comment when none starts at its first character and none starts later. -/
theorem hasNoComment_cons_iff {c : Char} {rest : List Char} :
    HasNoComment (c :: rest) ↔ ¬(c = '/' ∧ rest.head? = some '/') ∧ HasNoComment rest := by
  have hfront : ['/', '/'] <+: c :: rest ↔ c = '/' ∧ rest.head? = some '/' := by
    cases rest with
    | nil => simp [List.cons_prefix_cons]
    | cons d rest => simp [List.cons_prefix_cons, eq_comm]
  unfold HasNoComment
  rw [List.infix_cons_iff, hfront, not_or]

/-- Characters that are no slash start no comment. -/
theorem hasNoComment_append_of_front {front text : List Char} (hf : '/' ∉ front) (ht : HasNoComment text) :
    HasNoComment (front ++ text) := by
  induction front with
  | nil => exact ht
  | cons c front ih =>
    rw [List.mem_cons, not_or] at hf
    rw [List.cons_append, hasNoComment_cons_iff]
    exact ⟨fun h => hf.1 h.1.symm, ih hf.2⟩

/-- A text without a slash has no comment. -/
theorem hasNoComment_of_not_mem {text : List Char} (h : '/' ∉ text) : HasNoComment text := by
  simpa using hasNoComment_append_of_front h hasNoComment_nil

/-- No comment starts between two texts if the second does not start with a slash. -/
theorem HasNoComment.append {text back : List Char} (ht : HasNoComment text) (hb : HasNoComment back)
    (hhead : back.head? ≠ some '/') : HasNoComment (text ++ back) := by
  induction text with
  | nil => exact hb
  | cons c text ih =>
    rw [hasNoComment_cons_iff] at ht
    rw [List.cons_append, hasNoComment_cons_iff]
    refine ⟨?_, ih ht.2⟩
    rintro ⟨hc, hslash⟩
    cases text with
    | nil => exact hhead hslash
    | cons d text => exact ht.1 ⟨hc, hslash⟩

namespace Text

/-- What stands before a comment is the front of the line. -/
theorem beforeComment_isPrefix (line : List Char) : beforeComment line <+: line := by
  induction line with
  | nil => exact List.prefix_refl _
  | cons c rest ih =>
    unfold beforeComment
    split
    · exact List.nil_prefix
    · exact List.cons_prefix_cons.mpr ⟨rfl, ih⟩

/-- The part in front of the first comment has none. -/
theorem hasNoComment_beforeComment (line : List Char) : HasNoComment (beforeComment line) := by
  induction line with
  | nil => exact hasNoComment_nil
  | cons c rest ih =>
    unfold beforeComment
    split
    · exact hasNoComment_nil
    · rename_i hc
      refine hasNoComment_cons_iff.mpr ⟨?_, ih⟩
      rintro ⟨rfl, hhead⟩
      obtain ⟨t, ht⟩ := beforeComment_isPrefix rest
      refine hc ⟨rfl, ?_⟩
      rw [← ht, List.head?_append, hhead]
      rfl

/-- A line without a comment is all in front of it. -/
theorem beforeComment_eq_self {line : List Char} (h : HasNoComment line) : beforeComment line = line := by
  induction line with
  | nil => rfl
  | cons c rest ih =>
    rw [hasNoComment_cons_iff] at h
    rw [beforeComment, if_neg h.1, ih h.2]

/-- A comment is cut off where it was put, unless a slash in front of it makes it start earlier. -/
theorem beforeComment_append {text comment : List Char} (h : HasNoComment text) (hlast : text.getLast? ≠ some '/') :
    beforeComment (text ++ '/' :: '/' :: comment) = text := by
  induction text with
  | nil => rfl
  | cons c text ih =>
    rw [hasNoComment_cons_iff] at h
    cases text with
    | nil =>
      have hc : c ≠ '/' := by simpa using hlast
      simp [beforeComment, hc]
    | cons d text =>
      rw [List.getLast?_cons_cons] at hlast
      have hc : ¬(c = '/' ∧ (d :: text ++ '/' :: '/' :: comment).head? = some '/') := h.1
      rw [List.cons_append, beforeComment, if_neg hc, ih h.2 hlast]

/-! ## Blanks -/

/-- What is left when the end is trimmed is the front of the text. -/
theorem trimEnd_isPrefix (cs : List Char) : trimEnd cs <+: cs := by
  have h := List.reverse_prefix.mpr (List.dropWhile_suffix (p := isBlank) (l := cs.reverse))
  rwa [List.reverse_reverse] at h

/-- What is left when a text is trimmed is a part of it. -/
theorem trim_isInfix (cs : List Char) : trim cs <:+: cs :=
  (trimEnd_isPrefix _).isInfix.trans (List.dropWhile_suffix _).isInfix

/-- A trimmed text ends in no blank. -/
theorem endsVisibly_trimEnd (cs : List Char) : EndsVisibly (trimEnd cs) := by
  intro c hc
  rw [trimEnd, List.getLast?_reverse] at hc
  have h := List.head?_dropWhile_not isBlank cs.reverse
  rw [Option.mem_def.mp hc] at h
  simpa using h

/-- A trimmed text starts with no blank. -/
theorem head_trim {cs : List Char} : ∀ c ∈ (trim cs).head?, isBlank c = false := by
  intro c hc
  obtain ⟨t, ht⟩ := trimEnd_isPrefix (cs.dropWhile isBlank)
  have h := List.head?_dropWhile_not isBlank cs
  rw [← ht, List.head?_append, show (trimEnd (cs.dropWhile isBlank)).head? = some c from hc] at h
  simpa using h

/-- Blanks at the end are cut off a text that ends in none. -/
theorem trimEnd_append {text blanks : List Char} (ht : EndsVisibly text) (hb : ∀ c ∈ blanks, isBlank c = true) :
    trimEnd (text ++ blanks) = text := by
  rw [trimEnd, List.reverse_append, List.dropWhile_append_of_pos (by simpa using hb)]
  cases hr : text.reverse with
  | nil => simpa using hr
  | cons c rest =>
    have hc : isBlank c = false := ht c (by rw [← List.head?_reverse, hr]; rfl)
    rw [List.dropWhile_cons_of_neg (by simp [hc]), ← hr, List.reverse_reverse]

/-- Blanks at both ends are cut off a text that has none there. -/
theorem trim_append {lead text blanks : List Char} (hl : ∀ c ∈ lead, isBlank c = true)
    (hh : ∀ c ∈ text.head?, isBlank c = false) (ht : EndsVisibly text) (hb : ∀ c ∈ blanks, isBlank c = true) :
    trim (lead ++ text ++ blanks) = text := by
  rw [trim, List.append_assoc, List.dropWhile_append_of_pos hl]
  cases text with
  | nil => rw [List.nil_append, List.dropWhile_eq_nil_iff.mpr hb]; rfl
  | cons c rest =>
    rw [List.cons_append, List.dropWhile_cons_of_neg (by simp [hh c rfl]), ← List.cons_append, trimEnd_append ht hb]

/-! ## Lines -/

/-- A line has no line break. -/
theorem newline_not_mem_lines {cs line : List Char} (h : line ∈ lines cs) : '\n' ∉ line := by
  induction cs generalizing line with
  | nil => simp [lines] at h
  | cons c rest ih =>
    unfold lines at h
    split at h
    · rcases List.mem_cons.mp h with rfl | h
      · simp
      · exact ih h
    · rename_i hc
      cases hl : lines rest with
      | nil =>
        rw [hl] at h
        obtain rfl := List.mem_singleton.mp h
        simpa using Ne.symm hc
      | cons first others =>
        rw [hl] at h ih
        rcases List.mem_cons.mp h with rfl | h
        · rw [List.mem_cons, not_or]
          exact ⟨Ne.symm hc, ih (by simp)⟩
        · exact ih (List.mem_cons_of_mem first h)

/-- A line feed ends the line in front of it. -/
theorem lines_append_newline {line : List Char} (h : '\n' ∉ line) (rest : List Char) :
    lines (line ++ '\n' :: rest) = line :: lines rest := by
  induction line with
  | nil => rw [List.nil_append, lines, if_pos rfl]
  | cons c line ih =>
    rw [List.mem_cons, not_or] at h
    rw [List.cons_append, lines, if_neg (Ne.symm h.1), ih h.2]

/-- A text without a line feed is one line, if it is not empty. -/
theorem lines_eq_singleton {line : List Char} (h : '\n' ∉ line) (hne : line ≠ []) : lines line = [line] := by
  induction line with
  | nil => exact absurd rfl hne
  | cons c line ih =>
    rw [List.mem_cons, not_or] at h
    rw [lines, if_neg (Ne.symm h.1)]
    cases line with
    | nil => rfl
    | cons d line => rw [ih h.2 (by simp)]

end Text

/-! ## Significant lines -/

/-- What holds of the text of a significant line. -/
structure IsLineText (text : List Char) : Prop where
  nonempty : text ≠ []
  oneLine : '\n' ∉ text
  noComment : HasNoComment text
  startsVisibly : ∀ c ∈ text.head?, Text.isBlank c = false
  endsVisibly : EndsVisibly text

/-- What counts of a line is the text of a line, if it is not empty. -/
theorem isLineText_significantText {line : List Char} (hline : '\n' ∉ line) (hne : significantText line ≠ []) :
    IsLineText (significantText line) where
  nonempty := hne
  oneLine := fun h => hline ((Text.beforeComment_isPrefix line).subset ((Text.trim_isInfix _).subset h))
  noComment := (Text.hasNoComment_beforeComment line).of_isInfix (Text.trim_isInfix _)
  startsVisibly := Text.head_trim
  endsVisibly := Text.endsVisibly_trimEnd _

/-- The significant lines among some lines have increasing numbers, from that of the first on. -/
theorem significantFrom_numbers (number : Nat) (lines : List (List Char)) :
    (significantFrom number lines).Pairwise (fun a b => a.number < b.number) ∧
      ∀ l ∈ significantFrom number lines, number ≤ l.number := by
  induction lines generalizing number with
  | nil => simp [significantFrom]
  | cons line rest ih =>
    obtain ⟨hpair, hmin⟩ := ih (number + 1)
    rw [significantFrom]
    split
    · exact ⟨hpair, fun l hl => Nat.le_of_succ_le (hmin l hl)⟩
    · refine ⟨List.pairwise_cons.mpr ⟨fun l hl => hmin l hl, hpair⟩, ?_⟩
      intro l hl
      rcases List.mem_cons.mp hl with rfl | hl
      · exact Nat.le_refl number
      · exact Nat.le_of_succ_le (hmin l hl)

/-- Lines that count have the text of a line. -/
theorem isLineText_of_mem_significantFrom {number : Nat} {lines : List (List Char)} (hlines : ∀ line ∈ lines, '\n' ∉ line) :
    ∀ l ∈ significantFrom number lines, IsLineText l.text.toList := by
  induction lines generalizing number with
  | nil => simp [significantFrom]
  | cons line rest ih =>
    have hrest := @ih (number + 1) fun line' h => hlines line' (List.mem_cons_of_mem line h)
    rw [significantFrom]
    split
    · exact hrest
    · rename_i hne
      rw [List.forall_mem_cons]
      refine ⟨?_, hrest⟩
      rw [String.toList_ofList]
      exact isLineText_significantText (hlines line (by simp)) (by simpa using hne)

/-- The number of a significant line tells its place among the lines. -/
theorem place_of_mem_significantFrom {number : Nat} {lines : List (List Char)} :
    ∀ l ∈ significantFrom number lines, ∃ place line, l.number = number + place ∧ lines[place]? = some line ∧
      l.text = String.ofList (significantText line) := by
  induction lines generalizing number with
  | nil => simp [significantFrom]
  | cons line rest ih =>
    have hrest : ∀ l ∈ significantFrom (number + 1) rest, ∃ place line', l.number = number + place ∧
        (line :: rest)[place]? = some line' ∧ l.text = String.ofList (significantText line') := by
      intro l hl
      obtain ⟨place, line', hn, hplace, htext⟩ := ih l hl
      exact ⟨place + 1, line', by omega, by simpa using hplace, htext⟩
    rw [significantFrom]
    split
    · exact hrest
    · rw [List.forall_mem_cons]
      exact ⟨⟨0, line, rfl, rfl, rfl⟩, hrest⟩

/-- The numbers of the significant lines of a source increase. -/
theorem significantLines_pairwise (source : String) :
    (significantLines source).Pairwise fun a b => a.number < b.number :=
  (significantFrom_numbers 1 _).1

/-- The lines that count in a source have the text of a line. -/
theorem isLineText_of_mem_significantLines {source : String} {l : SourceLine} (h : l ∈ significantLines source) :
    IsLineText l.text.toList :=
  isLineText_of_mem_significantFrom (fun _ hline => Text.newline_not_mem_lines hline) l h

/-- Lines put together with line feeds between them are found again, but for an empty one at the end, which is not significant. -/
theorem significantFrom_lines_intercalate {number : Nat} {lines : List (List Char)} (hlines : ∀ line ∈ lines, '\n' ∉ line) :
    significantFrom number (Text.lines (['\n'].intercalate lines)) = significantFrom number lines := by
  induction lines generalizing number with
  | nil => rfl
  | cons line rest ih =>
    have hline := hlines line (by simp)
    cases rest with
    | nil =>
      rw [List.intercalate_singleton]
      by_cases hne : line = []
      · subst hne
        rfl
      · rw [Text.lines_eq_singleton hline hne]
    | cons line' rest =>
      have hrest := @ih (number + 1) fun l h => hlines l (List.mem_cons_of_mem line h)
      have he : ['\n'].intercalate (line :: line' :: rest) = line ++ '\n' :: ['\n'].intercalate (line' :: rest) := by
        simp [List.intercalate]
      rw [he, Text.lines_append_newline hline, significantFrom, significantFrom, hrest]

/-- The significant lines of a source that is put together of lines are those among them. -/
theorem significantLines_ofList_intercalate {lines : List (List Char)} (hlines : ∀ line ∈ lines, '\n' ∉ line) :
    significantLines (String.ofList (['\n'].intercalate lines)) = significantFrom 1 lines := by
  rw [significantLines, String.toList_ofList, significantFrom_lines_intercalate hlines]

end MessageCatalog
