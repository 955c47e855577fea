import Mathlib.Logic.Relation
import MessageCatalog.Proofs.Source.Completeness

/-!
# Layout

What a source says is the sequence of the texts of its significant lines. Comments, blank lines, white space at the ends
of lines and the way that lines end make its layout. An edit of the layout, or any number of them one way and back,
leaves the sequence as it is.
-/

namespace MessageCatalog

/-- The texts of the significant lines of a source in order. -/
def significantTexts (source : String) : List String :=
  (significantLines source).map (·.text)

/-! ## Edits -/

/-- Whether a line may start behind a text: there is nothing in front of it, or a line feed. -/
def StartsLine (front : List Char) : Prop :=
  front = [] ∨ ∃ before, front = before ++ ['\n']

/-- Whether a line may end in front of a text: there is nothing behind it, or a line feed, perhaps with a carriage return. -/
def EndsLine (back : List Char) : Prop :=
  back = [] ∨ ∃ rest, back = '\n' :: rest ∨ back = '\r' :: '\n' :: rest

/-- A line that is blank or has only a comment. -/
def IsIdle (line : List Char) : Prop :=
  ∃ blanks comment, IsBlankRun blanks ∧ IsComment comment ∧ line = blanks ++ comment

/-- What may be added to a line: a comment behind a space, or white space at its start or its end. -/
inductive LineEdit (line : List Char) : List Char → Prop where
  | comment {remark : List Char} (hremark : '\n' ∉ remark) : LineEdit line (line ++ ' ' :: '/' :: '/' :: remark)
  | lead {blanks : List Char} (hblanks : IsBlankRun blanks) : LineEdit line (blanks ++ line)
  | trail {blanks : List Char} (hblanks : IsBlankRun blanks) : LineEdit line (line ++ blanks)

/-- Two texts one of which has carriage returns in front of some of its line feeds that the other has not. -/
inductive AddsReturns : List Char → List Char → Prop where
  | nil : AddsReturns [] []
  | keep {text text' : List Char} (c : Char) (h : AddsReturns text text') : AddsReturns (c :: text) (c :: text')
  | feed {text text' : List Char} (h : AddsReturns text text') : AddsReturns ('\n' :: text) ('\r' :: '\n' :: text')

/-- A change of the layout of a source: of one line, by one line more, or of the ends of lines. -/
inductive LayoutEdit : List Char → List Char → Prop where
  | line {front line line' back : List Char} (hfront : StartsLine front) (hback : EndsLine back) (hline : '\n' ∉ line)
    (h : LineEdit line line') : LayoutEdit (front ++ line ++ back) (front ++ line' ++ back)
  | insert {front line back : List Char} (hfront : StartsLine front) (hline : IsIdle line) :
    LayoutEdit (front ++ back) (front ++ line ++ '\n' :: back)
  | append {text line : List Char} (hline : IsIdle line) : LayoutEdit text (text ++ '\n' :: line)
  | returns {text text' : List Char} (h : AddsReturns text text') : LayoutEdit text text'

/-! ## Blanks and comments -/

namespace Text

/-- Blanks in front are trimmed. -/
theorem trim_append_left {blanks : List Char} (h : ∀ c ∈ blanks, isBlank c = true) (cs : List Char) :
    trim (blanks ++ cs) = trim cs := by
  rw [trim, trim, List.dropWhile_append_of_pos h]

/-- Blanks behind are trimmed at the end. -/
theorem trimEnd_append_right {blanks : List Char} (h : ∀ c ∈ blanks, isBlank c = true) (cs : List Char) :
    trimEnd (cs ++ blanks) = trimEnd cs := by
  rw [trimEnd, trimEnd, List.reverse_append, List.dropWhile_append_of_pos (by simpa using h)]

/-- Blanks behind are trimmed. -/
theorem trim_append_right {blanks : List Char} (h : ∀ c ∈ blanks, isBlank c = true) (cs : List Char) :
    trim (cs ++ blanks) = trim cs := by
  rw [trim, trim, List.dropWhile_append]
  split
  · rename_i hempty
    rw [List.isEmpty_iff.mp hempty, List.dropWhile_eq_nil_iff.mpr h]
  · exact trimEnd_append_right h _

/-- What stands behind a line is cut off with its comment if it has one, and otherwise on its own. -/
theorem beforeComment_append_cases (line : List Char) {back : List Char} (hhead : back.head? ≠ some '/') :
    beforeComment (line ++ back) = beforeComment line ∨
      (beforeComment line = line ∧ beforeComment (line ++ back) = line ++ beforeComment back) := by
  induction line with
  | nil => exact .inr ⟨rfl, rfl⟩
  | cons c line ih =>
    have hslash : (line ++ back).head? = some '/' ↔ line.head? = some '/' := by
      cases line with
      | nil => simpa using hhead
      | cons d line => rfl
    rw [List.cons_append, beforeComment, beforeComment]
    simp only [hslash]
    split
    · exact .inl rfl
    · rcases ih with ih | ⟨ihline, ihback⟩
      · exact .inl (by rw [ih])
      · exact .inr ⟨by rw [ihline], by rw [ihback, List.cons_append]⟩

/-- A comment starts behind what has no slash. -/
theorem beforeComment_append_left {blanks : List Char} (h : '/' ∉ blanks) (line : List Char) :
    beforeComment (blanks ++ line) = blanks ++ beforeComment line := by
  induction blanks with
  | nil => rfl
  | cons c blanks ih =>
    rw [List.mem_cons, not_or] at h
    rw [List.cons_append, beforeComment, if_neg fun hc => h.1 hc.1.symm, ih h.2, List.cons_append]

end Text

/-- A run of blanks has nothing else. -/
theorem IsBlankRun.isBlank {blanks : List Char} (h : IsBlankRun blanks) : ∀ c ∈ blanks, Text.isBlank c = true :=
  fun c hc => (h c hc).1

/-- Nothing counts of what stands behind a line if it is blank up to a comment. -/
theorem significantText_append {back : List Char} (hhead : back.head? ≠ some '/')
    (hback : ∀ c ∈ Text.beforeComment back, Text.isBlank c = true) (line : List Char) :
    significantText (line ++ back) = significantText line := by
  unfold significantText
  rcases Text.beforeComment_append_cases line hhead with h | ⟨hline, h⟩
  · rw [h]
  · rw [h, hline, Text.trim_append_right hback]

/-- Blanks behind a line do not count. -/
theorem significantText_append_blanks {blanks : List Char} (h : IsBlankRun blanks) (line : List Char) :
    significantText (line ++ blanks) = significantText line := by
  refine significantText_append (fun hhead => h.not_mem.2 (List.mem_of_head? hhead)) ?_ line
  rw [Text.beforeComment_eq_self (hasNoComment_of_not_mem h.not_mem.2)]
  exact h.isBlank

/-- Blanks in front of a line do not count. -/
theorem significantText_blanks_append {blanks : List Char} (h : IsBlankRun blanks) (line : List Char) :
    significantText (blanks ++ line) = significantText line := by
  rw [significantText, Text.beforeComment_append_left h.not_mem.2, Text.trim_append_left h.isBlank]
  rfl

/-- Nothing counts of what is added to a line. -/
theorem LineEdit.significantText {line line' : List Char} (h : LineEdit line line') :
    significantText line' = MessageCatalog.significantText line := by
  cases h with
  | comment hremark => exact significantText_append (by simp) (by simp [Text.beforeComment, Text.isBlank]) line
  | lead hblanks => exact significantText_blanks_append hblanks line
  | trail hblanks => exact significantText_append_blanks hblanks line

/-- An edit of a line leaves one line. -/
theorem LineEdit.newline_not_mem {line line' : List Char} (h : LineEdit line line') (hline : '\n' ∉ line) : '\n' ∉ line' := by
  cases h with
  | comment hremark => simp [hline, hremark]
  | lead hblanks => simp [hline, hblanks.not_mem.1]
  | trail hblanks => simp [hline, hblanks.not_mem.1]

/-- An idle line is one line. -/
theorem IsIdle.newline_not_mem {line : List Char} (h : IsIdle line) : '\n' ∉ line := by
  obtain ⟨blanks, comment, hblanks, hcomment, rfl⟩ := h
  rcases hcomment with rfl | ⟨remark, rfl, hremark⟩
  · simpa using hblanks.not_mem.1
  · simp [hblanks.not_mem.1, hremark]

/-- Nothing of an idle line counts. -/
theorem IsIdle.significantText {line : List Char} (h : IsIdle line) : significantText line = [] := by
  obtain ⟨blanks, comment, hblanks, hcomment, rfl⟩ := h
  rw [significantText_blanks_append hblanks]
  rcases hcomment with rfl | ⟨remark, rfl, -⟩ <;> rfl

/-! ## Texts line by line -/

/-- What counts of the lines of a text, in order. -/
def countingTexts (text : List Char) : List (List Char) :=
  ((Text.lines text).map significantText).filter (!·.isEmpty)

/-- The texts of the lines that count are those that are not empty. -/
theorem significantFrom_texts (number : Nat) (lines : List (List Char)) :
    (significantFrom number lines).map (·.text) = ((lines.map significantText).filter (!·.isEmpty)).map String.ofList := by
  induction lines generalizing number with
  | nil => rfl
  | cons line rest ih =>
    rw [significantFrom, List.map_cons, List.filter_cons]
    cases (significantText line).isEmpty with
    | true => exact ih (number + 1)
    | false => exact congrArg (String.ofList (significantText line) :: ·) (ih (number + 1))

/-- The texts that count in a source are those that count in its characters. -/
theorem significantTexts_eq (source : String) : significantTexts source = (countingTexts source.toList).map String.ofList :=
  significantFrom_texts 1 _

/-- A text is one line, or a line in front of a line feed and more. -/
theorem lines_induction {P : List Char → Prop} (single : ∀ line, '\n' ∉ line → P line)
    (more : ∀ line rest, '\n' ∉ line → P rest → P (line ++ '\n' :: rest)) (text : List Char) : P text := by
  induction hlength : text.length using Nat.strong_induction_on generalizing text with
  | _ n ih =>
    by_cases hmem : '\n' ∈ text
    · obtain ⟨line, rest, rfl, hline⟩ := List.eq_append_cons_of_mem hmem
      exact more line rest hline (ih rest.length (by simp at hlength; omega) rest rfl)
    · exact single text hmem

/-- Of one line its text counts, if it is not empty. -/
theorem countingTexts_line {line : List Char} (h : '\n' ∉ line) :
    countingTexts line = ([significantText line]).filter (!·.isEmpty) := by
  by_cases hne : line = []
  · subst hne
    rfl
  · rw [countingTexts, Text.lines_eq_singleton h hne]
    rfl

/-- What counts in lines is what counts in the first one and then in the others. -/
theorem countingTexts_line_append {line : List Char} (h : '\n' ∉ line) (rest : List Char) :
    countingTexts (line ++ '\n' :: rest) = countingTexts line ++ countingTexts rest := by
  rw [countingTexts_line h, countingTexts, Text.lines_append_newline h, List.map_cons, ← List.singleton_append,
    List.filter_append]
  rfl

/-- A line feed parts what counts of a text. -/
theorem countingTexts_append (text rest : List Char) :
    countingTexts (text ++ '\n' :: rest) = countingTexts text ++ countingTexts rest := by
  induction text using lines_induction with
  | single line h => exact countingTexts_line_append h rest
  | more line text h ih =>
    rw [List.append_assoc, List.cons_append, countingTexts_line_append h, ih, countingTexts_line_append h, List.append_assoc]

/-- An empty line in front does not count. -/
theorem countingTexts_feed (rest : List Char) : countingTexts ('\n' :: rest) = countingTexts rest :=
  countingTexts_append [] rest

/-- An empty line with a carriage return in front does not count. -/
theorem countingTexts_return (rest : List Char) : countingTexts ('\r' :: '\n' :: rest) = countingTexts rest :=
  countingTexts_append ['\r'] rest

/-- What counts of a text with a line in its middle: what counts in front of the line, of it and behind it. -/
theorem countingTexts_middle {front line back : List Char} (hfront : StartsLine front) (hback : EndsLine back)
    (hline : '\n' ∉ line) :
    countingTexts (front ++ line ++ back) = countingTexts front ++ countingTexts line ++ countingTexts back := by
  have hnil : countingTexts [] = [] := rfl
  have hrest : countingTexts (line ++ back) = countingTexts line ++ countingTexts back := by
    rcases hback with rfl | ⟨rest, rfl | rfl⟩
    · rw [List.append_nil, hnil, List.append_nil]
    · rw [countingTexts_append, countingTexts_feed]
    · -- the carriage return is white space at the end of the line
      have hreturn : IsBlankRun ['\r'] := by simp [IsBlankRun, Text.isBlank]
      have hends : countingTexts (line ++ ['\r']) = countingTexts line := by
        rw [countingTexts_line (by simpa using hline), countingTexts_line hline, significantText_append_blanks hreturn]
      rw [countingTexts_return, ← List.singleton_append, ← List.append_assoc, countingTexts_append, hends]
  rcases hfront with rfl | ⟨before, rfl⟩
  · rw [hnil, List.nil_append, List.nil_append, hrest]
  · rw [List.append_assoc, List.append_assoc, List.singleton_append, countingTexts_append, countingTexts_append, hrest, hnil,
      List.append_nil, List.append_assoc]

/-! ## What edits leave -/

/-- An edit of a line leaves what counts of it. -/
theorem LineEdit.countingTexts {line line' : List Char} (h : LineEdit line line') (hline : '\n' ∉ line) :
    countingTexts line' = MessageCatalog.countingTexts line := by
  rw [countingTexts_line hline, countingTexts_line (h.newline_not_mem hline), h.significantText]

/-- Nothing counts in an idle line. -/
theorem IsIdle.countingTexts {line : List Char} (h : IsIdle line) : countingTexts line = [] := by
  rw [countingTexts_line h.newline_not_mem, h.significantText]
  rfl

/-- Carriage returns in front of line feeds do not count, whatever of its line stands in front of a text. -/
theorem AddsReturns.countingTexts_append {text text' : List Char} (h : AddsReturns text text') (line : List Char)
    (hline : '\n' ∉ line) : countingTexts (line ++ text') = countingTexts (line ++ text) := by
  induction h generalizing line with
  | nil => rfl
  | @keep text text' c h ih =>
    by_cases hc : c = '\n'
    · subst hc
      have hrest : countingTexts text' = countingTexts text := ih [] (by simp)
      rw [MessageCatalog.countingTexts_append, MessageCatalog.countingTexts_append, hrest]
    · have hlonger := ih (line ++ [c]) (by simpa [hline] using Ne.symm hc)
      rwa [List.append_assoc, List.append_assoc] at hlonger
  | @feed text text' h ih =>
    have hrest : countingTexts text' = countingTexts text := ih [] (by simp)
    have hreturn := countingTexts_middle (.inl rfl) (.inr ⟨text', .inr rfl⟩) hline
    have hfeed := countingTexts_middle (.inl rfl) (.inr ⟨text, .inl rfl⟩) hline
    rw [List.nil_append] at hreturn hfeed
    rw [hreturn, hfeed, countingTexts_return, countingTexts_feed, hrest]

/-- An edit of the layout leaves what counts. -/
theorem LayoutEdit.countingTexts {text text' : List Char} (h : LayoutEdit text text') :
    countingTexts text' = MessageCatalog.countingTexts text := by
  cases h with
  | line hfront hback hline h =>
    rw [countingTexts_middle hfront hback (h.newline_not_mem hline), countingTexts_middle hfront hback hline,
      h.countingTexts hline]
  | @insert front line back hfront hline =>
    have hbefore := countingTexts_middle hfront (.inr ⟨back, .inl rfl⟩) hline.newline_not_mem
    rw [hbefore, hline.countingTexts, countingTexts_feed, List.append_nil]
    rcases hfront with rfl | ⟨before, rfl⟩
    · rfl
    · rw [List.append_assoc, List.singleton_append, countingTexts_append, countingTexts_append]
      exact congrArg (· ++ _) (List.append_nil _)
  | @append text line hline => rw [countingTexts_append, hline.countingTexts, List.append_nil]
  | returns h => exact h.countingTexts_append [] (by simp)

/-- Edits of the layout, any number of them one way or back, leave the texts of the significant lines. -/
theorem significantTexts_of_edits {source source' : String} (h : Relation.EqvGen LayoutEdit source.toList source'.toList) :
    significantTexts source' = significantTexts source := by
  have hcounting : ∀ text text', Relation.EqvGen LayoutEdit text text' → countingTexts text' = countingTexts text := by
    intro text text' h
    induction h with
    | rel text text' h => exact h.countingTexts
    | refl text => rfl
    | symm text text' _ ih => exact ih.symm
    | trans text middle text' _ _ ih ih' => exact ih'.trans ih
  rw [significantTexts_eq, significantTexts_eq, hcounting _ _ h]

end MessageCatalog
