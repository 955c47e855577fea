import MessageCatalog.Proofs.Source.Relayout

/-!
# Which lines of a source are significant

A line of a source is a stretch of it between line feeds, without the carriage return in front of the one that ends it.
It is significant if something shows in front of its first `//`, and its text is then what is left there without the
blanks at the two ends. All this is said of the source itself (`IsLineAt`, `IsBeforeComment`, `IsTrimmed`), without the
functions that read it. The texts of significant lines hold nothing that could be taken off once more, so joined by line
feeds they are the significant lines again.
-/

namespace MessageCatalog

/-! ## The lines of a source -/

/-- Whether a line ends in front of a text: there is nothing behind it, or a line feed, to which a carriage return in
front of it belongs. -/
def LineEnds (line back : List Char) : Prop :=
  back = [] ∨ (∃ rest, back = '\r' :: '\n' :: rest) ∨ ((∃ rest, back = '\n' :: rest) ∧ line.getLast? ≠ some '\r')

/-- Whether a source has the line at the number, which is one more than the number of line feeds in front of it. Behind
the last line feed there is no line if there is nothing. -/
structure IsLineAt (source : List Char) (number : Nat) (line : List Char) : Prop where
  oneLine : '\n' ∉ line
  stretch : ∃ front back, source = front ++ line ++ back ∧ StartsLine front ∧ LineEnds line back ∧ line ++ back ≠ [] ∧
    number = front.count '\n' + 1

/-- A line as it stands between line feeds, which may have a carriage return at its end that does not belong to it. -/
def MayReturn (line raw : List Char) : Prop :=
  raw = line ∨ raw = line ++ ['\r']

/-- A carriage return at the end of a line does not count. -/
theorem MayReturn.significantText {line raw : List Char} (h : MayReturn line raw) :
    significantText raw = MessageCatalog.significantText line := by
  rcases h with rfl | rfl
  · rfl
  · exact significantText_append_blanks (by simp [IsBlankRun, Text.isBlank]) line

/-- Where a line may start, the lines in front of it are told apart from those behind, one for each line feed. -/
theorem lines_append_of_startsLine {front : List Char} (h : StartsLine front) (rest : List Char) :
    Text.lines (front ++ rest) = Text.lines front ++ Text.lines rest ∧ (Text.lines front).length = front.count '\n' := by
  rcases h with rfl | ⟨before, rfl⟩
  · exact ⟨rfl, rfl⟩
  · induction before using lines_induction with
    | single line hline =>
      have hcount : line.count '\n' = 0 := List.count_eq_zero.mpr hline
      have hfront : Text.lines (line ++ ['\n']) = [line] := Text.lines_append_newline hline []
      rw [List.append_assoc, List.singleton_append, Text.lines_append_newline hline, hfront, List.count_append, hcount]
      exact ⟨rfl, rfl⟩
    | more line before hline ih =>
      have hcount : line.count '\n' = 0 := List.count_eq_zero.mpr hline
      have hfront : Text.lines (line ++ '\n' :: before ++ ['\n']) = line :: Text.lines (before ++ ['\n']) := by
        rw [List.append_assoc, List.cons_append, Text.lines_append_newline hline]
      constructor
      · have hall : line ++ '\n' :: before ++ ['\n'] ++ rest = line ++ '\n' :: (before ++ ['\n'] ++ rest) := by simp
        rw [hall, Text.lines_append_newline hline, ih.1, hfront, List.cons_append]
      · have hcounts : (line ++ '\n' :: before ++ ['\n']).count '\n' = (before ++ ['\n']).count '\n' + 1 := by
          rw [List.append_assoc, List.count_append, hcount, List.cons_append, List.count_cons_self, Nat.zero_add]
        rw [hfront, List.length_cons, ih.2, hcounts]

/-- A line of a source is one of its lines as they are split, but for a carriage return. -/
theorem IsLineAt.getElem?_lines {source line : List Char} {number : Nat} (h : IsLineAt source number line) :
    ∃ place raw, number = place + 1 ∧ (Text.lines source)[place]? = some raw ∧ MayReturn line raw := by
  obtain ⟨hline, front, back, rfl, hfront, hends, hne, rfl⟩ := h
  obtain ⟨hlines, hlength⟩ := lines_append_of_startsLine hfront (line ++ back)
  have hplace (raw : List Char) (others : List (List Char)) (hraw : Text.lines (line ++ back) = raw :: others) :
      (Text.lines (front ++ line ++ back))[front.count '\n']? = some raw := by
    rw [List.append_assoc, hlines, hraw, List.getElem?_append_right (Nat.le_of_eq hlength), hlength, Nat.sub_self]
    rfl
  rcases hends with rfl | ⟨rest, rfl⟩ | ⟨⟨rest, rfl⟩, -⟩
  · rw [List.append_nil] at hne
    exact ⟨_, line, rfl, hplace line [] (by rw [List.append_nil, Text.lines_eq_singleton hline hne]), .inl rfl⟩
  · have hreturn : '\n' ∉ line ++ ['\r'] := by simpa using hline
    refine ⟨_, line ++ ['\r'], rfl, hplace _ (Text.lines rest) ?_, .inr rfl⟩
    rw [← Text.lines_append_newline hreturn, List.append_assoc]
    rfl
  · exact ⟨_, line, rfl, hplace line (Text.lines rest) (Text.lines_append_newline hline rest), .inl rfl⟩

/-- A line that a line feed ends is a line of the source without its carriage return. -/
theorem exists_line_of_feed {raw : List Char} (hraw : '\n' ∉ raw) (rest : List Char) :
    ∃ line, IsLineAt (raw ++ '\n' :: rest) 1 line ∧ MayReturn line raw := by
  by_cases hreturn : raw.getLast? = some '\r'
  · obtain ⟨line, rfl⟩ := List.getLast?_eq_some_iff.mp hreturn
    have hline : '\n' ∉ line := fun h => hraw (List.mem_append_left _ h)
    refine ⟨line, ⟨hline, [], '\r' :: '\n' :: rest, ?_, .inl rfl, .inr (.inl ⟨rest, rfl⟩), by simp, rfl⟩, .inr rfl⟩
    simp
  · exact ⟨raw, ⟨hraw, [], '\n' :: rest, rfl, .inl rfl, .inr (.inr ⟨⟨rest, rfl⟩, hreturn⟩), by simp, rfl⟩, .inl rfl⟩

/-- A line behind a line feed has one more in front of it. -/
theorem IsLineAt.behind {source line first : List Char} {number : Nat} (h : IsLineAt source number line) (hfirst : '\n' ∉ first) :
    IsLineAt (first ++ '\n' :: source) (number + 1) line := by
  obtain ⟨hline, front, back, rfl, hfront, hends, hne, rfl⟩ := h
  refine ⟨hline, first ++ '\n' :: front, back, by simp, ?_, hends, hne, ?_⟩
  · rcases hfront with rfl | ⟨before, rfl⟩
    · exact .inr ⟨first, rfl⟩
    · exact .inr ⟨first ++ '\n' :: before, by simp⟩
  · rw [List.count_append, List.count_eq_zero.mpr hfirst, List.count_cons_self, Nat.zero_add]

/-- Every line that is split off a source is a line of it, but for a carriage return. -/
theorem exists_isLineAt {source raw : List Char} {place : Nat} (h : (Text.lines source)[place]? = some raw) :
    ∃ line, IsLineAt source (place + 1) line ∧ MayReturn line raw := by
  induction source using lines_induction generalizing place with
  | single source hsource =>
    by_cases hne : source = []
    · subst hne
      simp [Text.lines] at h
    · rw [Text.lines_eq_singleton hsource hne, List.getElem?_singleton] at h
      split at h
      · rename_i hplace
        obtain rfl := Option.some.inj h
        subst hplace
        exact ⟨source, ⟨hsource, [], [], by simp, .inl rfl, .inl rfl, by simpa using hne, rfl⟩, .inl rfl⟩
      · cases h
  | more first rest hfirst ih =>
    rw [Text.lines_append_newline hfirst] at h
    cases place with
    | zero =>
      obtain rfl : first = raw := Option.some.inj h
      exact exists_line_of_feed hfirst rest
    | succ place =>
      obtain ⟨line, hline, hreturn⟩ := ih h
      exact ⟨line, hline.behind hfirst, hreturn⟩

/-! ## The part in front of a comment -/

/-- Whether a part of a line is what stands in front of its first `//`, or all of it if there is none. -/
structure IsBeforeComment (line part : List Char) : Prop where
  split : ∃ rest, line = part ++ rest ∧ (rest = [] ∨ ∃ comment, rest = '/' :: '/' :: comment)
  first : ∀ before comment, line = before ++ '/' :: '/' :: comment → part.length ≤ before.length

/-- No part in front of a comment is longer than another one. -/
theorem IsBeforeComment.length_le {line part other : List Char} (h : IsBeforeComment line part)
    (hother : IsBeforeComment line other) : part.length ≤ other.length := by
  obtain ⟨rest, hline, rfl | ⟨comment, rfl⟩⟩ := hother.split
  · obtain ⟨rest', hline', -⟩ := h.split
    have hlength := congrArg List.length hline
    rw [hline', List.length_append, List.append_nil] at hlength
    omega
  · exact h.first other comment hline

/-- A line has one part in front of its first comment. -/
theorem IsBeforeComment.unique {line part other : List Char} (h : IsBeforeComment line part)
    (hother : IsBeforeComment line other) : part = other := by
  have hlength := Nat.le_antisymm (h.length_le hother) (hother.length_le h)
  obtain ⟨rest, hline, -⟩ := h.split
  obtain ⟨rest', hline', -⟩ := hother.split
  exact (List.append_inj (hline.symm.trans hline') hlength).1

/-- What is cut off at a comment is the part in front of it. -/
theorem isBeforeComment_beforeComment (line : List Char) : IsBeforeComment line (Text.beforeComment line) := by
  induction line with
  | nil => exact ⟨⟨[], rfl, .inl rfl⟩, fun before comment _ => Nat.zero_le _⟩
  | cons c line ih =>
    rw [Text.beforeComment]
    split
    · rename_i hcomment
      obtain ⟨rfl, hslash⟩ := hcomment
      obtain ⟨comment, rfl⟩ := List.head?_eq_some_iff.mp hslash
      exact ⟨⟨_, rfl, .inr ⟨comment, rfl⟩⟩, fun before comment _ => Nat.zero_le _⟩
    · rename_i hcomment
      obtain ⟨rest, hline, hrest⟩ := ih.split
      refine ⟨⟨rest, congrArg (c :: ·) hline, hrest⟩, fun before comment hbefore => ?_⟩
      cases before with
      | nil =>
        obtain ⟨rfl, rfl⟩ := List.cons.inj hbefore
        exact absurd ⟨rfl, rfl⟩ hcomment
      | cons d before =>
        obtain ⟨-, hbefore⟩ := List.cons.inj hbefore
        exact Nat.succ_le_succ (ih.first before comment hbefore)

/-! ## Trimming -/

/-- Whether a text is what is left of a part without the blanks at its two ends. -/
structure IsTrimmed (part text : List Char) : Prop where
  split : ∃ lead trail, part = lead ++ text ++ trail ∧ (∀ c ∈ lead, Text.isBlank c = true) ∧ ∀ c ∈ trail, Text.isBlank c = true
  startsVisibly : ∀ c ∈ text.head?, Text.isBlank c = false
  endsVisibly : EndsVisibly text

/-- A text is what is left of it when its end is trimmed, and blanks. -/
theorem exists_trimEnd_append (part : List Char) :
    ∃ trail, part = Text.trimEnd part ++ trail ∧ ∀ c ∈ trail, Text.isBlank c = true := by
  refine ⟨(part.reverse.takeWhile Text.isBlank).reverse, ?_, ?_⟩
  · rw [Text.trimEnd, ← List.reverse_append, List.takeWhile_append_dropWhile, List.reverse_reverse]
  · intro c hc
    exact List.mem_takeWhile_imp (List.mem_reverse.mp hc)

/-- What is left of a text when it is trimmed is the trimmed text. -/
theorem isTrimmed_trim (part : List Char) : IsTrimmed part (Text.trim part) := by
  refine ⟨?_, Text.head_trim, Text.endsVisibly_trimEnd _⟩
  obtain ⟨trail, htrail, hblank⟩ := exists_trimEnd_append (part.dropWhile Text.isBlank)
  refine ⟨part.takeWhile Text.isBlank, trail, ?_, fun c hc => List.mem_takeWhile_imp hc, hblank⟩
  rw [Text.trim, List.append_assoc, ← htrail, List.takeWhile_append_dropWhile]

/-- Something is left of a part if something in it shows. -/
theorem IsTrimmed.ne_nil_iff {part text : List Char} (h : IsTrimmed part text) :
    text ≠ [] ↔ ∃ c ∈ part, Text.isBlank c = false := by
  obtain ⟨lead, trail, rfl, hlead, htrail⟩ := h.split
  constructor
  · intro hne
    obtain ⟨c, rest, rfl⟩ := List.exists_cons_of_ne_nil hne
    exact ⟨c, by simp, h.startsVisibly c rfl⟩
  · rintro ⟨c, hc, hshows⟩ rfl
    rw [List.append_nil, List.mem_append] at hc
    have hblank : Text.isBlank c = true := hc.elim (hlead c) (htrail c)
    rw [hshows] at hblank
    cases hblank

/-- What counts of a line, said of the line itself. -/
theorem IsBeforeComment.isTrimmed {line part : List Char} (h : IsBeforeComment line part) :
    IsTrimmed part (significantText line) := by
  rw [h.unique (isBeforeComment_beforeComment line)]
  exact isTrimmed_trim _

/-! ## Significant lines -/

/-- A line of which something counts is a significant one, with its number. -/
theorem mem_significantFrom_of_getElem? {number place : Nat} {lines : List (List Char)} {line : List Char}
    (hline : lines[place]? = some line) (hne : significantText line ≠ []) :
    ⟨number + place, String.ofList (significantText line)⟩ ∈ significantFrom number lines := by
  induction lines generalizing number place with
  | nil => cases hline
  | cons first lines ih =>
    rw [significantFrom]
    cases place with
    | zero =>
      obtain rfl := Option.some.inj hline
      have hshows : ¬(significantText first).isEmpty = true := by simpa using hne
      rw [if_neg hshows]
      exact List.mem_cons_self
    | succ place =>
      have hrest := @ih (number + 1) place hline
      rw [Nat.succ_add_eq_add_succ] at hrest
      split
      · exact hrest
      · exact List.mem_cons_of_mem _ hrest

/-- All of the text of a line counts. -/
theorem IsLineText.significantText {text : List Char} (h : IsLineText text) : significantText text = text := by
  have htrim := @Text.trim_append [] text [] (by simp) h.startsVisibly h.endsVisibly (by simp)
  rw [List.nil_append, List.append_nil] at htrim
  rw [MessageCatalog.significantText, Text.beforeComment_eq_self h.noComment, htrim]

/-- Lines that hold nothing but their texts are all significant, and are numbered in order. -/
theorem significantFrom_of_isLineText {number : Nat} {texts : List String} (h : ∀ text ∈ texts, IsLineText text.toList) :
    significantFrom number (texts.map String.toList) = texts.mapIdx fun place text => ⟨number + place, text⟩ := by
  induction texts generalizing number with
  | nil => rfl
  | cons text texts ih =>
    obtain ⟨htext, htexts⟩ := List.forall_mem_cons.mp h
    have hne : ¬text.toList.isEmpty = true := by simpa using htext.nonempty
    rw [List.map_cons, significantFrom, htext.significantText, ih htexts, List.mapIdx_cons]
    simp only [if_neg hne, String.ofList_toList, Nat.add_zero, Nat.succ_add_eq_add_succ, Nat.succ_eq_add_one]

/-- A number is that of a significant line exactly if something shows there in front of the first `//`. -/
theorem exists_significant_iff {source : String} {number : Nat} :
    (∃ l ∈ significantLines source, l.number = number) ↔
      ∃ line part, IsLineAt source.toList number line ∧ IsBeforeComment line part ∧ ∃ c ∈ part, Text.isBlank c = false := by
  constructor
  · rintro ⟨l, hl, rfl⟩
    obtain ⟨place, raw, hnumber, hraw, htext⟩ := place_of_mem_significantFrom l hl
    obtain ⟨line, hline, hreturn⟩ := exists_isLineAt hraw
    have hbefore := isBeforeComment_beforeComment line
    refine ⟨line, _, ?_, hbefore, hbefore.isTrimmed.ne_nil_iff.mp ?_⟩
    · rw [hnumber, Nat.add_comm]
      exact hline
    · have hne := (isLineText_of_mem_significantLines hl).nonempty
      rwa [htext, String.toList_ofList, hreturn.significantText] at hne
  · rintro ⟨line, part, hline, hbefore, hshows⟩
    obtain ⟨place, raw, rfl, hraw, hreturn⟩ := hline.getElem?_lines
    have hne : significantText raw ≠ [] := by
      rw [hreturn.significantText]
      exact hbefore.isTrimmed.ne_nil_iff.mpr hshows
    exact ⟨_, mem_significantFrom_of_getElem? hraw hne, Nat.add_comm 1 place⟩

/-- The text of a significant line is what is left of its line. -/
theorem isTrimmed_of_mem_significantLines {source : String} {l : SourceLine} (hl : l ∈ significantLines source)
    {line part : List Char} (hline : IsLineAt source.toList l.number line) (hpart : IsBeforeComment line part) :
    IsTrimmed part l.text.toList := by
  obtain ⟨place, raw, hnumber, hraw, htext⟩ := place_of_mem_significantFrom l hl
  obtain ⟨place', raw', hnumber', hraw', hreturn⟩ := hline.getElem?_lines
  obtain rfl : place = place' := by omega
  obtain rfl : raw = raw' := Option.some.inj (hraw.symm.trans hraw')
  rw [htext, String.toList_ofList, hreturn.significantText]
  exact hpart.isTrimmed

/-- The lines of a source are numbered from 1 on. -/
theorem exists_isLineAt_iff {source : List Char} {number : Nat} :
    (∃ line, IsLineAt source number line) ↔ 1 ≤ number ∧ number ≤ (Text.lines source).length := by
  constructor
  · rintro ⟨line, hline⟩
    obtain ⟨place, raw, rfl, hraw, -⟩ := hline.getElem?_lines
    obtain ⟨hplace, -⟩ := List.getElem?_eq_some_iff.mp hraw
    exact ⟨Nat.le_add_left 1 place, hplace⟩
  · rintro ⟨hpos, hle⟩
    obtain ⟨place, rfl⟩ := Nat.exists_eq_add_of_le' hpos
    obtain ⟨line, hline, -⟩ := exists_isLineAt (List.getElem?_eq_getElem hle)
    exact ⟨line, hline⟩

/-- The texts of significant lines, joined by line feeds, are the texts of the significant lines of what they make. -/
theorem significantLines_intercalate {texts : List String} (h : ∀ text ∈ texts, IsLineText text.toList) :
    significantLines ("\n".intercalate texts) = texts.mapIdx fun place text => ⟨place + 1, text⟩ := by
  have hlines : ∀ line ∈ texts.map String.toList, '\n' ∉ line := List.forall_mem_map.mpr fun text htext => (h text htext).oneLine
  have hjoined : ("\n".intercalate texts).toList = ['\n'].intercalate (texts.map String.toList) := String.toList_intercalate
  rw [significantLines, hjoined, significantFrom_lines_intercalate hlines, significantFrom_of_isLineText h]
  simp only [Nat.add_comm 1]

/-- The significant lines of a source are numbered in order, each by the number of its line. A line is among them
exactly if something shows in front of its first `//`, and its text is what stands there without the blanks at the ends,
which is not empty and has neither a line feed nor a `//`. Joined by line feeds, the texts are significant lines again,
numbered from 1 on. -/
theorem significantLines_faithful (source : String) :
    ((significantLines source).map (·.number)).Pairwise (· < ·) ∧
      (∀ l ∈ significantLines source, 1 ≤ l.number ∧ l.number ≤ (Text.lines source.toList).length) ∧
      (∀ number, (∃ line, IsLineAt source.toList number line) ↔ 1 ≤ number ∧ number ≤ (Text.lines source.toList).length) ∧
      (∀ number, (∃ l ∈ significantLines source, l.number = number) ↔
        ∃ line part, IsLineAt source.toList number line ∧ IsBeforeComment line part ∧ ∃ c ∈ part, Text.isBlank c = false) ∧
      (∀ l ∈ significantLines source,
        (∀ line part, IsLineAt source.toList l.number line → IsBeforeComment line part → IsTrimmed part l.text.toList) ∧
          l.text.toList ≠ [] ∧ '\n' ∉ l.text.toList ∧ ¬['/', '/'] <:+: l.text.toList) ∧
      significantLines ("\n".intercalate (significantTexts source)) =
        (significantTexts source).mapIdx fun place text => ⟨place + 1, text⟩ := by
  refine ⟨List.pairwise_map.mpr (significantLines_pairwise source), fun l hl => ?_, fun number => exists_isLineAt_iff,
    fun number => exists_significant_iff, fun l hl => ?_, ?_⟩
  · obtain ⟨line, part, hline, -⟩ := exists_significant_iff.mp ⟨l, hl, rfl⟩
    exact exists_isLineAt_iff.mp ⟨line, hline⟩
  · have htext := isLineText_of_mem_significantLines hl
    exact ⟨fun line part hline hpart => isTrimmed_of_mem_significantLines hl hline hpart, htext.nonempty, htext.oneLine,
      htext.noComment⟩
  · exact significantLines_intercalate (List.forall_mem_map.mpr fun l hl => isLineText_of_mem_significantLines hl)

end MessageCatalog
