import MessageCatalog.Proofs.Source.Regions
import MessageCatalog.Proofs.Uniqueness

/-!
# What is read is valid

A template that is read from a source is valid, and its parts stand in the order of the source, each on a line of its own.
-/

namespace MessageCatalog

open scoped List

/-- A part at the end of a significant line is a version tag if it starts with neither a space nor a tab. -/
theorem isVersion_of_suffix {line tag : List Char} (h : IsLineText line) (hs : tag <:+ line) (hne : tag ≠ [])
    (hhead : ∀ c ∈ tag.head?, Scan.isSpace c = false) : IsVersion (String.ofList tag) where
  nonempty := by rwa [String.toList_ofList]
  oneLine := by
    rw [String.toList_ofList]
    exact fun hc => h.oneLine (hs.subset hc)
  noComment := by
    rw [String.toList_ofList]
    exact h.noComment.of_isInfix hs.isInfix
  startsTight := by
    rw [String.toList_ofList]
    exact fun c hc => Scan.isSpace_eq_false_iff.mp (hhead c hc)
  endsVisibly := by
    rw [String.toList_ofList]
    exact h.endsVisibly.of_suffix hs

/-- The version tag of a significant line is one: the word in front of it never is all of the line. -/
theorem isVersion_versionTag {text : String} (h : IsLineText text.toList) : IsVersion (Scan.versionTag text) := by
  have hhead : ∀ c ∈ text.toList.head?, Scan.isSpace c = false := by
    intro c hc
    cases hspace : Scan.isSpace c with
    | false => rfl
    | true =>
      have hvisible := h.startsVisibly c hc
      rw [isBlank_of_isSpace hspace] at hvisible
      cases hvisible
  have hline : text.toList.dropWhile Scan.isSpace = text.toList := dropWhile_eq_self_of_head hhead
  unfold Scan.versionTag
  simp only [hline]
  split
  · rename_i hversion
    have hs : (text.toList.drop 7).dropWhile Scan.isSpace <:+ text.toList :=
      (List.dropWhile_suffix _).trans (List.drop_suffix 7 _)
    refine isVersion_of_suffix h hs ?_ head?_dropWhile_eq_false
    -- with only blanks behind the word the line would end in a blank
    intro hempty
    have hnil := h.endsVisibly.eq_nil_of_spaces (List.drop_suffix 7 _) hempty
    simp [Scan.startsWithVersion, hnil] at hversion
  · exact isVersion_of_suffix h (List.suffix_refl _) h.nonempty hhead

/-- When a source is read, and what its template is: the tag of its first significant line, and what the others declare,
if nothing is declared twice. -/
theorem parse_eq_ok_iff {source : String} {t : Template} :
    parse source = .ok t ↔ ∃ first lines, significantLines source = first :: lines ∧
      readMessages lines = .ok t.messages ∧ t.version = Scan.versionTag first.text ∧ t.Distinct := by
  unfold parse normalize
  cases hlines : significantLines source with
  | nil => simp [bind, Except.bind]
  | cons first lines =>
    simp only [except_bind_eq_ok_iff, Except.ok.injEq]
    constructor
    · rintro ⟨normalized, rfl, messages, hmessages, u, hunique, ht⟩
      obtain rfl := Except.ok.inj ht
      exact ⟨first, lines, rfl, hmessages, rfl, checkUnique_eq_ok_iff.mp hunique⟩
    · rintro ⟨first', lines', he, hmessages, hversion, hdistinct⟩
      obtain ⟨rfl, rfl⟩ := List.cons.inj he
      have ht : (⟨Scan.versionTag first.text, t.messages⟩ : Template) = t := by rw [← hversion]
      refine ⟨_, rfl, t.messages, hmessages, (), ?_, ?_⟩
      · rw [ht]
        exact checkUnique_eq_ok_iff.mpr hdistinct
      · rw [ht]
        rfl

/-- A template that is read is valid. -/
theorem parse_valid {source : String} {t : Template} (h : parse source = .ok t) : t.Valid := by
  obtain ⟨first, lines, hlines, hmessages, hversion, hdistinct⟩ := parse_eq_ok_iff.mp h
  have htext : ∀ l ∈ first :: lines, IsLineText l.text.toList := fun l hl =>
    isLineText_of_mem_significantLines (hlines ▸ hl)
  refine ⟨?_, (readMessages_valid (fun l hl => htext l (List.mem_cons_of_mem first hl)) hmessages).1, hdistinct⟩
  rw [hversion]
  exact isVersion_versionTag (htext first (by simp))

/-- The parts of a template that is read are declared on significant lines behind the first, in order. -/
theorem parse_declarationLines {source : String} {t : Template} (h : parse source = .ok t) :
    t.declarationLines <+ (significantLines source).tail.map (·.number) := by
  obtain ⟨first, lines, hlines, hmessages, -, -⟩ := parse_eq_ok_iff.mp h
  have htext : ∀ l ∈ lines, IsLineText l.text.toList := fun l hl =>
    isLineText_of_mem_significantLines (hlines ▸ List.mem_cons_of_mem first hl)
  rw [hlines]
  exact (readMessages_valid htext hmessages).2

/-- Whether a source has a line of the number, counted from 1, that is not empty without its comment and the blanks at
its ends. -/
def IsSignificantLine (source : String) (number : Nat) : Prop :=
  ∃ place line, number = place + 1 ∧ (Text.lines source.toList)[place]? = some line ∧ significantText line ≠ []

/-- A line that counts is a significant one of the source. -/
theorem isSignificantLine_of_mem {source : String} {l : SourceLine} (h : l ∈ significantLines source) :
    IsSignificantLine source l.number := by
  obtain ⟨place, line, hnumber, hplace, htext⟩ := place_of_mem_significantFrom l h
  have hne := (isLineText_of_mem_significantLines h).nonempty
  rw [htext, String.toList_ofList] at hne
  exact ⟨place, line, by omega, hplace, hne⟩

/-- A template that is read is valid, and its messages, blocks and fields stand on significant lines of the source behind the
version line, each on a later one than what is declared before it. -/
theorem parse_sound {source : String} {t : Template} (h : parse source = .ok t) :
    t.Valid ∧ t.declarationLines.Pairwise (· < ·) ∧ (∀ n ∈ t.declarationLines, IsSignificantLine source n) ∧
      t.declarationLines <+ (significantLines source).tail.map (·.number) := by
  have hsub := parse_declarationLines h
  refine ⟨parse_valid h, ?_, ?_, hsub⟩
  · have hsorted : ((significantLines source).tail.map (·.number)).Pairwise (· < ·) :=
      List.pairwise_map.mpr ((significantLines_pairwise source).sublist (List.tail_sublist _))
    exact hsorted.sublist hsub
  · intro n hn
    obtain ⟨l, hl, rfl⟩ := List.mem_map.mp (hsub.subset hn)
    exact isSignificantLine_of_mem (List.mem_of_mem_tail hl)

/-! ## A small catalog -/

/-- The lines of a source of two messages, with comments, blank lines, keywords of any case and numerals of both bases. -/
def sampleLines : List (List Char) :=
  ["// catalog", "version 2.0", "", "\x7b", "  Move HIGH 0x01 Trusted Zerocoded // first", "  \x7b", "    Body multiple 2",
    "    \x7b Turn LLQuaternion \x7d", "    \x7b Text Variable 1 \x7d", "  \x7d", "\x7d", "\x7b",
    "  Ping low 7 NotTrusted Unencoded Deprecated", "  \x7b", "    Flags Variable", "    \x7b Seen BOOL \x7d",
    "    \x7b Data Fixed 0x02 \x7d", "  \x7d", "\x7d"].map String.toList

def sampleSource : String :=
  String.ofList (['\n'].intercalate sampleLines)

/-- A message with a quaternion in each of two records. -/
def sampleMove : Message :=
  ⟨"Move", .high, 1, "Trusted", "Zerocoded", none,
    [⟨"Body", .multiple 2, [⟨"Turn", .quaternion, 8⟩, ⟨"Text", .varying .one, 9⟩], "Move", 7⟩], 5⟩

/-- A message with a truth value in each of any number of records. -/
def samplePing : Message :=
  ⟨"Ping", .low, 7, "NotTrusted", "Unencoded", some "Deprecated",
    [⟨"Flags", .varying, [⟨"Seen", .bool, 16⟩, ⟨"Data", .fixed 2, 17⟩], "Ping", 15⟩], 13⟩

/-- What the source declares. -/
def sampleTemplate : Template :=
  ⟨"2.0", [sampleMove, samplePing]⟩

theorem parse_sampleSource : parse sampleSource = .ok sampleTemplate := by
  rw [parse, normalize, sampleSource, significantLines_ofList_intercalate (by decide +kernel)]
  decide +kernel

/-- The small source declares a valid template, at lines in order. -/
theorem parse_sound_sample : parse sampleSource = .ok sampleTemplate ∧ sampleTemplate.Valid ∧
    sampleTemplate.declarationLines.Pairwise (· < ·) ∧ (∀ n ∈ sampleTemplate.declarationLines, IsSignificantLine sampleSource n) ∧
      sampleTemplate.declarationLines <+ (significantLines sampleSource).tail.map (·.number) :=
  ⟨parse_sampleSource, parse_sound parse_sampleSource⟩

end MessageCatalog
