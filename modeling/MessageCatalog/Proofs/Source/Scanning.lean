import MessageCatalog.Proofs.Sequences
import MessageCatalog.Proofs.Validity

/-!
# What a scan finds

Whether a scan succeeds, and with what, depends on the text to come and not on the bookkeeping of its cursor. `Scans`
says that a scan finds something in front of a text and leaves the rest, and `Uniform` that every success is of this
kind. With these a scan of a line falls apart into the parts of the line: an identifier, a numeral or a run of
characters behind blanks.
-/

namespace MessageCatalog.Scan

variable {α β : Type}

/-- The scan reads the value from the text and leaves the rest, wherever in a line it stands. -/
def Scans (scan : Scan α) (text : List Char) (a : α) (rest : List Char) : Prop :=
  ∀ offset missed, ∃ offset' missed', scan ⟨text, offset, missed⟩ = .ok (a, ⟨rest, offset', missed'⟩)

/-- Every success of the scan is one that depends on the text alone. -/
def Uniform (scan : Scan α) : Prop :=
  ∀ c a c', scan c = .ok (a, c') → Scans scan c.rest a c'.rest

/-- A scan has one outcome on a text. -/
theorem Scans.eq_of_run {scan : Scan α} {c c' : Cursor} {a b : α} {rest : List Char} (h : Scans scan c.rest a rest)
    (hrun : scan c = .ok (b, c')) : b = a ∧ c'.rest = rest := by
  obtain ⟨offset, missed, he⟩ := h c.offset c.missed
  rw [hrun] at he
  simp only [Except.ok.injEq, Prod.mk.injEq] at he
  exact ⟨he.1, by rw [he.2]⟩

/-- A scan reads one thing of a text and leaves one rest. -/
theorem Scans.unique {scan : Scan α} {text rest rest' : List Char} {a b : α} (h : Scans scan text a rest)
    (h' : Scans scan text b rest') : b = a ∧ rest' = rest := by
  obtain ⟨offset, missed, hrun⟩ := h' 0 []
  exact h.eq_of_run hrun

/-! ## Sequences -/

/-- A sequence of scans succeeds when both do, the second where the first stopped. -/
theorem bind_eq_ok_iff {scan : Scan α} {next : α → Scan β} {c c'' : Cursor} {b : β} :
    (scan >>= next) c = .ok (b, c'') ↔ ∃ a c', scan c = .ok (a, c') ∧ next a c' = .ok (b, c'') := by
  change StateT.bind scan next c = .ok (b, c'') ↔ _
  unfold StateT.bind
  cases scan c with
  | error mismatch => simp [bind, Except.bind]
  | ok found =>
    refine ⟨fun h => ⟨found.1, found.2, rfl, h⟩, ?_⟩
    rintro ⟨a, c', he, h⟩
    obtain rfl : found = (a, c') := by simpa using he
    exact h

/-- What is known is read of nothing. -/
theorem scans_pure (a : α) (text : List Char) : Scans (pure a) text a text :=
  fun offset missed => ⟨offset, missed, rfl⟩

/-- What is known does not depend on the place. -/
theorem uniform_pure (a : α) : Uniform (pure a : Scan α) := by
  intro c b c' h
  obtain ⟨rfl, he⟩ := (scans_pure a c.rest).eq_of_run h
  rw [he]
  exact scans_pure b c.rest

/-- One scan and then another read what they read one after the other. -/
theorem Scans.bind {scan : Scan α} {next : α → Scan β} {text middle rest : List Char} {a : α} {b : β}
    (h : Scans scan text a middle) (h' : Scans (next a) middle b rest) : Scans (scan >>= next) text b rest := by
  intro offset missed
  obtain ⟨offset₁, missed₁, h1⟩ := h offset missed
  obtain ⟨offset₂, missed₂, h2⟩ := h' offset₁ missed₁
  exact ⟨offset₂, missed₂, bind_eq_ok_iff.mpr ⟨a, _, h1, h2⟩⟩

/-- One scan and then another do not depend on the place if neither does. -/
theorem Uniform.bind {scan : Scan α} {next : α → Scan β} (h : Uniform scan) (h' : ∀ a, Uniform (next a)) :
    Uniform (scan >>= next) := by
  intro c b c'' hrun
  obtain ⟨a, c', h1, h2⟩ := bind_eq_ok_iff.mp hrun
  exact (h c a c' h1).bind (h' a c' b c'' h2)

/-- A line is read when the scan of its text succeeds. -/
theorem read_eq_ok_iff {scan : Scan α} {text : String} {a : α} :
    scan.read text = .ok a ↔ ∃ c, scan ⟨text.toList, 0, []⟩ = .ok (a, c) := by
  have hread : scan.read text = (scan ⟨text.toList, 0, []⟩).map (·.1) := rfl
  rw [hread]
  cases scan ⟨text.toList, 0, []⟩ with
  | error mismatch => simp [Except.map]
  | ok found => simp [Except.map, Prod.ext_iff]

/-- What a scan reads of a text is read from its start. -/
theorem Scans.run {scan : Scan α} {text rest : List Char} {a : α} (h : Scans scan text a rest) :
    ∃ c, scan ⟨text, 0, []⟩ = .ok (a, c) := by
  obtain ⟨offset, missed, hrun⟩ := h 0 []
  exact ⟨_, hrun⟩

/-! ## Parts behind blanks -/

/-- What is skipped are spaces and tabs alone. -/
theorem isSpace_eq_false_iff {c : Char} : isSpace c = false ↔ c ≠ ' ' ∧ c ≠ '\t' := by
  simp [isSpace]

/-- To skip is to drop the spaces in front. -/
theorem skip_rest (c : Cursor) : c.skip.rest = c.rest.dropWhile isSpace := by
  unfold Cursor.skip
  split
  · rename_i h
    rw [List.isEmpty_iff] at h
    have := List.takeWhile_append_dropWhile (p := isSpace) (l := c.rest)
    rw [h] at this
    exact this.symm
  · rfl

section Parts

variable {expected : Expectation} {part? : List Char → Option Found} {text front rest : List Char}

/-- A part that may be there is read if it is there. -/
theorem scans_optional_some (h : part? (text.dropWhile isSpace) = some (front, rest)) :
    Scans (optional expected part?) text (some (String.ofList front)) rest := by
  intro offset missed
  exact ⟨(Cursor.skip ⟨text, offset, missed⟩).offset + front.length, [], by simp only [optional, skip_rest, h]⟩

/-- Of a part that is not there nothing is read but the spaces in front. -/
theorem scans_optional_none (h : part? (text.dropWhile isSpace) = none) :
    Scans (optional expected part?) text none (text.dropWhile isSpace) := by
  intro offset missed
  exact ⟨(Cursor.skip ⟨text, offset, missed⟩).offset, (Cursor.skip ⟨text, offset, missed⟩).missed ++ [expected],
    by simp only [optional, skip_rest, h]⟩

/-- To look for a part that may be there does not depend on the place. -/
theorem uniform_optional : Uniform (optional expected part?) := by
  intro c o c' hrun
  cases hp : part? (c.rest.dropWhile isSpace) with
  | some found =>
    have hs : Scans (optional expected part?) c.rest (some (String.ofList found.1)) found.2 := scans_optional_some hp
    obtain ⟨rfl, he⟩ := hs.eq_of_run hrun
    exact he ▸ hs
  | none =>
    have hs : Scans (optional expected part?) c.rest none (c.rest.dropWhile isSpace) := scans_optional_none hp
    obtain ⟨rfl, he⟩ := hs.eq_of_run hrun
    exact he ▸ hs

/-- An optional part is what stands behind the blanks, or it is not there. -/
theorem scans_optional_iff {o : Option String} :
    Scans (optional expected part?) text o rest ↔
      (∃ s, o = some s ∧ part? (text.dropWhile isSpace) = some (s.toList, rest)) ∨
        (o = none ∧ part? (text.dropWhile isSpace) = none ∧ rest = text.dropWhile isSpace) := by
  constructor
  · intro h
    cases hp : part? (text.dropWhile isSpace) with
    | some found =>
      obtain ⟨rfl, rfl⟩ := (scans_optional_some hp).unique h
      exact .inl ⟨_, rfl, by rw [String.toList_ofList]⟩
    | none =>
      obtain ⟨rfl, rfl⟩ := (scans_optional_none hp).unique h
      exact .inr ⟨rfl, rfl, rfl⟩
  · rintro (⟨s, rfl, hp⟩ | ⟨rfl, hp, rfl⟩)
    · have hs : Scans (optional expected part?) text (some (String.ofList s.toList)) rest := scans_optional_some hp
      rwa [String.ofList_toList] at hs
    · exact scans_optional_none hp

/-- To fail does not depend on the place. -/
theorem uniform_missing {α : Type} : Uniform (fun c => .error ⟨c.offset, c.missed⟩ : Scan α) := by
  intro c a c' hrun
  cases hrun

/-- To look for a part that has to be there does not depend on the place. -/
theorem uniform_require : Uniform (require expected part?) := by
  refine uniform_optional.bind fun o => ?_
  cases o with
  | some s => exact uniform_pure s
  | none => exact uniform_missing

/-- A part that has to be there is what stands behind the blanks. -/
theorem scans_require_iff {s : String} :
    Scans (require expected part?) text s rest ↔ part? (text.dropWhile isSpace) = some (s.toList, rest) := by
  constructor
  · intro h
    obtain ⟨offset, missed, hrun⟩ := h 0 []
    obtain ⟨o, c', ho, hnext⟩ := bind_eq_ok_iff.mp hrun
    have hs := uniform_optional _ o c' ho
    cases o with
    | none => cases hnext
    | some s' =>
      obtain ⟨rfl, hrest⟩ := (scans_pure s' c'.rest).eq_of_run hnext
      rw [← hrest] at hs
      rcases scans_optional_iff.mp hs with ⟨s', he, hp⟩ | ⟨he, -⟩
      · cases he
        exact hp
      · cases he
  · intro h
    have hs : Scans (optional expected part?) text (some s) rest := scans_optional_iff.mpr (.inl ⟨s, rfl, h⟩)
    exact hs.bind (scans_pure s rest)

end Parts

/-! ## The end of a line and the brace of a field -/

/-- The end of a line is read where nothing but spaces is left. -/
theorem ending_eq_ok_iff {c c' : Cursor} {u : Unit} : ending c = .ok (u, c') ↔ c.rest.dropWhile isSpace = [] ∧ c' = c.skip := by
  have hrun : ending c = if c.skip.rest.isEmpty then .ok ((), c.skip)
      else .error ⟨c.skip.offset, c.skip.missed ++ [.ending]⟩ := rfl
  rw [hrun, skip_rest]
  cases hr : c.rest.dropWhile isSpace with
  | nil => simp [eq_comm]
  | cons d rest => simp

/-- A line ends where only blanks follow. -/
theorem scans_ending_iff {text rest : List Char} {u : Unit} :
    Scans ending text u rest ↔ text.dropWhile isSpace = [] ∧ rest = [] := by
  constructor
  · intro h
    obtain ⟨offset, missed, hrun⟩ := h 0 []
    obtain ⟨hempty, he⟩ := ending_eq_ok_iff.mp hrun
    refine ⟨hempty, ?_⟩
    have hrest := congrArg Cursor.rest he
    rwa [skip_rest, hempty] at hrest
  · rintro ⟨hempty, rfl⟩ offset missed
    have hrun : ending ⟨text, offset, missed⟩ = .ok (u, Cursor.skip ⟨text, offset, missed⟩) :=
      ending_eq_ok_iff.mpr ⟨hempty, rfl⟩
    refine ⟨(Cursor.skip ⟨text, offset, missed⟩).offset, (Cursor.skip ⟨text, offset, missed⟩).missed, hrun.trans ?_⟩
    rw [← hempty, ← skip_rest ⟨text, offset, missed⟩]

/-- Where the end of a line is read, nothing is left. -/
theorem scans_ending_of_run {c c' : Cursor} {u : Unit} (hrun : ending c = .ok (u, c')) : Scans ending c.rest () [] :=
  scans_ending_iff.mpr ⟨(ending_eq_ok_iff.mp hrun).1, rfl⟩

/-- The brace of a field is read behind spaces. -/
theorem openingBrace_eq_ok_iff {c c' : Cursor} {u : Unit} :
    openingBrace c = .ok (u, c') ↔ ∃ rest, c.rest.dropWhile isSpace = '{' :: rest ∧ c' = ⟨rest, c.skip.offset + 1, []⟩ := by
  rw [← skip_rest]
  simp only [openingBrace]
  split
  · rename_i rest hr
    simp [hr, eq_comm]
  · rename_i hr
    simp only [reduceCtorEq, false_iff]
    rintro ⟨rest, he, -⟩
    exact hr rest he

/-- A field line starts with a brace. -/
theorem scans_openingBrace_iff {text rest : List Char} {u : Unit} :
    Scans openingBrace text u rest ↔ text.dropWhile isSpace = '{' :: rest := by
  constructor
  · intro h
    obtain ⟨offset, missed, hrun⟩ := h 0 []
    obtain ⟨rest', hr, he⟩ := openingBrace_eq_ok_iff.mp hrun
    cases he
    exact hr
  · intro h offset missed
    exact ⟨_, _, openingBrace_eq_ok_iff.mpr ⟨rest, h, rfl⟩⟩

/-- To look for the brace of a field does not depend on the place. -/
theorem uniform_openingBrace : Uniform openingBrace := by
  intro c u c' hrun
  obtain ⟨rest, hr, rfl⟩ := openingBrace_eq_ok_iff.mp hrun
  exact scans_openingBrace_iff.mpr hr

/-! ## Parts at the front of a text -/

/-- A row of characters of a class reaches as far as the class. -/
theorem row?_eq_some_iff {inClass : Char → Bool} {text front rest : List Char} :
    row? inClass text = some (front, rest) ↔
      text = front ++ rest ∧ front ≠ [] ∧ (∀ c ∈ front, inClass c = true) ∧ ∀ c ∈ rest.head?, inClass c = false := by
  unfold row?
  constructor
  · intro h
    split at h
    · cases h
    · rename_i hne
      obtain ⟨rfl, rfl⟩ := Prod.mk.inj (Option.some.inj h)
      exact ⟨List.takeWhile_append_dropWhile.symm, by simpa using hne, fun c hc => List.mem_takeWhile_imp hc,
        head?_dropWhile_eq_false⟩
  · rintro ⟨rfl, hne, hfront, hrest⟩
    obtain ⟨htake, hdrop⟩ := takeWhile_append_of_head hfront hrest
    rw [htake, hdrop, if_neg (by simpa using hne)]

/-- At a boundary no identifier and no numeral goes on. -/
theorem class_false_of_atBoundary {inClass : Char → Bool} (hspace : inClass ' ' = false) (htab : inClass '\t' = false)
    (hbrace : inClass '}' = false) {rest : List Char} (h : atBoundary rest = true) : ∀ c ∈ rest.head?, inClass c = false := by
  intro c hc
  cases rest with
  | nil => cases hc
  | cons d rest =>
    obtain rfl : d = c := by simpa using hc
    simp only [atBoundary, isSpace, Bool.or_eq_true, decide_eq_true_eq] at h
    rcases h with (rfl | rfl) | rfl <;> assumption

/-- What is found counts if something ends it. -/
theorem bounded_eq_some_iff {found result : Found} :
    bounded found = some result ↔ atBoundary result.2 = true ∧ found = result := by
  unfold bounded
  split
  · rename_i hb
    rw [Option.some.injEq]
    exact ⟨fun h => ⟨h ▸ hb, h⟩, fun h => h.2⟩
  · rename_i hb
    simp only [reduceCtorEq, false_iff]
    rintro ⟨hr, rfl⟩
    exact hb hr

/-- A name starts with a letter or an underscore. -/
theorem isIdentStart_iff {c : Char} : isIdentStart c = true ↔ c.isAlpha = true ∨ c = '_' := by
  simp [isIdentStart]

/-- A name goes on with letters, digits and underscores. -/
theorem isIdentPart_iff {c : Char} : isIdentPart c = true ↔ c.isAlphanum = true ∨ c = '_' := by
  simp [isIdentPart]

/-- An identifier at the front of a text is a name up to a boundary. -/
theorem ident?_eq_some_iff {text rest : List Char} {s : String} :
    ident? text = some (s.toList, rest) ↔ text = s.toList ++ rest ∧ IsName s ∧ atBoundary rest = true := by
  unfold IsName
  simp only [← isIdentStart_iff, ← isIdentPart_iff]
  constructor
  · intro h
    cases text with
    | nil => cases h
    | cons c tail =>
      rw [ident?] at h
      split at h
      · rename_i hc
        obtain ⟨hb, he⟩ := bounded_eq_some_iff.mp h
        obtain ⟨hs, rfl⟩ := Prod.mk.inj he
        refine ⟨?_, ⟨c, _, hs.symm, hc, fun d hd => List.mem_takeWhile_imp hd⟩, hb⟩
        rw [← hs, List.cons_append, List.takeWhile_append_dropWhile]
      · cases h
  · rintro ⟨rfl, ⟨c, tail, hs, hc, htail⟩, hb⟩
    have hrest : ∀ d ∈ rest.head?, isIdentPart d = false := class_false_of_atBoundary (by decide) (by decide) (by decide) hb
    obtain ⟨htake, hdrop⟩ := takeWhile_append_of_head htail hrest
    rw [hs, List.cons_append, ident?, if_pos hc, htake, hdrop]
    exact bounded_eq_some_iff.mpr ⟨hb, rfl⟩

/-- A run of characters reaches to the next space or tab. -/
theorem token?_eq_some_iff {text front rest : List Char} :
    token? text = some (front, rest) ↔
      text = front ++ rest ∧ front ≠ [] ∧ (∀ c ∈ front, isSpace c = false) ∧ ∀ c ∈ rest.head?, isSpace c = true := by
  unfold token?
  rw [row?_eq_some_iff]
  simp

/-- A numeral as it is written: decimal digits, or hexadecimal digits behind a mark. -/
def IsNumeral (numeral : List Char) : Prop :=
  (numeral ≠ [] ∧ ∀ c ∈ numeral, Numeral.isDecimal c = true) ∨
    ∃ mark digits, numeral = '0' :: mark :: digits ∧ (mark = 'x' ∨ mark = 'X') ∧ digits ≠ [] ∧
      ∀ c ∈ digits, Numeral.isHexadecimal c = true

/-- A hexadecimal numeral is a zero, a mark and a row of digits. -/
theorem hexadecimal?_eq_some_iff {text front rest : List Char} :
    hexadecimal? text = some (front, rest) ↔
      ∃ mark digits, text = front ++ rest ∧ front = '0' :: mark :: digits ∧ (mark = 'x' ∨ mark = 'X') ∧
        row? Numeral.isHexadecimal (digits ++ rest) = some (digits, rest) := by
  constructor
  · intro h
    unfold hexadecimal? at h
    split at h
    · rename_i mark tail
      split at h
      · rename_i hmark
        obtain ⟨found, hrow, he⟩ := Option.map_eq_some_iff.mp h
        obtain ⟨rfl, rfl⟩ := Prod.mk.inj he
        have hsplit : tail = found.1 ++ found.2 := (row?_eq_some_iff.mp hrow).1
        exact ⟨mark, found.1, by rw [hsplit]; rfl, rfl, hmark, by rw [← hsplit]; exact hrow⟩
      · cases h
    · cases h
  · rintro ⟨mark, digits, rfl, rfl, hmark, hrow⟩
    simp only [List.cons_append, hexadecimal?, if_pos hmark, hrow, Option.map_some]

/-- Decimal digits up to a boundary are not the start of a hexadecimal numeral: its mark is neither a digit nor a boundary. -/
theorem hexadecimal?_eq_none_of_decimal {front rest : List Char} (hne : front ≠ [])
    (hdigits : ∀ c ∈ front, Numeral.isDecimal c = true) (hb : atBoundary rest = true) : hexadecimal? (front ++ rest) = none := by
  rw [Option.eq_none_iff_forall_ne_some]
  rintro ⟨front', rest'⟩ he
  obtain ⟨mark, digits, hsplit, rfl, hmark, -⟩ := hexadecimal?_eq_some_iff.mp he
  rcases front with _ | ⟨c, _ | ⟨d, front⟩⟩
  · exact hne rfl
  · obtain ⟨-, rfl⟩ := List.cons.inj hsplit
    have hb' : (isSpace mark || mark = '}') = true := hb
    rcases hmark with rfl | rfl <;> exact absurd hb' (by decide)
  · obtain ⟨-, htail⟩ := List.cons.inj hsplit
    obtain ⟨rfl, -⟩ := List.cons.inj htail
    have hd := hdigits d (by simp)
    rcases hmark with rfl | rfl <;> exact absurd hd (by decide)

/-- A numeral at the front of a text is one up to a boundary. -/
theorem number?_eq_some_iff {text front rest : List Char} :
    number? text = some (front, rest) ↔ text = front ++ rest ∧ IsNumeral front ∧ atBoundary rest = true := by
  constructor
  · intro h
    unfold number? at h
    split at h
    · rename_i found hhex
      obtain ⟨hb, rfl⟩ := bounded_eq_some_iff.mp h
      obtain ⟨mark, digits, rfl, rfl, hmark, hrow⟩ := hexadecimal?_eq_some_iff.mp hhex
      obtain ⟨-, hne, hdigits, -⟩ := row?_eq_some_iff.mp hrow
      exact ⟨rfl, .inr ⟨mark, digits, rfl, hmark, hne, hdigits⟩, hb⟩
    · obtain ⟨found, hrow, hbounded⟩ := Option.bind_eq_some_iff.mp h
      obtain ⟨hb, rfl⟩ := bounded_eq_some_iff.mp hbounded
      obtain ⟨rfl, hne, hdigits, -⟩ := row?_eq_some_iff.mp hrow
      exact ⟨rfl, .inl ⟨hne, hdigits⟩, hb⟩
  · rintro ⟨rfl, ⟨hne, hdigits⟩ | ⟨mark, digits, rfl, hmark, hne, hdigits⟩, hb⟩
    · have hrest : ∀ d ∈ rest.head?, Numeral.isDecimal d = false :=
        class_false_of_atBoundary (by decide) (by decide) (by decide) hb
      have hrow : row? Numeral.isDecimal (front ++ rest) = some (front, rest) := row?_eq_some_iff.mpr ⟨rfl, hne, hdigits, hrest⟩
      rw [number?, hexadecimal?_eq_none_of_decimal hne hdigits hb]
      simp only [hrow, Option.bind_some]
      exact bounded_eq_some_iff.mpr ⟨hb, rfl⟩
    · have hrest : ∀ d ∈ rest.head?, Numeral.isHexadecimal d = false :=
        class_false_of_atBoundary (by decide) (by decide) (by decide) hb
      have hrow := row?_eq_some_iff.mpr ⟨rfl, hne, hdigits, hrest⟩
      have hhex := hexadecimal?_eq_some_iff.mpr ⟨mark, digits, rfl, rfl, hmark, hrow⟩
      rw [number?, hhex]
      exact bounded_eq_some_iff.mpr ⟨hb, rfl⟩

/-! ## Lines -/

theorem uniform_ident : Uniform ident := uniform_require

theorem uniform_number : Uniform number := uniform_require

theorem uniform_token : Uniform token := uniform_require

/-- A name is read behind spaces, up to where it may end. -/
theorem scans_ident_iff {text rest : List Char} {s : String} :
    Scans ident text s rest ↔ text.dropWhile isSpace = s.toList ++ rest ∧ IsName s ∧ atBoundary rest = true :=
  scans_require_iff.trans ident?_eq_some_iff

/-- A numeral is read behind spaces, up to where it may end. -/
theorem scans_number_iff {text rest : List Char} {s : String} :
    Scans number text s rest ↔ text.dropWhile isSpace = s.toList ++ rest ∧ IsNumeral s.toList ∧ atBoundary rest = true :=
  scans_require_iff.trans number?_eq_some_iff

/-- A message header is read part by part. -/
theorem read_messageHeader_iff {text : String} {parts : MessageParts} :
    messageHeader.read text = .ok parts ↔ ∃ r₁ r₂ r₃ r₄ r₅ r₆, Scans ident text.toList parts.name r₁ ∧
      Scans ident r₁ parts.frequency r₂ ∧ Scans number r₂ parts.id r₃ ∧ Scans token r₃ parts.trust r₄ ∧
      Scans token r₄ parts.encoding r₅ ∧ Scans (optional .token token?) r₅ parts.deprecation r₆ ∧ Scans ending r₆ () [] := by
  rw [read_eq_ok_iff]
  constructor
  · rintro ⟨c, hrun⟩
    obtain ⟨name, c₁, hname, hrun⟩ := bind_eq_ok_iff.mp hrun
    obtain ⟨frequency, c₂, hfrequency, hrun⟩ := bind_eq_ok_iff.mp hrun
    obtain ⟨id, c₃, hid, hrun⟩ := bind_eq_ok_iff.mp hrun
    obtain ⟨trust, c₄, htrust, hrun⟩ := bind_eq_ok_iff.mp hrun
    obtain ⟨encoding, c₅, hencoding, hrun⟩ := bind_eq_ok_iff.mp hrun
    obtain ⟨deprecation, c₆, hdeprecation, hrun⟩ := bind_eq_ok_iff.mp hrun
    obtain ⟨u, c₇, hend, hrun⟩ := bind_eq_ok_iff.mp hrun
    cases hrun
    exact ⟨_, _, _, _, _, _, uniform_ident _ _ _ hname, uniform_ident _ _ _ hfrequency, uniform_number _ _ _ hid,
      uniform_token _ _ _ htrust, uniform_token _ _ _ hencoding, uniform_optional _ _ _ hdeprecation, scans_ending_of_run hend⟩
  · rintro ⟨r₁, r₂, r₃, r₄, r₅, r₆, hname, hfrequency, hid, htrust, hencoding, hdeprecation, hend⟩
    have hs : Scans messageHeader text.toList parts [] :=
      hname.bind (hfrequency.bind (hid.bind (htrust.bind (hencoding.bind (hdeprecation.bind (hend.bind (scans_pure parts [])))))))
    exact hs.run

/-- A block header is read part by part. -/
theorem read_blockHeader_iff {text : String} {parts : BlockParts} :
    blockHeader.read text = .ok parts ↔ ∃ r₁ r₂ r₃, Scans ident text.toList parts.name r₁ ∧ Scans ident r₁ parts.quantity r₂ ∧
      Scans (optional .number number?) r₂ parts.count r₃ ∧ Scans ending r₃ () [] := by
  rw [read_eq_ok_iff]
  constructor
  · rintro ⟨c, hrun⟩
    obtain ⟨name, c₁, hname, hrun⟩ := bind_eq_ok_iff.mp hrun
    obtain ⟨quantity, c₂, hquantity, hrun⟩ := bind_eq_ok_iff.mp hrun
    obtain ⟨count, c₃, hcount, hrun⟩ := bind_eq_ok_iff.mp hrun
    obtain ⟨u, c₄, hend, hrun⟩ := bind_eq_ok_iff.mp hrun
    cases hrun
    exact ⟨_, _, _, uniform_ident _ _ _ hname, uniform_ident _ _ _ hquantity, uniform_optional _ _ _ hcount,
      scans_ending_of_run hend⟩
  · rintro ⟨r₁, r₂, r₃, hname, hquantity, hcount, hend⟩
    have hs : Scans blockHeader text.toList parts [] :=
      hname.bind (hquantity.bind (hcount.bind (hend.bind (scans_pure parts []))))
    exact hs.run

/-- A field line is read part by part. -/
theorem read_fieldLine_iff {text : String} {parts : FieldParts} :
    fieldLine.read text = .ok parts ↔ ∃ r₀ r₁ r₂ r₃ r₄, Scans openingBrace text.toList () r₀ ∧ Scans ident r₀ parts.name r₁ ∧
      Scans ident r₁ parts.type r₂ ∧ Scans (optional .number number?) r₂ parts.count r₃ ∧
      Scans (optional .token token?) r₃ parts.flag r₄ ∧ Scans ending r₄ () [] := by
  rw [read_eq_ok_iff]
  constructor
  · rintro ⟨c, hrun⟩
    obtain ⟨_, c₀, hbrace, hrun⟩ := bind_eq_ok_iff.mp hrun
    obtain ⟨name, c₁, hname, hrun⟩ := bind_eq_ok_iff.mp hrun
    obtain ⟨type, c₂, htype, hrun⟩ := bind_eq_ok_iff.mp hrun
    obtain ⟨count, c₃, hcount, hrun⟩ := bind_eq_ok_iff.mp hrun
    obtain ⟨flag, c₄, hflag, hrun⟩ := bind_eq_ok_iff.mp hrun
    obtain ⟨u, c₅, hend, hrun⟩ := bind_eq_ok_iff.mp hrun
    cases hrun
    exact ⟨_, _, _, _, _, uniform_openingBrace _ _ _ hbrace, uniform_ident _ _ _ hname, uniform_ident _ _ _ htype,
      uniform_optional _ _ _ hcount, uniform_optional _ _ _ hflag, scans_ending_of_run hend⟩
  · rintro ⟨r₀, r₁, r₂, r₃, r₄, hbrace, hname, htype, hcount, hflag, hend⟩
    have hs : Scans fieldLine text.toList parts [] :=
      hbrace.bind (hname.bind (htype.bind (hcount.bind (hflag.bind (hend.bind (scans_pure parts []))))))
    exact hs.run

end MessageCatalog.Scan
