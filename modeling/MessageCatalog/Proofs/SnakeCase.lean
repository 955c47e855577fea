import MessageCatalog.Proofs.Naming

/-!
# Snake case

Snake case writes a name character by character and inserts underscores between words. A spelling of a name (`Spelled`)
says in front of which characters; the snake case of a name has one spelling and no other, and there no inserted
underscore touches another one. What is written has neither capitals nor hyphens, so that snake case changes it no more,
and without the underscores it is the name in lower case.
-/

namespace MessageCatalog.Naming

/-! ## Characters -/

/-- A character as snake case writes it: a hyphen as an underscore, a capital as its small letter. -/
def snakeChar (c : Char) : Char :=
  if c = '-' then '_' else c.toLower

/-- Whether snake case leaves a character as it is. -/
def IsSnakeChar (c : Char) : Prop :=
  c.isUpper = false ∧ c ≠ '-'

/-- Underscores are written for underscores and hyphens. -/
theorem snakeChar_eq_underscore_iff {c : Char} : snakeChar c = '_' ↔ c = '_' ∨ c = '-' := by
  unfold snakeChar
  split
  · rename_i hc
    simp [hc]
  · rename_i hc
    rw [toLower_eq_iff (by decide)]
    simp [hc]

/-- A character is spelled with a character of snake case. -/
theorem isSnakeChar_snakeChar (c : Char) : IsSnakeChar (snakeChar c) := by
  unfold snakeChar
  split
  · exact ⟨by decide, by decide⟩
  · rename_i hc
    refine ⟨isUpper_toLower c, fun hlower => hc ?_⟩
    rwa [toLower_eq_iff (by decide)] at hlower

/-- A character of snake case is no capital. -/
theorem IsSnakeChar.toLower {c : Char} (h : IsSnakeChar c) : c.toLower = c := by
  rcases toLower_eq_self_or_mem c with hself | hmem
  · exact hself
  · have hupper := isUpper_iff_mem_capitals.mpr hmem
    rw [h.1] at hupper
    cases hupper

/-! ## Spellings -/

/-- A character of a name, and whether an underscore is inserted in front of it. -/
structure Spelled where
  char : Char
  inserts : Bool
  deriving DecidableEq, Repr

/-- What is written for a character. -/
def Spelled.text (s : Spelled) : List Char :=
  if s.inserts then ['_', snakeChar s.char] else [snakeChar s.char]

/-- Whether a text is written for a name by a spelling of it. -/
structure IsSpelling (spelling : List Spelled) (name text : List Char) : Prop where
  name : spelling.map (·.char) = name
  text : spelling.flatMap Spelled.text = text

/-- Whether every inserted underscore stands between two characters that are none. The character in front of the
spelling is `before`, if there is one. -/
def InsertsApart (before : Option Char) : List Spelled → Prop
  | [] => True
  | s :: rest =>
    (s.inserts = true → (∃ b ∈ before, b ≠ '_') ∧ snakeChar s.char ≠ '_') ∧ InsertsApart (some (snakeChar s.char)) rest

/-- The spelling that snake case uses for what stands behind a character. -/
def snakeSpelling (before : Option Char) : List Char → List Spelled
  | [] => []
  | c :: rest => ⟨c, beginsWord before c rest.head?⟩ :: snakeSpelling (some c) rest

/-- The first character is spelled by itself, with what stands beside it. -/
theorem snakeFrom_cons (before : Option Char) (c : Char) (rest : List Char) :
    snakeFrom before (c :: rest) = Spelled.text ⟨c, beginsWord before c rest.head?⟩ ++ snakeFrom (some c) rest := by
  rw [snakeFrom]
  by_cases hc : c = '-'
  · subst hc
    rfl
  · rw [if_neg hc]
    cases beginsWord before c rest.head? <;> simp [Spelled.text, snakeChar, hc]

/-- The snake case of a name spells the name. -/
theorem isSpelling_snakeSpelling (before : Option Char) (name : List Char) :
    IsSpelling (snakeSpelling before name) name (snakeFrom before name) := by
  induction name generalizing before with
  | nil => exact ⟨rfl, rfl⟩
  | cons c rest ih =>
    obtain ⟨hname, htext⟩ := ih (some c)
    refine ⟨?_, ?_⟩
    · rw [snakeSpelling, List.map_cons, hname]
    · rw [snakeSpelling, List.flatMap_cons, htext, snakeFrom_cons]

/-- A word begins with a capital behind a letter or a digit. -/
theorem of_beginsWord {before after : Option Char} {c : Char} (h : beginsWord before c after = true) :
    c.isUpper = true ∧ ∃ b ∈ before, b.isAlphanum = true := by
  unfold beginsWord at h
  rw [Bool.and_eq_true] at h
  refine ⟨h.1, ?_⟩
  cases before with
  | none => simp at h
  | some b =>
    refine ⟨b, rfl, ?_⟩
    simp only [Bool.or_eq_true, Bool.and_eq_true] at h
    delta Char.isAlphanum Char.isAlpha
    simp only [Bool.or_eq_true]
    tauto

/-- A letter or digit is not spelled as an underscore. -/
theorem snakeChar_ne_underscore {c : Char} (h : c.isAlphanum = true) : snakeChar c ≠ '_' := by
  rw [Ne, snakeChar_eq_underscore_iff]
  rintro (rfl | rfl) <;> exact absurd h (by decide)

/-- No underscore is inserted beside another one. -/
theorem insertsApart_snakeSpelling (before : Option Char) (name : List Char) :
    InsertsApart (before.map snakeChar) (snakeSpelling before name) := by
  induction name generalizing before with
  | nil => trivial
  | cons c rest ih =>
    refine ⟨fun hbegins => ?_, ih (some c)⟩
    obtain ⟨hupper, b, hb, hword⟩ := of_beginsWord hbegins
    have hbefore : snakeChar b ∈ before.map snakeChar := Option.mem_map_of_mem snakeChar hb
    exact ⟨⟨snakeChar b, hbefore, snakeChar_ne_underscore hword⟩, snakeChar_ne_underscore (isAlphanum_of_isUpper hupper)⟩

/-- Behind an underscore nothing is inserted, so two spellings of a name cannot fall apart there by underscores: those
that one of them has too many would have to be made up for by the other. -/
theorem not_insertsApart_of_surplus {spelling other : List Spelled} (surplus : Nat)
    (happart : InsertsApart (some '_') spelling) (hname : spelling.map (·.char) = other.map (·.char)) :
    spelling.flatMap Spelled.text ≠ List.replicate (surplus + 1) '_' ++ other.flatMap Spelled.text := by
  induction spelling generalizing other surplus with
  | nil => simp [List.replicate_succ]
  | cons s spelling ih =>
    intro htext
    cases other with
    | nil => cases hname
    | cons o other =>
      obtain ⟨hchar, hnames⟩ : s.char = o.char ∧ spelling.map (·.char) = other.map (·.char) := List.cons.inj hname
      obtain ⟨hinserts, happart⟩ := happart
      have hplain : s.inserts = false := by
        rw [← Bool.not_eq_true]
        intro h
        obtain ⟨⟨b, hb, hne⟩, -⟩ := hinserts h
        exact hne (Option.some.inj hb).symm
      rw [List.flatMap_cons, List.flatMap_cons, Spelled.text, hplain, List.replicate_succ] at htext
      obtain ⟨hunderscore, htext⟩ := List.cons.inj htext
      rw [hunderscore] at happart
      have hother : ∃ more, o.text = List.replicate (more + 1) '_' := by
        rw [Spelled.text, ← hchar, hunderscore]
        cases o.inserts with
        | true => exact ⟨1, rfl⟩
        | false => exact ⟨0, rfl⟩
      obtain ⟨more, hmore⟩ := hother
      refine ih (surplus + more) happart hnames ?_
      rw [show surplus + more + 1 = surplus + (more + 1) by omega, List.replicate_add, List.append_assoc, ← hmore]
      exact htext

/-- A spelling whose inserted underscores stand apart is the only one of its text. -/
theorem InsertsApart.unique {before : Option Char} {spelling other : List Spelled} (happart : InsertsApart before spelling)
    (hname : spelling.map (·.char) = other.map (·.char)) (htext : spelling.flatMap Spelled.text = other.flatMap Spelled.text) :
    other = spelling := by
  induction spelling generalizing before other with
  | nil => exact (List.map_eq_nil_iff.mp hname.symm)
  | cons s spelling ih =>
    cases other with
    | nil => cases hname
    | cons o other =>
      obtain ⟨c, inserts⟩ := s
      obtain ⟨d, inserts'⟩ := o
      obtain ⟨rfl, hnames⟩ : c = d ∧ spelling.map (·.char) = other.map (·.char) := List.cons.inj hname
      obtain ⟨hinserts, happart⟩ := happart
      rw [List.flatMap_cons, List.flatMap_cons] at htext
      cases inserts with
      | true =>
        cases inserts' with
        | true => rw [ih happart hnames (List.append_cancel_left htext)]
        | false => exact absurd (List.cons.inj htext).1.symm (hinserts rfl).2
      | false =>
        cases inserts' with
        | true =>
          obtain ⟨hunderscore, htext⟩ := List.cons.inj htext
          rw [hunderscore] at happart htext
          exact absurd htext (not_insertsApart_of_surplus 0 happart hnames)
        | false => rw [ih happart hnames (List.append_cancel_left htext)]

/-! ## What is written -/

/-- Only characters of snake case are written. -/
theorem isSnakeChar_of_mem_snakeFrom {before : Option Char} {name : List Char} : ∀ c ∈ snakeFrom before name, IsSnakeChar c := by
  induction name generalizing before with
  | nil => exact List.forall_mem_nil _
  | cons c rest ih =>
    intro d hd
    rw [snakeFrom_cons, List.mem_append] at hd
    rcases hd with hd | hd
    · rw [Spelled.text] at hd
      split at hd
      · rcases List.mem_cons.mp hd with rfl | hd
        · exact ⟨by decide, by decide⟩
        · rw [List.mem_singleton.mp hd]
          exact isSnakeChar_snakeChar c
      · rw [List.mem_singleton.mp hd]
        exact isSnakeChar_snakeChar c
    · exact ih d hd

/-- Snake case leaves a text as it is that has neither capitals nor hyphens. -/
theorem snakeFrom_eq_self {text : List Char} (h : ∀ c ∈ text, IsSnakeChar c) (before : Option Char) :
    snakeFrom before text = text := by
  induction text generalizing before with
  | nil => rfl
  | cons c rest ih =>
    obtain ⟨hc, hrest⟩ := List.forall_mem_cons.mp h
    have hbegins : beginsWord before c rest.head? = false := by simp [beginsWord, hc.1]
    have hself : snakeChar c = c := by rw [snakeChar, if_neg hc.2, hc.toLower]
    rw [snakeFrom_cons, ih hrest, hbegins, Spelled.text, hself]
    rfl

/-- What is left of a character without underscores. -/
theorem filter_text (s : Spelled) :
    s.text.filter (· ≠ '_') = (([s.char].filter fun c => c ≠ '_' ∧ c ≠ '-').map Char.toLower) := by
  by_cases hc : s.char = '_' ∨ s.char = '-'
  · have hsnake := snakeChar_eq_underscore_iff.mpr hc
    have hgone : ¬(s.char ≠ '_' ∧ s.char ≠ '-') := by tauto
    cases hs : s.inserts <;> simp [Spelled.text, hs, hsnake, hgone]
  · have hsnake := mt snakeChar_eq_underscore_iff.mp hc
    rw [not_or] at hc
    have hlower : snakeChar s.char = s.char.toLower := if_neg hc.2
    rw [hlower] at hsnake
    cases hs : s.inserts <;> simp [Spelled.text, hs, hsnake, hlower, hc]

/-- Without underscores, what is written is the name without separators and in lower case. -/
theorem filter_snakeFrom (before : Option Char) (name : List Char) :
    (snakeFrom before name).filter (· ≠ '_') = (name.filter fun c => c ≠ '_' ∧ c ≠ '-').map Char.toLower := by
  induction name generalizing before with
  | nil => rfl
  | cons c rest ih =>
    rw [snakeFrom_cons, List.filter_append, filter_text, ih, ← List.map_append, ← List.filter_append, List.singleton_append]

/-! ## Names -/

/-- Snake case has only characters of snake case. -/
theorem isSnakeChar_of_mem_snakeCase {name : String} : ∀ c ∈ (snakeCase name).toList, IsSnakeChar c := by
  rw [snakeCase, String.toList_ofList]
  exact isSnakeChar_of_mem_snakeFrom

/-- What has only characters of snake case is its own snake case. -/
theorem snakeCase_eq_self {text : String} (h : ∀ c ∈ text.toList, IsSnakeChar c) : snakeCase text = text := by
  rw [snakeCase, snakeFrom_eq_self h, String.ofList_toList]

/-- A field name has only characters of snake case. -/
theorem isSnakeChar_of_mem_fieldName (name : String) : ∀ c ∈ (fieldName name).toList, IsSnakeChar c := by
  simp only [fieldName]
  split
  · rw [String.toList_append]
    exact List.forall_mem_append.mpr ⟨isSnakeChar_of_mem_snakeCase, List.forall_mem_singleton.mpr ⟨by decide, by decide⟩⟩
  · exact isSnakeChar_of_mem_snakeCase

/-- The field name of a field name is the field name. -/
theorem fieldName_fieldName (name : String) : fieldName (fieldName name) = fieldName name := by
  have hsnake := snakeCase_eq_self (isSnakeChar_of_mem_fieldName name)
  have hfree : ¬isReserved (fieldName name) = true := by simp [isReserved_fieldName]
  rw [fieldName.eq_1 (fieldName name)]
  simp only [hsnake, if_neg hfree]

/-- Snake case leaves neither capitals nor hyphens and changes its own results no more. Without underscores, a name in
snake case is the name without underscores and hyphens in lower case. It has one spelling, in which every inserted
underscore stands between two characters that are none. A field name is no reserved word and its own field name, and it
is a name if it is made from one. -/
theorem snakeCase_stable_and_faithful (name : String) :
    (∀ c ∈ (snakeCase name).toList, c.isUpper = false ∧ c ≠ '-') ∧
      snakeCase (snakeCase name) = snakeCase name ∧
      (snakeCase name).toList.filter (· ≠ '_') = (name.toList.filter fun c => c ≠ '_' ∧ c ≠ '-').map Char.toLower ∧
      (∃ spelling, IsSpelling spelling name.toList (snakeCase name).toList ∧ InsertsApart none spelling ∧
        ∀ other, IsSpelling other name.toList (snakeCase name).toList → other = spelling) ∧
      isReserved (fieldName name) = false ∧ fieldName (fieldName name) = fieldName name ∧
      (IsName name → IsName (fieldName name)) := by
  have hlist : (snakeCase name).toList = snakeFrom none name.toList := String.toList_ofList
  have hspelling := isSpelling_snakeSpelling none name.toList
  have happart := insertsApart_snakeSpelling none name.toList
  refine ⟨isSnakeChar_of_mem_snakeCase, snakeCase_eq_self isSnakeChar_of_mem_snakeCase, ?_, ?_, isReserved_fieldName name,
    fieldName_fieldName name, isName_fieldName⟩
  · rw [hlist, filter_snakeFrom]
  · rw [hlist]
    refine ⟨snakeSpelling none name.toList, hspelling, happart, fun other hother => ?_⟩
    exact happart.unique (hspelling.name.trans hother.name.symm) (hspelling.text.trans hother.text.symm)

end MessageCatalog.Naming
