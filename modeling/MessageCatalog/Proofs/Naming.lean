import MessageCatalog.Proofs.Source.Writing

/-!
# Names in generated code are identifiers

A template name in snake case is a name again, and so is a message and a block name with a separator between them: all of them are
identifiers of the target language. A field name is never a reserved word, for the trailing underscore makes none of one.
-/

namespace MessageCatalog

/-! ## Characters of names -/

/-- What may stand in a name may stand there in lower case. -/
theorem isIdentPart_toLower {c : Char} (h : Scan.isIdentPart c = true) : Scan.isIdentPart c.toLower = true := by
  rcases toLower_eq_self_or_mem c with hself | hmem
  · rwa [hself]
  · have hcapitals : capitals.all (fun c => Scan.isIdentPart c.toLower) = true := by decide
    exact List.all_eq_true.mp hcapitals c hmem

/-- The characters of names are ASCII. -/
theorem lt_ascii_of_isIdentPart {c : Char} (h : Scan.isIdentPart c = true) : c.toNat < 0x80 := by
  rcases Scan.isIdentPart_iff.mp h with h | rfl
  · delta Char.isAlphanum Char.isAlpha Char.isUpper Char.isLower Char.isDigit at h
    simp only [Bool.or_eq_true, Bool.and_eq_true, decide_eq_true_eq] at h
    rcases h with (h | h) | h
    · exact Nat.lt_of_le_of_lt (show c.toNat ≤ 'Z'.toNat from h.2) (by decide)
    · exact Nat.lt_of_le_of_lt (show c.toNat ≤ 'z'.toNat from h.2) (by decide)
    · exact Nat.lt_of_le_of_lt (show c.toNat ≤ '9'.toNat from h.2) (by decide)
  · decide

/-- What can stand inside a name behind its first character. -/
def IsNameTail (text : List Char) : Prop :=
  ∀ c ∈ text, Scan.isIdentPart c = true

/-- A name stays one with more behind it. -/
theorem IsName.append {name tail : String} (h : IsName name) (htail : IsNameTail tail.toList) : IsName (name ++ tail) := by
  obtain ⟨c, rest, hname, hc, hrest⟩ := h
  refine ⟨c, rest ++ tail.toList, ?_, hc, ?_⟩
  · rw [String.toList_append, hname, List.cons_append]
  · intro d hd
    rcases List.mem_append.mp hd with hd | hd
    · exact hrest d hd
    · exact Scan.isIdentPart_iff.mp (htail d hd)

namespace Naming

theorem isNameTail_of_isFragment {text : String} (h : isFragment text = true) : IsNameTail text.toList := by
  intro c hc
  rw [Scan.isIdentPart_iff]
  simpa using List.all_eq_true.mp h c hc

/-- The type name of a block is a name. -/
theorem isName_blockTypeName {message block separator : String} (hmessage : IsName message) (hblock : IsName block)
    (hseparator : isFragment separator = true) : IsName (blockTypeName message block separator) :=
  (hmessage.append (isNameTail_of_isFragment hseparator)).append hblock.isIdentPart

/-! ## Snake case -/

theorem isNameTail_snakeFrom {text : List Char} (h : IsNameTail text) (before : Option Char) :
    IsNameTail (snakeFrom before text) := by
  induction text generalizing before with
  | nil => exact h
  | cons c rest ih =>
    obtain ⟨hc, hrest⟩ := List.forall_mem_cons.mp h
    have htail := ih hrest (some c)
    have hlower : IsNameTail (c.toLower :: snakeFrom (some c) rest) := List.forall_mem_cons.mpr ⟨isIdentPart_toLower hc, htail⟩
    rw [snakeFrom]
    split
    · exact List.forall_mem_cons.mpr ⟨rfl, htail⟩
    split
    · exact List.forall_mem_cons.mpr ⟨rfl, hlower⟩
    · exact hlower

/-- A name in snake case is a name: no underscore is put in front of its first character. -/
theorem isName_snakeCase {name : String} (h : IsName name) : IsName (snakeCase name) := by
  obtain ⟨c, rest, hname, hc, hrest⟩ := h
  have hfirst : c ≠ '-' := by
    rintro rfl
    exact absurd hc (by decide)
  have hbegins : beginsWord none c rest.head? = false := by simp [beginsWord]
  have hsnake : (snakeCase name).toList = c.toLower :: snakeFrom (some c) rest := by
    rw [snakeCase, String.toList_ofList, hname, snakeFrom, if_neg hfirst, hbegins, if_neg (by decide)]
  have htail : IsNameTail (snakeFrom (some c) rest) :=
    isNameTail_snakeFrom (fun d hd => Scan.isIdentPart_iff.mpr (hrest d hd)) _
  refine ⟨_, _, hsnake, ?_, fun d hd => Scan.isIdentPart_iff.mp (htail d hd)⟩
  rcases hc with hc | rfl
  · exact .inl (by rwa [isAlpha_toLower])
  · exact .inr rfl

theorem isName_fieldName {name : String} (h : IsName name) : IsName (fieldName name) := by
  simp only [fieldName]
  split
  · exact (isName_snakeCase h).append (List.forall_mem_singleton.mpr rfl)
  · exact isName_snakeCase h

/-- A field name is no reserved word, whatever it is made from. -/
theorem isReserved_fieldName (name : String) : isReserved (fieldName name) = false := by
  simp only [fieldName]
  split
  · rename_i hreserved
    have hsuffix : reservedWords.all (fun word => !isReserved (word ++ "_")) = true := by decide
    simpa using List.all_eq_true.mp hsuffix _ (List.contains_iff_mem.mp hreserved)
  · rename_i hfree
    exact eq_false_of_ne_true hfree

/-! ## Identifiers -/

/-- Names are identifiers. -/
theorem isIdentifier_of_isName {name : String} (h : IsName name) : isIdentifier name = true := by
  have hparts := h.isIdentPart
  obtain ⟨c, rest, hname, hc, hrest⟩ := h
  have hascii : ∀ d ∈ c :: rest, d.toNat < 0x80 := fun d hd => lt_ascii_of_isIdentPart (hparts d (hname ▸ hd))
  have hplain : isPlainIdentifier (c :: rest) = true := by
    simp only [isPlainIdentifier, Bool.and_eq_true, List.all_eq_true]
    refine ⟨?_, fun d hd => ?_⟩
    · rw [Text.isIdentifierStart, if_pos (hascii c (by simp))]
      simpa using hc
    · rw [Text.isIdentifierPart, if_pos (hascii d (List.mem_cons_of_mem c hd))]
      simpa using hrest d hd
  unfold isIdentifier
  split
  · rename_i raw hraw
    -- a raw identifier has a mark that stands in no name
    exact absurd (hparts '#' (by rw [hraw]; simp)) (by decide)
  · rwa [hname]

/-- A name becomes an identifier, that of a type as well as that of a field. -/
theorem identifier?_eq_some {name : String} (h : IsName name) (use : NameUse) :
    use.identifier? name = some (use.spelling name) := by
  cases use with
  | type => exact if_pos (isIdentifier_of_isName h)
  | field => exact if_pos (isIdentifier_of_isName (isName_fieldName h))

end Naming

end MessageCatalog
