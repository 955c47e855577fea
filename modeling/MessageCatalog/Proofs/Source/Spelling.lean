import MessageCatalog.Proofs.Source.Lines
import MessageCatalog.Proofs.Text.Numerals

/-!
# Spellings of numbers and keywords

A number may be written in decimal or, behind `0x`, in hexadecimal digits of either case, with zeros in front; a keyword
may be written in any mixture of upper and lower case. Whatever the spelling, the number and the keyword are read from
it.
-/

namespace MessageCatalog

/-! ## Numbers -/

namespace Numeral

/-- A numeral of a number: its digits behind any number of zeros, in decimal, or in hexadecimal behind the mark. -/
def Spells (n : Nat) (numeral : List Char) : Prop :=
  ∃ zeros, numeral = List.replicate zeros '0' ++ Nat.toDigits 10 n ∨
    ∃ mark digits, numeral = '0' :: mark :: digits ∧ (mark = 'x' ∨ mark = 'X') ∧
      digits.map Char.toLower = List.replicate zeros '0' ++ Nat.toDigits 16 n

/-- The digits of a number have its value. -/
theorem valueFrom_toDigits {base : Nat} (hbase : 1 < base) (hmax : base ≤ 16) (n : Nat) :
    valueFrom base 0 (Nat.toDigits base n) = some n := by
  induction n using Nat.strongRecOn with
  | ind n ih =>
    rw [Nat.toDigits_eq_if hbase]
    split
    · rename_i hlt
      simp [valueFrom, digit?_digitChar (Nat.lt_of_lt_of_le hlt hmax), hlt]
    · rename_i hge
      have hmod : n % base < base := Nat.mod_lt n (by omega)
      have hdiv : n / base < n := Nat.div_lt_self (by omega) hbase
      have hvalue : n / base * base + n % base = n := by rw [Nat.mul_comm, Nat.div_add_mod]
      simp [valueFrom_append, ih (n / base) hdiv, valueFrom, digit?_digitChar (Nat.lt_of_lt_of_le hmod hmax), hmod, hvalue]

/-- Zeros in front of digits do not change their value. -/
theorem valueFrom_zeros {base : Nat} (hbase : 1 < base) (zeros : Nat) (digits : List Char) :
    valueFrom base 0 (List.replicate zeros '0' ++ digits) = valueFrom base 0 digits := by
  induction zeros with
  | zero => rfl
  | succ zeros ih =>
    have hzero : digit? '0' = some 0 := rfl
    rw [List.replicate_succ, List.cons_append, valueFrom, hzero]
    simp only [if_pos (Nat.lt_trans Nat.zero_lt_one hbase), Nat.zero_mul, Nat.add_zero, ih]

/-- What has a value consists of digits of the base. -/
theorem digits_of_valueFrom {base acc value : Nat} {digits : List Char} (h : valueFrom base acc digits = some value) :
    ∀ c ∈ digits, ∃ d < base, digit? c = some d := by
  induction digits generalizing acc with
  | nil => simp
  | cons c digits ih =>
    unfold valueFrom at h
    split at h
    · rename_i d hd
      split at h
      · rename_i hlt
        exact List.forall_mem_cons.mpr ⟨⟨d, hlt, hd⟩, ih h⟩
      · cases h
    · cases h

theorem isDecimal_of_digit? {c : Char} {d : Nat} (hd : digit? c = some d) (h : d < 10) : isDecimal c = true := by
  unfold digit? at hd
  split at hd
  · rename_i hc
    simpa [isDecimal] using hc
  split at hd
  · have := Option.some.inj hd
    omega
  split at hd
  · have := Option.some.inj hd
    omega
  · cases hd

/-- The digits of a decimal spelling. -/
theorem value_decimal (zeros n : Nat) : value 10 (List.replicate zeros '0' ++ Nat.toDigits 10 n) = some n := by
  rw [value, if_neg (by simp [Nat.toDigits_ne_nil]), valueFrom_zeros (by decide), valueFrom_toDigits (by decide) (by decide)]

/-- The digits of a hexadecimal spelling, in either case. -/
theorem value_hexadecimal {zeros n : Nat} {digits : List Char}
    (h : digits.map Char.toLower = List.replicate zeros '0' ++ Nat.toDigits 16 n) :
    digits ≠ [] ∧ valueFrom 16 0 digits = some n := by
  constructor
  · rintro rfl
    exact Nat.toDigits_ne_nil (List.append_eq_nil_iff.mp h.symm).2
  · rw [← valueFrom_map_toLower, h, valueFrom_zeros (by decide), valueFrom_toDigits (by decide) (by decide)]

theorem isDecimal_of_mem_decimal {zeros n : Nat} :
    ∀ c ∈ List.replicate zeros '0' ++ Nat.toDigits 10 n, isDecimal c = true := by
  have hvalue : valueFrom 10 0 (List.replicate zeros '0' ++ Nat.toDigits 10 n) = some n := by
    rw [valueFrom_zeros (by decide), valueFrom_toDigits (by decide) (by decide)]
  intro c hc
  obtain ⟨d, hlt, hd⟩ := digits_of_valueFrom hvalue c hc
  exact isDecimal_of_digit? hd hlt

/-- A spelling of a number is a numeral. -/
theorem Spells.isNumeral {n : Nat} {numeral : List Char} (h : Spells n numeral) : Scan.IsNumeral numeral := by
  obtain ⟨zeros, rfl | ⟨mark, digits, rfl, hmark, hdigits⟩⟩ := h
  · exact .inl ⟨by simp [Nat.toDigits_ne_nil], isDecimal_of_mem_decimal⟩
  · obtain ⟨hne, hvalue⟩ := value_hexadecimal hdigits
    refine .inr ⟨mark, digits, rfl, hmark, hne, fun c hc => ?_⟩
    obtain ⟨d, -, hd⟩ := digits_of_valueFrom hvalue c hc
    rw [isHexadecimal, hd]
    rfl

/-- A number of a word is read from each of its spellings. -/
theorem Spells.read {n : Nat} {numeral : List Char} (h : Spells n numeral) (hn : n < wordLimit) :
    Numeral.read numeral = some n := by
  obtain ⟨zeros, rfl | ⟨mark, digits, rfl, hmark, hdigits⟩⟩ := h
  · rw [read_of_decimal isDecimal_of_mem_decimal, value_decimal]
    simp [hn]
  · obtain ⟨hne, hvalue⟩ := value_hexadecimal hdigits
    rw [read_of_mark hmark, value, if_neg (by simpa using hne), hvalue]
    simp [hn]

end Numeral

/-! ## Keywords -/

/-- A spelling of a keyword: its letters in any mixture of cases. -/
def SpellsWord (word : String) (spelling : List Char) : Prop :=
  spelling.map Char.toLower = word.toList.map Char.toLower

/-- A spelling of a word of letters is a name. -/
theorem SpellsWord.isName {word : String} {spelling : List Char} (h : SpellsWord word spelling) (hne : word.toList ≠ [])
    (hletters : word.toList.all (fun c => c.toLower.isAlpha) = true) : IsName (String.ofList spelling) := by
  have hspelling : ∀ c ∈ spelling, c.isAlpha = true := by
    intro c hc
    have hlower : c.toLower ∈ word.toList.map Char.toLower := h ▸ List.mem_map_of_mem hc
    obtain ⟨d, hd, he⟩ := List.mem_map.mp hlower
    rw [← isAlpha_toLower]
    exact he ▸ List.all_eq_true.mp hletters d hd
  cases spelling with
  | nil => exact absurd (List.map_eq_nil_iff.mp h.symm) hne
  | cons c rest =>
    refine ⟨c, rest, String.toList_ofList, .inl (hspelling c (by simp)), fun d hd => .inl ?_⟩
    simp [Char.isAlphanum, hspelling d (List.mem_cons_of_mem c hd)]

/-- The class is found by every spelling of its name. -/
theorem ofName?_of_spells {f : Frequency} {spelling : List Char} (h : SpellsWord f.name spelling) :
    Frequency.ofName? (String.ofList spelling) = some f := by
  unfold Frequency.ofName?
  rw [String.toList_ofList, h]
  cases f <;> decide

theorem isName_of_spells_frequency {f : Frequency} {spelling : List Char} (h : SpellsWord f.name spelling) :
    IsName (String.ofList spelling) :=
  h.isName (by cases f <;> decide) (by cases f <;> decide)

end MessageCatalog
