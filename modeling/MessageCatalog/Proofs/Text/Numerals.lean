import Mathlib.Data.Nat.Digits.Defs
import MessageCatalog.Proofs.Source.Scanning
import MessageCatalog.Proofs.Text.Capitals

/-!
# Numerals of any length

A numeral is read digit by digit in the arithmetic of a 32-bit word, with a check at every product and every sum. Main
statement: what is read is the number that the digits denote by their positions, and nothing is read exactly if a word
does not hold that number. One step of the loop is exact or refuses (`putDigit_eq`). A refusal is final, since digits
never make a number smaller (`le_of_valueFrom`), so the loop as a whole is the exact reading, cut off at the limit
(`map_wordFrom`).
-/

namespace MessageCatalog

/-! ## Upper and lower case -/

/-- A digit in lower case is the same digit. -/
theorem digit?_toLower (c : Char) : Numeral.digit? c.toLower = Numeral.digit? c := by
  rcases toLower_eq_self_or_mem c with h | h
  · rw [h]
  · have hcapitals : capitals.all (fun c => Numeral.digit? c.toLower == Numeral.digit? c) = true := by decide
    exact eq_of_beq (List.all_eq_true.mp hcapitals c h)

namespace Numeral

/-! ## Digits -/

/-- A character of a range is in a list that has all of the range. -/
theorem mem_of_between {a b c : Char} (h : a ≤ c ∧ c ≤ b) {chars : List Char}
    (hall : ((List.range (b.toNat + 1 - a.toNat)).map fun n => Char.ofNat (a.toNat + n)).all chars.contains = true) :
    c ∈ chars := by
  have hlow : a.toNat ≤ c.toNat := h.1
  have hhigh : c.toNat ≤ b.toNat := h.2
  have hplace : a.toNat + (c.toNat - a.toNat) = c.toNat := by omega
  have hc : c ∈ (List.range (b.toNat + 1 - a.toNat)).map fun n => Char.ofNat (a.toNat + n) :=
    List.mem_map.mpr ⟨c.toNat - a.toNat, List.mem_range.mpr (by omega), by rw [hplace, Char.ofNat_toNat]⟩
  exact List.contains_iff_mem.mp (List.all_eq_true.mp hall c hc)

/-- The digits of either base, in either case. -/
def digitChars : List Char :=
  "0123456789abcdefABCDEF".toList

/-- Only a digit has a value. -/
theorem mem_digitChars {c : Char} {d : Nat} (h : digit? c = some d) : c ∈ digitChars := by
  unfold digit? at h
  split at h
  · exact mem_of_between ‹_› (by decide)
  split at h
  · exact mem_of_between ‹_› (by decide)
  split at h
  · exact mem_of_between ‹_› (by decide)
  · cases h

/-- The digit of a value has that value. -/
theorem digit?_digitChar {d : Nat} (h : d < 16) : digit? d.digitChar = some d := by
  interval_cases d <;> rfl

/-- A digit is, in lower case, the one that its value is written with. -/
theorem toLower_eq_digitChar {c : Char} {d : Nat} (h : digit? c = some d) : d < 16 ∧ c.toLower = d.digitChar := by
  have hall : digitChars.all (fun c => (digit? c).all fun d => d < 16 && c.toLower == d.digitChar) = true := by decide
  simpa [h] using List.all_eq_true.mp hall c (mem_digitChars h)

/-- A decimal digit is the one that a value below ten is written with. -/
theorem isDecimal_iff {c : Char} : isDecimal c = true ↔ ∃ d < 10, c = d.digitChar := by
  constructor
  · intro h
    have hrange : '0' ≤ c ∧ c ≤ '9' := by simpa [isDecimal] using h
    have hc : c ∈ (List.range 10).map Nat.digitChar := mem_of_between hrange (by decide)
    obtain ⟨d, hd, rfl⟩ := List.mem_map.mp hc
    exact ⟨d, List.mem_range.mp hd, rfl⟩
  · rintro ⟨d, hd, rfl⟩
    interval_cases d <;> rfl

/-- A hexadecimal digit is, in lower case, the one that a value below sixteen is written with. -/
theorem isHexadecimal_iff {c : Char} : isHexadecimal c = true ↔ ∃ d < 16, c.toLower = d.digitChar := by
  rw [isHexadecimal, Option.isSome_iff_exists]
  constructor
  · rintro ⟨d, hd⟩
    exact ⟨d, toLower_eq_digitChar hd⟩
  · rintro ⟨d, hd, hc⟩
    exact ⟨d, by rw [← digit?_toLower, hc, digit?_digitChar hd]⟩

/-- Characters that each write a value write a row of values. -/
theorem exists_values {base : Nat} {digits : List Char} (h : ∀ c ∈ digits, ∃ d < base, c = d.digitChar) :
    ∃ values : List Nat, (∀ d ∈ values, d < base) ∧ digits = values.map Nat.digitChar := by
  induction digits with
  | nil => exact ⟨[], by simp, rfl⟩
  | cons c digits ih =>
    obtain ⟨⟨d, hd, rfl⟩, hrest⟩ := List.forall_mem_cons.mp h
    obtain ⟨values, hvalues, rfl⟩ := ih hrest
    exact ⟨d :: values, List.forall_mem_cons.mpr ⟨hd, hvalues⟩, rfl⟩

theorem isDecimal_of_values {values : List Nat} (h : ∀ d ∈ values, d < 10) :
    ∀ c ∈ values.map Nat.digitChar, isDecimal c = true := by
  intro c hc
  obtain ⟨d, hd, rfl⟩ := List.mem_map.mp hc
  exact isDecimal_iff.mpr ⟨d, h d hd, rfl⟩

theorem ne_nil_of_values {digits : List Char} {values : List Nat} (hne : values ≠ [])
    (hdigits : digits.map Char.toLower = values.map Nat.digitChar) : digits ≠ [] := by
  rintro rfl
  exact hne (List.map_eq_nil_iff.mp hdigits.symm)

/-! ## The exact value of a row of digits -/

/-- The value of two rows of digits goes on from that of the first one. -/
theorem valueFrom_append (base acc : Nat) (front back : List Char) :
    valueFrom base acc (front ++ back) = (valueFrom base acc front).bind fun value => valueFrom base value back := by
  induction front generalizing acc with
  | nil => rfl
  | cons c front ih =>
    simp only [List.cons_append, valueFrom]
    split
    · split
      · exact ih _
      · rfl
    · rfl

/-- Upper or lower case does not matter for the value. -/
theorem valueFrom_map_toLower (base acc : Nat) (digits : List Char) :
    valueFrom base acc (digits.map Char.toLower) = valueFrom base acc digits := by
  induction digits generalizing acc with
  | nil => rfl
  | cons c digits ih => simp only [List.map_cons, valueFrom, digit?_toLower, ih]

/-- The digits of some values have the value that these make by their positions, behind what was read before. -/
theorem valueFrom_map_digitChar {base acc : Nat} (hbase : base ≤ 16) {values : List Nat} (h : ∀ d ∈ values, d < base) :
    valueFrom base acc (values.map Nat.digitChar) = some (acc * base ^ values.length + Nat.ofDigits base values.reverse) := by
  induction values generalizing acc with
  | nil => simp [valueFrom]
  | cons d values ih =>
    obtain ⟨hd, hvalues⟩ := List.forall_mem_cons.mp h
    rw [List.map_cons, valueFrom, digit?_digitChar (Nat.lt_of_lt_of_le hd hbase)]
    simp only [if_pos hd, ih hvalues, Nat.ofDigits_reverse_cons, List.length_cons, pow_succ]
    congr 1
    ring

/-- Digits never make a number smaller. -/
theorem le_of_valueFrom {base acc value : Nat} (hbase : 0 < base) {digits : List Char}
    (h : valueFrom base acc digits = some value) : acc ≤ value := by
  induction digits generalizing acc with
  | nil => exact Nat.le_of_eq (Option.some.inj h)
  | cons c digits ih =>
    unfold valueFrom at h
    split at h
    · split at h
      · calc
          acc ≤ acc * base := Nat.le_mul_of_pos_right acc hbase
          _ ≤ acc * base + _ := Nat.le_add_right _ _
          _ ≤ value := ih h
      · cases h
    · cases h

/-! ## Arithmetic of words -/

/-- A digit is put behind a word exactly, or not at all if a word does not hold the result. -/
theorem putDigit_eq {base acc : UInt32} {d : Nat} (hd : d < base.toNat) :
    (mulWord? acc base).bind (addWord? · (UInt32.ofNat d)) =
      if acc.toNat * base.toNat + d < wordLimit then some (UInt32.ofNat (acc.toNat * base.toNat + d)) else none := by
  have hdigit : (UInt32.ofNat d).toNat = d := UInt32.toNat_ofNat_of_lt' (Nat.lt_trans hd base.toNat_lt)
  unfold mulWord?
  split
  · rename_i hproduct
    have hword : (acc * base).toNat = acc.toNat * base.toNat := by
      rw [UInt32.toNat_mul]
      exact Nat.mod_eq_of_lt hproduct
    rw [Option.bind_some, addWord?, hword, hdigit]
    split
    · rw [UInt32.ofNat_add, ← hword, UInt32.ofNat_toNat]
    · rfl
  · rename_i hproduct
    rw [Option.bind_none, if_neg (by omega)]

/-- Reading in words is reading exactly, cut off at the limit: where a step refuses, the number has outgrown a word for good. -/
theorem map_wordFrom {base acc : UInt32} (hbase : 0 < base.toNat) (digits : List Char) :
    (wordFrom base acc digits).map UInt32.toNat = (valueFrom base.toNat acc.toNat digits).filter (· < wordLimit) := by
  induction digits generalizing acc with
  | nil =>
    have hacc : acc.toNat < wordLimit := acc.toNat_lt
    rw [wordFrom, valueFrom, Option.map_some, Option.filter_some, if_pos (decide_eq_true hacc)]
  | cons c digits ih =>
    rw [wordFrom, valueFrom]
    cases hc : digit? c with
    | none => rfl
    | some d =>
      simp only
      by_cases hd : d < base.toNat
      · rw [if_pos hd, if_pos hd, putDigit_eq hd]
        split
        · rename_i hfits
          rw [Option.bind_some, ih, UInt32.toNat_ofNat_of_lt' hfits]
        · rename_i hlarge
          -- the exact reading goes on, but never falls below the limit again
          rw [Option.bind_none, Option.map_none, eq_comm, Option.filter_eq_none_iff]
          intro value hvalue
          have hle := le_of_valueFrom hbase hvalue
          simp only [decide_eq_true_eq]
          omega
      · rw [if_neg hd, if_neg hd]
        rfl

/-- The word of a row of digits is its value, if that is below the limit. -/
theorem map_word {base : UInt32} (hbase : 0 < base.toNat) (digits : List Char) :
    (word base digits).map UInt32.toNat = (value base.toNat digits).filter (· < wordLimit) := by
  unfold word value
  split
  · rfl
  · exact map_wordFrom hbase digits

/-- A numeral of decimal digits is read in decimal: it has no mark. -/
theorem read_of_decimal {numeral : List Char} (h : ∀ c ∈ numeral, isDecimal c = true) :
    read numeral = (value 10 numeral).filter (· < wordLimit) := by
  unfold read
  split
  · exact absurd (h 'x' (by simp)) (by decide)
  · exact absurd (h 'X' (by simp)) (by decide)
  · exact map_word (by decide) numeral

/-- A numeral with a mark is read in hexadecimal. -/
theorem read_of_mark {mark : Char} (hmark : mark = 'x' ∨ mark = 'X') (digits : List Char) :
    read ('0' :: mark :: digits) = (value 16 digits).filter (· < wordLimit) := by
  have hword := map_word (show 0 < (16 : UInt32).toNat by decide) digits
  rcases hmark with rfl | rfl <;> exact hword

/-! ## The number of a numeral -/

/-- The number that a numeral denotes: the values of its digits make it by their positions, the last digit counting
once. A decimal numeral is a row of decimal digits, and a hexadecimal one has digits of either case behind its mark.
Zeros in front are digits like all others. -/
inductive Denotes : List Char → Nat → Prop where
  | decimal {values : List Nat} (hne : values ≠ []) (hvalues : ∀ d ∈ values, d < 10) :
      Denotes (values.map Nat.digitChar) (Nat.ofDigits 10 values.reverse)
  | hexadecimal {mark : Char} {digits : List Char} {values : List Nat} (hmark : mark = 'x' ∨ mark = 'X') (hne : values ≠ [])
      (hvalues : ∀ d ∈ values, d < 16) (hdigits : digits.map Char.toLower = values.map Nat.digitChar) :
      Denotes ('0' :: mark :: digits) (Nat.ofDigits 16 values.reverse)

/-- What denotes a number is a numeral. -/
theorem Denotes.isNumeral {numeral : List Char} {n : Nat} (h : Denotes numeral n) : Scan.IsNumeral numeral := by
  cases h with
  | @decimal values hne hvalues =>
    exact .inl ⟨by simpa using hne, isDecimal_of_values hvalues⟩
  | @hexadecimal mark digits values hmark hne hvalues hdigits =>
    refine .inr ⟨mark, digits, rfl, hmark, ne_nil_of_values hne hdigits, ?_⟩
    intro c hc
    have hlower : c.toLower ∈ values.map Nat.digitChar := hdigits ▸ List.mem_map_of_mem hc
    obtain ⟨d, hd, he⟩ := List.mem_map.mp hlower
    exact isHexadecimal_iff.mpr ⟨d, hvalues d hd, he.symm⟩

/-- Every numeral denotes a number, however long it is. -/
theorem exists_denotes {numeral : List Char} (h : Scan.IsNumeral numeral) : ∃ n, Denotes numeral n := by
  rcases h with ⟨hne, hdigits⟩ | ⟨mark, digits, rfl, hmark, hne, hdigits⟩
  · obtain ⟨values, hvalues, rfl⟩ := exists_values fun c hc => isDecimal_iff.mp (hdigits c hc)
    exact ⟨_, .decimal (by simpa using hne) hvalues⟩
  · have hlower : ∀ c ∈ digits.map Char.toLower, ∃ d < 16, c = d.digitChar :=
      List.forall_mem_map.mpr fun c hc => isHexadecimal_iff.mp (hdigits c hc)
    obtain ⟨values, hvalues, hlower⟩ := exists_values hlower
    refine ⟨_, .hexadecimal hmark ?_ hvalues hlower⟩
    rintro rfl
    exact hne (List.map_eq_nil_iff.mp hlower)

/-- The digits of a numeral make the number that it denotes, and a word holds that or not. -/
theorem Denotes.read {numeral : List Char} {n : Nat} (h : Denotes numeral n) :
    Numeral.read numeral = (some n).filter (· < wordLimit) := by
  cases h with
  | @decimal values hne hvalues =>
    rw [read_of_decimal (isDecimal_of_values hvalues), value, if_neg (by simpa using hne),
      valueFrom_map_digitChar (by decide) hvalues, Nat.zero_mul, Nat.zero_add]
  | @hexadecimal mark digits values hmark hne hvalues hdigits =>
    have hrow : digits ≠ [] := ne_nil_of_values hne hdigits
    rw [read_of_mark hmark, value, if_neg (by simpa using hrow), ← valueFrom_map_toLower, hdigits,
      valueFrom_map_digitChar (Nat.le_refl 16) hvalues, Nat.zero_mul, Nat.zero_add]

/-- The texts that are found as numerals are those that denote a number. From such a text, of whatever length, that
number is read if it is below the limit of 32 bits, and otherwise nothing is. -/
theorem numerals_read_exactly (numeral : List Char) :
    ((∃ text rest, Scan.number? text = some (numeral, rest)) ↔ ∃ n, Denotes numeral n) ∧
      ∀ n, Denotes numeral n → read numeral = if n < 2 ^ 32 then some n else none := by
  refine ⟨⟨?_, ?_⟩, ?_⟩
  · rintro ⟨text, rest, h⟩
    exact exists_denotes (Scan.number?_eq_some_iff.mp h).2.1
  · rintro ⟨n, h⟩
    exact ⟨numeral, [], Scan.number?_eq_some_iff.mpr ⟨(List.append_nil numeral).symm, h.isNumeral, rfl⟩⟩
  · intro n h
    rw [h.read, Option.filter_some]
    simp only [decide_eq_true_eq]
    rfl

/-- The largest number of a word is read behind a zero, with digits of either case, and the number behind it is not. -/
theorem numerals_read_exactly_at_limit :
    Denotes ['0', 'X', '0', 'f', 'F', 'f', 'F', 'f', 'F', 'f', 'F'] 4294967295 ∧
      read ['0', 'X', '0', 'f', 'F', 'f', 'F', 'f', 'F', 'f', 'F'] = some 4294967295 ∧
      Denotes ['4', '2', '9', '4', '9', '6', '7', '2', '9', '6'] 4294967296 ∧
      read ['4', '2', '9', '4', '9', '6', '7', '2', '9', '6'] = none := by
  have hlargest : Denotes ['0', 'X', '0', 'f', 'F', 'f', 'F', 'f', 'F', 'f', 'F'] 4294967295 :=
    @Denotes.hexadecimal 'X' _ [0, 15, 15, 15, 15, 15, 15, 15, 15] (.inr rfl) (by decide) (by decide) (by decide)
  have hnext : Denotes ['4', '2', '9', '4', '9', '6', '7', '2', '9', '6'] 4294967296 :=
    @Denotes.decimal [4, 2, 9, 4, 9, 6, 7, 2, 9, 6] (by decide) (by decide)
  exact ⟨hlargest, (numerals_read_exactly _).2 _ hlargest, hnext, (numerals_read_exactly _).2 _ hnext⟩

end Numeral

end MessageCatalog
