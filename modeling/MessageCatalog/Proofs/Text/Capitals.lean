import Mathlib.Tactic.IntervalCases

/-!
# Capitals and small letters

A character is its own lower case unless it is a capital, and there are only few capitals. So what holds of the lower
case of every character is settled by a check of them.
-/

namespace MessageCatalog

/-- The letters that have a lower case. -/
def capitals : List Char :=
  "ABCDEFGHIJKLMNOPQRSTUVWXYZ".toList

/-- The capitals are all there are from the first to the last. -/
theorem mem_capitals_of_range {c : Char} (hlow : 65 ≤ c.toNat) (hhigh : c.toNat ≤ 90) : c ∈ capitals := by
  rw [← Char.ofNat_toNat c]
  interval_cases c.toNat <;> decide

/-- The capitals are the letters in upper case. -/
theorem isUpper_iff_mem_capitals {c : Char} : c.isUpper = true ↔ c ∈ capitals := by
  constructor
  · intro h
    change decide (c.val ≥ 'A'.val ∧ c.val ≤ 'Z'.val) = true at h
    obtain ⟨hlow, hhigh⟩ : 65 ≤ c.toNat ∧ c.toNat ≤ 90 := by simpa [UInt32.le_iff_toNat_le] using h
    exact mem_capitals_of_range hlow hhigh
  · have hcapitals : capitals.all Char.isUpper = true := by decide
    exact List.all_eq_true.mp hcapitals c

/-- A character is its own lower case unless it is a capital. -/
theorem toLower_eq_self_or_mem (c : Char) : c.toLower = c ∨ c ∈ capitals := by
  unfold Char.toLower
  split
  · rename_i h
    obtain ⟨hlow, hhigh⟩ : 65 ≤ c.toNat ∧ c.toNat ≤ 90 := by simpa [UInt32.le_iff_toNat_le] using h
    exact .inr (mem_capitals_of_range hlow hhigh)
  · exact .inl rfl

/-- A character in lower case is a letter if it is one. -/
theorem isAlpha_toLower (c : Char) : c.toLower.isAlpha = c.isAlpha := by
  rcases toLower_eq_self_or_mem c with hself | hmem
  · rw [hself]
  · have hcapitals : capitals.all (fun c => c.toLower.isAlpha == c.isAlpha) = true := by decide
    exact eq_of_beq (List.all_eq_true.mp hcapitals c hmem)

/-- No character in lower case is a capital. -/
theorem isUpper_toLower (c : Char) : c.toLower.isUpper = false := by
  have hcapitals : capitals.all (fun c => !c.toLower.isUpper) = true := by decide
  rcases toLower_eq_self_or_mem c with hself | hmem
  · by_contra hupper
    rw [hself, Bool.not_eq_false, isUpper_iff_mem_capitals] at hupper
    have hlower := List.all_eq_true.mp hcapitals c hupper
    rw [hself, isUpper_iff_mem_capitals.mpr hupper] at hlower
    cases hlower
  · have hlower := List.all_eq_true.mp hcapitals c hmem
    rwa [Bool.not_eq_true'] at hlower

/-- A capital is a letter, and so a letter or a digit. -/
theorem isAlphanum_of_isUpper {c : Char} (h : c.isUpper = true) : c.isAlphanum = true := by
  delta Char.isAlphanum Char.isAlpha
  simp only [h, Bool.true_or]

/-- A character that is no letter is the lower case of itself only. -/
theorem toLower_eq_iff {c d : Char} (hd : d.isAlpha = false) : c.toLower = d ↔ c = d := by
  rcases toLower_eq_self_or_mem c with hself | hmem
  · rw [hself]
  · have hcapitals : capitals.all Char.isAlpha = true := by decide
    have hc : c.isAlpha = true := List.all_eq_true.mp hcapitals c hmem
    constructor
    · rintro rfl
      rw [isAlpha_toLower, hc] at hd
      cases hd
    · rintro rfl
      rw [hc] at hd
      cases hd

end MessageCatalog
