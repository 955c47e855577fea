import MessageCatalog.Wire.Bytes

/-!
# Rows of bytes and the numbers they stand for

A little-endian row of some width and the number it stands for determine each other: every number of the width comes back from its
row, and every row comes back from its number. The same holds of two's complement over the numbers of its range.
-/

namespace MessageCatalog.Wire

/-- A little-endian row has its width. -/
@[simp] theorem length_littleEndian (width n : Nat) : (littleEndian width n).length = width := by
  induction width generalizing n with
  | zero => rfl
  | succ width ih => simp [littleEndian, ih]

@[simp] theorem span_zero : span 0 = 1 := rfl

theorem span_succ (width : Nat) : span (width + 1) = span width * 256 :=
  Nat.pow_succ 256 width

theorem span_pos (width : Nat) : 0 < span width := by
  induction width with
  | zero => decide
  | succ width ih =>
    rw [span_succ]
    omega

/-- A row stands for a number of its width. -/
theorem ofLittleEndian_lt_span (bytes : Bytes) : ofLittleEndian bytes < span bytes.length := by
  induction bytes with
  | nil => decide
  | cons b rest ih =>
    have hb := b.toNat_lt
    simp only [ofLittleEndian, List.length_cons, span_succ] at ih ⊢
    omega

/-- A number that fits the width comes back from its row. -/
theorem ofLittleEndian_littleEndian {width n : Nat} (h : n < span width) :
    ofLittleEndian (littleEndian width n) = n := by
  induction width generalizing n with
  | zero =>
    rw [span_zero, Nat.lt_one_iff] at h
    simp [littleEndian, ofLittleEndian, h]
  | succ width ih =>
    have hq : n / 256 < span width := by
      rw [span_succ] at h
      omega
    simp only [littleEndian, ofLittleEndian, ih hq, UInt8.toNat_ofNat']
    omega

/-- A row comes back from the number it stands for. -/
theorem littleEndian_ofLittleEndian (bytes : Bytes) : littleEndian bytes.length (ofLittleEndian bytes) = bytes := by
  induction bytes with
  | nil => rfl
  | cons b rest ih =>
    have hb := b.toNat_lt
    have hlow : UInt8.ofNat (b.toNat + 256 * ofLittleEndian rest) = b := by
      apply UInt8.toNat_inj.mp
      rw [UInt8.toNat_ofNat']
      omega
    have hhigh : (b.toNat + 256 * ofLittleEndian rest) / 256 = ofLittleEndian rest := by omega
    simp only [List.length_cons, ofLittleEndian, littleEndian, hlow, hhigh, ih]

/-- A row of one byte stands for the byte. -/
@[simp] theorem ofLittleEndian_singleton (b : UInt8) : ofLittleEndian [b] = b.toNat := by
  simp [ofLittleEndian]

/-- The range of two's complement in some bytes. -/
def InSignedRange (width : Nat) (z : Int) : Prop :=
  -(span width : Int) ≤ 2 * z ∧ 2 * z < span width

theorem toTwosComplement_lt_span (width : Nat) (z : Int) : toTwosComplement width z < span width := by
  have hpos : (0 : Int) < span width := by exact_mod_cast span_pos width
  have h1 := Int.emod_nonneg z (Int.ne_of_gt hpos)
  have h2 := Int.emod_lt_of_pos z hpos
  simp only [toTwosComplement]
  omega

/-- The pattern of a number of the range: the number itself, or the number behind one turn of the span if it is negative. -/
theorem toTwosComplement_eq {width : Nat} {z : Int} (h : InSignedRange width z) :
    (toTwosComplement width z : Int) = if 0 ≤ z then z else z + span width := by
  obtain ⟨hlow, hhigh⟩ := h
  unfold toTwosComplement
  split
  · rw [Int.emod_eq_of_lt (by omega) (by omega)]
    omega
  · rw [← Int.add_emod_right, Int.emod_eq_of_lt (by omega) (by omega)]
    omega

/-- A number of the range comes back from its pattern. -/
theorem ofTwosComplement_toTwosComplement {width : Nat} {z : Int} (h : InSignedRange width z) :
    ofTwosComplement width (toTwosComplement width z) = z := by
  have hpattern := toTwosComplement_eq h
  obtain ⟨hlow, hhigh⟩ := h
  unfold ofTwosComplement
  split at hpattern <;> split <;> omega

/-- Every pattern stands for a number of the range. -/
theorem ofTwosComplement_inSignedRange {width n : Nat} (h : n < span width) :
    InSignedRange width (ofTwosComplement width n) := by
  unfold InSignedRange ofTwosComplement
  split <;> omega

/-- A pattern comes back from the number it stands for. -/
theorem toTwosComplement_ofTwosComplement {width n : Nat} (h : n < span width) :
    toTwosComplement width (ofTwosComplement width n) = n := by
  unfold toTwosComplement ofTwosComplement
  split
  · rw [Int.emod_eq_of_lt (by omega) (by omega)]
    omega
  · rw [← Int.add_emod_right, Int.sub_add_cancel, Int.emod_eq_of_lt (by omega) (by omega)]
    omega

end MessageCatalog.Wire
