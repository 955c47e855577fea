import Mathlib.Data.List.Basic
import MessageCatalog.Proofs.Wire.Bytes
import MessageCatalog.Proofs.Wire.Reading

/-!
# Message identifiers on the wire

An identifier is one byte that is no marker, such a byte behind one marker, or two bytes behind two markers. These rows
are exactly what is read as an identifier, each of them is read as its big-endian number, and no two of them have the
same number. The identifiers that a template can declare are among them.
-/

namespace MessageCatalog.Wire

/-- The rows of bytes that are read as an identifier. -/
inductive IsIdentifier : Bytes → Prop where
  | one {b : UInt8} (h : b ≠ 0xFF) : IsIdentifier [b]
  | two {b : UInt8} (h : b ≠ 0xFF) : IsIdentifier [0xFF, b]
  | four (b c : UInt8) : IsIdentifier [0xFF, 0xFF, b, c]

theorem toNat_eq_marker_iff (b : UInt8) : b.toNat = 0xFF ↔ b = 0xFF := by
  rw [← UInt8.toNat_inj]
  rfl

/-! ## Reading an identifier, byte by byte -/

/-- What is left to read behind two markers. -/
def takeBehindTwoMarkers : Take Nat := do
  let rest ← take 2
  return 0xFFFF0000 + bigEndian rest

/-- What is left to read behind one marker. -/
def takeBehindMarker : Take Nat := do
  let second ← takeNumber 1
  if second ≠ 0xFF then return 0xFF00 + second else takeBehindTwoMarkers

/-- A number is its first byte, unless that is the marker. -/
theorem takeMessageNumber_eq : takeMessageNumber = (do
    let first ← takeNumber 1
    if first ≠ 0xFF then return first else takeBehindMarker) := rfl

theorem framed_takeBehindTwoMarkers : Framed takeBehindTwoMarkers :=
  (framed_take 2).map _

/-- The choice at a byte that may be a marker. -/
theorem framed_atMarker {next : Take Nat} (h : Framed next) (n value : Nat) :
    Framed (if n ≠ 0xFF then pure value else next) := by
  split
  · exact framed_pure _
  · exact h

theorem framed_takeBehindMarker : Framed takeBehindMarker :=
  (framed_takeNumber 1).bind fun second => framed_atMarker framed_takeBehindTwoMarkers second (0xFF00 + second)

theorem framed_takeMessageNumber : Framed takeMessageNumber :=
  (framed_takeNumber 1).bind fun first => framed_atMarker framed_takeBehindMarker first first

/-- A number of one byte is read from that byte. -/
theorem reads_byte_iff {n : Nat} {bytes : Bytes} : Reads (takeNumber 1) bytes n ↔ ∃ b : UInt8, bytes = [b] ∧ n = b.toNat := by
  rw [reads_takeNumber_iff]
  constructor
  · rintro ⟨hlen, rfl⟩
    obtain ⟨b, rfl⟩ := List.length_eq_one_iff.mp hlen
    exact ⟨b, rfl, ofLittleEndian_singleton b⟩
  · rintro ⟨b, rfl, rfl⟩
    exact ⟨rfl, (ofLittleEndian_singleton b).symm⟩

/-- A byte that is no marker ends the identifier; a marker goes on with what stands behind it. -/
theorem reads_atMarker_iff {next : Take Nat} (hnext : Framed next) {value : Nat → Nat} {n : Nat} {bytes : Bytes} :
    Reads (do let first ← takeNumber 1; if first ≠ 0xFF then return value first else next) bytes n ↔
      (∃ b : UInt8, b ≠ 0xFF ∧ bytes = [b] ∧ n = value b.toNat) ∨ ∃ rest, bytes = 0xFF :: rest ∧ Reads next rest n := by
  constructor
  · intro h
    obtain ⟨first, front, rest, rfl, hfront, hrest⟩ :=
      h.of_bind (framed_takeNumber 1) fun first => framed_atMarker hnext first (value first)
    obtain ⟨b, rfl, rfl⟩ := reads_byte_iff.mp hfront
    by_cases hb : b = 0xFF
    · subst hb
      exact Or.inr ⟨rest, rfl, hrest⟩
    · rw [if_pos (mt (toNat_eq_marker_iff b).mp hb)] at hrest
      obtain ⟨rfl, rfl⟩ := reads_pure_iff.mp hrest
      exact Or.inl ⟨b, hb, rfl, rfl⟩
  · rintro (⟨b, hb, rfl, rfl⟩ | ⟨rest, rfl, hrest⟩)
    · have hfirst : Reads (takeNumber 1) [b] b.toNat := reads_byte_iff.mpr ⟨b, rfl, rfl⟩
      rw [← List.append_nil [b]]
      refine hfirst.bind ?_
      rw [if_pos (mt (toNat_eq_marker_iff b).mp hb)]
      exact reads_pure _
    · refine (reads_byte_iff.mpr ⟨0xFF, rfl, rfl⟩).bind ?_
      rw [if_neg (by decide)]
      exact hrest

/-- Behind two markers a number is read of two bytes. -/
theorem reads_takeBehindTwoMarkers_iff {n : Nat} {bytes : Bytes} :
    Reads takeBehindTwoMarkers bytes n ↔ ∃ b c : UInt8, bytes = [b, c] ∧ n = 0xFFFF0000 + bigEndian [b, c] := by
  constructor
  · intro h
    obtain ⟨rest, hrest, rfl⟩ := h.of_map (framed_take 2)
    obtain ⟨hlen, rfl⟩ := reads_take_iff.mp hrest
    obtain ⟨b, c, rfl⟩ := List.length_eq_two.mp hlen
    exact ⟨b, c, rfl, rfl⟩
  · rintro ⟨b, c, rfl, rfl⟩
    have hrest : Reads (take 2) [b, c] [b, c] := reads_take rfl
    exact hrest.map fun rest => 0xFFFF0000 + bigEndian rest

/-! ## What is read as an identifier -/

/-- An identifier is read as its big-endian number, and nothing else is read. -/
theorem reads_takeMessageNumber_iff {n : Nat} {bytes : Bytes} :
    Reads takeMessageNumber bytes n ↔ IsIdentifier bytes ∧ n = bigEndian bytes := by
  rw [takeMessageNumber_eq, reads_atMarker_iff framed_takeBehindMarker]
  unfold takeBehindMarker
  rw [exists_congr fun rest => and_congr_right' (reads_atMarker_iff framed_takeBehindTwoMarkers)]
  constructor
  · rintro (⟨b, hb, rfl, rfl⟩ | ⟨rest, rfl, ⟨b, hb, rfl, rfl⟩ | ⟨rest', rfl, hrest⟩⟩)
    · exact ⟨.one hb, by simp [bigEndian]⟩
    · exact ⟨.two hb, by simp [bigEndian]⟩
    · obtain ⟨b, c, rfl, rfl⟩ := reads_takeBehindTwoMarkers_iff.mp hrest
      exact ⟨.four b c, by simp [bigEndian]; omega⟩
  · rintro ⟨hid, rfl⟩
    cases hid with
    | @one b hb => exact Or.inl ⟨b, hb, rfl, by simp [bigEndian]⟩
    | @two b hb => exact Or.inr ⟨_, rfl, Or.inl ⟨b, hb, rfl, by simp [bigEndian]⟩⟩
    | four b c =>
      refine Or.inr ⟨_, rfl, Or.inr ⟨_, rfl, reads_takeBehindTwoMarkers_iff.mpr ⟨b, c, rfl, ?_⟩⟩⟩
      simp [bigEndian]
      omega

/-- A row read from its other end is little-endian. -/
theorem bigEndian_eq (bytes : Bytes) : bigEndian bytes = ofLittleEndian bytes.reverse := by
  have hfold : ∀ rest : Bytes, ofLittleEndian rest = rest.foldr (fun b acc => acc * 256 + b.toNat) 0 := by
    intro rest
    induction rest with
    | nil => rfl
    | cons b rest ih =>
      simp only [ofLittleEndian, List.foldr_cons, ← ih]
      omega
  rw [bigEndian, List.foldl_eq_foldr_reverse, hfold]

/-- Rows of the same length and the same big-endian number are the same. -/
theorem eq_of_bigEndian_eq {p q : Bytes} (hlen : p.length = q.length) (h : bigEndian p = bigEndian q) : p = q := by
  have hp := littleEndian_ofLittleEndian p.reverse
  have hq := littleEndian_ofLittleEndian q.reverse
  rw [← bigEndian_eq, List.length_reverse] at hp hq
  rw [← List.reverse_inj, ← hp, ← hq, h, hlen]

/-- The number of an identifier tells its length. -/
theorem IsIdentifier.length_eq_of_number_eq {p q : Bytes} (hp : IsIdentifier p) (hq : IsIdentifier q)
    (h : bigEndian p = bigEndian q) : p.length = q.length := by
  have hlt : ∀ b : UInt8, b.toNat < 256 := fun b => b.toNat_lt
  cases hp with
  | @one b _ =>
    have := hlt b
    cases hq <;> simp [bigEndian] at h ⊢ <;> omega
  | @two b _ =>
    have := hlt b
    cases hq with
    | @one b' _ => have := hlt b'; simp [bigEndian] at h; omega
    | two _ => rfl
    | four b' c' => simp [bigEndian] at h; omega
  | four b c =>
    cases hq with
    | @one b' _ => have := hlt b'; simp [bigEndian] at h; omega
    | @two b' _ => have := hlt b'; simp [bigEndian] at h; omega
    | four _ _ => rfl

/-- Identifiers of the same number are the same. -/
theorem IsIdentifier.eq_of_number_eq {p q : Bytes} (hp : IsIdentifier p) (hq : IsIdentifier q)
    (h : bigEndian p = bigEndian q) : p = q :=
  eq_of_bigEndian_eq (hp.length_eq_of_number_eq hq h) h

/-- A byte made of a number below the marker is no marker. -/
theorem ofNat_ne_marker {n : Nat} (h : n ≤ 0xFE) : UInt8.ofNat n ≠ 0xFF := by
  rw [ne_eq, ← toNat_eq_marker_iff, UInt8.toNat_ofNat']
  omega

/-- A byte made of a number whose lowest byte is the marker is the marker. -/
theorem ofNat_eq_marker {n : Nat} (h : n % 256 = 0xFF) : UInt8.ofNat n = 0xFF := by
  rw [← toNat_eq_marker_iff, UInt8.toNat_ofNat']
  exact h

/-- The identifier of an id that a template can declare is read as an identifier. -/
theorem isIdentifier_identifier {f : Frequency} {id : Nat} (h : f.Declarable id) : IsIdentifier (f.identifier id) := by
  obtain ⟨hmin, hmax⟩ := h
  cases f with
  | high => exact .one (ofNat_ne_marker hmax)
  | medium => exact .two (ofNat_ne_marker hmax)
  | low => exact .four _ _
  | fixed =>
    simp only [Frequency.minId, Frequency.maxId] at hmin hmax
    rw [Frequency.identifier, ofNat_eq_marker (by omega), ofNat_eq_marker (by omega)]
    exact .four _ _

/-- A message whose id is declarable is announced by its identifier. -/
theorem reads_identifier {m : Message} (h : m.frequency.Declarable m.id) : Reads takeMessageNumber m.identifier m.number :=
  reads_takeMessageNumber_iff.mpr ⟨isIdentifier_identifier h, rfl⟩

/-- Only its identifier is read as the number of a message whose id is declarable. -/
theorem eq_identifier_of_reads {m : Message} (h : m.frequency.Declarable m.id) {bytes : Bytes}
    (hr : Reads takeMessageNumber bytes m.number) : bytes = m.identifier := by
  obtain ⟨hid, hn⟩ := reads_takeMessageNumber_iff.mp hr
  exact hid.eq_of_number_eq (isIdentifier_identifier h) hn.symm

end MessageCatalog.Wire
