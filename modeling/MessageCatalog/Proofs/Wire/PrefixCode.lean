import Mathlib.Logic.ExistsUnique
import MessageCatalog.Proofs.Wire.Truncation

/-!
# Identifiers are a prefix code

The identifiers that templates can declare are a prefix code: none is the front of another one. Two declarations have
the same identifier exactly if they have the same number, and but for a declaration itself that happens only between a
Low id and the Fixed id behind the same two markers. Every row of bytes starts with the identifier of one declaration,
which is what is read from it, or ends inside such an identifier, and then it is taken whole and reading fails.
-/

namespace MessageCatalog.Wire

/-! ## Exact reads and prefixes -/

/-- Of two rows that are read exactly, one is the front of the other only if they are the same. -/
theorem Reads.eq_of_isPrefix {ε α : Type} {reader : EStateM ε Source α} {p q : Bytes} {a b : α} (hp : Reads reader p a)
    (hq : Reads reader q b) (h : p <+: q) : p = q := by
  obtain ⟨tail, rfl⟩ := h
  have hback := hq [] .ended
  rw [List.append_nil, hp tail .ended] at hback
  obtain ⟨-, hsource⟩ := EStateM.Result.ok.inj hback
  obtain rfl : tail = [] := congrArg Source.pending hsource
  rw [List.append_nil]

/-- No identifier is the front of another one. -/
theorem IsIdentifier.eq_of_isPrefix {p q : Bytes} (hp : IsIdentifier p) (hq : IsIdentifier q) (h : p <+: q) : p = q := by
  have hreadp := reads_takeMessageNumber_iff.mpr ⟨hp, rfl⟩
  have hreadq := reads_takeMessageNumber_iff.mpr ⟨hq, rfl⟩
  exact hreadp.eq_of_isPrefix hreadq h

/-- The bytes are the front of an identifier that goes on behind them. -/
def EndsInside (bytes identifier : Bytes) : Prop :=
  bytes <+: identifier ∧ bytes ≠ identifier

/-- Bytes that end inside an identifier are its front. -/
theorem EndsInside.eq_take {bytes identifier : Bytes} (h : EndsInside bytes identifier) :
    bytes.length < identifier.length ∧ bytes = identifier.take bytes.length := by
  obtain ⟨hfront, hne⟩ := h
  refine ⟨?_, List.prefix_iff_eq_take.mp hfront⟩
  rcases Nat.lt_or_eq_of_le hfront.length_le with hlt | heq
  · exact hlt
  · exact absurd (hfront.eq_of_length heq) hne

/-- A row of bytes starts with an identifier or ends inside one. -/
theorem identifier_or_endsInside (bytes : Bytes) :
    (∃ front tail, IsIdentifier front ∧ bytes = front ++ tail) ∨
      ∃ identifier, IsIdentifier identifier ∧ EndsInside bytes identifier := by
  rcases bytes with _ | ⟨b, rest⟩
  · exact .inr ⟨[0], .one (by decide), by simp [EndsInside]⟩
  by_cases hb : b = 0xFF
  swap
  · exact .inl ⟨[b], rest, .one hb, rfl⟩
  subst hb
  rcases rest with _ | ⟨c, rest⟩
  · exact .inr ⟨[0xFF, 0], .two (by decide), by simp [EndsInside]⟩
  by_cases hc : c = 0xFF
  swap
  · exact .inl ⟨[0xFF, c], rest, .two hc, rfl⟩
  subst hc
  rcases rest with _ | ⟨d, _ | ⟨e, rest⟩⟩
  · exact .inr ⟨[0xFF, 0xFF, 0, 0], .four 0 0, by simp [EndsInside]⟩
  · exact .inr ⟨[0xFF, 0xFF, d, 0], .four d 0, by simp [EndsInside]⟩
  · exact .inl ⟨[0xFF, 0xFF, d, e], rest, .four d e, rfl⟩

/-- Bytes that end inside an identifier are taken whole, and reading fails with the fault of the source. -/
theorem takeMessageNumber_of_endsInside {bytes identifier : Bytes} (hid : IsIdentifier identifier)
    (h : EndsInside bytes identifier) (fault : SourceFault) :
    takeMessageNumber ⟨bytes, fault⟩ = .error fault ⟨[], fault⟩ := by
  obtain ⟨hlt, heq⟩ := h.eq_take
  have hread := reads_takeMessageNumber_iff.mpr ⟨hid, rfl⟩
  rw [heq]
  exact strict_takeMessageNumber identifier _ hread bytes.length hlt fault

/-! ## Declarations -/

/-- A frequency class, and an id that a template can declare in it. -/
@[ext] structure Declaration where
  frequency : Frequency
  id : Nat
  declarable : frequency.Declarable id
  deriving DecidableEq

namespace Declaration

/-- The identifier of a message that is declared so. -/
def identifier (d : Declaration) : Bytes :=
  d.frequency.identifier d.id

/-- The number of a message that is declared so. -/
def number (d : Declaration) : Nat :=
  bigEndian d.identifier

/-- A Low id and a Fixed id of the same four bytes. -/
def IsLowOf (d e : Declaration) : Prop :=
  d.frequency = .low ∧ e.frequency = .fixed ∧ e.id = 0xFFFF0000 + d.id

/-- A declaration has an identifier. -/
theorem isIdentifier (d : Declaration) : IsIdentifier d.identifier :=
  isIdentifier_identifier d.declarable

/-- The number of a declaration is read of its identifier. -/
theorem reads (d : Declaration) : Reads takeMessageNumber d.identifier d.number :=
  reads_takeMessageNumber_iff.mpr ⟨d.isIdentifier, rfl⟩

/-- The four classes of declarations, with the number of each and the range of its id. -/
theorem number_cases (d : Declaration) :
    (d.frequency = .high ∧ d.number = d.id ∧ d.id ≤ 0xFE) ∨
      (d.frequency = .medium ∧ d.number = 0xFF00 + d.id ∧ d.id ≤ 0xFE) ∨
      (d.frequency = .low ∧ d.number = 0xFFFF0000 + d.id ∧ d.id ≤ 0xFFFF) ∨
      (d.frequency = .fixed ∧ d.number = d.id ∧ 0xFFFF0000 ≤ d.id ∧ d.id ≤ 0xFFFFFFFF) := by
  obtain ⟨f, id, hmin, hmax⟩ := d
  cases f with
  | high =>
    simp only [Frequency.maxId] at hmax
    refine .inl ⟨rfl, ?_, hmax⟩
    simp [number, identifier, Frequency.identifier, bigEndian]
    omega
  | medium =>
    simp only [Frequency.maxId] at hmax
    refine .inr (.inl ⟨rfl, ?_, hmax⟩)
    simp [number, identifier, Frequency.identifier, bigEndian]
    omega
  | low =>
    simp only [Frequency.maxId] at hmax
    refine .inr (.inr (.inl ⟨rfl, ?_, hmax⟩))
    simp [number, identifier, Frequency.identifier, bigEndian]
    omega
  | fixed =>
    simp only [Frequency.minId, Frequency.maxId] at hmin hmax
    refine .inr (.inr (.inr ⟨rfl, ?_, hmin, hmax⟩))
    simp [number, identifier, Frequency.identifier, bigEndian]
    omega

/-- Declarations of the same number: only a Low id and a Fixed id can have it in common. -/
theorem number_eq_iff (d e : Declaration) : d.number = e.number ↔ d = e ∨ d.IsLowOf e ∨ e.IsLowOf d := by
  rw [Declaration.ext_iff, IsLowOf, IsLowOf]
  -- the numbers of the classes are in ranges of their own, but for those of Low and Fixed ids
  rcases d.number_cases with ⟨hf, hn, hid⟩ | ⟨hf, hn, hid⟩ | ⟨hf, hn, hid⟩ | ⟨hf, hn, hid⟩ <;>
    rcases e.number_cases with ⟨hg, hm, hid'⟩ | ⟨hg, hm, hid'⟩ | ⟨hg, hm, hid'⟩ | ⟨hg, hm, hid'⟩ <;>
    simp only [hf, hg, hn, hm, reduceCtorEq, true_and, false_and, and_false, or_false, false_or, iff_false] <;> omega

/-- Declarations share an identifier exactly if they share a number. -/
theorem identifier_eq_iff (d e : Declaration) : d.identifier = e.identifier ↔ d.number = e.number :=
  ⟨congrArg bigEndian, d.isIdentifier.eq_of_number_eq e.isIdentifier⟩

/-- A declaration of another class than Fixed is known by its identifier. -/
theorem eq_of_identifier_eq {d e : Declaration} (hd : d.frequency ≠ .fixed) (he : e.frequency ≠ .fixed)
    (h : d.identifier = e.identifier) : d = e := by
  rcases (number_eq_iff d e).mp ((identifier_eq_iff d e).mp h) with heq | ⟨-, hfixed, -⟩ | ⟨-, hfixed, -⟩
  · exact heq
  · exact absurd hfixed he
  · exact absurd hfixed hd

/-- Every row that is read as an identifier is that of a declaration of another class than Fixed. -/
theorem exists_of_isIdentifier {bytes : Bytes} (h : IsIdentifier bytes) :
    ∃ d : Declaration, d.frequency ≠ .fixed ∧ d.identifier = bytes := by
  have hid : ∀ b : UInt8, b ≠ 0xFF → b.toNat ≤ 0xFE := by
    intro b hb
    have hlt := b.toNat_lt
    have hne := mt (toNat_eq_marker_iff b).mp hb
    omega
  cases h with
  | @one b hb =>
    have hdeclarable : Frequency.high.Declarable b.toNat := ⟨Nat.zero_le _, hid b hb⟩
    exact ⟨⟨.high, b.toNat, hdeclarable⟩, (by decide : Frequency.high ≠ .fixed), by simp [identifier, Frequency.identifier]⟩
  | @two b hb =>
    have hdeclarable : Frequency.medium.Declarable b.toNat := ⟨Nat.zero_le _, hid b hb⟩
    exact ⟨⟨.medium, b.toNat, hdeclarable⟩, (by decide : Frequency.medium ≠ .fixed), by simp [identifier, Frequency.identifier]⟩
  | four b c =>
    have hb := b.toNat_lt
    have hc := c.toNat_lt
    have hdeclarable : Frequency.low.Declarable (b.toNat * 0x100 + c.toNat) := by
      simp only [Frequency.Declarable, Frequency.minId, Frequency.maxId]
      omega
    have hhigh : UInt8.ofNat ((b.toNat * 0x100 + c.toNat) / 0x100) = b := by
      apply UInt8.toNat_inj.mp
      rw [UInt8.toNat_ofNat']
      omega
    have hlow : UInt8.ofNat (b.toNat * 0x100 + c.toNat) = c := by
      apply UInt8.toNat_inj.mp
      rw [UInt8.toNat_ofNat']
      omega
    exact ⟨⟨.low, _, hdeclarable⟩, (by decide : Frequency.low ≠ .fixed),
      by simp only [identifier, Frequency.identifier, hhigh, hlow]⟩

/-- The bytes that are taken as an identifier are those of one declaration of another class than Fixed. -/
theorem existsUnique_of_isIdentifier {bytes : Bytes} (h : IsIdentifier bytes) :
    ∃! d : Declaration, d.frequency ≠ .fixed ∧ d.identifier = bytes := by
  obtain ⟨d, hd, rfl⟩ := exists_of_isIdentifier h
  refine ⟨d, ⟨hd, rfl⟩, ?_⟩
  rintro e ⟨he, heq⟩
  exact eq_of_identifier_eq he hd heq

end Declaration

/-! ## What is read from any bytes -/

/-- Reading a number takes an identifier off the front. -/
theorem identifier_of_takeMessageNumber {bytes : Bytes} {fault : SourceFault} {n : Nat} {s : Source}
    (h : takeMessageNumber ⟨bytes, fault⟩ = .ok n s) :
    ∃ front, IsIdentifier front ∧ bytes = front ++ s.pending ∧ s.fault = fault ∧ n = bigEndian front := by
  obtain ⟨front, hs, hread⟩ := framed_takeMessageNumber _ _ _ h
  obtain ⟨hid, rfl⟩ := reads_takeMessageNumber_iff.mp hread
  obtain ⟨rfl, rfl⟩ := Source.mk.inj hs
  exact ⟨front, hid, rfl, rfl, rfl⟩

/-- Reading a number fails only inside an identifier. -/
theorem endsInside_of_takeMessageNumber {bytes : Bytes} {fault e : SourceFault} {s : Source}
    (h : takeMessageNumber ⟨bytes, fault⟩ = .error e s) :
    ∃ identifier, IsIdentifier identifier ∧ EndsInside bytes identifier := by
  rcases identifier_or_endsInside bytes with ⟨front, tail, hid, rfl⟩ | hinside
  · have hread := reads_takeMessageNumber_iff.mpr ⟨hid, rfl⟩ tail fault
    rw [hread] at h
    cases h
  · exact hinside

/-- The identifiers that templates can declare are a prefix code, and reading a number decodes it.

An identifier is read as its number, whatever follows, and that is left. Of two declarations, one identifier is the
front of the other exactly if they are the same, which is so exactly if the numbers are; two different declarations have
that in common exactly if they are a Low id and the Fixed id of the same bytes. In return, what is taken from any bytes
is the identifier of exactly one declaration of a class other than Fixed, and the result its number; reading fails
exactly on the bytes that end inside such an identifier, and takes all of them. -/
theorem identifiers_are_prefix_code :
    (∀ (d : Declaration) (tail : Bytes) (fault : SourceFault),
      takeMessageNumber ⟨d.identifier ++ tail, fault⟩ = .ok d.number ⟨tail, fault⟩) ∧
    (∀ d e : Declaration, (d.identifier <+: e.identifier ↔ d.identifier = e.identifier) ∧
      (d.identifier = e.identifier ↔ d.number = e.number) ∧ (d ≠ e → (d.number = e.number ↔ d.IsLowOf e ∨ e.IsLowOf d))) ∧
    ∀ (bytes : Bytes) (fault : SourceFault),
      (∀ n s, takeMessageNumber ⟨bytes, fault⟩ = .ok n s → ∃ front, bytes = front ++ s.pending ∧ s.fault = fault ∧
        (∃! d : Declaration, d.frequency ≠ .fixed ∧ d.identifier = front) ∧
          ∀ d : Declaration, d.identifier = front → n = d.number) ∧
      (∀ e s, takeMessageNumber ⟨bytes, fault⟩ = .error e s → e = fault ∧ s = ⟨[], fault⟩) ∧
      ((∃ e s, takeMessageNumber ⟨bytes, fault⟩ = .error e s) ↔
        ∃ d : Declaration, d.frequency ≠ .fixed ∧ EndsInside bytes d.identifier) := by
  refine ⟨fun d tail fault => d.reads tail fault, fun d e => ⟨?_, d.identifier_eq_iff e, ?_⟩, fun bytes fault => ⟨?_, ?_, ?_, ?_⟩⟩
  · exact ⟨d.isIdentifier.eq_of_isPrefix e.isIdentifier, fun h => h ▸ List.prefix_refl _⟩
  · intro hne
    rw [d.number_eq_iff e, or_iff_right hne]
  · intro n s h
    obtain ⟨front, hid, hbytes, hfault, hn⟩ := identifier_of_takeMessageNumber h
    refine ⟨front, hbytes, hfault, Declaration.existsUnique_of_isIdentifier hid, ?_⟩
    rintro d rfl
    exact hn
  · intro e s h
    obtain ⟨identifier, hid, hinside⟩ := endsInside_of_takeMessageNumber h
    rw [takeMessageNumber_of_endsInside hid hinside] at h
    obtain ⟨rfl, rfl⟩ := EStateM.Result.error.inj h
    exact ⟨rfl, rfl⟩
  · rintro ⟨e, s, h⟩
    obtain ⟨identifier, hid, hinside⟩ := endsInside_of_takeMessageNumber h
    obtain ⟨d, hd, rfl⟩ := Declaration.exists_of_isIdentifier hid
    exact ⟨d, hd, hinside⟩
  · rintro ⟨d, -, hinside⟩
    exact ⟨fault, _, takeMessageNumber_of_endsInside d.isIdentifier hinside fault⟩

/-- A Low id. -/
def sampleLow : Declaration := ⟨.low, 0xFFFB, by decide⟩

/-- The Fixed id of the same bytes. -/
def sampleFixed : Declaration := ⟨.fixed, 0xFFFFFFFB, by decide⟩

theorem identifiers_are_prefix_code_sample : sampleLow ≠ sampleFixed ∧ sampleLow.IsLowOf sampleFixed ∧
    sampleLow.identifier = sampleFixed.identifier ∧
      takeMessageNumber ⟨[0xFF, 0xFF, 0xFF, 0xFB, 9], .ended⟩ = .ok 0xFFFFFFFB ⟨[9], .ended⟩ ∧
      EndsInside [0xFF, 0xFF, 0xFF] sampleLow.identifier ∧
        ∃ e s, takeMessageNumber ⟨[0xFF, 0xFF, 0xFF], .ended⟩ = .error e s := by
  obtain ⟨hreads, hpairs, hbytes⟩ := identifiers_are_prefix_code
  have hne : sampleLow ≠ sampleFixed := by decide
  have hlow : sampleLow.IsLowOf sampleFixed := ⟨rfl, rfl, rfl⟩
  have hinside : EndsInside [0xFF, 0xFF, 0xFF] sampleLow.identifier := ⟨⟨[0xFB], rfl⟩, by decide⟩
  obtain ⟨-, hidentifier, hnumber⟩ := hpairs sampleLow sampleFixed
  exact ⟨hne, hlow, hidentifier.mpr ((hnumber hne).mpr (.inl hlow)), hreads sampleLow [9] .ended, hinside,
    (hbytes [0xFF, 0xFF, 0xFF] .ended).2.2.mpr ⟨sampleLow, by decide, hinside⟩⟩

end MessageCatalog.Wire
