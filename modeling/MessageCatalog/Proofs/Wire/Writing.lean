import MessageCatalog.Wire.Encode

/-!
# Emissions without a fault

A message is written in pieces. When the whole has no fault, none of its pieces has one, and its bytes are those of the pieces one
behind the other.
-/

namespace MessageCatalog.Wire

namespace Emission

@[simp] theorem wrote_inj {p q : Bytes} : wrote p = wrote q ↔ p = q := by
  simp [wrote]

@[simp] theorem wrote_append (p q : Bytes) : wrote p ++ wrote q = wrote (p ++ q) := rfl

/-- Of three emissions in sequence it does not matter which two are taken together. -/
theorem append_assoc (e e' e'' : Emission) : e ++ e' ++ e'' = e ++ (e' ++ e'') := by
  obtain ⟨p, fault⟩ := e
  obtain ⟨q, fault'⟩ := e'
  change andThen (andThen _ _) _ = andThen _ (andThen _ _)
  cases fault with
  | some error => rfl
  | none => cases fault' <;> simp [andThen]

/-- What writes nothing and does not stop changes nothing in front of an emission. -/
@[simp] theorem wrote_nil_append (e : Emission) : wrote [] ++ e = e := rfl

/-- What writes nothing and does not stop changes nothing behind an emission. -/
@[simp] theorem append_wrote_nil (e : Emission) : e ++ wrote [] = e := by
  obtain ⟨p, fault⟩ := e
  cases fault with
  | some error => rfl
  | none => exact congrArg (Emission.mk · none) (List.append_nil p)

@[simp] theorem stopped_ne_wrote (error : WriteError) (bytes : Bytes) : stopped error ≠ wrote bytes := by
  simp [stopped, wrote]

/-- Two emissions in sequence write some bytes when each writes its part of them. -/
theorem append_eq_wrote_iff {first second : Emission} {bytes : Bytes} :
    first ++ second = wrote bytes ↔ ∃ p q, first = wrote p ∧ second = wrote q ∧ bytes = p ++ q := by
  constructor
  · intro h
    obtain ⟨p, fault⟩ := first
    cases fault with
    | some error => cases h
    | none =>
      obtain ⟨q, fault⟩ := second
      have h' : (⟨p ++ q, fault⟩ : Emission) = wrote bytes := h
      obtain ⟨rfl, rfl⟩ : p ++ q = bytes ∧ fault = none := by simpa [wrote] using h'
      exact ⟨p, q, rfl, rfl, rfl⟩
  · rintro ⟨p, q, rfl, rfl, rfl⟩
    rfl

/-- Bytes are returned if they were written and nothing failed. -/
theorem toExcept_eq_ok_iff {e : Emission} {bytes : Bytes} : e.toExcept = .ok bytes ↔ e = wrote bytes := by
  obtain ⟨p, fault⟩ := e
  cases fault <;> simp [toExcept, wrote]

/-- An error is returned if the writing stopped with it. -/
theorem toExcept_eq_error_iff {e : Emission} {error : WriteError} : e.toExcept = .error error ↔ e.fault = some error := by
  obtain ⟨p, fault⟩ := e
  cases fault <;> simp [toExcept]

end Emission

/-- A quaternion is written as the imaginary parts of its unit, if it has one. -/
theorem encodeValue_rotation (place : String) (q : Quaternion) :
    encodeValue place .rotation (.rotation q) =
      match q.normalize? with
      | some unit => .wrote ([unit.i, unit.j, unit.k].flatMap fun part => littleEndian 4 part.toNat)
      | none => .stopped (.degenerateQuaternion place) := rfl

/-- Bytes of any number are written behind their length, if that fits. -/
theorem encodeValue_counted (place : String) (width : PrefixWidth) (content : Bytes) :
    encodeValue place (.counted width) (.bytes content) =
      if content.length ≤ width.maxLength then .wrote (littleEndian width.size content.length ++ content)
      else .stopped (.variableTooLong place content.length width.maxLength) := rfl

/-- A message has bytes when its identifier and its blocks do. -/
theorem toBytes_eq_ok_iff {m : Message} {body : Body} {bytes : Bytes} :
    toBytes m body = .ok bytes ↔ ∃ rest, encodeBlocks m.name m.blocks body = .wrote rest ∧ bytes = m.identifier ++ rest := by
  rw [toBytes, Emission.toExcept_eq_ok_iff, encodeMessage, Emission.append_eq_wrote_iff]
  constructor
  · rintro ⟨p, rest, hp, hrest, rfl⟩
    rw [Emission.wrote_inj.mp hp]
    exact ⟨rest, hrest, rfl⟩
  · rintro ⟨rest, hrest, rfl⟩
    exact ⟨m.identifier, rest, rfl, hrest, rfl⟩

end MessageCatalog.Wire
