import Mathlib.Data.List.Forall2

/-!
# Outcomes

An outcome is a value or an error. Steps one after the other end at the first error, and so does a list that is read
element by element.
-/

namespace MessageCatalog

/-! ## Steps -/

/-- A success has a value. -/
theorem exists_of_isOk {ε α : Type} {x : Except ε α} (h : x.isOk = true) : ∃ a, x = .ok a := by
  cases x with
  | ok a => exact ⟨a, rfl⟩
  | error e => cases h

/-- One outcome and then another succeed if both do. -/
theorem except_bind_eq_ok_iff {ε α β : Type} {x : Except ε α} {next : α → Except ε β} {b : β} :
    (x >>= next) = .ok b ↔ ∃ a, x = .ok a ∧ next a = .ok b := by
  cases x <;> simp [bind, Except.bind]

/-- Behind a success comes what goes on with its value. -/
theorem except_bind_of_ok {ε α β : Type} {x : Except ε α} {a : α} {next : α → Except ε β} (h : x = .ok a) :
    x >>= next = next a := by
  rw [h]
  rfl

/-- Behind an error comes nothing. -/
theorem except_bind_of_error {ε α β : Type} {x : Except ε α} {e : ε} {next : α → Except ε β} (h : x = .error e) :
    x >>= next = .error e := by
  rw [h]
  rfl

/-- What goes on with a value only matters for the value that there is. -/
theorem except_bind_congr {ε α β : Type} {x : Except ε α} {next next' : α → Except ε β} (h : ∀ a, x = .ok a → next a = next' a) :
    x >>= next = x >>= next' := by
  cases x with
  | error e => rfl
  | ok a => exact h a rfl

/-- What is made of a value does not matter for whether there is one. -/
theorem map_bind_pure {ε α β : Type} (x : Except ε α) (f : α → β) :
    (x >>= fun a => pure (f a)).map (fun _ => ()) = x.map fun _ => () := by
  cases x <;> rfl

/-- An outcome whose value is dropped is a success if it was one. -/
theorem except_map_eq_ok_iff {ε α : Type} {x : Except ε α} : x.map (fun _ => ()) = .ok () ↔ ∃ a, x = .ok a := by
  cases x <;> simp [Except.map]

/-- An outcome whose value is dropped has the error it had. -/
theorem except_map_eq_error_iff {ε α : Type} {x : Except ε α} {e : ε} : x.map (fun _ => ()) = .error e ↔ x = .error e := by
  cases x <;> simp [Except.map]

/-! ## Lists that are read element by element -/

/-- What follows of the right elements of related lists. -/
theorem forall_mem_of_forall₂ {α β : Type} {rel : α → β → Prop} {property : β → Prop} {as : List α} {bs : List β}
    (h : List.Forall₂ rel as bs) (hrel : ∀ a ∈ as, ∀ b, rel a b → property b) : ∀ b ∈ bs, property b := by
  induction h with
  | nil => simp
  | @cons a b as bs hb _ ih =>
    obtain ⟨ha, has⟩ := List.forall_mem_cons.mp hrel
    exact List.forall_mem_cons.mpr ⟨ha b hb, ih has⟩

/-- Reading a list succeeds when reading each of its elements does. -/
theorem mapM_eq_ok_iff {ε α β : Type} {read : α → Except ε β} {as : List α} {bs : List β} :
    as.mapM read = .ok bs ↔ List.Forall₂ (fun a b => read a = .ok b) as bs := by
  induction as generalizing bs with
  | nil => simp [pure, Except.pure, eq_comm]
  | cons a as ih =>
    rw [List.mapM_cons, except_bind_eq_ok_iff, List.forall₂_cons_left_iff]
    simp only [except_bind_eq_ok_iff, ih]
    constructor
    · rintro ⟨b, hb, bs', hbs, he⟩
      exact ⟨b, bs', hb, hbs, (Except.ok.inj he).symm⟩
    · rintro ⟨b, bs', hb, hbs, rfl⟩
      exact ⟨b, hb, bs', hbs, rfl⟩

/-- Reading a list fails with the error of the first element that is not read. -/
theorem mapM_eq_error_iff {ε α β : Type} {read : α → Except ε β} {as : List α} {e : ε} :
    as.mapM read = .error e ↔
      ∃ before a after, as = before ++ a :: after ∧ (∀ a' ∈ before, ∃ b, read a' = .ok b) ∧ read a = .error e := by
  induction as with
  | nil => simp [pure, Except.pure]
  | cons a as ih =>
    rw [List.mapM_cons]
    cases ha : read a with
    | error e' =>
      rw [except_bind_of_error rfl, Except.error.injEq]
      constructor
      · rintro rfl
        exact ⟨[], a, as, rfl, by simp, ha⟩
      · rintro ⟨before, a', after, hsplit, hbefore, ha'⟩
        cases before with
        | nil =>
          obtain ⟨rfl, -⟩ := List.cons.inj hsplit
          exact Except.error.inj (ha.symm.trans ha')
        | cons first before =>
          obtain ⟨rfl, -⟩ := List.cons.inj hsplit
          obtain ⟨b, hb⟩ := hbefore a List.mem_cons_self
          cases ha.symm.trans hb
    | ok b =>
      have hrest : (Except.ok b >>= fun b => as.mapM read >>= fun bs => pure (b :: bs)) = .error e ↔ as.mapM read = .error e := by
        rw [except_bind_of_ok rfl]
        cases as.mapM read <;> simp [bind, Except.bind, pure, Except.pure]
      rw [hrest, ih]
      constructor
      · rintro ⟨before, a', after, rfl, hbefore, ha'⟩
        exact ⟨a :: before, a', after, rfl, List.forall_mem_cons.mpr ⟨⟨b, ha⟩, hbefore⟩, ha'⟩
      · rintro ⟨before, a', after, hsplit, hbefore, ha'⟩
        cases before with
        | nil =>
          obtain ⟨rfl, -⟩ := List.cons.inj hsplit
          cases ha.symm.trans ha'
        | cons first before =>
          obtain ⟨-, rfl⟩ := List.cons.inj hsplit
          exact ⟨before, a', after, rfl, (List.forall_mem_cons.mp hbefore).2, ha'⟩

/-- A list is read exactly if each of its elements is. -/
theorem mapM_isOk_iff {ε α β : Type} {read : α → Except ε β} {as : List α} :
    (∃ bs, as.mapM read = .ok bs) ↔ ∀ a ∈ as, ∃ b, read a = .ok b := by
  constructor
  · rintro ⟨bs, h⟩
    exact forall_mem_of_forall₂ (@List.Forall₂.flip _ _ (flip fun a b => read a = .ok b) _ _ (mapM_eq_ok_iff.mp h))
      fun b _ a ha => ⟨b, ha⟩
  · intro h
    cases hread : as.mapM read with
    | ok bs => exact ⟨bs, rfl⟩
    | error e =>
      obtain ⟨before, a, after, rfl, -, ha⟩ := mapM_eq_error_iff.mp hread
      obtain ⟨b, hb⟩ := h a (by simp)
      cases hb.symm.trans ha

/-- Elements that are read alike in pairs. -/
theorem mapM_congr_of_forall₂ {ε α β : Type} {read : α → Except ε β} {as as' : List α}
    (h : List.Forall₂ (fun a a' => read a' = read a) as as') : as'.mapM read = as.mapM read := by
  induction h with
  | nil => rfl
  | cons ha _ ih => rw [List.mapM_cons, List.mapM_cons, ha, ih]

end MessageCatalog
