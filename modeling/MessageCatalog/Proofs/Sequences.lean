import Mathlib.Data.List.Forall2
import Mathlib.Data.List.Nodup
import Mathlib.Data.List.Pairwise
import Mathlib.Data.List.TakeWhile

/-!
# Lists with keys, and lists that start with a class of elements

Elements with distinct keys are found by them, and lists that have nothing in common are told apart by what is in them.
A list that starts with elements of a class is split where they end.
-/

namespace MessageCatalog

open scoped List

/-! ## Distinct keys -/

/-- An element is found by its key when no other has it. -/
theorem find?_key_eq_some {α κ : Type} [BEq κ] [LawfulBEq κ] {key : α → κ} {elements : List α}
    (hdistinct : (elements.map key).Nodup) {a : α} (ha : a ∈ elements) :
    elements.find? (fun b => key b == key a) = some a := by
  have hfound : (elements.find? fun b => key b == key a).isSome = true := List.find?_isSome.mpr ⟨a, ha, by simp⟩
  obtain ⟨b, hb⟩ := Option.isSome_iff_exists.mp hfound
  have hkey : key b = key a := by simpa using List.find?_some hb
  rw [hb, List.inj_on_of_nodup_map hdistinct (List.mem_of_find?_eq_some hb) ha hkey]

/-- What is made of elements with distinct keys is made of the element with its key. -/
theorem mem_map_iff_of_key {α β κ : Type} {key : α → κ} {made : α → β} {elements : List α}
    (hkeys : (elements.map key).Nodup) {a : α} (ha : a ∈ elements) {b : β} (hkey : ∀ a', made a' = b → key a' = key a) :
    b ∈ elements.map made ↔ made a = b := by
  rw [List.mem_map]
  constructor
  · rintro ⟨a', ha', hmade⟩
    obtain rfl := List.inj_on_of_nodup_map hkeys ha' ha (hkey a' hmade)
    exact hmade
  · intro hmade
    exact ⟨a, ha, hmade⟩

/-- Parts one behind the other have nothing twice if none has by itself, the keys of the elements are distinct, and only
parts of elements with the same key have anything in common. -/
theorem nodup_flatMap_of_keys {α β κ : Type} {key : α → κ} {parts : α → List β} {elements : List α}
    (hkeys : (elements.map key).Nodup) (hparts : ∀ a ∈ elements, (parts a).Nodup)
    (hcommon : ∀ a a' b, b ∈ parts a → b ∈ parts a' → key a = key a') : (elements.flatMap parts).Nodup := by
  rw [List.nodup_flatMap]
  refine ⟨hparts, (List.pairwise_map.mp hkeys).imp fun {a a'} hne => ?_⟩
  exact List.disjoint_left.mpr fun b hb hb' => hne (hcommon a a' b hb hb')

/-- If lists have nothing in common, what is in two of them is in one list. -/
theorem eq_of_nodup_flatMap {α β : Type} {f : α → List β} {elements : List α} (h : (elements.flatMap f).Nodup) {a b : α}
    (ha : a ∈ elements) (hb : b ∈ elements) {x : β} (hxa : x ∈ f a) (hxb : x ∈ f b) : a = b := by
  have hsymm : Std.Symm (Function.onFun List.Disjoint f) := ⟨fun _ _ hdisjoint _ hy hx => hdisjoint hx hy⟩
  by_contra hne
  exact (List.nodup_flatMap.mp h).2.forall ha hb hne hxa hxb

/-- What elements are made of stays in order when each is made of part of another. -/
theorem flatMap_sublist_of_forall₂ {α β γ : Type} {f : α → List γ} {g : β → List γ} {as : List α} {bs : List β}
    (h : List.Forall₂ (fun a b => g b <+ f a) as bs) : bs.flatMap g <+ as.flatMap f := by
  induction h with
  | nil => simp
  | cons hb _ ih =>
    simp only [List.flatMap_cons]
    exact hb.append ih

/-! ## Classes of elements -/

section Classes

variable {α : Type}

/-- Where no element of a class stands in front, none is dropped. -/
theorem dropWhile_eq_self_of_head {inClass : α → Bool} {text : List α} (h : ∀ c ∈ text.head?, inClass c = false) :
    text.dropWhile inClass = text := by
  cases text with
  | nil => rfl
  | cons c rest => exact List.dropWhile_cons_of_neg (by simp [h c rfl])

/-- Characters of a class in front of one that is not of it are all the class takes. -/
theorem takeWhile_append_of_head {inClass : α → Bool} {front rest : List α} (hfront : ∀ c ∈ front, inClass c = true)
    (hrest : ∀ c ∈ rest.head?, inClass c = false) :
    (front ++ rest).takeWhile inClass = front ∧ (front ++ rest).dropWhile inClass = rest := by
  have hdrop : (front ++ rest).dropWhile inClass = rest := by
    rw [List.dropWhile_append_of_pos hfront, dropWhile_eq_self_of_head hrest]
  refine ⟨?_, hdrop⟩
  have hboth := List.takeWhile_append_dropWhile (p := inClass) (l := front ++ rest)
  rw [hdrop] at hboth
  exact List.append_cancel_right hboth

/-- Behind the elements of a class that are dropped stands none of the class. -/
theorem head?_dropWhile_eq_false {inClass : α → Bool} {text : List α} :
    ∀ c ∈ (text.dropWhile inClass).head?, inClass c = false := by
  intro c hc
  have hhead := List.head?_dropWhile_not inClass text
  rw [Option.mem_def.mp hc] at hhead
  simpa using hhead

end Classes

end MessageCatalog
