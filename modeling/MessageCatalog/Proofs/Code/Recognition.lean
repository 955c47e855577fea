import Mathlib.Data.List.Basic
import MessageCatalog.Code.Token

/-!
# Recognizing code

A recognizer takes something from the front of code and leaves the rest. What it takes it takes token by token: no token
is passed over, so that code which is recognized as a whole is fixed by what it is recognized as. Recognizers give
generated code a meaning: the data that they find can be run.
-/

namespace MessageCatalog

/-! ## Equality of tokens -/

mutual

/-- Whether two tokens are the same. -/
def Token.same : Token → Token → Bool
  | .atom a, .atom b => a = b
  | .name use a, .name use' b => use = use' ∧ a = b
  | .mark a joined, .mark b joined' => a = b ∧ joined = joined'
  | .literal a, .literal b => a = b
  | .rawLiteral a, .rawLiteral b => a = b
  | .group delimiter a, .group delimiter' b => delimiter = delimiter' && Code.same a b
  | _, _ => false

/-- Whether two pieces of code are the same. -/
def Code.same : List Token → List Token → Bool
  | [], [] => true
  | a :: as, b :: bs => a.same b && Code.same as bs
  | _, _ => false

end

mutual

/-- The test on tokens is equality. -/
theorem Token.same_iff (a b : Token) : a.same b = true ↔ a = b := by
  cases a <;> cases b <;> simp [Token.same]
  exact fun _ => Code.same_iff _ _

/-- The test on code is equality. -/
theorem Code.same_iff (a b : List Token) : Code.same a b = true ↔ a = b := by
  cases a <;> cases b <;> simp [Code.same]
  rw [Token.same_iff, Code.same_iff]

end

instance : DecidableEq Token := fun a b => decidable_of_iff (a.same b = true) (Token.same_iff a b)

/-! ## Recognizers -/

/-- Takes something from the front of code, or fails. -/
abbrev Recognizer (α : Type) := StateT Code Option α

namespace Recognizer

variable {α β : Type}

/-- Takes a piece of code. -/
def expect (front : Code) : Recognizer Unit := fun code =>
  (code.dropPrefix? front).map ((), ·)

/-- Takes a word. -/
def atom : Recognizer String
  | .atom text :: rest => some (text, rest)
  | _ => none

/-- Takes a number in decimals. -/
def number : Recognizer Nat
  | .atom text :: rest =>
    if text.toList ≠ [] ∧ text.toList.all Char.isDigit = true then some (Nat.ofDigitChars 10 text.toList 0, rest)
    else none
  | _ => none

/-- Takes a name that stands for something. -/
def name (use : Naming.NameUse) : Recognizer String
  | .name use' text :: rest => if use' = use then some (text, rest) else none
  | _ => none

/-- Takes a string literal. -/
def literal : Recognizer String
  | .literal content :: rest => some (content, rest)
  | _ => none

/-- What a recognizer takes, if that is all of some code. -/
def whole? (r : Recognizer α) (code : Code) : Option α :=
  match r code with
  | some (a, []) => some a
  | _ => none

/-- Takes a group all of which a recognizer takes. -/
def inside (delimiter : Delimiter) (r : Recognizer α) : Recognizer α
  | .group delimiter' body :: rest => if delimiter' = delimiter then (whole? r body).map (·, rest) else none
  | _ => none

/-- Takes as much as a recognizer can take one after the other. -/
def many (r : Recognizer α) : Recognizer (List α) := fun code =>
  match r code with
  | none => some ([], code)
  | some (a, rest) =>
    if rest.length < code.length then (many r rest).map fun taken => (a :: taken.1, taken.2) else some ([], code)
termination_by code => code.length

/-! ### What each one does with code -/

/-- One recognizer and then another: the second one goes on where the first one stopped. -/
@[simp] theorem bind_apply (r : Recognizer α) (next : α → Recognizer β) (code : Code) :
    (r >>= next) code = (r code).bind fun taken => next taken.1 taken.2 := rfl

/-- What is made of a value takes as much as the value does. -/
@[simp] theorem map_apply (f : α → β) (r : Recognizer α) (code : Code) :
    (f <$> r) code = (r code).map fun taken => (f taken.1, taken.2) := by
  rw [map_eq_pure_bind, bind_apply]
  cases r code <;> rfl

/-- Nothing is taken for a value that is known. -/
@[simp] theorem pure_apply (a : α) (code : Code) : (pure a : Recognizer α) code = some (a, code) := rfl

/-- Where a recognizer fails, nothing is taken. -/
@[simp] theorem failure_apply (code : Code) : (failure : Recognizer α) code = none := rfl

/-- The second of two choices is tried on the same code. -/
@[simp] theorem orElse_apply (r s : Recognizer α) (code : Code) : (r <|> s) code = (r code <|> s code) := rfl

/-- A piece of code is taken from the front of code, and the rest is left. -/
@[simp] theorem expect_append (front rest : Code) : expect front (front ++ rest) = some ((), rest) := by
  have hdrop : (front ++ rest).dropPrefix? front = some rest :=
    List.dropPrefix?_eq_some_iff.mpr ⟨front, rfl, BEq.rfl⟩
  rw [expect, hdrop]
  rfl

/-- A piece of code is taken from itself, and nothing is left. -/
@[simp] theorem expect_self (front : Code) : expect front front = some ((), []) := by
  simpa using expect_append front []

/-- Two pieces of code are taken one after the other. -/
@[simp] theorem expect_append_apply (a b code : Code) :
    expect (a ++ b) code = (expect a code).bind fun taken => expect b taken.2 := by
  induction a generalizing code with
  | nil => simp [expect, List.dropPrefix?_nil]
  | cons token a ih =>
    cases code with
    | nil => rfl
    | cons token' code =>
      have hstep (front : Code) : expect (token :: front) (token' :: code) =
          if token' == token then expect front code else none := by
        unfold expect
        rw [List.dropPrefix?]
        split <;> rfl
      rw [List.cons_append, hstep, hstep, ih]
      split <;> rfl

/-- Whether two pieces of code have different tokens at the same place. -/
def clash : Code → Code → Bool
  | a :: as, b :: bs => a ≠ b || clash as bs
  | _, _ => false

/-- A piece of code is not taken where another one stands that differs from it. -/
theorem expect_eq_none {front other : Code} (h : clash front other = true) (rest : Code) :
    expect front (other ++ rest) = none := by
  induction front generalizing other with
  | nil => cases h
  | cons token front ih =>
    cases other with
    | nil => cases h
    | cons token' other =>
      rw [clash, Bool.or_eq_true, decide_eq_true_iff] at h
      rw [expect, List.cons_append, List.dropPrefix?]
      split
      · rename_i hsame
        exact ih (h.resolve_left fun hne => hne (eq_of_beq hsame).symm)
      · rfl

/-- A group is not taken where a group with another body stands. -/
theorem expect_paren_eq_none {body other : Code} (h : body ≠ other) (rest : Code) :
    expect (Code.paren body) (Code.paren other ++ rest) = none :=
  expect_eq_none (by simp [clash, Code.paren, h]) rest

/-- A number is taken where one stands. -/
@[simp] theorem number_append (n : Nat) (rest : Code) : number (Code.number n ++ rest) = some (n, rest) := by
  have htext : (toString n).toList = Nat.toDigits 10 n := Nat.toList_repr
  have hdigits : (Nat.toDigits 10 n).all Char.isDigit = true :=
    List.all_eq_true.mpr fun _ hdigit => Nat.isDigit_of_mem_toDigits (by decide) (by decide) hdigit
  have hvalue : Nat.ofDigitChars 10 (Nat.toDigits 10 n) 0 = n := Nat.ofDigitChars_toDigits (by decide) (by decide)
  rw [Code.number, List.singleton_append, number, htext, if_pos ⟨Nat.toDigits_ne_nil, hdigits⟩, hvalue]

@[simp] theorem number_self (n : Nat) : number (Code.number n) = some (n, []) := by
  simpa using number_append n []

/-- A word is taken where one stands. -/
@[simp] theorem atom_append (text : String) (rest : Code) : atom (Code.word text ++ rest) = some (text, rest) := rfl

@[simp] theorem atom_self (text : String) : atom (Code.word text) = some (text, []) := rfl

/-- The name of a type is taken where one stands. -/
@[simp] theorem name_typeWord (text : String) (rest : Code) : name .type (Code.typeWord text ++ rest) = some (text, rest) := rfl

/-- The name of a field is taken where one stands. -/
@[simp] theorem name_fieldWord (text : String) (rest : Code) :
    name .field (Code.fieldWord text ++ rest) = some (text, rest) := rfl

@[simp] theorem name_fieldWord_self (text : String) : name .field (Code.fieldWord text) = some (text, []) := rfl

/-- The content of a literal is taken where one stands. -/
@[simp] theorem literal_append (content : String) (rest : Code) :
    literal (Code.literal content ++ rest) = some (content, rest) := rfl

@[simp] theorem literal_self (content : String) : literal (Code.literal content) = some (content, []) := rfl

/-- A group is taken if all that is in it is taken. -/
theorem inside_group (delimiter : Delimiter) (r : Recognizer α) (body rest : Code) :
    inside delimiter r (.group delimiter body :: rest) = (whole? r body).map (·, rest) :=
  if_pos rfl

/-- What stands in parentheses has to be taken as a whole. -/
@[simp] theorem inside_paren (r : Recognizer α) (body rest : Code) :
    inside .paren r (Code.paren body ++ rest) = (whole? r body).map (·, rest) :=
  inside_group .paren r body rest

/-- What stands in brackets has to be taken as a whole. -/
@[simp] theorem inside_bracket (r : Recognizer α) (body rest : Code) :
    inside .bracket r (Code.bracket body ++ rest) = (whole? r body).map (·, rest) :=
  inside_group .bracket r body rest

/-- What stands in braces has to be taken as a whole. -/
@[simp] theorem inside_brace (r : Recognizer α) (body rest : Code) :
    inside .brace r (Code.brace body ++ rest) = (whole? r body).map (·, rest) :=
  inside_group .brace r body rest

@[simp] theorem inside_paren_self (r : Recognizer α) (body : Code) :
    inside .paren r (Code.paren body) = (whole? r body).map (·, []) :=
  inside_group .paren r body []

@[simp] theorem inside_brace_self (r : Recognizer α) (body : Code) :
    inside .brace r (Code.brace body) = (whole? r body).map (·, []) :=
  inside_group .brace r body []

/-! ### Code that is taken whatever stands behind it -/

/-- Whether a recognizer takes some code for a value, whatever stands behind it. -/
def Takes (r : Recognizer α) (code : Code) (a : α) : Prop :=
  ∀ rest, r (code ++ rest) = some (a, rest)

/-- What is taken with nothing left is taken as a whole. -/
theorem whole?_of_eq {r : Recognizer α} {code : Code} {a : α} (h : r code = some (a, [])) : whole? r code = some a := by
  rw [whole?, h]

/-- Code that differs from a piece of code is not that piece as a whole. -/
theorem whole?_expect_of_ne {front code : Code} (h : code ≠ front) : whole? (expect front) code = none := by
  rw [whole?, expect]
  cases hdrop : code.dropPrefix? front with
  | none => rfl
  | some rest =>
    obtain ⟨front', rfl, hfront⟩ := List.dropPrefix?_eq_some_iff.mp hdrop
    rw [eq_of_beq hfront] at h
    cases rest with
    | nil => exact (h (List.append_nil front)).elim
    | cons token rest => rfl

/-- What is taken whatever stands behind it is taken as a whole. -/
theorem Takes.whole?_eq {r : Recognizer α} {code : Code} {a : α} (h : Takes r code a) : whole? r code = some a :=
  whole?_of_eq (List.append_nil code ▸ h [])

/-- What the first of two choices takes is taken. -/
theorem Takes.orElse_left {r : Recognizer α} {code : Code} {a : α} (h : Takes r code a) (s : Recognizer α) :
    Takes (r <|> s) code a := by
  intro rest
  simp [h rest]

/-- What the second of two choices takes is taken, if the first one does not take it. -/
theorem Takes.orElse_right {r s : Recognizer α} {code : Code} {a : α} (h : Takes s code a)
    (hr : ∀ rest, r (code ++ rest) = none) : Takes (r <|> s) code a := by
  intro rest
  simp [hr rest, h rest]

/-- A group whose body is taken as a whole is taken. -/
theorem takes_inside {r : Recognizer α} {body : Code} {a : α} (h : whole? r body = some a) (delimiter : Delimiter) :
    Takes (inside delimiter r) [.group delimiter body] a := by
  intro rest
  rw [List.singleton_append, inside_group, h]
  rfl

/-! ### Code that is taken piece by piece -/

/-- Whether a recognizer takes some code for values one after the other, whatever stands behind it. -/
def TakesMany (r : Recognizer α) (code : Code) (values : List α) : Prop :=
  ∀ rest, many r (code ++ rest) = (many r rest).map fun taken => (values ++ taken.1, taken.2)

section Many

variable {r : Recognizer α} {code code' : Code} {values values' : List α}

/-- Of no code no values are taken. -/
theorem takesMany_nil (r : Recognizer α) : TakesMany r [] [] := by
  intro rest
  change many r rest = (many r rest).map fun taken => (taken.1, taken.2)
  cases many r rest <;> rfl

/-- Code that is taken for a value is taken for that one alone. -/
theorem Takes.takesMany {a : α} (h : Takes r code a) (hcode : code ≠ []) : TakesMany r code [a] := by
  intro rest
  have hshorter : rest.length < (code ++ rest).length := by
    have hlength := List.length_pos_of_ne_nil hcode
    rw [List.length_append]
    omega
  rw [many, h rest]
  exact if_pos hshorter

/-- Of two pieces of code the values of the first one come first. -/
theorem TakesMany.append (h : TakesMany r code values) (h' : TakesMany r code' values') :
    TakesMany r (code ++ code') (values ++ values') := by
  intro rest
  rw [List.append_assoc, h, h', Option.map_map]
  cases many r rest <;> simp

/-- A value comes before those of the code behind it. -/
theorem Takes.cons {a : α} (h : Takes r code a) (hcode : code ≠ []) (h' : TakesMany r code' values) :
    TakesMany r (code ++ code') (a :: values) :=
  (h.takesMany hcode).append h'

/-- The code of a list is taken item by item. -/
theorem takesMany_all {ι : Type} {items : List ι} {code : ι → Code} {a : ι → α} (h : ∀ item ∈ items, Takes r (code item) (a item))
    (hcode : ∀ item ∈ items, code item ≠ []) : TakesMany r (Code.all items code) (items.map a) := by
  induction items with
  | nil => exact takesMany_nil r
  | cons item items ih =>
    obtain ⟨hitem, hitems⟩ := List.forall_mem_cons.mp h
    obtain ⟨hcodeItem, hcodeItems⟩ := List.forall_mem_cons.mp hcode
    exact hitem.cons hcodeItem (ih hitems hcodeItems)

/-- The values of code are taken up to where nothing more is taken. -/
theorem TakesMany.many_eq (h : TakesMany r code values) {rest : Code} (hrest : r rest = none) :
    many r (code ++ rest) = some (values, rest) := by
  have hstop : many r rest = some ([], rest) := by rw [many, hrest]
  rw [h rest, hstop]
  simp

/-- The values of code are all that is taken of it. -/
theorem TakesMany.whole?_eq (h : TakesMany r code values) (hnothing : r [] = none) : whole? (many r) code = some values := by
  have hall := h.many_eq hnothing
  rw [List.append_nil] at hall
  exact whole?_of_eq hall

end Many

end Recognizer

/-! ## Where code stands -/

namespace Code

/-- A text of tokens has at least one. -/
@[simp] theorem of_ne_nil (text : String) : of text ≠ [] := by
  simp [of, List.splitOn_ne_nil]

/-- Whether code has a body in braces behind a head. -/
def Has (code head body : Code) : Prop :=
  ∃ before after, code = before ++ (head ++ (brace body ++ after))

/-- Behind code that ends in a head, a body is one of that head. -/
theorem Has.of_suffix {front head : Code} (h : head <:+ front) (body : Code) : (front ++ brace body).Has head body := by
  obtain ⟨before, rfl⟩ := h
  exact ⟨before, [], by simp only [List.append_assoc, List.append_nil]⟩

/-- A head and its body are in all code behind which more code stands. -/
theorem Has.append_right {code head body : Code} (h : code.Has head body) (after : Code) : (code ++ after).Has head body := by
  obtain ⟨front, rest, rfl⟩ := h
  exact ⟨front, rest ++ after, by simp only [List.append_assoc]⟩

/-- A head and its body are in all code before which more code stands. -/
theorem Has.append_left {code head body : Code} (h : code.Has head body) (before : Code) : (before ++ code).Has head body := by
  obtain ⟨front, rest, rfl⟩ := h
  exact ⟨before ++ front, rest, by simp only [List.append_assoc]⟩

/-- A head and its body are in the code of a list, if they are in that of an item. -/
theorem Has.all {ι : Type} {items : List ι} {code : ι → Code} {item : ι} (hitem : item ∈ items) {head body : Code}
    (h : (code item).Has head body) : (Code.all items code).Has head body := by
  obtain ⟨before, after, rfl⟩ := List.append_of_mem hitem
  have hmiddle := (h.append_right (Code.all after code)).append_left (Code.all before code)
  rwa [Code.all, Code.all, ← List.flatMap_cons, ← List.flatMap_append] at hmiddle

end Code

end MessageCatalog
