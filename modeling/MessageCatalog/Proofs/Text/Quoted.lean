import MessageCatalog.Proofs.Source.Spelling
import MessageCatalog.Text.Literal

/-!
# Quoted texts read back

The rules by which the target language reads a string literal, as a machine that goes through the literal character by
character. Where the rules give a character no meaning the machine refuses it; an unescaped quote is one of them, since
it would end the literal. Main statement: what is written for a text between quotes is read as exactly that text, and is
visible characters only, so that it stays on its line.
-/

namespace MessageCatalog.Text

/-- Where a reader stands between the quotes of a string literal. -/
inductive Inside where
  /-- Where a character stands for itself. -/
  | plain
  /-- Behind a backslash. -/
  | escape
  /-- Behind an escaped line feed: blanks do not count. -/
  | indent
  /-- Behind `\x`. -/
  | hexHigh
  /-- Behind `\x` and one digit. -/
  | hexLow (high : Nat)
  /-- Behind `\u`. -/
  | codeOpening
  /-- Behind the brace of a code point and some digits. -/
  | codePoint (digits value : Nat)
  deriving DecidableEq, Repr

namespace Inside

/-- The characters that a letter behind a backslash stands for. -/
def simpleEscapes : List (Char × Char) :=
  [('n', '\n'), ('r', '\r'), ('t', '\t'), ('\\', '\\'), ('0', '\x00'), ('\'', '\''), ('"', '"')]

/-- A character where characters stand for themselves. A carriage return may not stand there. -/
def plainStep (c : Char) : Option (Inside × List Char) :=
  if c = '\\' then some (escape, [])
  else if c = '"' || c = '\r' then none
  else some (plain, [c])

/-- The place behind one more character, and what the text of the literal gains by it. -/
def step : Inside → Char → Option (Inside × List Char)
  | plain, c => plainStep c
  | escape, c =>
    match simpleEscapes.lookup c with
    | some meant => some (plain, [meant])
    | none =>
      if c = 'x' then some (hexHigh, [])
      else if c = 'u' then some (codeOpening, [])
      else if c = '\n' then some (indent, [])
      else none
  | indent, c => if [' ', '\t', '\n', '\r'].contains c then some (indent, []) else plainStep c
  | hexHigh, c =>
    match Numeral.digit? c with
    | some d => if d < 8 then some (hexLow d, []) else none
    | none => none
  | hexLow high, c => (Numeral.digit? c).map fun d => (plain, [Char.ofNat (high * 16 + d)])
  | codeOpening, c => if c = '{' then some (codePoint 0 0, []) else none
  | codePoint digits value, c =>
    match Numeral.digit? c with
    | some d => if digits < 6 then some (codePoint (digits + 1) (value * 16 + d), []) else none
    | none =>
      if digits = 0 then none
      else if c = '_' then some (codePoint digits value, [])
      else if c = '}' ∧ value.isValidChar then some (plain, [Char.ofNat value])
      else none

/-- Whether a quote ends the literal here. -/
def mayEnd : Inside → Bool
  | plain => true
  | indent => true
  | _ => false

/-- The place behind some characters, and the text they stand for. -/
def walk (place : Inside) : List Char → Option (Inside × List Char)
  | [] => some (place, [])
  | c :: rest =>
    match place.step c with
    | some (next, gained) => (walk next rest).map fun reached => (reached.1, gained ++ reached.2)
    | none => none

end Inside

/-- The text of a literal, from what stands between its quotes. -/
def unescape? (inside : List Char) : Option (List Char) :=
  match Inside.plain.walk inside with
  | some (place, text) => if place.mayEnd then some text else none
  | none => none

namespace Inside

/-- A quote that ends the literal is no step inside it. -/
theorem step_quote {place : Inside} (h : place.mayEnd = true) : place.step '"' = none := by
  cases place with
  | plain => rfl
  | indent => rfl
  | _ => cases h

theorem walk_append {place next last : Inside} {a b gained more : List Char} (ha : place.walk a = some (next, gained))
    (hb : next.walk b = some (last, more)) : place.walk (a ++ b) = some (last, gained ++ more) := by
  induction a generalizing place gained with
  | nil =>
    obtain ⟨rfl, rfl⟩ := Prod.mk.inj (Option.some.inj ha)
    exact hb
  | cons c a ih =>
    rw [walk] at ha
    rw [List.cons_append, walk]
    split at ha
    · obtain ⟨reached, hreached, he⟩ := Option.map_eq_some_iff.mp ha
      obtain ⟨rfl, rfl⟩ := Prod.mk.inj he
      rw [ih hreached]
      simp
    · cases ha

/-- The digits of a code point are gathered into their value. -/
theorem walk_codePoint {digits : List Char} {count acc value : Nat} (hvalue : Numeral.valueFrom 16 acc digits = some value)
    (hcount : count + digits.length ≤ 6) :
    (codePoint count acc).walk digits = some (codePoint (count + digits.length) value, []) := by
  induction digits generalizing count acc with
  | nil =>
    obtain rfl := Option.some.inj hvalue
    rfl
  | cons c digits ih =>
    rw [Numeral.valueFrom] at hvalue
    split at hvalue
    · rename_i d hd
      split at hvalue
      · rw [List.length_cons] at hcount
        have hroom : count < 6 := by omega
        have hrest : (codePoint (count + 1) (acc * 16 + d)).walk digits = _ := ih hvalue (by omega)
        simp only [walk, step, hd, if_pos hroom, hrest, List.length_cons, Option.map_some, List.nil_append, Nat.add_assoc,
          Nat.add_comm 1]
      · cases hvalue
    · cases hvalue

theorem walk_simpleEscape {c meant : Char} (h : simpleEscapes.lookup c = some meant) :
    plain.walk ['\\', c] = some (plain, [meant]) := by
  simp [walk, step, plainStep, h]

/-- A code point in braces stands for its character. -/
theorem walk_codePoint_closed (c : Char) :
    plain.walk (['\\', 'u', '{'] ++ Nat.toDigits 16 c.toNat ++ ['}']) = some (plain, [c]) := by
  have hvalid : c.toNat.isValidChar := c.valid
  have hlength : (Nat.toDigits 16 c.toNat).length ≤ 6 := by
    refine (Nat.length_toDigits_le_iff (by decide) (by decide)).mpr ?_
    omega
  have hvalue : Numeral.valueFrom 16 0 (Nat.toDigits 16 c.toNat) = some c.toNat :=
    Numeral.valueFrom_toDigits (by decide) (by decide) c.toNat
  have hdigits : (codePoint 0 0).walk (Nat.toDigits 16 c.toNat) = _ := walk_codePoint hvalue (by omega)
  have hopening : plain.walk ['\\', 'u', '{'] = some (codePoint 0 0, []) := rfl
  have hclosing : (codePoint (0 + (Nat.toDigits 16 c.toNat).length) c.toNat).walk ['}'] = some (plain, [c]) := by
    have hdigit : Numeral.digit? '}' = none := rfl
    have hsome : (Nat.toDigits 16 c.toNat).length ≠ 0 := by simp [Nat.toDigits_ne_nil]
    simp [walk, step, hdigit, hsome, hvalid, Char.ofNat_toNat]
  exact walk_append (walk_append hopening hdigits) hclosing

/-- What is written for a character stands for it, whatever follows. -/
theorem walk_escapeChar (c : Char) (next : Option Char) : plain.walk (escapeChar c next) = some (plain, [c]) := by
  unfold escapeChar
  split
  · rename_i hnull
    have hc : c = '\x00' := by rw [← Char.ofNat_toNat c, hnull]
    subst hc
    split
    · rfl
    · rfl
  split
  · rename_i hc
    subst hc
    exact walk_simpleEscape rfl
  split
  · rename_i hc
    subst hc
    exact walk_simpleEscape rfl
  split
  · rename_i hc
    subst hc
    exact walk_simpleEscape rfl
  split
  · rename_i hc
    subst hc
    exact walk_simpleEscape rfl
  split
  · rename_i hc
    subst hc
    exact walk_simpleEscape rfl
  split
  · rename_i hreturn _ hslash hquote _
    simp [walk, step, plainStep, hslash, hquote, hreturn]
  · exact walk_codePoint_closed c

/-- What is written for a text stands for it. -/
theorem walk_escape (text : List Char) : plain.walk (Text.escape text) = some (plain, text) := by
  induction text with
  | nil => rfl
  | cons c text ih => exact walk_append (walk_escapeChar c text.head?) ih

end Inside

/-- A text is read back from what is written for it between quotes. -/
theorem unescape?_escape (text : List Char) : unescape? (escape text) = some text := by
  simp [unescape?, Inside.walk_escape, Inside.mayEnd]

example : escape ['a', '"', '\\', '\x00', '7'] = ['a', '\\', '"', '\\', '\\', '\\', 'x', '0', '0', '7'] := by decide

/-! ## The literal stays on its line -/

theorem isVisible_of_digit? {c : Char} {d : Nat} (h : Numeral.digit? c = some d) : isVisible c = true := by
  have hbounds : 0x30 ≤ c.toNat ∧ c.toNat ≤ 0x66 := by
    unfold Numeral.digit? at h
    simp only [Char.le_def, UInt32.le_iff_toNat_le] at h
    have htoNat : c.val.toNat = c.toNat := rfl
    split at h
    · rename_i hc
      exact ⟨hc.1, by have : c.val.toNat ≤ 57 := hc.2; omega⟩
    split at h
    · rename_i hc
      exact ⟨by have : 97 ≤ c.val.toNat := hc.1; omega, hc.2⟩
    split at h
    · rename_i hc
      exact ⟨by have : 65 ≤ c.val.toNat := hc.1; omega, by have : c.val.toNat ≤ 70 := hc.2; omega⟩
    · cases h
  rw [isVisible, if_pos (by omega)]
  simp only [Bool.and_eq_true, decide_eq_true_eq]
  omega

/-- A character is written in visible ones. -/
theorem isVisible_escapeChar (c : Char) (next : Option Char) : ∀ d ∈ escapeChar c next, isVisible d = true := by
  unfold escapeChar
  split
  · split
    · exact List.all_eq_true.mp rfl
    · exact List.all_eq_true.mp rfl
  split
  · exact List.all_eq_true.mp rfl
  split
  · exact List.all_eq_true.mp rfl
  split
  · exact List.all_eq_true.mp rfl
  split
  · exact List.all_eq_true.mp rfl
  split
  · exact List.all_eq_true.mp rfl
  split
  · rename_i hvisible
    exact List.forall_mem_singleton.mpr hvisible
  · have hdigits : ∀ d ∈ Nat.toDigits 16 c.toNat, isVisible d = true := by
      intro d hd
      obtain ⟨value, -, hvalue⟩ := Numeral.digits_of_valueFrom (Numeral.valueFrom_toDigits (by decide) (by decide) c.toNat) d hd
      exact isVisible_of_digit? hvalue
    refine List.forall_mem_append.mpr ⟨List.forall_mem_append.mpr ⟨List.all_eq_true.mp rfl, hdigits⟩, List.all_eq_true.mp rfl⟩

/-- A text is written in visible characters. -/
theorem isVisible_escape (text : List Char) : ∀ c ∈ escape text, isVisible c = true := by
  induction text with
  | nil => exact List.forall_mem_nil _
  | cons d text ih => exact List.forall_mem_append.mpr ⟨isVisible_escapeChar d text.head?, ih⟩

end MessageCatalog.Text
