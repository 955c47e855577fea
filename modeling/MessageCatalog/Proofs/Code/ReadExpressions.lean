import MessageCatalog.Proofs.Code.WriteStatements
import MessageCatalog.Wire.Decode

/-!
# Expressions that read

The expression that reads a field is recognized token by token, and can be run on a source. For every field type it
takes what the layout of the type says.
-/

namespace MessageCatalog

open Wire (FieldValue Take)

/-- An expression that reads a value from the source. -/
inductive ReadExpression where
  /-- Reads a word. -/
  | word (w : WireWord)
  /-- Reads a byte, and tells whether it is one. -/
  | flag
  /-- Reads bytes of a declared number. -/
  | array (size : Nat)
  /-- Reads words one after the other. -/
  | words (ws : List WireWord)
  /-- Reads the imaginary parts of a quaternion, whose real part is one. -/
  | unit
  /-- Reads a length, and bytes of that number. -/
  | counted (width : PrefixWidth)
  deriving DecidableEq, Repr

/-- What an expression takes from a source. -/
def ReadExpression.run : ReadExpression → Take FieldValue
  | word w => do
    return w.value (← Wire.takeNumber w.bytes)
  | flag => do
    return .flag ((← Wire.takeNumber 1) == 1)
  | array size => do
    return .bytes (← Wire.take size)
  | words ws => do
    return .words (← ws.mapM fun w => Wire.takeNumber w.bytes)
  | unit => do
    let i ← Wire.takeNumber 4
    let j ← Wire.takeNumber 4
    let k ← Wire.takeNumber 4
    return .rotation ⟨Wire.oneBits, UInt32.ofNat i, UInt32.ofNat j, UInt32.ofNat k⟩
  | counted width => do
    let length ← Wire.takeNumber width.size
    return .bytes (← Wire.take length)

namespace Recognizer

open Code (of word paren bracket brace)

/-- Takes a call that reads a word. -/
def takeWord : Recognizer WireWord := do
  expect (of "source .")
  let w ← method WireWord.read?
  expect (paren [])
  return w

/-- Takes an expression that reads a truth value. -/
def readFlag : Recognizer ReadExpression := do
  expect (word "Ok" ++ paren (of "source . read_u8" ++ paren [] ++ of "? == 1"))
  return .flag

/-- Takes a word among the arguments of a constructor. -/
def argument : Recognizer WireWord := do
  let w ← takeWord
  expect (of "? ,")
  return w

/-- Takes a vector of the support code that is made of as many floating-point words as it has parts. -/
def vector (runtime : Code) (constructor : String) (size : Nat) : Recognizer ReadExpression := do
  expect (runtime ++ of constructor)
  let ws ← inside .paren (many argument)
  if ws.length = size ∧ ws.all (·.kind = .float) then return .words ws else failure

/-- Takes an expression that reads a vector. -/
def readVector (runtime : Code) : Recognizer ReadExpression := do
  expect (word "Ok")
  inside .paren (vector runtime ":: Vector3 :: new" 3 <|> vector runtime ":: Vector4 :: new" 4)

/-- Takes the size of an array of bytes. -/
def arraySize : Recognizer Nat := do
  expect (of "0u8 ;")
  number

/-- Takes what is made of an array: the array itself, or a value of the support code from it. -/
def arrayValue (runtime : Code) (array : String) : Recognizer Unit :=
  inside .paren (expect (word array)) <|>
  inside .paren (expect (runtime ++ of ":: Uuid :: from_bytes" ++ paren (word array))) <|>
  inside .paren (expect (runtime ++ of ":: Ipv4Addr :: from" ++ paren (word array)))

/-- Takes the statements that fill an array of bytes and make a value of it. -/
def readArray (runtime : Code) : Recognizer ReadExpression := do
  expect (of "let mut")
  let array ← atom
  expect (word "=")
  let size ← inside .bracket arraySize
  expect (word ";" ++ of "source . read_exact" ++ paren (of "& mut" ++ word array) ++ of "? ;" ++ word "Ok")
  arrayValue runtime array
  return .array size

/-- Takes a statement that reads a word into a variable. -/
def letWord : Recognizer (String × WireWord) := do
  expect (of "let")
  let part ← atom
  expect (word "=")
  let w ← takeWord
  expect (of "? ;")
  return (part, w)

/-- Takes the statements that read a quaternion: its imaginary parts in order, with the real part one. -/
def readUnit (runtime : Code) : Recognizer ReadExpression := do
  let parts ← many letWord
  expect (word "Ok")
  inside .paren (expect (runtime ++ of ":: Quaternion :: from_parts" ++ paren (of "1.0 , i , j , k")))
  if parts = [("i", ⟨.float, 4⟩), ("j", ⟨.float, 4⟩), ("k", ⟨.float, 4⟩)] then return .unit else failure

/-- Takes a word that is a length. -/
def lengthWord : Recognizer WireWord := do
  let w ← takeWord
  expect (word "?")
  return w

/-- Takes an expression that reads a length. -/
def readLength : Recognizer PrefixWidth := do
  expect (of "usize :: from")
  let w ← inside .paren lengthWord
  if w = ⟨.unsigned, 1⟩ then return .one else if w = ⟨.unsigned, 2⟩ then return .two else failure

/-- Takes the statements that read a length and as many bytes. -/
def readCounted : Recognizer ReadExpression := do
  expect (of "let len =")
  let width ← readLength
  expect (word ";" ++ of "let mut bytes = vec !" ++ bracket (of "0u8 ; len") ++ word ";" ++ of "source . read_exact" ++
    paren (of "& mut bytes") ++ of "? ;" ++ word "Ok" ++ paren (word "bytes"))
  return .counted width

/-- Takes an expression that reads a value. -/
def readExpression (runtime : Code) : Recognizer ReadExpression :=
  (do
    return .word (← takeWord)) <|>
  readFlag <|> readVector runtime <|>
  inside .brace (readArray runtime) <|> inside .brace (readUnit runtime) <|> inside .brace readCounted

/-! ### The expressions that are generated -/

/-- A call that reads a word is recognized by its method. -/
theorem takes_takeWord {text : String} {w : WireWord} (hmethod : Takes (method WireWord.read?) (of text) w) :
    Takes takeWord (Generator.take text) w := by
  intro rest
  simp [takeWord, Generator.take, hmethod _]

/-- A call of a method of one byte is recognized by the name of the method. -/
theorem takes_takeWord_byte {text name : String} {w : WireWord} (htext : of text = word name) (h : WireWord.read? name = some w)
    (hone : w.bytes = 1) : Takes takeWord (Generator.take text) w :=
  takes_takeWord (takes_method_byte htext h hone)

/-- A call of a method of a longer word is recognized by the name of the method. -/
theorem takes_takeWord_ordered {text name : String} {w : WireWord} (htext : of text = word name ++ of ":: < LittleEndian >")
    (h : WireWord.read? name = some w) (hmore : w.bytes ≠ 1) : Takes takeWord (Generator.take text) w :=
  takes_takeWord (takes_method_ordered htext h hmore)

/-- The calls that read single floating-point words. -/
theorem takes_takeWord_single : Takes takeWord (Generator.take "read_f32 :: < LittleEndian >") ⟨.float, 4⟩ :=
  takes_takeWord_ordered (show _ = word "read_f32" ++ _ from rfl) rfl (by decide)

/-- The calls that read double floating-point words. -/
theorem takes_takeWord_double : Takes takeWord (Generator.take "read_f64 :: < LittleEndian >") ⟨.float, 8⟩ :=
  takes_takeWord_ordered (show _ = word "read_f64" ++ _ from rfl) rfl (by decide)

variable (g : Generator)

/-- A vector is recognized with as many words as it has parts. -/
theorem takes_vector {text : String} {bytes : Nat} (hword : Takes takeWord (Generator.take text) ⟨.float, bytes⟩)
    (constructor : String) (size : Nat) : Takes (vector g.runtime constructor size)
      (g.path constructor ++ paren (Code.all (List.replicate size ()) fun _ => Generator.take text ++ of "? ,"))
      (.words (List.replicate size ⟨.float, bytes⟩)) := by
  have hargument : Takes argument (Generator.take text ++ of "? ,") ⟨.float, bytes⟩ := by
    intro rest
    simp [argument, hword _]
  have harguments : whole? (many argument) (Code.all (List.replicate size ()) fun _ => Generator.take text ++ of "? ,") =
      some (List.replicate size ⟨.float, bytes⟩) := by
    have hall : TakesMany argument (Code.all (List.replicate size ()) fun _ => Generator.take text ++ of "? ,")
        ((List.replicate size ()).map fun _ => ⟨.float, bytes⟩) :=
      takesMany_all (fun _ _ => hargument) fun _ _ => by simp
    rw [List.map_replicate] at hall
    exact hall.whole?_eq rfl
  intro rest
  simp [vector, Generator.path, harguments]

/-- A vector is read by its constructor. -/
theorem takes_readVector {runtime value : Code} {e : ReadExpression}
    (hvalue : Takes (vector runtime ":: Vector3 :: new" 3 <|> vector runtime ":: Vector4 :: new" 4) value e) :
    Takes (readVector runtime) (word "Ok" ++ paren value) e := by
  intro rest
  simp [readVector, hvalue.whole?_eq]

/-- A vector of three parts is read as three words. -/
theorem takes_readVector_three {text : String} {bytes : Nat} (hword : Takes takeWord (Generator.take text) ⟨.float, bytes⟩) :
    Takes (readVector g.runtime) (Generator.takeParts (g.path ":: Vector3 :: new") text 3)
      (.words (List.replicate 3 ⟨.float, bytes⟩)) :=
  takes_readVector ((takes_vector g hword ":: Vector3 :: new" 3).orElse_left _)

/-- A vector of four parts is read as four words. -/
theorem takes_readVector_four {text : String} {bytes : Nat} (hword : Takes takeWord (Generator.take text) ⟨.float, bytes⟩) :
    Takes (readVector g.runtime) (Generator.takeParts (g.path ":: Vector4 :: new") text 4)
      (.words (List.replicate 4 ⟨.float, bytes⟩)) := by
  have hother (rest : Code) : expect (of ":: Vector3 :: new") (of ":: Vector4 :: new" ++ rest) = none :=
    expect_eq_none (by cbv) rest
  refine takes_readVector ((takes_vector g hword ":: Vector4 :: new" 4).orElse_right fun rest => ?_)
  simp [vector, Generator.path, hother]

/-- An array of bytes is read into a variable, of which a value is made. -/
theorem whole?_readArray {array : String} {size : Nat} {value : Code}
    (hvalue : arrayValue g.runtime array (paren value) = some ((), [])) :
    whole? (readArray g.runtime) (of "let mut" ++ word array ++ word "=" ++ bracket (of "0u8 ;" ++ Code.number size) ++
      word ";" ++ of "source . read_exact" ++ paren (of "& mut" ++ word array) ++ of "? ;" ++ word "Ok" ++ paren value) =
      some (.array size) := by
  have hsize : whole? arraySize (of "0u8 ;" ++ Code.number size) = some size := by
    apply whole?_of_eq
    simp [arraySize]
  apply whole?_of_eq
  simp [readArray, hsize, hvalue]

/-- The array itself is a value of it. -/
theorem arrayValue_bytes (array : String) : arrayValue g.runtime array (paren (word array)) = some ((), []) := by
  simp [arrayValue, whole?_of_eq (expect_self _)]

/-- A path of the support code is more than one word. -/
theorem whole?_expect_word (text front : String) (array : String) :
    whole? (expect (word text)) (g.path front ++ paren (word array)) = none := by
  have hpath := List.length_pos_of_ne_nil (Code.of_ne_nil front)
  refine whole?_expect_of_ne fun heq => ?_
  have hlength := congrArg List.length heq
  simp only [Generator.path, paren, word, List.length_append, List.length_singleton] at hlength
  omega

/-- A UUID is made of an array. -/
theorem arrayValue_uuid (array : String) :
    arrayValue g.runtime array (paren (g.path ":: Uuid :: from_bytes" ++ paren (word array))) = some ((), []) := by
  have huuid : whole? (expect (g.runtime ++ of ":: Uuid :: from_bytes" ++ paren (word array)))
      (g.path ":: Uuid :: from_bytes" ++ paren (word array)) = some () :=
    whole?_of_eq (expect_self _)
  simp only [arrayValue, orElse_apply, inside_paren_self, whole?_expect_word, huuid]
  rfl

/-- A network address is made of an array. -/
theorem arrayValue_address (array : String) :
    arrayValue g.runtime array (paren (g.path ":: Ipv4Addr :: from" ++ paren (word array))) = some ((), []) := by
  have hother (rest : Code) : expect (of ":: Uuid :: from_bytes") (of ":: Ipv4Addr :: from" ++ rest) = none :=
    expect_eq_none (by cbv) rest
  have huuid : whole? (expect (g.runtime ++ of ":: Uuid :: from_bytes" ++ paren (word array)))
      (g.path ":: Ipv4Addr :: from" ++ paren (word array)) = none := by
    simp [whole?, Generator.path, hother]
  have haddress : whole? (expect (g.runtime ++ of ":: Ipv4Addr :: from" ++ paren (word array)))
      (g.path ":: Ipv4Addr :: from" ++ paren (word array)) = some () :=
    whole?_of_eq (expect_self _)
  simp only [arrayValue, orElse_apply, inside_paren_self, whole?_expect_word, huuid, haddress]
  rfl

/-- A part of a quaternion is read into a variable. -/
theorem takes_letWord (part : String) : Takes letWord
    (of "let" ++ word part ++ word "=" ++ Generator.take "read_f32 :: < LittleEndian >" ++ of "? ;") (part, ⟨.float, 4⟩) := by
  intro rest
  simp [letWord, takes_takeWord_single _]

/-- The statements that read a quaternion are recognized with its three imaginary parts in order. -/
theorem whole?_readUnit : whole? (readUnit g.runtime) (Code.all ["i", "j", "k"] (fun part =>
    of "let" ++ word part ++ word "=" ++ Generator.take "read_f32 :: < LittleEndian >" ++ of "? ;") ++
      word "Ok" ++ paren (g.path ":: Quaternion :: from_parts" ++ paren (of "1.0 , i , j , k"))) = some .unit := by
  have hparts : TakesMany letWord (Code.all ["i", "j", "k"] fun part =>
      of "let" ++ word part ++ word "=" ++ Generator.take "read_f32 :: < LittleEndian >" ++ of "? ;")
      (["i", "j", "k"].map fun part => (part, ⟨.float, 4⟩)) :=
    takesMany_all (fun part _ => takes_letWord part) fun _ _ => by simp
  have hread := hparts.many_eq
    (show letWord (word "Ok" ++ paren (g.path ":: Quaternion :: from_parts" ++ paren (of "1.0 , i , j , k"))) = none from rfl)
  have hvalue : whole? (expect (g.runtime ++ of ":: Quaternion :: from_parts" ++ paren (of "1.0 , i , j , k")))
      (g.path ":: Quaternion :: from_parts" ++ paren (of "1.0 , i , j , k")) = some () :=
    whole?_of_eq (expect_self _)
  apply whole?_of_eq
  rw [List.append_assoc]
  simp only [readUnit, bind_apply, hread, Option.bind_some, expect_append, inside_paren_self, hvalue, Option.map_some]
  rfl

/-- A length is read as a word of its width. -/
theorem takes_readLength (width : PrefixWidth) : Takes readLength (Generator.takeLength width) width := by
  have hword {text : String} {w : WireWord} (h : Takes takeWord (Generator.take text) w) :
      whole? lengthWord (Generator.take text ++ word "?") = some w := by
    apply whole?_of_eq
    simp [lengthWord, h _]
  have hone := hword (takes_takeWord_byte (show of "read_u8" = word "read_u8" from rfl)
    (show _ = some ⟨.unsigned, 1⟩ from rfl) rfl)
  have htwo := hword (takes_takeWord_ordered (show of "read_u16 :: < LittleEndian >" = word "read_u16" ++ _ from rfl)
    (show _ = some ⟨.unsigned, 2⟩ from rfl) (by decide))
  intro rest
  cases width with
  | one => simp [readLength, Generator.takeLength, hone]
  | two => simp [readLength, Generator.takeLength, htwo]

/-- The statements that read bytes behind their length are recognized with the width of the length. -/
theorem whole?_readCounted (width : PrefixWidth) : whole? readCounted (of "let len =" ++ Generator.takeLength width ++ word ";" ++
    of "let mut bytes = vec !" ++ bracket (of "0u8 ; len") ++ word ";" ++
    of "source . read_exact" ++ paren (of "& mut bytes") ++ of "? ;" ++ word "Ok" ++ paren (word "bytes")) =
      some (.counted width) := by
  apply whole?_of_eq
  simp [readCounted, takes_readLength width _]

/-! ### Choosing between expressions -/

section Choice

variable {runtime code body : Code} {e : ReadExpression}

/-- A call that reads a word is the first choice. -/
theorem takes_readExpression_word (runtime : Code) {w : WireWord} (h : Takes takeWord code w) :
    Takes (readExpression runtime) code (.word w) := by
  intro rest
  simp [readExpression, h _]

/-- What is made of a read byte is not a call that reads it. -/
theorem takes_readExpression_flag (runtime : Code) : Takes (readExpression runtime)
    (word "Ok" ++ paren (Generator.take "read_u8" ++ of "? == 1")) .flag := by
  have hbyte : of "source . read_u8" = of "source ." ++ of "read_u8" := rfl
  have hword (rest : Code) : takeWord (word "Ok" ++ rest) = none := rfl
  intro rest
  simp [readExpression, hword, readFlag, Generator.take, hbyte]

/-- A vector ends in the arguments of its constructor, and a truth value in a comparison. -/
theorem takes_readExpression_vector {constructor arguments : Code}
    (h : Takes (readVector runtime) (word "Ok" ++ paren (constructor ++ paren arguments)) e) :
    Takes (readExpression runtime) (word "Ok" ++ paren (constructor ++ paren arguments)) e := by
  -- both are a group behind `Ok`, and what they start with in it may be the same
  have hne : of "source . read_u8" ++ paren [] ++ of "? == 1" ≠ constructor ++ paren arguments := by
    intro heq
    have hlast := congrArg List.getLast? heq
    have hcomparison : of "? == 1" = of "? ==" ++ [.atom "1"] := rfl
    rw [hcomparison, ← List.append_assoc, List.getLast?_concat, paren, List.getLast?_concat] at hlast
    cases hlast
  have hflag (rest : Code) : readFlag (word "Ok" ++ (paren (constructor ++ paren arguments) ++ rest)) = none := by
    rw [readFlag, bind_apply, expect_append_apply, expect_append, Option.bind_some, expect_paren_eq_none hne, Option.bind_none]
  have hword (rest : Code) : takeWord (word "Ok" ++ rest) = none := rfl
  intro rest
  have hvector := h rest
  rw [List.append_assoc] at hvector ⊢
  simp [readExpression, hword, hflag, hvector]

/-- Nothing in braces reads a word, a truth value or a vector. -/
theorem takes_readExpression_brace
    (h : Takes (inside .brace (readArray runtime) <|> inside .brace (readUnit runtime) <|> inside .brace readCounted)
      (brace body) e) :
    Takes (readExpression runtime) (brace body) e := by
  have hword (rest : Code) : takeWord (brace body ++ rest) = none := rfl
  have hok (rest : Code) : expect (word "Ok") (brace body ++ rest) = none := rfl
  refine ((h.orElse_right fun rest => ?_).orElse_right fun rest => ?_).orElse_right fun rest => ?_
  · simp [readVector, hok]
  · simp [readFlag, hok]
  · simp [hword]

/-- The statements for a quaternion read no array. -/
theorem whole?_readArray_let (runtime rest : Code) {part : String} (hpart : part ≠ "mut") :
    whole? (readArray runtime) (of "let" ++ (word part ++ rest)) = none := by
  have hlet : of "let mut" = of "let" ++ word "mut" := rfl
  have hmut : expect (word "mut") (word part ++ rest) = none := expect_eq_none (by simp [clash, word, hpart.symm]) rest
  simp [whole?, readArray, hlet, hmut]

/-- The statements for bytes of any number read no quaternion. -/
theorem whole?_readUnit_length (runtime : Code) (width : PrefixWidth) (rest : Code) :
    whole? (readUnit runtime) (of "let" ++ (word "len" ++ (word "=" ++ (Generator.takeLength width ++ rest)))) = none := by
  -- a length is converted, so what reads it is no call, and no part of a quaternion is found
  have hlength : takeWord (Generator.takeLength width ++ rest) = none := by cases width <;> rfl
  have hparts : many letWord (of "let" ++ (word "len" ++ (word "=" ++ (Generator.takeLength width ++ rest)))) =
      some ([], of "let" ++ (word "len" ++ (word "=" ++ (Generator.takeLength width ++ rest)))) := by
    rw [many]
    simp [letWord, hlength]
  have hok (rest : Code) : expect (word "Ok") (of "let" ++ rest) = none := rfl
  simp [whole?, readUnit, hparts, hok]

end Choice

end Recognizer

/-! ## What the expression of a field reads -/

section Reads

open Code (of word paren brace)
open Recognizer (Takes readExpression)
open Wire (takeValue)

/-- Words of one size are taken as numbers of that size. -/
theorem mapM_takeNumber (bytes count : Nat) :
    (List.replicate count (⟨.float, bytes⟩ : WireWord)).mapM (fun w => Wire.takeNumber w.bytes) =
      Wire.takeNumbers bytes count := by
  induction count with
  | zero => rfl
  | succ count ih => rw [List.replicate_succ, List.mapM_cons, ih, Wire.takeNumbers]

/-- Words of one size are a value of the layout of that size. -/
theorem ReadExpression.run_replicate (bytes count : Nat) :
    (ReadExpression.words (List.replicate count ⟨.float, bytes⟩)).run = takeValue (.words bytes count) := by
  rw [run, mapM_takeNumber, takeValue]

/-- A floating-point word is a value of the layout of one such word. -/
theorem ReadExpression.run_float (bytes : Nat) : (ReadExpression.word ⟨.float, bytes⟩).run = takeValue (.words bytes 1) := by
  simp [run, takeValue, Wire.takeNumbers, WireWord.value]

/-- The expression that reads a value of a field type takes what the layout of the type says. -/
theorem Generator.reads_value (g : Generator) (type : FieldType) : ∃ e : ReadExpression,
    Takes (readExpression g.runtime) (g.readValue type) e ∧ e.run = takeValue type.layout := by
  have hbyte {text name : String} {w : WireWord} (htext : of text = word name) (hname : WireWord.read? name = some w)
      (hone : w.bytes = 1) := Recognizer.takes_readExpression_word g.runtime (Recognizer.takes_takeWord_byte htext hname hone)
  have hordered {text name : String} {w : WireWord} (htext : of text = word name ++ of ":: < LittleEndian >")
      (hname : WireWord.read? name = some w) (hmore : w.bytes ≠ 1) :=
    Recognizer.takes_readExpression_word g.runtime (Recognizer.takes_takeWord_ordered htext hname hmore)
  cases type with
  | u8 => exact ⟨_, hbyte (show _ = word "read_u8" from rfl) rfl rfl, rfl⟩
  | u16 => exact ⟨_, hordered (show _ = word "read_u16" ++ _ from rfl) rfl (by decide), rfl⟩
  | u32 => exact ⟨_, hordered (show _ = word "read_u32" ++ _ from rfl) rfl (by decide), rfl⟩
  | u64 => exact ⟨_, hordered (show _ = word "read_u64" ++ _ from rfl) rfl (by decide), rfl⟩
  | s8 => exact ⟨_, hbyte (show _ = word "read_i8" from rfl) rfl rfl, rfl⟩
  | s16 => exact ⟨_, hordered (show _ = word "read_i16" ++ _ from rfl) rfl (by decide), rfl⟩
  | s32 => exact ⟨_, hordered (show _ = word "read_i32" ++ _ from rfl) rfl (by decide), rfl⟩
  | s64 => exact ⟨_, hordered (show _ = word "read_i64" ++ _ from rfl) rfl (by decide), rfl⟩
  | ipPort => exact ⟨_, hordered (show _ = word "read_u16" ++ _ from rfl) rfl (by decide), rfl⟩
  | f32 => exact ⟨_, Recognizer.takes_readExpression_word g.runtime Recognizer.takes_takeWord_single, ReadExpression.run_float 4⟩
  | f64 => exact ⟨_, Recognizer.takes_readExpression_word g.runtime Recognizer.takes_takeWord_double, ReadExpression.run_float 8⟩
  | vector3 =>
    exact ⟨_, Recognizer.takes_readExpression_vector (Recognizer.takes_readVector_three g Recognizer.takes_takeWord_single),
      ReadExpression.run_replicate 4 3⟩
  | vector3d =>
    exact ⟨_, Recognizer.takes_readExpression_vector (Recognizer.takes_readVector_three g Recognizer.takes_takeWord_double),
      ReadExpression.run_replicate 8 3⟩
  | vector4 =>
    exact ⟨_, Recognizer.takes_readExpression_vector (Recognizer.takes_readVector_four g Recognizer.takes_takeWord_single),
      ReadExpression.run_replicate 4 4⟩
  | bool => exact ⟨_, Recognizer.takes_readExpression_flag g.runtime, rfl⟩
  | uuid =>
    exact ⟨_, Recognizer.takes_readExpression_brace ((Recognizer.takes_inside
      (Recognizer.whole?_readArray g (Recognizer.arrayValue_uuid g "bytes")) .brace).orElse_left _), rfl⟩
  | ipAddress =>
    exact ⟨_, Recognizer.takes_readExpression_brace ((Recognizer.takes_inside
      (Recognizer.whole?_readArray g (Recognizer.arrayValue_address g "octets")) .brace).orElse_left _), rfl⟩
  | fixed size =>
    exact ⟨_, Recognizer.takes_readExpression_brace ((Recognizer.takes_inside
      (Recognizer.whole?_readArray g (Recognizer.arrayValue_bytes g "bytes")) .brace).orElse_left _), rfl⟩
  | quaternion =>
    have hunit := (Recognizer.takes_inside (Recognizer.whole?_readUnit g) .brace).orElse_left
      (Recognizer.inside .brace Recognizer.readCounted)
    refine ⟨_, Recognizer.takes_readExpression_brace (hunit.orElse_right fun rest => ?_), rfl⟩
    have harray := Recognizer.whole?_readArray_let g.runtime
    simp [Recognizer.inside_group, Code.all, harray]
  | varying width =>
    have hcounted := Recognizer.takes_inside (Recognizer.whole?_readCounted width) .brace
    have hlet : of "let len =" = of "let" ++ (word "len" ++ word "=") := rfl
    refine ⟨_, Recognizer.takes_readExpression_brace ((hcounted.orElse_right fun rest => ?_).orElse_right fun rest => ?_), rfl⟩
    · simp [Recognizer.inside_group, hlet, Recognizer.whole?_readUnit_length]
    · simp [Recognizer.inside_group, hlet, Recognizer.whole?_readArray_let]

end Reads

end MessageCatalog
