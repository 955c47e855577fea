import MessageCatalog.Code.Generate
import MessageCatalog.Proofs.Code.Recognition
import MessageCatalog.Proofs.Wire.Writing

/-!
# Statements that write

The statements that write a field are recognized token by token, with the field that they are about and the place that
they name in a failure. They can be run on the values of the fields of a record. For every field type the statements
write what the layout of the type says, for every value of the type.
-/

namespace MessageCatalog

open Wire (Emission FieldValue littleEndian toTwosComplement ofTwosComplement)

/-! ## Words -/

/-- How a word stands for a number. -/
inductive WordKind where
  | unsigned
  | signed
  | float
  deriving DecidableEq, Repr

/-- What a method of the support code writes or reads: a little-endian word of some bytes. -/
structure WireWord where
  kind : WordKind
  bytes : Nat
  deriving DecidableEq, Repr

namespace WireWord

/-- The words by the names of the methods that write them. -/
def written? : String → Option WireWord
  | "write_u8" => some ⟨.unsigned, 1⟩
  | "write_u16" => some ⟨.unsigned, 2⟩
  | "write_u32" => some ⟨.unsigned, 4⟩
  | "write_u64" => some ⟨.unsigned, 8⟩
  | "write_i8" => some ⟨.signed, 1⟩
  | "write_i16" => some ⟨.signed, 2⟩
  | "write_i32" => some ⟨.signed, 4⟩
  | "write_i64" => some ⟨.signed, 8⟩
  | "write_f32" => some ⟨.float, 4⟩
  | "write_f64" => some ⟨.float, 8⟩
  | _ => none

/-- The words by the names of the methods that read them. -/
def read? : String → Option WireWord
  | "read_u8" => some ⟨.unsigned, 1⟩
  | "read_u16" => some ⟨.unsigned, 2⟩
  | "read_u32" => some ⟨.unsigned, 4⟩
  | "read_u64" => some ⟨.unsigned, 8⟩
  | "read_i8" => some ⟨.signed, 1⟩
  | "read_i16" => some ⟨.signed, 2⟩
  | "read_i32" => some ⟨.signed, 4⟩
  | "read_i64" => some ⟨.signed, 8⟩
  | "read_f32" => some ⟨.float, 4⟩
  | "read_f64" => some ⟨.float, 8⟩
  | _ => none

/-- The pattern of a value in a word of its kind. -/
def pattern? (w : WireWord) : FieldValue → Option Nat
  | .unsigned n => if w.kind = .unsigned then some n else none
  | .signed z => if w.kind = .signed then some (toTwosComplement w.bytes z) else none
  | .words [p] => if w.kind = .float then some p else none
  | _ => none

/-- The value that a pattern stands for in a word. -/
def value (w : WireWord) (pattern : Nat) : FieldValue :=
  match w.kind with
  | .unsigned => .unsigned pattern
  | .signed => .signed (ofTwosComplement w.bytes pattern)
  | .float => .words [pattern]

end WireWord

/-! ## Writing -/

/-- A statement that writes to the buffer. -/
inductive WriteStatement where
  /-- Writes the value of a field as a word. -/
  | word (w : WireWord) (field : String)
  /-- Writes a part of the value of a field as a word. -/
  | part (w : WireWord) (field part : String)
  /-- Writes a truth value as a byte. -/
  | flag (field : String)
  /-- Appends the bytes of a field. -/
  | bytes (field : String)
  /-- Makes a quaternion a unit, or fails and names its place, and writes parts of it. -/
  | unit (field place : String) (parts : List (WireWord × String))
  /-- Fails for bytes that are too many, and names their place; otherwise writes their length and appends them. -/
  | counted (field place : String) (max : Nat) (width : PrefixWidth)
  deriving DecidableEq, Repr

/-- A part of a quaternion by its name. -/
def Wire.Quaternion.part? (q : Wire.Quaternion) : String → Option UInt32
  | "i" => some q.i
  | "j" => some q.j
  | "k" => some q.k
  | _ => none

/-- What a statement does for the values of some fields, if these are of the types that it is for. -/
def WriteStatement.run (values : String → Option FieldValue) : WriteStatement → Option Emission
  | word w field => do
    let pattern ← w.pattern? (← values field)
    return .wrote (littleEndian w.bytes pattern)
  | part w field name =>
    match w.kind, values field with
    | .float, some (.words patterns) => do
      let pattern ← patterns[["x", "y", "z", "w"].idxOf name]?
      return .wrote (littleEndian w.bytes pattern)
    | _, _ => none
  | flag field =>
    match values field with
    | some (.flag b) => some (.wrote [if b then 1 else 0])
    | _ => none
  | bytes field =>
    match values field with
    | some (.bytes content) => some (.wrote content)
    | _ => none
  | unit field place parts =>
    match values field with
    | some (.rotation q) =>
      match q.normalize? with
      | none => some (.stopped (.degenerateQuaternion place))
      | some normed => do
        let patterns ← parts.mapM fun (w, name) => do
          let bits ← normed.part? name
          if w.kind = .float then some (littleEndian w.bytes bits.toNat) else none
        return .wrote patterns.flatten
    | _ => none
  | counted field place max width =>
    match values field with
    | some (.bytes content) =>
      if max < content.length then some (.stopped (.variableTooLong place content.length max))
      else some (.wrote (littleEndian width.size content.length ++ content))
    | _ => none

/-- What statements do one after the other, up to the first failure. -/
def runWrites (values : String → Option FieldValue) : List WriteStatement → Option Emission
  | [] => some (.wrote [])
  | statement :: rest => do
    return (← statement.run values) ++ (← runWrites values rest)

namespace Recognizer

open Code (of word paren bracket brace)

/-- Takes a method that writes or reads a word, by its name. One of more than a byte is given the order of its bytes. -/
def method (named? : String → Option WireWord) : Recognizer WireWord := do
  let text ← atom
  match named? text with
  | none => failure
  | some w =>
    if w.bytes = 1 then return w
    else do
      expect (of ":: < LittleEndian >")
      return w

/-- Takes a field of the record that is written. -/
def selfField : Recognizer String := do
  expect (of "self .")
  name .field

/-- Takes what a statement writes a word of. -/
def operand (w : WireWord) : Recognizer WriteStatement := do
  let field ← selfField
  (do
    expect (word ".")
    return .part w field (← atom)) <|>
  (do
    expect (of "as u8")
    if w = ⟨.unsigned, 1⟩ then return .flag field else failure) <|>
  return .word w field

/-- Takes a statement that writes a word. -/
def putWord : Recognizer WriteStatement := do
  expect (of "buffer .")
  let w ← method WireWord.written?
  let statement ← inside .paren (operand w)
  expect (of "? ;")
  return statement

/-- Takes a part of a unit quaternion. -/
def normedPart : Recognizer String := do
  expect (of "normed .")
  atom

/-- Takes a statement that writes a part of a unit quaternion. -/
def putPart : Recognizer (WireWord × String) := do
  expect (of "buffer .")
  let w ← method WireWord.written?
  let part ← inside .paren normedPart
  expect (of "? ;")
  return (w, part)

/-- Takes the bytes of a field: those of the field itself, or a view of them. -/
def bytesOf : Recognizer String :=
  (do
    expect (word "&")
    let field ← selfField
    expect (of ". octets" ++ paren []) <|> pure ()
    return field) <|>
  (do
    let field ← selfField
    expect (of ". as_bytes" ++ paren [])
    return field)

/-- Takes a statement that appends the bytes of a field. -/
def putBytes : Recognizer WriteStatement := do
  expect (of "buffer . extend_from_slice")
  let field ← inside .paren bytesOf
  expect (word ";")
  return .bytes field

/-- Takes the place of a field in an error. -/
def placeField : Recognizer String := do
  expect (of "field :")
  literal

/-- Takes an error of the support code that names the place of a field. -/
def place (runtime : Code) (error : String) : Recognizer String := do
  expect (runtime ++ of error)
  inside .brace placeField

/-- Takes the statements that write a unit quaternion. -/
def putUnit (runtime : Code) : Recognizer WriteStatement := do
  expect (of "let normed =")
  let field ← selfField
  expect (of ". normalize" ++ paren [] ++ of ". ok_or")
  let place ← inside .paren (place runtime ":: WriteError :: DegenerateQuaternion")
  expect (of "? ;")
  let parts ← many putPart
  return .unit field place parts

/-- Takes the place of a field, its length and the greatest length in an error. -/
def tooLongFields : Recognizer (String × Nat) := do
  let place ← placeField
  expect (of ", len , max :")
  let max ← number
  expect (word ",")
  return (place, max)

/-- Takes the error for bytes that are too many. -/
def tooLong (runtime : Code) : Recognizer (String × Nat) := do
  expect (runtime ++ of ":: WriteError :: VariableTooLong")
  inside .brace tooLongFields

/-- Takes a statement that fails with the error for bytes that are too many. -/
def failTooLong (runtime : Code) : Recognizer (String × Nat) := do
  expect (of "return Err")
  let error ← inside .paren (tooLong runtime)
  expect (word ";")
  return error

/-- Takes the statement that writes a length. -/
def putLength : Recognizer PrefixWidth :=
  (do
    expect (of "buffer . write_u8" ++ paren (of "len as u8") ++ of "? ;")
    return .one) <|>
  (do
    expect (of "buffer . write_u16 :: < LittleEndian >" ++ paren (of "len as u16") ++ of "? ;")
    return .two)

/-- Takes the statements that write bytes behind their length: the limit that is tested is the one that is reported, and
the bytes are those of the field whose length was taken. -/
def putCounted (runtime : Code) : Recognizer WriteStatement := do
  expect (of "let len =")
  let field ← selfField
  expect (of ". len" ++ paren [] ++ word ";" ++ of "if len >")
  let max ← number
  let (place, reported) ← inside .brace (failTooLong runtime)
  let width ← putLength
  let content ← putBytes
  if reported = max ∧ content = .bytes field then return .counted field place max width else failure

/-- Takes a statement that writes a field, or a part of one. -/
def writeStatement (runtime : Code) : Recognizer WriteStatement :=
  putWord <|> putBytes <|> inside .brace (putUnit runtime) <|> inside .brace (putCounted runtime)

/-! ### The statements that are generated -/

/-- A method of a word of one byte is its name. -/
theorem takes_method_byte {named? : String → Option WireWord} {text name : String} {w : WireWord} (htext : of text = word name)
    (h : named? name = some w) (hone : w.bytes = 1) : Takes (method named?) (of text) w := by
  intro rest
  simp [htext, method, h, hone]

/-- A method of a longer word is its name, with the order of the bytes. -/
theorem takes_method_ordered {named? : String → Option WireWord} {text name : String} {w : WireWord}
    (htext : of text = word name ++ of ":: < LittleEndian >") (h : named? name = some w) (hmore : w.bytes ≠ 1) :
    Takes (method named?) (of text) w := by
  intro rest
  simp [htext, method, h, hmore]

/-- A field stands for its value. -/
theorem whole?_operand_word (w : WireWord) (field : String) :
    whole? (operand w) (of "self ." ++ Code.fieldWord field) = some (.word w field) := by
  have hpart : expect (word ".") [] = none := rfl
  have hflag : expect (of "as u8") [] = none := rfl
  apply whole?_of_eq
  simp [operand, selfField, hpart, hflag]

/-- A field that is cast to a byte stands for a truth value. -/
theorem whole?_operand_flag (field : String) :
    whole? (operand ⟨.unsigned, 1⟩) (of "self ." ++ Code.fieldWord field ++ of "as u8") = some (.flag field) := by
  have hpart : expect (word ".") (of "as u8") = none := rfl
  apply whole?_of_eq
  simp [operand, selfField, hpart]

/-- A part of a field stands for that part of its value. -/
theorem whole?_operand_part (w : WireWord) (field part : String) :
    whole? (operand w) (of "self ." ++ Code.fieldWord field ++ word "." ++ word part) = some (.part w field part) := by
  apply whole?_of_eq
  simp [operand, selfField]

/-- A call that writes a word is recognized by its method and what it is given. -/
theorem takes_putWord {text : String} {w : WireWord} (hmethod : Takes (method WireWord.written?) (of text) w) {value : Code}
    {statement : WriteStatement} (hvalue : whole? (operand w) value = some statement) :
    Takes putWord (Generator.put text value) statement := by
  intro rest
  simp [putWord, Generator.put, hmethod _, hvalue]

/-- The bytes of a field are appended as they are, or by the name of a view of them. -/
theorem takes_putBytes {value : Code} {field : String} (hvalue : whole? bytesOf value = some field) :
    Takes putBytes (Generator.putBytes value) (.bytes field) := by
  intro rest
  simp [putBytes, Generator.putBytes, hvalue]

/-- The bytes of a field are recognized with the field. -/
theorem whole?_bytesOf_field (field : String) :
    whole? bytesOf (word "&" ++ (of "self ." ++ Code.fieldWord field)) = some field := by
  have hoctets : expect (of ". octets") [] = none := rfl
  apply whole?_of_eq
  simp [bytesOf, selfField, hoctets]

/-- The octets of a field are recognized with the field. -/
theorem whole?_bytesOf_octets (field : String) :
    whole? bytesOf (word "&" ++ (of "self ." ++ Code.fieldWord field) ++ of ". octets" ++ paren []) = some field := by
  apply whole?_of_eq
  simp [bytesOf, selfField]

/-- A view of the bytes of a field is recognized with the field. -/
theorem whole?_bytesOf_view (field : String) :
    whole? bytesOf (of "self ." ++ Code.fieldWord field ++ of ". as_bytes" ++ paren []) = some field := by
  have hfield (rest : Code) : expect (word "&") (of "self ." ++ rest) = none := rfl
  apply whole?_of_eq
  simp [bytesOf, selfField, hfield]

variable (g : Generator)

/-- The place in an error is recognized. -/
theorem takes_place (error path : String) :
    Takes (place g.runtime error) (g.path error ++ brace (of "field :" ++ Code.literal path)) path := by
  have hfield : whole? placeField (of "field :" ++ Code.literal path) = some path := by
    apply whole?_of_eq
    simp [placeField]
  intro rest
  simp [place, Generator.path, hfield]

/-- A call that writes a part of a unit quaternion is recognized with the part. -/
theorem takes_putPart (part : String) : Takes putPart
    (Generator.put "write_f32 :: < LittleEndian >" (word "normed" ++ word "." ++ word part)) (⟨.float, 4⟩, part) := by
  have hmethod : Takes (method WireWord.written?) (of "write_f32 :: < LittleEndian >") ⟨.float, 4⟩ :=
    takes_method_ordered (show _ = word "write_f32" ++ of ":: < LittleEndian >" from rfl) rfl (by decide)
  have hpart : whole? normedPart (word "normed" ++ (word "." ++ word part)) = some part := by
    have hnormed : of "normed ." = word "normed" ++ word "." := rfl
    apply whole?_of_eq
    simp [normedPart, hnormed]
  intro rest
  simp [putPart, Generator.put, hmethod _, hpart]

/-- The statements for a quaternion are recognized with their place and the three imaginary parts. -/
theorem whole?_putUnit (field path : String) :
    whole? (putUnit g.runtime) (of "let normed =" ++ (of "self ." ++ Code.fieldWord field) ++
    of ". normalize" ++ paren [] ++ of ". ok_or" ++
    paren (g.path ":: WriteError :: DegenerateQuaternion" ++ brace (of "field :" ++ Code.literal path)) ++ of "? ;" ++
    Generator.putParts "write_f32 :: < LittleEndian >" (word "normed") ["i", "j", "k"]) =
      some (.unit field path [(⟨.float, 4⟩, "i"), (⟨.float, 4⟩, "j"), (⟨.float, 4⟩, "k")]) := by
  have hparts : many putPart (Generator.putParts "write_f32 :: < LittleEndian >" (word "normed") ["i", "j", "k"] ++ []) =
      some ([(⟨.float, 4⟩, "i"), (⟨.float, 4⟩, "j"), (⟨.float, 4⟩, "k")], []) :=
    (takesMany_all (fun part _ => takes_putPart part) fun _ _ => by simp [Generator.put]).many_eq rfl
  rw [List.append_nil] at hparts
  apply whole?_of_eq
  simp [putUnit, selfField, (takes_place g _ path).whole?_eq, hparts]

/-- Statements that start with a length are not those for a quaternion. -/
theorem whole?_putUnit_length (runtime rest : Code) : whole? (putUnit runtime) (of "let len =" ++ rest) = none := by
  have hstart : expect (of "let normed =") (of "let len =" ++ rest) = none := expect_eq_none (by cbv) rest
  simp [whole?, putUnit, hstart]

/-- The statement that writes a length is recognized with its width. -/
theorem takes_putLength (width : PrefixWidth) : Takes putLength (Generator.putLength width) width := by
  have hone : of "buffer . write_u8" = of "buffer ." ++ of "write_u8" := rfl
  have htwo : of "buffer . write_u16 :: < LittleEndian >" = of "buffer ." ++ of "write_u16 :: < LittleEndian >" :=
    rfl
  have hother (rest : Code) : expect (of "write_u8") (of "write_u16 :: < LittleEndian >" ++ rest) = none :=
    expect_eq_none (by cbv) rest
  intro rest
  cases width with
  | one => simp [putLength, Generator.putLength, Generator.put, hone]
  | two => simp [putLength, Generator.putLength, Generator.put, hone, htwo, hother]

/-- The failure for bytes that are too many is recognized with its place and its limit. -/
theorem whole?_failTooLong (path : String) (max : Nat) : whole? (failTooLong g.runtime) (of "return Err" ++
    paren (g.path ":: WriteError :: VariableTooLong" ++
      brace (of "field :" ++ Code.literal path ++ of ", len , max :" ++ Code.number max ++ word ",")) ++ word ";") =
        some (path, max) := by
  have hfields : whole? tooLongFields
      (of "field :" ++ (Code.literal path ++ (of ", len , max :" ++ (Code.number max ++ word ",")))) =
      some (path, max) := by
    apply whole?_of_eq
    simp [tooLongFields, placeField]
  have herror : whole? (tooLong g.runtime) (g.path ":: WriteError :: VariableTooLong" ++
      brace (of "field :" ++ (Code.literal path ++ (of ", len , max :" ++ (Code.number max ++ word ","))))) =
        some (path, max) := by
    apply whole?_of_eq
    simp [tooLong, Generator.path, hfields]
  apply whole?_of_eq
  simp [failTooLong, herror]

/-- The statements for bytes of any number are recognized with their place, limit and width. -/
theorem whole?_putCounted (field path : String) (width : PrefixWidth) : whole? (putCounted g.runtime) (of "let len =" ++
    (of "self ." ++ Code.fieldWord field) ++ of ". len" ++ paren [] ++ word ";" ++ of "if len >" ++ Code.number width.maxLength ++
    brace (of "return Err" ++ paren (g.path ":: WriteError :: VariableTooLong" ++
      brace (of "field :" ++ Code.literal path ++ of ", len , max :" ++ Code.number width.maxLength ++ word ",")) ++ word ";") ++
    Generator.putLength width ++ Generator.putBytes (word "&" ++ (of "self ." ++ Code.fieldWord field))) =
      some (.counted field path width.maxLength width) := by
  have hfail := whole?_failTooLong g path width.maxLength
  simp only [List.append_assoc] at hfail
  have hcontent := takes_putBytes (whole?_bytesOf_field field) []
  rw [List.append_nil] at hcontent
  apply whole?_of_eq
  simp [putCounted, selfField, hfail, takes_putLength width _, hcontent]

/-! ### Choosing between statements -/

section Choice

variable {code body : Code} {statement : WriteStatement}

/-- A statement that writes a word is the first choice. -/
theorem takes_writeStatement_word (runtime : Code) (h : Takes putWord code statement) :
    Takes (writeStatement runtime) code statement :=
  h.orElse_left _

/-- To append bytes is not to write a word. -/
theorem takes_writeStatement_bytes (runtime : Code) {value : Code} (h : Takes putBytes (Generator.putBytes value) statement) :
    Takes (writeStatement runtime) (Generator.putBytes value) statement := by
  refine (h.orElse_left _).orElse_right fun rest => ?_
  have hbuffer : of "buffer . extend_from_slice" = of "buffer ." ++ word "extend_from_slice" := rfl
  have hname : WireWord.written? "extend_from_slice" = none := rfl
  simp [putWord, Generator.putBytes, hbuffer, method, hname]

/-- Nothing in braces writes a word or appends bytes. -/
theorem takes_writeStatement_brace {runtime : Code}
    (h : Takes (inside .brace (putUnit runtime) <|> inside .brace (putCounted runtime))
    (brace body) statement) : Takes (writeStatement runtime) (brace body) statement := by
  refine (h.orElse_right fun rest => ?_).orElse_right fun rest => ?_
  · simp [putBytes, show expect (of "buffer . extend_from_slice") (brace body ++ rest) = none from rfl]
  · simp [putWord, show expect (of "buffer .") (brace body ++ rest) = none from rfl]

end Choice

end Recognizer

/-! ## What the statements of a field write -/

section Writes

open Code (of word paren brace)
open Recognizer (Takes TakesMany method writeStatement)
open Wire (encodeValue encodeValue_rotation encodeValue_counted)

variable {values : String → Option FieldValue} {field place : String} {v : FieldValue}

/-- One statement alone does what it does. -/
theorem runWrites_singleton (values : String → Option FieldValue) (statement : WriteStatement) :
    runWrites values [statement] = statement.run values := by
  rw [runWrites, runWrites]
  cases statement.run values <;> simp

/-- Statements do what their first part does, and then what the second one does. -/
theorem runWrites_append {first second : List WriteStatement} {e e' : Emission} (hfirst : runWrites values first = some e)
    (hsecond : runWrites values second = some e') : runWrites values (first ++ second) = some (e ++ e') := by
  induction first generalizing e with
  | nil =>
    cases hfirst
    exact hsecond
  | cons statement first ih =>
    obtain ⟨front, hfront, hrest⟩ := Option.bind_eq_some_iff.mp hfirst
    obtain ⟨back, hback, he⟩ := Option.bind_eq_some_iff.mp hrest
    cases he
    rw [List.cons_append, runWrites, hfront, ih hback, Emission.append_assoc]
    rfl

/-- A number of some bytes is written as a word of them. -/
theorem runWrites_unsigned {bytes : Nat} (hv : v.FitsLayout (.unsigned bytes)) (hvalue : values field = some v) :
    runWrites values [.word ⟨.unsigned, bytes⟩ field] = some (encodeValue place (.unsigned bytes) v) := by
  rw [runWrites_singleton]
  cases v with
  | unsigned n =>
    have hrun : WriteStatement.run values (.word ⟨.unsigned, bytes⟩ field) = some (.wrote (littleEndian bytes n)) := by
      simp [WriteStatement.run, hvalue, WireWord.pattern?]
    exact hrun
  | _ => exact hv.elim

/-- A number in two's complement is written as a word of its pattern. -/
theorem runWrites_signed {bytes : Nat} (hv : v.FitsLayout (.signed bytes)) (hvalue : values field = some v) :
    runWrites values [.word ⟨.signed, bytes⟩ field] = some (encodeValue place (.signed bytes) v) := by
  rw [runWrites_singleton]
  cases v with
  | signed z =>
    have hrun : WriteStatement.run values (.word ⟨.signed, bytes⟩ field) =
        some (.wrote (littleEndian bytes (toTwosComplement bytes z))) := by
      simp [WriteStatement.run, hvalue, WireWord.pattern?]
    exact hrun
  | _ => exact hv.elim

/-- A floating-point number is written as a word. -/
theorem runWrites_float {bytes : Nat} (hv : v.FitsLayout (.words bytes 1)) (hvalue : values field = some v) :
    runWrites values [.word ⟨.float, bytes⟩ field] = some (encodeValue place (.words bytes 1) v) := by
  rw [runWrites_singleton]
  cases v with
  | words patterns =>
    obtain ⟨p, rfl⟩ := List.length_eq_one_iff.mp hv.1
    have hrun : WriteStatement.run values (.word ⟨.float, bytes⟩ field) =
        some (.wrote ([p].flatMap (littleEndian bytes))) := by
      simp [WriteStatement.run, hvalue, WireWord.pattern?]
    exact hrun
  | _ => exact hv.elim

/-- Parts of a vector are written one after the other. -/
theorem runWrites_parts {bytes : Nat} {patterns written : List Nat} {parts : List String}
    (hvalue : values field = some (.words patterns))
    (hparts : parts.map (fun part => patterns[["x", "y", "z", "w"].idxOf part]?) = written.map some) :
    runWrites values (parts.map (.part ⟨.float, bytes⟩ field)) = some (.wrote (written.flatMap (littleEndian bytes))) := by
  induction parts generalizing written with
  | nil =>
    cases written with
    | nil => rfl
    | cons p written => cases hparts
  | cons part parts ih =>
    cases written with
    | nil => cases hparts
    | cons p written =>
      obtain ⟨hpart, hrest⟩ := List.cons.inj hparts
      simp [runWrites, WriteStatement.run, hvalue, hpart, ih hrest]

/-- All parts of a vector of three are written. -/
theorem runWrites_three {bytes : Nat} (hv : v.FitsLayout (.words bytes 3)) (hvalue : values field = some v) :
    runWrites values (["x", "y", "z"].map (.part ⟨.float, bytes⟩ field)) = some (encodeValue place (.words bytes 3) v) := by
  cases v with
  | words patterns =>
    obtain ⟨a, b, c, rfl⟩ := List.length_eq_three.mp hv.1
    exact runWrites_parts hvalue rfl
  | _ => exact hv.elim

/-- All parts of a vector of four are written. -/
theorem runWrites_four {bytes : Nat} (hv : v.FitsLayout (.words bytes 4)) (hvalue : values field = some v) :
    runWrites values (["x", "y", "z", "w"].map (.part ⟨.float, bytes⟩ field)) = some (encodeValue place (.words bytes 4) v) := by
  cases v with
  | words patterns =>
    match patterns, hv.1 with
    | [a, b, c, d], _ => exact runWrites_parts hvalue rfl
  | _ => exact hv.elim

/-- Bytes of a declared number are appended. -/
theorem runWrites_bytes {size : Nat} (hv : v.FitsLayout (.raw size)) (hvalue : values field = some v) :
    runWrites values [.bytes field] = some (encodeValue place (.raw size) v) := by
  rw [runWrites_singleton]
  cases v with
  | bytes content =>
    have hrun : WriteStatement.run values (.bytes field) = some (.wrote content) := by
      simp [WriteStatement.run, hvalue]
    exact hrun
  | _ => exact hv.elim

/-- A truth value is written as one or zero. -/
theorem runWrites_flag (hv : v.FitsLayout .flag) (hvalue : values field = some v) :
    runWrites values [.flag field] = some (encodeValue place .flag v) := by
  rw [runWrites_singleton]
  cases v with
  | flag b =>
    have hrun : WriteStatement.run values (.flag field) = some (.wrote [if b then 1 else 0]) := by
      simp [WriteStatement.run, hvalue]
    exact hrun
  | _ => exact hv.elim

/-- A quaternion is made a unit, and its imaginary parts are written. -/
theorem runWrites_unit (hv : v.FitsLayout .rotation) (hvalue : values field = some v) :
    runWrites values [.unit field place [(⟨.float, 4⟩, "i"), (⟨.float, 4⟩, "j"), (⟨.float, 4⟩, "k")]] =
      some (encodeValue place .rotation v) := by
  rw [runWrites_singleton]
  cases v with
  | rotation q =>
    rw [encodeValue_rotation]
    cases hq : q.normalize? with
    | none => simp [WriteStatement.run, hvalue, hq]
    | some normed => simp [WriteStatement.run, hvalue, hq, Wire.Quaternion.part?]
  | _ => exact hv.elim

/-- Bytes are written behind their length, if that fits. -/
theorem runWrites_counted {width : PrefixWidth} (hv : v.FitsLayout (.counted width)) (hvalue : values field = some v) :
    runWrites values [.counted field place width.maxLength width] = some (encodeValue place (.counted width) v) := by
  rw [runWrites_singleton]
  cases v with
  | bytes content =>
    rw [encodeValue_counted]
    by_cases hlength : content.length ≤ width.maxLength
    · simp [WriteStatement.run, hvalue, hlength, Nat.not_lt.mpr hlength]
    · simp [WriteStatement.run, hvalue, hlength, Nat.lt_of_not_le hlength]
  | _ => exact hv.elim

/-- The call that writes the value of a field is the statement for it. -/
theorem takesMany_word (runtime : Code) {text : String} {w : WireWord} (hmethod : Takes (method WireWord.written?) (of text) w)
    (field : String) :
    TakesMany (writeStatement runtime) (Generator.put text (of "self ." ++ Code.fieldWord field)) [.word w field] :=
  (Recognizer.takes_writeStatement_word runtime
    (Recognizer.takes_putWord hmethod (Recognizer.whole?_operand_word w field))).takesMany
    (by simp [Generator.put])

/-- The calls that write the parts of a field are the statements for them. -/
theorem takesMany_parts (runtime : Code) {text : String} {w : WireWord} (hmethod : Takes (method WireWord.written?) (of text) w)
    (field : String) (parts : List String) : TakesMany (writeStatement runtime)
      (Generator.putParts text (of "self ." ++ Code.fieldWord field) parts) (parts.map (.part w field)) :=
  Recognizer.takesMany_all (fun part _ => Recognizer.takes_writeStatement_word runtime
    (Recognizer.takes_putWord hmethod (Recognizer.whole?_operand_part w field part))) fun _ _ => by simp [Generator.put]

/-- The call that appends the bytes of a field is the statement for that. -/
theorem takesMany_bytes (runtime : Code) {value : Code} {field : String}
    (hvalue : Recognizer.whole? .bytesOf value = some field) :
    TakesMany (writeStatement runtime) (Generator.putBytes value) [.bytes field] :=
  (Recognizer.takes_writeStatement_bytes runtime (Recognizer.takes_putBytes hvalue)).takesMany (by simp [Generator.putBytes])

/-- The statements that write a field do what its layout says: with the name and the place of the field, for every value
of its type. -/
theorem Generator.writes_field (g : Generator) (b : Block) (f : Field) : ∃ statements,
    TakesMany (writeStatement g.runtime) (g.writeField b f) statements ∧ statements ≠ [] ∧
      ∀ values v, v.Fits f.type → values f.name = some v →
        runWrites values statements = some (encodeValue (b.fieldPath f) f.type.layout v) := by
  have hbyte {text name : String} {w : WireWord} (htext : of text = word name) (hname : WireWord.written? name = some w)
      (hone : w.bytes = 1) := takesMany_word g.runtime (Recognizer.takes_method_byte htext hname hone) f.name
  have hordered {text name : String} {w : WireWord} (htext : of text = word name ++ of ":: < LittleEndian >")
      (hname : WireWord.written? name = some w) (hmore : w.bytes ≠ 1) :=
    takesMany_word g.runtime (Recognizer.takes_method_ordered htext hname hmore) f.name
  have hsingle : Takes (method WireWord.written?) (of "write_f32 :: < LittleEndian >") ⟨.float, 4⟩ :=
    Recognizer.takes_method_ordered (show _ = word "write_f32" ++ _ from rfl) rfl (by decide)
  have hdouble : Takes (method WireWord.written?) (of "write_f64 :: < LittleEndian >") ⟨.float, 8⟩ :=
    Recognizer.takes_method_ordered (show _ = word "write_f64" ++ _ from rfl) rfl (by decide)
  unfold writeField
  cases htype : f.type with
  | u8 =>
    exact ⟨_, hbyte (show _ = word "write_u8" from rfl) rfl rfl, List.cons_ne_nil _ _,
      fun _ _ hv => runWrites_unsigned hv.layout⟩
  | u16 =>
    exact ⟨_, hordered (show _ = word "write_u16" ++ _ from rfl) rfl (by decide), List.cons_ne_nil _ _,
      fun _ _ hv => runWrites_unsigned hv.layout⟩
  | u32 =>
    exact ⟨_, hordered (show _ = word "write_u32" ++ _ from rfl) rfl (by decide), List.cons_ne_nil _ _,
      fun _ _ hv => runWrites_unsigned hv.layout⟩
  | u64 =>
    exact ⟨_, hordered (show _ = word "write_u64" ++ _ from rfl) rfl (by decide), List.cons_ne_nil _ _,
      fun _ _ hv => runWrites_unsigned hv.layout⟩
  | s8 =>
    exact ⟨_, hbyte (show _ = word "write_i8" from rfl) rfl rfl, List.cons_ne_nil _ _,
      fun _ _ hv => runWrites_signed hv.layout⟩
  | s16 =>
    exact ⟨_, hordered (show _ = word "write_i16" ++ _ from rfl) rfl (by decide), List.cons_ne_nil _ _,
      fun _ _ hv => runWrites_signed hv.layout⟩
  | s32 =>
    exact ⟨_, hordered (show _ = word "write_i32" ++ _ from rfl) rfl (by decide), List.cons_ne_nil _ _,
      fun _ _ hv => runWrites_signed hv.layout⟩
  | s64 =>
    exact ⟨_, hordered (show _ = word "write_i64" ++ _ from rfl) rfl (by decide), List.cons_ne_nil _ _,
      fun _ _ hv => runWrites_signed hv.layout⟩
  | ipPort =>
    exact ⟨_, hordered (show _ = word "write_u16" ++ _ from rfl) rfl (by decide), List.cons_ne_nil _ _,
      fun _ _ hv => runWrites_unsigned hv.layout⟩
  | f32 =>
    exact ⟨_, takesMany_word g.runtime hsingle f.name, List.cons_ne_nil _ _,
      fun _ _ hv => runWrites_float hv.layout⟩
  | f64 =>
    exact ⟨_, takesMany_word g.runtime hdouble f.name, List.cons_ne_nil _ _,
      fun _ _ hv => runWrites_float hv.layout⟩
  | vector3 =>
    exact ⟨_, takesMany_parts g.runtime hsingle f.name _, List.cons_ne_nil _ _,
      fun _ _ hv => runWrites_three hv.layout⟩
  | vector3d =>
    exact ⟨_, takesMany_parts g.runtime hdouble f.name _, List.cons_ne_nil _ _,
      fun _ _ hv => runWrites_three hv.layout⟩
  | vector4 =>
    exact ⟨_, takesMany_parts g.runtime hsingle f.name _, List.cons_ne_nil _ _,
      fun _ _ hv => runWrites_four hv.layout⟩
  | uuid =>
    exact ⟨_, takesMany_bytes g.runtime (Recognizer.whole?_bytesOf_view f.name), List.cons_ne_nil _ _,
      fun _ _ hv => runWrites_bytes hv.layout⟩
  | ipAddress =>
    exact ⟨_, takesMany_bytes g.runtime (Recognizer.whole?_bytesOf_octets f.name), List.cons_ne_nil _ _,
      fun _ _ hv => runWrites_bytes hv.layout⟩
  | fixed size =>
    exact ⟨_, takesMany_bytes g.runtime (Recognizer.whole?_bytesOf_field f.name), List.cons_ne_nil _ _,
      fun _ _ hv => runWrites_bytes hv.layout⟩
  | bool =>
    have hput := Recognizer.takes_putWord (Recognizer.takes_method_byte (show of "write_u8" = word "write_u8" from rfl)
      (show _ = some ⟨.unsigned, 1⟩ from rfl) rfl) (Recognizer.whole?_operand_flag f.name)
    exact ⟨_, (Recognizer.takes_writeStatement_word g.runtime hput).takesMany (by simp [put]), List.cons_ne_nil _ _,
      fun _ _ hv => runWrites_flag hv.layout⟩
  | quaternion =>
    have hunit := Recognizer.takes_inside (Recognizer.whole?_putUnit g f.name (b.fieldPath f)) .brace
    exact ⟨_, (Recognizer.takes_writeStatement_brace (hunit.orElse_left _)).takesMany (List.cons_ne_nil _ _),
      List.cons_ne_nil _ _, fun _ _ hv => runWrites_unit hv.layout⟩
  | varying width =>
    have hcounted := Recognizer.takes_inside (Recognizer.whole?_putCounted g f.name (b.fieldPath f) width) .brace
    refine ⟨_, (Recognizer.takes_writeStatement_brace (hcounted.orElse_right fun rest => ?_)).takesMany
      (List.cons_ne_nil _ _), List.cons_ne_nil _ _, fun _ _ hv => runWrites_counted hv.layout⟩
    simp only [List.singleton_append, Recognizer.inside_group, List.append_assoc, Recognizer.whole?_putUnit_length,
      Option.map_none]

end Writes

end MessageCatalog
