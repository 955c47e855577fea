import MessageCatalog.Code.Generate
import MessageCatalog.Proofs.Code.Recognition
import MessageCatalog.Proofs.Wire.Dispatch

/-!
# The functions on all messages in generated code

Generated code has three functions that speak of all messages: one gives a number its kind, one writes a message value,
and one reads the message of a number. Each is a match with an arm per message. All their tokens are recognized, header
and arms, and what is found is a surface: arms as data, which can be run. Only the codecs of the messages are left open
in a run. A fourth function reads a number and calls the one that reads the message of it.
-/

namespace MessageCatalog

open Wire (Body Decoder MessageValue Sink Written)

/-- An arm that gives a number its kind of message. -/
structure KindArm where
  /-- The number that the arm is for, `none` if it is for all others. -/
  number : Option Nat
  kind : Option String
  deriving DecidableEq, Repr

/-- What an arm that writes a message value does. -/
inductive WriteAct where
  /-- Hands the message and the sink to the codec of its type. -/
  | handOn
  /-- Fails, and names a message that is not supported. -/
  | refuse (message : String)
  deriving DecidableEq, Repr

/-- An arm that writes a message value. -/
structure WriteArm where
  variant : String
  act : WriteAct
  deriving DecidableEq, Repr

/-- What an arm that reads the message of a number does. -/
inductive ReadAct where
  /-- Reads a message by the codec of its type, and makes a message value of it. -/
  | read (variant type : String)
  /-- Fails, and names a message that is not supported. -/
  | refuse (message : String)
  /-- Fails, and gives the number. -/
  | unknown
  deriving DecidableEq, Repr

/-- An arm that reads the message of a number. -/
structure ReadArm where
  /-- The number that the arm is for, `none` if it is for all others. -/
  number : Option Nat
  act : ReadAct
  deriving DecidableEq, Repr

/-- What the functions on all messages do: the arms of each, and the type that each variant of message values holds. -/
structure Surface where
  kinds : List KindArm
  variants : List (String × String)
  writes : List WriteArm
  reads : List ReadArm
  deriving DecidableEq, Repr

/-! ## Recognizing the arms -/

namespace Recognizer

open Code (of word typeWord paren brace)

/-- Takes an arm that gives a number its kind of message, or the one that gives all others none. -/
def kindArm : Recognizer KindArm :=
  (do
    let n ← number
    expect (of "=> Some")
    let kind ← inside .paren do
      expect (of "MessageType ::")
      name .type
    expect (word ",")
    return ⟨some n, some kind⟩) <|>
  (do
    expect (of "_ => None ,")
    return ⟨none, none⟩)

/-- Takes a variant of message values with the type that it holds. -/
def variant : Recognizer (String × String) := do
  let variant ← name .type
  let type ← inside .paren (name .type)
  expect (word ",")
  return (variant, type)

/-- Takes an error of the support code that names a message. -/
def naming (runtime : Code) (error : String) : Recognizer String := do
  expect (runtime ++ of error)
  inside .brace do
    expect (of "message :")
    literal

/-- Takes an arm that writes a message value. -/
def writeArm (runtime : Code) : Recognizer WriteArm := do
  expect (of "MessageInstance ::")
  let variant ← name .type
  (do
    expect (paren (of "ref message") ++ word "=>" ++ runtime ++ of ":: Message :: write_to" ++
      paren (of "message , sink") ++ word ",")
    return ⟨variant, .handOn⟩) <|>
  (do
    expect (paren (word "_") ++ of "=> Err")
    let message ← inside .paren (naming runtime ":: WriteError :: Unsupported")
    expect (word ",")
    return ⟨variant, .refuse message⟩)

/-- Takes a call of the codec of a type that reads from the source. -/
def readCall (runtime : Code) : Recognizer String := do
  expect (word "<")
  let type ← name .type
  expect (word "as" ++ runtime ++ of ":: Message > :: read_from" ++ paren (word "source") ++ word "?")
  return type

/-- Takes a message value that is made of what a codec reads. -/
def readValue (runtime : Code) : Recognizer ReadAct := do
  expect (of "MessageInstance ::")
  let variant ← name .type
  let type ← inside .paren (readCall runtime)
  return .read variant type

/-- Takes the error for a number that is not known. -/
def unknownNumber (runtime : Code) : Recognizer Unit :=
  expect (runtime ++ of ":: ReadError :: UnknownMessageNumber" ++ paren (word "other"))

/-- Takes an arm that reads the message of a number, or the one that fails for all others. -/
def readArm (runtime : Code) : Recognizer ReadArm :=
  (do
    let n ← number
    let act ← (do
      expect (of "=> Ok")
      inside .paren (readValue runtime)) <|>
    (do
      expect (of "=> Err")
      return .refuse (← inside .paren (naming runtime ":: ReadError :: Unsupported")))
    expect (word ",")
    return ⟨some n, act⟩) <|>
  (do
    expect (of "other => Err")
    inside .paren (unknownNumber runtime)
    expect (word ",")
    return ⟨none, .unknown⟩)

/-! ### The arms that are generated -/

variable (g : Generator)

/-- An arm that gives a number its kind is recognized with both. -/
theorem takes_kindArm (m : Message) : Takes kindArm
    (Code.number m.number ++ of "=> Some" ++ paren (Generator.kindOf m) ++ word ",") ⟨some m.number, some m.name⟩ := by
  have hkind : Takes (do expect (of "MessageType ::"); name .type) (Generator.kindOf m) m.name := by
    intro rest
    simp [Generator.kindOf]
  intro rest
  simp [kindArm, hkind.whole?_eq]

/-- The arm for all other numbers gives no kind. -/
theorem takes_noKind : Takes kindArm (of "_ => None ,") ⟨none, none⟩ := by
  intro rest
  have hnumber : number (of "_ => None ," ++ rest) = none := rfl
  simp [kindArm, hnumber]

/-- A variant is recognized with the type that it holds. -/
theorem takes_variant (name : String) : Takes variant (typeWord name ++ paren (typeWord name) ++ word ",") (name, name) := by
  intro rest
  have hname : whole? (Recognizer.name .type) (typeWord name) = some name := rfl
  simp [variant, hname]

/-- An error that names a message is recognized with the name. -/
theorem takes_naming (error message : String) :
    Takes (naming g.runtime error) (g.path error ++ brace (of "message :" ++ Code.literal message)) message := by
  have hmessage : Takes (do expect (of "message :"); literal) (of "message :" ++ Code.literal message) message := by
    intro rest
    simp
  intro rest
  simp [naming, Generator.path, hmessage.whole?_eq]

/-- An arm that writes hands the message on if there is a codec, and names it otherwise. -/
theorem takes_writeArm (arm : Arm) : Takes (writeArm g.runtime) (g.writeArm arm)
    ⟨arm.message.name, if arm.hasCodec then .handOn else .refuse arm.message.name⟩ := by
  intro rest
  cases hcodec : arm.hasCodec with
  | true => simp [writeArm, Generator.writeArm, Generator.instanceOf, Generator.path, hcodec]
  | false =>
    have hpattern (rest : Code) : expect (paren (of "ref message")) (paren (word "_") ++ rest) = none :=
      expect_eq_none (by decide) rest
    simp [writeArm, Generator.writeArm, Generator.instanceOf, hcodec, hpattern, (takes_naming g _ arm.message.name).whole?_eq]

/-- A call of a codec that reads is recognized with the type of the codec. -/
theorem takes_readCall (type : String) : Takes (readCall g.runtime) (word "<" ++ typeWord type ++ word "as" ++
    g.path ":: Message > :: read_from" ++ paren (word "source") ++ word "?") type := by
  intro rest
  simp [readCall, Generator.path]

/-- A message value that is read is recognized with its variant and the type of the codec. -/
theorem takes_readValue (m : Message) : Takes (readValue g.runtime) (Generator.instanceOf m ++ paren (
    word "<" ++ typeWord m.name ++ word "as" ++ g.path ":: Message > :: read_from" ++ paren (word "source") ++ word "?"))
      (.read m.name m.name) := by
  have hcall := (takes_readCall g m.name).whole?_eq
  simp only [List.append_assoc] at hcall
  intro rest
  simp [readValue, Generator.instanceOf, hcall]

/-- An arm that reads takes the message from the source if there is a codec, and names it otherwise. -/
theorem takes_readArm (arm : Arm) : Takes (readArm g.runtime) (g.readArm arm)
    ⟨some arm.message.number, if arm.hasCodec then .read arm.message.name arm.message.name else .refuse arm.message.name⟩ := by
  intro rest
  cases hcodec : arm.hasCodec with
  | true =>
    have hvalue := (takes_readValue g arm.message).whole?_eq
    simp only [List.append_assoc] at hvalue
    simp [readArm, Generator.readArm, hcodec, hvalue]
  | false =>
    have houtcome (rest : Code) : expect (of "=> Ok") (of "=> Err" ++ rest) = none := expect_eq_none (by decide) rest
    simp [readArm, Generator.readArm, hcodec, houtcome, (takes_naming g _ arm.message.name).whole?_eq]

/-- The arm for all other numbers fails with the number. -/
theorem takes_unknown : Takes (readArm g.runtime) (of "other => Err" ++
    paren (g.path ":: ReadError :: UnknownMessageNumber" ++ paren (word "other")) ++ word ",") ⟨none, .unknown⟩ := by
  have herror : Takes (unknownNumber g.runtime) (g.path ":: ReadError :: UnknownMessageNumber" ++ paren (word "other")) () := by
    intro rest
    simp [unknownNumber, Generator.path]
  intro rest
  have hnumber (rest : Code) : number (of "other => Err" ++ rest) = none := rfl
  simp [readArm, hnumber, herror.whole?_eq]

end Recognizer

/-! ## The surface of generated code -/

namespace Code

open Recognizer (kindArm variant writeArm readArm many whole?)

/-- Whether code has the functions of a surface: each has its header, and a body that is one match, all of whose arms
are recognized. -/
structure HasSurface (code runtime : Code) (s : Surface) : Prop where
  kinds : ∃ functions arms, code.Has (of "impl MessageType") functions ∧
    functions.Has (of "pub fn from_number" ++ paren (of "number : u32") ++ of "-> Option < MessageType >")
      (of "match number" ++ brace arms) ∧
    whole? (many kindArm) arms = some s.kinds
  variants : ∃ variants, code.Has (of "pub enum MessageInstance") variants ∧ whole? (many variant) variants = some s.variants
  writes : ∃ functions arms, code.Has (of "impl MessageInstance") functions ∧
    functions.Has (of "pub fn write_to < W : :: std :: io :: Write + ? Sized >" ++
        paren (of "& self ," ++ word (if s.writes.isEmpty then "_sink" else "sink") ++ of ": & mut W") ++
        of "-> Result <" ++ paren [] ++ word "," ++ (runtime ++ of ":: WriteError >"))
      (of "match * self" ++ brace arms) ∧
    whole? (many (writeArm runtime)) arms = some s.writes
  reads : ∃ arms, code.Has (of "pub fn dispatch" ++ of "< R : :: std :: io :: Read + ? Sized >" ++
        paren (of "number : u32 ," ++ word (if s.writes.isEmpty then "_source" else "source") ++ of ": & mut R") ++
        of "-> Result < MessageInstance ," ++ (runtime ++ of ":: ReadError >"))
      (of "match number" ++ brace arms) ∧
    whole? (many (readArm runtime)) arms = some s.reads
  /-- A message is read by its number and the function that reads the message of a number. -/
  entry : ∃ functions, code.Has (of "impl MessageInstance") functions ∧
    functions.Has (of "pub fn read_from" ++ of "< R : :: std :: io :: Read + ? Sized >" ++ paren (of "source : & mut R") ++
        of "-> Result < MessageInstance ," ++ (runtime ++ of ":: ReadError >"))
      (of "let number =" ++ (runtime ++ of ":: read_message_number") ++ paren (word "source") ++ of "? ;" ++
        word "dispatch" ++ paren (of "number , source"))

end Code

/-- The surface of some messages, with or without a codec: each has its number, and is written and read by its codec or named in a
failure. -/
def Surface.ofArms (arms : List Arm) : Surface where
  kinds := arms.map (fun arm => ⟨some arm.message.number, some arm.message.name⟩) ++ [⟨none, none⟩]
  variants := arms.map fun arm => (arm.message.name, arm.message.name)
  writes := arms.map fun arm => ⟨arm.message.name, if arm.hasCodec then .handOn else .refuse arm.message.name⟩
  reads := arms.map (fun arm => ⟨some arm.message.number,
    if arm.hasCodec then .read arm.message.name arm.message.name else .refuse arm.message.name⟩) ++ [⟨none, .unknown⟩]

namespace Generator

open Code (of word typeWord paren brace)

variable (g : Generator)

/-- The enumeration of messages has the function that gives a number its kind. -/
theorem has_kinds (messages : List Message) : ∃ functions arms, (g.kinds messages).Has (of "impl MessageType") functions ∧
    functions.Has (of "pub fn from_number" ++ paren (of "number : u32") ++ of "-> Option < MessageType >")
      (of "match number" ++ brace arms) ∧
    Recognizer.whole? (.many .kindArm) arms =
      some (messages.map (fun m => ⟨some m.number, some m.name⟩) ++ [⟨none, none⟩]) := by
  have harms := Recognizer.takesMany_all (fun m (_ : m ∈ messages) => Recognizer.takes_kindArm m) fun m _ => by simp [Code.number]
  have hlast := Recognizer.takes_noKind.takesMany (by decide)
  refine ⟨_, _, Code.Has.of_suffix (List.suffix_append _ _) _, Code.Has.of_suffix ?_ _, (harms.append hlast).whole?_eq rfl⟩
  simp only [List.suffix_append_self_iff, List.suffix_append]

/-- The type of message values has a variant for each message, which holds its type. -/
theorem has_variants (arms : List Arm) : ∃ variants, (g.instances arms).Has (of "pub enum MessageInstance") variants ∧
    Recognizer.whole? (.many .variant) variants = some (arms.map fun arm => (arm.message.name, arm.message.name)) := by
  have hvariants := Recognizer.takesMany_all (fun arm (_ : arm ∈ arms) => Recognizer.takes_variant arm.message.name)
    fun arm _ => by simp [typeWord]
  exact ⟨_, (((Code.Has.of_suffix (List.suffix_append _ _) _).append_right _).append_right _).append_right _,
    hvariants.whole?_eq rfl⟩

/-- The functions of message values have one that writes, with an arm for each message. -/
theorem has_writes (arms : List Arm) : ∃ functions body, (g.instances arms).Has (of "impl MessageInstance") functions ∧
    functions.Has (of "pub fn write_to < W : :: std :: io :: Write + ? Sized >" ++
        paren (of "& self ," ++ word (if arms.isEmpty then "_sink" else "sink") ++ of ": & mut W") ++
        of "-> Result <" ++ paren [] ++ word "," ++ (g.runtime ++ of ":: WriteError >"))
      (of "match * self" ++ brace body) ∧
    Recognizer.whole? (.many (.writeArm g.runtime)) body =
      some (arms.map fun arm => ⟨arm.message.name, if arm.hasCodec then .handOn else .refuse arm.message.name⟩) := by
  have harm (arm : Arm) : g.writeArm arm ≠ [] := by
    cases hcodec : arm.hasCodec <;> simp [writeArm, hcodec, word]
  have harms := Recognizer.takesMany_all (fun arm (_ : arm ∈ arms) => Recognizer.takes_writeArm g arm) fun arm _ => harm arm
  refine ⟨_, _, (Code.Has.of_suffix (List.suffix_append _ _) _).append_right _, ?_, harms.whole?_eq rfl⟩
  -- What stands behind the function is the documentation, the header and the body of the next one.
  iterate 7 refine Code.Has.append_right ?_ _
  refine Code.Has.of_suffix ?_ _
  simp only [path, List.suffix_append_self_iff, List.suffix_append]

/-- The function that reads the message of a number has an arm for each message, and one for all other numbers. -/
theorem has_reads (arms : List Arm) : ∃ body, (g.dispatch arms).Has (of "pub fn dispatch" ++
        of "< R : :: std :: io :: Read + ? Sized >" ++
        paren (of "number : u32 ," ++ word (if arms.isEmpty then "_source" else "source") ++ of ": & mut R") ++
        of "-> Result < MessageInstance ," ++ (g.runtime ++ of ":: ReadError >"))
      (of "match number" ++ brace body) ∧
    Recognizer.whole? (.many (.readArm g.runtime)) body = some (arms.map (fun arm => ⟨some arm.message.number,
      if arm.hasCodec then .read arm.message.name arm.message.name else .refuse arm.message.name⟩) ++ [⟨none, .unknown⟩]) := by
  have harm (arm : Arm) : g.readArm arm ≠ [] := by
    cases hcodec : arm.hasCodec <;> simp [readArm, hcodec, word]
  have harms := Recognizer.takesMany_all (fun arm (_ : arm ∈ arms) => Recognizer.takes_readArm g arm) fun arm _ => harm arm
  have hlast := (Recognizer.takes_unknown g).takesMany (by simp [word])
  have hbody := (harms.append hlast).whole?_eq rfl
  simp only [← List.append_assoc] at hbody
  refine ⟨_, Code.Has.of_suffix ?_ _, hbody⟩
  simp only [path, sourceBound, List.suffix_append_self_iff, List.suffix_append]

/-- The functions of message values read a message by its number. -/
theorem has_entry (arms : List Arm) : ∃ functions, (g.instances arms).Has (of "impl MessageInstance") functions ∧
    functions.Has (of "pub fn read_from" ++ of "< R : :: std :: io :: Read + ? Sized >" ++ paren (of "source : & mut R") ++
        of "-> Result < MessageInstance ," ++ (g.runtime ++ of ":: ReadError >"))
      (of "let number =" ++ (g.runtime ++ of ":: read_message_number") ++ paren (word "source") ++ of "? ;" ++
        word "dispatch" ++ paren (of "number , source")) := by
  refine ⟨_, (Code.Has.of_suffix (List.suffix_append _ _) _).append_right _, Code.Has.of_suffix ?_ _⟩
  simp only [path, sourceBound, List.suffix_append_self_iff, List.suffix_append]

/-- The code of an outline has the surface of its arms. -/
theorem hasSurface_outlineCode (outline : Outline) :
    (g.outlineCode outline).HasSurface g.runtime (Surface.ofArms outline.arms) := by
  refine ⟨?_, ?_, ?_, ?_, ?_⟩
  · obtain ⟨functions, arms, himpl, hfunction, harms⟩ := g.has_kinds (outline.arms.map (·.message))
    refine ⟨functions, arms, ((himpl.append_left _).append_right _).append_right _, hfunction, ?_⟩
    rw [harms, List.map_map]
    rfl
  · obtain ⟨variants, henum, hvariants⟩ := g.has_variants outline.arms
    exact ⟨variants, (henum.append_left _).append_right _, hvariants⟩
  · obtain ⟨functions, arms, himpl, hfunction, harms⟩ := g.has_writes outline.arms
    refine ⟨functions, arms, (himpl.append_left _).append_right _, ?_, harms⟩
    simpa only [Surface.ofArms, List.isEmpty_map] using hfunction
  · obtain ⟨arms, hfunction, harms⟩ := g.has_reads outline.arms
    have hempty : (Surface.ofArms outline.arms).writes.isEmpty = outline.arms.isEmpty := List.isEmpty_map
    rw [hempty]
    exact ⟨arms, hfunction.append_left _, harms⟩
  · obtain ⟨functions, himpl, hfunction⟩ := g.has_entry outline.arms
    exact ⟨functions, (himpl.append_left _).append_right _, hfunction⟩

end Generator

/-! ## Running a surface -/

/-- What an arm that reads does, if the types have some codecs. -/
def ReadAct.run (readers : String → Decoder Body) (number : Nat) : ReadAct → Decoder MessageValue
  | read variant type => do
    return ⟨variant, ← readers type⟩
  | refuse message => throw (.unsupported message)
  | unknown => throw (.unknownNumber number)

namespace Surface

/-- The kind of a number, by the first arm for it. -/
def kindOf? (s : Surface) (number : Nat) : Option String :=
  (s.kinds.find? fun arm => arm.number.all (· == number)).bind (·.kind)

/-- What reads the message of a number, by the first arm for it. -/
def dispatch? (s : Surface) (readers : String → Decoder Body) (number : Nat) : Option (Decoder MessageValue) :=
  (s.reads.find? fun arm => arm.number.all (· == number)).map (·.act.run readers number)

/-- What reads a message from a source: its number, and then what reads the message of the number. -/
def read? (s : Surface) (readers : String → Decoder Body) (source : Wire.Source) :
    Option (EStateM.Result Wire.ReadError Wire.Source MessageValue) :=
  match Wire.takeMessageNumber source with
  | .ok n rest => (s.dispatch? readers n).map (· rest)
  | .error fault rest => some (.error (.source fault) rest)

/-- What writing a message value does, by the first arm for its variant. -/
def write? (s : Surface) (writers : String → Body → Sink → Written) (value : MessageValue) (sink : Sink) : Option Written := do
  let arm ← s.writes.find? (·.variant == value.name)
  match arm.act with
  | .handOn =>
    let variant ← s.variants.find? (·.1 == value.name)
    return writers variant.2 value.body sink
  | .refuse message => return ⟨[], [], some (.unsupported message)⟩

/-- Whether the functions of a surface do what a catalog does, as soon as the codecs of its messages do. -/
structure Realizes (s : Surface) (c : Wire.Catalog) : Prop where
  kinds : ∀ n, s.kindOf? n = (c.ofNumber? n).map (·.name)
  reads : ∀ readers : String → Decoder Body,
    (∀ m ∈ c.template.messages, c.hasCodec m = true → readers m.name = Wire.decodeBlocks m.blocks) →
    (∀ n, s.dispatch? readers n = some (c.dispatch n)) ∧ ∀ source, s.read? readers source = some (c.read source)
  writes : ∀ writers : String → Body → Sink → Written,
    (∀ m ∈ c.template.messages, c.hasCodec m = true → writers m.name = Wire.writeMessage m) →
    ∀ m ∈ c.template.messages, ∀ body sink, s.write? writers ⟨m.name, body⟩ sink = some (c.write m body sink)

/-- The first arm for a number is the one made of the first message that has it, or the last one. -/
theorem find?_arms {α : Type} {arm : Message → α} {last : α} {test : α → Bool} {n : Nat}
    (harm : ∀ m, test (arm m) = (m.number == n)) (hlast : test last = true) (messages : List Message) :
    (messages.map arm ++ [last]).find? test = some (((messages.find? (·.number == n)).map arm).getD last) := by
  have htest : test ∘ arm = fun m => m.number == n := funext harm
  rw [List.find?_append, List.find?_map, htest]
  cases messages.find? (·.number == n) <;> simp [hlast]

/-- What is made of messages with distinct names is found by the name of its message. -/
theorem find?_named {α : Type} {made : Message → α} {test : α → Bool} {messages : List Message}
    (hnames : (messages.map (·.name)).Nodup) {m : Message} (hm : m ∈ messages)
    (htest : ∀ m', test (made m') = (m'.name == m.name)) :
    (messages.map made).find? test = some (made m) := by
  have hcomp : test ∘ made = fun m' => m'.name == m.name := funext htest
  rw [List.find?_map, hcomp, find?_key_eq_some hnames hm]
  rfl

section Realizes

variable {c : Wire.Catalog}

/-- A number has the kind of the message that the catalog finds. -/
theorem kindOf?_ofArms (n : Nat) :
    (ofArms (c.template.messages.map fun m => ⟨m, c.hasCodec m⟩)).kindOf? n = (c.ofNumber? n).map (·.name) := by
  simp only [kindOf?, ofArms, List.map_map]
  rw [find?_arms (fun _ => rfl) rfl, Wire.Catalog.ofNumber?]
  cases c.template.messages.find? (·.number == n) <;> rfl

/-- The message of a number is read as the catalog reads it. -/
theorem dispatch?_ofArms {readers : String → Decoder Body}
    (hreaders : ∀ m ∈ c.template.messages, c.hasCodec m = true → readers m.name = Wire.decodeBlocks m.blocks) (n : Nat) :
    (ofArms (c.template.messages.map fun m => ⟨m, c.hasCodec m⟩)).dispatch? readers n = some (c.dispatch n) := by
  simp only [dispatch?, ofArms, List.map_map]
  rw [find?_arms (fun _ => rfl) rfl, Wire.Catalog.dispatch, Wire.Catalog.ofNumber?]
  cases hfind : c.template.messages.find? (·.number == n) with
  | none => rfl
  | some m =>
    have hm := List.mem_of_find?_eq_some hfind
    cases hcodec : c.hasCodec m with
    | true => simp [hcodec, ReadAct.run, hreaders m hm hcodec]
    | false => simp [hcodec, ReadAct.run]

/-- A message is read as the catalog reads it. -/
theorem read?_ofArms {readers : String → Decoder Body}
    (hreaders : ∀ m ∈ c.template.messages, c.hasCodec m = true → readers m.name = Wire.decodeBlocks m.blocks)
    (source : Wire.Source) :
    (ofArms (c.template.messages.map fun m => ⟨m, c.hasCodec m⟩)).read? readers source = some (c.read source) := by
  rw [read?, Wire.Catalog.read]
  cases Wire.takeMessageNumber source with
  | ok n rest =>
    dsimp only
    rw [dispatch?_ofArms hreaders n]
    rfl
  | error fault rest => rfl

/-- A message value is written as the catalog writes it. -/
theorem write?_ofArms (hnames : (c.template.messages.map (·.name)).Nodup) {writers : String → Body → Sink → Written}
    (hwriters : ∀ m ∈ c.template.messages, c.hasCodec m = true → writers m.name = Wire.writeMessage m) {m : Message}
    (hm : m ∈ c.template.messages) (body : Body) (sink : Sink) :
    (ofArms (c.template.messages.map fun m => ⟨m, c.hasCodec m⟩)).write? writers ⟨m.name, body⟩ sink =
      some (c.write m body sink) := by
  simp only [write?, ofArms, List.map_map]
  rw [find?_named hnames hm fun _ => rfl, find?_named hnames hm fun _ => rfl, Wire.Catalog.write]
  cases hcodec : c.hasCodec m with
  | true => simp [hcodec, hwriters m hm hcodec]
  | false => simp [hcodec]

end Realizes

/-- The surface of the messages of a catalog realizes it, as names of messages are distinct. -/
theorem realizes_ofArms {c : Wire.Catalog} (hnames : (c.template.messages.map (·.name)).Nodup) :
    (ofArms (c.template.messages.map fun m => ⟨m, c.hasCodec m⟩)).Realizes c where
  kinds := kindOf?_ofArms
  reads := fun _ hreaders => ⟨dispatch?_ofArms hreaders, read?_ofArms hreaders⟩
  writes := fun _ hwriters _ hm => write?_ofArms hnames hwriters hm

end Surface

end MessageCatalog
