import MessageCatalog.Wire.Decode
import MessageCatalog.Wire.Encode

/-!
# Catalogs

A catalog is a template with the field types that have no codec. It tells messages apart by their numbers, writes the
messages that have a codec to a sink, and reads them from a source.
-/

namespace MessageCatalog.Wire

/-- A template and the tags of the field types without a codec. -/
structure Catalog where
  template : Template
  disabled : List String
  deriving DecidableEq, Repr, Inhabited

/-- A sink that takes at most some bytes by a call and at most some bytes in all; `none` stands for no limit. -/
structure Sink where
  chunk : Option Nat
  limit : Option Nat
  deriving DecidableEq, Repr, Inhabited

namespace Sink

/-- The sink without limits. -/
def unlimited : Sink := ⟨none, none⟩

/-- The bytes that a call takes of those offered. -/
def front (s : Sink) (offered : Bytes) : Bytes :=
  match s.chunk, s.limit with
  | none, none => offered
  | some chunk, none => offered.take chunk
  | none, some limit => offered.take limit
  | some chunk, some limit => offered.take (min chunk limit)

/-- The sink when it has taken some bytes. -/
def afterTaking (s : Sink) (count : Nat) : Sink :=
  { s with limit := s.limit.map (· - count) }

end Sink

/-- The calls that hand bytes to a sink, by the number of bytes each took, and whether all were taken. -/
structure Delivery where
  calls : List Nat
  complete : Bool
  deriving DecidableEq, Repr, Inhabited

/-- Hands bytes to a sink in as many calls as it takes. A call that takes nothing is the last. -/
def Sink.deliver (s : Sink) (bytes : Bytes) : Delivery :=
  if bytes.isEmpty then ⟨[], true⟩
  else
    let count := (s.front bytes).length
    if count = 0 then ⟨[0], false⟩
    else
      let rest := (s.afterTaking count).deliver (bytes.drop count)
      ⟨count :: rest.calls, rest.complete⟩
termination_by bytes.length
decreasing_by
  rename_i hne hcount
  have : bytes.length ≠ 0 := by
    intro h
    exact hne (by simpa [List.isEmpty_iff] using h)
  simp only [List.length_drop]
  omega

/-- What writing a message to a sink did: the calls, the bytes taken, and the error if there is one. -/
structure Written where
  calls : List Nat
  bytes : Bytes
  error : Option WriteError
  deriving DecidableEq, Repr, Inhabited

/-- Encodes a message of some body and then hands it to a sink, which is not touched unless the whole message can be encoded. -/
def writeMessage (m : Message) (body : Body) (sink : Sink) : Written :=
  match toBytes m body with
  | .error error => ⟨[], [], some error⟩
  | .ok bytes =>
    let delivery := sink.deliver bytes
    ⟨delivery.calls, bytes.take (delivery.calls.foldl (· + ·) 0), if delivery.complete then none else some .sinkFull⟩

namespace Catalog

/-- The message of a number: the first one that has it. -/
def ofNumber? (c : Catalog) (number : Nat) : Option Message :=
  c.template.messages.find? (·.number == number)

/-- Whether a message has a codec: none of its fields has a disabled type. -/
def hasCodec (c : Catalog) (m : Message) : Bool :=
  (m.disabledTag? c.disabled).isNone

/-- The message of a name, if it has a codec. -/
def codec? (c : Catalog) (name : String) : Option Message :=
  (c.template.message? name).filter c.hasCodec

/-- Writes a message to a sink, if the message has a codec. -/
def write (c : Catalog) (m : Message) (body : Body) (sink : Sink) : Written :=
  if c.hasCodec m then writeMessage m body sink else ⟨[], [], some (.unsupported m.name)⟩

/-- Reads the body of the message that a number names. -/
def dispatch (c : Catalog) (number : Nat) : Decoder MessageValue :=
  match c.ofNumber? number with
  | none => throw (.unknownNumber number)
  | some m =>
    if c.hasCodec m then do
      return ⟨m.name, ← decodeBlocks m.blocks⟩
    else throw (.unsupported m.name)

/-- Reads a message: its identifier, then the body of the message it names. -/
def read (c : Catalog) : Decoder MessageValue := fun s =>
  match takeMessageNumber s with
  | .ok number rest => c.dispatch number rest
  | .error fault rest => .error (.source fault) rest

end Catalog

/-- Why a message did not get from a writer to a reader. -/
inductive TransferError where
  | notWritten (error : WriteError)
  | notRead (error : ReadError)
  deriving DecidableEq, Repr, Inhabited

/-- Writes a message to a fresh buffer and reads it back. -/
def Catalog.roundTrip (c : Catalog) (m : Message) (body : Body) : Except TransferError MessageValue :=
  let written := c.write m body .unlimited
  match written.error with
  | some error => .error (.notWritten error)
  | none =>
    match c.read ⟨written.bytes, .ended⟩ with
    | .ok value _ => .ok value
    | .error error _ => .error (.notRead error)

end MessageCatalog.Wire
