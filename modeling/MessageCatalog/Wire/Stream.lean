import MessageCatalog.Wire.Catalog

/-!
# Byte streams

A stream is a row of bytes: what is written goes to its end, and what is read is taken from its front. A reader may see a stream
through a source that breaks before the stream ends.
-/

namespace MessageCatalog.Wire

/-- A break of a source: the number of bytes it delivers first, and what it says then. -/
structure Break where
  after : Nat
  reason : String
  deriving DecidableEq, Repr, Inhabited

/-- The source that delivers a stream up to its end, or up to a break that comes no later. -/
def Source.ofStream (stream : Bytes) : Option Break → Source
  | none => ⟨stream, .ended⟩
  | some cut => ⟨stream.take cut.after, if cut.after ≤ stream.length then .broken cut.reason else .ended⟩

/-- Takes something from the front of a stream, and returns what is left of it. Bytes taken before a failure are gone. -/
def receive {ε α : Type} (reader : EStateM ε Source α) (cut : Option Break) (stream : Bytes) : Except ε α × Bytes :=
  let behind := match cut with
    | none => []
    | some cut => stream.drop cut.after
  match reader (Source.ofStream stream cut) with
  | .ok a rest => (.ok a, rest.pending ++ behind)
  | .error e rest => (.error e, rest.pending ++ behind)

/-- Writes a message to the end of a stream through a sink. What the sink took stays in the stream after a failure. -/
def Catalog.send (c : Catalog) (m : Message) (body : Body) (sink : Sink) (stream : Bytes) : Written × Bytes :=
  let written := c.write m body sink
  (written, stream ++ written.bytes)

end MessageCatalog.Wire
