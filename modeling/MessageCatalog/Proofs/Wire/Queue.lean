import MessageCatalog.Proofs.Wire.Delivery
import MessageCatalog.Wire.Stream

/-!
# A stream is a queue of messages

Messages are written to the end of a stream and read from its front, in any order and any number. The stream always
holds the bytes of the messages that were written and not yet read, one behind the other (`Holds`): a write that fails
adds nothing, and a read takes the bytes of the first message and no others. So messages arrive in the order in which
they were sent, and a read fails only when there is nothing to be read.
-/

namespace MessageCatalog.Wire

/-! ## Sinks that take everything -/

/-- A sink that takes all bytes, if in several calls. -/
structure Sink.AcceptsAll (s : Sink) : Prop where
  limit : s.limit = none
  chunk : s.chunk ≠ some 0

/-- A sink that takes everything admits any number of bytes. -/
theorem Sink.AcceptsAll.admits {s : Sink} (h : s.AcceptsAll) (count : Nat) : s.Admits count := by
  constructor
  · intro chunk hchunk
    exact Nat.pos_of_ne_zero fun h0 => h.chunk (h0 ▸ hchunk)
  · intro limit hlimit
    rw [h.limit] at hlimit
    cases hlimit

/-- Writing to such a sink: all bytes of the message, or nothing. -/
theorem Catalog.write_cases (c : Catalog) (m : Message) (body : Body) {sink : Sink} (h : sink.AcceptsAll) :
    (c.hasCodec m = true ∧ (c.write m body sink).error = none ∧ toBytes m body = .ok (c.write m body sink).bytes) ∨
      ∃ error, (c.write m body sink).error = some error ∧ (c.write m body sink).bytes = [] := by
  cases hcodec : c.hasCodec m with
  | false =>
    rw [c.write_of_noCodec hcodec]
    exact Or.inr ⟨_, rfl, rfl⟩
  | true =>
    cases hbytes : toBytes m body with
    | error error =>
      rw [c.write_of_error hcodec hbytes]
      exact Or.inr ⟨error, rfl, rfl⟩
    | ok bytes =>
      have hdelivered := c.delivered_write hcodec hbytes sink
      have hall := hdelivered.bytes_eq_iff.mpr (h.admits bytes.length)
      exact Or.inl ⟨rfl, hdelivered.error_eq_none_iff.mpr hall, by rw [hall]⟩

/-! ## Sessions -/

/-- What can be done with a stream: to write a message to it through a sink, and to read one from it. -/
inductive Action where
  | send (m : Message) (body : Body) (sink : Sink)
  | receive
  deriving DecidableEq, Repr

/-- What comes of it. -/
inductive Event where
  | sent (value : MessageValue)
  | refused (error : WriteError)
  | received (value : MessageValue)
  | failed (error : ReadError)
  deriving DecidableEq, Repr

/-- The value that was written. -/
def Event.sent? : Event → Option MessageValue
  | sent value => some value
  | _ => none

/-- The value that was read. -/
def Event.received? : Event → Option MessageValue
  | received value => some value
  | _ => none

/-- The values that were written, in order. -/
def sentValues (events : List Event) : List MessageValue :=
  events.filterMap Event.sent?

/-- The values that were read, in order. -/
def receivedValues (events : List Event) : List MessageValue :=
  events.filterMap Event.received?

/-- A stream, and what came of all that was done with it. -/
structure Session where
  stream : Bytes
  events : List Event
  deriving DecidableEq, Repr

namespace Session

/-- The session before anything was done. -/
def start : Session := ⟨[], []⟩

/-- The session when one more thing was done. -/
def act (c : Catalog) (s : Session) : Action → Session
  | .send m body sink =>
    let outcome := c.send m body sink s.stream
    let event := match outcome.1.error with
      | none => .sent ⟨m.name, body⟩
      | some error => .refused error
    ⟨outcome.2, s.events ++ [event]⟩
  | .receive =>
    let outcome := Wire.receive c.read none s.stream
    let event := match outcome.1 with
      | .ok value => .received value
      | .error error => .failed error
    ⟨outcome.2, s.events ++ [event]⟩

/-- The session when some things were done one after the other. -/
def run (c : Catalog) (actions : List Action) : Session :=
  actions.foldl (act c) start

end Session

/-- The value that arrives when one is sent. -/
def MessageValue.arriving (v : MessageValue) : MessageValue :=
  ⟨v.name, receivedBody v.body⟩

/-- Whether a message that is written is one of the template with a body of it, and its sink takes everything. -/
def Action.WellTyped (t : Template) : Action → Prop
  | .send m body sink => m ∈ t.messages ∧ BodyFits m.blocks body ∧ sink.AcceptsAll
  | .receive => True

@[simp] theorem sentValues_concat (events : List Event) (e : Event) :
    sentValues (events ++ [e]) = sentValues events ++ e.sent?.toList := by
  cases e <;> simp [sentValues, Event.sent?]

@[simp] theorem receivedValues_concat (events : List Event) (e : Event) :
    receivedValues (events ++ [e]) = receivedValues events ++ e.received?.toList := by
  cases e <;> simp [receivedValues, Event.received?]

/-! ## What a stream holds -/

/-- The stream holds the bytes of the values one behind the other, and nothing else. -/
inductive Holds (c : Catalog) : Bytes → List MessageValue → Prop where
  | nil : Holds c [] []
  | cons {front rest : Bytes} {v : MessageValue} {values : List MessageValue} :
      Reads c.read front v → Holds c rest values → Holds c (front ++ rest) (v :: values)

/-- What is written goes behind all that the stream holds. -/
theorem Holds.concat {c : Catalog} {stream bytes : Bytes} {values : List MessageValue} {v : MessageValue}
    (h : Holds c stream values) (hv : Reads c.read bytes v) : Holds c (stream ++ bytes) (values ++ [v]) := by
  induction h with
  | nil => simpa using Holds.cons hv Holds.nil
  | cons hfirst _ ih =>
    rw [List.append_assoc]
    exact Holds.cons hfirst ih

/-- From a stream that holds something its first value is read, and the rest stays. -/
theorem receive_append {c : Catalog} {front : Bytes} {v : MessageValue} (h : Reads c.read front v) (rest : Bytes) :
    receive c.read none (front ++ rest) = (.ok v, rest) := by
  simp only [receive, Source.ofStream, h rest .ended, List.append_nil]

namespace Session

/-- A session in order: the stream holds the values that are to come, and with those that have come they are all that
were sent. -/
structure InOrder (c : Catalog) (s : Session) (pending : List MessageValue) : Prop where
  holds : Holds c s.stream pending
  order : (sentValues s.events).map MessageValue.arriving = receivedValues s.events ++ pending

/-- One step of a queue: a value is added behind those that are to come, or the first of them is taken. A write that is
refused changes nothing, and a read fails only with nothing to come. -/
inductive Step (s : Session) : List MessageValue → Session → List MessageValue → Prop where
  | sent (bytes : Bytes) (v : MessageValue) (pending : List MessageValue) :
      Step s pending ⟨s.stream ++ bytes, s.events ++ [.sent v]⟩ (pending ++ [v.arriving])
  | refused (error : WriteError) (pending : List MessageValue) : Step s pending ⟨s.stream, s.events ++ [.refused error]⟩ pending
  | received (rest : Bytes) (v : MessageValue) (pending : List MessageValue) :
      Step s (v :: pending) ⟨rest, s.events ++ [.received v]⟩ pending
  | failed (fault : SourceFault) : Step s [] ⟨[], s.events ++ [.failed (.source fault)]⟩ []

/-- Writing a message to a stream in order. -/
theorem step_send {c : Catalog} (hvalid : c.template.Valid) {s : Session} {pending : List MessageValue}
    (h : Holds c s.stream pending) {m : Message} {body : Body} {sink : Sink}
    (hsend : (Action.send m body sink).WellTyped c.template) :
    ∃ pending', s.Step pending (s.act c (.send m body sink)) pending' ∧
      Holds c (s.act c (.send m body sink)).stream pending' := by
  obtain ⟨hm, hfits, hsink⟩ := hsend
  simp only [act, Catalog.send]
  rcases c.write_cases m body hsink with ⟨hcodec, herror, hbytes⟩ | ⟨error, herror, hbytes⟩
  · rw [herror]
    exact ⟨_, .sent _ ⟨m.name, body⟩ pending, h.concat (reads_toBytes hvalid hm hcodec hfits hbytes)⟩
  · rw [herror, hbytes, List.append_nil]
    exact ⟨pending, .refused error pending, h⟩

/-- Reading a message from a stream in order. -/
theorem step_receive {c : Catalog} {s : Session} {pending : List MessageValue} (h : Holds c s.stream pending) :
    ∃ pending', s.Step pending (s.act c .receive) pending' ∧ Holds c (s.act c .receive).stream pending' := by
  obtain ⟨stream, events⟩ := s
  cases h with
  | nil => exact ⟨[], .failed .ended, .nil⟩
  | @cons front rest v values hv hrest =>
    simp only [act, List.append_eq, receive_append hv]
    exact ⟨values, .received rest v values, hrest⟩

/-- One action is a step of a queue: it puts a value at the end, takes the one in front, or fails and leaves the queue. -/
theorem step_act {c : Catalog} (hvalid : c.template.Valid) {s : Session} {pending : List MessageValue}
    (h : Holds c s.stream pending) {a : Action} (ha : a.WellTyped c.template) :
    ∃ pending', s.Step pending (s.act c a) pending' ∧ Holds c (s.act c a).stream pending' := by
  cases a with
  | send m body sink => exact step_send hvalid h ha
  | receive => exact step_receive h

/-- A step of a queue keeps the values in order. -/
theorem Step.order {s s' : Session} {pending pending' : List MessageValue} (h : s.Step pending s' pending')
    (horder : (sentValues s.events).map MessageValue.arriving = receivedValues s.events ++ pending) :
    (sentValues s'.events).map MessageValue.arriving = receivedValues s'.events ++ pending' := by
  cases h with
  | sent bytes v => simp [Event.sent?, Event.received?, horder]
  | refused error => simp [Event.sent?, Event.received?, horder]
  | received rest v pending => simp [Event.sent?, Event.received?, horder]
  | failed fault => simpa [Event.sent?, Event.received?] using horder

/-- Whatever is done with a stream in order, it stays in order. -/
theorem InOrder.foldl {c : Catalog} (hvalid : c.template.Valid) {actions : List Action}
    (hactions : ∀ a ∈ actions, a.WellTyped c.template) {s : Session} {pending : List MessageValue}
    (h : s.InOrder c pending) : ∃ pending', (actions.foldl (act c) s).InOrder c pending' := by
  induction actions generalizing s pending with
  | nil => exact ⟨pending, h⟩
  | cons a actions ih =>
    rw [List.forall_mem_cons] at hactions
    obtain ⟨pending', hstep, hholds⟩ := step_act hvalid h.holds hactions.1
    exact ih hactions.2 ⟨hholds, hstep.order h.order⟩

end Session

/-- A stream of messages of a template that was read from a source is a queue. Whatever was done with it, the values
that were read are those that were written first, in order. What is done next leaves the stream as it is if a write
fails, and a read fails only if all that was written has been read: with a fault of the source, and then the stream is
empty. -/
theorem session_is_queue {source : String} {t : Template} (hparse : parse source = .ok t) (disabled : List String)
    {actions : List Action} (hactions : ∀ a ∈ actions, a.WellTyped t) :
    let c : Catalog := ⟨t, disabled⟩
    let s := Session.run c actions
    receivedValues s.events <+: (sentValues s.events).map MessageValue.arriving ∧ ∀ a : Action, a.WellTyped t →
      (∀ error, (s.act c a).events = s.events ++ [.refused error] → (s.act c a).stream = s.stream) ∧
      ∀ error, (s.act c a).events = s.events ++ [.failed error] →
        receivedValues s.events = (sentValues s.events).map MessageValue.arriving ∧
          (∃ fault, error = .source fault) ∧ (s.act c a).stream = [] := by
  intro c s
  have hvalid : c.template.Valid := parse_valid hparse
  obtain ⟨pending, hs⟩ : ∃ pending, s.InOrder c pending :=
    Session.InOrder.foldl hvalid hactions (s := .start) ⟨Holds.nil, rfl⟩
  refine ⟨⟨pending, hs.order.symm⟩, fun a ha => ?_⟩
  obtain ⟨pending', hstep, -⟩ := Session.step_act hvalid hs.holds ha
  generalize s.act c a = s' at hstep ⊢
  cases hstep with
  | sent bytes v => simp
  | refused error => simp
  | received rest v => simp
  | failed fault => simp [hs.order]

/-- A body that cannot be written, with a quaternion of norm zero. -/
def sampleDegenerate : Body :=
  [[[.rotation ⟨0, 0, 0, 0⟩, .bytes []], [.rotation ⟨0, 0x40000000, 0, 0⟩, .bytes []]]]

/-- A write in pieces, a write that fails, and another write, with a read between and one behind them. -/
def sampleActions : List Action :=
  [.send sampleMove sampleBody ⟨some 3, none⟩, .send sampleMove sampleDegenerate .unlimited, .receive,
    .send samplePing [[]] .unlimited, .receive]

/-- What comes of these. -/
def sampleEvents : List Event :=
  [.sent ⟨"Move", sampleBody⟩, .refused (.degenerateQuaternion "Move.Body.Turn"), .received ⟨"Move", sampleReceived⟩,
    .sent ⟨"Ping", [[]]⟩, .received ⟨"Ping", [[]]⟩]

theorem wellTyped_sampleActions : ∀ a ∈ sampleActions, a.WellTyped sampleTemplate := by
  have hmove : sampleMove ∈ sampleTemplate.messages := by simp [sampleTemplate]
  have hping : samplePing ∈ sampleTemplate.messages := by simp [sampleTemplate]
  have hdegenerate : BodyFits sampleMove.blocks sampleDegenerate := by
    simp [BodyFits, BlockFits, AllowsRecords, RecordFits, FieldValue.Fits, sampleMove, sampleDegenerate]
  have hempty : BodyFits samplePing.blocks [[]] := by
    simp [BodyFits, BlockFits, AllowsRecords, samplePing]
  have hpieces : (Sink.mk (some 3) none).AcceptsAll := ⟨rfl, by decide⟩
  have hunlimited : Sink.unlimited.AcceptsAll := ⟨rfl, by decide⟩
  simp only [sampleActions, List.forall_mem_cons, List.not_mem_nil, false_imp_iff, implies_true, and_true]
  exact ⟨⟨hmove, fits_sampleBody, hpieces⟩, ⟨hmove, hdegenerate, hunlimited⟩, trivial, ⟨hping, hempty, hunlimited⟩, trivial⟩

/-- A session that sends and receives gets the values in the order in which they were sent, and then finds the stream at its
end. -/
theorem session_is_queue_sample : (∀ a ∈ sampleActions, a.WellTyped sampleTemplate) ∧
    Session.run ⟨sampleTemplate, []⟩ sampleActions = ⟨[], sampleEvents⟩ ∧
      Session.act ⟨sampleTemplate, []⟩ ⟨[], sampleEvents⟩ .receive = ⟨[], sampleEvents ++ [.failed (.source .ended)]⟩ ∧
      receivedValues sampleEvents = (sentValues sampleEvents).map MessageValue.arriving := by
  have hrun : Session.run ⟨sampleTemplate, []⟩ sampleActions = ⟨[], sampleEvents⟩ := by decide +kernel
  have hact : Session.act ⟨sampleTemplate, []⟩ ⟨[], sampleEvents⟩ .receive =
    ⟨[], sampleEvents ++ [.failed (.source .ended)]⟩ := rfl
  have h := (session_is_queue parse_sampleSource [] wellTyped_sampleActions).2 .receive trivial
  simp only [hrun] at h
  exact ⟨wellTyped_sampleActions, hrun, hact, (h.2 _ (congrArg Session.events hact)).1⟩

end MessageCatalog.Wire
