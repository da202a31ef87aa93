import ArgoTwin.Columns
import ArgoTwin.JsonText
import ArgoTwin.Nats
import ArgoTwin.Ownership
import ArgoTwin.State
/-!
# Events in messages

A published event is its canonical JSON, all fields and the hash. The
consumer reads the document back under a strict set of keys, takes it for
version 2 only and verifies it under the hash it names. The row of the
table and the message spell times differently, and both read back as the
sealed event (`codecs_agree`).
-/

namespace ArgoTwin

open Library

/-! ## Writing a message -/

namespace EventEnvelope

/-- The fields of a message. -/
def fields (e : EventEnvelope) : List (String × Json) :=
  [("event_id", .str e.eventId), ("twin_id", .str e.twinId), ("event_type", .str e.eventType),
   ("plane", .str e.plane.value), ("payload", .ofPayload e.payload),
   ("occurred_at", .str e.occurredAt.toPrimitive),
   ("recorded_at", .str e.recordedAt.toPrimitive), ("producer", .str e.producer),
   ("producer_role", .str e.producerRole.value), ("idempotency_key", .str e.idempotencyKey),
   ("schema_version", .str e.schemaVersion), ("sequence", .int e.sequence),
   ("causation_id", optStr e.causationId), ("correlation_id", optStr e.correlationId),
   ("previous_hash", .str e.previousHash), ("event_hash", .str e.eventHash)]

/-- `to_primitive` of an event. -/
def primitive (e : EventEnvelope) : Json := Json.object e.fields

/-- The event with its times in UTC. -/
def inUtc (e : EventEnvelope) : EventEnvelope :=
  { e with occurredAt := e.occurredAt.astimezoneUtc, recordedAt := e.recordedAt.astimezoneUtc }

end EventEnvelope

/-- A publisher, without its connection. -/
structure JetStreamPublisher where
  tenant : String
  timeout : PyFloat
  maxEventBytes : Int := 2 * 1024 * 1024

/-- What is handed to JetStream. -/
structure PublishedMessage where
  subject : String
  payload : ByteArray
  headers : List (String × String)

/-- `JetStreamPublisher.publish`. -/
def JetStreamPublisher.publish [Digest] (p : JetStreamPublisher) (e : EventEnvelope) :
    Except PyError PublishedMessage := do
  if e.sequence < 1 || e.eventHash == "" then
    throw (.integrityError "NATS publisher requires a persisted event")
  e.verify e.previousHash
  let payload := (canonicalJson e.primitive).toUTF8
  if p.maxEventBytes < payload.size then
    throw (.messageTooLarge "canonical NATS event exceeds its byte limit")
  let subject ← NatsSubjectTopology.event p.tenant e
  pure
    { subject := subject
      payload := payload
      headers := [("Content-Type", "application/json"), ("Argo-Schema", e.schemaVersion),
        ("Nats-Msg-Id", e.eventId)] }

/-! ## Reading one -/

/-- An event as it was read: the two optional identifiers are whatever
stands under their keys, text or not. -/
structure DecodedEvent where
  event : EventEnvelope
  causationId : Json
  correlationId : Json
  deriving DecidableEq

namespace DecodedEvent

/-- An event whose identifiers are texts. -/
def ofEvent (e : EventEnvelope) : DecodedEvent :=
  ⟨e, optStr e.causationId, optStr e.correlationId⟩

/-- `_hash_material`, of the identifiers as they were read. -/
def hashMaterial (d : DecodedEvent) : Json :=
  let e := d.event
  Json.object <|
    [("event_id", .str e.eventId), ("twin_id", .str e.twinId), ("event_type", .str e.eventType),
     ("plane", .str e.plane.value), ("payload", .ofPayload e.payload),
     ("occurred_at", .str e.occurredAt.toPrimitive),
     ("recorded_at", .str e.recordedAt.toPrimitive), ("producer", .str e.producer),
     ("idempotency_key", .str e.idempotencyKey), ("schema_version", .str e.schemaVersion),
     ("sequence", .int e.sequence), ("causation_id", d.causationId),
     ("correlation_id", d.correlationId), ("previous_hash", .str e.previousHash)] ++
    (if e.schemaVersion = "argo.dt.event/v1" then []
     else [("producer_role", .str e.producerRole.value)])

/-- `verify`. -/
def verify [Digest] (d : DecodedEvent) (expectedPreviousHash : String) : Except PyError Unit :=
  let e := d.event
  if e.previousHash ≠ expectedPreviousHash then
    .error (.integrityError ("previous hash mismatch at sequence " ++ toString e.sequence ++ ": " ++
      Json.reprStr e.previousHash ++ " != " ++ Json.reprStr expectedPreviousHash))
  else if e.eventHash ≠ contentHash d.hashMaterial then
    .error (.integrityError ("event hash mismatch at sequence " ++ toString e.sequence))
  else .ok ()

end DecodedEvent

/-- The fields an event must have, sorted as a message lists those missing. -/
def requiredFields : List String :=
  ["event_hash", "event_id", "event_type", "idempotency_key", "occurred_at", "payload", "plane",
   "previous_hash", "producer", "recorded_at", "schema_version", "sequence", "twin_id"]

/-- The identifiers and the role, which may be missing. -/
def optionalFields : List String := ["producer_role", "causation_id", "correlation_id"]

/-- `value[name]`, of a field that is there. -/
def fieldOf (value : Payload) (name : String) : Json := (value[name]?).getD .null

/-- An identifier that is text. -/
def textOf : Json → Option String
  | .str text => some text
  | _ => none

/-- `event_from_primitive`. -/
def eventFromPrimitive (value : Payload) : Except PyError DecodedEvent := do
  let missing := requiredFields.filter fun name => !value.contains name
  if missing ≠ [] then
    throw (.invariantViolation ("golden event missing fields: " ++ ", ".intercalate missing))
  let schemaVersion := (fieldOf value "schema_version").pyStr
  if !(["argo.dt.event/v1", "argo.dt.event/v2"].contains schemaVersion) then
    throw (.invariantViolation "unsupported golden event schema version")
  if schemaVersion = "argo.dt.event/v2" && !value.contains "producer_role" then
    throw (.invariantViolation "golden v2 event missing producer_role")
  let extra := value.keys.filter fun name => !(requiredFields ++ optionalFields).contains name
  if extra ≠ [] then
    throw (.invariantViolation ("golden event has unknown fields: " ++ ", ".intercalate extra))
  let role ← if value.contains "producer_role" then
      ProducerRole.ofValue (fieldOf value "producer_role").pyStr
    else soleEventOwner (fieldOf value "event_type").pyStr
  let plane ← EventPlane.ofValue (fieldOf value "plane").pyStr
  let payload ← TwinState.pyDict (fieldOf value "payload")
  let occurredAt ← parseTime (fieldOf value "occurred_at").pyStr
  let recordedAt ← parseTime (fieldOf value "recorded_at").pyStr
  let sequence ← TwinState.pyInt (fieldOf value "sequence")
  let causationId := fieldOf value "causation_id"
  let correlationId := fieldOf value "correlation_id"
  pure
    { event :=
        { eventId := (fieldOf value "event_id").pyStr
          twinId := (fieldOf value "twin_id").pyStr
          eventType := (fieldOf value "event_type").pyStr
          plane := plane
          payload := payload
          occurredAt := occurredAt
          recordedAt := recordedAt
          producer := (fieldOf value "producer").pyStr
          producerRole := role
          idempotencyKey := (fieldOf value "idempotency_key").pyStr
          schemaVersion := schemaVersion
          sequence := sequence
          causationId := textOf causationId
          correlationId := textOf correlationId
          previousHash := (fieldOf value "previous_hash").pyStr
          eventHash := (fieldOf value "event_hash").pyStr }
      causationId := causationId
      correlationId := correlationId }

/-- How a consumer reads a document: its floats, and what a document with
a value of the language that is none of `Json` comes out as. -/
structure DocumentReader where
  nearest : PyFloat → Option PyFloat
  foreign : String → Except PyError DecodedEvent

/-- The event a document holds, strictly read: an object names no key twice. -/
def JetStreamConsumer.readEvent (r : DocumentReader) (payload : ByteArray) :
    Except PyError DecodedEvent :=
  match String.fromUTF8? payload with
  | none => .error (.protocolViolation "NATS event is invalid JSON")
  | some text =>
    match Json.loads ⟨r.nearest, true⟩ text with
    | .error .invalid => .error (.protocolViolation "NATS event is invalid JSON")
    | .error .foreign => r.foreign text
    | .ok (.obj fields) =>
      match eventFromPrimitive (Payload.ofFields fields) with
      | .ok event => .ok event
      | .error _ => .error (.protocolViolation "NATS event envelope is invalid")
    | .ok _ => .error (.protocolViolation "NATS event must be an object")

/-- `JetStreamConsumer._decode`. -/
def JetStreamConsumer.decode [Digest] (r : DocumentReader) (c : JetStreamConsumer)
    (payload : ByteArray) : Except PyError DecodedEvent := do
  if c.maxEventBytes < payload.size then
    throw (.protocolViolation "NATS event exceeds its byte limit")
  let event ← readEvent r payload
  if event.event.schemaVersion ≠ "argo.dt.event/v2" then
    throw (.protocolViolation "NATS accepts only EventEnvelope v2")
  event.verify event.event.previousHash
  pure event

/-- `json.loads` of a payload column. A text that is no object has no place
in `Payload`, and is refused here. -/
def loadsPayload (nearest : PyFloat → Option PyFloat) (text : String) : Except PyError Payload :=
  match Json.loads ⟨nearest, false⟩ text with
  | .ok (.obj fields) => .ok (Payload.ofFields fields)
  | .ok _ => .error (.typeError "a payload is an object")
  | .error _ => .error (.valueError "Expecting value")

/-! ## Reading back -/

namespace DecodedEvent

variable [Digest] {d : DecodedEvent} {e : EventEnvelope} {previous : String}

theorem verify_eq_ok : d.verify previous = .ok () ↔
    d.event.previousHash = previous ∧ d.event.eventHash = contentHash d.hashMaterial := by
  unfold verify
  simp only
  split_ifs with hprevious hhash
  · exact ⟨nofun, fun h => absurd h.1 hprevious⟩
  · exact ⟨nofun, fun h => absurd h.2 hhash⟩
  · exact ⟨fun _ => ⟨not_not.1 hprevious, not_not.1 hhash⟩, fun _ => rfl⟩

omit [Digest] in
theorem hashMaterial_ofEvent (e : EventEnvelope) : (ofEvent e).hashMaterial = e.hashMaterial := rfl

end DecodedEvent

namespace EventEnvelope

theorem hashMaterial_inUtc (e : EventEnvelope) : e.inUtc.hashMaterial = e.hashMaterial := by
  simp only [hashMaterial, inUtc, DateTime.toPrimitive_astimezoneUtc]
  rfl

variable {e : EventEnvelope}

theorem primitive_eq (e : EventEnvelope) : e.primitive = .ofPayload (Payload.ofFields e.fields) :=
  Payload.object_eq _

theorem textOf_optStr (text : Option String) : textOf (optStr text) = text := by
  cases text <;> rfl

theorem optStr_proper (nearest : PyFloat → Option PyFloat) (text : Option String) :
    (optStr text).Proper nearest := by
  cases text <;> trivial

/-- **A message is read back.** -/
theorem eventFromPrimitive_fields (hversion : e.schemaVersion = "argo.dt.event/v2")
    (hoccurred : DateTime.Representable e.occurredAt.instant)
    (hrecorded : DateTime.Representable e.recordedAt.instant) :
    eventFromPrimitive (Payload.ofFields e.fields) = .ok (.ofEvent e.inUtc) := by
  have hfield : ∀ name value, e.fields.reverse.lookup name = some value →
      fieldOf (Payload.ofFields e.fields) name = value := by
    intro name value h
    rw [fieldOf, Payload.getElem?_ofFields, h]
    rfl
  have hnames : e.fields.map (·.1) = ["event_id", "twin_id", "event_type", "plane", "payload",
      "occurred_at", "recorded_at", "producer", "producer_role", "idempotency_key",
      "schema_version", "sequence", "causation_id", "correlation_id", "previous_hash",
      "event_hash"] := rfl
  have hcontains : ∀ name, (Payload.ofFields e.fields).contains name =
      (e.fields.map (·.1)).contains name := by
    intro name
    rw [Bool.eq_iff_iff, Std.ExtTreeMap.contains_iff_mem, Payload.mem_ofFields,
      List.contains_iff_mem]
  have hmissing : requiredFields.filter (fun name => !(Payload.ofFields e.fields).contains name) =
      [] := by
    simp only [hcontains, hnames]
    decide
  have hextra : (Payload.ofFields e.fields).keys.filter (fun name =>
      !(requiredFields ++ optionalFields).contains name) = [] := by
    rw [List.filter_eq_nil_iff]
    intro name hname
    rw [Std.ExtTreeMap.mem_keys, Payload.mem_ofFields, hnames] at hname
    have hall : ∀ name ∈ ["event_id", "twin_id", "event_type", "plane", "payload",
        "occurred_at", "recorded_at", "producer", "producer_role", "idempotency_key",
        "schema_version", "sequence", "causation_id", "correlation_id", "previous_hash",
        "event_hash"], (requiredFields ++ optionalFields).contains name = true := by decide
    rw [hall name hname]
    decide
  have hrole : (Payload.ofFields e.fields).contains "producer_role" = true := by
    rw [hcontains, hnames]
    decide
  unfold eventFromPrimitive
  simp only [hmissing, hextra, hrole, hfield "schema_version" (.str e.schemaVersion) rfl,
    hfield "event_id" (.str e.eventId) rfl, hfield "twin_id" (.str e.twinId) rfl,
    hfield "event_type" (.str e.eventType) rfl, hfield "plane" (.str e.plane.value) rfl,
    hfield "payload" (.ofPayload e.payload) rfl,
    hfield "occurred_at" (.str e.occurredAt.toPrimitive) rfl,
    hfield "recorded_at" (.str e.recordedAt.toPrimitive) rfl,
    hfield "producer" (.str e.producer) rfl,
    hfield "producer_role" (.str e.producerRole.value) rfl,
    hfield "idempotency_key" (.str e.idempotencyKey) rfl,
    hfield "sequence" (.int e.sequence) rfl,
    hfield "causation_id" (optStr e.causationId) rfl,
    hfield "correlation_id" (optStr e.correlationId) rfl,
    hfield "previous_hash" (.str e.previousHash) rfl,
    hfield "event_hash" (.str e.eventHash) rfl, hversion, Json.pyStr_str, ProducerRole.ofValue_value,
    EventPlane.ofValue_value, TwinState.pyDict_ofPayload, parseTime_toPrimitive hoccurred,
    parseTime_toPrimitive hrecorded, TwinState.pyInt, textOf_optStr]
  have hutc : e.inUtc = { e.inUtc with schemaVersion := "argo.dt.event/v2" } := by
    rw [← hversion]
    rfl
  rw [hutc]
  rfl

/-- A message says of a payload what is read back of it. -/
theorem canonicalJson_primitive_reread (e : EventEnvelope) :
    canonicalJson e.reread.primitive = canonicalJson e.primitive := by
  have hread : e.primitive.reread = e.reread.primitive := by
    rw [primitive, primitive, Json.reread_object, fields, fields, reread]
    simp only [List.map_cons, List.map_nil, Json.reread_ofPayload, reread_optStr]
    rfl
  rw [← hread, canonicalJson_reread]

/-- What a sealed event says of itself. -/
theorem verify_sealAt [Digest] (e : EventEnvelope) (n : Int) (previous : String)
    (recordedAt : DateTime) : (e.sealAt n previous recordedAt).previousHash = previous ∧
      (e.sealAt n previous recordedAt).eventHash =
        contentHash (e.sealAt n previous recordedAt).hashMaterial := ⟨rfl, rfl⟩

/-- A message of proper fields is proper. -/
theorem proper_primitive {nearest : PyFloat → Option PyFloat}
    (h : Json.Proper nearest (.ofPayload e.payload)) : Json.Proper nearest e.primitive := by
  refine Json.proper_object ?_
  simp only [fields, List.forall_mem_cons]
  exact ⟨trivial, trivial, trivial, trivial, h, trivial, trivial, trivial, trivial, trivial,
    trivial, trivial, optStr_proper nearest _, optStr_proper nearest _, trivial, trivial, nofun⟩

end EventEnvelope

/-! ## The codecs agree -/

section Codecs

variable [Digest] {r : DocumentReader} {e : EventEnvelope}

omit [Digest] in
/-- What is written of a payload is read back. -/
theorem loadsPayload_canonicalJson {nearest : PyFloat → Option PyFloat}
    (h : Json.Reads nearest (.ofPayload e.payload)) :
    loadsPayload nearest (canonicalJson (.ofPayload e.payload)) = .ok e.payload.reread := by
  rw [loadsPayload, Json.loads_canonicalJson ⟨nearest, false⟩ _ h, Json.reread_ofPayload]
  show Except.ok (Payload.ofFields e.payload.reread.toList) = _
  rw [Payload.ofFields_toList]

omit [Digest] in
theorem fromUTF8?_toUTF8 (text : String) : String.fromUTF8? text.toUTF8 = some text := by
  have hvalid : text.toUTF8.IsValidUTF8 := text.isValidUTF8
  rw [String.fromUTF8?, dif_pos hvalid]
  rfl

/-- **A message of an event that verifies is decoded** as the event, its
times in UTC. -/
theorem decode_primitive {c : JetStreamConsumer}
    (hversion : e.schemaVersion = "argo.dt.event/v2")
    (hoccurred : DateTime.Representable e.occurredAt.instant)
    (hrecorded : DateTime.Representable e.recordedAt.instant)
    (hpayload : Json.Proper r.nearest (.ofPayload e.payload))
    (hhash : e.eventHash = contentHash e.hashMaterial)
    (hsize : ¬ c.maxEventBytes < (canonicalJson e.primitive).toUTF8.size) :
    c.decode r (canonicalJson e.primitive).toUTF8 = .ok (.ofEvent e.inUtc) := by
  have hread : Json.loads ⟨r.nearest, true⟩ (canonicalJson e.primitive) =
      .ok (.obj (Payload.ofFields e.fields).toList) := by
    have hproper := EventEnvelope.proper_primitive hpayload
    rw [Json.canonicalJson_of_proper hproper]
    exact (Json.loads_dumps ⟨r.nearest, true⟩ hproper).trans
      (congrArg Except.ok (EventEnvelope.primitive_eq e))
  have hfields := EventEnvelope.eventFromPrimitive_fields hversion hoccurred hrecorded
  have hverify : (DecodedEvent.ofEvent e.inUtc).verify e.inUtc.previousHash = .ok () := by
    refine DecodedEvent.verify_eq_ok.2 ⟨rfl, ?_⟩
    rw [DecodedEvent.hashMaterial_ofEvent, EventEnvelope.hashMaterial_inUtc]
    exact hhash
  have hevent : JetStreamConsumer.readEvent r (canonicalJson e.primitive).toUTF8 =
      .ok (.ofEvent e.inUtc) := by
    rw [JetStreamConsumer.readEvent, fromUTF8?_toUTF8]
    simp only [hread, Payload.ofFields_toList, hfields]
  have hkept : (DecodedEvent.ofEvent e.inUtc).event.schemaVersion = "argo.dt.event/v2" := hversion
  unfold JetStreamConsumer.decode
  rw [if_neg hsize, hevent]
  show (if (DecodedEvent.ofEvent e.inUtc).event.schemaVersion ≠ "argo.dt.event/v2" then _ else _)
    = _
  rw [if_neg (not_not.2 hkept)]
  show (DecodedEvent.ofEvent e.inUtc).verify e.inUtc.previousHash >>= _ = _
  rw [hverify]
  rfl

/-- What a publisher sends is the canonical JSON of the event. -/
theorem payload_of_publish {p : JetStreamPublisher} {message : PublishedMessage}
    (h : p.publish e = .ok message) : message.payload = (canonicalJson e.primitive).toUTF8 := by
  unfold JetStreamPublisher.publish at h
  split_ifs at h
  · cases h
  · obtain ⟨_, -, hrest⟩ := bind_eq_ok.1 h
    dsimp only at hrest
    split_ifs at hrest
    · cases hrest
    · obtain ⟨subject, -, hmessage⟩ := bind_eq_ok.1 hrest
      cases hmessage
      rfl

/-- **The three event codecs agree.** A sealed event of version 2 is read
back from its row and from its message as the event, times as instants and
its payload as a dictionary, under the hash it was sealed with, and no message a publisher sends of it
is refused within the limit. -/
theorem codecs_agree (n : Int) (previous : String) (recordedAt : DateTime)
    (hversion : e.schemaVersion = "argo.dt.event/v2")
    (hoccurred : EventColumns.Storable e.occurredAt)
    (hrecorded : EventColumns.Storable recordedAt)
    (hpayload : Json.Reads r.nearest (.ofPayload e.payload)) :
    let sealed := e.sealAt n previous recordedAt
    (∃ row, EventColumns.rowToEvent (loadsPayload r.nearest) (.ofEvent sealed) = .ok row ∧
      row.inUtc = sealed.reread.inUtc ∧ row.eventHash = sealed.eventHash ∧
      row.verify sealed.previousHash = .ok ()) ∧
    (∀ c : JetStreamConsumer, (canonicalJson sealed.primitive).toUTF8.size ≤ c.maxEventBytes →
      ∃ d, c.decode r (canonicalJson sealed.primitive).toUTF8 = .ok d ∧
        d = .ofEvent d.event ∧ d.event.inUtc = sealed.reread.inUtc ∧
        d.event.eventHash = sealed.eventHash ∧ d.verify sealed.previousHash = .ok ()) ∧
    ∀ (p : JetStreamPublisher) (c : JetStreamConsumer) (message : PublishedMessage),
      p.publish sealed = .ok message → message.payload.size ≤ c.maxEventBytes →
      ∃ d, c.decode r message.payload = .ok d := by
  intro sealed
  have htwice : sealed.reread.inUtc.inUtc = sealed.reread.inUtc := by
    simp [EventEnvelope.inUtc]
  have hhash : sealed.eventHash = contentHash sealed.reread.hashMaterial := by
    rw [contentHash, EventEnvelope.canonicalJson_hashMaterial_reread]
    rfl
  have hproper : Json.Proper r.nearest (.ofPayload sealed.reread.payload) := by
    have hread := Json.proper_reread _ hpayload
    rwa [Json.reread_ofPayload] at hread
  have hdecode : ∀ c : JetStreamConsumer,
      (canonicalJson sealed.primitive).toUTF8.size ≤ c.maxEventBytes →
      c.decode r (canonicalJson sealed.primitive).toUTF8 = .ok (.ofEvent sealed.reread.inUtc) := by
    intro c hsize
    rw [← EventEnvelope.canonicalJson_primitive_reread] at hsize ⊢
    exact decode_primitive hversion hoccurred.instant hrecorded.instant hproper hhash
      (Int.not_lt.2 hsize)
  refine ⟨⟨sealed.reread.inUtc, ?_, htwice, rfl, ?_⟩, fun c hsize => ⟨_, hdecode c hsize, rfl, htwice, rfl,
    ?_⟩, ?_⟩
  · have hreads : EventColumns.ReadsBack (loadsPayload r.nearest) sealed :=
      ⟨loadsPayload_canonicalJson hpayload, hoccurred, hrecorded⟩
    have haware : ¬ (sealed.occurredAt.naive = true ∨ sealed.recordedAt.naive = true) := by
      rintro (hnaive | hnaive)
      · exact absurd hnaive (by rw [hreads.occurredAt.aware]; decide)
      · exact absurd hnaive (by rw [hreads.recordedAt.aware]; decide)
    rw [EventColumns.rowToEvent_ofEvent hreads, Store.rowToEvent, if_neg haware]
    rfl
  · refine EventEnvelope.verify_eq_ok.2 ⟨rfl, ?_⟩
    rw [EventEnvelope.hashMaterial_inUtc]
    exact hhash
  · refine DecodedEvent.verify_eq_ok.2 ⟨rfl, ?_⟩
    rw [DecodedEvent.hashMaterial_ofEvent, EventEnvelope.hashMaterial_inUtc]
    exact hhash
  · intro p c message hpublish hsize
    rw [payload_of_publish hpublish] at hsize ⊢
    exact ⟨_, hdecode c hsize⟩

/-- An event written half a day ahead of UTC, caused by another. -/
def causedEvent : EventEnvelope :=
  { eventId := "event-2", twinId := "t", eventType := "EvidenceIngested", plane := .authoritative
    payload := Payload.ofFields [("score", .float ⟨false, 5, -1, by decide⟩),
      ("window", .obj [("until", .int 2), ("from", .int 1)])]
    occurredAt := ⟨86400000000, some 43200000000⟩, recordedAt := DateTime.utc 1
    producer := "ingest", producerRole := .ingestService, idempotencyKey := "key-2"
    causationId := some "event-1" }

omit [Digest] in
theorem codecs_agree_caused :
    let _ : Digest := checksumDigest
    let reader : DocumentReader := ⟨some, fun _ => .error (.valueError "not finite")⟩
    let consumer : JetStreamConsumer := ⟨"acme", "indexer", 5, ⟨false, 1, 0, by decide⟩, 2048⟩
    let sealed := causedEvent.sealAt 2 "sha256:1" (DateTime.utc 5)
    ∃ d, consumer.decode reader (canonicalJson sealed.primitive).toUTF8 = .ok d ∧
      d.event.inUtc = sealed.reread.inUtc := by
  intro digest reader consumer sealed
  have hpayload : Json.Reads reader.nearest (.ofPayload causedEvent.payload) := Json.reads_some _
  have hagree := codecs_agree (e := causedEvent) 2 "sha256:1" (DateTime.utc 5)
    rfl ⟨by decide, by decide, _, rfl, by decide⟩ ⟨by decide, by decide, _, rfl, by decide⟩ hpayload
  obtain ⟨d, hdecode, -, hutc, -⟩ := hagree.2.1 consumer (by decide +kernel)
  exact ⟨d, hdecode, hutc⟩

end Codecs

end ArgoTwin
