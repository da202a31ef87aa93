import ArgoTwin.Json
import ArgoTwin.Time
/-!
# Domain contracts

The records that cross the service boundary. An event is created without
a place in its stream, sealed with one when it is stored, and verified
against its predecessor's hash when it is replayed. Clock readings and
random identifiers are arguments: a run is told what they were.
-/

namespace ArgoTwin

/-- The two digests the code takes from its standard library, of a text:
`hashlib.sha256(...).hexdigest()` and `uuid.uuid5(uuid.NAMESPACE_URL, ...)`.
Nothing is assumed of either, not even that they tell texts apart. -/
class Digest where
  sha256 : String → String
  uuid5 : String → String

/-- A polynomial checksum of the bytes of a text. -/
def checksum (text : String) : String :=
  toString (text.toByteArray.data.toList.foldl
    (fun n byte => (n * 257 + byte.toNat) % 2305843009213693951) 7)

/-- Digests for runs on fixed inputs. -/
@[reducible] def checksumDigest : Digest := ⟨checksum, checksum⟩

/-- What one call reads off the clock and the random source. -/
structure Readings where
  now : Instant
  uuid4 : String
  deriving DecidableEq, Repr

inductive EventPlane where
  | authoritative
  | projection
  | simulation
  deriving DecidableEq, Repr

def EventPlane.value : EventPlane → String
  | .authoritative => "authoritative"
  | .projection => "projection"
  | .simulation => "simulation"

inductive ProducerRole where
  | ingestService
  | identityWorker
  | adjudicationWorker
  | humanReview
  | compiler
  | projectionService
  | simulationService
  | downstreamAgent
  | operationsService
  deriving DecidableEq, Repr

def ProducerRole.value : ProducerRole → String
  | .ingestService => "ingest_service"
  | .identityWorker => "identity_worker"
  | .adjudicationWorker => "adjudication_worker"
  | .humanReview => "human_review"
  | .compiler => "compiler"
  | .projectionService => "projection_service"
  | .simulationService => "simulation_service"
  | .downstreamAgent => "downstream_agent"
  | .operationsService => "operations_service"

inductive Sensitivity where
  | «public»
  | internal
  | confidential
  | restricted
  deriving DecidableEq, Repr

namespace Sensitivity

def value : Sensitivity → String
  | .«public» => "public"
  | .internal => "internal"
  | .confidential => "confidential"
  | .restricted => "restricted"

def rank : Sensitivity → Nat
  | .«public» => 0
  | .internal => 1
  | .confidential => 2
  | .restricted => 3

/-- `Sensitivity(text)`. -/
def ofValue (text : String) : Except PyError Sensitivity :=
  if text = "public" then .ok .«public»
  else if text = "internal" then .ok .internal
  else if text = "confidential" then .ok .confidential
  else if text = "restricted" then .ok .restricted
  else .error (.valueError "not a valid Sensitivity")

/-- Every sensitivity is read back from its text. -/
@[simp] theorem ofValue_value (s : Sensitivity) : ofValue s.value = .ok s := by
  cases s <;> rfl

end Sensitivity

/-- Identity claims supplied by a trusted authentication adapter. -/
structure ActorContext where
  identityId : String
  roles : List ProducerRole
  subjectId : Option String
  identity_required : identityId ≠ ""
  roles_required : roles ≠ []
  deriving DecidableEq

/-- `content_hash` of a JSON value. -/
def contentHash [Digest] (value : Json) : String :=
  "sha256:" ++ Digest.sha256 (canonicalJson value)

/-- A hash is never the empty text. -/
theorem contentHash_ne_empty [Digest] (value : Json) : contentHash value ≠ "" := by
  intro h
  have hlength := congrArg String.length h
  simp [contentHash, String.length_append] at hlength

/-- `uuid.uuid5` of a list of texts written as canonical JSON. -/
def derivedId [Digest] (parts : List String) : String :=
  Digest.uuid5 (canonicalJson (.arr (parts.map .str)))

/-- An optional text as JSON. -/
def optStr : Option String → Json
  | some text => .str text
  | none => .null

@[simp] theorem reread_optStr (text : Option String) : (optStr text).reread = optStr text := by
  cases text <;> rfl

/-! ## Events -/

structure EventEnvelope where
  eventId : String
  twinId : String
  eventType : String
  plane : EventPlane
  payload : Payload
  occurredAt : DateTime
  recordedAt : DateTime
  producer : String
  producerRole : ProducerRole
  idempotencyKey : String
  schemaVersion : String := "argo.dt.event/v2"
  sequence : Int := 0
  causationId : Option String := none
  correlationId : Option String := none
  previousHash : String := ""
  eventHash : String := ""
  deriving DecidableEq

namespace EventEnvelope

/-- `EventEnvelope.new`; an `occurred_at` left out is the reading's now. -/
def new (twinId eventType : String) (plane : EventPlane) (payload : Payload) (producer : String)
    (producerRole : ProducerRole) (idempotencyKey : String) (occurredAt : Option DateTime)
    (correlationId : Option String) (readings : Readings) : EventEnvelope :=
  let now := DateTime.utc readings.now
  { eventId := readings.uuid4
    twinId := twinId
    eventType := eventType
    plane := plane
    payload := payload
    occurredAt := occurredAt.getD now
    recordedAt := now
    producer := producer
    producerRole := producerRole
    idempotencyKey := idempotencyKey
    correlationId := correlationId }

/-- `_hash_material`: every field but the hash; the producer's role only
since schema version 2. -/
def hashMaterial (e : EventEnvelope) : Json :=
  Json.object <|
    [("event_id", .str e.eventId), ("twin_id", .str e.twinId), ("event_type", .str e.eventType),
     ("plane", .str e.plane.value), ("payload", .ofPayload e.payload),
     ("occurred_at", .str e.occurredAt.toPrimitive),
     ("recorded_at", .str e.recordedAt.toPrimitive), ("producer", .str e.producer),
     ("idempotency_key", .str e.idempotencyKey), ("schema_version", .str e.schemaVersion),
     ("sequence", .int e.sequence), ("causation_id", optStr e.causationId),
     ("correlation_id", optStr e.correlationId), ("previous_hash", .str e.previousHash)] ++
    (if e.schemaVersion = "argo.dt.event/v1" then []
     else [("producer_role", .str e.producerRole.value)])

/-- The event as its payload is read back. -/
def reread (e : EventEnvelope) : EventEnvelope := { e with payload := e.payload.reread }

/-- The material of a hash is read back as that of the event read back. -/
theorem reread_hashMaterial (e : EventEnvelope) :
    e.hashMaterial.reread = e.reread.hashMaterial := by
  rw [hashMaterial, hashMaterial, Json.reread_object, reread]
  simp only [List.map_append, List.map_cons, List.map_nil, Json.reread_ofPayload, reread_optStr]
  split_ifs <;> rfl

/-- A hash covers of a payload what is read back of it. -/
@[simp] theorem canonicalJson_hashMaterial_reread (e : EventEnvelope) :
    canonicalJson e.reread.hashMaterial = canonicalJson e.hashMaterial := by
  rw [← reread_hashMaterial, canonicalJson_reread]

variable [Digest]

/-- `seal`: the event at its place in the stream, under its hash. -/
def sealAt (e : EventEnvelope) (sequence : Int) (previousHash : String) (recordedAt : DateTime) :
    EventEnvelope :=
  let candidate := { e with
    sequence := sequence, previousHash := previousHash, recordedAt := recordedAt, eventHash := "" }
  { candidate with eventHash := contentHash candidate.hashMaterial }

def verify (e : EventEnvelope) (expectedPreviousHash : String) : Except PyError Unit :=
  if e.previousHash ≠ expectedPreviousHash then
    .error (.integrityError ("previous hash mismatch at sequence " ++ toString e.sequence ++ ": " ++
      Json.reprStr e.previousHash ++ " != " ++ Json.reprStr expectedPreviousHash))
  else if e.eventHash ≠ contentHash e.hashMaterial then
    .error (.integrityError ("event hash mismatch at sequence " ++ toString e.sequence))
  else .ok ()

/-- An event verifies where it follows its predecessor and carries its
own hash. -/
theorem verify_eq_ok {e : EventEnvelope} {previous : String} :
    e.verify previous = .ok () ↔
      e.previousHash = previous ∧ e.eventHash = contentHash e.hashMaterial := by
  unfold verify
  split
  · simp_all
  · split <;> simp_all

end EventEnvelope

/-! ## Snapshots, publications, invalidations -/

/-- Materialized state linked to one event-chain position. -/
structure SnapshotRecord where
  twinId : String
  sequence : Int
  lastEventHash : String
  state : Payload
  stateHash : String
  createdAt : DateTime
  schemaVersion : String := "argo.dt.snapshot/v1"
  deriving DecidableEq

namespace SnapshotRecord

/-- What a snapshot's hash covers. -/
def material (schemaVersion twinId : String) (sequence : Int) (lastEventHash : String)
    (state : Payload) : Json :=
  Json.object [("schema_version", .str schemaVersion), ("twin_id", .str twinId),
    ("sequence", .int sequence), ("last_event_hash", .str lastEventHash),
    ("state", .ofPayload state)]

variable [Digest]

def new (twinId : String) (sequence : Int) (lastEventHash : String) (state : Payload)
    (createdAt : DateTime) : SnapshotRecord :=
  { twinId := twinId
    sequence := sequence
    lastEventHash := lastEventHash
    state := state
    stateHash :=
      contentHash (material "argo.dt.snapshot/v1" twinId sequence lastEventHash state)
    createdAt := createdAt }

def verify (s : SnapshotRecord) : Except PyError Unit :=
  if s.schemaVersion ≠ "argo.dt.snapshot/v1" then
    .error (.integrityError "unsupported snapshot schema version")
  else if s.sequence < 1 ∨ s.twinId = "" ∨ s.lastEventHash = "" then
    .error (.integrityError "snapshot stream position is incomplete")
  else if s.stateHash ≠
      contentHash (material s.schemaVersion s.twinId s.sequence s.lastEventHash s.state) then
    .error (.integrityError "snapshot state hash mismatch")
  else .ok ()

theorem verify_new {twinId lastEventHash : String} {sequence : Int} {state : Payload}
    {createdAt : DateTime} (hseq : 1 ≤ sequence) (htwin : twinId ≠ "")
    (hhash : lastEventHash ≠ "") :
    (new twinId sequence lastEventHash state createdAt).verify = .ok () := by
  have hpos : ¬ sequence < 1 := by omega
  simp [verify, new, hpos, htwin, hhash]

end SnapshotRecord

/-- An event publication claimed from the transactional outbox. -/
structure OutboxRecord where
  topic : String
  key : String
  event : EventEnvelope
  createdAt : DateTime
  attempts : Nat
  leaseOwner : String
  deriving DecidableEq

/-- A durable dependency invalidation caused by evidence deletion. -/
structure InvalidationRecord where
  twinId : String
  deletionSequence : Int
  sourceEvidenceId : String
  dependentKind : String
  dependentId : String
  createdAt : DateTime
  deriving DecidableEq

end ArgoTwin
