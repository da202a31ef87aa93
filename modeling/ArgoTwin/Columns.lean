import ArgoTwin.JsonText
import ArgoTwin.Ledger
import ArgoTwin.TimeText
/-!
# The event table as it is stored

A row of `dt_events` is text and numbers: the payload is JSON, times and
enumerations are spelled out. An event is read back by parsing each column,
and the chain is verified over what was read. Whatever parses the JSON, a
table whose chain verifies is told by its head: the hash covers every field
but the role of a version 1 producer, and the hash before it
(`chain_tamper_evident`).
-/

namespace ArgoTwin

open Library

/-- `EventPlane(text)`. -/
def EventPlane.ofValue (text : String) : Except PyError EventPlane :=
  if text = "authoritative" then .ok .authoritative
  else if text = "projection" then .ok .projection
  else if text = "simulation" then .ok .simulation
  else .error (.valueError (Json.reprStr text ++ " is not a valid EventPlane"))

@[simp] theorem EventPlane.ofValue_value (p : EventPlane) : ofValue p.value = .ok p := by
  cases p <;> rfl

/-- `ProducerRole(text)`. -/
def ProducerRole.ofValue (text : String) : Except PyError ProducerRole :=
  if text = "ingest_service" then .ok .ingestService
  else if text = "identity_worker" then .ok .identityWorker
  else if text = "adjudication_worker" then .ok .adjudicationWorker
  else if text = "human_review" then .ok .humanReview
  else if text = "compiler" then .ok .compiler
  else if text = "projection_service" then .ok .projectionService
  else if text = "simulation_service" then .ok .simulationService
  else if text = "downstream_agent" then .ok .downstreamAgent
  else if text = "operations_service" then .ok .operationsService
  else .error (.valueError (Json.reprStr text ++ " is not a valid ProducerRole"))

@[simp] theorem ProducerRole.ofValue_value (r : ProducerRole) : ofValue r.value = .ok r := by
  cases r <;> rfl

/-- The columns of `dt_events`. -/
structure EventColumns where
  twinId : String
  sequence : Int
  eventId : String
  eventType : String
  plane : String
  schemaVersion : String
  payloadJson : String
  occurredAt : String
  recordedAt : String
  producer : String
  producerRole : String
  idempotencyKey : String
  causationId : Option String
  correlationId : Option String
  previousHash : String
  eventHash : String
  deriving DecidableEq

namespace EventColumns

/-- What `append` inserts. -/
def ofEvent (sealed : EventEnvelope) : EventColumns :=
  { twinId := sealed.twinId
    sequence := sealed.sequence
    eventId := sealed.eventId
    eventType := sealed.eventType
    plane := sealed.plane.value
    schemaVersion := sealed.schemaVersion
    payloadJson := canonicalJson (.ofPayload sealed.payload)
    occurredAt := sealed.occurredAt.isoformat
    recordedAt := sealed.recordedAt.isoformat
    producer := sealed.producer
    producerRole := sealed.producerRole.value
    idempotencyKey := sealed.idempotencyKey
    causationId := sealed.causationId
    correlationId := sealed.correlationId
    previousHash := sealed.previousHash
    eventHash := sealed.eventHash }

variable (loads : String → Except PyError Payload)

/-- `_row_to_event`. -/
def rowToEvent (row : EventColumns) : Except PyError EventEnvelope := do
  let plane ← EventPlane.ofValue row.plane
  let payload ← loads row.payloadJson
  let occurredAt ← parseTime row.occurredAt
  let recordedAt ← parseTime row.recordedAt
  let producerRole ← ProducerRole.ofValue row.producerRole
  pure
    { eventId := row.eventId
      twinId := row.twinId
      eventType := row.eventType
      plane := plane
      payload := payload
      occurredAt := occurredAt
      recordedAt := recordedAt
      producer := row.producer
      producerRole := producerRole
      idempotencyKey := row.idempotencyKey
      schemaVersion := row.schemaVersion
      sequence := row.sequence
      causationId := row.causationId
      correlationId := row.correlationId
      previousHash := row.previousHash
      eventHash := row.eventHash }

/-- `load`, of the whole stream. -/
def load (table : List EventColumns) (twinId : String) : Except PyError (List EventEnvelope) :=
  ((table.filter fun row => row.twinId = twinId ∧ 0 < row.sequence).insertionSort
    fun a b => a.sequence ≤ b.sequence).mapM (rowToEvent loads)

/-- `verify_chain`. -/
def verifyChain [Digest] (table : List EventColumns) (twinId : String) : Except PyError Bool := do
  Store.verifyFrom (1, "") (← load loads table twinId)

/-! ## What a row says -/

variable {loads : String → Except PyError Payload} {row : EventColumns} {e : EventEnvelope}

/-- A time UTC can show, in UTC. -/
def Dated (d : DateTime) : Prop := ∃ t, d = DateTime.utc t ∧ DateTime.Representable t

theorem dated_of_parseTime {text : String} {d : DateTime} (h : parseTime text = .ok d) :
    Dated d := by
  unfold parseTime at h
  split at h
  · cases h
  · rename_i parsed _
    split_ifs at h with hnaive hcalendar
    obtain rfl := Except.ok.inj h
    exact ⟨parsed.instant, rfl, hcalendar⟩

/-- Two such times with one canonical text are one. -/
theorem Dated.eq_of_toPrimitive {a b : DateTime} (ha : Dated a) (hb : Dated b)
    (htext : a.toPrimitive = b.toPrimitive) : a = b := by
  obtain ⟨t, rfl, ht⟩ := ha
  obtain ⟨u, rfl, hu⟩ := hb
  have hsame := (DateTime.toPrimitive_inj (by simpa using ht) (by simpa using hu)).1 htext
  rw [DateTime.instant_utc, DateTime.instant_utc] at hsame
  rw [hsame]

theorem dated_of_rowToEvent (h : rowToEvent loads row = .ok e) :
    Dated e.occurredAt ∧ Dated e.recordedAt := by
  unfold rowToEvent at h
  obtain ⟨plane, -, h⟩ := bind_eq_ok.1 h
  obtain ⟨payload, -, h⟩ := bind_eq_ok.1 h
  obtain ⟨occurredAt, hoccurred, h⟩ := bind_eq_ok.1 h
  obtain ⟨recordedAt, hrecorded, h⟩ := bind_eq_ok.1 h
  obtain ⟨producerRole, -, h⟩ := bind_eq_ok.1 h
  obtain rfl := Except.ok.inj h
  exact ⟨dated_of_parseTime hoccurred, dated_of_parseTime hrecorded⟩

theorem dated_of_load {table : List EventColumns} {twinId : String} {es : List EventEnvelope}
    (h : load loads table twinId = .ok es) :
    ∀ e ∈ es, Dated e.occurredAt ∧ Dated e.recordedAt := by
  unfold load at h
  generalize (table.filter fun row => row.twinId = twinId ∧ 0 < row.sequence).insertionSort
    (fun a b => a.sequence ≤ b.sequence) = rows at h
  induction rows generalizing es with
  | nil =>
    obtain rfl := Except.ok.inj h
    exact fun e he => absurd he List.not_mem_nil
  | cons row rows ih =>
    rw [List.mapM_cons] at h
    obtain ⟨first, hfirst, h⟩ := bind_eq_ok.1 h
    obtain ⟨rest, hrest, h⟩ := bind_eq_ok.1 h
    obtain rfl := Except.ok.inj h
    exact List.forall_mem_cons.2 ⟨dated_of_rowToEvent hfirst, ih hrest⟩

/-! ## The table of a store -/

/-- An aware time of the calendar, on its own clock and in UTC. -/
structure Storable (d : DateTime) : Prop where
  wall : DateTime.Representable d.wall
  instant : DateTime.Representable d.instant
  offset : ∃ offset, d.utcoffset = some offset ∧ offset.natAbs < 86400 * 1000000

theorem Storable.parseTime_eq {d : DateTime} (h : Storable d) :
    parseTime d.isoformat = .ok d.astimezoneUtc := by
  obtain ⟨offset, hoffset, hday⟩ := h.offset
  exact parseTime_isoformat h.wall h.instant hoffset hday

theorem Storable.aware {d : DateTime} (h : Storable d) : d.naive = false := by
  obtain ⟨offset, hoffset, -⟩ := h.offset
  simp [DateTime.naive, hoffset]

/-- An event whose columns read back: a decoder that reads the canonical
text of its payload, and times of the calendar. -/
structure ReadsBack (loads : String → Except PyError Payload) (e : EventEnvelope) : Prop where
  payload : loads (canonicalJson (.ofPayload e.payload)) = .ok e.payload.reread
  occurredAt : Storable e.occurredAt
  recordedAt : Storable e.recordedAt

/-- **The columns of an event are the event**, as the store reads it. -/
theorem rowToEvent_ofEvent (h : ReadsBack loads e) :
    rowToEvent loads (ofEvent e) = Store.rowToEvent e := by
  have hpayload := h.payload
  have hoccurred := h.occurredAt.parseTime_eq
  have hrecorded := h.recordedAt.parseTime_eq
  simp [rowToEvent, ofEvent, Store.rowToEvent, bind, Except.bind, pure, Except.pure, hpayload,
    hoccurred, hrecorded, h.occurredAt.aware, h.recordedAt.aware]

/-- **The chain of a store is that of its table.** -/
theorem verifyChain_ofEvent [Digest] (s : Store) (twinId : String)
    (h : ∀ e ∈ s.events, ReadsBack loads e) :
    verifyChain loads (s.events.map ofEvent) twinId = s.verifyChain twinId := by
  have hload : load loads (s.events.map ofEvent) twinId = s.load twinId 0 none [] := by
    have hrows : (s.rowsOf twinId).filter (fun row => (0 : Int) < row.sequence &&
        Store.within none row.sequence && (([] : List EventPlane).isEmpty ||
          ([] : List EventPlane).contains row.plane)) =
        s.events.filter fun row => row.twinId = twinId ∧ 0 < row.sequence := by
      rw [Store.rowsOf, List.filter_filter]
      refine List.filter_congr fun row _ => ?_
      simp [Store.within, Bool.and_comm]
    have hmap : ∀ rows : List EventEnvelope, (∀ e ∈ rows, ReadsBack loads e) →
        (rows.map ofEvent).mapM (rowToEvent loads) = rows.mapM Store.rowToEvent := by
      intro rows
      induction rows with
      | nil => exact fun _ => rfl
      | cons e rows ih =>
        intro hall
        rw [List.map_cons, List.mapM_cons, List.mapM_cons, rowToEvent_ofEvent
          (hall e List.mem_cons_self), ih fun e he => hall e (List.mem_cons_of_mem _ he)]
    have hbound : Store.bindUpTo none = .ok none := rfl
    simp only [load, Store.load, hbound, bind, Except.bind]
    rw [hrows, Store.bySequence, List.filter_map,
      ← List.map_insertionSort (r := fun a b : EventEnvelope => a.sequence ≤ b.sequence)]
    · refine hmap _ fun e he => h e ?_
      rw [(List.perm_insertionSort _ _).mem_iff] at he
      exact List.mem_of_mem_filter he
    · exact fun a _ b _ => Iff.rfl
  rw [verifyChain, Store.verifyChain, hload]

end EventColumns

/-! ## What a hash covers -/

/-- Every field but the producer's role, and that one too past version 1;
of the payloads that they are equal as dictionaries. -/
structure EventEnvelope.Covered (a b : EventEnvelope) : Prop where
  fields : { a with payload := b.payload, producerRole := b.producerRole } = b
  payload : a.payload.reread = b.payload.reread
  producerRole : a.schemaVersion ≠ "argo.dt.event/v1" → a.producerRole = b.producerRole

namespace EventEnvelope

variable {a b : EventEnvelope}

theorem Covered.sequence (h : Covered a b) : a.sequence = b.sequence := by
  rw [← h.fields]

theorem Covered.previousHash (h : Covered a b) : a.previousHash = b.previousHash := by
  rw [← h.fields]

/-- The fields every version hashes. -/
def hashFields (e : EventEnvelope) : List (String × Json) :=
  [("event_id", .str e.eventId), ("twin_id", .str e.twinId), ("event_type", .str e.eventType),
   ("plane", .str e.plane.value), ("payload", .ofPayload e.payload),
   ("occurred_at", .str e.occurredAt.toPrimitive),
   ("recorded_at", .str e.recordedAt.toPrimitive), ("producer", .str e.producer),
   ("idempotency_key", .str e.idempotencyKey), ("schema_version", .str e.schemaVersion),
   ("sequence", .int e.sequence), ("causation_id", optStr e.causationId),
   ("correlation_id", optStr e.correlationId), ("previous_hash", .str e.previousHash)]

/-- The role version 1 leaves out. -/
def roleField (e : EventEnvelope) : List (String × Json) :=
  if e.schemaVersion = "argo.dt.event/v1" then []
  else [("producer_role", .str e.producerRole.value)]

theorem hashMaterial_get? (e : EventEnvelope) (name : String) :
    e.hashMaterial.get? name =
      (e.roleField.reverse.lookup name).or (e.hashFields.reverse.lookup name) := by
  have hfields : e.hashMaterial = Json.object (e.hashFields ++ e.roleField) := rfl
  rw [hfields, Payload.get?_object, List.reverse_append, List.lookup_append]

theorem hashMaterial_field (e : EventEnvelope) {name : String} (hname : name ≠ "producer_role") :
    e.hashMaterial.get? name = e.hashFields.reverse.lookup name := by
  have hother : e.roleField.reverse.lookup name = none := by
    unfold roleField
    split_ifs
    · rfl
    · simp [List.lookup, beq_eq_false_iff_ne.2 hname]
  rw [hashMaterial_get?, hother, Option.none_or]

theorem hashMaterial_role {e : EventEnvelope} (hversion : e.schemaVersion ≠ "argo.dt.event/v1") :
    e.hashMaterial.get? "producer_role" = some (.str e.producerRole.value) := by
  rw [hashMaterial_get?, roleField, if_neg hversion]
  simp

theorem optStr_inj {a b : Option String} (h : optStr a = optStr b) : a = b := by
  cases a <;> cases b <;> simp_all [optStr]

theorem plane_inj {a b : EventPlane} (h : a.value = b.value) : a = b := by
  have hread := congrArg EventPlane.ofValue h
  rw [EventPlane.ofValue_value, EventPlane.ofValue_value] at hread
  exact Except.ok.inj hread

theorem role_inj {a b : ProducerRole} (h : a.value = b.value) : a = b := by
  have hread := congrArg ProducerRole.ofValue h
  rw [ProducerRole.ofValue_value, ProducerRole.ofValue_value] at hread
  exact Except.ok.inj hread

/-- The hash material tells the event, but for the role of version 1. -/
theorem covered_of_hashMaterial (ha : EventColumns.Dated a.occurredAt ∧ EventColumns.Dated a.recordedAt)
    (hb : EventColumns.Dated b.occurredAt ∧ EventColumns.Dated b.recordedAt)
    (hmaterial : a.hashMaterial = b.hashMaterial) (hhash : a.eventHash = b.eventHash) :
    Covered a b := by
  have hfield : ∀ name, name ≠ "producer_role" →
      a.hashFields.reverse.lookup name = b.hashFields.reverse.lookup name := by
    intro name hname
    rw [← hashMaterial_field a hname, ← hashMaterial_field b hname, hmaterial]
  have hid := hfield "event_id" (by decide)
  have htwin := hfield "twin_id" (by decide)
  have htype := hfield "event_type" (by decide)
  have hplane := hfield "plane" (by decide)
  have hpayload := hfield "payload" (by decide)
  have hoccurred := hfield "occurred_at" (by decide)
  have hrecorded := hfield "recorded_at" (by decide)
  have hproducer := hfield "producer" (by decide)
  have hkey := hfield "idempotency_key" (by decide)
  have hversion := hfield "schema_version" (by decide)
  have hsequence := hfield "sequence" (by decide)
  have hcausation := hfield "causation_id" (by decide)
  have hcorrelation := hfield "correlation_id" (by decide)
  have hprevious := hfield "previous_hash" (by decide)
  simp only [hashFields, List.reverse_cons, List.reverse_nil, List.nil_append, List.cons_append,
    List.lookup, String.reduceBEq, Option.some.injEq, Json.str.injEq, Json.int.injEq,
    Json.ofPayload, Json.obj.injEq] at *
  have hpayload' : a.payload = b.payload := by
    rw [← Payload.ofFields_toList a.payload, hpayload, Payload.ofFields_toList]
  have hfields : { a with payload := b.payload, producerRole := b.producerRole } = b := by
    have hoccurred' := ha.1.eq_of_toPrimitive hb.1 hoccurred
    have hrecorded' := ha.2.eq_of_toPrimitive hb.2 hrecorded
    have hplane' := plane_inj hplane
    have hcausation' := optStr_inj hcausation
    have hcorrelation' := optStr_inj hcorrelation
    cases a
    cases b
    simp only at *
    subst hid htwin htype hplane' hoccurred' hrecorded' hproducer hkey hversion hsequence
      hcausation' hcorrelation' hprevious hhash
    rfl
  refine ⟨hfields, congrArg Payload.reread hpayload', fun hlater => ?_⟩
  have hrole := hashMaterial_role hlater
  rw [hmaterial, hashMaterial_role (hversion ▸ hlater)] at hrole
  exact (role_inj (Json.str.inj (Option.some.inj hrole))).symm

/-- **So does its canonical text.** -/
theorem covered_of_canonicalJson
    (ha : EventColumns.Dated a.occurredAt ∧ EventColumns.Dated a.recordedAt)
    (hb : EventColumns.Dated b.occurredAt ∧ EventColumns.Dated b.recordedAt)
    (htext : canonicalJson a.hashMaterial = canonicalJson b.hashMaterial)
    (hhash : a.eventHash = b.eventHash) : Covered a b := by
  have hmaterial : a.reread.hashMaterial = b.reread.hashMaterial := by
    rw [← reread_hashMaterial, ← reread_hashMaterial]
    exact Json.reread_of_canonicalJson htext
  obtain ⟨hfields, hpayload, hrole⟩ : Covered a.reread b.reread :=
    covered_of_hashMaterial ha hb hmaterial hhash
  refine ⟨?_, by simpa [reread] using hpayload, hrole⟩
  cases a
  cases b
  simp only [reread, EventEnvelope.mk.injEq, true_and] at hfields ⊢
  exact hfields

end EventEnvelope

/-! ## Tables with one head -/

section Tampering

variable [Digest] {loads : String → Except PyError Payload} {table table' : List EventColumns}
variable {twinId : String} {es es' : List EventEnvelope}

/-- SHA-256 tells the canonical texts of these events apart. -/
def CollisionFree (es es' : List EventEnvelope) : Prop :=
  ∀ a ∈ es, ∀ b ∈ es', contentHash a.hashMaterial = contentHash b.hashMaterial →
    canonicalJson a.hashMaterial = canonicalJson b.hashMaterial

/-- What the event table holds for a twin, read and verified. -/
structure Verified (loads : String → Except PyError Payload) (table : List EventColumns)
    (twinId : String) (es : List EventEnvelope) : Prop where
  load : EventColumns.load loads table twinId = .ok es
  verifyChain : EventColumns.verifyChain loads table twinId = .ok true

theorem Verified.chained (h : Verified loads table twinId es) : Store.Chained es := by
  have hverified := h.verifyChain
  rw [EventColumns.verifyChain, h.load] at hverified
  exact Store.linked_of_verifyFrom hverified

/-- **The chain is tamper-evident**: two tables that verify and end in one
hash hold as many events of the twin, and the same ones, but for the roles
of version 1 producers. -/
theorem chain_tamper_evident (h : Verified loads table twinId es)
    (h' : Verified loads table' twinId es') (hfree : CollisionFree es es')
    {last last' : EventEnvelope} (hlast : es.getLast? = some last)
    (hlast' : es'.getLast? = some last') (hhead : last.eventHash = last'.eventHash) :
    es.length = es'.length ∧ List.Forall₂ EventEnvelope.Covered es es' := by
  have hdated := EventColumns.dated_of_load h.load
  have hdated' := EventColumns.dated_of_load h'.load
  -- one hash, one event: its place and the hash before it included
  have hcovered : ∀ q q' a b, a ∈ es → b ∈ es' → Store.Follows q a → Store.Follows q' b →
      a.eventHash = b.eventHash → a.Covered b ∧ q = q' := by
    intro q q' a b ha hb hfollows hfollows' hhash
    have htext := hfree a ha b hb (by rw [← hfollows.eventHash, hhash, hfollows'.eventHash])
    have hcovered := EventEnvelope.covered_of_canonicalJson (hdated a ha) (hdated' b hb) htext hhash
    refine ⟨hcovered, ?_⟩
    have hsequence := hcovered.sequence
    have hnext := hfollows.sequence
    have hnext' := hfollows'.sequence
    have hbefore := hfollows.previousHash
    have hbefore' := hfollows'.previousHash
    exact Prod.ext (by omega) (by rw [← hbefore, hcovered.previousHash, hbefore'])
  have hend : endOf Store.position (0, "") es = endOf Store.position (0, "") es' := by
    obtain ⟨rest, rfl⟩ := List.getLast?_eq_some_iff.1 hlast
    obtain ⟨rest', rfl⟩ := List.getLast?_eq_some_iff.1 hlast'
    have hfollows := (linked_concat.1 h.chained).2
    have hfollows' := (linked_concat.1 h'.chained).2
    have hsame := (hcovered _ _ last last' (List.mem_append_right _ (List.mem_singleton_self _))
      (List.mem_append_right _ (List.mem_singleton_self _)) hfollows hfollows' hhead).1
    rw [endOf_concat, endOf_concat, Store.position, Store.position, hhead]
    exact Prod.ext hsame.sequence rfl
  have hall := forall₂_of_endOf (fun q q' a b ha hb hfollows hfollows' hposition =>
    hcovered q q' a b ha hb hfollows hfollows' (congrArg Prod.snd hposition)) ?_ h.chained
    h'.chained hend
  · exact ⟨hall.length_eq, hall⟩
  · -- no event leaves the stream at its start
    intro q a hfollows hposition
    have hempty : a.eventHash = "" := congrArg Prod.snd hposition
    rw [hfollows.eventHash] at hempty
    exact contentHash_ne_empty _ hempty

/-- An event of version 1, whose hash says nothing of its producer's role. -/
def legacyEvent (eventId idempotencyKey : String) (role : ProducerRole) : EventEnvelope :=
  { eventId := eventId, twinId := "t", eventType := "EvidenceIngested", plane := .authoritative
    payload := ∅, occurredAt := DateTime.utc 1, recordedAt := DateTime.utc 1
    producer := "ingest", producerRole := role, idempotencyKey := idempotencyKey
    schemaVersion := "argo.dt.event/v1" }

/-- Two of them in a chain. -/
def legacyChain (role : ProducerRole) : List EventEnvelope :=
  let first := (legacyEvent "event-1" "key-1" role).sealAt 1 "" (DateTime.utc 2)
  [first, (legacyEvent "event-2" "key-2" role).sealAt 2 first.eventHash (DateTime.utc 3)]

/-- A decoder of the empty object. -/
def loadsEmpty (text : String) : Except PyError Payload :=
  if text = "\x7b\x7d" then .ok ∅ else .error (.valueError "Expecting value")

omit [Digest] in
theorem chain_tamper_evident_legacy :
    let _ : Digest := checksumDigest
    let table := fun role => (legacyChain role).map EventColumns.ofEvent
    Verified loadsEmpty (table .humanReview) "t" (legacyChain .humanReview) ∧
      List.Forall₂ EventEnvelope.Covered (legacyChain .ingestService) (legacyChain .humanReview) ∧
      legacyChain .ingestService ≠ legacyChain .humanReview := by
  intro digest table
  have hverified : ∀ role, role = .ingestService ∨ role = .humanReview →
      Verified loadsEmpty (table role) "t" (legacyChain role) := by
    rintro role (rfl | rfl)
    · exact ⟨by decide +kernel, by decide +kernel⟩
    · exact ⟨by decide +kernel, by decide +kernel⟩
  have hfree : CollisionFree (legacyChain .ingestService) (legacyChain .humanReview) := by
    show ∀ a ∈ legacyChain .ingestService, ∀ b ∈ legacyChain .humanReview,
      contentHash a.hashMaterial = contentHash b.hashMaterial →
        canonicalJson a.hashMaterial = canonicalJson b.hashMaterial
    decide +kernel
  exact ⟨hverified _ (.inr rfl), (chain_tamper_evident (hverified _ (.inl rfl))
    (hverified _ (.inr rfl)) hfree rfl rfl (by decide +kernel)).2, by decide +kernel⟩

end Tampering

end ArgoTwin
