import ArgoTwin.Leases
/-!
# A used key, for good

An append under a key that was used answers with what is stored under it,
before anything else is looked at, and nothing ever takes the row away. So
once an append has returned, the same request returns the same event for
good, and any other under the key is turned down (`append_idempotent`).
-/

namespace ArgoTwin

open Library

/-- `a == b` of two envelopes: the same fields, the payloads equal as
dictionaries, and times that name the same instants. -/
structure EventEnvelope.Same (a b : EventEnvelope) : Prop where
  fields : { a with
    payload := b.payload, occurredAt := b.occurredAt, recordedAt := b.recordedAt } = b
  payload : a.payload.reread = b.payload.reread
  occurredAt : a.occurredAt.same b.occurredAt = true
  recordedAt : a.recordedAt.same b.recordedAt = true

/-- Two requests that ask for the same event, whatever its id, the time it
was recorded at and the offset its occurrence is written with. -/
structure EventEnvelope.Agrees (e' e : EventEnvelope) : Prop where
  eventType : e'.eventType = e.eventType
  plane : e'.plane = e.plane
  payload : canonicalJson (.ofPayload e'.payload) = canonicalJson (.ofPayload e.payload)
  producer : e'.producer = e.producer
  producerRole : e'.producerRole = e.producerRole
  schemaVersion : e'.schemaVersion = e.schemaVersion
  occurredAt : e'.occurredAt.instant = e.occurredAt.instant
  causationId : e'.causationId = e.causationId
  correlationId : e'.correlationId = e.correlationId

namespace EventEnvelope

variable {a b c : EventEnvelope}

theorem Agrees.symm (h : Agrees a b) : Agrees b a where
  eventType := h.eventType.symm
  plane := h.plane.symm
  payload := h.payload.symm
  producer := h.producer.symm
  producerRole := h.producerRole.symm
  schemaVersion := h.schemaVersion.symm
  occurredAt := h.occurredAt.symm
  causationId := h.causationId.symm
  correlationId := h.correlationId.symm

theorem Agrees.trans (h : Agrees a b) (h' : Agrees b c) : Agrees a c where
  eventType := h.eventType.trans h'.eventType
  plane := h.plane.trans h'.plane
  payload := h.payload.trans h'.payload
  producer := h.producer.trans h'.producer
  producerRole := h.producerRole.trans h'.producerRole
  schemaVersion := h.schemaVersion.trans h'.schemaVersion
  occurredAt := h.occurredAt.trans h'.occurredAt
  causationId := h.causationId.trans h'.causationId
  correlationId := h.correlationId.trans h'.correlationId

end EventEnvelope

namespace Store

variable {s s' : Store} {e e' row r : EventEnvelope} {h h' : History} {x m : Int}
variable {now now' : Instant} {fault : Option AppendStep} {twinId key : String}

/-- Of two aware events the check compares what the requests ask for. -/
theorem sameRequest_iff (haware : row.occurredAt.naive = false)
    (haware' : e.occurredAt.naive = false) : sameRequest row e = true ↔ e.Agrees row := by
  simp only [sameRequest, DateTime.same, haware, haware', Bool.and_eq_true, beq_iff_eq,
    true_and]
  constructor
  · rintro ⟨⟨⟨⟨⟨⟨⟨⟨h1, h2⟩, h3⟩, h4⟩, h5⟩, h6⟩, h7⟩, h8⟩, h9⟩
    exact ⟨h1.symm, h2.symm, h3.symm, h4.symm, h5.symm, h6.symm, h7.symm, h8.symm, h9.symm⟩
  · rintro ⟨h1, h2, h3, h4, h5, h6, h7, h8, h9⟩
    exact ⟨⟨⟨⟨⟨⟨⟨⟨h1.symm, h2.symm⟩, h3.symm⟩, h4.symm⟩, h5.symm⟩, h6.symm⟩, h7.symm⟩,
      h8.symm⟩, h9.symm⟩

theorem agrees_decode (row : EventEnvelope) : (decode row).Agrees row := by
  have hpayload : canonicalJson (.ofPayload (decode row).payload) =
      canonicalJson (.ofPayload row.payload) := by
    rw [decode, ← Json.reread_ofPayload, canonicalJson_reread]
  exact ⟨rfl, rfl, hpayload, rfl, rfl, rfl, DateTime.instant_astimezoneUtc _, rfl, rfl⟩

/-- Reading a row back gives the event that was written. -/
theorem same_decode (haware : row.occurredAt.naive = false)
    (haware' : row.recordedAt.naive = false) : (decode row).Same row where
  fields := rfl
  payload := Payload.reread_reread row.payload
  occurredAt := by simp [decode, DateTime.same, haware]
  recordedAt := by simp [decode, DateTime.same, haware']

/-- What an event read back says of its row. -/
theorem aware_of_rowToEvent (hrow : rowToEvent row = .ok r) :
    row.occurredAt.naive = false ∧ row.recordedAt.naive = false ∧ r = decode row := by
  have hdecoded := rowToEvent_ok hrow
  unfold rowToEvent at hrow
  split_ifs at hrow with hnaive
  rw [not_or, Bool.not_eq_true, Bool.not_eq_true] at hnaive
  exact ⟨hnaive.1, hnaive.2, hdecoded⟩

variable [Digest]

/-- **What an append that returned leaves under its key**: a row that reads
back as what it returned, and that asks for what it asked for. -/
theorem keyed_of_append (haware : e.occurredAt.naive = false)
    (hfirst : Returns (append e x now fault) s r s') :
    ∃ row, s'.keyed e.twinId e.idempotencyKey = some row ∧ Admitted row ∧ row.Agrees e ∧
      (decode row).Same r := by
  obtain ⟨hschema, hplane, ⟨-, ⟨row, hkey, hrow, hsame⟩, rfl⟩ | ⟨-, hfresh⟩⟩ :=
    returns_append.1 hfirst
  · obtain ⟨hoccurred, hrecorded, rfl⟩ := aware_of_rowToEvent hrow
    have hagrees : e.Agrees (decode row) := (sameRequest_iff rfl haware).1 hsame
    have hagrees' : e.Agrees row := hagrees.trans (agrees_decode row)
    refine ⟨row, hkey, ⟨hoccurred, hrecorded, ?_, ?_⟩, hagrees'.symm, ⟨rfl, rfl, ?_, ?_⟩⟩
    · rw [← hagrees'.schemaVersion]
      exact hschema
    · rw [← hagrees'.plane]
      exact hplane
    · simp [DateTime.same]
    · simp [DateTime.same]
  · have hsealed := hfresh.sealed
    have hnone : s.events.find? (fun row => row.twinId == e.twinId &&
        row.idempotencyKey == e.idempotencyKey) = none := hfresh.1
    refine ⟨r, ?_, ⟨?_, ?_, ?_, ?_⟩, ?_, ?_⟩
    · rw [keyed, hfresh.events_eq, List.find?_append, hnone, hsealed]
      simp [EventEnvelope.sealAt]
    all_goals rw [hsealed]
    · exact haware
    · rfl
    · exact hschema
    · exact hplane
    · exact ⟨rfl, rfl, rfl, rfl, rfl, rfl, rfl, rfl, rfl⟩
    · exact same_decode haware rfl

end Store

end ArgoTwin
