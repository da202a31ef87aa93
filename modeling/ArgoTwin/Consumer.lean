import ArgoTwin.Messages
/-!
# Consuming messages

`JetStreamConsumer.process` settles a message once: it acknowledges what
its handler took, gives back what may succeed on redelivery, and ends what
cannot, after a marker to the dead-letter lane. The marker's subject is
built of the twin of the event that was just refused: where that is no
token of a subject the marker cannot be built, and the message stays
unsettled (`settled_once_iff`).
-/

namespace ArgoTwin

open Library

/-! ## Messages and what is done with them -/

/-- A message, with `metadata.num_delivered` where the metadata has one. -/
structure JetStreamMessage where
  subject : String
  data : ByteArray
  numDelivered : Option Json

/-- What a handler can raise: one of the consumer's own two, any other
`Exception`, or a cancellation, which is none. -/
inductive Failure where
  | permanent (message : String)
  | retryable (message : String)
  | python (error : PyError)
  | cancelled
  deriving DecidableEq

namespace Failure

/-- `PermanentConsumerError`, `ProtocolViolation` and `IntegrityError`. -/
def terminal : Failure → Bool
  | .permanent _ => true
  | .python (.protocolViolation _) | .python (.messageTooLarge _)
  | .python (.resumeCursorRejected _) | .python (.integrityError _) => true
  | _ => false

end Failure

inductive Action where
  | publish (subject payload : String) (headers : List (String × String))
  | ack
  | nak (delay : PyFloat)
  | term
  deriving DecidableEq

/-- `ack`, `nak` and `term`. -/
def Action.settles : Action → Bool
  | .publish .. => false
  | _ => true

structure NatsConsumerStats where
  received : Nat := 0
  acknowledged : Nat := 0
  retried : Nat := 0
  deadlettered : Nat := 0
  malformed : Nat := 0
  deriving DecidableEq

/-- What has been done with the message at hand, and the consumer's counts. -/
structure Exchange where
  log : List Action
  stats : NatsConsumerStats
  deriving DecidableEq

namespace JetStreamConsumer

/-- A call of JetStream, which succeeds. -/
def act (action : Action) : EStateM Failure Exchange Unit :=
  modify fun s => { s with log := s.log ++ [action] }

def count (f : NatsConsumerStats → NatsConsumerStats) : EStateM Failure Exchange Unit :=
  modify fun s => { s with stats := f s.stats }

/-- `_delivery_count`. -/
def deliveryCount (m : JetStreamMessage) : Int :=
  match m.numDelivered with
  | some (.int n) => if 0 < n then n else 1
  | _ => 1

def marker (c : JetStreamConsumer) (m : JetStreamMessage) (event : Option DecodedEvent)
    (reason : String) (now : Instant) : Json :=
  Json.object
    [("schema_version", .str "argo.dt.deadletter/v1"),
     ("twin_id", .str ((event.map (·.event.twinId)).getD "unknown")),
     ("sequence", .int ((event.map (·.event.sequence)).getD 0)), ("stage", .str c.stage),
     ("reason", .str reason), ("delivery_count", .int (deliveryCount m)),
     ("observed_at", .str (DateTime.utc now).toPrimitive)]

/-- `_deadletter`. -/
def deadletter (c : JetStreamConsumer) (m : JetStreamMessage) (event : Option DecodedEvent)
    (reason : String) (now : Instant) : EStateM Failure Exchange Unit := do
  let twinId := (event.map (·.event.twinId)).getD "unknown"
  let subject ← fromExcept
    ((NatsSubjectTopology.deadletter c.tenant twinId c.stage).mapError Failure.python)
  act (.publish subject (canonicalJson (c.marker m event reason now))
    [("Content-Type", "application/json")])
  act .term
  count fun stats => { stats with deadlettered := stats.deadlettered + 1 }

variable [Digest] (r : DocumentReader) (c : JetStreamConsumer)
  (handler : DecodedEvent → Except Failure Unit)

/-- The block that may fail: the event as far as there is one, and the outcome. -/
def attempt (m : JetStreamMessage) : Option DecodedEvent × Except Failure Unit :=
  match c.decode r m.data with
  | .error e => (none, .error (.python e))
  | .ok event => (some event,
    match NatsSubjectTopology.event c.tenant event.event with
    | .error e => .error (.python e)
    | .ok expectedSubject =>
      if m.subject ≠ expectedSubject then .error (.permanent "SUBJECT_EVENT_MISMATCH")
      else handler event)

/-- `process`. -/
def process (m : JetStreamMessage) (now : Instant) : EStateM Failure Exchange Unit := do
  count fun stats => { stats with received := stats.received + 1 }
  match attempt r c handler m with
  | (event, .error failure) =>
    if failure = .cancelled then throw failure
    else if failure.terminal then
      count fun stats => { stats with malformed := stats.malformed + 1 }
      c.deadletter m event "INVALID_EVENT" now
    else if c.maxDeliver ≤ deliveryCount m then
      c.deadletter m event "MAX_DELIVER_EXCEEDED" now
    else
      act (.nak c.retryDelay)
      count fun stats => { stats with retried := stats.retried + 1 }
  | (_, .ok ()) =>
    act .ack
    count fun stats => { stats with acknowledged := stats.acknowledged + 1 }

/-! ## What becomes of a message -/

/-- **Settled once**: acknowledged after the handler took the event on its
own subject, given back below the delivery limit, or ended after a marker. -/
structure Settled (m : JetStreamMessage) (log : List Action) : Prop where
  once : ∃ action, log.filter Action.settles = [action]
  acknowledged : .ack ∈ log → ∃ event, c.decode r m.data = .ok event ∧
    event.verify event.event.previousHash = .ok () ∧
    NatsSubjectTopology.event c.tenant event.event = .ok m.subject ∧ handler event = .ok ()
  retried : ∀ delay, .nak delay ∈ log → deliveryCount m < c.maxDeliver
  ended : .term ∈ log → ∃ subject payload headers before after,
    log = before ++ .publish subject payload headers :: after ∧ .term ∉ before ∧
    ∃ twinId, NatsSubjectTopology.deadletter c.tenant twinId c.stage = .ok subject

variable {r c handler} {m : JetStreamMessage} {event : Option DecodedEvent}

omit [Digest] in
theorem tokens_of_new {tenant stage : String} {maxDeliver : Int} {retryDelay : PyFloat}
    {maxEventBytes : Int} (h : new tenant stage maxDeliver retryDelay maxEventBytes = .ok c) :
    NatsSubjectTopology.isToken c.tenant = true ∧ NatsSubjectTopology.isToken c.stage = true := by
  unfold new at h
  split_ifs at h
  · cases h
  · obtain ⟨_, hsubject, hc⟩ := bind_eq_ok.1 h
    obtain ⟨htenant, -, hstage, -⟩ := NatsSubjectTopology.deadletter_eq_ok.1 hsubject
    cases hc
    exact ⟨htenant, hstage⟩

omit [Digest] in
/-- A marker is published where its subject can be built, and the message ended. -/
theorem deadletter_of_token (m : JetStreamMessage) (reason : String) (now : Instant)
    {subject : String}
    (h : NatsSubjectTopology.deadletter c.tenant ((event.map (·.event.twinId)).getD "unknown")
      c.stage = .ok subject) (s : Exchange) :
    ∃ stats, c.deadletter m event reason now s =
      .ok () ⟨s.log ++ [.publish subject (canonicalJson (c.marker m event reason now))
        [("Content-Type", "application/json")]] ++ [.term], stats⟩ := by
  unfold deadletter
  simp only [h, Except.mapError]
  exact ⟨_, rfl⟩

omit [Digest] in
/-- Where the twin is no token nothing is done. -/
theorem deadletter_of_not_token (m : JetStreamMessage) (reason : String) (now : Instant)
    {d : DecodedEvent}
    (h : NatsSubjectTopology.isToken d.event.twinId = false) (s : Exchange) :
    ∃ failure, c.deadletter m (some d) reason now s = .error failure s := by
  have hfail : ∀ subject, NatsSubjectTopology.deadletter c.tenant d.event.twinId c.stage ≠
      .ok subject := by
    intro subject hsubject
    have htoken := (NatsSubjectTopology.deadletter_eq_ok.1 hsubject).2.1
    rw [h] at htoken
    cases htoken
  unfold deadletter
  simp only [Option.map_some, Option.getD_some]
  cases hsubject : NatsSubjectTopology.deadletter c.tenant d.event.twinId c.stage with
  | ok subject => exact absurd hsubject (hfail subject)
  | error e => exact ⟨.python e, rfl⟩

/-- What is decoded verifies. -/
theorem verify_of_decode {payload : ByteArray} {d : DecodedEvent}
    (h : c.decode r payload = .ok d) : d.verify d.event.previousHash = .ok () := by
  unfold decode at h
  split_ifs at h
  · cases h
  · obtain ⟨event, -, hrest⟩ := bind_eq_ok.1 h
    dsimp only at hrest
    split_ifs at hrest
    · cases hrest
    · obtain ⟨_, hverify, hd⟩ := bind_eq_ok.1 hrest
      cases hd
      exact hverify

omit [Digest] in
theorem event_of_not_token {tenant : String} {e : EventEnvelope}
    (htenant : NatsSubjectTopology.isToken tenant = true)
    (h : NatsSubjectTopology.isToken e.twinId = false) :
    ∃ message, NatsSubjectTopology.event tenant e = .error (.protocolViolation message) := by
  have hname : NatsSubjectTopology.token tenant "tenant" = .ok tenant :=
    NatsSubjectTopology.token_eq_ok.2 ⟨htenant, rfl⟩
  have htwin : NatsSubjectTopology.token e.twinId "twin_id" = .error (.protocolViolation
      ("twin_id" ++ " must be 1-64 URL-safe characters without NATS wildcards")) := by
    rw [NatsSubjectTopology.token, h]
    rfl
  refine ⟨"twin_id" ++ " must be 1-64 URL-safe characters without NATS wildcards", ?_⟩
  rw [NatsSubjectTopology.event, hname]
  show NatsSubjectTopology.token e.twinId "twin_id" >>= _ = _
  rw [htwin]
  rfl

/-- The condition on a message: the twin of the event it decodes to is a
token, and the handler is not cancelled over it. -/
def Routable (r : DocumentReader) (c : JetStreamConsumer)
    (handler : DecodedEvent → Except Failure Unit) (m : JetStreamMessage) : Prop :=
  ∀ d, c.decode r m.data = .ok d → NatsSubjectTopology.isToken d.event.twinId = true ∧
    (NatsSubjectTopology.event c.tenant d.event = .ok m.subject → handler d ≠ .error .cancelled)

/-- A marker's subject can be built for a message that is routable. -/
theorem Routable.deadletter (h : Routable r c handler m)
    (htenant : NatsSubjectTopology.isToken c.tenant = true)
    (hstage : NatsSubjectTopology.isToken c.stage = true)
    (hevent : ∀ d ∈ event, c.decode r m.data = .ok d) :
    ∃ subject, NatsSubjectTopology.deadletter c.tenant ((event.map (·.event.twinId)).getD "unknown")
      c.stage = .ok subject := by
  refine ⟨_, NatsSubjectTopology.deadletter_eq_ok.2 ⟨htenant, ?_, hstage, rfl⟩⟩
  cases event with
  | none => decide
  | some d => exact (h d (hevent d rfl)).1

/-- An event on its own subject is handed to the handler. -/
theorem attempt_of_subject (handler : DecodedEvent → Except Failure Unit) {d : DecodedEvent}
    (hdecode : c.decode r m.data = .ok d)
    (hsubject : NatsSubjectTopology.event c.tenant d.event = .ok m.subject) :
    attempt r c handler m = (some d, handler d) := by
  simp only [attempt, hdecode, hsubject, ne_eq, not_true_eq_false, if_false]

/-- What was attempted: the event is what the message decodes to, and an
outcome without failure is the handler's, on the event's own subject. -/
theorem attempt_spec (r : DocumentReader) (c : JetStreamConsumer)
    (handler : DecodedEvent → Except Failure Unit) (m : JetStreamMessage) :
    (∀ d ∈ (attempt r c handler m).1, c.decode r m.data = .ok d) ∧
    (∀ u, (attempt r c handler m).2 = .ok u → ∃ d, c.decode r m.data = .ok d ∧
      NatsSubjectTopology.event c.tenant d.event = .ok m.subject ∧ handler d = .ok ()) ∧
    ((attempt r c handler m).2 = .error .cancelled → ∃ d, c.decode r m.data = .ok d ∧
      NatsSubjectTopology.event c.tenant d.event = .ok m.subject ∧
      handler d = .error .cancelled) := by
  cases hdecode : c.decode r m.data with
  | error e =>
    have hattempt : attempt r c handler m = (none, .error (.python e)) := by
      simp only [attempt, hdecode]
    rw [hattempt]
    simp
  | ok d =>
    cases hsubject : NatsSubjectTopology.event c.tenant d.event with
    | error e =>
      have hattempt : attempt r c handler m = (some d, .error (.python e)) := by
        simp only [attempt, hdecode, hsubject]
      rw [hattempt]
      simp
    | ok subject =>
      by_cases hother : m.subject ≠ subject
      · have hattempt : attempt r c handler m =
            (some d, .error (.permanent "SUBJECT_EVENT_MISMATCH")) := by
          simp only [attempt, hdecode, hsubject, if_pos hother]
        rw [hattempt]
        simp
      · obtain rfl := not_not.1 hother
        rw [attempt_of_subject handler hdecode hsubject]
        refine ⟨fun d' hd' => congrArg Except.ok (Option.mem_some_iff.1 hd'), ?_, ?_⟩
        · exact fun u hu => ⟨d, rfl, hsubject, hu⟩
        · exact fun hcancel => ⟨d, rfl, hsubject, hcancel⟩

/-- An event whose twin is no token is refused. -/
theorem attempt_of_not_token (handler : DecodedEvent → Except Failure Unit) {d : DecodedEvent}
    (hdecode : c.decode r m.data = .ok d)
    (htenant : NatsSubjectTopology.isToken c.tenant = true)
    (h : NatsSubjectTopology.isToken d.event.twinId = false) :
    ∃ message, attempt r c handler m =
      (some d, .error (.python (.protocolViolation message))) := by
  obtain ⟨message, hsubject⟩ := event_of_not_token htenant h
  refine ⟨message, ?_⟩
  simp only [attempt, hdecode, hsubject]

/-- An ended message is settled. -/
theorem settled_ended {subject payload twinId : String} {headers : List (String × String)}
    (h : NatsSubjectTopology.deadletter c.tenant twinId c.stage = .ok subject) :
    Settled r c handler m [.publish subject payload headers, .term] where
  once := ⟨.term, rfl⟩
  acknowledged := by simp
  retried := by simp
  ended := fun _ => ⟨subject, payload, headers, [], [.term], rfl, List.not_mem_nil, twinId, h⟩

/-- **A message is settled once**, and rightly, just where the twin of the
event it decodes to is a token and its handler is not cancelled. -/
theorem settled_once_iff {tenant stage : String} {maxDeliver : Int} {retryDelay : PyFloat}
    {maxEventBytes : Int} (hnew : new tenant stage maxDeliver retryDelay maxEventBytes = .ok c)
    (r : DocumentReader) (handler : DecodedEvent → Except Failure Unit) (m : JetStreamMessage)
    (now : Instant) (stats : NatsConsumerStats) :
    (∃ s, Returns (process r c handler m now) ⟨[], stats⟩ () s ∧ Settled r c handler m s.log) ↔
      Routable r c handler m := by
  obtain ⟨htenant, hstage⟩ := tokens_of_new hnew
  constructor
  · rintro ⟨s, hreturns, -⟩ d hdecode
    unfold process at hreturns
    constructor
    · by_contra hno
      have hfalse : NatsSubjectTopology.isToken d.event.twinId = false := by simpa using hno
      obtain ⟨message, hattempt⟩ := attempt_of_not_token handler hdecode htenant hfalse
      rw [hattempt] at hreturns
      obtain ⟨_, s₁, -, hsettle⟩ := returns_bind.1 hreturns
      simp only [reduceCtorEq, if_false, Failure.terminal, if_true] at hsettle
      obtain ⟨_, s₂, -, hmarker⟩ := returns_bind.1 hsettle
      obtain ⟨failure, hraise⟩ := deadletter_of_not_token m "INVALID_EVENT" now hfalse s₂
      rw [Returns, hraise] at hmarker
      cases hmarker
    · intro hsubject hcancel
      rw [attempt_of_subject handler hdecode hsubject, hcancel] at hreturns
      obtain ⟨_, s₁, -, hsettle⟩ := returns_bind.1 hreturns
      cases hsettle
  · intro hroutable
    obtain ⟨hevent, hok, hcancelled⟩ := attempt_spec r c handler m
    unfold process
    generalize hattempt : attempt r c handler m = tried at hevent hok hcancelled
    obtain ⟨event, result⟩ := tried
    obtain ⟨subject, hmarker⟩ := hroutable.deadletter htenant hstage hevent
    cases result with
    | ok u =>
      obtain ⟨d, hdecode, hsubject, hhandler⟩ := hok () rfl
      refine ⟨⟨[.ack], _⟩, rfl, ⟨.ack, rfl⟩, ?_, by simp, by simp⟩
      exact fun _ => ⟨d, hdecode, verify_of_decode hdecode, hsubject, hhandler⟩
    | error failure =>
      have hne : failure ≠ .cancelled := by
        rintro rfl
        obtain ⟨d, hdecode, hsubject, hcancel⟩ := hcancelled rfl
        exact (hroutable d hdecode).2 hsubject hcancel
      simp only [if_neg hne]
      by_cases hterminal : failure.terminal = true
      · rw [if_pos hterminal]
        obtain ⟨stats', hrun⟩ := deadletter_of_token m "INVALID_EVENT" now hmarker
          ⟨[], { stats with received := stats.received + 1, malformed := stats.malformed + 1 }⟩
        exact ⟨_, returns_bind.2 ⟨(), _, rfl, returns_bind.2 ⟨(), _, rfl, hrun⟩⟩,
          settled_ended hmarker⟩
      · rw [if_neg hterminal]
        by_cases hlast : c.maxDeliver ≤ deliveryCount m
        · rw [if_pos hlast]
          obtain ⟨stats', hrun⟩ := deadletter_of_token m "MAX_DELIVER_EXCEEDED" now hmarker
            ⟨[], { stats with received := stats.received + 1 }⟩
          exact ⟨_, returns_bind.2 ⟨(), _, rfl, hrun⟩, settled_ended hmarker⟩
        · rw [if_neg hlast]
          refine ⟨⟨[.nak c.retryDelay], _⟩, rfl, ⟨.nak c.retryDelay, rfl⟩, by simp, ?_, by simp⟩
          exact fun _ _ => Int.not_le.1 hlast

/-- An event of a twin whose name no subject holds. -/
def spacedEvent : EventEnvelope :=
  EventEnvelope.sealAt
    { eventId := "event-1", twinId := "twin 1", eventType := "EvidenceIngested"
      plane := .authoritative, payload := ∅, occurredAt := DateTime.utc 1
      recordedAt := DateTime.utc 1, producer := "ingest", producerRole := .ingestService
      idempotencyKey := "key-1" }
    1 "" (DateTime.utc 2)

def indexer : JetStreamConsumer := ⟨"acme", "indexer", 5, ⟨false, 1, 0, by decide⟩, 2048⟩

/-- An event of a twin whose name is a token. -/
def routedEvent : EventEnvelope :=
  EventEnvelope.sealAt { spacedEvent with twinId := "t" } 1 "" (DateTime.utc 2)

omit [Digest] in
/-- Its message is acknowledged, the handler having taken it. -/
theorem settled_once_routed :
    let _ : Digest := checksumDigest
    let reader : DocumentReader := ⟨some, fun _ => .error (.valueError "not finite")⟩
    let message : JetStreamMessage := ⟨"argo.dt.acme.t.authoritative.EvidenceIngested",
      (canonicalJson routedEvent.primitive).toUTF8, none⟩
    ∃ s, Returns (process reader indexer (fun _ => .ok ()) message 9) ⟨[], {}⟩ () s ∧
      Settled reader indexer (fun _ => .ok ()) message s.log ∧ s.log = [.ack] := by
  intro digest reader message
  have hnew : new "acme" "indexer" 5 ⟨false, 1, 0, by decide⟩ 2048 = .ok indexer := rfl
  have hdecode : indexer.decode reader message.data = .ok (.ofEvent routedEvent.inUtc) :=
    decode_primitive rfl (by decide) (by decide) ⟨by decide, trivial⟩
      (EventEnvelope.verify_sealAt _ 1 "" (DateTime.utc 2)).2 (by decide +kernel)
  have hsubject : NatsSubjectTopology.event indexer.tenant
      (DecodedEvent.ofEvent routedEvent.inUtc).event = .ok message.subject := by decide +kernel
  have hroutable : Routable reader indexer (fun _ => .ok ()) message := by
    intro d hd
    obtain rfl := Except.ok.inj (hdecode.symm.trans hd)
    exact ⟨by decide +kernel, fun _ hcancel => by cases hcancel⟩
  obtain ⟨s, hreturns, hsettled⟩ :=
    (settled_once_iff hnew reader (fun _ => .ok ()) message 9 {}).2 hroutable
  refine ⟨s, hreturns, hsettled, ?_⟩
  unfold process at hreturns
  rw [attempt_of_subject _ hdecode hsubject] at hreturns
  exact (congrArg Exchange.log (returns_unique hreturns rfl).2 :)

omit [Digest] in
/-- The message of an event that verifies, left unsettled. -/
theorem spaced_unsettled :
    let _ : Digest := checksumDigest
    let reader : DocumentReader := ⟨some, fun _ => .error (.valueError "not finite")⟩
    let message : JetStreamMessage := ⟨"argo.dt.acme.twin 1.authoritative.EvidenceIngested",
      (canonicalJson spacedEvent.primitive).toUTF8, none⟩
    new "acme" "indexer" 5 ⟨false, 1, 0, by decide⟩ 2048 = .ok indexer ∧
      ∃ failure s, process reader indexer (fun _ => .ok ()) message 9 ⟨[], {}⟩ =
        .error failure s ∧ s.log = [] := by
  intro digest reader message
  refine ⟨rfl, ?_⟩
  have hdecode : indexer.decode reader message.data = .ok (.ofEvent spacedEvent.inUtc) :=
    decode_primitive rfl (by decide) (by decide) ⟨by decide, trivial⟩
      (EventEnvelope.verify_sealAt _ 1 "" (DateTime.utc 2)).2 (by decide +kernel)
  have hfalse : NatsSubjectTopology.isToken spacedEvent.inUtc.twinId = false := by
    show NatsSubjectTopology.isToken "twin 1" = false
    decide
  obtain ⟨text, hattempt⟩ := attempt_of_not_token (fun _ => .ok ()) hdecode
    (show NatsSubjectTopology.isToken "acme" = true by decide) hfalse
  obtain ⟨failure, hraise⟩ := deadletter_of_not_token (c := indexer)
    (d := .ofEvent spacedEvent.inUtc) message "INVALID_EVENT" 9 hfalse
    ⟨[], { received := 1, malformed := 1 }⟩
  refine ⟨failure, ⟨[], { received := 1, malformed := 1 }⟩, ?_, rfl⟩
  unfold process
  rw [hattempt]
  exact hraise

end JetStreamConsumer

end ArgoTwin
