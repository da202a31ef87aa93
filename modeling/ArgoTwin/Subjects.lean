import ArgoTwin.Sequential
/-!
# The subject of a twin

A twin has no subject until an event names one, and keeps the one it has.
What an append can do to the subject follows from its event alone.
-/

namespace ArgoTwin

open Library TwinAggregate

/-- The subject an event binds its twin to, if it binds it. -/
def boundSubject (e : EventEnvelope) : Option String :=
  match e.kind with
  | .evidenceIngested | .entityLinked | .claimProposed | .contradictionAdjudicated
  | .correctionRecorded => some (idOf e.payload "subject_id")
  | .contradictionDetected => EventOwnershipPolicy.payloadSubject e.payload
  | _ => none

variable {s : TwinState} {e e' : EventEnvelope} {S : String}

/-- An event that binds finds the twin unbound, or bound so already. -/
theorem binds_of_accepts (haccepts : Accepts e s) (h : boundSubject e = some S) :
    s.subjectId = none ∨ s.subjectId = some S := by
  have hallowed := haccepts.2.2
  unfold boundSubject at h
  unfold Allowed at hallowed
  cases hkind : e.kind with
  | evidenceIngested | entityLinked | claimProposed | correctionRecorded =>
    simp only [hkind, Option.some.injEq] at h hallowed
    exact h ▸ hallowed.2.1.2
  | contradictionAdjudicated =>
    simp only [hkind, Option.some.injEq] at h hallowed
    exact h ▸ hallowed.2.2.1.2
  | contradictionDetected =>
    simp only [hkind] at h hallowed
    exact (hallowed.2.2.1 S h).2
  | _ =>
    simp only [hkind] at h
    cases h

/-- **The subject after an event**: the one it binds, or the one there was. -/
theorem effect_subjectId : (effect e s).subjectId = (boundSubject e).or s.subjectId := by
  have h : (effectKind e s).subjectId = (boundSubject e).or s.subjectId := by
    unfold effectKind boundSubject
    cases e.kind with
    | contradictionDetected =>
      simp only [boundIfNamed]
      cases EventOwnershipPolicy.payloadSubject e.payload <;> rfl
    | correctionRecorded =>
      simp only
      split <;> rfl
    | _ => rfl
  exact h

/-- A twin that has a subject keeps it. -/
theorem subject_kept (haccepts : Accepts e s) (h : s.subjectId = some S) :
    (effect e s).subjectId = some S := by
  rw [effect_subjectId]
  cases hbound : boundSubject e with
  | none => exact h
  | some S' =>
    rcases binds_of_accepts haccepts hbound with hnone | hsome
    · rw [h] at hnone
      cases hnone
    · rw [← h, hsome]
      rfl

theorem SameRequest.boundSubject (h : SameRequest e e') : boundSubject e = boundSubject e' := by
  rw [ArgoTwin.boundSubject, ArgoTwin.boundSubject, h.kind, h.payload]

/-! ## After an append -/

variable [Digest] {t t' : Store} {actor : ActorContext} {x : Int} {now : Instant}
variable {r : EventEnvelope} {twinId : String}

omit [Digest] in
theorem SameLedger.stream (h : SameLedger t t') (twinId : String) :
    t'.stream twinId = t.stream twinId := by
  rw [Store.stream, Store.stream, Store.rowsOf, Store.rowsOf, h.events]

omit [Digest] in
theorem SameLedger.latest (h : SameLedger t t') (twinId : String) :
    latest t' twinId = latest t twinId := by
  rw [TwinAggregate.latest, TwinAggregate.latest, h.stream]

namespace Committed

theorem aware (h : Committed t e actor x now r t') : e.occurredAt.naive = false :=
  (header_of_validateEvent h.validated).2.1

/-- What is stored is the event, with a place. -/
theorem sealed (h : Committed t e actor x now r t') :
    r = e.sealAt (x + 1) (t.head e.twinId).2 (DateTime.utc now) := by
  obtain ⟨after, hfresh, -⟩ := h.fresh
  rw [hfresh.sealed]

theorem payload_eq (h : Committed t e actor x now r t') : r.payload = e.payload := by
  rw [h.sealed]
  rfl

theorem kind_eq (h : Committed t e actor x now r t') : r.kind = e.kind := by
  rw [h.sealed]
  rfl

theorem stream_eq (h : Committed t e actor x now r t') (twinId : String) :
    t'.stream twinId =
      if e.twinId = twinId then t.stream twinId ++ [Store.decode r] else t.stream twinId := by
  obtain ⟨after, hfresh, hsame⟩ := h.fresh
  rw [hsame.stream, hfresh.stream_eq]

/-- The twin appended to has the event's effect, and no other twin moves. -/
theorem latest_eq (h : Committed t e actor x now r t') (twinId : String) :
    latest t' twinId = if e.twinId = twinId then effect (Store.decode r) (latest t twinId)
      else latest t twinId := by
  rw [latest, latest, h.stream_eq]
  split_ifs
  · rw [replay_concat]
  · rfl

theorem boundSubject_eq (h : Committed t e actor x now r t') :
    boundSubject (Store.decode r) = boundSubject e := by
  have hkind : (Store.decode r).kind = e.kind := h.kind_eq
  have hread : (Store.decode r).payload = r.payload := h.canonical
  have hpayload : (Store.decode r).payload = e.payload := hread.trans h.payload_eq
  rw [boundSubject, boundSubject, hkind, hpayload]

/-- **The subject after an append.** -/
theorem subject_eq (h : Committed t e actor x now r t') (twinId : String) :
    (latest t' twinId).subjectId =
      if e.twinId = twinId then (boundSubject e).or (latest t twinId).subjectId
      else (latest t twinId).subjectId := by
  rw [h.latest_eq]
  split_ifs
  · rw [effect_subjectId, h.boundSubject_eq]
  · rfl

/-- The stored event, as it is read back, is accepted by the state before. -/
theorem accepts_decode (h : Committed t e actor x now r t') :
    Accepts (Store.decode r) (latest t e.twinId) := by
  obtain ⟨after, hfresh, -⟩ := h.fresh
  exact (ArgoTwin.accepts_decode hfresh h.aware h.canonical).2 h.accepts

theorem grows (h : Committed t e actor x now r t') : Extends t t' := by
  intro twinId
  rw [h.stream_eq]
  split_ifs
  · exact List.prefix_append _ _
  · exact List.prefix_rfl

end Committed

end ArgoTwin
