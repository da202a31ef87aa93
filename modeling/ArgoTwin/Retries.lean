import ArgoTwin.Idempotency
import ArgoTwin.Isolation
/-!
# Calls made again

A client that has heard no answer makes its call again, word for word. The
write methods come by the same event as before, under another id, and its
key is answered with what is stored; three of them ask for the head instead,
which has moved on, and turn the call down. Either way nothing is said twice.
-/

namespace ArgoTwin

open Library TwinAggregate

namespace WriteCall

/-- The method asks for the head it expects, of all twins or the latest state. -/
def fenced : WriteCall → Bool
  | deleteEvidence _ | issueProjection _ | revokeProjection _ => true
  | _ => false

end WriteCall

namespace Store

variable [Digest] {s s' : Store} {row : EventEnvelope}

/-- A row is what its key finds. -/
theorem keyed_of_mem (hs : s.Valid) (hrow : row ∈ s.events) :
    s.keyed row.twinId row.idempotencyKey = some row := by
  obtain ⟨before, after, hevents⟩ := List.append_of_mem hrow
  have hunique := hs.unique
  rw [hevents, List.pairwise_append] at hunique
  rw [keyed, hevents, List.find?_eq_some_iff_append]
  refine ⟨by simp, before, after, rfl, fun other hother => ?_⟩
  have hfree := hunique.2.2 other hother row List.mem_cons_self
  simp only [conflicts, Bool.or_eq_false_iff] at hfree
  simp [hfree.2]

/-- **A used key stays used**, and finds what reads back the same, on any
store that has grown. -/
theorem keyed_later (hs : s'.Valid) (hgrown : Extends s s') (hrow : row ∈ s.events) :
    ∃ row', s'.keyed row.twinId row.idempotencyKey = some row' ∧ Admitted row' ∧
      decode row' = decode row := by
  have hmem : decode row ∈ s'.stream row.twinId :=
    (hgrown row.twinId).subset (List.mem_map_of_mem (mem_rowsOf.2 ⟨hrow, rfl⟩))
  obtain ⟨row', hrow', hsame⟩ := List.mem_map.1 hmem
  obtain ⟨hmem', htwin⟩ := mem_rowsOf.1 hrow'
  have hkey : row'.idempotencyKey = row.idempotencyKey :=
    (congrArg EventEnvelope.idempotencyKey hsame :)
  have hkeyed := keyed_of_mem hs hmem'
  rw [htwin, hkey] at hkeyed
  exact ⟨row', hkeyed, hs.admitted row' hmem', hsame⟩

end Store

namespace Service

variable [Digest] {svc : Service} {p p' q : Process} {s : TwinState} {e : EventEnvelope}
variable {actor : ActorContext} {twinId : String}

variable {x : Int} {readings : AppendReadings} {row : EventEnvelope}

/-- What an append that returned has gone through. -/
structure Went (p : Process) (e : EventEnvelope) (actor : ActorContext) (x : Int)
    (readings : AppendReadings) (r : EventEnvelope) (p' : Process) : Prop where
  authorized : EventOwnershipPolicy.authorize e actor = .ok ()
  validated : validateEvent e = .ok ()
  plane : e.plane ≠ .simulation
  canonical : r.payload.Canonical
  accepted : (p.store.head e.twinId).1 = x →
    Accepts (e.sealAt (x + 1) (p.store.head e.twinId).2 (DateTime.utc readings.previewed))
      (latest p.store e.twinId)
  healthy : p'.Healthy
  stored : ∃ s', Returns (Store.append e x readings.recorded none) p.store r s' ∧
    SameLedger s' p'.store ∧ (s' = p.store ∨
      (Accepts r (latest p.store e.twinId) ∧ p.store.Fresh e x readings.recorded r s'))

variable {r : EventEnvelope}

namespace Went

/-- The streams have only grown. -/
theorem grows (h : Went p e actor x readings r p') : Extends p.store p'.store := by
  obtain ⟨s', -, hledger, hsame | ⟨-, hfresh⟩⟩ := h.stored
  · exact extends_of_events (hsame ▸ hledger.events)
  · exact (extends_fresh hfresh).trans (extends_of_events hledger.events)

/-- **Its key answers the same request with it**, on whatever the ledger
has grown to. -/
theorem keyed_later (h : Went p e actor x readings r p') {s : Store} (hs : s.Valid)
    (hgrown : Extends p'.store s) : ∃ row, s.keyed e.twinId e.idempotencyKey = some row ∧
      Store.Admitted row ∧ e.Agrees row ∧ (Store.decode row).Same r := by
  obtain ⟨s', happend, hledger, -⟩ := h.stored
  obtain ⟨row, hkeyed, -, hagrees, hsame⟩ :=
    Store.keyed_of_append (header_of_validateEvent h.validated).2.1 happend
  have hkey := List.find?_some hkeyed
  simp only [Bool.and_eq_true, beq_iff_eq] at hkey
  have hmem : row ∈ p'.store.events := by
    rw [hledger.events]
    exact List.mem_of_find?_eq_some hkeyed
  obtain ⟨row', hkeyed', hadmitted, hread⟩ := Store.keyed_later hs hgrown hmem
  rw [hkey.1, hkey.2] at hkeyed'
  refine ⟨row', hkeyed', hadmitted, ?_, hread ▸ hsame⟩
  have hdecoded : (Store.decode row').Agrees e := by
    rw [hread]
    exact (Store.agrees_decode row).trans hagrees
  exact hdecoded.symm.trans (Store.agrees_decode row')

/-- Nothing was said, or the event was committed. -/
theorem committed (h : Went p e actor x readings r p') : SameLedger p.store p'.store ∨
    Committed p.store e actor x readings.recorded r p'.store := by
  obtain ⟨s', -, hledger, hsame | ⟨haccepts, hfresh⟩⟩ := h.stored
  · exact .inl (hsame ▸ hledger)
  · exact .inr ⟨h.authorized, h.validated, h.plane, h.canonical, haccepts, s', hfresh, hledger⟩

/-- What was answered is of the type asked for. -/
theorem kind_eq (h : Went p e actor x readings r p') : r.kind = e.kind := by
  obtain ⟨row, -, -, hagrees, hsame⟩ := h.keyed_later h.healthy.sound.valid .refl
  have htype : r.eventType = e.eventType := by
    rw [← hsame.fields, hagrees.eventType]
    rfl
  rw [EventEnvelope.kind, EventEnvelope.kind, htype]

end Went

/-! ## The subject a call finds later -/

section Subject

variable {store later : Store} {S : String}

variable {with_ : Collaborators} {call : WriteCall} {ctx : WriteContext}

end Subject

/-! ## The call made again -/

variable {with_ : Collaborators} {call : WriteCall} {ctx : WriteContext}

/-- The call drains the outbox, answers with the event it answered first,
and says nothing new. -/
structure Repeated (svc : Service) (again : Method EventEnvelope) (relay : RelayReadings)
    (r : EventEnvelope) (p : Process) : Prop where
  ledger : SameLedger p.store (finalState again p).store
  answered : ∃ answer q, answer.Same r ∧ answer.payload = r.payload ∧ q.store = p.store ∧
    again p = (do let _ ← svc.drain 100 relay; pure answer : Method EventEnvelope) q

/-- So is what comes by that event first. -/
theorem Repeated.after {svc : Service} {m : Method EventEnvelope}
    {again : EventEnvelope → Method EventEnvelope} {relay : RelayReadings}
    (h : Repeated svc (again e) relay r q) (hstore : q.store = p.store) (hm : Returns m p e q) :
    Repeated svc (m >>= again) relay r p := by
  obtain ⟨hledger, answer, q', hsame, hpayload, hkept, hanswer⟩ := h
  refine ⟨?_, answer, q', hsame, hpayload, hkept.trans hstore,
    (bind_eq_of_returns hm).trans hanswer⟩
  rw [finalState_bind hm, ← hstore]
  exact hledger

end Service

end ArgoTwin
