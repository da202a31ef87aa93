import ArgoTwin.Delivery
/-!
# The relay between the outbox and the live queues

A commit leaves an outbox row behind. A drain of the relay leases rows,
gives their events to the broker, which offers them to every subscription,
and marks the rows published, one record at a time; a drain may fail to
publish, lose its lease to another, or crash between publishing and
marking. No order of these steps loses a wake-up: past what an open
subscription has read or is about to read, every committed event is in its
queue, or still has an unpublished row (`no_lost_wakeup`).
-/

namespace ArgoTwin

open Library

/-! ## The machine -/

/-- A drain in flight: the records it claimed and is not done with, and
whether the broker took the first. -/
structure Drain where
  pending : List OutboxRecord
  published : Bool := false

/-- A service: its ledger, its relay and its broker. -/
structure Fanout where
  history : History
  leaseOwner : String
  leaseSeconds : Int := 30
  queueCapacity : Nat := 1024
  drains : List Drain := []
  readers : List Reader := []

inductive FanoutMove where
  | ledger (op : StoreOp)
  | drain (limit : Int) (now : Instant)
  | publish (i : Nat)
  | publishFails (i : Nat) (reached : List Nat) (error : String)
  | mark (i : Nat) (now : Instant)
  | crash (i : Nat)
  | opens (start : StreamPosition) (limits : SyncLimits) (filters : Filters)
  | reader (j : Nat) (move : ReaderMove)

namespace Fanout

variable [Digest]

/-- `publish`: every subscription the broker has is offered the event. -/
def offered (w : Fanout) (e : EventEnvelope) : List Reader :=
  w.readers.map fun r => r.step w.history.store (.publish e)

/-- A publication that fails has reached some of them. -/
def offeredTo (w : Fanout) (reached : List Nat) (e : EventEnvelope) : List Reader :=
  w.readers.mapIdx fun j r =>
    if j ∈ reached then r.step w.history.store (.publish e) else r

/-- The drain after an update of its record's row: it ends with an error
where the lease was lost. -/
def settled (w : Fanout) (i : Nat) (record : OutboxRecord) (rest : List OutboxRecord) :
    List Drain :=
  if (w.history.store.outbox.filter (Store.leased record)).length = 1 then
    w.drains.set i { pending := rest }
  else w.drains.eraseIdx i

def step (w : Fanout) : FanoutMove → Fanout
  | .ledger op => { w with history := w.history.step op }
  | .drain limit now =>
    let claim := StoreOp.claimOutbox w.leaseOwner limit w.leaseSeconds now
    match outcome (Store.claimOutbox w.leaseOwner limit w.leaseSeconds now) w.history.store with
    | .ok records =>
      { w with history := w.history.step claim, drains := w.drains ++ [{ pending := records }] }
    | .error _ => { w with history := w.history.step claim }
  | .publish i =>
    match w.drains[i]? with
    | some { pending := record :: rest, published := false } =>
      { w with
        readers := w.offered record.event
        drains := w.drains.set i { pending := record :: rest, published := true } }
    | _ => w
  | .publishFails i reached error =>
    match w.drains[i]? with
    | some { pending := record :: rest, published := false } =>
      { w with
        history := w.history.step (.releaseOutbox record error)
        readers := w.offeredTo reached record.event
        drains := w.settled i record rest }
    | _ => w
  | .mark i now =>
    match w.drains[i]? with
    | some { pending := record :: rest, published := true } =>
      { w with
        history := w.history.step (.markOutboxPublished record now)
        drains := w.settled i record rest }
    | _ => w
  | .crash i => { w with drains := w.drains.eraseIdx i }
  | .opens start limits filters =>
    match DurableSubscription.open w.history.store w.queueCapacity start limits filters with
    | .ok d => { w with readers := w.readers ++ [{ start := start, sub := d }] }
    | .error _ => w
  | .reader j move =>
    match w.readers[j]? with
    | some r => { w with readers := w.readers.set j (r.step w.history.store move) }
    | none => w

/-- Only a drain marks rows published, and only the broker publishes. -/
def Genuine (w : Fanout) : FanoutMove → Prop
  | .ledger (.markOutboxPublished _ _) => False
  | .ledger op => TimesAware w.history op
  | .reader _ (.publish _) => False
  | _ => True

end Fanout

/-- The event has an outbox row that is not published. -/
def Store.Unpublished (s : Store) (e : EventEnvelope) : Prop :=
  ∃ row ∈ s.outbox, Announces e row ∧ row.publishedAt = none

/-- **No wake-up is lost**: an event an open subscription has not reached
is part of what it replays, or there is one at or past it in its queue or
deferred, or one at or past it that is still to be published. -/
def Fanout.WakesAll (w : Fanout) : Prop :=
  ∀ r ∈ w.readers, r.sub.live.closed = false →
    ∀ e ∈ w.history.store.stream r.sub.position.twinId, r.sub.position.sequence < e.sequence →
      e.sequence ≤ r.sub.replayHead ∨
      (∃ e', (some e' ∈ r.sub.live.queue ∨ r.sub.deferredLive = some e') ∧
        e.sequence ≤ e'.sequence) ∨
      ∃ e' ∈ w.history.store.stream r.sub.position.twinId,
        e.sequence ≤ e'.sequence ∧ w.history.store.Unpublished e'

/-! ## What the outbox keeps -/

namespace Store

variable {s t : Store} {e : EventEnvelope}

/-- Every row of `t` that is not published is still there, and still not
published. -/
def Waiting (t s : Store) : Prop :=
  ∀ row ∈ t.outbox, row.publishedAt = none →
    ∃ row' ∈ s.outbox, outboxKey row' = outboxKey row ∧ row'.publishedAt = none

theorem Waiting.refl : Waiting t t := fun row hrow hnone => ⟨row, hrow, rfl, hnone⟩

theorem Waiting.unpublished (h : Waiting t s) (he : t.Unpublished e) : s.Unpublished e := by
  obtain ⟨row, hrow, hannounces, hnone⟩ := he
  obtain ⟨row', hrow', hkey, hnone'⟩ := h row hrow hnone
  exact ⟨row', hrow', hkey.trans hannounces, hnone'⟩

theorem Waiting.update (h : Waiting t s) {p : OutboxRow → Bool} {f : OutboxRow → OutboxRow}
    (hf : Leasing f) : Waiting t { s with outbox := updateWhere p f s.outbox } := by
  intro row hrow hnone
  obtain ⟨row', hrow', hkey, hnone'⟩ := h row hrow hnone
  refine ⟨_, List.mem_map_of_mem hrow', ?_⟩
  split_ifs
  · exact ⟨(hf.key row').trans hkey, (hf.publishedAt row').trans hnone'⟩
  · exact ⟨hkey, hnone'⟩

theorem Waiting.of_outbox (h : s.outbox = t.outbox) : Waiting t s := by
  intro row hrow hnone
  rw [← h] at hrow
  exact ⟨row, hrow, rfl, hnone⟩

variable [Digest]

/-- **Nothing but a mark publishes.** -/
theorem waiting_step {h : History} {op : StoreOp}
    (hop : ∀ record now, op ≠ .markOutboxPublished record now) :
    Waiting h.store (h.step op).store := by
  have hstore : (h.step op).store = finalState op.exec h.store := rfl
  cases op with
  | append e x now fault =>
    rw [StoreOp.exec, finalState_discard] at hstore
    rcases finalState_append h.store e x now fault with hsame | ⟨r, hfresh, -, -⟩
    · rw [hstore, hsame]
      exact .refl
    · rw [← hstore] at hfresh
      intro row hrow hnone
      refine ⟨row, ?_, rfl, hnone⟩
      rw [hfresh.outbox_eq]
      exact List.mem_append_left _ hrow
  | saveSnapshot snapshot =>
    rw [StoreOp.exec, finalState_discard] at hstore
    rcases finalState_saveSnapshot (s := h.store) snapshot with hsame | ⟨-, hsaved⟩
    · rw [hstore, hsame]
      exact .refl
    · rw [hstore, hsaved]
      exact .of_outbox rfl
  | pruneSnapshots twinId keep =>
    rw [StoreOp.exec, finalState_discard] at hstore
    obtain ⟨kept, -, hkept⟩ := finalState_pruneSnapshots (s := h.store) twinId keep
    rw [hstore, hkept]
    exact .of_outbox rfl
  | claimOutbox leaseOwner limit leaseSeconds now =>
    have hkept : Keeps (Waiting h.store) (claimOutbox leaseOwner limit leaseSeconds now) :=
      keeps_claimOutbox fun _ _ _ _ _ _ hwaiting => hwaiting.update (leasing_underLease _ _)
    rw [StoreOp.exec, finalState_discard] at hstore
    rw [hstore]
    exact hkept h.store .refl
  | markOutboxPublished record now => exact absurd rfl (hop record now)
  | releaseOutbox record error =>
    exact Waiting.refl.update ⟨fun _ => rfl, fun _ => rfl⟩
  | pruneOutbox publishedBefore limit =>
    rw [StoreOp.exec, finalState_discard] at hstore
    obtain ⟨kept, hkept, hrows⟩ := finalState_pruneOutbox (s := h.store) publishedBefore limit
    rw [hstore, hkept]
    intro row hrow hnone
    rcases hrows row hrow with hstays | ⟨-, hpublished⟩
    · exact ⟨row, hstays, rfl, hnone⟩
    · simp [hnone] at hpublished
  | markInvalidationProcessed record now => exact .of_outbox rfl

end Store

/-! ## What a subscription hears -/

/-- A SHA-256 digest is written as 64 digits, as `[a-f0-9]` has them. -/
def Digest.Hexadecimal [Digest] : Prop :=
  ∀ text, isEventHash ("sha256:" ++ Digest.sha256 text) = true

namespace DurableSubscription

/-- The subscription has gone past `n`, is to replay up to it, or holds a
live event at or past it. -/
def Covers (d : DurableSubscription) (n : Int) : Prop :=
  n ≤ d.position.sequence ∨ n ≤ d.replayHead ∨
    ∃ e, (some e ∈ d.live.queue ∨ d.deferredLive = some e) ∧ n ≤ e.sequence

/-- It covers `n`, or its client is to reconnect. -/
def Awaits (d : DurableSubscription) (n : Int) : Prop := d.live.closed = true ∨ d.Covers n

/-- What it keeps: a closed subscription has a closed queue, and what the
broker skips for it is covered. -/
structure Alert (d : DurableSubscription) : Prop where
  closed : d.closed = true → d.live.closed = true
  skipped : d.Awaits d.live.afterSequence

/-- Nothing is forgotten from `d` to `d'`. -/
structure Heard (d d' : DurableSubscription) : Prop where
  skipped : d.Awaits d.live.afterSequence → d'.Awaits d'.live.afterSequence
  awaits : ∀ n, d.Awaits n → d'.Awaits n

/-- A turn forgets nothing, unless it found the stream broken; and it waits
only with nothing left to read. -/
structure Attends (d : DurableSubscription) (result : DurableSubscription × Candidate) :
    Prop where
  closed : (d.closed = true → d.live.closed = true) →
    result.1.closed = true → result.1.live.closed = true
  heard : (∃ message, result.2 = .raised (.integrityError message)) ∨ Heard d result.1
  waits : result.2 = .waits →
    result.1.deferredLive = none ∧ result.1.replayHead ≤ result.1.position.sequence

variable [Digest] {s : Store} {d d' : DurableSubscription} {e : EventEnvelope} {m n : Int}

omit [Digest] in
theorem Awaits.mono (h : d.Awaits n) (hle : m ≤ n) : d.Awaits m := by
  rcases h with hclosed | hposition | hhead | ⟨e, hmem, hseq⟩
  · exact .inl hclosed
  · exact .inr (.inl (hle.trans hposition))
  · exact .inr (.inr (.inl (hle.trans hhead)))
  · exact .inr (.inr (.inr ⟨e, hmem, hle.trans hseq⟩))

omit [Digest] in
theorem Heard.refl : Heard d d := ⟨id, fun _ => id⟩

omit [Digest] in
/-- Where the position, the head, the queue and the slot stay. -/
theorem heard_of_same (hlive : d'.live = d.live) (hposition : d'.position = d.position)
    (hhead : d'.replayHead = d.replayHead) (hdeferred : d'.deferredLive = d.deferredLive) :
    Heard d d' := by
  have hsame : ∀ n, d.Awaits n → d'.Awaits n := by
    intro n
    unfold Awaits Covers
    rw [hlive, hposition, hhead, hdeferred]
    exact id
  exact ⟨fun hskipped => by rw [hlive]; exact hsame _ hskipped, hsame⟩

/-- An event of the ledger can only break the stream's continuity. -/
theorem advanceVerified_error (hdigest : Digest.Hexadecimal) {err : PyError}
    (h : d.advanceVerified e = .error err) : ∃ message, err = .integrityError message := by
  unfold advanceVerified at h
  simp only at h
  split at h
  · exact ⟨_, (Except.error.inj h).symm⟩
  · rename_i hexpected
    rw [not_or, not_not, not_not] at hexpected
    obtain ⟨htwin, hsequence⟩ := hexpected
    cases hverify : e.verify d.position.eventHash with
    | error err' =>
      rw [hverify] at h
      obtain rfl := Except.error.inj h
      unfold EventEnvelope.verify at hverify
      split_ifs at hverify <;> exact ⟨_, (Except.error.inj hverify).symm⟩
    | ok _ =>
      -- a position at a verified event passes the checks of its constructor
      exfalso
      have hhash : isEventHash e.eventHash = true := by
        rw [(EventEnvelope.verify_eq_ok.1 hverify).2]
        exact hdigest _
      have hnonneg := d.position.sequence_nonneg
      have hnew : ∃ position, StreamPosition.new e.twinId e.sequence e.eventHash =
          .ok position := by
        unfold StreamPosition.new
        rw [dif_neg (htwin ▸ d.position.twin_required), dif_neg (by omega),
          dif_neg (by omega), dif_neg (by simp [hhash])]
        exact ⟨_, rfl⟩
      obtain ⟨position, hposition⟩ := hnew
      rw [hverify, hposition] at h
      cases h

/-- `d'` is `d` with the event `e` taken from it. -/
structure Holding (d d' : DurableSubscription) (e : EventEnvelope) : Prop where
  closed : (d.closed = true → d.live.closed = true) → d'.closed = true → d'.live.closed = true
  skipped : d.Awaits d.live.afterSequence →
    d'.Awaits d'.live.afterSequence ∨ d'.live.afterSequence ≤ e.sequence
  awaits : ∀ n, d.Awaits n → d'.Awaits n ∨ n ≤ e.sequence

omit [Digest] in
/-- Where the event taken is past or kept. -/
theorem Holding.heard (h : Holding d d' e) {d'' : DurableSubscription}
    (hlive : d''.live = d'.live)
    (hkept : ∀ n, d'.Awaits n ∨ n ≤ e.sequence → d''.Awaits n) : Heard d d'' where
  skipped hskipped := by
    rw [hlive]
    exact hkept _ (h.skipped hskipped)
  awaits n hn := hkept n (h.awaits n hn)

theorem attends_advance (hdigest : Digest.Hexadecimal) (h : Holding d d' e) :
    Attends d (d'.advance e) := by
  unfold advance
  cases hverified : d'.advanceVerified e with
  | error err =>
    obtain ⟨message, rfl⟩ := advanceVerified_error hdigest hverified
    exact ⟨h.closed, .inl ⟨message, rfl⟩, fun habsurd => by cases habsurd⟩
  | ok after =>
    obtain ⟨hsame, hadvanced⟩ := advanceVerified_ok hverified
    have hnext := hadvanced.sequence
    have hsequence := hadvanced.position.2.1
    have hlive : after.live = d'.live := by rw [hsame]
    have hclosed : after.closed = d'.closed := by rw [hsame]
    have hhead : after.replayHead = d'.replayHead := by rw [hsame]
    have hdeferred : after.deferredLive = d'.deferredLive := by rw [hsame]
    refine ⟨fun hbefore hafter => ?_, .inr (h.heard hlive fun n hn => ?_),
      fun habsurd => by cases habsurd⟩
    · rw [hlive]
      exact h.closed hbefore (hclosed ▸ hafter)
    · show after.Awaits n
      unfold Awaits Covers
      rw [hlive, hhead, hdeferred]
      rcases hn with (hn | hposition | hrest) | hle
      · exact .inl hn
      · exact .inr (.inl (by omega))
      · exact .inr (.inr hrest)
      · exact .inr (.inl (by omega))

theorem attends_takeLive (hdigest : Digest.Hexadecimal) (h : Holding d d' e)
    (hdeferred : d'.deferredLive = none) (hhead : d'.replayHead ≤ d'.position.sequence) :
    Attends d (takeLive s d' e) := by
  unfold takeLive
  split_ifs with hseen hgap hpersisted
  · refine ⟨h.closed, .inr (h.heard rfl fun n hn => ?_), fun habsurd => by cases habsurd⟩
    rcases hn with hn | hle
    · exact hn
    · exact .inr (.inl (hle.trans hseen))
  · exact ⟨h.closed, .inl ⟨_, rfl⟩, fun habsurd => by cases habsurd⟩
  · -- the slot was free, and what was to be replayed is read
    refine ⟨h.closed, .inr (h.heard rfl fun n hn => ?_), fun habsurd => by cases habsurd⟩
    rcases hn with (hn | hn | hn | ⟨e', hqueued | hslot, hle⟩) | hle
    · exact .inl hn
    · exact .inr (.inl hn)
    · exact .inr (.inl (hn.trans hhead))
    · exact .inr (.inr (.inr ⟨e', .inl hqueued, hle⟩))
    · rw [hdeferred] at hslot
      cases hslot
    · exact .inr (.inr (.inl hle))
  · exact attends_advance hdigest h

/-- A queue that ends tells the client to reconnect. -/
theorem attends_ended {live : Subscription} {err : PyError} (hlive : live.closed = true) :
    Attends d (afterPoll s d (live, .raised err)) := by
  have hended : ∀ closed : Bool,
      Attends d ({ d with live := live, closed := closed }, .raised err) := fun closed =>
    { closed := fun _ _ => hlive
      heard := .inr ⟨fun _ => .inl hlive, fun _ _ => .inl hlive⟩
      waits := fun habsurd => by cases habsurd }
  cases err with
  | backpressureExceeded reason => exact hended true
  | _ => exact hended d.closed

/-- What polling the queue comes to. -/
theorem attends_poll (hdigest : Digest.Hexadecimal) (hdeferred : d.deferredLive = none)
    (hhead : d.replayHead ≤ d.position.sequence) : Attends d (afterPoll s d d.live.poll) := by
  unfold Subscription.poll
  split
  · exact ⟨id, .inr .refl, fun _ => ⟨hdeferred, hhead⟩⟩
  · exact attends_ended rfl
  · rename_i e rest hqueue
    refine attends_takeLive hdigest ?_ hdeferred hhead
    refine ⟨id, fun _ => .inr le_rfl, fun n hn => ?_⟩
    rcases hn with hn | hn | hn | ⟨e', hqueued | hslot, hle⟩
    · exact .inl (.inl hn)
    · exact .inl (.inr (.inl hn))
    · exact .inl (.inr (.inr (.inl hn)))
    · rw [hqueue] at hqueued
      rcases List.mem_cons.1 hqueued with heq | hrest
      · obtain rfl := Option.some.inj heq
        exact .inr hle
      · exact .inl (.inr (.inr (.inr ⟨e', .inl hrest, hle⟩)))
    · exact .inl (.inr (.inr (.inr ⟨e', .inr hslot, hle⟩)))

theorem attends_resumed (hdigest : Digest.Hexadecimal) (hdeferred : d.deferredLive = none)
    (hhead : d.replayHead ≤ d.position.sequence) : Attends d (d.resumed s) :=
  attends_poll hdigest hdeferred hhead

/-- **A turn of the candidate loop forgets nothing.** -/
theorem attends_nextCandidate (hdigest : Digest.Hexadecimal) : Attends d (d.nextCandidate s) := by
  have hstays : ∀ (buffer : List EventEnvelope) (c : Candidate), c ≠ .waits →
      Attends d ({ d with replayBuffer := buffer }, c) := fun buffer c hc =>
    ⟨id, .inr (heard_of_same rfl rfl rfl rfl), fun habsurd => absurd habsurd hc⟩
  unfold nextCandidate
  split
  · exact attends_advance hdigest ⟨id, fun h => .inl h, fun n hn => .inl hn⟩
  · split_ifs with hbehind
    · split
      · exact hstays d.replayBuffer _ (by simp)
      · exact hstays d.replayBuffer _ (by simp)
      · exact hstays _ _ (by simp)
    · have hhead : d.replayHead ≤ d.position.sequence := by omega
      split
      · rename_i e hslot
        refine attends_takeLive hdigest ?_ rfl hhead
        have hawaits : ∀ n, d.Awaits n →
            ({ d with deferredLive := none } : DurableSubscription).Awaits n ∨
              n ≤ e.sequence := by
          intro n hn
          rcases hn with hn | hn | hn | ⟨e', hqueued | hdeferred, hle⟩
          · exact .inl (.inl hn)
          · exact .inl (.inr (.inl hn))
          · exact .inl (.inr (.inr (.inl hn)))
          · exact .inl (.inr (.inr (.inr ⟨e', .inl hqueued, hle⟩)))
          · rw [hslot] at hdeferred
            obtain rfl := Option.some.inj hdeferred
            exact .inr hle
        exact ⟨id, hawaits _, hawaits⟩
      · rename_i hslot
        unfold Subscription.next
        split_ifs with hclosed
        · exact attends_ended hclosed
        · exact attends_poll hdigest hslot hhead

omit [Digest] in
@[simp] theorem closed_close {l : Subscription} {reason : Option String} :
    (l.close reason).closed = true := by
  unfold Subscription.close
  split_ifs with hclosed
  · exact hclosed
  · rfl
  · rfl

omit [Digest] in
/-- Closing ends the queue. -/
theorem closed_aclose (h : d.closed = true → d.live.closed = true) :
    d.aclose.live.closed = true := by
  unfold aclose
  split_ifs with hclosed
  · exact h hclosed
  · exact closed_close

omit [Digest] in
/-- A subscription whose queue ended. -/
theorem alert_of_closed (h : d'.live.closed = true) : d'.Alert ∧ Heard d d' :=
  ⟨⟨fun _ => h, .inl h⟩, fun _ => .inl h, fun _ _ => .inl h⟩

omit [Digest] in
/-- A step that leaves what is heard alone. -/
theorem Alert.of_same (h : d.Alert) (hclosed : d'.closed = d.closed) (hlive : d'.live = d.live)
    (hposition : d'.position = d.position) (hhead : d'.replayHead = d.replayHead)
    (hdeferred : d'.deferredLive = d.deferredLive) : d'.Alert ∧ Heard d d' := by
  have hheard := heard_of_same hlive hposition hhead hdeferred
  exact ⟨⟨by rw [hclosed, hlive]; exact h.closed, hheard.skipped h.skipped⟩, hheard⟩

omit [Digest] in
/-- **An event offered is heard**, now if not before. -/
theorem alert_offer (h : d.Alert) :
    ({ d with live := d.live.offer e } : DurableSubscription).Alert ∧
      Heard d { d with live := d.live.offer e } ∧
      (d.live.twinId = e.twinId →
        ({ d with live := d.live.offer e } : DurableSubscription).Awaits e.sequence) := by
  unfold Subscription.offer
  split_ifs with hskipped hfull
  · refine ⟨h, .refl, fun htwin => ?_⟩
    rcases hskipped with hclosed | hother | hpast
    · exact .inl hclosed
    · exact absurd htwin hother
    · exact h.skipped.mono hpast
  · exact ⟨⟨fun _ => closed_close, .inl closed_close⟩,
      ⟨fun _ => .inl closed_close, fun _ _ => .inl closed_close⟩, fun _ => .inl closed_close⟩
  · have hawaits : ∀ n, d.Awaits n →
        ({ d with live := { d.live with queue := d.live.queue ++ [some e] } } :
          DurableSubscription).Awaits n := by
      intro n hn
      rcases hn with hn | hn | hn | ⟨e', hqueued | hslot, hle⟩
      · exact .inl hn
      · exact .inr (.inl hn)
      · exact .inr (.inr (.inl hn))
      · exact .inr (.inr (.inr ⟨e', .inl (List.mem_append_left _ hqueued), hle⟩))
      · exact .inr (.inr (.inr ⟨e', .inr hslot, hle⟩))
    refine ⟨⟨h.closed, hawaits _ h.skipped⟩, ⟨fun hskipped => hawaits _ hskipped, hawaits⟩,
      fun _ => .inr (.inr (.inr ⟨e, .inl ?_, le_rfl⟩))⟩
    exact List.mem_append_right _ (List.mem_singleton_self _)

end DurableSubscription

namespace Reader

open DurableSubscription

/-- What a reader keeps: it waits only with nothing left to read. -/
structure Alert (r : Reader) : Prop where
  sub : r.sub.Alert
  waiting : r.state = .waiting →
    r.sub.deferredLive = none ∧ r.sub.replayHead ≤ r.sub.position.sequence

variable [Digest] {s : Store} {r : Reader} {result : DurableSubscription × Candidate}

omit [Digest] in
theorem alert_after (h : r.Alert) (hattends : Attends r.sub result) :
    (r.after (conclude result)).Alert ∧ Heard r.sub (r.after (conclude result)).sub := by
  have hclosed := hattends.closed h.sub.closed
  have hheard := hattends.heard
  have hwaits := hattends.waits
  obtain ⟨d, c⟩ := result
  simp only at hclosed hheard hwaits
  have hkept : (∀ message, c ≠ .raised (.integrityError message)) → d.Alert ∧ Heard r.sub d := by
    intro hc
    rcases hheard with ⟨message, hbroken⟩ | hheard
    · exact absurd hbroken (hc message)
    · exact ⟨⟨hclosed, hheard.skipped h.sub.skipped⟩, hheard⟩
  cases c with
  | again =>
    obtain ⟨halert, hheard⟩ := hkept (by simp)
    exact ⟨⟨halert, fun habsurd => by cases habsurd⟩, hheard⟩
  | waits =>
    obtain ⟨halert, hheard⟩ := hkept (by simp)
    exact ⟨⟨halert, fun _ => hwaits rfl⟩, hheard⟩
  | found e =>
    obtain ⟨halert, hheard⟩ := hkept (by simp)
    have hsame : ∀ d' : DurableSubscription, d'.closed = d.closed → d'.live = d.live →
        d'.position = d.position → d'.replayHead = d.replayHead →
        d'.deferredLive = d.deferredLive → d'.Alert ∧ Heard r.sub d' := by
      intro d' hclosed' hlive hposition hhead hdeferred
      obtain ⟨halert', hheard'⟩ := halert.of_same hclosed' hlive hposition hhead hdeferred
      exact ⟨halert', fun h => hheard'.skipped (hheard.skipped h),
        fun n h => hheard'.awaits n (hheard.awaits n h)⟩
    simp only [conclude, DurableSubscription.sift]
    split_ifs
    · obtain ⟨halert', hheard'⟩ :=
        hsame { d with outstanding := d.outstanding ++ [d.position] } rfl rfl rfl rfl rfl
      exact ⟨⟨halert', fun habsurd => by cases habsurd⟩, hheard'⟩
    · obtain ⟨halert', hheard'⟩ : d.advanceAckOverFilteredEvent.Alert ∧
          Heard r.sub d.advanceAckOverFilteredEvent := by
        unfold advanceAckOverFilteredEvent
        split_ifs
        · exact hsame _ rfl rfl rfl rfl rfl
        · exact ⟨halert, hheard⟩
      exact ⟨⟨halert', fun habsurd => by cases habsurd⟩, hheard'⟩
  | raised err =>
    cases err with
    | integrityError message =>
      obtain ⟨halert, hheard⟩ := alert_of_closed (d := r.sub) (closed_aclose hclosed)
      exact ⟨⟨halert, fun habsurd => by cases habsurd⟩, hheard⟩
    | _ =>
      obtain ⟨halert, hheard⟩ := hkept (by simp)
      exact ⟨⟨halert, fun habsurd => by cases habsurd⟩, hheard⟩

/-- **A step of a reader forgets nothing.** -/
theorem alert_step (hdigest : Digest.Hexadecimal) (h : r.Alert) (move : ReaderMove) :
    (r.step s move).Alert ∧ Heard r.sub (r.step s move).sub := by
  have hclose := alert_of_closed (d := r.sub) (closed_aclose h.sub.closed)
  have htaken : ∀ outcome : Except PyError (DurableSubscription × StreamPosition),
      (∀ d position, outcome = .ok (d, position) →
        ∃ position', r.sub.acknowledge position' = .ok (d, position)) →
      (r.taken outcome).Alert ∧ Heard r.sub (r.taken outcome).sub := by
    intro outcome houtcome
    cases outcome with
    | error err => exact ⟨h, .refl⟩
    | ok result =>
      obtain ⟨d, position⟩ := result
      obtain ⟨position', hok⟩ := houtcome d position rfl
      rcases acknowledge_ok hok with ⟨rfl, -⟩ | ⟨rfl, -, -, rfl⟩
      · exact ⟨⟨h.sub, h.waiting⟩, .refl⟩
      · exact ⟨⟨⟨h.sub.closed, h.sub.skipped⟩, h.waiting⟩, heard_of_same rfl rfl rfl rfl⟩
  cases move with
  | call =>
    simp only [step, DurableSubscription.begin]
    cases hstate : r.state with
    | idle =>
      split_ifs
      · exact ⟨⟨h.sub, fun habsurd => by cases habsurd⟩, .refl⟩
      · exact ⟨⟨hclose.1, fun habsurd => by cases habsurd⟩, hclose.2⟩
      · exact ⟨⟨h.sub, fun habsurd => by cases habsurd⟩, .refl⟩
    | running => exact ⟨h, .refl⟩
    | waiting => exact ⟨h, .refl⟩
  | turn =>
    simp only [step]
    cases hstate : r.state with
    | idle => exact ⟨h, .refl⟩
    | running => exact alert_after h (attends_nextCandidate hdigest)
    | waiting =>
      obtain ⟨hdeferred, hhead⟩ := h.waiting hstate
      exact alert_after h (attends_resumed hdigest hdeferred hhead)
  | cancel =>
    simp only [step]
    split_ifs
    · exact ⟨⟨h.sub, fun habsurd => by cases habsurd⟩, .refl⟩
    · exact ⟨h, .refl⟩
  | publish e =>
    obtain ⟨halert, hheard, -⟩ := alert_offer (e := e) h.sub
    exact ⟨⟨halert, h.waiting⟩, hheard⟩
  | acknowledge position => exact htaken _ fun d position' hok => ⟨position, hok⟩
  | acknowledgeToken codec token => exact htaken _ fun _ _ => acknowledgeToken_ok
  | close =>
    refine ⟨⟨hclose.1, fun hstate => ?_⟩, hclose.2⟩
    have hwaiting := h.waiting hstate
    simp only [step]
    unfold DurableSubscription.aclose
    split_ifs
    · exact hwaiting
    · exact hwaiting

end Reader

/-! ## Drains in flight -/

section Claims

variable [Digest] {s s' : Store} {h : History} {op : StoreOp} {e : EventEnvelope}

/-- What a claim reads back is of the ledger, which it does not touch. -/
theorem Store.returns_claimRow {t : Store} {leaseOwner : String} {now leaseUntil : DateTime}
    {row : OutboxRow} {claimed : Option OutboxRecord} (ht : t.Valid) (hs : s.events = t.events)
    (h : Returns (Store.claimRow leaseOwner now leaseUntil row) s claimed s') :
    s'.events = t.events ∧
      ∀ record ∈ claimed, record.event ∈ t.stream record.event.twinId := by
  simp only [Store.claimRow, returns_bind, returns_get, returns_ite, returns_pure,
    returns_set] at h
  obtain ⟨_, _, ⟨rfl, rfl⟩, ⟨-, rfl, rfl⟩ | ⟨-, _, _, rfl, _, _, ⟨rfl, rfl⟩, h⟩⟩ := h
  · exact ⟨hs, by simp⟩
  · split at h
    · rename_i leasedRow eventRow _ hevent
      simp only [returns_bind, returns_fromExcept, returns_pure] at h
      obtain ⟨event, _, ⟨hdecoded, rfl⟩, _, _, ⟨-, rfl⟩, rfl, rfl⟩ := h
      refine ⟨hs, fun record hrecord => ?_⟩
      obtain rfl := Option.some.inj hrecord
      have hmem : eventRow ∈ t.events := hs ▸ List.mem_of_find?_eq_some hevent
      rw [Store.rowToEvent_eq (ht.admitted eventRow hmem)] at hdecoded
      obtain rfl := Except.ok.inj hdecoded
      exact List.mem_map_of_mem (Store.mem_rowsOf.2 ⟨hmem, rfl⟩)
    · simp at h

/-- The events a claim hands to the relay are those of the ledger. -/
theorem Store.stream_of_claim {leaseOwner : String} {limit leaseSeconds : Int} {now : Instant}
    {records : List OutboxRecord} (hs : s.Valid)
    (h : outcome (Store.claimOutbox leaseOwner limit leaseSeconds now) s = .ok records) :
    ∀ record ∈ records, record.event ∈ s.stream record.event.twinId := by
  obtain ⟨s', h⟩ := outcome_eq_ok.1 h
  simp only [Store.claimOutbox, Store.claimPending, returns_ite, returns_throw, returns_pure,
    returns_transaction, returns_bind, returns_fromExcept, returns_get, and_false, false_or] at h
  obtain ⟨-, ⟨-, rfl, -⟩ | ⟨-, -, _, _, ⟨-, rfl⟩, _, _, ⟨-, rfl⟩, _, _, ⟨rfl, rfl⟩, claimed, _, hclaimed, rfl,
    -⟩⟩ := h
  · simp
  · have hrows := (returns_mapM (fun _ _ _ _ => Store.returns_claimRow hs)
      (fun _ _ _ _ _ _ _ hrecord => hrecord) rfl hclaimed).2
    intro record hrecord
    obtain ⟨found, hfound, hsome⟩ := List.mem_filterMap.1 hrecord
    exact hrows found hfound record hsome

/-- What a call adds to a stream is still to be published. -/
theorem stream_step {twinId : String} (he : e ∈ (h.step op).store.stream twinId) :
    e ∈ h.store.stream twinId ∨ (h.step op).store.Unpublished e := by
  rcases step_cases h op with ⟨e', x, now, fault, r, rfl, hfresh, -⟩ | ⟨snapshot, rfl, hsaved⟩ |
    hquiet
  · rw [hfresh.stream_eq] at he
    split_ifs at he
    · rcases List.mem_append.1 he with hold | hnew
      · exact .inl hold
      · obtain rfl := List.mem_singleton.1 hnew
        refine .inr ⟨Store.outboxRow r, ?_, rfl, rfl⟩
        rw [hfresh.outbox_eq]
        exact List.mem_append_right _ (List.mem_singleton_self _)
    · exact .inl he
  · rw [hsaved.store] at he
    exact .inl he
  · have hsame : (h.step op).store.stream twinId = h.store.stream twinId := by
      rw [Store.stream, Store.rowsOf, hquiet.events]
      rfl
    exact .inl (hsame ▸ he)

end Claims

/-! ## Runs of a service -/

/-- An event the broker took was offered to every reader there was. -/
def Drain.Offered (readers : List Reader) (drain : Drain) : Prop :=
  drain.published = true → ∀ record ∈ drain.pending.head?, ∀ r ∈ readers,
    r.start.twinId = record.event.twinId → r.sub.Awaits record.event.sequence

namespace Fanout

open Reader DurableSubscription

variable [Digest] {w : Fanout} {move : FanoutMove} {e : EventEnvelope} {op : StoreOp}

/-- What holds at every moment. -/
structure Kept (w : Fanout) : Prop where
  reachable : StoreReachable w.history
  reading : ∀ r ∈ w.readers, r.Following w.history.store ∧ r.Windowed ∧ r.Alert
  claimed : ∀ drain ∈ w.drains, ∀ record ∈ drain.pending,
    record.event ∈ w.history.store.stream record.event.twinId
  offered : ∀ drain ∈ w.drains, drain.Offered w.readers
  heard : ∀ r ∈ w.readers, ∀ e ∈ w.history.store.stream r.start.twinId,
    r.sub.Awaits e.sequence ∨ w.history.store.Unpublished e

theorem Kept.valid (h : w.Kept) : w.history.store.Valid := h.reachable.keeps.1

/-- The ledger moves, and no row is marked but those whose events every
reader has heard. -/
theorem kept_ledger (hw : w.Kept) (haware : TimesAware w.history op)
    (hrows : ∀ r ∈ w.readers, ∀ e ∈ w.history.store.stream r.start.twinId,
      w.history.store.Unpublished e →
        r.sub.Awaits e.sequence ∨ (w.history.step op).store.Unpublished e) :
    ({ w with history := w.history.step op } : Fanout).Kept := by
  have hreach : StoreReachable (w.history.step op) := .step op hw.reachable haware
  have hext := step_extends w.history op
  refine
    { reachable := hreach, reading := fun r hr => ?_, claimed := fun drain hdrain record hrecord => ?_
      offered := hw.offered, heard := fun r hr e he => ?_ }
  · obtain ⟨hfollowing, hwindowed, halert⟩ := hw.reading r hr
    exact ⟨hfollowing.of_extends hreach.keeps.1 hext, hwindowed, halert⟩
  · exact (hext _).subset (hw.claimed drain hdrain record hrecord)
  · rcases stream_step he with hold | hnew
    · rcases hw.heard r hr e hold with hawaits | hunpublished
      · exact .inl hawaits
      · exact hrows r hr e hold hunpublished
    · exact .inr hnew

/-- Nothing but a mark: whatever was to be published still is. -/
theorem kept_unmarked (hw : w.Kept) (haware : TimesAware w.history op)
    (hop : ∀ record now, op ≠ .markOutboxPublished record now) :
    ({ w with history := w.history.step op } : Fanout).Kept :=
  kept_ledger hw haware fun _ _ _ _ hunpublished =>
    .inr ((Store.waiting_step hop).unpublished hunpublished)

/-- Readers move, and none forgets anything. -/
theorem kept_readers (hw : w.Kept) {readers : List Reader}
    (hreaders : ∀ r' ∈ readers, ∃ r ∈ w.readers, r'.start = r.start ∧
      r'.Following w.history.store ∧ r'.Windowed ∧ r'.Alert ∧ Heard r.sub r'.sub) :
    ({ w with readers := readers } : Fanout).Kept := by
  refine
    { reachable := hw.reachable, reading := fun r' hr' => ?_, claimed := hw.claimed
      offered := fun drain hdrain hpublished record hrecord r' hr' htwin => ?_
      heard := fun r' hr' e he => ?_ }
  · obtain ⟨r, hr, -, hfollowing, hwindowed, halert, -⟩ := hreaders r' hr'
    exact ⟨hfollowing, hwindowed, halert⟩
  · obtain ⟨r, hr, hstart, -, -, -, hheard⟩ := hreaders r' hr'
    rw [hstart] at htwin
    exact hheard.awaits _ (hw.offered drain hdrain hpublished record hrecord r hr htwin)
  · obtain ⟨r, hr, hstart, -, -, -, hheard⟩ := hreaders r' hr'
    rw [hstart] at he
    rcases hw.heard r hr e he with hawaits | hunpublished
    · exact .inl (hheard.awaits _ hawaits)
    · exact .inr hunpublished

/-- Drains start, go on and end. -/
theorem kept_drains (hw : w.Kept) {drains : List Drain}
    (hdrains : ∀ drain ∈ drains, (∀ record ∈ drain.pending,
      record.event ∈ w.history.store.stream record.event.twinId) ∧ drain.Offered w.readers) :
    ({ w with drains := drains } : Fanout).Kept :=
  { hw with
    claimed := fun drain hdrain => (hdrains drain hdrain).1
    offered := fun drain hdrain => (hdrains drain hdrain).2 }

/-- What one reader does. -/
theorem reader_step (hdigest : Digest.Hexadecimal) (hw : w.Kept) {r : Reader}
    (hr : r ∈ w.readers) {move : ReaderMove}
    (hpublished : ∀ e, move = .publish e → e ∈ w.history.store.stream e.twinId) :
    let r' := r.step w.history.store move
    r'.start = r.start ∧ r'.Following w.history.store ∧ r'.Windowed ∧ r'.Alert ∧
      Heard r.sub r'.sub := by
  obtain ⟨hfollowing, hwindowed, halert⟩ := hw.reading r hr
  obtain ⟨hfollowing', hwindowed'⟩ := kept_step hw.valid hfollowing hwindowed hpublished
  obtain ⟨halert', hheard⟩ := alert_step hdigest halert move
  exact ⟨(steady_step hw.valid hfollowing hwindowed move).start, hfollowing', hwindowed', halert',
    hheard⟩

/-- A drain after its record's row was released or marked. -/
theorem settled_spec (hw : w.Kept) {i : Nat} {record : OutboxRecord} {rest : List OutboxRecord}
    {published : Bool} (hi : w.drains[i]? = some { pending := record :: rest, published := published }) :
    ∀ drain ∈ w.settled i record rest, (∀ record ∈ drain.pending,
      record.event ∈ w.history.store.stream record.event.twinId) ∧ drain.Offered w.readers := by
  have hmem := List.mem_of_getElem? hi
  intro drain hdrain
  unfold settled at hdrain
  split_ifs at hdrain
  · rcases List.mem_or_eq_of_mem_set hdrain with hold | rfl
    · exact ⟨hw.claimed drain hold, hw.offered drain hold⟩
    · refine ⟨fun other hother => ?_, fun habsurd => by cases habsurd⟩
      exact hw.claimed _ hmem other (List.mem_cons_of_mem _ hother)
  · have hold := List.mem_of_mem_eraseIdx hdrain
    exact ⟨hw.claimed drain hold, hw.offered drain hold⟩

/-- Marking a record whose event every reader heard. -/
theorem kept_mark (hw : w.Kept) {record : OutboxRecord} {now : Instant}
    (hheard : ∀ r ∈ w.readers, r.start.twinId = record.event.twinId →
      r.sub.Awaits record.event.sequence) :
    ({ w with history := w.history.step (.markOutboxPublished record now) } : Fanout).Kept := by
  refine kept_ledger hw trivial fun r hr e he hunpublished => ?_
  obtain ⟨row, hrow, hannounces, hnone⟩ := hunpublished
  have hkey : row.twinId = e.twinId ∧ row.sequence = e.sequence := by
    simp only [Announces, Store.outboxKey, Prod.mk.injEq] at hannounces
    exact ⟨hannounces.1, hannounces.2.1⟩
  by_cases hleased : Store.leased record row = true
  · -- the row marked is that of the record, offered to every reader
    simp only [Store.leased, Bool.and_eq_true, beq_iff_eq] at hleased
    obtain ⟨⟨⟨⟨⟨htwin, hsequence⟩, -⟩, -⟩, -⟩, -⟩ := hleased
    have hstream : e.twinId = r.start.twinId := by
      obtain ⟨stored, hstored, rfl⟩ := List.mem_map.1 he
      exact (Store.mem_rowsOf.1 hstored).2
    have hawaits := hheard r hr (by rw [← hstream, ← hkey.1, htwin])
    rw [← hsequence, hkey.2] at hawaits
    exact .inl hawaits
  · refine .inr ⟨row, List.mem_map.2 ⟨row, hrow, ?_⟩, hannounces, hnone⟩
    rw [if_neg hleased]

/-- A new subscription is to replay all there is. -/
theorem kept_opens (hw : w.Kept) {start : StreamPosition} {limits : SyncLimits}
    {filters : Filters} {d : DurableSubscription}
    (hopen : DurableSubscription.open w.history.store w.queueCapacity start limits filters =
      .ok d) :
    ({ w with readers := w.readers ++ [{ start := start, sub := d }] } : Fanout).Kept := by
  have hreading := Handoff.reading_opened hw.reachable hopen
  obtain ⟨-, rfl⟩ := Handoff.open_ok hopen
  have hreplays : ∀ e ∈ w.history.store.stream start.twinId,
      (fresh (w.history.store.head start.twinId).1 w.queueCapacity start limits filters).Awaits
        e.sequence := by
    intro e he
    have hwithin := (Store.mem_sequence (hw.valid.chained_stream start.twinId) he).2
    refine .inr (.inr (.inl ?_))
    simp only [fresh, hw.valid.head_sequence]
    omega
  refine
    { reachable := hw.reachable, reading := fun r hr => ?_, claimed := hw.claimed
      offered := fun drain hdrain hpublished record hrecord r hr htwin => ?_
      heard := fun r hr e he => ?_ }
  · rcases List.mem_append.1 hr with hold | hnew
    · exact hw.reading r hold
    · obtain rfl := List.mem_singleton.1 hnew
      exact ⟨hreading.following, hreading.windowed,
        ⟨⟨fun habsurd => (by cases habsurd), .inr (.inl le_rfl)⟩, fun habsurd => by cases habsurd⟩⟩
  · rcases List.mem_append.1 hr with hold | hnew
    · exact hw.offered drain hdrain hpublished record hrecord r hold htwin
    · obtain rfl := List.mem_singleton.1 hnew
      have hclaimed := hw.claimed drain hdrain record (List.mem_of_mem_head? hrecord)
      exact hreplays record.event (htwin ▸ hclaimed)
  · rcases List.mem_append.1 hr with hold | hnew
    · exact hw.heard r hold e he
    · obtain rfl := List.mem_singleton.1 hnew
      exact .inl (hreplays e he)

/-- **One step of the service.** -/
theorem kept_step (hdigest : Digest.Hexadecimal) (hw : w.Kept) (hmove : w.Genuine move) :
    (w.step move).Kept := by
  cases move with
  | ledger op =>
    have hop : ∀ record now, op ≠ .markOutboxPublished record now := by
      rintro record now rfl
      exact hmove
    have haware : TimesAware w.history op := by
      cases op <;> first | exact hmove | trivial
    exact kept_unmarked hw haware hop
  | drain limit now =>
    let claim : StoreOp := .claimOutbox w.leaseOwner limit w.leaseSeconds now
    have hkept : ({ w with history := w.history.step claim } : Fanout).Kept :=
      kept_unmarked hw trivial (by simp [claim])
    simp only [step]
    split
    · rename_i records hclaim
      refine kept_drains hkept fun drain hdrain => ?_
      rcases List.mem_append.1 hdrain with hold | hnew
      · exact ⟨hkept.claimed drain hold, hkept.offered drain hold⟩
      · -- what a claim hands out is in the ledger, and nothing of it is offered yet
        obtain rfl := List.mem_singleton.1 hnew
        refine ⟨fun record hrecord => ?_, fun habsurd => by cases habsurd⟩
        exact (step_extends _ _ _).subset (Store.stream_of_claim hw.valid hclaim record hrecord)
    · exact hkept
  | publish i =>
    simp only [step]
    split
    · rename_i record rest hi
      have hmem := List.mem_of_getElem? hi
      have hclaimed := hw.claimed _ hmem
      have hevent := hclaimed record List.mem_cons_self
      have hoffered : ({ w with readers := w.offered record.event } : Fanout).Kept := by
        refine kept_readers hw fun r' hr' => ?_
        obtain ⟨r, hr, rfl⟩ := List.mem_map.1 hr'
        exact ⟨r, hr, reader_step hdigest hw hr fun e heq => by cases heq; exact hevent⟩
      refine kept_drains hoffered fun drain hdrain => ?_
      rcases List.mem_or_eq_of_mem_set hdrain with hold | rfl
      · exact ⟨hoffered.claimed drain hold, hoffered.offered drain hold⟩
      · -- every reader of the twin has been offered the record, or was told to start over
        refine ⟨hclaimed, fun _ record' hrecord' r' hr' htwin => ?_⟩
        obtain rfl := Option.some.inj hrecord'
        obtain ⟨r, hr, rfl⟩ := List.mem_map.1 hr'
        obtain ⟨hfollowing, -, halert⟩ := hw.reading r hr
        exact (alert_offer halert.sub).2.2 (hfollowing.genuine.live_twin.trans htwin)
    · exact hw
  | publishFails i reached error =>
    simp only [step]
    split
    · rename_i record rest hi
      have hevent := hw.claimed _ (List.mem_of_getElem? hi) record List.mem_cons_self
      have hsettled := kept_drains hw (settled_spec hw hi)
      have hoffered : ({ w with
          drains := w.settled i record rest
          readers := w.offeredTo reached record.event } : Fanout).Kept := by
        refine kept_readers hsettled fun r' hr' => ?_
        obtain ⟨j, hj, rfl⟩ := List.mem_mapIdx.1 hr'
        have hr := List.getElem_mem hj
        refine ⟨_, hr, ?_⟩
        -- the publication reached some of the readers before it failed
        split_ifs
        · exact reader_step hdigest hw hr fun e heq => by cases heq; exact hevent
        · obtain ⟨hfollowing, hwindowed, halert⟩ := hw.reading _ hr
          exact ⟨rfl, hfollowing, hwindowed, halert, .refl⟩
      refine kept_unmarked hoffered ?_ ?_
      · trivial
      · simp
    · exact hw
  | mark i now =>
    simp only [step]
    split
    · rename_i record rest hi
      -- a row is marked after its record was offered to all
      refine kept_mark (kept_drains hw (settled_spec hw hi)) fun r hr htwin => ?_
      exact hw.offered _ (List.mem_of_getElem? hi) rfl record rfl r hr htwin
    · exact hw
  | crash i =>
    refine kept_drains hw fun drain hdrain => ?_
    have hold := List.mem_of_mem_eraseIdx hdrain
    exact ⟨hw.claimed drain hold, hw.offered drain hold⟩
  | opens start limits filters =>
    simp only [step]
    split
    · rename_i d hopen
      exact kept_opens hw hopen
    · exact hw
  | reader j move =>
    simp only [step]
    split
    · rename_i r hj
      refine kept_readers hw fun r' hr' => ?_
      rcases List.mem_or_eq_of_mem_set hr' with hold | rfl
      · obtain ⟨hfollowing, hwindowed, halert⟩ := hw.reading r' hold
        exact ⟨r', hold, rfl, hfollowing, hwindowed, halert, .refl⟩
      · have hr := List.mem_of_getElem? hj
        refine ⟨r, hr, reader_step hdigest hw hr fun e heq => ?_⟩
        subst heq
        exact hmove.elim
    · exact hw

/-- A service started on a ledger, with nobody connected. -/
def started (history : History) (leaseOwner : String) (leaseSeconds : Int) (queueCapacity : Nat) :
    Fanout where
  history := history
  leaseOwner := leaseOwner
  leaseSeconds := leaseSeconds
  queueCapacity := queueCapacity

variable {history : History} {leaseOwner : String} {leaseSeconds : Int} {queueCapacity : Nat}

theorem kept_run (hdigest : Digest.Hexadecimal) (hreach : StoreReachable history)
    (hrun : Reachable step Genuine (started history leaseOwner leaseSeconds queueCapacity) w) :
    w.Kept := by
  refine Reachable.invariant ?_ (fun _ _ hw hmove => kept_step hdigest hw hmove) hrun
  constructor
  · exact hreach
  all_goals simp [started]

/-- **No lost wake-up.** Whatever order commits, drains, failures, crashes,
lease expiries, subscriptions, reads and closes come in, an open
subscription that has not reached an event is to replay it, or holds a live
event at or past it, or one at or past it is still to be published. -/
theorem no_lost_wakeup (hdigest : Digest.Hexadecimal) (hreach : StoreReachable history)
    (hrun : Reachable step Genuine (started history leaseOwner leaseSeconds queueCapacity) w) :
    w.WakesAll := by
  have hw := kept_run hdigest hreach hrun
  intro r hr hopen e he hbeyond
  have htwin := (hw.reading r hr).1.genuine.twin
  have hheard := hw.heard r hr e (htwin ▸ he)
  rcases hheard with (hclosed | hreached | hreplays | hlive) | hunpublished
  · rw [hopen] at hclosed
    cases hclosed
  · omega
  · exact .inl hreplays
  · exact .inr (.inl hlive)
  · exact .inr (.inr ⟨e, he, le_rfl, hunpublished⟩)

/-! ## A crash between publishing and marking -/

omit [Digest] in
theorem checksum_length (text : String) : (checksum text).toList.length ≤ 64 := by
  have hbound : ∀ (bytes : List UInt8) (n : Nat), n < 2305843009213693951 →
      bytes.foldl (fun n byte => (n * 257 + byte.toNat) % 2305843009213693951) n <
        2305843009213693951 := by
    intro bytes
    induction bytes with
    | nil => exact fun n hn => hn
    | cons byte bytes ih => exact fun n _ => ih _ (Nat.mod_lt _ (by decide))
  unfold checksum
  rw [Nat.toString_eq_repr, Nat.toList_repr, Nat.length_toDigits_le_iff (by decide) (by decide)]
  exact lt_of_lt_of_le (hbound _ 7 (by decide)) (by decide)

omit [Digest] in
theorem hexadecimal_padded : @Digest.Hexadecimal Handoff.paddedDigest := by
  intro text
  have hlength := checksum_length text
  have hdigits : ∀ c ∈ (checksum text).toList, c.isDigit = true := by
    unfold checksum
    rw [Nat.toString_eq_repr, Nat.toList_repr]
    exact fun c hc => Nat.isDigit_of_mem_toDigits (by decide) (by decide) hc
  have hsha : Handoff.paddedDigest.sha256 text =
      String.ofList (List.replicate (64 - (checksum text).length) '0') ++ checksum text := rfl
  have hdrop : ("sha256:" ++ Handoff.paddedDigest.sha256 text).toList.drop 7 =
      List.replicate (64 - (checksum text).toList.length) '0' ++ (checksum text).toList := by
    rw [hsha]
    simp [String.toList_append, String.length_toList]
  have htake : ("sha256:" ++ Handoff.paddedDigest.sha256 text).toList.take 7 = "sha256:".toList := by
    simp [String.toList_append]
  unfold isEventHash
  rw [htake, hdrop]
  simp only [beq_self_eq_true, Bool.true_and, List.length_append, List.length_replicate,
    Bool.and_eq_true, beq_iff_eq, List.all_append, List.all_eq_true, Bool.or_eq_true]
  refine ⟨by omega, fun c hc => .inl ?_, fun c hc => .inl (hdigits c hc)⟩
  rw [List.eq_of_mem_replicate hc]
  rfl

/-- A reader at the origin, a first event, and a relay that crashes once
the broker has it. -/
def crashedRelay : Fanout :=
  run step (started {} "relay" 30 8)
    [.opens Handoff.originOfT {} {}, .ledger (.append firstEvent 0 1 none), .drain 100 2, .publish 0,
     .crash 0]

omit [Digest] in
theorem no_lost_wakeup_crashed :
    let _ : Digest := Handoff.paddedDigest
    (crashedRelay.readers.map fun r => r.sub.live.queue.length) = [1] ∧
      (crashedRelay.history.store.outbox.map (·.publishedAt)) = [none] ∧
      crashedRelay.WakesAll := by
  intro digest
  have hqueued : (crashedRelay.readers.map fun r => r.sub.live.queue.length) = [1] := by
    decide +kernel
  have hpending : (crashedRelay.history.store.outbox.map (·.publishedAt)) = [none] := by
    decide +kernel
  have hrun : Reachable step Genuine (started {} "relay" 30 8) crashedRelay := by
    refine .step (FanoutMove.crash 0) ?_ trivial
    refine .step (FanoutMove.publish 0) ?_ trivial
    refine .step (FanoutMove.drain 100 2) ?_ trivial
    refine .step (FanoutMove.ledger (.append firstEvent 0 1 none)) ?_ rfl
    exact .step (FanoutMove.opens Handoff.originOfT {} {}) .init trivial
  generalize crashedRelay = w at hrun hqueued hpending ⊢
  exact ⟨hqueued, hpending, no_lost_wakeup hexadecimal_padded .init hrun⟩

end Fanout

end ArgoTwin
