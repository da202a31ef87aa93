import ArgoTwin.Store
/-!
# Live subscriptions, and the replay in front of them

A `Subscription` is the bounded queue the broker fills; closing it leaves
a mark at the end of the queue. A `DurableSubscription` reads the ledger
page by page up to a captured head, then the queue, and goes back to the
ledger where the queue skips. Its position moves over one verified event at
a time; what it handed out and the client has not acknowledged is
outstanding.

The event loop runs one task at a time, and hands over only where a task
awaits. A call of `__anext__` awaits the queue and nothing else, so it is a
loop whose turns are steps; the broker's lock is never waited for.
-/

namespace ArgoTwin

open Library

/-! ## Positions and limits -/

/-- `sha256:` and 64 digits, as `[a-f0-9]` has them. -/
def isEventHash (text : String) : Bool :=
  let digits := text.toList.drop 7
  text.toList.take 7 == "sha256:".toList && digits.length == 64 &&
    digits.all fun c => c.isDigit || ('a' ≤ c && c ≤ 'f')

/-- One verified position in a twin's chain. -/
@[ext]
structure StreamPosition where
  twinId : String
  sequence : Int
  eventHash : String
  twin_required : twinId ≠ ""
  sequence_nonneg : 0 ≤ sequence
  origin_hash : sequence = 0 → eventHash = ""
  event_hash : 0 < sequence → isEventHash eventHash = true

theorem StreamPosition.nonneg_of_not_neg {sequence : Int} (h : ¬ sequence < 0) :
    0 ≤ sequence := Int.not_lt.1 h

instance : DecidableEq StreamPosition := fun _ _ => decidable_of_iff _ StreamPosition.ext_iff.symm

/-- The constructor, with its checks. -/
def StreamPosition.new (twinId : String) (sequence : Int) (eventHash : String) :
    Except PyError StreamPosition :=
  if htwin : twinId = "" then
    .error (.resumeCursorRejected "resume cursor twin_id is required")
  else if hsequence : sequence < 0 then
    .error (.resumeCursorRejected "resume cursor sequence cannot be negative")
  else if horigin : sequence = 0 ∧ eventHash ≠ "" then
    .error (.resumeCursorRejected "stream origin cannot carry an event hash")
  else if hhash : 0 < sequence ∧ isEventHash eventHash = false then
    .error (.resumeCursorRejected "resume cursor event hash is invalid")
  else .ok
    { twinId := twinId
      sequence := sequence
      eventHash := eventHash
      twin_required := htwin
      sequence_nonneg := nonneg_of_not_neg hsequence
      origin_hash := fun h => by simpa [h] using horigin
      event_hash := fun h => by simpa [h] using hhash }

theorem page_default : 1 ≤ 256 := by decide

theorem window_default : 1 ≤ 128 := by decide

/-- The ceilings of a subscription. -/
structure SyncLimits where
  replayPageSize : Nat := 256
  maxInFlight : Nat := 128
  page_positive : 1 ≤ replayPageSize := by first | exact page_default | decide
  window_positive : 1 ≤ maxInFlight := by first | exact window_default | decide
  deriving DecidableEq

/-- `load` with a `LIMIT`. -/
def Store.loadPage (s : Store) (twinId : String) (afterSequence : Int) (upToSequence : Option Int)
    (limit : Nat) : Except PyError (List EventEnvelope) :=
  if limit = 0 then .ok []
  else do
    let after ← Store.bindInteger afterSequence
    let upTo ← Store.bindUpTo upToSequence
    let bound ← Store.bindInteger limit
    let rows := (s.rowsOf twinId).filter fun row =>
      after < row.sequence && Store.within upTo row.sequence
    ((Store.bySequence rows).take bound.toNat).mapM Store.rowToEvent

/-! ## The live queue -/

/-- A subscription of the broker. Its queue ends in `none` once it is
closed; the broker keeps those that are not. -/
structure Subscription where
  twinId : String
  afterSequence : Int
  capacity : Nat
  queue : List (Option EventEnvelope) := []
  closed : Bool := false
  closeReason : Option String := none

/-- What waiting for the queue comes to. -/
inductive Polled where
  | waits
  | event (e : EventEnvelope)
  | raised (err : PyError)

namespace Subscription

/-- How a closed subscription ends its iteration. -/
def stopped (s : Subscription) : PyError :=
  match s.closeReason with
  | some reason => if reason = "" then .stopAsyncIteration else .backpressureExceeded reason
  | none => .stopAsyncIteration

/-- `close`: the mark takes the place of the oldest entry of a full queue. -/
def close (s : Subscription) (reason : Option String) : Subscription :=
  if s.closed then s
  else
    let kept := if s.capacity ≤ s.queue.length then s.queue.tail else s.queue
    { s with closed := true, closeReason := reason, queue := kept ++ [none] }

/-- `publish`, as one subscription sees it. -/
def offer (s : Subscription) (e : EventEnvelope) : Subscription :=
  if s.closed ∨ s.twinId ≠ e.twinId ∨ e.sequence ≤ s.afterSequence then s
  else if s.capacity ≤ s.queue.length then
    s.close (some "subscriber exceeded bounded queue; reconnect with last cursor")
  else { s with queue := s.queue ++ [some e] }

/-- `await self.queue.get()` and what follows it. -/
def poll (s : Subscription) : Subscription × Polled :=
  match s.queue with
  | [] => (s, .waits)
  | none :: rest => ({ s with queue := rest, closed := true }, .raised s.stopped)
  | some e :: rest => ({ s with queue := rest, afterSequence := e.sequence }, .event e)

/-- `__anext__`. -/
def next (s : Subscription) : Subscription × Polled :=
  if s.closed then (s, .raised s.stopped) else s.poll

end Subscription

/-! ## The durable subscription -/

/-- What a subscription lets through; `none` is everything. -/
structure Filters where
  eventTypes : Option (List String) := none
  planes : Option (List EventPlane) := none
  deriving DecidableEq

/-- A collection that is empty filters nothing. -/
def Filters.new (eventTypes : List String) (planes : List EventPlane) : Filters where
  eventTypes := if eventTypes = [] then none else some eventTypes
  planes := if planes = [] then none else some planes

/-- The event passes both filters. -/
def Filters.wants (f : Filters) (e : EventEnvelope) : Bool :=
  (match f.eventTypes with
    | some types => types.contains e.eventType
    | none => true) &&
  (match f.planes with
    | some planes => planes.contains e.plane
    | none => true)

structure DurableSubscription where
  live : Subscription
  position : StreamPosition
  acknowledged : StreamPosition
  replayHead : Int
  limits : SyncLimits
  filters : Filters
  replayBuffer : List EventEnvelope := []
  outstanding : List StreamPosition := []
  deferredLive : Option EventEnvelope := none
  closed : Bool := false

/-- What one turn of `_next_candidate`'s loop comes to. -/
inductive Candidate where
  | again
  | waits
  | found (e : EventEnvelope)
  | raised (err : PyError)

/-- What one turn of `__anext__`'s loop comes to. -/
inductive Turn where
  | again
  | waits
  | skipped (e : EventEnvelope)
  | delivered (e : EventEnvelope)
  | raised (err : PyError)

namespace DurableSubscription

variable [Digest]

/-- The event a start names is the one at its sequence. -/
def checkStart (store : Store) (start : StreamPosition) : Except PyError Unit :=
  if 0 < start.sequence then do
    let found ← store.loadPage start.twinId (start.sequence - 1) (some start.sequence) 1
    if found.head?.map (·.eventHash) ≠ some start.eventHash then
      .error (.resumeCursorRejected "resume cursor does not match the authoritative event chain")
    else .ok ()
  else .ok ()

/-- The constructor, on a new subscription of the broker. -/
def fresh (replayHead : Int) (capacity : Nat) (start : StreamPosition) (limits : SyncLimits)
    (filters : Filters) : DurableSubscription where
  live := { twinId := start.twinId, afterSequence := start.sequence, capacity := capacity }
  position := start
  acknowledged := start
  replayHead := replayHead
  limits := limits
  filters := filters

/-- `open`, with the broker's queue capacity. The broker's subscription is
there before the head is read. -/
def «open» (store : Store) (capacity : Nat) (start : StreamPosition) (limits : SyncLimits)
    (filters : Filters) : Except PyError DurableSubscription :=
  let replayHead := (store.head start.twinId).1
  if replayHead < start.sequence then
    .error (.resumeCursorRejected "resume cursor is beyond the stream head")
  else do
    checkStart store start
    pure (fresh replayHead capacity start limits filters)

/-- `aclose`; the broker forgets the subscription and closes it. -/
def aclose (d : DurableSubscription) : DurableSubscription :=
  if d.closed then d else { d with closed := true, live := d.live.close none }

/-- `_advance_verified`. -/
def advanceVerified (d : DurableSubscription) (e : EventEnvelope) :
    Except PyError DurableSubscription := do
  let expected := d.position.sequence + 1
  if e.twinId ≠ d.position.twinId ∨ e.sequence ≠ expected then
    .error (.integrityError ("stream continuity failed: expected sequence " ++ toString expected ++
      ", found " ++ toString e.sequence))
  else
    e.verify d.position.eventHash
    let position ← StreamPosition.new e.twinId e.sequence e.eventHash
    pure { d with position := position }

/-- The event, if it is the next one. -/
def advance (d : DurableSubscription) (e : EventEnvelope) : DurableSubscription × Candidate :=
  match d.advanceVerified e with
  | .ok after => (after, .found e)
  | .error err => (d, .raised err)

/-- A live event: seen already, past a gap to be read from the ledger
first, or the next one. -/
def takeLive (store : Store) (d : DurableSubscription) (e : EventEnvelope) :
    DurableSubscription × Candidate :=
  if e.sequence ≤ d.position.sequence then (d, .again)
  else if d.position.sequence + 1 < e.sequence then
    if (store.head d.position.twinId).1 < e.sequence then
      (d, .raised (.integrityError "live stream contains a non-persisted sequence gap"))
    else ({ d with deferredLive := some e, replayHead := e.sequence }, .again)
  else d.advance e

/-- What the queue gave. -/
def afterPoll (store : Store) (d : DurableSubscription) :
    Subscription × Polled → DurableSubscription × Candidate
  | (live, .waits) => ({ d with live := live }, .waits)
  | (live, .event e) => takeLive store { d with live := live } e
  | (live, .raised (.backpressureExceeded reason)) =>
    ({ d with live := live, closed := true }, .raised (.backpressureExceeded reason))
  | (live, .raised err) => ({ d with live := live }, .raised err)

/-- One turn of `_next_candidate`. -/
def nextCandidate (store : Store) (d : DurableSubscription) : DurableSubscription × Candidate :=
  match d.replayBuffer with
  | e :: rest => advance { d with replayBuffer := rest } e
  | [] =>
    if d.position.sequence < d.replayHead then
      match store.loadPage d.position.twinId d.position.sequence (some d.replayHead)
          d.limits.replayPageSize with
      | .error err => (d, .raised err)
      | .ok [] =>
        (d, .raised (.integrityError "event replay ended before the captured stream head"))
      | .ok batch => ({ d with replayBuffer := batch }, .again)
    else
      match d.deferredLive with
      | some e => takeLive store { d with deferredLive := none } e
      | none => afterPoll store d d.live.next

/-- The turn a wait on the queue ends in. -/
def resumed (store : Store) (d : DurableSubscription) : DurableSubscription × Candidate :=
  afterPoll store d d.live.poll

/-- `_advance_ack_over_filtered_event`. -/
def advanceAckOverFilteredEvent (d : DurableSubscription) : DurableSubscription :=
  if d.outstanding.isEmpty then { d with acknowledged := d.position } else d

/-- `__anext__` on an event found: the position just taken is the event's. -/
def sift (d : DurableSubscription) (e : EventEnvelope) : DurableSubscription × Turn :=
  if d.filters.wants e then
    ({ d with outstanding := d.outstanding ++ [d.position] }, .delivered e)
  else (d.advanceAckOverFilteredEvent, .skipped e)

/-- `__anext__` on what a turn came to. -/
def conclude : DurableSubscription × Candidate → DurableSubscription × Turn
  | (d, .again) => (d, .again)
  | (d, .waits) => (d, .waits)
  | (d, .found e) => d.sift e
  | (d, .raised (.integrityError message)) => (d.aclose, .raised (.integrityError message))
  | (d, .raised err) => (d, .raised err)

/-- The checks `__anext__` begins with. -/
def begin (d : DurableSubscription) : DurableSubscription × Except PyError Unit :=
  if d.closed then (d, .error .stopAsyncIteration)
  else if d.limits.maxInFlight ≤ d.outstanding.length then
    (d.aclose, .error (.backpressureExceeded
      "unacknowledged delivery window exceeded; reconnect with last cursor"))
  else (d, .ok ())

/-! ## Acknowledging -/

/-- The outstanding position at a sequence. -/
def matched (d : DurableSubscription) (sequence : Int) : Option StreamPosition :=
  d.outstanding.find? fun item => item.sequence = sequence

/-- `acknowledge`: the subscription after it, and the position it returns. -/
def acknowledge (d : DurableSubscription) (position : StreamPosition) :
    Except PyError (DurableSubscription × StreamPosition) :=
  if position.twinId ≠ d.position.twinId then
    .error (.protocolViolation "acknowledgement is bound to another twin")
  else if position.sequence < d.acknowledged.sequence then
    .error (.protocolViolation "acknowledgement sequence cannot regress")
  else if position.sequence = d.acknowledged.sequence then
    if position.eventHash ≠ d.acknowledged.eventHash then
      .error (.protocolViolation "acknowledgement hash does not match its sequence")
    else .ok (d, d.acknowledged)
  else
    match d.matched position.sequence with
    | none => .error (.protocolViolation "acknowledgement was not issued by this stream")
    | some item =>
      if item.eventHash ≠ position.eventHash then
        .error (.protocolViolation "acknowledgement was not issued by this stream")
      else .ok
        ({ d with
            acknowledged := position
            outstanding := d.outstanding.dropWhile fun item => item.sequence ≤ position.sequence },
          position)

/-- `acknowledgement_candidate`. -/
def acknowledgementCandidate (d : DurableSubscription) (sequence : Int) :
    Except PyError StreamPosition :=
  if sequence = d.acknowledged.sequence then .ok d.acknowledged
  else
    match d.matched sequence with
    | some item => .ok item
    | none => .error (.protocolViolation "acknowledgement was not issued by this stream")

end DurableSubscription

end ArgoTwin
