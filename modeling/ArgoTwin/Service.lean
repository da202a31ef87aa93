import ArgoTwin.Ownership
import ArgoTwin.Replay
/-!
# The service

One `DigitalTwinService`: its configuration, the memory it keeps between
calls, and `append` with the steps a call takes one after another. States
are objects that are changed in place, so the memory is a heap, and the
cache and a call that holds a state refer to it. A call sees the shared
store and its own service's memory.
-/

namespace ArgoTwin

open Library TwinAggregate

/-- The configuration of a service, checked by its constructor. -/
structure Service where
  snapshotInterval : Nat := 1000
  snapshotRetention : Int := 3
  outboxRetention : Int := 7 * DateTime.microsPerDay
  stateCacheEntries : Nat := 128
  leaseOwner : String := "relay"
  snapshot_retention_positive : 1 ≤ snapshotRetention := by decide
  outbox_retention_positive : 0 < outboxRetention := by decide

/-- What one service keeps: its states, and the cache, least recently
used first. -/
structure Memory where
  objects : Nat → TwinState := fun _ => { twinId := "" }
  allocated : Nat := 0
  cache : List (String × Nat) := []

/-- What a call works on. -/
structure Process where
  store : Store := {}
  memory : Memory := {}

/-- The position a state stands at. -/
def TwinState.position (s : TwinState) : Int × String := (s.sequence, s.lastEventHash)

namespace Memory

def lookup (m : Memory) (twinId : String) : Option Nat := m.cache.lookup twinId

/-- `_state_cache.pop(twin_id, None)`. -/
def pop (m : Memory) (twinId : String) : Memory :=
  { m with cache := m.cache.filter fun entry => entry.1 ≠ twinId }

/-- `_state_cache[twin_id] = state`, at the end. -/
def put (m : Memory) (twinId : String) (ref : Nat) : Memory :=
  { m with cache := (m.pop twinId).cache ++ [(twinId, ref)] }

/-- `popitem(last=False)` while there are too many. -/
def trim (m : Memory) (limit : Nat) : Memory :=
  { m with cache := m.cache.drop (m.cache.length - limit) }

/-- A new object. -/
def alloc (m : Memory) (state : TwinState) : Memory :=
  { m with objects := Function.update m.objects m.allocated state, allocated := m.allocated + 1 }

/-- An object changed in place. -/
def setObject (m : Memory) (ref : Nat) (state : TwinState) : Memory :=
  { m with objects := Function.update m.objects ref state }

end Memory

/-- What the relay meets while it drains the outbox: when it claims, when
it marks, and the exception a publication fails with. -/
structure RelayReadings where
  claimed : Instant
  published : OutboxRecord → Instant
  failure : OutboxRecord → Option String

/-- What an `append` reads off the clock, step by step. -/
structure AppendReadings where
  previewed : Instant
  recorded : Instant
  snapshotted : Instant
  pruned : Instant
  relay : RelayReadings

namespace Service

/-- A method of a service. -/
abbrev Method (α : Type) := EStateM PyError Process α

def onStore {α : Type} (x : Store.Method α) : Method α :=
  onPart (·.store) (fun store process => { process with store := store }) x

def onMemory (f : Memory → Memory) : Method Unit :=
  modify fun process => { process with memory := f process.memory }

/-- `raise error` unless `ok`. -/
def demand (ok : Prop) [Decidable ok] (error : PyError) : Method Unit :=
  if ok then pure () else throw error

variable [Digest] (svc : Service)

/-! ## The state cache -/

def cacheState (ref : Nat) : Method Unit :=
  if svc.stateCacheEntries = 0 then pure ()
  else onMemory fun m => (m.put (m.objects ref).twinId ref).trim svc.stateCacheEntries

/-- The state rebuilt, and cached. -/
def rebuildLatest (twinId : String) : Method Nat := do
  let process ← get
  let state ← fromExcept (rebuild process.store twinId true none none)
  onMemory (·.alloc state)
  svc.cacheState process.memory.allocated
  pure process.memory.allocated

/-- `_latest_state`: the object that is the twin's state. -/
def latestState (twinId : String) : Method Nat := do
  let process ← get
  match process.memory.lookup twinId with
  | some ref =>
    if (process.memory.objects ref).position = process.store.head twinId then do
      onMemory (·.put twinId ref)
      pure ref
    else do
      onMemory (·.pop twinId)
      svc.rebuildLatest twinId
  | none => svc.rebuildLatest twinId

/-- `state` with no bound given: a copy of the latest. -/
def state (twinId : String) : Method TwinState := do
  let ref ← svc.latestState twinId
  pure ((← get).memory.objects ref)

/-- `state` as of a sequence or a recording time. -/
def stateAsOf (twinId : String) (upToSequence : Option Int) (asOf : Option DateTime) :
    Method TwinState :=
  if upToSequence.isNone && asOf.isNone then svc.state twinId
  else do
    fromExcept (rebuild (← get).store twinId true upToSequence asOf)

/-! ## Publishing -/

/-- One record of a drain; whether it was published. -/
def relayRecord (readings : RelayReadings) (record : OutboxRecord) : Method Bool :=
  match readings.failure record with
  | some error => do
    let released ← onStore (Store.releaseOutbox record error)
    demand (released = true) (.integrityError "failed publication lost its outbox lease")
    pure false
  | none => do
    let marked ← onStore (Store.markOutboxPublished record (readings.published record))
    demand (marked = true) (.integrityError "published event lost its outbox lease")
    pure true

/-- `OutboxRelay.drain`: how many records were claimed, published, failed. -/
def drain (limit : Int) (readings : RelayReadings) : Method (Nat × Nat × Nat) := do
  let records ← onStore (Store.claimOutbox svc.leaseOwner limit 30 readings.claimed)
  let outcomes ← records.mapM (relayRecord readings)
  pure (records.length, outcomes.count true, outcomes.count false)

/-! ## Appending -/

/-- The first step: who may append what, and the head it is read at. -/
def vet (e : EventEnvelope) (actor : ActorContext) : Method (Int × String) := do
  fromExcept (EventOwnershipPolicy.authorize e actor)
  fromExcept (validateEvent e)
  demand (e.plane ≠ .simulation) (.invariantViolation
    "simulation events belong to SimulationBranch, not the authoritative store")
  pure ((← get).store.head e.twinId)

/-- The event as it would be stored, applied to a copy of the state. -/
def tryTransition (e : EventEnvelope) (expectedSequence : Int) (head : Int × String)
    (now : Instant) (ref : Nat) : Method (Option Nat) := do
  let current := (← get).memory.objects ref
  demand (current.position = head)
    (.concurrencyConflict "stream changed during transition validation")
  let _ ← fromExcept
    (applied current (e.sealAt (expectedSequence + 1) head.2 (DateTime.utc now)))
  pure (some ref)

/-- The second step: where the head is the expected one, the transition is
tried on the latest state, which the call goes on holding. -/
def preview (e : EventEnvelope) (expectedSequence : Int) (head : Int × String)
    (now : Instant) : Method (Option Nat) :=
  if head.1 = expectedSequence then do
    let ref ← svc.latestState e.twinId
    tryTransition e expectedSequence head now ref
  else pure none

/-- The third step. -/
def persist (e : EventEnvelope) (expectedSequence : Int) (now : Instant) :
    Method EventEnvelope :=
  onStore (Store.append e expectedSequence now none)

/-- The held state taken forward in place, and cached again. -/
def advance (ref : Nat) (persisted : EventEnvelope) : Method Unit := do
  match apply persisted ((← get).memory.objects ref) with
  | .ok _ after => do
    onMemory (·.setObject ref after)
    svc.cacheState ref
  | .error err after => do
    onMemory fun m => (m.setObject ref after).pop persisted.twinId
    throw err

/-- The fourth step: the cache follows an event past the head first read. -/
def settle (head : Int × String) (held : Option Nat) (persisted : EventEnvelope) : Method Unit :=
  if head.1 < persisted.sequence then
    match held with
    | some ref => svc.advance ref persisted
    | none => onMemory (·.pop persisted.twinId)
  else pure ()

/-- Whether the event is due a snapshot. -/
def snapshotDue (head : Int × String) (persisted : EventEnvelope) : Bool :=
  head.1 < persisted.sequence && 0 < svc.snapshotInterval &&
    persisted.sequence % svc.snapshotInterval == 0

/-- The fifth step, where it is due: a snapshot, and what it makes
superfluous. -/
def snapshot (head : Int × String) (persisted : EventEnvelope) (readings : AppendReadings) :
    Method Unit :=
  if svc.snapshotDue head persisted then do
    let state ← fromExcept (rebuild (← get).store persisted.twinId false none none)
    let _ ← onStore (Store.saveSnapshot (state.toSnapshot readings.snapshotted))
    let _ ← onStore (Store.pruneSnapshots persisted.twinId svc.snapshotRetention)
    let _ ← onStore (Store.pruneOutbox (DateTime.utc (readings.pruned - svc.outboxRetention))
      1000)
    pure ()
  else pure ()

def append (e : EventEnvelope) (actor : ActorContext) (expectedSequence : Int)
    (readings : AppendReadings) : Method EventEnvelope := do
  let head ← vet e actor
  let held ← svc.preview e expectedSequence head readings.previewed
  let persisted ← persist e expectedSequence readings.recorded
  svc.settle head held persisted
  svc.snapshot head persisted readings
  let _ ← svc.drain 100 readings.relay
  pure persisted

end Service

end ArgoTwin
