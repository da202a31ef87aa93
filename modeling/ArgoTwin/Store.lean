import ArgoTwin.Aggregate
import ArgoTwin.Library.Closure
import ArgoTwin.Library.Log
/-!
# The event store

Five tables, each a list of rows in the order they were inserted. A text
column that holds JSON or a time is kept as the value it is the text of,
and read back as what that text is read as; times are compared as the
texts they are stored as.
Writers are serialized by `BEGIN IMMEDIATE`, so a method is one step on
the tables, and one that raises inside its transaction leaves none.
-/

namespace ArgoTwin

open Library

/-- A row of `dt_outbox`. -/
structure OutboxRow where
  twinId : String
  sequence : Int
  topic : String
  messageKey : String
  createdAt : DateTime
  publishedAt : Option DateTime := none
  attempts : Nat := 0
  lastError : Option String := none
  leaseOwner : Option String := none
  leaseUntil : Option DateTime := none
  deriving DecidableEq

/-- A row of `dt_dependencies`. -/
structure DependencyRow where
  twinId : String
  sourceKind : String
  sourceId : String
  dependentKind : String
  dependentId : String
  createdSequence : Int
  relation : String
  deriving DecidableEq

/-- A row of `dt_invalidation_queue`. -/
structure InvalidationRow where
  twinId : String
  deletionSequence : Int
  sourceEvidenceId : String
  dependentKind : String
  dependentId : String
  createdAt : DateTime
  processedAt : Option DateTime := none
  deriving DecidableEq

structure Store where
  events : List EventEnvelope := []
  snapshots : List SnapshotRecord := []
  outbox : List OutboxRow := []
  dependencies : List DependencyRow := []
  invalidations : List InvalidationRow := []
  deriving DecidableEq

/-- The statements of `append`'s transaction, each of which may fail. -/
inductive AppendStep where
  | begin
  | selectDuplicate
  | selectHead
  | insertEvent
  | indexDependencies
  | insertOutbox
  | commit
  deriving DecidableEq, Repr

namespace Store

/-- A method of a connection. -/
abbrev Method (α : Type) := EStateM PyError Store α

def eventTopic : String := "dt.events"

/-! ## Reading events -/

/-- `_row_to_event`: the payload is read off its canonical JSON, and the
stored times are parsed, which puts them in UTC. -/
def rowToEvent (row : EventEnvelope) : Except PyError EventEnvelope :=
  if row.occurredAt.naive ∨ row.recordedAt.naive then
    .error (.invariantViolation "timestamps must include an offset")
  else .ok { row with
    payload := row.payload.reread
    occurredAt := row.occurredAt.astimezoneUtc
    recordedAt := row.recordedAt.astimezoneUtc }

/-- The rows of one twin. -/
def rowsOf (s : Store) (twinId : String) : List EventEnvelope :=
  s.events.filter fun row => row.twinId = twinId

/-- `ORDER BY sequence`. -/
def bySequence (rows : List EventEnvelope) : List EventEnvelope :=
  rows.insertionSort fun a b => a.sequence ≤ b.sequence

/-- `sequence <= ?`, where a bound is given. -/
def within (upToSequence : Option Int) (sequence : Int) : Bool :=
  match upToSequence with
  | some upTo => sequence ≤ upTo
  | none => true

/-- An integer parameter of a statement: SQLite takes those of 64 bits. -/
def bindInteger (n : Int) : Except PyError Int :=
  if -2 ^ 63 ≤ n ∧ n < 2 ^ 63 then .ok n
  else .error (.overflowError "Python int too large to convert to SQLite INTEGER")

theorem bindInteger_eq_ok {n m : Int} :
    bindInteger n = .ok m ↔ m = n ∧ -2 ^ 63 ≤ n ∧ n < 2 ^ 63 := by
  unfold bindInteger
  split_ifs with h
  · rw [Except.ok.injEq, and_iff_left h, eq_comm]
  · exact iff_of_false (fun hok => by cases hok) fun hbound => h hbound.2

/-- A positive integer is bound as it is, below the greatest. -/
theorem bindInteger_of_pos {n : Int} (hpos : 0 < n) (hlt : n < 2 ^ 63) :
    bindInteger n = .ok n := bindInteger_eq_ok.2 ⟨rfl, by omega, hlt⟩

theorem bindInteger_of_le {n : Int} (h : 2 ^ 63 ≤ n) : bindInteger n =
    .error (.overflowError "Python int too large to convert to SQLite INTEGER") :=
  if_neg fun hbound => absurd hbound.2 (not_lt.2 h)

/-- `up_to_sequence` as a parameter, where it is given. -/
def bindUpTo : Option Int → Except PyError (Option Int)
  | some n => do pure (some (← bindInteger n))
  | none => .ok none

/-- A bound that SQLite takes, or none. -/
def Bindable (upToSequence : Option Int) : Prop :=
  ∀ n, upToSequence = some n → -2 ^ 63 ≤ n ∧ n < 2 ^ 63

theorem bindable_none : Bindable none := fun n h => by cases h

theorem bindable_some {n : Int} : Bindable (some n) ↔ -2 ^ 63 ≤ n ∧ n < 2 ^ 63 := by
  simp [Bindable]

theorem bindUpTo_of_bindable {upTo : Option Int} (h : Bindable upTo) : bindUpTo upTo = .ok upTo := by
  cases upTo with
  | none => rfl
  | some n =>
    rw [bindUpTo, bindInteger_eq_ok.2 ⟨rfl, h n rfl⟩]
    rfl

/-- `load`; the planes are those of an `IN` clause, all of them where none
are given. The sequence read from is that of a stored row, or zero. -/
def load (s : Store) (twinId : String) (afterSequence : Int) (upToSequence : Option Int)
    (planes : List EventPlane) : Except PyError (List EventEnvelope) := do
  let upTo ← bindUpTo upToSequence
  let rows := (s.rowsOf twinId).filter fun row =>
    afterSequence < row.sequence && within upTo row.sequence &&
      (planes.isEmpty || planes.contains row.plane)
  (bySequence rows).mapM rowToEvent

/-- The row with the greatest sequence. -/
def newestRow (s : Store) (twinId : String) : Option EventEnvelope :=
  greatest (fun row => row.sequence) (s.rowsOf twinId)

/-- `head`: the stream's last position, or the one before its first. -/
def head (s : Store) (twinId : String) : Int × String :=
  match s.newestRow twinId with
  | some row => (row.sequence, row.eventHash)
  | none => (0, "")

/-! ## Appending -/

/-- `raise` of the database, where a run says so. -/
def failAt (fault : Option AppendStep) (here : AppendStep) : Method Unit :=
  if fault = some here then throw (.databaseError "disk I/O error") else pure ()

/-- What an append under a used key is compared on. -/
def sameRequest (existing e : EventEnvelope) : Bool :=
  existing.eventType == e.eventType && existing.plane == e.plane &&
    canonicalJson (.ofPayload existing.payload) == canonicalJson (.ofPayload e.payload) &&
    existing.producer == e.producer && existing.producerRole == e.producerRole &&
    existing.schemaVersion == e.schemaVersion && existing.occurredAt.same e.occurredAt &&
    existing.causationId == e.causationId && existing.correlationId == e.correlationId

/-- The uniqueness constraints of `dt_events`. -/
def conflicts (row e : EventEnvelope) : Bool :=
  (row.twinId == e.twinId && row.sequence == e.sequence) || row.eventId == e.eventId ||
    (row.twinId == e.twinId && row.idempotencyKey == e.idempotencyKey)

def insertEvent (e : EventEnvelope) : Method Unit := do
  let _ ← fromExcept (bindInteger e.sequence)
  if (← get).events.any fun row => conflicts row e then
    throw (.databaseError "UNIQUE constraint failed: dt_events")
  modify fun s => { s with events := s.events ++ [e] }

def insertOutbox (e : EventEnvelope) : Method Unit := do
  let row : OutboxRow :=
    { twinId := e.twinId
      sequence := e.sequence
      topic := eventTopic
      messageKey := e.twinId
      createdAt := e.recordedAt }
  if (← get).outbox.any fun other =>
      other.twinId == row.twinId && other.sequence == row.sequence && other.topic == row.topic then
    throw (.databaseError "UNIQUE constraint failed: dt_outbox")
  modify fun s => { s with outbox := s.outbox ++ [row] }

/-- `str(reference.get(key, default))` of an object. -/
def referenceStr (reference : Json) (key default : String) : String :=
  match reference.get? key with
  | some value => value.pyStr
  | none => default

/-- The edges an event adds to the dependency index, before those with an
empty end are dropped. -/
def edgesOf (e : EventEnvelope) : Except PyError (List DependencyRow) :=
  let edge := fun sourceKind sourceId dependentKind dependentId relation : String =>
    (⟨e.twinId, sourceKind, sourceId, dependentKind, dependentId, e.sequence, relation⟩ :
      DependencyRow)
  let fromReferences := fun (dependentKind dependentId relation : String) => do
    let references ← (e.payload.listD "provenance").pyIter
    pure ((references.filter Json.isDict).map fun reference =>
      edge "evidence" (referenceStr reference "evidence_id" "") dependentKind dependentId
        (referenceStr reference "relation" relation))
  match e.kind with
  | .claimProposed => fromReferences "claim" (e.payload.strD "claim_id" "") "supports"
  | .entityLinked => fromReferences "entity" (e.payload.strD "entity_link_id" "") "identifies"
  | .claimSuperseded =>
    .ok [edge "claim" (e.payload.strD "claim_id" "") "claim"
      (e.payload.strD "successor_claim_id" "") "superseded_by"]
  | .contradictionDetected => do
    let claimIds ← (e.payload.listD "claim_ids").pyIter
    pure (claimIds.map fun claimId =>
      edge "claim" claimId.pyStr "contradiction" (e.payload.strD "contradiction_id" "")
        "contradicts")
  | .correctionRecorded =>
    let targetKind := e.payload.strD "target_kind" ""
    let correctionId := e.payload.strD "correction_id" ""
    if targetKind = "evidence" ∨ targetKind = "claim" then
      .ok [edge targetKind (e.payload.strD "target_id" "") "correction" correctionId "corrected",
        edge targetKind (e.payload.strD "replacement_id" "") "correction" correctionId
          "replacement"]
    else .ok []
  | .projectionIssued => do
    let claimIds ← (e.payload.listD "source_claim_ids").pyIter
    pure (claimIds.map fun claimId =>
      edge "claim" claimId.pyStr "projection" (e.payload.strD "projection_id" "")
        "compiled_from")
  | _ => .ok []

/-- The primary key of `dt_dependencies`. -/
def sameEdge (a b : DependencyRow) : Bool :=
  a.twinId == b.twinId && a.sourceKind == b.sourceKind && a.sourceId == b.sourceId &&
    a.dependentKind == b.dependentKind && a.dependentId == b.dependentId &&
    a.relation == b.relation

/-- `INSERT OR IGNORE` of an edge, unless an end is empty. -/
def addEdge (rows : List DependencyRow) (row : DependencyRow) : List DependencyRow :=
  if row.sourceId = "" ∨ row.dependentId = "" then rows
  else if rows.any fun other => sameEdge other row then rows
  else rows ++ [row]

/-- A typed identifier, a node of the dependency graph. -/
abbrev Node := String × String

/-- The dependency graph of one twin. -/
def graphOf (s : Store) (twinId : String) : List (Node × Node) :=
  (s.dependencies.filter fun row => row.twinId = twinId).map fun row =>
    ((row.sourceKind, row.sourceId), (row.dependentKind, row.dependentId))

/-- `ORDER BY kind, identifier`. -/
def byNode (nodes : List Node) : List Node :=
  nodes.insertionSort fun a b => a.1 < b.1 ∨ (a.1 = b.1 ∧ a.2 ≤ b.2)

/-- The recursive query of a deletion: all that depends on the evidence,
however indirectly. -/
def impacted (s : Store) (twinId evidenceId : String) : List Node :=
  let graph := s.graphOf twinId
  byNode (closure graph (successors graph ("evidence", evidenceId)))

/-- `INSERT OR IGNORE` into the invalidation queue. -/
def addInvalidation (rows : List InvalidationRow) (row : InvalidationRow) :
    List InvalidationRow :=
  if rows.any fun other => other.twinId == row.twinId &&
      other.deletionSequence == row.deletionSequence &&
      other.dependentKind == row.dependentKind && other.dependentId == row.dependentId then rows
  else rows ++ [row]

/-- The rows a deletion queues. -/
def invalidationsOf (s : Store) (e : EventEnvelope) : List InvalidationRow :=
  let evidenceId := e.payload.strD "evidence_id" ""
  if evidenceId = "" then []
  else (s.impacted e.twinId evidenceId).map fun node =>
    ⟨e.twinId, e.sequence, evidenceId, node.1, node.2, e.recordedAt, none⟩

def indexDependencies (e : EventEnvelope) : Method Unit := do
  if e.kind = .evidenceDeleted then
    modify fun s => { s with
      invalidations := (s.invalidationsOf e).foldl addInvalidation s.invalidations }
  else
    let edges ← fromExcept (edgesOf e)
    modify fun s => { s with dependencies := edges.foldl addEdge s.dependencies }

/-- The answer to a used key: the event stored under it, if it is the same
request. -/
def answerDuplicate (fault : Option AppendStep) (row e : EventEnvelope) :
    Method EventEnvelope := do
  let existing ← fromExcept (rowToEvent row)
  if !sameRequest existing e then
    throw (.invariantViolation "idempotency key was reused for a different request")
  failAt fault .commit
  pure existing

/-- The compare-and-swap on the head, and the writes it guards. -/
def commitFresh [Digest] (fault : Option AppendStep) (e : EventEnvelope) (expectedSequence : Int)
    (now : Instant) : Method EventEnvelope := do
  failAt fault .selectHead
  let (actualSequence, previousHash) := (← get).head e.twinId
  if actualSequence ≠ expectedSequence then
    throw (.concurrencyConflict ("expected stream " ++ Json.reprStr e.twinId ++ " sequence " ++
      toString expectedSequence ++ ", found " ++ toString actualSequence))
  let sealed := e.sealAt (actualSequence + 1) previousHash (DateTime.utc now)
  failAt fault .insertEvent
  insertEvent sealed
  failAt fault .indexDependencies
  indexDependencies sealed
  failAt fault .insertOutbox
  insertOutbox sealed
  failAt fault .commit
  pure sealed

/-- The row under a key of a twin. -/
def keyed (s : Store) (twinId key : String) : Option EventEnvelope :=
  s.events.find? fun row => row.twinId == twinId && row.idempotencyKey == key

def append [Digest] (e : EventEnvelope) (expectedSequence : Int) (now : Instant)
    (fault : Option AppendStep) : Method EventEnvelope := do
  if e.schemaVersion ≠ "argo.dt.event/v2" then
    throw (.invariantViolation "new event-store writes require EventEnvelope v2")
  if e.plane = .simulation then
    throw (.invariantViolation "simulation events require an isolated branch store")
  transaction do
    failAt fault .begin
    failAt fault .selectDuplicate
    match (← get).keyed e.twinId e.idempotencyKey with
    | some row => answerDuplicate fault row e
    | none => commitFresh fault e expectedSequence now

/-! ## Verifying -/

/-- The loop of `verify_chain` from a position on. -/
def verifyFrom [Digest] : Int × String → List EventEnvelope → Except PyError Bool
  | _, [] => .ok true
  | (expectedSequence, previousHash), e :: rest =>
    if e.sequence ≠ expectedSequence then
      .error (.integrityError ("sequence gap: expected " ++ toString expectedSequence ++
        ", found " ++ toString e.sequence))
    else do
      e.verify previousHash
      verifyFrom (expectedSequence + 1, e.eventHash) rest

def verifyChain [Digest] (s : Store) (twinId : String) : Except PyError Bool := do
  verifyFrom (1, "") (← s.load twinId 0 none [])

/-! ## Snapshots -/

/-- `_row_to_snapshot`: the state is read off its canonical JSON. -/
def rowToSnapshot [Digest] (row : SnapshotRecord) : Except PyError SnapshotRecord :=
  if row.createdAt.naive then .error (.invariantViolation "timestamps must include an offset")
  else do
    let snapshot := { row with
      state := row.state.reread, createdAt := row.createdAt.astimezoneUtc }
    snapshot.verify
    pure snapshot

def eventAt (s : Store) (twinId : String) (sequence : Int) : Option EventEnvelope :=
  s.events.find? fun row => row.twinId == twinId && row.sequence == sequence

/-- A snapshot already stored at the position answers for the new one. -/
def answerSnapshot [Digest] (existing snapshot : SnapshotRecord) : Method SnapshotRecord := do
  let stored ← fromExcept (rowToSnapshot existing)
  if stored.stateHash ≠ snapshot.stateHash then
    throw (.integrityError "conflicting snapshot already exists")
  else pure stored

def snapshotAt (s : Store) (twinId : String) (sequence : Int) : Option SnapshotRecord :=
  s.snapshots.find? fun row => row.twinId == twinId && row.sequence == sequence

/-- The transaction of `save_snapshot`. -/
def insertSnapshot [Digest] (snapshot : SnapshotRecord) : Method SnapshotRecord :=
  transaction do
    let store ← get
    match store.eventAt snapshot.twinId snapshot.sequence with
    | none => throw (.integrityError "snapshot does not reference a persisted event")
    | some event =>
      if event.eventHash ≠ snapshot.lastEventHash then
        throw (.integrityError "snapshot does not match the event-chain position")
      else
        match store.snapshotAt snapshot.twinId snapshot.sequence with
        | some existing => answerSnapshot existing snapshot
        | none => do
          set { store with snapshots := store.snapshots ++ [snapshot] }
          pure snapshot

def saveSnapshot [Digest] (snapshot : SnapshotRecord) : Method SnapshotRecord := do
  fromExcept snapshot.verify
  insertSnapshot snapshot

def loadSnapshot [Digest] (s : Store) (twinId : String) (upToSequence : Option Int) :
    Except PyError (Option SnapshotRecord) := do
  let upTo ← bindUpTo upToSequence
  let rows := s.snapshots.filter fun row =>
    row.twinId == twinId && (s.eventAt row.twinId row.sequence).isSome &&
      within upTo row.sequence
  match greatest (fun row => row.sequence) rows with
  | none => .ok none
  | some row => do
    let snapshot ← rowToSnapshot row
    let linkedHash := ((s.eventAt row.twinId row.sequence).map (·.eventHash)).getD ""
    if linkedHash ≠ snapshot.lastEventHash then
      .error (.integrityError "snapshot event-chain link was modified")
    else .ok (some snapshot)

/-- The snapshots of a twin past the newest `keep`. -/
def surplus (s : Store) (twinId : String) (keep : Nat) : List SnapshotRecord :=
  ((s.snapshots.filter fun row => row.twinId = twinId).insertionSort
    fun a b => b.sequence ≤ a.sequence).drop keep

def pruneSnapshots (twinId : String) (keep : Int) : Method Nat :=
  if keep < 1 then throw (.valueError "keep must be positive")
  else do
    let keep ← fromExcept (bindInteger keep)
    let store ← get
    let old := (store.surplus twinId keep.toNat).map (·.sequence)
    let doomed := fun row : SnapshotRecord => row.twinId == twinId && old.contains row.sequence
    set { store with snapshots := store.snapshots.filter fun row => !doomed row }
    pure (store.snapshots.filter doomed).length

/-! ## The outbox -/

/-- `lease_until IS NULL OR lease_until <= now`, on the stored texts. -/
def leaseFree (now : DateTime) (row : OutboxRow) : Bool :=
  match row.leaseUntil with
  | none => true
  | some leaseUntil => leaseUntil.isoformat ≤ now.isoformat

/-- `ORDER BY created_at, twin_id, sequence, topic`. -/
def outboxBefore (a b : OutboxRow) : Bool :=
  let keys := fun row : OutboxRow => (row.createdAt.isoformat, row.twinId)
  if keys a = keys b then
    a.sequence < b.sequence || (a.sequence == b.sequence && a.topic ≤ b.topic)
  else
    a.createdAt.isoformat < b.createdAt.isoformat ||
      (a.createdAt.isoformat == b.createdAt.isoformat && a.twinId < b.twinId)

/-- The primary key of `dt_outbox`. -/
def sameOutboxKey (a b : OutboxRow) : Bool :=
  a.twinId == b.twinId && a.sequence == b.sequence && a.topic == b.topic

/-- `UPDATE` of the rows that satisfy `p`. -/
def updateWhere {α : Type} (p : α → Bool) (f : α → α) (rows : List α) : List α :=
  rows.map fun row => if p row then f row else row

/-- One row of a claim: the lease is taken and the event read back. -/
def claimRow [Digest] (leaseOwner : String) (now leaseUntil : DateTime) (selected : OutboxRow) :
    Method (Option OutboxRecord) := do
  let store ← get
  let free := fun row : OutboxRow =>
    sameOutboxKey row selected && row.publishedAt.isNone && leaseFree now row
  if (store.outbox.filter free).length ≠ 1 then pure none
  else
    let lease := fun row : OutboxRow => { row with
      leaseOwner := some leaseOwner, leaseUntil := some leaseUntil, attempts := row.attempts + 1 }
    set { store with outbox := updateWhere free lease store.outbox }
    match (← get).outbox.find? (sameOutboxKey selected),
        store.eventAt selected.twinId selected.sequence with
    | some row, some eventRow =>
      let event ← fromExcept (rowToEvent eventRow)
      fromExcept (event.verify event.previousHash)
      pure (some
        { topic := row.topic
          key := row.messageKey
          event := event
          createdAt := row.createdAt.astimezoneUtc
          attempts := row.attempts
          leaseOwner := leaseOwner })
    | _, _ => throw (.integrityError "outbox row lost its event")

/-- The transaction of `claim_outbox`. -/
def claimPending [Digest] (leaseOwner : String) (limit : Nat) (now leaseUntil : DateTime) :
    Method (List OutboxRecord) :=
  transaction do
    let pending := (← get).outbox.filter fun row => row.publishedAt.isNone && leaseFree now row
    let selected := (pending.insertionSort fun a b => outboxBefore a b).take limit
    let records ← selected.mapM (claimRow leaseOwner now leaseUntil)
    pure (records.filterMap id)

/-- `now + timedelta(seconds=lease_seconds)`, where the clock reads a time of the calendar. -/
def leaseEnd (now : Instant) (leaseSeconds : Int) : Except PyError Instant :=
  let leaseUntil := now + leaseSeconds * DateTime.microsPerSecond
  if DateTime.Representable now ∧ DateTime.Representable leaseUntil then .ok leaseUntil
  else .error (.overflowError "date value out of range")

def claimOutbox [Digest] (leaseOwner : String) (limit leaseSeconds : Int) (now : Instant) :
    Method (List OutboxRecord) :=
  if leaseOwner = "" then throw (.valueError "lease_owner is required")
  else if limit ≤ 0 then pure []
  else if leaseSeconds < 1 then throw (.valueError "lease_seconds must be positive")
  else do
    let leaseUntil ← fromExcept (leaseEnd now leaseSeconds)
    let bound ← fromExcept (bindInteger limit)
    claimPending leaseOwner bound.toNat (DateTime.utc now) (DateTime.utc leaseUntil)

/-- The row a claimed record holds the lease of. -/
def leased (record : OutboxRecord) (row : OutboxRow) : Bool :=
  row.twinId == record.event.twinId && row.sequence == record.event.sequence &&
    row.topic == record.topic && row.publishedAt.isNone &&
    row.leaseOwner == some record.leaseOwner && row.attempts == record.attempts

/-- `UPDATE … WHERE` the lease is held; whether one row was. -/
def updateLeased (record : OutboxRecord) (f : OutboxRow → OutboxRow) : Method Bool := do
  let store ← get
  set { store with outbox := updateWhere (leased record) f store.outbox }
  pure ((store.outbox.filter (leased record)).length == 1)

def markOutboxPublished (record : OutboxRecord) (now : Instant) : Method Bool :=
  updateLeased record fun row => { row with
    publishedAt := some (DateTime.utc now)
    leaseOwner := none
    leaseUntil := none
    lastError := none }

def releaseOutbox (record : OutboxRecord) (error : String) : Method Bool :=
  updateLeased record fun row => { row with
    leaseOwner := none
    leaseUntil := none
    lastError := some (String.ofList (error.toList.take 2048)) }

/-- The published rows a pruning takes, oldest first. -/
def prunable (s : Store) (publishedBefore : DateTime) (limit : Int) : List OutboxRow :=
  let published := fun row : OutboxRow => (row.publishedAt.map DateTime.isoformat).getD ""
  ((s.outbox.filter fun row => row.publishedAt.isSome &&
    published row < publishedBefore.isoformat).insertionSort
      fun a b => published a ≤ published b).take limit.toNat

def pruneOutbox (publishedBefore : DateTime) (limit : Int) : Method Nat :=
  if publishedBefore.naive then
    throw (.valueError "published_before must be timezone-aware")
  else if limit ≤ 0 then pure 0
  else do
    let bound ← fromExcept (bindInteger limit)
    let store ← get
    let doomed := store.prunable publishedBefore bound
    set { store with outbox := store.outbox.filter fun row => row ∉ doomed }
    pure (store.outbox.filter fun row => row ∈ doomed).length

/-! ## The invalidation queue -/

def markInvalidationProcessed (record : InvalidationRecord) (now : Instant) : Method Bool := do
  let store ← get
  let target := fun row : InvalidationRow =>
    row.twinId == record.twinId && row.deletionSequence == record.deletionSequence &&
      row.dependentKind == record.dependentKind && row.dependentId == record.dependentId &&
      row.processedAt.isNone
  let process := fun row : InvalidationRow => { row with processedAt := some (DateTime.utc now) }
  set { store with invalidations := updateWhere target process store.invalidations }
  pure ((store.invalidations.filter target).length == 1)

end Store

end ArgoTwin
