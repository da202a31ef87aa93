import ArgoTwin.Migration
import ArgoTwin.Impact
/-!
# Opening a legacy ledger

Version 1 of `dt_events` has no column for the producer's role. The first
connection to a file adds it, fills it with the sole owner of each event
type, and rebuilds the dependency index, each in a transaction. The hash
of a version 1 event leaves the role out, so a chain of both versions
verifies as its version 1 part did.
-/

namespace ArgoTwin

open Library TwinAggregate

/-- A row of `dt_events` as version 1 has it. -/
structure LegacyRow where
  twinId : String
  sequence : Int
  eventId : String
  eventType : String
  plane : EventPlane
  schemaVersion : String
  payload : Payload
  occurredAt : DateTime
  recordedAt : DateTime
  producer : String
  idempotencyKey : String
  causationId : Option String
  correlationId : Option String
  previousHash : String
  eventHash : String
  deriving DecidableEq

/-- The row with its new column, which may be NULL. -/
structure WidenedRow where
  columns : LegacyRow
  producerRole : Option ProducerRole
  deriving DecidableEq

/-- `dt_events` without the column, or with it. -/
inductive EventTable where
  | legacy (rows : List LegacyRow)
  | widened (rows : List WidenedRow)
  deriving DecidableEq

/-- The event in a row, under a role. -/
def LegacyRow.envelope (row : LegacyRow) (role : ProducerRole) : EventEnvelope :=
  { eventId := row.eventId
    twinId := row.twinId
    eventType := row.eventType
    plane := row.plane
    payload := row.payload
    occurredAt := row.occurredAt
    recordedAt := row.recordedAt
    producer := row.producer
    producerRole := role
    idempotencyKey := row.idempotencyKey
    schemaVersion := row.schemaVersion
    sequence := row.sequence
    causationId := row.causationId
    correlationId := row.correlationId
    previousHash := row.previousHash
    eventHash := row.eventHash }

namespace EventTable

/-- `ALTER TABLE dt_events ADD COLUMN producer_role TEXT`. -/
def addRoleColumn : EventTable → EventTable
  | legacy rows => widened (rows.map fun row => ⟨row, none⟩)
  | widened rows => widened rows

/-- `UPDATE dt_events SET producer_role = ? WHERE event_type = ?`. -/
def setRole (eventType : String) (role : ProducerRole) : EventTable → EventTable
  | legacy rows => legacy rows
  | widened rows => widened (Store.updateWhere (fun row => row.columns.eventType = eventType)
      (fun row => { row with producerRole := some role }) rows)

/-- `SELECT DISTINCT event_type`. -/
def eventTypes : EventTable → List String
  | legacy rows => (rows.map (·.eventType)).dedup
  | widened rows => (rows.map (·.columns.eventType)).dedup

/-- `SELECT COUNT(*) … WHERE producer_role IS NULL`. -/
def unresolved : EventTable → Nat
  | legacy _ => 0
  | widened rows => rows.countP fun row => row.producerRole.isNone

/-- The round of one event type. -/
def fillRole (eventType : String) : EStateM PyError EventTable Unit := do
  let role ← fromExcept (soleEventOwner eventType)
  modify (setRole eventType role)

/-- The statements of the migration's transaction. -/
def upcast : EStateM PyError EventTable Unit := do
  modify addRoleColumn
  (← get).eventTypes.forM fillRole
  if (← get).unresolved ≠ 0 then
    throw (.integrityError "legacy producer-role migration was incomplete")

/-- `_migrate_legacy_producer_roles`. -/
def migrateLegacyProducerRoles : EStateM PyError EventTable Unit := do
  match ← get with
  | widened _ => pure ()
  | legacy _ => transaction upcast

/-- The event of a row, which has a role. -/
def widenedEnvelope (row : WidenedRow) : Except PyError EventEnvelope :=
  match row.producerRole with
  | some role => .ok (row.columns.envelope role)
  | none => .error (.valueError "None is not a valid ProducerRole")

/-- The rows as the store reads them. -/
def envelopes : EventTable → Except PyError (List EventEnvelope)
  | legacy _ => .error (.databaseError "no such column: producer_role")
  | widened rows => rows.mapM widenedEnvelope

/-- The rows of the types an index is made of. -/
def replayed : EventTable → EventTable
  | legacy rows => legacy (rows.filter fun row => Store.replayedTypes.contains row.eventType)
  | widened rows =>
    widened (rows.filter fun row => Store.replayedTypes.contains row.columns.eventType)

end EventTable

/-- A database file; `dependencyIndex` is the version its metadata holds of
the index. -/
structure Database where
  events : EventTable
  snapshots : List SnapshotRecord := []
  outbox : List OutboxRow := []
  dependencies : List DependencyRow := []
  invalidations : List InvalidationRow := []
  dependencyIndex : Option String := none
  deriving DecidableEq

namespace Database

/-- The tables of the file. -/
def store (d : Database) : Except PyError Store := do
  let events ← d.events.envelopes
  .ok { events := events
        snapshots := d.snapshots
        outbox := d.outbox
        dependencies := d.dependencies
        invalidations := d.invalidations }

/-- `_migrate_dependency_index` on the file. -/
def migrateDependencyIndex : EStateM PyError Database Unit := do
  let d ← get
  if d.dependencyIndex = some "v2" then pure ()
  else
    let s ← fromExcept { d with events := d.events.replayed }.store
    match Store.migrateDependencyIndex d.dependencyIndex s with
    | .ok version s' => set { d with
        dependencies := s'.dependencies
        invalidations := s'.invalidations
        dependencyIndex := version }
    | .error error _ => throw error

/-- The migrations of `SQLiteEventStore.__init__`. -/
def connect : EStateM PyError Database Unit := do
  onPart (·.events) (fun events d => { d with events := events })
    EventTable.migrateLegacyProducerRoles
  migrateDependencyIndex

end Database

/-! ## The roles -/

/-- The event is the row's, under the sole owner of its type. -/
def UpcastOf (row : LegacyRow) (e : EventEnvelope) : Prop :=
  ∃ role, soleEventOwner row.eventType = .ok role ∧ e = row.envelope role

/-- Every registered type has one owner. -/
theorem exists_soleEventOwner {eventType : String} (h : eventType ∈ eventOwners.map (·.1)) :
    ∃ role, soleEventOwner eventType = .ok role := by
  have hall : ∀ eventType ∈ eventOwners.map (·.1), ∃ role, soleEventOwner eventType = .ok role := by
    decide +kernel
  exact hall eventType h

namespace EventTable

variable {rows : List LegacyRow} {t t' : EventTable}

/-- What a round does where the type has its owner. -/
def filled (t : EventTable) (eventType : String) : EventTable :=
  match soleEventOwner eventType with
  | .ok role => setRole eventType role t
  | .error _ => t

theorem returns_fillRole {eventType : String} : Returns (fillRole eventType) t ⟨⟩ t' ↔
    (∃ role, soleEventOwner eventType = .ok role) ∧ t' = t.filled eventType := by
  simp only [fillRole, filled, returns_bind, returns_fromExcept, returns_modify]
  constructor
  · rintro ⟨role, _, ⟨hrole, rfl⟩, rfl⟩
    exact ⟨⟨role, hrole⟩, by rw [hrole]⟩
  · rintro ⟨⟨role, hrole⟩, rfl⟩
    exact ⟨role, t, ⟨hrole, rfl⟩, by rw [hrole]⟩

/-- A row after the rounds of some types. -/
def settled (types : List String) (row : WidenedRow) : WidenedRow :=
  if row.columns.eventType ∈ types then
    { row with producerRole := (soleEventOwner row.columns.eventType).toOption }
  else row

/-- The rounds fill the rows of their types. -/
theorem foldl_filled {types : List String} (howned : ∀ eventType ∈ types, ∃ role,
    soleEventOwner eventType = .ok role) (rows : List WidenedRow) :
    types.foldl filled (widened rows) = widened (rows.map (settled types)) := by
  induction types generalizing rows with
  | nil =>
    have hsettled : settled [] = id := by
      funext row
      simp [settled]
    rw [hsettled, List.map_id]
    rfl
  | cons eventType types ih =>
    obtain ⟨role, hrole⟩ := howned eventType List.mem_cons_self
    have hround : (widened rows).filled eventType = widened (Store.updateWhere
        (fun row => row.columns.eventType = eventType)
        (fun row => { row with producerRole := some role }) rows) := by
      rw [filled, hrole]
      rfl
    have hrest := ih fun other hother => howned other (List.mem_cons_of_mem _ hother)
    rw [List.foldl_cons, hround, hrest, Store.updateWhere, List.map_map]
    refine congrArg widened (List.map_congr_left fun row _ => ?_)
    by_cases htype : row.columns.eventType = eventType
    · by_cases hrest : eventType ∈ types <;> simp [settled, htype, hrest, hrole, Except.toOption]
    · by_cases hrest : row.columns.eventType ∈ types <;> simp [settled, htype, hrest]

/-- **The migration** runs through where every type has its owner, and
then every row is under it. -/
theorem returns_upcast : Returns upcast (legacy rows) ⟨⟩ t ↔
    (∀ row ∈ rows, ∃ role, soleEventOwner row.eventType = .ok role) ∧
      t = widened (rows.map fun row => ⟨row, (soleEventOwner row.eventType).toOption⟩) := by
  have htypes : (addRoleColumn (legacy rows)).eventTypes = (rows.map (·.eventType)).dedup := by
    simp only [addRoleColumn, eventTypes, List.map_map]
    rfl
  have hfilled : (∀ row ∈ rows, ∃ role, soleEventOwner row.eventType = .ok role) →
      (rows.map (·.eventType)).dedup.foldl filled (addRoleColumn (legacy rows)) =
        widened (rows.map fun row => ⟨row, (soleEventOwner row.eventType).toOption⟩) := by
    intro howned
    rw [addRoleColumn, foldl_filled (by simpa using howned), List.map_map]
    refine congrArg widened (List.map_congr_left fun row hrow => ?_)
    have hmem : row.eventType ∈ (rows.map (·.eventType)).dedup :=
      List.mem_dedup.2 (List.mem_map_of_mem hrow)
    exact if_pos hmem
  have hnone : (∀ row ∈ rows, ∃ role, soleEventOwner row.eventType = .ok role) →
      unresolved (widened (rows.map fun row =>
        ⟨row, (soleEventOwner row.eventType).toOption⟩)) = 0 := by
    intro howned
    rw [unresolved, List.countP_map, List.countP_eq_zero]
    intro row hrow
    obtain ⟨role, hrole⟩ := howned row hrow
    simp [hrole, Except.toOption]
  simp only [upcast, returns_bind, returns_modify, returns_get, returns_ite, returns_throw,
    and_false, false_or, returns_pure, true_and,
    returns_forM fun _ _ _ => returns_fillRole]
  constructor
  · rintro ⟨_, _, rfl, _, _, ⟨rfl, rfl⟩, _, _, ⟨howned, rfl⟩, _, _, ⟨rfl, rfl⟩, -, rfl⟩
    rw [htypes] at howned ⊢
    have howned' : ∀ row ∈ rows, ∃ role, soleEventOwner row.eventType = .ok role := by
      simpa using howned
    exact ⟨howned', hfilled howned'⟩
  · rintro ⟨howned, rfl⟩
    refine ⟨(), _, rfl, _, _, ⟨rfl, rfl⟩, (), _, ⟨?_, rfl⟩, _, _, ⟨rfl, rfl⟩, ?_, ?_⟩
    · rw [htypes]
      simpa using howned
    · rw [htypes, hfilled howned, hnone howned]
      simp
    · rw [htypes, hfilled howned]

/-- A table with the column is left alone. -/
theorem migrate_legacy : migrateLegacyProducerRoles (legacy rows) =
    transaction upcast (legacy rows) := rfl

/-- **A type without its owner undoes the migration.** -/
theorem migrate_error (hrow : ∃ row ∈ rows, ∀ role, soleEventOwner row.eventType ≠ .ok role) :
    ∃ error, migrateLegacyProducerRoles (legacy rows) = .error error (legacy rows) := by
  rw [migrate_legacy]
  cases hresult : transaction upcast (legacy rows) with
  | ok _ t =>
    obtain ⟨howned, -⟩ := returns_upcast.1 (returns_transaction.1 hresult)
    obtain ⟨row, hmem, hnone⟩ := hrow
    obtain ⟨role, hrole⟩ := howned row hmem
    exact absurd hrole (hnone role)
  | error error t => exact ⟨error, by rw [transaction_error hresult]⟩

/-- The migrated rows are read as the rows were, under their owners. -/
theorem envelopes_migrated
    (howned : ∀ row ∈ rows, ∃ role, soleEventOwner row.eventType = .ok role) :
    ∃ es, envelopes (widened (rows.map fun row =>
        ⟨row, (soleEventOwner row.eventType).toOption⟩)) = .ok es ∧
      List.Forall₂ UpcastOf rows es := by
  induction rows with
  | nil => exact ⟨[], rfl, .nil⟩
  | cons row rows ih =>
    obtain ⟨role, hrole⟩ := howned row List.mem_cons_self
    obtain ⟨es, hes, hrest⟩ := ih fun other hother => howned other (List.mem_cons_of_mem _ hother)
    have hread : widenedEnvelope ⟨row, (soleEventOwner row.eventType).toOption⟩ =
        .ok (row.envelope role) := by
      rw [hrole]
      rfl
    refine ⟨row.envelope role :: es, ?_, .cons ⟨role, hrole, rfl⟩ hrest⟩
    rw [envelopes] at hes ⊢
    rw [List.map_cons, List.mapM_cons, hread, hes]
    rfl

/-- Where all rows are read, so are those of some types. -/
theorem envelopes_replayed {rows : List WidenedRow} {es : List EventEnvelope}
    (h : envelopes (widened rows) = .ok es) :
    ∃ es', envelopes (replayed (widened rows)) = .ok es' ∧ es' ⊆ es := by
  induction rows generalizing es with
  | nil => exact ⟨[], rfl, List.nil_subset _⟩
  | cons row rows ih =>
    rw [envelopes, List.mapM_cons] at h
    obtain ⟨e, he, hrest⟩ := bind_eq_ok.1 h
    obtain ⟨rest, hread, hes⟩ := bind_eq_ok.1 hrest
    obtain rfl := Except.ok.inj hes
    obtain ⟨es', hes', hsub⟩ := ih hread
    by_cases htype : Store.replayedTypes.contains row.columns.eventType = true
    · refine ⟨e :: es', ?_, List.cons_subset_cons e hsub⟩
      rw [replayed, envelopes] at hes' ⊢
      simp only [List.filter_cons, htype, if_true, List.mapM_cons, he, hes', bind, Except.bind]
      rfl
    · refine ⟨es', ?_, List.subset_cons_of_subset e hsub⟩
      rw [replayed] at hes' ⊢
      simpa only [List.filter_cons, htype, Bool.false_eq_true, if_false] using hes'

end EventTable

/-! ## Streams in whatever order their rows came -/

namespace Store

variable {s s' : Store} {twinId : String}

/-- A row of the greatest sequence stays last. -/
theorem bySequence_concat {rows : List EventEnvelope} {r : EventEnvelope}
    (hlast : ∀ row ∈ rows, row.sequence ≤ r.sequence) :
    bySequence (rows ++ [r]) = bySequence rows ++ [r] := by
  have hinsert : ∀ (row : EventEnvelope) (l : List EventEnvelope), row.sequence ≤ r.sequence →
      (l ++ [r]).orderedInsert (fun a b => a.sequence ≤ b.sequence) row =
        l.orderedInsert (fun a b => a.sequence ≤ b.sequence) row ++ [r] := by
    intro row l hle
    induction l with
    | nil => simp [hle]
    | cons b l ih =>
      by_cases hb : row.sequence ≤ b.sequence
      · simp [hb]
      · simp [hb, ih]
  induction rows with
  | nil => rfl
  | cons row rows ih =>
    have hrest := ih fun other hother => hlast other (List.mem_cons_of_mem _ hother)
    rw [bySequence] at hrest ⊢
    rw [List.cons_append, List.insertionSort_cons, hrest,
      hinsert row _ (hlast row List.mem_cons_self)]
    rfl

theorem mem_bySequence {rows : List EventEnvelope} {row : EventEnvelope} :
    row ∈ bySequence rows ↔ row ∈ rows := List.mem_insertionSort _

variable [Digest]

/-- Every stream is a chain, and its times can be read. -/
structure Verifiable (s : Store) : Prop where
  chained : ∀ twinId, Chained (bySequence (s.rowsOf twinId))
  aware : ∀ row ∈ s.events, Aware row

/-- In a chain a sequence belongs to one event. -/
theorem eq_of_sequence {es : List EventEnvelope} {p : Int × String} {a b : EventEnvelope}
    (h : Linked Follows position p es) (ha : a ∈ es) (hb : b ∈ es)
    (hsequence : a.sequence = b.sequence) : a = b := by
  obtain ⟨i, hi⟩ := List.mem_iff_getElem?.1 ha
  obtain ⟨j, hj⟩ := List.mem_iff_getElem?.1 hb
  have hia := sequence_of_getElem? h hi
  have hjb := sequence_of_getElem? h hj
  obtain rfl : i = j := by omega
  exact Option.some.inj (hi.symm.trans hj)

/-- The newest row is the last of the chain. -/
theorem newestRow_of_sorted (h : Chained (bySequence (s.rowsOf twinId))) :
    s.newestRow twinId = (bySequence (s.rowsOf twinId)).getLast? := by
  rw [← greatest_sequence h, newestRow]
  cases hmax : greatest (fun row => row.sequence) (s.rowsOf twinId) with
  | none =>
    rw [greatest_eq_none.1 hmax]
    rfl
  | some newest =>
    have hnewest : newest ∈ s.rowsOf twinId := greatest_mem hmax
    cases hlast : greatest (fun row => row.sequence) (bySequence (s.rowsOf twinId)) with
    | none =>
      rw [greatest_eq_none] at hlast
      have hmem := mem_bySequence.2 hnewest
      rw [hlast] at hmem
      cases hmem
    | some last =>
      have hmem : last ∈ bySequence (s.rowsOf twinId) := greatest_mem hlast
      have hle : newest.sequence ≤ last.sequence :=
        le_of_greatest (mem_bySequence.2 hnewest) hlast
      have hge : last.sequence ≤ newest.sequence :=
        le_of_greatest (mem_bySequence.1 hmem) hmax
      rw [eq_of_sequence h (mem_bySequence.2 hnewest) hmem (le_antisymm hle hge)]

theorem head_of_sorted (h : Chained (bySequence (s.rowsOf twinId))) :
    s.head twinId = endOf position (0, "") (bySequence (s.rowsOf twinId)) := by
  rw [head, newestRow_of_sorted h, endOf]
  cases (bySequence (s.rowsOf twinId)).getLast? <;> rfl

namespace Verifiable

/-- **`verify_chain` accepts every stream.** -/
theorem verifyChain_eq (h : s.Verifiable) (twinId : String) : s.verifyChain twinId = .ok true := by
  have hall : (s.rowsOf twinId).filter
      (fun row => 0 < row.sequence && within none row.sequence && true) = s.rowsOf twinId := by
    rw [List.filter_eq_self]
    intro row hrow
    simpa [within] using (mem_sequence (h.chained twinId) (mem_bySequence.2 hrow)).1
  have hread : (bySequence (s.rowsOf twinId)).mapM rowToEvent =
      .ok ((bySequence (s.rowsOf twinId)).map decode) :=
    mapM_rowToEvent_eq_ok.2
      ⟨fun row hrow => h.aware row (mem_rowsOf.1 (mem_bySequence.1 hrow)).1, rfl⟩
  have hlinked : Chained ((bySequence (s.rowsOf twinId)).map decode) :=
    (linked_map (fun _ _ => follows_decode) fun _ => rfl).2 (h.chained twinId)
  have hbound : bindUpTo none = .ok none := rfl
  simp only [verifyChain, load, hbound, bind, Except.bind, List.isEmpty_nil, Bool.true_or, hall,
    hread]
  exact verifyFrom_eq hlinked

theorem congr (h : s.Verifiable) (hevents : s'.events = s.events) : s'.Verifiable where
  chained twinId := by
    rw [rowsOf, hevents]
    exact h.chained twinId
  aware := by
    rw [hevents]
    exact h.aware

/-- **A fresh append keeps the chains.** -/
theorem fresh {e r : EventEnvelope} {x : Int} {now : Instant} (h : s.Verifiable)
    (hfresh : s.Fresh e x now r s') (haware : e.occurredAt.naive = false) : s'.Verifiable where
  chained twinId := by
    rw [hfresh.rowsOf_eq]
    split
    · rename_i htwin
      have hchain := h.chained twinId
      have hhead := head_of_sorted (h.chained e.twinId)
      rw [htwin] at hhead
      have hfollows : Follows (endOf position (0, "") (bySequence (s.rowsOf twinId))) r := by
        rw [← hhead, hfresh.sealed, ← hfresh.head, htwin]
        exact follows_sealAt
      have hlast : ∀ row ∈ s.rowsOf twinId, row.sequence ≤ r.sequence := by
        intro row hrow
        have hle := (mem_sequence hchain (mem_bySequence.2 hrow)).2
        have hend := endOf_sequence hchain
        have hnext := hfollows.sequence
        omega
      rw [bySequence_concat hlast]
      exact linked_concat.2 ⟨hchain, hfollows⟩
    · exact h.chained twinId
  aware := by
    rw [hfresh.events_eq]
    intro row hrow
    rcases List.mem_append.1 hrow with hrow | hrow
    · exact h.aware row hrow
    · rw [List.mem_singleton.1 hrow, hfresh.sealed]
      exact ⟨haware, rfl⟩

end Verifiable

end Store

/-! ## What comes later -/

/-- On an opened store: a call of a connection, or another opening that finds
an index of version `marker`. -/
inductive LaterStep where
  | call (op : StoreOp)
  | rebuildIndex (marker : Option String)

namespace LaterStep

variable [Digest] {s : Store}

def exec : LaterStep → Store → Store
  | call op, s => finalState op.exec s
  | rebuildIndex marker, s => finalState (Store.migrateDependencyIndex marker) s

/-- Appended events carry an aware time. -/
def Allowed (s : Store) : LaterStep → Prop
  | call op => TimesAware { store := s } op
  | rebuildIndex _ => True

end LaterStep

namespace Store

variable {s : Store}

/-- A rebuilding, whether it returns or raises, leaves the events alone. -/
theorem keeps_migrateDependencyIndex (rows : List EventEnvelope) (marker : Option String) :
    Keeps (fun s : Store => s.events = rows) (migrateDependencyIndex marker) := by
  have hindex : ∀ e, Keeps (fun s : Store => s.events = rows) (indexDependencies e) := fun e =>
    keeps_ite (keeps_modify fun _ hs => hs)
      (keeps_bind keeps_fromExcept fun _ => keeps_modify fun _ hs => hs)
  have hround : ∀ row, Keeps (fun s : Store => s.events = rows) (reindex row) := fun row =>
    keeps_bind keeps_fromExcept fun e => hindex e
  unfold migrateDependencyIndex
  split_ifs
  · exact keeps_pure
  · refine keeps_transaction (keeps_bind (keeps_modify fun _ hs => hs) fun _ =>
      keeps_bind keeps_get fun _ => keeps_bind (keeps_forM hround) fun _ => keeps_pure)

variable [Digest]

/-- **One later step keeps the chains.** -/
theorem Verifiable.step {l : LaterStep} (h : s.Verifiable) (hallowed : l.Allowed s) :
    (l.exec s).Verifiable := by
  cases l with
  | call op =>
    rcases step_cases { store := s } op with ⟨e, x, now, fault, r, rfl, hfresh, -⟩ |
      ⟨snapshot, rfl, hsaved⟩ | hquiet
    · exact h.fresh hfresh hallowed
    · have hevents := congrArg Store.events hsaved.store
      exact h.congr hevents
    · exact h.congr hquiet.events
  | rebuildIndex marker =>
    exact h.congr (keeps_migrateDependencyIndex s.events marker s rfl)

end Store

/-! ## A version 1 ledger -/

/-- A twin's events in the order of their sequences, read under a role. -/
def readAs (role : ProducerRole) (rows : List LegacyRow) (twinId : String) :
    Except PyError (List EventEnvelope) :=
  (Store.bySequence ((rows.filter fun row => row.twinId = twinId).map
    (·.envelope role))).mapM Store.rowToEvent

/-- **A version 1 ledger**: its types are registered, its chains verify and
its streams replay. Its rows say no role; they are read under any. -/
structure LegacyLedger [Digest] (role : ProducerRole) (rows : List LegacyRow) : Prop where
  schemaVersion : ∀ row ∈ rows, row.schemaVersion = "argo.dt.event/v1"
  registered : ∀ row ∈ rows, row.eventType ∈ eventOwners.map (·.1)
  verifies : ∀ twinId, (readAs role rows twinId >>= Store.verifyFrom (1, "")) = .ok true
  replays : ∀ twinId, ∃ state, (readAs role rows twinId >>= folded { twinId := twinId }) = .ok state

/-- The source claims of an issued projection, where it names them, are
something to go through. -/
def SourcesListed (rows : List LegacyRow) : Prop :=
  ∀ row ∈ rows, row.eventType = "ProjectionIssued" →
    ∃ items, (row.payload.listD "source_claim_ids").pyIter = .ok items

/-- A version 1 event under another role. -/
def recast (role : ProducerRole) (e : EventEnvelope) : EventEnvelope :=
  if e.schemaVersion = "argo.dt.event/v1" then { e with producerRole := role } else e

section Recast

variable {role : ProducerRole} {e : EventEnvelope}

@[simp] theorem recast_twinId : (recast role e).twinId = e.twinId := by
  unfold recast
  split <;> rfl

@[simp] theorem recast_sequence : (recast role e).sequence = e.sequence := by
  unfold recast
  split <;> rfl

/-- **The role is no part of a version 1 hash.** -/
theorem hashMaterial_recast : (recast role e).hashMaterial = e.hashMaterial := by
  unfold recast
  split
  · rename_i hversion
    simp only [EventEnvelope.hashMaterial, hversion, if_true]
  · rfl

theorem follows_recast [Digest] {p : Int × String} :
    Store.Follows p (recast role e) ↔ Store.Follows p e := by
  have hprevious : (recast role e).previousHash = e.previousHash := by
    unfold recast
    split <;> rfl
  have hhash : (recast role e).eventHash = e.eventHash := by
    unfold recast
    split <;> rfl
  constructor
  · rintro ⟨hseq, hprev, hmaterial⟩
    rw [recast_sequence] at hseq
    rw [hprevious] at hprev
    rw [hhash, hashMaterial_recast] at hmaterial
    exact ⟨hseq, hprev, hmaterial⟩
  · rintro ⟨hseq, hprev, hmaterial⟩
    exact ⟨by rw [recast_sequence, hseq], by rw [hprevious, hprev],
      by rw [hhash, hashMaterial_recast, hmaterial]⟩

theorem position_recast : Store.position (recast role e) = Store.position e := by
  unfold recast
  split <;> rfl

theorem aware_recast : Store.Aware (recast role e) ↔ Store.Aware e := by
  unfold recast
  split
  · exact ⟨fun h => ⟨h.1, h.2⟩, fun h => ⟨h.1, h.2⟩⟩
  · rfl

theorem edgesOf_recast : Store.edgesOf (Store.decode (recast role e)) =
    Store.edgesOf (Store.decode e) := by
  unfold recast
  split <;> rfl

end Recast

/-- The upcast events, under one role again, are the rows under it. -/
theorem map_recast {rows : List LegacyRow} {es : List EventEnvelope} (role : ProducerRole)
    (hversion : ∀ row ∈ rows, row.schemaVersion = "argo.dt.event/v1")
    (hupcast : List.Forall₂ UpcastOf rows es) :
    es.map (recast role) = rows.map (·.envelope role) := by
  induction hupcast with
  | nil => rfl
  | @cons row e rows es hrow hrest ih =>
    obtain ⟨owner, -, rfl⟩ := hrow
    have hhead : recast role (row.envelope owner) = row.envelope role :=
      if_pos (hversion row List.mem_cons_self)
    rw [List.map_cons, List.map_cons, hhead, ih fun other hother =>
      hversion other (List.mem_cons_of_mem _ hother)]

theorem eventType_of_projectionIssued {e : EventEnvelope} (hkind : e.kind = .projectionIssued) :
    e.eventType = "ProjectionIssued" := by
  have hother : ∀ {p : Prop} [Decidable p] {a b : EventKind}, a ≠ .projectionIssued →
      (if p then a else b) = .projectionIssued → b = .projectionIssued := by
    intro p _ a b hne h
    rcases ite_eq_iff.1 h with ⟨-, h⟩ | ⟨-, h⟩
    · exact absurd h hne
    · exact h
  rw [EventEnvelope.kind, EventKind.ofType] at hkind
  iterate 13 replace hkind := hother (by decide) hkind
  rcases ite_eq_iff.1 hkind with ⟨htype, -⟩ | ⟨-, hkind⟩
  · exact htype
  · iterate 2 replace hkind := hother (by decide) hkind
    cases hkind

/-- An accepted event can be indexed; of a projection its payload decides. -/
theorem edgesOf_of_accepts {e : EventEnvelope} {s : TwinState} (h : Accepts e s)
    (hsources : e.eventType = "ProjectionIssued" →
      ∃ items, (e.payload.listD "source_claim_ids").pyIter = .ok items) :
    ∃ edges, Store.edgesOf e = .ok edges := by
  obtain ⟨-, -, hallowed⟩ := h
  unfold Allowed at hallowed
  unfold Store.edgesOf
  cases hkind : e.kind with
  | claimProposed =>
    simp only [hkind] at hallowed
    obtain ⟨-, -, ⟨references, hreferences, -⟩, -⟩ := hallowed
    rw [listD_of_requireList hreferences]
    exact ⟨_, rfl⟩
  | entityLinked =>
    simp only [hkind] at hallowed
    obtain ⟨-, -, ⟨references, hreferences, -⟩, -⟩ := hallowed
    rw [listD_of_requireList hreferences]
    exact ⟨_, rfl⟩
  | contradictionDetected =>
    simp only [hkind] at hallowed
    obtain ⟨-, -, -, claimIds, hclaimIds, -⟩ := hallowed
    rw [listD_of_requireList hclaimIds]
    exact ⟨_, rfl⟩
  | projectionIssued =>
    obtain ⟨items, hitems⟩ := hsources (eventType_of_projectionIssued hkind)
    rw [hitems]
    exact ⟨_, rfl⟩
  | correctionRecorded =>
    dsimp only
    split <;> exact ⟨_, rfl⟩
  | _ => exact ⟨_, rfl⟩

section Opened

variable [Digest] {role : ProducerRole} {rows : List LegacyRow} {s : Store}

omit [Digest] in
/-- A twin's rows under one role are its upcast events under it. -/
theorem readAs_eq (hversion : ∀ row ∈ rows, row.schemaVersion = "argo.dt.event/v1")
    (hupcast : List.Forall₂ UpcastOf rows s.events) (twinId : String) :
    readAs role rows twinId =
      ((Store.bySequence (s.rowsOf twinId)).map (recast role)).mapM Store.rowToEvent := by
  have hrows : (s.rowsOf twinId).map (recast role) =
      (rows.filter fun row => row.twinId = twinId).map (·.envelope role) := by
    have hboth := congrArg (List.filter fun e => decide (e.twinId = twinId))
      (map_recast role hversion hupcast)
    rw [List.filter_map, List.filter_map] at hboth
    simpa only [Function.comp_def, recast_twinId, Store.rowsOf, LegacyRow.envelope] using hboth
  have hsorted : Store.bySequence ((s.rowsOf twinId).map (recast role)) =
      (Store.bySequence (s.rowsOf twinId)).map (recast role) := by
    refine (List.map_insertionSort _ _ (recast role) _ fun a _ b _ => ?_).symm
    rw [recast_sequence, recast_sequence]
  rw [readAs, ← hrows, hsorted]

/-- A verified version 1 ledger verifies under its roles too. -/
theorem LegacyLedger.verifiable (h : LegacyLedger role rows)
    (hupcast : List.Forall₂ UpcastOf rows s.events) : s.Verifiable := by
  have hread : ∀ twinId, (∀ e ∈ Store.bySequence (s.rowsOf twinId), Store.Aware e) ∧
      Store.Chained (Store.bySequence (s.rowsOf twinId)) := by
    intro twinId
    obtain ⟨es, hes, hverify⟩ := bind_eq_ok.1 (h.verifies twinId)
    rw [readAs_eq h.schemaVersion hupcast, Store.mapM_rowToEvent_eq_ok] at hes
    obtain ⟨haware, rfl⟩ := hes
    have hlinked := Store.linked_of_verifyFrom (n := 0) hverify
    rw [linked_map (fun _ _ => Store.follows_decode) fun _ => rfl,
      linked_map (fun _ _ => follows_recast) fun _ => position_recast] at hlinked
    refine ⟨fun e he => ?_, hlinked⟩
    exact aware_recast.1 (haware _ (List.mem_map_of_mem he))
  refine ⟨fun twinId => (hread twinId).2, fun row hrow => ?_⟩
  exact (hread row.twinId).1 row (Store.mem_bySequence.2 (Store.mem_rowsOf.2 ⟨hrow, rfl⟩))

/-- Each of its events can be indexed. -/
theorem LegacyLedger.indexable (h : LegacyLedger role rows) (hsources : SourcesListed rows)
    (hupcast : List.Forall₂ UpcastOf rows s.events) {e : EventEnvelope} (he : e ∈ s.events) :
    ∃ edges, Store.edgesOf (Store.decode e) = .ok edges := by
  obtain ⟨state, hstate⟩ := h.replays e.twinId
  obtain ⟨es, hes, hfolded⟩ := bind_eq_ok.1 hstate
  rw [readAs_eq h.schemaVersion hupcast, Store.mapM_rowToEvent_eq_ok] at hes
  obtain ⟨-, rfl⟩ := hes
  have hlegal := (folded_eq_ok.1 hfolded).1
  have hsorted : e ∈ Store.bySequence (s.rowsOf e.twinId) :=
    Store.mem_bySequence.2 (Store.mem_rowsOf.2 ⟨he, rfl⟩)
  obtain ⟨before, haccepts⟩ :=
    accepts_of_mem hlegal (List.mem_map_of_mem (List.mem_map_of_mem hsorted))
  have hmem : recast role e ∈ rows.map (·.envelope role) :=
    map_recast role h.schemaVersion hupcast ▸ List.mem_map_of_mem he
  obtain ⟨row, hrow, hrecast⟩ := List.mem_map.1 hmem
  rw [← @edgesOf_recast role e]
  refine edgesOf_of_accepts haccepts fun htype => ?_
  rw [← hrecast] at htype ⊢
  obtain ⟨items, hitems⟩ := hsources row hrow htype
  have hread : ((Store.decode (row.envelope role)).payload.listD "source_claim_ids") =
      (row.payload.listD "source_claim_ids").reread := Payload.listD_reread _ _
  rw [hread]
  exact Json.pyIter_reread hitems

omit [Digest] in
/-- The index is rebuilt where every event can be read and indexed. -/
theorem returns_migrateDependencyIndex (haware : ∀ row ∈ s.events, Store.Aware row)
    (hedges : ∀ row ∈ s.events, ∃ edges, Store.edgesOf (Store.decode row) = .ok edges)
    (marker : Option String) :
    ∃ version s', Returns (Store.migrateDependencyIndex marker) s version s' := by
  unfold Store.migrateDependencyIndex
  split_ifs
  · exact ⟨marker, s, returns_pure.2 ⟨rfl, rfl⟩⟩
  have hround : ∀ row ∈ Store.replayed { s with dependencies := [] }, ∀ t,
      ∃ t', Returns (Store.reindex row) t ⟨⟩ t' := by
    intro row hrow t
    have hmem : row ∈ s.events := (Store.mem_replayed.1 hrow).1
    obtain ⟨edges, hedges⟩ := hedges row hmem
    have hindexed : ∃ t', t.indexed (Store.decode row) = .ok t' := by
      unfold Store.indexed
      split
      · exact ⟨_, rfl⟩
      · rw [hedges]
        exact ⟨_, rfl⟩
    obtain ⟨t', ht'⟩ := hindexed
    have hread : Store.rowToEvent row = .ok (Store.decode row) :=
      Store.rowToEvent_eq_ok.2 ⟨haware row hmem, rfl⟩
    refine ⟨t', returns_bind.2 ⟨_, t, returns_fromExcept.2 ⟨hread, rfl⟩, ?_⟩⟩
    exact Store.returns_indexDependencies.2 ht'
  obtain ⟨s', hloop⟩ := exists_returns_forM hround { s with dependencies := [] }
  refine ⟨some "v2", s', ?_⟩
  simp only [returns_transaction, returns_bind, returns_modify, returns_get, returns_pure]
  exact ⟨⟨⟩, _, rfl, _, _, ⟨rfl, rfl⟩, ⟨⟩, _, hloop, trivial, rfl⟩

/-- **The opened file** holds the rows' events under their owners, and its
chains verify. -/
theorem connect_legacy (h : LegacyLedger role rows) (hsources : SourcesListed rows)
    (d : Database) : ∃ d' s, Returns Database.connect { d with events := .legacy rows } ⟨⟩ d' ∧
      d'.store = .ok s ∧ List.Forall₂ UpcastOf rows s.events ∧ s.Verifiable := by
  have howned : ∀ row ∈ rows, ∃ role, soleEventOwner row.eventType = .ok role := fun row hrow =>
    exists_soleEventOwner (h.registered row hrow)
  have hroles : Returns EventTable.migrateLegacyProducerRoles (.legacy rows) ⟨⟩ _ :=
    returns_transaction.2 (EventTable.returns_upcast.2 ⟨howned, rfl⟩)
  obtain ⟨es, hes, hupcast⟩ := EventTable.envelopes_migrated howned
  let widened : EventTable :=
    .widened (rows.map fun row => ⟨row, (soleEventOwner row.eventType).toOption⟩)
  let opened : Store := ⟨es, d.snapshots, d.outbox, d.dependencies, d.invalidations⟩
  have hverifiable : opened.Verifiable := h.verifiable hupcast
  have hstore : Database.store { d with events := widened } = .ok opened := by
    rw [Database.store, hes]
    rfl
  by_cases hcurrent : d.dependencyIndex = some "v2"
  · -- the index is left as it was found
    have hindex : Returns Database.migrateDependencyIndex { d with events := widened } ⟨⟩
        { d with events := widened } := by
      refine returns_bind.2 ⟨_, _, returns_get.2 ⟨rfl, rfl⟩, ?_⟩
      rw [if_pos hcurrent]
      exact returns_pure.2 ⟨rfl, rfl⟩
    refine ⟨_, opened, returns_bind.2 ⟨⟨⟩, { d with events := widened }, ?_, hindex⟩, hstore,
      hupcast, hverifiable⟩
    exact returns_onPart.2 ⟨widened, hroles, rfl⟩
  obtain ⟨replayed, hreplayed, hsub⟩ := EventTable.envelopes_replayed hes
  let indexing : Store := { opened with events := replayed }
  have hindexing : Database.store { d with events := widened.replayed } = .ok indexing := by
    rw [Database.store, hreplayed]
    rfl
  obtain ⟨version, indexed, hindexed⟩ := returns_migrateDependencyIndex (s := indexing)
    (fun row hrow => hverifiable.aware row (hsub hrow))
    (fun row hrow => h.indexable (s := opened) hsources hupcast (hsub hrow)) d.dependencyIndex
  let final : Database := { d with
    events := widened
    dependencies := indexed.dependencies
    invalidations := indexed.invalidations
    dependencyIndex := version }
  let after : Store := { opened with
    dependencies := indexed.dependencies, invalidations := indexed.invalidations }
  have hafter : final.store = .ok after := by
    rw [Database.store, hes]
    rfl
  have hindex : Returns Database.migrateDependencyIndex { d with events := widened } ⟨⟩ final := by
    refine returns_bind.2 ⟨_, _, returns_get.2 ⟨rfl, rfl⟩, ?_⟩
    rw [if_neg hcurrent]
    refine returns_bind.2 ⟨indexing, _, returns_fromExcept.2 ⟨hindexing, rfl⟩, ?_⟩
    rw [Returns] at hindexed
    rw [hindexed]
    rfl
  refine ⟨final, after, returns_bind.2 ⟨⟨⟩, { d with events := widened }, ?_, hindex⟩, hafter,
    hupcast, h.verifiable hupcast⟩
  exact returns_onPart.2 ⟨widened, hroles, rfl⟩

end Opened

/-- **Legacy ledgers upcast.** -/
theorem legacy_upcast [Digest] (d : Database) (rows : List LegacyRow) :
    (∀ role, LegacyLedger role rows → SourcesListed rows →
      ∃ d' s, Returns Database.connect { d with events := .legacy rows } ⟨⟩ d' ∧
        d'.store = .ok s ∧ List.Forall₂ UpcastOf rows s.events ∧
        ∀ later, Reachable (fun s l => LaterStep.exec l s) LaterStep.Allowed s later →
          ∀ twinId, later.verifyChain twinId = .ok true) ∧
    ((∃ row ∈ rows, ∀ role, soleEventOwner row.eventType ≠ .ok role) →
      ∃ error d', Database.connect { d with events := .legacy rows } = .error error d' ∧
        d'.events = .legacy rows) := by
  constructor
  · intro role hledger hsources
    obtain ⟨d', s, hconnect, hstore, hupcast, hverifiable⟩ := connect_legacy hledger hsources d
    refine ⟨d', s, hconnect, hstore, hupcast, fun later hreach twinId => ?_⟩
    have hlater : later.Verifiable :=
      Reachable.invariant hverifiable (fun _ _ hkept hallowed => hkept.step hallowed) hreach
    exact hlater.verifyChain_eq twinId
  · intro hrow
    obtain ⟨error, herror⟩ := EventTable.migrate_error hrow
    refine ⟨error, { d with events := .legacy rows }, ?_, rfl⟩
    simp only [Database.connect, bind, EStateM.bind, onPart, herror]

/-- The row version 1 kept of an event. -/
def LegacyRow.ofEnvelope (e : EventEnvelope) : LegacyRow :=
  { twinId := e.twinId
    sequence := e.sequence
    eventId := e.eventId
    eventType := e.eventType
    plane := e.plane
    schemaVersion := e.schemaVersion
    payload := e.payload
    occurredAt := e.occurredAt
    recordedAt := e.recordedAt
    producer := e.producer
    idempotencyKey := e.idempotencyKey
    causationId := e.causationId
    correlationId := e.correlationId
    previousHash := e.previousHash
    eventHash := e.eventHash }

/-- Events as version 1 appended them from a position on. -/
def legacyRows [Digest] : Int × String → List EventEnvelope → List LegacyRow
  | _, [] => []
  | (sequence, previousHash), e :: es =>
    let sealed := { e with schemaVersion := "argo.dt.event/v1" }.sealAt (sequence + 1) previousHash
      (DateTime.utc 1)
    .ofEnvelope sealed :: legacyRows (sealed.sequence, sealed.eventHash) es

/-- Where one twin has all the rows, its stream decides. -/
theorem legacyLedger_of_only [Digest] {role : ProducerRole} {rows : List LegacyRow}
    (twinId : String) (honly : ∀ row ∈ rows, row.twinId = twinId)
    (hversion : ∀ row ∈ rows, row.schemaVersion = "argo.dt.event/v1")
    (hregistered : ∀ row ∈ rows, row.eventType ∈ eventOwners.map (·.1))
    (hverifies : (readAs role rows twinId >>= Store.verifyFrom (1, "")) = .ok true)
    (hreplays : ∃ state, (readAs role rows twinId >>= folded { twinId := twinId }) = .ok state) :
    LegacyLedger role rows := by
  have hnone : ∀ other, other ≠ twinId → readAs role rows other = .ok [] := by
    intro other hother
    have hempty : (rows.filter fun row => row.twinId = other) = [] := by
      rw [List.filter_eq_nil_iff]
      intro row hrow
      rw [honly row hrow, decide_eq_true_eq]
      exact hother.symm
    rw [readAs, hempty]
    rfl
  refine ⟨hversion, hregistered, fun other => ?_, fun other => ?_⟩
  · by_cases hother : other = twinId
    · rw [hother]
      exact hverifies
    · rw [hnone other hother]
      rfl
  · by_cases hother : other = twinId
    · rw [hother]
      exact hreplays
    · rw [hnone other hother]
      exact ⟨_, rfl⟩

/-- A declared degradation. -/
def declaredDegradation : EventEnvelope :=
  EventEnvelope.new "t" "DegradationDeclared" .authoritative
    (Payload.ofFields [("reason", .str "legacy-fixture")]) "legacy-operations" .operationsService
    "legacy-event-1" none none ⟨0, "event-1"⟩

/-- A projection that says `null` for its source claims. -/
def sourcelessProjection : EventEnvelope :=
  EventEnvelope.new "t" "ProjectionIssued" .projection (Payload.ofFields
    [("projection_id", .str "p1"), ("purpose", .str "care"), ("receipt_hash", .str "sha256:1"),
     ("recipient_id", .str "r1"), ("source_claim_ids", .null)]) "projector" .projectionService
    "key-2" none none ⟨0, "event-2"⟩

theorem legacyLedger_degradation :
    let _ : Digest := checksumDigest
    LegacyLedger .operationsService (legacyRows (0, "") [declaredDegradation]) := by
  intro digest
  exact legacyLedger_of_only "t" (by decide +kernel) (by decide +kernel)
    (by decide +kernel) (by decide +kernel) (by decide +kernel)

theorem legacyLedger_projection :
    let _ : Digest := checksumDigest
    LegacyLedger .operationsService (legacyRows (0, "") [firstEvent, sourcelessProjection]) := by
  intro digest
  exact legacyLedger_of_only "t" (by decide +kernel) (by decide +kernel)
    (by decide +kernel) (by decide +kernel) (by decide +kernel)

/-- A version 2 append of a time without an offset, the beginning of 2026. -/
def naiveAppend : LaterStep :=
  .call (.append { declaredDegradation with
    eventId := "event-2", idempotencyKey := "key-2", occurredAt := ⟨63902822400000000, none⟩ } 1
    63902822400000001 none)

/-- **A replayed ledger may fail to open, and an opened one to verify**: a
projection may name nothing its sources can be read from, and the store
takes an event whose time it cannot read back. -/
theorem legacy_upcast_fails :
    let _ : Digest := checksumDigest
    let issued := legacyRows (0, "") [firstEvent, sourcelessProjection]
    let declared := legacyRows (0, "") [declaredDegradation]
    (LegacyLedger .operationsService issued ∧
      ∀ d', ¬ Returns Database.connect { events := .legacy issued } ⟨⟩ d') ∧
    LegacyLedger .operationsService declared ∧
      ∃ d' s, Returns Database.connect { events := .legacy declared } ⟨⟩ d' ∧ d'.store = .ok s ∧
        (naiveAppend.exec s).verifyChain "t" ≠ .ok true := by
  intro digest issued declared
  refine ⟨⟨legacyLedger_projection, fun d' hreturns => ?_⟩, legacyLedger_degradation, ?_⟩
  · have hraises :
        (outcome Database.connect { events := .legacy issued }).toOption.isNone = true := by
      decide +kernel
    rw [outcome_eq_ok.2 ⟨d', hreturns⟩] at hraises
    cases hraises
  · have hlater :
        (match Database.connect { events := .legacy declared } with
          | .ok _ d' => d'.store.toOption.map fun s =>
            decide ((naiveAppend.exec s).verifyChain "t" = .ok true)
          | .error _ _ => none) = some false := by
      decide +kernel
    cases hconnect : Database.connect { events := .legacy declared } with
    | ok u d' =>
      rw [hconnect] at hlater
      cases hstore : d'.store with
      | ok s =>
        simp only [hstore, Except.toOption, Option.map_some, Option.some.injEq,
          decide_eq_false_iff_not] at hlater
        exact ⟨d', s, hconnect, hstore, hlater⟩
      | error error => simp [hstore, Except.toOption] at hlater
    | error error d' =>
      rw [hconnect] at hlater
      cases hlater

/-- A row of a type without an owner. -/
def unownedRow : LegacyRow :=
  .ofEnvelope { declaredDegradation with eventType := "SensorCalibrated" }

theorem legacy_upcast_degradation :
    let _ : Digest := checksumDigest
    let declared := legacyRows (0, "") [declaredDegradation]
    (∃ d' s, Returns Database.connect { events := .legacy declared } ⟨⟩ d' ∧ d'.store = .ok s ∧
      List.Forall₂ UpcastOf declared s.events ∧ s.verifyChain "t" = .ok true) ∧
    ∃ error d', Database.connect { events := .legacy [unownedRow] } = .error error d' ∧
      d'.events = .legacy [unownedRow] := by
  intro digest declared
  have hsources : SourcesListed declared := by
    have hother : ∀ row ∈ declared, row.eventType ≠ "ProjectionIssued" := by decide +kernel
    exact fun row hrow htype => absurd htype (hother row hrow)
  have hunowned : ∃ row ∈ [unownedRow], ∀ role, soleEventOwner row.eventType ≠ .ok role := by
    refine ⟨unownedRow, List.mem_singleton_self _, fun role hrole => ?_⟩
    have hnone : (soleEventOwner unownedRow.eventType).toOption.isNone = true := by decide +kernel
    rw [hrole] at hnone
    cases hnone
  have hopens := (legacy_upcast { events := .legacy declared } declared).1 .operationsService
    legacyLedger_degradation hsources
  obtain ⟨d', s, hconnect, hstore, hupcast, hverifies⟩ := hopens
  exact ⟨⟨d', s, hconnect, hstore, hupcast, hverifies s .init "t"⟩,
    (legacy_upcast { events := .legacy [] } [unownedRow]).2 hunowned⟩

end ArgoTwin
