import ArgoTwin.Claiming
import ArgoTwin.Library.Sifting
import ArgoTwin.Publication
/-!
# Draining an outbox that holds unpublishable events

A drain takes the first rows that are free, in the order they were
created, and releases those it cannot publish at once; so the next drain
takes them first again. Rows that cannot be published are skipped as long
as fewer of them than the limit stand before a row that can
(`drained_iff`).
-/

namespace ArgoTwin

open Library

/-! ## One relay at work -/

/-- The store of a relay, and what its publisher has taken. -/
structure Dispatch where
  store : Store
  published : List EventEnvelope := []

/-- What a drain reads off the clock: when it claims, and when it marks. -/
structure DrainReadings where
  claimed : Instant
  marked : OutboxRecord → Instant

namespace OutboxRelay

abbrev Method (α : Type) := EStateM PyError Dispatch α

def onStore {α : Type} (x : Store.Method α) : Method α :=
  onPart (·.store) (fun store dispatch => { dispatch with store := store }) x

/-- One record of a drain. The publisher takes an event, or raises an
exception of the name given. -/
def relayRecord (publish : EventEnvelope → Option String) (readings : DrainReadings)
    (record : OutboxRecord) : Method Bool :=
  match publish record.event with
  | some error => do
    let released ← onStore (Store.releaseOutbox record error)
    if released then pure false
    else throw (.integrityError "failed publication lost its outbox lease")
  | none => do
    modify fun dispatch => { dispatch with published := dispatch.published ++ [record.event] }
    let marked ← onStore (Store.markOutboxPublished record (readings.marked record))
    if marked then pure true
    else throw (.integrityError "published event lost its outbox lease")

/-- `OutboxRelay.drain`: how many records were claimed, published, failed. -/
def drain [Digest] (relay : OutboxRelay) (publish : EventEnvelope → Option String) (limit : Int)
    (readings : DrainReadings) : Method (Nat × Nat × Nat) := do
  let records ← onStore
    (Store.claimOutbox relay.leaseOwner limit relay.leaseSeconds readings.claimed)
  let outcomes ← records.mapM (relayRecord publish readings)
  pure (records.length, outcomes.count true, outcomes.count false)

end OutboxRelay

namespace Store

/-- The publisher takes the event of a slot. -/
def accepts (publish : EventEnvelope → Option String) (s : Store) (slot : String × Int × String) :
    Bool :=
  (s.eventAt slot.1 slot.2.1).any fun e => (publish (decode e)).isNone

/-! ## The order of the outbox -/

/-- Where a row stands: its time of creation, and its key. -/
abbrev Standing := String × String × Int × String

def standing (row : OutboxRow) : Standing := (row.createdAt.isoformat, outboxKey row)

/-- The order of sequence and topic. -/
def entryLe (a b : Standing) : Prop :=
  a.2.2.1 < b.2.2.1 ∨ (a.2.2.1 = b.2.2.1 ∧ a.2.2.2 ≤ b.2.2.2)

/-- The order of `claim_outbox`. -/
abbrev standingLe : Standing → Standing → Prop :=
  byText Prod.fst (byText (fun a => a.2.1) entryLe)

instance : Std.Total entryLe where
  total a b := by
    rcases lt_trichotomy a.2.2.1 b.2.2.1 with hlt | heq | hgt
    · exact .inl (.inl hlt)
    · rcases String.le_total a.2.2.2 b.2.2.2 with hle | hle
      · exact .inl (.inr ⟨heq, hle⟩)
      · exact .inr (.inr ⟨heq.symm, hle⟩)
    · exact .inr (.inl hgt)

instance : IsTrans Standing entryLe where
  trans a b c := by
    rintro (hab | ⟨hab, hab'⟩) (hbc | ⟨hbc, hbc'⟩)
    · exact .inl (hab.trans hbc)
    · exact .inl (hbc ▸ hab)
    · exact .inl (hab ▸ hbc)
    · exact .inr ⟨hab.trans hbc, String.le_trans hab' hbc'⟩

theorem standingLe_antisymm {a b : Standing} (hab : standingLe a b) (hba : standingLe b a) :
    a = b := by
  obtain ⟨created, twinId, sequence, topic⟩ := a
  obtain ⟨created', twinId', sequence', topic'⟩ := b
  rcases hab with hlt | ⟨rfl, hab⟩
  · rcases hba with hgt | ⟨heq, -⟩
    · exact absurd hgt (String.lt_asymm hlt)
    · exact absurd hlt (heq ▸ String.lt_irrefl _)
  rcases hba with habsurd | ⟨-, hba⟩
  · exact absurd habsurd (String.lt_irrefl _)
  rcases hab with hlt | ⟨rfl, hab⟩
  · rcases hba with hgt | ⟨heq, -⟩
    · exact absurd hgt (String.lt_asymm hlt)
    · exact absurd hlt (heq ▸ String.lt_irrefl _)
  rcases hba with habsurd | ⟨-, hba⟩
  · exact absurd habsurd (String.lt_irrefl _)
  simp only [entryLe] at hab hba
  rcases hab with hlt | ⟨rfl, hle⟩
  · omega
  rcases hba with hlt | ⟨-, hle'⟩
  · omega
  rw [String.le_antisymm hle hle']

variable {a b : OutboxRow} {s s' : Store} {row : OutboxRow} {now : DateTime}

theorem outboxBefore_iff : outboxBefore a b = true ↔ standingLe (standing a) (standing b) := by
  unfold outboxBefore
  simp only [standingLe, byText, standing, outboxKey, entryLe, Prod.mk.injEq]
  by_cases hcreated : a.createdAt.isoformat = b.createdAt.isoformat
  · by_cases htwin : a.twinId = b.twinId
    · simp [hcreated, htwin]
    · simp [hcreated, htwin]
  · simp [hcreated]

/-- Where the free rows stand, in their order. -/
def queue (s : Store) (now : DateTime) : List Standing := (s.pendingRows now).map standing

theorem pairwise_queue : (s.queue now).Pairwise standingLe := by
  have htotal : Std.Total fun a b : OutboxRow => outboxBefore a b = true :=
    ⟨fun a b => by simpa only [outboxBefore_iff] using Std.Total.total _ _⟩
  have htrans : IsTrans OutboxRow fun a b => outboxBefore a b = true :=
    ⟨fun a b c => by simpa only [outboxBefore_iff] using IsTrans.trans _ _ _⟩
  rw [queue, List.pairwise_map]
  exact (List.pairwise_insertionSort (fun a b => outboxBefore a b = true) _).imp
    fun h => outboxBefore_iff.1 h

/-! ## One drain -/

variable {publish : EventEnvelope → Option String} {readings : DrainReadings}
variable {record : OutboxRecord} {leaseOwner : String} {leaseUntil : DateTime}

/-- The row of a record once its event was published or refused. -/
def settledRow (publish : EventEnvelope → Option String) (readings : DrainReadings)
    (record : OutboxRecord) (row : OutboxRow) : OutboxRow :=
  match publish record.event with
  | some error => asReleased error row
  | none => asPublished (readings.marked record) row

/-- A row after one record was settled. -/
def settle (publish : EventEnvelope → Option String) (readings : DrainReadings)
    (row : OutboxRow) (record : OutboxRecord) : OutboxRow :=
  if outboxKey row = record.slot then settledRow publish readings record row else row

@[simp] theorem settledRow_key :
    outboxKey (settledRow publish readings record row) = outboxKey row := by
  unfold settledRow
  split <;> rfl

@[simp] theorem settledRow_createdAt :
    (settledRow publish readings record row).createdAt = row.createdAt := by
  unfold settledRow
  split <;> rfl

@[simp] theorem settle_key : outboxKey (settle publish readings row record) = outboxKey row := by
  unfold settle
  split_ifs <;> simp

@[simp] theorem settle_createdAt :
    (settle publish readings row record).createdAt = row.createdAt := by
  unfold settle
  split_ifs <;> simp

/-- The tables after one record was settled. -/
def settleOne (publish : EventEnvelope → Option String) (readings : DrainReadings)
    (record : OutboxRecord) (s : Store) : Store :=
  { s with outbox := s.outbox.map fun row => settle publish readings row record }

theorem filed_settleOne (hs : s.Filed) : (settleOne publish readings record s).Filed where
  distinct := hs.distinct
  nodup := by
    have hkeys : (settleOne publish readings record s).outbox.map outboxKey =
        s.outbox.map outboxKey := by
      rw [settleOne, List.map_map]
      exact List.map_congr_left fun row _ => settle_key
    rw [hkeys]
    exact hs.nodup
  events row' hrow' := by
    obtain ⟨row, hrow, rfl⟩ := List.mem_map.1 hrow'
    obtain ⟨e, he, hannounces⟩ := hs.events row hrow
    exact ⟨e, he, settle_key.trans hannounces⟩

/-- The tables with the row of a slot updated. -/
def updateSlot (slot : String × Int × String) (f : OutboxRow → OutboxRow) (s : Store) : Store :=
  { s with outbox := s.outbox.map fun row => if outboxKey row = slot then f row else row }

/-- An update of the record's row, where it is under its lease. -/
theorem returns_updateLeased (hs : s.Filed) (hrow : row ∈ s.outbox)
    (hleased : leased record row = true) {f : OutboxRow → OutboxRow} :
    Returns (updateLeased record f) s true (updateSlot record.slot f s) := by
  obtain ⟨s', hupdate⟩ := outcome_eq_ok.1 ((updateLeased_true_iff hs).2 ⟨row, hrow, hleased⟩)
  have hafter : s' = { s with outbox := updateWhere (leased record) f s.outbox } := by
    rw [← finalState_of_returns hupdate]
    rfl
  have hsame : updateWhere (leased record) f s.outbox =
      s.outbox.map fun row => if outboxKey row = record.slot then f row else row := by
    refine List.map_congr_left fun other hother => ?_
    by_cases hkey : outboxKey other = record.slot
    · obtain rfl := hs.row_unique hrow hother (hkey.trans (leased_iff.1 hleased).1.symm)
      rw [if_pos hleased, if_pos hkey]
    · have hnot : leased record other = false := by
        by_contra hother
        exact hkey (leased_iff.1 (Bool.not_eq_false _ ▸ hother)).1
      rw [hnot, if_neg hkey]
      rfl
  rw [hafter, hsame] at hupdate
  exact hupdate

end Store

namespace OutboxRelay

variable {publish : EventEnvelope → Option String} {readings : DrainReadings}
variable {record : OutboxRecord} {dispatch : Dispatch} {row : OutboxRow}

/-- What the publisher takes of some records. -/
def taken (publish : EventEnvelope → Option String) (records : List OutboxRecord) :
    List EventEnvelope :=
  (records.map (·.event)).filter fun e => (publish e).isNone

/-- **One record of a drain**, under its lease. -/
theorem returns_relayRecord (publish : EventEnvelope → Option String) (readings : DrainReadings)
    (hs : dispatch.store.Filed) (hrow : row ∈ dispatch.store.outbox)
    (hleased : Store.leased record row = true) :
    ∃ done, Returns (relayRecord publish readings record) dispatch done
      { store := Store.settleOne publish readings record dispatch.store
        published := dispatch.published ++ taken publish [record] } := by
  have hupdate : ∀ f, Returns (Store.updateLeased record f) dispatch.store true
      (Store.updateSlot record.slot f dispatch.store) :=
    fun f => Store.returns_updateLeased hs hrow hleased
  unfold relayRecord
  cases hpublish : publish record.event with
  | some error =>
    refine ⟨false, ?_⟩
    simp only [returns_bind, onStore, returns_onPart, returns_ite, returns_pure, returns_throw]
    refine ⟨true, _, ⟨_, hupdate _, rfl⟩, .inl ⟨rfl, trivial, ?_⟩⟩
    simp [Store.settleOne, Store.updateSlot, Store.settle, Store.settledRow, taken, hpublish,
      Store.asReleased]
  | none =>
    refine ⟨true, ?_⟩
    simp only [returns_bind, onStore, returns_onPart, returns_ite, returns_pure, returns_throw,
      returns_modify]
    refine ⟨(), _, rfl, true, _, ⟨_, hupdate _, rfl⟩, .inl ⟨rfl, trivial, ?_⟩⟩
    simp [Store.settleOne, Store.updateSlot, Store.settle, Store.settledRow, taken, hpublish,
      Store.asPublished]

/-- **All records of a drain**, each under its lease. -/
theorem returns_relayRecords (publish : EventEnvelope → Option String) (readings : DrainReadings)
    {records : List OutboxRecord} (hs : dispatch.store.Filed) (hleased : ∀ record ∈ records,
      ∃ row ∈ dispatch.store.outbox, Store.leased record row = true)
    (hslots : (records.map OutboxRecord.slot).Nodup) :
    ∃ outcomes, Returns (records.mapM (relayRecord publish readings)) dispatch outcomes
      { store := records.foldl (fun s record => Store.settleOne publish readings record s)
          dispatch.store
        published := dispatch.published ++ taken publish records } := by
  induction records generalizing dispatch with
  | nil => exact ⟨[], by simp [taken]⟩
  | cons record records ih =>
    obtain ⟨hmine, hothers⟩ := List.forall_mem_cons.1 hleased
    rw [List.map_cons, List.nodup_cons] at hslots
    obtain ⟨row, hrow, hrecord⟩ := hmine
    obtain ⟨done, hfirst⟩ := returns_relayRecord publish readings hs hrow hrecord
    let next : Dispatch :=
      { store := Store.settleOne publish readings record dispatch.store
        published := dispatch.published ++ taken publish [record] }
    have hfiled : next.store.Filed := Store.filed_settleOne hs
    -- the rows of the other records are as they were
    have hleft : ∀ other ∈ records, ∃ row ∈ next.store.outbox, Store.leased other row = true := by
      intro other hother
      obtain ⟨row', hrow', hleased'⟩ := hothers other hother
      refine ⟨row', List.mem_map.2 ⟨row', hrow', ?_⟩, hleased'⟩
      have hslot : Store.outboxKey row' = other.slot := (Store.leased_iff.1 hleased').1
      rw [Store.settle, if_neg]
      intro hsame
      exact hslots.1 (hsame ▸ hslot ▸ List.mem_map_of_mem hother)
    obtain ⟨outcomes, hrest⟩ := ih hfiled hleft hslots.2
    refine ⟨done :: outcomes, ?_⟩
    simp only [List.mapM_cons, returns_bind, returns_pure, List.foldl_cons]
    refine ⟨done, _, hfirst, outcomes, _, hrest, rfl, ?_⟩
    have htaken : taken publish (record :: records) =
        taken publish [record] ++ taken publish records := by
      rw [taken, taken, taken, ← List.filter_append]
      rfl
    rw [htaken, ← List.append_assoc]

end OutboxRelay

namespace Store

variable {publish : EventEnvelope → Option String} {readings : DrainReadings}
variable {s s' : Store} {row : OutboxRow} {record : OutboxRecord} {records : List OutboxRecord}

/-- A row after the records of a drain. -/
def settleAll (publish : EventEnvelope → Option String) (readings : DrainReadings)
    (records : List OutboxRecord) (row : OutboxRow) : OutboxRow :=
  records.foldl (settle publish readings) row

theorem foldl_settleOne : records.foldl (fun s record => settleOne publish readings record s) s =
    { s with outbox := s.outbox.map (settleAll publish readings records) } := by
  induction records generalizing s with
  | nil =>
    have hnone : settleAll publish readings [] = id := rfl
    rw [hnone, List.map_id]
    rfl
  | cons record records ih =>
    rw [List.foldl_cons, ih]
    simp [settleOne, settleAll]

theorem settleAll_same (publish : EventEnvelope → Option String) (readings : DrainReadings)
    (records : List OutboxRecord) (row : OutboxRow) :
    outboxKey (settleAll publish readings records row) = outboxKey row ∧
      (settleAll publish readings records row).createdAt = row.createdAt := by
  induction records generalizing row with
  | nil => exact ⟨rfl, rfl⟩
  | cons record records ih =>
    obtain ⟨hkey, hcreated⟩ := ih (settle publish readings row record)
    exact ⟨hkey.trans settle_key, hcreated.trans settle_createdAt⟩

/-- A row of no record is left alone. -/
theorem settleAll_other (h : ∀ record ∈ records, outboxKey row ≠ record.slot) :
    settleAll publish readings records row = row := by
  induction records with
  | nil => rfl
  | cons record records ih =>
    obtain ⟨hmine, hothers⟩ := List.forall_mem_cons.1 h
    have hfirst : settle publish readings row record = row := if_neg hmine
    rw [settleAll, List.foldl_cons, hfirst]
    exact ih hothers

/-- The row of a record is settled with it. -/
theorem settleAll_mine (hslots : (records.map OutboxRecord.slot).Nodup) (hrecord : record ∈ records)
    (hslot : outboxKey row = record.slot) :
    settleAll publish readings records row = settledRow publish readings record row := by
  induction records generalizing row with
  | nil => cases hrecord
  | cons first records ih =>
    rw [List.map_cons, List.nodup_cons] at hslots
    rcases List.mem_cons.1 hrecord with rfl | hlater
    · have hfirst : settle publish readings row record = settledRow publish readings record row :=
        if_pos hslot
      rw [settleAll, List.foldl_cons, hfirst]
      refine settleAll_other fun other hother hsame => ?_
      rw [settledRow_key, hslot] at hsame
      exact hslots.1 (hsame ▸ List.mem_map_of_mem hother)
    · have hfirst : settle publish readings row first = row := by
        refine if_neg fun hsame => ?_
        rw [hslot] at hsame
        exact hslots.1 (hsame ▸ List.mem_map_of_mem hlater)
      rw [settleAll, List.foldl_cons, hfirst]
      exact ih hslots.2 hlater hslot

/-- What a drain does to a row, `selected` being the rows it claims. -/
structure Handled (publish : EventEnvelope → Option String) (s : Store) (selected : List OutboxRow)
    (row row' : OutboxRow) : Prop where
  standing : standing row' = standing row
  other : row ∉ selected → row' = row
  taken : row ∈ selected → accepts publish s (outboxKey row) = true → row'.publishedAt ≠ none
  refused : row ∈ selected → accepts publish s (outboxKey row) = false →
    row'.publishedAt = none ∧ row'.leaseUntil = none

/-- What a drain does to the outbox and to what was published. -/
structure Drained (publish : EventEnvelope → Option String) (selected : List OutboxRow)
    (d d' : Dispatch) : Prop where
  events : d'.store.events = d.store.events
  rows : ∃ g : OutboxRow → OutboxRow, d'.store.outbox = d.store.outbox.map g ∧
    ∀ row ∈ d.store.outbox, Handled publish d.store selected row (g row)
  kept : d.published ⊆ d'.published
  published : ∀ row ∈ selected, accepts publish d.store (outboxKey row) = true →
    ∃ e ∈ d.store.events, Announces e row ∧ decode e ∈ d'.published

end Store

namespace OutboxRelay

open Store

variable [Digest] {publish : EventEnvelope → Option String} {readings : DrainReadings}
variable {relay : OutboxRelay} {d : Dispatch} {limit : Int} {stop : Instant}

omit [Digest] in
/-- Records and rows, one by one. -/
theorem slots_of_records {selected : List OutboxRow} {records : List OutboxRecord}
    (hrecords : List.Forall₂ (RecordOf d.store relay.leaseOwner) selected records) :
    records.map OutboxRecord.slot = selected.map outboxKey ∧
      (∀ record ∈ records, ∃ row ∈ selected, RecordOf d.store relay.leaseOwner row record) ∧
      ∀ row ∈ selected, ∃ record ∈ records, RecordOf d.store relay.leaseOwner row record := by
  induction hrecords with
  | nil => simp
  | cons hrecord _ ih =>
    obtain ⟨hslots, hrows, hall⟩ := ih
    refine ⟨by rw [List.map_cons, List.map_cons, hslots, hrecord.slot], fun record hmem => ?_,
      fun row hmem => ?_⟩
    · rcases List.mem_cons.1 hmem with rfl | hmem
      · exact ⟨_, List.mem_cons_self, hrecord⟩
      · obtain ⟨row, hrow, hof⟩ := hrows record hmem
        exact ⟨row, List.mem_cons_of_mem _ hrow, hof⟩
    · rcases List.mem_cons.1 hmem with rfl | hmem
      · exact ⟨_, List.mem_cons_self, hrecord⟩
      · obtain ⟨record, hrecord, hof⟩ := hall row hmem
        exact ⟨record, List.mem_cons_of_mem _ hrecord, hof⟩

omit [Digest] in
/-- **What settling the records of a claim comes to.** -/
theorem drained_records (publish : EventEnvelope → Option String) (readings : DrainReadings)
    (hf : d.store.Filed) {selected : List OutboxRow} {records : List OutboxRecord}
    (hin : ∀ row ∈ selected, row ∈ d.store.outbox ∧ row.publishedAt = none)
    (hkeys : (selected.map outboxKey).Nodup)
    (hrecords : List.Forall₂ (RecordOf d.store relay.leaseOwner) selected records)
    (leaseUntil : DateTime) :
    Drained publish selected d
      ⟨records.foldl (fun s record => settleOne publish readings record s)
        (d.store.leaseKeys relay.leaseOwner leaseUntil (selected.map outboxKey)),
        d.published ++ taken publish records⟩ := by
  obtain ⟨hslots, -, hrecordOf⟩ := slots_of_records hrecords
  have hdistinct : (records.map OutboxRecord.slot).Nodup := hslots ▸ hkeys
  have haccepts : ∀ row, ∀ e ∈ d.store.events, Announces e row →
      accepts publish d.store (outboxKey row) = (publish (decode e)).isNone := by
    intro row e he hannounces
    have hevent : d.store.eventAt (outboxKey row).1 (outboxKey row).2.1 = some e :=
      hf.eventAt_announced he hannounces
    rw [accepts, hevent]
    rfl
  rw [foldl_settleOne]
  -- each row goes under its lease first, and is settled with its record then
  refine
    { events := rfl
      rows := ⟨fun row => settleAll publish readings records
        (if outboxKey row ∈ selected.map outboxKey then
          underLease relay.leaseOwner leaseUntil row else row), ?_, fun row hrow => ?_⟩
      kept := List.subset_append_left _ _
      published := fun row hrow haccepted => ?_ }
  · simp [leaseKeys, updateWhere, Function.comp_def]
  · have hmember : outboxKey row ∈ selected.map outboxKey ↔ row ∈ selected := by
      refine ⟨fun h => ?_, List.mem_map_of_mem⟩
      obtain ⟨row', hrow', hkey⟩ := List.mem_map.1 h
      rwa [← hf.row_unique hrow (hin row' hrow').1 hkey]
    have hsettled : row ∈ selected → ∃ e ∈ d.store.events, Announces e row ∧
        ∃ record, record.event = decode e ∧
          settleAll publish readings records (underLease relay.leaseOwner leaseUntil row) =
            settledRow publish readings record (underLease relay.leaseOwner leaseUntil row) := by
      intro hmem
      obtain ⟨record, hrecord, hof⟩ := hrecordOf row hmem
      have hslot : outboxKey (underLease relay.leaseOwner leaseUntil row) = record.slot :=
        hof.slot.symm
      obtain ⟨e, he, hannounces, hevent⟩ := hof
      exact ⟨e, he, hannounces, record, by rw [hevent]; rfl,
        settleAll_mine hdistinct hrecord hslot⟩
    -- a row keeps its place; beside that it was not selected, is published, or is free again
    refine ⟨?_, fun hnot => ?_, fun hmem haccepted => ?_, fun hmem hrefused => ?_⟩
    · have hsame := settleAll_same publish readings records
        (if outboxKey row ∈ selected.map outboxKey then
          underLease relay.leaseOwner leaseUntil row else row)
      rw [standing, standing, hsame.1, hsame.2]
      split_ifs <;> rfl
    · dsimp only
      rw [if_neg (mt hmember.1 hnot)]
      refine settleAll_other fun record hrecord hslot => ?_
      have hmem : record.slot ∈ selected.map outboxKey := hslots ▸ List.mem_map_of_mem hrecord
      exact hnot (hmember.1 (hslot ▸ hmem))
    · obtain ⟨e, he, hannounces, record, hevent, hsame⟩ := hsettled hmem
      rw [haccepts row e he hannounces, Option.isNone_iff_eq_none] at haccepted
      dsimp only
      rw [if_pos (hmember.2 hmem), hsame, settledRow, hevent, haccepted]
      simp [asPublished]
    · obtain ⟨e, he, hannounces, record, hevent, hsame⟩ := hsettled hmem
      rw [haccepts row e he hannounces, Option.isNone_eq_false_iff, Option.isSome_iff_exists]
        at hrefused
      obtain ⟨error, herror⟩ := hrefused
      dsimp only
      rw [if_pos (hmember.2 hmem), hsame, settledRow, hevent, herror]
      exact ⟨(hin row hmem).2, rfl⟩
  · obtain ⟨record, hrecord, e, he, hannounces, hevent⟩ := hrecordOf row hrow
    rw [haccepts row e he hannounces] at haccepted
    refine ⟨e, he, hannounces, List.mem_append_right _ (List.mem_filter.2 ⟨?_, haccepted⟩)⟩
    refine List.mem_map.2 ⟨record, hrecord, ?_⟩
    rw [hevent]
    rfl

/-- **What a drain does.** -/
theorem returns_drain (publish : EventEnvelope → Option String) (hs : d.store.Valid)
    (hf : d.store.Filed) (howner : relay.leaseOwner ≠ "") (hseconds : 1 ≤ relay.leaseSeconds)
    (hlimit : 0 < limit) (hbound : limit < 2 ^ 63)
    (hend : leaseEnd readings.claimed relay.leaseSeconds = .ok stop) :
    ∃ batch d', Returns (relay.drain publish limit readings) d batch d' ∧
      Drained publish
        ((d.store.pendingRows (DateTime.utc readings.claimed)).take limit.toNat) d d' := by
  obtain ⟨records, hrecords, hclaim⟩ := returns_claimOutbox hs hf howner hlimit hbound hseconds hend
  generalize hselected : (d.store.pendingRows (DateTime.utc readings.claimed)).take limit.toNat =
    selected at hrecords hclaim ⊢
  have hin : ∀ row ∈ selected, row ∈ d.store.outbox ∧ row.publishedAt = none := by
    intro row hrow
    rw [← hselected] at hrow
    obtain ⟨hmem, hfree⟩ := mem_pendingRows.1 (List.mem_of_mem_take hrow)
    exact ⟨hmem, hfree.1⟩
  have hkeys : (selected.map outboxKey).Nodup := by
    rw [← hselected]
    exact (nodup_pendingRows hf).sublist ((List.take_sublist _ _).map _)
  obtain ⟨hslots, hrows, -⟩ := slots_of_records hrecords
  let claimed : Dispatch :=
    ⟨d.store.leaseKeys relay.leaseOwner (DateTime.utc stop) (selected.map outboxKey), d.published⟩
  have hleased : ∀ record ∈ records, ∃ row ∈ claimed.store.outbox, leased record row = true := by
    intro record hrecord
    obtain ⟨row, hrow, hof⟩ := hrows record hrecord
    refine ⟨underLease relay.leaseOwner (DateTime.utc stop) row, List.mem_map.2
      ⟨row, (hin row hrow).1, if_pos (decide_eq_true (List.mem_map_of_mem hrow))⟩, ?_⟩
    rw [leased_iff]
    have hslot : outboxKey row = record.slot := hof.slot.symm
    obtain ⟨e, -, -, rfl⟩ := hof
    exact ⟨hslot, (hin row hrow).2, rfl, rfl⟩
  have hfiled : claimed.store.Filed := filed_leaseKeys _ _ _ hf
  have hdistinct : (records.map OutboxRecord.slot).Nodup := hslots ▸ hkeys
  obtain ⟨outcomes, hrelayed⟩ := returns_relayRecords publish readings hfiled hleased hdistinct
  refine ⟨(records.length, outcomes.count true, outcomes.count false), _, ?_,
    drained_records publish readings hf hin hkeys hrecords (DateTime.utc stop)⟩
  unfold drain
  simp only [returns_bind, onStore, returns_onPart, returns_pure]
  exact ⟨records, claimed, ⟨_, hclaim, rfl⟩, outcomes, _, hrelayed, rfl, rfl⟩

end OutboxRelay

/-! ## One drain after the other -/

namespace Store

variable {publish : EventEnvelope → Option String} {selected : List OutboxRow} {d d' : Dispatch}
variable {now : DateTime} {limit : Nat}

/-- The row cannot be published. -/
def refused (publish : EventEnvelope → Option String) (s : Store) (row : OutboxRow) : Bool :=
  !accepts publish s (outboxKey row)

theorem Drained.accepts_eq (h : Drained publish selected d d') :
    accepts publish d'.store = accepts publish d.store := by
  funext slot
  simp only [accepts, eventAt, h.events]

theorem Drained.filed (h : Drained publish selected d d') (hf : d.store.Filed) :
    d'.store.Filed := by
  obtain ⟨g, houtbox, hmoved⟩ := h.rows
  have hkey : ∀ row ∈ d.store.outbox, outboxKey (g row) = outboxKey row :=
    fun row hrow => (Prod.mk.inj (hmoved row hrow).standing).2
  constructor
  · rw [h.events]
    exact hf.distinct
  · have hkeys : d'.store.outbox.map outboxKey = d.store.outbox.map outboxKey := by
      rw [houtbox, List.map_map]
      exact List.map_congr_left hkey
    rw [hkeys]
    exact hf.nodup
  · intro row' hrow'
    rw [houtbox] at hrow'
    obtain ⟨row, hrow, rfl⟩ := List.mem_map.1 hrow'
    obtain ⟨e, he, hannounces⟩ := hf.events row hrow
    exact ⟨e, h.events ▸ he, (hkey row hrow).trans hannounces⟩

theorem Drained.valid [Digest] (h : Drained publish selected d d') (hs : d.store.Valid) :
    d'.store.Valid := by
  refine ⟨fun twinId => ?_, ?_, ?_, ?_⟩
  · rw [rowsOf, h.events]
    exact hs.chained twinId
  · rw [h.events]
    exact hs.unique
  · rw [h.events]
    exact hs.admitted
  · rw [h.events]
    exact hs.bound

/-- **A drain is a round of sifting** the queue. -/
theorem Drained.queue (h : Drained publish ((d.store.pendingRows now).take limit) d d')
    (hf : d.store.Filed) :
    d'.store.queue now =
      sift (fun place => !accepts publish d.store place.2) limit (d.store.queue now) := by
  obtain ⟨g, houtbox, hmoved⟩ := h.rows
  have hnodup : (d.store.pendingRows now).Nodup := List.Nodup.of_map _ (nodup_pendingRows hf)
  have hsplit := List.take_append_drop limit (d.store.pendingRows now)
  -- the rows free after it are those a round leaves
  have hleft : (d.store.outbox.filter fun row => (g row).publishedAt.isNone &&
      leaseFree now (g row)).Perm
        (sift (refused publish d.store) limit (d.store.pendingRows now)) := by
    refine (List.perm_ext_iff_of_nodup ((List.Nodup.of_map _ hf.nodup).filter _)
      (hnodup.sublist sift_sublist)).2 fun row => ?_
    rw [List.mem_filter, sift, List.mem_append, List.mem_filter]
    constructor
    · rintro ⟨hrow, hfree⟩
      simp only [Bool.and_eq_true, Option.isNone_iff_eq_none] at hfree
      by_cases hmem : row ∈ (d.store.pendingRows now).take limit
      · refine .inl ⟨hmem, ?_⟩
        by_contra haccepted
        simp only [refused, Bool.not_eq_true', Bool.not_eq_false] at haccepted
        exact (hmoved row hrow).taken hmem haccepted hfree.1
      · rw [(hmoved row hrow).other hmem] at hfree
        have hpending := mem_pendingRows.2 ⟨hrow, hfree⟩
        rw [← hsplit] at hpending
        exact .inr ((List.mem_append.1 hpending).resolve_left hmem)
    · rintro (⟨hmem, hrefused⟩ | hmem)
      · obtain ⟨hrow, -⟩ := mem_pendingRows.1 (List.mem_of_mem_take hmem)
        simp only [refused, Bool.not_eq_true'] at hrefused
        obtain ⟨hnone, hlease⟩ := (hmoved row hrow).refused hmem hrefused
        refine ⟨hrow, ?_⟩
        simp [hnone, leaseFree, hlease]
      · obtain ⟨hrow, hfree⟩ := mem_pendingRows.1 (List.mem_of_mem_drop hmem)
        have hlater : row ∉ (d.store.pendingRows now).take limit := by
          rw [← hsplit] at hnodup
          exact fun hearlier => (List.nodup_append.1 hnodup).2.2 row hearlier row hmem rfl
        rw [(hmoved row hrow).other hlater]
        refine ⟨hrow, ?_⟩
        simp [hfree.1, hfree.2]
  have hperm : (d'.store.queue now).Perm
      (sift (fun place => !accepts publish d.store place.2) limit (d.store.queue now)) := by
    have hsame : (d'.store.outbox.filter fun row => row.publishedAt.isNone &&
        leaseFree now row).map standing = (d.store.outbox.filter fun row =>
          (g row).publishedAt.isNone && leaseFree now (g row)).map standing := by
      rw [houtbox, List.filter_map, List.map_map]
      refine List.map_congr_left fun row hrow => ?_
      exact (hmoved row (List.mem_of_mem_filter hrow)).standing
    have hmine : (d'.store.queue now).Perm ((d'.store.outbox.filter fun row =>
        row.publishedAt.isNone && leaseFree now row).map standing) :=
      (List.perm_insertionSort _ _).map standing
    rw [hsame] at hmine
    refine hmine.trans ?_
    rw [Store.queue, sift_map]
    exact hleft.map standing
  exact hperm.eq_of_pairwise (fun a b _ _ hab hba => standingLe_antisymm hab hba) pairwise_queue
    (pairwise_queue.sublist sift_sublist)

/-- What drains leave of a row: a free one still waits, or was marked and
its event published; and none is left under a lease of theirs. -/
structure Carried (now : DateTime) (d d' : Dispatch) (row row' : OutboxRow) : Prop where
  standing : standing row' = standing row
  waits : Claimable now row → Claimable now row' ∨ (row'.publishedAt ≠ none ∧
    ∃ e ∈ d.store.events, Announces e row ∧ decode e ∈ d'.published)
  marked : row.publishedAt ≠ none → row' = row
  unpublished : row'.publishedAt = none → row' = row ∨ row'.leaseUntil = none

theorem Handled.unpublished {row row' : OutboxRow} {s : Store}
    (h : Handled publish s selected row row') (hnone : row'.publishedAt = none) :
    row' = row ∨ row'.leaseUntil = none := by
  by_cases hmem : row ∈ selected
  · cases haccepts : accepts publish s (outboxKey row) with
    | true => exact absurd hnone (h.taken hmem haccepts)
    | false => exact .inr (h.refused hmem haccepts).2
  · exact .inl (h.other hmem)

/-- One drain. -/
theorem Handled.carried {row row' : OutboxRow}
    (h : Drained publish ((d.store.pendingRows now).take limit) d d')
    (hmoved : Handled publish d.store ((d.store.pendingRows now).take limit) row row') :
    Carried now d d' row row' where
  standing := hmoved.standing
  waits hfree := by
    by_cases hmem : row ∈ (d.store.pendingRows now).take limit
    · cases haccepts : accepts publish d.store (outboxKey row) with
      | true => exact .inr ⟨hmoved.taken hmem haccepts, h.published row hmem haccepts⟩
      | false =>
        obtain ⟨hnone, hlease⟩ := hmoved.refused hmem haccepts
        exact .inl ⟨hnone, by simp [leaseFree, hlease]⟩
    · rw [hmoved.other hmem]
      exact .inl hfree
  marked hpublished := by
    refine hmoved.other fun hmem => ?_
    obtain ⟨-, hfree⟩ := mem_pendingRows.1 (List.mem_of_mem_take hmem)
    exact hpublished hfree.1
  unpublished := hmoved.unpublished

/-- One drain, and others after it. -/
theorem Carried.trans {d₁ : Dispatch} {row row₁ row' : OutboxRow} (h : Carried now d d₁ row row₁)
    (h' : Carried now d₁ d' row₁ row') (hevents : d₁.store.events = d.store.events)
    (hkept : d₁.published ⊆ d'.published) : Carried now d d' row row' where
  standing := h'.standing.trans h.standing
  waits hfree := by
    rcases h.waits hfree with hstill | ⟨hmarked, e, he, hannounces, htaken⟩
    · rcases h'.waits hstill with hstill' | ⟨hmarked, e, he, hannounces, htaken⟩
      · exact .inl hstill'
      · have hkey : outboxKey row₁ = outboxKey row := (Prod.mk.inj h.standing).2
        exact .inr ⟨hmarked, e, hevents ▸ he, hkey.symm.trans hannounces, htaken⟩
    · rw [h'.marked hmarked]
      exact .inr ⟨hmarked, e, he, hannounces, hkept htaken⟩
  marked hpublished := by
    have hsame := h.marked hpublished
    rw [h'.marked (hsame ▸ hpublished), hsame]
  unpublished hnone := by
    rcases h'.unpublished hnone with hsame | hreleased
    · rw [hsame] at hnone ⊢
      exact h.unpublished hnone
    · exact .inr hreleased

/-- What `n` drains in a row leave of the tables. -/
structure Progress (publish : EventEnvelope → Option String) (now : DateTime) (limit n : Nat)
    (d d' : Dispatch) : Prop where
  events : d'.store.events = d.store.events
  filed : d'.store.Filed
  kept : d.published ⊆ d'.published
  queue : d'.store.queue now =
    (sift (fun place => !accepts publish d.store place.2) limit)^[n] (d.store.queue now)
  rows : ∃ g : OutboxRow → OutboxRow, d'.store.outbox = d.store.outbox.map g ∧
    ∀ row ∈ d.store.outbox, Carried now d d' row (g row)

/-- The rows are as free at each of the readings as they are now. -/
def SteadyLeases (now : DateTime) (readings : List DrainReadings) (s : Store) : Prop :=
  ∀ row ∈ s.outbox, row.publishedAt = none → ∀ r ∈ readings,
    leaseFree (DateTime.utc r.claimed) row = leaseFree now row

theorem SteadyLeases.pendingRows {s : Store} {r : DrainReadings} {readings : List DrainReadings}
    (h : SteadyLeases now (r :: readings) s) :
    s.pendingRows (DateTime.utc r.claimed) = s.pendingRows now := by
  have hfilter : (s.outbox.filter fun row => row.publishedAt.isNone &&
      leaseFree (DateTime.utc r.claimed) row) = s.outbox.filter fun row =>
        row.publishedAt.isNone && leaseFree now row := by
    refine List.filter_congr fun row hrow => ?_
    by_cases hnone : row.publishedAt = none
    · have hsame := h row hrow hnone r List.mem_cons_self
      rw [hsame]
    · rw [Option.isNone_eq_false_iff.2 (Option.isSome_iff_ne_none.2 hnone), Bool.false_and,
        Bool.false_and]
  rw [Store.pendingRows, hfilter, Store.pendingRows]

theorem SteadyLeases.step {r : DrainReadings} {readings : List DrainReadings}
    (h : SteadyLeases now (r :: readings) d.store) (hdrained : Drained publish selected d d') :
    SteadyLeases now readings d'.store := by
  obtain ⟨g, houtbox, hmoved⟩ := hdrained.rows
  intro row' hrow' hnone r' hr'
  rw [houtbox] at hrow'
  obtain ⟨row, hrow, rfl⟩ := List.mem_map.1 hrow'
  rcases (hmoved row hrow).unpublished hnone with hsame | hreleased
  · rw [hsame] at hnone ⊢
    have hlater : r' ∈ r :: readings := List.mem_cons_of_mem r hr'
    exact h row hrow hnone r' hlater
  · rw [leaseFree, leaseFree, hreleased]

end Store

namespace OutboxRelay

open Store

variable [Digest] {publish : EventEnvelope → Option String} {relay : OutboxRelay} {d : Dispatch}
variable {limit : Int} {now : DateTime} {readings : List DrainReadings}

/-- **Drains in a row.** -/
theorem returns_drains (publish : EventEnvelope → Option String) (hs : d.store.Valid)
    (hf : d.store.Filed) (howner : relay.leaseOwner ≠ "") (hseconds : 1 ≤ relay.leaseSeconds)
    (hlimit : 0 < limit) (hbound : limit < 2 ^ 63)
    (hclock : ∀ r ∈ readings, ∃ stop, leaseEnd r.claimed relay.leaseSeconds = .ok stop)
    (hleases : SteadyLeases now readings d.store) :
    ∃ batches d', Returns (readings.mapM (relay.drain publish limit)) d batches d' ∧
      Progress publish now limit.toNat readings.length d d' := by
  induction readings generalizing d with
  | nil =>
    refine ⟨[], d, by simp, rfl, hf, List.Subset.refl _, rfl, id, (List.map_id _).symm, ?_⟩
    exact fun row hrow => ⟨rfl, fun h => .inl h, fun _ => rfl, fun _ => .inl rfl⟩
  | cons r readings ih =>
    obtain ⟨stop, hend⟩ := hclock r List.mem_cons_self
    obtain ⟨batch, d₁, hfirst, hdrained⟩ :=
      returns_drain publish hs hf howner hseconds hlimit hbound hend
    rw [hleases.pendingRows] at hdrained
    obtain ⟨batches, d', hrest, hprogress⟩ := ih (hdrained.valid hs) (hdrained.filed hf)
      (fun r' hr' => hclock r' (List.mem_cons_of_mem _ hr')) (hleases.step hdrained)
    obtain ⟨g, houtbox, hmoved⟩ := hdrained.rows
    obtain ⟨g', houtbox', hcarried⟩ := hprogress.rows
    refine ⟨batch :: batches, d', ?_, hprogress.events.trans hdrained.events, hprogress.filed,
      List.Subset.trans hdrained.kept hprogress.kept, ?_, g' ∘ g, ?_, fun row hrow => ?_⟩
    · simp only [List.mapM_cons, returns_bind, returns_pure]
      exact ⟨batch, d₁, hfirst, batches, d', hrest, rfl, rfl⟩
    · rw [hprogress.queue, hdrained.queue hf, hdrained.accepts_eq, List.length_cons,
        Function.iterate_succ_apply]
    · rw [houtbox', houtbox, List.map_map]
    · have hmine : g row ∈ d₁.store.outbox := houtbox ▸ List.mem_map_of_mem hrow
      exact (Handled.carried hdrained (hmoved row hrow)).trans (hcarried (g row) hmine)
        hdrained.events hprogress.kept

/-- The event of each of these rows that the publisher takes was published,
and its row marked. -/
def AllRelayed (publish : EventEnvelope → Option String) (rows : List OutboxRow)
    (d d' : Dispatch) : Prop :=
  ∀ row ∈ rows, refused publish d.store row = false →
    (∃ row' ∈ d'.store.outbox, outboxKey row' = outboxKey row ∧ row'.publishedAt ≠ none) ∧
      ∃ e ∈ d.store.events, Announces e row ∧ decode e ∈ d'.published

omit [Digest] in
/-- All is relayed where the queue holds nothing but what is refused. -/
theorem allRelayed_iff {n : Nat} {d' : Dispatch} (hf : d.store.Filed)
    (h : Progress publish now limit.toNat n d d') :
    AllRelayed publish (d.store.pendingRows now) d d' ↔
      ∀ row ∈ (sift (refused publish d.store) limit.toNat)^[n] (d.store.pendingRows now),
        refused publish d.store row = true := by
  obtain ⟨g, houtbox, hcarried⟩ := h.rows
  have hqueue : d'.store.queue now = ((sift (refused publish d.store) limit.toNat)^[n]
      (d.store.pendingRows now)).map standing := by
    rw [h.queue, Store.queue, iterate_sift_map]
    rfl
  constructor
  · intro hall row hleft
    by_contra haccepted
    have hpending := iterate_sift_sublist.subset hleft
    obtain ⟨⟨row', hrow', hkey, hmarked⟩, -⟩ :=
      hall row hpending (by simpa using haccepted)
    -- its row is in the queue still, and not marked
    have hmem : standing row ∈ d'.store.queue now := hqueue ▸ List.mem_map_of_mem hleft
    obtain ⟨other, hother, hsame⟩ := List.mem_map.1 hmem
    obtain ⟨hin, hfree⟩ := mem_pendingRows.1 hother
    have hkey' : outboxKey other = outboxKey row := (Prod.mk.inj hsame).2
    obtain rfl := h.filed.row_unique hin hrow' (hkey.trans hkey'.symm)
    exact hmarked hfree.1
  · intro hall row hpending haccepted
    obtain ⟨hrow, hfree⟩ := mem_pendingRows.1 hpending
    have hmine : g row ∈ d'.store.outbox := houtbox ▸ List.mem_map_of_mem hrow
    have hstanding := (hcarried row hrow).standing
    have hkey : outboxKey (g row) = outboxKey row := (Prod.mk.inj hstanding).2
    rcases (hcarried row hrow).waits hfree with hstill | ⟨hmarked, hpublished⟩
    · have hmem : standing (g row) ∈ d'.store.queue now :=
        List.mem_map_of_mem (mem_pendingRows.2 ⟨hmine, hstill⟩)
      rw [hqueue, hstanding] at hmem
      obtain ⟨other, hleft, hsame⟩ := List.mem_map.1 hmem
      have hin := (mem_pendingRows.1 (iterate_sift_sublist.subset hleft)).1
      obtain rfl := hf.row_unique hrow hin (Prod.mk.inj hsame).2
      rw [hall other hleft] at haccepted
      cases haccepted
    · exact ⟨⟨g row, hmine, hkey, hmarked⟩, hpublished⟩

/-- No drain returns whose limit the database does not take. -/
theorem not_returns_drain {r : DrainReadings} {batch : Nat × Nat × Nat} {d' : Dispatch}
    (hbound : ¬ limit < 2 ^ 63) : ¬ Returns (relay.drain publish limit r) d batch d' := by
  intro h
  obtain ⟨records, d₁, hclaim, -⟩ := returns_bind.1 h
  obtain ⟨s, hclaim, -⟩ := returns_onPart.1 hclaim
  simp only [claimOutbox, returns_ite, returns_throw, returns_pure, returns_bind,
    returns_fromExcept, bindInteger_of_le (not_lt.1 hbound)] at hclaim
  have hpositive : ¬ limit ≤ 0 := by omega
  simp [hpositive] at hclaim

/-- **Unpublishable events starve the others** exactly where as many of
them as the limit stand before one that can be published. As many drains
as there are free rows, or more, all return and relay every event the
publisher takes if and only if the database takes the limit, where there is
a drain at all, and fewer refused rows than the limit stand before each. -/
theorem drained_iff {h : History} (hreach : StoreReachable h) (relay : OutboxRelay)
    (howner : relay.leaseOwner ≠ "") (hseconds : 1 ≤ relay.leaseSeconds) (limit : Int)
    (hlimit : 1 ≤ limit) (publish : EventEnvelope → Option String) (now : DateTime)
    (readings : List DrainReadings)
    (hcount : (h.store.pendingRows now).length ≤ readings.length)
    (hclock : ∀ r ∈ readings, ∃ stop, leaseEnd r.claimed relay.leaseSeconds = .ok stop)
    (hleases : SteadyLeases now readings h.store) :
    (∃ batches d', Returns (readings.mapM (relay.drain publish limit)) { store := h.store }
        batches d' ∧ AllRelayed publish (h.store.pendingRows now) { store := h.store } d') ↔
      (readings = [] ∨ limit < 2 ^ 63) ∧
        ∀ before row after, h.store.pendingRows now = before ++ row :: after →
          refused publish h.store row = false →
            (before.countP (refused publish h.store) : Int) < limit := by
  have hs : h.store.Valid := hreach.keeps.1
  have hf : h.store.Filed := filed_of_reachable (hreach.mono fun _ _ _ => trivial)
  have hpositive : 0 < limit := by omega
  by_cases hbound : limit < 2 ^ 63
  · obtain ⟨batches, d', hreturns, hprogress⟩ :=
      returns_drains (d := { store := h.store }) publish hs hf howner hseconds hpositive hbound
        hclock hleases
    have hall : AllRelayed publish (h.store.pendingRows now) { store := h.store } d' ↔
        ∀ before row after, h.store.pendingRows now = before ++ row :: after →
          refused publish h.store row = false →
            (before.countP (refused publish h.store) : Int) < limit := by
      rw [allRelayed_iff hf hprogress, all_bad_iff hcount]
      refine forall₃_congr fun before row after => forall₂_congr fun _ _ => ?_
      show before.countP (refused publish h.store) < limit.toNat ↔ _
      omega
    rw [← hall, and_iff_right (.inr hbound)]
    constructor
    · rintro ⟨batches', d'', hreturns', hrelayed⟩
      obtain ⟨-, rfl⟩ := returns_unique hreturns hreturns'
      exact hrelayed
    · exact fun hrelayed => ⟨batches, d', hreturns, hrelayed⟩
  cases readings with
  | nil =>
    -- nothing is free, and nothing is drained
    have hnone : h.store.pendingRows now = [] := List.length_eq_zero_iff.1 (Nat.le_zero.1 hcount)
    rw [hnone]
    constructor
    · exact fun _ => ⟨.inl rfl, fun before row after hsplit => by simp at hsplit⟩
    · exact fun _ => ⟨[], { store := h.store }, returns_pure.2 ⟨rfl, rfl⟩,
        fun row hrow => by cases hrow⟩
  | cons r readings =>
    constructor
    · rintro ⟨batches, d', hreturns, -⟩
      rw [List.mapM_cons] at hreturns
      obtain ⟨batch, d₁, hdrain, -⟩ := returns_bind.1 hreturns
      exact absurd hdrain (not_returns_drain hbound)
    · rintro ⟨hlimits | hlimits, -⟩
      · cases hlimits
      · exact absurd hlimits hbound

/-! ## Behind one event that is too large -/

/-- The same evidence under another key. -/
def laterEvent : EventEnvelope :=
  { firstEvent with eventId := "event-2", idempotencyKey := "key-2" }

/-- Two events of `t`. -/
def twoEvents : History :=
  run History.step {} [.append firstEvent 0 1 none, .append laterEvent 1 2 none]

/-- A publisher that finds the first event too large. -/
def firstTooLarge (e : EventEnvelope) : Option String :=
  if e.sequence = 1 then some "MessageTooLarge" else none

/-- Two drains of one row each. -/
def twoDrains : List DrainReadings := [⟨3, fun _ => 4⟩, ⟨5, fun _ => 6⟩]

omit [Digest] in
theorem reachable_twoEvents :
    let _ : Digest := checksumDigest
    StoreReachable twoEvents := by
  intro digest
  refine .step (StoreOp.append laterEvent 1 2 none) ?_ rfl
  exact .step (StoreOp.append firstEvent 0 1 none) .init rfl

omit [Digest] in
/-- **The second event is never relayed**: each drain takes the first again. -/
theorem second_starves :
    let _ : Digest := checksumDigest
    let d : Dispatch := { store := twoEvents.store }
    let d' := finalState (twoDrains.mapM ((⟨"relay", 30⟩ : OutboxRelay).drain firstTooLarge 1)) d
    StoreReachable twoEvents ∧ (d.store.pendingRows (DateTime.utc 3)).length = twoDrains.length ∧
      d'.store.outbox.map (·.attempts) = [2, 0] ∧
      ¬ AllRelayed firstTooLarge (d.store.pendingRows (DateTime.utc 3)) d d' := by
  intro digest d d'
  refine ⟨reachable_twoEvents, by decide +kernel, by decide +kernel, fun hall => ?_⟩
  have hgood : ((d.store.pendingRows (DateTime.utc 3)).any fun row =>
      !refused firstTooLarge d.store row) = true := by decide +kernel
  have hnone : d'.store.outbox.map (·.publishedAt) = [none, none] := by decide +kernel
  obtain ⟨row, hrow, haccepted⟩ := List.any_eq_true.1 hgood
  obtain ⟨⟨row', hrow', -, hmarked⟩, -⟩ := hall row hrow (by simpa using haccepted)
  have hmem : row'.publishedAt ∈ d'.store.outbox.map (·.publishedAt) := List.mem_map_of_mem hrow'
  rw [hnone] at hmem
  exact hmarked (by simpa using hmem)

omit [Digest] in
/-- A publisher that takes both has both after two drains. -/
theorem drained_twoEvents :
    let _ : Digest := checksumDigest
    let d : Dispatch := { store := twoEvents.store }
    ∃ batches d', Returns (twoDrains.mapM ((⟨"relay", 30⟩ : OutboxRelay).drain (fun _ => none) 1)) d
        batches d' ∧
      AllRelayed (fun _ => none) (d.store.pendingRows (DateTime.utc 3)) d d' := by
  intro digest d
  have hfree : ∀ row ∈ twoEvents.store.outbox, row.leaseUntil = none := by decide +kernel
  have hnobody : ∀ row ∈ twoEvents.store.outbox,
      refused (fun _ => none) twoEvents.store row = false := by decide +kernel
  have hclock : ∀ r ∈ twoDrains, ∃ stop, Store.leaseEnd r.claimed 30 = .ok stop := by
    intro r hr
    simp only [twoDrains, List.mem_cons, List.not_mem_nil, or_false] at hr
    rcases hr with rfl | rfl
    · exact ⟨_, Store.leaseEnd_eq_ok.2 ⟨rfl, by decide, by decide⟩⟩
    · exact ⟨_, Store.leaseEnd_eq_ok.2 ⟨rfl, by decide, by decide⟩⟩
  have hleases : SteadyLeases (DateTime.utc 3) twoDrains twoEvents.store := by
    intro row hrow _ r _
    rw [leaseFree, leaseFree, hfree row hrow]
  refine (drained_iff reachable_twoEvents ⟨"relay", 30⟩ (by decide) (by decide) 1 (by decide)
    (fun _ => none) (DateTime.utc 3) twoDrains (by decide +kernel) hclock hleases).2
    ⟨.inr (by decide), fun before row after hsplit _ => ?_⟩
  have hbefore : before.countP (refused (fun _ => none) twoEvents.store) = 0 := by
    refine List.countP_eq_zero.2 fun other hother => ?_
    have hpending : other ∈ twoEvents.store.pendingRows (DateTime.utc 3) :=
      hsplit ▸ List.mem_append_left _ hother
    simp [hnobody other (mem_pendingRows.1 hpending).1]
  rw [hbefore]
  decide

end OutboxRelay

end ArgoTwin
