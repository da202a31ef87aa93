import ArgoTwin.Ledger
import ArgoTwin.Library.Runs
/-!
# Runs of the store

Any number of connections take turns on the tables; a step is one method
call of one of them, with its arguments, what it read off the clock, and
the statement at which an append fails, if it does. `pruned` remembers
the outbox rows a pruning removed.
-/

namespace ArgoTwin

open Library

namespace Store

variable {s s' t : Store}

/-- What identifies an outbox row. -/
def outboxKey (row : OutboxRow) : String × Int × String := (row.twinId, row.sequence, row.topic)

/-- Every table but the outbox is as in `t`, and the outbox has the same
rows by key. -/
structure SameRows (t s : Store) : Prop where
  events : s.events = t.events
  snapshots : s.snapshots = t.snapshots
  dependencies : s.dependencies = t.dependencies
  invalidations : s.invalidations = t.invalidations
  outbox : s.outbox.map outboxKey = t.outbox.map outboxKey

theorem SameRows.refl : SameRows t t := ⟨rfl, rfl, rfl, rfl, rfl⟩

/-- An update that leaves the key alone leaves the keys alone. -/
theorem SameRows.update (h : SameRows t s) {p : OutboxRow → Bool} {f : OutboxRow → OutboxRow}
    (hf : ∀ row, outboxKey (f row) = outboxKey row) :
    SameRows t { s with outbox := updateWhere p f s.outbox } where
  events := h.events
  snapshots := h.snapshots
  dependencies := h.dependencies
  invalidations := h.invalidations
  outbox := by
    rw [← h.outbox, updateWhere, List.map_map]
    refine List.map_congr_left fun row _ => ?_
    by_cases hp : p row <;> simp [hp, hf]

/-- A row keeps its place under its key. -/
theorem SameRows.exists_row (h : SameRows t s) {row : OutboxRow} (hrow : row ∈ t.outbox) :
    ∃ row' ∈ s.outbox, outboxKey row' = outboxKey row := by
  have hmem : outboxKey row ∈ s.outbox.map outboxKey := by
    rw [h.outbox]
    exact List.mem_map_of_mem hrow
  simpa using hmem

theorem keeps_updateLeased {record : OutboxRecord} {f : OutboxRow → OutboxRow}
    (hf : ∀ row, outboxKey (f row) = outboxKey row) : Keeps (SameRows t) (updateLeased record f) :=
  keeps_get_bind fun _ h =>
    keeps_bind (keeps_set_of (h.update hf)) (fun _ => keeps_pure) _ h

/-- Pruning snapshots touches the snapshots only. -/
theorem finalState_pruneSnapshots (twinId : String) (keep : Int) :
    ∃ kept, kept ⊆ s.snapshots ∧
      finalState (pruneSnapshots twinId keep) s = { s with snapshots := kept } := by
  unfold pruneSnapshots
  split
  · exact ⟨s.snapshots, fun _ h => h, rfl⟩
  cases hbound : bindInteger keep with
  | error err => exact ⟨s.snapshots, fun _ h => h, rfl⟩
  | ok bound => exact ⟨_, List.filter_subset_self _, rfl⟩

/-- Pruning the outbox removes published rows only. -/
theorem finalState_pruneOutbox (publishedBefore : DateTime) (limit : Int) :
    ∃ kept, finalState (pruneOutbox publishedBefore limit) s = { s with outbox := kept } ∧
      ∀ row ∈ s.outbox, row ∈ kept ∨ (row ∉ kept ∧ row.publishedAt.isSome = true) := by
  unfold pruneOutbox
  split
  · exact ⟨s.outbox, rfl, fun row h => .inl h⟩
  split
  · exact ⟨s.outbox, rfl, fun row h => .inl h⟩
  cases hbound : bindInteger limit with
  | error err => exact ⟨s.outbox, rfl, fun row h => .inl h⟩
  | ok bound =>
    refine ⟨_, rfl, fun row hrow => ?_⟩
    by_cases hdoomed : row ∈ s.prunable publishedBefore bound
    · have hpublished : row.publishedAt.isSome = true := by
        have hmem := List.mem_of_mem_take hdoomed
        rw [(List.perm_insertionSort _ _).mem_iff, List.mem_filter] at hmem
        exact (Bool.and_eq_true_iff.1 hmem.2).1
      exact .inr ⟨by simp [hdoomed], hpublished⟩
    · exact .inl (by simp [hrow, hdoomed])

/-- What an invalidation says, whether it was processed or not. -/
def InvalidationRow.said (row : InvalidationRow) : InvalidationRow := { row with processedAt := none }

/-- Marking an invalidation changes no other column. -/
theorem finalState_markInvalidationProcessed (record : InvalidationRecord) (now : Instant) :
    ∃ rows, finalState (markInvalidationProcessed record now) s =
        { s with invalidations := rows } ∧
      rows.map InvalidationRow.said = s.invalidations.map InvalidationRow.said := by
  refine ⟨_, rfl, ?_⟩
  rw [updateWhere, List.map_map]
  refine List.map_congr_left fun row _ => ?_
  simp only [Function.comp_apply]
  split <;> rfl

variable [Digest]

/-- An update that moves leases only. -/
structure Leasing (f : OutboxRow → OutboxRow) : Prop where
  key : ∀ row, outboxKey (f row) = outboxKey row
  publishedAt : ∀ row, (f row).publishedAt = row.publishedAt

/-- The row under a lease. -/
def underLease (leaseOwner : String) (leaseUntil : DateTime) (row : OutboxRow) : OutboxRow :=
  { row with
    leaseOwner := some leaseOwner, leaseUntil := some leaseUntil, attempts := row.attempts + 1 }

/-- The row waits for a relay to take it. -/
def Claimable (now : DateTime) (row : OutboxRow) : Prop :=
  row.publishedAt = none ∧ leaseFree now row = true

omit [Digest] in
theorem leasing_underLease (leaseOwner : String) (leaseUntil : DateTime) :
    Leasing (underLease leaseOwner leaseUntil) := ⟨fun _ => rfl, fun _ => rfl⟩

section Claim

variable {P : Store → Prop} {leaseOwner : String}

theorem keeps_claimRow {now leaseUntil : DateTime} {row : OutboxRow}
    (hP : ∀ s p, (∀ row, p row = true → Claimable now row) → P s →
      P { s with outbox := updateWhere p (underLease leaseOwner leaseUntil) s.outbox }) :
    Keeps P (claimRow leaseOwner now leaseUntil row) := by
  refine keeps_get_bind fun s h => ?_
  simp only
  split
  · exact h
  · refine keeps_bind (keeps_set_of ?_) (fun _ => ?_) s h
    · refine hP s _ (fun row hfree => ?_) h
      simp only [Bool.and_eq_true, Option.isNone_iff_eq_none] at hfree
      exact ⟨hfree.1.2, hfree.2⟩
    refine keeps_bind keeps_get fun s' => ?_
    split
    · refine keeps_bind keeps_fromExcept fun _ => keeps_bind keeps_fromExcept fun _ => keeps_pure
    · exact keeps_throw

/-- Claiming keeps what leasing free rows keeps. -/
theorem keeps_claimOutbox {limit leaseSeconds : Int} {now : Instant}
    (hP : ∀ leaseUntil, 0 < leaseSeconds → leaseEnd now leaseSeconds = .ok leaseUntil → ∀ s p,
      (∀ row, p row = true → Claimable (DateTime.utc now) row) → P s →
      P { s with outbox :=
        updateWhere p (underLease leaseOwner (DateTime.utc leaseUntil)) s.outbox }) :
    Keeps P (claimOutbox leaseOwner limit leaseSeconds now) := by
  unfold claimOutbox
  split_ifs with _ _ hseconds
  · exact keeps_throw
  · exact keeps_pure
  · exact keeps_throw
  refine keeps_fromExcept_bind fun leaseUntil hend => ?_
  have hpositive : 0 < leaseSeconds := by omega
  refine keeps_bind keeps_fromExcept fun _ => ?_
  exact keeps_transaction (keeps_bind keeps_get fun _ =>
    keeps_bind (keeps_mapM fun _ => keeps_claimRow (hP leaseUntil hpositive hend)) fun _ =>
      keeps_pure)

end Claim

/-- A snapshot that verifies, stands on a stored event, and is the first
there. -/
structure Savable (s : Store) (snapshot : SnapshotRecord) : Prop where
  verify : snapshot.verify = .ok ()
  linked : ∃ event, s.eventAt snapshot.twinId snapshot.sequence = some event ∧
    event.eventHash = snapshot.lastEventHash
  first : s.snapshotAt snapshot.twinId snapshot.sequence = none

/-- **What saving a snapshot does**: nothing, or one row. -/
theorem finalState_saveSnapshot (snapshot : SnapshotRecord) :
    finalState (saveSnapshot snapshot) s = s ∨ Savable s snapshot ∧
      finalState (saveSnapshot snapshot) s = { s with snapshots := s.snapshots ++ [snapshot] } := by
  have hcases := finalState_cases (saveSnapshot snapshot) s
  generalize finalState (saveSnapshot snapshot) s = after at hcases ⊢
  rcases hcases with ⟨answer, h⟩ | ⟨error, h⟩
  · simp only [saveSnapshot, insertSnapshot, returns_bind, returns_fromExcept,
      returns_transaction, returns_get] at h
    obtain ⟨_, _, ⟨hverify, rfl⟩, _, store, ⟨rfl, rfl⟩, h⟩ := h
    cases hevent : store.eventAt snapshot.twinId snapshot.sequence with
    | none => simp [hevent] at h
    | some event =>
      rw [hevent] at h
      simp only [returns_ite, returns_throw, and_false, false_or] at h
      obtain ⟨hhash, h⟩ := h
      cases hfirst : store.snapshotAt snapshot.twinId snapshot.sequence with
      | some existing =>
        rw [hfirst] at h
        simp only [answerSnapshot, returns_bind, returns_fromExcept, returns_ite, returns_throw,
          and_false, false_or, returns_pure] at h
        obtain ⟨_, _, ⟨-, rfl⟩, -, -, h⟩ := h
        exact .inl h.symm
      | none =>
        rw [hfirst] at h
        simp only [returns_bind, returns_set, returns_pure] at h
        obtain ⟨_, _, rfl, -, h⟩ := h
        exact .inr ⟨⟨hverify, ⟨event, hevent, not_not.1 hhash⟩, hfirst⟩, h.symm⟩
  · refine .inl ?_
    simp only [saveSnapshot, bind, EStateM.bind] at h
    cases hverify : snapshot.verify with
    | error e =>
      simp only [hverify, fromExcept, EStateM.Result.error.injEq] at h
      exact h.2.symm
    | ok _ =>
      simp only [hverify, fromExcept] at h
      exact transaction_error h

end Store

/-- A call of a connection. -/
inductive StoreOp where
  | append (e : EventEnvelope) (expectedSequence : Int) (now : Instant)
      (fault : Option AppendStep)
  | saveSnapshot (snapshot : SnapshotRecord)
  | pruneSnapshots (twinId : String) (keep : Int)
  | claimOutbox (leaseOwner : String) (limit leaseSeconds : Int) (now : Instant)
  | markOutboxPublished (record : OutboxRecord) (now : Instant)
  | releaseOutbox (record : OutboxRecord) (error : String)
  | pruneOutbox (publishedBefore : DateTime) (limit : Int)
  | markInvalidationProcessed (record : InvalidationRecord) (now : Instant)

/-- The tables, and the outbox rows pruned from them so far. -/
structure History where
  store : Store := {}
  pruned : List OutboxRow := []

/-- The row announces the event. -/
def Announces (event : EventEnvelope) (row : OutboxRow) : Prop :=
  Store.outboxKey row = (event.twinId, event.sequence, Store.eventTopic)

/-- Every event is announced by a row still there, or by one that was
pruned after it was published. -/
def Announced (h : History) : Prop :=
  ∀ event ∈ h.store.events, (∃ row ∈ h.store.outbox, Announces event row) ∨
    ∃ row ∈ h.pruned, Announces event row ∧ row.publishedAt.isSome = true

variable {h : History} {op : StoreOp}

/-- Where the events stay, it is enough that every outbox row stays under
its key, or is pruned published. -/
theorem Announced.of_rows {h' : History} (hann : Announced h)
    (hevents : h'.store.events = h.store.events) (hpruned : h.pruned ⊆ h'.pruned)
    (hrows : ∀ row ∈ h.store.outbox,
      (∃ row' ∈ h'.store.outbox, Store.outboxKey row' = Store.outboxKey row) ∨
        (row ∈ h'.pruned ∧ row.publishedAt.isSome = true)) : Announced h' := by
  intro event hevent
  rw [hevents] at hevent
  rcases hann event hevent with ⟨row, hrow, hkey⟩ | ⟨row, hrow, hkey, hpublished⟩
  · rcases hrows row hrow with ⟨row', hrow', hsame⟩ | ⟨hgone, hpublished⟩
    · exact .inl ⟨row', hrow', hsame.trans hkey⟩
    · exact .inr ⟨row, hgone, hkey, hpublished⟩
  · exact .inr ⟨row, hpruned hrow, hkey, hpublished⟩

/-- A call that wrote no event and no snapshot. -/
structure Quiet (h h' : History) : Prop where
  events : h'.store.events = h.store.events
  snapshots : h'.store.snapshots ⊆ h.store.snapshots
  dependencies : h'.store.dependencies = h.store.dependencies
  invalidations : h'.store.invalidations.map Store.InvalidationRow.said =
    h.store.invalidations.map Store.InvalidationRow.said
  outbox : ∀ row ∈ h.store.outbox,
    (∃ row' ∈ h'.store.outbox, Store.outboxKey row' = Store.outboxKey row) ∨
      (row ∈ h'.pruned ∧ row.publishedAt.isSome = true)

theorem quiet_of_sameRows {h' : History} (hrows : h.store.SameRows h'.store) : Quiet h h' where
  events := hrows.events
  snapshots := hrows.snapshots ▸ List.Subset.refl _
  dependencies := hrows.dependencies
  invalidations := by rw [hrows.invalidations]
  outbox _ hrow := .inl (hrows.exists_row hrow)

variable [Digest]

/-- The call, its answer dropped. -/
def StoreOp.exec : StoreOp → Store.Method Unit
  | .append e expectedSequence now fault => discard (Store.append e expectedSequence now fault)
  | .saveSnapshot snapshot => discard (Store.saveSnapshot snapshot)
  | .pruneSnapshots twinId keep => discard (Store.pruneSnapshots twinId keep)
  | .claimOutbox leaseOwner limit leaseSeconds now =>
    discard (Store.claimOutbox leaseOwner limit leaseSeconds now)
  | .markOutboxPublished record now => discard (Store.markOutboxPublished record now)
  | .releaseOutbox record error => discard (Store.releaseOutbox record error)
  | .pruneOutbox publishedBefore limit => discard (Store.pruneOutbox publishedBefore limit)
  | .markInvalidationProcessed record now =>
    discard (Store.markInvalidationProcessed record now)

/-- The rows a call prunes from the outbox. -/
def StoreOp.prunes (before after : Store) : StoreOp → List OutboxRow
  | .pruneOutbox _ _ => before.outbox.filter fun row => row ∉ after.outbox
  | _ => []

/-- One call, whether it returns or raises. -/
def History.step (h : History) (op : StoreOp) : History :=
  let after := finalState op.exec h.store
  { store := after, pruned := h.pruned ++ op.prunes h.store after }

/-- Appended events carry an aware time. -/
def TimesAware : History → StoreOp → Prop
  | _, .append e _ _ _ => e.occurredAt.naive = false
  | _, _ => True

/-- An append leaves the tables alone or writes one event. -/
theorem finalState_append (s : Store) (e : EventEnvelope) (x : Int) (now : Instant)
    (fault : Option AppendStep) :
    finalState (Store.append e x now fault) s = s ∨
      ∃ r, Store.Fresh s e x now r (finalState (Store.append e x now fault) s) ∧
        e.schemaVersion = "argo.dt.event/v2" ∧ e.plane ≠ .simulation := by
  rcases finalState_cases (Store.append e x now fault) s with ⟨r, hr⟩ | ⟨error, herror⟩
  · obtain ⟨hschema, hplane, ⟨-, -, hsame⟩ | ⟨-, hfresh⟩⟩ := Store.returns_append.1 hr
    · exact .inl hsame
    · exact .inr ⟨r, hfresh, hschema, hplane⟩
  · exact .inl (Store.append_error herror)

/-- The snapshot is written, and nothing else. -/
structure Saved (s : Store) (snapshot : SnapshotRecord) (s' : Store) : Prop where
  savable : s.Savable snapshot
  store : s' = { s with snapshots := s.snapshots ++ [snapshot] }

/-- **What one call does**: it writes an event, or a snapshot, or neither. -/
theorem step_cases (h : History) (op : StoreOp) :
    (∃ e x now fault r, op = .append e x now fault ∧
        h.store.Fresh e x now r (h.step op).store ∧
        e.schemaVersion = "argo.dt.event/v2" ∧ e.plane ≠ .simulation) ∨
      (∃ snapshot, op = .saveSnapshot snapshot ∧ Saved h.store snapshot (h.step op).store) ∨
      Quiet h (h.step op) := by
  have hstore : (h.step op).store = finalState op.exec h.store := rfl
  cases op with
  | append e x now fault =>
    rw [StoreOp.exec, finalState_discard] at hstore
    rcases finalState_append h.store e x now fault with hsame | ⟨r, hfresh, hschema, hplane⟩
    · rw [hsame] at hstore
      exact .inr (.inr (quiet_of_sameRows (hstore ▸ .refl)))
    · rw [← hstore] at hfresh
      exact .inl ⟨e, x, now, fault, r, rfl, hfresh, hschema, hplane⟩
  | saveSnapshot snapshot =>
    rw [StoreOp.exec, finalState_discard] at hstore
    rcases Store.finalState_saveSnapshot (s := h.store) snapshot with hsame | ⟨hsavable, hsaved⟩
    · rw [hsame] at hstore
      exact .inr (.inr (quiet_of_sameRows (hstore ▸ .refl)))
    · rw [hsaved] at hstore
      exact .inr (.inl ⟨snapshot, rfl, hsavable, hstore⟩)
  | pruneSnapshots twinId keep =>
    rw [StoreOp.exec, finalState_discard] at hstore
    obtain ⟨kept, hsubset, hkept⟩ := Store.finalState_pruneSnapshots (s := h.store) twinId keep
    rw [hkept] at hstore
    refine .inr (.inr ⟨by rw [hstore], by rw [hstore]; exact hsubset, by rw [hstore],
      by rw [hstore], fun row hrow => .inl ⟨row, by rw [hstore]; exact hrow, rfl⟩⟩)
  | claimOutbox leaseOwner limit leaseSeconds now =>
    rw [StoreOp.exec, finalState_discard] at hstore
    have hkept : Keeps (Store.SameRows h.store)
        (Store.claimOutbox leaseOwner limit leaseSeconds now) :=
      Store.keeps_claimOutbox fun _ _ _ _ _ _ hrows => hrows.update fun _ => rfl
    exact .inr (.inr (quiet_of_sameRows (hstore ▸ hkept h.store .refl)))
  | markOutboxPublished record now =>
    have hkept : Keeps (Store.SameRows h.store) (Store.markOutboxPublished record now) :=
      Store.keeps_updateLeased fun _ => rfl
    rw [StoreOp.exec, finalState_discard] at hstore
    exact .inr (.inr (quiet_of_sameRows (hstore ▸ hkept h.store .refl)))
  | releaseOutbox record error =>
    have hkept : Keeps (Store.SameRows h.store) (Store.releaseOutbox record error) :=
      Store.keeps_updateLeased fun _ => rfl
    rw [StoreOp.exec, finalState_discard] at hstore
    exact .inr (.inr (quiet_of_sameRows (hstore ▸ hkept h.store .refl)))
  | pruneOutbox publishedBefore limit =>
    rw [StoreOp.exec, finalState_discard] at hstore
    obtain ⟨kept, hkept, hrows⟩ :=
      Store.finalState_pruneOutbox (s := h.store) publishedBefore limit
    rw [hkept] at hstore
    refine .inr (.inr ⟨by rw [hstore], by rw [hstore]; exact List.Subset.refl _, by rw [hstore],
      by rw [hstore], fun row hrow => ?_⟩)
    rcases hrows row hrow with hstays | ⟨hgone, hpublished⟩
    · exact .inl ⟨row, by rw [hstore]; exact hstays, rfl⟩
    -- a row that goes counts as delivered
    · refine .inr ⟨List.mem_append_right _ ?_, hpublished⟩
      have hafter : row ∉ (h.step (.pruneOutbox publishedBefore limit)).store.outbox := by
        rw [hstore]
        exact hgone
      exact List.mem_filter.2 ⟨hrow, decide_eq_true hafter⟩
  | markInvalidationProcessed record now =>
    obtain ⟨rows, hkept, hsaid⟩ :=
      Store.finalState_markInvalidationProcessed (s := h.store) record now
    have hstore : (h.step (.markInvalidationProcessed record now)).store =
        { h.store with invalidations := rows } := by
      simpa [History.step, StoreOp.exec] using hkept
    exact .inr (.inr ⟨by rw [hstore], by rw [hstore]; exact List.Subset.refl _, by rw [hstore],
      by rw [hstore]; exact hsaid, fun row hrow => .inl ⟨row, by rw [hstore]; exact hrow, rfl⟩⟩)

/-- **One call keeps the ledger and its announcements.** -/
theorem step_keeps (hvalid : h.store.Valid) (hann : Announced h) (hok : TimesAware h op) :
    (h.step op).store.Valid ∧ Announced (h.step op) := by
  have hpruned : h.pruned ⊆ (h.step op).pruned := List.subset_append_left _ _
  rcases step_cases h op with ⟨e, x, now, fault, r, rfl, hfresh, hschema, hplane⟩ |
    ⟨snapshot, rfl, hsaved⟩ | hquiet
  · refine ⟨hfresh.valid hvalid hok hschema hplane, fun event hevent => ?_⟩
    rw [hfresh.events_eq] at hevent
    rcases List.mem_append.1 hevent with hold | hnew
    · rcases hann event hold with ⟨row, hrow, hkey⟩ | ⟨row, hrow, hkey, hpublished⟩
      · refine .inl ⟨row, ?_, hkey⟩
        rw [hfresh.outbox_eq]
        exact List.mem_append_left _ hrow
      · exact .inr ⟨row, hpruned hrow, hkey, hpublished⟩
    · rw [List.mem_singleton.1 hnew]
      refine .inl ⟨Store.outboxRow r, ?_, rfl⟩
      rw [hfresh.outbox_eq]
      simp
  · have hevents := congrArg Store.events hsaved.store
    refine ⟨hvalid.congr hevents, hann.of_rows hevents hpruned fun row hrow => ?_⟩
    refine .inl ⟨row, ?_, rfl⟩
    rw [hsaved.store]
    exact hrow
  · exact ⟨hvalid.congr hquiet.events, hann.of_rows hquiet.events hpruned hquiet.outbox⟩

/-- The histories of an empty store. -/
abbrev StoreReachable : History → Prop := Reachable History.step TimesAware {}

/-- **Every reachable ledger is valid and announced.** -/
theorem StoreReachable.keeps (hreach : StoreReachable h) : h.store.Valid ∧ Announced h := by
  refine Reachable.invariant (I := fun h => h.store.Valid ∧ Announced h) ?_ ?_ hreach
  · exact ⟨Store.valid_empty, fun event hevent => by simp at hevent⟩
  · exact fun h op hI hok => step_keeps hI.1 hI.2 hok

/-! ## The ledger, row by row -/

namespace Store.Valid

variable {s : Store} {twinId : String}

/-- The sequences of a twin are `1, …, n`. -/
theorem sequences (hs : s.Valid) (twinId : String) :
    (s.rowsOf twinId).map (·.sequence) =
      (List.range (s.rowsOf twinId).length).map fun (i : Nat) => (i : Int) + 1 := by
  refine List.ext_getElem (by simp) fun i hi _ => ?_
  have hi' : i < (s.rowsOf twinId).length := by simpa using hi
  have hseq := sequence_of_getElem? (hs.chained twinId) (List.getElem?_eq_getElem hi')
  simpa using hseq

/-- The first event has nothing before it. -/
theorem previousHash_first (hs : s.Valid) {row : EventEnvelope}
    (hrow : (s.rowsOf twinId)[0]? = some row) : row.previousHash = "" := by
  have hchain := hs.chained twinId
  cases hrows : s.rowsOf twinId with
  | nil => simp [hrows] at hrow
  | cons first rest =>
    rw [hrows] at hchain hrow
    obtain rfl : first = row := by simpa using hrow
    exact hchain.1.previousHash

/-- Every other names the hash of its predecessor. -/
theorem previousHash_next (hs : s.Valid) {i : Nat} {row next : EventEnvelope}
    (hrow : (s.rowsOf twinId)[i]? = some row) (hnext : (s.rowsOf twinId)[i + 1]? = some next) :
    next.previousHash = row.eventHash := by
  obtain ⟨hlt, hget⟩ := List.getElem?_eq_some_iff.1 hrow
  obtain ⟨hlt', hget'⟩ := List.getElem?_eq_some_iff.1 hnext
  have htake : (s.rowsOf twinId).take (i + 2) = (s.rowsOf twinId).take i ++ [row] ++ [next] := by
    rw [List.take_succ_eq_append_getElem hlt', List.take_succ_eq_append_getElem hlt, hget, hget']
  have hchain : Chained ((s.rowsOf twinId).take (i + 2)) := (hs.chained twinId).take
  rw [htake] at hchain
  have hfollows := (linked_concat.1 hchain).2
  rw [endOf_concat] at hfollows
  exact hfollows.previousHash

/-- Every event carries its own hash. -/
theorem verify_row (hs : s.Valid) {row : EventEnvelope} (hrow : row ∈ s.events) :
    row.verify row.previousHash = .ok () := by
  have hmem : row ∈ s.rowsOf row.twinId := mem_rowsOf.2 ⟨hrow, rfl⟩
  obtain ⟨before, after, hsplit⟩ := List.append_of_mem hmem
  have hchain := hs.chained row.twinId
  rw [hsplit, Chained, linked_append] at hchain
  exact EventEnvelope.verify_eq_ok.2 ⟨rfl, hchain.2.1.eventHash⟩

theorem nodup_keys (hs : s.Valid) :
    (s.events.map fun row => (row.twinId, row.idempotencyKey)).Nodup := by
  rw [List.Nodup, List.pairwise_map]
  refine hs.unique.imp fun {a b} hconflict hsame => ?_
  simp_all [conflicts]

theorem nodup_eventIds (hs : s.Valid) : (s.events.map (·.eventId)).Nodup := by
  rw [List.Nodup, List.pairwise_map]
  refine hs.unique.imp fun {a b} hconflict hsame => ?_
  simp_all [conflicts]

end Store.Valid

/-- What holds of the tables at every moment. -/
structure LedgerInvariant (h : History) : Prop where
  sequences : ∀ twinId, (h.store.rowsOf twinId).map (·.sequence) =
    (List.range (h.store.rowsOf twinId).length).map fun (i : Nat) => (i : Int) + 1
  first : ∀ twinId row, (h.store.rowsOf twinId)[0]? = some row → row.previousHash = ""
  next : ∀ twinId (i : Nat) row next, (h.store.rowsOf twinId)[i]? = some row →
    (h.store.rowsOf twinId)[i + 1]? = some next → next.previousHash = row.eventHash
  hashes : ∀ row ∈ h.store.events, row.verify row.previousHash = .ok ()
  verifyChain : ∀ twinId, h.store.verifyChain twinId = .ok true
  keys : (h.store.events.map fun row => (row.twinId, row.idempotencyKey)).Nodup
  eventIds : (h.store.events.map (·.eventId)).Nodup
  announced : Announced h

/-- What holds of every append. -/
structure AppendContract (s : Store) : Prop where
  fresh : ∀ e x now fault r s', Store.append e x now fault s = .ok r s' →
    s.keyed e.twinId e.idempotencyKey = none → r.sequence = x + 1
  failed : ∀ e x now fault error s', Store.append e x now fault s = .error error s' → s' = s

theorem appendContract (s : Store) : AppendContract s where
  fresh e x now fault r s' hreturns hkey := by
    obtain ⟨-, -, ⟨-, ⟨row, hrow, -⟩, -⟩ | ⟨-, hfresh⟩⟩ := Store.returns_append.1 hreturns
    · rw [hkey] at hrow
      cases hrow
    · rw [hfresh.sealed]
      rfl
  failed _ _ _ _ _ _ herror := Store.append_error herror

/-- **The ledger over whole runs**: whatever the connections do, in any
order and with any failures, every stream is numbered and chained, keys
and ids are unique, and every event is announced. -/
theorem ledger_invariant (hreach : StoreReachable h) :
    LedgerInvariant h ∧ AppendContract h.store := by
  obtain ⟨hvalid, hann⟩ := hreach.keeps
  refine ⟨?_, appendContract h.store⟩
  exact
    { sequences := hvalid.sequences
      first := fun _ _ => hvalid.previousHash_first
      next := fun _ _ _ _ => hvalid.previousHash_next
      hashes := fun _ => hvalid.verify_row
      verifyChain := hvalid.verifyChain_eq
      keys := hvalid.nodup_keys
      eventIds := hvalid.nodup_eventIds
      announced := hann }

/-- Evidence of the subject `s`. -/
def evidencePayload (evidenceId : String) : Payload :=
  Payload.ofFields
    [("evidence_id", .str evidenceId), ("subject_id", .str "s"), ("source", .str "sensor"),
     ("content_hash", .str "sha256:0"), ("independence_group", .str "g"), ("rights", .obj []),
     ("sensitivity", .str "internal")]

/-- A first event for the stream of `t`. -/
def firstEvent : EventEnvelope :=
  EventEnvelope.new "t" "EvidenceIngested" .authoritative (evidencePayload "e1") "ingest"
    .ingestService "key-1" none none ⟨0, "event-1"⟩

/-- A second event of the twin. -/
def secondEvent : EventEnvelope :=
  EventEnvelope.new "t" "DegradationDeclared" .authoritative
    (Payload.ofFields [("reason", .str "drift")]) "ops" .operationsService "key-2" none none
    ⟨0, "event-2"⟩

/-- Two events are committed, the first of them is relayed, and a third
append expects the head that was. -/
def relayedOnce : List StoreOp :=
  let stored := firstEvent.sealAt 1 "" (DateTime.utc 1)
  [.append firstEvent 0 1 none, .append secondEvent 1 1 none, .claimOutbox "relay" 1 30 2,
    .markOutboxPublished { topic := Store.eventTopic, key := "t", event := stored
                           createdAt := stored.recordedAt, attempts := 1, leaseOwner := "relay" } 3,
    .append { firstEvent with eventId := "event-3", idempotencyKey := "key-3" } 1 4 none]

omit [Digest] in
theorem ledger_invariant_relayedOnce :
    let _ : Digest := checksumDigest
    let h := run History.step {} relayedOnce
    (h.store.events.map (·.sequence) = [1, 2] ∧
        h.store.outbox.map (·.publishedAt) = [some (DateTime.utc 3), none]) ∧
      LedgerInvariant h ∧ AppendContract h.store := by
  intro digest h
  have hreach : StoreReachable h := by
    refine reachable_run_of fun op hop h => ?_
    simp only [relayedOnce, List.mem_cons, List.not_mem_nil, or_false] at hop
    rcases hop with rfl | rfl | rfl | rfl | rfl
    · exact rfl
    · exact rfl
    · trivial
    · trivial
    · exact rfl
  exact ⟨by decide +kernel, ledger_invariant hreach⟩

end ArgoTwin
