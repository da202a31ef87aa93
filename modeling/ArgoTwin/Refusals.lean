import ArgoTwin.Library.Guarding
import ArgoTwin.ServiceRuns
import ArgoTwin.SourceRecords
/-!
# What a failed write has written

A call that raises before its event is stored leaves the store as it was.
After the event is stored the call goes on to take a snapshot and to drain
the outbox, and it may fail there too; what it raises then is not what
callers take for a refusal.
-/

namespace ArgoTwin

open Library TwinAggregate

/-- Raised by a stored row that is not what it was, or by a clock at the
end of its calendar. -/
def PyError.Late : PyError → Prop
  | integrityError _ | overflowError _ => True
  | _ => False

section Late

variable [Digest]

theorem late_verify {e : EventEnvelope} {previous : String} {err : PyError}
    (h : e.verify previous = .error err) : err.Late := by
  unfold EventEnvelope.verify at h
  split_ifs at h <;> cases h <;> trivial

theorem late_verifySnapshot {snapshot : SnapshotRecord} {err : PyError}
    (h : snapshot.verify = .error err) : err.Late := by
  unfold SnapshotRecord.verify at h
  split_ifs at h <;> cases h <;> trivial

omit [Digest] in
theorem late_bindInteger {n : Int} {err : PyError} (h : Store.bindInteger n = .error err) :
    err.Late := by
  simp only [Store.bindInteger] at h
  split_ifs at h
  cases h
  trivial

omit [Digest] in
theorem late_leaseEnd {now : Instant} {leaseSeconds : Int} {err : PyError}
    (h : Store.leaseEnd now leaseSeconds = .error err) : err.Late := by
  simp only [Store.leaseEnd] at h
  split_ifs at h
  cases h
  trivial

namespace Store

variable {s : Store} {leaseOwner : String}

/-- A row of a sound store is read back. -/
theorem rowToEvent_eventAt (hs : Sound s) {twinId : String} {sequence : Int} {row : EventEnvelope}
    (h : s.eventAt twinId sequence = some row) : rowToEvent row = .ok (decode row) :=
  rowToEvent_eq (hs.valid.admitted row (List.mem_of_find?_eq_some h))

/-- Claiming a row raises late errors at most, -/
theorem late_claimRow {now leaseUntil : DateTime} {row : OutboxRow} :
    RaisesFrom (Upkeep s) PyError.Late (claimRow leaseOwner now leaseUntil row) := by
  refine raisesFrom_get_bind fun t ht => ?_
  simp only
  split
  · exact raisesFrom_pure
  · -- the rows claimed are updated, the events are not
    have hupdate : ∀ rows : List OutboxRow, Upkeep s { t with outbox := rows } := fun _ => ht.outbox
    refine RaisesFrom.of_mem ?_ ht
    refine raisesFrom_bind raises_set.from_any (keeps_set_of (hupdate _)) fun _ => ?_
    refine raisesFrom_get_bind fun t' ht' => ?_
    split
    case h_1 event hrow hevent =>
      have hread := rowToEvent_eventAt ht.sound hevent
      refine raisesFrom_fromExcept_bind (fun err h => ?_) fun _ _ => ?_
      · rw [hread] at h
        cases h
      · exact raisesFrom_bind (raisesFrom_fromExcept fun err h => late_verify h) keeps_fromExcept
          fun _ => raisesFrom_pure
    · exact raisesFrom_throw trivial

/-- so does claiming a batch, for a relay that has a name, -/
theorem late_claimOutbox {limit leaseSeconds : Int} {now : Instant} (howner : leaseOwner ≠ "")
    (hseconds : 1 ≤ leaseSeconds) :
    RaisesFrom (Upkeep s) PyError.Late (claimOutbox leaseOwner limit leaseSeconds now) := by
  unfold claimOutbox
  refine raisesFrom_ite (fun h => absurd h howner) fun _ => raisesFrom_ite (fun _ => raisesFrom_pure)
    fun _ => raisesFrom_ite (fun h => absurd hseconds (not_le.2 h)) fun _ => ?_
  refine raisesFrom_bind (raisesFrom_fromExcept fun err h => late_leaseEnd h) keeps_fromExcept
    fun leaseUntil => raisesFrom_bind (raisesFrom_fromExcept fun err h => late_bindInteger h)
    keeps_fromExcept fun bound => raisesFrom_transaction (raisesFrom_get_bind fun t ht => ?_)
  have hkeeps : ∀ row, Keeps (Upkeep s) (claimRow leaseOwner (DateTime.utc now)
      (DateTime.utc leaseUntil) row) := fun row => keeps_claimRow fun t _ _ ht => ht.outbox
  exact (raisesFrom_bind (raisesFrom_mapM (fun _ => late_claimRow) hkeeps) (keeps_mapM hkeeps)
    fun _ => raisesFrom_pure).of_mem ht

/-- and saving a snapshot. -/
theorem late_saveSnapshot {snapshot : SnapshotRecord} :
    RaisesFrom (Upkeep s) PyError.Late (saveSnapshot snapshot) := by
  refine raisesFrom_bind (raisesFrom_fromExcept fun err h => late_verifySnapshot h) keeps_fromExcept
    fun _ => raisesFrom_transaction (raisesFrom_get_bind fun t ht => ?_)
  split
  · exact raisesFrom_throw trivial
  · split
    · exact raisesFrom_throw trivial
    · split
      case h_1 existing hexisting =>
        -- a snapshot that is there was taken of a state, at a time that has an offset
        obtain ⟨n, now, -, hfaithful⟩ :=
          ht.sound.faithful existing (List.mem_of_find?_eq_some hexisting)
        have hcreated : existing.createdAt.naive = false := by
          rw [hfaithful]
          rfl
        refine raisesFrom_bind (raisesFrom_fromExcept fun err h => ?_) keeps_fromExcept fun stored =>
          raisesFrom_ite (fun _ => raisesFrom_throw trivial) fun _ => raisesFrom_pure
        simp only [rowToSnapshot, hcreated, Bool.false_eq_true, if_false] at h
        exact error_of_bind (fun err h => late_verifySnapshot h) (fun _ _ hpure => by cases hpure) err h
      · exact (raises_bind raises_set fun _ => raises_pure).from_any

end Store

/-! ## The rest of a call -/

namespace Service

variable {svc : Service} {s : Store} {m : Memory} {p p' : Process}

omit [Digest] in
theorem raisesFrom_onStore {E : PyError → Prop} {P : Store → Prop} {α : Type} {x : Store.Method α}
    (hx : RaisesFrom P E x) :
    RaisesFrom (fun q : Process => P q.store ∧ q.memory = m) E (onStore x) :=
  raisesFrom_onPart hx fun _ hq => hq.1

/-- Draining the outbox raises late errors at most, for a relay that has a
name. -/
theorem late_drain {limit : Int} {readings : RelayReadings} (howner : svc.leaseOwner ≠ "") :
    RaisesFrom (fun q : Process => Upkeep s q.store ∧ q.memory = m) PyError.Late
      (svc.drain limit readings) := by
  have hupdate : ∀ (record : OutboxRecord) (f : OutboxRow → OutboxRow),
      Raises PyError.Late (onStore (Store.updateLeased record f)) := fun record f =>
    raises_onPart (raises_bind raises_get fun _ => raises_bind raises_set fun _ => raises_pure)
  have hdemand : ∀ (ok : Prop) [Decidable ok] (message : String),
      Raises PyError.Late (demand ok (.integrityError message)) := fun ok _ message =>
    raises_ite raises_pure (raises_throw trivial)
  have hrecord : ∀ record, Raises PyError.Late (relayRecord readings record) := by
    intro record
    unfold relayRecord
    split
    · exact raises_bind (hupdate _ _) fun _ => raises_bind (hdemand _ _) fun _ => raises_pure
    · exact raises_bind (hupdate _ _) fun _ => raises_bind (hdemand _ _) fun _ => raises_pure
  have hclaim : Keeps (Upkeep s) (Store.claimOutbox svc.leaseOwner limit 30 readings.claimed) :=
    Store.keeps_claimOutbox fun _ _ _ t _ _ ht => ht.outbox
  refine raisesFrom_bind (raisesFrom_onStore (Store.late_claimOutbox howner (by decide)))
    (keeps_onStore hclaim) fun records => Raises.from_any ?_
  exact raises_bind (raises_mapM hrecord) fun _ => raises_pure

/-- Nor does a snapshot raise others: what its pruning rejects, the
service was not configured with. -/
theorem late_snapshot {head : Int × String} {persisted : EventEnvelope}
    {readings : AppendReadings} :
    RaisesFrom (fun q : Process => Upkeep s q.store ∧ q.memory = m) PyError.Late
      (svc.snapshot head persisted readings) := by
  have hprune : ∀ twinId, Raises PyError.Late (Store.pruneSnapshots twinId svc.snapshotRetention) := by
    intro twinId
    unfold Store.pruneSnapshots
    rw [if_neg (not_lt.2 svc.snapshot_retention_positive)]
    exact raises_bind (raises_fromExcept fun err h => late_bindInteger h) fun _ =>
      raises_bind raises_get fun _ => raises_bind raises_set fun _ => raises_pure
  have hoverdue : ∀ before : Instant, Raises PyError.Late (Store.pruneOutbox (DateTime.utc before) 1000) := by
    intro before
    unfold Store.pruneOutbox
    rw [if_neg (show ¬ (DateTime.utc before).naive = true from Bool.false_ne_true)]
    exact raises_ite raises_pure (raises_bind (raises_fromExcept fun err h => late_bindInteger h)
      fun _ => raises_bind raises_get fun _ => raises_bind raises_set fun _ => raises_pure)
  refine raisesFrom_ite (fun _ => ?_) fun _ => raisesFrom_pure
  rintro q hq err q' h
  obtain ⟨state, hstate⟩ : ∃ state, rebuild q.store persisted.twinId false none none = .ok state :=
    ⟨_, hq.1.sound.rebuild_latest persisted.twinId false⟩
  have hread : Returns (fromExcept (rebuild q.store persisted.twinId false none none)) q state q :=
    returns_fromExcept.2 ⟨hstate, rfl⟩
  rw [bind_eq_of_returns (returns_get.2 ⟨rfl, rfl⟩), bind_eq_of_returns hread] at h
  rcases bind_eq_error h with hsave | ⟨_, t, -, hrest⟩
  · exact raisesFrom_onStore (m := m) Store.late_saveSnapshot q hq err q' hsave
  · refine (?_ : Raises PyError.Late _) t err q' hrest
    exact raises_bind (raises_onPart (hprune _)) fun _ =>
      raises_bind (raises_onPart (hoverdue _)) fun _ => raises_pure

/-! ## Calls that raise -/

variable {e : EventEnvelope} {actor : ActorContext} {x : Int} {readings : AppendReadings}
  {err : PyError}

/-- **An append that raises** anything but a late error has written nothing. -/
theorem append_error (hp : p.Healthy) (hcanonical : e.payload.Canonical)
    (howner : svc.leaseOwner ≠ "") (h : svc.append e actor x readings p = .error err p') : err.Late ∨ p'.store = p.store := by
  unfold append at h
  -- the checks, the preview and the store's own append leave the store alone
  rcases bind_eq_error h with hvet | ⟨head, q, hvet, h⟩
  · rw [← finalState_of_error hvet, finalState_vet]
    exact .inr rfl
  obtain ⟨⟨-, hvalidated, hplane⟩, rfl, rfl⟩ := returns_vet.1 hvet
  rcases bind_eq_error h with hpreview | ⟨held, q', hpreview, h⟩
  · rw [← finalState_of_error hpreview]
    exact .inr store_preview
  have hqstore : q'.store = q.store := by
    rw [← finalState_of_returns hpreview]
    exact store_preview
  rcases bind_eq_error h with hpersist | ⟨persisted, q'', hpersist, h⟩
  · rw [persist_error hpersist]
    exact .inr hqstore
  obtain ⟨s', happend, rfl⟩ := returns_onStore.1 hpersist
  rw [hqstore] at happend
  obtain ⟨hsound, -, t, hsettle, hserved⟩ := settled_append svc hp hvalidated hplane hcanonical hpreview happend
  rw [bind_eq_of_returns hsettle] at h
  -- what comes after the event is stored raises late errors only
  have hsettled : Upkeep s' t.store ∧ t.memory = t.memory :=
    ⟨hserved.store ▸ ⟨hsound, .refl⟩, rfl⟩
  have hsnapshot : RaisesFrom (fun q : Process => Upkeep s' q.store ∧ q.memory = t.memory)
      PyError.Late (svc.snapshot (q.store.head e.twinId) persisted readings) := late_snapshot
  have hdrain : RaisesFrom (fun q : Process => Upkeep s' q.store ∧ q.memory = t.memory)
      PyError.Late (svc.drain 100 readings.relay) := late_drain howner
  have hrest := raisesFrom_bind hsnapshot upkeep_snapshot fun _ =>
    raisesFrom_bind hdrain keeps_drain fun _ => raisesFrom_pure (a := persisted)
  exact .inl (hrest t hsettled err p' h)

end Service

end Late

end ArgoTwin
