import ArgoTwin.ServiceSteps
/-!
# One call after another

`append` awaits nothing before its event is stored and its state cached,
so the calls of one service on one event loop follow one another up to
there. From a sound ledger and a coherent memory, such a call leaves both
so where its event is read back as it is, and adds to the ledger nothing,
or the one event the latest state accepted (`append_outcome`).
-/

namespace ArgoTwin

open Library TwinAggregate

/-- The events and what depends on them are as they were: only snapshots,
leases and marks moved. -/
structure SameLedger (s s' : Store) : Prop where
  events : s'.events = s.events
  dependencies : s'.dependencies = s.dependencies
  invalidations : s'.invalidations.map Store.InvalidationRow.said =
    s.invalidations.map Store.InvalidationRow.said

theorem SameLedger.refl {s : Store} : SameLedger s s := ⟨rfl, rfl, rfl⟩

theorem SameLedger.trans {s s' s'' : Store} (h : SameLedger s s') (h' : SameLedger s' s'') :
    SameLedger s s'' :=
  ⟨h'.events.trans h.events, h'.dependencies.trans h.dependencies,
    h'.invalidations.trans h.invalidations⟩

/-- A ledger kept sound without a word added to it. -/
structure Upkeep [Digest] (s s' : Store) : Prop where
  sound : Sound s'
  same : SameLedger s s'

/-- The ledger is sound, and the memory agrees with it. -/
structure Process.Healthy [Digest] (p : Process) : Prop where
  sound : Sound p.store
  coherent : p.memory.Coherent p.store

/-- The event `r` an append of `e` committed: its actor may write it, it is
valid and read back as it is, and the state before it accepts it. -/
structure Committed [Digest] (s : Store) (e : EventEnvelope) (actor : ActorContext) (x : Int)
    (now : Instant) (r : EventEnvelope) (s' : Store) : Prop where
  authorized : EventOwnershipPolicy.authorize e actor = .ok ()
  validated : validateEvent e = .ok ()
  plane : e.plane ≠ .simulation
  canonical : r.payload.Canonical
  accepts : Accepts r (latest s e.twinId)
  fresh : ∃ after, s.Fresh e x now r after ∧ SameLedger after s'

variable [Digest] {s s' t : Store} {p p' : Process}

/-- The state accepts it as it will be read back, too. -/
theorem accepts_decode {e r : EventEnvelope} {x : Int} {now : Instant}
    (hfresh : s.Fresh e x now r s') (haware : e.occurredAt.naive = false)
    (hcanonical : r.payload.Canonical) {state : TwinState} :
    Accepts (Store.decode r) state ↔ Accepts r state := by
  have haware' : r.occurredAt.naive = false := by
    rw [hfresh.sealed]
    exact haware
  exact (Store.sameRequest_decode haware' hcanonical).accepts.symm

theorem Upkeep.outbox (h : Upkeep s t) {rows : List OutboxRow} :
    Upkeep s { t with outbox := rows } :=
  ⟨h.sound.of_same rfl (List.Subset.refl _), h.same.trans ⟨rfl, rfl, rfl⟩⟩

theorem Upkeep.snapshots (h : Upkeep s t) {rows : List SnapshotRecord} (hrows : rows ⊆ t.snapshots) :
    Upkeep s { t with snapshots := rows } :=
  ⟨h.sound.of_same rfl hrows, h.same.trans ⟨rfl, rfl, rfl⟩⟩

namespace Service

variable {svc : Service} {α : Type} {m : Memory}

omit [Digest] in
/-- What a method may do to the store alone. -/
theorem keeps_onStore {P : Store → Prop} {x : Store.Method α} (hx : Keeps P x) :
    Keeps (fun q : Process => P q.store ∧ q.memory = m) (onStore x) := by
  intro q hq
  rw [finalState_onStore]
  exact ⟨hx q.store hq.1, hq.2⟩

omit [Digest] in
theorem keeps_demand {P : Process → Prop} {ok : Prop} [Decidable ok] {error : PyError} :
    Keeps P (demand ok error) := keeps_ite keeps_pure keeps_throw

/-- Draining the outbox is upkeep. -/
theorem keeps_drain {limit : Int} {readings : RelayReadings} :
    Keeps (fun q : Process => Upkeep s q.store ∧ q.memory = m) (svc.drain limit readings) := by
  have hupdate : ∀ (record : OutboxRecord) (f : OutboxRow → OutboxRow),
      Keeps (Upkeep s) (Store.updateLeased record f) := fun record f =>
    keeps_get_bind fun t ht => keeps_bind (keeps_set_of ht.outbox) (fun _ => keeps_pure) t ht
  have hclaim : Keeps (Upkeep s) (Store.claimOutbox svc.leaseOwner limit 30 readings.claimed) :=
    Store.keeps_claimOutbox fun _ _ _ t _ _ ht => ht.outbox
  refine keeps_bind (keeps_onStore hclaim) fun records => ?_
  refine keeps_bind (keeps_mapM fun record => ?_) fun _ => keeps_pure
  unfold relayRecord
  split
  · exact keeps_bind (keeps_onStore (hupdate _ _)) fun _ => keeps_bind keeps_demand fun _ =>
      keeps_pure
  · exact keeps_bind (keeps_onStore (hupdate _ _)) fun _ => keeps_bind keeps_demand fun _ =>
      keeps_pure

/-- So is a snapshot. -/
theorem upkeep_snapshot {head : Int × String} {persisted : EventEnvelope}
    {readings : AppendReadings} :
    Keeps (fun q : Process => Upkeep s q.store ∧ q.memory = m)
      (svc.snapshot head persisted readings) := by
  have hprune : ∀ keep, Keeps (Upkeep s) (Store.pruneSnapshots persisted.twinId keep) := by
    intro keep t ht
    obtain ⟨kept, hsubset, hkept⟩ :=
      Store.finalState_pruneSnapshots (s := t) persisted.twinId keep
    rw [hkept]
    exact ht.snapshots hsubset
  have hoverdue : ∀ before limit, Keeps (Upkeep s) (Store.pruneOutbox before limit) := by
    intro before limit t ht
    obtain ⟨kept, hkept, -⟩ := Store.finalState_pruneOutbox (s := t) before limit
    rw [hkept]
    exact ht.outbox
  refine keeps_ite (keeps_get_bind fun q hq => ?_) keeps_pure
  cases hstate : rebuild q.store persisted.twinId false none none with
  | error err => exact hq
  | ok state =>
    -- the state saved is the one just rebuilt
    have hsaved : Upkeep s (finalState (Store.saveSnapshot (state.toSnapshot readings.snapshotted))
        q.store) := by
      rcases Store.finalState_saveSnapshot (s := q.store)
        (state.toSnapshot readings.snapshotted) with hsame | ⟨hsavable, hstore⟩
      · rw [hsame]
        exact hq.1
      · rw [hstore]
        exact ⟨hq.1.sound.saved ⟨hsavable, rfl⟩
          ⟨state, readings.snapshotted, hq.1.sound.replayed_of_rebuild hstate, rfl⟩,
          hq.1.same.trans ⟨rfl, rfl, rfl⟩⟩
    have hread : Returns (fromExcept (.ok state : Except PyError TwinState)) q state q := rfl
    rw [finalState_bind hread]
    refine finalState_bind_keeps
      (P := fun q : Process => Upkeep s q.store ∧ q.memory = m) ?_ fun _ => ?_
    · rw [finalState_onStore]
      exact ⟨hsaved, hq.2⟩
    · exact keeps_bind (keeps_onStore (hprune _)) fun _ =>
        keeps_bind (keeps_onStore (hoverdue _ _)) fun _ => keeps_pure

variable {e : EventEnvelope} {actor : ActorContext} {x : Int} {readings : AppendReadings}

/-- What follows a stored event: the memory follows it, and the rest is
upkeep. -/
theorem upkeep_rest (readings : AppendReadings) {head : Int × String} {held : Option Nat} {persisted : EventEnvelope}
    (hs : Sound p.store) (hsettled : Served p (finalState (svc.settle head held persisted) p)) :
    let rest : Method EventEnvelope := do
      svc.settle head held persisted
      svc.snapshot head persisted readings
      let _ ← svc.drain 100 readings.relay
      pure persisted
    Upkeep p.store (finalState rest p).store ∧ (finalState rest p).memory.Coherent p.store := by
  intro rest
  have hP : Upkeep p.store (finalState (svc.settle head held persisted) p).store := by
    rw [hsettled.store]
    exact ⟨hs, .refl⟩
  have hrest : Keeps (fun q : Process => Upkeep p.store q.store ∧
      q.memory = (finalState (svc.settle head held persisted) p).memory)
      (do svc.snapshot head persisted readings
          let _ ← svc.drain 100 readings.relay
          pure persisted) :=
    keeps_bind upkeep_snapshot fun _ => keeps_bind keeps_drain fun _ => keeps_pure
  obtain ⟨hupkeep, hmemory⟩ := finalState_bind_keeps (x := svc.settle head held persisted)
    (s := p) ⟨hP, rfl⟩ fun _ => hrest
  refine ⟨hupkeep, ?_⟩
  rw [hmemory]
  exact hsettled.coherent

/-- A store that refuses an event leaves the process as it was. -/
theorem persist_error {now : Instant} {err : PyError} (h : persist e x now p = .error err p') :
    p' = p := by
  simp only [persist, onStore, onPart] at h
  cases happend : Store.append e x now none p.store with
  | ok r t => simp [happend] at h
  | error err' t =>
    simp only [happend, EStateM.Result.error.injEq] at h
    obtain rfl := Store.append_error happend
    exact h.2.symm

/-- A preview that passed holds the latest state of the twin, which stands
at the head expected and accepts the event. -/
theorem previewed {head : Int × String} {now : Instant} {held : Option Nat} (hp : p.Healthy)
    (h : Returns (svc.preview e x head now) p held p') :
    (∀ ref, held = some ref → p'.memory.Holds ref e.twinId ∧
      p'.memory.objects ref = latest p.store e.twinId ∧
      (latest p.store e.twinId).position = head) ∧
    (head.1 = x →
      Accepts (e.sealAt (x + 1) head.2 (DateTime.utc now)) (latest p.store e.twinId)) := by
  rcases returns_preview.1 h with ⟨hhead, rfl, -⟩ | ⟨hhead, ref, rfl, hlatest, hposition, haccepts⟩
  · exact ⟨fun ref habsurd => (by cases habsurd), fun hsame => absurd hsame hhead⟩
  · obtain ⟨-, hholds, hobject⟩ := served_latestState hp.sound hp.coherent hlatest
    rw [hobject] at hposition haccepts
    refine ⟨fun ref' href => ?_, fun _ => haccepts⟩
    obtain rfl := Option.some.inj href
    exact ⟨hholds, hobject, hposition⟩

/-- **What the store answers an append with**: an event it holds, or the
one the latest state accepts. -/
theorem answered_append {now now' : Instant} {held : Option Nat} {q : Process} {r : EventEnvelope}
    (hp : p.Healthy) (hvalidated : validateEvent e = .ok ())
    (hpreview : Returns (svc.preview e x (p.store.head e.twinId) now) p held q)
    (happend : Returns (Store.append e x now' none) p.store r s') :
    (s' = p.store ∧ p.store.Duplicate e r ∧ r.sequence ≤ (p.store.head e.twinId).1) ∨
      (Accepts r (latest p.store e.twinId) ∧ p.store.Fresh e x now' r s') := by
  obtain ⟨hstored, htwin⟩ :=
    stored_of_append hp.sound.valid (header_of_validateEvent hvalidated).2.1 happend
  obtain ⟨-, haccepted⟩ := previewed hp hpreview
  obtain ⟨-, -, ⟨-, hduplicate, rfl⟩ | ⟨-, hfresh⟩⟩ := Store.returns_append.1 happend
  · -- a duplicate is no later than the head
    have hwithin := (Store.mem_sequence (hp.sound.valid.chained_stream _) hstored.mem).2
    rw [htwin, Int.zero_add, ← hp.sound.valid.head_sequence] at hwithin
    exact .inl ⟨rfl, hduplicate, hwithin⟩
  · have hsame : SameRequest (e.sealAt (x + 1) (p.store.head e.twinId).2 (DateTime.utc now)) r := by
      rw [hfresh.sealed]
      exact ⟨rfl, rfl, rfl, rfl, rfl, rfl, rfl, rfl, rfl⟩
    exact .inr ⟨hsame.accepts.1 (haccepted hfresh.head), hfresh⟩

/-- The call settles on the answer. -/
theorem settles {now now' : Instant} {held : Option Nat} {q : Process} {r : EventEnvelope}
    (svc : Service) (hp : p.Healthy) (hvalidated : validateEvent e = .ok ())
    (hpreview : Returns (svc.preview e x (p.store.head e.twinId) now) p held q)
    (happend : Returns (Store.append e x now' none) p.store r s') :
    ∃ q', Returns (svc.settle (p.store.head e.twinId) held r) { q with store := s' } () q' ∧
      q'.store = s' := by
  refine settle_ok svc (p.store.head e.twinId) (p := { q with store := s' }) fun ref href hpast => ?_
  obtain ⟨-, hobject, -⟩ := (previewed hp hpreview).1 ref href
  rcases answered_append hp hvalidated hpreview happend with ⟨-, -, hwithin⟩ | ⟨haccepts, -⟩
  · exact absurd hpast (not_lt.2 hwithin)
  · show Accepts r (q.memory.objects ref)
    rwa [hobject]

/-- **Once the store has answered** a canonical event, the ledger is sound,
the call settles, and what was stored, if it is new, is what the latest
state accepts. -/
theorem settled_append {now now' : Instant} {held : Option Nat} {q : Process} {r : EventEnvelope}
    (svc : Service) (hp : p.Healthy) (hvalidated : validateEvent e = .ok ())
    (hplane : e.plane ≠ .simulation) (hcanonical : e.payload.Canonical)
    (hpreview : Returns (svc.preview e x (p.store.head e.twinId) now) p held q)
    (happend : Returns (Store.append e x now' none) p.store r s') :
    Sound s' ∧
      ((s' = p.store ∧ p.store.Duplicate e r ∧ r.sequence ≤ (p.store.head e.twinId).1) ∨
        (r.payload.Canonical ∧ Accepts r (latest p.store e.twinId) ∧
          p.store.Fresh e x now' r s')) ∧
      ∃ q', Returns (svc.settle (p.store.head e.twinId) held r) { q with store := s' } () q' ∧
        Served { q with store := s' } q' := by
  have hserved := served_preview svc e x (p.store.head e.twinId) now hp.sound hp.coherent
  rw [finalState_of_returns hpreview] at hserved
  have haware := (header_of_validateEvent hvalidated).2.1
  obtain ⟨hstored, htwin⟩ := stored_of_append hp.sound.valid haware happend
  obtain ⟨hheld, -⟩ := previewed hp hpreview
  have hsettled : Sound s' → q.memory.Coherent s' →
      (∀ ref, held = some ref → (p.store.head e.twinId).1 < r.sequence →
        r.payload.Canonical ∧ r.sequence = (q.memory.objects ref).sequence + 1) →
      ∃ q', Returns (svc.settle (p.store.head e.twinId) held r) { q with store := s' } () q' ∧
        Served { q with store := s' } q' := fun hsound hcoherent hnext =>
    settle_returns svc (p.store.head e.twinId) held (p := { q with store := s' }) hsound hcoherent
      hstored (fun ref href => htwin ▸ (hheld ref href).1) hnext
  rcases answered_append hp hvalidated hpreview happend with
    ⟨rfl, hduplicate, hwithin⟩ | ⟨haccepts, hfresh⟩
  · exact ⟨hp.sound, .inl ⟨rfl, hduplicate, hwithin⟩, hsettled hp.sound hserved.coherent
      fun ref _ hpast => absurd hpast (not_lt.2 hwithin)⟩
  · have hcanonical' : r.payload.Canonical := by
      rw [hfresh.sealed]
      exact hcanonical
    have hsound := hp.sound.fresh hfresh haware (Store.returns_append.1 happend).1 hplane
      ((accepts_decode hfresh haware hcanonical').2 haccepts)
    refine ⟨hsound, .inr ⟨hcanonical', haccepts, hfresh⟩, hsettled hsound
      (hserved.coherent.of_extends (extends_fresh hfresh)) fun ref href _ => ⟨hcanonical', ?_⟩⟩
    obtain ⟨-, hobject, hposition⟩ := hheld ref href
    have hsequence := congrArg (·.1) hposition
    simp only [TwinState.position] at hsequence
    rw [hobject, hsequence, hfresh.head, hfresh.sealed]
    rfl

/-- **What an append of a canonical event does**, from a sound ledger and a
coherent memory: it leaves both so, and either says nothing new or commits
its event. -/
theorem append_outcome (svc : Service) (e : EventEnvelope) (actor : ActorContext) (x : Int)
    (readings : AppendReadings) (hp : p.Healthy) (hcanonical : e.payload.Canonical) :
    let p' := finalState (svc.append e actor x readings) p
    p'.Healthy ∧ (SameLedger p.store p'.store ∨
      ∃ r, Committed p.store e actor x readings.recorded r p'.store) := by
  intro p'
  have hstays : ∀ q, Served p q → q.Healthy ∧ SameLedger p.store q.store := by
    intro q hq
    rw [hq.store]
    exact ⟨⟨hq.store ▸ hp.sound, hq.store ▸ hq.coherent⟩, .refl⟩
  have hstart : p' = finalState (svc.append e actor x readings) p := rfl
  unfold append at hstart
  -- the checks
  rcases finalState_cases (vet e actor) p with ⟨head, hvet⟩ | ⟨err, hvet⟩
  swap
  · rw [finalState_bind_error hvet, finalState_vet] at hstart
    rw [hstart]
    exact ⟨hp, .inl .refl⟩
  rw [finalState_bind hvet, finalState_vet] at hstart
  rw [finalState_vet, returns_vet] at hvet
  obtain ⟨⟨hauthorized, hvalidated, hplane⟩, rfl, -⟩ := hvet
  -- the preview
  have hserved := served_preview svc e x (p.store.head e.twinId) readings.previewed hp.sound
    hp.coherent
  rcases finalState_cases (svc.preview e x (p.store.head e.twinId) readings.previewed) p with
    ⟨held, hpreview⟩ | ⟨err, hpreview⟩
  swap
  · rw [finalState_bind_error hpreview] at hstart
    rw [hstart]
    exact (hstays _ hserved).imp_right .inl
  rw [finalState_bind hpreview] at hstart
  generalize finalState (svc.preview e x (p.store.head e.twinId) readings.previewed) p = q
    at hserved hpreview hstart
  have hqstore := hserved.store
  -- the store
  rcases finalState_cases (persist e x readings.recorded) q with ⟨persisted, hpersist⟩ |
    ⟨err, hpersist⟩
  swap
  · rw [finalState_bind_error hpersist, persist_error hpersist] at hstart
    rw [hstart]
    exact (hstays q hserved).imp_right .inl
  rw [finalState_bind hpersist] at hstart
  generalize finalState (persist e x readings.recorded) q = q' at hpersist hstart
  obtain ⟨s', hreturns, rfl⟩ := returns_onStore.1 hpersist
  rw [hqstore] at hreturns
  obtain ⟨hsound, hnew, q', hsettle, hsettled⟩ :=
    settled_append svc hp hvalidated hplane hcanonical hpreview hreturns
  -- the rest
  obtain ⟨hupkeep, hcoherent⟩ := upkeep_rest readings (p := { q with store := s' }) hsound
    (by rw [finalState_of_returns hsettle]; exact hsettled)
  rw [← hstart] at hupkeep hcoherent
  refine ⟨⟨hupkeep.sound, hcoherent.of_extends (extends_of_events hupkeep.same.events)⟩, ?_⟩
  rcases hnew with ⟨hsame, -, -⟩ | ⟨hcanonical', haccepts, hfresh⟩
  · exact .inl (hsame ▸ hupkeep.same)
  · exact .inr ⟨persisted, hauthorized, hvalidated, hplane, hcanonical', haccepts, s', hfresh,
      hupkeep.same⟩

end Service

end ArgoTwin
