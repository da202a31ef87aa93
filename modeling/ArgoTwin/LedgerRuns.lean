import ArgoTwin.JsonText
import ArgoTwin.Snapshots
/-!
# Runs of a vetted ledger

A store is handed events that the state of their stream accepts as they
will be read back, and snapshots of what was rebuilt. `Vetted` is that
condition on a step of the store's runs. It keeps every stream legal and
every snapshot faithful, and streams only ever grow.
-/

namespace ArgoTwin

open Library TwinAggregate

namespace Store

/-- Reading a canonical event back changes nothing acceptance looks at. -/
theorem sameRequest_decode {r : EventEnvelope} (haware : r.occurredAt.naive = false)
    (hcanonical : r.payload.Canonical) : SameRequest r (decode r) where
  twinId := rfl
  eventType := rfl
  plane := rfl
  payload := hcanonical.symm
  producer := rfl
  idempotencyKey := rfl
  schemaVersion := rfl
  naive := haware
  placed := rfl

variable [Digest] {s s' : Store} {e r : EventEnvelope} {x : Int} {now : Instant}

/-- A fresh append extends its twin's stream, and no other. -/
theorem Fresh.stream_eq (h : Fresh s e x now r s') (twinId : String) :
    s'.stream twinId =
      if e.twinId = twinId then s.stream twinId ++ [decode r] else s.stream twinId := by
  rw [stream, h.rowsOf_eq, stream]
  split <;> simp

/-- The stream, for a fresh append of its own twin. -/
theorem Fresh.stream_self (h : Fresh s e x now r s') :
    s'.stream e.twinId = s.stream e.twinId ++ [decode r] := by
  rw [h.stream_eq, if_pos rfl]

end Store

/-- The streams of one store are beginnings of those of the other. -/
def Extends (s s' : Store) : Prop :=
  ∀ twinId, s.stream twinId <+: s'.stream twinId

theorem Extends.refl {s : Store} : Extends s s := fun _ => List.prefix_rfl

theorem Extends.trans {s s' s'' : Store} (h : Extends s s') (h' : Extends s' s'') :
    Extends s s'' := fun twinId => (h twinId).trans (h' twinId)

theorem extends_of_events {s s' : Store} (h : s'.events = s.events) : Extends s s' := by
  intro twinId
  have hstream : s'.stream twinId = s.stream twinId := by
    rw [Store.stream, Store.stream, Store.rowsOf, Store.rowsOf, h]
  simp only [hstream, List.prefix_rfl]

/-- A state after events that were there stays what it was. -/
theorem Extends.stateAt_eq {s s' : Store} (h : Extends s s') {twinId : String} {n : Nat}
    (hn : n ≤ (s.stream twinId).length) : stateAt s' twinId n = stateAt s twinId n := by
  obtain ⟨more, hmore⟩ := h twinId
  rw [stateAt, stateAt, ← hmore, List.take_append_of_le_length hn]

theorem lawful_of_events {s s' : Store} (h : s'.events = s.events) (hs : Lawful s) :
    Lawful s' := by
  intro twinId
  rw [Store.stream, Store.rowsOf, h]
  exact hs twinId

variable [Digest] {h h' : History} {op : StoreOp}

/-- The event is one the store answered with, as it was read back or as it
was handed in. -/
structure Stored (s : Store) (e : EventEnvelope) : Prop where
  mem : Store.decode e ∈ s.stream e.twinId
  aware : e.occurredAt.naive = false
  recordedAt : e.recordedAt.astimezoneUtc = e.recordedAt

omit [Digest] in
theorem Stored.of_extends {s s' : Store} {e : EventEnvelope} (h : Stored s e)
    (hs : Extends s s') : Stored s' e :=
  ⟨(hs e.twinId).subset h.mem, h.aware, h.recordedAt⟩

omit [Digest] in
/-- Reading a canonical event back changes nothing it does to a state. -/
theorem Stored.effect_decode {s : Store} {e : EventEnvelope} (h : Stored s e)
    (hcanonical : e.payload.Canonical) (state : TwinState) :
    effect (Store.decode e) state = effect e state := by
  refine ((Store.sameRequest_decode h.aware hcanonical).effect ?_ rfl rfl).symm
  rw [Store.decode, h.recordedAt]

/-- **A stored event stands in its stream**: where it is canonical, the state
before it accepts it, and it takes that state to the one after it. -/
theorem Stored.place {s : Store} {e : EventEnvelope} (h : Stored s e) (hvalid : s.Valid)
    (hlawful : Lawful s) (hcanonical : e.payload.Canonical) : ∃ n < (s.stream e.twinId).length, e.sequence = (n : Int) + 1 ∧
      Accepts e (stateAt s e.twinId n) ∧
      effect e (stateAt s e.twinId n) = stateAt s e.twinId (n + 1) := by
  obtain ⟨n, hn, hget⟩ := List.getElem_of_mem h.mem
  have he : (s.stream e.twinId)[n]? = some (Store.decode e) := by
    rw [List.getElem?_eq_getElem hn, hget]
  have hsequence := Store.sequence_of_getElem? (hvalid.chained_stream e.twinId) he
  have htake : (s.stream e.twinId).take (n + 1) =
      (s.stream e.twinId).take n ++ [Store.decode e] := by
    rw [List.take_succ_eq_append_getElem hn, hget]
  have hlegal : Legal { twinId := e.twinId } ((s.stream e.twinId).take (n + 1)) :=
    (hlawful e.twinId).take
  rw [htake, legal_concat] at hlegal
  refine ⟨n, hn, ?_, (Store.sameRequest_decode h.aware hcanonical).accepts.2 hlegal.2, ?_⟩
  · have hdecode : (Store.decode e).sequence = e.sequence := rfl
    rw [← hdecode, hsequence]
    simp
  · rw [← h.effect_decode hcanonical, stateAt, stateAt, htake, replay_concat]

/-- The object is the state of its twin after some of its events. -/
def Replayed (s : Store) (state : TwinState) : Prop :=
  ∃ n ≤ (s.stream state.twinId).length, state = stateAt s state.twinId n

/-- What is let through to the store: an event that the state of its stream
accepts as it will be read back, and a snapshot of a state replayed. -/
def Vetted (h : History) : StoreOp → Prop
  | .append e x now _ => e.occurredAt.naive = false ∧
      ∀ r after, h.store.Fresh e x now r after →
        Accepts (Store.decode r) (latest h.store e.twinId)
  | .saveSnapshot snapshot => ∃ state now,
      Replayed h.store state ∧ snapshot = state.toSnapshot now
  | _ => True

theorem Vetted.timesAware (hop : Vetted h op) : TimesAware h op := by
  cases op with
  | append => exact hop.1
  | _ => trivial

/-- Snapshots stay faithful while streams grow and none is added. -/
theorem Faithful.of_extends {s s' : Store} (hs : Faithful s) (h : Extends s s')
    (hsnapshots : s'.snapshots ⊆ s.snapshots) : Faithful s' := by
  intro row hrow
  obtain ⟨n, now, hn, heq⟩ := hs row (hsnapshots hrow)
  refine ⟨n, now, lt_of_lt_of_le hn (h row.twinId).length_le, ?_⟩
  rw [h.stateAt_eq hn]
  exact heq

/-- An accepted event keeps its stream legal. -/
theorem lawful_fresh {s s' : Store} {e r : EventEnvelope} {x : Int} {now : Instant}
    (hs : Lawful s) (hfresh : s.Fresh e x now r s')
    (haccepts : Accepts (Store.decode r) (latest s e.twinId)) : Lawful s' := by
  intro twinId
  rw [hfresh.stream_eq]
  split
  · rename_i htwin
    subst htwin
    exact legal_concat.2 ⟨hs e.twinId, haccepts⟩
  · exact hs twinId

theorem extends_fresh {s s' : Store} {e r : EventEnvelope} {x : Int} {now : Instant}
    (hfresh : s.Fresh e x now r s') : Extends s s' := by
  intro twinId
  rw [hfresh.stream_eq]
  split
  · exact List.prefix_append _ _
  · exact List.prefix_rfl

/-- What a vetted ledger is. -/
structure Sound (s : Store) : Prop where
  valid : s.Valid
  lawful : Lawful s
  faithful : Faithful s

/-- A store whose events are those of a sound one, and whose snapshots are
among its, is sound. -/
theorem Sound.of_same {s s' : Store} (hs : Sound s) (hevents : s'.events = s.events)
    (hsnapshots : s'.snapshots ⊆ s.snapshots) : Sound s' where
  valid := hs.valid.congr hevents
  lawful := lawful_of_events hevents hs.lawful
  faithful := hs.faithful.of_extends (extends_of_events hevents) hsnapshots

/-- **A vetted append keeps a ledger sound.** -/
theorem Sound.fresh {s s' : Store} {e r : EventEnvelope} {x : Int} {now : Instant}
    (hs : Sound s) (hfresh : s.Fresh e x now r s') (haware : e.occurredAt.naive = false)
    (hschema : e.schemaVersion = "argo.dt.event/v2") (hplane : e.plane ≠ .simulation)
    (haccepts : Accepts (Store.decode r) (latest s e.twinId)) : Sound s' where
  valid := hfresh.valid hs.valid haware hschema hplane
  lawful := lawful_fresh hs.lawful hfresh haccepts
  faithful := by
    refine hs.faithful.of_extends (extends_fresh hfresh) ?_
    rw [hfresh.snapshots_eq]
    exact List.Subset.refl _

/-- Rebuilding a sound ledger, from wherever, returns the state after the
events in range. -/
theorem Sound.rebuild_eq {s : Store} (hs : Sound s) (twinId : String) (useSnapshots : Bool)
    {upTo : Option Int} (hupTo : Store.Bindable upTo) : rebuild s twinId useSnapshots upTo none =
      .ok (replay { twinId := twinId } (Store.cutAt (s.stream twinId) upTo)) := by
  cases useSnapshots with
  | false => exact rebuild_origin_of_lawful hs.valid hs.lawful hupTo
  | true =>
    rw [rebuild_snapshots hs.valid hs.lawful hs.faithful hupTo,
      rebuild_origin_of_lawful hs.valid hs.lawful hupTo]

/-- Without a bound, the latest state. -/
theorem Sound.rebuild_latest {s : Store} (hs : Sound s) (twinId : String) (useSnapshots : Bool) :
    rebuild s twinId useSnapshots none none = .ok (latest s twinId) :=
  hs.rebuild_eq twinId useSnapshots Store.bindable_none

/-- **Saving what was rebuilt keeps a ledger sound.** -/
theorem Sound.saved {s s' : Store} (hs : Sound s) {snapshot : SnapshotRecord}
    (hsaved : Saved s snapshot s')
    (hreplayed : ∃ state now, Replayed s state ∧ snapshot = state.toSnapshot now) : Sound s' := by
  obtain ⟨state, now, ⟨m, hm, hstate⟩, rfl⟩ := hreplayed
  obtain ⟨hsavable, rfl⟩ := hsaved
  have hfaithful : Faithful { s with snapshots := s.snapshots ++ [state.toSnapshot now] } := by
    intro row hrow
    rcases List.mem_append.1 hrow with hold | hnew
    · exact hs.faithful row hold
    · rw [List.mem_singleton.1 hnew]
      cases m with
      | zero =>
        -- the state of an empty stream is at no position, and does not verify
        have hverify := hsavable.verify
        rw [hstate] at hverify
        simp [stateAt, TwinState.toSnapshot, SnapshotRecord.new, SnapshotRecord.verify] at hverify
      | succ n => exact ⟨n, now, hm, congrArg (·.toSnapshot now) hstate⟩
  exact ⟨hs.valid.congr rfl, lawful_of_events rfl hs.lawful, hfaithful⟩

/-- **One vetted call keeps a ledger sound.** -/
theorem step_sound (hs : Sound h.store) (hop : Vetted h op) : Sound (h.step op).store := by
  rcases step_cases h op with ⟨e, x, now, fault, r, rfl, hfresh, hschema, hplane⟩ |
    ⟨snapshot, rfl, hsaved⟩ | hquiet
  · exact hs.fresh hfresh hop.1 hschema hplane (hop.2 r _ hfresh)
  · exact hs.saved hsaved hop
  · exact hs.of_same hquiet.events hquiet.snapshots

/-- What an append answers with is stored. -/
theorem stored_of_append {s s' : Store} {e r : EventEnvelope} {x : Int} {now : Instant}
    {fault : Option AppendStep} (hs : s.Valid) (haware : e.occurredAt.naive = false)
    (h : Returns (Store.append e x now fault) s r s') :
    Stored s' r ∧ r.twinId = e.twinId := by
  obtain ⟨-, -, ⟨-, ⟨row, hrow, hdecode, -⟩, rfl⟩ | ⟨-, hfresh⟩⟩ := Store.returns_append.1 h
  · have hmem : row ∈ s'.events := List.mem_of_find?_eq_some hrow
    have htwin : row.twinId = e.twinId := by
      have hkey := List.find?_some hrow
      simp only [Bool.and_eq_true, beq_iff_eq] at hkey
      exact hkey.1
    have hadmitted := hs.admitted row hmem
    rw [Store.rowToEvent_eq hadmitted, Except.ok.injEq] at hdecode
    subst hdecode
    refine ⟨⟨?_, by simp [Store.decode], by simp [Store.decode]⟩, htwin⟩
    rw [Store.decode_decode]
    exact List.mem_map_of_mem (Store.mem_rowsOf.2 ⟨hmem, rfl⟩)
  · have htwin : r.twinId = e.twinId := by rw [hfresh.sealed, Store.sealAt_twinId]
    refine ⟨⟨?_, ?_, ?_⟩, htwin⟩
    · rw [htwin, hfresh.stream_self]
      exact List.mem_append_right _ (List.mem_singleton_self _)
    · rw [hfresh.sealed]
      exact haware
    · rw [hfresh.sealed]
      exact DateTime.astimezoneUtc_utc now

theorem sound_empty : Sound {} where
  valid := Store.valid_empty
  lawful _ := trivial
  faithful := by intro row hrow; cases hrow

/-- The histories of a vetted ledger. -/
abbrev LedgerReachable : History → Prop := Reachable History.step Vetted {}

theorem LedgerReachable.sound (hreach : LedgerReachable h) : Sound h.store :=
  Reachable.invariant (I := fun h => Sound h.store) sound_empty (fun _ _ => step_sound) hreach

/-- A vetted ledger is one of the store's. -/
theorem LedgerReachable.storeReachable (hreach : LedgerReachable h) : StoreReachable h :=
  hreach.mono fun _ _ => Vetted.timesAware

/-- One call extends the streams. -/
theorem step_extends (h : History) (op : StoreOp) : Extends h.store (h.step op).store := by
  rcases step_cases h op with ⟨e, x, now, fault, r, rfl, hfresh, -⟩ | ⟨snapshot, rfl, hsaved⟩ |
    hquiet
  · exact extends_fresh hfresh
  · rw [hsaved.store]
    exact extends_of_events rfl
  · exact extends_of_events hquiet.events

/-- **Streams only grow**, over any run. -/
theorem extends_of_reachable {ok : History → StoreOp → Prop}
    (hreach : Reachable History.step ok h h') : Extends h.store h'.store :=
  Reachable.invariant (I := fun h' => Extends h.store h'.store) .refl
    (fun h' op hI _ => hI.trans (step_extends h' op)) hreach

omit [Digest] in
/-- Where one twin has all the events, its stream decides. -/
theorem lawful_of_only {s : Store} {twinId : String} (honly : ∀ row ∈ s.events, row.twinId = twinId)
    (hlegal : Legal { twinId := twinId } (s.stream twinId)) : Lawful s := by
  intro other
  by_cases hother : other = twinId
  · rw [hother]
    exact hlegal
  · have hempty : s.stream other = [] := by
      rw [Store.stream, List.map_eq_nil_iff, List.eq_nil_iff_forall_not_mem]
      intro row hrow
      obtain ⟨hmem, htwin⟩ := Store.mem_rowsOf.1 hrow
      exact hother (htwin.symm.trans (honly row hmem))
    rw [hempty]
    trivial

/-- Events appended one after another. -/
def appends (es : List EventEnvelope) : List StoreOp :=
  es.zipIdx.map fun entry => .append entry.1 entry.2 1 none

/-- An append the store does not refuse out of hand. -/
def Plain : StoreOp → Bool
  | .append e _ _ none => !e.occurredAt.naive && e.schemaVersion == "argo.dt.event/v2" &&
      e.plane != .simulation
  | _ => false

/-- Appends that leave legal streams were vetted. -/
theorem ledgerReachable_run {ops : List StoreOp} (happends : ∀ op ∈ ops, Plain op = true)
    (hlawful : Lawful (run History.step {} ops).store) :
    LedgerReachable (run History.step {} ops) := by
  induction ops using List.reverseRecOn with
  | nil => exact .init
  | append_singleton ops op ih =>
    have hrun : run History.step {} (ops ++ [op]) = (run History.step {} ops).step op := by
      rw [run, List.foldl_append]
      rfl
    rw [hrun] at hlawful ⊢
    have hbefore : Lawful (run History.step {} ops).store := fun twinId =>
      legal_of_prefix (step_extends _ op twinId) (hlawful twinId)
    refine .step op (ih (fun op hop => happends op (List.mem_append_left _ hop)) hbefore) ?_
    have hplain := happends op (List.mem_append_right _ (List.mem_singleton_self _))
    unfold Plain at hplain
    split at hplain
    swap
    · cases hplain
    rename_i e x now
    simp only [Bool.and_eq_true, Bool.not_eq_true', beq_iff_eq, bne_iff_ne] at hplain
    obtain ⟨⟨haware, hschema⟩, hplane⟩ := hplain
    refine ⟨haware, fun r after hfresh => ?_⟩
    have hreturns : Returns (Store.append e x now none) (run History.step {} ops).store r after :=
      Store.returns_append.2 ⟨hschema, hplane, .inr ⟨by simp [Store.Avoids], hfresh⟩⟩
    have hafter : ((run History.step {} ops).step (.append e x now none)).store = after := by
      simpa [History.step, StoreOp.exec] using finalState_of_returns hreturns
    have hlegal := hlawful e.twinId
    rw [hafter, hfresh.stream_self, legal_concat] at hlegal
    exact hlegal.2

/-- Appends to one twin whose stream folds were vetted. -/
theorem ledgerReachable_appends {es : List EventEnvelope} {twinId : String}
    (hplain : (appends es).all Plain = true)
    (honly : (run History.step {} (appends es)).store.events.all
      (fun row => row.twinId == twinId) = true)
    (hfolded : (folded { twinId := twinId }
      ((run History.step {} (appends es)).store.stream twinId)).toOption.isSome = true) :
    LedgerReachable (run History.step {} (appends es)) := by
  refine ledgerReachable_run (List.all_eq_true.1 hplain) ?_
  exact lawful_of_only (fun row hrow => by simpa using List.all_eq_true.1 honly row hrow)
    (legal_of_folded hfolded)

/-! ## Snapshot replay -/

/-- A bound that SQLite does not take stops a rebuild. -/
theorem bindable_of_rebuild {s : Store} {twinId : String} {useSnapshots : Bool}
    {upTo : Option Int} {asOf : Option DateTime} {state : TwinState}
    (hstate : rebuild s twinId useSnapshots upTo asOf = .ok state) : Store.Bindable upTo := by
  obtain ⟨start, -, hstate⟩ := bind_eq_ok.1 hstate
  obtain ⟨events, hload, -⟩ := bind_eq_ok.1 hstate
  obtain ⟨bound, hbound, -⟩ := bind_eq_ok.1 hload
  rintro n rfl
  obtain ⟨m, hm, -⟩ := bind_eq_ok.1 hbound
  exact (Store.bindInteger_eq_ok.1 hm).2

/-- What is rebuilt is a state of the stream, and may be saved. -/
theorem Sound.replayed_of_rebuild {s : Store} (hs : Sound s) {twinId : String}
    {useSnapshots : Bool} {upTo : Option Int} {state : TwinState}
    (hstate : rebuild s twinId useSnapshots upTo none = .ok state) : Replayed s state := by
  rw [hs.rebuild_eq twinId useSnapshots (bindable_of_rebuild hstate), Except.ok.injEq] at hstate
  obtain ⟨m, hm, hcut, -⟩ := cutAt_eq_take (s.stream twinId) upTo
  rw [hcut] at hstate
  subst hstate
  refine ⟨m, ?_, ?_⟩
  · rwa [replay_twinId]
  · rw [replay_twinId]
    rfl

/-- A state of the stream that stands at a position is canonical, and is
restored from what it is written as. -/
theorem Sound.restored_replayed {s : Store} (hs : Sound s) {state : TwinState} (hreplayed : Replayed s state)
    (hsequence : 1 ≤ state.sequence) :
    state.Canonical ∧ TwinState.fromDict state.toDict = .ok state := by
  obtain ⟨m, hm, hstate⟩ := hreplayed
  generalize state.twinId = twinId at hm hstate
  subst hstate
  cases m with
  | zero => simp [stateAt] at hsequence
  | succ n => exact ⟨canonical_stateAt _ _ _, fromDict_stateAt hs.valid hs.lawful hm⟩

/-- **Snapshot replay is origin replay.** At every cut of a vetted ledger
that SQLite takes, `rebuild` comes to the fold of `apply` over the events
in range, with the snapshots or without them, and later events do not
change what it comes to; and every state replayed from at least one event
is restored from its canonical JSON. -/
theorem rebuild_from_snapshots (hreach : LedgerReachable h) (twinId : String)
    {upTo : Option Int} (hupTo : Store.Bindable upTo) :
    (rebuild h.store twinId true upTo none = rebuild h.store twinId false upTo none ∧
      rebuild h.store twinId false upTo none =
        folded { twinId := twinId } (Store.cutAt (h.store.stream twinId) upTo) ∧
      folded { twinId := twinId } (Store.cutAt (h.store.stream twinId) upTo) =
        .ok (replay { twinId := twinId } (Store.cutAt (h.store.stream twinId) upTo))) ∧
    (∀ h' n, Reachable History.step Vetted h h' → upTo = some n → n ≤ (h.store.head twinId).1 →
      rebuild h'.store twinId true upTo none = rebuild h.store twinId true upTo none) ∧
    ∀ state (r : Json.Reader), rebuild h.store twinId false upTo none = .ok state →
      1 ≤ state.sequence → Json.Reads r.nearest (.ofPayload state.toDict) →
        ∃ value, Json.loads r (canonicalJson (.ofPayload state.toDict)) = .ok (.ofPayload value) ∧
          TwinState.fromDict value = .ok state := by
  have hs := hreach.sound
  have horigin : rebuild h.store twinId false upTo none =
      folded { twinId := twinId } (Store.cutAt (h.store.stream twinId) upTo) :=
    rebuild_origin hs.valid hupTo
  refine ⟨⟨rebuild_snapshots hs.valid hs.lawful hs.faithful hupTo, horigin, ?_⟩, ?_, ?_⟩
  · rw [← horigin]
    exact hs.rebuild_eq twinId false hupTo
  · rintro h' n hreach' rfl hn
    obtain ⟨more, hmore⟩ := extends_of_reachable hreach' twinId
    have hs' : Sound h'.store := LedgerReachable.sound (hreach.trans hreach')
    rw [hs.valid.head_sequence] at hn
    rw [hs'.rebuild_eq _ _ hupTo, hs.rebuild_eq _ _ hupTo, Store.cutAt, Store.cutAt, ← hmore,
      List.take_append_of_le_length (by omega)]
  · intro state r hstate hsequence hreads
    obtain ⟨hcanonical, hrestored⟩ := hs.restored_replayed (hs.replayed_of_rebuild hstate) hsequence
    refine ⟨state.toDict, ?_, hrestored⟩
    have hwritten := Payload.canonical_ofPayload.2 hcanonical.toDict
    rw [Json.loads_canonicalJson r _ hreads, hwritten]

/-- Two events, with a snapshot of the state between them. -/
def snapshotBetween : List StoreOp :=
  [.append firstEvent 0 1 none,
    .saveSnapshot
      ((stateAt (History.step {} (.append firstEvent 0 1 none)).store "t" 1).toSnapshot 2),
    .append secondEvent 1 3 none]

omit [Digest] in
theorem ledgerReachable_snapshotBetween :
    let _ : Digest := checksumDigest
    LedgerReachable (run History.step {} snapshotBetween) := by
  intro digest
  have hfirst : LedgerReachable (run History.step {} (snapshotBetween.take 1)) := by
    refine .step (StoreOp.append firstEvent 0 1 none) .init ⟨rfl, fun r after hfresh => ?_⟩
    rw [hfresh.sealed]
    exact accepts_of_applied (by decide +kernel)
  have hsaved : LedgerReachable (run History.step {} (snapshotBetween.take 2)) :=
    .step (StoreOp.saveSnapshot _) hfirst ⟨_, 2, ⟨1, by decide +kernel, by decide +kernel⟩, rfl⟩
  refine .step (StoreOp.append secondEvent 1 3 none) hsaved ⟨rfl, fun r after hfresh => ?_⟩
  rw [hfresh.sealed]
  exact accepts_of_applied (by decide +kernel)

omit [Digest] in
/-- A rebuild that starts from the snapshot, and one that does not. -/
theorem rebuild_from_snapshots_between :
    let _ : Digest := checksumDigest
    let h := run History.step {} snapshotBetween
    (h.store.events.length = 2 ∧ h.store.snapshots.length = 1) ∧
      rebuild h.store "t" true (some 2) none = rebuild h.store "t" false (some 2) none := by
  intro digest h
  have hbindable : Store.Bindable (some 2) := by
    rintro n ⟨rfl⟩
    decide
  exact ⟨by decide +kernel,
    (rebuild_from_snapshots ledgerReachable_snapshotBetween "t" hbindable).1.1⟩

omit [Digest] in
/-- SQLite takes no bound of more than 64 bits: the rebuild raises where the
fold returns. -/
theorem rebuild_past_last_integer :
    let _ : Digest := checksumDigest
    let h := run History.step {} snapshotBetween
    LedgerReachable h ∧
      rebuild h.store "t" true (some (2 ^ 63)) none =
        .error (.overflowError "Python int too large to convert to SQLite INTEGER") ∧
      (folded { twinId := "t" }
        (Store.cutAt (h.store.stream "t") (some (2 ^ 63)))).toOption.isSome = true := by
  intro digest h
  exact ⟨ledgerReachable_snapshotBetween, by decide +kernel, by decide +kernel⟩

end ArgoTwin
