import ArgoTwin.ServiceSteps
/-!
# Calls that take turns

Any number of services over one store, and any number of `append` calls,
each of them at one of its steps. A step of the machine takes one call one
step further, runs a `state` call, or does maintenance, which is what the
relay, a pruning or the worker of the invalidation queue do to the store
between two steps of a call.
-/

namespace ArgoTwin

open Library TwinAggregate

/-- Where a call is, and what it knows by then. -/
inductive Phase where
  | admitted (head : Int × String)
  | checked (head : Int × String) (held : Option Nat)
  | persisted (head : Int × String) (held : Option Nat) (event : EventEnvelope)
  | settled (head : Int × String) (event : EventEnvelope)
  | rebuilt (state : TwinState)
  deriving DecidableEq

/-- An `append` under way. -/
structure Call where
  service : Nat
  event : EventEnvelope
  expectedSequence : Int
  phase : Phase
  deriving DecidableEq

structure World where
  store : Store := {}
  memories : Nat → Memory := fun _ => {}
  calls : Nat → Option Call := fun _ => none

/-- A move of the machine. A call is named by `id`. -/
inductive Move where
  | start (id service : Nat) (event : EventEnvelope) (actor : ActorContext)
      (expectedSequence : Int)
  | proceed (id : Nat) (now : Instant)
  | state (service : Nat) (twinId : String)
  | maintain (op : StoreOp)

/-- What is done to the store outside of an append and of the snapshot it
is due. -/
def StoreOp.isMaintenance : StoreOp → Bool
  | .append .. | .saveSnapshot .. => false
  | _ => true

namespace World

/-- What a call of a service works on. -/
def process (w : World) (service : Nat) : Process := ⟨w.store, w.memories service⟩

/-- What a call of a service leaves. -/
def leave (w : World) (service : Nat) (p : Process) : World :=
  { w with store := p.store, memories := Function.update w.memories service p.memory }

def setCall (w : World) (id : Nat) (call : Option Call) : World :=
  { w with calls := Function.update w.calls id call }

/-- A step of a call; one that raises ends it. -/
def attempt (w : World) (id : Nat) (call : Call) (x : Service.Method (Option Phase)) : World :=
  match x (w.process call.service) with
  | .ok phase p =>
    (w.leave call.service p).setCall id (phase.map fun phase => { call with phase := phase })
  | .error _ p => (w.leave call.service p).setCall id none

variable {w : World} {id : Nat} {call : Call} {x : Service.Method (Option Phase)}

/-- A step of a call leaves what the method leaves. -/
theorem store_attempt :
    (w.attempt id call x).store = (finalState x (w.process call.service)).store := by
  simp only [attempt, finalState]
  cases x (w.process call.service) <;> rfl

theorem memories_attempt : (w.attempt id call x).memories =
    Function.update w.memories call.service
      (finalState x (w.process call.service)).memory := by
  simp only [attempt, finalState]
  cases x (w.process call.service) <;> rfl

/-- The calls after a step of one: the others, and that one where it
returned a phase to go on from. -/
theorem calls_attempt {id' : Nat} {call' : Call} (h : (w.attempt id call x).calls id' = some call') :
    (id' ≠ id ∧ w.calls id' = some call') ∨
      (id' = id ∧ ∃ phase, call' = { call with phase := phase } ∧
        Returns x (w.process call.service) (some phase)
          (finalState x (w.process call.service))) := by
  simp only [attempt, finalState, Returns] at h ⊢
  by_cases hid : id' = id
  · subst hid
    cases hx : x (w.process call.service) with
    | ok phase p =>
      simp only [hx, setCall, Function.update_self] at h
      cases phase with
      | none => cases h
      | some phase => exact .inr ⟨rfl, phase, (Option.some.inj h).symm, rfl⟩
    | error err p => simp [hx, setCall] at h
  · cases hx : x (w.process call.service) <;>
      simpa [hx, setCall, Function.update_of_ne hid, hid, leave] using h

end World

variable [Digest]

/-- The next step of a call. -/
def Call.next (svc : Service) (call : Call) (now : Instant) : Service.Method (Option Phase) :=
  match call.phase with
  | .admitted head => do
    let held ← svc.preview call.event call.expectedSequence head now
    pure (some (.checked head held))
  | .checked head held => do
    let event ← Service.persist call.event call.expectedSequence now
    pure (some (.persisted head held event))
  | .persisted head held event => do
    svc.settle head held event
    pure (some (.settled head event))
  | .settled head event =>
    if svc.snapshotDue head event then do
      let state ← fromExcept (rebuild (← get).store event.twinId false none none)
      pure (some (.rebuilt state))
    else pure none
  | .rebuilt state => do
    let _ ← Service.onStore (Store.saveSnapshot (state.toSnapshot now))
    pure none

/-- One move, under the configuration of each service. -/
def World.step (config : Nat → Service) (w : World) : Move → World
  | .start id service event actor expectedSequence =>
    match w.calls id with
    | some _ => w
    | none => w.attempt id ⟨service, event, expectedSequence, .admitted (0, "")⟩ (do
        let head ← Service.vet event actor
        pure (some (.admitted head)))
  | .proceed id now =>
    match w.calls id with
    | some call => w.attempt id call (call.next (config call.service) now)
    | none => w
  | .state service twinId =>
    w.leave service (finalState ((config service).state twinId) (w.process service))
  | .maintain op =>
    if op.isMaintenance then { w with store := finalState op.exec w.store } else w

/-! ## Every stream stays legal -/

variable {w : World} {call : Call} {m : Move} {config : Nat → Service}

/-- A call that passed its preview passed it on the state after the events
it expects. -/
def Call.Tried (s : Store) (call : Call) : Prop :=
  ∃ (n : Nat) (previousHash : String) (now : DateTime),
    n ≤ (s.stream call.event.twinId).length ∧ call.expectedSequence = n ∧
      Accepts (call.event.sealAt (call.expectedSequence + 1) previousHash now)
        (stateAt s call.event.twinId n)

/-- What the service has made sure of, by the phase a call is in. -/
def Call.Known (s : Store) (call : Call) : Prop :=
  match call.phase with
  | .checked _ (some _) => call.Tried s
  | .persisted _ _ event | .settled _ event =>
    Stored s event ∧ event.twinId = call.event.twinId
  | .rebuilt state => Replayed s state
  | _ => True

/-- The ledger is sound, and the calls know what their phases say. -/
structure Orderly (w : World) : Prop where
  sound : Sound w.store
  validated : ∀ id call, w.calls id = some call → validateEvent call.event = .ok ()
  known : ∀ id call, w.calls id = some call → call.Known w.store

/-- Where a call's event may come to be stored, the state the stream
replays to accepts it as it will be read back: where its preview was
skipped, where the preview runs on a cached state, and where the event is
not canonical, so that another was previewed. -/
def Call.Guarded (w : World) (now : Instant) (call : Call) : Prop :=
  match call.phase with
  | .admitted head => ∀ ref,
      (w.memories call.service).lookup call.event.twinId = some ref →
      ((w.memories call.service).objects ref).position = w.store.head call.event.twinId →
      Accepts (call.event.sealAt (call.expectedSequence + 1) head.2 (DateTime.utc now))
        ((w.memories call.service).objects ref) →
      Accepts (call.event.sealAt (call.expectedSequence + 1) head.2 (DateTime.utc now))
        (latest w.store call.event.twinId)
  | .checked _ held => held = none ∨ ¬ call.event.payload.Canonical → ∀ r after,
      w.store.Fresh call.event call.expectedSequence now r after →
      Accepts (Store.decode r) (latest w.store call.event.twinId)
  | _ => True

/-- The condition on a move: that of the call it moves. -/
def Guarded (w : World) : Move → Prop
  | .proceed id now => ∀ call, w.calls id = some call → call.Guarded w now
  | _ => True

theorem Call.Known.of_extends {s s' : Store} (h : call.Known s) (hs : Extends s s') :
    call.Known s' := by
  unfold Call.Known at h ⊢
  split at h
  · obtain ⟨n, previousHash, now, hn, hx, haccepts⟩ := h
    exact ⟨n, previousHash, now, hn.trans (hs _).length_le, hx, by rwa [hs.stateAt_eq hn]⟩
  · exact ⟨h.1.of_extends hs, h.2⟩
  · exact ⟨h.1.of_extends hs, h.2⟩
  · exact h.of_extends hs
  · trivial

/-- A preview that passes tried the event on the state it expects. -/
theorem tried_of_preview (call : Call) {svc : Service} {p p' : Process} {head : Int × String} {ref : Nat}
    {now : Instant} (hs : Sound p.store)
    (hguarded : ∀ ref, p.memory.lookup call.event.twinId = some ref →
      (p.memory.objects ref).position = p.store.head call.event.twinId →
      Accepts (call.event.sealAt (call.expectedSequence + 1) head.2 (DateTime.utc now))
        (p.memory.objects ref) →
      Accepts (call.event.sealAt (call.expectedSequence + 1) head.2 (DateTime.utc now))
        (latest p.store call.event.twinId))
    (h : Returns (svc.preview call.event call.expectedSequence head now) p (some ref) p') :
    p'.store = p.store ∧ call.Tried p.store := by
  obtain ⟨-, hnone, -⟩ | ⟨hhead, _, hsome, hlatest, hposition, haccepts⟩ :=
    Service.returns_preview.1 h
  · cases hnone
  cases hsome
  obtain ⟨hstore, hobject⟩ := Service.object_latestState hs hlatest
  have hstands : head = p.store.head call.event.twinId ∧
      Accepts (call.event.sealAt (call.expectedSequence + 1) head.2 (DateTime.utc now))
        (latest p.store call.event.twinId) := by
    rcases hobject with ⟨hlookup, hcached, hsame⟩ | hobject
    · rw [hsame] at hposition haccepts
      exact ⟨hposition.symm.trans hcached, hguarded ref hlookup hcached haccepts⟩
    · rw [hobject] at hposition haccepts
      refine ⟨?_, haccepts⟩
      rw [← hposition, hs.valid.head_eq]
      exact replay_position
  have hlength := hs.valid.head_sequence call.event.twinId
  rw [← hstands.1, hhead] at hlength
  exact ⟨hstore, _, _, _, le_rfl, hlength, by rw [← latest_eq_stateAt]; exact hstands.2⟩

/-- **What a call commits, the replayed state accepts.** -/
theorem accepts_of_tried (call : Call) {s s' : Store} {r : EventEnvelope} {now : Instant} (hs : s.Valid)
    (htried : call.Tried s)
    (hfresh : s.Fresh call.event call.expectedSequence now r s') :
    Accepts r (latest s call.event.twinId) := by
  obtain ⟨n, previousHash, tried, hn, hx, haccepts⟩ := htried
  have hlength := hs.head_sequence call.event.twinId
  rw [hfresh.head, hx] at hlength
  have hn' : n = (s.stream call.event.twinId).length := by omega
  rw [latest_eq_stateAt, ← hn']
  have hsame : SameRequest (call.event.sealAt (call.expectedSequence + 1) previousHash tried) r := by
    rw [hfresh.sealed]
    exact ⟨rfl, rfl, rfl, rfl, rfl, rfl, rfl, rfl, rfl⟩
  exact hsame.accepts.1 haccepts

/-! ## What a move does to the store -/

/-- The store's part in the next step of a call. -/
def Call.op (call : Call) (now : Instant) : Option StoreOp :=
  match call.phase with
  | .checked _ _ => some (.append call.event call.expectedSequence now none)
  | .rebuilt state => some (.saveSnapshot (state.toSnapshot now))
  | _ => none

/-- The store's part in a move. -/
def Move.op (w : World) : Move → Option StoreOp
  | .proceed id now => (w.calls id).bind (·.op now)
  | .maintain op => if op.isMaintenance then some op else none
  | .start .. | .state .. => none

/-- **The services are clients of the store**: a move is one call of the
store, or none. -/
theorem store_step (config : Nat → Service) (w : World) (m : Move) :
    (w.step config m).store =
      match m.op w with
      | some op => finalState op.exec w.store
      | none => w.store := by
  cases m with
  | start id service event actor expectedSequence =>
    simp only [World.step, Move.op]
    cases w.calls id with
    | some call => rfl
    | none =>
      simp only
      rw [World.store_attempt, finalState_bind_pure, Service.finalState_vet]
      rfl
  | proceed id now =>
    simp only [World.step, Move.op]
    cases w.calls id with
    | none => rfl
    | some call =>
      obtain ⟨service, event, expectedSequence, phase⟩ := call
      simp only [Option.bind_some]
      rw [World.store_attempt]
      cases phase with
      | admitted head =>
        rw [Call.next, finalState_bind_pure]
        exact Service.store_preview
      | checked head held =>
        rw [Call.next, finalState_bind_pure, Service.persist, Service.finalState_onStore]
        exact finalState_discard.symm
      | persisted head held stored =>
        rw [Call.next, finalState_bind_pure]
        exact Service.store_settle _ _ _ _ _
      | settled head stored =>
        have hkeeps : Keeps (fun q : Process => q.store = w.store)
            (Call.next (config service)
              ⟨service, event, expectedSequence, .settled head stored⟩ now) :=
          keeps_ite (keeps_bind keeps_get fun _ => keeps_bind keeps_fromExcept fun _ =>
            keeps_pure) keeps_pure
        exact hkeeps (w.process service) rfl
      | rebuilt state =>
        rw [Call.next, finalState_bind_pure, Service.finalState_onStore]
        exact finalState_discard.symm
  | state service twinId => exact Service.store_state
  | maintain op =>
    simp only [World.step, Move.op]
    split <;> rfl

/-- The calls after a move: those there before, one just admitted, and one
that took a step. -/
theorem calls_step {id' : Nat} {call' : Call} (h : (w.step config m).calls id' = some call') :
    w.calls id' = some call' ∨
      (validateEvent call'.event = .ok () ∧ ∃ head, call'.phase = .admitted head) ∨
      ∃ now call phase p', m = .proceed id' now ∧ w.calls id' = some call ∧
        call' = { call with phase := phase } ∧
        Returns (call.next (config call.service) now) (w.process call.service) (some phase) p' ∧
        p'.store = (w.step config m).store ∧
        p'.memory = (w.step config m).memories call.service := by
  cases m with
  | start id service event actor expectedSequence =>
    simp only [World.step] at h
    cases hcall : w.calls id with
    | some call =>
      rw [hcall] at h
      exact .inl h
    | none =>
      rw [hcall] at h
      rcases World.calls_attempt h with ⟨-, hold⟩ | ⟨-, phase, rfl, hreturns⟩
      · exact .inl hold
      · simp only [returns_bind, Service.returns_vet, returns_pure] at hreturns
        obtain ⟨head, _, ⟨⟨-, hvalid, -⟩, -, -⟩, hphase, -⟩ := hreturns
        cases hphase
        exact .inr (.inl ⟨hvalid, head, rfl⟩)
  | proceed id now =>
    simp only [World.step] at h ⊢
    cases hcall : w.calls id with
    | none =>
      rw [hcall] at h
      exact .inl h
    | some call =>
      rw [hcall] at h
      rcases World.calls_attempt h with ⟨-, hold⟩ | ⟨hid, phase, rfl, hreturns⟩
      · exact .inl hold
      · refine .inr (.inr ⟨now, call, phase, _, by rw [hid], by rw [hid]; exact hcall, rfl,
          hreturns, World.store_attempt.symm, ?_⟩)
        simp only
        rw [World.memories_attempt, Function.update_self]
  | state service twinId => exact .inl h
  | maintain op =>
    simp only [World.step] at h
    split at h <;> exact .inl h

/-- Maintenance is vetted. -/
theorem vetted_maintenance {h : History} {op : StoreOp} (hop : op.isMaintenance = true) :
    Vetted h op := by
  cases op with
  | append => cases hop
  | saveSnapshot => cases hop
  | _ => trivial

/-- Calls under way carry a validated event. -/
def Validated (w : World) : Prop :=
  ∀ id call, w.calls id = some call → validateEvent call.event = .ok ()

theorem validated_step (hw : Validated w) : Validated (w.step config m) := by
  intro id call hcall
  rcases calls_step hcall with hold | ⟨hvalid, -⟩ | ⟨now, before, phase, _, -, hbefore, rfl, -⟩
  · exact hw id call hold
  · exact hvalid
  · exact hw id before hbefore

/-- Appended events are validated, so their times are aware. -/
theorem timesAware_op {h : History} {op : StoreOp} (hw : Validated w) (hop : m.op w = some op) :
    TimesAware h op := by
  cases m with
  | proceed id now =>
    obtain ⟨call, hcall, hop⟩ := Option.bind_eq_some_iff.1 hop
    have haware := (header_of_validateEvent (hw id call hcall)).2.1
    unfold Call.op at hop
    split at hop
    · cases hop
      exact haware
    · cases hop
      trivial
    · cases hop
  | maintain op' =>
    simp only [Move.op, Option.ite_none_right_eq_some, Option.some.injEq] at hop
    obtain ⟨hmaintenance, rfl⟩ := hop
    exact (vetted_maintenance (h := h) hmaintenance).timesAware
  | start => cases hop
  | state => cases hop

/-- The worlds that runs reach under a condition on their moves. -/
abbrev WorldReachable (config : Nat → Service) (ok : World → Move → Prop) : World → Prop :=
  Reachable (World.step config) ok {}

/-- **Every interleaving is a history of the store.** -/
theorem WorldReachable.history {ok : World → Move → Prop} (hreach : WorldReachable config ok w) :
    Validated w ∧ ∃ h, StoreReachable h ∧ h.store = w.store := by
  refine Reachable.invariant
    (I := fun w => Validated w ∧ ∃ h, StoreReachable h ∧ h.store = w.store) ?_ ?_ hreach
  · exact ⟨fun _ _ hcall => (by cases hcall), {}, .init, rfl⟩
  · rintro w m ⟨hvalidated, h, hh, hstore⟩ -
    refine ⟨validated_step hvalidated, ?_⟩
    have hstep := store_step config w m
    cases hop : m.op w with
    | none =>
      rw [hop] at hstep
      exact ⟨h, hh, hstore.trans hstep.symm⟩
    | some op =>
      rw [hop, ← hstore] at hstep
      exact ⟨h.step op, hh.step op (timesAware_op hvalidated hop), hstep.symm⟩

/-! ## Streams stay legal -/

/-- **What a guarded move asks of the store is vetted.** -/
theorem vetted_op (hw : Orderly w) (hm : Guarded w m) {h : History} (hstore : h.store = w.store)
    {op : StoreOp} (hop : m.op w = some op) : Vetted h op := by
  cases m with
  | proceed id now =>
    obtain ⟨call, hcall, hop⟩ := Option.bind_eq_some_iff.1 hop
    have haware := (header_of_validateEvent (hw.validated id call hcall)).2.1
    have hknown := hw.known id call hcall
    have hguarded := hm call hcall
    obtain ⟨service, event, expectedSequence, phase⟩ := call
    cases phase with
    | checked head held =>
      cases hop
      refine ⟨haware, fun r after hfresh => ?_⟩
      rw [hstore] at hfresh ⊢
      cases held with
      | none => exact hguarded (.inl rfl) r after hfresh
      | some ref =>
        by_cases hcanonical : event.payload.Canonical
        · have haccepts := accepts_of_tried
            ⟨service, event, expectedSequence, .checked head (some ref)⟩ hw.sound.valid hknown hfresh
          have hsame : SameRequest r (Store.decode r) := by
            refine Store.sameRequest_decode ?_ ?_
            · rw [hfresh.sealed]
              exact haware
            · rw [hfresh.sealed]
              exact hcanonical
          exact hsame.accepts.1 haccepts
        · exact hguarded (.inr hcanonical) r after hfresh
    | rebuilt state =>
      cases hop
      exact ⟨state, now, hstore ▸ hknown, rfl⟩
    | _ => cases hop
  | maintain op' =>
    simp only [Move.op, Option.ite_none_right_eq_some, Option.some.injEq] at hop
    obtain ⟨hmaintenance, rfl⟩ := hop
    exact vetted_maintenance hmaintenance
  | start => cases hop
  | state => cases hop

theorem sound_step (hw : Orderly w) (hm : Guarded w m) : Sound (w.step config m).store := by
  rw [store_step]
  cases hop : m.op w with
  | none => exact hw.sound
  | some op => exact step_sound (h := { store := w.store }) hw.sound (vetted_op hw hm rfl hop)

theorem extends_world (config : Nat → Service) (w : World) (m : Move) :
    Extends w.store (w.step config m).store := by
  rw [store_step]
  cases m.op w with
  | none => exact .refl
  | some op => exact step_extends { store := w.store } op

/-- **The next step of a call earns the phase it returns.** -/
theorem known_next {svc : Service} {now : Instant} {phase : Phase} {p' : Process}
    (hs : Sound w.store) (hvalid : validateEvent call.event = .ok ())
    (hknown : call.Known w.store) (hguarded : call.Guarded w now)
    (h : Returns (call.next svc now) (w.process call.service) (some phase) p') :
    Call.Known p'.store { call with phase := phase } := by
  obtain ⟨service, event, expectedSequence, before⟩ := call
  cases before with
  | admitted head =>
    simp only [Call.next, returns_bind, returns_pure] at h
    obtain ⟨held, _, hpreview, hphase, rfl⟩ := h
    cases hphase
    cases held with
    | none => trivial
    | some ref =>
      obtain ⟨hstore, htried⟩ := tried_of_preview
        ⟨service, event, expectedSequence, .admitted head⟩ (p := w.process service) hs hguarded hpreview
      rw [hstore]
      exact htried
  | checked head held =>
    simp only [Call.next, Service.persist, returns_bind, Service.returns_onStore,
      returns_pure] at h
    obtain ⟨r, _, ⟨s', happend, rfl⟩, hphase, rfl⟩ := h
    cases hphase
    exact stored_of_append hs.valid (header_of_validateEvent hvalid).2.1 happend
  | persisted head held stored =>
    have hstore : p'.store = w.store := by
      have hsettle := Service.store_settle svc head held stored (w.process service)
      simp only [Call.next, returns_bind, returns_pure] at h
      obtain ⟨_, _, hreturns, -, rfl⟩ := h
      rwa [finalState_of_returns hreturns] at hsettle
    simp only [Call.next, returns_bind, returns_pure] at h
    obtain ⟨_, _, -, hphase, -⟩ := h
    cases hphase
    rw [hstore]
    exact hknown
  | settled head stored =>
    simp only [Call.next, returns_ite, returns_bind, returns_get, returns_fromExcept,
      returns_pure] at h
    rcases h with ⟨-, q, _, ⟨rfl, rfl⟩, state, _, ⟨hstate, rfl⟩, hphase, rfl⟩ | ⟨-, hphase, -⟩
    · cases hphase
      have hrebuild := hs.rebuild_latest stored.twinId false
      have hlatest := replayed_stateAt (Nat.le_refl (w.store.stream stored.twinId).length)
      rw [← latest_eq_stateAt] at hlatest
      have hsame : latest w.store stored.twinId = state :=
        Except.ok.inj (hrebuild.symm.trans hstate)
      rw [← hsame]
      exact hlatest
    · cases hphase
  | rebuilt state =>
    simp only [Call.next, returns_bind, returns_pure] at h
    obtain ⟨_, _, -, hphase, -⟩ := h
    cases hphase

/-- **One move keeps the order.** -/
theorem orderly_step (hw : Orderly w) (hm : Guarded w m) : Orderly (w.step config m) where
  sound := sound_step hw hm
  validated := validated_step hw.validated
  known id call hcall := by
    rcases calls_step hcall with hold | ⟨-, head, hphase⟩ |
      ⟨now, before, phase, p', rfl, hbefore, rfl, hreturns, hstore, -⟩
    · exact (hw.known id call hold).of_extends (extends_world config w m)
    · simp [Call.Known, hphase]
    · rw [← hstore]
      exact known_next hw.sound (hw.validated id before hbefore) (hw.known id before hbefore)
        (hm before hbefore) hreturns

theorem orderly_empty : Orderly {} where
  sound := sound_empty
  validated _ _ hcall := by cases hcall
  known _ _ hcall := by cases hcall

theorem WorldReachable.orderly (hreach : WorldReachable config Guarded w) : Orderly w :=
  Reachable.invariant orderly_empty (fun _ _ => orderly_step) hreach

/-- **No replay poisoning**, where every commit that no preview stands
behind is one the replayed state accepts: then every stream is rebuilt, at
every cut the database takes, in every interleaving. -/
theorem rebuild_of_guarded (hreach : WorldReachable config Guarded w) (twinId : String)
    (useSnapshots : Bool) {upTo : Option Int} (hupTo : Store.Bindable upTo) :
    ∃ state, rebuild w.store twinId useSnapshots upTo none = .ok state :=
  ⟨_, hreach.orderly.sound.rebuild_eq twinId useSnapshots hupTo⟩

/-- Who writes evidence, for any subject. -/
def ingestActor : ActorContext where
  identityId := "ingest"
  roles := [.ingestService]
  subjectId := none
  identity_required := by decide
  roles_required := by decide

/-- **A commit the replayed state rejects poisons its stream for good**: no
store that goes on from it rebuilds the twin again. -/
theorem poisoned_of_rejected {s s' t : Store} {e r : EventEnvelope} {x : Int} {now : Instant}
    (hfresh : s.Fresh e x now r s')
    (hrejected : ¬ Accepts (Store.decode r) (latest s e.twinId)) (ht : t.Valid) (hextends : Extends s' t) :
    ¬ ∃ state, rebuild t e.twinId false none none = .ok state := by
  rintro ⟨state, hstate⟩
  have hlegal := legal_of_prefix (hextends e.twinId) (legal_of_rebuild ht hstate).1
  rw [hfresh.stream_self, legal_concat] at hlegal
  exact hrejected hlegal.2

/-- A first call, step by step up to its commit. -/
def firstMoves : List Move := [.start 0 0 firstEvent ingestActor 0, .proceed 0 1, .proceed 0 2]

omit [Digest] in
theorem rebuild_of_guarded_first :
    let _ : Digest := checksumDigest
    let w := run (World.step fun _ => {}) {} firstMoves
    w.store.events.length = 1 ∧ ∃ state, rebuild w.store "t" true none none = .ok state := by
  intro digest w
  have hadmitted : Guarded (run (World.step fun _ => {}) {} (firstMoves.take 1)) (.proceed 0 1) := by
    intro call hcall
    have hphase : (run (World.step fun _ => {}) {} (firstMoves.take 1)).calls 0 =
        some ⟨0, firstEvent, 0, .admitted (0, "")⟩ := by decide +kernel
    rw [hphase, Option.some.injEq] at hcall
    subst hcall
    intro ref hcached
    have hempty : ((run (World.step fun _ => {}) {} (firstMoves.take 1)).memories 0).lookup "t" =
        none := by decide +kernel
    exact absurd (hcached.symm.trans hempty) (by simp)
  have hchecked : Guarded (run (World.step fun _ => {}) {} (firstMoves.take 2)) (.proceed 0 2) := by
    intro call hcall
    have hphase : (run (World.step fun _ => {}) {} (firstMoves.take 2)).calls 0 =
        some ⟨0, firstEvent, 0, .checked (0, "") (some 0)⟩ := by decide +kernel
    rw [hphase, Option.some.injEq] at hcall
    subst hcall
    have hcanonical : firstEvent.payload.Canonical := by decide +kernel
    rintro (⟨⟨⟩⟩ | hnot)
    exact absurd hcanonical hnot
  have hreach : WorldReachable (fun _ => {}) Guarded w :=
    .step (Move.proceed 0 2) (.step (Move.proceed 0 1)
      (.step (Move.start 0 0 firstEvent ingestActor 0) .init trivial) hadmitted) hchecked
  exact ⟨by decide +kernel, rebuild_of_guarded hreach "t" true Store.bindable_none⟩

/-- A deletion of evidence the twin never held. -/
def strayDeletion : EventEnvelope :=
  EventEnvelope.new "t" "EvidenceDeleted" .authoritative
    (Payload.ofFields [("evidence_id", .str "e9")]) "ingest" .ingestService "key-2" none none
    ⟨0, "event-2"⟩

/-- The deletion is sent for sequence 1 before there is one: its preview
is skipped, and it is stored once the other call has caught the head up. -/
def poisoningMoves : List Move :=
  [.start 0 0 strayDeletion ingestActor 1, .proceed 0 1, .start 1 1 firstEvent ingestActor 0,
    .proceed 1 2, .proceed 1 3, .proceed 0 4]

omit [Digest] in
theorem poisoned_interleaving :
    let _ : Digest := checksumDigest
    ∃ w, WorldReachable (fun _ => {}) anyStep w ∧
      ¬ ∃ state, rebuild w.store "t" false none none = .ok state := by
  intro digest
  refine ⟨_, reachable_run poisoningMoves, ?_⟩
  obtain ⟨-, h, hh, hstore⟩ := WorldReachable.history
    (reachable_run poisoningMoves)
  rintro ⟨state, hstate⟩
  rw [rebuild_origin (hstore ▸ hh.keeps.1) Store.bindable_none] at hstate
  have hnone : (folded { twinId := "t" }
      (Store.cutAt ((run (World.step fun _ => {}) {} poisoningMoves).store.stream "t") none)).toOption
        = none := by decide +kernel
  rw [hstate] at hnone
  cases hnone

end ArgoTwin
