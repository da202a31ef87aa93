import ArgoTwin.Interleaving
/-!
# The state caches

Every state a service keeps is the replay of a beginning of its twin's
stream, over any interleaving in which a held state is only ever advanced
by the event after it. A cached state that stands at the head is then the
state the stream replays to, which is what lets a preview trust it.
-/

namespace ArgoTwin

open Library TwinAggregate

/-- The object a call holds. -/
def Call.held (call : Call) : Option Nat :=
  match call.phase with
  | .checked _ held | .persisted _ held _ => held
  | _ => none

variable [Digest] {w : World} {call : Call} {m : Move} {config : Nat → Service}

/-- The memories agree with the store, and calls hold states of their twin. -/
structure Cohering (w : World) : Prop where
  orderly : Orderly w
  memories : ∀ i, (w.memories i).Coherent w.store
  held : ∀ id call, w.calls id = some call → ∀ ref, call.held = some ref →
    (w.memories call.service).Holds ref call.event.twinId

/-- A commit no preview stands behind is one the replayed state accepts as
it will be read back, and a held state is advanced by the event after it,
which is read back as it is. -/
def Call.Contiguous (w : World) (now : Instant) (call : Call) : Prop :=
  match call.phase with
  | .checked _ held => held = none ∨ ¬ call.event.payload.Canonical → ∀ r after,
      w.store.Fresh call.event call.expectedSequence now r after →
      Accepts (Store.decode r) (latest w.store call.event.twinId)
  | .persisted head (some ref) event => head.1 < event.sequence → event.payload.Canonical ∧
      event.sequence = ((w.memories call.service).objects ref).sequence + 1
  | _ => True

/-- The condition on a move: that of the call it moves. -/
def Contiguous (w : World) : Move → Prop
  | .proceed id now => ∀ call, w.calls id = some call → call.Contiguous w now
  | _ => True

/-- What the cache serves at the head is the latest state. -/
theorem Cohering.served (hw : Cohering w) {i ref : Nat} {twinId : String}
    (hcached : (w.memories i).lookup twinId = some ref)
    (hposition : ((w.memories i).objects ref).position = w.store.head twinId) :
    (w.memories i).objects ref = latest w.store twinId := by
  have hholds := (hw.memories i).lookup hcached
  have hlatest := ((hw.memories i).objects ref).latest hw.orderly.sound.valid
    (by rw [hposition, hholds.twinId])
  rwa [hholds.twinId] at hlatest

/-- **Coherent caches guard the ledger**: no cached state lets an event
through that the replayed state rejects. -/
theorem Cohering.guarded (hw : Cohering w) (hm : Contiguous w m) : Guarded w m := by
  cases m with
  | proceed id now =>
    intro call hcall
    have hcontiguous := hm call hcall
    obtain ⟨service, event, expectedSequence, phase⟩ := call
    cases phase with
    | admitted head =>
      intro ref hcached hposition haccepts
      rwa [hw.served hcached hposition] at haccepts
    | checked head held => exact hcontiguous
    | _ => trivial
  | _ => trivial

/-- **A step of a call keeps its service's memory**, as the store was. -/
theorem memory_next (svc : Service) (hw : Cohering w) {id : Nat} {now : Instant}
    (hcall : w.calls id = some call) (hcontiguous : call.Contiguous w now) :
    let p' := finalState (call.next svc now) (w.process call.service)
    p'.memory.Coherent w.store ∧ (w.memories call.service).Grows p'.memory := by
  have hs : Sound (w.process call.service).store := hw.orderly.sound
  have hcoherent : (w.process call.service).memory.Coherent w.store := hw.memories call.service
  have hknown := hw.orderly.known id call hcall
  have hheld := hw.held id call hcall
  obtain ⟨service, event, expectedSequence, phase⟩ := call
  intro p'
  cases phase with
  | admitted head =>
    have hfinal : p' = finalState (svc.preview event expectedSequence head now)
        (w.process service) := finalState_bind_pure
    have hserved := Service.served_preview svc event expectedSequence head now hs hcoherent
    rw [hfinal]
    exact ⟨hserved.coherent, hserved.grows⟩
  | checked head held =>
    have hfinal : p' = finalState (Service.persist event expectedSequence now)
        (w.process service) := finalState_bind_pure
    rw [hfinal, Service.persist, Service.finalState_onStore]
    exact ⟨hcoherent, .refl⟩
  | persisted head held stored =>
    have hfinal : p' = finalState (svc.settle head held stored) (w.process service) :=
      finalState_bind_pure
    obtain ⟨hstored, htwin⟩ := hknown
    have hserved := Service.served_settle svc head held hs hcoherent
      hstored (fun ref href => htwin ▸ hheld ref href) fun ref href hpast => by
        subst href
        exact hcontiguous hpast
    rw [hfinal]
    exact ⟨hserved.coherent, hserved.grows⟩
  | settled head stored =>
    have hkeeps : Keeps (fun q : Process => q.memory = w.memories service)
        (Call.next svc ⟨service, event, expectedSequence, .settled head stored⟩ now) :=
      keeps_ite (keeps_bind keeps_get fun _ => keeps_bind keeps_fromExcept fun _ => keeps_pure)
        keeps_pure
    have hmemory : p'.memory = w.memories service := hkeeps (w.process service) rfl
    rw [hmemory]
    exact ⟨hcoherent, .refl⟩
  | rebuilt state =>
    have hfinal : p' = finalState (Service.onStore (Store.saveSnapshot (state.toSnapshot now)))
        (w.process service) := finalState_bind_pure
    rw [hfinal, Service.finalState_onStore]
    exact ⟨hcoherent, .refl⟩

/-- **A move keeps every memory coherent**, and none of them shrinks. -/
theorem memories_step (hw : Cohering w) (hm : Contiguous w m) (i : Nat) :
    ((w.step config m).memories i).Coherent w.store ∧
      (w.memories i).Grows ((w.step config m).memories i) := by
  have hupdate : ∀ (service : Nat) (memory : Memory), memory.Coherent w.store →
      (w.memories service).Grows memory →
      (Function.update w.memories service memory i).Coherent w.store ∧
        (w.memories i).Grows (Function.update w.memories service memory i) := by
    intro service memory hcoherent hgrows
    by_cases hi : i = service
    · subst hi
      rw [Function.update_self]
      exact ⟨hcoherent, hgrows⟩
    · rw [Function.update_of_ne hi]
      exact ⟨hw.memories i, .refl⟩
  cases m with
  | start id service event actor expectedSequence =>
    simp only [World.step]
    cases w.calls id with
    | some call => exact ⟨hw.memories i, .refl⟩
    | none =>
      simp only
      rw [World.memories_attempt, finalState_bind_pure, Service.finalState_vet]
      exact hupdate service _ (hw.memories service) .refl
  | proceed id now =>
    simp only [World.step]
    cases hcall : w.calls id with
    | none => exact ⟨hw.memories i, .refl⟩
    | some call =>
      simp only
      rw [World.memories_attempt]
      obtain ⟨hcoherent, hgrows⟩ :=
        memory_next (config call.service) hw hcall (hm call hcall)
      exact hupdate call.service _ hcoherent hgrows
  | state service twinId =>
    have hs : Sound (w.process service).store := hw.orderly.sound
    obtain ⟨ref, p', hlatest⟩ := Service.latestState_returns (config service) twinId hs
    have hfinal : finalState ((config service).state twinId) (w.process service) = p' := by
      rw [Service.state, finalState_bind hlatest]
      rfl
    have hserved := (Service.served_latestState hs (hw.memories service) hlatest).1
    simp only [World.step, hfinal]
    exact hupdate service _ hserved.coherent hserved.grows
  | maintain op =>
    simp only [World.step]
    split <;> exact ⟨hw.memories i, .refl⟩

/-- A preview that passes holds an object of the twin. -/
theorem holds_of_preview {svc : Service} {p p' : Process} {e : EventEnvelope} {x : Int}
    {head : Int × String} {now : Instant} {ref : Nat} (hs : Sound p.store)
    (hcoherent : p.memory.Coherent p.store)
    (h : Returns (svc.preview e x head now) p (some ref) p') : p'.memory.Holds ref e.twinId := by
  obtain ⟨-, hnone, -⟩ | ⟨-, _, hsome, hlatest, -⟩ := Service.returns_preview.1 h
  · cases hnone
  · cases hsome
    exact (Service.served_latestState hs hcoherent hlatest).2.1

/-- What a call holds after a step it held before, or was served by a
preview. -/
theorem held_next {svc : Service} {now : Instant} {phase : Phase} {p' : Process} {ref : Nat}
    (hs : Sound w.store) (hcoherent : (w.memories call.service).Coherent w.store)
    (h : Returns (call.next svc now) (w.process call.service) (some phase) p')
    (href : Call.held { call with phase := phase } = some ref) :
    call.held = some ref ∨ p'.memory.Holds ref call.event.twinId := by
  obtain ⟨service, event, expectedSequence, before⟩ := call
  cases before with
  | admitted head =>
    simp only [Call.next, returns_bind, returns_pure] at h
    obtain ⟨held, _, hpreview, hphase, rfl⟩ := h
    cases hphase
    obtain rfl : held = some ref := href
    exact .inr (holds_of_preview (p := w.process service) hs hcoherent hpreview)
  | checked head held =>
    simp only [Call.next, returns_bind, returns_pure] at h
    obtain ⟨_, _, -, hphase, -⟩ := h
    cases hphase
    exact .inl href
  | persisted head held stored =>
    simp only [Call.next, returns_bind, returns_pure] at h
    obtain ⟨_, _, -, hphase, -⟩ := h
    cases hphase
    cases href
  | settled head stored =>
    simp only [Call.next, returns_ite, returns_bind, returns_pure] at h
    rcases h with ⟨-, _, _, -, _, _, -, hphase, -⟩ | ⟨-, hphase, -⟩
    · cases hphase
      cases href
    · cases hphase
  | rebuilt state =>
    simp only [Call.next, returns_bind, returns_pure] at h
    obtain ⟨_, _, -, hphase, -⟩ := h
    cases hphase

/-- **One move keeps the caches coherent.** -/
theorem cohering_step (hw : Cohering w) (hm : Contiguous w m) : Cohering (w.step config m) where
  orderly := orderly_step hw.orderly (hw.guarded hm)
  memories i := (memories_step hw hm i).1.of_extends (extends_world config w m)
  held id call hcall ref href := by
    rcases calls_step hcall with hold | ⟨-, head, hphase⟩ |
      ⟨now, before, phase, p', rfl, hbefore, rfl, hreturns, -, hmemory⟩
    · exact (hw.held id call hold ref href).of_grows (memories_step hw hm call.service).2
    · simp [Call.held, hphase] at href
    · rcases held_next hw.orderly.sound (hw.memories before.service) hreturns href with
        hheld | hserved
      · exact (hw.held id before hbefore ref hheld).of_grows
          (memories_step hw hm before.service).2
      · rw [← hmemory]
        exact hserved

theorem cohering_empty : Cohering {} where
  orderly := orderly_empty
  memories _ := Memory.coherent_empty
  held _ _ hcall := by cases hcall

theorem WorldReachable.cohering (hreach : WorldReachable config Contiguous w) : Cohering w :=
  Reachable.invariant cohering_empty (fun _ _ => cohering_step) hreach

/-- **Cache coherence**, where held states are advanced one event at a
time: a cached state that stands at the head is what the stream is rebuilt
to from its origin. -/
theorem cached_eq_rebuild (hreach : WorldReachable config Contiguous w) {i ref : Nat}
    {twinId : String} (hcached : (w.memories i).lookup twinId = some ref)
    (hposition : ((w.memories i).objects ref).position = w.store.head twinId) :
    rebuild w.store twinId false none none = .ok ((w.memories i).objects ref) := by
  have hw := hreach.cohering
  rw [hw.served hcached hposition, hw.orderly.sound.rebuild_latest]

omit [Digest] in
theorem cached_eq_rebuild_first :
    let _ : Digest := checksumDigest
    let w := run (World.step fun _ => {}) {} (firstMoves ++ [.state 1 "t"])
    w.store.events.length = 1 ∧
      rebuild w.store "t" false none none = .ok ((w.memories 1).objects 0) := by
  intro digest w
  have hadmitted : Contiguous (run (World.step fun _ => {}) {} (firstMoves.take 1))
      (.proceed 0 1) := by
    intro call hcall
    have hphase : (run (World.step fun _ => {}) {} (firstMoves.take 1)).calls 0 =
        some ⟨0, firstEvent, 0, .admitted (0, "")⟩ := by decide +kernel
    cases hphase.symm.trans hcall
    trivial
  have hchecked : Contiguous (run (World.step fun _ => {}) {} (firstMoves.take 2))
      (.proceed 0 2) := by
    intro call hcall
    have hphase : (run (World.step fun _ => {}) {} (firstMoves.take 2)).calls 0 =
        some ⟨0, firstEvent, 0, .checked (0, "") (some 0)⟩ := by decide +kernel
    cases hphase.symm.trans hcall
    have hcanonical : firstEvent.payload.Canonical := by decide +kernel
    rintro (⟨⟨⟩⟩ | hnot)
    exact absurd hcanonical hnot
  have hreach : WorldReachable (fun _ => {}) Contiguous w :=
    .step (Move.state 1 "t") (.step (Move.proceed 0 2) (.step (Move.proceed 0 1)
      (.step (Move.start 0 0 firstEvent ingestActor 0) .init trivial) hadmitted) hchecked) trivial
  exact ⟨by decide +kernel, cached_eq_rebuild hreach (by decide +kernel) (by decide +kernel)⟩

/-- Who declares degradations. -/
def operationsActor : ActorContext where
  identityId := "ops"
  roles := [.operationsService]
  subjectId := none
  identity_required := by decide
  roles_required := by decide

/-- A degradation of the twin `t`. -/
def degradation (reason key eventId : String) : EventEnvelope :=
  EventEnvelope.new "t" "DegradationDeclared" .authoritative
    (Payload.ofFields [("reason", .str reason)]) "ops" .operationsService key none none
    ⟨0, eventId⟩

/-- The first call previews `x` on the empty stream. By the time it is
stored another service has stored `y`, and the same request for `x` after
it, which is the answer. -/
def skippingMoves : List Move :=
  [.start 0 0 (degradation "x" "key-x" "event-1") operationsActor 0, .proceed 0 1,
    .start 1 1 (degradation "x" "key-x" "event-2") operationsActor 1, .proceed 1 2,
    .start 2 1 (degradation "y" "key-y" "event-3") operationsActor 0, .proceed 2 3, .proceed 2 4,
    .proceed 1 5, .proceed 0 6, .proceed 0 7]

omit [Digest] in
theorem incoherent_interleaving :
    let _ : Digest := checksumDigest
    ∃ w, WorldReachable (fun _ => {}) anyStep w ∧ (w.memories 0).lookup "t" = some 0 ∧
      ((w.memories 0).objects 0).position = w.store.head "t" ∧
      rebuild w.store "t" false none none ≠ .ok ((w.memories 0).objects 0) := by
  intro digest
  refine ⟨_, reachable_run skippingMoves, by decide +kernel, by decide +kernel, fun hstate => ?_⟩
  obtain ⟨-, h, hh, hstore⟩ := WorldReachable.history
    (reachable_run skippingMoves)
  rw [rebuild_origin (hstore ▸ hh.keeps.1) Store.bindable_none] at hstate
  have hreasons : ((folded { twinId := "t" } (Store.cutAt
      ((run (World.step fun _ => {}) {} skippingMoves).store.stream "t") none)).toOption.map
        (·.degradedReasons)) = some ["y", "x"] := by decide +kernel
  rw [hstate] at hreasons
  have hcached : ((run (World.step fun _ => {}) {} skippingMoves).memories 0 |>.objects
      0).degradedReasons = ["x"] := by decide +kernel
  simp only [Except.toOption, Option.map_some, hcached, Option.some.injEq] at hreasons
  exact absurd hreasons (by decide)

end ArgoTwin
