import ArgoTwin.Calls
import ArgoTwin.Library.Purging
/-!
# What the memory of a service does not show

Two healthy processes on one store answer every call alike and go on
sharing a store, whatever each of them has cached: on a sound ledger a
state served from the cache is the state its stream replays to.
-/

namespace ArgoTwin

open Library TwinAggregate

/-- Two processes on one store. -/
def SameStore (p q : Process) : Prop := p.store = q.store

/-- Two healthy processes on one store. -/
structure Process.Agree [Digest] (p q : Process) : Prop where
  store : SameStore p q
  left : p.Healthy
  right : q.Healthy

namespace Service

variable {α β : Type} {p q p' q' : Process}

/-! ## What works on the store alone -/

theorem oblivious_onStore {x : Store.Method α} : Oblivious SameStore (onStore x) := by
  intro p q h
  have hstore : p.store = q.store := h
  simp only [onStore, onPart]
  rw [hstore]
  cases x q.store with
  | ok a t => exact .ok ⟨rfl, rfl⟩
  | error e t => exact .error rfl

theorem oblivious_demand {R : Process → Process → Prop} {ok : Prop} [Decidable ok]
    {error : PyError} : Oblivious R (demand ok error) :=
  oblivious_ite oblivious_pure oblivious_throw

theorem oblivious_vet {e : EventEnvelope} {actor : ActorContext} :
    Oblivious SameStore (vet e actor) :=
  oblivious_bind oblivious_fromExcept fun _ => oblivious_bind oblivious_fromExcept fun _ =>
    oblivious_bind oblivious_demand fun _ =>
      oblivious_get_bind (fun p q (h : p.store = q.store) => by rw [h]) fun _ => oblivious_pure

variable [Digest]

theorem oblivious_drain (svc : Service) {limit : Int} {readings : RelayReadings} :
    Oblivious SameStore (svc.drain limit readings) := by
  refine oblivious_bind oblivious_onStore fun records => ?_
  refine oblivious_bind (oblivious_mapM fun record => ?_) fun _ => oblivious_pure
  unfold relayRecord
  split
  · exact oblivious_bind oblivious_onStore fun _ => oblivious_bind oblivious_demand fun _ =>
      oblivious_pure
  · exact oblivious_bind oblivious_onStore fun _ => oblivious_bind oblivious_demand fun _ =>
      oblivious_pure

theorem oblivious_snapshot (svc : Service) {head : Int × String} {persisted : EventEnvelope}
    {readings : AppendReadings} :
    Oblivious SameStore (svc.snapshot head persisted readings) := by
  refine oblivious_ite (oblivious_get_bind ?_ fun p => ?_) oblivious_pure
  · intro p q h
    rw [show p.store = q.store from h]
  · exact oblivious_bind oblivious_fromExcept fun _ => oblivious_bind oblivious_onStore fun _ =>
      oblivious_bind oblivious_onStore fun _ => oblivious_bind oblivious_onStore fun _ =>
        oblivious_pure

/-! ## The state served -/

theorem agree_of_served (h : p.Agree q) (hp : Served p p') (hq : Served q q') :
    p'.Agree q' := by
  have hstore : p.store = q.store := h.store
  refine ⟨?_, ⟨hp.store ▸ h.left.sound, hp.store ▸ hp.coherent⟩,
    ⟨hq.store ▸ h.right.sound, hq.store ▸ hq.coherent⟩⟩
  show p'.store = q'.store
  rw [hp.store, hq.store, hstore]

/-- Each serves an object of its own, which is the one latest state. -/
theorem coupled_latestState (svc : Service) (twinId : String) (h : p.Agree q) :
    Coupled (fun ref p' ref' q' => p'.memory.objects ref = latest p.store twinId ∧
        q'.memory.objects ref' = latest p.store twinId ∧ p'.Agree q') Process.Agree
      (svc.latestState twinId p) (svc.latestState twinId q) := by
  have hstore : p.store = q.store := h.store
  obtain ⟨ref, p', hp⟩ := latestState_returns svc twinId h.left.sound
  obtain ⟨ref', q', hq⟩ := latestState_returns svc twinId h.right.sound
  obtain ⟨hserved, -, hobject⟩ := served_latestState h.left.sound h.left.coherent hp
  obtain ⟨hserved', -, hobject'⟩ := served_latestState h.right.sound h.right.coherent hq
  rw [← hstore] at hobject'
  exact coupled_of_returns hp hq ⟨hobject, hobject', agree_of_served h hserved hserved'⟩

theorem oblivious_state (svc : Service) (twinId : String) :
    Oblivious Process.Agree (svc.state twinId) := by
  intro p q h
  refine (coupled_latestState svc twinId h).bind ?_
  rintro ref p' ref' q' ⟨hobject, hobject', hagree⟩ - -
  exact .ok ⟨hobject.trans hobject'.symm, hagree⟩

theorem oblivious_stateAsOf (svc : Service) (twinId : String) (upToSequence : Option Int)
    (asOf : Option DateTime) :
    Oblivious Process.Agree (svc.stateAsOf twinId upToSequence asOf) :=
  oblivious_ite (oblivious_state svc twinId)
    (oblivious_get_bind (fun p q h => by rw [show p.store = q.store from h.store])
      fun _ => oblivious_fromExcept)

/-! ## Appending -/

variable {e : EventEnvelope} {actor : ActorContext} {x : Int} {readings : AppendReadings}

/-- A transition tried on equal states comes out the same. -/
theorem coupled_tryTransition {head : Int × String} {now : Instant} {ref ref' : Nat}
    (hobject : p.memory.objects ref = q.memory.objects ref') (hstore : SameStore p q) :
    Coupled (fun _ p' _ q' => SameStore p' q') SameStore
      (tryTransition e x head now ref p) (tryTransition e x head now ref' q) := by
  have hsame : ∀ current, Oblivious SameStore (do
      demand (TwinState.position current = head)
        (.concurrencyConflict "stream changed during transition validation")
      let _ ← fromExcept (applied current (e.sealAt (x + 1) head.2 (DateTime.utc now)))
      pure () : Method Unit) := fun current =>
    oblivious_bind oblivious_demand fun _ => oblivious_bind oblivious_fromExcept fun _ =>
      oblivious_pure
  have hshort : ∀ r (s : Process), tryTransition e x head now r s = ((do
      demand (TwinState.position (s.memory.objects r) = head)
        (.concurrencyConflict "stream changed during transition validation")
      let _ ← fromExcept (applied (s.memory.objects r)
        (e.sealAt (x + 1) head.2 (DateTime.utc now)))
      pure () : Method Unit) >>= fun _ => pure (some r)) s := by
    intro r s
    simp only [bind_assoc, pure_bind]
    rfl
  rw [hshort, hshort, hobject]
  refine (hsame (q.memory.objects ref') p q hstore).bind ?_
  rintro _ p' _ q' ⟨-, h'⟩ - -
  exact .ok h'

/-- A preview comes out the same, though each holds an object of its own. -/
theorem coupled_preview (svc : Service) {head : Int × String} {now : Instant} (h : p.Agree q) :
    Coupled (fun _ p' _ q' => SameStore p' q') SameStore
      (svc.preview e x head now p) (svc.preview e x head now q) := by
  unfold preview
  by_cases hhead : head.1 = x
  · simp only [if_pos hhead]
    refine ((coupled_latestState svc e.twinId h).mono (fun _ _ _ _ hq => hq)
      fun _ _ hE => hE.store).bind ?_
    rintro ref p' ref' q' ⟨hobject, hobject', hagree⟩ - -
    exact coupled_tryTransition (hobject.trans hobject'.symm) hagree.store
  · simp only [if_neg hhead]
    exact .ok h.store

/-- **Appends do not show what is cached**, where what is appended is read
back as it is. -/
theorem oblivious_append (svc : Service) (e : EventEnvelope) (actor : ActorContext) (x : Int)
    (readings : AppendReadings) (hcanonical : e.payload.Canonical) :
    Oblivious Process.Agree (svc.append e actor x readings) := by
  intro p q h
  have hstore : p.store = q.store := h.store
  have key : Coupled (fun a p' b q' => a = b ∧ SameStore p' q') SameStore
      (svc.append e actor x readings p) (svc.append e actor x readings q) := by
    unfold append
    refine (oblivious_vet p q h.store).bind ?_
    rintro head p₀ _ q₀ ⟨rfl, -⟩ hvet hvet'
    obtain ⟨⟨-, hvalid, hplane⟩, rfl, rfl⟩ := returns_vet.1 hvet
    obtain ⟨-, -, rfl⟩ := returns_vet.1 hvet'
    refine (coupled_preview svc h).bind ?_
    rintro held p₁ held' q₁ hpreviewed hpreview hpreview'
    refine (oblivious_onStore p₁ q₁ hpreviewed).bind ?_
    rintro r p₂ _ q₂ ⟨rfl, -⟩ hpersist hpersist'
    obtain ⟨s', hstored, rfl⟩ := returns_onStore.1 hpersist
    obtain ⟨t', hstored', rfl⟩ := returns_onStore.1 hpersist'
    -- both settle, and leave the store as the database answered
    have hp₁ : p₁.store = p₀.store := by
      rw [← finalState_of_returns hpreview]
      exact store_preview
    have hst : s' = t' := by
      have hsame : p₁.store = q₁.store := hpreviewed
      have heq := hstored.symm.trans (hsame ▸ hstored')
      cases heq
      rfl
    subst hst
    rw [hp₁] at hstored
    rw [hstore] at hpreview'
    obtain ⟨-, -, p₃, hsettle, hserved⟩ :=
      settled_append svc h.left hvalid hplane hcanonical hpreview hstored
    rw [hstore] at hstored
    obtain ⟨-, -, q₃, hsettle', hserved'⟩ :=
      settled_append svc h.right hvalid hplane hcanonical hpreview' hstored
    rw [← hstore] at hsettle'
    have hsettled : SameStore p₃ q₃ := hserved.store.trans hserved'.store.symm
    refine Coupled.bind (Q := fun _ p' _ q' => SameStore p' q')
      (coupled_of_returns hsettle hsettle' hsettled) ?_
    rintro _ p₄ _ q₄ hsettled - -
    exact (oblivious_bind (oblivious_snapshot svc) fun _ =>
      oblivious_bind (oblivious_drain svc) fun _ => oblivious_pure) p₄ q₄ hsettled
  have hleft := (append_outcome svc e actor x readings h.left hcanonical).1
  have hright := (append_outcome svc e actor x readings h.right hcanonical).1
  refine key.finalState.mono ?_ ?_
  · rintro a p' b q' ⟨⟨hab, hsame⟩, rfl, rfl⟩
    exact ⟨hab, hsame, hleft, hright⟩
  · rintro p' q' ⟨hsame, rfl, rfl⟩
    exact ⟨hsame, hleft, hright⟩

/-! ## The other calls -/

variable (svc : Service)

theorem oblivious_stateAt (twinId : String) (upToSequence : Option Int)
    (asOfValid asOfRecorded : Option DateTime) :
    Oblivious Process.Agree (svc.stateAt twinId upToSequence asOfValid asOfRecorded) := by
  refine oblivious_bind (oblivious_stateAsOf svc twinId upToSequence asOfRecorded) fun state => ?_
  cases asOfValid with
  | some instant => exact oblivious_fromExcept
  | none => exact oblivious_pure

theorem oblivious_scopedState (twinId : String) (actor : ActorContext) :
    Oblivious Process.Agree (svc.scopedState twinId actor) :=
  oblivious_bind (oblivious_state svc twinId) fun _ => oblivious_bind oblivious_fromExcept fun _ =>
    oblivious_pure

theorem oblivious_issueEvent (with_ : Collaborators) (args : IssueProjection)
    (ctx : WriteContext) :
    Oblivious Process.Agree (Prepare.issueProjection svc with_ args ctx) := by
  refine oblivious_bind oblivious_fromExcept fun _ => oblivious_bind oblivious_fromExcept fun _ =>
    oblivious_get_bind (fun p q h => ?_) fun _ => oblivious_bind oblivious_demand fun _ =>
      oblivious_bind (oblivious_stateAsOf svc _ _ _) fun _ => oblivious_bind oblivious_demand fun _ =>
        oblivious_bind oblivious_fromExcept fun _ => oblivious_pure
  rw [show p.store = q.store from h.store]

/-- **No write method shows what is cached** in coming by its event. -/
theorem oblivious_prepare (with_ : Collaborators) (call : WriteCall) (ctx : WriteContext) :
    Oblivious Process.Agree (svc.prepare with_ call ctx) := by
  have hraise : ∀ {α : Type} {r : Except PyError α},
      Oblivious Process.Agree (fromExcept r : Method α) := oblivious_fromExcept
  cases call with
  | ingestEvidence args =>
    exact oblivious_bind hraise fun _ => oblivious_bind hraise fun _ =>
      oblivious_bind (oblivious_state svc _) fun _ => oblivious_bind oblivious_demand fun _ =>
        oblivious_pure
  | deleteEvidence args =>
    exact oblivious_bind hraise fun _ => oblivious_bind (oblivious_scopedState svc _ _) fun _ =>
      oblivious_bind oblivious_demand fun _ => oblivious_bind oblivious_demand fun _ =>
        oblivious_pure
  | proposeClaim args =>
    exact oblivious_bind hraise fun _ => oblivious_bind hraise fun _ =>
      oblivious_bind oblivious_demand fun _ => oblivious_bind hraise fun _ => oblivious_pure
  | reviewClaim args =>
    exact oblivious_bind hraise fun _ => oblivious_bind (oblivious_scopedState svc _ _) fun _ =>
      oblivious_bind oblivious_demand fun _ => oblivious_pure
  | linkEntity args =>
    exact oblivious_bind hraise fun _ => oblivious_bind hraise fun _ => oblivious_pure
  | unlinkEntity args | detectContradiction args | adjudicateContradiction args
  | recordCorrection args =>
    exact oblivious_bind hraise fun _ => oblivious_bind (oblivious_scopedState svc _ _) fun _ =>
      oblivious_pure
  | recordElicitationResponse args =>
    refine oblivious_bind hraise fun _ => oblivious_bind hraise fun _ => ?_
    cases with_.bronzeVault with
    | none => exact fun _ _ h => .error h
    | some vault =>
      exact oblivious_bind oblivious_pure fun _ => oblivious_bind oblivious_demand fun _ =>
        oblivious_bind (oblivious_stateAsOf svc _ _ _) fun _ => oblivious_bind hraise fun _ =>
          oblivious_bind hraise fun _ => oblivious_bind (oblivious_state svc _) fun _ =>
            oblivious_bind oblivious_demand fun _ => oblivious_bind hraise fun _ => oblivious_pure
  | issueProjection args =>
    exact oblivious_bind (oblivious_issueEvent svc _ _ _) fun _ => oblivious_pure
  | revokeProjection args =>
    exact oblivious_bind hraise fun _ => oblivious_bind (oblivious_scopedState svc _ _) fun _ =>
      oblivious_bind oblivious_demand fun _ => oblivious_bind oblivious_demand fun _ =>
        oblivious_pure

theorem oblivious_openStateStream (config : StreamConfig) (request : StreamRequest) :
    Oblivious Process.Agree (svc.openStateStream config request) := by
  refine oblivious_bind ?_ fun _ => oblivious_get_bind (fun p q h => ?_) fun _ =>
    oblivious_fromExcept
  · unfold authorizeStream
    cases request.actor.subjectId with
    | none => exact oblivious_demand
    | some S => exact oblivious_bind (oblivious_state svc _) fun _ => oblivious_fromExcept
  · rw [show p.store = q.store from h.store]

theorem oblivious_subscribe (config : StreamConfig) (twinId : String) (afterSequence : Int)
    (actor : ActorContext) :
    Oblivious Process.Agree (svc.subscribe config twinId afterSequence actor) := by
  have hopen : Oblivious Process.Agree (do
      let start ← fromExcept ((← get).store.streamPosition twinId afterSequence)
      fromExcept (DurableSubscription.open (← get).store config.queueCapacity start
        config.syncLimits {}) : Method DurableSubscription) := by
    refine oblivious_get_bind (fun p q h => ?_) fun _ => oblivious_bind oblivious_fromExcept
      fun _ => oblivious_get_bind (fun p q h => ?_) fun _ => oblivious_fromExcept
    · rw [show p.store = q.store from h.store]
    · rw [show p.store = q.store from h.store]
  exact oblivious_bind oblivious_demand fun _ =>
    oblivious_ite (oblivious_bind (oblivious_state svc twinId) fun _ =>
      oblivious_bind oblivious_fromExcept fun _ => hopen) hopen

theorem oblivious_forkSimulation (twinId scenario branchId : String) (actor : ActorContext) :
    Oblivious Process.Agree (svc.forkSimulation twinId scenario branchId actor) :=
  oblivious_bind oblivious_fromExcept fun _ => oblivious_bind (oblivious_state svc _) fun _ =>
    oblivious_bind oblivious_fromExcept fun _ => oblivious_fromExcept

/-- The relay shows nothing either. -/
theorem oblivious_relay (limit : Int) (readings : RelayReadings) :
    Oblivious Process.Agree (svc.drain limit readings) := by
  have hhealthy : ∀ {p : Process}, p.Healthy → (finalState (svc.drain limit readings) p).Healthy := by
    intro p hp
    have hkeeps : Keeps (fun q : Process => Upkeep p.store q.store ∧ q.memory = p.memory)
        (svc.drain limit readings) := keeps_drain
    obtain ⟨hupkeep, hmemory⟩ := hkeeps p ⟨⟨hp.sound, .refl⟩, rfl⟩
    exact ⟨hupkeep.sound, hmemory ▸ hp.coherent.of_extends (extends_of_events hupkeep.same.events)⟩
  intro p q h
  refine (oblivious_drain svc p q h.store).finalState.mono ?_ ?_
  · rintro a p' b q' ⟨⟨hab, hsame⟩, rfl, rfl⟩
    exact ⟨hab, hsame, hhealthy h.left, hhealthy h.right⟩
  · rintro p' q' ⟨hsame, rfl, rfl⟩
    exact ⟨hsame, hhealthy h.left, hhealthy h.right⟩

/-- **No call shows what is cached**, where what it hands in is read back as
it is. -/
theorem oblivious_respond (env : Surroundings) (actor : ActorContext) {request : Request}
    (hrequest : request.Canonical) : Oblivious Process.Agree (svc.respond env actor request) := by
  have hmap : ∀ {α : Type} {f : α → Answer} {m : Method α}, Oblivious Process.Agree m →
      Oblivious Process.Agree (f <$> m) := fun h => by
    rw [map_eq_pure_bind]
    exact oblivious_bind h fun _ => oblivious_pure
  cases request with
  | append event x readings =>
    exact hmap (oblivious_append svc event actor x readings hrequest)
  | write call x key readings =>
    exact hmap (oblivious_bind_answers (oblivious_prepare svc _ _ _)
      (canonical_prepare svc _ _ hrequest) fun event hevent =>
        oblivious_append svc event _ _ _ hevent)
  | issueProjection args x key readings =>
    exact oblivious_bind (oblivious_bind_answers (oblivious_issueEvent svc _ _ _)
      (canonical_issueProjection svc _ _ _) fun issued hissued =>
        oblivious_bind (oblivious_append svc _ _ _ _ hissued) fun _ => oblivious_pure)
      fun _ => oblivious_pure
  | state twinId upTo valid recorded => exact hmap (oblivious_stateAt svc twinId upTo valid recorded)
  | traceLineage twinId kind nodeId asOf =>
    refine hmap (oblivious_bind (oblivious_stateAsOf svc _ _ _) fun _ =>
      oblivious_bind oblivious_fromExcept fun _ => oblivious_get_bind (fun p q h => ?_) fun _ =>
        oblivious_fromExcept)
    rw [show p.store = q.store from h.store]
  | planElicitation twinId objective claimIds =>
    exact hmap (oblivious_bind (oblivious_state svc _) fun _ => oblivious_fromExcept)
  | forkSimulation twinId scenario branchId =>
    exact hmap (oblivious_forkSimulation svc twinId scenario branchId actor)
  | subscribe twinId afterSequence => exact hmap (oblivious_subscribe svc _ _ _ actor)
  | openStateStream request => exact hmap (oblivious_openStateStream svc _ _)

end Service

end ArgoTwin
