import ArgoTwin.Contamination
/-!
# Runs of a service beside others

A service answers calls and drains its outbox while other connections work
on the same store. Whatever order they come in, the ledger stays sound,
the memory agrees with it, and every stream only grows.
-/

namespace ArgoTwin

open Library TwinAggregate

/-- What moves a service's process: a call, a drain of its outbox, or
another connection's call. -/
inductive ServiceStep where
  | call (actor : ActorContext) (request : Request)
  | relay (limit : Int) (readings : RelayReadings)
  | elsewhere (op : StoreOp)

variable [Digest]

namespace ServiceStep

def take (svc : Service) (env : Surroundings) (p : Process) : ServiceStep → Process
  | call actor request => finalState (svc.respond env actor request) p
  | relay limit readings => finalState (svc.drain limit readings) p
  | elsewhere op => { p with store := finalState op.exec p.store }

/-- What is handed in is read back as it is, and what the other connections
append, a service of theirs has vetted. -/
def Vetted (p : Process) : ServiceStep → Prop
  | call _ request => request.Canonical
  | elsewhere op => ArgoTwin.Vetted { store := p.store } op
  | _ => True

end ServiceStep

namespace Service

variable {svc : Service} {env : Surroundings} {p q : Process} {s : Store} {actor : ActorContext}

/-! ## What leaves the store alone -/

theorem keeps_scopedState (twinId : String) :
    Keeps (fun q : Process => q.store = s) (svc.scopedState twinId actor) :=
  keeps_bind (keeps_state twinId) fun _ => keeps_bind keeps_fromExcept fun _ => keeps_pure

theorem keeps_issueEvent (with_ : Collaborators) (args : IssueProjection) (ctx : WriteContext) :
    Keeps (fun q : Process => q.store = s) (Prepare.issueProjection svc with_ args ctx) :=
  keeps_bind keeps_fromExcept fun _ => keeps_bind keeps_fromExcept fun _ =>
    keeps_bind keeps_get fun _ => keeps_bind keeps_demand fun _ =>
      keeps_bind (keeps_stateAsOf _ _ _) fun _ => keeps_bind keeps_demand fun _ =>
        keeps_bind keeps_fromExcept fun _ => keeps_pure

/-- **Coming by an event** writes nothing. -/
theorem keeps_prepare (with_ : Collaborators) (call : WriteCall) (ctx : WriteContext) :
    Keeps (fun q : Process => q.store = s) (svc.prepare with_ call ctx) := by
  cases call with
  | ingestEvidence args =>
    exact keeps_bind keeps_fromExcept fun _ => keeps_bind keeps_fromExcept fun _ =>
      keeps_bind (keeps_state _) fun _ => keeps_bind keeps_demand fun _ => keeps_pure
  | deleteEvidence args | revokeProjection args =>
    exact keeps_bind keeps_fromExcept fun _ => keeps_bind (keeps_scopedState _) fun _ =>
      keeps_bind keeps_demand fun _ => keeps_bind keeps_demand fun _ => keeps_pure
  | proposeClaim args =>
    exact keeps_bind keeps_fromExcept fun _ => keeps_bind keeps_fromExcept fun _ =>
      keeps_bind keeps_demand fun _ => keeps_bind keeps_fromExcept fun _ => keeps_pure
  | reviewClaim args =>
    exact keeps_bind keeps_fromExcept fun _ => keeps_bind (keeps_scopedState _) fun _ =>
      keeps_bind keeps_demand fun _ => keeps_pure
  | linkEntity args =>
    exact keeps_bind keeps_fromExcept fun _ => keeps_bind keeps_fromExcept fun _ => keeps_pure
  | unlinkEntity args | detectContradiction args | adjudicateContradiction args
  | recordCorrection args =>
    exact keeps_bind keeps_fromExcept fun _ => keeps_bind (keeps_scopedState _) fun _ =>
      keeps_pure
  | recordElicitationResponse args =>
    refine keeps_bind keeps_fromExcept fun _ => keeps_bind keeps_fromExcept fun _ => ?_
    cases with_.bronzeVault with
    | none => exact fun _ hq => hq
    | some vault =>
      exact keeps_bind keeps_pure fun _ => keeps_bind keeps_demand fun _ =>
        keeps_bind (keeps_stateAsOf _ _ _) fun _ => keeps_bind keeps_fromExcept fun _ =>
          keeps_bind keeps_fromExcept fun _ => keeps_bind (keeps_state _) fun _ =>
            keeps_bind keeps_demand fun _ => keeps_bind keeps_fromExcept fun _ => keeps_pure
  | issueProjection args => exact keeps_bind (keeps_issueEvent _ _ _) fun _ => keeps_pure

/-! ## One step -/

/-- An append extends the streams. -/
theorem extends_append {e : EventEnvelope} {x : Int} {readings : AppendReadings}
    (hp : p.Healthy) (hcanonical : e.payload.Canonical) :
    Extends p.store (finalState (svc.append e actor x readings) p).store := by
  rcases (append_outcome svc e actor x readings hp hcanonical).2 with hsame | ⟨r, hcommitted⟩
  · exact extends_of_events hsame.events
  · obtain ⟨after, hfresh, hsame⟩ := hcommitted.fresh
    exact (extends_fresh hfresh).trans (extends_of_events hsame.events)

/-- So does an event come by without writing, and then appended. -/
theorem extends_prepared {α β : Type} {m : Method α} {f : α → Method β} {P : α → Prop}
    (hp : p.Healthy) (hanswers : Answers P m)
    (hagree : Oblivious Process.Agree m) (hkeeps : Keeps (fun q : Process => q.store = p.store) m)
    (happend : ∀ a q, P a → q.Healthy → Extends q.store (finalState (f a) q).store) :
    Extends p.store (finalState (m >>= f) p).store := by
  have hstore : (finalState m p).store = p.store := hkeeps p rfl
  rcases finalState_cases m p with ⟨a, hreturns⟩ | ⟨error, herror⟩
  · have hq : (finalState m p).Healthy := (hagree.finalState ⟨rfl, hp, hp⟩).left
    rw [finalState_bind hreturns, ← hstore]
    exact happend a _ (hanswers p a _ hreturns) hq
  · rw [finalState_bind_error herror, hstore]
    exact .refl

/-- **A call extends the streams.** -/
theorem extends_respond {request : Request} (hp : p.Healthy) (hrequest : request.Canonical) :
    Extends p.store (finalState (svc.respond env actor request) p).store := by
  have hmap : ∀ {α : Type} {f : α → Answer} {m : Method α},
      finalState (f <$> m) p = finalState m p := fun {α f m} => by
    rw [map_eq_pure_bind, finalState_bind_pure]
  by_cases hwrites : request.writes = true
  · cases request with
    | append e x readings =>
      rw [respond, hmap]
      exact extends_append hp hrequest
    | write call x key readings =>
      rw [respond, hmap]
      exact extends_prepared hp (canonical_prepare svc _ _ hrequest) (oblivious_prepare svc _ _ _)
        (keeps_prepare _ _ _) fun _ _ hevent hq => extends_append hq hevent
    | issueProjection args x key readings =>
      rw [respond, finalState_bind_pure]
      refine extends_prepared hp (canonical_issueProjection svc _ _ _)
        (oblivious_issueEvent svc _ _ _) (keeps_issueEvent _ _ _) fun issued q hissued hq => ?_
      rw [finalState_bind_pure]
      exact extends_append hq hissued
    | _ => cases hwrites
  · have hsame : (finalState (svc.respond env actor request) p).store = p.store :=
      keeps_respond_query (Bool.eq_false_of_not_eq_true hwrites) p rfl
    rw [hsame]
    exact .refl

/-- **One step** of a service or of another connection. -/
theorem healthy_take {l : ServiceStep} (hp : p.Healthy) (hl : l.Vetted p) :
    (l.take svc env p).Healthy ∧ Extends p.store (l.take svc env p).store := by
  cases l with
  | call actor request =>
    have hagree := oblivious_respond svc env actor hl
    exact ⟨(hagree.finalState ⟨rfl, hp, hp⟩).left, extends_respond hp hl⟩
  | relay limit readings =>
    have hagree := oblivious_relay svc limit readings
    have hkeeps : Keeps (fun q : Process => Upkeep p.store q.store ∧ q.memory = p.memory)
        (svc.drain limit readings) := keeps_drain
    have hupkeep := (hkeeps p ⟨⟨hp.sound, .refl⟩, rfl⟩).1
    exact ⟨(hagree.finalState ⟨rfl, hp, hp⟩).left, extends_of_events hupkeep.same.events⟩
  | elsewhere op =>
    have hextends : Extends p.store (finalState op.exec p.store) :=
      step_extends { store := p.store } op
    have hsound : Sound (finalState op.exec p.store) :=
      step_sound (h := { store := p.store }) hp.sound hl
    exact ⟨⟨hsound, hp.coherent.of_extends hextends⟩, hextends⟩

end Service

/-- What a process can come to from `p`. -/
abbrev ServiceReachable (svc : Service) (env : Surroundings) (p : Process) : Process → Prop :=
  Reachable (fun p l => ServiceStep.take svc env p l) ServiceStep.Vetted p

variable {svc : Service} {env : Surroundings} {p q : Process}

/-- **Over a run** the process stays healthy and the streams only grow. -/
theorem ServiceReachable.healthy (hreach : ServiceReachable svc env p q) (hp : p.Healthy) :
    q.Healthy ∧ Extends p.store q.store := by
  refine Reachable.invariant (I := fun q => q.Healthy ∧ Extends p.store q.store) ⟨hp, .refl⟩ ?_
    hreach
  intro q l hq hl
  obtain ⟨hhealthy, hextends⟩ := Service.healthy_take hq.1 hl
  exact ⟨hhealthy, hq.2.trans hextends⟩

end ArgoTwin
