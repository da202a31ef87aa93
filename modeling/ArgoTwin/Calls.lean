import ArgoTwin.Lineage
import ArgoTwin.Simulation
import ArgoTwin.StateStreams
import ArgoTwin.Writes
/-!
# The calls of a service

Every call a service answers, as one type: what is asked, by whom, and what
comes of it. The calls of one service follow one another, and so do the
drains of its outbox relay, which nobody asks for by name.
-/

namespace ArgoTwin

open Library TwinAggregate

/-- What a service is given besides its store. -/
structure Surroundings where
  collaborators : Collaborators := {}
  streams : StreamConfig := {}

/-- What is asked of a service; `append` and the write methods come with
what they read off the clock and the random source. -/
inductive Request where
  | append (event : EventEnvelope) (expectedSequence : Int) (readings : AppendReadings)
  | write (call : WriteCall) (expectedSequence : Int) (idempotencyKey : String)
      (readings : WriteReadings)
  | issueProjection (args : IssueProjection) (expectedSequence : Int) (idempotencyKey : String)
      (readings : WriteReadings)
  | state (twinId : String) (upToSequence : Option Int) (asOfValid asOfRecorded : Option DateTime)
  | traceLineage (twinId : String) (kind : EpistemicNodeKind) (nodeId : String)
      (asOfRecorded : Option DateTime)
  | planElicitation (twinId objective : String) (claimIds : Option (List String))
  | forkSimulation (twinId scenario branchId : String)
  | subscribe (twinId : String) (afterSequence : Int)
  | openStateStream (request : StreamRequest)

/-- What comes of a request. -/
inductive Answer where
  | event (event : EventEnvelope)
  | issued (projection : Projection) (receipt : ProjectionReceipt) (event : EventEnvelope)
  | state (state : TwinState)
  | lineage (trace : LineageTrace)
  | plan (plan : ElicitationPlan)
  | branch (branch : SimulationBranch)
  | subscription (subscription : DurableSubscription)

/-! ## What is read back as it was handed in -/

/-- The dictionaries and the number a write method passes on to its event are
read back from their canonical JSON as they are. -/
def WriteCall.Canonical : WriteCall → Prop
  | ingestEvidence args => args.payload.Canonical ∧ args.rights.Canonical
  | proposeClaim args => (∀ reference ∈ args.provenance, reference.Canonical) ∧
      args.epistemic.Canonical ∧ (args.modelTrace.getD ∅).Canonical
  | linkEntity args => (∀ reference ∈ args.provenance, reference.Canonical) ∧
      args.confidence.Canonical
  | recordElicitationResponse args => args.rights.Canonical
  | _ => True

/-- So is what a request hands in. -/
def Request.Canonical : Request → Prop
  | append event _ _ => event.payload.Canonical
  | write call _ _ _ => call.Canonical
  | _ => True

section Canonical

@[simp] theorem Json.canonical_str (text : String) : (Json.str text).Canonical := rfl

@[simp] theorem Json.canonical_int (n : Int) : (Json.int n).Canonical := rfl

@[simp] theorem Json.canonical_null : Json.null.Canonical := rfl

@[simp] theorem canonical_optStr (text : Option String) : (optStr text).Canonical :=
  reread_optStr text

@[simp] theorem canonical_optTime (time : Option DateTime) : (optTime time).Canonical := by
  cases time with
  | none => rfl
  | some time => rfl

theorem Json.canonical_object {fields : List (String × Json)}
    (h : ∀ field ∈ fields, field.2.Canonical) : (Json.object fields).Canonical := by
  rw [Payload.object_eq]
  exact Payload.canonical_ofPayload.2 (Payload.canonical_ofFields h)

theorem canonical_listed {references : List Payload}
    (h : ∀ reference ∈ references, reference.Canonical) : (listed references).Canonical := by
  rw [listed, Json.Canonical, Json.reread, Json.rereadItems_eq, List.map_map]
  exact congrArg Json.arr (List.map_congr_left fun reference hreference =>
    Payload.canonical_ofPayload.2 (h reference hreference))

theorem canonical_named {key : String} {text : Option String} {field : String × Json}
    (h : field ∈ named key text) : field.2.Canonical := by
  cases text with
  | none => cases h
  | some text =>
    obtain rfl := List.mem_singleton.1 h
    rfl

end Canonical

namespace Service

variable [Digest] (svc : Service) (env : Surroundings)

omit [Digest] in
theorem canonical_eventBy {ctx : WriteContext} {role : ProducerRole} {twinId eventType : String}
    {occurredAt : Option DateTime} {fields : List (String × Json)}
    (h : ∀ field ∈ fields, field.2.Canonical) :
    (eventBy ctx role twinId eventType occurredAt fields).payload.Canonical :=
  Payload.canonical_ofFields h

/-- The event a projection is told of by is read back as it is. -/
theorem canonical_issueProjection (with_ : Collaborators) (args : IssueProjection)
    (ctx : WriteContext) :
    Answers (fun issued : Projection × ProjectionReceipt × EventEnvelope =>
      issued.2.2.payload.Canonical) (Prepare.issueProjection svc with_ args ctx) :=
  answers_bind fun _ => answers_bind fun _ => answers_bind fun _ => answers_bind fun _ =>
    answers_bind fun _ => answers_bind fun _ => answers_bind fun _ =>
      answers_pure (Payload.canonical_ofFields (by simp [canonical_strs]))

/-- **The write methods pass on what they are handed**: of canonical
arguments comes an event that is read back as it is. -/
theorem canonical_prepare (with_ : Collaborators) {call : WriteCall} (ctx : WriteContext)
    (h : call.Canonical) :
    Answers (fun e => e.payload.Canonical) (svc.prepare with_ call ctx) := by
  cases call with
  | ingestEvidence args =>
    obtain ⟨hpayload, hrights⟩ := h
    refine answers_bind fun _ => answers_bind fun _ => answers_bind fun _ =>
      answers_bind fun _ => answers_pure (canonical_eventBy ?_)
    simp only [List.append_assoc, List.forall_mem_append]
    refine ⟨?_, fun _ => canonical_named, fun _ => canonical_named, fun _ => canonical_named⟩
    simp [Payload.canonical_ofPayload, hpayload, hrights]
  | proposeClaim args =>
    obtain ⟨hprovenance, hepistemic, htrace⟩ := h
    exact answers_bind fun _ => answers_bind fun _ => answers_bind fun _ => answers_bind fun _ =>
      answers_pure (canonical_eventBy (by
        simp [Payload.canonical_ofPayload, canonical_listed hprovenance, hepistemic, htrace]))
  | linkEntity args =>
    obtain ⟨hprovenance, hconfidence⟩ := h
    exact answers_bind fun _ => answers_bind fun _ => answers_pure (canonical_eventBy (by
      simp [canonical_listed hprovenance, hconfidence]))
  | recordElicitationResponse args =>
    have hrights : args.rights.Canonical := h
    refine answers_bind fun _ => answers_bind fun _ => ?_
    cases with_.bronzeVault with
    | none =>
      intro _ _ _ h
      obtain ⟨_, _, hthrow, -⟩ := returns_bind.1 h
      exact (returns_throw.1 hthrow).elim
    | some vault =>
      exact answers_bind fun _ => answers_bind fun _ => answers_bind fun _ => answers_bind fun _ =>
        answers_bind fun _ => answers_bind fun _ => answers_bind fun _ => answers_bind fun _ =>
        answers_pure (canonical_eventBy (by
          simp [Payload.canonical_ofPayload, hrights, Json.canonical_object]))
  | issueProjection args =>
    intro p e p' h
    obtain ⟨issued, q, hissued, hevent⟩ := returns_bind.1 h
    obtain ⟨rfl, -⟩ := returns_pure.1 hevent
    exact canonical_issueProjection svc with_ args ctx p issued q hissued
  | deleteEvidence args =>
    exact answers_bind fun _ => answers_bind fun _ => answers_bind fun _ => answers_bind fun _ =>
      answers_pure (canonical_eventBy (by simp))
  | revokeProjection args =>
    exact answers_bind fun _ => answers_bind fun _ => answers_bind fun _ => answers_bind fun _ =>
      answers_pure (Payload.canonical_ofFields (by simp))
  | reviewClaim args =>
    exact answers_bind fun _ => answers_bind fun _ => answers_bind fun _ =>
      answers_pure (canonical_eventBy (by simp))
  | unlinkEntity args | detectContradiction args | adjudicateContradiction args
  | recordCorrection args =>
    exact answers_bind fun _ => answers_bind fun _ =>
      answers_pure (canonical_eventBy (by simp [canonical_strs]))

/-- `issue_projection`, with all it returns. -/
def issueProjection (with_ : Collaborators) (args : IssueProjection) (ctx : WriteContext) :
    Method (Projection × ProjectionReceipt × EventEnvelope) := do
  let (projection, receipt, event) ← Prepare.issueProjection svc with_ args ctx
  let persisted ← svc.append event ctx.actor ctx.expectedSequence ctx.readings.append
  pure (projection, receipt, persisted)

/-- `subscribe`: the raw stream, for operations. -/
def subscribe (config : StreamConfig) (twinId : String) (afterSequence : Int)
    (actor : ActorContext) : Method DurableSubscription := do
  demand (.operationsService ∈ actor.roles)
    (.authorizationDenied "raw event subscriptions require operations role")
  if actor.subjectId.isSome then do
    let state ← svc.state twinId
    authorizeSubject actor state.subjectId
  let start ← fromExcept ((← get).store.streamPosition twinId afterSequence)
  fromExcept (DurableSubscription.open (← get).store config.queueCapacity start config.syncLimits {})

/-- **One call**, by an actor. -/
def respond (actor : ActorContext) : Request → Method Answer
  | .append event expectedSequence readings =>
    Answer.event <$> svc.append event actor expectedSequence readings
  | .write call expectedSequence idempotencyKey readings =>
    Answer.event <$>
      svc.write env.collaborators call ⟨actor, expectedSequence, idempotencyKey, readings⟩
  | .issueProjection args expectedSequence idempotencyKey readings => do
    let (projection, receipt, event) ← svc.issueProjection env.collaborators args
      ⟨actor, expectedSequence, idempotencyKey, readings⟩
    pure (.issued projection receipt event)
  | .state twinId upToSequence asOfValid asOfRecorded =>
    Answer.state <$> svc.stateAt twinId upToSequence asOfValid asOfRecorded
  | .traceLineage twinId kind nodeId asOfRecorded =>
    Answer.lineage <$> svc.traceLineage twinId kind nodeId asOfRecorded
  | .planElicitation twinId objective claimIds =>
    Answer.plan <$> svc.planElicitation env.collaborators twinId objective claimIds
  | .forkSimulation twinId scenario branchId =>
    Answer.branch <$> svc.forkSimulation twinId scenario branchId actor
  | .subscribe twinId afterSequence =>
    Answer.subscription <$> svc.subscribe env.streams twinId afterSequence actor
  | .openStateStream request =>
    Answer.subscription <$> svc.openStateStream env.streams { request with actor := actor }

end Service

end ArgoTwin
