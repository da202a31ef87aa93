import ArgoTwin.Types
/-!
# Who may write what

Default-deny event ownership. `authorizeIntent` asks whether the actor
holds the role that owns the event type; `authorizeSubject` compares the
actor's subject scope with a target subject, and passes where either is
missing.
-/

namespace ArgoTwin

def eventOwners : List (String × List ProducerRole) :=
  [("EvidenceIngested", [.ingestService]),
   ("EvidenceDeleted", [.ingestService]),
   ("AcquisitionCompleted", [.ingestService]),
   ("EntityLinked", [.identityWorker]),
   ("EntityUnlinked", [.identityWorker]),
   ("ClaimProposed", [.adjudicationWorker]),
   ("ContradictionDetected", [.adjudicationWorker]),
   ("ContradictionAdjudicated", [.humanReview]),
   ("ReferralCreated", [.adjudicationWorker]),
   ("ClaimAccepted", [.humanReview]),
   ("ClaimContested", [.humanReview]),
   ("ClaimRetired", [.humanReview]),
   ("ClaimSuperseded", [.humanReview]),
   ("CorrectionRecorded", [.humanReview]),
   ("KernelCompiled", [.compiler]),
   ("EvaluationCompleted", [.compiler]),
   ("ReadinessChanged", [.compiler]),
   ("ProjectionIssued", [.projectionService]),
   ("ProjectionRevoked", [.projectionService]),
   ("ScenarioStatePredicted", [.simulationService]),
   ("AgentDecisionObserved", [.downstreamAgent]),
   ("OutcomeSubmitted", [.downstreamAgent]),
   ("DegradationDeclared", [.operationsService]),
   ("DegradationCleared", [.operationsService])]

/-- `sole_event_owner`: the role of a version 1 event, which does not say. -/
def soleEventOwner (eventType : String) : Except PyError ProducerRole :=
  match eventOwners.lookup eventType with
  | some [role] => .ok role
  | _ => .error (.invariantViolation ("legacy event type " ++ Json.reprStr eventType ++
      " has no unambiguous producer role"))

namespace EventOwnershipPolicy

def authorizeIntent (eventType : String) (producerRole : ProducerRole) (actor : ActorContext) :
    Except PyError Unit :=
  if producerRole ∉ actor.roles then
    .error (.authorizationDenied "producer role is not present in actor claims")
  else match eventOwners.lookup eventType with
    | none => .error (.authorizationDenied "unregistered event type is denied by default")
    | some allowedRoles =>
      if producerRole ∉ allowedRoles then
        .error (.authorizationDenied "producer role does not own this event type")
      else .ok ()

def authorizeSubject (actor : ActorContext) (subjectId : Option String) : Except PyError Unit :=
  if actor.subjectId.isSome ∧ subjectId.isSome ∧ actor.subjectId ≠ subjectId then
    .error (.authorizationDenied "actor subject scope does not match target subject")
  else .ok ()

/-- The subject a payload names, where it names one. -/
def payloadSubject (payload : Payload) : Option String :=
  match payload["subject_id"]? with
  | none | some .null => none
  | some value => some value.pyStr

def authorize (event : EventEnvelope) (actor : ActorContext) : Except PyError Unit :=
  if event.producer ≠ actor.identityId then
    .error (.authorizationDenied "event producer does not match authenticated actor")
  else do
    authorizeIntent event.eventType event.producerRole actor
    authorizeSubject actor (payloadSubject event.payload)

variable {actor : ActorContext} {S T : String}

/-- An actor scoped to `T` passes for `T` and where no subject is named. -/
theorem authorizeSubject_eq_ok {subjectId : Option String} (hT : actor.subjectId = some T) :
    authorizeSubject actor subjectId = .ok () ↔ subjectId = none ∨ subjectId = some T := by
  unfold authorizeSubject
  cases subjectId with
  | none => simp
  | some S => simp [hT, eq_comm]

theorem authorize_eq_ok {event : EventEnvelope} :
    authorize event actor = .ok () ↔ event.producer = actor.identityId ∧
      authorizeIntent event.eventType event.producerRole actor = .ok () ∧
      authorizeSubject actor (payloadSubject event.payload) = .ok () := by
  unfold authorize
  by_cases h : event.producer = actor.identityId
  · cases hi : authorizeIntent event.eventType event.producerRole actor <;>
      simp [h, bind, Except.bind]
  · simp [h]

/-- **Default deny**: whoever may write an event type holds the role the
table gives it. -/
theorem owner_of_authorizeIntent {eventType : String} {role : ProducerRole}
    (h : authorizeIntent eventType role actor = .ok ()) :
    role ∈ actor.roles ∧ ∃ roles, eventOwners.lookup eventType = some roles ∧ role ∈ roles := by
  unfold authorizeIntent at h
  split at h
  · cases h
  · rename_i hrole
    refine ⟨by simpa using hrole, ?_⟩
    split at h
    · cases h
    · rename_i roles hroles
      split at h
      · cases h
      · rename_i hmem
        exact ⟨roles, hroles, by simpa using hmem⟩

end EventOwnershipPolicy

end ArgoTwin
