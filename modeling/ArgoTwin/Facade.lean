import ArgoTwin.Calls
import ArgoTwin.Columns
import ArgoTwin.Contracts
/-!
# The public facade

`InProcessK2Facade` answers the public API out of one service. What it
raises is translated, what it returns names nothing private: claims go by
references derived from their identifiers, and an admission is read off its
event and the state at the event's own sequence.
-/

namespace ArgoTwin

open Library TwinAggregate

namespace InProcessK2Facade

/-- A method of the facade. -/
abbrev Method (α : Type) := EStateM Raised Process α

/-- `_translate_error`. -/
def translateError : Raised → K2PublicError
  | .k2 e => e
  | .other (.authorizationDenied _) | .other (.policyDenied _) =>
    ⟨.authorizationDenied, "authorization denied"⟩
  | .other (.concurrencyConflict _) => ⟨.staleState, "canonical state precondition is stale"⟩
  | .other (.invariantViolation _) | .other (.valueError _) | .other (.protocolViolation _)
  | .other (.messageTooLarge _) | .other (.resumeCursorRejected _) =>
    ⟨.invalidRequest, "request violates the public canonical contract"⟩
  | .other (.integrityError _) =>
    ⟨.invariantViolation, "canonical integrity invariant could not be satisfied"⟩
  | .other _ => ⟨.temporarilyUnavailable, "canonical service is temporarily unavailable"⟩

/-- `try: … except Exception as exc: raise self._translate_error(exc)`. -/
def translated {α : Type} (x : Method α) : Method α :=
  mapRaised (fun e => .k2 (translateError e)) x

/-- A call of the service, whose exceptions pass through. -/
def served {α : Type} (x : Service.Method α) : Method α := fun p =>
  match x p with
  | .ok a p' => .ok a p'
  | .error e p' => .error (.other e) p'

/-- An outcome, as part of a method. -/
def given {α : Type} (x : Except PyError α) : Method α := fromExcept (x.mapError .other)

/-- `raise K2PublicError(code, message)`. -/
def fails {α : Type} (code : PublicErrorCode) (message : String) : Method α :=
  throw (.k2 ⟨code, message⟩)

/-- `_actor`. -/
def actor (authority : AuthorityContext) : Except Raised ActorContext :=
  match authority.val.roles.mapM ProducerRole.ofValue with
  | .error _ => .error (.k2 ⟨.invalidRequest, "authority contains an unsupported role"⟩)
  | .ok roles =>
    if hid : authority.val.identityId = "" then
      .error (.other (.invariantViolation "actor identity_id is required"))
    else if hroles : roles = [] then
      .error (.other (.invariantViolation "actor requires at least one producer role"))
    else .ok ⟨authority.val.identityId, roles, authority.val.subjectId, hid, hroles⟩

variable [Digest]

/-! ## References -/

/-- `_representation_item_ref`. -/
def representationItemRef (representationId claimId : String) : String :=
  "representation-item:" ++
    Digest.uuid5 ("k2-public:" ++ representationId ++ ":representation-item:" ++ claimId)

/-- `_deficit_ref`. -/
def deficitRef (representationId kind privateTarget : String) : String :=
  "representation-deficit:" ++
    Digest.uuid5 ("k2-public:" ++ representationId ++ ":deficit:" ++ kind ++ ":" ++ privateTarget)

/-! ## Reading a representation -/

/-- The view of a state that has a subject. -/
def stateView (representationId : String) (s : TwinState) (subjectId : String) :
    Except PyError RepresentationStateView := do
  let subjectRef ← SubjectRef.build subjectId
  let snapshotRef ← RepresentationSnapshotRef.build subjectRef
    ("k2:" ++ representationId ++ ":sequence:" ++ toString s.sequence) s.sequence
    ("event-chain:" ++ s.lastEventHash)
  pure
    { representationId := representationId
      subjectRef := subjectRef
      snapshotRef := snapshotRef
      evidenceRefs := s.evidence.keys
      representationItemRefs := s.claims.keys.map (representationItemRef representationId)
      acceptedRepresentationItemRefs :=
        s.acceptedClaimIds.toList.map (representationItemRef representationId)
      contestedRepresentationItemRefs :=
        s.contestedClaimIds.toList.map (representationItemRef representationId)
      contradictionRefs := s.contradictions.keys
      degradedReasons := s.degradedReasons }

/-- `read_representation_state`. -/
def readRepresentationState (svc : Service) (request : RepresentationQuery) :
    Method RepresentationStateView := do
  let actor ← fromExcept (actor request.authority)
  let state ← translated (served (svc.scopedState request.representationId actor))
  match state.subjectId with
  | none => fails .notFound "canonical representation is not initialized"
  | some subjectId =>
    if state.sequence < 1 then fails .notFound "canonical representation is not initialized"
    else given (stateView request.representationId state subjectId)

/-- The deficits of one kind that claims have. -/
def claimDeficits (representationId kind rationale : String) (claimIds : IdSet) :
    List RepresentationDeficit :=
  claimIds.toList.map fun claimId =>
    { deficitId := deficitRef representationId kind claimId
      kind := kind
      targetRefs := [representationItemRef representationId claimId]
      rationale := rationale }

omit [Digest] in
/-- The deficit of a contradiction nobody resolved. -/
def contradictionDeficit (representationId contradictionId : String) : RepresentationDeficit where
  deficitId := representationId ++ ":contradiction:" ++ contradictionId
  kind := "unresolved_contradiction"
  targetRefs := [contradictionId]
  rationale := "Canonical contradiction remains unresolved."

/-- What a state lacks, given the reasons it is degraded for. -/
def deficits (representationId : String) (s : TwinState) (degradedReasons : List String) :
    List RepresentationDeficit :=
  (if s.claims.isEmpty then
    [⟨representationId ++ ":missing-representation", "missing_representation", [],
      "No canonical claim currently represents the subject."⟩]
  else []) ++
  claimDeficits representationId "stale_representation"
    "Canonical representation item depends on stale evidence." s.staleClaimIds ++
  claimDeficits representationId "contested_representation"
    "Canonical representation item remains contested." s.contestedClaimIds ++
  ((s.contradictions.keys.filter fun id => !s.resolvedContradictionIds.contains id).map
    (contradictionDeficit representationId)) ++
  degradedReasons.mapIdx fun index reason =>
    ⟨representationId ++ ":degraded:" ++ toString index, "degraded_state", [], reason⟩

/-- `read_representation_deficits`. -/
def readRepresentationDeficits (svc : Service) (request : RepresentationQuery) :
    Method (List RepresentationDeficit) := do
  let view ← readRepresentationState svc request
  let state ← served (svc.state request.representationId)
  pure (deficits request.representationId state view.degradedReasons)

end InProcessK2Facade

end ArgoTwin
