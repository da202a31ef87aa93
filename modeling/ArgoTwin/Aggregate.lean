import ArgoTwin.Library.Effects
import ArgoTwin.State
import ArgoTwin.Ownership
/-!
# The aggregate

`apply` folds one event into a state. It validates the event on its own,
then runs the branch of its type, which may raise after it has changed
part of the state, and last moves the state to the event's position.
`rebuild` is the fold over a stored stream.
-/

namespace ArgoTwin

open Library

/-- The event types `apply` tells apart; every other type only moves the
position. -/
inductive EventKind where
  | evidenceIngested
  | entityLinked
  | entityUnlinked
  | evidenceDeleted
  | claimProposed
  | claimAccepted
  | claimContested
  | claimRetired
  | claimSuperseded
  | contradictionDetected
  | contradictionAdjudicated
  | correctionRecorded
  | projectionRevoked
  | projectionIssued
  | degradationDeclared
  | degradationCleared
  | other
  deriving DecidableEq, Repr

/-- The branch an event type takes. -/
def EventKind.ofType (eventType : String) : EventKind :=
  if eventType = "EvidenceIngested" then .evidenceIngested
  else if eventType = "EntityLinked" then .entityLinked
  else if eventType = "EntityUnlinked" then .entityUnlinked
  else if eventType = "EvidenceDeleted" then .evidenceDeleted
  else if eventType = "ClaimProposed" then .claimProposed
  else if eventType = "ClaimAccepted" then .claimAccepted
  else if eventType = "ClaimContested" then .claimContested
  else if eventType = "ClaimRetired" then .claimRetired
  else if eventType = "ClaimSuperseded" then .claimSuperseded
  else if eventType = "ContradictionDetected" then .contradictionDetected
  else if eventType = "ContradictionAdjudicated" then .contradictionAdjudicated
  else if eventType = "CorrectionRecorded" then .correctionRecorded
  else if eventType = "ProjectionRevoked" then .projectionRevoked
  else if eventType = "ProjectionIssued" then .projectionIssued
  else if eventType = "DegradationDeclared" then .degradationDeclared
  else if eventType = "DegradationCleared" then .degradationCleared
  else .other

def EventEnvelope.kind (e : EventEnvelope) : EventKind := .ofType e.eventType

/-- `raise InvariantViolation(message)` where `bad` holds. -/
def rejectIf (bad : Bool) (message : String) : Except PyError Unit :=
  if bad then .error (.invariantViolation message) else .ok ()

@[simp] theorem rejectIf_eq_ok {bad : Bool} {message : String} {u : Unit} :
    rejectIf bad message = .ok u ↔ bad = false := by
  cases bad <;> simp [rejectIf]

namespace TwinAggregate

/-! ## An event on its own -/

def epistemicDimensions : List String :=
  ["evidence_quality", "confidence", "salience", "stability", "freshness", "scope_confidence",
   "contradiction_load"]

def contradictionResolutions : List String :=
  ["uphold", "retain_competing", "insufficient_evidence", "corrected"]

/-- `value in {...}` for a set of texts; an unhashable value raises. -/
def memberOf (value : Option Json) (texts : List String) : Except PyError Bool :=
  match value with
  | some (.str text) => .ok (texts.contains text)
  | some value => if value.hashable then .ok false else .error (.typeError "unhashable type")
  | none => .ok false

/-- `any(not payload.get(field) for field in fields)`. -/
def anyFalsy (payload : Payload) (fields : List String) : Bool :=
  fields.any fun field => !payload.truthy field

/-- The fields of `required`, which is sorted, that the payload lacks. -/
def missing (payload : Payload) (required : List String) : List String :=
  required.filter fun field => !payload.contains field

/-- One reference of a record's provenance. -/
def checkReferences (references : List Json) : Except PyError Unit :=
  rejectIf
    (references.any fun reference =>
      !((reference.get? "relation").getD .null).truthy ||
        !((reference.get? "independence_group").getD .null).truthy)
    "every provenance reference requires relation and independence_group"

def validateProvenance (value : Option Json) (eventType : String) : Except PyError Unit :=
  match value with
  | some (.arr (reference :: rest)) => do
    let references := reference :: rest
    rejectIf (references.any fun reference => !reference.isDict)
      "provenance references must be objects"
    let evidenceIds := references.map fun reference => (reference.get? "evidence_id").getD .null
    rejectIf (evidenceIds.any fun evidenceId => !evidenceId.truthy)
      "every provenance reference requires evidence_id"
    rejectIf (← Json.hasDuplicates evidenceIds)
      "duplicate evidence cannot count as independent support"
    checkReferences references
  | _ => .error (.invariantViolation (eventType ++ " requires non-empty provenance"))

/-- `EpistemicVector(**value)` checks its dimensions one after another. -/
def checkDimensions (fields : Payload) : List String → Except PyError Unit
  | [] => .ok ()
  | name :: names =>
    match ((fields[name]?).getD .null).inUnit with
    | .ok true => checkDimensions fields names
    | .ok false => .error (.invariantViolation (name ++ " must be in [0, 1]"))
    | .error _ => .error (.invariantViolation "epistemic dimensions must be numeric")

def validateEpistemic (value : Option Json) : Except PyError Unit :=
  match value with
  | some (.obj fields) =>
    let fields := Payload.ofFields fields
    if epistemicDimensions.all (fun name => fields.contains name) &&
        fields.keys.all (fun name => epistemicDimensions.contains name) then
      checkDimensions fields epistemicDimensions
    else .error (.invariantViolation
      "epistemic vector requires exactly seven independent dimensions")
  | _ => .error (.invariantViolation
      "epistemic vector requires exactly seven independent dimensions")

def projectionEvents : List EventKind := [.projectionIssued, .projectionRevoked]

def checkHeader (e : EventEnvelope) : Except PyError Unit := do
  rejectIf (e.twinId == "" || e.producer == "" || e.idempotencyKey == "")
    "event twin_id, producer, and idempotency_key are required"
  rejectIf (!(["argo.dt.event/v1", "argo.dt.event/v2"].contains e.schemaVersion))
    "unsupported event schema version"
  rejectIf (e.schemaVersion == "argo.dt.event/v1" && e.sequence == 0)
    "new writes must use EventEnvelope v2"
  rejectIf e.occurredAt.naive "event occurred_at must be timezone-aware"
  rejectIf (e.plane == .projection && !projectionEvents.contains e.kind)
    "projection plane accepts projection events only"
  rejectIf (projectionEvents.contains e.kind && e.plane != .projection)
    "projection events must use the projection plane"

def checkEvidenceIngested (payload : Payload) : Except PyError Unit := do
  let required := ["content_hash", "evidence_id", "independence_group", "rights", "sensitivity",
    "source", "subject_id"]
  rejectIf (!(missing payload required).isEmpty)
    ("EvidenceIngested missing fields: " ++ ", ".intercalate (missing payload required))
  rejectIf (anyFalsy payload (required.filter (· != "rights")))
    "EvidenceIngested required fields cannot be empty"
  rejectIf (!((payload["rights"]?).getD .null).isDict) "EvidenceIngested rights must be an object"
  match Sensitivity.ofValue (payload.strD "sensitivity" "") with
  | .ok _ => pure ()
  | .error _ => .error (.invariantViolation "EvidenceIngested sensitivity is invalid")

def checkClaimProposed (payload : Payload) : Except PyError Unit := do
  validateProvenance payload["provenance"]? "ClaimProposed"
  rejectIf (anyFalsy payload ["claim_id", "subject_id", "statement"])
    "ClaimProposed requires claim_id, subject_id, and statement"
  validateEpistemic payload["epistemic"]?

def checkEntityLinked (payload : Payload) : Except PyError Unit := do
  rejectIf (anyFalsy payload ["entity_link_id", "subject_id", "namespace", "entity_id"])
    "EntityLinked identity fields are required"
  validateProvenance payload["provenance"]? "EntityLinked"
  let confidence := (payload["confidence"]?).getD .null
  let inRange ← if confidence.isNumber then confidence.inUnit else pure false
  rejectIf (!inRange) "EntityLinked confidence must be in [0, 1]"

def checkEntityUnlinked (payload : Payload) : Except PyError Unit :=
  rejectIf (anyFalsy payload ["entity_link_id", "reason"])
    "EntityUnlinked requires entity_link_id and reason"

/-- A text that `strip()` leaves something of. -/
def isNonBlank : Option Json → Bool
  | some (.str text) => text.toList.any fun c => !Json.isSpace c
  | _ => false

/-- `isinstance(value, list)` with distinct truthy members. -/
def distinctTruthyList (value : Option Json) : Except PyError Bool :=
  match value with
  | some (.arr items) => do
    if ← Json.hasDuplicates items then pure false
    else pure (items.all Json.truthy)
  | _ => .ok false

def checkContradictionDetected (e : EventEnvelope) : Except PyError Unit := do
  let payload := e.payload
  let message := "ContradictionDetected requires an identity and distinct claims"
  rejectIf (!payload.truthy "contradiction_id") message
  match payload["claim_ids"]? with
  | some (.arr (first :: second :: rest)) =>
    rejectIf (!(← distinctTruthyList (some (.arr (first :: second :: rest))))) message
  | _ => .error (.invariantViolation message)
  rejectIf (e.sequence == 0 &&
      (!payload.truthy "subject_id" || !isNonBlank payload["basis"]?))
    "new ContradictionDetected events require subject_id and basis"

def checkContradictionAdjudicated (payload : Payload) : Except PyError Unit := do
  let message := "ContradictionAdjudicated requires resolution, rationale, and preferences"
  rejectIf (anyFalsy payload ["contradiction_id", "subject_id", "reviewer_identity_id"]) message
  rejectIf (!(← memberOf payload["resolution"]? contradictionResolutions)) message
  rejectIf (!payload.truthy "rationale") message
  rejectIf (!(← distinctTruthyList payload["preferred_claim_ids"]?)) message

def checkCorrectionRecorded (payload : Payload) : Except PyError Unit := do
  rejectIf (anyFalsy payload ["correction_id", "subject_id", "target_kind", "target_id",
      "replacement_id", "reviewer_identity_id", "rationale"])
    "CorrectionRecorded fields are required"
  rejectIf (!(← memberOf payload["target_kind"]? ["evidence", "claim"]))
    "correction target_kind must be evidence or claim"
  rejectIf (Json.pyEqOption payload["target_id"]? payload["replacement_id"]?)
    "correction target and replacement must differ"

def checkProjectionIssued (payload : Payload) : Except PyError Unit :=
  let required := ["projection_id", "purpose", "receipt_hash", "recipient_id"]
  rejectIf (!(missing payload required).isEmpty)
    ("ProjectionIssued missing fields: " ++ ", ".intercalate (missing payload required))

/-- What a type asks of its own payload. -/
def checkPayload (e : EventEnvelope) : Except PyError Unit :=
  match e.kind with
  | .evidenceIngested => checkEvidenceIngested e.payload
  | .claimProposed => checkClaimProposed e.payload
  | .entityLinked => checkEntityLinked e.payload
  | .entityUnlinked => checkEntityUnlinked e.payload
  | .contradictionDetected => checkContradictionDetected e
  | .contradictionAdjudicated => checkContradictionAdjudicated e.payload
  | .correctionRecorded => checkCorrectionRecorded e.payload
  | .evidenceDeleted =>
    rejectIf (!e.payload.truthy "evidence_id") "EvidenceDeleted requires evidence_id"
  | .claimAccepted | .claimContested | .claimRetired | .claimSuperseded =>
    rejectIf (!e.payload.truthy "claim_id") (e.eventType ++ " requires claim_id")
  | .projectionIssued => checkProjectionIssued e.payload
  | .projectionRevoked =>
    rejectIf (!e.payload.truthy "projection_id") "ProjectionRevoked requires projection_id"
  | .degradationDeclared | .degradationCleared | .other => pure ()

def validateEvent (e : EventEnvelope) : Except PyError Unit := do
  checkHeader e
  checkPayload e

/-- **A validated event** names its twin, producer and key, is aware of
its time, and is on the plane of its type. -/
theorem header_of_validateEvent {e : EventEnvelope} (h : validateEvent e = .ok ()) :
    (e.twinId ≠ "" ∧ e.producer ≠ "" ∧ e.idempotencyKey ≠ "") ∧ e.occurredAt.naive = false ∧
      (e.plane = .projection ↔ e.kind ∈ projectionEvents) := by
  obtain ⟨_, hheader, -⟩ := Library.bind_eq_ok.1 h
  simp only [checkHeader, Library.bind_eq_ok, rejectIf_eq_ok] at hheader
  obtain ⟨_, hnamed, _, -, _, -, _, haware, _, hprojection, hplane⟩ := hheader
  refine ⟨by simpa [and_assoc] using hnamed, haware, ?_⟩
  simp only [Bool.and_eq_false_iff, beq_eq_false_iff_ne, Bool.not_eq_false',
    List.contains_iff_mem, bne_eq_false_iff_eq] at hprojection hplane
  constructor
  · intro hp
    exact hprojection.resolve_left fun hne => hne hp
  · intro hmem
    exact hplane.resolve_left fun hnot => by simp [hmem] at hnot

/-! ## An event on a state -/

/-- A method that changes a state in place and may raise. -/
abbrev Mutation := EStateM PyError TwinState Unit

def violation (message : String) : Mutation := throw (.invariantViolation message)

/-- `if bad: raise InvariantViolation(message)`. -/
def raiseIf (bad : Prop) [Decidable bad] (message : String) : Mutation :=
  if bad then violation message else pure ()

/-- `str(payload[key])`. -/
def requireStr (payload : Payload) (key : String) : EStateM PyError TwinState String :=
  fromExcept ((payload.require key).map Json.pyStr)

def bindSubject (subjectId : String) : Mutation := do
  raiseIf (subjectId = "") "subject_id is required"
  let state ← get
  raiseIf (state.subjectId ≠ none ∧ state.subjectId ≠ some subjectId)
    "event subject does not match twin subject"
  set { state with subjectId := some subjectId }

/-- Adds to a set the identifiers of the records that satisfy `p`. -/
def markWhere (records : Dict Payload) (p : Payload → Except PyError Bool) :
    EStateM PyError IdSet Unit :=
  records.toList.forM fun record => do
    if ← fromExcept (p record.2) then modify fun ids => ids.insert record.1

/-- `any(ref.get("evidence_id") == evidence_id for ref in record.get("provenance", []))`. -/
def cites (evidenceId : String) (record : Payload) : Except PyError Bool := do
  (← (record.listD "provenance").pyIter).anyM fun
    | .obj fields =>
      pure (Json.pyEq (((Json.obj fields).get? "evidence_id").getD .null) (.str evidenceId))
    | _ => .error (.attributeError "get")

/-- `set(projection.get("source_claim_ids", []))` has a member in `ids`. -/
def compiledFrom (ids : IdSet) (projection : Payload) : Except PyError Bool := do
  pure ((← (projection.listD "source_claim_ids").pySet).any fun
    | .str id => ids.contains id
    | _ => false)

/-- The same with the members read as texts. -/
def compiledFromText (ids : IdSet) (projection : Payload) : Except PyError Bool := do
  pure ((← (projection.listD "source_claim_ids").pyIter).any fun item => ids.contains item.pyStr)

def markLinks (p : Payload → Except PyError Bool) : Mutation := do
  let state ← get
  onPart (·.staleEntityLinkIds) (fun ids s => { s with staleEntityLinkIds := ids })
    (markWhere state.entityLinks p)

def markClaims (p : Payload → Except PyError Bool) : Mutation := do
  let state ← get
  onPart (·.staleClaimIds) (fun ids s => { s with staleClaimIds := ids })
    (markWhere state.claims p)

def markProjections (p : Payload → Except PyError Bool) : Mutation := do
  let state ← get
  onPart (·.staleProjectionIds) (fun ids s => { s with staleProjectionIds := ids })
    (markWhere state.issuedProjections p)

/-- A reference of a new record names evidence the twin holds, in its
independence group. -/
def checkReference (unknown mismatch : String) (reference : Json) : Mutation := do
  let evidenceId ← fromExcept (match reference.get? "evidence_id" with
    | some value => .ok value.pyStr
    | none => .error (.keyError "evidence_id"))
  let state ← get
  match state.evidence[evidenceId]? with
  | none => violation unknown
  | some evidence =>
    let group := evidence["independence_group"]?
    raiseIf (!Json.pyEqOption (reference.get? "independence_group") group) mismatch

def checkProvenance (payload : Payload) (unknown mismatch : String) : Mutation := do
  let references ← fromExcept (payload.require "provenance" >>= Json.pyIter)
  references.forM (checkReference unknown mismatch)

/-- A copy of the payload that keeps when it was recorded. -/
def recorded (e : EventEnvelope) : Payload :=
  e.payload.insert "recorded_at" (.str e.recordedAt.isoformat)

def applyEvidenceIngested (e : EventEnvelope) : Mutation := do
  bindSubject (← requireStr e.payload "subject_id")
  let evidenceId ← requireStr e.payload "evidence_id"
  raiseIf (evidenceId ∈ (← get).evidence)
    "evidence identity already exists; append a correction event"
  modify fun s => { s with evidence := s.evidence.insert evidenceId e.payload }

def applyEntityLinked (e : EventEnvelope) : Mutation := do
  bindSubject (← requireStr e.payload "subject_id")
  checkProvenance e.payload "entity provenance references unknown evidence"
    "entity provenance independence group does not match evidence"
  let linkId ← requireStr e.payload "entity_link_id"
  raiseIf (linkId ∈ (← get).entityLinks) "entity link identity already exists"
  modify fun s => { s with entityLinks := s.entityLinks.insert linkId (recorded e) }

def applyEntityUnlinked (e : EventEnvelope) : Mutation := do
  let linkId ← requireStr e.payload "entity_link_id"
  let state ← get
  raiseIf (linkId ∉ state.entityLinks) "cannot unlink an unknown entity"
  raiseIf (linkId ∈ state.unlinkedEntityIds) "entity link is already inactive"
  modify fun s => { s with unlinkedEntityIds := s.unlinkedEntityIds.insert linkId }

def applyEvidenceDeleted (e : EventEnvelope) : Mutation := do
  let evidenceId ← requireStr e.payload "evidence_id"
  raiseIf (evidenceId ∉ (← get).evidence) "cannot delete unknown evidence"
  modify fun s => { s with evidence := s.evidence.erase evidenceId }
  markLinks (cites evidenceId)
  markClaims (cites evidenceId)
  markProjections (compiledFrom (← get).staleClaimIds)

def applyClaimProposed (e : EventEnvelope) : Mutation := do
  bindSubject (← requireStr e.payload "subject_id")
  checkProvenance e.payload "claim provenance references unknown evidence"
    "claim provenance independence group does not match evidence"
  let claimId ← requireStr e.payload "claim_id"
  raiseIf (claimId ∈ (← get).claims) "claim identity already exists; append a supersession event"
  modify fun s => { s with claims := s.claims.insert claimId (recorded e) }

/-- Acceptance and contestation ask the same of the claim they move. -/
def checkReviewable (claimId unknown closed : String) : Mutation := do
  let state ← get
  raiseIf (claimId ∉ state.claims) unknown
  raiseIf (claimId ∈ state.retiredClaimIds ∨ claimId ∈ state.supersededClaimIds) closed

def applyClaimAccepted (e : EventEnvelope) : Mutation := do
  let claimId ← requireStr e.payload "claim_id"
  checkReviewable claimId "cannot accept an unknown claim"
    "cannot accept a retired or superseded claim"
  modify fun s => { s with
    acceptedClaimIds := s.acceptedClaimIds.insert claimId
    contestedClaimIds := s.contestedClaimIds.erase claimId }

def applyClaimContested (e : EventEnvelope) : Mutation := do
  let claimId ← requireStr e.payload "claim_id"
  checkReviewable claimId "cannot contest an unknown claim"
    "cannot contest a retired or superseded claim"
  modify fun s => { s with
    contestedClaimIds := s.contestedClaimIds.insert claimId
    acceptedClaimIds := s.acceptedClaimIds.erase claimId }

def applyClaimRetired (e : EventEnvelope) : Mutation := do
  let claimId ← requireStr e.payload "claim_id"
  raiseIf (claimId ∉ (← get).claims) "cannot retire an unknown claim"
  modify fun s => { s with
    acceptedClaimIds := s.acceptedClaimIds.erase claimId
    contestedClaimIds := s.contestedClaimIds.erase claimId
    retiredClaimIds := s.retiredClaimIds.insert claimId }

def applyClaimSuperseded (e : EventEnvelope) : Mutation := do
  let claimId ← requireStr e.payload "claim_id"
  let successorId := e.payload.strD "successor_claim_id" ""
  raiseIf (successorId = "") "ClaimSuperseded requires successor_claim_id"
  let state ← get
  raiseIf (claimId ∉ state.claims ∨ successorId ∉ state.claims)
    "supersession requires known predecessor and successor"
  raiseIf (claimId ∈ state.supersededClaimIds) "claim is already superseded"
  modify fun s => { s with
    acceptedClaimIds := s.acceptedClaimIds.erase claimId
    contestedClaimIds := s.contestedClaimIds.erase claimId
    supersededClaimIds := s.supersededClaimIds.insert claimId }
  markProjections (compiledFrom ((∅ : IdSet).insert claimId))

/-- A contradiction binds its subject only where it names one. -/
def bindIfNamed (payload : Payload) : Mutation :=
  match EventOwnershipPolicy.payloadSubject payload with
  | some subjectId => bindSubject subjectId
  | none => pure ()

def applyContradictionDetected (e : EventEnvelope) : Mutation := do
  let contradictionId ← requireStr e.payload "contradiction_id"
  raiseIf (contradictionId ∈ (← get).contradictions) "contradiction identity already exists"
  bindIfNamed e.payload
  let claimIds ← fromExcept (e.payload.require "claim_ids" >>= Json.pyIter)
  let state ← get
  raiseIf (claimIds.any fun item => !state.claims.contains item.pyStr)
    "contradiction references unknown claims"
  modify fun s => { s with contradictions := s.contradictions.insert contradictionId (recorded e) }

def applyContradictionAdjudicated (e : EventEnvelope) : Mutation := do
  let contradictionId ← requireStr e.payload "contradiction_id"
  let state ← get
  match state.contradictions[contradictionId]? with
  | none => violation "cannot adjudicate an unknown contradiction"
  | some contradiction =>
    raiseIf (contradictionId ∈ state.resolvedContradictionIds)
      "contradiction is already adjudicated"
    let claimIds := (← fromExcept (contradiction.listD "claim_ids").pyIter).map Json.pyStr
    let preferred := (← fromExcept
      (e.payload.require "preferred_claim_ids" >>= Json.pyIter)).map Json.pyStr
    raiseIf (preferred.any fun id => !claimIds.contains id)
      "preferred claims must belong to the contradiction"
    let decisive ← fromExcept (memberOf e.payload["resolution"]? ["uphold", "corrected"])
    raiseIf (decisive ∧ preferred = []) "this resolution requires a preferred claim"
    bindSubject (← requireStr e.payload "subject_id")
    modify fun s => { s with
      adjudications := s.adjudications.insert contradictionId (recorded e)
      resolvedContradictionIds := s.resolvedContradictionIds.insert contradictionId }

def applyCorrectionRecorded (e : EventEnvelope) : Mutation := do
  bindSubject (← requireStr e.payload "subject_id")
  let correctionId ← requireStr e.payload "correction_id"
  raiseIf (correctionId ∈ (← get).corrections) "correction identity already exists"
  let targetKind ← requireStr e.payload "target_kind"
  let targetId ← requireStr e.payload "target_id"
  let replacementId ← requireStr e.payload "replacement_id"
  let ofEvidence : Bool := targetKind = "evidence"
  let state ← get
  let records := if ofEvidence then state.evidence else state.claims
  raiseIf (targetId ∉ records ∨ replacementId ∉ records)
    "correction requires known target and replacement"
  let superseded := if ofEvidence then state.supersededEvidenceIds else state.supersededClaimIds
  raiseIf (targetId ∈ superseded) "correction target is already superseded"
  raiseIf (replacementId ∈ superseded) "correction replacement is already superseded"
  modify fun s =>
    if ofEvidence then
      { s with supersededEvidenceIds := s.supersededEvidenceIds.insert targetId }
    else
      { s with supersededClaimIds := s.supersededClaimIds.insert targetId }
  modify fun s => { s with corrections := s.corrections.insert correctionId (recorded e) }
  if ofEvidence then
    markLinks (cites targetId)
    markClaims (cites targetId)
    markProjections (compiledFromText (← get).staleClaimIds)
  else
    modify fun s => { s with
      acceptedClaimIds := s.acceptedClaimIds.erase targetId
      contestedClaimIds := s.contestedClaimIds.erase targetId }
    markProjections (compiledFromText ((∅ : IdSet).insert targetId))

def applyProjectionRevoked (e : EventEnvelope) : Mutation := do
  let projectionId ← requireStr e.payload "projection_id"
  raiseIf (projectionId ∉ (← get).issuedProjections) "cannot revoke an unknown projection"
  modify fun s => { s with revokedProjectionIds := s.revokedProjectionIds.insert projectionId }

def applyProjectionIssued (e : EventEnvelope) : Mutation := do
  raiseIf ((← get).subjectId = none) "cannot issue a projection for an unbound twin"
  let projectionId ← requireStr e.payload "projection_id"
  raiseIf (projectionId ∈ (← get).issuedProjections) "projection identity already exists"
  modify fun s => { s with issuedProjections := s.issuedProjections.insert projectionId e.payload }

def applyDegradationDeclared (e : EventEnvelope) : Mutation := do
  let reason ← requireStr e.payload "reason"
  modify fun s => { s with degradedReasons := s.degradedReasons ++ [reason] }

def applyDegradationCleared (e : EventEnvelope) : Mutation := do
  let reason ← requireStr e.payload "reason"
  modify fun s => { s with degradedReasons := s.degradedReasons.filter (· != reason) }

/-- The branch of the event's type. -/
def applyKind (e : EventEnvelope) : Mutation :=
  match e.kind with
  | .evidenceIngested => applyEvidenceIngested e
  | .entityLinked => applyEntityLinked e
  | .entityUnlinked => applyEntityUnlinked e
  | .evidenceDeleted => applyEvidenceDeleted e
  | .claimProposed => applyClaimProposed e
  | .claimAccepted => applyClaimAccepted e
  | .claimContested => applyClaimContested e
  | .claimRetired => applyClaimRetired e
  | .claimSuperseded => applyClaimSuperseded e
  | .contradictionDetected => applyContradictionDetected e
  | .contradictionAdjudicated => applyContradictionAdjudicated e
  | .correctionRecorded => applyCorrectionRecorded e
  | .projectionRevoked => applyProjectionRevoked e
  | .projectionIssued => applyProjectionIssued e
  | .degradationDeclared => applyDegradationDeclared e
  | .degradationCleared => applyDegradationCleared e
  | .other => pure ()

def apply (e : EventEnvelope) : Mutation := do
  fromExcept (validateEvent e)
  raiseIf (e.plane = .simulation) "simulation events cannot mutate authoritative state"
  applyKind e
  modify fun s => { s with sequence := e.sequence, lastEventHash := e.eventHash }

end TwinAggregate

end ArgoTwin
