import ArgoTwin.Compiler
import ArgoTwin.Elicitation
import ArgoTwin.Service
import ArgoTwin.ValidTime
/-!
# The write methods

Each write method of the service comes by an event of one type, and then
appends it. The role it writes in is checked first; what it looks at next,
and what it makes of its arguments, is its own. The queries that read a
state are here as well.
-/

namespace ArgoTwin

open Library TwinAggregate

/-- `BronzeVault.put` of a text: where an object is kept and its hash. -/
structure BronzeVault where
  put : (subjectId mediaType content : String) → (metadata : Payload) →
    Except PyError (String × String)

/-- What a service works with besides its store. -/
structure Collaborators where
  policy : PolicyEvaluator := DefaultDenyPolicy.evaluateProjection
  elicitor : GapDirectedElicitor := {}
  bronzeVault : Option BronzeVault := none

/-- What a write method reads off the clock and the random source. -/
structure WriteReadings where
  event : Readings
  compile : CompileReadings
  append : AppendReadings

/-- The arguments every write method takes. -/
structure WriteContext where
  actor : ActorContext
  expectedSequence : Int
  idempotencyKey : String
  readings : WriteReadings

/-! ## The arguments of each method -/

structure IngestEvidence where
  twinId : String
  subjectId : String
  source : String
  sourceRecordId : String
  payload : Payload
  rights : Payload
  sensitivity : Sensitivity
  validFrom : DateTime
  validUntil : Option DateTime
  independenceGroup : String
  connectorVersion : Option String := none
  mediaType : Option String := none
  sourceContentHash : Option String := none

structure DeleteEvidence where
  twinId : String
  evidenceId : String
  reason : String

/-- The dimensions of `epistemic` are numbers. -/
structure ProposeClaim where
  twinId : String
  subjectId : String
  statement : String
  kind : String
  provenance : List Payload
  sensitivity : Sensitivity
  validFrom : DateTime
  validUntil : Option DateTime
  epistemic : Payload
  modelTrace : Option Payload := none

structure ReviewClaim where
  twinId : String
  claimId : String
  accepted : Bool
  rationale : String
  reviewedAt : DateTime

/-- `confidence` is a number. -/
structure LinkEntity where
  twinId : String
  subjectId : String
  «namespace» : String
  entityId : String
  provenance : List Payload
  confidence : Json
  validFrom : DateTime
  validUntil : Option DateTime

structure UnlinkEntity where
  twinId : String
  entityLinkId : String
  reason : String
  unlinkedAt : DateTime

structure DetectContradiction where
  twinId : String
  claimIds : List String
  basis : String
  detectedAt : DateTime

structure AdjudicateContradiction where
  twinId : String
  contradictionId : String
  resolution : String
  preferredClaimIds : List String
  rationale : String
  adjudicatedAt : DateTime

structure RecordCorrection where
  twinId : String
  targetKind : String
  targetId : String
  replacementId : String
  rationale : String
  correctedAt : DateTime

structure RecordElicitationResponse where
  twinId : String
  subjectId : String
  plan : ElicitationPlan
  response : ElicitationResponse
  rights : Payload

structure IssueProjection where
  request : ProjectionRequest
  consent : Option ConsentGrant

structure RevokeProjection where
  twinId : String
  projectionId : String
  reason : String

/-- One call of a write method. -/
inductive WriteCall where
  | ingestEvidence (args : IngestEvidence)
  | deleteEvidence (args : DeleteEvidence)
  | proposeClaim (args : ProposeClaim)
  | reviewClaim (args : ReviewClaim)
  | linkEntity (args : LinkEntity)
  | unlinkEntity (args : UnlinkEntity)
  | detectContradiction (args : DetectContradiction)
  | adjudicateContradiction (args : AdjudicateContradiction)
  | recordCorrection (args : RecordCorrection)
  | recordElicitationResponse (args : RecordElicitationResponse)
  | issueProjection (args : IssueProjection)
  | revokeProjection (args : RevokeProjection)

namespace WriteCall

def twinId : WriteCall → String
  | ingestEvidence args => args.twinId
  | deleteEvidence args => args.twinId
  | proposeClaim args => args.twinId
  | reviewClaim args => args.twinId
  | linkEntity args => args.twinId
  | unlinkEntity args => args.twinId
  | detectContradiction args => args.twinId
  | adjudicateContradiction args => args.twinId
  | recordCorrection args => args.twinId
  | recordElicitationResponse args => args.twinId
  | issueProjection args => args.request.twinId
  | revokeProjection args => args.twinId

/-- The role a method writes in. -/
def role : WriteCall → ProducerRole
  | ingestEvidence _ | deleteEvidence _ | recordElicitationResponse _ => .ingestService
  | proposeClaim _ | detectContradiction _ => .adjudicationWorker
  | reviewClaim _ | adjudicateContradiction _ | recordCorrection _ => .humanReview
  | linkEntity _ | unlinkEntity _ => .identityWorker
  | issueProjection _ | revokeProjection _ => .projectionService

end WriteCall

/-- `value.isoformat() if value else None`. -/
def optTime : Option DateTime → Json
  | some time => .str time.isoformat
  | none => .null

/-- `[dict(reference) for reference in references]`. -/
def listed (references : List Payload) : Json := .arr (references.map .ofPayload)

/-- A text, where there is one, under its key. -/
def named (key : String) : Option String → List (String × Json)
  | some text => [(key, .str text)]
  | none => []

def ProjectionReceipt.toJson (receipt : ProjectionReceipt) : Json :=
  Json.object
    [("projection_id", .str receipt.projectionId), ("request_id", .str receipt.requestId),
     ("consent_id", .str receipt.consentId), ("policy_version", .str receipt.policyVersion),
     ("issued_at", .str receipt.issuedAt.toPrimitive),
     ("expires_at", .str receipt.expiresAt.toPrimitive),
     ("source_sequence", .int receipt.sourceSequence),
     ("disclosed_fields", .arr (receipt.disclosedFields.map .str)),
     ("source_claim_ids", .arr (receipt.sourceClaimIds.map .str)),
     ("artifact_hash", .str receipt.artifactHash),
     ("decision_reasons", .arr (receipt.decisionReasons.map .str))]

namespace Service

variable [Digest] (svc : Service)

/-! ## Queries -/

/-- `state`, with all its bounds. -/
def stateAt (twinId : String) (upToSequence : Option Int) (asOfValid asOfRecorded : Option DateTime) :
    Method TwinState := do
  let state ← svc.stateAsOf twinId upToSequence asOfRecorded
  match asOfValid with
  | some instant => fromExcept (state.selectValidAt instant)
  | none => pure state

def planElicitation (with_ : Collaborators) (twinId objective : String)
    (claimIds : Option (List String)) : Method ElicitationPlan := do
  let state ← svc.state twinId
  fromExcept (with_.elicitor.plan state objective claimIds)

/-! ## Coming by an event -/

/-- `authorize_intent`, `authorize_subject` and the rest raise. -/
def authorizeIntent (eventType : String) (role : ProducerRole) (actor : ActorContext) :
    Method Unit := fromExcept (EventOwnershipPolicy.authorizeIntent eventType role actor)

def authorizeSubject (actor : ActorContext) (subjectId : Option String) : Method Unit :=
  fromExcept (EventOwnershipPolicy.authorizeSubject actor subjectId)

/-- `_latest_state`, read and not changed. -/
def peekState (twinId : String) : Method TwinState := svc.state twinId

/-- The state, for an actor whose scope it is in. -/
def scopedState (twinId : String) (actor : ActorContext) : Method TwinState := do
  let state ← svc.state twinId
  authorizeSubject actor state.subjectId
  pure state

/-- An event of the authoritative plane, in the caller's name. -/
def eventBy (ctx : WriteContext) (role : ProducerRole) (twinId eventType : String)
    (occurredAt : Option DateTime) (fields : List (String × Json)) : EventEnvelope :=
  EventEnvelope.new twinId eventType .authoritative (Payload.ofFields fields)
    ctx.actor.identityId role ctx.idempotencyKey occurredAt none ctx.readings.event

namespace Prepare

def ingestEvidence (args : IngestEvidence) (ctx : WriteContext) : Method EventEnvelope := do
  authorizeIntent "EvidenceIngested" .ingestService ctx.actor
  authorizeSubject ctx.actor (some args.subjectId)
  let state ← svc.peekState args.twinId
  demand (state.subjectId = none ∨ state.subjectId = some args.subjectId)
    (.invariantViolation "evidence subject does not match twin subject")
  let evidenceId := Digest.uuid5
    (args.twinId ++ ":" ++ args.subjectId ++ ":" ++ args.source ++ ":" ++ args.sourceRecordId)
  pure (eventBy ctx .ingestService args.twinId "EvidenceIngested" (some args.validFrom)
    ([("evidence_id", .str evidenceId), ("subject_id", .str args.subjectId),
      ("source", .str args.source), ("source_record_id", .str args.sourceRecordId),
      ("content_hash", .str (contentHash (.ofPayload args.payload))),
      ("normalized_payload", .ofPayload args.payload), ("rights", .ofPayload args.rights),
      ("sensitivity", .str args.sensitivity.value),
      ("valid_from", .str args.validFrom.isoformat), ("valid_until", optTime args.validUntil),
      ("independence_group", .str args.independenceGroup)] ++
      named "connector_version" args.connectorVersion ++ named "media_type" args.mediaType ++
      named "source_content_hash" args.sourceContentHash))

def deleteEvidence (args : DeleteEvidence) (ctx : WriteContext) : Method EventEnvelope := do
  authorizeIntent "EvidenceDeleted" .ingestService ctx.actor
  let state ← svc.scopedState args.twinId ctx.actor
  demand (state.sequence = ctx.expectedSequence)
    (.concurrencyConflict ("deletion expected " ++ toString ctx.expectedSequence ++
      ", state is " ++ toString state.sequence))
  demand (args.evidenceId ∈ state.evidence)
    (.invariantViolation "cannot delete unknown evidence")
  pure (eventBy ctx .ingestService args.twinId "EvidenceDeleted" none
    [("evidence_id", .str args.evidenceId), ("reason", .str args.reason),
     ("subject_id", optStr state.subjectId)])

def proposeClaim (args : ProposeClaim) (ctx : WriteContext) : Method EventEnvelope := do
  authorizeIntent "ClaimProposed" .adjudicationWorker ctx.actor
  authorizeSubject ctx.actor (some args.subjectId)
  demand (args.provenance ≠ [])
    (.invariantViolation "a claim cannot be proposed without provenance")
  fromExcept (validateEpistemic (some (.ofPayload args.epistemic)))
  pure (eventBy ctx .adjudicationWorker args.twinId "ClaimProposed" (some args.validFrom)
    [("claim_id", .str (derivedId ["claim", args.twinId, ctx.idempotencyKey])),
     ("subject_id", .str args.subjectId), ("statement", .str args.statement),
     ("kind", .str args.kind), ("provenance", listed args.provenance),
     ("sensitivity", .str args.sensitivity.value),
     ("valid_from", .str args.validFrom.isoformat), ("valid_until", optTime args.validUntil),
     ("epistemic", .ofPayload args.epistemic),
     ("model_trace", .ofPayload (args.modelTrace.getD ∅)), ("review_state", .str "unreviewed")])

def reviewClaim (args : ReviewClaim) (ctx : WriteContext) : Method EventEnvelope := do
  let eventType := if args.accepted then "ClaimAccepted" else "ClaimContested"
  authorizeIntent eventType .humanReview ctx.actor
  let event := eventBy ctx .humanReview args.twinId eventType (some args.reviewedAt)
    [("claim_id", .str args.claimId), ("reviewer_identity_id", .str ctx.actor.identityId),
     ("rationale", .str args.rationale)]
  let state ← svc.scopedState args.twinId ctx.actor
  demand (args.claimId ∈ state.claims) (.invariantViolation "cannot review an unknown claim")
  pure event

def linkEntity (args : LinkEntity) (ctx : WriteContext) : Method EventEnvelope := do
  authorizeIntent "EntityLinked" .identityWorker ctx.actor
  authorizeSubject ctx.actor (some args.subjectId)
  pure (eventBy ctx .identityWorker args.twinId "EntityLinked" (some args.validFrom)
    [("entity_link_id", .str (derivedId
        ["entity-link", args.twinId, args.subjectId, args.«namespace», args.entityId])),
     ("subject_id", .str args.subjectId), ("namespace", .str args.«namespace»),
     ("entity_id", .str args.entityId), ("provenance", listed args.provenance),
     ("confidence", args.confidence), ("valid_from", .str args.validFrom.isoformat),
     ("valid_until", optTime args.validUntil)])

def unlinkEntity (args : UnlinkEntity) (ctx : WriteContext) : Method EventEnvelope := do
  authorizeIntent "EntityUnlinked" .identityWorker ctx.actor
  let state ← svc.scopedState args.twinId ctx.actor
  pure (eventBy ctx .identityWorker args.twinId "EntityUnlinked" (some args.unlinkedAt)
    [("entity_link_id", .str args.entityLinkId), ("subject_id", optStr state.subjectId),
     ("reason", .str args.reason)])

def detectContradiction (args : DetectContradiction) (ctx : WriteContext) :
    Method EventEnvelope := do
  authorizeIntent "ContradictionDetected" .adjudicationWorker ctx.actor
  let state ← svc.scopedState args.twinId ctx.actor
  pure (eventBy ctx .adjudicationWorker args.twinId "ContradictionDetected"
    (some args.detectedAt)
    [("contradiction_id", .str (derivedId ["contradiction", args.twinId, ctx.idempotencyKey])),
     ("subject_id", optStr state.subjectId), ("claim_ids", .arr (args.claimIds.map .str)),
     ("basis", .str args.basis)])

def adjudicateContradiction (args : AdjudicateContradiction) (ctx : WriteContext) :
    Method EventEnvelope := do
  authorizeIntent "ContradictionAdjudicated" .humanReview ctx.actor
  let state ← svc.scopedState args.twinId ctx.actor
  pure (eventBy ctx .humanReview args.twinId "ContradictionAdjudicated"
    (some args.adjudicatedAt)
    [("contradiction_id", .str args.contradictionId), ("subject_id", optStr state.subjectId),
     ("resolution", .str args.resolution),
     ("preferred_claim_ids", .arr (args.preferredClaimIds.map .str)),
     ("reviewer_identity_id", .str ctx.actor.identityId), ("rationale", .str args.rationale)])

def recordCorrection (args : RecordCorrection) (ctx : WriteContext) : Method EventEnvelope := do
  authorizeIntent "CorrectionRecorded" .humanReview ctx.actor
  let state ← svc.scopedState args.twinId ctx.actor
  pure (eventBy ctx .humanReview args.twinId "CorrectionRecorded" (some args.correctedAt)
    [("correction_id", .str (derivedId ["correction", args.twinId, ctx.idempotencyKey])),
     ("subject_id", optStr state.subjectId), ("target_kind", .str args.targetKind),
     ("target_id", .str args.targetId), ("replacement_id", .str args.replacementId),
     ("reviewer_identity_id", .str ctx.actor.identityId), ("rationale", .str args.rationale)])

/-- What an answer is kept as. -/
def answerText (plan : ElicitationPlan) (response : ElicitationResponse) : String :=
  canonicalJson (Json.object
    [("schema_version", .str "argo.dt.elicitation-response/v1"), ("plan_id", .str plan.planId),
     ("question_id", .str response.questionId), ("answer", .str response.answer),
     ("answered_at", .str response.answeredAt.toPrimitive)])

def recordElicitationResponse (with_ : Collaborators) (args : RecordElicitationResponse)
    (ctx : WriteContext) : Method EventEnvelope := do
  authorizeIntent "EvidenceIngested" .ingestService ctx.actor
  authorizeSubject ctx.actor (some args.subjectId)
  let plan := args.plan
  let response := args.response
  let vault ← match with_.bronzeVault with
    | some vault => pure vault
    | none => throw (.invariantViolation "elicitation requires a configured Bronze vault")
  demand (plan.twinId = args.twinId)
    (.invariantViolation "elicitation plan belongs to a different twin")
  let sourceState ← svc.stateAsOf args.twinId (some plan.sourceSequence) none
  fromExcept (with_.elicitor.verifyPlan sourceState plan)
  let question ← fromExcept (plan.question response.questionId)
  let state ← svc.state args.twinId
  demand (state.subjectId = none ∨ state.subjectId = some args.subjectId)
    (.invariantViolation "elicitation subject does not match twin subject")
  let (objectUri, sourceHash) ← fromExcept
    (vault.put args.subjectId "application/json" (answerText plan response)
      (Payload.ofFields
        [("connector_id", .str "argo.dt.elicitation"),
         ("source_record_id", .str response.responseId), ("plan_id", .str plan.planId),
         ("question_id", .str response.questionId)]))
  pure (eventBy ctx .ingestService args.twinId "EvidenceIngested" (some response.answeredAt)
    [("evidence_id", .str (derivedId
        ["elicitation", args.twinId, args.subjectId, response.responseId])),
     ("subject_id", .str args.subjectId), ("source", .str "elicitation"),
     ("source_record_id", .str response.responseId), ("content_hash", .str sourceHash),
     ("bronze_uri", .str objectUri),
     ("normalized_payload", Json.object
       [("plan_id", .str plan.planId), ("plan_source_sequence", .int plan.sourceSequence),
        ("gap_id", .str question.gapId), ("question_id", .str question.questionId)]),
     ("rights", .ofPayload args.rights), ("sensitivity", .str response.sensitivity.value),
     ("valid_from", .str response.answeredAt.isoformat), ("valid_until", .null),
     ("independence_group", .str ("elicitation:" ++ plan.planId))])

/-- The projection, its receipt, and the event that tells of it. -/
def issueProjection (with_ : Collaborators) (args : IssueProjection) (ctx : WriteContext) :
    Method (Projection × ProjectionReceipt × EventEnvelope) := do
  let request := args.request
  authorizeIntent "ProjectionIssued" .projectionService ctx.actor
  authorizeSubject ctx.actor (some request.subjectId)
  let headSequence := ((← get).store.head request.twinId).1
  demand (headSequence = ctx.expectedSequence)
    (.concurrencyConflict ("projection expected " ++ toString ctx.expectedSequence ++
      ", stream head is " ++ toString headSequence))
  let state ← svc.stateAsOf request.twinId none (some request.asOfRecordedTime)
  demand (state.subjectId = some request.subjectId)
    (.invariantViolation "projection subject does not match twin subject")
  let (projection, receipt) ← fromExcept
    (ProjectionCompiler.compile with_.policy state request args.consent ctx.readings.compile)
  let payload := Payload.ofFields
    [("projection_id", .str receipt.projectionId), ("purpose", .str request.purpose),
     ("recipient_id", .str request.recipientId), ("receipt_hash", .str (contentHash receipt.toJson)),
     ("disclosed_fields", .arr (receipt.disclosedFields.map .str)),
     ("source_sequence", .int receipt.sourceSequence),
     ("source_claim_ids", .arr (receipt.sourceClaimIds.map .str))]
  pure (projection, receipt, EventEnvelope.new request.twinId "ProjectionIssued" .projection payload
    ctx.actor.identityId .projectionService ctx.idempotencyKey none (some request.requestId)
    ctx.readings.event)

def revokeProjection (args : RevokeProjection) (ctx : WriteContext) : Method EventEnvelope := do
  authorizeIntent "ProjectionRevoked" .projectionService ctx.actor
  let state ← svc.scopedState args.twinId ctx.actor
  demand (state.sequence = ctx.expectedSequence)
    (.concurrencyConflict ("revocation expected " ++ toString ctx.expectedSequence ++
      ", state is " ++ toString state.sequence))
  demand (args.projectionId ∈ state.issuedProjections)
    (.invariantViolation "cannot revoke an unknown projection")
  pure { eventBy ctx .projectionService args.twinId "ProjectionRevoked" none
    [("projection_id", .str args.projectionId), ("reason", .str args.reason),
     ("actor_identity_id", .str ctx.actor.identityId)] with plane := .projection }

end Prepare

/-! ## Writing -/

/-- The event a call comes by. -/
def prepare (with_ : Collaborators) (call : WriteCall) (ctx : WriteContext) :
    Method EventEnvelope :=
  match call with
  | .ingestEvidence args => Prepare.ingestEvidence svc args ctx
  | .deleteEvidence args => Prepare.deleteEvidence svc args ctx
  | .proposeClaim args => Prepare.proposeClaim args ctx
  | .reviewClaim args => Prepare.reviewClaim svc args ctx
  | .linkEntity args => Prepare.linkEntity args ctx
  | .unlinkEntity args => Prepare.unlinkEntity svc args ctx
  | .detectContradiction args => Prepare.detectContradiction svc args ctx
  | .adjudicateContradiction args => Prepare.adjudicateContradiction svc args ctx
  | .recordCorrection args => Prepare.recordCorrection svc args ctx
  | .recordElicitationResponse args => Prepare.recordElicitationResponse svc with_ args ctx
  | .issueProjection args => do
    let (_, _, event) ← Prepare.issueProjection svc with_ args ctx
    pure event
  | .revokeProjection args => Prepare.revokeProjection svc args ctx

/-- **A write method**: the event it comes by, appended. -/
def write (with_ : Collaborators) (call : WriteCall) (ctx : WriteContext) :
    Method EventEnvelope := do
  let event ← svc.prepare with_ call ctx
  svc.append event ctx.actor ctx.expectedSequence ctx.readings.append

end Service

end ArgoTwin
