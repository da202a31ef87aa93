import ArgoTwin.Claims
import ArgoTwin.Policy
/-!
# Kernel and projection compilers

A kernel artifact is built from the claims of a state that may be shown: a
claim passes by its sensitivity, its validity and the time it was recorded
at. A projection is the artifacts a policy allows, each cut down to the
disclosed fields of its claims, under a hash of what is disclosed.
-/

namespace ArgoTwin

open Library

/-- The contested claims of the counterweights: known, not stale, and
visible. -/
def TwinState.contestedClaims (s : TwinState) (bounds : Bounds) : Except PyError (List Payload) :=
  s.visibleAmong bounds (s.contestedClaimIds.toList.filter fun claimId =>
    s.claims.contains claimId && !s.staleClaimIds.contains claimId)

/-! ## Artifacts -/

def artifactFields : IdSet :=
  .ofList ["kernel", "now", "counterweights", "voice", "people", "capabilities",
    "decision_model", "boundaries", "history", "readiness"]

def claimKindToArtifact : List (String × String) :=
  [("current_state", "now"), ("communication", "voice"), ("relationship", "people"),
   ("capability", "capabilities"), ("decision_heuristic", "decision_model"),
   ("boundary", "boundaries"), ("event", "history")]

def disclosedClaimFields : List String :=
  ["statement", "kind", "valid_from", "valid_until", "epistemic"]

structure KernelArtifact where
  artifactId : String
  twinId : String
  artifactType : String
  sourceSequence : Int
  sourceClaimIds : List String
  compilerVersion : String
  status : String
  payload : Payload
  lossReport : Payload
  compiledAt : DateTime
  artifactHash : String

namespace KernelCompiler

def compilerVersion : String := "argo.dt.kernel-compiler/v1"

/-- `str(claim.get("kind"))`. -/
def kindOf (claim : Payload) : String := (claim["kind"]?.getD .null).pyStr

/-- The claims an artifact is made of, given those accepted. -/
def select (s : TwinState) (artifactType : String) (accepted : List Payload)
    (bounds : TwinState.Bounds) : Except PyError (List Payload) :=
  if artifactType = "kernel" then .ok accepted
  else if artifactType = "counterweights" then s.contestedClaims bounds
  else if artifactType = "readiness" then .ok []
  else .ok (accepted.filter fun claim =>
    claimKindToArtifact.lookup (kindOf claim) = some artifactType)

def status (s : TwinState) : String := if s.degradedReasons = [] then "ready" else "degraded"

def reasonsJson (s : TwinState) : Json := .arr (s.degradedReasons.map .str)

/-- What an artifact carries. -/
def payload (s : TwinState) (artifactType : String) (accepted selected : List Payload) : Payload :=
  if artifactType = "readiness" then
    Payload.ofFields
      [("visible_accepted_claims", .int accepted.length), ("degraded_reasons", reasonsJson s)]
  else Payload.ofFields [("claims", .arr (selected.map .ofPayload))]

def lossReport (s : TwinState) : Payload :=
  Payload.ofFields
    [("excluded_stale_claim_ids", .arr (s.staleClaimIds.toList.map .str)),
     ("unresolved_contradiction_ids", .arr (s.contradictions.keys.map .str)),
     ("degraded_reasons", reasonsJson s)]

/-- `compile`, with the identifier and the time it reads. -/
def compile [Digest] (s : TwinState) (artifactType : String) (bounds : TwinState.Bounds)
    (readings : Readings) : Except PyError KernelArtifact :=
  if !artifactFields.contains artifactType then
    .error (.invariantViolation ("unsupported artifact type: " ++ artifactType))
  else do
    let accepted ← s.acceptedClaims bounds
    let selected ← select s artifactType accepted bounds
    let claimIds ← selected.mapM fun claim => (claim.require "claim_id").map Json.pyStr
    let material := Json.object
      [("twin_id", .str s.twinId), ("artifact_type", .str artifactType),
       ("source_sequence", .int s.sequence), ("source_claim_ids", .arr (claimIds.map .str)),
       ("compiler_version", .str compilerVersion), ("status", .str (status s)),
       ("payload", .ofPayload (payload s artifactType accepted selected)),
       ("loss_report", .ofPayload (lossReport s))]
    pure
      { artifactId := readings.uuid4
        twinId := s.twinId
        artifactType := artifactType
        sourceSequence := s.sequence
        sourceClaimIds := claimIds
        compilerVersion := compilerVersion
        status := status s
        payload := payload s artifactType accepted selected
        lossReport := lossReport s
        compiledAt := DateTime.utc readings.now
        artifactHash := contentHash material }

end KernelCompiler

/-! ## Projections -/

/-- An artifact as it is disclosed. -/
structure DisclosedArtifact where
  artifactId : String
  status : String
  sourceSequence : Int
  payload : Payload
  degraded : Bool
  artifactHash : String

structure Projection where
  schemaVersion : String := "argo.dt.projection/v1"
  twinId : String
  subjectId : String
  recipientId : String
  purpose : String
  asOfValidTime : String
  asOfRecordedTime : String
  artifacts : Dict DisclosedArtifact

structure ProjectionReceipt where
  projectionId : String
  requestId : String
  consentId : String
  policyVersion : String
  issuedAt : DateTime
  expiresAt : DateTime
  sourceSequence : Int
  disclosedFields : List String
  sourceClaimIds : List String
  artifactHash : String
  decisionReasons : List String

/-- What a compilation reads off the clock and the random source: for the
policy, for each artifact, and for the receipt. -/
structure CompileReadings where
  decided : Instant
  artifact : String → Readings
  issued : Readings

def DisclosedArtifact.lossReport (a : DisclosedArtifact) : Json :=
  Json.object [("degraded", .bool a.degraded)]

def DisclosedArtifact.toJson (a : DisclosedArtifact) : Json :=
  Json.object
    [("artifact_id", .str a.artifactId), ("status", .str a.status),
     ("source_sequence", .int a.sourceSequence), ("payload", .ofPayload a.payload),
     ("loss_report", a.lossReport), ("artifact_hash", .str a.artifactHash)]

def Projection.toJson (p : Projection) : Json :=
  Json.object
    [("schema_version", .str p.schemaVersion), ("twin_id", .str p.twinId),
     ("subject_id", .str p.subjectId), ("recipient_id", .str p.recipientId),
     ("purpose", .str p.purpose), ("as_of_valid_time", .str p.asOfValidTime),
     ("as_of_recorded_time", .str p.asOfRecordedTime),
     ("artifacts", .obj (p.artifacts.toList.map fun entry => (entry.1, entry.2.toJson)))]

namespace ProjectionCompiler

/-- The disclosed fields of a claim. -/
def discloseClaim : Json → Json
  | .obj fields => .obj (fields.filter fun field => disclosedClaimFields.contains field.1)
  | value => value

/-- `_disclosed_payload`. -/
def disclosedPayload (payload : Payload) : Payload :=
  match payload["claims"]? with
  | some (.arr claims) =>
    Payload.ofFields [("claims", .arr ((claims.filter Json.isDict).map discloseClaim))]
  | _ => payload

/-- What the loop of `compile` makes of one artifact. -/
def disclose [Digest] (artifact : KernelArtifact) : DisclosedArtifact :=
  let disclosed : DisclosedArtifact :=
    { artifactId := artifact.artifactId
      status := artifact.status
      sourceSequence := artifact.sourceSequence
      payload := disclosedPayload artifact.payload
      degraded := artifact.lossReport.truthy "degraded_reasons"
      artifactHash := "" }
  { disclosed with
    artifactHash := contentHash (Json.object
      [("artifact_type", .str artifact.artifactType), ("status", .str disclosed.status),
       ("source_sequence", .int disclosed.sourceSequence),
       ("payload", .ofPayload disclosed.payload), ("loss_report", disclosed.lossReport)]) }

/-- The bounds a request sets. -/
def bounds (request : ProjectionRequest) : TwinState.Bounds where
  validAt := some request.asOfValidTime
  knownAt := some request.asOfRecordedTime
  maxSensitivity := some request.maximumSensitivity

/-- The artifacts of the fields allowed, in order. -/
def artifacts [Digest] (s : TwinState) (request : ProjectionRequest) (fields : IdSet)
    (readings : String → Readings) : Except PyError (List KernelArtifact) :=
  fields.toList.mapM fun name =>
    KernelCompiler.compile s name (bounds request) (readings name)

/-- The projection of the artifacts. -/
def project [Digest] (s : TwinState) (request : ProjectionRequest)
    (compiled : List KernelArtifact) : Projection where
  twinId := s.twinId
  subjectId := request.subjectId
  recipientId := request.recipientId
  purpose := request.purpose
  asOfValidTime := request.asOfValidTime.isoformat
  asOfRecordedTime := request.asOfRecordedTime.isoformat
  artifacts := compiled.foldl (fun d a => d.insert a.artifactType (disclose a)) ∅

/-- `min(consent.valid_until, issued_at + timedelta(hours=1))`. -/
def expiry (consent : ConsentGrant) (issuedAt : Instant) : DateTime :=
  let hourLater := DateTime.utc (issuedAt + 3600 * DateTime.microsPerSecond)
  if hourLater.instant < consent.validUntil.instant then hourLater else consent.validUntil

def compile [Digest] (policy : PolicyEvaluator) (s : TwinState) (request : ProjectionRequest)
    (consent : Option ConsentGrant) (readings : CompileReadings) :
    Except PyError (Projection × ProjectionReceipt) :=
  if request.twinId ≠ s.twinId then
    .error (.invariantViolation "projection request twin does not match state")
  else if s.subjectId ≠ some request.subjectId then
    .error (.invariantViolation "projection request subject does not match twin")
  else
    match policy request consent artifactFields readings.decided, consent with
    | (true, reasons, fields), some grant => do
      let compiled ← artifacts s request fields readings.artifact
      let projection := project s request compiled
      let sourceClaimIds : IdSet := .ofList (compiled.flatMap (·.sourceClaimIds))
      pure (projection,
        { projectionId := readings.issued.uuid4
          requestId := request.requestId
          consentId := grant.consentId
          policyVersion := grant.policyVersion
          issuedAt := DateTime.utc readings.issued.now
          expiresAt := expiry grant readings.issued.now
          sourceSequence := s.sequence
          disclosedFields := fields.toList
          sourceClaimIds := sourceClaimIds.toList
          artifactHash := contentHash projection.toJson
          decisionReasons := reasons })
    | (_, reasons, _), _ => .error (.policyDenied (String.intercalate "," reasons))

end ProjectionCompiler

end ArgoTwin
