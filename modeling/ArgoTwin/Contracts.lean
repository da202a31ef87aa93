import ArgoTwin.Library.Carried
import ArgoTwin.SemanticBasis
import ArgoTwin.State
/-!
# The public contracts

What the public API takes and answers with, the checks of their
constructors, and how each is written for a transport and read off it. A
wire value is a dictionary; `json_round_trip` sends one as its text.
-/

namespace ArgoTwin

open Library

/-! ## Failures -/

inductive PublicErrorCode where
  | invalidRequest
  | authorizationDenied
  | staleState
  | notFound
  | invariantViolation
  | temporarilyUnavailable
  deriving DecidableEq, Repr

namespace PublicErrorCode

def value : PublicErrorCode → String
  | .invalidRequest => "invalid_request"
  | .authorizationDenied => "authorization_denied"
  | .staleState => "stale_state"
  | .notFound => "not_found"
  | .invariantViolation => "invariant_violation"
  | .temporarilyUnavailable => "temporarily_unavailable"

/-- `PublicErrorCode(text)`. -/
def ofValue (text : String) : Except PyError PublicErrorCode :=
  if text = "invalid_request" then .ok .invalidRequest
  else if text = "authorization_denied" then .ok .authorizationDenied
  else if text = "stale_state" then .ok .staleState
  else if text = "not_found" then .ok .notFound
  else if text = "invariant_violation" then .ok .invariantViolation
  else if text = "temporarily_unavailable" then .ok .temporarilyUnavailable
  else .error (.valueError "not a valid PublicErrorCode")

/-- `retryable_for_code`. -/
def retryable (code : PublicErrorCode) : Bool := code = .temporarilyUnavailable

end PublicErrorCode

/-- `K2PublicError`: its code decides whether it is retryable. -/
structure K2PublicError where
  code : PublicErrorCode
  message : String
  deriving DecidableEq, Repr

def K2PublicError.retryable (e : K2PublicError) : Bool := e.code.retryable

/-- What the public API raises: its own failures, or whatever passes
through it. -/
inductive Raised where
  | k2 (error : K2PublicError)
  | other (error : PyError)
  deriving DecidableEq

/-- `PublicError`, before its checks. -/
structure PublicErrorFields where
  code : PublicErrorCode
  safeMessage : String
  retryable : Bool
  deriving DecidableEq

/-- `__post_init__`. -/
def PublicErrorFields.postInit (e : PublicErrorFields) : Except PyError Unit := do
  requireRef e.safeMessage "safe_message"
  violationIf (e.retryable ≠ e.code.retryable)
    "retryable must match the public error code semantics"

/-- Transport-safe public failure description. -/
abbrev PublicError := Checked PublicErrorFields.postInit

/-! ## Reading a wire value -/

namespace Payload

/-- `str(value[key]) if value.get(key) is not None else None`. -/
def optionalText (value : Payload) (key : String) : Option String :=
  match value[key]? with
  | none | some .null => none
  | some found => some found.pyStr

/-- A dictionary under a key. -/
def requireDict (value : Payload) (key message : String) : Except PyError Payload :=
  match value[key]? with
  | some (.obj fields) => .ok (.ofFields fields)
  | _ => .error (.valueError message)

/-- A list under a key. -/
def requireArray (value : Payload) (key message : String) : Except PyError (List Json) :=
  match value[key]? with
  | some (.arr items) => .ok items
  | _ => .error (.valueError message)

/-- `_string_tuple(value.get(key))`. -/
def stringTuple (value : Payload) (key : String) : Except PyError (List String) :=
  (value.requireArray key "expected an array").map (List.map Json.pyStr)

/-- `_parse_int(value.get(key, 0), key)`. -/
def parseInt (value : Payload) (key : String) : Except PyError Int :=
  match value[key]? with
  | none => .ok 0
  | some (.int n) => .ok n
  | some (.str text) =>
    match Json.intOfText text with
    | some n => .ok n
    | none => .error (.valueError (key ++ " must be an integer"))
  | some _ => .error (.valueError (key ++ " must be an integer"))

end Payload

/-- An item that has to be a dictionary. -/
def itemDict (message : String) : Json → Except PyError Payload
  | .obj fields => .ok (.ofFields fields)
  | _ => .error (.valueError message)

/-- An optional text as a wire value. -/
def optionalJson : Option String → Json
  | none => .null
  | some text => .str text

/-- `_parse_time`: the offset is kept. -/
def parseZoned (value : String) : Except PyError DateTime :=
  match DateTime.fromIsoformat (DateTime.expandZ value) with
  | none => .error (.valueError "Invalid isoformat string")
  | some parsed =>
    if parsed.naive then .error (.valueError "timestamps must be timezone-aware") else .ok parsed

/-- `json_round_trip`. -/
def jsonRoundTrip (r : Json.Reader) (value : Payload) : Except PyError Payload :=
  match Json.loads r (Json.dumps (.ofPayload value)) with
  | .ok (.obj fields) => .ok (.ofFields fields)
  | .ok _ => .error (.valueError "wire value must round-trip as an object")
  | .error _ => .error (.valueError "not a JSON document")

namespace PublicErrorFields

def toWire (e : PublicErrorFields) : Payload :=
  .ofFields
    [("code", .str e.code.value), ("safe_message", .str e.safeMessage),
     ("retryable", .bool e.retryable)]

def fromWire (value : Payload) : Except PyError PublicError := do
  let code ← PublicErrorCode.ofValue (value.strD "code" "")
  match value["retryable"]? with
  | some (.bool retryable) =>
    Checked.build postInit
      { code := code, safeMessage := value.strD "safe_message" "", retryable := retryable }
  | _ => .error (.valueError "retryable must be a boolean")

end PublicErrorFields

/-! ## Requests -/

structure AuthorityFields where
  identityId : String
  roles : List String
  subjectId : Option String
  deriving DecidableEq

namespace AuthorityFields

def postInit (a : AuthorityFields) : Except PyError Unit := do
  requireRef a.identityId "identity_id"
  violationIf (a.roles = []) "authority roles are required"
  violationIf (a.roles.any (· = "") = true) "authority roles cannot be empty strings"

def toWire (a : AuthorityFields) : Payload :=
  .ofFields
    [("identity_id", .str a.identityId), ("roles", .arr (a.roles.map .str)),
     ("subject_id", optionalJson a.subjectId)]

def fromWire (value : Payload) : Except PyError (Checked postInit) := do
  let roles ← value.requireArray "roles" "authority roles must be a list"
  Checked.build postInit
    { identityId := value.strD "identity_id" ""
      roles := roles.map Json.pyStr
      subjectId := value.optionalText "subject_id" }

end AuthorityFields

abbrev AuthorityContext := Checked AuthorityFields.postInit

/-- `SubjectRef(text)`. -/
def SubjectRef.build (subjectId : String) : Except PyError SubjectRef :=
  if h : subjectId = "" then .error (.valueError "subject_id is required")
  else .ok ⟨subjectId, h⟩

def SubjectRef.toWire (s : SubjectRef) : Payload := .ofFields [("subject_id", .str s.subjectId)]

def maxBoundedEvidenceBytes : Nat := 64 * 1024

/-- Bounded evidence for admission, before the checks. -/
structure AdmitEvidenceFields where
  requestId : String
  representationId : String
  subjectRef : SubjectRef
  source : String
  sourceRecordId : String
  boundedEvidence : Payload
  rights : Payload
  sensitivity : String
  validFrom : DateTime
  validUntil : Option DateTime
  independenceGroup : String
  basedOnSequence : Int
  authority : AuthorityContext
  connectorVersion : Option String := none
  mediaType : Option String := none
  sourceContentHash : Option String := none

namespace AdmitEvidenceFields

def postInit (a : AdmitEvidenceFields) : Except PyError Unit := do
  requireRef a.requestId "request_id"
  requireRef a.representationId "representation_id"
  requireRef a.source "source"
  requireRef a.sourceRecordId "source_record_id"
  requireRef a.sensitivity "sensitivity"
  requireRef a.independenceGroup "independence_group"
  violationIf (a.basedOnSequence < 0) "based_on_sequence cannot be negative"
  violationIf (maxBoundedEvidenceBytes < (Json.dumps (.ofPayload a.boundedEvidence)).utf8ByteSize)
    ("bounded_evidence exceeds compatibility payload limit; " ++
      "preserve raw/bulk content outside the canonical event ledger")
  violationIf (a.validFrom.naive = true) "timestamps must be timezone-aware"
  match a.validUntil with
  | none => pure ()
  | some validUntil => do
    violationIf (validUntil.naive = true) "timestamps must be timezone-aware"
    violationIf (validUntil.instant < a.validFrom.instant) "valid_until precedes valid_from"

def schemaVersion : String := "argo.dt.public.admit-evidence/v1"

def toWire (a : AdmitEvidenceFields) : Payload :=
  .ofFields
    [("schema_version", .str schemaVersion), ("request_id", .str a.requestId),
     ("representation_id", .str a.representationId),
     ("subject_ref", .ofPayload a.subjectRef.toWire), ("source", .str a.source), ("source_record_id", .str a.sourceRecordId),
     ("bounded_evidence", .ofPayload a.boundedEvidence), ("rights", .ofPayload a.rights),
     ("sensitivity", .str a.sensitivity), ("valid_from", .str a.validFrom.isoformat),
     ("valid_until", optionalJson (a.validUntil.map DateTime.isoformat)),
     ("independence_group", .str a.independenceGroup),
     ("based_on_sequence", .int a.basedOnSequence),
     ("authority", .ofPayload a.authority.val.toWire),
     ("connector_version", optionalJson a.connectorVersion),
     ("media_type", optionalJson a.mediaType),
     ("source_content_hash", optionalJson a.sourceContentHash)]

def fromWire (value : Payload) : Except PyError (Checked postInit) := do
  violationIf (value["schema_version"]? ≠ some (.str schemaVersion))
    "unsupported admit-evidence request schema"
  let subject ← value.requireDict "subject_ref" "subject_ref must be an object"
  let authority ← value.requireDict "authority" "authority must be an object"
  let evidence ← value.requireDict "bounded_evidence" "bounded_evidence and rights must be objects"
  let rights ← value.requireDict "rights" "bounded_evidence and rights must be objects"
  let subjectRef ← SubjectRef.build (subject.strD "subject_id" "")
  let validFrom ← parseZoned (value.strD "valid_from" "")
  let validUntil ← (value.optionalText "valid_until").mapM parseZoned
  let basedOnSequence ← value.parseInt "based_on_sequence"
  let authority ← AuthorityFields.fromWire authority
  Checked.build postInit
    { requestId := value.strD "request_id" ""
      representationId := value.strD "representation_id" ""
      subjectRef := subjectRef
      source := value.strD "source" ""
      sourceRecordId := value.strD "source_record_id" ""
      boundedEvidence := evidence
      rights := rights
      sensitivity := value.strD "sensitivity" ""
      validFrom := validFrom
      validUntil := validUntil
      independenceGroup := value.strD "independence_group" ""
      basedOnSequence := basedOnSequence
      authority := authority
      connectorVersion := value.optionalText "connector_version"
      mediaType := value.optionalText "media_type"
      sourceContentHash := value.optionalText "source_content_hash" }

end AdmitEvidenceFields

abbrev AdmitEvidenceRequest := Checked AdmitEvidenceFields.postInit

structure AdmissionLookupRequest where
  representationId : String
  requestId : String
  authority : AuthorityContext

namespace AdmissionLookupRequest

def toWire (q : AdmissionLookupRequest) : Payload :=
  .ofFields
    [("representation_id", .str q.representationId), ("request_id", .str q.requestId),
     ("authority", .ofPayload q.authority.val.toWire)]

def fromWire (value : Payload) : Except PyError AdmissionLookupRequest := do
  let authority ← value.requireDict "authority" "authority must be an object"
  pure
    { representationId := value.strD "representation_id" ""
      requestId := value.strD "request_id" ""
      authority := ← AuthorityFields.fromWire authority }

end AdmissionLookupRequest

structure RepresentationQuery where
  representationId : String
  authority : AuthorityContext

namespace RepresentationQuery

def toWire (q : RepresentationQuery) : Payload :=
  .ofFields
    [("representation_id", .str q.representationId),
     ("authority", .ofPayload q.authority.val.toWire)]

def fromWire (value : Payload) : Except PyError RepresentationQuery := do
  let authority ← value.requireDict "authority" "authority must be an object"
  pure
    { representationId := value.strD "representation_id" ""
      authority := ← AuthorityFields.fromWire authority }

end RepresentationQuery

inductive PublicLineageNodeKind where
  | evidence
  | representationEntity
  | representationItem
  | contradiction
  | correction
  | projection
  deriving DecidableEq, Repr

namespace PublicLineageNodeKind

def value : PublicLineageNodeKind → String
  | .evidence => "evidence"
  | .representationEntity => "representation_entity"
  | .representationItem => "representation_item"
  | .contradiction => "contradiction"
  | .correction => "correction"
  | .projection => "projection"

/-- `PublicLineageNodeKind(text)`. -/
def ofValue (text : String) : Except PyError PublicLineageNodeKind :=
  if text = "evidence" then .ok .evidence
  else if text = "representation_entity" then .ok .representationEntity
  else if text = "representation_item" then .ok .representationItem
  else if text = "contradiction" then .ok .contradiction
  else if text = "correction" then .ok .correction
  else if text = "projection" then .ok .projection
  else .error (.valueError "not a valid PublicLineageNodeKind")

end PublicLineageNodeKind

structure LineageQuery where
  representationId : String
  nodeKind : PublicLineageNodeKind
  nodeId : String
  authority : AuthorityContext

namespace LineageQuery

def toWire (q : LineageQuery) : Payload :=
  .ofFields
    [("representation_id", .str q.representationId), ("node_kind", .str q.nodeKind.value),
     ("node_id", .str q.nodeId), ("authority", .ofPayload q.authority.val.toWire)]

def fromWire (value : Payload) : Except PyError LineageQuery := do
  let authority ← value.requireDict "authority" "authority must be an object"
  pure
    { representationId := value.strD "representation_id" ""
      nodeKind := ← PublicLineageNodeKind.ofValue (value.strD "node_kind" "")
      nodeId := value.strD "node_id" ""
      authority := ← AuthorityFields.fromWire authority }

end LineageQuery

/-! ## Replies -/

namespace RepresentationSnapshotRef

/-- The constructor, with its checks. -/
def build (subjectRef : SubjectRef) (snapshotId : String) (canonicalSequence : Int)
    (integrityRef : String) : Except PyError RepresentationSnapshotRef :=
  if hid : snapshotId = "" then .error (.valueError "snapshot_id is required")
  else if hintegrity : integrityRef = "" then .error (.valueError "integrity_ref is required")
  else if hsequence : canonicalSequence < 0 then
    .error (.valueError "canonical_sequence cannot be negative")
  else .ok ⟨subjectRef, snapshotId, canonicalSequence, integrityRef, ⟨hid, hintegrity⟩,
    Int.not_lt.1 hsequence⟩

/-- `_snapshot_to_wire`. -/
def toWire (s : RepresentationSnapshotRef) : Payload :=
  .ofFields
    [("subject_ref", .ofPayload s.subjectRef.toWire), ("snapshot_id", .str s.snapshotId),
     ("canonical_sequence", .int s.canonicalSequence), ("integrity_ref", .str s.integrityRef)]

/-- `_snapshot_from_wire`. -/
def fromWire (value : Payload) : Except PyError RepresentationSnapshotRef := do
  let subject ← value.requireDict "subject_ref" "snapshot subject_ref must be an object"
  let subjectRef ← SubjectRef.build (subject.strD "subject_id" "")
  let sequence ← value.parseInt "canonical_sequence"
  build subjectRef (value.strD "snapshot_id" "") sequence (value.strD "integrity_ref" "")

/-- A position there may be, as a wire value. -/
def optionalToWire : Option RepresentationSnapshotRef → Json
  | some position => .ofPayload position.toWire
  | none => .null

/-- A position, where the value is a dictionary. -/
def optionalFromWire : Option Json → Except PyError (Option RepresentationSnapshotRef)
  | some (.obj fields) => (fromWire (.ofFields fields)).map some
  | _ => .ok none

end RepresentationSnapshotRef

inductive AdmissionStatus where
  | admitted
  | rejected
  | deferred
  deriving DecidableEq, Repr

def AdmissionStatus.value : AdmissionStatus → String
  | .admitted => "admitted"
  | .rejected => "rejected"
  | .deferred => "deferred"

/-- `AdmissionStatus(text)`. -/
def AdmissionStatus.ofValue (text : String) : Except PyError AdmissionStatus :=
  if text = "admitted" then .ok .admitted
  else if text = "rejected" then .ok .rejected
  else if text = "deferred" then .ok .deferred
  else .error (.valueError "not a valid AdmissionStatus")

inductive AdmissionDisposition where
  | effectsApplied
  | noOpAlreadyCanonical
  | noOpRedundant
  deriving DecidableEq, Repr

def AdmissionDisposition.value : AdmissionDisposition → String
  | .effectsApplied => "effects_applied"
  | .noOpAlreadyCanonical => "no_op_already_canonical"
  | .noOpRedundant => "no_op_redundant"

/-- `AdmissionDisposition(text)`. -/
def AdmissionDisposition.ofValue (text : String) : Except PyError AdmissionDisposition :=
  if text = "effects_applied" then .ok .effectsApplied
  else if text = "no_op_already_canonical" then .ok .noOpAlreadyCanonical
  else if text = "no_op_redundant" then .ok .noOpRedundant
  else .error (.valueError "not a valid AdmissionDisposition")

structure EffectFields where
  effectId : String
  effectKind : String
  affectedSemanticRef : String
  sourceRequestId : String
  canonicalPosition : RepresentationSnapshotRef
  deriving DecidableEq

namespace EffectFields

def postInit (e : EffectFields) : Except PyError Unit := do
  requireRef e.effectId "effect_id"
  requireRef e.effectKind "effect_kind"
  requireRef e.affectedSemanticRef "affected_semantic_ref"
  requireRef e.sourceRequestId "source_request_id"

def toWire (e : EffectFields) : Payload :=
  .ofFields
    [("effect_id", .str e.effectId), ("effect_kind", .str e.effectKind),
     ("affected_semantic_ref", .str e.affectedSemanticRef),
     ("source_request_id", .str e.sourceRequestId),
     ("canonical_position", .ofPayload e.canonicalPosition.toWire)]

def fromWire (item : Json) : Except PyError (Checked postInit) := do
  let value ← itemDict "canonical effect must be an object" item
  let position ← value.requireDict "canonical_position"
    "canonical effect position must be an object"
  let canonicalPosition ← RepresentationSnapshotRef.fromWire position
  Checked.build postInit
    { effectId := value.strD "effect_id" ""
      effectKind := value.strD "effect_kind" ""
      affectedSemanticRef := value.strD "affected_semantic_ref" ""
      sourceRequestId := value.strD "source_request_id" ""
      canonicalPosition := canonicalPosition }

end EffectFields

/-- Public semantic effect produced by canonical admission. -/
abbrev CanonicalEffect := Checked EffectFields.postInit

structure AdmissionFields where
  requestId : String
  admissionId : String
  status : AdmissionStatus
  disposition : Option AdmissionDisposition
  canonicalEffects : List CanonicalEffect
  resultingRepresentationStateRef : Option RepresentationSnapshotRef
  replayed : Bool := false
  originalResultRef : Option String := none

namespace AdmissionFields

/-- The checks of an admitted result, with its disposition and position. -/
def checkAdmitted (a : AdmissionFields) : Except PyError Unit :=
  match a.disposition, a.resultingRepresentationStateRef with
  | none, _ => .error (.valueError "admitted results require an explicit disposition")
  | some _, none =>
    .error (.valueError "admitted results require the resulting canonical position")
  | some .effectsApplied, some position => do
    violationIf (a.canonicalEffects = [])
      "effects_applied requires at least one canonical effect"
    a.canonicalEffects.forM fun effect => do
      violationIf (effect.val.sourceRequestId ≠ a.requestId)
        "canonical effect source_request_id must match admission request_id"
      violationIf (effect.val.canonicalPosition.subjectRef ≠ position.subjectRef)
        "canonical effects cannot cross subjects within one admission"
      violationIf (effect.val.canonicalPosition ≠ position)
        "canonical effects must reference the admission final canonical position"
  | some _, some _ =>
    violationIf (a.canonicalEffects ≠ [])
      "no-op dispositions require an empty canonical effect set"

/-- The checks of any other result. -/
def checkRefused (a : AdmissionFields) : Except PyError Unit := do
  violationIf (a.disposition.isSome = true)
    "non-admitted results cannot carry an admission disposition"
  violationIf (a.canonicalEffects ≠ []) "non-admitted results cannot carry canonical effects"
  violationIf (a.resultingRepresentationStateRef.isSome = true)
    "non-admitted results cannot carry a resulting canonical position"

def postInit (a : AdmissionFields) : Except PyError Unit := do
  requireRef a.requestId "request_id"
  requireRef a.admissionId "admission_id"
  if a.status = .admitted then checkAdmitted a else checkRefused a
  violationIf (a.replayed = true ∧ (a.originalResultRef.getD "") = "")
    "replayed results require original_result_ref"
  violationIf (a.replayed = false ∧ a.originalResultRef.isSome = true)
    "original_result_ref is only valid for replayed results"

/-- `admission_result_to_wire`. -/
def toWire (a : AdmissionFields) : Payload :=
  .ofFields
    [("request_id", .str a.requestId), ("admission_id", .str a.admissionId),
     ("status", .str a.status.value),
     ("disposition", optionalJson (a.disposition.map AdmissionDisposition.value)),
     ("canonical_effects",
        .arr (a.canonicalEffects.map fun effect => .ofPayload effect.val.toWire)),
     ("resulting_representation_state_ref",
        RepresentationSnapshotRef.optionalToWire a.resultingRepresentationStateRef),
     ("replayed", .bool a.replayed), ("original_result_ref", optionalJson a.originalResultRef)]

/-- `admission_result_from_wire`. -/
def fromWire (value : Payload) : Except PyError (Checked postInit) := do
  let items ← value.requireArray "canonical_effects" "canonical_effects must be an array"
  let effects ← items.mapM EffectFields.fromWire
  let status ← AdmissionStatus.ofValue (value.strD "status" "")
  let disposition ← (value.optionalText "disposition").mapM AdmissionDisposition.ofValue
  let position ← RepresentationSnapshotRef.optionalFromWire
    value["resulting_representation_state_ref"]?
  Checked.build postInit
    { requestId := value.strD "request_id" ""
      admissionId := value.strD "admission_id" ""
      status := status
      disposition := disposition
      canonicalEffects := effects
      resultingRepresentationStateRef := position
      replayed := value.truthy "replayed"
      originalResultRef := value.optionalText "original_result_ref" }

end AdmissionFields

/-- Topology-independent canonical admission result. -/
abbrev AdmissionResult := Checked AdmissionFields.postInit

/-- Public representation state, without the private claim model. -/
structure RepresentationStateView where
  representationId : String
  subjectRef : SubjectRef
  snapshotRef : RepresentationSnapshotRef
  evidenceRefs : List String
  representationItemRefs : List String
  acceptedRepresentationItemRefs : List String
  contestedRepresentationItemRefs : List String
  contradictionRefs : List String
  degradedReasons : List String
  deriving DecidableEq

namespace RepresentationStateView

def toWire (v : RepresentationStateView) : Payload :=
  .ofFields
    [("representation_id", .str v.representationId),
     ("subject_ref", .ofPayload v.subjectRef.toWire),
     ("snapshot_ref", .ofPayload v.snapshotRef.toWire),
     ("evidence_refs", .arr (v.evidenceRefs.map .str)),
     ("representation_item_refs", .arr (v.representationItemRefs.map .str)),
     ("accepted_representation_item_refs", .arr (v.acceptedRepresentationItemRefs.map .str)),
     ("contested_representation_item_refs", .arr (v.contestedRepresentationItemRefs.map .str)),
     ("contradiction_refs", .arr (v.contradictionRefs.map .str)),
     ("degraded_reasons", .arr (v.degradedReasons.map .str))]

def fromWire (value : Payload) : Except PyError RepresentationStateView := do
  let subject ← value.requireDict "subject_ref"
    "state subject_ref and snapshot_ref must be objects"
  let snapshot ← value.requireDict "snapshot_ref"
    "state subject_ref and snapshot_ref must be objects"
  pure
    { representationId := value.strD "representation_id" ""
      subjectRef := ← SubjectRef.build (subject.strD "subject_id" "")
      snapshotRef := ← RepresentationSnapshotRef.fromWire snapshot
      evidenceRefs := ← value.stringTuple "evidence_refs"
      representationItemRefs := ← value.stringTuple "representation_item_refs"
      acceptedRepresentationItemRefs := ← value.stringTuple "accepted_representation_item_refs"
      contestedRepresentationItemRefs := ← value.stringTuple "contested_representation_item_refs"
      contradictionRefs := ← value.stringTuple "contradiction_refs"
      degradedReasons := ← value.stringTuple "degraded_reasons" }

end RepresentationStateView

structure RepresentationDeficit where
  deficitId : String
  kind : String
  targetRefs : List String
  rationale : String
  deriving DecidableEq, Repr

namespace RepresentationDeficit

def toWire (d : RepresentationDeficit) : Payload :=
  .ofFields
    [("deficit_id", .str d.deficitId), ("kind", .str d.kind),
     ("target_refs", .arr (d.targetRefs.map .str)), ("rationale", .str d.rationale)]

def fromWire (value : Payload) : Except PyError RepresentationDeficit := do
  pure
    { deficitId := value.strD "deficit_id" ""
      kind := value.strD "kind" ""
      targetRefs := ← value.stringTuple "target_refs"
      rationale := value.strD "rationale" "" }

end RepresentationDeficit

structure LineageNodeRef where
  kind : PublicLineageNodeKind
  nodeId : String
  deriving DecidableEq, Repr

namespace LineageNodeRef

def toWire (n : LineageNodeRef) : Payload :=
  .ofFields [("kind", .str n.kind.value), ("node_id", .str n.nodeId)]

def fromWire (value : Payload) : Except PyError LineageNodeRef := do
  pure
    { kind := ← PublicLineageNodeKind.ofValue (value.strD "kind" "")
      nodeId := value.strD "node_id" "" }

/-- Read off an item of a list, which is asked for its keys. -/
def fromItem : Json → Except PyError LineageNodeRef
  | .obj fields => fromWire (.ofFields fields)
  | _ => .error (.attributeError "get")

end LineageNodeRef

structure LineageTraceView where
  representationId : String
  root : LineageNodeRef
  ancestors : List LineageNodeRef
  dependents : List LineageNodeRef
  evidenceByIndependenceGroup : List (String × List String)
  deriving DecidableEq

namespace LineageTraceView

def groupToWire (group : String × List String) : Payload :=
  .ofFields [("group", .str group.1), ("evidence_refs", .arr (group.2.map .str))]

def groupFromWire (item : Json) : Except PyError (String × List String) := do
  let value ← itemDict "lineage evidence group must be an object" item
  pure (value.strD "group" "", ← value.stringTuple "evidence_refs")

def toWire (v : LineageTraceView) : Payload :=
  .ofFields
    [("representation_id", .str v.representationId), ("root", .ofPayload v.root.toWire),
     ("ancestors", .arr (v.ancestors.map fun node => .ofPayload node.toWire)),
     ("dependents", .arr (v.dependents.map fun node => .ofPayload node.toWire)),
     ("evidence_by_independence_group",
        .arr (v.evidenceByIndependenceGroup.map fun group => .ofPayload (groupToWire group)))]

def fromWire (value : Payload) : Except PyError LineageTraceView := do
  let root ← value.requireDict "root" "lineage root must be an object"
  let ancestors ← value.requireArray "ancestors" "lineage nodes must be arrays"
  let dependents ← value.requireArray "dependents" "lineage nodes must be arrays"
  let groups ← value.requireArray "evidence_by_independence_group"
    "lineage evidence groups must be an array"
  let parsedGroups ← groups.mapM groupFromWire
  pure
    { representationId := value.strD "representation_id" ""
      root := ← LineageNodeRef.fromWire root
      ancestors := ← ancestors.mapM LineageNodeRef.fromItem
      dependents := ← dependents.mapM LineageNodeRef.fromItem
      evidenceByIndependenceGroup := parsedGroups }

end LineageTraceView

/-! ## The API -/

/-- `K2PublicAPI`, over whatever state the implementation has. -/
structure K2PublicAPI (σ : Type) where
  admitEvidence : AdmitEvidenceRequest → EStateM Raised σ AdmissionResult
  getAdmissionResult : AdmissionLookupRequest → EStateM Raised σ (Option AdmissionResult)
  readRepresentationState : RepresentationQuery → EStateM Raised σ RepresentationStateView
  readRepresentationDeficits : RepresentationQuery → EStateM Raised σ (List RepresentationDeficit)
  traceLineage : LineageQuery → EStateM Raised σ LineageTraceView

end ArgoTwin
