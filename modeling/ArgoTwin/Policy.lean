import ArgoTwin.Types
/-!
# Who may be shown what

A recipient asks for fields of a twin, for a purpose and as of two times;
the subject has granted a recipient fields, purposes and a ceiling.
`evaluateProjection` is the default-deny reference: every reason against a
request is listed, and only one without any is allowed.
-/

namespace ArgoTwin

open Library

structure ConsentGrant where
  consentId : String
  subjectId : String
  recipientId : String
  purposes : IdSet
  allowedFields : IdSet
  maxSensitivity : Sensitivity
  validFrom : DateTime
  validUntil : DateTime
  policyVersion : String
  revokedAt : Option DateTime := none
  until_follows : validFrom.instant < validUntil.instant
  aware : validFrom.naive = false ∧ validUntil.naive = false
  revoked_aware : ∀ revoked ∈ revokedAt, revoked.naive = false

/-- `active_at`; all times are aware. -/
def ConsentGrant.activeAt (g : ConsentGrant) (now : Instant) : Bool :=
  g.revokedAt.isNone && g.validFrom.instant ≤ now && now < g.validUntil.instant

structure ProjectionRequest where
  requestId : String
  twinId : String
  subjectId : String
  recipientId : String
  purpose : String
  requestedFields : IdSet
  maximumSensitivity : Sensitivity
  asOfValidTime : DateTime
  asOfRecordedTime : DateTime
  fields_required : requestedFields.isEmpty = false
  aware : asOfValidTime.naive = false ∧ asOfRecordedTime.naive = false

/-- An action an agent asks for, in someone's name. -/
structure ActionEnvelope where
  actionId : String
  principalId : String
  actorIdentityId : String
  purpose : String
  target : String
  requestedCapabilities : IdSet
  impact : String
  reversible : Bool
  evidenceIds : List String
  constraintVersion : String
  idempotencyKey : String
  issuedAt : DateTime
  expiresAt : DateTime
  expires_follows : issuedAt.instant < expiresAt.instant
  capabilities_required : requestedCapabilities.isEmpty = false
  aware : issuedAt.naive = false ∧ expiresAt.naive = false

structure AuthorityGrant where
  grantId : String
  principalId : String
  actorIdentityId : String
  purposes : IdSet
  capabilities : IdSet
  maximumImpact : String
  requireReversible : Bool
  validFrom : DateTime
  validUntil : DateTime
  revokedAt : Option DateTime := none
  until_follows : validFrom.instant < validUntil.instant
  aware : validFrom.naive = false ∧ validUntil.naive = false
  revoked_aware : ∀ revoked ∈ revokedAt, revoked.naive = false

/-- `active_at` of an authority. -/
def AuthorityGrant.activeAt (g : AuthorityGrant) (now : Instant) : Bool :=
  g.revokedAt.isNone && g.validFrom.instant ≤ now && now < g.validUntil.instant

/-- What a policy answers: whether it allows, why, and which fields. -/
abbrev PolicyEvaluator :=
  ProjectionRequest → Option ConsentGrant → IdSet → Instant → Bool × List String × IdSet

namespace DefaultDenyPolicy

/-- The reasons against a request under a grant. -/
def objections (request : ProjectionRequest) (consent : ConsentGrant) (availableFields : IdSet)
    (now : Instant) : List String :=
  (if consent.activeAt now then [] else ["consent_inactive"]) ++
  (if consent.subjectId = request.subjectId then [] else ["subject_mismatch"]) ++
  (if consent.recipientId = request.recipientId then [] else ["recipient_mismatch"]) ++
  (if consent.purposes.contains request.purpose then [] else ["purpose_not_granted"]) ++
  (if consent.maxSensitivity.rank < request.maximumSensitivity.rank
    then ["sensitivity_exceeds_grant"] else []) ++
  (if (request.requestedFields.filter fun name => !availableFields.contains name).isEmpty
    then [] else ["unsupported_field_request"]) ++
  (if (request.requestedFields.filter fun name => !consent.allowedFields.contains name).isEmpty
    then [] else ["field_not_granted"])

/-- The fields asked for that are granted and available. -/
def grantedFields (request : ProjectionRequest) (consent : ConsentGrant)
    (availableFields : IdSet) : IdSet :=
  request.requestedFields.filter fun name =>
    consent.allowedFields.contains name && availableFields.contains name

def evaluateProjection : PolicyEvaluator := fun request consent availableFields now =>
  match consent with
  | none => (false, ["no_active_consent"], ∅)
  | some grant =>
    let reasons := objections request grant availableFields now
    if reasons ≠ [] then (false, reasons, ∅)
    else
      let allowed := grantedFields request grant availableFields
      if allowed.isEmpty then (false, ["empty_projection"], ∅)
      else (true, ["consent_and_policy_satisfied"], allowed)

/-- **What is allowed does not depend on when**: a request that is allowed
is allowed the same fields for the same reason. -/
theorem evaluateProjection_allowed {request : ProjectionRequest} {consent : Option ConsentGrant}
    {availableFields : IdSet} {now : Instant}
    (h : (evaluateProjection request consent availableFields now).1 = true) :
    ∃ grant, consent = some grant ∧ evaluateProjection request consent availableFields now =
      (true, ["consent_and_policy_satisfied"], grantedFields request grant availableFields) := by
  unfold evaluateProjection at h ⊢
  cases consent with
  | none => cases h
  | some grant =>
    refine ⟨grant, rfl, ?_⟩
    simp only at h ⊢
    split_ifs at h ⊢
    rfl

def impactOrder : List (String × Int) :=
  [("none", 0), ("low", 1), ("moderate", 2), ("high", 3), ("critical", 4)]

/-- The reasons against an action under a grant. An impact that is not
ranked is above every ceiling, and a ceiling that is not ranked below
every impact. -/
def actionObjections (action : ActionEnvelope) (grant : AuthorityGrant) (now : Instant) :
    List String :=
  (if grant.activeAt now then [] else ["authority_inactive"]) ++
  (if action.expiresAt.instant ≤ now ∨ now < action.issuedAt.instant
    then ["action_envelope_inactive"] else []) ++
  (if grant.principalId = action.principalId then [] else ["principal_mismatch"]) ++
  (if grant.actorIdentityId = action.actorIdentityId then [] else ["actor_mismatch"]) ++
  (if grant.purposes.contains action.purpose then [] else ["purpose_not_authorized"]) ++
  (if (action.requestedCapabilities.filter fun name => !grant.capabilities.contains name).isEmpty
    then [] else ["capability_not_authorized"]) ++
  (if (impactOrder.lookup grant.maximumImpact).getD (-1) <
      (impactOrder.lookup action.impact).getD 99 then ["impact_exceeds_grant"] else []) ++
  (if grant.requireReversible && !action.reversible
    then ["irreversible_action_denied"] else []) ++
  (if action.evidenceIds = [] then ["action_has_no_evidence"] else [])

def evaluateAction (action : ActionEnvelope) (grant : Option AuthorityGrant) (now : Instant) :
    Bool × List String :=
  match grant with
  | none => (false, ["no_authority_grant"])
  | some grant =>
    let reasons := actionObjections action grant now
    if reasons ≠ [] then (false, reasons) else (true, ["authority_and_constraints_satisfied"])

end DefaultDenyPolicy

end ArgoTwin
