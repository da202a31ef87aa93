import ArgoTwin.Aggregate
/-!
# What applying an event does

`apply` runs its checks and updates interleaved, and may stop half way.
Where it runs through, it comes down to a condition on the event and the
state before, `Allowed`, and one update, `effect`
(`returns_apply`). Everything about streams is read off these two.
-/

namespace ArgoTwin

open Library

namespace TwinAggregate

variable {e : EventEnvelope} {s s' : TwinState} {p : Payload} {u : Unit}

/-! ## The pieces of a branch -/

/-- The text under `key`. -/
abbrev idOf (p : Payload) (key : String) : String := p.strD key ""

@[simp] theorem returns_requireStr {key v : String} :
    Returns (requireStr p key) s v s' ↔ (key ∈ p ∧ v = idOf p key) ∧ s' = s := by
  rw [requireStr, returns_fromExcept, mem_iff_getElem?]
  unfold Payload.require idOf Payload.strD
  cases h : p[key]? <;> simp [Except.map, eq_comm]

@[simp] theorem returns_violation {message : String} :
    Returns (violation message) s u s' ↔ False := returns_throw

@[simp] theorem returns_raiseIf {bad : Prop} [Decidable bad] {message : String} :
    Returns (raiseIf bad message) s u s' ↔ ¬ bad ∧ s' = s := by
  simp [raiseIf, eq_comm]

/-- A subject may be bound: it is named, and no other is bound already. -/
def Binds (s : TwinState) (subjectId : String) : Prop :=
  subjectId ≠ "" ∧ (s.subjectId = none ∨ s.subjectId = some subjectId)

def bound (s : TwinState) (subjectId : String) : TwinState :=
  { s with subjectId := some subjectId }

@[simp] theorem returns_bindSubject {subjectId : String} :
    Returns (bindSubject subjectId) s u s' ↔ Binds s subjectId ∧ s' = bound s subjectId := by
  simp only [bindSubject, returns_bind, returns_raiseIf, returns_get, returns_set, Binds, bound]
  constructor
  · rintro ⟨_, _, ⟨hne, rfl⟩, _, _, ⟨rfl, rfl⟩, _, _, ⟨hs, rfl⟩, rfl⟩
    exact ⟨⟨hne, by tauto⟩, rfl⟩
  · rintro ⟨⟨hne, hs⟩, rfl⟩
    exact ⟨(), s, ⟨hne, rfl⟩, s, s, ⟨rfl, rfl⟩, (), s, ⟨by tauto, rfl⟩, rfl⟩

/-- The state a subject named in passing leaves. -/
def boundIfNamed (s : TwinState) (p : Payload) : TwinState :=
  match EventOwnershipPolicy.payloadSubject p with
  | some subjectId => bound s subjectId
  | none => s

@[simp] theorem returns_bindIfNamed :
    Returns (bindIfNamed p) s u s' ↔
      (∀ subjectId, EventOwnershipPolicy.payloadSubject p = some subjectId → Binds s subjectId) ∧
        s' = boundIfNamed s p := by
  unfold bindIfNamed boundIfNamed
  cases EventOwnershipPolicy.payloadSubject p <;> simp [eq_comm]

/-- Naming a subject changes nothing else. -/
theorem boundIfNamed_eq : boundIfNamed s p = { s with subjectId := (boundIfNamed s p).subjectId } := by
  unfold boundIfNamed
  cases EventOwnershipPolicy.payloadSubject p <;> rfl

/-- Where a condition was read without raising, and came out true. -/
def holds : Except PyError Bool → Bool
  | .ok b => b
  | .error _ => false

@[simp] theorem holds_iff {r : Except PyError Bool} : holds r = true ↔ r = .ok true := by
  cases r <;> simp [holds]

/-- No record makes the condition raise. -/
def Readable (records : Dict Payload) (p : Payload → Except PyError Bool) : Prop :=
  ∀ record ∈ records.toList, ∃ b, p record.2 = .ok b

/-- The set a marking loop leaves. -/
def marked (records : Dict Payload) (p : Payload → Except PyError Bool) (ids : IdSet) : IdSet :=
  records.toList.foldl (fun ids record => if holds (p record.2) then ids.insert record.1 else ids)
    ids

theorem returns_markWhere {records : Dict Payload} {p : Payload → Except PyError Bool}
    {ids ids' : IdSet} :
    Returns (markWhere records p) ids u ids' ↔
      Readable records p ∧ ids' = marked records p ids := by
  unfold markWhere
  rw [returns_forM]
  · rfl
  · intro record ids ids'
    simp only [returns_bind, returns_fromExcept, returns_ite, returns_modify, returns_pure]
    constructor
    · rintro ⟨b, _, ⟨hb, rfl⟩, ⟨hb', rfl⟩ | ⟨hb', -, rfl⟩⟩
      · exact ⟨⟨b, hb⟩, by simp [hb, hb']⟩
      · exact ⟨⟨b, hb⟩, by simp [hb, hb']⟩
    · rintro ⟨⟨b, hb⟩, rfl⟩
      exact ⟨b, ids, ⟨hb, rfl⟩, by cases b <;> simp [hb]⟩

/-- **What a marking loop marks.** -/
theorem mem_marked {records : Dict Payload} {p : Payload → Except PyError Bool} {ids : IdSet}
    {id : String} : id ∈ marked records p ids ↔
      id ∈ ids ∨ ∃ record, records[id]? = some record ∧ p record = .ok true := by
  have key : ∀ (l : List (String × Payload)) (ids : IdSet),
      id ∈ l.foldl (fun ids record => if holds (p record.2) then ids.insert record.1 else ids) ids
        ↔ id ∈ ids ∨ ∃ record, (id, record) ∈ l ∧ p record = .ok true := by
    intro l
    induction l with
    | nil => simp
    | cons record l ih =>
      obtain ⟨k, record⟩ := record
      intro ids
      rw [List.foldl_cons, ih]
      by_cases hp : p record = .ok true
      · simp only [hp, holds, ↓reduceIte, mem_set_insert, List.mem_cons, Prod.mk.injEq]
        constructor
        · rintro ((rfl | h) | ⟨r, hr, hpr⟩)
          · exact .inr ⟨record, .inl ⟨rfl, rfl⟩, hp⟩
          · exact .inl h
          · exact .inr ⟨r, .inr hr, hpr⟩
        · rintro (h | ⟨r, ⟨rfl, rfl⟩ | hr, hpr⟩)
          · exact .inl (.inr h)
          · exact .inl (.inl rfl)
          · exact .inr ⟨r, hr, hpr⟩
      · have hfalse : holds (p record) = false := by
          rw [Bool.eq_false_iff, ne_eq, holds_iff]
          exact hp
        simp only [hfalse, List.mem_cons, Prod.mk.injEq]
        constructor
        · rintro (h | ⟨r, hr, hpr⟩)
          · exact .inl h
          · exact .inr ⟨r, .inr hr, hpr⟩
        · rintro (h | ⟨r, ⟨rfl, rfl⟩ | hr, hpr⟩)
          · exact .inl h
          · exact absurd hpr hp
          · exact .inr ⟨r, hr, hpr⟩
  simpa [marked, mem_dict_toList] using key records.toList ids

variable {mark : Payload → Except PyError Bool}

@[simp] theorem returns_markLinks :
    Returns (markLinks mark) s u s' ↔ Readable s.entityLinks mark ∧
      s' = { s with staleEntityLinkIds := marked s.entityLinks mark s.staleEntityLinkIds } := by
  simp only [markLinks, returns_bind, returns_get, returns_onPart, returns_markWhere]
  constructor
  · rintro ⟨_, _, ⟨rfl, rfl⟩, _, ⟨h, rfl⟩, rfl⟩
    exact ⟨h, rfl⟩
  · rintro ⟨h, rfl⟩
    exact ⟨s, s, ⟨rfl, rfl⟩, _, ⟨h, rfl⟩, rfl⟩

@[simp] theorem returns_markClaims :
    Returns (markClaims mark) s u s' ↔ Readable s.claims mark ∧
      s' = { s with staleClaimIds := marked s.claims mark s.staleClaimIds } := by
  simp only [markClaims, returns_bind, returns_get, returns_onPart, returns_markWhere]
  constructor
  · rintro ⟨_, _, ⟨rfl, rfl⟩, _, ⟨h, rfl⟩, rfl⟩
    exact ⟨h, rfl⟩
  · rintro ⟨h, rfl⟩
    exact ⟨s, s, ⟨rfl, rfl⟩, _, ⟨h, rfl⟩, rfl⟩

@[simp] theorem returns_markProjections :
    Returns (markProjections mark) s u s' ↔ Readable s.issuedProjections mark ∧
      s' = { s with
        staleProjectionIds := marked s.issuedProjections mark s.staleProjectionIds } := by
  simp only [markProjections, returns_bind, returns_get, returns_onPart, returns_markWhere]
  constructor
  · rintro ⟨_, _, ⟨rfl, rfl⟩, _, ⟨h, rfl⟩, rfl⟩
    exact ⟨h, rfl⟩
  · rintro ⟨h, rfl⟩
    exact ⟨s, s, ⟨rfl, rfl⟩, _, ⟨h, rfl⟩, rfl⟩

/-- The list under a key that must be there. -/
def requireList (p : Payload) (key : String) : Except PyError (List Json) :=
  p.require key >>= Json.pyIter

/-- A reference names evidence the twin holds, in its independence group. -/
def Supports (s : TwinState) (reference : Json) : Prop :=
  ∃ evidenceId evidence, reference.get? "evidence_id" = some evidenceId ∧
    s.evidence[evidenceId.pyStr]? = some evidence ∧
    Json.pyEqOption (reference.get? "independence_group") evidence["independence_group"]? = true

theorem returns_checkReference {unknown mismatch : String} {reference : Json} :
    Returns (checkReference unknown mismatch reference) s u s' ↔
      Supports s reference ∧ s' = s := by
  simp only [checkReference, returns_bind, returns_fromExcept, returns_get, Supports]
  cases hid : reference.get? "evidence_id" with
  | none => simp
  | some value =>
    cases hev : s.evidence[value.pyStr]? with
    | none => simp [hev]
    | some evidence => simp [hev]

@[simp] theorem returns_checkProvenance {unknown mismatch : String} :
    Returns (checkProvenance p unknown mismatch) s u s' ↔
      (∃ references, requireList p "provenance" = .ok references ∧
        ∀ reference ∈ references, Supports s reference) ∧ s' = s := by
  have hloop : ∀ (references : List Json) (t t' : TwinState),
      Returns (references.forM (checkReference unknown mismatch)) t u t' ↔
        (∀ reference ∈ references, Supports t reference) ∧ t' = t := fun references t t' =>
    returns_forM_check (P := fun reference t => Supports t reference)
      fun _ _ _ => returns_checkReference
  simp only [checkProvenance, returns_bind, returns_fromExcept, hloop, requireList]
  constructor
  · rintro ⟨references, _, ⟨h, rfl⟩, hall, rfl⟩
    exact ⟨⟨references, h, hall⟩, rfl⟩
  · rintro ⟨⟨references, h, hall⟩, rfl⟩
    exact ⟨references, _, ⟨h, rfl⟩, hall, rfl⟩

/-! ## When a branch runs through -/

/-- The provenance of a new claim or link is a list of supporting references. -/
def SupportedBy (s : TwinState) (p : Payload) : Prop :=
  ∃ references, requireList p "provenance" = .ok references ∧
    ∀ reference ∈ references, Supports s reference

/-- The claim may be accepted or contested. -/
def Reviewable (s : TwinState) (claimId : String) : Prop :=
  claimId ∈ s.claims ∧ claimId ∉ s.retiredClaimIds ∧ claimId ∉ s.supersededClaimIds

/-- The records a correction moves between. -/
def correctable (s : TwinState) (ofEvidence : Bool) : Dict Payload :=
  if ofEvidence then s.evidence else s.claims

def supersededOf (s : TwinState) (ofEvidence : Bool) : IdSet :=
  if ofEvidence then s.supersededEvidenceIds else s.supersededClaimIds

/-- `target_kind` is evidence; a validated correction's other kind is claim. -/
def correctsEvidence (p : Payload) : Bool := idOf p "target_kind" = "evidence"

/-- What a deletion or an evidence correction marks, before projections. -/
def markCiting (s : TwinState) (evidenceId : String) : TwinState :=
  { s with
    staleEntityLinkIds := marked s.entityLinks (cites evidenceId) s.staleEntityLinkIds
    staleClaimIds := marked s.claims (cites evidenceId) s.staleClaimIds }

def ReadableCiting (s : TwinState) (evidenceId : String) : Prop :=
  Readable s.entityLinks (cites evidenceId) ∧ Readable s.claims (cites evidenceId)

/-- The branch of the event's type runs through on this state. -/
def Allowed (e : EventEnvelope) (s : TwinState) : Prop :=
  let p := e.payload
  match e.kind with
  | .evidenceIngested =>
    ("subject_id" ∈ p ∧ "evidence_id" ∈ p) ∧ Binds s (idOf p "subject_id") ∧
      idOf p "evidence_id" ∉ s.evidence
  | .entityLinked =>
    ("subject_id" ∈ p ∧ "entity_link_id" ∈ p) ∧ Binds s (idOf p "subject_id") ∧
      SupportedBy s p ∧ idOf p "entity_link_id" ∉ s.entityLinks
  | .entityUnlinked =>
    "entity_link_id" ∈ p ∧ idOf p "entity_link_id" ∈ s.entityLinks ∧
      idOf p "entity_link_id" ∉ s.unlinkedEntityIds
  | .evidenceDeleted =>
    "evidence_id" ∈ p ∧ idOf p "evidence_id" ∈ s.evidence ∧
      ReadableCiting s (idOf p "evidence_id") ∧
      Readable s.issuedProjections
        (compiledFrom (markCiting s (idOf p "evidence_id")).staleClaimIds)
  | .claimProposed =>
    ("subject_id" ∈ p ∧ "claim_id" ∈ p) ∧ Binds s (idOf p "subject_id") ∧
      SupportedBy s p ∧ idOf p "claim_id" ∉ s.claims
  | .claimAccepted | .claimContested => "claim_id" ∈ p ∧ Reviewable s (idOf p "claim_id")
  | .claimRetired => "claim_id" ∈ p ∧ idOf p "claim_id" ∈ s.claims
  | .claimSuperseded =>
    "claim_id" ∈ p ∧ idOf p "successor_claim_id" ≠ "" ∧ idOf p "claim_id" ∈ s.claims ∧
      idOf p "successor_claim_id" ∈ s.claims ∧ idOf p "claim_id" ∉ s.supersededClaimIds ∧
      Readable s.issuedProjections (compiledFrom ((∅ : IdSet).insert (idOf p "claim_id")))
  | .contradictionDetected =>
    "contradiction_id" ∈ p ∧ idOf p "contradiction_id" ∉ s.contradictions ∧
      (∀ subjectId, EventOwnershipPolicy.payloadSubject p = some subjectId → Binds s subjectId) ∧
      ∃ claimIds, requireList p "claim_ids" = .ok claimIds ∧
        ∀ item ∈ claimIds, item.pyStr ∈ s.claims
  | .contradictionAdjudicated =>
    ("contradiction_id" ∈ p ∧ "subject_id" ∈ p) ∧
      idOf p "contradiction_id" ∉ s.resolvedContradictionIds ∧ Binds s (idOf p "subject_id") ∧
      ∃ contradiction claimIds preferred decisive,
        s.contradictions[idOf p "contradiction_id"]? = some contradiction ∧
        (contradiction.listD "claim_ids").pyIter = .ok claimIds ∧
        requireList p "preferred_claim_ids" = .ok preferred ∧
        (∀ item ∈ preferred, item.pyStr ∈ claimIds.map Json.pyStr) ∧
        memberOf p["resolution"]? ["uphold", "corrected"] = .ok decisive ∧
        (decisive = true → preferred ≠ [])
  | .correctionRecorded =>
    ("subject_id" ∈ p ∧ "correction_id" ∈ p ∧ "target_kind" ∈ p ∧ "target_id" ∈ p ∧
        "replacement_id" ∈ p) ∧
      Binds s (idOf p "subject_id") ∧ idOf p "correction_id" ∉ s.corrections ∧
      (idOf p "target_id" ∈ correctable s (correctsEvidence p) ∧
        idOf p "replacement_id" ∈ correctable s (correctsEvidence p)) ∧
      (idOf p "target_id" ∉ supersededOf s (correctsEvidence p) ∧
        idOf p "replacement_id" ∉ supersededOf s (correctsEvidence p)) ∧
      (correctsEvidence p = true → ReadableCiting s (idOf p "target_id")) ∧
      Readable s.issuedProjections (compiledFromText
        (if correctsEvidence p then (markCiting s (idOf p "target_id")).staleClaimIds
          else (∅ : IdSet).insert (idOf p "target_id")))
  | .projectionRevoked => "projection_id" ∈ p ∧ idOf p "projection_id" ∈ s.issuedProjections
  | .projectionIssued =>
    "projection_id" ∈ p ∧ s.subjectId ≠ none ∧ idOf p "projection_id" ∉ s.issuedProjections
  | .degradationDeclared | .degradationCleared => "reason" ∈ p
  | .other => True

/-- What the branch of the event's type leaves. -/
def effectKind (e : EventEnvelope) (s : TwinState) : TwinState :=
  let p := e.payload
  match e.kind with
  | .evidenceIngested =>
    { bound s (idOf p "subject_id") with
      evidence := s.evidence.insert (idOf p "evidence_id") p }
  | .entityLinked =>
    { bound s (idOf p "subject_id") with
      entityLinks := s.entityLinks.insert (idOf p "entity_link_id") (recorded e) }
  | .entityUnlinked =>
    { s with unlinkedEntityIds := s.unlinkedEntityIds.insert (idOf p "entity_link_id") }
  | .evidenceDeleted =>
    let id := idOf p "evidence_id"
    { markCiting s id with
      evidence := s.evidence.erase id
      staleProjectionIds := marked s.issuedProjections
        (compiledFrom (markCiting s id).staleClaimIds) s.staleProjectionIds }
  | .claimProposed =>
    { bound s (idOf p "subject_id") with
      claims := s.claims.insert (idOf p "claim_id") (recorded e) }
  | .claimAccepted =>
    { s with
      acceptedClaimIds := s.acceptedClaimIds.insert (idOf p "claim_id")
      contestedClaimIds := s.contestedClaimIds.erase (idOf p "claim_id") }
  | .claimContested =>
    { s with
      contestedClaimIds := s.contestedClaimIds.insert (idOf p "claim_id")
      acceptedClaimIds := s.acceptedClaimIds.erase (idOf p "claim_id") }
  | .claimRetired =>
    { s with
      acceptedClaimIds := s.acceptedClaimIds.erase (idOf p "claim_id")
      contestedClaimIds := s.contestedClaimIds.erase (idOf p "claim_id")
      retiredClaimIds := s.retiredClaimIds.insert (idOf p "claim_id") }
  | .claimSuperseded =>
    { s with
      acceptedClaimIds := s.acceptedClaimIds.erase (idOf p "claim_id")
      contestedClaimIds := s.contestedClaimIds.erase (idOf p "claim_id")
      supersededClaimIds := s.supersededClaimIds.insert (idOf p "claim_id")
      staleProjectionIds := marked s.issuedProjections
        (compiledFrom ((∅ : IdSet).insert (idOf p "claim_id"))) s.staleProjectionIds }
  | .contradictionDetected =>
    { boundIfNamed s p with
      contradictions := s.contradictions.insert (idOf p "contradiction_id") (recorded e) }
  | .contradictionAdjudicated =>
    { bound s (idOf p "subject_id") with
      adjudications := s.adjudications.insert (idOf p "contradiction_id") (recorded e)
      resolvedContradictionIds :=
        s.resolvedContradictionIds.insert (idOf p "contradiction_id") }
  | .correctionRecorded =>
    let id := idOf p "target_id"
    let corrected := { bound s (idOf p "subject_id") with
      corrections := s.corrections.insert (idOf p "correction_id") (recorded e) }
    if correctsEvidence p then
      { markCiting corrected id with
        supersededEvidenceIds := s.supersededEvidenceIds.insert id
        staleProjectionIds := marked s.issuedProjections
          (compiledFromText (markCiting s id).staleClaimIds) s.staleProjectionIds }
    else
      { corrected with
        supersededClaimIds := s.supersededClaimIds.insert id
        acceptedClaimIds := s.acceptedClaimIds.erase id
        contestedClaimIds := s.contestedClaimIds.erase id
        staleProjectionIds := marked s.issuedProjections
          (compiledFromText ((∅ : IdSet).insert id)) s.staleProjectionIds }
  | .projectionRevoked =>
    { s with revokedProjectionIds := s.revokedProjectionIds.insert (idOf p "projection_id") }
  | .projectionIssued =>
    { s with issuedProjections := s.issuedProjections.insert (idOf p "projection_id") p }
  | .degradationDeclared => { s with degradedReasons := s.degradedReasons ++ [idOf p "reason"] }
  | .degradationCleared =>
    { s with degradedReasons := s.degradedReasons.filter (· != idOf p "reason") }
  | .other => s

/-- A contradiction that is found, -/
theorem returns_applyDetected (hdetected : e.kind = .contradictionDetected) :
    Returns (applyKind e) s u s' ↔ Allowed e s ∧ s' = effectKind e s := by
  unfold applyKind Allowed effectKind
  rw [hdetected]
  have hclaims : (boundIfNamed s e.payload).claims = s.claims := by rw [boundIfNamed_eq]
  have hcontradictions : (boundIfNamed s e.payload).contradictions = s.contradictions := by
    rw [boundIfNamed_eq]
  simp only [applyContradictionDetected, requireList, hclaims, returns_bind,
    returns_requireStr, returns_get, returns_raiseIf, returns_bindIfNamed, returns_fromExcept,
    returns_modify]
  constructor
  · rintro ⟨_, _, ⟨⟨hkey, rfl⟩, rfl⟩, _, _, ⟨rfl, rfl⟩, _, _, ⟨hnew, rfl⟩, _, _, ⟨hsubject, rfl⟩,
      claimIds, _, ⟨hids, rfl⟩, _, _, ⟨rfl, rfl⟩, _, _, ⟨hknown, rfl⟩, rfl⟩
    refine ⟨⟨hkey, hnew, hsubject, claimIds, hids, ?_⟩, by simp only [hcontradictions, hclaims]⟩
    simpa [hclaims] using hknown
  · rintro ⟨⟨hkey, hnew, hsubject, claimIds, hids, hknown⟩, rfl⟩
    refine ⟨_, _, ⟨⟨hkey, rfl⟩, rfl⟩, _, _, ⟨rfl, rfl⟩, (), _, ⟨hnew, rfl⟩, (), _,
      ⟨hsubject, rfl⟩, claimIds, _, ⟨hids, rfl⟩, _, _, ⟨rfl, rfl⟩, (), _, ⟨?_, rfl⟩, ?_⟩
    · simpa [hclaims] using hknown
    · simp only [hcontradictions, hclaims]

/-- one that is settled, -/
theorem returns_applyAdjudicated (hadjudicated : e.kind = .contradictionAdjudicated) :
    Returns (applyKind e) s u s' ↔ Allowed e s ∧ s' = effectKind e s := by
  unfold applyKind Allowed effectKind
  rw [hadjudicated]
  cases hc : s.contradictions[idOf e.payload "contradiction_id"]? with
  | none => simp [applyContradictionAdjudicated, hc]
  | some contradiction =>
    simp only [applyContradictionAdjudicated, hc, requireList, returns_bind,
      returns_requireStr, returns_get]
    constructor
    · rintro ⟨_, _, ⟨⟨hkey, rfl⟩, rfl⟩, _, _, ⟨rfl, rfl⟩, h⟩
      rw [hc] at h
      simp only [returns_bind, returns_requireStr, returns_raiseIf, returns_bindSubject,
        returns_fromExcept, returns_modify] at h
      obtain ⟨_, _, ⟨hopen, rfl⟩, claimIds, _, ⟨hids, rfl⟩, preferred, _, ⟨hpreferred, rfl⟩,
        _, _, ⟨hbelong, rfl⟩, decisive, _, ⟨hdecisive, rfl⟩, _, _, ⟨hprefers, rfl⟩,
        _, _, ⟨⟨hsubject, rfl⟩, rfl⟩, _, _, ⟨hbinds, rfl⟩, rfl⟩ := h
      refine ⟨⟨⟨hkey, hsubject⟩, hopen, hbinds, contradiction, claimIds, preferred, decisive,
        rfl, hids, hpreferred, ?_, hdecisive, ?_⟩, rfl⟩
      · simpa using hbelong
      · simpa using hprefers
    · rintro ⟨⟨⟨hkey, hsubject⟩, hopen, hbinds, _, claimIds, preferred, decisive, heq, hids,
        hpreferred, hbelong, hdecisive, hprefers⟩, rfl⟩
      cases heq
      refine ⟨_, _, ⟨⟨hkey, rfl⟩, rfl⟩, _, _, ⟨rfl, rfl⟩, ?_⟩
      rw [hc]
      simp only [returns_bind, returns_requireStr, returns_raiseIf, returns_bindSubject,
        returns_fromExcept, returns_modify]
      refine ⟨(), _, ⟨hopen, rfl⟩, claimIds, _, ⟨hids, rfl⟩, preferred, _, ⟨hpreferred, rfl⟩,
        (), _, ⟨by simpa using hbelong, rfl⟩, decisive, _, ⟨hdecisive, rfl⟩, (), _,
        ⟨by simpa using hprefers, rfl⟩, _, _, ⟨⟨hsubject, rfl⟩, rfl⟩, (), _, ⟨hbinds, rfl⟩, rfl⟩

/-- and a correction, of evidence -/
theorem returns_applyCorrected (hcorrected : e.kind = .correctionRecorded)
    (hkind : idOf e.payload "target_kind" = "evidence") :
    Returns (applyKind e) s u s' ↔ Allowed e s ∧ s' = effectKind e s := by
  unfold applyKind Allowed effectKind
  rw [hcorrected]
  simp [applyCorrectionRecorded, bound, markCiting, ReadableCiting, correctable, supersededOf,
    correctsEvidence, hkind, and_assoc]
  tauto

/-- or of anything else, -/
theorem returns_applyAmended (hcorrected : e.kind = .correctionRecorded)
    (hkind : idOf e.payload "target_kind" ≠ "evidence") :
    Returns (applyKind e) s u s' ↔ Allowed e s ∧ s' = effectKind e s := by
  unfold applyKind Allowed effectKind
  rw [hcorrected]
  simp [applyCorrectionRecorded, bound, correctable, supersededOf, correctsEvidence, hkind,
    and_assoc]
  tauto

/-- **What a branch does**, one branch per event type. -/
theorem returns_applyKind :
    Returns (applyKind e) s u s' ↔ Allowed e s ∧ s' = effectKind e s := by
  by_cases hdetected : e.kind = .contradictionDetected
  · exact returns_applyDetected hdetected
  by_cases hadjudicated : e.kind = .contradictionAdjudicated
  · exact returns_applyAdjudicated hadjudicated
  by_cases hcorrected : e.kind = .correctionRecorded
  · by_cases hkind : idOf e.payload "target_kind" = "evidence"
    · exact returns_applyCorrected hcorrected hkind
    · exact returns_applyAmended hcorrected hkind
  -- the branches that are read off their definitions
  unfold applyKind Allowed effectKind
  cases hk : e.kind with
  | evidenceIngested =>
    simp [applyEvidenceIngested, bound, and_assoc, and_left_comm]
  | entityLinked =>
    simp [applyEntityLinked, SupportedBy, Supports, bound, and_assoc, and_left_comm]
  | entityUnlinked => simp [applyEntityUnlinked, and_assoc]
  | evidenceDeleted => simp [applyEvidenceDeleted, markCiting, ReadableCiting, and_assoc]
  | claimProposed => simp [applyClaimProposed, SupportedBy, Supports, bound, and_assoc, and_left_comm]
  | claimAccepted => simp [applyClaimAccepted, checkReviewable, Reviewable, and_assoc]
  | claimContested => simp [applyClaimContested, checkReviewable, Reviewable, and_assoc]
  | claimRetired => simp [applyClaimRetired, and_assoc]
  | claimSuperseded => simp [applyClaimSuperseded, and_assoc, and_left_comm]
  | contradictionDetected => exact absurd hk hdetected
  | contradictionAdjudicated => exact absurd hk hadjudicated
  | correctionRecorded => exact absurd hk hcorrected
  | projectionRevoked => simp [applyProjectionRevoked, and_assoc]
  | projectionIssued => simp [applyProjectionIssued, and_assoc, and_left_comm]
  | degradationDeclared => simp [applyDegradationDeclared]
  | degradationCleared => simp [applyDegradationCleared]
  | other => simp [eq_comm]
/-! ## The whole of `apply` -/

/-- The event is well formed and its branch runs through. -/
def Accepts (e : EventEnvelope) (s : TwinState) : Prop :=
  validateEvent e = .ok () ∧ e.plane ≠ .simulation ∧ Allowed e s

/-- The state after the event. -/
def effect (e : EventEnvelope) (s : TwinState) : TwinState :=
  { effectKind e s with sequence := e.sequence, lastEventHash := e.eventHash }

/-- **`apply` is a condition and an update.** -/
theorem returns_apply : Returns (apply e) s u s' ↔ Accepts e s ∧ s' = effect e s := by
  simp only [apply, returns_bind, returns_fromExcept, returns_raiseIf, returns_applyKind,
    returns_modify]
  constructor
  · rintro ⟨_, _, ⟨hvalid, rfl⟩, _, _, ⟨hplane, rfl⟩, _, _, ⟨hallowed, rfl⟩, rfl⟩
    exact ⟨⟨hvalid, hplane, hallowed⟩, rfl⟩
  · rintro ⟨⟨hvalid, hplane, hallowed⟩, rfl⟩
    exact ⟨(), _, ⟨hvalid, rfl⟩, (), _, ⟨hplane, rfl⟩, (), _, ⟨hallowed, rfl⟩, rfl⟩

@[simp] theorem effect_sequence : (effect e s).sequence = e.sequence := rfl

@[simp] theorem effect_lastEventHash : (effect e s).lastEventHash = e.eventHash := rfl

/-- The twin a state belongs to never changes. -/
@[simp] theorem effect_twinId : (effect e s).twinId = s.twinId := by
  have h : (effectKind e s).twinId = s.twinId := by
    unfold effectKind
    cases e.kind <;> simp only [bound, markCiting]
    · rw [boundIfNamed_eq]
    · split <;> rfl
  exact h

/-- Only a proposal enters a claim. -/
theorem effect_claims : (effect e s).claims =
    if e.kind = .claimProposed then s.claims.insert (idOf e.payload "claim_id") (recorded e)
    else s.claims := by
  have h : (effectKind e s).claims =
      if e.kind = .claimProposed then s.claims.insert (idOf e.payload "claim_id") (recorded e)
      else s.claims := by
    unfold effectKind
    cases e.kind with
    | contradictionDetected => simp only [reduceCtorEq, ↓reduceIte]; rw [boundIfNamed_eq]
    | correctionRecorded => simp only [reduceCtorEq, ↓reduceIte]; split <;> rfl
    | _ => rfl
  exact h

/-- Only a detection enters a contradiction. -/
theorem effect_contradictions : (effect e s).contradictions =
    if e.kind = .contradictionDetected then
      s.contradictions.insert (idOf e.payload "contradiction_id") (recorded e)
    else s.contradictions := by
  have h : (effectKind e s).contradictions =
      if e.kind = .contradictionDetected then
        s.contradictions.insert (idOf e.payload "contradiction_id") (recorded e)
      else s.contradictions := by
    unfold effectKind
    cases e.kind with
    | contradictionDetected => rfl
    | correctionRecorded => simp only [reduceCtorEq, ↓reduceIte]; split <;> rfl
    | _ => rfl
  exact h

/-- Two events that differ at most in their identity, their hashes, the
times they carry and a position other than none. -/
structure SameRequest (e e' : EventEnvelope) : Prop where
  twinId : e.twinId = e'.twinId
  eventType : e.eventType = e'.eventType
  plane : e.plane = e'.plane
  payload : e.payload = e'.payload
  producer : e.producer = e'.producer
  idempotencyKey : e.idempotencyKey = e'.idempotencyKey
  schemaVersion : e.schemaVersion = e'.schemaVersion
  naive : e.occurredAt.naive = e'.occurredAt.naive
  placed : (e.sequence == 0) = (e'.sequence == 0)

variable {e' : EventEnvelope}

theorem SameRequest.symm (h : SameRequest e e') : SameRequest e' e where
  twinId := h.twinId.symm
  eventType := h.eventType.symm
  plane := h.plane.symm
  payload := h.payload.symm
  producer := h.producer.symm
  idempotencyKey := h.idempotencyKey.symm
  schemaVersion := h.schemaVersion.symm
  naive := h.naive.symm
  placed := h.placed.symm

theorem SameRequest.kind (h : SameRequest e e') : e.kind = e'.kind := by
  rw [EventEnvelope.kind, EventEnvelope.kind, h.eventType]

/-- Validation reads the request only. -/
theorem SameRequest.validateEvent (h : SameRequest e e') :
    validateEvent e = validateEvent e' := by
  simp only [TwinAggregate.validateEvent, checkHeader, checkPayload, checkContradictionDetected,
    h.kind, h.twinId, h.eventType, h.plane, h.payload, h.producer, h.idempotencyKey,
    h.schemaVersion, h.naive, h.placed]

/-- **Acceptance reads the request only.** -/
theorem SameRequest.accepts (h : SameRequest e e') : Accepts e s ↔ Accepts e' s := by
  unfold Accepts Allowed
  rw [h.validateEvent, h.plane, h.kind, h.payload]

/-- Where the records' times read alike too, so do the states. -/
theorem SameRequest.effect (h : SameRequest e e')
    (hrecorded : e.recordedAt.isoformat = e'.recordedAt.isoformat)
    (hsequence : e.sequence = e'.sequence) (hhash : e.eventHash = e'.eventHash) :
    effect e s = effect e' s := by
  have hrec : recorded e = recorded e' := by
    rw [recorded, recorded, h.payload, hrecorded]
  have hkind : effectKind e s = effectKind e' s := by
    unfold effectKind
    rw [h.kind, h.payload, hrec]
  rw [TwinAggregate.effect, TwinAggregate.effect, hkind, hsequence, hhash]

end TwinAggregate

end ArgoTwin
