import ArgoTwin.Transition
/-!
# The state at a valid time

`select_valid_at` restricts what is known to the facts valid at an
instant: the records that carry a validity are filtered by it, the sets
that mark them are cut down with them, and of the contradictions and
adjudications those stay whose claims all stay.
-/

namespace ArgoTwin

open Library TwinAggregate

/-- A dictionary comprehension with a condition that may raise: it is read
on every record, and those it is true of are kept. -/
def selectRecords (p : Payload → Except PyError Bool) (records : Dict Payload) :
    Except PyError (Dict Payload) := do
  records.toList.forM fun record => do
    let _ ← p record.2
  pure (records.filter fun _ record => holds (p record))

/-- `ids.intersection_update(set(records))`. -/
def among (ids : IdSet) (records : Dict Payload) : IdSet :=
  ids.filter fun id => records.contains id

@[simp] theorem mem_among {ids : IdSet} {records : Dict Payload} {id : String} :
    id ∈ among ids records ↔ id ∈ ids ∧ id ∈ records := by
  rw [among, Std.ExtTreeSet.mem_filter, Std.ExtTreeMap.mem_iff_contains]
  simp

/-- What a comprehension keeps is a record it was given. -/
theorem getElem?_selectRecords {p : Payload → Except PyError Bool} {records selected : Dict Payload}
    (h : selectRecords p records = .ok selected) {id : String} {r : Payload} :
    selected[id]? = some r ↔ records[id]? = some r ∧ p r = .ok true := by
  simp only [selectRecords, bind_eq_ok] at h
  obtain ⟨_, -, hselected⟩ := h
  obtain rfl : records.filter (fun _ record => holds (p record)) = selected :=
    Except.ok.inj hselected
  rw [getElem?_filter, holds_iff]

namespace TwinState

/-- `_valid_at`. -/
def validAt (value : Payload) (instant : DateTime) : Except PyError Bool := do
  if !value.truthy "valid_from" then pure true
  else
    let start ← parseTime (value.strD "valid_from" "")
    let finish ← if value.truthy "valid_until"
      then (parseTime (value.strD "valid_until" "")).map some else pure none
    if ← instant.lt start then pure false
    else match finish with
      | some finish => instant.lt finish
      | none => pure true

/-- All claims a contradiction names are among the claims. -/
def disputesAmong (claims : Dict Payload) (contradiction : Payload) : Except PyError Bool := do
  let claimIds ← (contradiction.listD "claim_ids").pyIter
  pure (claimIds.all fun item => claims.contains item.pyStr)

/-- `select_valid_at`. -/
def selectValidAt (s : TwinState) (instant : DateTime) : Except PyError TwinState := do
  if instant.naive then
    .error (.invariantViolation "valid-time query must be timezone-aware")
  else
    let evidence ← selectRecords (validAt · instant) s.evidence
    let entityLinks ← selectRecords (validAt · instant) s.entityLinks
    let claims ← selectRecords (validAt · instant) s.claims
    let contradictions ← selectRecords (disputesAmong claims) s.contradictions
    pure { s with
      evidence := evidence
      entityLinks := entityLinks
      unlinkedEntityIds := among s.unlinkedEntityIds entityLinks
      staleEntityLinkIds := among s.staleEntityLinkIds entityLinks
      claims := claims
      acceptedClaimIds := among s.acceptedClaimIds claims
      contestedClaimIds := among s.contestedClaimIds claims
      retiredClaimIds := among s.retiredClaimIds claims
      supersededClaimIds := among s.supersededClaimIds claims
      staleClaimIds := among s.staleClaimIds claims
      contradictions := contradictions
      resolvedContradictionIds := among s.resolvedContradictionIds contradictions
      adjudications := s.adjudications.filter fun _ adjudication =>
        contradictions.contains (adjudication.strD "contradiction_id" "") }

end TwinState

end ArgoTwin
