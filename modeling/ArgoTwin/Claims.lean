import ArgoTwin.Library.Effects
import ArgoTwin.State
/-!
# The claims a state vouches for

`accepted_claims` lists the accepted claims that are neither stale, retired
nor superseded, and lets through those visible at a valid time, at a
recording time and at a sensitivity.
-/

namespace ArgoTwin

open Library

namespace TwinState

/-- `Sensitivity(claim.get("sensitivity", "internal"))`. -/
def sensitivityOf (claim : Payload) : Except PyError Sensitivity :=
  match claim["sensitivity"]? with
  | none => .ok .internal
  | some (.str text) => Sensitivity.ofValue text
  | some _ => .error (.valueError "not a valid Sensitivity")

/-- `parse_time(value)` of a value that ought to be text. -/
def timeOf : Json → Except PyError DateTime
  | .str text => parseTime text
  | _ => .error (.attributeError "replace")

/-- The time under a key, where there is one. -/
def timeAt (claim : Payload) (key : String) : Except PyError (Option DateTime) :=
  if claim.truthy key then (timeOf (claim[key]?.getD .null)).map some else .ok none

/-- `valid_from <= valid_at < valid_until`. -/
def validWithin (claim : Payload) (validAt : DateTime) : Except PyError Bool := do
  let start ← timeOf (← claim.require "valid_from")
  let finish ← timeAt claim "valid_until"
  if ← validAt.lt start then pure false
  else match finish with
    | some finish => validAt.lt finish
    | none => pure true

/-- The bounds a listing of claims may be given. -/
structure Bounds where
  validAt : Option DateTime := none
  knownAt : Option DateTime := none
  maxSensitivity : Option Sensitivity := none

def clearedBy (bounds : Bounds) (claim : Payload) : Except PyError Bool :=
  match bounds.maxSensitivity with
  | none => .ok true
  | some limit => do pure ((← sensitivityOf claim).rank ≤ limit.rank)

def validBy (bounds : Bounds) (claim : Payload) : Except PyError Bool :=
  match bounds.validAt with
  | none => .ok true
  | some validAt => validWithin claim validAt

def knownBy (bounds : Bounds) (claim : Payload) : Except PyError Bool :=
  match bounds.knownAt with
  | none => .ok true
  | some knownAt => do
    match ← timeAt claim "recorded_at" with
    | some recorded => pure (!(← knownAt.lt recorded))
    | none => pure true

/-- The checks of one claim, in turn. -/
def visible (bounds : Bounds) (claim : Payload) : Except PyError Bool := do
  if ← clearedBy bounds claim then
    if ← validBy bounds claim then knownBy bounds claim else pure false
  else pure false

/-- The accepted claims still standing, by identifier. -/
def standing (s : TwinState) : List String :=
  s.acceptedClaimIds.toList.filter fun id =>
    !(s.staleClaimIds.contains id || s.retiredClaimIds.contains id ||
      s.supersededClaimIds.contains id)

/-- The claims among `ids` that are visible. -/
def visibleAmong (s : TwinState) (bounds : Bounds) (ids : List String) :
    Except PyError (List Payload) := do
  let claims ← ids.mapM fun id => do
    match s.claims[id]? with
    | none => .error (.keyError id)
    | some claim => pure (if ← visible bounds claim then some claim else none)
  pure (claims.filterMap id)

def acceptedClaims (s : TwinState) (bounds : Bounds) : Except PyError (List Payload) :=
  s.visibleAmong bounds s.standing

theorem mem_standing {s : TwinState} {id : String} : id ∈ s.standing ↔
    id ∈ s.acceptedClaimIds ∧ id ∉ s.staleClaimIds ∧ id ∉ s.retiredClaimIds ∧
      id ∉ s.supersededClaimIds := by
  simp only [standing, List.mem_filter, Std.ExtTreeSet.mem_toList, Bool.not_eq_true',
    Bool.or_eq_false_iff, and_assoc, Std.ExtTreeSet.mem_iff_contains, Bool.not_eq_true]

/-- What is listed is a record of the state under one of the identifiers. -/
theorem mem_visibleAmong {s : TwinState} {bounds : Bounds} {ids : List String}
    {claims : List Payload} (h : s.visibleAmong bounds ids = .ok claims) {claim : Payload}
    (hclaim : claim ∈ claims) : ∃ id ∈ ids, s.claims[id]? = some claim := by
  simp only [visibleAmong, bind_eq_ok] at h
  obtain ⟨found, hfound, hclaims⟩ := h
  obtain rfl : found.filterMap id = claims := Except.ok.inj hclaims
  obtain ⟨entry, hentry, rfl⟩ : ∃ entry ∈ found, entry = some claim := by
    simpa using hclaim
  clear hclaims hclaim
  induction ids generalizing found with
  | nil =>
    rw [List.mapM_nil] at hfound
    cases hfound
    cases hentry
  | cons id ids ih =>
    simp only [List.mapM_cons, bind_eq_ok] at hfound
    obtain ⟨first, hfirst, rest, hrest, hcons⟩ := hfound
    cases hcons
    rcases List.mem_cons.1 hentry with rfl | hentry
    · refine ⟨id, List.mem_cons_self, ?_⟩
      cases hlookup : s.claims[id]? with
      | none => simp [hlookup] at hfirst
      | some stored =>
        simp only [hlookup, bind_eq_ok] at hfirst
        obtain ⟨shown, -, hshown⟩ := hfirst
        cases shown <;> simp_all [pure, Except.pure]
    · obtain ⟨id', hid, hstored⟩ := ih _ hrest hentry
      exact ⟨id', List.mem_cons_of_mem _ hid, hstored⟩

/-- **What `accepted_claims` returns** is accepted, and neither stale,
retired nor superseded. -/
theorem mem_acceptedClaims {s : TwinState} {bounds : Bounds} {claims : List Payload}
    (h : s.acceptedClaims bounds = .ok claims) {claim : Payload} (hclaim : claim ∈ claims) :
    ∃ id, s.claims[id]? = some claim ∧ id ∈ s.acceptedClaimIds ∧ id ∉ s.staleClaimIds ∧
      id ∉ s.retiredClaimIds ∧ id ∉ s.supersededClaimIds := by
  obtain ⟨id, hid, hstored⟩ := mem_visibleAmong h hclaim
  exact ⟨id, hstored, mem_standing.1 hid⟩

end TwinState

end ArgoTwin
