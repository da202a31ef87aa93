import ArgoTwin.Types
/-!
# The twin's state, and its snapshot codec

`TwinState` is what a stream of events is folded into: the records it has
seen by identifier, and sets of identifiers that mark them. `toDict` and
`fromDict` are the snapshot codec; a state that stands at a position of a
stream survives the round trip (`fromDict_toDict`).
-/

namespace ArgoTwin

structure TwinState where
  twinId : String
  subjectId : Option String := none
  sequence : Int := 0
  evidence : Dict Payload := ∅
  entityLinks : Dict Payload := ∅
  unlinkedEntityIds : IdSet := ∅
  staleEntityLinkIds : IdSet := ∅
  claims : Dict Payload := ∅
  acceptedClaimIds : IdSet := ∅
  contestedClaimIds : IdSet := ∅
  retiredClaimIds : IdSet := ∅
  supersededEvidenceIds : IdSet := ∅
  supersededClaimIds : IdSet := ∅
  contradictions : Dict Payload := ∅
  adjudications : Dict Payload := ∅
  resolvedContradictionIds : IdSet := ∅
  corrections : Dict Payload := ∅
  issuedProjections : Dict Payload := ∅
  revokedProjectionIds : IdSet := ∅
  staleClaimIds : IdSet := ∅
  staleProjectionIds : IdSet := ∅
  degradedReasons : List String := []
  lastEventHash : String := ""
  deriving DecidableEq

namespace TwinState

/-! ## Writing a state down -/

/-- A set as `to_primitive` lists it: by the JSON text of its members. -/
def idsJson (ids : IdSet) : Json :=
  .arr ((ids.toList.insertionSort fun a b => Json.quoteStr a ≤ Json.quoteStr b).map .str)

/-- Records by identifier, as an object of objects. -/
def recordsJson (records : Dict Payload) : Json :=
  .obj (records.toList.map fun record => (record.1, .ofPayload record.2))

/-- The fields of `to_dict`, in the order the class declares them. -/
def fields (s : TwinState) : List (String × Json) :=
  [("twin_id", .str s.twinId),
   ("subject_id", optStr s.subjectId),
   ("sequence", .int s.sequence),
   ("evidence", recordsJson s.evidence),
   ("entity_links", recordsJson s.entityLinks),
   ("unlinked_entity_ids", idsJson s.unlinkedEntityIds),
   ("stale_entity_link_ids", idsJson s.staleEntityLinkIds),
   ("claims", recordsJson s.claims),
   ("accepted_claim_ids", idsJson s.acceptedClaimIds),
   ("contested_claim_ids", idsJson s.contestedClaimIds),
   ("retired_claim_ids", idsJson s.retiredClaimIds),
   ("superseded_evidence_ids", idsJson s.supersededEvidenceIds),
   ("superseded_claim_ids", idsJson s.supersededClaimIds),
   ("contradictions", recordsJson s.contradictions),
   ("adjudications", recordsJson s.adjudications),
   ("resolved_contradiction_ids", idsJson s.resolvedContradictionIds),
   ("corrections", recordsJson s.corrections),
   ("issued_projections", recordsJson s.issuedProjections),
   ("revoked_projection_ids", idsJson s.revokedProjectionIds),
   ("stale_claim_ids", idsJson s.staleClaimIds),
   ("stale_projection_ids", idsJson s.staleProjectionIds),
   ("degraded_reasons", .arr (s.degradedReasons.map .str)),
   ("last_event_hash", .str s.lastEventHash)]

def toDict (s : TwinState) : Payload := Payload.ofFields s.fields

def toSnapshot [Digest] (s : TwinState) (now : Instant) : SnapshotRecord :=
  SnapshotRecord.new s.twinId s.sequence s.lastEventHash s.toDict (DateTime.utc now)

/-! ## Reading a state back -/

/-- `int(value)`. -/
def pyInt : Json → Except PyError Int
  | .int n => .ok n
  | .bool b => .ok (if b then 1 else 0)
  | .float x =>
    let whole : Int := if 0 ≤ x.exponent then x.digits * 10 ^ x.exponent.toNat
      else x.digits / 10 ^ (-x.exponent).toNat
    .ok (if x.negative then -whole else whole)
  | .str text =>
    match Json.intOfText text with
    | some n => .ok n
    | none => .error (.valueError "invalid literal for int()")
  | _ => .error (.typeError "int() argument must be a string or a number")

/-- `dict(value)`: an object, or an iterable of pairs. -/
def pyDict : Json → Except PyError Payload
  | .obj fields => .ok (Payload.ofFields fields)
  | value => do
    let items ← value.pyIter
    let pairs ← items.mapM fun item => do
      match ← item.pyIter with
      | [key, value] =>
        if key.hashable then pure (key.pyStr, value)
        else .error (.typeError "unhashable type")
      | _ => .error (.valueError "dictionary update sequence element has the wrong length")
    .ok (Payload.ofFields pairs)

/-- `{str(key): dict(item) for key, item in dict(value).items()}`. -/
def pyRecords (value : Json) : Except PyError (Dict Payload) := do
  let items ← pyDict value
  let records ← items.toList.mapM fun field => do
    pure (field.1, ← pyDict field.2)
  .ok (records.foldl (fun d record => d.insert record.1 record.2) ∅)

/-- `set(value)` of identifiers. A member that is not text has no place in
an `IdSet`, so it is refused here. -/
def pyIds (value : Json) : Except PyError IdSet := do
  let items ← value.pySet
  let ids ← items.mapM fun
    | .str id => .ok id
    | _ => .error (.typeError "identifiers are text")
  .ok (ids.foldl (fun s id => s.insert id) ∅)

def legacyRequired : List String :=
  ["twin_id", "subject_id", "sequence", "evidence", "claims", "accepted_claim_ids",
   "contested_claim_ids", "contradictions", "issued_projections", "revoked_projection_ids",
   "stale_claim_ids", "stale_projection_ids", "degraded_reasons", "last_event_hash"]

/-- The fields later versions of the state added. -/
def added : List String :=
  ["entity_links", "unlinked_entity_ids", "stale_entity_link_ids", "retired_claim_ids",
   "superseded_evidence_ids", "superseded_claim_ids", "adjudications",
   "resolved_contradiction_ids", "corrections"]

/-- The body of `from_dict`'s `try`. -/
def readFields (value : Payload) : Except PyError TwinState := do
  let records := fun key : String => pyRecords (value[key]?.getD (.obj []))
  let ids := fun key : String => pyIds (value[key]?.getD (.arr []))
  pure {
    twinId := (← value.require "twin_id").pyStr
    subjectId := match ← value.require "subject_id" with
      | .null => none
      | subject => some subject.pyStr
    sequence := ← pyInt (← value.require "sequence")
    evidence := ← records "evidence"
    entityLinks := ← records "entity_links"
    unlinkedEntityIds := ← ids "unlinked_entity_ids"
    staleEntityLinkIds := ← ids "stale_entity_link_ids"
    claims := ← records "claims"
    acceptedClaimIds := ← ids "accepted_claim_ids"
    contestedClaimIds := ← ids "contested_claim_ids"
    retiredClaimIds := ← ids "retired_claim_ids"
    supersededEvidenceIds := ← ids "superseded_evidence_ids"
    supersededClaimIds := ← ids "superseded_claim_ids"
    contradictions := ← records "contradictions"
    adjudications := ← records "adjudications"
    resolvedContradictionIds := ← ids "resolved_contradiction_ids"
    corrections := ← records "corrections"
    issuedProjections := ← records "issued_projections"
    revokedProjectionIds := ← ids "revoked_projection_ids"
    staleClaimIds := ← ids "stale_claim_ids"
    staleProjectionIds := ← ids "stale_projection_ids"
    degradedReasons := (← (← value.require "degraded_reasons").pyIter).map Json.pyStr
    lastEventHash := (← value.require "last_event_hash").pyStr }

def fromDict (value : Payload) : Except PyError TwinState :=
  if legacyRequired.any (fun key => !value.contains key) ||
      value.keys.any (fun key => !(legacyRequired ++ added).contains key) then
    .error (.invariantViolation "snapshot state fields do not match a supported TwinState")
  else
    match readFields value with
    | .error (.typeError _) | .error (.valueError _) =>
      .error (.invariantViolation "snapshot state has invalid field types")
    | .error e => .error e
    | .ok state =>
      if state.sequence < 1 ∨ state.twinId = "" ∨ state.lastEventHash = "" then
        .error (.invariantViolation "snapshot state has an invalid stream position")
      else .ok state

/-! ## The round trip -/

theorem mapM_ok {α β : Type} (f : α → β) (l : List α) :
    (l.mapM fun x => (Except.ok (f x) : Except PyError β)) = .ok (l.map f) := by
  induction l with
  | nil => rfl
  | cons x l ih => simp [List.mapM_cons, ih, bind, Except.bind, pure, Except.pure]

theorem except_ok_bind {α β : Type} (a : α) (f : α → Except PyError β) :
    (Except.ok a >>= f) = f a := rfl

theorem pyDict_obj (fields : List (String × Json)) :
    pyDict (.obj fields) = .ok (Payload.ofFields fields) := rfl

@[simp] theorem pyDict_ofPayload (p : Payload) : pyDict (.ofPayload p) = .ok p := by
  simp [Json.ofPayload, pyDict_obj]

@[simp] theorem pyRecords_recordsJson (records : Dict Payload) :
    pyRecords (recordsJson records) = .ok records := by
  have hitems : pyDict (recordsJson records) = .ok (records.map fun _ p => .ofPayload p) := by
    have hlist : records.toList.map (fun record => (record.1, Json.ofPayload record.2)) =
        (records.map fun _ p => Json.ofPayload p).toList := by
      rw [Std.ExtTreeMap.toList_map]
    rw [recordsJson, hlist, pyDict_obj, Payload.ofFields_toList]
  have hread : (records.map fun _ p => Json.ofPayload p).toList.mapM
      (fun field => do pure (field.1, ← pyDict field.2)) =
        (.ok records.toList : Except PyError _) := by
    rw [Std.ExtTreeMap.toList_map, List.mapM_map]
    simpa [Function.comp_def, bind, Except.bind, pure, Except.pure] using
      mapM_ok (fun record : String × Payload => record) records.toList
  rw [pyRecords, hitems]
  simp only [bind, Except.bind] at hread ⊢
  rw [hread]
  exact congrArg Except.ok Library.foldl_insert_toList

@[simp] theorem pyIds_idsJson (ids : IdSet) : pyIds (idsJson ids) = .ok ids := by
  have hset : ∀ l : List String, (Json.arr (l.map .str)).pySet = .ok (l.map .str) := by
    intro l
    simp [Json.pySet, Json.pyIter, bind, Except.bind, Json.hashable]
  have hread : ∀ l : List String, ((l.map Json.str).mapM fun
      | .str id => .ok id
      | _ => .error (.typeError "identifiers are text")) = (.ok l : Except PyError _) := by
    intro l
    rw [List.mapM_map]
    simpa [Function.comp_def] using mapM_ok (fun id : String => id) l
  rw [pyIds, idsJson, hset]
  simp only [bind, Except.bind]
  rw [hread]
  refine congrArg Except.ok (Library.foldl_insert_set fun id => ?_)
  rw [(List.perm_insertionSort _ _).mem_iff, Std.ExtTreeSet.mem_toList]

@[simp] theorem pyIter_strs (l : List String) :
    ((Json.arr (l.map .str)).pyIter) = .ok (l.map .str) := rfl

/-- The key set `from_dict` asks for is the one `to_dict` writes. -/
theorem keys_toDict (s : TwinState) :
    (legacyRequired.any (fun key => !s.toDict.contains key) ||
      s.toDict.keys.any (fun key => !(legacyRequired ++ added).contains key)) = false := by
  have hnames : ∀ key ∈ legacyRequired ++ added, key ∈ s.fields.map (·.1) :=
    show ∀ key ∈ legacyRequired ++ added, key ∈ ({ twinId := "" } : TwinState).fields.map (·.1) by decide
  have hknown : ∀ key ∈ s.fields.map (·.1), key ∈ legacyRequired ++ added :=
    show ∀ key ∈ ({ twinId := "" } : TwinState).fields.map (·.1), key ∈ legacyRequired ++ added by decide
  have hlegacy : legacyRequired.any (fun key => !s.toDict.contains key) = false := by
    rw [List.any_eq_false]
    intro key hkey
    have hmem := Payload.mem_ofFields.2 (hnames key (List.mem_append_left _ hkey))
    rw [toDict, Std.ExtTreeMap.mem_iff_contains.1 hmem, Bool.not_true]
    exact Bool.false_ne_true
  have hkeys : s.toDict.keys.any (fun key => !(legacyRequired ++ added).contains key) = false := by
    rw [List.any_eq_false]
    intro key hkey
    have hmem := hknown key (Payload.mem_ofFields.1 (Std.ExtTreeMap.mem_keys.1 hkey))
    rw [List.contains_eq_mem, decide_eq_true hmem, Bool.not_true]
    exact Bool.false_ne_true
  rw [hlegacy, hkeys, Bool.or_false]

/-- The fields a state is written as are read back as they were. -/
theorem readFields_toDict (s : TwinState) : readFields s.toDict = .ok s := by
  have hget : ∀ key value, s.fields.reverse.lookup key = some value →
      s.toDict[key]? = some value := by
    intro key value h
    rw [toDict, Payload.getElem?_ofFields, h]
  have hrecords : ∀ key records, s.fields.reverse.lookup key = some (recordsJson records) →
      pyRecords (s.toDict[key]?.getD (.obj [])) = .ok records := by
    intro key records h
    rw [hget key _ h, Option.getD_some, pyRecords_recordsJson]
  have hids : ∀ key ids, s.fields.reverse.lookup key = some (idsJson ids) →
      pyIds (s.toDict[key]?.getD (.arr [])) = .ok ids := by
    intro key ids h
    rw [hget key _ h, Option.getD_some, pyIds_idsJson]
  have hrequire : ∀ key value, s.fields.reverse.lookup key = some value →
      s.toDict.require key = .ok value := by
    intro key value h
    rw [Payload.require, hget key _ h]
  unfold readFields
  simp only [
    hrequire "twin_id" _ rfl, hrequire "subject_id" _ rfl, hrequire "sequence" _ rfl,
    hrequire "degraded_reasons" _ rfl, hrequire "last_event_hash" _ rfl,
    hrecords "evidence" _ rfl, hrecords "entity_links" _ rfl, hrecords "claims" _ rfl,
    hrecords "contradictions" _ rfl, hrecords "adjudications" _ rfl,
    hrecords "corrections" _ rfl, hrecords "issued_projections" _ rfl,
    hids "unlinked_entity_ids" _ rfl, hids "stale_entity_link_ids" _ rfl,
    hids "accepted_claim_ids" _ rfl, hids "contested_claim_ids" _ rfl,
    hids "retired_claim_ids" _ rfl, hids "superseded_evidence_ids" _ rfl,
    hids "superseded_claim_ids" _ rfl, hids "resolved_contradiction_ids" _ rfl,
    hids "revoked_projection_ids" _ rfl, hids "stale_claim_ids" _ rfl,
    hids "stale_projection_ids" _ rfl, pyIter_strs, except_ok_bind, pyInt]
  cases hs : s.subjectId <;>
    simp [optStr, pure, Except.pure, Function.comp_def, ← hs]

/-- **The snapshot codec.** A state at a position of a stream is read back
from what it is written as. -/
theorem fromDict_toDict {s : TwinState} (hseq : 1 ≤ s.sequence) (htwin : s.twinId ≠ "")
    (hhash : s.lastEventHash ≠ "") : fromDict s.toDict = .ok s := by
  have hpos : ¬ s.sequence < 1 := by omega
  rw [fromDict, keys_toDict, readFields_toDict]
  simp [hpos, htwin, hhash]

/-- What is read back from a state is that state. -/
theorem eq_of_fromDict_toDict {s t : TwinState} (h : fromDict s.toDict = .ok t) : t = s := by
  rw [fromDict, keys_toDict, readFields_toDict] at h
  simp only [Bool.false_eq_true, ↓reduceIte] at h
  split at h
  · cases h
  · exact (Except.ok.inj h).symm

end TwinState

end ArgoTwin
