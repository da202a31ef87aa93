import ArgoTwin.Replay
/-!
# What is read back

A payload handed to `append` is written as canonical JSON, and a replay
reads what stands there: the same payload where it is canonical, one with
its nested objects in key order otherwise. A state replayed from what was
read back holds canonical records, and its snapshot is read back as it is.
-/

namespace ArgoTwin

open Library TwinAggregate

/-- Every record under an identifier is read back as it is. -/
def CanonicalRecords (records : Dict Payload) : Prop :=
  ∀ (id : String) record, records[id]? = some record → record.Canonical

/-- Every record of the state is read back as it is. -/
structure TwinState.Canonical (s : TwinState) : Prop where
  evidence : CanonicalRecords s.evidence
  entityLinks : CanonicalRecords s.entityLinks
  claims : CanonicalRecords s.claims
  contradictions : CanonicalRecords s.contradictions
  adjudications : CanonicalRecords s.adjudications
  corrections : CanonicalRecords s.corrections
  issuedProjections : CanonicalRecords s.issuedProjections

/-- Every payload of the ledger is read back as it was handed in. -/
def Store.Canonical (s : Store) : Prop := ∀ row ∈ s.events, row.payload.Canonical

/-! ## Records -/

section Records

variable {records : Dict Payload} {id : String} {record : Payload}

theorem CanonicalRecords.insert (h : CanonicalRecords records) (hrecord : record.Canonical) :
    CanonicalRecords (records.insert id record) := by
  intro other found hfound
  rw [getElem?_insert] at hfound
  split at hfound
  · rw [← Option.some.inj hfound]
    exact hrecord
  · exact h other found hfound

theorem CanonicalRecords.erase (h : CanonicalRecords records) :
    CanonicalRecords (records.erase id) := by
  intro other found hfound
  rw [getElem?_erase] at hfound
  split at hfound
  · cases hfound
  · exact h other found hfound

theorem canonicalRecords_empty : CanonicalRecords ∅ := by
  intro id record h
  simp at h

/-- Canonical records are written as they are read back. -/
theorem CanonicalRecords.recordsJson (h : CanonicalRecords records) :
    (TwinState.recordsJson records).Canonical := by
  have hwritten : TwinState.recordsJson records =
      .ofPayload (records.map fun _ record => .ofPayload record) := by
    rw [TwinState.recordsJson, Json.ofPayload, Std.ExtTreeMap.toList_map]
  rw [hwritten, Payload.canonical_ofPayload, Payload.canonical_iff]
  intro id value hvalue
  rw [Std.ExtTreeMap.getElem?_map, Option.map_eq_some_iff] at hvalue
  obtain ⟨record, hrecord, rfl⟩ := hvalue
  exact Payload.canonical_ofPayload.2 (h id record hrecord)

end Records

/-- Texts are written as they are read back. -/
theorem canonical_strs (texts : List String) : (Json.arr (texts.map .str)).Canonical := by
  rw [Json.Canonical, Json.reread, Json.rereadItems_eq, List.map_map]
  rfl

/-! ## States -/

/-- **A state of canonical records** is read back from its snapshot as it
is. -/
theorem TwinState.Canonical.toDict {s : TwinState} (h : s.Canonical) : s.toDict.Canonical := by
  refine Payload.canonical_ofFields fun field hfield => ?_
  have hsubject : (optStr s.subjectId).Canonical := reread_optStr s.subjectId
  simp only [TwinState.fields, List.mem_cons, List.not_mem_nil, or_false] at hfield
  rcases hfield with rfl | rfl | rfl | rfl | rfl | rfl | rfl | rfl | rfl | rfl | rfl | rfl | rfl |
    rfl | rfl | rfl | rfl | rfl | rfl | rfl | rfl | rfl | rfl
  · rfl
  · exact hsubject
  · rfl
  · exact h.evidence.recordsJson
  · exact h.entityLinks.recordsJson
  · exact canonical_strs _
  · exact canonical_strs _
  · exact h.claims.recordsJson
  · exact canonical_strs _
  · exact canonical_strs _
  · exact canonical_strs _
  · exact canonical_strs _
  · exact canonical_strs _
  · exact h.contradictions.recordsJson
  · exact h.adjudications.recordsJson
  · exact canonical_strs _
  · exact h.corrections.recordsJson
  · exact h.issuedProjections.recordsJson
  · exact canonical_strs _
  · exact canonical_strs _
  · exact canonical_strs _
  · exact canonical_strs _
  · rfl

variable {e : EventEnvelope} {s : TwinState} {es : List EventEnvelope}

theorem canonical_recorded (h : e.payload.Canonical) : (recorded e).Canonical := by
  refine Payload.canonical_iff.2 fun key value hvalue => ?_
  rw [recorded, getElem?_insert] at hvalue
  split at hvalue
  · rw [← Option.some.inj hvalue]
    rfl
  · exact Payload.canonical_iff.1 h key value hvalue

/-- **A canonical event keeps a state canonical.** -/
theorem canonical_effect (he : e.payload.Canonical) (hs : s.Canonical) :
    (effect e s).Canonical := by
  have hrecorded := canonical_recorded he
  have hkind : (effectKind e s).Canonical := by
    unfold effectKind
    cases e.kind with
    | evidenceIngested => exact { hs with evidence := hs.evidence.insert he }
    | entityLinked => exact { hs with entityLinks := hs.entityLinks.insert hrecorded }
    | evidenceDeleted => exact { hs with evidence := hs.evidence.erase }
    | claimProposed => exact { hs with claims := hs.claims.insert hrecorded }
    | contradictionDetected =>
      have hcontradictions : CanonicalRecords
          (s.contradictions.insert (idOf e.payload "contradiction_id") (recorded e)) :=
        hs.contradictions.insert hrecorded
      dsimp only
      rw [boundIfNamed_eq]
      exact { hs with contradictions := hcontradictions }
    | contradictionAdjudicated =>
      exact { hs with adjudications := hs.adjudications.insert hrecorded }
    | correctionRecorded =>
      have hcorrections : CanonicalRecords
          (s.corrections.insert (idOf e.payload "correction_id") (recorded e)) :=
        hs.corrections.insert hrecorded
      dsimp only
      split
      · exact { hs with corrections := hcorrections }
      · exact { hs with corrections := hcorrections }
    | projectionIssued => exact { hs with issuedProjections := hs.issuedProjections.insert he }
    | _ => exact { hs with }
  exact { hkind with }

/-- **A replay of canonical events is canonical.** -/
theorem canonical_replay (hes : ∀ e ∈ es, e.payload.Canonical) (hs : s.Canonical) :
    (replay s es).Canonical := by
  induction es generalizing s with
  | nil => exact hs
  | cons e es ih =>
    exact ih (fun e' he' => hes e' (List.mem_cons_of_mem _ he'))
      (canonical_effect (hes e List.mem_cons_self) hs)

theorem canonical_blank (twinId : String) : ({ twinId := twinId } : TwinState).Canonical :=
  ⟨canonicalRecords_empty, canonicalRecords_empty, canonicalRecords_empty, canonicalRecords_empty,
    canonicalRecords_empty, canonicalRecords_empty, canonicalRecords_empty⟩

/-! ## Streams -/

namespace Store

/-- What is read back is canonical. -/
theorem canonical_decode (row : EventEnvelope) : (decode row).payload.Canonical :=
  Payload.canonical_reread row.payload

theorem canonical_stream {store : Store} {twinId : String} (he : e ∈ store.stream twinId) :
    e.payload.Canonical := by
  obtain ⟨row, -, rfl⟩ := List.mem_map.1 he
  exact canonical_decode row

end Store

/-- **The states of a stream are canonical**, whatever was handed in. -/
theorem canonical_stateAt (store : Store) (twinId : String) (n : Nat) :
    (stateAt store twinId n).Canonical :=
  canonical_replay (fun _ he => Store.canonical_stream (List.mem_of_mem_take he))
    (canonical_blank twinId)

end ArgoTwin
