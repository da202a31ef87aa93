import ArgoTwin.Claims
import ArgoTwin.Library.Runs
import ArgoTwin.Replay
import ArgoTwin.StoreRuns
/-!
# Provenance and staleness

A record that cites evidence which was deleted or superseded ought to be
marked stale. The marks are written where evidence goes, over the records
there are by then; `Careful` is what each event has to meet for the marks
to stay complete, and a stream keeps them complete exactly when all its
events meet it.
-/

namespace ArgoTwin

open Library TwinAggregate

/-- The record cites the evidence: a reference of its provenance names it. -/
def CitesText (record : Payload) (evidenceId : String) : Prop :=
  ∃ references reference value, (record.listD "provenance").pyIter = .ok references ∧
    reference ∈ references ∧ reference.get? "evidence_id" = some value ∧
    value.pyStr = evidenceId

/-- Every record that cites evidence gone or superseded is marked. -/
def RecordsMarked (records : Dict Payload) (stale : IdSet) (evidence : Dict Payload)
    (superseded : IdSet) : Prop :=
  ∀ id record, records[id]? = some record → ∀ evidenceId, CitesText record evidenceId →
    evidenceId ∉ evidence ∨ evidenceId ∈ superseded → id ∈ stale

/-- The loops that mark records find this evidence in them: whoever cites
it cites it as text. -/
def FoundIn (records : Dict Payload) (stale : IdSet) (evidenceId : String) : Prop :=
  ∀ id record, records[id]? = some record → id ∉ stale → CitesText record evidenceId →
    cites evidenceId record = .ok true

section Records

variable {records evidence evidence' : Dict Payload} {stale superseded superseded' : IdSet}
variable {record : Payload} {id evidenceId : String}

/-- Evidence that comes back asks for no mark. -/
theorem RecordsMarked.mono (h : RecordsMarked records stale evidence superseded)
    (hevidence : ∀ id ∈ evidence, id ∈ evidence') :
    RecordsMarked records stale evidence' superseded := by
  intro id record hrecord evidenceId hcites hgone
  exact h id record hrecord evidenceId hcites
    (hgone.imp_left fun hnot hmem => hnot (hevidence evidenceId hmem))

/-- **A new record** keeps the marks complete exactly when it cites nothing
superseded: it cites evidence the twin holds, and bears no mark yet. -/
theorem recordsMarked_insert (h : RecordsMarked records stale evidence superseded)
    (hunmarked : id ∉ stale)
    (hheld : ∀ evidenceId, CitesText record evidenceId → evidenceId ∈ evidence) :
    RecordsMarked (records.insert id record) stale evidence superseded ↔
      ∀ evidenceId, CitesText record evidenceId → evidenceId ∉ superseded := by
  constructor
  · intro hmarked evidenceId hcites hsuperseded
    exact hunmarked (hmarked id record (by simp) evidenceId hcites
      (.inr hsuperseded))
  · intro hcareful id' record' hrecord' evidenceId hcites hgone
    rw [getElem?_insert] at hrecord'
    split at hrecord'
    · cases hrecord'
      rcases hgone with hgone | hsuperseded
      · exact absurd (hheld evidenceId hcites) hgone
      · exact absurd hsuperseded (hcareful evidenceId hcites)
    · exact h id' record' hrecord' evidenceId hcites hgone

/-- **Evidence that goes** keeps the marks complete exactly when the
marking loop finds it in every record that cites it. -/
theorem recordsMarked_marked (h : RecordsMarked records stale evidence superseded)
    (hgone : ∀ id, (id ∉ evidence' ∨ id ∈ superseded') ↔
      (id ∉ evidence ∨ id ∈ superseded) ∨ id = evidenceId) :
    RecordsMarked records (marked records (cites evidenceId) stale) evidence' superseded' ↔
      FoundIn records stale evidenceId := by
  constructor
  · intro hmarked id record hrecord hfresh hcites
    have hmem := hmarked id record hrecord evidenceId hcites ((hgone evidenceId).2 (.inr rfl))
    rcases mem_marked.1 hmem with hold | ⟨record', hrecord', hfound⟩
    · exact absurd hold hfresh
    · rw [hrecord] at hrecord'
      cases hrecord'
      exact hfound
  · intro hfound id record hrecord evidenceId' hcites hgone'
    rw [mem_marked]
    rcases (hgone evidenceId').1 hgone' with hbefore | rfl
    · exact .inl (h id record hrecord evidenceId' hcites hbefore)
    · by_cases hstale : id ∈ stale
      · exact .inl hstale
      · exact .inr ⟨record, hrecord, hfound id record hrecord hstale hcites⟩

end Records

/-- **The closure**: no claim and no entity link rests on deleted or
superseded evidence unmarked. -/
structure ProvenanceMarked (s : TwinState) : Prop where
  claims : RecordsMarked s.claims s.staleClaimIds s.evidence s.supersededEvidenceIds
  links : RecordsMarked s.entityLinks s.staleEntityLinkIds s.evidence s.supersededEvidenceIds

/-- Marks are of records there are. -/
structure MarksRecords (s : TwinState) : Prop where
  claims : ∀ id ∈ s.staleClaimIds, id ∈ s.claims
  links : ∀ id ∈ s.staleEntityLinkIds, id ∈ s.entityLinks

/-- What an event has to meet: a new record cites nothing superseded, and
evidence that goes is found in the records that cite it. -/
def Careful (s : TwinState) (e : EventEnvelope) : Prop :=
  match e.kind with
  | .claimProposed | .entityLinked =>
    ∀ evidenceId, CitesText e.payload evidenceId → evidenceId ∉ s.supersededEvidenceIds
  | .evidenceDeleted =>
    FoundIn s.claims s.staleClaimIds (idOf e.payload "evidence_id") ∧
      FoundIn s.entityLinks s.staleEntityLinkIds (idOf e.payload "evidence_id")
  | .correctionRecorded => correctsEvidence e.payload = true →
    FoundIn s.claims s.staleClaimIds (idOf e.payload "target_id") ∧
      FoundIn s.entityLinks s.staleEntityLinkIds (idOf e.payload "target_id")
  | _ => True

variable {s : TwinState} {e : EventEnvelope} {es : List EventEnvelope}

/-- A stored record cites what the payload it was made of cites. -/
theorem citesText_recorded {evidenceId : String} :
    CitesText (recorded e) evidenceId ↔ CitesText e.payload evidenceId := by
  have hlist : (recorded e).listD "provenance" = e.payload.listD "provenance" := by
    simp [recorded, Payload.listD, getElem?_insert]
  rw [CitesText, CitesText, hlist]

/-- A list that has to be there is the one a default would not replace. -/
theorem listD_of_requireList {p : Payload} {key : String} {items : List Json}
    (h : requireList p key = .ok items) : (p.listD key).pyIter = .ok items := by
  obtain ⟨value, hvalue, hiter⟩ := bind_eq_ok.1 h
  rw [Payload.require] at hvalue
  cases hget : p[key]? with
  | none => simp [hget] at hvalue
  | some found =>
    rw [hget] at hvalue
    cases hvalue
    simpa [Payload.listD, hget] using hiter

/-- What an accepted record cites, the twin holds. -/
theorem held_of_supportedBy (h : SupportedBy s e.payload) {evidenceId : String}
    (hcites : CitesText e.payload evidenceId) : evidenceId ∈ s.evidence := by
  obtain ⟨references, hreferences, hsupports⟩ := h
  obtain ⟨references', reference, value, hlist, hmem, hvalue, rfl⟩ := hcites
  have hsame : references' = references := by
    rw [listD_of_requireList hreferences] at hlist
    exact (Except.ok.inj hlist).symm
  subst hsame
  obtain ⟨value', evidence, hvalue', hheld, -⟩ := hsupports reference hmem
  rw [hvalue] at hvalue'
  cases hvalue'
  exact mem_of_getElem? hheld

theorem mem_marked_of_mem {records : Dict Payload} {p : Payload → Except PyError Bool} {ids : IdSet}
    (h : ∀ id ∈ ids, id ∈ records) : ∀ id ∈ marked records p ids, id ∈ records := by
  intro id hid
  rcases mem_marked.1 hid with hold | ⟨record, hrecord, -⟩
  · exact h id hold
  · exact mem_of_getElem? hrecord

/-- An event marks records only. -/
theorem marksRecords_effect (h : MarksRecords s) : MarksRecords (effect e s) := by
  have hkind : MarksRecords (effectKind e s) := by
    unfold effectKind
    cases e.kind with
    | entityLinked =>
      exact ⟨h.claims, fun id hid => mem_dict_insert.2 (.inr (h.links id hid))⟩
    | claimProposed =>
      exact ⟨fun id hid => mem_dict_insert.2 (.inr (h.claims id hid)), h.links⟩
    | evidenceDeleted => exact ⟨mem_marked_of_mem h.claims, mem_marked_of_mem h.links⟩
    | contradictionDetected =>
      simp only
      rw [boundIfNamed_eq]
      exact ⟨h.claims, h.links⟩
    | correctionRecorded =>
      simp only
      split
      · exact ⟨mem_marked_of_mem h.claims, mem_marked_of_mem h.links⟩
      · exact ⟨h.claims, h.links⟩
    | _ => exact ⟨h.claims, h.links⟩
  exact ⟨hkind.claims, hkind.links⟩

/-- **One event keeps the closure exactly when it is careful.** -/
theorem provenanceMarked_effect (hmarks : MarksRecords s) (haccepts : Accepts e s)
    (h : ProvenanceMarked s) : ProvenanceMarked (effect e s) ↔ Careful s e := by
  have hkind : ProvenanceMarked (effectKind e s) ↔ Careful s e := by
    have hallowed := haccepts.2.2
    unfold Careful effectKind
    unfold Allowed at hallowed
    cases hk : e.kind with
    | evidenceIngested =>
      refine iff_of_true ⟨?_, ?_⟩ trivial
      · exact h.claims.mono fun id hid => mem_dict_insert.2 (.inr hid)
      · exact h.links.mono fun id hid => mem_dict_insert.2 (.inr hid)
    | claimProposed =>
      simp only [hk] at hallowed ⊢
      obtain ⟨-, -, hsupported, hnew⟩ := hallowed
      have hclaims := recordsMarked_insert h.claims (fun hstale => hnew (hmarks.claims _ hstale))
        fun evidenceId (hcites : CitesText (recorded e) evidenceId) =>
          held_of_supportedBy hsupported (citesText_recorded.1 hcites)
      simp only [citesText_recorded] at hclaims
      exact ⟨fun hmarked => hclaims.1 hmarked.claims, fun hcareful =>
        ⟨hclaims.2 hcareful, h.links⟩⟩
    | entityLinked =>
      simp only [hk] at hallowed ⊢
      obtain ⟨-, -, hsupported, hnew⟩ := hallowed
      have hlinks := recordsMarked_insert h.links (fun hstale => hnew (hmarks.links _ hstale))
        fun evidenceId (hcites : CitesText (recorded e) evidenceId) =>
          held_of_supportedBy hsupported (citesText_recorded.1 hcites)
      simp only [citesText_recorded] at hlinks
      exact ⟨fun hmarked => hlinks.1 hmarked.links, fun hcareful =>
        ⟨h.claims, hlinks.2 hcareful⟩⟩
    | evidenceDeleted =>
      have hgone : ∀ id, (id ∉ s.evidence.erase (idOf e.payload "evidence_id") ∨
          id ∈ s.supersededEvidenceIds) ↔
          (id ∉ s.evidence ∨ id ∈ s.supersededEvidenceIds) ∨
            id = idOf e.payload "evidence_id" := by
        intro id
        rw [mem_dict_erase]
        tauto
      have hclaims := recordsMarked_marked h.claims hgone
      have hlinks := recordsMarked_marked h.links hgone
      exact ⟨fun hmarked => ⟨hclaims.1 hmarked.claims, hlinks.1 hmarked.links⟩,
        fun hcareful => ⟨hclaims.2 hcareful.1, hlinks.2 hcareful.2⟩⟩
    | correctionRecorded =>
      simp only
      by_cases hevidence : correctsEvidence e.payload = true
      · have hgone : ∀ id, (id ∉ s.evidence ∨
            id ∈ s.supersededEvidenceIds.insert (idOf e.payload "target_id")) ↔
            (id ∉ s.evidence ∨ id ∈ s.supersededEvidenceIds) ∨
              id = idOf e.payload "target_id" := by
          intro id
          rw [mem_set_insert]
          tauto
        have hclaims := recordsMarked_marked h.claims hgone
        have hlinks := recordsMarked_marked h.links hgone
        rw [if_pos hevidence]
        exact ⟨fun hmarked _ => ⟨hclaims.1 hmarked.claims, hlinks.1 hmarked.links⟩,
          fun hcareful => ⟨hclaims.2 (hcareful hevidence).1, hlinks.2 (hcareful hevidence).2⟩⟩
      · rw [if_neg hevidence]
        exact iff_of_true ⟨h.claims, h.links⟩ fun habsurd => absurd habsurd hevidence
    | contradictionDetected =>
      simp only
      rw [boundIfNamed_eq]
      exact iff_of_true ⟨h.claims, h.links⟩ trivial
    | _ => exact iff_of_true ⟨h.claims, h.links⟩ trivial
  refine Iff.trans ?_ hkind
  exact ⟨fun hmarked => ⟨hmarked.claims, hmarked.links⟩, fun hmarked =>
    ⟨hmarked.claims, hmarked.links⟩⟩

/-- What `accepted_claims` lists rests on evidence the twin holds and no
correction superseded. -/
def VouchesForHeld (s : TwinState) : Prop :=
  ∀ bounds claims, s.acceptedClaims bounds = .ok claims → ∀ claim ∈ claims,
    ∀ evidenceId, CitesText claim evidenceId →
      evidenceId ∈ s.evidence ∧ evidenceId ∉ s.supersededEvidenceIds

/-- Complete marks keep retracted evidence out of the accepted claims. -/
theorem ProvenanceMarked.vouchesForHeld (h : ProvenanceMarked s) : VouchesForHeld s := by
  intro bounds claims hclaims claim hmem evidenceId hcites
  obtain ⟨id, hstored, -, hfresh, -⟩ := TwinState.mem_acceptedClaims hclaims hmem
  by_contra hgone
  rw [not_and_or, not_not] at hgone
  exact hfresh (h.claims id claim hstored evidenceId hcites hgone)

/-- **Staleness is complete along a stream exactly when its events are
careful**: every state on the way marks what rests on retracted evidence,
and lists no such claim among the accepted. -/
theorem provenance_marked_iff {twinId : String} (hlegal : Legal { twinId := twinId } es) :
    (∀ n, ProvenanceMarked (replay { twinId := twinId } (es.take n)) ∧
        VouchesForHeld (replay { twinId := twinId } (es.take n))) ↔
      ∀ n e, es[n]? = some e → Careful (replay { twinId := twinId } (es.take n)) e := by
  have hmarked : (∀ n, ProvenanceMarked (replay { twinId := twinId } (es.take n))) ↔
      ∀ n e, es[n]? = some e → Careful (replay { twinId := twinId } (es.take n)) e :=
    always_iff (fun s e => effect e s) MarksRecords ProvenanceMarked (fun s e => Accepts e s)
      Careful ⟨by simp, by simp⟩
      ⟨fun id record hrecord => by simp at hrecord, fun id record hrecord => by simp at hrecord⟩
      (fun s e hmarks _ => marksRecords_effect hmarks)
      (fun s e hmarks haccepts h => provenanceMarked_effect hmarks haccepts h)
      (legal_iff.1 hlegal)
  rw [← hmarked]
  exact ⟨fun h n => (h n).1, fun h n => ⟨h n, (h n).vouchesForHeld⟩⟩

/-- An event as a writer of the role hands it in. -/
def eventOf (eventType : String) (role : ProducerRole) (payload : Payload) (key : String) :
    EventEnvelope :=
  EventEnvelope.new "t" eventType .authoritative payload "writer" role key none none ⟨0, key⟩

/-- A claim of the subject `s` that rests on one piece of evidence. -/
def claimPayload (claimId evidenceId : String) : Payload :=
  Payload.ofFields
    [("claim_id", .str claimId), ("subject_id", .str "s"), ("statement", .str "holds"),
     ("epistemic", Json.object (epistemicDimensions.map fun name => (name, .int 1))),
     ("provenance", .arr [Json.object [("evidence_id", .str evidenceId),
       ("relation", .str "supports"), ("independence_group", .str "g")]])]

/-- A correction that puts one piece of evidence in another's place. -/
def correctionPayload (targetId replacementId : String) : Payload :=
  Payload.ofFields
    [("correction_id", .str "r1"), ("subject_id", .str "s"), ("target_kind", .str "evidence"),
     ("target_id", .str targetId), ("replacement_id", .str replacementId),
     ("reviewer_identity_id", .str "reviewer"), ("rationale", .str "recalibrated")]

/-- Two pieces of evidence, the first superseded by the second. -/
def correctedEvidence : List EventEnvelope :=
  [eventOf "EvidenceIngested" .ingestService (evidencePayload "e1") "key-1",
   eventOf "EvidenceIngested" .ingestService (evidencePayload "e2") "key-2",
   eventOf "CorrectionRecorded" .humanReview (correctionPayload "e1" "e2") "key-3"]

/-- A claim proposed on the evidence, and accepted. -/
def acceptedClaimOn (evidenceId : String) : List EventEnvelope :=
  [eventOf "ClaimProposed" .adjudicationWorker (claimPayload "c1" evidenceId) "key-4",
   eventOf "ClaimAccepted" .humanReview (Payload.ofFields [("claim_id", .str "c1")]) "key-5"]

/-- **The mark missed**: a claim proposed on evidence superseded before is
accepted, stays unmarked, and is listed. -/
theorem superseded_evidence_vouched :
    ∃ s, folded { twinId := "t" } (correctedEvidence ++ acceptedClaimOn "e1") = .ok s ∧
      ¬ ProvenanceMarked s ∧ ¬ VouchesForHeld s := by
  let claim := recorded (eventOf "ClaimProposed" .adjudicationWorker (claimPayload "c1" "e1")
    "key-4")
  let s := replay { twinId := "t" } (correctedEvidence ++ acceptedClaimOn "e1")
  have hclaim : s.claims["c1"]? = some claim := by decide +kernel
  have hcites : CitesText claim "e1" :=
    ⟨[Json.object [("evidence_id", .str "e1"), ("relation", .str "supports"),
      ("independence_group", .str "g")]], _, .str "e1", by decide +kernel, List.mem_cons_self,
      by decide +kernel, rfl⟩
  have hsuperseded : "e1" ∈ s.supersededEvidenceIds := by decide +kernel
  have hlisted : s.acceptedClaims {} = .ok [claim] := by decide +kernel
  refine ⟨s, by decide +kernel, ?_, ?_⟩
  · intro h
    have hmarked : "c1" ∈ s.staleClaimIds := h.claims "c1" claim hclaim "e1" hcites (.inr hsuperseded)
    have hunmarked : "c1" ∉ s.staleClaimIds := by decide +kernel
    exact hunmarked hmarked
  · intro h
    exact (h {} [claim] hlisted claim List.mem_cons_self "e1" hcites).2 hsuperseded

/-- A claim on the evidence that replaced it is a careful stream. -/
theorem provenance_marked_iff_replacement :
    Legal { twinId := "t" } (correctedEvidence ++ acceptedClaimOn "e2") ∧
      ((∀ n, ProvenanceMarked (replay { twinId := "t" }
            ((correctedEvidence ++ acceptedClaimOn "e2").take n)) ∧
          VouchesForHeld (replay { twinId := "t" }
            ((correctedEvidence ++ acceptedClaimOn "e2").take n))) ↔
        ∀ n e, (correctedEvidence ++ acceptedClaimOn "e2")[n]? = some e →
          Careful (replay { twinId := "t" }
            ((correctedEvidence ++ acceptedClaimOn "e2").take n)) e) := by
  have hlegal : Legal { twinId := "t" } (correctedEvidence ++ acceptedClaimOn "e2") :=
    ((folded_eq_ok (t := replay { twinId := "t" } (correctedEvidence ++ acceptedClaimOn "e2"))).1
      (by decide +kernel)).1
  exact ⟨hlegal, provenance_marked_iff hlegal⟩

end ArgoTwin
