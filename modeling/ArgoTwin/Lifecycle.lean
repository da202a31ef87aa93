import ArgoTwin.Disclosure
import ArgoTwin.ReadBack
import ArgoTwin.ValidTime
/-!
# The collections of a state agree

A state keeps its records under their names, and sets of names that mark
them. What has to agree is stated of the collections alone, one group at
a time, with a lemma for each way an event changes the group; a step of
`apply`, a snapshot and a valid-time view then keep it all.
-/

namespace ArgoTwin

open Library TwinAggregate

/-- The standing of claims: accepted, contested or gone, one at most, and
marks only on claims there are. -/
structure ClaimSets (claims : Dict Payload)
    (accepted contested retired superseded stale : IdSet) : Prop where
  accepted_contested : ∀ id ∈ accepted, id ∉ contested
  accepted_gone : ∀ id ∈ accepted, id ∉ retired ∧ id ∉ superseded
  contested_gone : ∀ id ∈ contested, id ∉ retired ∧ id ∉ superseded
  accepted_known : ∀ id ∈ accepted, id ∈ claims
  contested_known : ∀ id ∈ contested, id ∈ claims
  retired_known : ∀ id ∈ retired, id ∈ claims
  superseded_known : ∀ id ∈ superseded, id ∈ claims
  stale_known : ∀ id ∈ stale, id ∈ claims

/-- Marks on records there are. -/
structure Marks (records : Dict Payload) (first second : IdSet) : Prop where
  first_known : ∀ id ∈ first, id ∈ records
  second_known : ∀ id ∈ second, id ∈ records

/-- Contradictions name known claims, and those resolved are those
adjudicated. -/
structure Disputes (claims contradictions adjudications : Dict Payload) (resolved : IdSet) :
    Prop where
  resolved_iff : ∀ id, id ∈ resolved ↔ id ∈ adjudications
  resolved_known : ∀ id ∈ resolved, id ∈ contradictions
  claims_known : ∀ (id : String) (contradiction : Payload), contradictions[id]? = some contradiction →
    ∃ claimIds, (contradiction.listD "claim_ids").pyIter = .ok claimIds ∧
      ∀ item ∈ claimIds, item.pyStr ∈ claims

/-- Every record is of the subject, as text. -/
def CarriesSubject (subjectId : Option String) (records : Dict Payload) : Prop :=
  ∀ (id : String) (record : Payload), records[id]? = some record →
    ∃ value, record["subject_id"]? = some value ∧ subjectId = some value.pyStr

/-- **The collections of a state agree.** -/
structure Consistent (s : TwinState) : Prop where
  claims : ClaimSets s.claims s.acceptedClaimIds s.contestedClaimIds s.retiredClaimIds
    s.supersededClaimIds s.staleClaimIds
  links : Marks s.entityLinks s.unlinkedEntityIds s.staleEntityLinkIds
  disputes : Disputes s.claims s.contradictions s.adjudications s.resolvedContradictionIds
  projections : Marks s.issuedProjections s.revokedProjectionIds s.staleProjectionIds
  evidence_subject : CarriesSubject s.subjectId s.evidence
  claims_subject : CarriesSubject s.subjectId s.claims
  links_subject : CarriesSubject s.subjectId s.entityLinks

/-- An adjudication is kept under the contradiction it names. -/
def Filed (adjudications : Dict Payload) : Prop :=
  ∀ (id : String) (adjudication : Payload), adjudications[id]? = some adjudication →
    idOf adjudication "contradiction_id" = id

/-! ## The standing of claims -/

section Claims

variable {claims claims' : Dict Payload} {accepted contested retired superseded stale : IdSet}
variable {claimId : String} {record : Payload}

theorem ClaimSets.propose (h : ClaimSets claims accepted contested retired superseded stale) :
    ClaimSets (claims.insert claimId record) accepted contested retired superseded stale where
  accepted_contested := h.accepted_contested
  accepted_gone := h.accepted_gone
  contested_gone := h.contested_gone
  accepted_known id hid := mem_dict_insert.2 (.inr (h.accepted_known id hid))
  contested_known id hid := mem_dict_insert.2 (.inr (h.contested_known id hid))
  retired_known id hid := mem_dict_insert.2 (.inr (h.retired_known id hid))
  superseded_known id hid := mem_dict_insert.2 (.inr (h.superseded_known id hid))
  stale_known id hid := mem_dict_insert.2 (.inr (h.stale_known id hid))

theorem ClaimSets.accept (h : ClaimSets claims accepted contested retired superseded stale)
    (hknown : claimId ∈ claims) (hretired : claimId ∉ retired)
    (hsuperseded : claimId ∉ superseded) :
    ClaimSets claims (accepted.insert claimId) (contested.erase claimId) retired superseded
      stale where
  accepted_contested id hid hboth := by
    rw [mem_set_erase] at hboth
    rcases mem_set_insert.1 hid with heq | hold
    · exact hboth.1 heq
    · exact h.accepted_contested id hold hboth.2
  accepted_gone id hid := by
    rcases mem_set_insert.1 hid with rfl | hold
    · exact ⟨hretired, hsuperseded⟩
    · exact h.accepted_gone id hold
  contested_gone id hid := h.contested_gone id (mem_set_erase.1 hid).2
  accepted_known id hid := by
    rcases mem_set_insert.1 hid with rfl | hold
    · exact hknown
    · exact h.accepted_known id hold
  contested_known id hid := h.contested_known id (mem_set_erase.1 hid).2
  retired_known := h.retired_known
  superseded_known := h.superseded_known
  stale_known := h.stale_known

/-- Contesting is accepting with the two sets exchanged. -/
theorem ClaimSets.symm (h : ClaimSets claims accepted contested retired superseded stale) :
    ClaimSets claims contested accepted retired superseded stale where
  accepted_contested id hid hid' := h.accepted_contested id hid' hid
  accepted_gone := h.contested_gone
  contested_gone := h.accepted_gone
  accepted_known := h.contested_known
  contested_known := h.accepted_known
  retired_known := h.retired_known
  superseded_known := h.superseded_known
  stale_known := h.stale_known

/-- A claim that leaves both sets may be retired. -/
theorem ClaimSets.retire (h : ClaimSets claims accepted contested retired superseded stale)
    (hknown : claimId ∈ claims) :
    ClaimSets claims (accepted.erase claimId) (contested.erase claimId) (retired.insert claimId)
      superseded stale where
  accepted_contested id hid hboth :=
    h.accepted_contested id (mem_set_erase.1 hid).2 (mem_set_erase.1 hboth).2
  accepted_gone id hid := by
    obtain ⟨hne, hold⟩ := mem_set_erase.1 hid
    obtain ⟨hretired, hsuperseded⟩ := h.accepted_gone id hold
    refine ⟨fun hgone => ?_, hsuperseded⟩
    rcases mem_set_insert.1 hgone with heq | hgone
    · exact hne heq
    · exact hretired hgone
  contested_gone id hid := by
    obtain ⟨hne, hold⟩ := mem_set_erase.1 hid
    obtain ⟨hretired, hsuperseded⟩ := h.contested_gone id hold
    refine ⟨fun hgone => ?_, hsuperseded⟩
    rcases mem_set_insert.1 hgone with heq | hgone
    · exact hne heq
    · exact hretired hgone
  accepted_known id hid := h.accepted_known id (mem_set_erase.1 hid).2
  contested_known id hid := h.contested_known id (mem_set_erase.1 hid).2
  retired_known id hid := by
    rcases mem_set_insert.1 hid with rfl | hold
    · exact hknown
    · exact h.retired_known id hold
  superseded_known := h.superseded_known
  stale_known := h.stale_known

/-- Retired and superseded are treated alike. -/
theorem ClaimSets.swapGone (h : ClaimSets claims accepted contested retired superseded stale) :
    ClaimSets claims accepted contested superseded retired stale where
  accepted_contested := h.accepted_contested
  accepted_gone id hid := (h.accepted_gone id hid).symm
  contested_gone id hid := (h.contested_gone id hid).symm
  accepted_known := h.accepted_known
  contested_known := h.contested_known
  retired_known := h.superseded_known
  superseded_known := h.retired_known
  stale_known := h.stale_known

theorem ClaimSets.mark (h : ClaimSets claims accepted contested retired superseded stale)
    (p : Payload → Except PyError Bool) :
    ClaimSets claims accepted contested retired superseded (marked claims p stale) where
  accepted_contested := h.accepted_contested
  accepted_gone := h.accepted_gone
  contested_gone := h.contested_gone
  accepted_known := h.accepted_known
  contested_known := h.contested_known
  retired_known := h.retired_known
  superseded_known := h.superseded_known
  stale_known id hid := by
    rcases mem_marked.1 hid with hold | ⟨record, hrecord, -⟩
    · exact h.stale_known id hold
    · exact mem_of_getElem? hrecord

/-- Cut down to the claims kept, the sets still agree. -/
theorem ClaimSets.restrict (h : ClaimSets claims accepted contested retired superseded stale) :
    ClaimSets claims' (among accepted claims') (among contested claims') (among retired claims')
      (among superseded claims') (among stale claims') := by
  constructor <;> intro id hid <;> simp only [mem_among] at hid ⊢
  · exact fun hboth => h.accepted_contested id hid.1 hboth.1
  · exact ⟨fun hgone => (h.accepted_gone id hid.1).1 hgone.1,
      fun hgone => (h.accepted_gone id hid.1).2 hgone.1⟩
  · exact ⟨fun hgone => (h.contested_gone id hid.1).1 hgone.1,
      fun hgone => (h.contested_gone id hid.1).2 hgone.1⟩
  all_goals exact hid.2

end Claims

/-! ## The other groups -/

section Groups

variable {records records' claims claims' contradictions adjudications : Dict Payload}
variable {first second resolved : IdSet} {id : String} {record : Payload}
variable {subjectId : Option String}

theorem Marks.enter (h : Marks records first second) :
    Marks (records.insert id record) first second where
  first_known k hk := mem_dict_insert.2 (.inr (h.first_known k hk))
  second_known k hk := mem_dict_insert.2 (.inr (h.second_known k hk))

theorem Marks.insert (h : Marks records first second) (hknown : id ∈ records) :
    Marks records (first.insert id) second where
  first_known k hk := by
    rcases mem_set_insert.1 hk with rfl | hold
    · exact hknown
    · exact h.first_known k hold
  second_known := h.second_known

theorem Marks.mark (h : Marks records first second) (p : Payload → Except PyError Bool) :
    Marks records first (marked records p second) where
  first_known := h.first_known
  second_known k hk := by
    rcases mem_marked.1 hk with hold | ⟨record, hrecord, -⟩
    · exact h.second_known k hold
    · exact mem_of_getElem? hrecord

theorem Marks.restrict : Marks records (among first records) (among second records) where
  first_known _ hk := (mem_among.1 hk).2
  second_known _ hk := (mem_among.1 hk).2

theorem Disputes.propose (h : Disputes claims contradictions adjudications resolved) :
    Disputes (claims.insert id record) contradictions adjudications resolved where
  resolved_iff := h.resolved_iff
  resolved_known := h.resolved_known
  claims_known k contradiction hk := by
    obtain ⟨claimIds, hread, hknown⟩ := h.claims_known k contradiction hk
    exact ⟨claimIds, hread, fun item hitem => mem_dict_insert.2 (.inr (hknown item hitem))⟩

theorem Disputes.detect (h : Disputes claims contradictions adjudications resolved)
    {claimIds : List Json} (hread : (record.listD "claim_ids").pyIter = .ok claimIds)
    (hknown : ∀ item ∈ claimIds, item.pyStr ∈ claims) :
    Disputes claims (contradictions.insert id record) adjudications resolved where
  resolved_iff := h.resolved_iff
  resolved_known k hk := mem_dict_insert.2 (.inr (h.resolved_known k hk))
  claims_known k contradiction hk := by
    rw [getElem?_insert] at hk
    split at hk
    · obtain rfl := Option.some.inj hk
      exact ⟨claimIds, hread, hknown⟩
    · exact h.claims_known k contradiction hk

theorem Disputes.adjudicate (h : Disputes claims contradictions adjudications resolved)
    (hknown : id ∈ contradictions) :
    Disputes claims contradictions (adjudications.insert id record) (resolved.insert id) where
  resolved_iff k := by rw [mem_set_insert, mem_dict_insert, h.resolved_iff]
  resolved_known k hk := by
    rcases mem_set_insert.1 hk with rfl | hold
    · exact hknown
    · exact h.resolved_known k hold
  claims_known := h.claims_known

theorem CarriesSubject.enter (h : CarriesSubject subjectId records) {subject : String}
    (hsubject : "subject_id" ∈ record) (heq : idOf record "subject_id" = subject)
    (hbinds : subjectId = none ∨ subjectId = some subject) :
    CarriesSubject (some subject) (records.insert id record) := by
  intro k r hr
  rw [getElem?_insert] at hr
  split at hr
  · obtain rfl := Option.some.inj hr
    obtain ⟨value, hvalue⟩ := mem_iff_getElem?.1 hsubject
    refine ⟨value, hvalue, congrArg some ?_⟩
    rw [← heq, idOf, Payload.strD, hvalue]
  · obtain ⟨value, hvalue, hcarried⟩ := h k r hr
    rcases hbinds with hnone | hsome
    · rw [hnone] at hcarried
      cases hcarried
    · exact ⟨value, hvalue, hsome ▸ hcarried⟩

/-- Binding the subject changes what the records carry in nothing. -/
theorem CarriesSubject.bind (h : CarriesSubject subjectId records) {subject : String}
    (hbinds : subjectId = none ∨ subjectId = some subject) :
    CarriesSubject (some subject) records := by
  intro k r hr
  obtain ⟨value, hvalue, hcarried⟩ := h k r hr
  rcases hbinds with hnone | hsome
  · rw [hnone] at hcarried
    cases hcarried
  · exact ⟨value, hvalue, hsome ▸ hcarried⟩

/-- Records left out leave the others as they are. -/
theorem CarriesSubject.subset (h : CarriesSubject subjectId records)
    (hsub : ∀ (k : String) r, records'[k]? = some r → records[k]? = some r) :
    CarriesSubject subjectId records' := fun k r hr => h k r (hsub k r hr)

end Groups

/-! ## One event -/

variable {s t : TwinState} {e : EventEnvelope} {es : List EventEnvelope} {twinId : String}

/-- What a stream keeps: the collections agree, and adjudications are filed
under their contradictions. -/
structure Kept (s : TwinState) : Prop where
  consistent : Consistent s
  filed : Filed s.adjudications

theorem mem_recorded {key : String} (h : key ∈ e.payload) : key ∈ recorded e :=
  mem_dict_insert.2 (.inr h)

/-- A record is its payload, but for the time it was recorded. -/
theorem idOf_recorded {key : String} (h : "recorded_at" ≠ key) :
    idOf (recorded e) key = idOf e.payload key := by
  rw [idOf, idOf, Payload.strD, Payload.strD, recorded, getElem?_insert, if_neg h]

theorem Consistent.bindIfNamed (h : Consistent s)
    (hbinds : ∀ subjectId, EventOwnershipPolicy.payloadSubject e.payload = some subjectId →
      Binds s subjectId) : Consistent (boundIfNamed s e.payload) := by
  unfold boundIfNamed
  cases hsubject : EventOwnershipPolicy.payloadSubject e.payload with
  | none => exact h
  | some subjectId =>
    have hbinds := (hbinds subjectId hsubject).2
    exact ⟨h.claims, h.links, h.disputes, h.projections, h.evidence_subject.bind hbinds,
      h.claims_subject.bind hbinds, h.links_subject.bind hbinds⟩

/-- **An event keeps the collections in agreement**, one branch per event
type. -/
theorem consistent_effect (haccepts : Accepts e s) (h : Consistent s) :
    Consistent (effect e s) := by
  have hkind : Consistent (effectKind e s) := by
    have hallowed := haccepts.2.2
    unfold effectKind
    unfold Allowed at hallowed
    cases hk : e.kind with
    | evidenceIngested =>
      simp only [hk] at hallowed
      obtain ⟨⟨hsubject, -⟩, ⟨-, hbinds⟩, -⟩ := hallowed
      exact ⟨h.claims, h.links, h.disputes, h.projections,
        h.evidence_subject.enter hsubject rfl hbinds, h.claims_subject.bind hbinds,
        h.links_subject.bind hbinds⟩
    | entityLinked =>
      simp only [hk] at hallowed
      obtain ⟨⟨hsubject, -⟩, ⟨-, hbinds⟩, -⟩ := hallowed
      exact ⟨h.claims, h.links.enter, h.disputes, h.projections,
        h.evidence_subject.bind hbinds, h.claims_subject.bind hbinds,
        h.links_subject.enter (mem_recorded hsubject) (idOf_recorded (by decide)) hbinds⟩
    | entityUnlinked =>
      simp only [hk] at hallowed
      exact { h with links := h.links.insert hallowed.2.1 }
    | evidenceDeleted =>
      -- the record goes; what cites it is marked and stays
      have hkept : ∀ (k : String) r,
          (s.evidence.erase (idOf e.payload "evidence_id"))[k]? = some r →
            s.evidence[k]? = some r := by
        intro k r hr
        rw [getElem?_erase] at hr
        split at hr
        · cases hr
        · exact hr
      exact ⟨h.claims.mark _, h.links.mark _, h.disputes, h.projections.mark _,
        h.evidence_subject.subset hkept,
        h.claims_subject, h.links_subject⟩
    | claimProposed =>
      simp only [hk] at hallowed
      obtain ⟨⟨hsubject, -⟩, ⟨-, hbinds⟩, -⟩ := hallowed
      exact ⟨h.claims.propose, h.links, h.disputes.propose, h.projections,
        h.evidence_subject.bind hbinds,
        h.claims_subject.enter (mem_recorded hsubject) (idOf_recorded (by decide)) hbinds,
        h.links_subject.bind hbinds⟩
    | claimAccepted =>
      simp only [hk] at hallowed
      obtain ⟨-, hknown, hretired, hsuperseded⟩ := hallowed
      exact { h with claims := h.claims.accept hknown hretired hsuperseded }
    | claimContested =>
      -- acceptance with the two sets exchanged
      simp only [hk] at hallowed
      obtain ⟨-, hknown, hretired, hsuperseded⟩ := hallowed
      exact { h with claims := (h.claims.symm.accept hknown hretired hsuperseded).symm }
    | claimRetired =>
      simp only [hk] at hallowed
      exact { h with claims := h.claims.retire hallowed.2 }
    | claimSuperseded =>
      simp only [hk] at hallowed
      exact { h with
        claims := (h.claims.swapGone.retire hallowed.2.2.1).swapGone
        projections := h.projections.mark _ }
    | contradictionDetected =>
      simp only [hk] at hallowed
      obtain ⟨-, -, hbinds, claimIds, hread, hknown⟩ := hallowed
      have hbound := h.bindIfNamed hbinds
      have hlist : (recorded e).listD "claim_ids" = e.payload.listD "claim_ids" := by
        simp [recorded, Payload.listD, getElem?_insert]
      have hdisputes : Disputes s.claims
          (s.contradictions.insert (idOf e.payload "contradiction_id") (recorded e))
          s.adjudications s.resolvedContradictionIds :=
        h.disputes.detect (hlist ▸ listD_of_requireList hread) hknown
      simp only
      rw [boundIfNamed_eq] at hbound ⊢
      exact { hbound with disputes := hdisputes }
    | contradictionAdjudicated =>
      simp only [hk] at hallowed
      obtain ⟨-, -, ⟨-, hbinds⟩, contradiction, -, -, -, hcontradiction, -⟩ := hallowed
      exact ⟨h.claims, h.links, h.disputes.adjudicate (mem_of_getElem? hcontradiction),
        h.projections, h.evidence_subject.bind hbinds, h.claims_subject.bind hbinds,
        h.links_subject.bind hbinds⟩
    | correctionRecorded =>
      simp only [hk] at hallowed
      obtain ⟨-, ⟨-, hbinds⟩, -, ⟨htarget, -⟩, -⟩ := hallowed
      have hevidence := h.evidence_subject.bind hbinds
      have hclaims := h.claims_subject.bind hbinds
      have hlinks := h.links_subject.bind hbinds
      simp only
      -- a correction of evidence marks as a deletion does, one of a claim supersedes it
      split
      · exact ⟨h.claims.mark _, h.links.mark _, h.disputes, h.projections.mark _, hevidence,
          hclaims, hlinks⟩
      · rename_i hclaim
        rw [Bool.not_eq_true] at hclaim
        rw [hclaim] at htarget
        exact ⟨(h.claims.swapGone.retire htarget).swapGone, h.links, h.disputes,
          h.projections.mark _, hevidence, hclaims, hlinks⟩
    | projectionRevoked =>
      simp only [hk] at hallowed
      exact { h with projections := h.projections.insert hallowed.2 }
    | projectionIssued => exact { h with projections := h.projections.enter }
    | degradationDeclared => exact { h with }
    | degradationCleared => exact { h with }
    | other => exact h
  exact { hkind with }

/-- Only an adjudication enters one, under the contradiction it names. -/
theorem filed_effect (h : Filed s.adjudications) : Filed (effect e s).adjudications := by
  have hkind : Filed (effectKind e s).adjudications := by
    unfold effectKind
    cases e.kind with
    | contradictionDetected =>
      simp only
      rw [boundIfNamed_eq]
      exact h
    | contradictionAdjudicated =>
      intro id adjudication hget
      rw [getElem?_insert] at hget
      split at hget
      · rename_i heq
        obtain rfl := Option.some.inj hget
        rw [idOf_recorded (by decide), heq]
      · exact h id adjudication hget
    | correctionRecorded =>
      simp only
      split <;> exact h
    | _ => exact h
  exact hkind

theorem Kept.step (haccepts : Accepts e s) (h : Kept s) : Kept (effect e s) :=
  ⟨consistent_effect haccepts h.consistent, filed_effect h.filed⟩

/-- A stream that is accepted keeps its state in agreement. -/
theorem kept_replay (hlegal : Legal s es) (h : Kept s) : Kept (replay s es) := by
  induction es generalizing s with
  | nil => exact h
  | cons e es ih => exact ih hlegal.2 (h.step hlegal.1)

theorem kept_blank : Kept { twinId := twinId } := by
  refine ⟨⟨?_, ?_, ?_, ?_, ?_, ?_, ?_⟩, ?_⟩ <;> (try constructor) <;> intro <;> simp

/-! ## A view -/

/-- **A valid-time view agrees where its state does.** -/
theorem consistent_selectValidAt (h : Kept s) {instant : DateTime}
    (hview : s.selectValidAt instant = .ok t) : Consistent t := by
  unfold TwinState.selectValidAt at hview
  split at hview
  · cases hview
  · simp only [bind_eq_ok] at hview
    obtain ⟨evidence, hevidence, links, hlinks, claims, hclaims, contradictions,
      hcontradictions, hview⟩ := hview
    obtain rfl := Except.ok.inj hview
    have hconsistent := h.consistent
    have hdisputes : Disputes claims contradictions
        (s.adjudications.filter fun _ adjudication =>
          contradictions.contains (adjudication.strD "contradiction_id" ""))
        (among s.resolvedContradictionIds contradictions) := by
      refine ⟨fun id => ?_, fun id hid => (mem_among.1 hid).2, fun id contradiction hid => ?_⟩
      · rw [mem_among, hconsistent.disputes.resolved_iff, mem_iff_getElem?,
          mem_iff_getElem? (d := Std.ExtTreeMap.filter _ _)]
        simp only [getElem?_filter, ← Std.ExtTreeMap.mem_iff_contains]
        constructor
        · rintro ⟨⟨adjudication, hget⟩, hkept⟩
          have hid : adjudication.strD "contradiction_id" "" = id := h.filed id adjudication hget
          exact ⟨adjudication, hget, by rwa [hid]⟩
        · rintro ⟨adjudication, hget, hkept⟩
          have hid : adjudication.strD "contradiction_id" "" = id := h.filed id adjudication hget
          exact ⟨⟨adjudication, hget⟩, by rwa [hid] at hkept⟩
      · obtain ⟨-, hamong⟩ := (getElem?_selectRecords hcontradictions).1 hid
        obtain ⟨claimIds, hread, hall⟩ := bind_eq_ok.1 hamong
        refine ⟨claimIds, hread, fun item hitem => ?_⟩
        have hall : claimIds.all (fun item => claims.contains item.pyStr) = true :=
          Except.ok.inj hall
        exact Std.ExtTreeMap.mem_iff_contains.2 (List.all_eq_true.1 hall item hitem)
    exact ⟨hconsistent.claims.restrict, Marks.restrict, hdisputes, hconsistent.projections,
      hconsistent.evidence_subject.subset fun k r hr => ((getElem?_selectRecords hevidence).1 hr).1,
      hconsistent.claims_subject.subset fun k r hr => ((getElem?_selectRecords hclaims).1 hr).1,
      hconsistent.links_subject.subset fun k r hr => ((getElem?_selectRecords hlinks).1 hr).1⟩

/-- **Lifecycle consistency.** In every state `apply` folds a stream into
from nothing, in its valid-time views and, where its events are read back as
they are, in every state read back from a snapshot of it and in the views of
that, the collections agree. -/
theorem lifecycle_consistent {s : TwinState} (h : folded { twinId := twinId } es = .ok s) :
    Consistent s ∧
      (∀ instant t, s.selectValidAt instant = .ok t → Consistent t) ∧
      ((∀ e ∈ es, e.payload.Canonical) → ∀ s', TwinState.fromDict s.toDict.reread = .ok s' →
        Consistent s' ∧ ∀ instant t, s'.selectValidAt instant = .ok t → Consistent t) := by
  obtain ⟨hlegal, rfl⟩ := folded_eq_ok.1 h
  have hkept : Kept (replay { twinId := twinId } es) := kept_replay hlegal kept_blank
  refine ⟨hkept.consistent, fun _ _ => consistent_selectValidAt hkept, fun hes s' hread => ?_⟩
  have hcanonical := canonical_replay hes (canonical_blank twinId)
  rw [hcanonical.toDict] at hread
  obtain rfl := TwinState.eq_of_fromDict_toDict hread
  exact ⟨hkept.consistent, fun _ _ => consistent_selectValidAt hkept⟩

/-- The events of a stream as the store seals them. -/
def sealedEvents [Digest] (es : List EventEnvelope) : List EventEnvelope :=
  (run History.step {} (appends es)).store.events

theorem lifecycle_consistent_deletedThenIssued :
    let _ : Digest := checksumDigest
    ∃ s s', folded { twinId := "t" } (sealedEvents deletedThenIssued) = .ok s ∧
      TwinState.fromDict s.toDict.reread = .ok s' ∧ Consistent s ∧ Consistent s' := by
  intro digest
  have hfolded : (folded { twinId := "t" } (sealedEvents deletedThenIssued)).toOption.isSome =
      true := by decide +kernel
  have hcanonical : ∀ e ∈ sealedEvents deletedThenIssued, e.payload.Canonical := by
    decide +kernel
  have hrestored : (TwinState.fromDict (replay { twinId := "t" }
      (sealedEvents deletedThenIssued)).toDict.reread).toOption.isSome = true := by decide +kernel
  generalize sealedEvents deletedThenIssued = es at hfolded hcanonical hrestored ⊢
  have hstate := folded_of_legal (legal_of_folded hfolded)
  obtain ⟨hconsistent, -, hsnapshots⟩ := lifecycle_consistent hstate
  cases hread : TwinState.fromDict (replay { twinId := "t" } es).toDict.reread with
  | ok s' => exact ⟨_, s', hstate, hread, hconsistent, (hsnapshots hcanonical s' hread).1⟩
  | error err =>
    rw [hread] at hrestored
    cases hrestored

/-- Evidence of a subject named by an object whose keys are out of order. -/
def reorderedSubject : EventEnvelope :=
  eventOf "EvidenceIngested" .ingestService
    ((evidencePayload "e1").insert "subject_id" (.obj [("b", .int 1), ("a", .int 2)])) "key-1"

/-- **A snapshot may change the subject of a record**: its keys are read back
in order, while the text the state is bound to stays. -/
theorem restored_subject_differs :
    let _ : Digest := checksumDigest
    ∃ s s', folded { twinId := "t" } (sealedEvents [reorderedSubject]) = .ok s ∧
      TwinState.fromDict s.toDict.reread = .ok s' ∧ ¬ Consistent s' := by
  intro digest
  have hlegal := legal_of_folded (show (folded { twinId := "t" }
    (sealedEvents [reorderedSubject])).toOption.isSome = true by decide +kernel)
  have hrestored : (TwinState.fromDict
      (replay { twinId := "t" } (sealedEvents [reorderedSubject])).toDict.reread).toOption.map
        (fun s' => (s'.subjectId, s'.evidence["e1"]?.map fun record => record["subject_id"]?)) =
      some (some "\x7b'b': 1, 'a': 2\x7d", some (some (.obj [("a", .int 2), ("b", .int 1)]))) := by
    decide +kernel
  cases hread : TwinState.fromDict
      (replay { twinId := "t" } (sealedEvents [reorderedSubject])).toDict.reread with
  | error err =>
    rw [hread] at hrestored
    cases hrestored
  | ok s' =>
    refine ⟨_, s', folded_of_legal hlegal, hread, fun hconsistent => ?_⟩
    rw [hread] at hrestored
    obtain ⟨hsubject, hrecord⟩ := Prod.mk.inj (Option.some.inj hrestored)
    obtain ⟨record, hget, hvalue⟩ := Option.map_eq_some_iff.1 hrecord
    obtain ⟨value, hsome, hbound⟩ := hconsistent.evidence_subject "e1" record hget
    rw [hvalue] at hsome
    rw [hsubject, ← Option.some.inj hsome] at hbound
    exact absurd hbound (by decide +kernel)

end ArgoTwin
