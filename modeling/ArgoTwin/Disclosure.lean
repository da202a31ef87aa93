import ArgoTwin.LedgerRuns
import ArgoTwin.Staleness
/-!
# Projections and stale claims

A projection discloses claims, and is marked stale when one of them is
found to be stale or superseded. The marks are written by the events that
retract, over the projections there are by then; an issue looks at no
mark. As for provenance, a stream keeps the marks complete exactly when
each of its events meets a condition, here `Discreet`.
-/

namespace ArgoTwin

open Library TwinAggregate

/-- The projection was compiled from the claim. -/
def SourcesText (projection : Payload) (claimId : String) : Prop :=
  ∃ items item, (projection.listD "source_claim_ids").pyIter = .ok items ∧ item ∈ items ∧
    item.pyStr = claimId

/-- It names the claim with a text, as the raw comparisons read it. -/
def SourcesRaw (projection : Payload) (claimId : String) : Prop :=
  ∃ items, (projection.listD "source_claim_ids").pyIter = .ok items ∧ .str claimId ∈ items

/-- The claim is found to cite the evidence. -/
def Struck (claims : Dict Payload) (evidenceId claimId : String) : Prop :=
  ∃ claim, claims[claimId]? = some claim ∧ cites evidenceId claim = .ok true

/-- **The closure**: a projection of a claim that is stale or superseded is
marked. -/
def ProjectionsMarked (s : TwinState) : Prop :=
  ∀ id projection, s.issuedProjections[id]? = some projection → ∀ claimId,
    SourcesText projection claimId →
    claimId ∈ s.staleClaimIds ∨ claimId ∈ s.supersededClaimIds → id ∈ s.staleProjectionIds

/-- Marks are of projections there are. -/
def MarksProjections (s : TwinState) : Prop :=
  ∀ id ∈ s.staleProjectionIds, id ∈ s.issuedProjections

/-- What an event has to meet: what is issued names no claim stale or
superseded by then, and where claims are struck or superseded, the
projections of them name one of them with a text. -/
def Discreet (s : TwinState) (e : EventEnvelope) : Prop :=
  match e.kind with
  | .projectionIssued => ∀ claimId, SourcesText e.payload claimId →
      claimId ∉ s.staleClaimIds ∧ claimId ∉ s.supersededClaimIds
  | .evidenceDeleted => ∀ id projection, s.issuedProjections[id]? = some projection →
      id ∉ s.staleProjectionIds →
      (∃ claimId, SourcesText projection claimId ∧
        Struck s.claims (idOf e.payload "evidence_id") claimId) →
      ∃ claimId, SourcesRaw projection claimId ∧
        Struck s.claims (idOf e.payload "evidence_id") claimId
  | .claimSuperseded => ∀ id projection, s.issuedProjections[id]? = some projection →
      id ∉ s.staleProjectionIds → SourcesText projection (idOf e.payload "claim_id") →
      SourcesRaw projection (idOf e.payload "claim_id")
  | _ => True

variable {s : TwinState} {e : EventEnvelope} {es : List EventEnvelope} {projection : Payload}
variable {ids : IdSet}

theorem SourcesRaw.text {claimId : String} (h : SourcesRaw projection claimId) :
    SourcesText projection claimId := by
  obtain ⟨items, hitems, hmem⟩ := h
  exact ⟨items, .str claimId, hitems, hmem, rfl⟩

/-- Reading the sources as texts finds a member where one is named. -/
theorem compiledFromText_eq_true : compiledFromText ids projection = .ok true ↔
    ∃ claimId ∈ ids, SourcesText projection claimId := by
  simp only [compiledFromText, bind_eq_ok, pure, Except.pure, Except.ok.injEq, List.any_eq_true,
    Std.ExtTreeSet.contains_iff_mem]
  constructor
  · rintro ⟨items, hitems, item, hitem, hmem⟩
    exact ⟨_, hmem, items, item, hitems, hitem, rfl⟩
  · rintro ⟨_, hmem, items, item, hitems, hitem, rfl⟩
    exact ⟨items, hitems, item, hitem, hmem⟩

/-- Reading them raw finds the members that are named with texts. -/
theorem compiledFrom_eq_true (hreadable : ∃ b, compiledFrom ids projection = .ok b) :
    compiledFrom ids projection = .ok true ↔ ∃ claimId ∈ ids, SourcesRaw projection claimId := by
  obtain ⟨b, hb⟩ := hreadable
  obtain ⟨members, hset, -⟩ := bind_eq_ok.1 hb
  have hitems : (projection.listD "source_claim_ids").pyIter = .ok members := by
    obtain ⟨items, hitems, hmembers⟩ := bind_eq_ok.1 hset
    split at hmembers
    · cases hmembers
      exact hitems
    · cases hmembers
  simp only [compiledFrom, hset, bind, Except.bind, pure, Except.pure, Except.ok.injEq,
    List.any_eq_true]
  constructor
  · rintro ⟨item, hitem, hfound⟩
    cases item with
    | str claimId =>
      exact ⟨claimId, Std.ExtTreeSet.contains_iff_mem.1 hfound, members, hitems, hitem⟩
    | _ => cases hfound
  · rintro ⟨claimId, hmem, items, hitems', hitem⟩
    rw [hitems] at hitems'
    cases hitems'
    exact ⟨.str claimId, hitem, Std.ExtTreeSet.contains_iff_mem.2 hmem⟩

/-- No event takes a mark off. -/
theorem marksProjections_effect (h : MarksProjections s) : MarksProjections (effect e s) := by
  have hmarked : ∀ p, ∀ id ∈ marked s.issuedProjections p s.staleProjectionIds,
      id ∈ s.issuedProjections := fun p => mem_marked_of_mem h
  have hkind : MarksProjections (effectKind e s) := by
    unfold effectKind
    cases e.kind with
    | evidenceDeleted | claimSuperseded => exact hmarked _
    | correctionRecorded =>
      simp only
      split <;> exact hmarked _
    | contradictionDetected =>
      simp only
      rw [boundIfNamed_eq]
      exact h
    | projectionIssued => exact fun id hid => mem_dict_insert.2 (.inr (h id hid))
    | _ => exact h
  exact hkind

/-- Marking keeps the closure where what is found covers what is new. -/
theorem projectionsMarked_marked (h : ProjectionsMarked s) {stale superseded : IdSet}
    {p : Payload → Except PyError Bool} (New : String → Prop)
    (hnew : ∀ id, (id ∈ stale ∨ id ∈ superseded) ↔
      (id ∈ s.staleClaimIds ∨ id ∈ s.supersededClaimIds) ∨ New id) :
    (∀ id projection, s.issuedProjections[id]? = some projection → ∀ claimId,
        SourcesText projection claimId → claimId ∈ stale ∨ claimId ∈ superseded →
        id ∈ marked s.issuedProjections p s.staleProjectionIds) ↔
      ∀ id projection, s.issuedProjections[id]? = some projection → id ∉ s.staleProjectionIds →
        (∃ claimId, SourcesText projection claimId ∧ New claimId) → p projection = .ok true := by
  constructor
  · rintro hmarked id projection hissued hfresh ⟨claimId, hsources, hclaim⟩
    rcases mem_marked.1 (hmarked id projection hissued claimId hsources
      ((hnew claimId).2 (.inr hclaim))) with hold | ⟨projection', hissued', hfound⟩
    · exact absurd hold hfresh
    · rw [hissued] at hissued'
      cases hissued'
      exact hfound
  · intro hfound id projection hissued claimId hsources hgone
    rw [mem_marked]
    by_cases hmark : id ∈ s.staleProjectionIds
    · exact .inl hmark
    · rcases (hnew claimId).1 hgone with hbefore | hclaim
      · exact absurd (h id projection hissued claimId hsources hbefore) hmark
      · exact .inr ⟨projection, hissued,
          hfound id projection hissued hmark ⟨claimId, hsources, hclaim⟩⟩

/-- A mark names an unmarked projection's claim: it is a new one. -/
theorem new_of_unmarked (h : ProjectionsMarked s) {id claimId : String}
    (hissued : s.issuedProjections[id]? = some projection) (hfresh : id ∉ s.staleProjectionIds)
    (hsources : SourcesText projection claimId) :
    claimId ∉ s.staleClaimIds ∧ claimId ∉ s.supersededClaimIds := by
  constructor
  · exact fun hstale => hfresh (h id projection hissued claimId hsources (.inl hstale))
  · exact fun hold => hfresh (h id projection hissued claimId hsources (.inr hold))

/-- **One event keeps the closure exactly when it is discreet.** -/
theorem projectionsMarked_effect (hmarks : MarksProjections s) (haccepts : Accepts e s)
    (h : ProjectionsMarked s) : ProjectionsMarked (effect e s) ↔ Discreet s e := by
  have hkind : ProjectionsMarked (effectKind e s) ↔ Discreet s e := by
    have hallowed := haccepts.2.2
    unfold Discreet effectKind
    unfold Allowed at hallowed
    cases hk : e.kind with
    | projectionIssued =>
      simp only [hk] at hallowed ⊢
      obtain ⟨-, -, hnew⟩ := hallowed
      constructor
      · intro hmarked claimId hsources
        -- were a source gone, the projection would be marked, and so issued before
        have hunmarked := fun hgone => hnew (hmarks _
          (hmarked _ e.payload (by simp) claimId hsources hgone))
        exact ⟨fun hstale => hunmarked (.inl hstale), fun hold => hunmarked (.inr hold)⟩
      · intro hdiscreet id projection hissued claimId hsources hgone
        rw [getElem?_insert] at hissued
        split at hissued
        · cases hissued
          obtain ⟨hfresh, hlive⟩ := hdiscreet claimId hsources
          exact absurd hgone (by simp only [hfresh, hlive, or_self, not_false_eq_true])
        · exact h id projection hissued claimId hsources hgone
    | evidenceDeleted =>
      simp only [hk] at hallowed ⊢
      obtain ⟨-, -, -, hreadable⟩ := hallowed
      -- the claims newly gone are those that cite the evidence
      refine (projectionsMarked_marked h
        (Struck s.claims (idOf e.payload "evidence_id")) ?_).trans ?_
      · intro id
        simp only [markCiting, mem_marked, Struck]
        exact or_right_comm
      · refine forall₄_congr fun id projection hissued hfresh => imp_congr_right fun _ => ?_
        rw [compiledFrom_eq_true (hreadable _ (mem_dict_toList.2 hissued))]
        constructor
        · rintro ⟨claimId, hmem, hraw⟩
          have hlive := (new_of_unmarked h hissued hfresh hraw.text).1
          simp only [markCiting, mem_marked] at hmem
          exact ⟨claimId, hraw, hmem.resolve_left hlive⟩
        · rintro ⟨claimId, hraw, hstruck⟩
          refine ⟨claimId, ?_, hraw⟩
          simp only [markCiting, mem_marked]
          exact .inr hstruck
    | claimSuperseded =>
      simp only [hk] at hallowed ⊢
      obtain ⟨-, -, -, -, -, hreadable⟩ := hallowed
      refine (projectionsMarked_marked h (fun id => id = idOf e.payload "claim_id") ?_).trans ?_
      · intro id
        rw [mem_set_insert, eq_comm]
        tauto
      · refine forall₄_congr fun id projection hissued hfresh => ?_
        rw [compiledFrom_eq_true (hreadable _ (mem_dict_toList.2 hissued))]
        simp
    | correctionRecorded =>
      simp only
      refine iff_of_true ?_ trivial
      split
      · refine (projectionsMarked_marked h
          (Struck s.claims (idOf e.payload "target_id")) ?_).2 ?_
        · intro id
          simp only [markCiting, bound, mem_marked, Struck]
          exact or_right_comm
        · rintro id projection hissued hfresh ⟨claimId, hsources, hstruck⟩
          rw [compiledFromText_eq_true]
          exact ⟨claimId, by simp only [markCiting, mem_marked]; exact .inr hstruck, hsources⟩
      · refine (projectionsMarked_marked h (fun id => id = idOf e.payload "target_id") ?_).2 ?_
        · intro id
          simp only [bound, mem_set_insert, eq_comm]
          tauto
        · rintro id projection hissued hfresh ⟨claimId, hsources, rfl⟩
          rw [compiledFromText_eq_true]
          exact ⟨_, by simp, hsources⟩
    | contradictionDetected =>
      simp only
      rw [boundIfNamed_eq]
      exact iff_of_true h trivial
    | _ => exact iff_of_true h trivial
  exact hkind

/-- **The marks are complete along a legal stream exactly when its events
are discreet.** -/
theorem projectionsMarked_iff {twinId : String} (hlegal : Legal { twinId := twinId } es) :
    (∀ n, ProjectionsMarked (replay { twinId := twinId } (es.take n))) ↔
      ∀ n e, es[n]? = some e → Discreet (replay { twinId := twinId } (es.take n)) e :=
  always_iff (fun s e => effect e s) MarksProjections ProjectionsMarked (fun s e => Accepts e s)
    Discreet (fun id hid => by simp at hid) (fun id projection hissued => by simp at hissued)
    (fun s e hmarks _ => marksProjections_effect hmarks)
    (fun s e hmarks haccepts h => projectionsMarked_effect hmarks haccepts h)
    (legal_iff.1 hlegal)

/-- **No rebuilt state reports a retracted disclosure as current**, at any
cut of any stream of any ledger, exactly when every event was discreet in
the place it was stored at. -/
theorem rebuilt_marked_iff [Digest] {h : History} (hreach : StoreReachable h) (twinId : String) :
    (∀ upTo state, rebuild h.store twinId false upTo none = .ok state → ProjectionsMarked state) ↔
      ∀ n e, (h.store.stream twinId)[n]? = some e →
        Legal { twinId := twinId } ((h.store.stream twinId).take (n + 1)) →
        Discreet (stateAt h.store twinId n) e := by
  obtain ⟨hvalid, -⟩ := hreach.keeps
  have hrebuild : ∀ m ≤ (h.store.stream twinId).length, ∀ state,
      rebuild h.store twinId false (some (m : Int)) none = .ok state ↔
        Legal { twinId := twinId } ((h.store.stream twinId).take m) ∧
          state = stateAt h.store twinId m := by
    intro m hm state
    have hbindable : Store.Bindable (some (m : Int)) :=
      hvalid.bindable (by omega) (by exact_mod_cast hm)
    rw [rebuild_origin hvalid hbindable, folded_eq_ok]
    rfl
  constructor
  · intro hmarked n e he hlegal
    have htake : (((h.store.stream twinId).take (n + 1)))[n]? = some e := by
      rw [List.getElem?_take_of_lt (Nat.lt_succ_self n), he]
    have hdiscreet := (projectionsMarked_iff hlegal).1 (fun m => ?_) n e htake
    · rwa [List.take_take, min_eq_left (Nat.le_succ n)] at hdiscreet
    · rw [List.take_take]
      have hlength := (List.getElem?_eq_some_iff.1 he).1
      refine hmarked (some ((min m (n + 1) : Nat) : Int)) _ ((hrebuild _ (by omega) _).2 ⟨?_, rfl⟩)
      rw [← List.take_take]
      exact hlegal.take
  · intro hdiscreet upTo state hstate
    rw [rebuild_origin hvalid (bindable_of_rebuild hstate), folded_eq_ok] at hstate
    obtain ⟨hlegal, rfl⟩ := hstate
    obtain ⟨m, hm, hcut, -⟩ := cutAt_eq_take (h.store.stream twinId) upTo
    rw [hcut] at hlegal ⊢
    have hmarked := (projectionsMarked_iff hlegal).2 (fun n e he => ?_) m
    · rwa [List.take_take, min_self] at hmarked
    · have hlt : n < m := by
        have hlength := (List.getElem?_eq_some_iff.1 he).1
        rw [List.length_take] at hlength
        omega
      rw [List.getElem?_take_of_lt hlt] at he
      rw [List.take_take, min_eq_left hlt.le]
      refine hdiscreet n e he ?_
      have hshort := hlegal.take (n := n + 1)
      rwa [List.take_take, min_eq_left hlt] at hshort

/-- An issue of a projection compiled from one claim. -/
def issueOf (projectionId claimId key : String) : EventEnvelope :=
  { eventOf "ProjectionIssued" .projectionService (Payload.ofFields
      [("projection_id", .str projectionId), ("purpose", .str "care"),
       ("receipt_hash", .str "sha256:0"), ("recipient_id", .str "clinic"),
       ("source_claim_ids", .arr [.str claimId])]) key with plane := .projection }

/-- A claim whose evidence is deleted before a projection of it is issued. -/
def deletedThenIssued : List EventEnvelope :=
  [eventOf "EvidenceIngested" .ingestService (evidencePayload "e1") "key-1",
   eventOf "ClaimProposed" .adjudicationWorker (claimPayload "c1" "e1") "key-2",
   eventOf "ClaimAccepted" .humanReview (Payload.ofFields [("claim_id", .str "c1")]) "key-3",
   eventOf "EvidenceDeleted" .ingestService (Payload.ofFields [("evidence_id", .str "e1")])
     "key-4",
   issueOf "p1" "c1" "key-5"]

theorem reachable_deletedThenIssued :
    let _ : Digest := checksumDigest
    LedgerReachable (run History.step {} (appends deletedThenIssued)) := by
  intro digest
  exact @ledgerReachable_appends _ _ "t" (by decide +kernel) (by decide +kernel)
    (by decide +kernel)

/-- **A disclosure reported as current**: it was issued after the claim it
discloses went stale. -/
theorem stale_claim_disclosed :
    let _ : Digest := checksumDigest
    let h := run History.step {} (appends deletedThenIssued)
    LedgerReachable h ∧ ∃ state, rebuild h.store "t" true none none = .ok state ∧
      ¬ ProjectionsMarked state := by
  intro digest h
  refine ⟨reachable_deletedThenIssued, latest h.store "t",
    reachable_deletedThenIssued.sound.rebuild_latest "t" true, fun hmarked => ?_⟩
  have hissued : (latest h.store "t").issuedProjections["p1"]? =
      some (issueOf "p1" "c1" "key-5").payload := by decide +kernel
  have hstale : "c1" ∈ (latest h.store "t").staleClaimIds := by decide +kernel
  have hunmarked : "p1" ∉ (latest h.store "t").staleProjectionIds := by decide +kernel
  exact hunmarked (hmarked "p1" _ hissued "c1"
    ⟨[.str "c1"], .str "c1", by decide +kernel, List.mem_singleton_self _, rfl⟩ (.inl hstale))

theorem rebuilt_marked_iff_deletedThenIssued :
    let _ : Digest := checksumDigest
    let h := run History.step {} (appends deletedThenIssued)
    (∀ upTo state, rebuild h.store "t" false upTo none = .ok state → ProjectionsMarked state) ↔
      ∀ n e, (h.store.stream "t")[n]? = some e →
        Legal { twinId := "t" } ((h.store.stream "t").take (n + 1)) →
        Discreet (stateAt h.store "t" n) e := by
  intro digest h
  exact rebuilt_marked_iff reachable_deletedThenIssued.storeReachable "t"

end ArgoTwin
