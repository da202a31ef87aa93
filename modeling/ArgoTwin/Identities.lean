import ArgoTwin.Disclosure
/-!
# Names and what they stand for

Six kinds of record are kept under a name, and each event that introduces
one looks that its name is not among the records held. A name is free
again once its record is removed, which only the deletion of evidence
does: so five of the kinds are introduced once, and evidence again only
after a deletion.
-/

namespace ArgoTwin

open Library TwinAggregate

/-- The kinds of record that are kept by name. -/
inductive Named where
  | evidence | claim | entityLink | contradiction | correction | projection
  deriving DecidableEq

namespace Named

/-- The event that introduces such a record. -/
def kind : Named → EventKind
  | evidence => .evidenceIngested
  | claim => .claimProposed
  | entityLink => .entityLinked
  | contradiction => .contradictionDetected
  | correction => .correctionRecorded
  | projection => .projectionIssued

/-- The field that holds its name. -/
def key : Named → String
  | evidence => "evidence_id"
  | claim => "claim_id"
  | entityLink => "entity_link_id"
  | contradiction => "contradiction_id"
  | correction => "correction_id"
  | projection => "projection_id"

/-- Where the state keeps them. -/
def records (s : TwinState) : Named → Dict Payload
  | evidence => s.evidence
  | claim => s.claims
  | entityLink => s.entityLinks
  | contradiction => s.contradictions
  | correction => s.corrections
  | projection => s.issuedProjections

end Named

/-- The event introduces a record of this kind under this name. -/
def Introduces (e : EventEnvelope) (k : Named) (id : String) : Prop :=
  e.kind = k.kind ∧ idOf e.payload k.key = id

/-- The event removes the record: only deleted evidence is removed. -/
def Removes (e : EventEnvelope) (k : Named) (id : String) : Prop :=
  k = .evidence ∧ e.kind = .evidenceDeleted ∧ idOf e.payload "evidence_id" = id

/-- **A name stands for one payload**: any two events that introduce it
carry the same. -/
def NeverRebound (es : List EventEnvelope) : Prop :=
  ∀ k id, ∀ e ∈ es, ∀ e' ∈ es, Introduces e k id → Introduces e' k id → e.payload = e'.payload

/-- Evidence ingested again after it was deleted is what it was. -/
def ReingestedSame (es : List EventEnvelope) : Prop :=
  ∀ (i j k : Nat) (e deletion e' : EventEnvelope), i < j → j < k →
    es[i]? = some e → es[j]? = some deletion → es[k]? = some e' →
    e.kind = .evidenceIngested → deletion.kind = .evidenceDeleted →
    e'.kind = .evidenceIngested →
    idOf deletion.payload "evidence_id" = idOf e.payload "evidence_id" →
    idOf e'.payload "evidence_id" = idOf e.payload "evidence_id" → e'.payload = e.payload

variable {s : TwinState} {e e' : EventEnvelope} {es : List EventEnvelope}
variable {k : Named} {id twinId : String}

/-! ## What one event does to a name -/

/-- A name is taken by what introduces it, and stays taken until removed. -/
theorem mem_records_effect : id ∈ k.records (effect e s) ↔
    Introduces e k id ∨ (id ∈ k.records s ∧ ¬ Removes e k id) := by
  have hkind : id ∈ k.records (effectKind e s) ↔
      Introduces e k id ∨ (id ∈ k.records s ∧ ¬ Removes e k id) := by
    unfold effectKind Introduces Removes
    cases hkind : e.kind with
    | contradictionDetected =>
      simp only
      rw [boundIfNamed_eq]
      cases k <;> simp [Named.records, Named.kind, Named.key]
    | correctionRecorded =>
      simp only
      split <;> cases k <;> simp [Named.records, Named.kind, Named.key, markCiting, bound]
    | _ => cases k <;> simp [Named.records, Named.kind, Named.key, markCiting, bound, and_comm]
  cases k <;> exact hkind

/-- A name is free when it is introduced. -/
theorem not_mem_of_introduces (haccepts : Accepts e s) (h : Introduces e k id) :
    id ∉ k.records s := by
  obtain ⟨hkind, rfl⟩ := h
  have hallowed := haccepts.2.2
  unfold Allowed at hallowed
  cases k with
  | evidence =>
    simp only [hkind, Named.kind] at hallowed
    exact hallowed.2.2
  | claim =>
    simp only [hkind, Named.kind] at hallowed
    exact hallowed.2.2.2
  | entityLink =>
    simp only [hkind, Named.kind] at hallowed
    exact hallowed.2.2.2
  | contradiction =>
    simp only [hkind, Named.kind] at hallowed
    exact hallowed.2.1
  | correction =>
    simp only [hkind, Named.kind] at hallowed
    exact hallowed.2.2.1
  | projection =>
    simp only [hkind, Named.kind] at hallowed
    exact hallowed.2.2

/-! ## What a stream does -/

/-- A name taken before the events is taken after them, unless one of them
removes it. -/
theorem mem_records_replay (h : id ∈ k.records s) (hkept : ∀ e ∈ es, ¬ Removes e k id) :
    id ∈ k.records (replay s es) := by
  induction es generalizing s with
  | nil => exact h
  | cons e es ih =>
    rw [replay_cons]
    refine ih (mem_records_effect.2 (.inr ⟨h, ?_⟩)) fun e' he' => ?_
    · exact hkept e (List.mem_cons_self ..)
    · exact hkept e' (List.mem_cons_of_mem _ he')

/-- **A name introduced twice was removed in between.** -/
theorem removed_between (hlegal : Legal s es) {i j : Nat} (hij : i < j)
    (he : es[i]? = some e) (he' : es[j]? = some e')
    (h : Introduces e k id) (h' : Introduces e' k id) :
    ∃ m deletion, i < m ∧ m < j ∧ es[m]? = some deletion ∧ Removes deletion k id := by
  by_contra hnone
  -- the events between the two, read from the state the first one leaves
  have hsplit : es.take j = es.take i ++ e :: (es.take j).drop (i + 1) := by
    have hlt : i < (es.take j).length := by
      have hlength := (List.getElem?_eq_some_iff.1 he').1
      rw [List.length_take]
      omega
    have hget : (es.take j)[i] = e := by
      rw [List.getElem_take]
      exact (List.getElem?_eq_some_iff.1 he).2
    have hsplit := List.take_append_drop i (es.take j)
    rw [List.take_take, min_eq_left hij.le, List.drop_eq_getElem_cons hlt, hget] at hsplit
    exact hsplit.symm
  have htaken : id ∈ k.records (replay s (es.take j)) := by
    rw [hsplit, replay_append, replay_cons]
    refine mem_records_replay (mem_records_effect.2 (.inl h)) fun d hd hremoves => ?_
    obtain ⟨m, hm, hget⟩ := List.getElem_of_mem hd
    rw [List.getElem_drop, List.getElem_take] at hget
    rw [List.length_drop, List.length_take] at hm
    have hsome : es[i + 1 + m]? = some d := by
      rw [List.getElem?_eq_getElem (by omega), hget]
    exact hnone ⟨i + 1 + m, d, by omega, by omega, hsome, hremoves⟩
  exact not_mem_of_introduces (legal_iff.1 hlegal j e' he') h' htaken

/-- **Five kinds of name are introduced once.** -/
theorem introduced_once (hlegal : Legal s es) (hk : k ≠ .evidence) {i j : Nat}
    (he : es[i]? = some e) (he' : es[j]? = some e')
    (h : Introduces e k id) (h' : Introduces e' k id) : i = j := by
  rcases Nat.lt_trichotomy i j with hlt | heq | hgt
  · obtain ⟨_, _, -, -, -, hremoves⟩ := removed_between hlegal hlt he he' h h'
    exact absurd hremoves.1 hk
  · exact heq
  · obtain ⟨_, _, -, -, -, hremoves⟩ := removed_between hlegal hgt he' he h' h
    exact absurd hremoves.1 hk

/-- **Names are not rebound exactly when evidence comes back as it was.**
Over the events `apply` accepts from nothing, in any order, every name of
the six kinds stands for one payload just when no evidence is ingested
after its deletion with another payload than before. -/
theorem never_rebound_iff {s : TwinState} (h : folded { twinId := twinId } es = .ok s) :
    NeverRebound es ↔ ReingestedSame es := by
  have hlegal : Legal { twinId := twinId } es := (folded_eq_ok.1 h).1
  constructor
  · intro hnever i j k e deletion e' _ _ he _ he' hkind _ hkind' _ hid
    exact hnever .evidence _ e' (List.mem_of_getElem? he') e (List.mem_of_getElem? he)
      ⟨hkind', rfl⟩ ⟨hkind, hid.symm⟩
  · intro hsame k id e hmem e' hmem' hin hin'
    obtain ⟨i, hi, rfl⟩ := List.getElem_of_mem hmem
    obtain ⟨j, hj, rfl⟩ := List.getElem_of_mem hmem'
    have he : es[i]? = some es[i] := List.getElem?_eq_getElem hi
    have he' : es[j]? = some es[j] := List.getElem?_eq_getElem hj
    -- the later of the two repeats the earlier one
    have hrepeat : ∀ {i j : Nat} {a b : EventEnvelope}, i < j → es[i]? = some a →
        es[j]? = some b → Introduces a k id → Introduces b k id → b.payload = a.payload := by
      intro i j a b hlt ha hb hina hinb
      obtain ⟨m, deletion, him, hmj, hm, rfl, hkind, hid⟩ :=
        removed_between hlegal hlt ha hb hina hinb
      exact hsame i m j a deletion b him hmj ha hm hb hina.1 hkind hinb.1
        (hid.trans hina.2.symm) (hinb.2.trans hina.2.symm)
    rcases Nat.lt_trichotomy i j with hlt | rfl | hgt
    · exact (hrepeat hlt he he' hin hin').symm
    · rfl
    · exact hrepeat hgt he' he hin' hin

/-- Evidence of the subject `s` with this content. -/
def contentPayload (evidenceId contentHash : String) : Payload :=
  (evidencePayload evidenceId).insert "content_hash" (.str contentHash)

/-- Evidence a claim rests on, deleted and ingested with other content. -/
def replacedContent : List EventEnvelope :=
  [eventOf "EvidenceIngested" .ingestService (contentPayload "e1" "sha256:0") "key-1",
   eventOf "ClaimProposed" .adjudicationWorker (claimPayload "c1" "e1") "key-2",
   eventOf "EvidenceDeleted" .ingestService (Payload.ofFields [("evidence_id", .str "e1")])
     "key-3",
   eventOf "EvidenceIngested" .ingestService (contentPayload "e1" "sha256:1") "key-4"]

/-- **A name that was rebound**: the claim still cites `e1`, whose content
is another. -/
theorem evidence_rebound :
    (folded { twinId := "t" } replacedContent).toOption.isSome = true ∧
      (∃ claim, (replay { twinId := "t" } replacedContent).claims["c1"]? = some claim ∧
        CitesText claim "e1") ∧
      (∃ e ∈ replacedContent, ∃ e' ∈ replacedContent, Introduces e .evidence "e1" ∧
        Introduces e' .evidence "e1" ∧
        e.payload["content_hash"]? ≠ e'.payload["content_hash"]?) ∧
      ¬ NeverRebound replacedContent := by
  have hrebound : ∃ e ∈ replacedContent, ∃ e' ∈ replacedContent, Introduces e .evidence "e1" ∧
      Introduces e' .evidence "e1" ∧
      e.payload["content_hash"]? ≠ e'.payload["content_hash"]? :=
    ⟨_, List.mem_of_getElem? (show replacedContent[0]? = some _ from rfl),
      _, List.mem_of_getElem? (show replacedContent[3]? = some _ from rfl),
      ⟨by decide +kernel, by decide +kernel⟩, ⟨by decide +kernel, by decide +kernel⟩,
      by decide +kernel⟩
  refine ⟨by decide +kernel, ?_, hrebound, fun hnever => ?_⟩
  · exact ⟨recorded (replacedContent.getD 1 (eventOf "" .ingestService ∅ "")),
      by decide +kernel, [Json.object [("evidence_id", .str "e1"), ("relation", .str "supports"),
        ("independence_group", .str "g")]], _, .str "e1", by decide +kernel,
      List.mem_cons_self, by decide +kernel, rfl⟩
  · obtain ⟨e, he, e', he', hin, hin', hcontent⟩ := hrebound
    rw [hnever .evidence "e1" e he e' he' hin hin'] at hcontent
    exact hcontent rfl

theorem never_rebound_iff_replacedContent :
    NeverRebound replacedContent ↔ ReingestedSame replacedContent := by
  have hfolded : folded { twinId := "t" } replacedContent =
      .ok (replay { twinId := "t" } replacedContent) :=
    folded_eq_ok.2 ⟨legal_of_folded (by decide +kernel), rfl⟩
  exact never_rebound_iff hfolded

end ArgoTwin
