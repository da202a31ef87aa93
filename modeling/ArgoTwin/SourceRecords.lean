import ArgoTwin.Calls
import ArgoTwin.Identities
import ArgoTwin.Library.Delimited
import ArgoTwin.Subjects
/-!
# Evidence named after its record

The service names a piece of evidence after the record it was taken from,
by a digest of the twin, the subject, the source and the record joined
with colons; the answer to a question it names by a digest of a list. Two
records of which one source runs on with a colon into the other are joined
to one text, and the second of them is refused as held already.
-/

namespace ArgoTwin

open Library TwinAggregate

/-- A record, by what its source calls it. -/
structure SourceRecord where
  source : String
  recordId : String
  deriving DecidableEq

namespace SourceRecord

/-- The text the name of its evidence is the digest of. -/
def joined (twinId subjectId : String) (record : SourceRecord) : String :=
  twinId ++ ":" ++ subjectId ++ ":" ++ record.source ++ ":" ++ record.recordId

/-- The source of `b` is that of `a`, a colon and more, and what is more
begins the record id of `a`. -/
def RunsInto (a b : SourceRecord) : Prop :=
  ∃ more, b.source = a.source ++ ":" ++ more ∧ a.recordId = more ++ ":" ++ b.recordId

/-- Two records that are spelt alike once joined, without being the same. -/
def SpeltAlike (a b : SourceRecord) : Prop := a.RunsInto b ∨ b.RunsInto a

variable {a b : SourceRecord} {twinId subjectId : String}

/-- **Which records are joined to one text.** -/
theorem joined_eq_iff :
    joined twinId subjectId a = joined twinId subjectId b ↔ a = b ∨ SpeltAlike a b := by
  have htail : joined twinId subjectId a = joined twinId subjectId b ↔
      a.source.toList ++ ':' :: a.recordId.toList = b.source.toList ++ ':' :: b.recordId.toList := by
    rw [← String.toList_inj]
    simp [joined]
  have hruns : ∀ a b : SourceRecord, a.RunsInto b ↔
      ∃ more, b.source.toList = a.source.toList ++ ':' :: more ∧
        a.recordId.toList = more ++ ':' :: b.recordId.toList := by
    intro a b
    constructor
    · rintro ⟨more, hsource, hrecord⟩
      refine ⟨more.toList, ?_, ?_⟩
      · simp [hsource]
      · simp [hrecord]
    · rintro ⟨more, hsource, hrecord⟩
      refine ⟨String.ofList more, String.toList_inj.1 ?_, String.toList_inj.1 ?_⟩
      · simp [hsource]
      · simp [hrecord]
  rw [htail, Library.joined_eq_iff, SpeltAlike, hruns, hruns, ← exists_or, String.toList_inj,
    String.toList_inj]
  have hsame : a = b ↔ a.source = b.source ∧ a.recordId = b.recordId := by
    cases a
    cases b
    simp
  rw [hsame]

/-- A text in quotes: what each character is written as, no colon unless it
is one. -/
theorem quoteStr_eq (text : String) : ∃ write : Char → List Char,
    (∀ c, c ≠ ':' → write c ≠ [] ∧ ':' ∉ write c) ∧
      (Json.quoteStr text).toList = '"' :: (text.toList.flatMap write ++ ['"']) := by
  refine ⟨_, fun c hc => ?_, by rw [Json.quoteStr, String.toList_ofList]; rfl⟩
  have hdigits : c.toNat < 32 → ':' ∉ Json.hex2 c.toNat := by
    have hall : ∀ n < 32, ':' ∉ Json.hex2 n := by decide
    exact hall c.toNat
  have hself : ':' ≠ c := hc.symm
  split_ifs <;> simp [*]

/-- An answer is named after no text a record is joined to. -/
theorem joined_ne_answer (responseId : String) (record : SourceRecord) :
    joined twinId subjectId record ≠
      canonicalJson (.arr (["elicitation", twinId, subjectId, responseId].map .str)) := by
  intro h
  obtain ⟨write, hwrite, hquoted⟩ := quoteStr_eq twinId
  have hchars := congrArg String.toList h
  refine quoted_ne_joined "[\"elicitation\",\"".toList ?_ ?_ hwrite twinId.toList
    ("\",".toList ++ (Json.dumpsItems [.str subjectId, .str responseId]).toList ++ [']'])
    (subjectId.toList ++ ':' :: (record.source.toList ++ ':' :: record.recordId.toList)) ?_
  · decide
  · decide
  · have hwritten : Json.reread (.arr (["elicitation", twinId, subjectId, responseId].map .str)) =
        .arr (["elicitation", twinId, subjectId, responseId].map .str) := canonical_strs _
    rw [canonicalJson, hwritten] at hchars
    have helicitation : Json.quoteStr "elicitation" = "\"elicitation\"" := by decide
    simp [Json.dumps, Json.dumpsItems, joined, hquoted, helicitation] at hchars ⊢
    exact hchars.symm

end SourceRecord

variable [Digest]

namespace EventEnvelope

/-- Evidence taken from a record, and named after it. -/
structure IngestedFrom (e : EventEnvelope) (subjectId : String) (record : SourceRecord) :
    Prop where
  kind : e.kind = .evidenceIngested
  subject : idOf e.payload "subject_id" = subjectId
  source : idOf e.payload "source" = record.source
  recordId : idOf e.payload "source_record_id" = record.recordId
  evidenceId : idOf e.payload "evidence_id" = Digest.uuid5 (record.joined e.twinId subjectId)

/-- The answer to a question, named after the response. -/
structure AnsweredIn (e : EventEnvelope) (subjectId responseId : String) : Prop where
  kind : e.kind = .evidenceIngested
  subject : idOf e.payload "subject_id" = subjectId
  evidenceId : idOf e.payload "evidence_id" =
    derivedId ["elicitation", e.twinId, subjectId, responseId]

/-- Where the event is evidence, it has the name the service gives it. -/
def OwnName (e : EventEnvelope) : Prop :=
  e.kind = .evidenceIngested → ∃ subjectId,
    (∃ record, e.IngestedFrom subjectId record) ∨ ∃ responseId, e.AnsweredIn subjectId responseId

/-- Only the twin, the type and the payload matter. -/
theorem OwnName.of_eq {e e' : EventEnvelope} (h : e.OwnName) (htwin : e'.twinId = e.twinId)
    (hkind : e'.kind = e.kind) (hpayload : e'.payload = e.payload) : e'.OwnName := by
  intro hevidence
  obtain ⟨subjectId, ⟨record, hrecord⟩ | ⟨responseId, hresponse⟩⟩ := h (hkind ▸ hevidence)
  · refine ⟨subjectId, .inl ⟨record, hevidence, ?_, ?_, ?_, ?_⟩⟩
    · rw [hpayload, hrecord.subject]
    · rw [hpayload, hrecord.source]
    · rw [hpayload, hrecord.recordId]
    · rw [hpayload, htwin, hrecord.evidenceId]
  · refine ⟨subjectId, .inr ⟨responseId, hevidence, ?_, ?_⟩⟩
    · rw [hpayload, hresponse.subject]
    · rw [hpayload, htwin, hresponse.evidenceId]

end EventEnvelope

variable {svc : Service} {e : EventEnvelope} {p p' : Process} {ctx : WriteContext}

namespace Service

omit [Digest] in
/-- A field that is left out or another one does not answer for `key`. -/
theorem lookup_named {key other : String} {text : Option String} (h : key ≠ other) :
    (named other text).reverse.lookup key = none := by
  cases text <;> simp [named, h]

/-- What `ingest_evidence` comes by. -/
theorem returns_ingestEvidence {args : IngestEvidence}
    (h : Returns (Prepare.ingestEvidence svc args ctx) p e p') :
    e.twinId = args.twinId ∧
      e.IngestedFrom args.subjectId ⟨args.source, args.sourceRecordId⟩ := by
  simp only [Prepare.ingestEvidence, returns_bind, returns_pure] at h
  obtain ⟨_, _, -, _, _, -, state, _, -, _, _, -, rfl, rfl⟩ := h
  refine ⟨rfl, ⟨rfl, ?_, ?_, ?_, ?_⟩⟩
  all_goals
    simp [eventBy, EventEnvelope.new, idOf, Payload.strD, Payload.getElem?_ofFields,
      List.lookup_append, List.lookup_cons, lookup_named, SourceRecord.joined]

/-- And it is read back as taken from the record. -/
theorem reread_ingestEvidence {args : IngestEvidence}
    (h : Returns (Prepare.ingestEvidence svc args ctx) p e p') :
    (Store.decode e).IngestedFrom args.subjectId ⟨args.source, args.sourceRecordId⟩ := by
  simp only [Prepare.ingestEvidence, returns_bind, returns_pure] at h
  obtain ⟨_, _, -, _, _, -, state, _, -, _, _, -, rfl, rfl⟩ := h
  refine ⟨rfl, ?_, ?_, ?_, ?_⟩
  all_goals
    simp [eventBy, EventEnvelope.new, Store.decode, idOf, Payload.strD, Payload.getElem?_ofFields,
      List.lookup_append, List.lookup_cons, lookup_named, SourceRecord.joined, Json.reread]

/-- The answer `record_elicitation_response` comes by, as it is handed in and
as it is read back. -/
theorem answeredIn_recordElicitationResponse (svc : Service) (with_ : Collaborators)
    (args : RecordElicitationResponse) (ctx : WriteContext) :
    Answers (fun e => e.AnsweredIn args.subjectId args.response.responseId ∧
        (Store.decode e).AnsweredIn args.subjectId args.response.responseId)
      (Prepare.recordElicitationResponse svc with_ args ctx) := by
  unfold Prepare.recordElicitationResponse
  refine answers_bind fun _ => answers_bind fun _ => ?_
  cases with_.bronzeVault with
  | none =>
    intro _ _ _ h
    obtain ⟨_, _, hthrow, -⟩ := returns_bind.1 h
    exact (returns_throw.1 hthrow).elim
  | some vault =>
    refine answers_bind fun _ => answers_bind fun _ => answers_bind fun _ => answers_bind fun _ =>
      answers_bind fun _ => answers_bind fun _ => answers_bind fun _ => answers_bind fun _ =>
      answers_pure ⟨⟨rfl, ?_, ?_⟩, rfl, ?_, ?_⟩
    all_goals
      simp [eventBy, EventEnvelope.new, Store.decode, idOf, Payload.strD,
        Payload.getElem?_ofFields, List.lookup_cons, Json.reread]

/-- **The write methods name evidence as the service does**, as it is read
back. -/
theorem ownName_prepare (svc : Service) (with_ : Collaborators) (call : WriteCall)
    (ctx : WriteContext) :
    Answers (fun e => (Store.decode e).OwnName) (svc.prepare with_ call ctx) := by
  -- what is not evidence has no name to keep to
  have hother : ∀ {e : EventEnvelope} (eventType : String), e.eventType = eventType →
      EventKind.ofType eventType ≠ .evidenceIngested → (Store.decode e).OwnName := by
    rintro e _ rfl hkind hevidence
    exact absurd hevidence hkind
  cases call with
  | ingestEvidence args =>
    intro p e p' h _
    exact ⟨_, .inl ⟨_, reread_ingestEvidence h⟩⟩
  | recordElicitationResponse args =>
    intro p e p' h _
    exact ⟨_, .inr ⟨_, (answeredIn_recordElicitationResponse svc with_ args ctx p e p' h).2⟩⟩
  | reviewClaim args =>
    refine answers_bind fun _ => answers_bind fun _ => answers_bind fun _ => answers_pure ?_
    cases args.accepted with
    | true => exact hother "ClaimAccepted" rfl (by decide)
    | false => exact hother "ClaimContested" rfl (by decide)
  | issueProjection args =>
    intro p e p' h
    obtain ⟨issued, q, hissued, hevent⟩ := returns_bind.1 h
    have hown : Answers (fun issued : Projection × ProjectionReceipt × EventEnvelope =>
        (Store.decode issued.2.2).OwnName) (Prepare.issueProjection svc with_ args ctx) :=
      answers_bind fun _ => answers_bind fun _ => answers_bind fun _ => answers_bind fun _ =>
        answers_bind fun _ => answers_bind fun _ => answers_bind fun _ =>
        answers_pure (hother "ProjectionIssued" rfl (by decide))
    obtain ⟨rfl, -⟩ := returns_pure.1 hevent
    exact hown p issued q hissued
  | proposeClaim args =>
    exact answers_bind fun _ => answers_bind fun _ => answers_bind fun _ => answers_bind fun _ =>
      answers_pure (hother "ClaimProposed" rfl (by decide))
  | deleteEvidence args =>
    exact answers_bind fun _ => answers_bind fun _ => answers_bind fun _ => answers_bind fun _ =>
      answers_pure (hother "EvidenceDeleted" rfl (by decide))
  | revokeProjection args =>
    exact answers_bind fun _ => answers_bind fun _ => answers_bind fun _ => answers_bind fun _ =>
      answers_pure (hother "ProjectionRevoked" rfl (by decide))
  | linkEntity args =>
    exact answers_bind fun _ => answers_bind fun _ =>
      answers_pure (hother "EntityLinked" rfl (by decide))
  | unlinkEntity args =>
    exact answers_bind fun _ => answers_bind fun _ =>
      answers_pure (hother "EntityUnlinked" rfl (by decide))
  | detectContradiction args =>
    exact answers_bind fun _ => answers_bind fun _ =>
      answers_pure (hother "ContradictionDetected" rfl (by decide))
  | adjudicateContradiction args =>
    exact answers_bind fun _ => answers_bind fun _ =>
      answers_pure (hother "ContradictionAdjudicated" rfl (by decide))
  | recordCorrection args =>
    exact answers_bind fun _ => answers_bind fun _ =>
      answers_pure (hother "CorrectionRecorded" rfl (by decide))

end Service

/-! ## What the ledger holds -/

/-- A vetted step of the store that appends no evidence that is read back
under another name than its own. -/
def OwnNames (h : History) (op : StoreOp) : Prop :=
  Vetted h op ∧ ∀ e x now fault, op = .append e x now fault → (Store.decode e).OwnName

variable {h : History} {s : TwinState} {k : Named} {id twinId : String}
variable {es : List EventEnvelope}

omit [Digest] in
/-- **What is held was introduced.** -/
theorem introduced_of_held (hheld : id ∈ k.records (replay s es)) :
    id ∈ k.records s ∨ ∃ e ∈ es, Introduces e k id := by
  induction es generalizing s with
  | nil => exact .inl hheld
  | cons e es ih =>
    rw [replay_cons] at hheld
    rcases ih hheld with hbefore | ⟨e', he', hintroduces⟩
    · rcases mem_records_effect.1 hbefore with hintroduces | ⟨hheld, -⟩
      · exact .inr ⟨e, List.mem_cons_self, hintroduces⟩
      · exact .inl hheld
    · exact .inr ⟨e', List.mem_cons_of_mem _ he', hintroduces⟩

omit [Digest] in
/-- Evidence in a legal stream has the subject the stream leaves. -/
theorem subject_of_evidence (hlegal : Legal s es) {e : EventEnvelope} (he : e ∈ es)
    (hkind : e.kind = .evidenceIngested) :
    (replay s es).subjectId = some (idOf e.payload "subject_id") := by
  have hkept : ∀ {es : List EventEnvelope} {s : TwinState} {S : String}, Legal s es →
      s.subjectId = some S → (replay s es).subjectId = some S := by
    intro es
    induction es with
    | nil => exact fun _ h => h
    | cons e es ih => exact fun hlegal h => ih hlegal.2 (subject_kept hlegal.1 h)
  induction es generalizing s with
  | nil => cases he
  | cons e' es ih =>
    rcases List.mem_cons.1 he with rfl | hmem
    · rw [replay_cons]
      refine hkept hlegal.2 ?_
      rw [effect_subjectId, boundSubject, hkind]
      rfl
    · exact ih hlegal.2 hmem

/-- **In a ledger of own names every evidence has its own.** -/
theorem ownName_of_reachable (hreach : Reachable History.step OwnNames {} h) {e : EventEnvelope}
    (he : e ∈ h.store.stream twinId) : e.OwnName ∧ e.twinId = twinId := by
  have hinv : ∀ twinId, ∀ e ∈ h.store.stream twinId, e.OwnName ∧ e.twinId = twinId := by
    refine Reachable.invariant
      (I := fun h => ∀ twinId, ∀ e ∈ h.store.stream twinId, e.OwnName ∧ e.twinId = twinId)
      ?_ (fun h op hI hop => ?_) hreach
    · intro twinId e he
      cases he
    · intro twinId e he
      rcases step_cases h op with ⟨e', x, now, fault, r, rfl, hfresh, -⟩ |
        ⟨snapshot, rfl, hsaved⟩ | hquiet
      · rw [hfresh.stream_eq] at he
        split_ifs at he with htwin
        · rcases List.mem_append.1 he with hold | hnew
          · exact hI twinId e hold
          · obtain rfl := List.mem_singleton.1 hnew
            have hown := hop.2 e' x now fault rfl
            rw [hfresh.sealed]
            exact ⟨hown.of_eq rfl rfl rfl, htwin⟩
        · exact hI twinId e he
      · rw [hsaved.store] at he
        exact hI twinId e he
      · rw [Store.stream, Store.rowsOf, hquiet.events] at he
        exact hI twinId e he
  exact hinv twinId e he

/-- **A record that is new, and spelt unlike those before, finds its name
free**, whatever was answered or deleted meanwhile. -/
theorem free_of_new (hinj : Function.Injective Digest.uuid5)
    (hreach : Reachable History.step OwnNames {} h) {subjectId : String} {record : SourceRecord}
    (hsubject : (latest h.store twinId).subjectId = none ∨
      (latest h.store twinId).subjectId = some subjectId)
    (hnew : ∀ e ∈ h.store.stream twinId, ∀ record', e.IngestedFrom subjectId record' →
      record' ≠ record ∧ ¬ record'.SpeltAlike record) :
    Digest.uuid5 (record.joined twinId subjectId) ∉ (latest h.store twinId).evidence := by
  have hsound : Sound h.store := LedgerReachable.sound (hreach.mono fun _ _ hop => hop.1)
  intro hheld
  have hrecords : Digest.uuid5 (record.joined twinId subjectId) ∈
      Named.evidence.records (latest h.store twinId) := hheld
  rcases introduced_of_held hrecords with habsurd | ⟨e, he, hkind, hid⟩
  · exact absurd habsurd (by simp [Named.records])
  obtain ⟨hown, htwin⟩ := ownName_of_reachable hreach he
  -- the evidence that has the name is of the same subject
  obtain ⟨subject, horigin⟩ := hown hkind
  have hbound := subject_of_evidence (hsound.lawful twinId) he hkind
  have hsame : ∀ S, idOf e.payload "subject_id" = S → S = subjectId := by
    rintro S rfl
    rw [latest, hbound] at hsubject
    simpa using hsubject
  have hkey : idOf e.payload "evidence_id" = Digest.uuid5 (record.joined twinId subjectId) := hid
  rcases horigin with ⟨record', hrecord⟩ | ⟨responseId, hresponse⟩
  · obtain rfl := hsame _ hrecord.subject
    obtain ⟨hother, hunlike⟩ := hnew e he record' hrecord
    rw [hrecord.evidenceId, htwin] at hkey
    rcases SourceRecord.joined_eq_iff.1 (hinj hkey) with rfl | halike
    · exact hother rfl
    · exact hunlike halike
  · obtain rfl := hsame _ hresponse.subject
    rw [hresponse.evidenceId, htwin, derivedId] at hkey
    exact SourceRecord.joined_ne_answer responseId record (hinj hkey).symm

/-! ## What an ingestion is refused for -/

/-- What is raised on evidence whose name is held. -/
def identityTaken : PyError :=
  .invariantViolation "evidence identity already exists; append a correction event"

namespace Store

omit [Digest] in
theorem raises_rowToEvent {row : EventEnvelope} :
    ∀ err, rowToEvent row = .error err → err ≠ identityTaken := by
  intro err h
  unfold rowToEvent at h
  split at h
  · cases h
    decide
  · cases h

omit [Digest] in
theorem raises_failAt {here : AppendStep} : Raises (· ≠ identityTaken) (failAt none here) :=
  raises_ite (raises_throw (by decide)) raises_pure

omit [Digest] in
theorem raises_edgesOf : ∀ err, edgesOf e = .error err → err ≠ identityTaken := by
  have hiter : ∀ (value : Json) err, value.pyIter = .error err → err ≠ identityTaken := by
    intro value err h
    cases value <;> cases h <;> decide
  intro err h
  have hbind : ∀ {α : Type} (value : Json) (f : List Json → α) (err : PyError),
      (do pure (f (← value.pyIter)) : Except PyError α) = .error err → err ≠ identityTaken := by
    intro α value f err h
    cases hvalue : value.pyIter with
    | ok items => simp [hvalue, bind, Except.bind, pure, Except.pure] at h
    | error err' =>
      simp only [hvalue, bind, Except.bind, Except.error.injEq] at h
      exact h ▸ hiter value err' hvalue
  unfold edgesOf at h
  simp only at h
  split at h
  · exact hbind _ _ err h
  · exact hbind _ _ err h
  · cases h
  · exact hbind _ _ err h
  · split_ifs at h
  · exact hbind _ _ err h
  · cases h

omit [Digest] in
theorem raises_bindInteger {n : Int} : ∀ err, bindInteger n = .error err → err ≠ identityTaken := by
  intro err h
  simp only [bindInteger] at h
  split_ifs at h
  cases h
  decide

omit [Digest] in
theorem raises_insertEvent : Raises (· ≠ identityTaken) (insertEvent e) :=
  raises_bind (raises_fromExcept raises_bindInteger) fun _ => raises_bind raises_get fun _ => by
    split_ifs
    · exact raises_bind (raises_throw (by decide)) fun _ => raises_modify
    · exact raises_modify

omit [Digest] in
theorem raises_insertOutbox : Raises (· ≠ identityTaken) (insertOutbox e) :=
  raises_bind raises_get fun _ => by
    split_ifs
    · exact raises_bind (raises_throw (by decide)) fun _ => raises_modify
    · exact raises_modify

omit [Digest] in
theorem raises_indexDependencies : Raises (· ≠ identityTaken) (indexDependencies e) := by
  unfold indexDependencies
  split_ifs
  · exact raises_modify
  · exact raises_bind (raises_fromExcept raises_edgesOf) fun _ => raises_modify

omit [Digest] in
theorem raises_answerDuplicate {row : EventEnvelope} :
    Raises (· ≠ identityTaken) (answerDuplicate none row e) := by
  refine raises_bind (raises_fromExcept raises_rowToEvent) fun existing => ?_
  have hrest : Raises (· ≠ identityTaken) (do failAt none .commit; pure existing) :=
    raises_bind raises_failAt fun _ => raises_pure
  split_ifs
  · exact raises_bind (raises_throw (by decide)) fun _ => hrest
  · exact hrest

theorem raises_commitFresh {x : Int} {now : Instant} :
    Raises (· ≠ identityTaken) (commitFresh none e x now) := by
  refine raises_bind raises_failAt fun _ => raises_bind raises_get fun s => ?_
  have hrest : ∀ sealed : EventEnvelope, Raises (· ≠ identityTaken) (do
      failAt none .insertEvent
      insertEvent sealed
      failAt none .indexDependencies
      indexDependencies sealed
      failAt none .insertOutbox
      insertOutbox sealed
      failAt none .commit
      pure sealed) := fun sealed =>
    raises_bind raises_failAt fun _ => raises_bind raises_insertEvent fun _ =>
    raises_bind raises_failAt fun _ => raises_bind raises_indexDependencies fun _ =>
    raises_bind raises_failAt fun _ => raises_bind raises_insertOutbox fun _ =>
    raises_bind raises_failAt fun _ => raises_pure
  simp only
  split_ifs
  · exact raises_bind (raises_throw (by simp [identityTaken])) fun _ => hrest _
  · exact hrest _

theorem raises_transacted {x : Int} {now : Instant} : Raises (· ≠ identityTaken) (transaction (do
    failAt none .begin
    failAt none .selectDuplicate
    match (← get).keyed e.twinId e.idempotencyKey with
    | some row => answerDuplicate none row e
    | none => commitFresh none e x now)) := by
  refine raises_transaction (raises_bind raises_failAt fun _ => raises_bind raises_failAt
    fun _ => raises_bind raises_get fun s => ?_)
  cases s.keyed e.twinId e.idempotencyKey with
  | some row => exact raises_answerDuplicate
  | none => exact raises_commitFresh

theorem raises_append {x : Int} {now : Instant} :
    Raises (· ≠ identityTaken) (append e x now none) := by
  unfold append
  split_ifs
  · exact raises_bind (raises_throw (by decide)) fun _ => raises_bind (raises_throw (by decide))
      fun _ => raises_transacted
  · exact raises_bind (raises_throw (by decide)) fun _ => raises_transacted
  · exact raises_bind (raises_throw (by decide)) fun _ => raises_transacted
  · exact raises_transacted

theorem raises_verify {expected : String} :
    ∀ err, e.verify expected = .error err → err ≠ identityTaken := by
  intro err h
  unfold EventEnvelope.verify at h
  split_ifs at h <;> cases h <;> nofun

theorem raises_claimOutbox {leaseOwner : String} {limit leaseSeconds : Int} {now : Instant} :
    Raises (· ≠ identityTaken) (claimOutbox leaseOwner limit leaseSeconds now) := by
  have hrow : ∀ (at_ until_ : DateTime) (row : OutboxRow),
      Raises (· ≠ identityTaken) (claimRow leaseOwner at_ until_ row) := by
    intro at_ until_ row
    refine raises_bind raises_get fun s => raises_ite raises_pure ?_
    refine raises_bind raises_set fun _ => raises_bind raises_get fun t => ?_
    split
    · exact raises_bind (raises_fromExcept raises_rowToEvent) fun event =>
        raises_bind (raises_fromExcept raises_verify) fun _ => raises_pure
    · exact raises_throw (by decide)
  have hend : ∀ err, leaseEnd now leaseSeconds = .error err → err ≠ identityTaken := by
    intro err h
    simp only [leaseEnd] at h
    split_ifs at h
    cases h
    decide
  refine raises_ite (raises_throw (by decide)) (raises_ite raises_pure
    (raises_ite (raises_throw (by decide)) ?_))
  refine raises_bind (raises_fromExcept hend) fun leaseUntil =>
    raises_bind (raises_fromExcept raises_bindInteger) fun bound => raises_transaction ?_
  exact raises_bind raises_get fun s => raises_bind (raises_mapM fun row => hrow _ _ row)
    fun _ => raises_pure

theorem raises_saveSnapshot {snapshot : SnapshotRecord} :
    Raises (· ≠ identityTaken) (saveSnapshot snapshot) := by
  have hverify : ∀ (record : SnapshotRecord) err, record.verify = .error err →
      err ≠ identityTaken := by
    intro record err h
    unfold SnapshotRecord.verify at h
    split_ifs at h <;> cases h <;> decide
  have hread : ∀ (row : SnapshotRecord) err, rowToSnapshot row = .error err →
      err ≠ identityTaken := by
    intro row err h
    unfold rowToSnapshot at h
    split_ifs at h
    · cases h
      decide
    · simp only [bind, Except.bind] at h
      split at h
      · rename_i err' herr
        cases h
        exact hverify _ err herr
      · cases h
  have hanswer : ∀ existing, Raises (· ≠ identityTaken) (answerSnapshot existing snapshot) :=
    fun existing => raises_bind (raises_fromExcept (hread existing)) fun _ =>
      raises_ite (raises_throw (by decide)) raises_pure
  refine raises_bind (raises_fromExcept (hverify snapshot)) fun _ => raises_transaction ?_
  refine raises_bind raises_get fun s => ?_
  split
  · exact raises_throw (by decide)
  · refine raises_ite (raises_throw (by decide)) ?_
    split
    · exact hanswer _
    · exact raises_bind raises_set fun _ => raises_pure

end Store

namespace Service

omit [Digest] in
theorem raises_demand {ok : Prop} [Decidable ok] {error : PyError} (h : error ≠ identityTaken) :
    Raises (· ≠ identityTaken) (demand ok error) := raises_ite raises_pure (raises_throw h)

theorem raises_drain {limit : Int} {readings : RelayReadings} :
    Raises (· ≠ identityTaken) (svc.drain limit readings) := by
  have hupdate : ∀ (record : OutboxRecord) (f : OutboxRow → OutboxRow),
      Raises (· ≠ identityTaken) (Store.updateLeased record f) := fun record f =>
    raises_bind raises_get fun _ => raises_bind raises_set fun _ => raises_pure
  have hrecord : ∀ record, Raises (· ≠ identityTaken) (relayRecord readings record) := by
    intro record
    unfold relayRecord
    split
    · exact raises_bind (raises_onPart (hupdate _ _)) fun _ =>
        raises_bind (raises_demand (by decide)) fun _ => raises_pure
    · exact raises_bind (raises_onPart (hupdate _ _)) fun _ =>
        raises_bind (raises_demand (by decide)) fun _ => raises_pure
  exact raises_bind (raises_onPart Store.raises_claimOutbox) fun records =>
    raises_bind (raises_mapM hrecord) fun _ => raises_pure

omit [Digest] in
theorem raises_authorizeIntent {eventType : String} {role : ProducerRole} {actor : ActorContext} :
    ∀ err, EventOwnershipPolicy.authorizeIntent eventType role actor = .error err →
      err ≠ identityTaken := by
  intro err h
  unfold EventOwnershipPolicy.authorizeIntent at h
  split at h
  · cases h
    nofun
  · split at h
    · cases h
      nofun
    · split at h <;> cases h
      nofun

omit [Digest] in
theorem raises_authorizeSubject {actor : ActorContext} {subjectId : Option String} :
    ∀ err, EventOwnershipPolicy.authorizeSubject actor subjectId = .error err →
      err ≠ identityTaken := by
  intro err h
  unfold EventOwnershipPolicy.authorizeSubject at h
  split at h <;> cases h
  nofun

omit [Digest] in
theorem raises_authorize {actor : ActorContext} :
    ∀ err, EventOwnershipPolicy.authorize e actor = .error err → err ≠ identityTaken := by
  intro err h
  unfold EventOwnershipPolicy.authorize at h
  split at h
  · cases h
    nofun
  · cases hintent : EventOwnershipPolicy.authorizeIntent e.eventType e.producerRole actor with
    | error err' =>
      simp only [hintent, bind, Except.bind, Except.error.injEq] at h
      exact h ▸ raises_authorizeIntent err' hintent
    | ok _ =>
      simp only [hintent, bind, Except.bind] at h
      exact raises_authorizeSubject err h

variable {actor : ActorContext} {x : Int} {readings : AppendReadings}

/-- **A rebuild is refused as taken** after an append where the latest state
does not take the event as it is read back. -/
theorem rebuild_taken {s s' : Store} {r : EventEnvelope} {now : Instant} (hs : Sound s)
    (hfresh : s.Fresh e x now r s') (hvalid : s'.Valid)
    (h : rebuild s' e.twinId false none none = .error identityTaken) :
    applied (latest s e.twinId) (Store.decode r) = .error identityTaken := by
  rw [rebuild_origin hvalid Store.bindable_none, Store.cutAt, hfresh.stream_self] at h
  rw [folded, List.foldlM_append] at h
  have hbefore : (s.stream e.twinId).foldlM applied { twinId := e.twinId } =
      .ok (latest s e.twinId) := folded_of_legal (hs.lawful e.twinId)
  rw [hbefore] at h
  cases happlied : applied (latest s e.twinId) (Store.decode r) with
  | ok after => simp [happlied, bind, Except.bind, pure, Except.pure] at h
  | error err => simpa [happlied, bind, Except.bind] using h

/-- A snapshot of a store that is rebuilt raises something else. -/
theorem snapshot_ne_taken {head : Int × String} {err : PyError}
    (hrebuilt : rebuild p.store e.twinId false none none ≠ .error identityTaken)
    (h : svc.snapshot head e readings p = .error err p') : err ≠ identityTaken := by
  have hprune : ∀ keep, Raises (· ≠ identityTaken) (Store.pruneSnapshots e.twinId keep) :=
    fun keep => raises_ite (raises_throw (by decide))
      (raises_bind (raises_fromExcept Store.raises_bindInteger) fun _ =>
        raises_bind raises_get fun _ => raises_bind raises_set fun _ => raises_pure)
  have hoverdue : ∀ before limit, Raises (· ≠ identityTaken) (Store.pruneOutbox before limit) :=
    fun before limit => raises_ite (raises_throw (by decide)) (raises_ite raises_pure
      (raises_bind (raises_fromExcept Store.raises_bindInteger) fun _ =>
        raises_bind raises_get fun _ => raises_bind raises_set fun _ => raises_pure))
  unfold snapshot at h
  split_ifs at h
  · have hread : (fromExcept (rebuild p.store e.twinId false none none) >>= fun state => do
        let _ ← onStore (Store.saveSnapshot (state.toSnapshot readings.snapshotted))
        let _ ← onStore (Store.pruneSnapshots e.twinId svc.snapshotRetention)
        let _ ← onStore (Store.pruneOutbox (DateTime.utc (readings.pruned - svc.outboxRetention))
          1000)
        pure ()) p = .error err p' := h
    rcases bind_eq_error hread with hrebuild | ⟨state, q, -, hrest⟩
    · rintro rfl
      exact hrebuilt (fromExcept_eq_error hrebuild)
    · exact raises_bind (raises_onPart Store.raises_saveSnapshot) (fun _ =>
        raises_bind (raises_onPart (hprune _)) fun _ =>
        raises_bind (raises_onPart (hoverdue _ _)) fun _ => raises_pure) q err p' hrest
  · cases h

omit [Digest] in
/-- What the checks of an append refuse as taken, the event's own do. -/
theorem vet_taken {q : Process} (h : vet e actor p = .error identityTaken q) :
    validateEvent e = .error identityTaken := by
  rcases bind_eq_error h with hauthorize | ⟨_, p₁, -, hrest⟩
  · exact absurd rfl (raises_authorize _ (fromExcept_eq_error hauthorize))
  rcases bind_eq_error hrest with hvalidate | ⟨_, p₂, -, hlast⟩
  · exact fromExcept_eq_error hvalidate
  · have hlater : Raises (· ≠ identityTaken) (do
        demand (e.plane ≠ .simulation) (.invariantViolation
          "simulation events belong to SimulationBranch, not the authoritative store")
        pure ((← get).store.head e.twinId) : Method (Int × String)) :=
      raises_bind (raises_demand (by decide)) fun _ => raises_bind raises_get fun _ => raises_pure
    exact absurd rfl (hlater _ _ _ hlast)

/-- What a preview refuses as taken, the latest state does. -/
theorem preview_taken {q : Process} {head : Int × String} {now : Instant} (hp : p.Healthy)
    (h : svc.preview e x head now p = .error identityTaken q) :
    applied (latest p.store e.twinId) (e.sealAt (x + 1) head.2 (DateTime.utc now)) =
      .error identityTaken := by
  unfold preview at h
  split_ifs at h
  · rcases bind_eq_error h with hlatest | ⟨ref, p₁, hlatest, htry⟩
    · obtain ⟨ref, p₁, hreturns⟩ := latestState_returns svc e.twinId hp.sound
      rw [Returns, hlatest] at hreturns
      cases hreturns
    · obtain ⟨-, -, hobject⟩ := served_latestState hp.sound hp.coherent hlatest
      rw [tryTransition] at htry
      rcases bind_eq_error htry with hget | ⟨p₂, p₃, hget, hchecked⟩
      · cases hget
      obtain ⟨hsame, rfl⟩ := returns_get.1 hget
      subst hsame
      rcases bind_eq_error hchecked with hposition | ⟨_, p₄, -, happlied⟩
      · exact absurd rfl (raises_demand (by decide) _ _ _ hposition)
      · rcases bind_eq_error happlied with hraised | ⟨_, _, -, hpure⟩
        · rw [hobject] at hraised
          exact fromExcept_eq_error hraised
        · cases hpure
  · cases h

/-- **What an append is refused for as taken**: its event says so by itself,
or the latest state does not take it, as it is sealed or as that is read
back. -/
theorem append_taken {q : Process} (hp : p.Healthy)
    (h : svc.append e actor x readings p = .error identityTaken q) :
    validateEvent e = .error identityTaken ∨ ∃ previousHash now,
      applied (latest p.store e.twinId) (e.sealAt (x + 1) previousHash now) =
          .error identityTaken ∨
        applied (latest p.store e.twinId) (Store.decode (e.sealAt (x + 1) previousHash now)) =
          .error identityTaken := by
  unfold append at h
  rcases bind_eq_error h with hvet | ⟨head, p₁, hvet, hpreviewing⟩
  · exact .inl (vet_taken hvet)
  obtain ⟨⟨-, hvalidated, hplane⟩, rfl, hsame⟩ := returns_vet.1 hvet
  subst hsame
  rcases bind_eq_error hpreviewing with hpreview | ⟨held, p₂, hpreview, hpersisting⟩
  · exact .inr ⟨_, _, .inl (preview_taken hp hpreview)⟩
  have hstore : p₂.store = p₁.store := by
    rw [← finalState_of_returns hpreview]
    exact store_preview
  rcases bind_eq_error hpersisting with hpersist | ⟨persisted, p₃, hpersist, hsettling⟩
  · have hraises : Raises (· ≠ identityTaken) (persist e x readings.recorded) :=
      raises_onPart Store.raises_append
    exact absurd rfl (hraises _ _ _ hpersist)
  -- once it is stored, the rest raises for other reasons
  obtain ⟨s', hstored, rfl⟩ := returns_onStore.1 hpersist
  rw [hstore] at hstored
  have hanswered := answered_append hp hvalidated hpreview hstored
  obtain ⟨p₄, hsettle, hsettled'⟩ := settles svc hp hvalidated hpreview hstored
  rcases bind_eq_error hsettling with hraised | ⟨_, p₅, hsettled, hrest⟩
  · rw [Returns, hraised] at hsettle
    cases hsettle
  have hsame : p₅ = p₄ := by
    rw [← finalState_of_returns hsettled, ← finalState_of_returns hsettle]
  rcases bind_eq_error hrest with hsnapshot | ⟨_, p₆, -, hdraining⟩
  · have hrebuilt : rebuild s' persisted.twinId false none none = .error identityTaken := by
      by_contra hother
      refine absurd rfl (snapshot_ne_taken ?_ hsnapshot)
      rwa [hsame, hsettled']
    rcases hanswered with ⟨rfl, -, -⟩ | ⟨-, hfresh⟩
    · rw [hp.sound.rebuild_latest] at hrebuilt
      cases hrebuilt
    · have haware := (header_of_validateEvent hvalidated).2.1
      have hvalid := hfresh.valid hp.sound.valid haware (Store.returns_append.1 hstored).1 hplane
      rw [hfresh.sealed, Store.sealAt_twinId] at hrebuilt
      have htaken := rebuild_taken hp.sound hfresh hvalid hrebuilt
      rw [hfresh.sealed] at htaken
      exact .inr ⟨_, _, .inr htaken⟩
  · rcases bind_eq_error hdraining with hdrain | ⟨_, _, -, hpure⟩
    · exact absurd rfl (raises_drain _ _ _ hdrain)
    · cases hpure

omit [Digest] in
/-- Evidence is not refused as taken by the checks on it alone. -/
theorem validate_ne_taken (hkind : e.kind = .evidenceIngested) :
    validateEvent e ≠ .error identityTaken := by
  have hreject : ∀ (bad : Bool) (message : String), PyError.invariantViolation message ≠
      identityTaken → ∀ err, rejectIf bad message = .error err → err ≠ identityTaken := by
    intro bad message hother err h
    cases bad <;> simp only [rejectIf] at h <;> cases h
    exact hother
  have hmissing : ∀ text, PyError.invariantViolation ("EvidenceIngested missing fields: " ++ text) ≠
      identityTaken := by
    intro text h
    simp only [identityTaken, PyError.invariantViolation.injEq] at h
    have hchars := congrArg String.toList h
    simp at hchars
  have hheader : ∀ err, checkHeader e = .error err → err ≠ identityTaken :=
    error_of_bind (hreject _ _ (by decide)) fun _ => error_of_bind (hreject _ _ (by decide))
      fun _ => error_of_bind (hreject _ _ (by decide)) fun _ =>
      error_of_bind (hreject _ _ (by decide)) fun _ =>
      error_of_bind (hreject _ _ (by decide)) fun _ => hreject _ _ (by decide)
  have hpayload : ∀ err, checkEvidenceIngested e.payload = .error err → err ≠ identityTaken := by
    refine error_of_bind (hreject _ _ (hmissing _)) fun _ =>
      error_of_bind (hreject _ _ (by decide)) fun _ =>
      error_of_bind (hreject _ _ (by decide)) fun _ err h => ?_
    split at h <;> cases h
    decide
  refine fun h => error_of_bind hheader (fun _ err h => ?_) _ h rfl
  rw [checkPayload, hkind] at h
  exact hpayload err h

omit [Digest] in
/-- **Evidence is refused as taken only where its name is held.** -/
theorem held_of_taken {s : TwinState} (hkind : e.kind = .evidenceIngested)
    (h : applied s e = .error identityTaken) : idOf e.payload "evidence_id" ∈ s.evidence := by
  have hrequire : ∀ key, Raises (· ≠ identityTaken) (requireStr e.payload key) := by
    refine fun key => raises_fromExcept fun err herr => ?_
    unfold Payload.require at herr
    split at herr <;> cases herr
    nofun
  have hraiseIf : ∀ (bad : Prop) [Decidable bad] (message : String),
      PyError.invariantViolation message ≠ identityTaken →
      Raises (· ≠ identityTaken) (raiseIf bad message) := fun bad _ message hother =>
    raises_ite (raises_throw hother) raises_pure
  have hbind : ∀ subjectId, Raises (· ≠ identityTaken) (bindSubject subjectId) := fun subjectId =>
    raises_bind (hraiseIf _ _ (by decide)) fun _ => raises_bind raises_get fun _ =>
      raises_bind (hraiseIf _ _ (by decide)) fun _ => raises_set
  obtain ⟨after, happly⟩ : ∃ after, apply e s = .error identityTaken after := by
    unfold applied at h
    split at h
    · cases h
    · rename_i err after herr
      cases h
      exact ⟨after, herr⟩
  rcases bind_eq_error happly with hvalidate | ⟨_, s₁, hvalidate, hrest⟩
  · exact absurd (fromExcept_eq_error hvalidate) (validate_ne_taken hkind)
  obtain ⟨-, rfl⟩ := returns_fromExcept.1 hvalidate
  rcases bind_eq_error hrest with hplane | ⟨_, s₂, hplane, hkinds⟩
  · exact absurd rfl (hraiseIf _ _ (by decide) _ _ _ hplane)
  obtain ⟨-, rfl⟩ := returns_raiseIf.1 hplane
  rcases bind_eq_error hkinds with hraised | ⟨_, _, -, hmoved⟩
  swap
  · cases hmoved
  rw [applyKind, hkind] at hraised
  -- the branch binds the subject, and then looks for the name
  rcases bind_eq_error hraised with hsubject | ⟨subjectId, s₃, hsubject, hbinding⟩
  · exact absurd rfl (hrequire _ _ _ _ hsubject)
  obtain ⟨-, rfl⟩ := returns_requireStr.1 hsubject
  rcases bind_eq_error hbinding with hbound | ⟨_, s₄, hbound, hnaming⟩
  · exact absurd rfl (hbind _ _ _ _ hbound)
  obtain ⟨-, rfl⟩ := returns_bindSubject.1 hbound
  rcases bind_eq_error hnaming with hname | ⟨name, s₅, hname, hlooking⟩
  · exact absurd rfl (hrequire _ _ _ _ hname)
  obtain ⟨⟨-, rfl⟩, rfl⟩ := returns_requireStr.1 hname
  rcases bind_eq_error hlooking with hget | ⟨s₆, s₇, hget, htaken⟩
  · cases hget
  obtain ⟨hsame, rfl⟩ := returns_get.1 hget
  by_contra hfree
  rcases bind_eq_error htaken with hheld | ⟨_, _, -, hadded⟩
  · have hnot : idOf e.payload "evidence_id" ∉ s₆.evidence := by
      rw [hsame]
      exact hfree
    rw [raiseIf, if_neg hnot] at hheld
    cases hheld
  · cases hadded

variable {args : IngestEvidence}

/-- Up to its event an ingestion is refused for other reasons, and reads the
subject of the latest state. -/
theorem ingestEvidence_outcome (svc : Service) (args : IngestEvidence) (ctx : WriteContext)
    (hp : p.Healthy) :
    (∃ err q, Prepare.ingestEvidence svc args ctx p = .error err q ∧ err ≠ identityTaken) ∨
      ∃ e q, Returns (Prepare.ingestEvidence svc args ctx) p e q ∧ Served p q ∧
        ((latest p.store args.twinId).subjectId = none ∨
          (latest p.store args.twinId).subjectId = some args.subjectId) := by
  obtain ⟨q, hstate, hserved⟩ := served_state svc hp args.twinId
  have hsubject : Raises (· ≠ identityTaken) (demand
      ((latest p.store args.twinId).subjectId = none ∨
        (latest p.store args.twinId).subjectId = some args.subjectId)
      (.invariantViolation "evidence subject does not match twin subject")) :=
    raises_demand (by decide)
  cases hresult : Prepare.ingestEvidence svc args ctx p with
  | ok e q' =>
    right
    have hreturns : Returns (Prepare.ingestEvidence svc args ctx) p e q' := hresult
    simp only [Prepare.ingestEvidence, returns_bind, returns_pure] at hreturns
    obtain ⟨_, _, hintent, _, _, hactor, state, p₁, hpeek, _, _, hdemand, rfl, rfl⟩ := hreturns
    obtain ⟨-, rfl⟩ := returns_fromExcept.1 hintent
    obtain ⟨-, rfl⟩ := returns_fromExcept.1 hactor
    rw [peekState, Returns, hstate] at hpeek
    cases hpeek
    obtain ⟨hbound, rfl⟩ := returns_demand.1 hdemand
    exact ⟨_, _, hresult, hserved, hbound⟩
  | error err q' =>
    left
    refine ⟨err, q', rfl, ?_⟩
    rcases bind_eq_error hresult with hintent | ⟨_, _, hintent, hrest⟩
    · exact raises_authorizeIntent _ (fromExcept_eq_error hintent)
    obtain ⟨-, rfl⟩ := returns_fromExcept.1 hintent
    rcases bind_eq_error hrest with hactor | ⟨_, _, hactor, hreading⟩
    · exact raises_authorizeSubject _ (fromExcept_eq_error hactor)
    obtain ⟨-, rfl⟩ := returns_fromExcept.1 hactor
    rcases bind_eq_error hreading with hpeek | ⟨state, _, hpeek, hlooking⟩
    · rw [peekState, hstate] at hpeek
      cases hpeek
    · rcases bind_eq_error hlooking with hdemand | ⟨_, _, -, hmade⟩
      · exact raises_demand (by decide) _ _ _ hdemand
      · cases hmade

/-- **What an ingestion is refused for as taken**: the name of its record
is held. -/
theorem ingest_taken {with_ : Collaborators} {q : Process} (hp : p.Healthy)
    (h : svc.write with_ (.ingestEvidence args) ctx p = .error identityTaken q) :
    ((latest p.store args.twinId).subjectId = none ∨
      (latest p.store args.twinId).subjectId = some args.subjectId) ∧
    Digest.uuid5 (SourceRecord.joined args.twinId args.subjectId
      ⟨args.source, args.sourceRecordId⟩) ∈ (latest p.store args.twinId).evidence := by
  rcases ingestEvidence_outcome svc args ctx hp with ⟨err, q', herror, hother⟩ |
    ⟨e, q', hreturns, hserved, hbound⟩
  · rcases bind_eq_error h with hprepare | ⟨e, _, hprepare, -⟩
    · rw [prepare, herror] at hprepare
      cases hprepare
      exact absurd rfl hother
    · rw [prepare, Returns, herror] at hprepare
      cases hprepare
  · refine ⟨hbound, ?_⟩
    rcases bind_eq_error h with hprepare | ⟨e', q'', hprepare, happend⟩
    · rw [prepare, hreturns] at hprepare
      cases hprepare
    · rw [prepare, Returns, hreturns] at hprepare
      cases hprepare
      obtain ⟨htwin, hingested⟩ := returns_ingestEvidence hreturns
      have hevidence := hingested.evidenceId
      have hread := (reread_ingestEvidence hreturns).evidenceId
      rcases append_taken (hserved.healthy hp) happend with hvalidate |
        ⟨hash, now, happlied | happlied⟩
      · exact absurd hvalidate (validate_ne_taken hingested.kind)
      · have hheld := held_of_taken (e := e.sealAt (ctx.expectedSequence + 1) hash now)
          hingested.kind happlied
        rw [hserved.store, htwin] at hheld
        rw [htwin] at hevidence
        rwa [← hevidence]
      · have hheld := held_of_taken (e := Store.decode (e.sealAt (ctx.expectedSequence + 1) hash now))
          hingested.kind happlied
        have hname : idOf (Store.decode (e.sealAt (ctx.expectedSequence + 1) hash now)).payload
            "evidence_id" = _ := hread
        have htwin' : (Store.decode e).twinId = args.twinId := htwin
        rw [hserved.store, htwin, hname, htwin'] at hheld
        exact hheld

end Service

/-! ## Distinct records -/

/-- The call of a write method, as an ingestion of this record. -/
def IngestEvidence.record (args : IngestEvidence) : SourceRecord :=
  ⟨args.source, args.sourceRecordId⟩

/-- **Distinct records get distinct evidence exactly where they are not
spelt alike.** Where the digest tells texts apart, two ingestions of
different records for one subject of one twin name their evidence
differently just when neither record runs into the other. And in any
ledger reached by vetted steps that append evidence under its own name, a
record not ingested before that no ingested one is spelt like is not
refused as taken. -/
theorem distinct_records (hinj : Function.Injective Digest.uuid5) :
    (∀ (svc svc' : Service) (args args' : IngestEvidence) (ctx ctx' : WriteContext)
      (p p' q q' : Process) (e e' : EventEnvelope),
      Returns (Service.Prepare.ingestEvidence svc args ctx) p e q →
      Returns (Service.Prepare.ingestEvidence svc' args' ctx') p' e' q' →
      args.twinId = args'.twinId → args.subjectId = args'.subjectId →
      args.record ≠ args'.record →
      (idOf e.payload "evidence_id" ≠ idOf e'.payload "evidence_id" ↔
        ¬ args.record.SpeltAlike args'.record)) ∧
    (∀ (h : History) (p : Process) (svc : Service) (with_ : Collaborators)
      (args : IngestEvidence) (ctx : WriteContext),
      Reachable History.step OwnNames {} h → p.store = h.store →
      p.memory.Coherent p.store →
      (∀ e ∈ h.store.stream args.twinId, ¬ e.IngestedFrom args.subjectId args.record) →
      (∀ e ∈ h.store.stream args.twinId, ∀ record, e.IngestedFrom args.subjectId record →
        ¬ record.SpeltAlike args.record) →
      outcome (svc.write with_ (.ingestEvidence args) ctx) p ≠ .error identityTaken) := by
  constructor
  · intro svc svc' args args' ctx ctx' p p' q q' e e' he he' htwin hsubject hrecord
    obtain ⟨heq, hingested⟩ := Service.returns_ingestEvidence he
    obtain ⟨heq', hingested'⟩ := Service.returns_ingestEvidence he'
    rw [hingested.evidenceId, hingested'.evidenceId, heq, heq', htwin, hsubject, Ne, hinj.eq_iff,
      SourceRecord.joined_eq_iff]
    constructor
    · exact fun hdiffer halike => hdiffer (.inr halike)
    · rintro hunlike (hsame | halike)
      · exact hrecord hsame
      · exact hunlike halike
  · intro h p svc with_ args ctx hreach hstore hcoherent hnever hunlike htaken
    have hsound : Sound h.store := LedgerReachable.sound (hreach.mono fun _ _ hop => hop.1)
    have hhealthy : p.Healthy := ⟨hstore ▸ hsound, hcoherent⟩
    obtain ⟨q, hraised⟩ : ∃ q,
        svc.write with_ (.ingestEvidence args) ctx p = .error identityTaken q := by
      unfold outcome at htaken
      split at htaken
      · cases htaken
      · rename_i err q hraised
        cases htaken
        exact ⟨q, hraised⟩
    -- the identity is taken, so some record of the ledger is spelt like this one
    obtain ⟨hbound, hheld⟩ := Service.ingest_taken hhealthy hraised
    rw [hstore] at hbound hheld
    refine free_of_new hinj hreach hbound (fun e he record hrecord => ⟨?_, ?_⟩) hheld
    · rintro rfl
      exact hnever e he hrecord
    · exact hunlike e he record hrecord

/-- Texts told apart by their names. -/
@[reducible] def namingDigest : Digest := ⟨checksum, fun text => text⟩

/-- A record of a source, ingested for the subject `s` of the twin `t`. -/
def ingestion (source recordId : String) : IngestEvidence where
  twinId := "t"
  subjectId := "s"
  source := source
  sourceRecordId := recordId
  payload := ∅
  rights := ∅
  sensitivity := .internal
  validFrom := DateTime.utc 0
  validUntil := none
  independenceGroup := "g"

/-- A write at this head, under a key of its own. -/
def writeAt (actor : ActorContext) (head : Int) (key : String) : WriteContext where
  actor := actor
  expectedSequence := head
  idempotencyKey := key
  readings := ⟨⟨0, key⟩, ⟨0, fun _ => ⟨0, key⟩, ⟨0, key⟩⟩,
    ⟨0, 0, 0, 0, ⟨0, fun _ => 0, fun _ => none⟩⟩⟩

omit [Digest] in
/-- **Two sources, one name**: record `c` of the source `a:b` and record
`b:c` of the source `a` are two records, and the second is refused. -/
theorem records_confounded : let _ : Digest := namingDigest
    let first : Process := finalState (Service.write {} {} (.ingestEvidence (ingestion "a:b" "c"))
      (writeAt ingestActor 0 "key-1")) {}
    Function.Injective Digest.uuid5 ∧
      (ingestion "a:b" "c").record ≠ (ingestion "a" "b:c").record ∧
      (first.store.stream "t").length = 1 ∧
      outcome (Service.write {} {} (.ingestEvidence (ingestion "a" "b:c"))
        (writeAt ingestActor 1 "key-2")) first = .error identityTaken := by
  intro digest first
  refine ⟨fun _ _ h => h, by decide, ?_, ?_⟩
  · decide +kernel
  · decide +kernel

/-- Record `1` of a sensor. -/
def sensorEvent : EventEnvelope :=
  EventEnvelope.new "t" "EvidenceIngested" .authoritative
    ((evidencePayload (Digest.uuid5 "t:s:sensor:1")).insert "source_record_id" (.str "1")) "ingest"
    .ingestService "key-1" none none ⟨0, "event-1"⟩

omit [Digest] in
/-- A camera's record of the same number is another one. -/
theorem distinct_records_camera : let _ : Digest := namingDigest
    let h := History.step {} (.append sensorEvent 0 1 none)
    outcome (Service.write {} {} (.ingestEvidence (ingestion "camera" "1"))
      (writeAt ingestActor 1 "key-2")) ⟨h.store, {}⟩ ≠ .error identityTaken := by
  intro digest h
  have hinj : Function.Injective Digest.uuid5 := fun _ _ h => h
  have hop : OwnNames {} (.append sensorEvent 0 1 none) := by
    refine ⟨⟨rfl, fun r after hfresh => ?_⟩, fun e x now fault heq => ?_⟩
    · rw [hfresh.sealed]
      have hlegal : Legal { twinId := "t" }
          [Store.decode (sensorEvent.sealAt (0 + 1) "" (DateTime.utc 1))] :=
        legal_of_folded (by decide +kernel)
      exact hlegal.1
    · cases heq
      exact fun _ => ⟨"s", .inl ⟨⟨"sensor", "1"⟩, rfl, by decide +kernel, by decide +kernel,
        by decide +kernel, by decide +kernel⟩⟩
  have hreach : Reachable History.step OwnNames {} h := .step _ .init hop
  -- the ledger holds the sensor's record alone
  have honly : ∀ e ∈ h.store.stream "t", ∀ record, e.IngestedFrom "s" record →
      record = ⟨"sensor", "1"⟩ := by
    intro e he record hrecord
    have hall : ∀ e ∈ h.store.stream "t", idOf e.payload "source" = "sensor" ∧
        idOf e.payload "source_record_id" = "1" := by decide +kernel
    obtain ⟨hsource, hid⟩ := hall e he
    rw [hrecord.source] at hsource
    rw [hrecord.recordId] at hid
    cases record
    simp_all
  refine (distinct_records hinj).2 h ⟨h.store, {}⟩ {} {} (ingestion "camera" "1")
    (writeAt ingestActor 1 "key-2") hreach rfl Memory.coherent_empty ?_ ?_
  · intro e he hrecord
    have habsurd := honly e he _ hrecord
    exact absurd habsurd (by decide)
  · intro e he record hrecord
    obtain rfl := honly e he record hrecord
    rintro (⟨more, hsource, -⟩ | ⟨more, hsource, -⟩)
    · have hchars := congrArg String.toList hsource
      simp [ingestion, IngestEvidence.record] at hchars
    · have hchars := congrArg String.toList hsource
      simp [ingestion, IngestEvidence.record] at hchars

end ArgoTwin
