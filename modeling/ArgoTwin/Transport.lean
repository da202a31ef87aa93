import ArgoTwin.Contracts
import ArgoTwin.TimeText
/-!
# The public API over a transport

A client that sends every request, reply and failure of the public API as
JSON text. What a contract writes on the wire it reads back, so the client
is the backend it stands for.
-/

namespace ArgoTwin

open Library

open TwinState (except_ok_bind)

/-! ## The client -/

namespace TransportSimulatedK2Client

variable {σ : Type} (r : Json.Reader)

/-- A value written on the wire, sent as text, and read off it. -/
def sent {α : Type} (toWire : α → Payload) (fromWire : Payload → Except PyError α) (x : α) :
    Except PyError α := do
  let wire ← jsonRoundTrip r (toWire x)
  fromWire wire

/-- What is raised of a value that is sent. -/
def crossing {α : Type} (toWire : α → Payload) (fromWire : Payload → Except PyError α) (x : α) :
    Except Raised α :=
  (sent r toWire fromWire x).mapError .other

/-- The handler of `_transport_call`. -/
def transportFailure : Raised → Raised
  | .other e => .other e
  | .k2 e =>
    let transported := do
      let reported ← Checked.build PublicErrorFields.postInit
        { code := e.code, safeMessage := e.message, retryable := e.retryable }
      sent r (fun error : PublicError => error.val.toWire) PublicErrorFields.fromWire reported
    match transported with
    | .ok error => .k2 ⟨error.val.code, error.val.safeMessage⟩
    | .error raised => .other raised

/-- A result that may be `None` is sent if there is one. -/
def crossingIfAny (result : Option AdmissionResult) : Except Raised (Option AdmissionResult) :=
  match result with
  | none => .ok none
  | some result => (crossing r (fun a => a.val.toWire) AdmissionFields.fromWire result).map some

/-- The client of a backend. -/
def client (backend : K2PublicAPI σ) : K2PublicAPI σ where
  admitEvidence := carried (crossing r (fun a => a.val.toWire) AdmitEvidenceFields.fromWire)
    (crossing r (fun a => a.val.toWire) AdmissionFields.fromWire) (transportFailure r)
    backend.admitEvidence
  getAdmissionResult := carried
    (crossing r AdmissionLookupRequest.toWire AdmissionLookupRequest.fromWire) (crossingIfAny r)
    (transportFailure r) backend.getAdmissionResult
  readRepresentationState := carried
    (crossing r RepresentationQuery.toWire RepresentationQuery.fromWire)
    (crossing r RepresentationStateView.toWire RepresentationStateView.fromWire)
    (transportFailure r) backend.readRepresentationState
  readRepresentationDeficits := carried
    (crossing r RepresentationQuery.toWire RepresentationQuery.fromWire)
    (List.mapM (crossing r RepresentationDeficit.toWire RepresentationDeficit.fromWire))
    (transportFailure r) backend.readRepresentationDeficits
  traceLineage := carried (crossing r LineageQuery.toWire LineageQuery.fromWire)
    (crossing r LineageTraceView.toWire LineageTraceView.fromWire) (transportFailure r)
    backend.traceLineage

end TransportSimulatedK2Client

open TransportSimulatedK2Client

/-! ## What is written is read -/

section Codecs

variable {r : Json.Reader} {nearest : PyFloat → Option PyFloat}

/-- A proper wire value is read off its text. -/
theorem jsonRoundTrip_eq {value : Payload} (h : Json.Proper r.nearest (.ofPayload value)) :
    jsonRoundTrip r value = .ok value := by
  rw [jsonRoundTrip, Json.loads_dumps r h]
  exact congrArg Except.ok (Payload.ofFields_toList value)

/-- A dictionary display of proper values is proper. -/
theorem proper_ofFields {fields : List (String × Json)}
    (h : ∀ field ∈ fields, Json.Proper nearest field.2) :
    Json.Proper nearest (.ofPayload (.ofFields fields)) := by
  rw [← Payload.object_eq]
  exact Json.proper_object h

theorem proper_strs {texts : List String} : Json.Proper nearest (.arr (texts.map .str)) := by
  show Json.ProperItems nearest (texts.map .str)
  rw [Json.properItems_iff, List.forall_mem_map]
  exact fun _ _ => trivial

theorem proper_items {α : Type} {write : α → Payload} {xs : List α}
    (h : ∀ x ∈ xs, Json.Proper nearest (.ofPayload (write x))) :
    Json.Proper nearest (.arr (xs.map fun x => .ofPayload (write x))) := by
  show Json.ProperItems nearest (xs.map fun x => .ofPayload (write x))
  rw [Json.properItems_iff, List.forall_mem_map]
  exact h

theorem proper_optionalJson {text : Option String} : Json.Proper nearest (optionalJson text) := by
  cases text <;> trivial

/-- **What is written on the wire and read back off it is sent.** -/
theorem sent_eq {α : Type} {toWire : α → Payload} {fromWire : Payload → Except PyError α} {x : α}
    (hproper : Json.Proper r.nearest (.ofPayload (toWire x)))
    (hread : fromWire (toWire x) = .ok x) : sent r toWire fromWire x = .ok x := by
  rw [sent, jsonRoundTrip_eq hproper]
  exact hread

section Reading

variable {value p : Payload} {key message text : String}

/-- A field of a dictionary display. -/
theorem field_of {fields : List (String × Json)} {found : Json}
    (h : fields.reverse.lookup key = some found) :
    (Payload.ofFields fields)[key]? = some found := by
  rw [Payload.getElem?_ofFields, h]

theorem strD_of (h : value[key]? = some (.str text)) : value.strD key "" = text := by
  rw [Payload.strD, h]
  rfl

theorem optionalText_of {found : Option String} (h : value[key]? = some (optionalJson found)) :
    value.optionalText key = found := by
  rw [Payload.optionalText, h]
  cases found <;> rfl

theorem requireDict_of (h : value[key]? = some (.ofPayload p)) :
    value.requireDict key message = .ok p := by
  rw [Payload.requireDict, h]
  exact congrArg Except.ok (Payload.ofFields_toList p)

theorem requireArray_of {items : List Json} (h : value[key]? = some (.arr items)) :
    value.requireArray key message = .ok items := by
  rw [Payload.requireArray, h]

theorem map_pyStr (texts : List String) : (texts.map Json.str).map Json.pyStr = texts := by
  rw [List.map_map]
  exact List.map_id texts

theorem stringTuple_of {texts : List String} (h : value[key]? = some (.arr (texts.map .str))) :
    value.stringTuple key = .ok texts := by
  rw [Payload.stringTuple, requireArray_of h]
  exact congrArg Except.ok (map_pyStr texts)

theorem parseInt_of {n : Int} (h : value[key]? = some (.int n)) : value.parseInt key = .ok n := by
  rw [Payload.parseInt, h]

end Reading

/-! Each contract, in the order they rest on one another. -/

theorem PublicErrorCode.ofValue_value (code : PublicErrorCode) : ofValue code.value = .ok code := by
  cases code <;> rfl

theorem PublicErrorFields.fromWire_toWire (e : PublicError) : fromWire e.val.toWire = .ok e := by
  unfold fromWire toWire
  rw [strD_of (field_of rfl), strD_of (field_of rfl), PublicErrorCode.ofValue_value,
    @field_of "retryable" _ _ rfl]
  exact Checked.build_val e

theorem AuthorityFields.fromWire_toWire (a : AuthorityContext) :
    fromWire a.val.toWire = .ok a := by
  unfold fromWire toWire
  rw [requireArray_of (field_of rfl), except_ok_bind, strD_of (field_of rfl),
    optionalText_of (field_of rfl), map_pyStr]
  exact Checked.build_val a

theorem SubjectRef.build_subjectId (s : SubjectRef) : SubjectRef.build s.subjectId = .ok s := by
  rw [SubjectRef.build, dif_neg s.required]

theorem RepresentationSnapshotRef.fromWire_toWire (s : RepresentationSnapshotRef) :
    fromWire s.toWire = .ok s := by
  unfold fromWire toWire SubjectRef.toWire
  rw [requireDict_of (field_of rfl), except_ok_bind, strD_of (field_of rfl),
    SubjectRef.build_subjectId, except_ok_bind, parseInt_of (field_of rfl), except_ok_bind,
    strD_of (field_of rfl), strD_of (field_of rfl), build, dif_neg s.required.1,
    dif_neg s.required.2, dif_neg (Int.not_lt.2 s.notNegative)]

theorem RepresentationSnapshotRef.optionalFromWire_toWire
    (position : Option RepresentationSnapshotRef) :
    optionalFromWire (some (optionalToWire position)) = .ok position := by
  cases position with
  | none => rfl
  | some position =>
    show (RepresentationSnapshotRef.fromWire (.ofFields position.toWire.toList)).map some = _
    rw [Payload.ofFields_toList, fromWire_toWire]
    rfl

theorem EffectFields.fromWire_toWire (e : CanonicalEffect) :
    fromWire (.ofPayload e.val.toWire) = .ok e := by
  unfold fromWire
  have hitem : itemDict "canonical effect must be an object" (.ofPayload e.val.toWire) =
      .ok e.val.toWire := congrArg Except.ok (Payload.ofFields_toList _)
  rw [hitem, except_ok_bind]
  unfold toWire
  rw [requireDict_of (field_of rfl), except_ok_bind, RepresentationSnapshotRef.fromWire_toWire,
    except_ok_bind, strD_of (field_of rfl), strD_of (field_of rfl), strD_of (field_of rfl),
    strD_of (field_of rfl)]
  exact Checked.build_val e

theorem AdmissionStatus.ofValue_value (status : AdmissionStatus) :
    ofValue status.value = .ok status := by
  cases status <;> rfl

theorem AdmissionDisposition.ofValue_value (disposition : AdmissionDisposition) :
    ofValue disposition.value = .ok disposition := by
  cases disposition <;> rfl

/-- An optional field is read back where its values are. -/
theorem option_mapM_read {α β : Type} {write : α → β} {read : β → Except PyError α}
    (x : Option α) (h : ∀ a, x = some a → read (write a) = .ok a) :
    (x.map write).mapM read = .ok x := by
  cases x with
  | none => rfl
  | some a =>
    show (read (write a)).map some = _
    rw [h a rfl]
    rfl

theorem AdmissionFields.fromWire_toWire (a : AdmissionResult) : fromWire a.val.toWire = .ok a := by
  unfold fromWire toWire
  rw [requireArray_of (field_of rfl), except_ok_bind, mapM_read EffectFields.fromWire_toWire,
    except_ok_bind, strD_of (field_of rfl), AdmissionStatus.ofValue_value, except_ok_bind,
    optionalText_of (field_of rfl),
    option_mapM_read _ fun disposition _ => AdmissionDisposition.ofValue_value disposition,
    except_ok_bind, strD_of (field_of rfl), strD_of (field_of rfl), optionalText_of (field_of rfl),
    @field_of "resulting_representation_state_ref" _ _ rfl,
    RepresentationSnapshotRef.optionalFromWire_toWire, except_ok_bind, Payload.truthy,
    @field_of "replayed" _ _ rfl]
  exact Checked.build_val a

/-- The times of a request are such as a `datetime` can hold: a day of the
calendar, and an offset of less than a day. -/
def Printable (d : DateTime) : Prop :=
  DateTime.Representable d.wall ∧
    ∀ offset, d.utcoffset = some offset → offset.natAbs < 86400 * 1000000

/-- **A time is read back with its offset.** -/
theorem parseZoned_isoformat {d : DateTime} (hprintable : Printable d) (haware : d.naive = false) :
    parseZoned d.isoformat = .ok d := by
  rw [parseZoned, DateTime.expandZ_isoformat,
    DateTime.fromIsoformat_isoformat hprintable.1 hprintable.2]
  exact if_neg (by simp [haware])

/-- A request the transport can be asked to carry: its evidence and rights
are objects of JSON, and its times are times. -/
structure Sendable (nearest : PyFloat → Option PyFloat) (a : AdmitEvidenceFields) : Prop where
  evidence : Json.Proper nearest (.ofPayload a.boundedEvidence)
  rights : Json.Proper nearest (.ofPayload a.rights)
  validFrom : Printable a.validFrom
  validUntil : ∀ time, a.validUntil = some time → Printable time

/-- A request that was built has an offset to its times. -/
theorem AdmitEvidenceFields.aware (a : AdmitEvidenceRequest) :
    a.val.validFrom.naive = false ∧
      ∀ time, a.val.validUntil = some time → time.naive = false := by
  obtain ⟨a, hvalid⟩ := a
  have hunit : ∀ {x : Except PyError Unit} {rest : Unit → Except PyError Unit},
      (x >>= rest) = .ok () → x = .ok () ∧ rest () = .ok () := fun h => by
    obtain ⟨⟨⟩, hx, hrest⟩ := bind_eq_ok.1 h
    exact ⟨hx, hrest⟩
  unfold postInit at hvalid
  obtain ⟨-, hvalid⟩ := hunit hvalid
  obtain ⟨-, hvalid⟩ := hunit hvalid
  obtain ⟨-, hvalid⟩ := hunit hvalid
  obtain ⟨-, hvalid⟩ := hunit hvalid
  obtain ⟨-, hvalid⟩ := hunit hvalid
  obtain ⟨-, hvalid⟩ := hunit hvalid
  obtain ⟨-, hvalid⟩ := hunit hvalid
  obtain ⟨-, hvalid⟩ := hunit hvalid
  obtain ⟨hfrom, hvalid⟩ := hunit hvalid
  refine ⟨Bool.eq_false_of_not_eq_true (violationIf_eq_ok.1 hfrom), fun time htime => ?_⟩
  rw [htime] at hvalid
  obtain ⟨huntil, -⟩ := hunit hvalid
  exact Bool.eq_false_of_not_eq_true (violationIf_eq_ok.1 huntil)

theorem AdmitEvidenceFields.fromWire_toWire (a : AdmitEvidenceRequest)
    (h : Sendable nearest a.val) : fromWire a.val.toWire = .ok a := by
  obtain ⟨hfrom, huntil⟩ := aware a
  have hversion : a.val.toWire["schema_version"]? = some (.str schemaVersion) := field_of rfl
  unfold fromWire
  rw [hversion, violationIf_eq_ok.2 (fun hne => hne rfl)]
  unfold toWire SubjectRef.toWire
  rw [except_ok_bind, requireDict_of (field_of rfl), except_ok_bind, requireDict_of (field_of rfl),
    except_ok_bind, requireDict_of (field_of rfl), except_ok_bind, requireDict_of (field_of rfl),
    except_ok_bind, strD_of (field_of rfl), SubjectRef.build_subjectId, except_ok_bind,
    strD_of (field_of rfl), parseZoned_isoformat h.validFrom hfrom, except_ok_bind,
    optionalText_of (field_of rfl),
    option_mapM_read _ fun time htime => parseZoned_isoformat (h.validUntil time htime)
      (huntil time htime), except_ok_bind, parseInt_of (field_of rfl), except_ok_bind,
    AuthorityFields.fromWire_toWire, except_ok_bind, strD_of (field_of rfl),
    strD_of (field_of rfl), strD_of (field_of rfl), strD_of (field_of rfl), strD_of (field_of rfl),
    strD_of (field_of rfl), optionalText_of (field_of rfl), optionalText_of (field_of rfl),
    optionalText_of (field_of rfl)]
  exact Checked.build_val a

theorem AdmissionLookupRequest.fromWire_toWire (q : AdmissionLookupRequest) :
    fromWire q.toWire = .ok q := by
  unfold fromWire toWire
  rw [requireDict_of (field_of rfl), except_ok_bind, AuthorityFields.fromWire_toWire,
    except_ok_bind, strD_of (field_of rfl), strD_of (field_of rfl)]
  rfl

theorem RepresentationQuery.fromWire_toWire (q : RepresentationQuery) :
    fromWire q.toWire = .ok q := by
  unfold fromWire toWire
  rw [requireDict_of (field_of rfl), except_ok_bind, AuthorityFields.fromWire_toWire,
    except_ok_bind, strD_of (field_of rfl)]
  rfl

theorem PublicLineageNodeKind.ofValue_value (kind : PublicLineageNodeKind) :
    ofValue kind.value = .ok kind := by
  cases kind <;> rfl

theorem LineageQuery.fromWire_toWire (q : LineageQuery) : fromWire q.toWire = .ok q := by
  unfold fromWire toWire
  rw [requireDict_of (field_of rfl), except_ok_bind, strD_of (field_of rfl),
    PublicLineageNodeKind.ofValue_value, except_ok_bind, AuthorityFields.fromWire_toWire,
    except_ok_bind, strD_of (field_of rfl), strD_of (field_of rfl)]
  rfl

theorem RepresentationStateView.fromWire_toWire (v : RepresentationStateView) :
    fromWire v.toWire = .ok v := by
  unfold fromWire toWire SubjectRef.toWire
  rw [requireDict_of (field_of rfl), except_ok_bind, requireDict_of (field_of rfl), except_ok_bind,
    strD_of (field_of rfl), SubjectRef.build_subjectId, except_ok_bind,
    RepresentationSnapshotRef.fromWire_toWire, except_ok_bind, stringTuple_of (field_of rfl),
    except_ok_bind, stringTuple_of (field_of rfl), except_ok_bind, stringTuple_of (field_of rfl),
    except_ok_bind, stringTuple_of (field_of rfl), except_ok_bind, stringTuple_of (field_of rfl),
    except_ok_bind, stringTuple_of (field_of rfl), except_ok_bind, strD_of (field_of rfl)]
  rfl

theorem RepresentationDeficit.fromWire_toWire (d : RepresentationDeficit) :
    fromWire d.toWire = .ok d := by
  unfold fromWire toWire
  rw [stringTuple_of (field_of rfl), except_ok_bind, strD_of (field_of rfl),
    strD_of (field_of rfl), strD_of (field_of rfl)]
  rfl

theorem LineageNodeRef.fromWire_toWire (n : LineageNodeRef) : fromWire n.toWire = .ok n := by
  unfold fromWire toWire
  rw [strD_of (field_of rfl), PublicLineageNodeKind.ofValue_value, except_ok_bind,
    strD_of (field_of rfl)]
  rfl

theorem LineageNodeRef.fromItem_toWire (n : LineageNodeRef) :
    fromItem (.ofPayload n.toWire) = .ok n := by
  show fromWire (.ofFields n.toWire.toList) = _
  rw [Payload.ofFields_toList, fromWire_toWire]

theorem LineageTraceView.groupFromWire_toWire (group : String × List String) :
    groupFromWire (.ofPayload (groupToWire group)) = .ok group := by
  unfold groupFromWire
  have hitem : itemDict "lineage evidence group must be an object"
      (.ofPayload (groupToWire group)) = .ok (groupToWire group) :=
    congrArg Except.ok (Payload.ofFields_toList _)
  rw [hitem, except_ok_bind]
  unfold groupToWire
  rw [stringTuple_of (field_of rfl), except_ok_bind, strD_of (field_of rfl)]
  rfl

theorem LineageTraceView.fromWire_toWire (v : LineageTraceView) : fromWire v.toWire = .ok v := by
  unfold fromWire toWire
  rw [requireDict_of (field_of rfl), except_ok_bind, requireArray_of (field_of rfl),
    except_ok_bind, requireArray_of (field_of rfl), except_ok_bind, requireArray_of (field_of rfl),
    except_ok_bind, mapM_read groupFromWire_toWire, except_ok_bind,
    LineageNodeRef.fromWire_toWire, except_ok_bind, mapM_read LineageNodeRef.fromItem_toWire,
    except_ok_bind, mapM_read LineageNodeRef.fromItem_toWire, except_ok_bind,
    strD_of (field_of rfl)]
  rfl

/-! ## What is written is proper -/

theorem proper_str (text : String) : Json.Proper nearest (.str text) := trivial

theorem proper_int (n : Int) : Json.Proper nearest (.int n) := trivial

theorem proper_bool (b : Bool) : Json.Proper nearest (.bool b) := trivial

theorem PublicErrorFields.proper_toWire (e : PublicErrorFields) :
    Json.Proper nearest (.ofPayload e.toWire) :=
  proper_ofFields (by simp [proper_str, proper_bool])

theorem AuthorityFields.proper_toWire (a : AuthorityFields) :
    Json.Proper nearest (.ofPayload a.toWire) :=
  proper_ofFields (by simp [proper_str, proper_strs, proper_optionalJson])

theorem SubjectRef.proper_toWire (s : SubjectRef) : Json.Proper nearest (.ofPayload s.toWire) :=
  proper_ofFields (by simp [proper_str])

theorem RepresentationSnapshotRef.proper_toWire (s : RepresentationSnapshotRef) :
    Json.Proper nearest (.ofPayload s.toWire) :=
  proper_ofFields (by simp [proper_str, proper_int, SubjectRef.proper_toWire])

theorem EffectFields.proper_toWire (e : EffectFields) :
    Json.Proper nearest (.ofPayload e.toWire) :=
  proper_ofFields (by simp [proper_str, RepresentationSnapshotRef.proper_toWire])

theorem AdmissionFields.proper_toWire (a : AdmissionFields) :
    Json.Proper nearest (.ofPayload a.toWire) := by
  have heffects : Json.Proper nearest
      (.arr (a.canonicalEffects.map fun effect => .ofPayload effect.val.toWire)) :=
    proper_items fun effect _ => effect.val.proper_toWire
  have hposition : Json.Proper nearest
      (RepresentationSnapshotRef.optionalToWire a.resultingRepresentationStateRef) := by
    cases a.resultingRepresentationStateRef with
    | none => trivial
    | some position => exact position.proper_toWire
  exact proper_ofFields
    (by simp [proper_str, proper_bool, proper_optionalJson, heffects, hposition])

theorem AdmitEvidenceFields.proper_toWire {a : AdmitEvidenceFields} (h : Sendable nearest a) :
    Json.Proper nearest (.ofPayload a.toWire) :=
  proper_ofFields (by simp [proper_str, proper_int, proper_optionalJson, SubjectRef.proper_toWire,
    AuthorityFields.proper_toWire, h.evidence, h.rights])

theorem AdmissionLookupRequest.proper_toWire (q : AdmissionLookupRequest) :
    Json.Proper nearest (.ofPayload q.toWire) :=
  proper_ofFields (by simp [proper_str, AuthorityFields.proper_toWire])

theorem RepresentationQuery.proper_toWire (q : RepresentationQuery) :
    Json.Proper nearest (.ofPayload q.toWire) :=
  proper_ofFields (by simp [proper_str, AuthorityFields.proper_toWire])

theorem LineageQuery.proper_toWire (q : LineageQuery) :
    Json.Proper nearest (.ofPayload q.toWire) :=
  proper_ofFields (by simp [proper_str, AuthorityFields.proper_toWire])

theorem RepresentationStateView.proper_toWire (v : RepresentationStateView) :
    Json.Proper nearest (.ofPayload v.toWire) :=
  proper_ofFields (by simp [proper_str, proper_strs, SubjectRef.proper_toWire,
    RepresentationSnapshotRef.proper_toWire])

theorem RepresentationDeficit.proper_toWire (d : RepresentationDeficit) :
    Json.Proper nearest (.ofPayload d.toWire) :=
  proper_ofFields (by simp [proper_str, proper_strs])

theorem LineageNodeRef.proper_toWire (n : LineageNodeRef) :
    Json.Proper nearest (.ofPayload n.toWire) :=
  proper_ofFields (by simp [proper_str])

theorem LineageTraceView.proper_toWire (v : LineageTraceView) :
    Json.Proper nearest (.ofPayload v.toWire) := by
  have hnodes (nodes : List LineageNodeRef) :
      Json.Proper nearest (.arr (nodes.map fun node => .ofPayload node.toWire)) :=
    proper_items fun node _ => node.proper_toWire
  have hgroups : Json.Proper nearest
      (.arr (v.evidenceByIndependenceGroup.map fun group => .ofPayload (groupToWire group))) :=
    proper_items fun group _ => proper_ofFields (by simp [proper_str, proper_strs])
  exact proper_ofFields (by simp [proper_str, LineageNodeRef.proper_toWire, hnodes, hgroups])

end Codecs

/-! ## The client is its backend -/

/-- `from_wire` undoes the round trip of `to_wire`, for every contract. -/
structure Undone (r : Json.Reader) : Prop where
  publicError : ∀ e : PublicError,
    sent r (fun e : PublicError => e.val.toWire) PublicErrorFields.fromWire e = .ok e
  authority : ∀ a : AuthorityContext,
    sent r (fun a : AuthorityContext => a.val.toWire) AuthorityFields.fromWire a = .ok a
  admitEvidence : ∀ a : AdmitEvidenceRequest, Sendable r.nearest a.val →
    sent r (fun a : AdmitEvidenceRequest => a.val.toWire) AdmitEvidenceFields.fromWire a = .ok a
  admissionLookup : ∀ q : AdmissionLookupRequest,
    sent r AdmissionLookupRequest.toWire AdmissionLookupRequest.fromWire q = .ok q
  representationQuery : ∀ q : RepresentationQuery,
    sent r RepresentationQuery.toWire RepresentationQuery.fromWire q = .ok q
  lineageQuery : ∀ q : LineageQuery, sent r LineageQuery.toWire LineageQuery.fromWire q = .ok q
  snapshot : ∀ s : RepresentationSnapshotRef,
    sent r RepresentationSnapshotRef.toWire RepresentationSnapshotRef.fromWire s = .ok s
  admissionResult : ∀ a : AdmissionResult,
    sent r (fun a : AdmissionResult => a.val.toWire) AdmissionFields.fromWire a = .ok a
  stateView : ∀ v : RepresentationStateView,
    sent r RepresentationStateView.toWire RepresentationStateView.fromWire v = .ok v
  deficit : ∀ d : RepresentationDeficit,
    sent r RepresentationDeficit.toWire RepresentationDeficit.fromWire d = .ok d
  nodeRef : ∀ n : LineageNodeRef, sent r LineageNodeRef.toWire LineageNodeRef.fromWire n = .ok n
  traceView : ∀ v : LineageTraceView,
    sent r LineageTraceView.toWire LineageTraceView.fromWire v = .ok v

theorem undone (r : Json.Reader) : Undone r where
  publicError e := sent_eq e.val.proper_toWire (PublicErrorFields.fromWire_toWire e)
  authority a := sent_eq a.val.proper_toWire (AuthorityFields.fromWire_toWire a)
  admitEvidence a h :=
    sent_eq (AdmitEvidenceFields.proper_toWire h) (AdmitEvidenceFields.fromWire_toWire a h)
  admissionLookup q := sent_eq q.proper_toWire q.fromWire_toWire
  representationQuery q := sent_eq q.proper_toWire q.fromWire_toWire
  lineageQuery q := sent_eq q.proper_toWire q.fromWire_toWire
  snapshot s := sent_eq s.proper_toWire s.fromWire_toWire
  admissionResult a := sent_eq a.val.proper_toWire (AdmissionFields.fromWire_toWire a)
  stateView v := sent_eq v.proper_toWire v.fromWire_toWire
  deficit d := sent_eq d.proper_toWire d.fromWire_toWire
  nodeRef n := sent_eq n.proper_toWire n.fromWire_toWire
  traceView v := sent_eq v.proper_toWire v.fromWire_toWire

/-- The public failures of a call have a message. -/
def Explains {σ α : Type} (call : EStateM Raised σ α) : Prop :=
  ∀ s e s', call s = .error (.k2 e) s' → e.message ≠ ""

theorem crossing_eq {α : Type} {r : Json.Reader} {toWire : α → Payload}
    {fromWire : Payload → Except PyError α} {x : α} (h : sent r toWire fromWire x = .ok x) :
    crossing r toWire fromWire x = .ok x := by
  rw [crossing, h]
  rfl

theorem crossingIfAny_eq (r : Json.Reader) (result : Option AdmissionResult) :
    crossingIfAny r result = .ok result := by
  cases result with
  | none => rfl
  | some a =>
    have hread := crossing_eq ((undone r).admissionResult a)
    simp only [crossingIfAny, hread]
    rfl

theorem mapM_crossing_eq (r : Json.Reader) (deficits : List RepresentationDeficit) :
    deficits.mapM (crossing r RepresentationDeficit.toWire RepresentationDeficit.fromWire) =
      .ok deficits := by
  have hread := mapM_read (fun d => crossing_eq ((undone r).deficit d)) deficits
  rwa [List.map_id'] at hread

/-- **A failure that explains itself comes back as it was raised.** -/
theorem transportFailure_eq (r : Json.Reader) {e : Raised}
    (h : ∀ error, e = .k2 error → error.message ≠ "") : transportFailure r e = e := by
  cases e with
  | other e => rfl
  | k2 e =>
    have hvalid : PublicErrorFields.postInit ⟨e.code, e.message, e.retryable⟩ = .ok () := by
      unfold PublicErrorFields.postInit
      rw [requireRef_eq_ok.2 (h e rfl), except_ok_bind]
      exact violationIf_eq_ok.2 fun hne => hne rfl
    have hbuilt : Checked.build PublicErrorFields.postInit ⟨e.code, e.message, e.retryable⟩ =
        .ok ⟨⟨e.code, e.message, e.retryable⟩, hvalid⟩ := Checked.build_val ⟨_, hvalid⟩
    unfold transportFailure
    simp only [hbuilt, except_ok_bind, (undone r).publicError]

/-- **The transported API equals the one it stands for.** `from_wire`
undoes the round trip of `to_wire` for every contract, and each call of the
client, on a request that can be sent, is the backend's call: the same
request is delivered, the same result returned, and a public failure that
has a message raised again as it was. -/
theorem transported_eq (r : Json.Reader) :
    Undone r ∧ ∀ (σ : Type) (backend : K2PublicAPI σ),
      (∀ q, Sendable r.nearest q.val → Explains (backend.admitEvidence q) →
        (client r backend).admitEvidence q = backend.admitEvidence q) ∧
      (∀ q, Explains (backend.getAdmissionResult q) →
        (client r backend).getAdmissionResult q = backend.getAdmissionResult q) ∧
      (∀ q, Explains (backend.readRepresentationState q) →
        (client r backend).readRepresentationState q = backend.readRepresentationState q) ∧
      (∀ q, Explains (backend.readRepresentationDeficits q) →
        (client r backend).readRepresentationDeficits q =
          backend.readRepresentationDeficits q) ∧
      (∀ q, Explains (backend.traceLineage q) →
        (client r backend).traceLineage q = backend.traceLineage q) := by
  have hundone := undone r
  have hfailure {σ α : Type} {call : EStateM Raised σ α} (h : Explains call) :
      ∀ s e s', call s = .error e s' → transportFailure r e = e := by
    intro s e s' hraised
    refine transportFailure_eq r fun error heq => ?_
    subst heq
    exact h s error s' hraised
  refine ⟨hundone, fun σ backend => ⟨fun q hq h => ?_, fun q h => ?_, fun q h => ?_, fun q h => ?_,
    fun q h => ?_⟩⟩
  · exact carried_eq (crossing_eq (hundone.admitEvidence q hq))
      (fun a => crossing_eq (hundone.admissionResult a)) (hfailure h)
  · exact carried_eq (crossing_eq (hundone.admissionLookup q)) (crossingIfAny_eq r) (hfailure h)
  · exact carried_eq (crossing_eq (hundone.representationQuery q))
      (fun v => crossing_eq (hundone.stateView v)) (hfailure h)
  · exact carried_eq (crossing_eq (hundone.representationQuery q)) (mapM_crossing_eq r)
      (hfailure h)
  · exact carried_eq (crossing_eq (hundone.lineageQuery q))
      (fun v => crossing_eq (hundone.traceView v)) (hfailure h)

/-! ## A request and a backend -/

section Example

def readerAuthority : AuthorityContext where
  val := { identityId := "reader", roles := ["operations"], subjectId := none }
  valid := by decide +kernel

/-- A dated admission, its time given in an offset of its own. -/
def datedAdmission : AdmitEvidenceRequest where
  val :=
    { requestId := "r1", representationId := "t", subjectRef := ⟨"s", by decide⟩
      source := "diary", sourceRecordId := "p1"
      boundedEvidence := .ofFields [("note", .str "rain"), ("mood", .int 3)]
      rights := .ofFields [], sensitivity := "internal"
      validFrom := ⟨63902842200000000, some 19800000000⟩, validUntil := none
      independenceGroup := "g", basedOnSequence := 0, authority := readerAuthority }
  valid := by decide +kernel

/-- Every admission is stale, and one thing is missing. -/
def staleBackend : K2PublicAPI Nat where
  admitEvidence _ := do
    modify (· + 1)
    throw (.k2 ⟨.staleState, "canonical state precondition is stale"⟩)
  getAdmissionResult _ := pure none
  readRepresentationState _ := throw (.k2 ⟨.notFound, "nothing here"⟩)
  readRepresentationDeficits _ := pure [⟨"d1", "missing_representation", [], "No claim."⟩]
  traceLineage _ := throw (.other (.keyError "node"))

theorem transported_eq_stale :
    let r : Json.Reader := { nearest := some }
    (client r staleBackend).admitEvidence datedAdmission =
        staleBackend.admitEvidence datedAdmission ∧
      (client r staleBackend).readRepresentationDeficits ⟨"t", readerAuthority⟩ =
        staleBackend.readRepresentationDeficits ⟨"t", readerAuthority⟩ := by
  intro r
  have hsendable : Sendable r.nearest datedAdmission.val := by
    refine ⟨proper_ofFields (by simp [proper_str, proper_int]), proper_ofFields (by simp),
      ⟨by decide, fun offset hoffset => ?_⟩, fun time htime => by cases htime⟩
    obtain rfl := Option.some.inj hoffset
    decide
  have hexplains : Explains (staleBackend.admitEvidence datedAdmission) := by
    intro n e n' hraised
    cases hraised
    decide
  obtain ⟨-, hcalls⟩ := transported_eq r
  obtain ⟨hadmits, -, -, hdeficits, -⟩ := hcalls Nat staleBackend
  exact ⟨hadmits datedAdmission hsendable hexplains,
    hdeficits ⟨"t", readerAuthority⟩ fun n e n' hraised => by cases hraised⟩

end Example

end ArgoTwin
