import ArgoTwin.Compiler
import ArgoTwin.Lifecycle
/-!
# What a projection does not depend on

A request sees the claims its ceiling and its two times let through. Two
states that show it the same claims, alike in what is disclosed of a claim,
compile to one projection, whatever else they hold: each of the filters
comes to the same set of names, listed in one order, and nothing of a
record is written down beside its disclosed fields and its name.
-/

namespace ArgoTwin

open Library TwinAggregate TwinState

/-! ## The states a compiler meets -/

/-- Folded from a stream, read back from a snapshot of records that are read
back as they are (those of every state rebuilt from the ledger are), or a
valid-time view. -/
inductive Encountered : TwinState → Prop
  | folded {twinId : String} {es : List EventEnvelope} {s : TwinState} :
      folded { twinId := twinId } es = .ok s → Encountered s
  | snapshot {s t : TwinState} : Encountered s → s.Canonical →
      fromDict s.toDict.reread = .ok t → Encountered t
  | view {s t : TwinState} {instant : DateTime} :
      Encountered s → s.selectValidAt instant = .ok t → Encountered t

/-- A claim is kept under the name it carries. -/
def Keyed (claims : Dict Payload) : Prop :=
  ∀ (id : String) (claim : Payload), claims[id]? = some claim →
    ∃ value, claim.require "claim_id" = .ok value ∧ value.pyStr = id

variable {s t : TwinState} {e : EventEnvelope} {es : List EventEnvelope}

theorem keyed_effect (haccepts : Accepts e s) (h : Keyed s.claims) :
    Keyed (effect e s).claims := by
  rw [effect_claims]
  split
  · rename_i hkind
    have hallowed := haccepts.2.2
    simp only [Allowed, hkind] at hallowed
    intro id claim hclaim
    rw [getElem?_insert] at hclaim
    split at hclaim
    · rename_i heq
      obtain rfl := Option.some.inj hclaim
      obtain ⟨value, hvalue⟩ := mem_iff_getElem?.1 (mem_recorded hallowed.1.2)
      have hid : idOf (recorded e) "claim_id" = id := by rw [idOf_recorded (by decide), heq]
      refine ⟨value, by rw [Payload.require, hvalue], ?_⟩
      rwa [idOf, Payload.strD, hvalue] at hid
    · exact h id claim hclaim
  · exact h

theorem keyed_replay (hlegal : Legal s es) (h : Keyed s.claims) : Keyed (replay s es).claims := by
  induction es generalizing s with
  | nil => exact h
  | cons e es ih => exact ih hlegal.2 (keyed_effect hlegal.1 h)

/-- A view keeps its adjudications under their contradictions. -/
theorem filed_selectValidAt {instant : DateTime} (h : Filed s.adjudications)
    (hview : s.selectValidAt instant = .ok t) : Filed t.adjudications := by
  unfold TwinState.selectValidAt at hview
  split at hview
  · cases hview
  · simp only [bind_eq_ok] at hview
    obtain ⟨_, -, _, -, _, -, _, -, hview⟩ := hview
    obtain rfl := Except.ok.inj hview
    intro id adjudication hget
    exact h id adjudication (getElem?_filter.1 hget).1

theorem keyed_selectValidAt {instant : DateTime} (h : Keyed s.claims)
    (hview : s.selectValidAt instant = .ok t) : Keyed t.claims := by
  unfold TwinState.selectValidAt at hview
  split at hview
  · cases hview
  · simp only [bind_eq_ok] at hview
    obtain ⟨_, -, _, -, claims, hclaims, _, -, hview⟩ := hview
    obtain rfl := Except.ok.inj hview
    intro id claim hget
    exact h id claim ((getElem?_selectRecords hclaims).1 hget).1

/-- Wherever a state comes from, its sets agree and its claims are named. -/
theorem Encountered.kept (h : Encountered s) : Kept s ∧ Keyed s.claims := by
  induction h with
  | folded hfolded =>
    obtain ⟨hlegal, rfl⟩ := folded_eq_ok.1 hfolded
    exact ⟨kept_replay hlegal kept_blank, keyed_replay hlegal fun id claim hget => by simp at hget⟩
  | snapshot _ hcanonical hread ih =>
    rw [hcanonical.toDict] at hread
    obtain rfl := eq_of_fromDict_toDict hread
    exact ih
  | view _ hview ih =>
    exact ⟨⟨consistent_selectValidAt ih.1 hview, filed_selectValidAt ih.1.filed hview⟩,
      keyed_selectValidAt ih.2 hview⟩

/-! ## What a request sees -/

/-- The record carries a valid sensitivity, and its times have an offset. -/
structure Legible (claim : Payload) : Prop where
  sensitivity : ∃ level, sensitivityOf claim = .ok level
  begins : ∃ value, claim["valid_from"]? = some value ∧ ∃ start, timeOf value = .ok start
  ends : claim.truthy "valid_until" = true →
    ∃ finish, timeOf (claim["valid_until"]?.getD .null) = .ok finish
  recorded : claim.truthy "recorded_at" = true →
    ∃ time, timeOf (claim["recorded_at"]?.getD .null) = .ok time

/-- Valid as asked: begun, and not ended. -/
def ValidFor (request : ProjectionRequest) (claim : Payload) : Prop :=
  (∀ value, claim["valid_from"]? = some value → ∀ start, timeOf value = .ok start →
    start.instant ≤ request.asOfValidTime.instant) ∧
  (claim.truthy "valid_until" = true →
    ∀ finish, timeOf (claim["valid_until"]?.getD .null) = .ok finish →
      request.asOfValidTime.instant < finish.instant)

/-- A request may be shown the record: its sensitivity, its validity and
the time it was recorded at are within what is asked for. -/
structure Within (request : ProjectionRequest) (claim : Payload) : Prop where
  sensitivity : ∀ level, sensitivityOf claim = .ok level →
    level.rank ≤ request.maximumSensitivity.rank
  valid : ValidFor request claim
  known : claim.truthy "recorded_at" = true →
    ∀ time, timeOf (claim["recorded_at"]?.getD .null) = .ok time →
      time.instant ≤ request.asOfRecordedTime.instant

/-- The claim is in the set, in force, and may be shown. -/
def Shows (s : TwinState) (request : ProjectionRequest) (ids : IdSet) (claimId : String) : Prop :=
  claimId ∈ ids ∧ claimId ∉ s.staleClaimIds ∧ claimId ∉ s.retiredClaimIds ∧
    claimId ∉ s.supersededClaimIds ∧
      ∃ claim, s.claims[claimId]? = some claim ∧ Within request claim

instance (claim : Payload) : Decidable (Legible claim) :=
  decidable_of_iff
    ((∃ level, sensitivityOf claim = .ok level) ∧
      (∃ value, claim["valid_from"]? = some value ∧ ∃ start, timeOf value = .ok start) ∧
      (claim.truthy "valid_until" = true →
        ∃ finish, timeOf (claim["valid_until"]?.getD .null) = .ok finish) ∧
      (claim.truthy "recorded_at" = true →
        ∃ time, timeOf (claim["recorded_at"]?.getD .null) = .ok time))
    ⟨fun ⟨hlevel, hstart, hfinish, htime⟩ => ⟨hlevel, hstart, hfinish, htime⟩,
      fun h => ⟨h.sensitivity, h.begins, h.ends, h.recorded⟩⟩

instance (request : ProjectionRequest) (claim : Payload) : Decidable (ValidFor request claim) :=
  inferInstanceAs (Decidable (_ ∧ _))

instance (request : ProjectionRequest) (claim : Payload) : Decidable (Within request claim) :=
  decidable_of_iff
    ((∀ level, sensitivityOf claim = .ok level →
        level.rank ≤ request.maximumSensitivity.rank) ∧
      ValidFor request claim ∧
      (claim.truthy "recorded_at" = true →
        ∀ time, timeOf (claim["recorded_at"]?.getD .null) = .ok time →
          time.instant ≤ request.asOfRecordedTime.instant))
    ⟨fun ⟨hlevel, hvalid, hknown⟩ => ⟨hlevel, hvalid, hknown⟩,
      fun h => ⟨h.sensitivity, h.valid, h.known⟩⟩

instance (s : TwinState) (request : ProjectionRequest) (ids : IdSet) (claimId : String) :
    Decidable (Shows s request ids claimId) :=
  inferInstanceAs (Decidable (_ ∧ _))

/-- Visible for a request: accepted, or contested where the counterweights
are asked for. -/
def Visible (s : TwinState) (request : ProjectionRequest) (claimId : String) : Prop :=
  Shows s request s.acceptedClaimIds claimId ∨
    ("counterweights" ∈ request.requestedFields ∧ Shows s request s.contestedClaimIds claimId)

/-- **Alike to a request**: the same twin at the same position, the same
claims visible, and the same disclosed fields on them. -/
structure Alike (request : ProjectionRequest) (s t : TwinState) : Prop where
  twinId : s.twinId = t.twinId
  subjectId : s.subjectId = t.subjectId
  sequence : s.sequence = t.sequence
  degradedReasons : s.degradedReasons = t.degradedReasons
  accepted : ∀ id, Shows s request s.acceptedClaimIds id ↔ Shows t request t.acceptedClaimIds id
  contested : "counterweights" ∈ request.requestedFields →
    ∀ id, Shows s request s.contestedClaimIds id ↔ Shows t request t.contestedClaimIds id
  disclosed : ∀ (id : String) (claim claim' : Payload), Visible s request id →
    s.claims[id]? = some claim → t.claims[id]? = some claim' →
      ∀ field ∈ disclosedClaimFields, claim[field]? = claim'[field]?

instance (s : TwinState) (request : ProjectionRequest) (claimId : String) :
    Decidable (Visible s request claimId) :=
  inferInstanceAs (Decidable (_ ∨ _))

/-! ## The filters -/

section Filters

variable {request : ProjectionRequest} {claim : Payload} {key : String}

theorem naive_timeOf {value : Json} {time : DateTime} (h : timeOf value = .ok time) :
    time.naive = false := by
  cases value with
  | str text =>
    simp only [timeOf, parseTime] at h
    split at h
    · cases h
    · split_ifs at h
      obtain rfl := Except.ok.inj h
      rfl
  | _ => cases h

theorem lt_of_aware {a b : DateTime} (ha : a.naive = false) (hb : b.naive = false) :
    a.lt b = .ok (decide (a.instant < b.instant)) := by
  simp [DateTime.lt, ha, hb]

/-- A time that is there and can be read is there. -/
theorem timeAt_eq (h : claim.truthy key = true →
    ∃ time, timeOf (claim[key]?.getD .null) = .ok time) :
    (claim.truthy key = false ∧ timeAt claim key = .ok none) ∨
      (claim.truthy key = true ∧ ∃ time, timeOf (claim[key]?.getD .null) = .ok time ∧
        timeAt claim key = .ok (some time)) := by
  cases hkey : claim.truthy key with
  | false => exact .inl ⟨rfl, by rw [timeAt, hkey]; rfl⟩
  | true =>
    obtain ⟨time, htime⟩ := h hkey
    exact .inr ⟨rfl, time, htime, by rw [timeAt, hkey, htime]; rfl⟩

theorem clearedBy_eq (request : ProjectionRequest) (h : Legible claim) : ∃ level, sensitivityOf claim = .ok level ∧
    clearedBy (ProjectionCompiler.bounds request) claim =
      .ok (decide (level.rank ≤ request.maximumSensitivity.rank)) := by
  obtain ⟨level, hlevel⟩ := h.sensitivity
  exact ⟨level, hlevel, by simp only [clearedBy, ProjectionCompiler.bounds, hlevel]; rfl⟩

theorem validBy_eq (request : ProjectionRequest) (h : Legible claim) :
    ∃ valid, validBy (ProjectionCompiler.bounds request) claim = .ok valid ∧
      (valid = true ↔ ValidFor request claim) := by
  obtain ⟨value, hvalue, start, hstart⟩ := h.begins
  have hbefore := lt_of_aware request.aware.1 (naive_timeOf hstart)
  have hstarts : (∀ value, claim["valid_from"]? = some value → ∀ start, timeOf value = .ok start →
      start.instant ≤ request.asOfValidTime.instant) ↔
        start.instant ≤ request.asOfValidTime.instant := by
    constructor
    · exact fun hall => hall value hvalue start hstart
    · intro hle value' hvalue' start' hstart'
      obtain rfl := Option.some.inj (hvalue.symm.trans hvalue')
      obtain rfl := Except.ok.inj (hstart.symm.trans hstart')
      exact hle
  rcases timeAt_eq h.ends with ⟨hends, hfinish⟩ | ⟨hends, finish, htime, hfinish⟩
  · refine ⟨decide (start.instant ≤ request.asOfValidTime.instant), ?_, ?_⟩
    · simp only [validBy, ProjectionCompiler.bounds, validWithin, Payload.require, hvalue,
        except_ok_bind, hstart, hfinish, hbefore, decide_eq_true_eq, pure, Except.pure]
      by_cases hlt : request.asOfValidTime.instant < start.instant
      · simp [hlt, not_le.2 hlt]
      · simp [hlt, not_lt.1 hlt]
    · rw [decide_eq_true_eq, ValidFor, hstarts, hends]
      simp
  · have hafter := lt_of_aware request.aware.1 (naive_timeOf htime)
    refine ⟨decide (start.instant ≤ request.asOfValidTime.instant ∧
      request.asOfValidTime.instant < finish.instant), ?_, ?_⟩
    · simp only [validBy, ProjectionCompiler.bounds, validWithin, Payload.require, hvalue,
        except_ok_bind, hstart, hfinish, hbefore, hafter, decide_eq_true_eq, pure, Except.pure]
      by_cases hlt : request.asOfValidTime.instant < start.instant
      · simp [hlt, not_le.2 hlt]
      · simp [hlt, not_lt.1 hlt]
    · rw [decide_eq_true_eq, ValidFor, hstarts, hends, htime]
      simp

theorem knownBy_eq (request : ProjectionRequest) (h : Legible claim) :
    ∃ known, knownBy (ProjectionCompiler.bounds request) claim = .ok known ∧
      (known = true ↔ (claim.truthy "recorded_at" = true →
        ∀ time, timeOf (claim["recorded_at"]?.getD .null) = .ok time →
          time.instant ≤ request.asOfRecordedTime.instant)) := by
  rcases timeAt_eq h.recorded with ⟨hrecorded, htime⟩ | ⟨hrecorded, time, hread, htime⟩
  · refine ⟨true, ?_, by simp [hrecorded]⟩
    simp only [knownBy, ProjectionCompiler.bounds, htime, except_ok_bind, pure, Except.pure]
  · have hlater := lt_of_aware request.aware.2 (naive_timeOf hread)
    refine ⟨!decide (request.asOfRecordedTime.instant < time.instant), ?_, ?_⟩
    · simp only [knownBy, ProjectionCompiler.bounds, htime, except_ok_bind, hlater, pure,
        Except.pure]
    · rw [hrecorded, hread]
      simp

/-- **The filter decides what may be shown**, and never raises on a record
that can be read. -/
theorem visible_eq (request : ProjectionRequest) (h : Legible claim) :
    ∃ shown, visible (ProjectionCompiler.bounds request) claim = .ok shown ∧
      (shown = true ↔ Within request claim) := by
  obtain ⟨level, hlevel, hcleared⟩ := clearedBy_eq request h
  obtain ⟨valid, hvalid, hvalid'⟩ := validBy_eq request h
  obtain ⟨known, hknown, hknown'⟩ := knownBy_eq request h
  refine ⟨decide (level.rank ≤ request.maximumSensitivity.rank) && valid && known, ?_, ?_⟩
  · simp only [visible, hcleared, hvalid, hknown, except_ok_bind, pure, Except.pure]
    by_cases hrank : level.rank ≤ request.maximumSensitivity.rank <;> cases valid <;> simp [hrank]
  · rw [Bool.and_eq_true, Bool.and_eq_true, decide_eq_true_eq, hvalid', hknown']
    constructor
    · rintro ⟨⟨hrank, hvalid⟩, hseen⟩
      refine ⟨fun level' hlevel' => ?_, hvalid, hseen⟩
      obtain rfl := Except.ok.inj (hlevel.symm.trans hlevel')
      exact hrank
    · intro hwithin
      exact ⟨⟨hwithin.sensitivity level hlevel, hwithin.valid⟩, hwithin.known⟩

end Filters

/-! ## The listings -/

section Listings

/-- The claims of a set that a request is shown. -/
def shownTo (request : ProjectionRequest) (s : TwinState) (ids : IdSet) : IdSet :=
  ids.filter fun id => decide (Shows s request ids id)

/-- The record under a name. -/
def recordOf (s : TwinState) (id : String) : Payload := s.claims[id]?.getD ∅

/-- Every claim can be read. -/
def AllLegible (s : TwinState) : Prop :=
  ∀ (id : String) (claim : Payload), s.claims[id]? = some claim → Legible claim

variable {request : ProjectionRequest} {ids : IdSet} {id : String}

theorem mem_shownTo : id ∈ shownTo request s ids ↔ Shows s request ids id := by
  rw [← Std.ExtTreeSet.mem_toList, shownTo, Std.ExtTreeSet.toList_filter, List.mem_filter,
    Std.ExtTreeSet.mem_toList, decide_eq_true_eq]
  exact ⟨fun h => h.2, fun h => ⟨h.1, h⟩⟩

theorem recordOf_eq {claim : Payload} (h : s.claims[id]? = some claim) : recordOf s id = claim := by
  rw [recordOf, h, Option.getD_some]

/-- A listing looks at the first name, and then at the others. -/
theorem visibleAmong_cons {bounds : Bounds} {names : List String} {claims : List Payload} :
    s.visibleAmong bounds (id :: names) = .ok claims ↔
      ∃ claim shown rest, s.claims[id]? = some claim ∧ visible bounds claim = .ok shown ∧
        s.visibleAmong bounds names = .ok rest ∧
        claims = if shown then claim :: rest else rest := by
  simp only [visibleAmong, List.mapM_cons, bind_eq_ok]
  constructor
  · rintro ⟨_, ⟨first, hfirst, found, hfound, hcons⟩, hclaims⟩
    obtain rfl := Except.ok.inj hcons
    obtain rfl := Except.ok.inj hclaims
    cases hlookup : s.claims[id]? with
    | none => simp [hlookup] at hfirst
    | some claim =>
      simp only [hlookup, bind_eq_ok] at hfirst
      obtain ⟨shown, hshown, hpicked⟩ := hfirst
      obtain rfl := Except.ok.inj hpicked
      refine ⟨claim, shown, _, rfl, hshown, ⟨found, hfound, rfl⟩, ?_⟩
      cases shown <;> rfl
  · rintro ⟨claim, shown, rest, hlookup, hshown, ⟨found, hfound, hrest⟩, rfl⟩
    obtain rfl := Except.ok.inj hrest
    refine ⟨(if shown then some claim else none) :: found,
      ⟨if shown then some claim else none, ?_, found, hfound, rfl⟩, ?_⟩
    · simp only [hlookup, hshown, except_ok_bind]
      rfl
    · cases shown <;> rfl

/-- **What a listing returns**: every claim it looks at is there and can be
read by the filter, and those the filter lets through are listed. -/
theorem visibleAmong_eq_ok {bounds : Bounds} {names : List String} {claims : List Payload} :
    s.visibleAmong bounds names = .ok claims ↔
      (∀ id ∈ names, ∃ claim, s.claims[id]? = some claim ∧
        ∃ shown, visible bounds claim = .ok shown) ∧
      claims = (names.filter fun id => holds (visible bounds (recordOf s id))).map (recordOf s) := by
  induction names generalizing claims with
  | nil =>
    constructor
    · intro h
      obtain rfl : [] = claims := Except.ok.inj h
      exact ⟨(fun id hid => by cases hid), rfl⟩
    · rintro ⟨-, rfl⟩
      rfl
  | cons id names ih =>
    rw [visibleAmong_cons]
    constructor
    · rintro ⟨claim, shown, rest, hlookup, hshown, hrest, rfl⟩
      obtain ⟨hread, rfl⟩ := ih.1 hrest
      refine ⟨fun id' hid' => ?_, ?_⟩
      · rcases List.mem_cons.1 hid' with rfl | hid'
        · exact ⟨claim, hlookup, shown, hshown⟩
        · exact hread id' hid'
      · rw [List.filter_cons, recordOf_eq hlookup, hshown]
        cases shown with
        | true => rw [if_pos rfl, holds, if_pos rfl, List.map_cons, recordOf_eq hlookup]
        | false => rfl
    · rintro ⟨hread, rfl⟩
      obtain ⟨claim, hlookup, shown, hshown⟩ := hread id List.mem_cons_self
      refine ⟨claim, shown, _, hlookup, hshown,
        ih.2 ⟨fun id' hid' => hread id' (List.mem_cons_of_mem _ hid'), rfl⟩, ?_⟩
      rw [List.filter_cons, recordOf_eq hlookup, hshown]
      cases shown with
      | true => rw [holds, if_pos rfl, if_pos rfl, List.map_cons, recordOf_eq hlookup]
      | false => rfl

/-- Of records that can be read, those within the request are listed. -/
theorem visibleAmong_eq (hlegible : AllLegible s) {names : List String}
    (hknown : ∀ id ∈ names, id ∈ s.claims) :
    s.visibleAmong (ProjectionCompiler.bounds request) names =
      .ok ((names.filter fun id => decide (Within request (recordOf s id))).map (recordOf s)) := by
  refine visibleAmong_eq_ok.2 ⟨fun id hid => ?_, ?_⟩
  · obtain ⟨claim, hclaim⟩ := mem_iff_getElem?.1 (hknown id hid)
    obtain ⟨shown, hshown, -⟩ := visible_eq request (hlegible id claim hclaim)
    exact ⟨claim, hclaim, shown, hshown⟩
  · congr 1
    refine List.filter_congr fun id hid => ?_
    obtain ⟨claim, hclaim⟩ := mem_iff_getElem?.1 (hknown id hid)
    obtain ⟨shown, hshown, hwithin⟩ := visible_eq request (hlegible id claim hclaim)
    rw [recordOf_eq hclaim, hshown, Bool.eq_iff_iff, decide_eq_true_eq, holds_iff, ← hwithin]
    exact ⟨fun h => congrArg Except.ok h, fun h => Except.ok.inj h⟩

/-- **A listing is the shown claims, in the order of their names.** -/
theorem listing_eq (hlegible : AllLegible s) (hknown : ∀ id ∈ ids, id ∈ s.claims)
    {p : String → Bool} (hp : ∀ id ∈ ids, p id = true ↔
      id ∉ s.staleClaimIds ∧ id ∉ s.retiredClaimIds ∧ id ∉ s.supersededClaimIds) :
    s.visibleAmong (ProjectionCompiler.bounds request) (ids.toList.filter p) =
      .ok ((shownTo request s ids).toList.map (recordOf s)) := by
  rw [visibleAmong_eq hlegible fun id hid => hknown id
      (Std.ExtTreeSet.mem_toList.1 (List.mem_of_mem_filter hid)),
    List.filter_filter, shownTo, Std.ExtTreeSet.toList_filter]
  congr 2
  refine List.filter_congr fun id hid => ?_
  rw [Std.ExtTreeSet.mem_toList] at hid
  obtain ⟨claim, hclaim⟩ := mem_iff_getElem?.1 (hknown id hid)
  rw [Bool.eq_iff_iff, Bool.and_eq_true, decide_eq_true_eq, decide_eq_true_eq, hp id hid,
    recordOf_eq hclaim]
  constructor
  · rintro ⟨hwithin, hstale, hretired, hsuperseded⟩
    exact ⟨hid, hstale, hretired, hsuperseded, claim, hclaim, hwithin⟩
  · rintro ⟨-, hstale, hretired, hsuperseded, claim', hclaim', hwithin⟩
    obtain rfl := Option.some.inj (hclaim.symm.trans hclaim')
    exact ⟨hwithin, hstale, hretired, hsuperseded⟩

theorem acceptedClaims_eq (request : ProjectionRequest) (hs : Encountered s) (hlegible : AllLegible s) :
    s.acceptedClaims (ProjectionCompiler.bounds request) =
      .ok ((shownTo request s s.acceptedClaimIds).toList.map (recordOf s)) := by
  refine listing_eq hlegible hs.kept.1.consistent.claims.accepted_known fun id _ => ?_
  simp only [Bool.not_eq_true', Bool.or_eq_false_iff, and_assoc, Std.ExtTreeSet.mem_iff_contains,
    Bool.not_eq_true]

/-- A contested claim is neither retired nor superseded, so that the filter
of the counterweights need not ask. -/
theorem contestedClaims_eq (request : ProjectionRequest) (hs : Encountered s) (hlegible : AllLegible s) :
    s.contestedClaims (ProjectionCompiler.bounds request) =
      .ok ((shownTo request s s.contestedClaimIds).toList.map (recordOf s)) := by
  have hclaims := hs.kept.1.consistent.claims
  refine listing_eq hlegible hclaims.contested_known fun id hid => ?_
  obtain ⟨hretired, hsuperseded⟩ := hclaims.contested_gone id hid
  have hknown := Std.ExtTreeMap.mem_iff_contains.1 (hclaims.contested_known id hid)
  rw [hknown, Bool.true_and, Bool.not_eq_true', ← Bool.not_eq_true,
    ← Std.ExtTreeSet.mem_iff_contains]
  exact ⟨fun hstale => ⟨hstale, hretired, hsuperseded⟩, fun h => h.1⟩

theorem Alike.accepted_eq (h : Alike request s t) :
    shownTo request s s.acceptedClaimIds = shownTo request t t.acceptedClaimIds :=
  set_ext fun id => by rw [mem_shownTo, mem_shownTo, h.accepted id]

theorem Alike.contested_eq (h : Alike request s t)
    (hasked : "counterweights" ∈ request.requestedFields) :
    shownTo request s s.contestedClaimIds = shownTo request t t.contestedClaimIds :=
  set_ext fun id => by rw [mem_shownTo, mem_shownTo, h.contested hasked id]

end Listings

/-! ## One artifact -/

section Artifacts

variable {request : ProjectionRequest} {names : List String} {artifactType : String}

/-- Both states hold these claims, alike in their disclosed fields. -/
def AlikeOn (s t : TwinState) (names : List String) : Prop :=
  ∀ id ∈ names, id ∈ s.claims ∧ id ∈ t.claims ∧
    ∀ field ∈ disclosedClaimFields, (recordOf s id)[field]? = (recordOf t id)[field]?

theorem Alike.alikeOn (h : Alike request s t) (hs : ∀ id ∈ names, Visible s request id)
    (hmem : ∀ id ∈ names, id ∈ s.claims) (hmem' : ∀ id ∈ names, id ∈ t.claims) :
    AlikeOn s t names := by
  intro id hid
  obtain ⟨claim, hclaim⟩ := mem_iff_getElem?.1 (hmem id hid)
  obtain ⟨claim', hclaim'⟩ := mem_iff_getElem?.1 (hmem' id hid)
  refine ⟨hmem id hid, hmem' id hid, fun field hfield => ?_⟩
  rw [recordOf_eq hclaim, recordOf_eq hclaim']
  exact h.disclosed id claim claim' (hs id hid) hclaim hclaim' field hfield

theorem Shows.known {ids : IdSet} {id : String} (h : Shows s request ids id) : id ∈ s.claims := by
  obtain ⟨-, -, -, -, claim, hclaim, -⟩ := h
  exact mem_of_getElem? hclaim

theorem Alike.accepted_alikeOn (h : Alike request s t) :
    AlikeOn s t (shownTo request s s.acceptedClaimIds).toList := by
  refine h.alikeOn (fun id hid => ?_) (fun id hid => ?_) (fun id hid => ?_) <;>
    rw [Std.ExtTreeSet.mem_toList, mem_shownTo] at hid
  · exact .inl hid
  · exact hid.known
  · exact ((h.accepted id).1 hid).known

theorem Alike.contested_alikeOn (h : Alike request s t)
    (hasked : "counterweights" ∈ request.requestedFields) :
    AlikeOn s t (shownTo request s s.contestedClaimIds).toList := by
  refine h.alikeOn (fun id hid => ?_) (fun id hid => ?_) (fun id hid => ?_) <;>
    rw [Std.ExtTreeSet.mem_toList, mem_shownTo] at hid
  · exact .inr ⟨hasked, hid⟩
  · exact hid.known
  · exact ((h.contested hasked id).1 hid).known

/-- **The selection goes by what is disclosed**: both states select the
records of the same names. -/
theorem select_alike (hs : Encountered s) (ht : Encountered t) (hlegible : AllLegible s)
    (hlegible' : AllLegible t) (h : Alike request s t)
    (hasked : artifactType = "counterweights" → "counterweights" ∈ request.requestedFields) :
    ∃ names accepted : List String, AlikeOn s t names ∧
      (let bounds := ProjectionCompiler.bounds request
       s.acceptedClaims bounds = .ok (accepted.map (recordOf s)) ∧
       t.acceptedClaims bounds = .ok (accepted.map (recordOf t)) ∧
       KernelCompiler.select s artifactType (accepted.map (recordOf s)) bounds =
         .ok (names.map (recordOf s)) ∧
       KernelCompiler.select t artifactType (accepted.map (recordOf t)) bounds =
         .ok (names.map (recordOf t))) := by
  have haccepted := h.accepted_alikeOn
  have hleft := acceptedClaims_eq request hs hlegible
  have hright := acceptedClaims_eq request ht hlegible'
  rw [← h.accepted_eq] at hright
  by_cases hkernel : artifactType = "kernel"
  · refine ⟨_, _, haccepted, hleft, hright, ?_, ?_⟩ <;> rw [KernelCompiler.select, if_pos hkernel]
  by_cases hcounter : artifactType = "counterweights"
  · have hcontested := contestedClaims_eq request ht hlegible'
    rw [← h.contested_eq (hasked hcounter)] at hcontested
    refine ⟨_, _, h.contested_alikeOn (hasked hcounter), hleft, hright, ?_, ?_⟩ <;>
      rw [KernelCompiler.select, if_neg hkernel, if_pos hcounter]
    · exact contestedClaims_eq request hs hlegible
    · exact hcontested
  by_cases hready : artifactType = "readiness"
  · refine ⟨[], _, fun _ hid => absurd hid List.not_mem_nil, hleft, hright, ?_, ?_⟩ <;>
      rw [KernelCompiler.select, if_neg hkernel, if_neg hcounter, if_pos hready] <;> rfl
  let chosen : TwinState → String → Bool := fun s id =>
    claimKindToArtifact.lookup (KernelCompiler.kindOf (recordOf s id)) = some artifactType
  refine ⟨(shownTo request s s.acceptedClaimIds).toList.filter (chosen s), _, fun id hid =>
    haccepted id (List.mem_of_mem_filter hid), hleft, hright, ?_, ?_⟩ <;>
    rw [KernelCompiler.select, if_neg hkernel, if_neg hcounter, if_neg hready, List.filter_map]
  · rfl
  · have hchosen : ∀ id ∈ (shownTo request s s.acceptedClaimIds).toList, chosen t id = chosen s id := by
      intro id hid
      have hkind := (haccepted id hid).2.2 "kind" (by decide)
      exact decide_eq_decide.2 (by rw [KernelCompiler.kindOf, KernelCompiler.kindOf, hkind])
    exact congrArg (fun ids => Except.ok (ids.map (recordOf t))) (List.filter_congr hchosen)

/-- The names written down are those the records are kept under. -/
theorem claimIds_eq (h : Keyed s.claims) (hknown : ∀ id ∈ names, id ∈ s.claims) :
    ((names.map (recordOf s)).mapM fun claim => (claim.require "claim_id").map Json.pyStr) =
      .ok names := by
  induction names with
  | nil => rfl
  | cons id names ih =>
    obtain ⟨claim, hclaim⟩ := mem_iff_getElem?.1 (hknown id List.mem_cons_self)
    obtain ⟨value, hvalue, hid⟩ := h id claim hclaim
    rw [List.map_cons, List.mapM_cons, ih fun id hid => hknown id (List.mem_cons_of_mem _ hid),
      recordOf_eq hclaim, hvalue]
    simp only [Except.map, hid, except_ok_bind]
    rfl

/-- A disclosed claim is its disclosed fields. -/
theorem discloseClaim_congr {p q : Payload}
    (h : ∀ field ∈ disclosedClaimFields, p[field]? = q[field]?) :
    ProjectionCompiler.discloseClaim (.ofPayload p) =
      ProjectionCompiler.discloseClaim (.ofPayload q) := by
  have hfilter : (p.filter fun field _ => disclosedClaimFields.contains field) =
      q.filter fun field _ => disclosedClaimFields.contains field := by
    refine dict_ext fun field => ?_
    rw [Std.ExtTreeMap.getElem?_filter', Std.ExtTreeMap.getElem?_filter']
    by_cases hfield : field ∈ disclosedClaimFields
    · rw [h field hfield]
    · have hnone : ∀ value : Option Json,
          value.filter (fun _ => disclosedClaimFields.contains field) = none := by
        intro value
        cases value <;> simp [Option.filter, hfield]
      rw [hnone, hnone]
  have hlist := congrArg Std.ExtTreeMap.toList hfilter
  rw [Std.ExtTreeMap.toList_filter, Std.ExtTreeMap.toList_filter] at hlist
  exact congrArg Json.obj hlist

/-- So is a list of them. -/
theorem disclosedPayload_congr (h : AlikeOn s t names) :
    ProjectionCompiler.disclosedPayload
        (Payload.ofFields [("claims", .arr ((names.map (recordOf s)).map .ofPayload))]) =
      ProjectionCompiler.disclosedPayload
        (Payload.ofFields [("claims", .arr ((names.map (recordOf t)).map .ofPayload))]) := by
  have hdisclosed : ∀ u : TwinState, ProjectionCompiler.disclosedPayload
      (Payload.ofFields [("claims", .arr ((names.map (recordOf u)).map .ofPayload))]) =
        Payload.ofFields [("claims", .arr (names.map fun id =>
          ProjectionCompiler.discloseClaim (.ofPayload (recordOf u id))))] := by
    intro u
    have hdicts : ((names.map (recordOf u)).map Json.ofPayload).filter Json.isDict =
        (names.map (recordOf u)).map Json.ofPayload := by
      rw [List.filter_eq_self]
      intro value hvalue
      obtain ⟨p, -, rfl⟩ := List.mem_map.1 hvalue
      rfl
    simp only [ProjectionCompiler.disclosedPayload, Payload.getElem?_ofFields, List.reverse_singleton,
      List.lookup_cons_self]
    rw [hdicts, List.map_map, List.map_map]
    rfl
  rw [hdisclosed s, hdisclosed t]
  have hclaims := List.map_congr_left fun id hid => discloseClaim_congr (h id hid).2.2
  rw [hclaims]

end Artifacts

/-! ## The whole compilation -/

/-- An artifact but for its random name. -/
def DisclosedArtifact.masked (a : DisclosedArtifact) : DisclosedArtifact := { a with artifactId := "" }

/-- A projection but for the random names of its artifacts. -/
def Projection.masked (p : Projection) : Projection :=
  { p with artifacts := p.artifacts.map fun _ a => a.masked }

/-- Artifacts of which the same is disclosed. -/
structure AlikeArtifacts [Digest] (a b : KernelArtifact) : Prop where
  artifactType : a.artifactType = b.artifactType
  sourceClaimIds : a.sourceClaimIds = b.sourceClaimIds
  disclosed : (ProjectionCompiler.disclose a).masked = (ProjectionCompiler.disclose b).masked

section Compilation

variable [Digest] {request : ProjectionRequest} {artifactType : String}

/-- What is compiled from a listing and a selection. -/
theorem compile_eq {bounds : Bounds} {accepted selected : List Payload} {names : List String}
    (hsupported : artifactFields.contains artifactType = true)
    (haccepted : s.acceptedClaims bounds = .ok accepted)
    (hselect : KernelCompiler.select s artifactType accepted bounds = .ok selected)
    (hnames : (selected.mapM fun claim => (claim.require "claim_id").map Json.pyStr) = .ok names)
    (readings : Readings) :
    ∃ a, KernelCompiler.compile s artifactType bounds readings = .ok a ∧
      a.artifactType = artifactType ∧ a.sourceClaimIds = names ∧
      a.status = KernelCompiler.status s ∧ a.sourceSequence = s.sequence ∧
      a.payload = KernelCompiler.payload s artifactType accepted selected ∧
      a.lossReport = KernelCompiler.lossReport s := by
  rw [KernelCompiler.compile, if_neg (by simp [hsupported])]
  simp only [haccepted, hselect, hnames, except_ok_bind, pure, Except.pure, Except.ok.injEq]
  exact ⟨_, rfl, rfl, rfl, rfl, rfl, rfl, rfl⟩

/-- **One artifact discloses the same of both states.** -/
theorem compile_alike (hs : Encountered s) (ht : Encountered t) (hlegible : AllLegible s)
    (hlegible' : AllLegible t) (h : Alike request s t)
    (hsupported : artifactFields.contains artifactType = true)
    (hasked : artifactType = "counterweights" → "counterweights" ∈ request.requestedFields)
    (readings readings' : Readings) :
    ∃ a b, KernelCompiler.compile s artifactType (ProjectionCompiler.bounds request) readings = .ok a ∧
      KernelCompiler.compile t artifactType (ProjectionCompiler.bounds request) readings' = .ok b ∧
      AlikeArtifacts a b := by
  obtain ⟨names, accepted, halike, haccepted, haccepted', hselect, hselect'⟩ :=
    select_alike hs ht hlegible hlegible' h hasked
  have hnames := claimIds_eq hs.kept.2 fun id hid => (halike id hid).1
  have hnames' := claimIds_eq ht.kept.2 fun id hid => (halike id hid).2.1
  have hstatus : KernelCompiler.status s = KernelCompiler.status t := by
    rw [KernelCompiler.status, KernelCompiler.status, h.degradedReasons]
  have hreasons : KernelCompiler.reasonsJson s = KernelCompiler.reasonsJson t := by
    rw [KernelCompiler.reasonsJson, KernelCompiler.reasonsJson, h.degradedReasons]
  have hpayload : ProjectionCompiler.disclosedPayload (KernelCompiler.payload s artifactType
        (accepted.map (recordOf s)) (names.map (recordOf s))) =
      ProjectionCompiler.disclosedPayload (KernelCompiler.payload t artifactType
        (accepted.map (recordOf t)) (names.map (recordOf t))) := by
    rw [KernelCompiler.payload, KernelCompiler.payload, List.length_map, List.length_map, hreasons]
    split
    · rfl
    · exact disclosedPayload_congr halike
  have hdegraded : (KernelCompiler.lossReport s).truthy "degraded_reasons" =
      (KernelCompiler.lossReport t).truthy "degraded_reasons" := by
    simp only [KernelCompiler.lossReport, Payload.truthy, Payload.getElem?_ofFields,
      List.reverse_cons, List.reverse_nil, List.nil_append, List.cons_append,
      List.lookup_cons_self, hreasons]
  obtain ⟨a, ha, htype, hids, hstatusA, hsequenceA, hpayloadA, hlossA⟩ :=
    compile_eq hsupported haccepted hselect hnames readings
  obtain ⟨b, hb, htype', hids', hstatusB, hsequenceB, hpayloadB, hlossB⟩ :=
    compile_eq hsupported haccepted' hselect' hnames' readings'
  refine ⟨a, b, ha, hb, htype.trans htype'.symm, hids.trans hids'.symm, ?_⟩
  simp only [ProjectionCompiler.disclose, DisclosedArtifact.masked, DisclosedArtifact.lossReport,
    htype, htype', hstatusA, hstatusB, hsequenceA, hsequenceB, hpayloadA, hpayloadB, hlossA, hlossB,
    hstatus, hpayload, hdegraded, h.sequence]

/-- So do the artifacts of all fields. -/
theorem artifacts_alike (hs : Encountered s) (ht : Encountered t) (hlegible : AllLegible s)
    (hlegible' : AllLegible t) (h : Alike request s t) {fields : IdSet}
    (hfields : ∀ name ∈ fields, name ∈ request.requestedFields ∧
      artifactFields.contains name = true) (readings readings' : String → Readings) :
    ∃ as bs, ProjectionCompiler.artifacts s request fields readings = .ok as ∧
      ProjectionCompiler.artifacts t request fields readings' = .ok bs ∧
      List.Forall₂ AlikeArtifacts as bs := by
  have hlist : ∀ name ∈ fields.toList, name ∈ request.requestedFields ∧
      artifactFields.contains name = true :=
    fun name hname => hfields name (Std.ExtTreeSet.mem_toList.1 hname)
  unfold ProjectionCompiler.artifacts
  generalize fields.toList = names at hlist
  induction names with
  | nil => exact ⟨[], [], rfl, rfl, .nil⟩
  | cons name names ih =>
    obtain ⟨as, bs, has, hbs, halike⟩ := ih fun name hname => hlist name (List.mem_cons_of_mem _ hname)
    obtain ⟨hasked, hsupported⟩ := hlist name List.mem_cons_self
    obtain ⟨a, b, ha, hb, hab⟩ := compile_alike hs ht hlegible hlegible' h hsupported
      (fun heq => heq ▸ hasked) (readings name) (readings' name)
    refine ⟨a :: as, b :: bs, ?_, ?_, .cons hab halike⟩
    · rw [List.mapM_cons, ha, has]
      rfl
    · rw [List.mapM_cons, hb, hbs]
      rfl

omit [Digest] in
theorem map_masked_insert {d : Dict DisclosedArtifact} {name : String} {a : DisclosedArtifact} :
    (d.insert name a).map (fun _ a => a.masked) =
      (d.map fun _ a => a.masked).insert name a.masked := by
  refine dict_ext fun key => ?_
  rw [Std.ExtTreeMap.getElem?_map, getElem?_insert, getElem?_insert, Std.ExtTreeMap.getElem?_map]
  split_ifs <;> rfl

/-- Masked, the entries are what is disclosed. -/
theorem artifacts_masked {as bs : List KernelArtifact} (h : List.Forall₂ AlikeArtifacts as bs)
    (d d' : Dict DisclosedArtifact)
    (hd : d.map (fun _ a => a.masked) = d'.map fun _ a => a.masked) :
    (as.foldl (fun d a => d.insert a.artifactType (ProjectionCompiler.disclose a)) d).map
        (fun _ a => a.masked) =
      (bs.foldl (fun d a => d.insert a.artifactType (ProjectionCompiler.disclose a)) d').map
        fun _ a => a.masked := by
  induction h generalizing d d' with
  | nil => exact hd
  | cons hab _ ih =>
    refine ih _ _ ?_
    rw [map_masked_insert, map_masked_insert, hd, hab.artifactType, hab.disclosed]

theorem sourceClaimIds_alike {as bs : List KernelArtifact}
    (h : List.Forall₂ AlikeArtifacts as bs) :
    as.flatMap (·.sourceClaimIds) = bs.flatMap (·.sourceClaimIds) := by
  induction h with
  | nil => rfl
  | cons hab _ ih => rw [List.flatMap_cons, List.flatMap_cons, hab.sourceClaimIds, ih]

/-- What a recipient learns from a compilation: the projection but for the
random names in it, and the fields and claims the receipt lists. -/
def observed (result : Projection × ProjectionReceipt) : Projection × List String × List String :=
  (result.1.masked, result.2.disclosedFields, result.2.sourceClaimIds)

omit [Digest] in
theorem mem_grantedFields {grant : ConsentGrant} {available : IdSet} {name : String}
    (h : name ∈ DefaultDenyPolicy.grantedFields request grant available) :
    name ∈ request.requestedFields ∧ available.contains name = true := by
  rw [← Std.ExtTreeSet.mem_toList, DefaultDenyPolicy.grantedFields, Std.ExtTreeSet.toList_filter,
    List.mem_filter, Std.ExtTreeSet.mem_toList, Bool.and_eq_true] at h
  exact ⟨h.1, h.2.2⟩

/-- What is compiled where the policy allows and the request is for the
twin. -/
theorem compile_allowed {policy : PolicyEvaluator} {grant : ConsentGrant}
    {readings : CompileReadings} {reasons : List String} {fields : IdSet}
    {compiled : List KernelArtifact}
    (hanswer : policy request (some grant) artifactFields readings.decided =
      (true, reasons, fields))
    (hcompiled : ProjectionCompiler.artifacts s request fields readings.artifact = .ok compiled)
    (htwin : request.twinId = s.twinId) (hsubject : s.subjectId = some request.subjectId) :
    ∃ receipt, ProjectionCompiler.compile policy s request (some grant) readings =
        .ok (ProjectionCompiler.project s request compiled, receipt) ∧
      receipt.disclosedFields = fields.toList ∧
      receipt.sourceClaimIds =
        (Std.ExtTreeSet.ofList (compiled.flatMap (·.sourceClaimIds)) : IdSet).toList := by
  unfold ProjectionCompiler.compile
  rw [if_neg (not_not.2 htwin), if_neg (not_not.2 hsubject), hanswer]
  simp only [hcompiled, except_ok_bind]
  exact ⟨_, rfl, rfl, rfl⟩

/-- A request for another twin or another subject raises, whatever the
state holds. -/
theorem compile_refused {policy : PolicyEvaluator} {consent : Option ConsentGrant}
    (htwinId : s.twinId = t.twinId) (hsubjectId : s.subjectId = t.subjectId)
    (h : request.twinId ≠ s.twinId ∨ s.subjectId ≠ some request.subjectId)
    (readings readings' : CompileReadings) :
    (ProjectionCompiler.compile policy s request consent readings).map observed =
      (ProjectionCompiler.compile policy t request consent readings').map observed := by
  unfold ProjectionCompiler.compile
  by_cases htwin : request.twinId = s.twinId
  · have hsubject : s.subjectId ≠ some request.subjectId := h.resolve_left (not_not.2 htwin)
    rw [if_neg (not_not.2 htwin), if_neg (not_not.2 (htwin.trans htwinId)), if_pos hsubject,
      if_pos (hsubjectId ▸ hsubject)]
  · rw [if_pos htwin, if_pos (htwinId ▸ htwin)]

/-- **Projection non-interference.** For any consent that allows a request,
two states alike to the request compile to the same observation, whenever
and under whatever random names; and where the request is for this twin and
its subject the compilation returns. -/
theorem projection_noninterference (hs : Encountered s) (ht : Encountered t) (hlegible : AllLegible s)
    (hlegible' : AllLegible t) (h : Alike request s t) (consent : Option ConsentGrant)
    (readings readings' : CompileReadings)
    (hallowed : (DefaultDenyPolicy.evaluateProjection request consent artifactFields
      readings.decided).1 = true)
    (hallowed' : (DefaultDenyPolicy.evaluateProjection request consent artifactFields
      readings'.decided).1 = true) :
    let compile := ProjectionCompiler.compile DefaultDenyPolicy.evaluateProjection
    (compile s request consent readings).map observed =
        (compile t request consent readings').map observed ∧
      (request.twinId = s.twinId → s.subjectId = some request.subjectId →
        ∃ result, compile s request consent readings = .ok result) := by
  intro compile
  obtain ⟨grant, rfl, hanswer⟩ := DefaultDenyPolicy.evaluateProjection_allowed hallowed
  obtain ⟨grant', hgrant, hanswer'⟩ := DefaultDenyPolicy.evaluateProjection_allowed hallowed'
  obtain rfl := Option.some.inj hgrant
  obtain ⟨as, bs, has, hbs, halike⟩ := artifacts_alike hs ht hlegible hlegible' h
    (fun name hname => mem_grantedFields hname) readings.artifact readings'.artifact
  by_cases haddressed : request.twinId = s.twinId ∧ s.subjectId = some request.subjectId
  · obtain ⟨htwin, hsubject⟩ := haddressed
    obtain ⟨receipt, hcompile, hfields, hids⟩ := compile_allowed hanswer has htwin hsubject
    obtain ⟨receipt', hcompile', hfields', hids'⟩ := compile_allowed hanswer' hbs
      (htwin.trans h.twinId) (h.subjectId ▸ hsubject)
    refine ⟨?_, fun _ _ => ⟨_, hcompile⟩⟩
    have hentries := artifacts_masked halike ∅ ∅ rfl
    have hprojection : (ProjectionCompiler.project s request as).masked =
        (ProjectionCompiler.project t request bs).masked := by
      simp only [Projection.masked, ProjectionCompiler.project, hentries, h.twinId]
    simp only [compile, hcompile, hcompile', Except.map, observed, hprojection, hfields, hfields',
      hids, hids', sourceClaimIds_alike halike]
  · rw [not_and_or] at haddressed
    refine ⟨compile_refused h.twinId h.subjectId haddressed readings readings', fun htwin hsubject => ?_⟩
    rcases haddressed with hother | hother
    · exact absurd htwin hother
    · exact absurd hsubject hother

end Compilation

/-! Alikeness of two states is a check of the claims in their sets. -/

theorem alike_of_members {request : ProjectionRequest} (htwinId : s.twinId = t.twinId)
    (hsubjectId : s.subjectId = t.subjectId) (hsequence : s.sequence = t.sequence)
    (hreasons : s.degradedReasons = t.degradedReasons)
    (haccepted : ∀ id ∈ s.acceptedClaimIds.toList ++ t.acceptedClaimIds.toList,
      Shows s request s.acceptedClaimIds id ↔ Shows t request t.acceptedClaimIds id)
    (hcontested : ∀ id ∈ s.contestedClaimIds.toList ++ t.contestedClaimIds.toList,
      Shows s request s.contestedClaimIds id ↔ Shows t request t.contestedClaimIds id)
    (hdisclosed : ∀ id ∈ s.acceptedClaimIds.toList ++ s.contestedClaimIds.toList,
      Visible s request id → ∀ claim, s.claims[id]? = some claim →
        ∀ claim', t.claims[id]? = some claim' →
          ∀ field ∈ disclosedClaimFields, claim[field]? = claim'[field]?) :
    Alike request s t := by
  have hmembers : ∀ {ids ids' : IdSet},
      (∀ id ∈ ids.toList ++ ids'.toList, Shows s request ids id ↔ Shows t request ids' id) →
        ∀ id, Shows s request ids id ↔ Shows t request ids' id := by
    intro ids ids' hall id
    constructor
    · intro h
      exact (hall id (List.mem_append_left _ (Std.ExtTreeSet.mem_toList.2 h.1))).1 h
    · intro h
      exact (hall id (List.mem_append_right _ (Std.ExtTreeSet.mem_toList.2 h.1))).2 h
  refine ⟨htwinId, hsubjectId, hsequence, hreasons, hmembers haccepted,
    fun _ => hmembers hcontested, fun id claim claim' hvisible hclaim hclaim' => ?_⟩
  refine hdisclosed id ?_ hvisible claim hclaim claim' hclaim'
  rcases hvisible with hshows | ⟨-, hshows⟩
  · exact List.mem_append_left _ (Std.ExtTreeSet.mem_toList.2 hshows.1)
  · exact List.mem_append_right _ (Std.ExtTreeSet.mem_toList.2 hshows.1)

/-- A claim on the first evidence, valid from the start of a year. -/
def datedClaim (claimId statement : String) (sensitivity : Sensitivity) : Payload :=
  (((claimPayload claimId "e1").insert "statement" (.str statement)).insert "sensitivity"
    (.str sensitivity.value)).insert "valid_from" (.str "2026-01-01T00:00:00+00:00")

/-- Two accepted claims, the second restricted. -/
def guarded (secret : String) : List EventEnvelope :=
  [eventOf "EvidenceIngested" .ingestService (evidencePayload "e1") "key-1",
   eventOf "ClaimProposed" .adjudicationWorker (datedClaim "c1" "open" .internal) "key-2",
   eventOf "ClaimAccepted" .humanReview (Payload.ofFields [("claim_id", .str "c1")]) "key-3",
   eventOf "ClaimProposed" .adjudicationWorker (datedClaim "c2" secret .restricted) "key-4",
   eventOf "ClaimAccepted" .humanReview (Payload.ofFields [("claim_id", .str "c2")]) "key-5"]

/-- Asked for in the middle of that year, up to internal claims. -/
def careRequest : ProjectionRequest where
  requestId := "q1"
  twinId := "t"
  subjectId := "s"
  recipientId := "clinic"
  purpose := "care"
  requestedFields := .ofList ["kernel", "counterweights", "readiness"]
  maximumSensitivity := .internal
  asOfValidTime := DateTime.utc 63917000000000000
  asOfRecordedTime := DateTime.utc 63917000000000000
  fields_required := by decide +kernel
  aware := ⟨rfl, rfl⟩

theorem aware_of_unrevoked : ∀ revoked ∈ (none : Option DateTime), revoked.naive = false := by
  intro _ h
  cases h

def careGrant : ConsentGrant where
  consentId := "g1"
  subjectId := "s"
  recipientId := "clinic"
  purposes := .ofList ["care"]
  allowedFields := artifactFields
  maxSensitivity := .confidential
  validFrom := DateTime.utc 0
  validUntil := DateTime.utc 64000000000000000
  policyVersion := "v1"
  until_follows := by decide +kernel
  aware := ⟨rfl, rfl⟩
  revoked_aware := aware_of_unrevoked

theorem projection_noninterference_guarded :
    let _ : Digest := checksumDigest
    let s := replay { twinId := "t" } (guarded "heir")
    let t := replay { twinId := "t" } (guarded "debtor")
    let readings : CompileReadings := ⟨10, fun name => ⟨11, "a-" ++ name⟩, ⟨12, "p"⟩⟩
    let readings' : CompileReadings := ⟨20, fun name => ⟨21, "b-" ++ name⟩, ⟨22, "q"⟩⟩
    let compile := ProjectionCompiler.compile DefaultDenyPolicy.evaluateProjection
    s.claims ≠ t.claims ∧
      (compile s careRequest (some careGrant) readings).map observed =
        (compile t careRequest (some careGrant) readings').map observed ∧
      ∃ result, compile s careRequest (some careGrant) readings = .ok result := by
  intro digest s t readings readings' compile
  have hs : Encountered s :=
    .folded (folded_eq_ok.2 ⟨legal_of_folded (by decide +kernel), rfl⟩)
  have ht : Encountered t :=
    .folded (folded_eq_ok.2 ⟨legal_of_folded (by decide +kernel), rfl⟩)
  have hlegible : ∀ entry ∈ s.claims.toList, Legible entry.2 := by decide +kernel
  have hlegible' : ∀ entry ∈ t.claims.toList, Legible entry.2 := by decide +kernel
  have halike : Alike careRequest s t := by
    refine alike_of_members ?_ ?_ ?_ ?_ ?_ ?_ ?_ <;> decide +kernel
  obtain ⟨hobserved, hreturns⟩ := projection_noninterference hs ht
    (fun id claim h => hlegible (id, claim) (mem_dict_toList.2 h))
    (fun id claim h => hlegible' (id, claim) (mem_dict_toList.2 h)) halike (some careGrant)
    readings readings' (by decide +kernel) (by decide +kernel)
  exact ⟨by decide +kernel, hobserved, hreturns (by decide +kernel) (by decide +kernel)⟩

end ArgoTwin
