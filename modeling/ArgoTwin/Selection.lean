import ArgoTwin.NonInterference
/-!
# Selecting by valid time, and selecting from a view

A compilation can be given the instant, or be given the view of the state
at it. The view takes a record without a `valid_from` to be valid always;
the listings ask every claim they look at for one, which nothing that
proposes a claim has to give.
-/

namespace ArgoTwin

open Library TwinAggregate TwinState

/-! ## One record -/

section Records

variable {claim : Payload} {instant : DateTime} {bounds : Bounds}

/-- `parse_time` reads the times a record is valid within, if it has any. -/
structure Timed (record : Payload) : Prop where
  start : record.truthy "valid_from" = true →
    ∃ time, parseTime (record.strD "valid_from" "") = .ok time
  finish : record.truthy "valid_from" = true → record.truthy "valid_until" = true →
    ∃ time, parseTime (record.strD "valid_until" "") = .ok time

/-- A claim has a `valid_from`, as text, and its `valid_until`, if any, is
text. -/
structure StatesTimes (claim : Payload) : Prop where
  start : ∃ text, claim["valid_from"]? = some (.str text) ∧ text ≠ ""
  finish : claim.truthy "valid_until" = true → ∃ text, claim["valid_until"]? = some (.str text)

/-- The bound on sensitivity, if there is one, lets the claim through. -/
def ClearedFor (bounds : Bounds) (claim : Payload) : Prop :=
  ∀ limit, bounds.maxSensitivity = some limit →
    ∀ level, sensitivityOf claim = .ok level → level.rank ≤ limit.rank

/-- What a listing at an instant asks of a claim it looks at: a sensitivity
that can be read, where there is a bound on it; of a claim the bound lets
through, times stated; and of one that is valid besides, a recording time
that can be compared. -/
structure Listable (bounds : Bounds) (instant : DateTime) (claim : Payload) : Prop where
  sensitivity : ∀ limit, bounds.maxSensitivity = some limit →
    ∃ level, sensitivityOf claim = .ok level
  times : ClearedFor bounds claim → StatesTimes claim
  recorded : ClearedFor bounds claim → validAt claim instant = .ok true →
    ∀ knownAt, bounds.knownAt = some knownAt → claim.truthy "recorded_at" = true →
      knownAt.naive = false ∧ ∃ time, timeOf (claim["recorded_at"]?.getD .null) = .ok time

theorem naive_parseTime {text : String} {time : DateTime} (h : parseTime text = .ok time) :
    time.naive = false := by
  have htime : timeOf (.str text) = .ok time := h
  exact naive_timeOf htime

/-- **The view reads a record** exactly if its times can be read. -/
theorem validAt_isOk (haware : instant.naive = false) :
    (∃ valid, validAt claim instant = .ok valid) ↔ Timed claim := by
  constructor
  · rintro ⟨valid, hvalid⟩
    unfold validAt at hvalid
    cases hfrom : claim.truthy "valid_from" with
    | false => exact ⟨(fun h => by cases hfrom.symm.trans h), fun h => by cases hfrom.symm.trans h⟩
    | true =>
      rw [hfrom] at hvalid
      cases huntil : claim.truthy "valid_until" with
      | false =>
        simp only [Bool.not_true, Bool.false_eq_true, if_false, bind_eq_ok] at hvalid
        obtain ⟨start, hstart, -⟩ := hvalid
        exact ⟨fun _ => ⟨start, hstart⟩, fun _ h => by cases huntil.symm.trans h⟩
      | true =>
        simp only [huntil, Bool.not_true, Bool.false_eq_true, if_false, if_true,
          bind_eq_ok] at hvalid
        obtain ⟨start, hstart, finish, hfinish, -⟩ := hvalid
        refine ⟨fun _ => ⟨start, hstart⟩, fun _ _ => ?_⟩
        cases hread : parseTime (claim.strD "valid_until" "") with
        | ok time => exact ⟨time, rfl⟩
        | error e =>
          rw [hread] at hfinish
          cases hfinish
  · intro h
    unfold validAt
    cases hfrom : claim.truthy "valid_from" with
    | false => exact ⟨true, rfl⟩
    | true =>
      obtain ⟨start, hstart⟩ := h.start hfrom
      have hbefore := lt_of_aware haware (naive_parseTime hstart)
      cases huntil : claim.truthy "valid_until" with
      | false =>
        simp only [Bool.not_true, Bool.false_eq_true, if_false, hstart, hbefore, except_ok_bind,
          pure, Except.pure]
        split <;> exact ⟨_, rfl⟩
      | true =>
        obtain ⟨finish, hfinish⟩ := h.finish hfrom huntil
        have hafter := lt_of_aware haware (naive_parseTime hfinish)
        simp only [Bool.not_true, Bool.false_eq_true, if_false, if_true, hstart, hfinish, hbefore,
          hafter, Except.map, except_ok_bind, pure, Except.pure]
        split <;> exact ⟨_, rfl⟩

theorem strD_of_text {key text : String} (h : claim[key]? = some (.str text)) :
    claim.strD key "" = text := by
  rw [Payload.strD, h]
  rfl

theorem truthy_of_text {key text : String} (h : claim[key]? = some (.str text))
    (hne : text ≠ "") : claim.truthy key = true := by
  rw [Payload.truthy, h]
  simp [Json.truthy, hne]

/-- **On a claim that states its times the two tests are one.** -/
theorem validWithin_eq (h : StatesTimes claim) :
    validWithin claim instant = validAt claim instant := by
  obtain ⟨text, htext, hne⟩ := h.start
  unfold validWithin validAt
  rw [truthy_of_text htext hne, strD_of_text htext, Payload.require, htext]
  simp only [Bool.not_true, Bool.false_eq_true, if_false, except_ok_bind, timeOf, timeAt]
  cases huntil : claim.truthy "valid_until" with
  | false => rfl
  | true =>
    obtain ⟨finish, hfinish⟩ := h.finish huntil
    rw [strD_of_text hfinish, hfinish]
    rfl

/-- What reads as a time is text. -/
theorem text_of_timeOf {value : Json} {time : DateTime} (h : timeOf value = .ok time) :
    ∃ text, value = .str text ∧ text ≠ "" := by
  cases value with
  | str text =>
    refine ⟨text, rfl, ?_⟩
    rintro rfl
    have hempty : timeOf (.str "") = .error (.valueError "Invalid isoformat string") := by decide
    rw [hempty] at h
    cases h
  | _ => cases h

/-- A claim whose times were read states them. -/
theorem statesTimes_of_read
    (hstart : ∃ value, claim["valid_from"]? = some value ∧ ∃ start, timeOf value = .ok start)
    (hfinish : claim.truthy "valid_until" = true →
      ∃ finish, timeOf (claim["valid_until"]?.getD .null) = .ok finish) : StatesTimes claim := by
  constructor
  · obtain ⟨value, hvalue, start, hstart⟩ := hstart
    obtain ⟨text, rfl, hne⟩ := text_of_timeOf hstart
    exact ⟨text, hvalue, hne⟩
  · intro huntil
    obtain ⟨finish, hfinish⟩ := hfinish huntil
    cases hfound : claim["valid_until"]? with
    | none => simp [Payload.truthy, hfound] at huntil
    | some found =>
      rw [hfound, Option.getD_some] at hfinish
      obtain ⟨text, rfl, -⟩ := text_of_timeOf hfinish
      exact ⟨text, rfl⟩

theorem statesTimes_of_validWithin {valid : Bool} (h : validWithin claim instant = .ok valid) :
    StatesTimes claim := by
  simp only [validWithin, bind_eq_ok] at h
  obtain ⟨value, hvalue, start, hstart, finish, hfinish, -⟩ := h
  refine statesTimes_of_read ⟨value, ?_, start, hstart⟩ fun huntil => ?_
  · unfold Payload.require at hvalue
    split at hvalue
    · rename_i found hfound
      rw [hfound, Except.ok.inj hvalue]
    · cases hvalue
  · rw [timeAt, if_pos huntil] at hfinish
    cases hread : timeOf (claim["valid_until"]?.getD .null) with
    | ok time => exact ⟨time, rfl⟩
    | error e =>
      rw [hread] at hfinish
      cases hfinish

theorem clearedBy_isOk : (∃ cleared, clearedBy bounds claim = .ok cleared) ↔
    ∀ limit, bounds.maxSensitivity = some limit → ∃ level, sensitivityOf claim = .ok level := by
  unfold clearedBy
  cases bounds.maxSensitivity with
  | none => exact ⟨(fun _ limit h => by cases h), fun _ => ⟨true, rfl⟩⟩
  | some limit =>
    constructor
    · rintro ⟨cleared, hcleared⟩ limit' -
      obtain ⟨level, hlevel, -⟩ := bind_eq_ok.1 hcleared
      exact ⟨level, hlevel⟩
    · intro h
      obtain ⟨level, hlevel⟩ := h limit rfl
      exact ⟨_, bind_eq_ok.2 ⟨level, hlevel, rfl⟩⟩

theorem clearedFor_iff {cleared : Bool} (h : clearedBy bounds claim = .ok cleared) :
    cleared = true ↔ ClearedFor bounds claim := by
  unfold clearedBy at h
  unfold ClearedFor
  cases hlimit : bounds.maxSensitivity with
  | none =>
    rw [hlimit] at h
    obtain rfl := Except.ok.inj h
    exact ⟨(fun _ limit h => by cases h), fun _ => rfl⟩
  | some limit =>
    rw [hlimit] at h
    obtain ⟨level, hlevel, hcleared⟩ := bind_eq_ok.1 h
    obtain rfl := Except.ok.inj hcleared
    rw [decide_eq_true_eq]
    constructor
    · intro hle limit' hlimit' level' hlevel'
      obtain rfl := Option.some.inj hlimit'
      obtain rfl := Except.ok.inj (hlevel.symm.trans hlevel')
      exact hle
    · exact fun hall => hall limit rfl level hlevel

theorem knownBy_isOk : (∃ known, knownBy bounds claim = .ok known) ↔
    ∀ knownAt, bounds.knownAt = some knownAt → claim.truthy "recorded_at" = true →
      knownAt.naive = false ∧ ∃ time, timeOf (claim["recorded_at"]?.getD .null) = .ok time := by
  unfold knownBy
  cases bounds.knownAt with
  | none => exact ⟨(fun _ limit h => by cases h), fun _ => ⟨true, rfl⟩⟩
  | some knownAt =>
    constructor
    · rintro ⟨known, hknown⟩ knownAt' heq hrecorded
      obtain rfl := Option.some.inj heq
      obtain ⟨time, htime, hcompared⟩ := bind_eq_ok.1 hknown
      rw [timeAt, if_pos hrecorded] at htime
      cases hread : timeOf (claim["recorded_at"]?.getD .null) with
      | error e =>
        rw [hread] at htime
        cases htime
      | ok recorded =>
        rw [hread] at htime
        obtain rfl := Except.ok.inj htime
        obtain ⟨later, hlater, -⟩ := bind_eq_ok.1 hcompared
        refine ⟨?_, recorded, rfl⟩
        by_contra hnaive
        rw [DateTime.lt, if_pos (by rw [naive_timeOf hread]; simpa using hnaive)] at hlater
        cases hlater
    · intro h
      rcases timeAt_eq fun hrecorded => (h knownAt rfl hrecorded).2 with
        ⟨-, htime⟩ | ⟨hrecorded, time, hread, htime⟩
      · exact ⟨true, bind_eq_ok.2 ⟨none, htime, rfl⟩⟩
      · have hlater := lt_of_aware (h knownAt rfl hrecorded).1 (naive_timeOf hread)
        exact ⟨_, bind_eq_ok.2 ⟨some time, htime, bind_eq_ok.2 ⟨_, hlater, rfl⟩⟩⟩

variable {knownAt : Option DateTime} {limit : Option Sensitivity}

/-- **Filtering at an instant is filtering what is valid at it.** -/
theorem visible_eq_ite (h : Listable ⟨some instant, knownAt, limit⟩ instant claim) {valid : Bool}
    (hvalid : validAt claim instant = .ok valid) :
    visible ⟨some instant, knownAt, limit⟩ claim =
      if valid then visible ⟨none, knownAt, limit⟩ claim else .ok false := by
  obtain ⟨cleared, hcleared⟩ := clearedBy_isOk.2 h.sensitivity
  have hcleared' : clearedBy ⟨none, knownAt, limit⟩ claim = .ok cleared := hcleared
  unfold visible
  rw [hcleared, hcleared']
  cases cleared with
  | false => cases valid <;> rfl
  | true =>
    have hstates := h.times ((clearedFor_iff hcleared).1 rfl)
    have hwithin : validBy ⟨some instant, knownAt, limit⟩ claim = .ok valid :=
      (validWithin_eq hstates).trans hvalid
    simp only [except_ok_bind, if_true, hwithin]
    cases valid <;> rfl

/-- **A listing at an instant reads a claim** exactly if it states what the
listing asks for. -/
theorem visible_isOk (haware : instant.naive = false) (htimed : Timed claim) :
    (∃ shown, visible ⟨some instant, knownAt, limit⟩ claim = .ok shown) ↔
      Listable ⟨some instant, knownAt, limit⟩ instant claim := by
  constructor
  · rintro ⟨shown, hshown⟩
    obtain ⟨cleared, hcleared, hrest⟩ := bind_eq_ok.1 hshown
    have hwithin (hfor : ClearedFor ⟨some instant, knownAt, limit⟩ claim) :
        ∃ valid, validWithin claim instant = .ok valid ∧
          (valid = true → ∃ known, knownBy ⟨some instant, knownAt, limit⟩ claim = .ok known) := by
      obtain rfl := (clearedFor_iff hcleared).2 hfor
      obtain ⟨valid, hvalid, hrest⟩ := bind_eq_ok.1 hrest
      refine ⟨valid, hvalid, ?_⟩
      rintro rfl
      exact ⟨shown, hrest⟩
    refine ⟨clearedBy_isOk.1 ⟨cleared, hcleared⟩, fun hfor => ?_, fun hfor hvalid => ?_⟩
    · obtain ⟨valid, hvalid, -⟩ := hwithin hfor
      exact statesTimes_of_validWithin hvalid
    · obtain ⟨valid, hvalid', hknown⟩ := hwithin hfor
      rw [validWithin_eq (statesTimes_of_validWithin hvalid'), hvalid] at hvalid'
      obtain rfl := Except.ok.inj hvalid'
      exact knownBy_isOk.1 (hknown rfl)
  · intro h
    obtain ⟨valid, hvalid⟩ := (validAt_isOk haware).2 htimed
    rw [visible_eq_ite h hvalid]
    cases valid with
    | false => exact ⟨false, rfl⟩
    | true =>
      obtain ⟨cleared, hcleared⟩ := clearedBy_isOk.2 h.sensitivity
      have hcleared' : clearedBy ⟨none, knownAt, limit⟩ claim = .ok cleared := hcleared
      unfold visible
      rw [hcleared']
      cases cleared with
      | false => exact ⟨false, rfl⟩
      | true => exact knownBy_isOk.2 (h.recorded ((clearedFor_iff hcleared).1 rfl) hvalid)

end Records

/-! ## The view -/

section Views

variable {s view : TwinState} {instant : DateTime}

/-- A dictionary comprehension returns exactly if it can read every record. -/
theorem selectRecords_isOk {p : Payload → Except PyError Bool} {records : Dict Payload} :
    (∃ selected, selectRecords p records = .ok selected) ↔
      ∀ (id : String) (record : Payload), records[id]? = some record →
        ∃ b, p record = .ok b := by
  have hlist : ∀ l : List (String × Payload),
      (l.forM fun record => do let _ ← p record.2) = (.ok ⟨⟩ : Except PyError PUnit) ↔
        ∀ record ∈ l, ∃ b, p record.2 = .ok b := by
    intro l
    induction l with
    | nil => exact ⟨(fun _ _ h => by cases h), fun _ => rfl⟩
    | cons record l ih =>
      rw [List.forM, List.forall_mem_cons, ← ih]
      cases p record.2 with
      | ok b => simp [bind, Except.bind, pure, Except.pure]
      | error e => simp [bind, Except.bind]
  constructor
  · rintro ⟨selected, h⟩ id record hrecord
    obtain ⟨_, hread, -⟩ := bind_eq_ok.1 h
    exact (hlist _).1 hread (id, record) (mem_dict_toList.2 hrecord)
  · intro h
    exact ⟨_, bind_eq_ok.2 ⟨⟨⟩, (hlist _).2 fun record hrecord =>
      h record.1 record.2 (mem_dict_toList.1 hrecord), rfl⟩⟩

/-- Every record that carries a validity can be read. -/
structure AllTimed (s : TwinState) : Prop where
  evidence : ∀ (id : String) (record : Payload), s.evidence[id]? = some record → Timed record
  entityLinks : ∀ (id : String) (record : Payload), s.entityLinks[id]? = some record → Timed record
  claims : ∀ (id : String) (record : Payload), s.claims[id]? = some record → Timed record

/-- **There is a view exactly if every record can be read**: what the
contradictions name can always be. -/
theorem selectValidAt_isOk (hs : Encountered s) (haware : instant.naive = false) :
    (∃ view, s.selectValidAt instant = .ok view) ↔ AllTimed s := by
  unfold selectValidAt
  rw [haware, if_neg (by decide)]
  constructor
  · rintro ⟨view, h⟩
    simp only [bind_eq_ok] at h
    obtain ⟨evidence, hevidence, links, hlinks, claims, hclaims, -⟩ := h
    have hread {records selected : Dict Payload}
        (h : selectRecords (validAt · instant) records = .ok selected) (id : String)
        (record : Payload) (hrecord : records[id]? = some record) : Timed record :=
      (validAt_isOk haware).1 (selectRecords_isOk.1 ⟨selected, h⟩ id record hrecord)
    exact ⟨hread hevidence, hread hlinks, hread hclaims⟩
  · intro h
    have hread {records : Dict Payload}
        (h : ∀ (id : String) (record : Payload), records[id]? = some record → Timed record) :
        ∃ selected, selectRecords (validAt · instant) records = .ok selected :=
      selectRecords_isOk.2 fun id record hrecord => (validAt_isOk haware).2 (h id record hrecord)
    obtain ⟨evidence, hevidence⟩ := hread h.evidence
    obtain ⟨links, hlinks⟩ := hread h.entityLinks
    obtain ⟨claims, hclaims⟩ := hread h.claims
    obtain ⟨contradictions, hcontradictions⟩ :
        ∃ selected, selectRecords (disputesAmong claims) s.contradictions = .ok selected := by
      refine selectRecords_isOk.2 fun id contradiction hcontradiction => ?_
      obtain ⟨claimIds, hread, -⟩ := hs.kept.1.consistent.disputes.claims_known id contradiction
        hcontradiction
      exact ⟨_, bind_eq_ok.2 ⟨claimIds, hread, rfl⟩⟩
    simp only [hevidence, hlinks, hclaims, hcontradictions, except_ok_bind]
    exact ⟨_, rfl⟩

/-- The claims of a view, and the sets of them its listings go by. -/
structure ViewOfClaims (s view : TwinState) (instant : DateTime) : Prop where
  claims : ∀ (id : String) (claim : Payload), view.claims[id]? = some claim ↔
    s.claims[id]? = some claim ∧ validAt claim instant = .ok true
  accepted : view.acceptedClaimIds = among s.acceptedClaimIds view.claims
  contested : view.contestedClaimIds = among s.contestedClaimIds view.claims
  retired : view.retiredClaimIds = among s.retiredClaimIds view.claims
  superseded : view.supersededClaimIds = among s.supersededClaimIds view.claims
  stale : view.staleClaimIds = among s.staleClaimIds view.claims
  degraded : view.degradedReasons = s.degradedReasons

theorem viewOfClaims (h : s.selectValidAt instant = .ok view) : ViewOfClaims s view instant := by
  unfold selectValidAt at h
  split at h
  · cases h
  · simp only [bind_eq_ok] at h
    obtain ⟨evidence, -, links, -, claims, hclaims, contradictions, -, h⟩ := h
    obtain rfl := Except.ok.inj h
    exact ⟨fun id claim => getElem?_selectRecords hclaims, rfl, rfl, rfl, rfl, rfl, rfl⟩

end Views

/-! ## The listings -/

section Listings

variable {s view : TwinState} {instant : DateTime} {knownAt : Option DateTime}
variable {limit : Option Sensitivity} {artifactType : String} {names : List String}

/-- The contested claims the counterweights look at. -/
def contestedNames (s : TwinState) : List String :=
  s.contestedClaimIds.toList.filter fun claimId =>
    s.claims.contains claimId && !s.staleClaimIds.contains claimId

/-- The claims a compilation looks at: those standing, and for the
counterweights the contested ones besides. -/
def lookedAt (s : TwinState) (artifactType : String) : List String :=
  s.standing ++ if artifactType = "counterweights" then contestedNames s else []

theorem toList_among {ids : IdSet} {records : Dict Payload} :
    (among ids records).toList = ids.toList.filter records.contains := by
  rw [among, Std.ExtTreeSet.toList_filter]

theorem contains_among {ids : IdSet} {records : Dict Payload} {id : String}
    (h : records.contains id = true) : (among ids records).contains id = ids.contains id := by
  rw [Bool.eq_iff_iff, ← Std.ExtTreeSet.mem_iff_contains, ← Std.ExtTreeSet.mem_iff_contains,
    mem_among, Std.ExtTreeMap.mem_iff_contains]
  exact ⟨fun hmem => hmem.1, fun hmem => ⟨hmem, h⟩⟩

theorem ViewOfClaims.known (h : ViewOfClaims s view instant) {id : String}
    (hid : view.claims.contains id = true) : s.claims.contains id = true := by
  obtain ⟨claim, hclaim⟩ := mem_iff_getElem?.1 (Std.ExtTreeMap.mem_iff_contains.2 hid)
  exact Std.ExtTreeMap.mem_iff_contains.1 (mem_of_getElem? ((h.claims id claim).1 hclaim).1)

/-- The claims standing in a view are those standing that are in it. -/
theorem ViewOfClaims.standing (h : ViewOfClaims s view instant) :
    view.standing = s.standing.filter view.claims.contains := by
  unfold TwinState.standing
  rw [h.accepted, toList_among, List.filter_filter, List.filter_filter]
  refine List.filter_congr fun id _ => ?_
  cases hkept : view.claims.contains id with
  | false => rw [Bool.and_false, Bool.false_and]
  | true =>
    rw [h.stale, h.retired, h.superseded, contains_among hkept, contains_among hkept,
      contains_among hkept, Bool.and_true, Bool.true_and]

/-- So are its contested claims. -/
theorem ViewOfClaims.contestedNames (h : ViewOfClaims s view instant) :
    contestedNames view = (contestedNames s).filter view.claims.contains := by
  unfold ArgoTwin.contestedNames
  rw [h.contested, toList_among, List.filter_filter, List.filter_filter]
  refine List.filter_congr fun id _ => ?_
  cases hkept : view.claims.contains id with
  | false => rw [Bool.and_false, Bool.false_and]
  | true =>
    rw [h.stale, contains_among hkept, h.known hkept, Bool.and_true, Bool.true_and, Bool.true_and]

/-- **A listing at an instant and the listing of the view return the same
claims**, where every claim looked at can be listed. -/
theorem visibleAmong_view (hview : ViewOfClaims s view instant) (haware : instant.naive = false)
    (htimed : AllTimed s) (hknown : ∀ id ∈ names, id ∈ s.claims)
    (hlistable : ∀ id ∈ names, ∀ claim, s.claims[id]? = some claim →
      Listable ⟨some instant, knownAt, limit⟩ instant claim) :
    ∃ shown : List String, (∀ id ∈ shown, id ∈ s.claims) ∧
      s.visibleAmong ⟨some instant, knownAt, limit⟩ names = .ok (shown.map (recordOf s)) ∧
      view.visibleAmong ⟨none, knownAt, limit⟩ (names.filter view.claims.contains) =
        .ok (shown.map (recordOf s)) := by
  -- what each claim comes to, at the instant and in the view
  have hread (id : String) (hid : id ∈ names) : ∃ claim shown valid,
      s.claims[id]? = some claim ∧ validAt claim instant = .ok valid ∧
        visible ⟨some instant, knownAt, limit⟩ claim = .ok shown ∧
        (valid = true → visible ⟨none, knownAt, limit⟩ claim = .ok shown) ∧
        (valid = false → shown = false) := by
    obtain ⟨claim, hclaim⟩ := mem_iff_getElem?.1 (hknown id hid)
    have htimes := htimed.claims id claim hclaim
    have hlist := hlistable id hid claim hclaim
    obtain ⟨valid, hvalid⟩ := (validAt_isOk haware).2 htimes
    obtain ⟨shown, hshown⟩ := (visible_isOk haware htimes).2 hlist
    refine ⟨claim, shown, valid, hclaim, hvalid, hshown, ?_, ?_⟩ <;> rintro rfl
    · exact ((visible_eq_ite hlist hvalid).symm.trans hshown)
    · exact (Except.ok.inj ((visible_eq_ite hlist hvalid).symm.trans hshown)).symm
  refine ⟨names.filter fun id => holds (visible ⟨some instant, knownAt, limit⟩ (recordOf s id)),
    fun id hid => hknown id (List.mem_of_mem_filter hid), visibleAmong_eq_ok.2 ⟨?_, rfl⟩,
    visibleAmong_eq_ok.2 ⟨?_, ?_⟩⟩
  · intro id hid
    obtain ⟨claim, shown, -, hclaim, -, hshown, -⟩ := hread id hid
    exact ⟨claim, hclaim, shown, hshown⟩
  · intro id hid
    obtain ⟨hid, hkept⟩ := List.mem_filter.1 hid
    obtain ⟨claim, shown, valid, hclaim, hvalid, -, hsame, -⟩ := hread id hid
    obtain ⟨claim', hclaim'⟩ := mem_iff_getElem?.1 (Std.ExtTreeMap.mem_iff_contains.2 hkept)
    obtain ⟨hfound, hvalid'⟩ := (hview.claims id claim').1 hclaim'
    obtain rfl := Option.some.inj (hclaim.symm.trans hfound)
    obtain rfl := Except.ok.inj (hvalid.symm.trans hvalid')
    exact ⟨claim, hclaim', shown, hsame rfl⟩
  · have hnames : (names.filter fun id =>
          holds (visible ⟨some instant, knownAt, limit⟩ (recordOf s id))) =
        (names.filter view.claims.contains).filter fun id =>
          holds (visible ⟨none, knownAt, limit⟩ (recordOf view id)) := by
      rw [List.filter_filter]
      refine List.filter_congr fun id hid => ?_
      obtain ⟨claim, shown, valid, hclaim, hvalid, hshown, hsame, hnot⟩ := hread id hid
      rw [recordOf_eq hclaim, hshown]
      cases valid with
      | false =>
        obtain rfl := hnot rfl
        cases hkept : view.claims.contains id with
        | false => rw [Bool.and_false, holds]
        | true =>
          obtain ⟨claim', hclaim'⟩ := mem_iff_getElem?.1 (Std.ExtTreeMap.mem_iff_contains.2 hkept)
          obtain ⟨hfound, hvalid'⟩ := (hview.claims id claim').1 hclaim'
          obtain rfl := Option.some.inj (hclaim.symm.trans hfound)
          cases hvalid.symm.trans hvalid'
      | true =>
        have hclaim' := (hview.claims id claim).2 ⟨hclaim, hvalid⟩
        have hkept := Std.ExtTreeMap.mem_iff_contains.1 (mem_of_getElem? hclaim')
        rw [recordOf_eq hclaim', hkept, hsame rfl, Bool.and_true]
    rw [hnames]
    refine List.map_congr_left fun id hid => ?_
    have hkept := (List.mem_filter.1 (List.mem_of_mem_filter hid)).2
    obtain ⟨claim, hclaim⟩ := mem_iff_getElem?.1 (Std.ExtTreeMap.mem_iff_contains.2 hkept)
    rw [recordOf_eq hclaim, recordOf_eq ((hview.claims id claim).1 hclaim).1]

/-- A compilation at an instant and one of the view select the same. -/
def SelectsAlike [Digest] (s : TwinState) (instant : DateTime) (artifactType : String)
    (knownAt : Option DateTime) (limit : Option Sensitivity) (readings readings' : Readings) :
    Prop :=
  ∃ view whole part, s.selectValidAt instant = .ok view ∧
    KernelCompiler.compile s artifactType ⟨some instant, knownAt, limit⟩ readings = .ok whole ∧
    KernelCompiler.compile view artifactType ⟨none, knownAt, limit⟩ readings' = .ok part ∧
    whole.sourceClaimIds = part.sourceClaimIds ∧ whole.payload = part.payload

/-- What a compilation that returns has read. -/
theorem compile_reads [Digest] {bounds : Bounds} {readings : Readings} {a : KernelArtifact}
    (h : KernelCompiler.compile s artifactType bounds readings = .ok a) {id : String}
    (hid : id ∈ lookedAt s artifactType) {claim : Payload} (hclaim : s.claims[id]? = some claim) :
    ∃ shown, visible bounds claim = .ok shown := by
  have hread {names : List String} {claims : List Payload}
      (hlist : s.visibleAmong bounds names = .ok claims) (hid : id ∈ names) :
      ∃ shown, visible bounds claim = .ok shown := by
    obtain ⟨claim', hclaim', hshown⟩ := (visibleAmong_eq_ok.1 hlist).1 id hid
    obtain rfl := Option.some.inj (hclaim.symm.trans hclaim')
    exact hshown
  unfold KernelCompiler.compile at h
  split at h
  · cases h
  · obtain ⟨accepted, haccepted, hrest⟩ := bind_eq_ok.1 h
    obtain ⟨selected, hselected, -⟩ := bind_eq_ok.1 hrest
    rcases List.mem_append.1 hid with hstands | hopposed
    · exact hread haccepted hstands
    · split at hopposed
      · rename_i htype
        subst htype
        have hcontested : s.contestedClaims bounds = .ok selected := hselected
        exact hread hcontested hopposed
      · cases hopposed

/-- **Both compilations are made of the same claims.** -/
theorem select_view (hs : Encountered s) (hview : ViewOfClaims s view instant)
    (haware : instant.naive = false) (htimed : AllTimed s)
    (hlistable : ∀ id ∈ lookedAt s artifactType, ∀ claim, s.claims[id]? = some claim →
      Listable ⟨some instant, knownAt, limit⟩ instant claim) :
    ∃ (accepted : List Payload) (chosen : List String), (∀ id ∈ chosen, id ∈ s.claims) ∧
      s.acceptedClaims ⟨some instant, knownAt, limit⟩ = .ok accepted ∧
      view.acceptedClaims ⟨none, knownAt, limit⟩ = .ok accepted ∧
      KernelCompiler.select s artifactType accepted ⟨some instant, knownAt, limit⟩ =
        .ok (chosen.map (recordOf s)) ∧
      KernelCompiler.select view artifactType accepted ⟨none, knownAt, limit⟩ =
        .ok (chosen.map (recordOf s)) := by
  have hstanding : ∀ id ∈ s.standing, id ∈ s.claims := fun id hid =>
    hs.kept.1.consistent.claims.accepted_known id (mem_standing.1 hid).1
  obtain ⟨shown, hshown, haccepted, haccepted'⟩ := visibleAmong_view hview haware htimed hstanding
    fun id hid => hlistable id (List.mem_append_left _ hid)
  rw [← hview.standing] at haccepted'
  by_cases hkernel : artifactType = "kernel"
  · refine ⟨_, shown, hshown, haccepted, haccepted', ?_, ?_⟩ <;>
      rw [KernelCompiler.select, if_pos hkernel]
  · by_cases hcounter : artifactType = "counterweights"
    · subst hcounter
      have hcontested : ∀ id ∈ contestedNames s, id ∈ s.claims := fun id hid =>
        hs.kept.1.consistent.claims.contested_known id
          (Std.ExtTreeSet.mem_toList.1 (List.mem_of_mem_filter hid))
      obtain ⟨opposed, hopposed, hlisted, hlisted'⟩ := visibleAmong_view hview haware htimed
        hcontested fun id hid => hlistable id (List.mem_append_right _ hid)
      rw [← hview.contestedNames] at hlisted'
      exact ⟨_, opposed, hopposed, haccepted, haccepted', hlisted, hlisted'⟩
    · by_cases hreadiness : artifactType = "readiness"
      · refine ⟨_, [], (fun id hid => by cases hid), haccepted, haccepted', ?_, ?_⟩ <;>
          rw [KernelCompiler.select, if_neg hkernel, if_neg hcounter, if_pos hreadiness] <;> rfl
      · refine ⟨_, shown.filter fun id =>
            claimKindToArtifact.lookup (KernelCompiler.kindOf (recordOf s id)) = some artifactType,
          fun id hid => hshown id (List.mem_of_mem_filter hid), haccepted, haccepted', ?_, ?_⟩ <;>
          rw [KernelCompiler.select, if_neg hkernel, if_neg hcounter, if_neg hreadiness,
            List.filter_map] <;> rfl

/-- **The two filters agree exactly where the listings can be read.** In a
state reached by accepted events, compiling at an instant and compiling the
view of it select the same claims if and only if every record's times can
be read and every claim looked at states what a listing asks for: a readable
sensitivity where there is a bound, and, where the bound lets it through, a
`valid_from`. -/
theorem selectsAlike_iff [Digest] (hs : Encountered s) (haware : instant.naive = false)
    (hsupported : artifactFields.contains artifactType = true) (readings readings' : Readings) :
    SelectsAlike s instant artifactType knownAt limit readings readings' ↔
      AllTimed s ∧ ∀ id ∈ lookedAt s artifactType, ∀ claim, s.claims[id]? = some claim →
        Listable ⟨some instant, knownAt, limit⟩ instant claim := by
  constructor
  · rintro ⟨view, whole, part, hview, hwhole, -⟩
    have htimed := (selectValidAt_isOk hs haware).1 ⟨view, hview⟩
    refine ⟨htimed, fun id hid claim hclaim => ?_⟩
    exact (visible_isOk haware (htimed.claims id claim hclaim)).1 (compile_reads hwhole hid hclaim)
  · rintro ⟨htimed, hlistable⟩
    obtain ⟨view, hview⟩ := (selectValidAt_isOk hs haware).2 htimed
    have hsame := viewOfClaims hview
    obtain ⟨accepted, chosen, hchosen, haccepted, haccepted', hselect, hselect'⟩ :=
      select_view hs hsame haware htimed hlistable
    have hids := claimIds_eq hs.kept.2 hchosen
    obtain ⟨whole, hwhole, -, hwholeIds, -, -, hwholePayload, -⟩ :=
      compile_eq hsupported haccepted hselect hids readings
    obtain ⟨part, hpart, -, hpartIds, -, -, hpartPayload, -⟩ :=
      compile_eq hsupported haccepted' hselect' hids readings'
    refine ⟨view, whole, part, hview, hwhole, hpart, hwholeIds.trans hpartIds.symm, ?_⟩
    rw [hwholePayload, hpartPayload, KernelCompiler.payload, KernelCompiler.payload,
      KernelCompiler.reasonsJson, KernelCompiler.reasonsJson, hsame.degraded]

end Listings

/-! ## A claim without a `valid_from` -/

section Undated

/-- A claim is proposed, and accepted. -/
def acceptedOne (claim : Payload) : List EventEnvelope :=
  [eventOf "EvidenceIngested" .ingestService (evidencePayload "e1") "key-1",
   eventOf "ClaimProposed" .adjudicationWorker claim "key-2",
   eventOf "ClaimAccepted" .humanReview (Payload.ofFields [("claim_id", .str "c1")]) "key-3"]

/-- A claim that can be read is read by the view and by the listings. -/
theorem timed_of_legible {claim : Payload} (h : Legible claim) : Timed claim := by
  have hstates := statesTimes_of_read h.begins h.ends
  constructor
  · intro _
    obtain ⟨value, hvalue, start, hstart⟩ := h.begins
    obtain ⟨text, rfl, -⟩ := text_of_timeOf hstart
    exact ⟨start, by rw [strD_of_text hvalue]; exact hstart⟩
  · intro _ huntil
    obtain ⟨finish, hfinish⟩ := h.ends huntil
    obtain ⟨text, htext⟩ := hstates.finish huntil
    rw [htext] at hfinish
    exact ⟨finish, by rw [strD_of_text htext]; exact hfinish⟩

theorem listable_of_legible {claim : Payload} {bounds : Bounds} {instant : DateTime}
    (h : Legible claim)
    (hknown : ∀ knownAt, bounds.knownAt = some knownAt → knownAt.naive = false) :
    Listable bounds instant claim :=
  ⟨fun _ _ => h.sensitivity, fun _ => statesTimes_of_read h.begins h.ends,
    fun _ _ knownAt hknownAt hrecorded => ⟨hknown knownAt hknownAt, h.recorded hrecorded⟩⟩

theorem selectsAlike_dated :
    let _ : Digest := checksumDigest
    let s := replay { twinId := "t" } (acceptedOne (datedClaim "c1" "open" .internal))
    let instant := DateTime.utc 63917000000000000
    SelectsAlike s instant "kernel" (some instant) (some .internal) ⟨0, "a"⟩ ⟨1, "b"⟩ := by
  intro digest s instant
  have hs : Encountered s := .folded (folded_eq_ok.2 ⟨legal_of_folded (by decide +kernel), rfl⟩)
  have hlegible : ∀ entry ∈ s.claims.toList, Legible entry.2 := by decide +kernel
  have hevidence : ∀ entry ∈ s.evidence.toList, entry.2.truthy "valid_from" = false := by
    decide +kernel
  have hlinks : ∀ entry ∈ s.entityLinks.toList, entry.2.truthy "valid_from" = false := by
    decide +kernel
  have hundated {record : Payload} (h : record.truthy "valid_from" = false) : Timed record :=
    ⟨(fun hfrom => by cases h.symm.trans hfrom), fun hfrom => by cases h.symm.trans hfrom⟩
  refine (selectsAlike_iff hs rfl (by decide +kernel) ⟨0, "a"⟩ ⟨1, "b"⟩).2
    ⟨⟨fun id record h => hundated (hevidence _ (mem_dict_toList.2 h)),
      fun id record h => hundated (hlinks _ (mem_dict_toList.2 h)),
      fun id record h => timed_of_legible (hlegible _ (mem_dict_toList.2 h))⟩,
    fun id _ claim h => listable_of_legible (hlegible _ (mem_dict_toList.2 h)) fun knownAt h => ?_⟩
  obtain rfl := Option.some.inj h
  rfl

/-- **The view selects a claim without a `valid_from`, the listing raises.** -/
theorem undated_claim_raises :
    let _ : Digest := checksumDigest
    let s := replay { twinId := "t" } (acceptedOne (claimPayload "c1" "e1"))
    let instant := DateTime.utc 63917000000000000
    Encountered s ∧ ¬ SelectsAlike s instant "kernel" none none ⟨0, "a"⟩ ⟨1, "b"⟩ ∧
      (KernelCompiler.compile s "kernel" ⟨some instant, none, none⟩ ⟨0, "a"⟩).map
        KernelArtifact.sourceClaimIds = .error (.keyError "valid_from") ∧
      ((s.selectValidAt instant).bind fun view =>
        (KernelCompiler.compile view "kernel" ⟨none, none, none⟩ ⟨1, "b"⟩).map
          KernelArtifact.sourceClaimIds) = .ok ["c1"] := by
  intro digest s instant
  have hs : Encountered s := .folded (folded_eq_ok.2 ⟨legal_of_folded (by decide +kernel), rfl⟩)
  have hraises : (KernelCompiler.compile s "kernel" ⟨some instant, none, none⟩ ⟨0, "a"⟩).map
      KernelArtifact.sourceClaimIds = .error (.keyError "valid_from") := by decide +kernel
  refine ⟨hs, ?_, hraises, by decide +kernel⟩
  rintro ⟨view, whole, part, -, hwhole, -⟩
  rw [hwhole] at hraises
  cases hraises

end Undated

end ArgoTwin
