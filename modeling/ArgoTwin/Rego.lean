import ArgoTwin.Compiler
import ArgoTwin.TimeText
/-!
# The Rego policies

A deployment may let an OPA sidecar decide instead of the embedded
policy. The two Rego modules are read here rule by rule over the input
document; an expression that names nothing is undefined, and a rule body
with an undefined expression fails. Times reach a rule as text and are
compared in nanoseconds since 1970, which a 64-bit integer counts from
1677 to 2262; outside these years a time is undefined.
-/

namespace ArgoTwin

open Library

/-! ## Documents and rule bodies -/

namespace Rego

/-- What an expression names; nothing where it is undefined. -/
abbrev Term := Option Json

/-- `term.name`. -/
def ref (term : Term) (name : String) : Term := term.bind (Json.get? name)

/-- An expression as a condition: defined, and not false. -/
def holds : Term → Bool
  | none => false
  | some (.bool false) => false
  | some _ => true

/-- `a == b`. -/
def equal : Term → Term → Bool
  | some a, some b => a = b
  | _, _ => false

/-- What a collection iterates over: items, or an object's values. -/
def elements : Term → Option (List Json)
  | some (.arr items) => some items
  | some (.obj fields) => some (fields.map (·.2))
  | _ => none

/-- `x in xs`. -/
def isIn (x xs : Term) : Bool :=
  match x, elements xs with
  | some value, some items => items.contains value
  | _, _ => false

/-- `every x in xs { p }`. -/
def every (xs : Term) (p : Term → Bool) : Bool :=
  match elements xs with
  | some items => items.all fun item => p (some item)
  | none => false

/-- `count(xs)` of an array or an object. -/
def count (xs : Term) : Option Int := (elements xs).map fun items => items.length

/-- `a <= b` of numbers. -/
def atMost : Option Int → Option Int → Bool
  | some a, some b => a ≤ b
  | _, _ => false

/-- `a < b` of numbers. -/
def below : Option Int → Option Int → Bool
  | some a, some b => a < b
  | _, _ => false

/-- `table[key]` of a table of numbers. -/
def entry (table : List (String × Int)) : Term → Option Int
  | some (.str key) => table.lookup key
  | _ => none

/-! ## Time -/

/-- Microseconds from 0001-01-01 to 1970-01-01. -/
def unixEpoch : Instant := 62135596800 * 1000000

/-- A number of 64 bits. -/
def int64 (n : Int) : Option Int := if -(2 ^ 63) ≤ n ∧ n < 2 ^ 63 then some n else none

/-- An instant in nanoseconds since 1970. -/
def unixNanos (t : Instant) : Option Int := int64 ((t - unixEpoch) * 1000)

/-- An instant whose nanoseconds since 1970 are a number of 64 bits. -/
def Within64 (t : Instant) : Prop := (unixNanos t).isSome

instance (t : Instant) : Decidable (Within64 t) := inferInstanceAs (Decidable (_ = true))

/-- `time.now_ns()`. -/
def nowNs (now : Instant) : Option Int := unixNanos now

/-- Up to nine digits of a fraction of a second, in nanoseconds. -/
def takeNanos (cs : List Char) : Option (Nat × List Char) :=
  let digits := cs.takeWhile Char.isDigit
  if digits = [] then none
  else
    let kept := digits.take 9
    let value := kept.foldl (fun n c => 10 * n + (c.toNat - 48)) 0
    some (value * 10 ^ (9 - kept.length), cs.drop digits.length)

/-- `hour:minute`, in minutes. -/
def takeMinutes (cs : List Char) : Option (Nat × List Char) := do
  let (hour, cs) ← DateTime.takeNumber 2 cs
  let cs ← DateTime.takeChar ':' cs
  let (minute, cs) ← DateTime.takeNumber 2 cs
  if 23 < hour ∨ 59 < minute then none
  some (hour * 60 + minute, cs)

/-- `Z`, or an offset from UTC, in minutes. -/
def takeZone : List Char → Option Int
  | ['Z'] => some 0
  | '+' :: cs => (takeMinutes cs).bind fun (minutes, rest) =>
    if rest = [] then some minutes else none
  | '-' :: cs => (takeMinutes cs).bind fun (minutes, rest) =>
    if rest = [] then some (-(minutes : Int)) else none
  | _ => none

/-- A timestamp `YYYY-MM-DDTHH:MM:SS[.fraction](Z|±HH:MM)` in nanoseconds
since 1970. -/
def rfc3339 (text : String) : Option Int := do
  let (days, cs) ← DateTime.takeDate text.toList
  let cs ← DateTime.takeChar 'T' cs
  let (minutes, cs) ← takeMinutes cs
  let cs ← DateTime.takeChar ':' cs
  let (second, cs) ← DateTime.takeNumber 2 cs
  if 59 < second then none
  let (nanos, cs) ← match cs with
    | '.' :: cs => takeNanos cs
    | cs => some (0, cs)
  let zone ← takeZone cs
  let seconds : Int := days * 86400 + ((minutes : Int) - zone) * 60 + (second : Int)
  some ((seconds - 62135596800) * 1000000000 + (nanos : Int))

/-- `time.parse_rfc3339_ns(text)`, undefined where 64 bits do not hold it. -/
def parseRfc3339Ns : Term → Option Int
  | some (.str text) => (rfc3339 text).bind int64
  | _ => none

theorem takeNanos_padded {n : Nat} {rest : List Char} (hn : n < 10 ^ 6)
    (hrest : ∀ c ∈ rest.head?, c.isDigit = false) :
    takeNanos ((DateTime.padded 6 n).toList ++ rest) = some (n * 1000, rest) := by
  have hlength : (DateTime.padded 6 n).toList.length = 6 := DateTime.length_padded (by decide) hn
  have hne : (DateTime.padded 6 n).toList ≠ [] := by
    intro hnil
    simp [hnil] at hlength
  have htake : (DateTime.padded 6 n).toList.take 9 = (DateTime.padded 6 n).toList :=
    List.take_of_length_le (by omega)
  simp only [takeNanos, DateTime.takeWhile_padded 6 n hrest, if_neg hne, htake,
    DateTime.foldl_padded]
  simp [hlength]

/-- **A canonical text is read at its instant**, to the microsecond. -/
theorem rfc3339_toPrimitive {d : DateTime} (ht : DateTime.Representable d.instant) :
    rfc3339 d.toPrimitive = some ((d.instant - unixEpoch) * 1000) := by
  obtain ⟨hwithin, hwhole⟩ := DateTime.day_and_clock d.instant
  have htext : d.toPrimitive.toList = (DateTime.dateText d.instant).toList ++
      ((DateTime.clockText (d.instant % DateTime.microsPerDay).toNat true).toList ++ ['Z']) := by
    simp [DateTime.toPrimitive, DateTime.isoformat_eq, DateTime.astimezoneUtc, DateTime.utc,
      DateTime.offsetText]
  have hinstant : d.instant = d.instant / DateTime.microsPerDay * DateTime.microsPerDay +
      ((d.instant % DateTime.microsPerDay).toNat : Int) := by
    rw [Int.ofNat_toNat]
    exact hwhole.symm
  rw [rfc3339, htext, DateTime.takeDate_dateText ht]
  clear hwhole htext
  generalize (d.instant % DateTime.microsPerDay).toNat = micros at *
  generalize d.instant / DateTime.microsPerDay = days at *
  have hhour := fun tail => DateTime.takeNumber_padded tail (by decide : 0 < 2)
    (show micros / 1000000 / 3600 < 10 ^ 2 by omega)
  have hminute := fun tail => DateTime.takeNumber_padded tail (by decide : 0 < 2)
    (show micros / 1000000 / 60 % 60 < 10 ^ 2 by omega)
  have hsecond := fun tail => DateTime.takeNumber_padded tail (by decide : 0 < 2)
    (show micros / 1000000 % 60 < 10 ^ 2 by omega)
  have hclock : ¬ (23 < micros / 1000000 / 3600 ∨ 59 < micros / 1000000 / 60 % 60) := by omega
  have hsixty : ¬ 59 < micros / 1000000 % 60 := by omega
  have hfraction : ∀ c ∈ ['Z'].head?, c.isDigit = false := by
    rintro c ⟨rfl⟩
    rfl
  by_cases hwholeSecond : micros % 1000000 = 0
  · have hlist : (DateTime.clockText micros true).toList ++ ['Z'] =
        (DateTime.padded 2 (micros / 1000000 / 3600)).toList ++ ':' ::
          ((DateTime.padded 2 (micros / 1000000 / 60 % 60)).toList ++ ':' ::
            ((DateTime.padded 2 (micros / 1000000 % 60)).toList ++ ['Z'])) := by
      simp [DateTime.clockText, hwholeSecond]
    rw [hlist]
    simp only [DateTime.takeChar, takeMinutes, hhour, hminute, hsecond, bind, Option.bind, hclock,
      hsixty, if_false, if_true, takeZone]
    simp [hinstant, unixEpoch, DateTime.microsPerDay, DateTime.microsPerSecond]
    omega
  · have hnanos := takeNanos_padded (show micros % 1000000 < 10 ^ 6 by omega) hfraction
    have hlist : (DateTime.clockText micros true).toList ++ ['Z'] =
        (DateTime.padded 2 (micros / 1000000 / 3600)).toList ++ ':' ::
          ((DateTime.padded 2 (micros / 1000000 / 60 % 60)).toList ++ ':' ::
            ((DateTime.padded 2 (micros / 1000000 % 60)).toList ++ '.' ::
              ((DateTime.padded 6 (micros % 1000000)).toList ++ ['Z']))) := by
      simp [DateTime.clockText, hwholeSecond]
    rw [hlist]
    simp only [DateTime.takeChar, takeMinutes, hhour, hminute, hsecond, hnanos, bind, Option.bind,
      hclock, hsixty, if_false, if_true, takeZone]
    simp only [hinstant, unixEpoch, DateTime.microsPerDay, DateTime.microsPerSecond,
      Option.some.injEq]
    omega

/-- A time a document holds is the instant where 64 bits hold it. -/
theorem parseRfc3339Ns_toPrimitive {d : DateTime} (ht : DateTime.Representable d.instant) :
    parseRfc3339Ns (some (.str d.toPrimitive)) = unixNanos d.instant := by
  rw [parseRfc3339Ns, rfc3339_toPrimitive ht]
  rfl

/-- **An interval is active** where both policies say so, as long as 64
bits hold its bounds. -/
theorem active_iff {start finish now : Int} :
    (atMost (unixNanos start) (nowNs now) && below (nowNs now) (unixNanos finish)) = true ↔
      (start ≤ now ∧ now < finish) ∧ Within64 start ∧ Within64 finish := by
  simp only [atMost, below, nowNs, unixNanos, int64, Within64]
  constructor
  · intro h
    split_ifs at h with hstart hnow hfinish <;> simp_all
  · rintro ⟨⟨hle, hlt⟩, hstart, hfinish⟩
    split_ifs at hstart hfinish with hs hf
    · have hnow : -(2 ^ 63) ≤ (now - unixEpoch) * 1000 ∧ (now - unixEpoch) * 1000 < 2 ^ 63 := by
        omega
      simp only [hs, hf, hnow, and_self, if_true, Bool.and_eq_true, decide_eq_true_eq]
      omega
    all_goals simp at hstart hfinish

/-! ## Reading a document -/

/-- A field of an object written out is the last one of that name. -/
theorem ref_object (fields : List (String × Json)) (name : String) :
    ref (some (Json.object fields)) name = fields.reverse.lookup name := by
  rw [ref, Option.bind_some, Payload.get?_object]

end Rego

/-! ## The input document -/

/-- `to_primitive` of a time, which UTC must be able to show. -/
def timeJson (d : DateTime) : Except PyError Json :=
  if DateTime.Representable d.instant then .ok (.str d.toPrimitive)
  else .error (.overflowError "date value out of range")

def optTimeJson : Option DateTime → Except PyError Json
  | none => .ok .null
  | some d => timeJson d

/-- `to_primitive` of a set of texts: in the order of their JSON. -/
def setJson (ids : IdSet) : Json :=
  .arr ((ids.toList.map Json.str).mergeSort fun a b => canonicalJson a ≤ canonicalJson b)

def ProjectionRequest.toPrimitive (r : ProjectionRequest) : Except PyError Json := do
  let asOfValidTime ← timeJson r.asOfValidTime
  let asOfRecordedTime ← timeJson r.asOfRecordedTime
  pure (Json.object
    [("request_id", .str r.requestId), ("twin_id", .str r.twinId),
     ("subject_id", .str r.subjectId), ("recipient_id", .str r.recipientId),
     ("purpose", .str r.purpose), ("requested_fields", setJson r.requestedFields),
     ("maximum_sensitivity", .str r.maximumSensitivity.value),
     ("as_of_valid_time", asOfValidTime), ("as_of_recorded_time", asOfRecordedTime)])

def ConsentGrant.toPrimitive (g : ConsentGrant) : Except PyError Json := do
  let validFrom ← timeJson g.validFrom
  let validUntil ← timeJson g.validUntil
  let revokedAt ← optTimeJson g.revokedAt
  pure (Json.object
    [("consent_id", .str g.consentId), ("subject_id", .str g.subjectId),
     ("recipient_id", .str g.recipientId), ("purposes", setJson g.purposes),
     ("allowed_fields", setJson g.allowedFields),
     ("max_sensitivity", .str g.maxSensitivity.value), ("valid_from", validFrom),
     ("valid_until", validUntil), ("policy_version", .str g.policyVersion),
     ("revoked_at", revokedAt)])

def ActionEnvelope.toPrimitive (a : ActionEnvelope) : Except PyError Json := do
  let issuedAt ← timeJson a.issuedAt
  let expiresAt ← timeJson a.expiresAt
  pure (Json.object
    [("action_id", .str a.actionId), ("principal_id", .str a.principalId),
     ("actor_identity_id", .str a.actorIdentityId), ("purpose", .str a.purpose),
     ("target", .str a.target), ("requested_capabilities", setJson a.requestedCapabilities),
     ("impact", .str a.impact), ("reversible", .bool a.reversible),
     ("evidence_ids", .arr (a.evidenceIds.map .str)),
     ("constraint_version", .str a.constraintVersion),
     ("idempotency_key", .str a.idempotencyKey), ("issued_at", issuedAt),
     ("expires_at", expiresAt)])

def AuthorityGrant.toPrimitive (g : AuthorityGrant) : Except PyError Json := do
  let validFrom ← timeJson g.validFrom
  let validUntil ← timeJson g.validUntil
  let revokedAt ← optTimeJson g.revokedAt
  pure (Json.object
    [("grant_id", .str g.grantId), ("principal_id", .str g.principalId),
     ("actor_identity_id", .str g.actorIdentityId), ("purposes", setJson g.purposes),
     ("capabilities", setJson g.capabilities), ("maximum_impact", .str g.maximumImpact),
     ("require_reversible", .bool g.requireReversible), ("valid_from", validFrom),
     ("valid_until", validUntil), ("revoked_at", revokedAt)])

/-! ## `dt_projection.rego` -/

namespace DtProjection

open Rego

/-- What the policy is asked about. -/
def input (request : ProjectionRequest) (consent : ConsentGrant) : Except PyError Json := do
  let request ← request.toPrimitive
  let consent ← consent.toPrimitive
  pure (Json.object
    [("default_deny", .bool true), ("request", request), ("consent", consent),
     ("available_fields", setJson artifactFields)])

def sensitivityRank : List (String × Int) :=
  [("public", 0), ("internal", 1), ("confidential", 2), ("restricted", 3)]

section Rules

variable (doc : Term) (now : Instant)

def activeConsent : Bool :=
  equal (ref (ref doc "consent") "revoked_at") (some .null) &&
  atMost (parseRfc3339Ns (ref (ref doc "consent") "valid_from")) (nowNs now) &&
  below (nowNs now) (parseRfc3339Ns (ref (ref doc "consent") "valid_until"))

def identityMatches : Bool :=
  equal (ref (ref doc "request") "subject_id") (ref (ref doc "consent") "subject_id") &&
  equal (ref (ref doc "request") "recipient_id") (ref (ref doc "consent") "recipient_id")

def purposeGranted : Bool :=
  isIn (ref (ref doc "request") "purpose") (ref (ref doc "consent") "purposes")

def sensitivityGranted : Bool :=
  atMost (entry sensitivityRank (ref (ref doc "request") "maximum_sensitivity"))
    (entry sensitivityRank (ref (ref doc "consent") "max_sensitivity"))

def allFieldsGranted : Bool :=
  every (ref (ref doc "request") "requested_fields") fun field =>
    isIn field (ref (ref doc "consent") "allowed_fields") &&
    isIn field (ref doc "available_fields") &&
    !equal field (some (.str "raw_evidence")) &&
    !equal field (some (.str "personhood_ceremony")) &&
    !equal field (some (.str "secret"))

def allow : Bool :=
  holds (ref doc "default_deny") && activeConsent doc now && identityMatches doc &&
  purposeGranted doc && sensitivityGranted doc && allFieldsGranted doc &&
  below (some 0) (count (ref (ref doc "request") "requested_fields"))

/-- `decision.disclosed_fields`. -/
def disclosedFields : List Json :=
  if allow doc now then (elements (ref (ref doc "request") "requested_fields")).getD [] else []

end Rules

end DtProjection

/-! ## `dt_action.rego` -/

namespace DtAction

open Rego

def input (action : ActionEnvelope) (grant : AuthorityGrant) : Except PyError Json := do
  let action ← action.toPrimitive
  let grant ← grant.toPrimitive
  pure (Json.object [("default_deny", .bool true), ("action", action), ("grant", grant)])

def impactRank : List (String × Int) :=
  [("none", 0), ("low", 1), ("moderate", 2), ("high", 3), ("critical", 4)]

section Rules

variable (doc : Term) (now : Instant)

def activeGrant : Bool :=
  equal (ref (ref doc "grant") "revoked_at") (some .null) &&
  atMost (parseRfc3339Ns (ref (ref doc "grant") "valid_from")) (nowNs now) &&
  below (nowNs now) (parseRfc3339Ns (ref (ref doc "grant") "valid_until"))

def envelopeActive : Bool :=
  atMost (parseRfc3339Ns (ref (ref doc "action") "issued_at")) (nowNs now) &&
  below (nowNs now) (parseRfc3339Ns (ref (ref doc "action") "expires_at"))

def capabilitiesGranted : Bool :=
  every (ref (ref doc "action") "requested_capabilities") fun capability =>
    isIn capability (ref (ref doc "grant") "capabilities")

/-- Two rules: nothing is required, or the action is reversible. -/
def reversibilitySatisfied : Bool :=
  !holds (ref (ref doc "grant") "require_reversible") ||
  (holds (ref (ref doc "grant") "require_reversible") &&
    holds (ref (ref doc "action") "reversible"))

def allow : Bool :=
  holds (ref doc "default_deny") && activeGrant doc now && envelopeActive doc now &&
  equal (ref (ref doc "action") "principal_id") (ref (ref doc "grant") "principal_id") &&
  equal (ref (ref doc "action") "actor_identity_id")
    (ref (ref doc "grant") "actor_identity_id") &&
  isIn (ref (ref doc "action") "purpose") (ref (ref doc "grant") "purposes") &&
  capabilitiesGranted doc &&
  atMost (entry impactRank (ref (ref doc "action") "impact"))
    (entry impactRank (ref (ref doc "grant") "maximum_impact")) &&
  reversibilitySatisfied doc && below (some 0) (count (ref (ref doc "action") "evidence_ids"))

end Rules

end DtAction


/-! ## What the documents say -/

open Rego

theorem timeJson_eq_ok {d : DateTime} {value : Json} :
    timeJson d = .ok value ↔ DateTime.Representable d.instant ∧ value = .str d.toPrimitive := by
  unfold timeJson
  split_ifs with h <;> simp [h, eq_comm]

theorem optTimeJson_null {d : Option DateTime} {value : Json} (h : optTimeJson d = .ok value) :
    equal (some value) (some .null) = d.isNone := by
  cases d with
  | none =>
    obtain rfl : Json.null = value := by simpa [optTimeJson] using h
    rfl
  | some d =>
    obtain ⟨-, rfl⟩ := timeJson_eq_ok.1 h
    rfl

theorem elements_setJson (ids : IdSet) : elements (some (setJson ids)) =
    some ((ids.toList.map Json.str).mergeSort fun a b => canonicalJson a ≤ canonicalJson b) := rfl

theorem isIn_setJson (name : String) (ids : IdSet) :
    isIn (some (.str name)) (some (setJson ids)) = ids.contains name := by
  rw [Bool.eq_iff_iff]
  simp [isIn, elements_setJson, List.mem_mergeSort]

theorem every_setJson (ids : IdSet) (p : Term → Bool) :
    every (some (setJson ids)) p = true ↔ ∀ name ∈ ids, p (some (.str name)) = true := by
  simp [every, elements_setJson, List.all_eq_true, List.mem_mergeSort]

theorem count_setJson (ids : IdSet) :
    below (some 0) (count (some (setJson ids))) = !ids.isEmpty := by
  rw [count, elements_setJson, Bool.eq_iff_iff]
  simp [below, List.length_mergeSort, Std.ExtTreeSet.eq_empty_iff_size_eq_zero, Nat.pos_iff_ne_zero]

/-! ## Projections -/

/-- Everything a request must meet under a grant, at an instant. -/
structure Consented (request : ProjectionRequest) (consent : ConsentGrant) (now : Instant) :
    Prop where
  active : consent.activeAt now = true
  subject : consent.subjectId = request.subjectId
  recipient : consent.recipientId = request.recipientId
  purpose : request.purpose ∈ consent.purposes
  sensitivity : request.maximumSensitivity.rank ≤ consent.maxSensitivity.rank
  fields : ∀ name ∈ request.requestedFields,
    name ∈ consent.allowedFields ∧ name ∈ artifactFields

theorem reason_unless {p : Prop} [Decidable p] {text : String} :
    (if p then [] else [text]) = ([] : List String) ↔ p := by
  split_ifs with h <;> simp [h]

theorem reason_if {p : Prop} [Decidable p] {text : String} :
    (if p then [text] else []) = ([] : List String) ↔ ¬ p := by
  split_ifs with h <;> simp [h]

/-- Nothing is left of a set without what another holds: it is within it. -/
theorem filter_not_contains {ids available : IdSet} :
    (ids.filter fun name => !available.contains name).isEmpty = true ↔
      ∀ name ∈ ids, name ∈ available := by
  simp [Std.ExtTreeSet.filter_eq_empty_iff]

namespace DefaultDenyPolicy

theorem objections_eq_nil {request : ProjectionRequest} {consent : ConsentGrant}
    {now : Instant} :
    objections request consent artifactFields now = [] ↔ Consented request consent now := by
  simp only [objections, List.append_eq_nil_iff, reason_unless, reason_if, filter_not_contains,
    Nat.not_lt]
  constructor
  · rintro ⟨⟨⟨⟨⟨⟨hactive, hsubject⟩, hrecipient⟩, hpurpose⟩, hrank⟩, havailable⟩, hallowed⟩
    exact ⟨hactive, hsubject, hrecipient, by simpa using hpurpose, hrank,
      fun name hname => ⟨hallowed name hname, havailable name hname⟩⟩
  · rintro ⟨hactive, hsubject, hrecipient, hpurpose, hrank, hfields⟩
    exact ⟨⟨⟨⟨⟨⟨hactive, hsubject⟩, hrecipient⟩, by simpa using hpurpose⟩, hrank⟩,
      fun name hname => (hfields name hname).2⟩, fun name hname => (hfields name hname).1⟩

/-- **What the embedded policy allows**: a request that meets everything,
with all the fields it asks for. -/
theorem evaluateProjection_eq (request : ProjectionRequest) (consent : ConsentGrant)
    (now : Instant) :
    ((evaluateProjection request (some consent) artifactFields now).1 = true ↔
      Consented request consent now) ∧
    ∀ name, name ∈ (evaluateProjection request (some consent) artifactFields now).2.2 ↔
      Consented request consent now ∧ name ∈ request.requestedFields := by
  by_cases hconsented : Consented request consent now
  · have hgranted : grantedFields request consent artifactFields = request.requestedFields := by
      refine set_ext fun name => ?_
      have hfields := hconsented.fields name
      simp only [grantedFields, Std.ExtTreeSet.mem_filter, Std.ExtTreeSet.get_eq, Bool.and_eq_true,
        Std.ExtTreeSet.contains_iff_mem]
      exact ⟨fun ⟨hname, _⟩ => hname, fun hname => ⟨hname, hfields hname⟩⟩
    simp [evaluateProjection, objections_eq_nil.2 hconsented, hgranted, request.fields_required,
      hconsented]
  · have hreasons : objections request consent artifactFields now ≠ [] := fun h =>
      hconsented (objections_eq_nil.1 h)
    simp [evaluateProjection, hreasons, hconsented]

end DefaultDenyPolicy

namespace DtProjection

/-- What the rules read of a document. -/
structure Reads (request : ProjectionRequest) (consent : ConsentGrant) (doc : Term) : Prop where
  defaultDeny : ref doc "default_deny" = some (.bool true)
  availableFields : ref doc "available_fields" = some (setJson artifactFields)
  requestSubject : ref (ref doc "request") "subject_id" = some (.str request.subjectId)
  requestRecipient : ref (ref doc "request") "recipient_id" = some (.str request.recipientId)
  requestPurpose : ref (ref doc "request") "purpose" = some (.str request.purpose)
  requestedFields : ref (ref doc "request") "requested_fields" =
    some (setJson request.requestedFields)
  maximumSensitivity : ref (ref doc "request") "maximum_sensitivity" =
    some (.str request.maximumSensitivity.value)
  consentSubject : ref (ref doc "consent") "subject_id" = some (.str consent.subjectId)
  consentRecipient : ref (ref doc "consent") "recipient_id" = some (.str consent.recipientId)
  purposes : ref (ref doc "consent") "purposes" = some (setJson consent.purposes)
  allowedFields : ref (ref doc "consent") "allowed_fields" = some (setJson consent.allowedFields)
  maxSensitivity : ref (ref doc "consent") "max_sensitivity" =
    some (.str consent.maxSensitivity.value)
  revokedAt : equal (ref (ref doc "consent") "revoked_at") (some .null) = consent.revokedAt.isNone
  validFrom : parseRfc3339Ns (ref (ref doc "consent") "valid_from") =
    unixNanos consent.validFrom.instant
  validUntil : parseRfc3339Ns (ref (ref doc "consent") "valid_until") =
    unixNanos consent.validUntil.instant

theorem reads_input {request : ProjectionRequest} {consent : ConsentGrant} {doc : Json}
    (hdoc : input request consent = .ok doc) : Reads request consent (some doc) := by
  simp only [input, ProjectionRequest.toPrimitive, ConsentGrant.toPrimitive, bind_eq_ok,
    timeJson_eq_ok] at hdoc
  obtain ⟨_, ⟨_, -, _, -, hrequest⟩, _, ⟨_, ⟨hfrom, rfl⟩, _, ⟨huntil, rfl⟩, revoked, hrevoked,
    hconsent⟩, hdoc⟩ := hdoc
  cases hrequest
  cases hconsent
  cases hdoc
  have hnull := optTimeJson_null hrevoked
  have hstart := parseRfc3339Ns_toPrimitive hfrom
  have hfinish := parseRfc3339Ns_toPrimitive huntil
  constructor
  all_goals simp [ref_object, List.lookup_cons, hnull, hstart, hfinish]

/-- The two languages rank a sensitivity alike. -/
theorem entry_sensitivityRank (s : Sensitivity) :
    entry sensitivityRank (some (.str s.value)) = some (s.rank : Int) := by
  cases s <;> decide

/-- No artifact is one of the names the policy never discloses. -/
theorem undisclosable {name : String} (h : name ∈ artifactFields) :
    name ≠ "raw_evidence" ∧ name ≠ "personhood_ceremony" ∧ name ≠ "secret" := by
  have hnames : "raw_evidence" ∉ artifactFields ∧ "personhood_ceremony" ∉ artifactFields ∧
      "secret" ∉ artifactFields := by
    simp only [artifactFields, Std.ExtTreeSet.mem_ofList]
    decide
  refine ⟨?_, ?_, ?_⟩
  · rintro rfl
    exact hnames.1 h
  · rintro rfl
    exact hnames.2.1 h
  · rintro rfl
    exact hnames.2.2 h

/-- **What the Rego policy allows**: a request that meets everything, as
long as 64 bits hold the bounds of the grant. -/
theorem allow_iff {request : ProjectionRequest} {consent : ConsentGrant} {doc : Term}
    (h : Reads request consent doc) (now : Instant) :
    allow doc now = true ↔ Consented request consent now ∧
      Within64 consent.validFrom.instant ∧ Within64 consent.validUntil.instant := by
  have hactive : activeConsent doc now = true ↔ consent.activeAt now = true ∧
      Within64 consent.validFrom.instant ∧ Within64 consent.validUntil.instant := by
    rw [activeConsent, h.revokedAt, h.validFrom, h.validUntil, Bool.and_assoc, Bool.and_eq_true,
      active_iff, ConsentGrant.activeAt, Bool.and_assoc, Bool.and_eq_true, Bool.and_eq_true,
      decide_eq_true_eq, decide_eq_true_eq, and_assoc, and_assoc, and_assoc]
  have hidentity : identityMatches doc = true ↔
      consent.subjectId = request.subjectId ∧ consent.recipientId = request.recipientId := by
    rw [identityMatches, h.requestSubject, h.consentSubject, h.requestRecipient,
      h.consentRecipient]
    simp [equal, eq_comm (a := request.subjectId), eq_comm (a := request.recipientId)]
  have hpurpose : purposeGranted doc = true ↔ request.purpose ∈ consent.purposes := by
    rw [purposeGranted, h.requestPurpose, h.purposes, isIn_setJson]
    simp
  have hsensitivity : sensitivityGranted doc = true ↔
      request.maximumSensitivity.rank ≤ consent.maxSensitivity.rank := by
    rw [sensitivityGranted, h.maximumSensitivity, h.maxSensitivity, entry_sensitivityRank,
      entry_sensitivityRank]
    simp [atMost]
  have hfields : allFieldsGranted doc = true ↔ ∀ name ∈ request.requestedFields,
      name ∈ consent.allowedFields ∧ name ∈ artifactFields := by
    rw [allFieldsGranted, h.requestedFields, h.allowedFields, h.availableFields, every_setJson]
    simp only [isIn_setJson, Bool.and_eq_true, Std.ExtTreeSet.contains_iff_mem]
    constructor
    · intro hall name hname
      exact (hall name hname).1.1.1
    · intro hall name hname
      obtain ⟨hallowed, havailable⟩ := hall name hname
      obtain ⟨hevidence, hceremony, hsecret⟩ := undisclosable havailable
      simp [equal, hallowed, havailable, hevidence, hceremony, hsecret]
  have hcount : below (some 0) (count (ref (ref doc "request") "requested_fields")) = true := by
    rw [h.requestedFields, count_setJson, request.fields_required]
    rfl
  have hdeny : holds (ref doc "default_deny") = true := by
    rw [h.defaultDeny]
    rfl
  simp only [allow, Bool.and_eq_true, hactive, hidentity, hpurpose, hsensitivity, hfields, hcount,
    hdeny]
  constructor
  · rintro ⟨⟨⟨⟨⟨⟨-, hactive, hbounds⟩, hsubject, hrecipient⟩, hpurpose⟩, hrank⟩, hfields⟩, -⟩
    exact ⟨⟨hactive, hsubject, hrecipient, hpurpose, hrank, hfields⟩, hbounds⟩
  · rintro ⟨⟨hactive, hsubject, hrecipient, hpurpose, hrank, hfields⟩, hbounds⟩
    exact ⟨⟨⟨⟨⟨⟨trivial, hactive, hbounds⟩, hsubject, hrecipient⟩, hpurpose⟩, hrank⟩, hfields⟩,
      trivial⟩

/-- What it discloses is what is asked for. -/
theorem mem_disclosedFields {request : ProjectionRequest} {consent : ConsentGrant} {doc : Term}
    (h : Reads request consent doc) (now : Instant) (value : Json) :
    value ∈ disclosedFields doc now ↔
      allow doc now = true ∧ ∃ name ∈ request.requestedFields, value = .str name := by
  rw [disclosedFields, h.requestedFields, elements_setJson]
  split_ifs with hallow
  · simp [hallow, List.mem_mergeSort, eq_comm]
  · simp [hallow]

end DtProjection

/-! ## Actions -/

/-- Everything an action must meet under a grant, at an instant. The
impacts are compared only where both are ranked. -/
structure Authorized (action : ActionEnvelope) (grant : AuthorityGrant) (now : Instant) :
    Prop where
  active : grant.activeAt now = true
  envelope : action.issuedAt.instant ≤ now ∧ now < action.expiresAt.instant
  principal : grant.principalId = action.principalId
  actor : grant.actorIdentityId = action.actorIdentityId
  purpose : action.purpose ∈ grant.purposes
  capabilities : ∀ name ∈ action.requestedCapabilities, name ∈ grant.capabilities
  impact : atMost (DefaultDenyPolicy.impactOrder.lookup action.impact)
    (DefaultDenyPolicy.impactOrder.lookup grant.maximumImpact) = true
  reversible : grant.requireReversible = true → action.reversible = true
  evidence : action.evidenceIds ≠ []

namespace DefaultDenyPolicy

theorem impactOrder_bounds {impact : String} {rank : Int}
    (h : impactOrder.lookup impact = some rank) : 0 ≤ rank ∧ rank ≤ 4 := by
  have hall : ∀ entry ∈ impactOrder, 0 ≤ entry.2 ∧ entry.2 ≤ 4 := by decide
  have hmem : (impact, rank) ∈ impactOrder := by
    obtain ⟨before, after, hsplit, -⟩ := List.lookup_eq_some_iff.1 h
    simp [hsplit]
  exact hall _ hmem

/-- **An impact without a rank exceeds every ceiling**, and a ceiling
without one is exceeded by every impact. -/
theorem impact_within_iff (impact ceiling : String) :
    (impactOrder.lookup impact).getD 99 ≤ (impactOrder.lookup ceiling).getD (-1) ↔
      atMost (impactOrder.lookup impact) (impactOrder.lookup ceiling) = true := by
  cases himpact : impactOrder.lookup impact with
  | none =>
    cases hceiling : impactOrder.lookup ceiling with
    | none => simp [atMost]
    | some rank =>
      have hbound := impactOrder_bounds hceiling
      simp [atMost]
      omega
  | some rank =>
    have hbound := impactOrder_bounds himpact
    cases hceiling : impactOrder.lookup ceiling with
    | none =>
      simp [atMost]
      omega
    | some rank' => simp [atMost]

theorem evaluateAction_iff (action : ActionEnvelope) (grant : AuthorityGrant) (now : Instant) :
    (evaluateAction action (some grant) now).1 = true ↔ Authorized action grant now := by
  have hallowed : (evaluateAction action (some grant) now).1 = true ↔
      actionObjections action grant now = [] := by
    by_cases h : actionObjections action grant now = [] <;> simp [evaluateAction, h]
  rw [hallowed]
  simp only [actionObjections, List.append_eq_nil_iff, reason_unless, reason_if,
    filter_not_contains, impact_within_iff, not_or, not_le, not_lt]
  constructor
  · rintro ⟨⟨⟨⟨⟨⟨⟨⟨hactive, henvelope⟩, hprincipal⟩, hactor⟩, hpurpose⟩, hcapabilities⟩, himpact⟩,
      hreversible⟩, hevidence⟩
    refine ⟨hactive, henvelope.symm, hprincipal, hactor, by simpa using hpurpose, hcapabilities, himpact,
      ?_, hevidence⟩
    intro hrequired
    simpa [hrequired] using hreversible
  · rintro ⟨hactive, henvelope, hprincipal, hactor, hpurpose, hcapabilities, himpact, hreversible,
      hevidence⟩
    refine ⟨⟨⟨⟨⟨⟨⟨⟨hactive, henvelope.symm⟩, hprincipal⟩, hactor⟩, by simpa using hpurpose⟩,
      hcapabilities⟩, himpact⟩, ?_⟩, hevidence⟩
    cases hrequired : grant.requireReversible with
    | false => simp
    | true => simp [hreversible hrequired]

end DefaultDenyPolicy

namespace DtAction

/-- What the rules read of a document. -/
structure Reads (action : ActionEnvelope) (grant : AuthorityGrant) (doc : Term) : Prop where
  defaultDeny : ref doc "default_deny" = some (.bool true)
  actionPrincipal : ref (ref doc "action") "principal_id" = some (.str action.principalId)
  actionActor : ref (ref doc "action") "actor_identity_id" = some (.str action.actorIdentityId)
  actionPurpose : ref (ref doc "action") "purpose" = some (.str action.purpose)
  requestedCapabilities : ref (ref doc "action") "requested_capabilities" =
    some (setJson action.requestedCapabilities)
  impact : ref (ref doc "action") "impact" = some (.str action.impact)
  reversible : ref (ref doc "action") "reversible" = some (.bool action.reversible)
  evidenceIds : ref (ref doc "action") "evidence_ids" =
    some (.arr (action.evidenceIds.map .str))
  issuedAt : parseRfc3339Ns (ref (ref doc "action") "issued_at") =
    unixNanos action.issuedAt.instant
  expiresAt : parseRfc3339Ns (ref (ref doc "action") "expires_at") =
    unixNanos action.expiresAt.instant
  grantPrincipal : ref (ref doc "grant") "principal_id" = some (.str grant.principalId)
  grantActor : ref (ref doc "grant") "actor_identity_id" = some (.str grant.actorIdentityId)
  purposes : ref (ref doc "grant") "purposes" = some (setJson grant.purposes)
  capabilities : ref (ref doc "grant") "capabilities" = some (setJson grant.capabilities)
  maximumImpact : ref (ref doc "grant") "maximum_impact" = some (.str grant.maximumImpact)
  requireReversible : ref (ref doc "grant") "require_reversible" =
    some (.bool grant.requireReversible)
  revokedAt : equal (ref (ref doc "grant") "revoked_at") (some .null) = grant.revokedAt.isNone
  validFrom : parseRfc3339Ns (ref (ref doc "grant") "valid_from") =
    unixNanos grant.validFrom.instant
  validUntil : parseRfc3339Ns (ref (ref doc "grant") "valid_until") =
    unixNanos grant.validUntil.instant

theorem reads_input {action : ActionEnvelope} {grant : AuthorityGrant} {doc : Json}
    (hdoc : input action grant = .ok doc) : Reads action grant (some doc) := by
  simp only [input, ActionEnvelope.toPrimitive, AuthorityGrant.toPrimitive, bind_eq_ok,
    timeJson_eq_ok] at hdoc
  obtain ⟨_, ⟨_, ⟨hissued, rfl⟩, _, ⟨hexpires, rfl⟩, haction⟩, _, ⟨_, ⟨hfrom, rfl⟩, _,
    ⟨huntil, rfl⟩, revoked, hrevoked, hgrant⟩, hdoc⟩ := hdoc
  cases haction
  cases hgrant
  cases hdoc
  have hnull := optTimeJson_null hrevoked
  have hissue := parseRfc3339Ns_toPrimitive hissued
  have hexpiry := parseRfc3339Ns_toPrimitive hexpires
  have hstart := parseRfc3339Ns_toPrimitive hfrom
  have hfinish := parseRfc3339Ns_toPrimitive huntil
  constructor
  all_goals simp [ref_object, List.lookup_cons, hnull, hissue, hexpiry, hstart, hfinish]

/-- **What the Rego policy allows**: an action that meets everything, as
long as 64 bits hold the bounds of the grant and of the envelope. -/
theorem allow_iff {action : ActionEnvelope} {grant : AuthorityGrant} {doc : Term}
    (h : Reads action grant doc) (now : Instant) :
    allow doc now = true ↔ Authorized action grant now ∧
      (Within64 grant.validFrom.instant ∧ Within64 grant.validUntil.instant) ∧
      Within64 action.issuedAt.instant ∧ Within64 action.expiresAt.instant := by
  have hactive : activeGrant doc now = true ↔ grant.activeAt now = true ∧
      Within64 grant.validFrom.instant ∧ Within64 grant.validUntil.instant := by
    rw [activeGrant, h.revokedAt, h.validFrom, h.validUntil, Bool.and_assoc, Bool.and_eq_true,
      active_iff, AuthorityGrant.activeAt, Bool.and_assoc, Bool.and_eq_true, Bool.and_eq_true,
      decide_eq_true_eq, decide_eq_true_eq, and_assoc, and_assoc, and_assoc]
  have henvelope : envelopeActive doc now = true ↔
      (action.issuedAt.instant ≤ now ∧ now < action.expiresAt.instant) ∧
      Within64 action.issuedAt.instant ∧ Within64 action.expiresAt.instant := by
    rw [envelopeActive, h.issuedAt, h.expiresAt, active_iff]
  have hprincipal : equal (ref (ref doc "action") "principal_id")
      (ref (ref doc "grant") "principal_id") = true ↔ grant.principalId = action.principalId := by
    rw [h.actionPrincipal, h.grantPrincipal]
    simp [equal, eq_comm (a := action.principalId)]
  have hactor : equal (ref (ref doc "action") "actor_identity_id")
      (ref (ref doc "grant") "actor_identity_id") = true ↔
      grant.actorIdentityId = action.actorIdentityId := by
    rw [h.actionActor, h.grantActor]
    simp [equal, eq_comm (a := action.actorIdentityId)]
  have hpurpose : isIn (ref (ref doc "action") "purpose") (ref (ref doc "grant") "purposes") = true ↔
      action.purpose ∈ grant.purposes := by
    rw [h.actionPurpose, h.purposes, isIn_setJson, Std.ExtTreeSet.contains_iff_mem]
  have hcapabilities : capabilitiesGranted doc = true ↔
      ∀ name ∈ action.requestedCapabilities, name ∈ grant.capabilities := by
    rw [capabilitiesGranted, h.requestedCapabilities, h.capabilities, every_setJson]
    simp only [isIn_setJson, Std.ExtTreeSet.contains_iff_mem]
  have himpact : atMost (entry impactRank (ref (ref doc "action") "impact"))
      (entry impactRank (ref (ref doc "grant") "maximum_impact")) =
      atMost (DefaultDenyPolicy.impactOrder.lookup action.impact)
        (DefaultDenyPolicy.impactOrder.lookup grant.maximumImpact) := by
    rw [h.impact, h.maximumImpact]
    rfl
  have hreversible : reversibilitySatisfied doc = true ↔
      (grant.requireReversible = true → action.reversible = true) := by
    rw [reversibilitySatisfied, h.requireReversible, h.reversible]
    cases grant.requireReversible <;> cases action.reversible <;> decide
  have hevidence : below (some 0) (count (ref (ref doc "action") "evidence_ids")) = true ↔
      action.evidenceIds ≠ [] := by
    rw [h.evidenceIds]
    simp [below, count, elements, List.length_pos_iff]
  have hdeny : holds (ref doc "default_deny") = true := by
    rw [h.defaultDeny]
    rfl
  simp only [allow, Bool.and_eq_true, hactive, henvelope, hprincipal, hactor, hpurpose,
    hcapabilities, himpact, hreversible, hevidence, hdeny]
  constructor
  · rintro ⟨⟨⟨⟨⟨⟨⟨⟨⟨-, hactive, hgrant⟩, henvelope, haction⟩, hprincipal⟩, hactor⟩, hpurpose⟩,
      hcapabilities⟩, himpact⟩, hreversible⟩, hevidence⟩
    exact ⟨⟨hactive, henvelope, hprincipal, hactor, hpurpose, hcapabilities, himpact, hreversible,
      hevidence⟩, hgrant, haction⟩
  · rintro ⟨⟨hactive, henvelope, hprincipal, hactor, hpurpose, hcapabilities, himpact, hreversible,
      hevidence⟩, hgrant, haction⟩
    exact ⟨⟨⟨⟨⟨⟨⟨⟨⟨trivial, hactive, hgrant⟩, henvelope, haction⟩, hprincipal⟩, hactor⟩, hpurpose⟩,
      hcapabilities⟩, himpact⟩, hreversible⟩, hevidence⟩

end DtAction

/-! ## Both deployments -/

/-- The embedded policy and the Rego policy decide a request alike, and
disclose the same fields. -/
def ProjectionsAgree (request : ProjectionRequest) (consent : ConsentGrant) (doc : Term)
    (now : Instant) : Prop :=
  let decision :=
    DefaultDenyPolicy.evaluateProjection request (some consent) artifactFields now
  (decision.1 = true ↔ DtProjection.allow doc now = true) ∧
  ∀ value, value ∈ DtProjection.disclosedFields doc now ↔ ∃ name ∈ decision.2.2, value = .str name

/-- The embedded policy and the Rego policy decide an action alike. -/
def ActionsAgree (action : ActionEnvelope) (grant : AuthorityGrant) (doc : Term)
    (now : Instant) : Prop :=
  (DefaultDenyPolicy.evaluateAction action (some grant) now).1 = true ↔
    DtAction.allow doc now = true

theorem projectionsAgree_iff {request : ProjectionRequest} {consent : ConsentGrant} {doc : Term}
    (h : DtProjection.Reads request consent doc) (now : Instant) :
    ProjectionsAgree request consent doc now ↔ (Consented request consent now →
      Within64 consent.validFrom.instant ∧ Within64 consent.validUntil.instant) := by
  obtain ⟨hembedded, hfields⟩ := DefaultDenyPolicy.evaluateProjection_eq request consent now
  simp only [ProjectionsAgree, hembedded, hfields, DtProjection.mem_disclosedFields h,
    DtProjection.allow_iff h]
  constructor
  · rintro ⟨hagree, -⟩ hconsented
    exact (hagree.1 hconsented).2
  · intro hbounds
    refine ⟨⟨fun hconsented => ⟨hconsented, hbounds hconsented⟩, And.left⟩, fun value => ?_⟩
    constructor
    · rintro ⟨⟨hconsented, -⟩, name, hname, hvalue⟩
      exact ⟨name, ⟨hconsented, hname⟩, hvalue⟩
    · rintro ⟨name, ⟨hconsented, hname⟩, hvalue⟩
      exact ⟨⟨hconsented, hbounds hconsented⟩, name, hname, hvalue⟩

theorem actionsAgree_iff {action : ActionEnvelope} {grant : AuthorityGrant} {doc : Term}
    (h : DtAction.Reads action grant doc) (now : Instant) :
    ActionsAgree action grant doc now ↔ (Authorized action grant now →
      (Within64 grant.validFrom.instant ∧ Within64 grant.validUntil.instant) ∧
      Within64 action.issuedAt.instant ∧ Within64 action.expiresAt.instant) := by
  rw [ActionsAgree, DefaultDenyPolicy.evaluateAction_iff, DtAction.allow_iff h]
  constructor
  · intro hagree hauthorized
    exact (hagree.1 hauthorized).2
  · intro hbounds
    exact ⟨fun hauthorized => ⟨hauthorized, hbounds hauthorized⟩, And.left⟩

/-- **The two policies decide alike exactly where 64 bits hold the bounds
in nanoseconds**, or where the request or the action fails on something
else. -/
theorem policies_agree_iff {request : ProjectionRequest} {consent : ConsentGrant}
    {action : ActionEnvelope} {grant : AuthorityGrant} {projection authority : Json}
    (hprojection : DtProjection.input request consent = .ok projection)
    (haction : DtAction.input action grant = .ok authority) (now : Instant) :
    (ProjectionsAgree request consent (some projection) now ↔ (Consented request consent now →
      Within64 consent.validFrom.instant ∧ Within64 consent.validUntil.instant)) ∧
    (ActionsAgree action grant (some authority) now ↔ (Authorized action grant now →
      (Within64 grant.validFrom.instant ∧ Within64 grant.validUntil.instant) ∧
      Within64 action.issuedAt.instant ∧ Within64 action.expiresAt.instant)) := by
  have hrequest := DtProjection.reads_input hprojection
  have henvelope := DtAction.reads_input haction
  exact ⟨projectionsAgree_iff hrequest now, actionsAgree_iff henvelope now⟩

/-- A grant of the voice to a friend, without end. -/
def openEndedConsent : ConsentGrant where
  consentId := "consent-1"
  subjectId := "subject-1"
  recipientId := "friend"
  purposes := .ofList ["assist"]
  allowedFields := .ofList ["voice"]
  maxSensitivity := .internal
  validFrom := DateTime.utc 63902822400000000
  validUntil := DateTime.utc (DateTime.dayCount * DateTime.microsPerDay - 1000000)
  policyVersion := "policy-1"
  until_follows := by decide
  aware := ⟨rfl, rfl⟩
  revoked_aware := by simp

/-- The friend asks for the voice. -/
def voiceRequest : ProjectionRequest where
  requestId := "request-1"
  twinId := "twin-1"
  subjectId := "subject-1"
  recipientId := "friend"
  purpose := "assist"
  requestedFields := .ofList ["voice"]
  maximumSensitivity := .internal
  asOfValidTime := DateTime.utc 63902822400000000
  asOfRecordedTime := DateTime.utc 63902822400000000
  fields_required := by decide
  aware := ⟨rfl, rfl⟩

/-- A reply an agent may send. -/
def replyEnvelope : ActionEnvelope where
  actionId := "action-1"
  principalId := "subject-1"
  actorIdentityId := "agent"
  purpose := "assist"
  target := "friend"
  requestedCapabilities := .ofList ["reply"]
  impact := "low"
  reversible := true
  evidenceIds := ["evidence-1"]
  constraintVersion := "constraint-1"
  idempotencyKey := "action-key"
  issuedAt := DateTime.utc 63902822400000000
  expiresAt := DateTime.utc 63902826000000000
  expires_follows := by decide
  capabilities_required := by decide
  aware := ⟨rfl, rfl⟩

def replyGrant : AuthorityGrant where
  grantId := "grant-1"
  principalId := "subject-1"
  actorIdentityId := "agent"
  purposes := .ofList ["assist"]
  capabilities := .ofList ["reply"]
  maximumImpact := "moderate"
  requireReversible := true
  validFrom := DateTime.utc 63902822400000000
  validUntil := DateTime.utc 63902908800000000
  until_follows := by decide
  aware := ⟨rfl, rfl⟩
  revoked_aware := by simp

/-- **A grant without end is honoured by one deployment only.** -/
theorem openEnded_disagrees : ∃ doc,
    DtProjection.input voiceRequest openEndedConsent = .ok doc ∧
    ¬ ProjectionsAgree voiceRequest openEndedConsent (some doc) 63902822400000001 := by
  obtain ⟨doc, hdoc⟩ : ∃ doc, DtProjection.input voiceRequest openEndedConsent = .ok doc :=
    ⟨_, rfl⟩
  refine ⟨doc, hdoc, ?_⟩
  rw [projectionsAgree_iff (DtProjection.reads_input hdoc)]
  have hconsented : Consented voiceRequest openEndedConsent 63902822400000001 :=
    DefaultDenyPolicy.objections_eq_nil.1 (by decide +kernel)
  have hbeyond : ¬ Within64 openEndedConsent.validUntil.instant := by decide
  intro hagree
  exact hbeyond (hagree hconsented).2

theorem policies_agree_reply : ∃ projection authority,
    DtProjection.input voiceRequest openEndedConsent = .ok projection ∧
    DtAction.input replyEnvelope replyGrant = .ok authority ∧
    ActionsAgree replyEnvelope replyGrant (some authority) 63902822400000001 ∧
    ¬ ProjectionsAgree voiceRequest openEndedConsent (some projection) 63902822400000001 := by
  obtain ⟨projection, hprojection⟩ :
      ∃ doc, DtProjection.input voiceRequest openEndedConsent = .ok doc := ⟨_, rfl⟩
  obtain ⟨authority, hauthority⟩ : ∃ doc, DtAction.input replyEnvelope replyGrant = .ok doc :=
    ⟨_, rfl⟩
  obtain ⟨hprojections, hactions⟩ :=
    policies_agree_iff hprojection hauthority 63902822400000001
  refine ⟨projection, authority, hprojection, hauthority, hactions.2 fun _ => by decide, ?_⟩
  rw [hprojections]
  have hconsented : Consented voiceRequest openEndedConsent 63902822400000001 :=
    DefaultDenyPolicy.objections_eq_nil.1 (by decide +kernel)
  have hbeyond : ¬ Within64 openEndedConsent.validUntil.instant := by decide
  intro hagree
  exact hbeyond (hagree hconsented).2

end ArgoTwin
