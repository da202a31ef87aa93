import ArgoTwin.Types
import ArgoTwin.Library.Effects
/-!
# NATS subjects

A subject is tokens joined by dots. Event subjects, dead-letter subjects
and consumer filters have six tokens each, and a filter's wildcard stands
for any one token: where the plane is left open it stands for the
`deadletter` of a marker's subject as well. A filter selects exactly the
events it names, and it is clear of markers just when it names a plane
(`filter_selects_events_iff`).
-/

namespace ArgoTwin

namespace NatsSubjectTopology

/-! ## Subjects -/

/-- `[A-Za-z0-9_-]`. -/
def isTokenChar (c : Char) : Bool := c.isAlphanum || c == '_' || c == '-'

/-- `_SUBJECT_TOKEN_PATTERN.fullmatch(value)`. -/
def isToken (value : String) : Bool :=
  value.toList.all isTokenChar && decide (1 ≤ value.length ∧ value.length ≤ 64)

def token (value name : String) : Except PyError String :=
  if isToken value then .ok value
  else .error (.protocolViolation
    (name ++ " must be 1-64 URL-safe characters without NATS wildcards"))

/-- The tokens joined by dots, 255 bytes at most. -/
def joined (tokens : List String) (problem : String) : Except PyError String :=
  let subject := ".".intercalate tokens
  if 255 < subject.utf8ByteSize then .error (.protocolViolation problem) else .ok subject

def event (tenant : String) (e : EventEnvelope) : Except PyError String := do
  let tenant ← token tenant "tenant"
  let twinId ← token e.twinId "twin_id"
  let plane ← token e.plane.value "plane"
  let eventType ← token e.eventType "event_type"
  joined ["argo", "dt", tenant, twinId, plane, eventType]
    "NATS subject exceeds the 255-byte project limit"

def deadletter (tenant twinId stage : String) : Except PyError String := do
  let tenant ← token tenant "tenant"
  let twinId ← token twinId "twin_id"
  let stage ← token stage "stage"
  joined ["argo", "dt", tenant, twinId, "deadletter", stage]
    "NATS dead-letter subject exceeds project limit"

/-- A token, or the wildcard where it is left out. -/
def tokenOrWildcard (value : Option String) (name : String) : Except PyError String :=
  match value with
  | some value => token value name
  | none => .ok "*"

def consumerFilter (tenant : String) (twinId plane eventType : Option String) :
    Except PyError String := do
  let tenant ← token tenant "tenant"
  let twinId ← tokenOrWildcard twinId "twin_id"
  let plane ← tokenOrWildcard plane "plane"
  let eventType ← tokenOrWildcard eventType "event_type"
  joined ["argo", "dt", tenant, twinId, plane, eventType]
    "NATS consumer filter exceeds project limit"

end NatsSubjectTopology

namespace Nats

/-! ## Matching -/

def tokensOf (subject : String) : List String :=
  (subject.toList.splitOn '.').map String.ofList

/-- `*` stands for one token, a last `>` for all that remain. -/
def matchTokens : List String → List String → Bool
  | [], [] => true
  | [">"], _ :: _ => true
  | pattern :: patterns, token :: tokens =>
    (pattern == "*" || pattern == token) && matchTokens patterns tokens
  | _, _ => false

/-- The server hands a message on this subject to a subscription with this filter. -/
def delivers (filter subject : String) : Bool :=
  matchTokens (tokensOf filter) (tokensOf subject)

/-- What `subscribe` is called with. -/
structure Subscription where
  subject : String
  durable : String
  stream : String
  pendingMsgsLimit : Int
  pendingBytesLimit : Int
  deriving DecidableEq

end Nats

/-! ## Subscribing -/

/-- A consumer, without its handler. -/
structure JetStreamConsumer where
  tenant : String
  stage : String
  maxDeliver : Int := 5
  retryDelay : PyFloat
  maxEventBytes : Int := 2 * 1024 * 1024
  deriving DecidableEq

namespace JetStreamConsumer

open NatsSubjectTopology

/-- `JetStreamConsumer(...)`; a dead-letter subject can be built of its names. -/
def new (tenant stage : String) (maxDeliver : Int) (retryDelay : PyFloat) (maxEventBytes : Int) :
    Except PyError JetStreamConsumer := do
  if maxDeliver < 1 || (retryDelay.negative && retryDelay.digits != 0) || maxEventBytes < 1024 then
    throw (.valueError "NATS consumer limits are invalid")
  let _ ← deadletter tenant "validation" stage
  pure
    { tenant := tenant
      stage := stage
      maxDeliver := maxDeliver
      retryDelay := retryDelay
      maxEventBytes := maxEventBytes }

def bind (c : JetStreamConsumer) (durable stream : String) (twinId plane eventType : Option String)
    (pendingMessages pendingBytes : Int) : Except PyError Nats.Subscription := do
  if pendingMessages < 1 || pendingBytes < 1024 then
    throw (.valueError "NATS pending limits are invalid")
  let durableName ← token durable "durable"
  let streamName ← token stream "stream"
  let subject ← consumerFilter c.tenant twinId plane eventType
  pure
    { subject := subject
      durable := durableName
      stream := streamName
      pendingMsgsLimit := pendingMessages
      pendingBytesLimit := pendingBytes }

end JetStreamConsumer

namespace NatsSubjectTopology

/-! ## What can be joined -/

theorem token_eq_ok {value name text : String} :
    token value name = .ok text ↔ isToken value = true ∧ text = value := by
  unfold token
  split_ifs with h
  · constructor
    · intro heq
      exact ⟨h, (Except.ok.inj heq).symm⟩
    · rintro ⟨-, rfl⟩
      rfl
  · constructor
    · nofun
    · exact fun hok => absurd hok.1 h

theorem isTokenChar_of_mem {value : String} (h : isToken value = true) :
    ∀ c ∈ value.toList, isTokenChar c = true := by
  intro c hc
  simp only [isToken, Bool.and_eq_true] at h
  exact List.all_eq_true.1 h.1 c hc

/-- A token is no wildcard, and no dot stands in it. -/
theorem plain_of_isToken {value : String} (h : isToken value = true) :
    '.' ∉ value.toList ∧ value ≠ "*" ∧ value ≠ ">" := by
  have hchars := isTokenChar_of_mem h
  refine ⟨fun hdot => ?_, ?_, ?_⟩
  · exact absurd (hchars _ hdot) (by decide)
  · rintro rfl
    exact absurd (hchars '*' (by decide)) (by decide)
  · rintro rfl
    exact absurd (hchars '>' (by decide)) (by decide)

theorem utf8Size_of_isTokenChar {c : Char} (h : isTokenChar c = true) : c.utf8Size = 1 := by
  rw [Char.utf8Size_eq_one_iff]
  simp only [isTokenChar, Char.isAlphanum, Char.isAlpha, Char.isUpper, Char.isLower, Char.isDigit,
    Bool.or_eq_true, Bool.and_eq_true, decide_eq_true_eq, beq_iff_eq] at h
  rcases h with (((h | h) | h) | rfl) | rfl
  · exact UInt32.le_trans h.2 (by decide)
  · exact UInt32.le_trans h.2 (by decide)
  · exact UInt32.le_trans h.2 (by decide)
  · decide
  · decide

/-- A token takes 64 bytes at most. -/
theorem byteSize_of_isToken {value : String} (h : isToken value = true) :
    value.utf8ByteSize ≤ 64 := by
  have hsize : ∀ cs : List Char, (∀ c ∈ cs, isTokenChar c = true) →
      (String.ofList cs).utf8ByteSize = cs.length := by
    intro cs
    induction cs with
    | nil => exact fun _ => rfl
    | cons c cs ih =>
      intro hcs
      rw [String.ofList_cons, String.utf8ByteSize_append, String.utf8ByteSize_singleton,
        utf8Size_of_isTokenChar (hcs c List.mem_cons_self),
        ih (fun c hc => hcs c (List.mem_cons_of_mem _ hc)), List.length_cons]
      omega
  have hbytes := hsize value.toList (isTokenChar_of_mem h)
  simp only [isToken, Bool.and_eq_true, decide_eq_true_eq] at h
  rw [String.ofList_toList, String.length_toList] at hbytes
  omega

/-- The subject of six tokens. -/
theorem joined_six (a b c d e f problem : String) :
    joined [a, b, c, d, e, f] problem =
      if 255 < (".".intercalate [a, b, c, d, e, f]).utf8ByteSize
      then .error (.protocolViolation problem)
      else .ok (".".intercalate [a, b, c, d, e, f]) := rfl

theorem byteSize_intercalate (a b c d e f : String) :
    (".".intercalate [a, b, c, d, e, f]).utf8ByteSize =
      a.utf8ByteSize + b.utf8ByteSize + c.utf8ByteSize + d.utf8ByteSize + e.utf8ByteSize +
        f.utf8ByteSize + 5 := by
  have htext : ".".intercalate [a, b, c, d, e, f] =
      a ++ "." ++ b ++ "." ++ c ++ "." ++ d ++ "." ++ e ++ "." ++ f := rfl
  have hdot : ".".utf8ByteSize = 1 := rfl
  rw [htext]
  simp only [String.utf8ByteSize_append, hdot]
  omega

variable {tenant twinId stage subject : String}

/-- **A dead-letter subject** can be built of any three tokens. -/
theorem deadletter_eq_ok : deadletter tenant twinId stage = .ok subject ↔
    isToken tenant = true ∧ isToken twinId = true ∧ isToken stage = true ∧
      subject = ".".intercalate ["argo", "dt", tenant, twinId, "deadletter", stage] := by
  unfold deadletter
  constructor
  · intro h
    obtain ⟨_, hname, hrest⟩ := Library.bind_eq_ok.1 h
    obtain ⟨_, htwin, hlast⟩ := Library.bind_eq_ok.1 hrest
    obtain ⟨_, hstage, hjoined⟩ := Library.bind_eq_ok.1 hlast
    obtain ⟨htenant, rfl⟩ := token_eq_ok.1 hname
    obtain ⟨htwinId, rfl⟩ := token_eq_ok.1 htwin
    obtain ⟨hstageName, rfl⟩ := token_eq_ok.1 hstage
    rw [joined_six] at hjoined
    split_ifs at hjoined
    exact ⟨htenant, htwinId, hstageName, (Except.ok.inj hjoined).symm⟩
  · rintro ⟨htenant, htwin, hstage, rfl⟩
    have hsize := byteSize_intercalate "argo" "dt" tenant twinId "deadletter" stage
    have h1 := byteSize_of_isToken htenant
    have h2 := byteSize_of_isToken htwin
    have h3 := byteSize_of_isToken hstage
    have hargo : "argo".utf8ByteSize = 4 := rfl
    have hdt : "dt".utf8ByteSize = 2 := rfl
    have hlane : "deadletter".utf8ByteSize = 10 := rfl
    simp only [token_eq_ok.2 ⟨htenant, rfl⟩, token_eq_ok.2 ⟨htwin, rfl⟩,
      token_eq_ok.2 ⟨hstage, rfl⟩, bind, Except.bind]
    rw [joined_six, if_neg (by omega)]

/-- An event's subject holds its tenant, twin, plane and type. -/
theorem tokens_of_event {e : EventEnvelope} (h : event tenant e = .ok subject) :
    isToken tenant = true ∧ isToken e.twinId = true ∧ isToken e.plane.value = true ∧
      isToken e.eventType = true ∧
      subject = ".".intercalate ["argo", "dt", tenant, e.twinId, e.plane.value, e.eventType] := by
  unfold event at h
  obtain ⟨_, hname, hrest⟩ := Library.bind_eq_ok.1 h
  obtain ⟨_, htwin, htail⟩ := Library.bind_eq_ok.1 hrest
  obtain ⟨_, hplane, hlast⟩ := Library.bind_eq_ok.1 htail
  obtain ⟨_, htype, hjoined⟩ := Library.bind_eq_ok.1 hlast
  obtain ⟨htenant, rfl⟩ := token_eq_ok.1 hname
  obtain ⟨htwinId, rfl⟩ := token_eq_ok.1 htwin
  obtain ⟨hplaneName, rfl⟩ := token_eq_ok.1 hplane
  obtain ⟨htypeName, rfl⟩ := token_eq_ok.1 htype
  rw [joined_six] at hjoined
  split_ifs at hjoined
  exact ⟨htenant, htwinId, hplaneName, htypeName, (Except.ok.inj hjoined).symm⟩

/-- A place of a filter: a token, or the wildcard. -/
def Place (value : Option String) (text : String) : Prop :=
  (value = none ∧ text = "*") ∨ (value = some text ∧ isToken text = true)

theorem place_of_tokenOrWildcard {value : Option String} {name text : String}
    (h : tokenOrWildcard value name = .ok text) : Place value text := by
  cases value with
  | none => exact .inl ⟨rfl, (Except.ok.inj h).symm⟩
  | some value =>
    obtain ⟨htoken, rfl⟩ := token_eq_ok.1 h
    exact .inr ⟨rfl, htoken⟩

variable {plane eventType : Option String} {twin : Option String}

theorem places_of_consumerFilter (h : consumerFilter tenant twin plane eventType = .ok subject) :
    isToken tenant = true ∧ ∃ t p n, Place twin t ∧ Place plane p ∧ Place eventType n ∧
      subject = ".".intercalate ["argo", "dt", tenant, t, p, n] := by
  unfold consumerFilter at h
  obtain ⟨_, hname, hrest⟩ := Library.bind_eq_ok.1 h
  obtain ⟨t, htwin, htail⟩ := Library.bind_eq_ok.1 hrest
  obtain ⟨p, hplane, hlast⟩ := Library.bind_eq_ok.1 htail
  obtain ⟨n, htype, hjoined⟩ := Library.bind_eq_ok.1 hlast
  obtain ⟨htenant, rfl⟩ := token_eq_ok.1 hname
  rw [joined_six] at hjoined
  split_ifs at hjoined
  exact ⟨htenant, t, p, n, place_of_tokenOrWildcard htwin, place_of_tokenOrWildcard hplane,
    place_of_tokenOrWildcard htype, (Except.ok.inj hjoined).symm⟩

/-- A wildcard is no place's undoing: a token fits it where it is left out or agrees. -/
theorem Place.fits {value : Option String} {text : String} (h : Place value text) (token : String) :
    (text == "*" || text == token) = true ↔ ∀ v ∈ value, token = v := by
  obtain ⟨rfl, rfl⟩ | ⟨rfl, htoken⟩ := h
  · simp
  · obtain ⟨-, hstar, -⟩ := plain_of_isToken htoken
    simp only [Bool.or_eq_true, beq_iff_eq, hstar, false_or, Option.mem_some_iff, forall_eq']
    exact eq_comm

theorem Place.plain {value : Option String} {text : String} (h : Place value text) :
    '.' ∉ text.toList ∧ text ≠ ">" := by
  obtain ⟨-, rfl⟩ | ⟨-, htoken⟩ := h
  · decide
  · exact ⟨(plain_of_isToken htoken).1, (plain_of_isToken htoken).2.2⟩

end NatsSubjectTopology

namespace Nats

open NatsSubjectTopology

/-- A subject's tokens are the ones it was joined of. -/
theorem tokensOf_intercalate {tokens : List String} (hne : tokens ≠ [])
    (h : ∀ token ∈ tokens, '.' ∉ token.toList) :
    tokensOf (".".intercalate tokens) = tokens := by
  have hdot : ".".toList = ['.'] := rfl
  rw [tokensOf, String.toList_intercalate, hdot, List.splitOn_intercalate]
  · simp
  · intro l hl
    obtain ⟨token, htoken, rfl⟩ := List.mem_map.1 hl
    exact h token htoken
  · simpa using hne

theorem matchTokens_cons {pattern token : String} {patterns tokens : List String}
    (h : pattern ≠ ">") : matchTokens (pattern :: patterns) (token :: tokens) =
      ((pattern == "*" || pattern == token) && matchTokens patterns tokens) := by
  cases patterns <;> simp [matchTokens, h]

variable {tenant tenant' a b c t p n : String}

/-- **A filter and a subject of six tokens** match place by place. -/
theorem delivers_iff (htenant : isToken tenant = true) {twinId plane eventType : Option String}
    (ht : Place twinId t) (hp : Place plane p) (hn : Place eventType n)
    (htenant' : isToken tenant' = true) (ha : isToken a = true) (hb : isToken b = true)
    (hc : isToken c = true) :
    delivers (".".intercalate ["argo", "dt", tenant, t, p, n])
        (".".intercalate ["argo", "dt", tenant', a, b, c]) = true ↔
      tenant' = tenant ∧ (∀ v ∈ twinId, a = v) ∧ (∀ v ∈ plane, b = v) ∧
        ∀ v ∈ eventType, c = v := by
  obtain ⟨hdot, hstar, hrest⟩ := plain_of_isToken htenant
  have hfilter : tokensOf (".".intercalate ["argo", "dt", tenant, t, p, n]) =
      ["argo", "dt", tenant, t, p, n] := by
    refine tokensOf_intercalate (List.cons_ne_nil _ _) ?_
    simp only [List.forall_mem_cons]
    exact ⟨by decide, by decide, hdot, ht.plain.1, hp.plain.1, hn.plain.1, nofun⟩
  have hsubject : tokensOf (".".intercalate ["argo", "dt", tenant', a, b, c]) =
      ["argo", "dt", tenant', a, b, c] := by
    refine tokensOf_intercalate (List.cons_ne_nil _ _) ?_
    simp only [List.forall_mem_cons]
    exact ⟨by decide, by decide, (plain_of_isToken htenant').1, (plain_of_isToken ha).1,
      (plain_of_isToken hb).1, (plain_of_isToken hc).1, nofun⟩
  have hempty : matchTokens [] [] = true := rfl
  rw [delivers, hfilter, hsubject, matchTokens_cons (by decide), matchTokens_cons (by decide),
    matchTokens_cons hrest, matchTokens_cons ht.plain.2, matchTokens_cons hp.plain.2,
    matchTokens_cons hn.plain.2, hempty]
  simp only [Bool.and_eq_true, ht.fits, hp.fits, hn.fits, Bool.or_eq_true, beq_iff_eq, hstar,
    false_or, or_true, true_and, and_true, eq_comm (a := tenant)]

/-- What a filter selects of the events: the tenant's, with every field supplied. -/
def SelectsEvents (filter tenant : String) (twinId plane eventType : Option String) : Prop :=
  ∀ (tenant' : String) (e : EventEnvelope) (subject : String), event tenant' e = .ok subject →
    (delivers filter subject = true ↔ tenant' = tenant ∧ (∀ v ∈ twinId, e.twinId = v) ∧
      (∀ v ∈ plane, e.plane.value = v) ∧ ∀ v ∈ eventType, e.eventType = v)

/-- No dead-letter marker comes through the filter. -/
def ClearOfMarkers (filter : String) : Prop :=
  ∀ tenant twinId stage subject : String, deadletter tenant twinId stage = .ok subject →
    delivers filter subject = false

variable {filter : String} {twinId plane eventType : Option String}

theorem selectsEvents_consumerFilter
    (h : consumerFilter tenant twinId plane eventType = .ok filter) :
    SelectsEvents filter tenant twinId plane eventType := by
  obtain ⟨htenant, t, p, n, ht, hp, hn, rfl⟩ := places_of_consumerFilter h
  intro tenant' e subject hevent
  obtain ⟨htenant', htwin, hplane, htype, rfl⟩ := tokens_of_event hevent
  exact delivers_iff htenant ht hp hn htenant' htwin hplane htype

/-- **A filter is clear of markers just when it names a plane**, and none
called as their lane is. -/
theorem clearOfMarkers_iff (h : consumerFilter tenant twinId plane eventType = .ok filter) :
    ClearOfMarkers filter ↔ ∃ v, plane = some v ∧ v ≠ "deadletter" := by
  obtain ⟨htenant, t, p, n, ht, hp, hn, rfl⟩ := places_of_consumerFilter h
  constructor
  · intro hclear
    -- a marker whose twin and stage are what the filter asks for
    have hpick : ∀ {value : Option String} {text : String}, Place value text →
        ∃ token, isToken token = true ∧ ∀ v ∈ value, token = v := by
      rintro value text (⟨rfl, -⟩ | ⟨rfl, htoken⟩)
      · exact ⟨"unknown", by decide, by simp⟩
      · exact ⟨text, htoken, by simp⟩
    obtain ⟨twin, htwin, htwinId⟩ := hpick ht
    obtain ⟨stage, hstage, hstageName⟩ := hpick hn
    have hno := hclear tenant twin stage _
      (deadletter_eq_ok.2 ⟨htenant, htwin, hstage, rfl⟩)
    have hiff := delivers_iff htenant ht hp hn htenant htwin
      (show isToken "deadletter" = true by decide) hstage
    rw [hno] at hiff
    have hplane : ¬ ∀ v ∈ plane, "deadletter" = v := fun hplane => by
      have := hiff.2 ⟨rfl, htwinId, hplane, hstageName⟩
      cases this
    cases plane with
    | none => exact absurd (by simp) hplane
    | some v =>
      refine ⟨v, rfl, ?_⟩
      rintro rfl
      exact hplane (by simp)
  · rintro ⟨v, rfl, hv⟩ tenant' twin stage subject hsubject
    obtain ⟨htenant', htwin, hstage, rfl⟩ := deadletter_eq_ok.1 hsubject
    have hiff := delivers_iff htenant ht hp hn htenant' htwin
      (show isToken "deadletter" = true by decide) hstage
    rw [← Bool.not_eq_true, hiff]
    rintro ⟨-, -, hplane, -⟩
    exact hv (hplane v rfl).symm

/-- A consumer subscribes to the filter of its own tenant. -/
theorem consumerFilter_of_bind {c : JetStreamConsumer} {durable stream : String}
    {pendingMessages pendingBytes : Int} {s : Subscription}
    (h : c.bind durable stream twinId plane eventType pendingMessages pendingBytes = .ok s) :
    consumerFilter c.tenant twinId plane eventType = .ok s.subject := by
  unfold JetStreamConsumer.bind at h
  split_ifs at h
  · cases h
  · obtain ⟨_, -, hrest⟩ := Library.bind_eq_ok.1 h
    obtain ⟨_, -, hlast⟩ := Library.bind_eq_ok.1 hrest
    obtain ⟨subject, hfilter, hs⟩ := Library.bind_eq_ok.1 hlast
    cases hs
    exact hfilter

/-- **Consumer filters select event subjects only** where they name a plane,
and otherwise hand a consumer the markers of its tenant, its own among them. -/
theorem filter_selects_events_iff
    (h : consumerFilter tenant twinId plane eventType = .ok filter) :
    (SelectsEvents filter tenant twinId plane eventType ∧ ClearOfMarkers filter ∧
      ∀ (c : JetStreamConsumer) (durable stream : String) (pendingMessages pendingBytes : Int)
        (s : Subscription), c.tenant = tenant →
        c.bind durable stream twinId plane eventType pendingMessages pendingBytes = .ok s →
        ∀ twin stage subject : String, deadletter c.tenant twin stage = .ok subject →
          delivers s.subject subject = false) ↔
      ∃ v, plane = some v ∧ v ≠ "deadletter" := by
  rw [← clearOfMarkers_iff h]
  constructor
  · exact fun hclaim => hclaim.2.1
  · intro hclear
    refine ⟨selectsEvents_consumerFilter h, hclear, ?_⟩
    rintro c durable stream pendingMessages pendingBytes s rfl hbind twin stage subject hsubject
    have hfilter := consumerFilter_of_bind hbind
    rw [h] at hfilter
    rw [← Except.ok.inj hfilter]
    exact hclear _ twin stage subject hsubject

/-- A filter that names the authoritative plane. -/
theorem filter_selects_events_authoritative :
    ClearOfMarkers "argo.dt.acme.*.authoritative.*" := by
  have hfilter : consumerFilter "acme" none (some "authoritative") none =
      .ok "argo.dt.acme.*.authoritative.*" := rfl
  exact ((filter_selects_events_iff hfilter).2 ⟨"authoritative", rfl, by decide⟩).2.1

/-- A consumer bound to no plane is handed its own markers. -/
theorem own_marker_delivered :
    ∃ (c : JetStreamConsumer) (s : Subscription) (marker : String),
      JetStreamConsumer.new "acme" "indexer" 5 ⟨false, 1, 0, by decide⟩ 2097152 = .ok c ∧
      c.bind "indexer" "events" none none none 1024 8388608 = .ok s ∧
      deadletter c.tenant "unknown" c.stage = .ok marker ∧ delivers s.subject marker = true :=
  ⟨⟨"acme", "indexer", 5, ⟨false, 1, 0, by decide⟩, 2097152⟩,
    ⟨"argo.dt.acme.*.*.*", "indexer", "events", 1024, 8388608⟩,
    "argo.dt.acme.unknown.deadletter.indexer", rfl, rfl, rfl, by decide +kernel⟩

end Nats

end ArgoTwin
