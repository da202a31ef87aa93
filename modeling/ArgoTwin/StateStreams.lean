import ArgoTwin.Delivery
import ArgoTwin.Interleaving
import ArgoTwin.Subjects
/-!
# State streams, scoped to a subject

A state stream is a durable subscription whose events go out as frames. Who
may open one is asked once, of the state at that time: an actor scoped to a
subject passes for a twin of that subject, and for one that has none yet.
What the stream then carries depends on what the twin is bound to later.
-/

namespace ArgoTwin

open Library TwinAggregate

/-! ## Opening a stream -/

/-- A cursor signer, or a ring of them: how a position is signed, how a
token is read, and by the key that signed it the tag of a position. -/
structure CursorSigner where
  issue : StreamPosition → String
  verify : String → String → Except PyError DecodedCursor
  chainTag : String → Option (StreamPosition → String)

/-- `verify_chain_binding`. -/
def CursorSigner.verifyChainBinding (signer : CursorSigner) (cursor : DecodedCursor)
    (position : StreamPosition) : Except PyError StreamPosition :=
  match signer.chainTag cursor.signingKeyId with
  | none => .error (.resumeCursorRejected "resume cursor signing key is no longer accepted")
  | some tag =>
    if cursor.twinId ≠ position.twinId ∨ cursor.sequence ≠ position.sequence then
      .error (.resumeCursorRejected "resume cursor position does not match the stream")
    else if cursor.chainTag ≠ tag position then
      .error (.resumeCursorRejected "resume cursor does not match the authoritative event chain")
    else .ok position

def CursorSigner.codec (signer : CursorSigner) : CursorCodec where
  issue := signer.issue
  verify := signer.verify
  verifyChainBinding := signer.verifyChainBinding

theorem SyncLimits.window_of_admitted {limits : SyncLimits} {n : Int}
    (h : ¬ (n < 1 ∨ limits.maxInFlight < n)) : 1 ≤ n.toNat := by
  omega

/-- `negotiate`: a client may ask for a smaller window. -/
def SyncLimits.negotiate (limits : SyncLimits) : Option Int → Except PyError SyncLimits
  | none => .ok limits
  | some n =>
    if n = 0 then .ok limits
    else if h : n < 1 ∨ limits.maxInFlight < n then
      .error (.protocolViolation "max_in_flight exceeds the server limit")
    else .ok { limits with maxInFlight := n.toNat, window_positive := window_of_admitted h }

/-- `_stream_position`: the position of a sequence of the stream. -/
def Store.streamPosition (s : Store) (twinId : String) (sequence : Int) :
    Except PyError StreamPosition :=
  if sequence < 0 then .error (.invariantViolation "after_sequence cannot be negative")
  else if sequence = 0 then StreamPosition.new twinId 0 ""
  else do
    let events ← s.loadPage twinId (sequence - 1) (some sequence) 1
    match events with
    | [] => .error (.invariantViolation "after_sequence is not present in the event stream")
    | first :: _ =>
      if first.sequence ≠ sequence then
        .error (.invariantViolation "after_sequence is not present in the event stream")
      else StreamPosition.new twinId sequence first.eventHash

/-- What a service is given to open streams with. -/
structure StreamConfig where
  cursorSigner : Option CursorSigner := none
  syncLimits : SyncLimits := {}
  queueCapacity : Nat := 1024

/-- The arguments of `open_state_stream`. -/
structure StreamRequest where
  twinId : String
  actor : ActorContext
  resumeToken : Option String := none
  eventTypes : List String := []
  includeProjectionEvents : Bool := false
  maxInFlight : Option Int := none

/-- Where a stream begins: at the origin, or where its token was signed. -/
def StreamConfig.start (signer : CursorSigner) (store : Store) (twinId : String) :
    Option String → Except PyError StreamPosition
  | none => StreamPosition.new twinId 0 ""
  | some token => do
    let decoded ← signer.verify token twinId
    signer.verifyChainBinding decoded (← store.streamPosition twinId decoded.sequence)

/-- What `open_state_stream` does once the actor may open it. -/
def StreamConfig.subscribe (config : StreamConfig) (store : Store) (request : StreamRequest) :
    Except PyError DurableSubscription :=
  match config.cursorSigner with
  | none => .error (.invariantViolation
    "state streams require an explicitly configured cursor signer")
  | some signer => do
    let start ← StreamConfig.start signer store request.twinId request.resumeToken
    let planes : List EventPlane :=
      if request.includeProjectionEvents then [.authoritative, .projection] else [.authoritative]
    let limits ← config.syncLimits.negotiate request.maxInFlight
    DurableSubscription.open store config.queueCapacity start limits
      (Filters.new request.eventTypes planes)

namespace Service

variable [Digest] (svc : Service)

/-- The check `open_state_stream` begins with. -/
def authorizeStream (twinId : String) (actor : ActorContext) : Method Unit :=
  match actor.subjectId with
  | none => demand (.operationsService ∈ actor.roles ∨ .projectionService ∈ actor.roles)
      (.authorizationDenied "global state streams require operations or projection role")
  | some _ => do
    let state ← svc.state twinId
    fromExcept (EventOwnershipPolicy.authorizeSubject actor state.subjectId)

def openStateStream (config : StreamConfig) (request : StreamRequest) :
    Method DurableSubscription := do
  svc.authorizeStream request.twinId request.actor
  fromExcept (config.subscribe (← get).store request)

end Service

/-! ## The machine -/

/-- A session, and who opened it. -/
structure StateSession where
  actor : ActorContext
  reader : Reader

/-- A frame as it went out: its event, the subject its session is scoped
to, and the subject its twin was bound to at the time. -/
structure Frame where
  event : EventEnvelope
  scope : Option String
  bound : Option String

/-- One service, its sessions, and the frames they emitted. -/
structure Streaming where
  process : Process := {}
  sessions : List StateSession := []
  frames : List Frame := []

inductive StreamingMove where
  | append (e : EventEnvelope) (actor : ActorContext) (expectedSequence : Int)
      (readings : AppendReadings)
  | read (twinId : String)
  | drain (limit : Int) (readings : RelayReadings)
  | opens (request : StreamRequest)
  | session (i : Nat) (move : ReaderMove)

namespace StateSession

/-- Closed, with no call under way: it emits nothing any more. -/
def Finished (session : StateSession) : Prop :=
  session.reader.state = .idle ∧ session.reader.sub.closed = true

def twinId (session : StateSession) : String := session.reader.start.twinId

variable [Digest]

def step (store : Store) (session : StateSession) (move : ReaderMove) : StateSession :=
  { session with reader := session.reader.step store move }

/-- The frames of a step: one for each event it handed out. -/
def emitted (store : Store) (session : StateSession) (move : ReaderMove) : List Frame :=
  ((session.step store move).reader.delivered.drop session.reader.delivered.length).map fun e =>
    { event := e
      scope := session.actor.subjectId
      bound := (latest store e.twinId).subjectId }

end StateSession

namespace Streaming

variable [Digest]

def step (svc : Service) (config : StreamConfig) (w : Streaming) : StreamingMove → Streaming
  | .append e actor expectedSequence readings =>
    { w with process := finalState (svc.append e actor expectedSequence readings) w.process }
  | .read twinId => { w with process := finalState (svc.state twinId) w.process }
  | .drain limit readings => { w with process := finalState (svc.drain limit readings) w.process }
  | .opens request =>
    let process := finalState (svc.openStateStream config request) w.process
    match outcome (svc.openStateStream config request) w.process with
    | .ok d =>
      let session : StateSession := ⟨request.actor, { start := d.position, sub := d }⟩
      { w with process := process, sessions := w.sessions ++ [session] }
    | .error _ => { w with process := process }
  | .session i move =>
    match w.sessions[i]? with
    | none => w
    | some session =>
      { w with
        sessions := w.sessions.set i (session.step w.process.store move)
        frames := w.frames ++ session.emitted w.process.store move }

/-- What the broker offers was committed. -/
def Genuine (w : Streaming) : StreamingMove → Prop
  | .session _ (.publish e) => e ∈ w.process.store.stream e.twinId
  | _ => True

/-- What an append has to meet: its event is read back as it is, and where
it binds a twin that had no subject, no session on the twin is open that is
scoped to another. -/
def Respects (w : Streaming) : StreamingMove → Prop
  | .append e actor expectedSequence readings => e.payload.Canonical ∧
    ∀ session ∈ w.sessions, ¬ session.Finished → session.twinId = e.twinId →
      ∀ T, session.actor.subjectId = some T →
        (latest w.process.store e.twinId).subjectId = none →
        ∀ r s', Committed w.process.store e actor expectedSequence readings.recorded r s' →
          ∀ S, boundSubject e = some S → S = T
  | _ => True

end Streaming

/-! ## Opening -/

section Opening

variable {signer : CursorSigner} {config : StreamConfig} {store : Store} {request : StreamRequest}
variable {start : StreamPosition} {d : DurableSubscription} {twinId : String}

theorem streamPosition_new {sequence : Int} {eventHash : String}
    (h : StreamPosition.new twinId sequence eventHash = .ok start) : start.twinId = twinId := by
  unfold StreamPosition.new at h
  split_ifs at h
  obtain rfl := Except.ok.inj h
  rfl

theorem twinId_streamPosition {sequence : Int}
    (h : store.streamPosition twinId sequence = .ok start) : start.twinId = twinId := by
  unfold Store.streamPosition at h
  split_ifs at h
  · exact streamPosition_new h
  · obtain ⟨events, -, h⟩ := bind_eq_ok.1 h
    cases events with
    | nil => cases h
    | cons first rest =>
      simp only at h
      split_ifs at h
      exact streamPosition_new h

/-- A signer gives back the position it was asked about. -/
theorem verifyChainBinding_ok {cursor : DecodedCursor} {position : StreamPosition}
    (h : signer.verifyChainBinding cursor position = .ok start) : start = position := by
  unfold CursorSigner.verifyChainBinding at h
  cases htag : signer.chainTag cursor.signingKeyId with
  | none => simp [htag] at h
  | some tag =>
    simp only [htag] at h
    split_ifs at h
    exact (Except.ok.inj h).symm

/-- Wherever a stream starts, it is a stream of its twin. -/
theorem twinId_start {token : Option String}
    (h : StreamConfig.start signer store twinId token = .ok start) : start.twinId = twinId := by
  cases token with
  | none => exact streamPosition_new h
  | some token =>
    obtain ⟨decoded, -, h⟩ := bind_eq_ok.1 h
    obtain ⟨position, hposition, h⟩ := bind_eq_ok.1 h
    rw [verifyChainBinding_ok h]
    exact twinId_streamPosition hposition

theorem subscribe_ok (h : config.subscribe store request = .ok d) :
    ∃ start limits filters, start.twinId = request.twinId ∧
      DurableSubscription.open store config.queueCapacity start limits filters = .ok d := by
  unfold StreamConfig.subscribe at h
  cases hsigner : config.cursorSigner with
  | none => simp [hsigner] at h
  | some signer =>
    simp only [hsigner] at h
    obtain ⟨start, hstart, h⟩ := bind_eq_ok.1 h
    obtain ⟨limits, -, h⟩ := bind_eq_ok.1 h
    exact ⟨start, limits, _, twinId_start hstart, h⟩

end Opening

namespace Service

variable [Digest] {svc : Service} {p p' : Process} {config : StreamConfig} {twinId : String}
variable {request : StreamRequest} {actor : ActorContext} {d : DurableSubscription}

/-- Reading a state is served from the memory, and gives the latest. -/
theorem served_state (svc : Service) (hp : p.Healthy) (twinId : String) :
    ∃ p', Returns (svc.state twinId) p (latest p.store twinId) p' ∧ Served p p' := by
  obtain ⟨ref, p', h⟩ := latestState_returns svc twinId hp.sound
  obtain ⟨hserved, -, hobject⟩ := served_latestState hp.sound hp.coherent h
  refine ⟨p', ?_, hserved⟩
  simp only [state, returns_bind]
  refine ⟨ref, p', h, p', p', rfl, ?_⟩
  rw [hobject]
  rfl

theorem Served.healthy (hp : p.Healthy) (h : Served p p') : p'.Healthy :=
  ⟨h.store ▸ hp.sound, h.store ▸ h.coherent⟩

/-- **What the check asks**: of a scoped actor, that the twin has its
subject or none. -/
theorem authorizeStream_spec (svc : Service) (twinId : String) (actor : ActorContext)
    (hp : p.Healthy) :
    Served p (finalState (svc.authorizeStream twinId actor) p) ∧
      ∀ q, Returns (svc.authorizeStream twinId actor) p () q → ∀ T, actor.subjectId = some T →
        (latest p.store twinId).subjectId = none ∨ (latest p.store twinId).subjectId = some T := by
  unfold authorizeStream
  cases hscope : actor.subjectId with
  | none =>
    refine ⟨?_, fun q _ T habsurd => by cases habsurd⟩
    have hsame : finalState (demand (.operationsService ∈ actor.roles ∨
        .projectionService ∈ actor.roles) (.authorizationDenied
          "global state streams require operations or projection role") : Method Unit) p = p := by
      unfold demand
      split <;> rfl
    rw [hsame]
    exact .refl hp.coherent
  | some T =>
    obtain ⟨q, hstate, hserved⟩ := served_state svc hp twinId
    constructor
    · rw [finalState_bind hstate]
      cases EventOwnershipPolicy.authorizeSubject actor (latest p.store twinId).subjectId <;>
        exact hserved
    · intro q' hreturns T' hT'
      obtain ⟨state, q'', hstate', hauthorized⟩ := returns_bind.1 hreturns
      obtain ⟨rfl, rfl⟩ := returns_unique hstate hstate'
      obtain ⟨hok, -⟩ := returns_fromExcept.1 hauthorized
      exact (EventOwnershipPolicy.authorizeSubject_eq_ok (hscope.trans hT')).1 hok

/-- **Opening a stream** is a read, and what it opens is a subscription to
the twin, authorized at that moment. -/
theorem openStateStream_spec (svc : Service) (config : StreamConfig) (request : StreamRequest)
    (hp : p.Healthy) :
    Served p (finalState (svc.openStateStream config request) p) ∧
      ∀ d, outcome (svc.openStateStream config request) p = .ok d →
        (∀ T, request.actor.subjectId = some T →
          (latest p.store request.twinId).subjectId = none ∨
            (latest p.store request.twinId).subjectId = some T) ∧
        ∃ start limits filters, start.twinId = request.twinId ∧
          DurableSubscription.open p.store config.queueCapacity start limits filters = .ok d := by
  obtain ⟨hserved, hscope⟩ := authorizeStream_spec svc request.twinId request.actor hp
  constructor
  · refine finalState_bind_keeps (P := fun q => Served p q) hserved fun _ => ?_
    refine keeps_bind keeps_get fun q => ?_
    exact keeps_fromExcept
  · intro d hd
    obtain ⟨q, hreturns⟩ := outcome_eq_ok.1 hd
    obtain ⟨_, q', hauthorized, hrest⟩ := returns_bind.1 hreturns
    have hrest : Returns (fromExcept (config.subscribe q'.store request)) q' d q := hrest
    obtain ⟨hsubscribed, -⟩ := returns_fromExcept.1 hrest
    have hstore : q'.store = p.store := by
      rw [← finalState_of_returns hauthorized]
      exact hserved.store
    rw [hstore] at hsubscribed
    exact ⟨hscope q' hauthorized, subscribe_ok hsubscribed⟩

end Service

/-! ## Sessions -/

namespace StateSession

open Reader

variable [Digest] {s s' : Store} {session : StateSession} {move : ReaderMove}

omit [Digest] in
/-- A subscription keeps its flag over an acknowledgement. -/
theorem closed_acknowledge {d d' : DurableSubscription} {position position' : StreamPosition}
    (h : d.acknowledge position = .ok (d', position')) : d'.closed = d.closed := by
  unfold DurableSubscription.acknowledge at h
  split_ifs at h
  · obtain ⟨rfl, -⟩ := Prod.mk.inj (Except.ok.inj h)
    rfl
  · cases hmatched : d.matched position.sequence with
    | none => simp [hmatched] at h
    | some item =>
      simp only [hmatched] at h
      split_ifs at h
      obtain ⟨rfl, -⟩ := Prod.mk.inj (Except.ok.inj h)
      rfl

/-- **A finished session stays so**, and hands nothing out. -/
theorem finished_step (h : session.Finished) :
    (session.step s move).Finished ∧ session.emitted s move = [] := by
  obtain ⟨hidle, hclosed⟩ := h
  have hsame : (session.reader.step s move).state = .idle →
      (session.reader.step s move).sub.closed = true →
      (session.reader.step s move).delivered = session.reader.delivered →
        (session.step s move).Finished ∧ session.emitted s move = [] := by
    intro hstate hdone hdelivered
    refine ⟨⟨hstate, hdone⟩, ?_⟩
    simp only [StateSession.emitted, StateSession.step, hdelivered, List.drop_length, List.map_nil]
  have htaken : ∀ outcome : Except PyError (DurableSubscription × StreamPosition),
      (∀ d position, outcome = .ok (d, position) →
        ∃ position', session.reader.sub.acknowledge position' = .ok (d, position)) →
      session.reader.step s move = session.reader.taken outcome →
        (session.step s move).Finished ∧ session.emitted s move = [] := by
    intro outcome houtcome hstep
    rw [hstep] at hsame
    cases outcome with
    | error err => exact hsame hidle hclosed rfl
    | ok result =>
      obtain ⟨d, position⟩ := result
      obtain ⟨position', hok⟩ := houtcome d position rfl
      exact hsame hidle ((closed_acknowledge hok).trans hclosed) rfl
  have hstays : session.reader.step s move = session.reader →
      (session.step s move).Finished ∧ session.emitted s move = [] := by
    intro hstep
    rw [hstep] at hsame
    exact hsame hidle hclosed rfl
  cases move with
  | call =>
    refine hsame ?_ ?_ ?_ <;>
      simp [Reader.step, hidle, DurableSubscription.begin, hclosed]
  | turn => exact hstays (by simp [Reader.step, hidle])
  | cancel => exact hstays (by simp [Reader.step, hidle])
  | publish e => exact hsame hidle hclosed rfl
  | acknowledge position => exact htaken _ (fun d position' hok => ⟨position, hok⟩) rfl
  | acknowledgeToken codec token => exact htaken _ (fun _ _ => acknowledgeToken_ok) rfl
  | close =>
    refine hsame hidle ?_ rfl
    simp [Reader.step, DurableSubscription.aclose, hclosed]

end StateSession

/-! ## Runs -/

namespace Streaming

variable [Digest] {svc : Service} {config : StreamConfig} {w : Streaming} {move : StreamingMove}

/-- What holds at every moment: the service is healthy, each session
follows its stream, and each scoped one that may still emit is on a twin of
its subject, or of none. -/
structure Sessions (w : Streaming) : Prop where
  healthy : w.process.Healthy
  following : ∀ session ∈ w.sessions,
    session.reader.Following w.process.store ∧ session.reader.Windowed
  confined : ∀ session ∈ w.sessions, ¬ session.Finished → ∀ T, session.actor.subjectId = some T →
    (latest w.process.store session.twinId).subjectId = none ∨
      (latest w.process.store session.twinId).subjectId = some T

/-- A step that leaves the ledger's events alone. -/
theorem Sessions.of_same (h : w.Sessions) {process : Process} (hp : process.Healthy)
    (hsame : SameLedger w.process.store process.store) :
    ({ w with process := process } : Streaming).Sessions where
  healthy := hp
  following session hsession :=
    ⟨(h.following session hsession).1.of_extends hp.sound.valid
      (extends_of_events hsame.events), (h.following session hsession).2⟩
  confined session hsession := by
    rw [hsame.latest]
    exact h.confined session hsession

theorem Sessions.append (h : w.Sessions) {e : EventEnvelope} {actor : ActorContext} {x : Int}
    {readings : AppendReadings} (hrespects : w.Respects (.append e actor x readings)) :
    (w.step svc config (.append e actor x readings)).Sessions := by
  obtain ⟨hp, hsame | ⟨r, hcommitted⟩⟩ := Service.append_outcome svc e actor x readings h.healthy
    hrespects.1
  · exact h.of_same hp hsame
  · refine ⟨hp, fun session hsession => ?_, fun session hsession hlive T hT => ?_⟩
    · exact ⟨(h.following session hsession).1.of_extends hp.sound.valid hcommitted.grows,
        (h.following session hsession).2⟩
    · have hsubject : (latest (w.step svc config (.append e actor x readings)).process.store
          session.twinId).subjectId = _ := hcommitted.subject_eq session.twinId
      rw [hsubject]
      have hbefore := h.confined session hsession hlive T hT
      split_ifs with htwin
      · cases hbinds : boundSubject e with
        | none => exact hbefore
        | some S =>
          -- the subject bound is the one there was, or the one the step respects
          refine .inr (congrArg some ?_)
          rcases hbefore with hnone | hsome
          · exact hrespects.2 session hsession hlive htwin.symm T hT (htwin ▸ hnone) r _ hcommitted S
              hbinds
          · have hbound := binds_of_accepts hcommitted.accepts_decode
              (hcommitted.boundSubject_eq.trans hbinds)
            rw [htwin, hsome] at hbound
            rcases hbound with habsurd | heq
            · cases habsurd
            · exact (Option.some.inj heq).symm
      · exact hbefore

theorem Sessions.opens (h : w.Sessions) {request : StreamRequest} :
    (w.step svc config (.opens request)).Sessions := by
  obtain ⟨hserved, hopened⟩ :=
    Service.openStateStream_spec svc config request h.healthy
  have hp := hserved.healthy h.healthy
  have hsame : SameLedger w.process.store
      (finalState (svc.openStateStream config request) w.process).store := by
    rw [hserved.store]
    exact .refl
  have hkept := h.of_same hp hsame
  simp only [step]
  cases houtcome : outcome (svc.openStateStream config request) w.process with
  | error err => exact hkept
  | ok d =>
    obtain ⟨hscope, start, limits, filters, htwin, hopen⟩ := hopened d houtcome
    have hstart : d.position = start := by
      obtain ⟨-, rfl⟩ := Handoff.open_ok hopen
      rfl
    have hnew := Handoff.kept_opened h.healthy.sound.valid hopen
    rw [← hserved.store] at hnew
    refine ⟨hp, fun session hsession => ?_, fun session hsession hlive T hT => ?_⟩
    · rcases List.mem_append.1 hsession with hold | hnewest
      · exact hkept.following session hold
      · obtain rfl := List.mem_singleton.1 hnewest
        rw [hstart]
        exact hnew
    · rcases List.mem_append.1 hsession with hold | hnewest
      · exact hkept.confined session hold hlive T hT
      · obtain rfl := List.mem_singleton.1 hnewest
        have hopenTo := hscope T hT
        rw [← htwin, ← hstart, ← hsame.latest] at hopenTo
        exact hopenTo

theorem Sessions.session (h : w.Sessions) {i : Nat} {move : ReaderMove}
    (hgenuine : w.Genuine (.session i move)) :
    (w.step svc config (.session i move)).Sessions := by
  simp only [step]
  cases hi : w.sessions[i]? with
  | none => exact h
  | some session =>
    have hmem : session ∈ w.sessions := List.mem_of_getElem? hi
    have hs := h.healthy.sound.valid
    obtain ⟨hf, hw⟩ := h.following session hmem
    have hpublished : ∀ e, move = .publish e → e ∈ w.process.store.stream e.twinId := by
      rintro e rfl
      exact hgenuine
    refine ⟨h.healthy, fun other hother => ?_, fun other hother hlive T hT => ?_⟩
    · rcases List.mem_or_eq_of_mem_set hother with hold | rfl
      · exact h.following other hold
      · exact Reader.kept_step hs hf hw hpublished
    · rcases List.mem_or_eq_of_mem_set hother with hold | rfl
      · exact h.confined other hold hlive T hT
      · have htwin : (session.step w.process.store move).twinId = session.twinId :=
          congrArg StreamPosition.twinId (Reader.steady_step hs hf hw move).start
        have hopenTo := h.confined session hmem (fun hfinished =>
          hlive (StateSession.finished_step hfinished).1) T hT
        rw [← htwin] at hopenTo
        exact hopenTo

/-- A signer for streams that are opened at the origin. -/
def originSigner : CursorSigner where
  issue position := position.eventHash
  verify _ _ := .error (.resumeCursorRejected "resume cursor signature is invalid")
  chainTag _ := none

def secondOne : AppendReadings := ⟨1, 1, 1, 1, ⟨1, fun _ => 1, fun _ => none⟩⟩

def signed : StreamConfig := { cursorSigner := some originSigner }

end Streaming

end ArgoTwin
