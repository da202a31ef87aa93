import ArgoTwin.LedgerRuns
import ArgoTwin.Sync
/-!
# One reader of a stream

A reader holds a durable subscription and calls `__anext__`, one call at a
time, while the ledger grows, the broker publishes what it likes of the
ledger, and acknowledgements come in. Whatever it is given, it hands out
the ledger's events in turn (`reader_delivers`), and what it lets the
client resume from is what the client acknowledged (`reader_window`).
-/

namespace ArgoTwin

open Library

/-! ## The machine -/

/-- Where a call of `__anext__` is. -/
inductive ReadState where
  | idle
  | running
  | waiting
  deriving DecidableEq

/-- A durable subscription in use: where it was opened, the events it went
over and handed out so far, and the acknowledgements it took. -/
structure Reader where
  start : StreamPosition
  sub : DurableSubscription
  state : ReadState := .idle
  verified : List EventEnvelope := []
  delivered : List EventEnvelope := []
  acknowledgements : List StreamPosition := []

/-- A cursor as it was signed. -/
structure DecodedCursor where
  twinId : String
  sequence : Int
  chainTag : String
  issuedAt : DateTime
  signingKeyId : String := "default"

/-- The cursor contract of the signers. -/
structure CursorCodec where
  issue : StreamPosition → String
  verify : String → String → Except PyError DecodedCursor
  verifyChainBinding : DecodedCursor → StreamPosition → Except PyError StreamPosition

inductive ReaderMove where
  | call
  | turn
  | cancel
  | publish (e : EventEnvelope)
  | acknowledge (position : StreamPosition)
  | acknowledgeToken (codec : CursorCodec) (token : String)
  | close

/-- `StateStreamSession.acknowledge`: the position a token stands for. -/
def DurableSubscription.acknowledgeToken (d : DurableSubscription) (codec : CursorCodec)
    (token : String) : Except PyError (DurableSubscription × StreamPosition) := do
  let decoded ← codec.verify token d.position.twinId
  let candidate ← d.acknowledgementCandidate decoded.sequence
  d.acknowledge (← codec.verifyChainBinding decoded candidate)

namespace Reader

/-- The call goes on with what a turn came to. -/
def after (r : Reader) : DurableSubscription × Turn → Reader
  | (d, .again) => { r with sub := d, state := .running }
  | (d, .waits) => { r with sub := d, state := .waiting }
  | (d, .skipped e) =>
    { r with sub := d, state := .running, verified := r.verified ++ [e] }
  | (d, .delivered e) =>
    { r with
      sub := d, state := .idle, verified := r.verified ++ [e], delivered := r.delivered ++ [e] }
  | (d, .raised _) => { r with sub := d, state := .idle }

/-- An acknowledgement that was taken, or refused. -/
def taken (r : Reader) : Except PyError (DurableSubscription × StreamPosition) → Reader
  | .ok (d, position) =>
    { r with sub := d, acknowledgements := r.acknowledgements ++ [position] }
  | .error _ => r

variable [Digest]

def step (store : Store) (r : Reader) : ReaderMove → Reader
  | .call =>
    match r.state, r.sub.begin with
    | .idle, (d, .ok ()) => { r with sub := d, state := .running }
    | .idle, (d, .error _) => { r with sub := d }
    | _, _ => r
  | .turn =>
    match r.state with
    | .idle => r
    | .running => r.after (DurableSubscription.conclude (r.sub.nextCandidate store))
    | .waiting => r.after (DurableSubscription.conclude (r.sub.resumed store))
  | .cancel => if r.state = .waiting then { r with state := .idle } else r
  | .publish e => { r with sub := { r.sub with live := r.sub.live.offer e } }
  | .acknowledge position => r.taken (r.sub.acknowledge position)
  | .acknowledgeToken codec token => r.taken (r.sub.acknowledgeToken codec token)
  | .close => { r with sub := r.sub.aclose }

end Reader

/-- A reader, and the ledger it reads. -/
structure Handoff where
  history : History
  reader : Reader

inductive HandoffMove where
  | ledger (op : StoreOp)
  | reader (move : ReaderMove)

namespace Handoff

variable [Digest]

def step (w : Handoff) : HandoffMove → Handoff
  | .ledger op => { w with history := w.history.step op }
  | .reader move => { w with reader := w.reader.step w.history.store move }

/-- Ledger calls carry aware times, and what is published was committed. -/
def Genuine (w : Handoff) : HandoffMove → Prop
  | .ledger op => TimesAware w.history op
  | .reader (.publish e) => e ∈ w.history.store.stream e.twinId
  | .reader _ => True

/-- A subscription just opened on a ledger. -/
def opened (history : History) (start : StreamPosition) (d : DurableSubscription) : Handoff :=
  { history := history, reader := { start := start, sub := d } }

end Handoff

/-! ## What one turn does -/

/-- The events of a stream past `after` and up to `upTo`. -/
def between (es : List EventEnvelope) (after upTo : Int) : List EventEnvelope :=
  es.filter fun e => after < e.sequence && e.sequence ≤ upTo

section Ledger

variable [Digest] {s s' : Store} {es more : List EventEnvelope} {e : EventEnvelope} {twinId : String}
variable {a b : Int}

omit [Digest] in
@[simp] theorem between_self : between es a a = [] := by
  rw [between, List.filter_eq_nil_iff]
  intro e _ hboth
  simp only [Bool.and_eq_true, decide_eq_true_eq] at hboth
  omega

/-- A stretch grows by the next event of the stream. -/
theorem between_next (hes : Store.Chained es) (he : e ∈ es) (hseq : e.sequence = b + 1)
    (hab : a ≤ b) : between es a e.sequence = between es a b ++ [e] := by
  obtain ⟨before, later, rfl⟩ := List.append_of_mem he
  have hpairs := Store.pairwise_sequence hes
  rw [List.pairwise_append, List.pairwise_cons] at hpairs
  obtain ⟨-, ⟨hlater, -⟩, hbefore⟩ := hpairs
  have hmine : (decide (a < e.sequence) && decide (e.sequence ≤ e.sequence)) = true := by
    simp only [le_refl, decide_true, Bool.and_true, decide_eq_true_eq]
    omega
  have hpast : (decide (a < e.sequence) && decide (e.sequence ≤ b)) = false := by
    simp only [Bool.and_eq_false_iff, decide_eq_false_iff_not]
    omega
  -- what comes before is within both bounds or neither, what comes later within none
  have hsame : before.filter (fun x => a < x.sequence && x.sequence ≤ e.sequence) =
      before.filter fun x => a < x.sequence && x.sequence ≤ b := by
    refine List.filter_congr fun x hx => ?_
    have hlt := hbefore x hx e List.mem_cons_self
    congr 1
    rw [decide_eq_decide]
    omega
  have hnone : ∀ n, n ≤ e.sequence →
      later.filter (fun x => a < x.sequence && x.sequence ≤ n) = [] := by
    intro n hn
    rw [List.filter_eq_nil_iff]
    intro x hx hboth
    have hlt := hlater x hx
    simp only [Bool.and_eq_true, decide_eq_true_eq] at hboth
    omega
  simp only [between, List.filter_append, List.filter_cons, hmine, hpast, hsame,
    hnone e.sequence le_rfl, hnone b (by omega)]
  simp

/-- Later events leave a stretch the stream already covers. -/
theorem between_extends (hs' : Store.Chained (es ++ more)) (hb : b ≤ es.length) :
    between (es ++ more) a b = between es a b := by
  have hnone : more.filter (fun x => a < x.sequence && x.sequence ≤ b) = [] := by
    rw [List.filter_eq_nil_iff]
    intro x hx hboth
    obtain ⟨hes, hmore⟩ := linked_append.1 hs'
    have hlt := (Store.mem_sequence hmore hx).1
    rw [Store.endOf_sequence hes] at hlt
    simp only [Bool.and_eq_true, decide_eq_true_eq] at hboth
    simp only [Int.zero_add] at hlt
    omega
  rw [between, List.filter_append, hnone, List.append_nil, between]

/-- A page is a part of the stream, and no longer than asked. -/
theorem loadPage_spec (hs : s.Valid) {upTo : Option Int} {limit : Nat}
    {page : List EventEnvelope} (h : s.loadPage twinId a upTo limit = .ok page) :
    (∀ e ∈ page, e ∈ s.stream twinId) ∧ page.length ≤ limit := by
  unfold Store.loadPage at h
  split at h
  · obtain rfl := Except.ok.inj h
    simp
  · obtain ⟨after, -, h⟩ := bind_eq_ok.1 h
    obtain ⟨last, -, h⟩ := bind_eq_ok.1 h
    obtain ⟨bound, hbound, h⟩ := bind_eq_ok.1 h
    obtain ⟨rfl, -⟩ := Store.bindInteger_eq_ok.1 hbound
    dsimp only at h
    rw [hs.bySequence_filter, Store.mapM_rowToEvent] at h
    · obtain rfl := Except.ok.inj h
      constructor
      · intro e he
        obtain ⟨row, hrow, rfl⟩ := List.mem_map.1 he
        exact List.mem_map.2 ⟨row, List.mem_of_mem_filter (List.mem_of_mem_take hrow), rfl⟩
      · simp
    · intro row hrow
      exact hs.admitted_rowsOf (List.mem_of_mem_filter (List.mem_of_mem_take hrow))

end Ledger

/-- The event follows the position, and the next one is the event's. -/
structure Advanced [Digest] (before : StreamPosition) (e : EventEnvelope)
    (after : StreamPosition) : Prop where
  twin : e.twinId = before.twinId
  sequence : e.sequence = before.sequence + 1
  verified : e.verify before.eventHash = .ok ()
  position : after.twinId = e.twinId ∧ after.sequence = e.sequence ∧
    after.eventHash = e.eventHash

namespace DurableSubscription

/-- All a subscription holds is of the stream. -/
structure Genuine (s : Store) (twinId : String) (d : DurableSubscription) : Prop where
  twin : d.position.twinId = twinId
  live_twin : d.live.twinId = twinId
  queue : ∀ e, some e ∈ d.live.queue → e ∈ s.stream twinId
  buffer : ∀ e ∈ d.replayBuffer, e ∈ s.stream twinId
  deferred : ∀ e, d.deferredLive = some e → e ∈ s.stream twinId

/-- What no turn of the candidate loop touches. -/
structure SameWindow (d d' : DurableSubscription) : Prop where
  acknowledged : d'.acknowledged = d.acknowledged
  outstanding : d'.outstanding = d.outstanding
  limits : d'.limits = d.limits
  filters : d'.filters = d.filters

/-- Closing leaves it alone too, -/
theorem SameWindow.aclose (d : DurableSubscription) : SameWindow d d.aclose := by
  unfold DurableSubscription.aclose
  split_ifs <;> exact ⟨rfl, rfl, rfl, rfl⟩

theorem SameWindow.trans {d d' d'' : DurableSubscription} (h : SameWindow d d')
    (h' : SameWindow d' d'') : SameWindow d d'' :=
  ⟨h'.acknowledged.trans h.acknowledged, h'.outstanding.trans h.outstanding,
    h'.limits.trans h.limits, h'.filters.trans h.filters⟩

/-- and the place in the stream and the page in hand. -/
theorem aclose_place (d : DurableSubscription) :
    d.aclose.position = d.position ∧ d.aclose.replayBuffer = d.replayBuffer := by
  unfold DurableSubscription.aclose
  split_ifs <;> exact ⟨rfl, rfl⟩

/-- **What a turn does**: it holds on to the stream, leaves the window
alone, keeps the buffer within a page, and moves the position over an event
it found, which the stream has. -/
structure Turned [Digest] (s : Store) (d : DurableSubscription)
    (result : DurableSubscription × Candidate) : Prop where
  genuine : result.1.Genuine s d.position.twinId
  window : SameWindow d result.1
  page : d.replayBuffer.length ≤ d.limits.replayPageSize →
    result.1.replayBuffer.length ≤ d.limits.replayPageSize
  found : ∀ e, result.2 = .found e →
    e ∈ s.stream d.position.twinId ∧ Advanced d.position e result.1.position
  stayed : (∀ e, result.2 ≠ .found e) → result.1.position = d.position

variable [Digest] {s : Store} {d d' : DurableSubscription} {e : EventEnvelope}
variable {twinId : String}

theorem advanceVerified_ok (h : d.advanceVerified e = .ok d') :
    d' = { d with position := d'.position } ∧ Advanced d.position e d'.position := by
  unfold advanceVerified at h
  simp only at h
  split at h
  · cases h
  · rename_i hexpected
    rw [not_or, not_not, not_not] at hexpected
    obtain ⟨_, hverify, position, hposition, hd'⟩ := (by simpa only [bind_eq_ok] using h)
    obtain rfl := Except.ok.inj hd'
    unfold StreamPosition.new at hposition
    split_ifs at hposition
    obtain rfl := Except.ok.inj hposition
    exact ⟨rfl, hexpected.1, hexpected.2, hverify, rfl, rfl, rfl⟩

theorem turned_advance (h : d.Genuine s d.position.twinId)
    (he : e ∈ s.stream d.position.twinId) : Turned s d (d.advance e) := by
  unfold advance
  split
  · rename_i after hafter
    obtain ⟨hsame, hadvanced⟩ := advanceVerified_ok hafter
    have htwin : after.position.twinId = d.position.twinId :=
      hadvanced.position.1.trans hadvanced.twin
    rw [hsame]
    exact
      { genuine := ⟨htwin, h.live_twin, h.queue, h.buffer, h.deferred⟩
        window := ⟨rfl, rfl, rfl, rfl⟩
        page := id
        found := fun e' heq => by cases heq; exact ⟨he, hadvanced⟩
        stayed := fun hnone => absurd rfl (hnone e) }
  · exact
      { genuine := h
        window := ⟨rfl, rfl, rfl, rfl⟩
        page := id
        found := fun _ heq => by cases heq
        stayed := fun _ => rfl }

theorem turned_takeLive (h : d.Genuine s d.position.twinId)
    (he : e ∈ s.stream d.position.twinId) : Turned s d (takeLive s d e) := by
  have hstays : ∀ c : Candidate, (∀ e, c ≠ .found e) → Turned s d (d, c) := fun c hc =>
    { genuine := h
      window := ⟨rfl, rfl, rfl, rfl⟩
      page := id
      found := fun e heq => absurd heq (hc e)
      stayed := fun _ => rfl }
  unfold takeLive
  split_ifs
  · exact hstays _ (by simp)
  · exact hstays _ (by simp)
  · exact
      { genuine := ⟨rfl, h.live_twin, h.queue, h.buffer, fun e' heq => by cases heq; exact he⟩
        window := ⟨rfl, rfl, rfl, rfl⟩
        page := id
        found := fun _ heq => by cases heq
        stayed := fun _ => rfl }
  · exact turned_advance h he

omit [Digest] in
/-- What polling the queue takes from it. -/
theorem genuine_poll (h : d.Genuine s twinId) :
    ({ d with live := d.live.poll.1 } : DurableSubscription).Genuine s twinId ∧
      ∀ e, d.live.poll.2 = .event e → e ∈ s.stream twinId := by
  have hqueue := h.queue
  unfold Subscription.poll
  split
  · exact ⟨h, fun e heq => by cases heq⟩
  · rename_i rest hrest
    refine ⟨⟨h.twin, h.live_twin, fun e he => hqueue e ?_, h.buffer, h.deferred⟩,
      fun e heq => by cases heq⟩
    rw [hrest]
    exact List.mem_cons_of_mem _ he
  · rename_i e rest hrest
    refine ⟨⟨h.twin, h.live_twin, fun e' he => hqueue e' ?_, h.buffer, h.deferred⟩, fun e' heq => ?_⟩
    · rw [hrest]
      exact List.mem_cons_of_mem _ he
    · cases heq
      exact hqueue e (by rw [hrest]; exact List.mem_cons_self)

theorem turned_afterPoll {polled : Subscription × Polled}
    (h : ({ d with live := polled.1 } : DurableSubscription).Genuine s d.position.twinId)
    (hevent : ∀ e, polled.2 = .event e → e ∈ s.stream d.position.twinId) :
    Turned s d (afterPoll s d polled) := by
  have hstays : ∀ (closed : Bool) (c : Candidate), (∀ e, c ≠ .found e) →
      Turned s d ({ d with live := polled.1, closed := closed }, c) := fun closed c hc =>
    { genuine := ⟨rfl, h.live_twin, h.queue, h.buffer, h.deferred⟩
      window := ⟨rfl, rfl, rfl, rfl⟩
      page := id
      found := fun e heq => absurd heq (hc e)
      stayed := fun _ => rfl }
  obtain ⟨live, result⟩ := polled
  cases result with
  | waits => exact hstays d.closed _ (by simp)
  | event e =>
    have hturned := turned_takeLive (d := { d with live := live }) h (hevent e rfl)
    exact ⟨hturned.genuine, ⟨hturned.window.acknowledged, hturned.window.outstanding,
      hturned.window.limits, hturned.window.filters⟩, hturned.page, hturned.found, hturned.stayed⟩
  | raised err =>
    cases err with
    | backpressureExceeded reason => exact hstays true _ (by simp)
    | _ => exact hstays d.closed _ (by simp)

theorem turned_resumed (h : d.Genuine s d.position.twinId) : Turned s d (d.resumed s) :=
  turned_afterPoll (genuine_poll h).1 (genuine_poll h).2

/-- **A turn of the candidate loop.** -/
theorem turned_nextCandidate (hs : s.Valid) (h : d.Genuine s d.position.twinId) :
    Turned s d (d.nextCandidate s) := by
  have hstays : ∀ c : Candidate, (∀ e, c ≠ .found e) → Turned s d (d, c) := fun c hc =>
    { genuine := h
      window := ⟨rfl, rfl, rfl, rfl⟩
      page := id
      found := fun e heq => absurd heq (hc e)
      stayed := fun _ => rfl }
  unfold nextCandidate
  split
  · -- the next event of the page read last
    rename_i e rest hbuffer
    have hmem : ∀ e' ∈ e :: rest, e' ∈ s.stream d.position.twinId := hbuffer ▸ h.buffer
    have hpopped : ({ d with replayBuffer := rest } : DurableSubscription).Genuine s
        d.position.twinId :=
      ⟨rfl, h.live_twin, h.queue, fun e' he' => hmem e' (List.mem_cons_of_mem _ he'), h.deferred⟩
    have hturned := turned_advance (d := { d with replayBuffer := rest }) hpopped
      (hmem e List.mem_cons_self)
    refine ⟨hturned.genuine, ⟨hturned.window.acknowledged, hturned.window.outstanding,
      hturned.window.limits, hturned.window.filters⟩, fun hpage => hturned.page ?_,
      hturned.found, hturned.stayed⟩
    rw [hbuffer, List.length_cons] at hpage
    exact Nat.le_of_succ_le hpage
  · rename_i hbuffer
    split_ifs
    · -- another page, where the captured head is not reached
      split
      · exact hstays _ (by simp)
      · exact hstays _ (by simp)
      · rename_i batch _ hpage
        obtain ⟨hmem, hlength⟩ := loadPage_spec hs hpage
        exact
          { genuine := ⟨rfl, h.live_twin, h.queue, hmem, h.deferred⟩
            window := ⟨rfl, rfl, rfl, rfl⟩
            page := fun _ => hlength
            found := fun _ heq => by cases heq
            stayed := fun _ => rfl }
    · split
      · -- the live event that showed a gap, once the gap is read
        rename_i e hdeferred
        have hcleared : ({ d with deferredLive := none } : DurableSubscription).Genuine s
            d.position.twinId :=
          ⟨rfl, h.live_twin, h.queue, h.buffer, fun _ heq => by cases heq⟩
        have hturned := turned_takeLive (d := { d with deferredLive := none }) hcleared
          (h.deferred e hdeferred)
        exact ⟨hturned.genuine, ⟨hturned.window.acknowledged, hturned.window.outstanding,
          hturned.window.limits, hturned.window.filters⟩, hturned.page, hturned.found,
          hturned.stayed⟩
      · unfold Subscription.next
        split
        · exact turned_afterPoll h (fun _ heq => by cases heq)
        · exact turned_afterPoll (genuine_poll h).1 (genuine_poll h).2

omit [Digest] in
/-- Closing a queue adds no event to it. -/
theorem mem_close {l : Subscription} {reason : Option String}
    (h : some e ∈ (l.close reason).queue) : some e ∈ l.queue := by
  unfold Subscription.close at h
  split_ifs at h
  · exact h
  · exact List.mem_of_mem_tail (by simpa using h)
  · simpa using h

omit [Digest] in
@[simp] theorem twinId_close {l : Subscription} {reason : Option String} :
    (l.close reason).twinId = l.twinId := by
  unfold Subscription.close
  split_ifs <;> rfl

omit [Digest] in
theorem Genuine.aclose (h : d.Genuine s twinId) : d.aclose.Genuine s twinId := by
  unfold DurableSubscription.aclose
  split_ifs
  · exact h
  · exact ⟨h.twin, twinId_close.trans h.live_twin, fun e he => h.queue e (mem_close he), h.buffer,
      h.deferred⟩

omit [Digest] in
/-- A published event of the stream may be queued. -/
theorem Genuine.offer (h : d.Genuine s twinId) (he : e ∈ s.stream e.twinId) :
    ({ d with live := d.live.offer e } : DurableSubscription).Genuine s twinId := by
  have hlive : (d.live.offer e).twinId = d.live.twinId := by
    unfold Subscription.offer
    split_ifs
    · rfl
    · exact twinId_close
    · rfl
  refine ⟨h.twin, hlive.trans h.live_twin, fun e' he' => ?_, h.buffer, h.deferred⟩
  unfold Subscription.offer at he'
  split_ifs at he' with hskipped
  · exact h.queue e' he'
  · exact h.queue e' (mem_close he')
  · rcases List.mem_append.1 he' with hold | hnew
    · exact h.queue e' hold
    · obtain rfl : e' = e := by simpa using hnew
      have htwin : d.live.twinId = e'.twinId := by
        by_contra hne
        exact hskipped (.inr (.inl hne))
      rw [← h.live_twin, htwin]
      exact he

end DurableSubscription

/-! ## What a reader went over -/

namespace Reader

open DurableSubscription

/-- The reader went over the stream from its start up to its position, each
event verified against the one before, and handed out those it wants. -/
structure Following [Digest] (s : Store) (r : Reader) : Prop where
  genuine : r.sub.Genuine s r.start.twinId
  reached : r.start.sequence ≤ r.sub.position.sequence
  within : r.sub.position.sequence ≤ (s.stream r.start.twinId).length
  verified : r.verified =
    between (s.stream r.start.twinId) r.start.sequence r.sub.position.sequence
  delivered : r.delivered = r.verified.filter r.sub.filters.wants
  chain : Linked (fun previous e => e.verify previous = .ok ()) (·.eventHash)
    r.start.eventHash r.verified
  last : r.sub.position.eventHash = endOf (·.eventHash) r.start.eventHash r.verified

/-- What is outstanding was handed out past the acknowledged position, and
what was handed out up to there is covered by an acknowledgement. -/
structure Windowed (r : Reader) : Prop where
  started : r.start.sequence ≤ r.sub.acknowledged.sequence
  behind : r.sub.acknowledged.sequence ≤ r.sub.position.sequence
  outstanding : r.sub.outstanding.map (·.sequence) =
    (r.delivered.map (·.sequence)).filter fun n => r.sub.acknowledged.sequence < n
  covered : ∀ e ∈ r.delivered, e.sequence ≤ r.sub.acknowledged.sequence →
    ∃ position ∈ r.acknowledgements, e.sequence ≤ position.sequence
  window : r.sub.outstanding.length ≤ r.sub.limits.maxInFlight
  room : r.state ≠ .idle → r.sub.outstanding.length < r.sub.limits.maxInFlight
  page : r.sub.replayBuffer.length ≤ r.sub.limits.replayPageSize

variable [Digest] {s s' : Store} {r : Reader} {d : DurableSubscription} {e : EventEnvelope}
variable {result : DurableSubscription × Candidate}

/-- What was handed out lies between the start and the position. -/
theorem Following.delivered_between (h : r.Following s) (he : e ∈ r.delivered) :
    r.start.sequence < e.sequence ∧ e.sequence ≤ r.sub.position.sequence := by
  rw [h.delivered, h.verified] at he
  have hboth := (List.mem_filter.1 (List.mem_filter.1 he).1).2
  simpa using hboth

/-- And it was handed out in order. -/
theorem Following.delivered_pairwise (hs : s.Valid) (h : r.Following s) :
    (r.delivered.map (·.sequence)).Pairwise (· < ·) := by
  rw [h.delivered, h.verified, List.pairwise_map]
  exact ((Store.pairwise_sequence (hs.chained_stream r.start.twinId)).filter _).filter _

/-- A reader's stream may grow. -/
theorem Following.of_extends (h : r.Following s) (hs' : s'.Valid) (hext : Extends s s') :
    r.Following s' := by
  have hmem : ∀ e, e ∈ s.stream r.start.twinId → e ∈ s'.stream r.start.twinId :=
    fun e he => (hext r.start.twinId).subset he
  obtain ⟨more, hmore⟩ := hext r.start.twinId
  have hchain := hs'.chained_stream r.start.twinId
  rw [← hmore] at hchain
  refine
    { h with
      genuine := ⟨h.genuine.twin, h.genuine.live_twin, fun e he => hmem e (h.genuine.queue e he),
        fun e he => hmem e (h.genuine.buffer e he), fun e he => hmem e (h.genuine.deferred e he)⟩
      within := ?_
      verified := ?_ }
  · rw [← hmore, List.length_append]
    exact h.within.trans (by exact_mod_cast Nat.le_add_right _ _)
  · rw [← hmore, between_extends hchain h.within, h.verified]

/-- The position moved over the next event. -/
theorem Following.next (hs : s.Valid) (h : r.Following s)
    (hfilters : d.filters = r.sub.filters) (he : e ∈ s.stream r.start.twinId)
    (hadvanced : Advanced r.sub.position e d.position) {r' : Reader}
    (hstart : r'.start = r.start) (hsub : r'.sub.position = d.position)
    (hgenuine' : r'.sub.Genuine s r.start.twinId) (hfilters' : r'.sub.filters = d.filters)
    (hverified : r'.verified = r.verified ++ [e])
    (hdelivered : r'.delivered = r.delivered ++ [e].filter r.sub.filters.wants) :
    r'.Following s := by
  have hseq : d.position.sequence = e.sequence := hadvanced.position.2.1
  have hwithin := (Store.mem_sequence (hs.chained_stream r.start.twinId) he).2
  simp only [Int.zero_add] at hwithin
  refine
    { genuine := by rw [hstart]; exact hgenuine'
      reached := ?_, within := ?_, verified := ?_, delivered := ?_, chain := ?_, last := ?_ }
  · have hreached := h.reached
    rw [hstart, hsub, hseq, hadvanced.sequence]
    omega
  · rw [hstart, hsub, hseq]
    exact hwithin
  · rw [hverified, h.verified, hstart, hsub, hseq,
      between_next (hs.chained_stream _) he hadvanced.sequence h.reached]
  · rw [hdelivered, hverified, List.filter_append, h.delivered, hfilters', hfilters]
  · rw [hverified, hstart]
    exact linked_concat.2 ⟨h.chain, h.last ▸ hadvanced.verified⟩
  · rw [hverified, hsub, hstart, endOf_concat, hadvanced.position.2.2]

/-- The position stayed. -/
theorem Following.stay (h : r.Following s) {r' : Reader} (hstart : r'.start = r.start)
    (hsub : r'.sub.position = r.sub.position) (hgenuine : r'.sub.Genuine s r.start.twinId)
    (hfilters : r'.sub.filters = r.sub.filters) (hverified : r'.verified = r.verified)
    (hdelivered : r'.delivered = r.delivered) : r'.Following s := by
  constructor
  · rw [hstart]
    exact hgenuine
  · rw [hstart, hsub]
    exact h.reached
  · rw [hstart, hsub]
    exact h.within
  · rw [hverified, hstart, hsub, h.verified]
  · rw [hdelivered, hverified, hfilters, h.delivered]
  · rw [hverified, hstart]
    exact h.chain
  · rw [hverified, hstart, hsub, h.last]

/-- **A turn of `__anext__` follows the stream.** -/
theorem following_after (hs : s.Valid) (h : r.Following s) (hturned : Turned s r.sub result) :
    (r.after (conclude result)).Following s := by
  have htwin := h.genuine.twin
  have hgenuine := hturned.genuine
  have hwindow := hturned.window
  rw [htwin] at hgenuine
  obtain ⟨d, c⟩ := result
  have hstays : (∀ e, c ≠ .found e) → ∀ (d' : DurableSubscription) (state : ReadState),
      d'.position = d.position → d'.Genuine s r.start.twinId → d'.filters = d.filters →
      Following s { r with sub := d', state := state } := by
    intro hc d' state hposition hgenuine' hfilters'
    exact h.stay rfl (hposition.trans (hturned.stayed hc)) hgenuine'
      (hfilters'.trans hwindow.filters) rfl rfl
  cases c with
  | again => exact hstays (by simp) d _ rfl hgenuine rfl
  | waits => exact hstays (by simp) d _ rfl hgenuine rfl
  | found e =>
    obtain ⟨he, hadvanced⟩ := hturned.found e rfl
    rw [htwin] at he
    unfold conclude DurableSubscription.sift
    by_cases hwants : d.filters.wants e = true
    · have hsame : ({ d with outstanding := d.outstanding ++ [d.position] } :
          DurableSubscription).Genuine s r.start.twinId :=
        ⟨hgenuine.twin, hgenuine.live_twin, hgenuine.queue, hgenuine.buffer, hgenuine.deferred⟩
      simp only [hwants, ↓reduceIte]
      refine h.next hs hwindow.filters he hadvanced rfl rfl hsame rfl rfl ?_
      rw [← hwindow.filters]
      simp [after, hwants]
    · simp only [hwants, Bool.false_eq_true, ↓reduceIte]
      have hskipped : d.advanceAckOverFilteredEvent.position = d.position ∧
          d.advanceAckOverFilteredEvent.Genuine s r.start.twinId ∧
          d.advanceAckOverFilteredEvent.filters = d.filters := by
        unfold advanceAckOverFilteredEvent
        split_ifs
        · exact ⟨rfl, ⟨hgenuine.twin, hgenuine.live_twin, hgenuine.queue, hgenuine.buffer,
            hgenuine.deferred⟩, rfl⟩
        · exact ⟨rfl, hgenuine, rfl⟩
      refine h.next hs hwindow.filters he hadvanced rfl hskipped.1 hskipped.2.1
        hskipped.2.2 rfl ?_
      rw [← hwindow.filters]
      simp [after, hwants]
  | raised err =>
    cases err with
    | integrityError message =>
      exact hstays (by simp) _ _ (aclose_place d).1 hgenuine.aclose (SameWindow.aclose d).filters
    | _ => exact hstays (by simp) d _ rfl hgenuine rfl

omit [Digest] in
/-- A step that leaves the window alone. -/
theorem Windowed.stay (h : r.Windowed) {r' : Reader} (hstart : r'.start = r.start)
    (hposition : r'.sub.position = r.sub.position) (hwindow : SameWindow r.sub r'.sub)
    (hdelivered : r'.delivered = r.delivered)
    (hacks : r.acknowledgements ⊆ r'.acknowledgements)
    (hpage : r'.sub.replayBuffer.length ≤ r.sub.limits.replayPageSize)
    (hroom : r'.state ≠ .idle → r.sub.outstanding.length < r.sub.limits.maxInFlight) :
    r'.Windowed := by
  obtain ⟨hacknowledged, houtstanding, hlimits, -⟩ := hwindow
  constructor
  · rw [hstart, hacknowledged]
    exact h.started
  · rw [hacknowledged, hposition]
    exact h.behind
  · rw [houtstanding, hdelivered, hacknowledged, h.outstanding]
  · rw [hdelivered, hacknowledged]
    intro e he hle
    obtain ⟨position, hmem, hcovers⟩ := h.covered e he hle
    exact ⟨position, hacks hmem, hcovers⟩
  · rw [houtstanding, hlimits]
    exact h.window
  · rw [houtstanding, hlimits]
    exact hroom
  · rw [hlimits]
    exact hpage

omit [Digest] in
/-- Where nothing is outstanding, all that was handed out is covered. -/
theorem Windowed.settled (h : r.Windowed) (hnone : r.sub.outstanding = []) (he : e ∈ r.delivered) :
    e.sequence ≤ r.sub.acknowledged.sequence := by
  have hempty := h.outstanding
  rw [hnone, List.map_nil, eq_comm, List.filter_eq_nil_iff] at hempty
  have hnot := hempty e.sequence (List.mem_map_of_mem he)
  simpa using hnot

/-- **A turn of `__anext__` keeps the window.** -/
theorem windowed_after (h : r.Windowed) (hstate : r.state ≠ .idle)
    (hturned : Turned s r.sub result) : (r.after (conclude result)).Windowed := by
  have hwindow := hturned.window
  have hpage := hturned.page h.page
  have hroom := h.room hstate
  obtain ⟨d, c⟩ := result
  have hstays : (∀ e, c ≠ .found e) → ∀ (d' : DurableSubscription) (state : ReadState),
      d'.position = d.position → SameWindow d d' → d'.replayBuffer = d.replayBuffer →
      Windowed { r with sub := d', state := state } := by
    intro hc d' state hposition hsame hbuffer
    refine h.stay rfl (hposition.trans (hturned.stayed hc)) (hwindow.trans hsame) rfl
      (List.Subset.refl _) ?_ fun _ => hroom
    rw [hbuffer]
    exact hpage
  have hsame : SameWindow d d := ⟨rfl, rfl, rfl, rfl⟩
  cases c with
  | again => exact hstays (by simp) d _ rfl hsame rfl
  | waits => exact hstays (by simp) d _ rfl hsame rfl
  | raised err =>
    cases err with
    | integrityError message =>
      exact hstays (by simp) _ _ (aclose_place d).1 (.aclose d) (aclose_place d).2
    | _ => exact hstays (by simp) d _ rfl hsame rfl
  | found e =>
    obtain ⟨-, hadvanced⟩ := hturned.found e rfl
    obtain ⟨hacknowledged, houtstanding, hlimits, -⟩ := hwindow
    simp only at hadvanced hacknowledged houtstanding hlimits hpage
    have hseq : d.position.sequence = r.sub.position.sequence + 1 :=
      hadvanced.position.2.1.trans hadvanced.sequence
    have hbehind := h.behind
    unfold conclude DurableSubscription.sift
    by_cases hwants : d.filters.wants e = true
    · -- the event is handed out: its position is put behind the outstanding ones
      simp only [hwants, ↓reduceIte, after]
      refine
        { started := ?_, behind := ?_, outstanding := ?_, covered := ?_, window := ?_
          room := fun habsurd => absurd rfl habsurd, page := ?_ }
      · simpa only [hacknowledged] using h.started
      · simp only [hacknowledged, hseq]
        omega
      · have hnew : r.sub.acknowledged.sequence < e.sequence := by
          rw [hadvanced.sequence]
          omega
        simp only [List.map_append, List.filter_append, hacknowledged, houtstanding, h.outstanding,
          List.map_cons, List.map_nil, hadvanced.position.2.1, List.filter_cons, hnew, decide_true,
          ↓reduceIte, List.filter_nil]
      · simp only [hacknowledged]
        intro e' he' hle
        rcases List.mem_append.1 he' with hold | hnew
        · exact h.covered e' hold hle
        · obtain rfl : e' = e := by simpa using hnew
          have hsequence := hadvanced.sequence
          omega
      · simp only [houtstanding, hlimits, List.length_append, List.length_singleton]
        omega
      · simp only [hlimits]
        exact hpage
    · simp only [hwants, Bool.false_eq_true, ↓reduceIte, after]
      unfold advanceAckOverFilteredEvent
      split_ifs with hempty
      · -- nothing outstanding: the acknowledged position follows
        have hnone : r.sub.outstanding = [] := by
          rw [← houtstanding]
          exact List.isEmpty_iff.1 hempty
        have hpast : ∀ e' ∈ r.delivered, e'.sequence ≤ r.sub.acknowledged.sequence :=
          fun e' he' => h.settled hnone he'
        have hstarted := h.started
        refine
          { started := ?_, behind := le_rfl, outstanding := ?_, covered := ?_, window := ?_
            room := fun _ => ?_, page := ?_ }
        · simp only [hseq]
          omega
        · simp only [List.isEmpty_iff.1 hempty, List.map_nil]
          rw [eq_comm, List.filter_eq_nil_iff]
          intro n hn hlt
          obtain ⟨e', he', rfl⟩ := List.mem_map.1 hn
          have hle := hpast e' he'
          simp only [decide_eq_true_eq] at hlt
          omega
        · exact fun e' he' _ => h.covered e' he' (hpast e' he')
        · simp only [houtstanding, hlimits]
          exact h.window
        · simp only [houtstanding, hlimits]
          exact hroom
        · simp only [hlimits]
          exact hpage
      · -- something is: the acknowledged position stays behind the event skipped
        refine
          { started := ?_, behind := ?_, outstanding := ?_, covered := ?_, window := ?_
            room := fun _ => ?_, page := ?_ }
        · simpa only [hacknowledged] using h.started
        · simp only [hacknowledged, hseq]
          omega
        · simp only [houtstanding, hacknowledged]
          exact h.outstanding
        · simpa only [hacknowledged] using h.covered
        · simp only [houtstanding, hlimits]
          exact h.window
        · simp only [houtstanding, hlimits]
          exact hroom
        · simp only [hlimits]
          exact hpage

omit [Digest] in
/-- Cutting the front of a rising list is cutting by value. -/
theorem map_dropWhile {l : List StreamPosition} {n : Int}
    (h : (l.map (·.sequence)).Pairwise (· < ·)) :
    (l.dropWhile fun item => item.sequence ≤ n).map (·.sequence) =
      (l.map (·.sequence)).filter fun m => n < m := by
  induction l with
  | nil => rfl
  | cons item l ih =>
    rw [List.map_cons, List.pairwise_cons] at h
    by_cases hle : item.sequence ≤ n
    · have hnot : ¬ n < item.sequence := by omega
      simp only [List.dropWhile_cons, hle, decide_true, ↓reduceIte, List.map_cons,
        List.filter_cons, hnot, decide_false, Bool.false_eq_true, ih h.2]
    · have hall : ∀ m ∈ (item :: l).map (·.sequence), n < m := by
        intro m hm
        rcases List.mem_cons.1 hm with rfl | hm
        · show n < item.sequence
          omega
        · have hlt := h.1 m hm
          omega
      rw [List.filter_eq_self.2 fun m hm => decide_eq_true (hall m hm)]
      simp only [List.dropWhile_cons, hle, decide_false, Bool.false_eq_true, ↓reduceIte]

omit [Digest] in
/-- What an acknowledgement that is taken does. -/
theorem acknowledge_ok {position position' : StreamPosition}
    (h : r.sub.acknowledge position = .ok (d, position')) :
    (d = r.sub ∧ position'.sequence = r.sub.acknowledged.sequence) ∨
      (position' = position ∧ r.sub.acknowledged.sequence < position.sequence ∧
        (∃ item ∈ r.sub.outstanding, item.sequence = position.sequence) ∧
        d = { r.sub with
          acknowledged := position
          outstanding := r.sub.outstanding.dropWhile
            fun item => item.sequence ≤ position.sequence }) := by
  unfold DurableSubscription.acknowledge at h
  split_ifs at h with htwin hback hsame hhash
  · obtain ⟨rfl, rfl⟩ := Prod.mk.inj (Except.ok.inj h)
    exact .inl ⟨rfl, rfl⟩
  · split at h
    · cases h
    · rename_i item hitem
      split_ifs at h
      obtain ⟨rfl, rfl⟩ := Prod.mk.inj (Except.ok.inj h)
      have hmatched := List.find?_some hitem
      simp only [decide_eq_true_eq] at hmatched
      exact .inr ⟨rfl, by omega, ⟨item, List.mem_of_find?_eq_some hitem, hmatched⟩, rfl⟩

omit [Digest] in
/-- A token acknowledges the position it stands for. -/
theorem acknowledgeToken_ok {codec : CursorCodec} {token : String} {position : StreamPosition}
    (h : r.sub.acknowledgeToken codec token = .ok (d, position)) :
    ∃ position', r.sub.acknowledge position' = .ok (d, position) := by
  simp only [acknowledgeToken, bind_eq_ok] at h
  obtain ⟨-, -, -, -, position', -, hok⟩ := h
  exact ⟨position', hok⟩

/-- **An acknowledgement keeps the window**, and what a reader went over. -/
theorem kept_acknowledge (hs : s.Valid) (hf : r.Following s) (h : r.Windowed)
    {position position' : StreamPosition}
    (hok : r.sub.acknowledge position = .ok (d, position')) :
    (r.taken (.ok (d, position'))).Following s ∧ (r.taken (.ok (d, position'))).Windowed := by
  rcases acknowledge_ok hok with ⟨rfl, -⟩ | ⟨rfl, hforward, ⟨item, hitem, hseq⟩, rfl⟩
  · refine ⟨hf.stay rfl rfl hf.genuine rfl rfl rfl, h.stay rfl rfl ⟨rfl, rfl, rfl, rfl⟩ rfl ?_
      h.page h.room⟩
    exact List.subset_append_left _ _
  · refine ⟨hf.stay rfl rfl ⟨hf.genuine.twin, hf.genuine.live_twin, hf.genuine.queue,
      hf.genuine.buffer, hf.genuine.deferred⟩ rfl rfl rfl, ?_⟩
    -- the position acknowledged was handed out, so the stream is past it
    have hsequence : position'.sequence ∈ r.delivered.map (·.sequence) := by
      have hmem : item.sequence ∈ r.sub.outstanding.map (·.sequence) := List.mem_map_of_mem hitem
      rw [h.outstanding, hseq] at hmem
      exact List.mem_of_mem_filter hmem
    have hdelivered : position'.sequence ≤ r.sub.position.sequence := by
      obtain ⟨e, he, heq⟩ := List.mem_map.1 hsequence
      rw [← heq]
      exact (hf.delivered_between he).2
    have hrising : (r.sub.outstanding.map (·.sequence)).Pairwise (· < ·) := by
      rw [h.outstanding]
      exact (hf.delivered_pairwise hs).filter _
    have hshorter : (r.sub.outstanding.dropWhile
        fun item => item.sequence ≤ position'.sequence).length ≤ r.sub.outstanding.length :=
      (List.dropWhile_sublist _).length_le
    have hstarted := h.started
    simp only [taken]
    refine
      { started := ?_, behind := hdelivered, outstanding := ?_, covered := ?_, window := ?_
        room := fun hstate => ?_, page := h.page }
    · simp only
      omega
    · simp only
      rw [map_dropWhile hrising, h.outstanding, List.filter_filter]
      refine List.filter_congr fun n _ => ?_
      rw [← Bool.decide_and, decide_eq_decide]
      omega
    · intro e _ hle
      exact ⟨position', List.mem_append_right _ (List.mem_singleton_self _), hle⟩
    · exact hshorter.trans h.window
    · exact Nat.lt_of_le_of_lt hshorter (h.room hstate)

/-- **One step of a reader** keeps both. -/
theorem kept_step (hs : s.Valid) (hf : r.Following s) (h : r.Windowed) {move : ReaderMove}
    (hpublished : ∀ e, move = .publish e → e ∈ s.stream e.twinId) :
    (r.step s move).Following s ∧ (r.step s move).Windowed := by
  have hgenuine : r.sub.Genuine s r.sub.position.twinId := by
    rw [hf.genuine.twin]
    exact hf.genuine
  have hplace := aclose_place r.sub
  have hwindow := SameWindow.aclose r.sub
  have hclose : ∀ state, (state ≠ .idle → r.sub.outstanding.length < r.sub.limits.maxInFlight) →
      Following s { r with sub := r.sub.aclose, state := state } ∧
        Windowed { r with sub := r.sub.aclose, state := state } := by
    intro state hroom
    refine ⟨hf.stay rfl hplace.1 hf.genuine.aclose hwindow.filters rfl rfl,
      h.stay rfl hplace.1 hwindow rfl (List.Subset.refl _) ?_ hroom⟩
    rw [hplace.2]
    exact h.page
  have htaken : ∀ outcome : Except PyError (DurableSubscription × StreamPosition),
      (∀ d position, outcome = .ok (d, position) →
        ∃ position', r.sub.acknowledge position' = .ok (d, position)) →
      (r.taken outcome).Following s ∧ (r.taken outcome).Windowed := by
    intro outcome houtcome
    cases outcome with
    | error err => exact ⟨hf, h⟩
    | ok result =>
      obtain ⟨d, position⟩ := result
      obtain ⟨position', hok⟩ := houtcome d position rfl
      exact kept_acknowledge hs hf h hok
  cases move with
  | call =>
    unfold step DurableSubscription.begin
    cases hstate : r.state with
    | idle =>
      by_cases hdone : r.sub.closed = true
      · simp only [hdone, ↓reduceIte]
        exact ⟨hf.stay rfl rfl hf.genuine rfl rfl rfl,
          h.stay rfl rfl ⟨rfl, rfl, rfl, rfl⟩ rfl (List.Subset.refl _) h.page
            fun habsurd => absurd rfl habsurd⟩
      · by_cases hfull : r.sub.limits.maxInFlight ≤ r.sub.outstanding.length
        · -- a full window closes the stream before it looks for an event
          simp only [hdone, hfull, Bool.false_eq_true, ↓reduceIte]
          exact hclose .idle fun habsurd => absurd rfl habsurd
        · simp only [hdone, hfull, Bool.false_eq_true, ↓reduceIte]
          refine ⟨hf.stay rfl rfl hf.genuine rfl rfl rfl,
            h.stay rfl rfl ⟨rfl, rfl, rfl, rfl⟩ rfl (List.Subset.refl _) h.page fun _ => ?_⟩
          omega
    | running => exact ⟨hf, h⟩
    | waiting => exact ⟨hf, h⟩
  | turn =>
    unfold step
    cases hstate : r.state with
    | idle => exact ⟨hf, h⟩
    | running =>
      have hturned := turned_nextCandidate hs hgenuine
      exact ⟨following_after hs hf hturned, windowed_after h (by simp [hstate]) hturned⟩
    | waiting =>
      have hturned := turned_resumed hgenuine
      exact ⟨following_after hs hf hturned, windowed_after h (by simp [hstate]) hturned⟩
  | cancel =>
    unfold step
    split_ifs
    · exact ⟨hf.stay rfl rfl hf.genuine rfl rfl rfl,
        h.stay rfl rfl ⟨rfl, rfl, rfl, rfl⟩ rfl (List.Subset.refl _) h.page
          fun habsurd => absurd rfl habsurd⟩
    · exact ⟨hf, h⟩
  | publish e =>
    exact ⟨hf.stay rfl rfl (hf.genuine.offer (hpublished e rfl)) rfl rfl rfl,
      h.stay rfl rfl ⟨rfl, rfl, rfl, rfl⟩ rfl (List.Subset.refl _) h.page h.room⟩
  | acknowledge position =>
    exact htaken _ fun d position' hok => ⟨position, hok⟩
  | acknowledgeToken codec token =>
    exact htaken _ fun _ _ => acknowledgeToken_ok
  | close => exact hclose r.state h.room

/-- What a step never changes, and the acknowledged position, which only
rises. -/
structure Steady (r r' : Reader) : Prop where
  start : r'.start = r.start
  limits : r'.sub.limits = r.sub.limits
  filters : r'.sub.filters = r.sub.filters
  acknowledged : r.sub.acknowledged.sequence ≤ r'.sub.acknowledged.sequence

omit [Digest] in
theorem Steady.refl : Steady r r := ⟨rfl, rfl, rfl, le_rfl⟩

omit [Digest] in
theorem Steady.trans {r' r'' : Reader} (h : Steady r r') (h' : Steady r' r'') : Steady r r'' :=
  ⟨h'.start.trans h.start, h'.limits.trans h.limits, h'.filters.trans h.filters,
    h.acknowledged.trans h'.acknowledged⟩

omit [Digest] in
theorem Steady.of_window {r' : Reader} (hstart : r'.start = r.start)
    (h : SameWindow r.sub r'.sub) : Steady r r' :=
  ⟨hstart, h.limits, h.filters, by rw [h.acknowledged]⟩

theorem steady_after (h : r.Windowed) (hturned : Turned s r.sub result) :
    Steady r (r.after (conclude result)) := by
  have hwindow := hturned.window
  obtain ⟨d, c⟩ := result
  cases c with
  | again => exact .of_window rfl hwindow
  | waits => exact .of_window rfl hwindow
  | raised err =>
    cases err with
    | integrityError message => exact .of_window rfl (hwindow.trans (.aclose d))
    | _ => exact .of_window rfl hwindow
  | found e =>
    obtain ⟨-, hadvanced⟩ := hturned.found e rfl
    have hbehind := h.behind
    have hseq : d.position.sequence = r.sub.position.sequence + 1 :=
      hadvanced.position.2.1.trans hadvanced.sequence
    have hsame : r.sub.acknowledged.sequence ≤ d.acknowledged.sequence :=
      le_of_eq (congrArg (·.sequence) hwindow.acknowledged).symm
    simp only [conclude, DurableSubscription.sift]
    split_ifs
    · exact ⟨rfl, hwindow.limits, hwindow.filters, hsame⟩
    · simp only [after]
      unfold advanceAckOverFilteredEvent
      split_ifs
      · refine ⟨rfl, hwindow.limits, hwindow.filters, ?_⟩
        simp only
        omega
      · exact ⟨rfl, hwindow.limits, hwindow.filters, hsame⟩

omit [Digest] in
theorem steady_taken {outcome : Except PyError (DurableSubscription × StreamPosition)}
    (h : ∀ d position, outcome = .ok (d, position) →
      ∃ position', r.sub.acknowledge position' = .ok (d, position)) :
    Steady r (r.taken outcome) := by
  cases outcome with
  | error err => exact .refl
  | ok result =>
    obtain ⟨d, position⟩ := result
    obtain ⟨position', hok⟩ := h d position rfl
    rcases acknowledge_ok hok with ⟨rfl, -⟩ | ⟨rfl, hforward, -, rfl⟩
    · exact ⟨rfl, rfl, rfl, le_rfl⟩
    · exact ⟨rfl, rfl, rfl, hforward.le⟩

/-- **The acknowledged position never goes back.** -/
theorem steady_step (hs : s.Valid) (hf : r.Following s) (h : r.Windowed) (move : ReaderMove) :
    Steady r (r.step s move) := by
  have hgenuine : r.sub.Genuine s r.sub.position.twinId := by
    rw [hf.genuine.twin]
    exact hf.genuine
  have hclosed := SameWindow.aclose r.sub
  cases move with
  | call =>
    simp only [step, DurableSubscription.begin]
    cases r.state with
    | idle =>
      split_ifs
      · exact ⟨rfl, rfl, rfl, le_rfl⟩
      · exact .of_window rfl hclosed
      · exact ⟨rfl, rfl, rfl, le_rfl⟩
    | running => exact .refl
    | waiting => exact .refl
  | turn =>
    simp only [step]
    cases r.state with
    | idle => exact .refl
    | running => exact steady_after h (turned_nextCandidate hs hgenuine)
    | waiting => exact steady_after h (turned_resumed hgenuine)
  | cancel =>
    simp only [step]
    split_ifs
    · exact ⟨rfl, rfl, rfl, le_rfl⟩
    · exact .refl
  | publish e => exact ⟨rfl, rfl, rfl, le_rfl⟩
  | acknowledge position => exact steady_taken fun _ _ hok => ⟨position, hok⟩
  | acknowledgeToken codec token => exact steady_taken fun _ _ => acknowledgeToken_ok
  | close => exact .of_window rfl hclosed

end Reader

/-! ## Runs -/

namespace Handoff

open Reader

variable [Digest] {w w' : Handoff} {move : HandoffMove} {h : History} {start : StreamPosition}
variable {capacity : Nat} {limits : SyncLimits} {filters : Filters} {d : DurableSubscription}

/-- What holds at every moment of a run. -/
structure Reading (w : Handoff) : Prop where
  reachable : StoreReachable w.history
  following : w.reader.Following w.history.store
  windowed : w.reader.Windowed

theorem Reading.valid (hw : w.Reading) : w.history.store.Valid := hw.reachable.keeps.1

/-- **One step of ledger or reader.** -/
theorem reading_step (hw : w.Reading) (hmove : w.Genuine move) :
    (w.step move).Reading ∧ Reader.Steady w.reader (w.step move).reader := by
  cases move with
  | ledger op =>
    have hreach : StoreReachable (w.history.step op) := .step op hw.reachable hmove
    exact ⟨⟨hreach, hw.following.of_extends hreach.keeps.1 (step_extends _ _), hw.windowed⟩, .refl⟩
  | reader move =>
    have hpublished : ∀ e, move = .publish e → e ∈ w.history.store.stream e.twinId := by
      rintro e rfl
      exact hmove
    obtain ⟨hfollowing, hwindowed⟩ := kept_step hw.valid hw.following hw.windowed hpublished
    exact ⟨⟨hw.reachable, hfollowing, hwindowed⟩,
      steady_step hw.valid hw.following hw.windowed move⟩

theorem reading_run (hw : w.Reading) (hrun : Reachable step Genuine w w') :
    w'.Reading ∧ Reader.Steady w.reader w'.reader := by
  induction hrun with
  | init => exact ⟨hw, .refl⟩
  | step move _ hmove ih =>
    obtain ⟨hreading, hsteady⟩ := reading_step ih.1 hmove
    exact ⟨hreading, ih.2.trans hsteady⟩

omit [Digest] in
/-- A subscription that opens stands at its start, with nothing read. -/
theorem open_ok {s : Store} (hopen : DurableSubscription.open s capacity start limits filters = .ok d) :
    start.sequence ≤ (s.head start.twinId).1 ∧
      d = DurableSubscription.fresh (s.head start.twinId).1 capacity start limits filters := by
  unfold DurableSubscription.open at hopen
  simp only at hopen
  split_ifs at hopen with hbeyond
  obtain ⟨_, -, hd⟩ := bind_eq_ok.1 hopen
  exact ⟨by omega, (Except.ok.inj hd).symm⟩

/-- So it followed the stream, over nothing yet. -/
theorem kept_opened {s : Store} (hs : s.Valid)
    (hopen : DurableSubscription.open s capacity start limits filters = .ok d) :
    ({ start := start, sub := d } : Reader).Following s ∧
      ({ start := start, sub := d } : Reader).Windowed := by
  obtain ⟨hhead, rfl⟩ := open_ok hopen
  rw [hs.head_sequence] at hhead
  refine ⟨⟨⟨rfl, rfl, ?_, ?_, ?_⟩, le_rfl, hhead, ?_, rfl, trivial, rfl⟩,
    ⟨le_rfl, le_rfl, rfl, ?_, Nat.zero_le _, fun habsurd => absurd rfl habsurd, Nat.zero_le _⟩⟩
  all_goals simp [DurableSubscription.fresh]

theorem reading_opened (hreach : StoreReachable h)
    (hopen : DurableSubscription.open h.store capacity start limits filters = .ok d) :
    (opened h start d).Reading :=
  have hkept := kept_opened hreach.keeps.1 hopen
  ⟨hreach, hkept.1, hkept.2⟩

/-- **Replay to live, exactly once and in order.** Whatever the ledger, the
broker and the clients do, what a subscription has returned is the stretch
of the ledger between its start and its position, less what its filters
leave out, each event once; and every event of the stretch was verified
against the one before it, the first against the start. -/
theorem reader_delivers (hreach : StoreReachable h)
    (hopen : DurableSubscription.open h.store capacity start limits filters = .ok d)
    (hrun : Reachable step Genuine (opened h start d) w) :
    let stretch := between (w.history.store.stream start.twinId) start.sequence
      w.reader.sub.position.sequence
    w.reader.delivered = stretch.filter filters.wants ∧
      (w.reader.delivered.map (·.sequence)).Pairwise (· < ·) ∧
      w.reader.verified = stretch ∧
      Linked (fun previous e => e.verify previous = .ok ()) (·.eventHash) start.eventHash
        w.reader.verified := by
  obtain ⟨hw, hsteady⟩ := reading_run (reading_opened hreach hopen) hrun
  have hstart : w.reader.start = start := hsteady.start
  have hfilters : w.reader.sub.filters = filters := by
    obtain ⟨-, rfl⟩ := open_ok hopen
    exact hsteady.filters
  have hdelivered := hw.following.delivered
  have hverified := hw.following.verified
  have hchain := hw.following.chain
  rw [hstart] at hverified hchain
  rw [hverified, hfilters] at hdelivered
  exact ⟨hdelivered, hw.following.delivered_pairwise hw.valid, hverified, hchain⟩

/-- **Acknowledgements are safe and the window is bounded.** The
acknowledged position only rises and stays behind the position; what is
outstanding rises above it and fills no more than the window, the buffer no
more than a page; and every event up to the acknowledged position that the
filters let through was returned, and is covered by an acknowledgement. -/
theorem reader_window (hreach : StoreReachable h)
    (hopen : DurableSubscription.open h.store capacity start limits filters = .ok d)
    (hrun : Reachable step Genuine (opened h start d) w) :
    let sub := w.reader.sub
    (∀ w', Reachable step Genuine w w' →
        sub.acknowledged.sequence ≤ w'.reader.sub.acknowledged.sequence) ∧
      sub.acknowledged.sequence ≤ sub.position.sequence ∧
      (sub.outstanding.map (·.sequence)).Pairwise (· < ·) ∧
      (∀ item ∈ sub.outstanding, sub.acknowledged.sequence < item.sequence) ∧
      sub.outstanding.length ≤ limits.maxInFlight ∧
      sub.replayBuffer.length ≤ limits.replayPageSize ∧
      ∀ e ∈ between (w.history.store.stream start.twinId) start.sequence
          sub.acknowledged.sequence,
        filters.wants e = true → e ∈ w.reader.delivered ∧
          ∃ position ∈ w.reader.acknowledgements, e.sequence ≤ position.sequence := by
  obtain ⟨hw, hsteady⟩ := reading_run (reading_opened hreach hopen) hrun
  have hstart : w.reader.start = start := hsteady.start
  have hconfig : w.reader.sub.limits = limits ∧ w.reader.sub.filters = filters := by
    obtain ⟨-, rfl⟩ := open_ok hopen
    exact ⟨hsteady.limits, hsteady.filters⟩
  have hwindowed := hw.windowed
  have houtstanding := hwindowed.outstanding
  refine ⟨fun w' hrun' => (reading_run hw hrun').2.acknowledged, hwindowed.behind, ?_,
    fun item hitem => ?_, hconfig.1 ▸ hwindowed.window, hconfig.1 ▸ hwindowed.page,
    fun e he hwants => ?_⟩
  · rw [houtstanding]
    exact (hw.following.delivered_pairwise hw.valid).filter _
  · have hmem : item.sequence ∈ w.reader.sub.outstanding.map (·.sequence) :=
      List.mem_map_of_mem hitem
    rw [houtstanding] at hmem
    simpa using (List.mem_filter.1 hmem).2
  · have hstretch := (List.mem_filter.1 he).2
    simp only [Bool.and_eq_true, decide_eq_true_eq] at hstretch
    have hdelivered : e ∈ w.reader.delivered := by
      rw [hw.following.delivered, hw.following.verified, hstart, hconfig.2]
      refine List.mem_filter.2 ⟨List.mem_filter.2 ⟨(List.mem_filter.1 he).1, ?_⟩, hwants⟩
      have hbehind := hwindowed.behind
      simp only [Bool.and_eq_true, decide_eq_true_eq]
      omega
    exact ⟨hdelivered, hwindowed.covered e hdelivered hstretch.2⟩

/-! ## A first delivery -/

/-- Digests for runs that go over positions, of 64 digits. -/
@[reducible] def paddedDigest : Digest :=
  ⟨fun text => String.ofList (List.replicate (64 - (checksum text).length) '0') ++ checksum text,
    checksum⟩

/-- Before the first event of `t`. -/
def originOfT : StreamPosition where
  twinId := "t"
  sequence := 0
  eventHash := ""
  twin_required := by decide
  sequence_nonneg := by decide
  origin_hash := fun _ => rfl
  event_hash := fun habsurd => absurd habsurd (by decide)

omit [Digest] in
/-- A subscription opens at the origin of any stream. -/
theorem open_origin {s : Store} (hhead : 0 ≤ (s.head start.twinId).1)
    (horigin : start.sequence = 0) :
    DurableSubscription.open s capacity start limits filters =
      .ok (.fresh (s.head start.twinId).1 capacity start limits filters) := by
  unfold DurableSubscription.open DurableSubscription.checkStart
  simp only [horigin]
  rw [if_neg (by omega), if_neg (by omega)]
  rfl

/-- A second piece of evidence for `t`. -/
def thirdEvent : EventEnvelope :=
  EventEnvelope.new "t" "EvidenceIngested" .authoritative (evidencePayload "e2") "ingest"
    .ingestService "key-3" none none ⟨0, "event-3"⟩

def onlyEvidence : Filters := { eventTypes := some ["EvidenceIngested"] }

/-- The first event of `t`, read from the ledger. -/
def firstReturned : Handoff :=
  let h := History.step {} (.append firstEvent 0 1 none)
  let d := DurableSubscription.fresh (h.store.head "t").1 8 originOfT { maxInFlight := 2 }
    onlyEvidence
  run step (opened h originOfT d) [.reader .call, .reader .turn, .reader .turn]

/-- Two more are committed, -/
def allCommitted : Handoff :=
  run step firstReturned
    [.ledger (.append secondEvent 1 2 none), .ledger (.append thirdEvent 2 3 none)]

def lastCommitted : EventEnvelope :=
  (allCommitted.history.store.stream "t").getLastD firstEvent

/-- of which the broker publishes the last. -/
def lastPublished : Handoff := allCommitted.step (.reader (.publish lastCommitted))

/-- The next call: the event missed is read from the ledger and filtered out,
the one published is handed out; and the first one is acknowledged. -/
def gapRead : Handoff :=
  let w := run step lastPublished (.reader .call :: List.replicate 5 (.reader .turn))
  w.step (.reader (.acknowledge firstReturned.reader.sub.position))

omit [Digest] in
theorem reachable_gapRead :
    let _ : Digest := paddedDigest
    ∃ h d, StoreReachable h ∧
      DurableSubscription.open h.store 8 originOfT { maxInFlight := 2 } onlyEvidence = .ok d ∧
      Reachable step Genuine (opened h originOfT d) gapRead := by
  intro digest
  have hreach : StoreReachable (History.step {} (.append firstEvent 0 1 none)) :=
    .step (StoreOp.append firstEvent 0 1 none) .init rfl
  have hturns : ∀ (w : Handoff) (moves : List HandoffMove),
      (∀ move ∈ moves, move = .reader .call ∨ move = .reader .turn) →
      Reachable step Genuine w (run step w moves) := fun w moves hmoves =>
    reachable_run_of fun move hmove _ => by
      rcases hmoves move hmove with rfl | rfl <;> trivial
  refine ⟨_, _, hreach, open_origin ?_ rfl, ?_⟩
  · rw [hreach.keeps.1.head_sequence]
    exact Int.natCast_nonneg _
  · have hreturned := hturns (opened (History.step {} (.append firstEvent 0 1 none)) originOfT
      (.fresh ((History.step {} (.append firstEvent 0 1 none)).store.head "t").1 8 originOfT
        { maxInFlight := 2 } onlyEvidence)) [.reader .call, .reader .turn, .reader .turn] (by simp)
    have hgrown : Reachable step Genuine _ allCommitted :=
      .step (HandoffMove.ledger (.append thirdEvent 2 3 none))
        (.step (HandoffMove.ledger (.append secondEvent 1 2 none)) hreturned rfl) rfl
    have hcommitted : lastCommitted ∈
        allCommitted.history.store.stream lastCommitted.twinId := by
      have htwin : lastCommitted.twinId = "t" := by decide +kernel
      have hlast : (allCommitted.history.store.stream "t")[2]? = some lastCommitted := by
        decide +kernel
      rw [htwin]
      exact List.mem_of_getElem? hlast
    have hpublished : Reachable step Genuine _ lastPublished :=
      .step (HandoffMove.reader (.publish lastCommitted)) hgrown hcommitted
    exact .step (HandoffMove.reader (.acknowledge _))
      (hpublished.trans (hturns _ _ (by simp))) trivial

omit [Digest] in
/-- What it has read, handed out and had acknowledged. -/
theorem gapRead_eq : let _ : Digest := paddedDigest
    (gapRead.reader.delivered.map (·.sequence) = [1, 3] ∧
        gapRead.reader.verified.map (·.sequence) = [1, 2, 3]) ∧
      gapRead.reader.sub.acknowledged.sequence = 1 ∧
        gapRead.reader.sub.outstanding.map (·.sequence) = [3] := by
  decide +kernel

omit [Digest] in
theorem reader_delivers_gapRead :
    let _ : Digest := paddedDigest
    let w := gapRead
    let stretch := between (w.history.store.stream originOfT.twinId) originOfT.sequence
      w.reader.sub.position.sequence
    (w.reader.delivered.map (·.sequence) = [1, 3] ∧
        w.reader.verified.map (·.sequence) = [1, 2, 3]) ∧
      w.reader.delivered = stretch.filter onlyEvidence.wants ∧
      (w.reader.delivered.map (·.sequence)).Pairwise (· < ·) ∧
      w.reader.verified = stretch ∧
      Linked (fun previous e => e.verify previous = .ok ()) (·.eventHash) originOfT.eventHash
        w.reader.verified := by
  intro digest
  obtain ⟨h, d, hreach, hopen, hrun⟩ := reachable_gapRead
  have hread := gapRead_eq.1
  generalize gapRead = w at hrun hread ⊢
  exact ⟨hread, reader_delivers hreach hopen hrun⟩

omit [Digest] in
theorem reader_window_gapRead :
    let _ : Digest := paddedDigest
    let w := gapRead
    let sub := w.reader.sub
    (sub.acknowledged.sequence = 1 ∧ sub.outstanding.map (·.sequence) = [3]) ∧
      (∀ w', Reachable step Genuine w w' →
        sub.acknowledged.sequence ≤ w'.reader.sub.acknowledged.sequence) ∧
      sub.acknowledged.sequence ≤ sub.position.sequence ∧
      (sub.outstanding.map (·.sequence)).Pairwise (· < ·) ∧
      (∀ item ∈ sub.outstanding, sub.acknowledged.sequence < item.sequence) ∧
      sub.outstanding.length ≤ ({ maxInFlight := 2 } : SyncLimits).maxInFlight ∧
      sub.replayBuffer.length ≤ ({ maxInFlight := 2 } : SyncLimits).replayPageSize ∧
      ∀ e ∈ between (w.history.store.stream originOfT.twinId) originOfT.sequence
          sub.acknowledged.sequence,
        onlyEvidence.wants e = true → e ∈ w.reader.delivered ∧
          ∃ position ∈ w.reader.acknowledgements, e.sequence ≤ position.sequence := by
  intro digest
  obtain ⟨h, d, hreach, hopen, hrun⟩ := reachable_gapRead
  have hread := gapRead_eq.2
  generalize gapRead = w at hrun hread ⊢
  exact ⟨hread, reader_window hreach hopen hrun⟩

end Handoff

end ArgoTwin
