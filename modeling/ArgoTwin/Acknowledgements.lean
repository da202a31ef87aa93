import ArgoTwin.StateStreams
/-!
# Acknowledging again

A client that repeats an acknowledgement finds the position it names
acknowledged, and nothing happens. But the acknowledged position moves
without the client as well: an event that the filters leave out is accepted
where nothing is outstanding. From then on the token it acknowledged last
is refused (`acknowledgement_repeats_iff`).
-/

namespace ArgoTwin

open Library

/-- The signer reads the token as one of the position. -/
def CursorSigner.StandsBy (signer : CursorSigner) (token : String) (position : StreamPosition) :
    Prop :=
  ∃ decoded, signer.verify token position.twinId = .ok decoded ∧
    signer.verifyChainBinding decoded position = .ok position

/-- A cursor is bound to the position of its sequence only. -/
theorem sequence_of_verifyChainBinding {signer : CursorSigner} {cursor : DecodedCursor}
    {position bound : StreamPosition}
    (h : signer.verifyChainBinding cursor position = .ok bound) :
    cursor.sequence = position.sequence := by
  unfold CursorSigner.verifyChainBinding at h
  split at h
  · cases h
  · split_ifs at h with hother
    exact not_not.1 fun hne => hother (.inr hne)

namespace DurableSubscription

variable {d d' : DurableSubscription} {signer : CursorSigner} {token : String}
  {position : StreamPosition}

/-- **What a token that is taken acknowledges.** -/
theorem acknowledgeToken_spec (h : d.acknowledgeToken signer.codec token = .ok (d', position)) :
    d'.acknowledged = position ∧ position.twinId = d.position.twinId ∧
      signer.StandsBy token position := by
  simp only [acknowledgeToken, bind_eq_ok] at h
  obtain ⟨decoded, hverify, candidate, hcandidate, bound, hbinding, hack⟩ := h
  obtain rfl : bound = candidate := verifyChainBinding_ok hbinding
  have hsequence : decoded.sequence = bound.sequence := sequence_of_verifyChainBinding hbinding
  unfold acknowledge at hack
  split_ifs at hack with htwin hback hsame hhash
  · -- the position was acknowledged before
    obtain ⟨rfl, rfl⟩ := Prod.mk.inj (Except.ok.inj hack)
    have hbound : bound = d.acknowledged := by
      unfold acknowledgementCandidate at hcandidate
      rw [if_pos (hsequence.trans hsame)] at hcandidate
      exact (Except.ok.inj hcandidate).symm
    rw [hbound] at hbinding htwin
    have htwinId := not_not.1 htwin
    exact ⟨rfl, htwinId, decoded, by rw [htwinId]; exact hverify, hbinding⟩
  · split at hack
    · cases hack
    · split_ifs at hack
      obtain ⟨rfl, rfl⟩ := Prod.mk.inj (Except.ok.inj hack)
      have htwinId := not_not.1 htwin
      exact ⟨rfl, htwinId, decoded, by rw [htwinId]; exact hverify, hbinding⟩

/-- **A token of the acknowledged position is taken**, and nothing changes. -/
theorem acknowledgeToken_again (hacknowledged : d.acknowledged = position)
    (htwin : position.twinId = d.position.twinId) (hstands : signer.StandsBy token position) :
    d.acknowledgeToken signer.codec token = .ok (d, position) := by
  obtain ⟨decoded, hverify, hbinding⟩ := hstands
  have hsequence : decoded.sequence = position.sequence := sequence_of_verifyChainBinding hbinding
  have hcandidate : d.acknowledgementCandidate decoded.sequence = .ok position := by
    rw [acknowledgementCandidate, hacknowledged, if_pos hsequence]
  have hack : d.acknowledge position = .ok (d, position) := by
    unfold acknowledge
    rw [hacknowledged, if_neg (not_not.2 htwin), if_neg (lt_irrefl _), if_pos rfl,
      if_neg (not_not.2 rfl)]
  rw [htwin] at hverify
  simp only [acknowledgeToken, bind_eq_ok]
  exact ⟨decoded, hverify, position, hcandidate, position, hbinding, hack⟩

end DurableSubscription

namespace Handoff

open Reader

variable [Digest]

/-- What the turn a call is in takes next. -/
def taking (w : Handoff) : Option (DurableSubscription × Candidate) :=
  match w.reader.state with
  | .idle => none
  | .running => some (w.reader.sub.nextCandidate w.history.store)
  | .waiting => some (w.reader.sub.resumed w.history.store)

/-- The move is a turn that takes an event the filters leave out, while
nothing is outstanding. -/
def SkipsQuietly (w : Handoff) : HandoffMove → Prop
  | .reader .turn => w.reader.sub.outstanding = [] ∧
      ∃ d e, w.taking = some (d, .found e) ∧ w.reader.sub.filters.wants e = false
  | _ => False

theorem turn_of_skipsQuietly {w : Handoff} {move : HandoffMove} (h : w.SkipsQuietly move) :
    move = .reader .turn ∧ w.reader.sub.outstanding = [] ∧
      ∃ d e, w.taking = some (d, .found e) ∧ w.reader.sub.filters.wants e = false := by
  cases move with
  | ledger op => cases h
  | reader move =>
    cases move with
    | turn => exact ⟨rfl, h⟩
    | _ => cases h

/-- The move acknowledges nothing past the sequence. -/
def AcknowledgesUpTo (sequence : Int) (w : Handoff) (move : HandoffMove) : Prop :=
  ∀ position, (w.step move).reader.acknowledgements = w.reader.acknowledgements ++ [position] →
    position.sequence ≤ sequence

variable {w : Handoff} {move : HandoffMove}

/-- A turn of a call that is in one, as what it took. -/
theorem step_turn {taken : DurableSubscription × Candidate} (h : w.taking = some taken) :
    (w.step (.reader .turn)).reader = w.reader.after (DurableSubscription.conclude taken) := by
  unfold taking at h
  unfold step Reader.step
  cases hstate : w.reader.state with
  | idle => simp [hstate] at h
  | running =>
    simp only [hstate, Option.some.injEq] at h
    simp only [h]
  | waiting =>
    simp only [hstate, Option.some.injEq] at h
    simp only [h]

theorem turned_taking (hw : w.Reading) {taken : DurableSubscription × Candidate}
    (h : w.taking = some taken) :
    DurableSubscription.Turned w.history.store w.reader.sub taken := by
  have hgenuine : w.reader.sub.Genuine w.history.store w.reader.sub.position.twinId := by
    rw [hw.following.genuine.twin]
    exact hw.following.genuine
  unfold taking at h
  cases hstate : w.reader.state with
  | idle => simp [hstate] at h
  | running =>
    simp only [hstate, Option.some.injEq] at h
    exact h ▸ DurableSubscription.turned_nextCandidate hw.valid hgenuine
  | waiting =>
    simp only [hstate, Option.some.injEq] at h
    exact h ▸ DurableSubscription.turned_resumed hgenuine

/-- **A quiet skip moves the acknowledged position.** -/
theorem acknowledged_of_skipsQuietly (hw : w.Reading) (h : w.SkipsQuietly move) :
    w.reader.sub.acknowledged.sequence < (w.step move).reader.sub.acknowledged.sequence := by
  obtain ⟨rfl, hnone, d, e, htaking, hunwanted⟩ := turn_of_skipsQuietly h
  have hturned := turned_taking hw htaking
  obtain ⟨-, hadvanced⟩ := hturned.found e rfl
  have hsequence : d.position.sequence = w.reader.sub.position.sequence + 1 :=
    hadvanced.position.2.1.trans hadvanced.sequence
  have hbehind := hw.windowed.behind
  have hfilters : d.filters.wants e = false := by
    rw [show d.filters = w.reader.sub.filters from hturned.window.filters]
    exact hunwanted
  have hempty : d.outstanding.isEmpty = true := by
    rw [show d.outstanding = w.reader.sub.outstanding from hturned.window.outstanding, hnone]
    rfl
  have hafter : (w.step (.reader .turn)).reader.sub.acknowledged = d.position := by
    rw [step_turn htaking]
    simp only [DurableSubscription.conclude, DurableSubscription.sift, hfilters,
      Bool.false_eq_true, if_false, Reader.after,
      DurableSubscription.advanceAckOverFilteredEvent, hempty, if_true]
  rw [hafter]
  omega

/-- **No other move does**, where none acknowledges anything later. -/
theorem acknowledged_kept (hw : w.Reading) (hquiet : ¬ w.SkipsQuietly move)
    (hacks : AcknowledgesUpTo w.reader.sub.acknowledged.sequence w move) :
    (w.step move).reader.sub.acknowledged = w.reader.sub.acknowledged := by
  have hclosed := (DurableSubscription.SameWindow.aclose w.reader.sub).acknowledged
  have htaken : ∀ outcome : Except PyError (DurableSubscription × StreamPosition),
      (∀ d position, outcome = .ok (d, position) →
        ∃ position', w.reader.sub.acknowledge position' = .ok (d, position)) →
      (∀ position, (w.reader.taken outcome).acknowledgements =
        w.reader.acknowledgements ++ [position] →
        position.sequence ≤ w.reader.sub.acknowledged.sequence) →
      (w.reader.taken outcome).sub.acknowledged = w.reader.sub.acknowledged := by
    intro outcome houtcome hupTo
    cases outcome with
    | error err => rfl
    | ok result =>
      obtain ⟨d, position⟩ := result
      obtain ⟨position', hok⟩ := houtcome d position rfl
      rcases acknowledge_ok hok with ⟨rfl, -⟩ | ⟨rfl, hforward, -, rfl⟩
      · rfl
      · have hle := hupTo position rfl
        omega
  cases move with
  | ledger op => rfl
  | reader move =>
    cases move with
    | call =>
      show (w.reader.step w.history.store .call).sub.acknowledged = _
      simp only [Reader.step, DurableSubscription.begin]
      cases w.reader.state with
      | idle => split_ifs <;> first | rfl | exact hclosed
      | running => rfl
      | waiting => rfl
    | turn =>
      cases htaking : w.taking with
      | none =>
        have hidle : w.reader.state = .idle := by
          unfold taking at htaking
          cases hstate : w.reader.state with
          | idle => rfl
          | running => simp [hstate] at htaking
          | waiting => simp [hstate] at htaking
        show (w.reader.step w.history.store .turn).sub.acknowledged = _
        simp only [Reader.step, hidle]
      | some taken =>
        have hwindow := (turned_taking hw htaking).window
        rw [step_turn htaking]
        obtain ⟨d, c⟩ := taken
        have hsame : d.acknowledged = w.reader.sub.acknowledged := hwindow.acknowledged
        have hdone := (DurableSubscription.SameWindow.aclose d).acknowledged
        cases c with
        | again => exact hsame
        | waits => exact hsame
        | raised err =>
          cases err with
          | integrityError message => exact hdone.trans hsame
          | _ => exact hsame
        | found e =>
          simp only [DurableSubscription.conclude, DurableSubscription.sift]
          split_ifs with hwants
          · exact hsame
          · -- skipped while nothing is outstanding is what the run does not do
            have hunwanted : w.reader.sub.filters.wants e = false := by
              rw [← show d.filters = w.reader.sub.filters from hwindow.filters]
              simpa using hwants
            have hsome : d.outstanding.isEmpty = false := by
              rw [show d.outstanding = w.reader.sub.outstanding from hwindow.outstanding]
              cases hout : w.reader.sub.outstanding with
              | nil => exact absurd ⟨hout, d, e, htaking, hunwanted⟩ hquiet
              | cons item rest => rfl
            simp only [Reader.after, DurableSubscription.advanceAckOverFilteredEvent, hsome,
              Bool.false_eq_true, if_false]
            exact hsame
    | cancel =>
      show (w.reader.step w.history.store .cancel).sub.acknowledged = _
      simp only [Reader.step]
      split_ifs <;> rfl
    | publish e => rfl
    | acknowledge position => exact htaken _ (fun d position' hok => ⟨position, hok⟩) hacks
    | acknowledgeToken codec token => exact htaken _ (fun _ _ => acknowledgeToken_ok) hacks
    | close => exact hclosed

/-- The token is taken again, by whichever signer still stands by it, and
nothing changes. -/
def Repeats (token : String) (position : StreamPosition) (w : Handoff) : Prop :=
  ∀ signer : CursorSigner, signer.StandsBy token position →
    w.reader.sub.acknowledgeToken signer.codec token = .ok (w.reader.sub, position)

omit [Digest] in
/-- A token repeats just where its position is the acknowledged one. -/
theorem repeats_iff {signer : CursorSigner} {token : String} {position : StreamPosition}
    (htwin : position.twinId = w.reader.sub.position.twinId)
    (hstands : signer.StandsBy token position) :
    Repeats token position w ↔ w.reader.sub.acknowledged = position := by
  constructor
  · exact fun h => (DurableSubscription.acknowledgeToken_spec (h signer hstands)).1
  · exact fun h signer' hstands' => DurableSubscription.acknowledgeToken_again h htwin hstands'

variable {h : History} {start : StreamPosition} {capacity : Nat} {limits : SyncLimits}
  {filters : Filters} {d : DurableSubscription}

/-- **Acknowledging is idempotent** up to quiet skips. Once a token was
taken, and while no later position is acknowledged, it is taken again at
every moment of a run, and changes nothing, exactly where no turn of the
run takes an event that the filters leave out while nothing is outstanding. -/
theorem acknowledgement_repeats_iff (hreach : StoreReachable h)
    (hopen : DurableSubscription.open h.store capacity start limits filters = .ok d)
    (hrun : Reachable step Genuine (opened h start d) w) {signer : CursorSigner} {token : String}
    {sub : DurableSubscription} {position : StreamPosition}
    (hack : w.reader.sub.acknowledgeToken signer.codec token = .ok (sub, position))
    (moves : List HandoffMove)
    (hmoves : ∀ n move, moves[n]? = some move →
      let before := run step (w.step (.reader (.acknowledgeToken signer.codec token)))
        (moves.take n)
      before.Genuine move ∧ AcknowledgesUpTo position.sequence before move) :
    let after := fun n => run step (w.step (.reader (.acknowledgeToken signer.codec token)))
      (moves.take n)
    (∀ n, Repeats token position (after n)) ↔
      ∀ n move, moves[n]? = some move → ¬ (after n).SkipsQuietly move := by
  intro after
  obtain ⟨hacknowledged, htwin, hstands⟩ := DurableSubscription.acknowledgeToken_spec hack
  obtain ⟨hw, -⟩ := reading_run (reading_opened hreach hopen) hrun
  have hfirst : (w.step (.reader (.acknowledgeToken signer.codec token))).Reading ∧
      Reader.Steady w.reader (w.step (.reader (.acknowledgeToken signer.codec token))).reader :=
    reading_step hw trivial
  have hstart : position.twinId = w.reader.start.twinId :=
    htwin.trans hw.following.genuine.twin
  have hsub : (w.step (.reader (.acknowledgeToken signer.codec token))).reader.sub = sub := by
    show (w.reader.taken _).sub = sub
    rw [hack]
    rfl
  have hrepeats : ∀ w' : Handoff, (w'.Reading ∧ w'.reader.start = w.reader.start) →
      (Repeats token position w' ↔ w'.reader.sub.acknowledged = position) := by
    rintro w' ⟨hw', hstart'⟩
    refine repeats_iff ?_ hstands
    rw [hw'.following.genuine.twin, hstart', hstart]
  have hkept : ∀ w' move, (w'.Reading ∧ w'.reader.start = w.reader.start) →
      (w'.Genuine move ∧ AcknowledgesUpTo position.sequence w' move) →
      ((w'.step move).Reading ∧ (w'.step move).reader.start = w.reader.start) := by
    rintro w' move ⟨hw', hstart'⟩ ⟨hgenuine, -⟩
    obtain ⟨hnext, hsteady⟩ := reading_step hw' hgenuine
    exact ⟨hnext, hsteady.start.trans hstart'⟩
  refine always_iff step (fun w' => w'.Reading ∧ w'.reader.start = w.reader.start)
    (Repeats token position)
    (fun w' move => w'.Genuine move ∧ AcknowledgesUpTo position.sequence w' move)
    (fun w' move => ¬ w'.SkipsQuietly move) ⟨hfirst.1, hfirst.2.start⟩ ?_ hkept ?_ hmoves
  · rw [hrepeats _ ⟨hfirst.1, hfirst.2.start⟩, hsub]
    exact hacknowledged
  · intro w' move hw' hmove hrepeating
    have hat := (hrepeats w' hw').1 hrepeating
    rw [hrepeats _ (hkept w' move hw' hmove)]
    constructor
    · intro hagain hskip
      have hforward := acknowledged_of_skipsQuietly hw'.1 hskip
      rw [hagain, hat] at hforward
      exact lt_irrefl _ hforward
    · intro hquiet
      rw [acknowledged_kept hw'.1 hquiet (by rw [hat]; exact hmove.2), hat]

/-- Reading acknowledges nothing. -/
theorem acknowledgements_of_reading (w : Handoff) :
    (w.step (.reader .call)).reader.acknowledgements = w.reader.acknowledgements ∧
      (w.step (.reader .turn)).reader.acknowledgements = w.reader.acknowledgements := by
  have hafter : ∀ result : DurableSubscription × Turn,
      (w.reader.after result).acknowledgements = w.reader.acknowledgements := by
    rintro ⟨d, turn⟩
    cases turn <;> rfl
  constructor
  · show (w.reader.step w.history.store .call).acknowledgements = _
    simp only [Reader.step]
    split <;> rfl
  · show (w.reader.step w.history.store .turn).acknowledgements = _
    simp only [Reader.step]
    split
    · rfl
    · exact hafter _
    · exact hafter _

theorem acknowledgements_of_call_turn (w : Handoff) :
    (run step w [.reader .call, .reader .turn]).reader.acknowledgements =
      w.reader.acknowledgements :=
  (acknowledgements_of_reading (w.step (.reader .call))).2.trans (acknowledgements_of_reading w).1

/-! ## A token refused the second time -/

/-- A signer of first positions, whose tokens are their hashes. -/
def firstSigner : CursorSigner where
  issue position := position.eventHash
  verify token twinId := .ok ⟨twinId, 1, token, DateTime.utc 0, "default"⟩
  chainTag _ := some fun position => position.eventHash

/-- A second event of `t`, of another type. -/
def degradation : EventEnvelope :=
  EventEnvelope.new "t" "DegradationDeclared" .authoritative
    (Payload.ofFields [("reason", .str "lag")]) "ops" .operationsService "key-2" none none
    ⟨0, "event-2"⟩

/-- Two events, and a subscription to the type of the first, which it handed out. -/
def evidenceOnly : Handoff :=
  let h := (History.step {} (.append firstEvent 0 1 none)).step (.append degradation 1 2 none)
  let filters := Filters.new ["EvidenceIngested"] []
  let d := DurableSubscription.fresh (h.store.head "t").1 8 originOfT {} filters
  run step (opened h originOfT d) [.reader .call, .reader .turn, .reader .turn]

/-- The token of the event handed out. -/
def firstToken : String := firstSigner.issue evidenceOnly.reader.sub.position

omit [Digest] in
theorem reachable_evidenceOnly :
    let _ : Digest := paddedDigest
    ∃ h d, StoreReachable h ∧
      DurableSubscription.open h.store 8 originOfT {} (Filters.new ["EvidenceIngested"] []) =
        .ok d ∧
      Reachable step Genuine (opened h originOfT d) evidenceOnly := by
  intro digest
  have hfirst : StoreReachable (History.step {} (.append firstEvent 0 1 none)) :=
    .step (StoreOp.append firstEvent 0 1 none) .init rfl
  have hreach : StoreReachable ((History.step {} (.append firstEvent 0 1 none)).step
      (.append degradation 1 2 none)) :=
    .step (StoreOp.append degradation 1 2 none) hfirst rfl
  refine ⟨_, _, hreach, open_origin ?_ rfl, ?_⟩
  · rw [hreach.keeps.1.head_sequence]
    exact Int.natCast_nonneg _
  · refine .step (HandoffMove.reader .turn) ?_ trivial
    refine .step (HandoffMove.reader .turn) ?_ trivial
    exact .step (HandoffMove.reader .call) .init trivial

omit [Digest] in
theorem first_acknowledgement :
    let _ : Digest := paddedDigest
    ∃ sub position, evidenceOnly.reader.sub.acknowledgeToken firstSigner.codec firstToken =
      .ok (sub, position) := by
  intro digest
  have hsome : (evidenceOnly.reader.sub.acknowledgeToken firstSigner.codec
      firstToken).toOption.isSome = true := by decide +kernel
  cases htaken : evidenceOnly.reader.sub.acknowledgeToken firstSigner.codec firstToken with
  | ok taken => exact ⟨taken.1, taken.2, rfl⟩
  | error err =>
    rw [htaken] at hsome
    cases hsome

omit [Digest] in
/-- **A token taken once is refused**, after the filter went over one event. -/
theorem acknowledgement_refused :
    let _ : Digest := paddedDigest
    let w := evidenceOnly
    let acknowledged := w.step (.reader (.acknowledgeToken firstSigner.codec firstToken))
    let later := run step acknowledged [.reader .call, .reader .turn]
    (∃ h d, StoreReachable h ∧ DurableSubscription.open h.store 8 originOfT {}
        (Filters.new ["EvidenceIngested"] []) = .ok d ∧
      Reachable step Genuine (opened h originOfT d) w) ∧
    (∃ sub position, w.reader.sub.acknowledgeToken firstSigner.codec firstToken =
      .ok (sub, position)) ∧
    later.reader.acknowledgements = acknowledged.reader.acknowledgements ∧
    (later.reader.sub.acknowledgeToken firstSigner.codec firstToken).toOption.isNone = true := by
  intro digest w acknowledged later
  exact ⟨reachable_evidenceOnly, first_acknowledgement,
    acknowledgements_of_call_turn acknowledged, by decide +kernel⟩

omit [Digest] in
/-- While the next call only waits for its turn, it is taken again. -/
theorem acknowledgement_repeats_called :
    let _ : Digest := paddedDigest
    let acknowledged := evidenceOnly.step
      (.reader (.acknowledgeToken firstSigner.codec firstToken))
    ∃ position, Repeats firstToken position (run step acknowledged [.reader .call]) := by
  intro digest acknowledged
  obtain ⟨h, d, hreach, hopen, hrun⟩ := reachable_evidenceOnly
  obtain ⟨sub, position, hack⟩ := first_acknowledgement
  have hone : ∀ n move, [HandoffMove.reader .call][n]? = some move →
      n = 0 ∧ move = .reader .call := by
    intro n move hmove
    cases n with
    | zero => exact ⟨rfl, (Option.some.inj hmove).symm⟩
    | succ n => simp at hmove
  have hsame : (acknowledged.step (.reader .call)).reader.acknowledgements =
      acknowledged.reader.acknowledgements := (acknowledgements_of_reading acknowledged).1
  refine ⟨position, (acknowledgement_repeats_iff hreach hopen hrun hack [.reader .call]
    fun n move hmove => ?_).2 (fun n move hmove => ?_) 1⟩
  · obtain ⟨rfl, rfl⟩ := hone n move hmove
    refine ⟨trivial, fun taken htaken => ?_⟩
    have hlonger : (acknowledged.step (.reader .call)).reader.acknowledgements =
        acknowledged.reader.acknowledgements ++ [taken] := htaken
    rw [hsame] at hlonger
    exact absurd (List.self_eq_append_right.1 hlonger) (List.cons_ne_nil _ _)
  · obtain ⟨rfl, rfl⟩ := hone n move hmove
    exact id

end Handoff

end ArgoTwin
