import ArgoTwin.Acknowledgements
/-!
# Closing for backpressure

A call of `__anext__` counts what is outstanding before it looks for the
next event, so it closes a full window whether or not there is a frame to
put beyond it. A stream that is full and caught up stays open only until
it is asked for more (`window_kept_iff`).
-/

namespace ArgoTwin

open Library Reader

namespace DurableSubscription

/-- The stream is open, and as much is outstanding as the window holds. -/
def Full (d : DurableSubscription) : Prop :=
  d.closed = false ∧ d.outstanding.length = d.limits.maxInFlight

/-- What is outstanding is of one twin, at one position a sequence. -/
structure Distinct (d : DurableSubscription) : Prop where
  twin : ∀ item ∈ d.outstanding, item.twinId = d.position.twinId
  rising : (d.outstanding.map (·.sequence)).Pairwise (· < ·)
  beyond : ∀ item ∈ d.outstanding, d.acknowledged.sequence < item.sequence

variable {d : DurableSubscription} {item : StreamPosition}

/-- The position at an outstanding sequence is the outstanding one. -/
theorem Distinct.matched (h : d.Distinct) (hitem : item ∈ d.outstanding) :
    d.matched item.sequence = some item := by
  have hsome : (d.matched item.sequence).isSome := by
    rw [DurableSubscription.matched, List.find?_isSome]
    exact ⟨item, hitem, decide_eq_true rfl⟩
  obtain ⟨found, hfound⟩ := Option.isSome_iff_exists.1 hsome
  have hmem : found ∈ d.outstanding := List.mem_of_find?_eq_some hfound
  have hsequence : found.sequence = item.sequence := by
    simpa using List.find?_some hfound
  have hnodup : (d.outstanding.map (·.sequence)).Nodup := h.rising.imp fun hlt => ne_of_lt hlt
  have hone : found = item := List.inj_on_of_nodup_map hnodup hmem hitem hsequence
  rw [hfound, hone]

/-- **What is outstanding can be acknowledged.** -/
theorem Distinct.acknowledge (h : d.Distinct) (hitem : item ∈ d.outstanding) :
    ∃ after, d.acknowledge item = .ok (after, item) := by
  have hbeyond := h.beyond item hitem
  unfold DurableSubscription.acknowledge
  rw [if_neg (not_not.2 (h.twin item hitem)), if_neg (by omega), if_neg (by omega),
    h.matched hitem]
  exact ⟨_, if_neg (not_not.2 rfl)⟩

end DurableSubscription

namespace Handoff

variable [Digest] {w w' : Handoff} {move : HandoffMove}

/-- A frame is due: the ledger has an event past the position that passes
the filters. -/
def FrameDue (w : Handoff) : Prop :=
  ∃ e ∈ w.history.store.stream w.reader.start.twinId,
    w.reader.sub.position.sequence < e.sequence ∧ w.reader.sub.filters.wants e = true

/-- The move is a call of `__anext__` that raises for the window. -/
def ClosesForWindow (w : Handoff) : HandoffMove → Prop
  | .reader .call => w.reader.state = .idle ∧
      w.reader.sub.begin.2 = .error (.backpressureExceeded
        "unacknowledged delivery window exceeded; reconnect with last cursor")
  | _ => False

/-- The move asks a full stream for a frame where none is due. -/
def AsksEarly (w : Handoff) (move : HandoffMove) : Prop :=
  move = .reader .call ∧ w.reader.sub.Full ∧ ¬ w.FrameDue

/-- **The window is closed where one more frame would exceed it**, and a
stream that is full with no frame due stays open, and can be acknowledged. -/
structure KeepsWindow (w : Handoff) (move : HandoffMove) : Prop where
  exceeded : w.ClosesForWindow move → w.FrameDue ∧
    w.reader.sub.limits.maxInFlight < w.reader.sub.outstanding.length + 1
  stays : w.reader.sub.Full → ¬ w.FrameDue → move ≠ .reader .close →
    (w.step move).reader.sub.closed = false ∧
      ∀ item ∈ (w.step move).reader.sub.outstanding,
        ∃ after, (w.step move).reader.sub.acknowledge item = .ok (after, item)

/-- A call raises for the window just where the stream is full. -/
theorem closesForWindow_iff (hw : w.Reading) (hidle : w.reader.state = .idle) :
    w.ClosesForWindow (.reader .call) ↔ w.reader.sub.Full := by
  have hwindow := hw.windowed.window
  unfold ClosesForWindow DurableSubscription.begin DurableSubscription.Full
  cases hclosed : w.reader.sub.closed with
  | true => simp
  | false =>
    by_cases hfull : w.reader.sub.limits.maxInFlight ≤ w.reader.sub.outstanding.length
    · have hexact : w.reader.sub.outstanding.length = w.reader.sub.limits.maxInFlight := by omega
      simp [hexact, hidle]
    · have hroom : w.reader.sub.outstanding.length ≠ w.reader.sub.limits.maxInFlight := by omega
      simp [hfull, hroom]

/-- All that is outstanding is of the twin of the stream. -/
def OfOneTwin (w : Handoff) : Prop :=
  ∀ item ∈ w.reader.sub.outstanding, item.twinId = w.reader.start.twinId

theorem distinct_of_reading (hw : w.Reading) (htwin : w.OfOneTwin) : w.reader.sub.Distinct where
  twin item hitem := (htwin item hitem).trans hw.following.genuine.twin.symm
  rising := by
    rw [hw.windowed.outstanding]
    exact (hw.following.delivered_pairwise hw.valid).filter _
  beyond item hitem := by
    have hmem : item.sequence ∈ w.reader.sub.outstanding.map (·.sequence) :=
      List.mem_map_of_mem hitem
    rw [hw.windowed.outstanding] at hmem
    simpa using (List.mem_filter.1 hmem).2

/-- **A step adds to what is outstanding** the position it reached, and
nothing else. -/
theorem mem_outstanding_step (hw : w.Reading) {item : StreamPosition}
    (hitem : item ∈ (w.step move).reader.sub.outstanding) :
    item ∈ w.reader.sub.outstanding ∨ item = (w.step move).reader.sub.position := by
  have htaken : ∀ outcome : Except PyError (DurableSubscription × StreamPosition),
      (∀ d position, outcome = .ok (d, position) →
        ∃ position', w.reader.sub.acknowledge position' = .ok (d, position)) →
      ∀ item ∈ (w.reader.taken outcome).sub.outstanding, item ∈ w.reader.sub.outstanding := by
    intro outcome houtcome item hitem
    cases outcome with
    | error err => exact hitem
    | ok result =>
      obtain ⟨position', hok⟩ := houtcome result.1 result.2 rfl
      rcases acknowledge_ok hok with ⟨hsame, -⟩ | ⟨-, -, -, hdropped⟩
      · have hmem : item ∈ result.1.outstanding := hitem
        rwa [hsame] at hmem
      · have hmem : item ∈ result.1.outstanding := hitem
        rw [hdropped] at hmem
        exact (List.dropWhile_sublist _).subset hmem
  cases move with
  | ledger op => exact .inl hitem
  | reader move =>
    cases move with
    | call =>
      refine .inl ?_
      have hmem : item ∈ (w.reader.step w.history.store .call).sub.outstanding := hitem
      simp only [Reader.step, DurableSubscription.begin] at hmem
      cases hstate : w.reader.state with
      | idle =>
        rw [hstate] at hmem
        split_ifs at hmem
        · exact hmem
        · exact (DurableSubscription.SameWindow.aclose w.reader.sub).outstanding ▸ hmem
        · exact hmem
      | running => rwa [hstate] at hmem
      | waiting => rwa [hstate] at hmem
    | turn =>
      cases htaking : w.taking with
      | none =>
        have hmem : item ∈ (w.reader.step w.history.store .turn).sub.outstanding := hitem
        simp only [taking] at htaking
        simp only [Reader.step] at hmem
        cases hstate : w.reader.state with
        | idle =>
          rw [hstate] at hmem
          exact .inl hmem
        | running => simp [hstate] at htaking
        | waiting => simp [hstate] at htaking
      | some taken =>
        have hsame := (turned_taking hw htaking).window.outstanding
        rw [step_turn htaking] at hitem ⊢
        obtain ⟨d, c⟩ := taken
        cases c with
        | again => exact .inl (hsame ▸ hitem)
        | waits => exact .inl (hsame ▸ hitem)
        | found e =>
          simp only [DurableSubscription.conclude, DurableSubscription.sift] at hitem ⊢
          split_ifs at hitem ⊢ with hwants
          · rcases List.mem_append.1 hitem with hold | hnew
            · exact .inl (hsame ▸ hold)
            · exact .inr (List.mem_singleton.1 hnew)
          · refine .inl (hsame ▸ ?_)
            simp only [Reader.after, DurableSubscription.advanceAckOverFilteredEvent] at hitem
            split_ifs at hitem <;> exact hitem
        | raised err =>
          refine .inl (hsame ▸ ?_)
          cases err with
          | integrityError message =>
            exact (DurableSubscription.SameWindow.aclose d).outstanding ▸ hitem
          | _ => exact hitem
    | cancel =>
      refine .inl ?_
      have hmem : item ∈ (w.reader.step w.history.store .cancel).sub.outstanding := hitem
      simp only [Reader.step] at hmem
      split_ifs at hmem <;> exact hmem
    | publish e => exact .inl hitem
    | acknowledge position =>
      exact .inl (htaken _ (fun d position' hok => ⟨position, hok⟩) item hitem)
    | acknowledgeToken codec token =>
      exact .inl (htaken _ (fun _ _ => acknowledgeToken_ok) item hitem)
    | close => exact .inl ((DurableSubscription.SameWindow.aclose w.reader.sub).outstanding ▸ hitem)

/-- **A step keeps to the twin** of the stream. -/
theorem ofOneTwin_step (hw : w.Reading) (htwin : w.OfOneTwin) (hmove : w.Genuine move) :
    (w.step move).OfOneTwin := by
  obtain ⟨hnext, hsteady⟩ := reading_step hw hmove
  have hreached : (w.step move).reader.sub.position.twinId = w.reader.start.twinId := by
    rw [hnext.following.genuine.twin, hsteady.start]
  intro item hitem
  rw [hsteady.start]
  rcases mem_outstanding_step hw hitem with hold | rfl
  · exact htwin item hold
  · exact hreached

/-- **A full stream stays open** until it is closed or asked for more. -/
theorem open_step (hw : w.Reading) (hfull : w.reader.sub.Full) (hclose : move ≠ .reader .close)
    (hcall : move ≠ .reader .call) : (w.step move).reader.sub.closed = false := by
  have hidle : w.reader.state = .idle := by
    by_contra hbusy
    have hroom := hw.windowed.room hbusy
    have hexact := hfull.2
    omega
  have htaken : ∀ outcome : Except PyError (DurableSubscription × StreamPosition),
      (∀ d position, outcome = .ok (d, position) →
        ∃ position', w.reader.sub.acknowledge position' = .ok (d, position)) →
      (w.reader.taken outcome).sub.closed = false := by
    intro outcome houtcome
    cases outcome with
    | error err => exact hfull.1
    | ok result =>
      obtain ⟨position', hok⟩ := houtcome result.1 result.2 rfl
      show result.1.closed = false
      rcases acknowledge_ok hok with ⟨hsame, -⟩ | ⟨-, -, -, hdropped⟩
      · rw [hsame]
        exact hfull.1
      · rw [hdropped]
        exact hfull.1
  cases move with
  | ledger op => exact hfull.1
  | reader move =>
    cases move with
    | call => exact absurd rfl hcall
    | turn =>
      show (w.reader.step w.history.store .turn).sub.closed = false
      simp only [Reader.step, hidle]
      exact hfull.1
    | cancel =>
      show (w.reader.step w.history.store .cancel).sub.closed = false
      simp only [Reader.step, hidle]
      exact hfull.1
    | publish e => exact hfull.1
    | acknowledge position => exact htaken _ fun d position' hok => ⟨position, hok⟩
    | acknowledgeToken codec token => exact htaken _ fun _ _ => acknowledgeToken_ok
    | close => exact absurd rfl hclose

/-- **One move keeps the window** just where it does not ask early. -/
theorem keepsWindow_iff (hw : w.Reading) (htwin : w.OfOneTwin) (hmove : w.Genuine move) :
    w.KeepsWindow move ↔ ¬ w.AsksEarly move := by
  have hroom : w.reader.sub.Full → w.reader.state = .idle := by
    intro hfull
    by_contra hbusy
    have hless := hw.windowed.room hbusy
    have hexact := hfull.2
    omega
  constructor
  · rintro hkeeps ⟨rfl, hfull, hnone⟩
    have hcloses : w.ClosesForWindow (.reader .call) :=
      (closesForWindow_iff hw (hroom hfull)).2 hfull
    exact hnone (hkeeps.exceeded hcloses).1
  · intro hpatient
    refine ⟨fun hcloses => ?_, fun hfull hnone hclose => ⟨?_, ?_⟩⟩
    · cases move with
      | ledger op => cases hcloses
      | reader move =>
        cases move with
        | call =>
          have hfull : w.reader.sub.Full := (closesForWindow_iff hw hcloses.1).1 hcloses
          have hexact := hfull.2
          exact ⟨not_not.1 fun hnone => hpatient ⟨rfl, hfull, hnone⟩, by omega⟩
        | _ => cases hcloses
    · exact open_step hw hfull hclose fun hcall => hpatient ⟨hcall, hfull, hnone⟩
    · intro item hitem
      have hdistinct : (w.step move).reader.sub.Distinct :=
        distinct_of_reading (reading_step hw hmove).1 (ofOneTwin_step hw htwin hmove)
      exact hdistinct.acknowledge hitem

variable {h : History} {start : StreamPosition} {capacity : Nat} {limits : SyncLimits}
  {filters : Filters} {d : DurableSubscription}

/-- **A stream is closed for its window only where the window would be
exceeded**, all along a run, exactly where no call of the run asks a full
stream for a frame that is not due. -/
theorem window_kept_iff (hreach : StoreReachable h)
    (hopen : DurableSubscription.open h.store capacity start limits filters = .ok d)
    (moves : List HandoffMove)
    (hmoves : ∀ n move, moves[n]? = some move →
      (run step (opened h start d) (moves.take n)).Genuine move) :
    (∀ n move, moves[n]? = some move →
        (run step (opened h start d) (moves.take n)).KeepsWindow move) ↔
      ∀ n move, moves[n]? = some move →
        ¬ (run step (opened h start d) (moves.take n)).AsksEarly move := by
  have hknown : ∀ n, n ≤ moves.length → (run step (opened h start d) (moves.take n)).Reading ∧
      (run step (opened h start d) (moves.take n)).OfOneTwin := by
    intro n
    induction n with
    | zero =>
      intro _
      refine ⟨reading_opened hreach hopen, fun item hitem => ?_⟩
      obtain ⟨-, rfl⟩ := open_ok hopen
      simp [run, opened, DurableSubscription.fresh] at hitem
    | succ n ih =>
      intro hn
      obtain ⟨hw, htwin⟩ := ih (Nat.le_of_lt hn)
      have hget : moves[n]? = some moves[n] := List.getElem?_eq_getElem hn
      rw [run_take_succ hget]
      exact ⟨(reading_step hw (hmoves n _ hget)).1, ofOneTwin_step hw htwin (hmoves n _ hget)⟩
  refine forall_congr' fun n => forall_congr' fun move => forall_congr' fun hget => ?_
  have hlt : n < moves.length := (List.getElem?_eq_some_iff.1 hget).1
  obtain ⟨hw, htwin⟩ := hknown n (Nat.le_of_lt hlt)
  exact keepsWindow_iff hw htwin (hmoves n move hget)

/-! ## A window of one -/

/-- A call, and the two turns that read a page and hand out its first event. -/
def oneDelivered : List HandoffMove := [.reader .call, .reader .turn, .reader .turn]

/-- The first event of `t`, handed out by a stream with a window of one. -/
def windowOfOne : Handoff :=
  let h := History.step {} (.append firstEvent 0 1 none)
  let d := DurableSubscription.fresh (h.store.head "t").1 8 originOfT { maxInFlight := 1 } {}
  run step (opened h originOfT d) oneDelivered

omit [Digest] in
theorem windowOfOne_exceeded : let _ : Digest := paddedDigest
    (match windowOfOne.reader.sub.begin.2 with
      | .error (.backpressureExceeded text) =>
        text == "unacknowledged delivery window exceeded; reconnect with last cursor"
      | _ => false) = true := by
  decide +kernel

omit [Digest] in
/-- Nothing is left to hand out, and the next call closes the stream. -/
theorem window_closed_early :
    let _ : Digest := paddedDigest
    let w := windowOfOne
    (∃ h d, StoreReachable h ∧
      DurableSubscription.open h.store 8 originOfT { maxInFlight := 1 } {} = .ok d ∧
      Reachable step Genuine (opened h originOfT d) w) ∧
    w.ClosesForWindow (.reader .call) ∧ ¬ w.FrameDue ∧
    (w.step (.reader .call)).reader.sub.closed = true ∧ ¬ w.KeepsWindow (.reader .call) := by
  intro digest w
  have hreach : StoreReachable (History.step {} (.append firstEvent 0 1 none)) :=
    .step (StoreOp.append firstEvent 0 1 none) .init rfl
  have hcloses : w.ClosesForWindow (.reader .call) := by
    refine ⟨by decide +kernel, ?_⟩
    have hraised : _ = true := windowOfOne_exceeded
    split at hraised
    · rename_i text hbegin
      rw [show w.reader.sub.begin.2 = _ from hbegin, eq_of_beq hraised]
    · cases hraised
  have hnone : ¬ w.FrameDue := by
    have hlast : (w.history.store.stream w.reader.start.twinId).all
        (fun e => decide (e.sequence ≤ w.reader.sub.position.sequence)) = true := by
      decide +kernel
    rintro ⟨e, he, hpast, -⟩
    have hle := of_decide_eq_true (List.all_eq_true.1 hlast e he)
    omega
  refine ⟨⟨_, _, hreach, open_origin ?_ rfl, ?_⟩, hcloses, hnone, by decide +kernel,
    fun hkeeps => hnone (hkeeps.exceeded hcloses).1⟩
  · rw [hreach.keeps.1.head_sequence]
    exact Int.natCast_nonneg _
  · refine reachable_run_of fun move hmove _ => ?_
    rcases List.mem_cons.1 hmove with rfl | hmove
    · trivial
    · obtain rfl : move = .reader .turn := by simpa using hmove
      trivial

/-- The stream with a window of one, just opened. -/
def openedOfOne : Handoff :=
  let h := History.step {} (.append firstEvent 0 1 none)
  opened h originOfT
    (.fresh (h.store.head "t").1 8 originOfT { maxInFlight := 1 } {})

/-- The event committed after the one handed out. -/
def secondCommitted : EventEnvelope :=
  ((windowOfOne.step (.ledger (.append secondEvent 1 2 none))).history.store.stream "t").getLastD
    firstEvent

/-- Two more events are committed and one of them is published; the event
handed out is acknowledged, and the next call hands out the one published.
The last call asks for the third. -/
def refilled : List HandoffMove :=
  oneDelivered ++ [.ledger (.append secondEvent 1 2 none), .ledger (.append thirdEvent 2 3 none),
    .reader (.publish secondCommitted), .reader (.acknowledge windowOfOne.reader.sub.position),
    .reader .call, .reader .turn, .reader .call]

theorem move_refilled {n : Nat} {move : HandoffMove} (hmove : refilled[n]? = some move) :
    (move = .reader .call ∧ (n = 0 ∨ n = 7 ∨ n = 9)) ∨
      (move = .reader (.publish secondCommitted) ∧ n = 5) ∨
      (move ≠ .reader .call ∧ ∀ w : Handoff, w.Genuine move) := by
  have hlt : n < refilled.length := (List.getElem?_eq_some_iff.1 hmove).1
  change n < 10 at hlt
  interval_cases n <;> obtain rfl := Option.some.inj hmove
  case «0» | «7» | «9» => exact .inl ⟨rfl, by decide⟩
  case «5» => exact .inr (.inl ⟨rfl, rfl⟩)
  all_goals exact .inr (.inr ⟨by rintro ⟨⟩, fun w => by trivial⟩)

omit [Digest] in
/-- What the run goes by: the event published was committed, the
acknowledgement makes room, and the last call finds the third event due. -/
theorem refilled_eq (digest : Digest) (hpadded : digest = paddedDigest) :
    let before := fun n => run step openedOfOne (refilled.take n)
    secondCommitted.twinId = "t" ∧
      ((before 5).history.store.stream "t")[1]? = some secondCommitted ∧
      (before 7).reader.sub.outstanding.length ≠ (before 7).reader.sub.limits.maxInFlight ∧
      ((before 9).history.store.stream (before 9).reader.start.twinId).any (fun e =>
        decide ((before 9).reader.sub.position.sequence < e.sequence) &&
          (before 9).reader.sub.filters.wants e) = true ∧
      (run step openedOfOne refilled).reader.delivered.map (·.sequence) = [1, 2] ∧
      (run step openedOfOne refilled).reader.sub.closed = true := by
  subst hpadded
  decide +kernel

omit [Digest] in
/-- It is closed for a third frame, and for nothing before. -/
theorem window_kept_refilled :
    let _ : Digest := paddedDigest
    ((run step openedOfOne refilled).reader.delivered.map (·.sequence) = [1, 2] ∧
        (run step openedOfOne refilled).reader.sub.closed = true) ∧
      ∀ n move, refilled[n]? = some move →
        (run step openedOfOne (refilled.take n)).KeepsWindow move := by
  intro digest
  have hreach : StoreReachable (History.step {} (.append firstEvent 0 1 none)) :=
    .step (StoreOp.append firstEvent 0 1 none) .init rfl
  have hopen : DurableSubscription.open
      (History.step {} (.append firstEvent 0 1 none)).store 8 originOfT { maxInFlight := 1 } {} =
        .ok openedOfOne.reader.sub := by
    refine open_origin ?_ rfl
    rw [hreach.keeps.1.head_sequence]
    exact Int.natCast_nonneg _
  have hkept := window_kept_iff hreach hopen refilled
  rw [show opened (History.step {} (.append firstEvent 0 1 none)) originOfT
    openedOfOne.reader.sub = openedOfOne from rfl] at hkept
  obtain ⟨htwin, hcommitted, hroom, hdue, hend⟩ := refilled_eq digest rfl
  beta_reduce at hcommitted hroom hdue
  refine ⟨hend, (hkept fun n move hmove => ?_).2 fun n move hmove hearly => ?_⟩
  · rcases move_refilled hmove with ⟨rfl, -⟩ | ⟨rfl, rfl⟩ | ⟨-, hgenuine⟩
    · trivial
    · show secondCommitted ∈ (run step openedOfOne (refilled.take 5)).history.store.stream
        secondCommitted.twinId
      rw [htwin]
      exact List.mem_of_getElem? hcommitted
    · exact hgenuine _
  · obtain ⟨rfl, ⟨-, hcount⟩, hnone⟩ := hearly
    rcases move_refilled hmove with ⟨-, rfl | rfl | rfl⟩ | ⟨hcall, -⟩ | ⟨hcall, -⟩
    · cases hcount
    · exact hroom hcount
    · obtain ⟨e, he, hboth⟩ := List.any_eq_true.1 hdue
      obtain ⟨hpast, hwants⟩ := Bool.and_eq_true_iff.1 hboth
      exact hnone ⟨e, he, of_decide_eq_true hpast, hwants⟩
    · cases hcall
    · exact hcall rfl

end Handoff

end ArgoTwin
