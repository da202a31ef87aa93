import ArgoTwin.LedgerRuns
/-!
# Queries by recorded time

What the system knew by a time is replayed from the events recorded by
then, and the replay stops at the first event recorded later. That is all
of them where the recorded times never step back along a stream; the store
stamps an event with whatever its clock reads.
-/

namespace ArgoTwin

open Library TwinAggregate

/-- `event.recorded_at <= as_of_recorded_time`. -/
def EventEnvelope.recordedBy (asOf : DateTime) (e : EventEnvelope) : Bool :=
  e.recordedAt.instant ≤ asOf.instant

/-- The events of a twin recorded by a time. -/
def Store.recordedBy (store : Store) (twinId : String) (asOf : DateTime) : List EventEnvelope :=
  (store.stream twinId).filter (·.recordedBy asOf)

/-- The recorded times of a stream never step back. -/
def RecordedInOrder (store : Store) : Prop :=
  ∀ twinId, (store.stream twinId).Pairwise fun earlier later =>
    earlier.recordedAt.instant ≤ later.recordedAt.instant

section Replaying

variable {s : TwinState} {es : List EventEnvelope} {asOf : DateTime} {twinId : String}

theorem isLater_eq (hasOf : asOf.naive = false) {e : EventEnvelope}
    (he : e.recordedAt.naive = false) :
    isLater (some asOf) e = .ok (!e.recordedBy asOf) := by
  simp only [isLater, DateTime.lt, hasOf, he, ne_eq, not_true_eq_false, ↓reduceIte,
    EventEnvelope.recordedBy, Except.ok.injEq]
  rw [Bool.eq_iff_iff]
  simp

variable [Digest] {store : Store}

/-- **The replay stops at the first event recorded later.** -/
theorem replayFrom_asOf (hasOf : asOf.naive = false) {previousHash : String}
    (hes : Linked Store.Follows Store.position (s.sequence, previousHash) es)
    (haware : ∀ e ∈ es, e.recordedAt.naive = false) (hlegal : Legal s es) :
    replayFrom (some asOf) s previousHash es =
      .ok (replay s (es.takeWhile (·.recordedBy asOf))) := by
  induction es generalizing s previousHash with
  | nil => rfl
  | cons e es ih =>
    obtain ⟨hfollows, hrest⟩ := hes
    obtain ⟨haccepts, hlegal⟩ := hlegal
    have hlater := isLater_eq hasOf (haware e List.mem_cons_self)
    have hverify : e.verify previousHash = .ok () :=
      EventEnvelope.verify_eq_ok.2 ⟨hfollows.previousHash, hfollows.eventHash⟩
    have hsequence : e.sequence = s.sequence + 1 := hfollows.sequence
    have happlied : applied s e = .ok (effect e s) := applied_eq_ok.2 ⟨haccepts, rfl⟩
    cases hby : e.recordedBy asOf with
    | false =>
      rw [hby] at hlater
      rw [List.takeWhile_cons_of_neg (by simp [hby])]
      simp only [replayFrom, bind, Except.bind, hlater, Bool.not_false, ↓reduceIte]
      rfl
    | true =>
      rw [hby] at hlater
      rw [List.takeWhile_cons_of_pos hby]
      simp only [replayFrom, bind, Except.bind, hlater, Bool.not_true, Bool.false_eq_true,
        ↓reduceIte, hsequence, ne_eq, not_true_eq_false, hverify, happlied]
      exact ih hrest (fun e' he' => haware e' (List.mem_cons_of_mem _ he')) hlegal

/-- **Rebuilding as of a recorded time**, with snapshots or without. -/
theorem Sound.rebuild_asOf (hs : Sound store) (hasOf : asOf.naive = false) (useSnapshots : Bool) :
    rebuild store twinId useSnapshots none (some asOf) =
      .ok (replay { twinId := twinId } ((store.stream twinId).takeWhile (·.recordedBy asOf))) := by
  have hload := hs.valid.load_range twinId 0 Store.bindable_none
  have haware : ∀ e ∈ store.stream twinId, e.recordedAt.naive = false := by
    intro e he
    obtain ⟨row, -, rfl⟩ := List.mem_map.1 he
    rfl
  simp only [rebuild, restored, Option.isNone_some, Bool.and_false, Bool.false_eq_true, ↓reduceIte,
    bind, Except.bind, hload, Int.toNat_zero, List.drop_zero]
  exact replayFrom_asOf (s := { twinId := twinId }) hasOf (hs.valid.chained_stream twinId) haware
    (hs.lawful twinId)

omit [Digest] in
/-- A replay stands at its last event, where it has one. -/
theorem sequence_replay : (replay s es).sequence = s.sequence ∨
    ∃ e ∈ es, (replay s es).sequence = e.sequence := by
  have hposition := congrArg Prod.fst (@replay_position s es)
  simp only [endOf] at hposition
  cases hlast : es.getLast? with
  | none =>
    rw [hlast] at hposition
    exact .inl hposition
  | some e =>
    rw [hlast] at hposition
    exact .inr ⟨e, List.mem_of_getLast? hlast, hposition⟩

omit [Digest] in
theorem le_sequence_replay (hes : es.Pairwise fun a b => a.sequence < b.sequence)
    {e : EventEnvelope} (he : e ∈ es) : e.sequence ≤ (replay s es).sequence := by
  induction es using List.reverseRecOn with
  | nil => cases he
  | append_singleton es last _ =>
    have hposition := congrArg Prod.fst (@replay_position s (es ++ [last]))
    rw [endOf_concat] at hposition
    have hsequence : (replay s (es ++ [last])).sequence = last.sequence := hposition
    rw [hsequence]
    rcases List.mem_append.1 he with hearlier | hlast
    · exact le_of_lt ((List.pairwise_append.1 hes).2.2 e hearlier last (List.mem_singleton_self _))
    · rw [List.mem_singleton.1 hlast]

/-- **Exact queries need times in order**: where an event recorded later
than one after it is in the stream, the replay as of the time between them
stops short of what it should hold. -/
theorem inOrder_of_exact (hs : Sound store)
    (hexact : ∀ asOf, asOf.naive = false → rebuild store twinId false none (some asOf) =
      .ok (replay { twinId := twinId } (store.recordedBy twinId asOf))) :
    (store.stream twinId).Pairwise fun earlier later =>
      earlier.recordedAt.instant ≤ later.recordedAt.instant := by
  have hsequences := Store.pairwise_sequence (hs.valid.chained_stream twinId)
  refine hsequences.imp_of_mem fun {earlier later} hearlier hlater hlt => ?_
  by_contra hback
  -- as of the later event's time, the earlier one stops the replay
  let asOf := DateTime.utc later.recordedAt.instant
  have hnot : earlier.recordedBy asOf = false := by
    simpa [EventEnvelope.recordedBy, asOf] using hback
  have hby : later.recordedBy asOf = true := by simp [EventEnvelope.recordedBy, asOf]
  have hstate := hexact asOf rfl
  rw [hs.rebuild_asOf rfl, Except.ok.injEq] at hstate
  have hkept : later ∈ store.recordedBy twinId asOf := List.mem_filter.2 ⟨hlater, hby⟩
  have hreached := le_sequence_replay (s := { twinId := twinId })
    (hsequences.sublist List.filter_sublist) hkept
  rw [← Store.recordedBy, ← hstate] at hreached
  have hpositive := (Store.mem_sequence (hs.valid.chained_stream twinId) hlater).1
  rcases @sequence_replay { twinId := twinId }
      ((store.stream twinId).takeWhile (·.recordedBy asOf)) with hzero | ⟨last, hlast, hend⟩
  · rw [hzero] at hreached
    exact absurd hreached (not_le.2 hpositive)
  · have hsplit := List.takeWhile_append_dropWhile (p := (·.recordedBy asOf))
      (l := store.stream twinId)
    rw [← hsplit] at hearlier hsequences
    have hrest : earlier ∈ (store.stream twinId).dropWhile (·.recordedBy asOf) := by
      refine (List.mem_append.1 hearlier).resolve_left fun htaken => ?_
      have hpass := List.all_eq_true.1 List.all_takeWhile earlier htaken
      rw [hnot] at hpass
      cases hpass
    have hbefore := (List.pairwise_append.1 hsequences).2.2 last hlast earlier hrest
    rw [hend] at hreached
    omega

omit [Digest] in
/-- Where the times are in order, the replay stops at nothing it should
hold. -/
theorem takeWhile_recordedBy (horder : RecordedInOrder store) :
    (store.stream twinId).takeWhile (·.recordedBy asOf) = store.recordedBy twinId asOf := by
  refine takeWhile_eq_filter ((horder twinId).imp fun {earlier later} hle hlater => ?_)
  simp only [EventEnvelope.recordedBy, decide_eq_true_eq] at hlater ⊢
  exact le_trans hle hlater

end Replaying

/-! ## Exact queries -/

variable [Digest] {store : Store} {h : History}

/-- **Recorded-time queries are exact**: what is replayed for a time are
the events recorded by then, all of them and no others, and a later time
replays them and more. -/
structure RecordedExactly (store : Store) : Prop where
  exact : ∀ twinId useSnapshots asOf, asOf.naive = false →
    rebuild store twinId useSnapshots none (some asOf) =
      .ok (replay { twinId := twinId } (store.recordedBy twinId asOf))
  grows : ∀ twinId (asOf asOf' : DateTime), asOf.instant ≤ asOf'.instant →
    store.recordedBy twinId asOf <+: store.recordedBy twinId asOf'

/-- They are where the recorded times are in order. -/
theorem recordedExactly_iff (hs : Sound store) : RecordedExactly store ↔ RecordedInOrder store := by
  constructor
  · intro hexact twinId
    exact inOrder_of_exact hs (hexact.exact twinId false)
  · intro horder
    refine ⟨fun twinId useSnapshots asOf hasOf => ?_, fun twinId asOf asOf' hle => ?_⟩
    · rw [hs.rebuild_asOf hasOf, takeWhile_recordedBy horder]
    · have hboth : (store.recordedBy twinId asOf').takeWhile (·.recordedBy asOf) =
          store.recordedBy twinId asOf := by
        have hsublist := (horder twinId).sublist (List.filter_sublist (p := (·.recordedBy asOf')))
        rw [Store.recordedBy, takeWhile_eq_filter, List.filter_filter]
        · refine List.filter_congr fun e _ => ?_
          simp only [EventEnvelope.recordedBy]
          by_cases hby : e.recordedAt.instant ≤ asOf.instant
          · simp [hby, le_trans hby hle]
          · simp [hby]
        · refine hsublist.imp fun {earlier later} hrecorded hlater => ?_
          simp only [EventEnvelope.recordedBy, decide_eq_true_eq] at hlater ⊢
          exact le_trans hrecorded hlater
      rw [← hboth]
      exact List.takeWhile_prefix _

/-- A commit's clock does not read a time before its twin's last event was
recorded. -/
def StampsForward (h : History) : StoreOp → Prop
  | .append e x now _ => ∀ r after, h.store.Fresh e x now r after →
      ∀ last ∈ (h.store.stream e.twinId).getLast?, last.recordedAt.instant ≤ now
  | _ => True

/-- One call keeps the times in order, when its clock does. -/
theorem recordedInOrder_step {op : StoreOp} (horder : RecordedInOrder h.store)
    (hop : StampsForward h op) : RecordedInOrder (h.step op).store := by
  rcases step_cases h op with ⟨e, x, now, fault, r, rfl, hfresh, -⟩ | ⟨snapshot, rfl, hsaved⟩ |
    hquiet
  · intro twinId
    rw [hfresh.stream_eq]
    split_ifs with htwin
    swap
    · exact horder twinId
    subst htwin
    have hrecorded : (Store.decode r).recordedAt.instant = now := by
      rw [hfresh.sealed]
      simp [Store.decode, EventEnvelope.sealAt]
    refine List.pairwise_append.2 ⟨horder e.twinId, List.pairwise_singleton _ _, ?_⟩
    intro earlier hearlier later hlater
    rw [List.mem_singleton.1 hlater, hrecorded]
    -- no event was recorded later than the last
    obtain ⟨before, last, hlast⟩ : ∃ before last, h.store.stream e.twinId = before ++ [last] :=
      (List.eq_nil_or_concat' _).resolve_left (List.ne_nil_of_mem hearlier)
    have hnow : last.recordedAt.instant ≤ now := hop r _ hfresh last (by simp [hlast])
    have hprefix := horder e.twinId
    rw [hlast] at hearlier hprefix
    rcases List.mem_append.1 hearlier with hmem | hmem
    · have hle := (List.pairwise_append.1 hprefix).2.2 earlier hmem last (List.mem_singleton_self _)
      exact le_trans hle hnow
    · rw [List.mem_singleton.1 hmem]
      exact hnow
  · obtain ⟨-, hstore⟩ := hsaved
    rw [hstore]
    exact horder
  · intro twinId
    rw [Store.stream, Store.rowsOf, hquiet.events]
    exact horder twinId

/-- **When recorded-time queries are exact.** In a vetted ledger they are
where the recorded times of each stream are in order; and they stay in
order over every run whose commits never read the clock behind the last
event of their twin. -/
theorem recorded_queries_exact :
    (∀ h, LedgerReachable h → (RecordedExactly h.store ↔ RecordedInOrder h.store)) ∧
    ∀ h, Reachable History.step (fun h op => Vetted h op ∧ StampsForward h op) {} h →
      RecordedExactly h.store := by
  refine ⟨fun h hreach => recordedExactly_iff hreach.sound, fun h hreach => ?_⟩
  have hledger : LedgerReachable h := hreach.mono fun _ _ hop => hop.1
  have horder : RecordedInOrder h.store := by
    refine Reachable.invariant (I := fun h => RecordedInOrder h.store) (fun _ => .nil) ?_ hreach
    exact fun h op hkept hop => recordedInOrder_step hkept hop.2
  exact (recordedExactly_iff hledger.sound).2 horder

/-- A second item of evidence for the stream of `t`. -/
def secondEvidence : EventEnvelope :=
  { firstEvent with
    eventId := "event-2", idempotencyKey := "key-2", payload := evidencePayload "e2" }

omit [Digest] in
/-- A ledger of two events, committed in one microsecond, is asked exactly. -/
theorem recorded_queries_exact_together : let _ : Digest := checksumDigest
    let h := run History.step {} [.append firstEvent 0 10 none, .append secondEvidence 1 10 none]
    (h.store.stream "t").length = 2 ∧ RecordedExactly h.store := by
  intro digest h
  have hfirst : Reachable History.step (fun h op => Vetted h op ∧ StampsForward h op) {}
      (History.step {} (.append firstEvent 0 10 none)) := by
    refine .step (StoreOp.append firstEvent 0 10 none) .init ⟨⟨rfl, fun r after hfresh => ?_⟩, ?_⟩
    · rw [hfresh.sealed]
      exact accepts_of_applied (by decide +kernel)
    · rintro r after - last ⟨⟩
  refine ⟨by decide +kernel, recorded_queries_exact.2 h
    (.step (StoreOp.append secondEvidence 1 10 none) hfirst ⟨⟨rfl, fun r after hfresh => ?_⟩, ?_⟩)⟩
  · rw [hfresh.sealed]
    exact accepts_of_applied (by decide +kernel)
  · intro r after hfresh last hlast
    have hlatest : ((History.step {} (.append firstEvent 0 10 none)).store.stream
        secondEvidence.twinId).getLast?.map (·.recordedAt.instant) = some 10 := by decide +kernel
    rw [Option.mem_def.1 hlast, Option.map_some, Option.some.injEq] at hlatest
    exact hlatest.le

omit [Digest] in
/-- **A clock that steps back hides an event**: the second of two events is
recorded by the time asked about, and is not replayed. -/
theorem recorded_queries_stop : let _ : Digest := checksumDigest
    let ops : List StoreOp := [.append firstEvent 0 10 none, .append secondEvidence 1 5 none]
    let h := run History.step {} ops
    LedgerReachable h ∧ (h.store.recordedBy "t" (DateTime.utc 7)).length = 1 ∧
      rebuild h.store "t" false none (some (DateTime.utc 7)) = .ok { twinId := "t" } ∧
      ¬ RecordedExactly h.store := by
  intro digest ops h
  have hreach : LedgerReachable h := by
    have hlegal : Legal { twinId := "t" } (h.store.stream "t") :=
      legal_of_folded (by decide +kernel)
    have honly : h.store.events.all (fun row => row.twinId == "t") = true := by decide +kernel
    refine ledgerReachable_run (List.all_eq_true.1 (by decide +kernel)) ?_
    exact lawful_of_only (fun row hrow => by simpa using List.all_eq_true.1 honly row hrow) hlegal
  have htaken : (h.store.stream "t").takeWhile (·.recordedBy (DateTime.utc 7)) = [] := by
    have hfirst : ((h.store.stream "t").head?.map (·.recordedBy (DateTime.utc 7))) =
        some false := by decide +kernel
    cases hstream : h.store.stream "t" with
    | nil => rfl
    | cons e es =>
      rw [hstream] at hfirst
      have hnot : e.recordedBy (DateTime.utc 7) = false := Option.some.inj hfirst
      rw [List.takeWhile_cons_of_neg (by simp [hnot])]
  refine ⟨hreach, by decide +kernel, ?_, fun hexact => ?_⟩
  · rw [hreach.sound.rebuild_asOf rfl, htaken]
    rfl
  · have horder := (recordedExactly_iff hreach.sound).1 hexact "t"
    have hback : ¬ ((h.store.stream "t").map (·.recordedAt.instant)).Pairwise (· ≤ ·) := by
      decide +kernel
    exact hback (List.pairwise_map.2 horder)

end ArgoTwin
