import ArgoTwin.Claiming
import ArgoTwin.Columns
import ArgoTwin.Library.Oldest
/-!
# How long the outbox keeps its rows

Leases and publication times are stored in UTC and compared as text. A
claim compares them with its own clock in UTC, and so in the order of time.
A pruning compares them with the text of the time it is given, in whatever
offset that stands: what it takes for the bound is the wall clock
(`outbox_times_iff`).
-/

namespace ArgoTwin

open Library

namespace Store

open EventColumns

/-! ## What is to be pruned -/

/-- When the row was published. -/
def publishedTime (row : OutboxRow) : Instant := (row.publishedAt.map DateTime.instant).getD 0

/-- The row was published before the instant. -/
def publishedBefore (bound : Instant) (row : OutboxRow) : Bool :=
  row.publishedAt.any fun d => d.instant < bound

/-- The row was published before the wall clock of the bound, if that were
UTC, or at it where the bound has another offset. -/
def wallBefore (bound : DateTime) (row : OutboxRow) : Bool :=
  row.publishedAt.any fun d =>
    d.wall < bound.wall ∨ (d.wall = bound.wall ∧ bound.utcoffset ≠ some 0)

/-- The rows a pruning deletes. -/
def pruned (s : Store) (bound : DateTime) (limit : Int) : List OutboxRow :=
  s.outbox.filter fun row => row ∉ (finalState (pruneOutbox bound limit) s).outbox

/-- **A pruning deletes the oldest** of the rows published before its
bound, as many as its limit; it deletes no other row, and says how many. -/
structure PrunesOldest (s : Store) (bound : DateTime) (limit : Int) : Prop where
  oldest : TakesOldest publishedTime (publishedBefore bound.instant) limit.toNat s.outbox
    (s.pruned bound limit)
  rest : finalState (pruneOutbox bound limit) s =
    { s with outbox := s.outbox.filter fun row => row ∉ s.pruned bound limit }
  answer : outcome (pruneOutbox bound limit) s = .ok (s.pruned bound limit).length

/-- The row waits, and its lease, if it has one, ended by now. -/
def Expired (now : Instant) (row : OutboxRow) : Prop :=
  row.publishedAt = none ∧ ∀ leaseUntil, row.leaseUntil = some leaseUntil →
    leaseUntil.instant ≤ now

/-- **A claim takes a lease for expired from its end on**: it hands out
such rows only, and all of them where its limit allows. -/
structure ClaimsExpired [Digest] (s : Store) : Prop where
  only : ∀ leaseOwner limit leaseSeconds now records s',
    Returns (claimOutbox leaseOwner limit leaseSeconds now) s records s' →
      ∀ record ∈ records, ∃ row ∈ s.outbox, outboxKey row = record.slot ∧ Expired now row
  all : ∀ leaseOwner limit leaseSeconds now records s',
    Returns (claimOutbox leaseOwner limit leaseSeconds now) s records s' →
      s.outbox.length ≤ limit → ∀ row ∈ s.outbox, Expired now row →
        ∃ record ∈ records, record.slot = outboxKey row

/-! ## The stored times -/

/-- The times of a row are times of the calendar, in UTC. -/
structure Stamped (row : OutboxRow) : Prop where
  published : ∀ d, row.publishedAt = some d → Dated d
  leased : ∀ d, row.leaseUntil = some d → Dated d

variable {s : Store} {row : OutboxRow} {bound : DateTime} {offset limit : Int} {now : Instant}

/-- A lease compares by its instant. -/
theorem leaseFree_iff_instant (hrow : Stamped row) (hnow : DateTime.Representable now) :
    leaseFree (DateTime.utc now) row = true ↔
      ∀ leaseUntil, row.leaseUntil = some leaseUntil → leaseUntil.instant ≤ now := by
  cases hlease : row.leaseUntil with
  | none => simp [leaseFree, hlease]
  | some leaseUntil =>
    obtain ⟨t, rfl, ht⟩ := hrow.leased leaseUntil hlease
    rw [leaseFree_iff hnow ht hlease]
    simp

theorem claimable_iff_expired (hrow : Stamped row) (hnow : DateTime.Representable now) :
    Claimable (DateTime.utc now) row ↔ Expired now row :=
  and_congr Iff.rfl (leaseFree_iff_instant hrow hnow)

/-- A publication compares by its wall clock. -/
theorem published_lt_iff (hrow : Stamped row) (hwall : DateTime.Representable bound.wall)
    (hoffset : bound.utcoffset = some offset) (hday : offset.natAbs < 86400 * 1000000) :
    (row.publishedAt.isSome && decide ((row.publishedAt.map DateTime.isoformat).getD "" <
      bound.isoformat)) = wallBefore bound row := by
  cases hpublished : row.publishedAt with
  | none => simp [wallBefore, hpublished]
  | some d =>
    obtain ⟨t, rfl, ht⟩ := hrow.published d hpublished
    have htext := DateTime.utc_isoformat_lt_iff ht hwall hoffset hday
    simp only [wallBefore, hpublished, Option.isSome_some, Option.map_some, Option.getD_some,
      Bool.true_and, Option.any_some, decide_eq_decide, htext, hoffset]
    simp [DateTime.utc]

/-- The rows a pruning finds, oldest first. -/
theorem takesOldest_prunable (limit : Int) (hrows : ∀ row ∈ s.outbox, Stamped row)
    (hwall : DateTime.Representable bound.wall) (hoffset : bound.utcoffset = some offset)
    (hday : offset.natAbs < 86400 * 1000000) :
    TakesOldest publishedTime (wallBefore bound) limit.toNat s.outbox (s.prunable bound limit) := by
  have hfilter : (s.outbox.filter fun row => row.publishedAt.isSome &&
      decide ((row.publishedAt.map DateTime.isoformat).getD "" < bound.isoformat)) =
      s.outbox.filter (wallBefore bound) :=
    List.filter_congr fun row hrow => published_lt_iff (hrows row hrow) hwall hoffset hday
  unfold prunable
  simp only [hfilter]
  refine takesOldest_sorted ?_
  have htotal : Std.Total fun a b : OutboxRow => (a.publishedAt.map DateTime.isoformat).getD "" ≤
      (b.publishedAt.map DateTime.isoformat).getD "" := ⟨fun a b => String.le_total _ _⟩
  have htrans : IsTrans OutboxRow fun a b => (a.publishedAt.map DateTime.isoformat).getD "" ≤
      (b.publishedAt.map DateTime.isoformat).getD "" := ⟨fun a b c => String.le_trans⟩
  refine (List.pairwise_insertionSort _ _).imp_of_mem fun {a b} ha hb htext => ?_
  have hdated : ∀ row ∈ s.outbox.filter (wallBefore bound),
      ∃ t, row.publishedAt = some (DateTime.utc t) ∧ DateTime.Representable t := by
    intro row hrow
    obtain ⟨hin, hread⟩ := List.mem_filter.1 hrow
    obtain ⟨d, hd, -⟩ := (Option.any_eq_true _ _).1 hread
    obtain ⟨t, rfl, ht⟩ := (hrows row hin).published d hd
    exact ⟨t, hd, ht⟩
  obtain ⟨t, hpublished, ht⟩ := hdated a ((List.mem_insertionSort _).1 ha)
  obtain ⟨u, hpublished', hu⟩ := hdated b ((List.mem_insertionSort _).1 hb)
  simp only [publishedTime, hpublished, hpublished', Option.map_some, Option.getD_some,
    DateTime.instant_utc] at htext ⊢
  exact (DateTime.isoformat_le_iff ht hu).1 htext

/-- What a pruning by an aware time deletes. -/
theorem pruned_eq (haware : bound.naive = false) (hlimit : limit < 2 ^ 63) :
    finalState (pruneOutbox bound limit) s =
        { s with outbox := s.outbox.filter fun row => row ∉ s.prunable bound limit } ∧
      outcome (pruneOutbox bound limit) s =
        .ok (s.outbox.filter fun row => row ∈ s.prunable bound limit).length := by
  unfold pruneOutbox
  rw [if_neg (by simp [haware])]
  by_cases hzero : limit ≤ 0
  · have hnone : s.prunable bound limit = [] := by
      rw [prunable, Int.toNat_eq_zero.2 hzero, List.take_zero]
    rw [if_pos hzero, hnone]
    simp [finalState, outcome, pure, EStateM.pure]
  · rw [if_neg hzero, bindInteger_of_pos (not_le.1 hzero) hlimit]
    exact ⟨rfl, rfl⟩

/-- A pruning whose limit the database does not take raises. -/
theorem outcome_pruneOutbox_of_le (haware : bound.naive = false) (hlimit : 2 ^ 63 ≤ limit) :
    outcome (pruneOutbox bound limit) s =
      .error (.overflowError "Python int too large to convert to SQLite INTEGER") := by
  have hzero : ¬ limit ≤ 0 := by omega
  unfold pruneOutbox
  rw [if_neg (by simp [haware]), if_neg hzero, bindInteger_of_le hlimit]
  rfl

theorem pruned_eq_filter (haware : bound.naive = false) (hlimit : limit < 2 ^ 63) :
    s.pruned bound limit = s.outbox.filter fun row => row ∈ s.prunable bound limit := by
  rw [pruned, (pruned_eq haware hlimit).1]
  refine List.filter_congr fun row hrow => ?_
  simp [hrow]

/-- **The rows deleted**, by the wall clock of the bound. -/
theorem takesOldest_pruned (hlimit : limit < 2 ^ 63) (hnodup : s.outbox.Nodup)
    (hrows : ∀ row ∈ s.outbox, Stamped row) (hwall : DateTime.Representable bound.wall)
    (hoffset : bound.utcoffset = some offset) (hday : offset.natAbs < 86400 * 1000000) :
    TakesOldest publishedTime (wallBefore bound) limit.toNat s.outbox (s.pruned bound limit) := by
  have haware : bound.naive = false := by simp [DateTime.naive, hoffset]
  have hprunable := takesOldest_prunable limit hrows hwall hoffset hday
  have hsub : s.prunable bound limit ⊆ s.outbox := by
    intro row hrow
    have hmem := (List.mem_insertionSort _).1 (List.mem_of_mem_take hrow)
    exact List.mem_of_mem_filter hmem
  have hdistinct : (s.prunable bound limit).Nodup := by
    refine List.Nodup.sublist (List.take_sublist _ _) ?_
    rw [(List.perm_insertionSort _ _).nodup_iff]
    exact hnodup.filter _
  have hmem : ∀ row, row ∈ s.pruned bound limit ↔ row ∈ s.prunable bound limit := by
    intro row
    rw [pruned_eq_filter haware hlimit, List.mem_filter, decide_eq_true_eq]
    exact ⟨fun h => h.2, fun h => ⟨hsub h, h⟩⟩
  have hperm : (s.pruned bound limit).Perm (s.prunable bound limit) :=
    (List.perm_ext_iff_of_nodup (hnodup.filter _) hdistinct).2 hmem
  exact hprunable.perm hperm.symm

/-- **When a pruning deletes the oldest**: where the database takes the
limit, and the bound's wall clock and its instant part the published rows
alike, or leave the limit enough. -/
theorem prunesOldest_iff (hnodup : s.outbox.Nodup) (hrows : ∀ row ∈ s.outbox, Stamped row)
    (hwall : DateTime.Representable bound.wall) (hoffset : bound.utcoffset = some offset)
    (hday : offset.natAbs < 86400 * 1000000) :
    PrunesOldest s bound limit ↔ limit < 2 ^ 63 ∧
      ((∀ row ∈ s.outbox, wallBefore bound row = publishedBefore bound.instant row) ∨
        (limit.toNat ≤ s.outbox.countP (wallBefore bound) ∧
          limit.toNat ≤ s.outbox.countP (publishedBefore bound.instant))) := by
  have haware : bound.naive = false := by simp [DateTime.naive, hoffset]
  by_cases hlimit : limit < 2 ^ 63
  swap
  · refine iff_of_false (fun h => ?_) fun h => hlimit h.1
    have hanswer := h.answer
    rw [outcome_pruneOutbox_of_le haware (not_lt.1 hlimit)] at hanswer
    cases hanswer
  rw [and_iff_right hlimit]
  -- both readings follow the time of publication
  have htime : ∀ row ∈ s.outbox, row.publishedAt.isSome = true →
      wallBefore bound row = decide (publishedTime row < bound.wall ∨
          (publishedTime row = bound.wall ∧ bound.utcoffset ≠ some 0)) ∧
        publishedBefore bound.instant row = decide (publishedTime row < bound.instant) := by
    intro row hrow hsome
    obtain ⟨d, hd⟩ := Option.isSome_iff_exists.1 hsome
    obtain ⟨t, rfl, -⟩ := (hrows row hrow).published d hd
    simp [wallBefore, publishedBefore, publishedTime, hd, DateTime.utc, DateTime.instant]
  have hpublished : ∀ row : OutboxRow,
      (wallBefore bound row = true ∨ publishedBefore bound.instant row = true) →
        row.publishedAt.isSome = true := by
    intro row hread
    cases hd : row.publishedAt with
    | none => simp [wallBefore, publishedBefore, hd] at hread
    | some d => rfl
  have hearly : ∀ a ∈ s.outbox, ∀ b ∈ s.outbox, publishedBefore bound.instant a = true →
      wallBefore bound b = true → publishedTime a ≤ publishedTime b →
      wallBefore bound a = true := by
    intro a ha b hb hdue hread hle
    have ha' := htime a ha (hpublished a (.inr hdue))
    have hb' := htime b hb (hpublished b (.inl hread))
    rw [hb'.1, decide_eq_true_eq] at hread
    rw [ha'.1, decide_eq_true_eq]
    by_cases hsame : publishedTime a = publishedTime b
    · rwa [hsame]
    · have hlt : publishedTime a < publishedTime b := lt_of_le_of_ne hle hsame
      rcases hread with hbefore | ⟨hat, -⟩
      · exact .inl (hlt.trans hbefore)
      · exact .inl (hat ▸ hlt)
  have hdue : ∀ a ∈ s.outbox, ∀ b ∈ s.outbox, wallBefore bound a = true →
      publishedBefore bound.instant b = true → publishedTime a ≤ publishedTime b →
      publishedBefore bound.instant a = true := by
    intro a ha b hb hread hdue hle
    have ha' := htime a ha (hpublished a (.inl hread))
    have hb' := htime b hb (hpublished b (.inr hdue))
    rw [hb'.2, decide_eq_true_eq] at hdue
    rw [ha'.2, decide_eq_true_eq]
    exact lt_of_le_of_lt hle hdue
  have hsub : s.pruned bound limit ⊆ s.outbox := fun row hrow => List.mem_of_mem_filter hrow
  rw [← takesOldest_iff hnodup hsub (hnodup.filter _)
    (takesOldest_pruned hlimit hnodup hrows hwall hoffset hday) hearly hdue]
  constructor
  · exact fun h => h.oldest
  · refine fun h => ⟨h, ?_, ?_⟩
    · rw [(pruned_eq haware hlimit).1]
      congr 1
      refine List.filter_congr fun row hrow => ?_
      rw [pruned_eq_filter haware hlimit]
      simp [hrow]
    · rw [(pruned_eq haware hlimit).2, pruned_eq_filter haware hlimit]

/-- **Leases expire on time**, wherever the rows are stamped. -/
theorem claimsExpired [Digest] (hs : s.Valid) (hf : s.Filed)
    (hrows : ∀ row ∈ s.outbox, Stamped row) : ClaimsExpired s where
  only leaseOwner limit leaseSeconds now records s' h record hrecord := by
    obtain ⟨leaseUntil, hend, -, -, htook⟩ := claimOutbox_took hf h record hrecord
    obtain ⟨row, hrow, hkey, hfree, -⟩ := htook.row
    have hnow := (leaseEnd_eq_ok.1 hend).2.1
    exact ⟨row, hrow, hkey, (claimable_iff_expired (hrows row hrow) hnow).1 hfree⟩
  all leaseOwner limit leaseSeconds now records s' h hlimit row hrow hexpired := by
    have hpositive : 0 < limit := by
      have hlength := List.length_pos_of_mem hrow
      omega
    -- the claim got as far as its rows
    have hbegan := h
    unfold claimOutbox at hbegan
    split_ifs at hbegan with howner hnone hseconds
    · simp at hbegan
    · omega
    · simp at hbegan
    obtain ⟨leaseUntil, _, hend, hclaimed⟩ := returns_bind.1 hbegan
    have hend' := (returns_fromExcept.1 hend).1
    have hnow := (leaseEnd_eq_ok.1 hend').2.1
    obtain ⟨_, _, hbind, -⟩ := returns_bind.1 hclaimed
    obtain ⟨-, -, hbound⟩ := bindInteger_eq_ok.1 (returns_fromExcept.1 hbind).1
    obtain ⟨records', hrecords, hclaim⟩ := returns_claimOutbox hs hf howner hpositive hbound
      (not_lt.1 hseconds) hend'
    obtain ⟨rfl, -⟩ := returns_unique h hclaim
    have hwithin : (s.pendingRows (DateTime.utc now)).length ≤ limit.toNat := by
      have hshort : (s.pendingRows (DateTime.utc now)).length ≤ s.outbox.length := by
        rw [pendingRows, List.length_insertionSort]
        exact List.length_filter_le _ _
      omega
    rw [List.take_of_length_le hwithin] at hrecords
    have hpending : row ∈ s.pendingRows (DateTime.utc now) :=
      mem_pendingRows.2 ⟨hrow, (claimable_iff_expired (hrows row hrow) hnow).2 hexpired⟩
    obtain ⟨i, hi, hget⟩ := List.getElem_of_mem hpending
    have hi' : i < records.length := hrecords.length_eq ▸ hi
    refine ⟨records[i], List.getElem_mem hi', ?_⟩
    have hrecord := List.forall₂_iff_get.1 hrecords
    rw [← hget]
    exact (hrecord.2 i hi hi').slot

end Store

/-! ## Over a run -/

/-- Ledger calls carry aware times, and their clocks read times of the
calendar. -/
def InCalendar (h : History) (op : StoreOp) : Prop :=
  TimesAware h op ∧ ∀ now, op.reading = some now → DateTime.Representable now

variable [Digest] {h : History}

/-- **Every time of the outbox is stamped.** -/
theorem stamped_of_reachable (hreach : Reachable History.step InCalendar {} h) :
    ∀ row ∈ h.store.outbox, Store.Stamped row := by
  refine Reachable.invariant (I := fun h => ∀ row ∈ h.store.outbox, Store.Stamped row)
    (fun row hrow => by cases hrow) (fun h op hrows hop => ?_) hreach
  rcases Store.turned_step h op with ⟨e, x, now, fault, r, rfl, hfresh⟩ | hturned
  · intro row hrow
    rw [hfresh.outbox_eq] at hrow
    rcases List.mem_append.1 hrow with hold | hnew
    · exact hrows row hold
    · obtain rfl := List.mem_singleton.1 hnew
      exact ⟨fun d hd => (by cases hd), fun d hd => by cases hd⟩
  · intro row' hrow'
    obtain ⟨row, hrow, hturn⟩ := hturned.rows row' hrow'
    have hstamped := hrows row hrow
    cases hturn with
    | stays => exact hstamped
    | claimed hclaim hend hfree =>
      refine ⟨hstamped.published, fun d hd => ?_⟩
      obtain rfl := Option.some.inj hd
      exact ⟨_, rfl, (Store.leaseEnd_eq_ok.1 hend).2.2⟩
    | marked hmark hleased =>
      refine ⟨fun d hd => ?_, fun d hd => by cases hd⟩
      obtain rfl := Option.some.inj hd
      exact ⟨_, rfl, hop.2 _ (by rw [hmark]; rfl)⟩
    | released hrelease hleased =>
      exact ⟨hstamped.published, fun d hd => by cases hd⟩

/-- **Stored times compare as times.** In every state a claim takes leases
for expired from their instant on; and a pruning deletes the oldest rows
published before the instant it is given exactly where the database takes
its limit, and that instant and its wall clock read as UTC part the
published rows alike, or each leave at least as many as the limit. -/
theorem outbox_times_iff (hreach : Reachable History.step InCalendar {} h) {bound : DateTime}
    {offset limit : Int} (hwall : DateTime.Representable bound.wall)
    (hoffset : bound.utcoffset = some offset) (hday : offset.natAbs < 86400 * 1000000) :
    (Store.PrunesOldest h.store bound limit ∧ Store.ClaimsExpired h.store) ↔ limit < 2 ^ 63 ∧
      ((∀ row ∈ h.store.outbox,
          Store.wallBefore bound row = Store.publishedBefore bound.instant row) ∨
        (limit.toNat ≤ h.store.outbox.countP (Store.wallBefore bound) ∧
          limit.toNat ≤ h.store.outbox.countP (Store.publishedBefore bound.instant))) := by
  have hvalid : h.store.Valid := StoreReachable.keeps (hreach.mono fun _ _ hop => hop.1) |>.1
  have hfiled : h.store.Filed := Store.filed_of_reachable (hreach.mono fun _ _ _ => trivial)
  have hstamped := stamped_of_reachable hreach
  have hnodup : h.store.outbox.Nodup := List.Nodup.of_map _ hfiled.nodup
  rw [← Store.prunesOldest_iff hnodup hstamped hwall hoffset hday]
  exact and_iff_left (Store.claimsExpired hvalid hfiled hstamped)

/-! ## A bound of another offset -/

/-- The record of the first event under its first lease. -/
def firstRecord : OutboxRecord :=
  let stored := firstEvent.sealAt 1 "" (DateTime.utc 1)
  Store.recordOf "relay" (Store.outboxRow stored) stored

/-- The first event, published in the third microsecond of the calendar. -/
def publishedOnce : List StoreOp :=
  [.append firstEvent 0 1 none, .claimOutbox "relay" 100 30 2, .markOutboxPublished firstRecord 3]

omit [Digest] in
theorem reachable_publishedOnce :
    let _ : Digest := checksumDigest
    Reachable History.step InCalendar {} (run History.step {} publishedOnce) := by
  intro digest
  refine reachable_run_of fun op hop h => ?_
  simp only [publishedOnce, List.mem_cons, List.not_mem_nil, or_false] at hop
  have hearly : ∀ n : Int, 0 ≤ n → n ≤ 3 → DateTime.Representable n := by
    intro n hlow hhigh
    refine ⟨hlow, lt_of_le_of_lt hhigh (by decide)⟩
  rcases hop with rfl | rfl | rfl
  · refine ⟨rfl, fun now hnow => ?_⟩
    obtain rfl := Option.some.inj hnow
    exact hearly 1 (by decide) (by decide)
  · refine ⟨trivial, fun now hnow => ?_⟩
    obtain rfl := Option.some.inj hnow
    exact hearly 2 (by decide) (by decide)
  · refine ⟨trivial, fun now hnow => ?_⟩
    obtain rfl := Option.some.inj hnow
    exact hearly 3 (by decide) (by decide)

/-- One in the morning, an hour ahead of UTC: the first instant of the calendar. -/
def oneHourAhead : DateTime := ⟨3600000000, some 3600000000⟩

omit [Digest] in
/-- **A row is deleted before its time**: it was published after the bound. -/
theorem pruned_too_early :
    let _ : Digest := checksumDigest
    let s := (run History.step {} publishedOnce).store
    Reachable History.step InCalendar {} (run History.step {} publishedOnce) ∧
      s.outbox.map (·.publishedAt) = [some (DateTime.utc 3)] ∧ oneHourAhead.instant = 0 ∧
      (s.pruned oneHourAhead 10).map (·.publishedAt) = [some (DateTime.utc 3)] ∧
      ¬ (Store.PrunesOldest s oneHourAhead 10 ∧ Store.ClaimsExpired s) := by
  intro digest s
  have hpruned : (s.pruned oneHourAhead 10).map (·.publishedAt) = [some (DateTime.utc 3)] := by
    decide +kernel
  refine ⟨reachable_publishedOnce, by decide +kernel, by decide, hpruned, ?_⟩
  rintro ⟨hprunes, -⟩
  obtain ⟨row, hrow, hpublished⟩ := List.mem_map.1 (hpruned ▸ List.mem_singleton_self _)
  have hdue := hprunes.oldest.only row hrow
  rw [Store.publishedBefore, hpublished] at hdue
  exact absurd hdue (by decide)

/-- Of three events the first two are published, one before and one after
the fifth microsecond of the calendar, and the third is leased. -/
def publishedTwice : List StoreOp :=
  let stored := firstEvent.sealAt 1 "" (DateTime.utc 1)
  let second := secondEvent.sealAt 2 stored.eventHash (DateTime.utc 1)
  [.append firstEvent 0 1 none, .append secondEvent 1 1 none,
    .append { firstEvent with eventId := "event-3", idempotencyKey := "key-3" } 2 1 none,
    .claimOutbox "relay" 100 30 2, .markOutboxPublished firstRecord 3,
    .markOutboxPublished (Store.recordOf "relay" (Store.outboxRow second) second) 7]

omit [Digest] in
theorem reachable_publishedTwice :
    let _ : Digest := checksumDigest
    Reachable History.step InCalendar {} (run History.step {} publishedTwice) := by
  intro digest
  refine reachable_run_of fun op hop h => ?_
  have hearly : ∀ op ∈ publishedTwice, ∀ now, op.reading = some now →
      DateTime.Representable now := by
    intro op hop now hnow
    simp only [publishedTwice, List.mem_cons, List.not_mem_nil, or_false] at hop
    rcases hop with rfl | rfl | rfl | rfl | rfl | rfl <;> obtain rfl := Option.some.inj hnow <;>
      exact ⟨by decide, by decide⟩
  refine ⟨?_, hearly op hop⟩
  simp only [publishedTwice, List.mem_cons, List.not_mem_nil, or_false] at hop
  rcases hop with rfl | rfl | rfl | rfl | rfl | rfl
  all_goals trivial

omit [Digest] in
/-- By a bound in UTC what was published before it is deleted, and no more. -/
theorem outbox_times_publishedTwice :
    let _ : Digest := checksumDigest
    let s := (run History.step {} publishedTwice).store
    (s.outbox.map (·.publishedAt) = [some (DateTime.utc 3), some (DateTime.utc 7), none] ∧
        (s.pruned (DateTime.utc 5) 10).map (·.publishedAt) = [some (DateTime.utc 3)]) ∧
      Store.PrunesOldest s (DateTime.utc 5) 10 ∧ Store.ClaimsExpired s := by
  intro digest s
  have hrows : (s.outbox.map (·.publishedAt) =
        [some (DateTime.utc 3), some (DateTime.utc 7), none] ∧
      (s.pruned (DateTime.utc 5) 10).map (·.publishedAt) = [some (DateTime.utc 3)]) ∧
      ∀ row ∈ s.outbox, Store.wallBefore (DateTime.utc 5) row =
        Store.publishedBefore (DateTime.utc 5).instant row := by
    decide +kernel
  exact ⟨hrows.1, (outbox_times_iff reachable_publishedTwice (by decide) rfl (by decide)).2
    ⟨by decide, .inl hrows.2⟩⟩

end ArgoTwin
