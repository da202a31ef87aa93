import ArgoTwin.StoreRuns
import ArgoTwin.TimeOrder
/-!
# Leases of the outbox

A claim takes free rows under a lease and counts an attempt; a mark and a
release take effect only on a row that is under the record's owner with the
record's count. The count of a row only grows and a row that went does not
come back, so a record whose row was claimed again is worth nothing
(`lease_contract`). The lease itself holds until its end by the clock,
which stands in the tables as text.
-/

namespace ArgoTwin

open Library

/-- The key of the outbox row a record was read from. -/
def OutboxRecord.slot (record : OutboxRecord) : String × Int × String :=
  (record.event.twinId, record.event.sequence, record.topic)

namespace Store

/-- The row once its event was published. -/
def asPublished (now : Instant) (row : OutboxRow) : OutboxRow :=
  { row with
    publishedAt := some (DateTime.utc now)
    leaseOwner := none
    leaseUntil := none
    lastError := none }

/-- The row after a publication that failed. -/
def asReleased (error : String) (row : OutboxRow) : OutboxRow :=
  { row with
    leaseOwner := none
    leaseUntil := none
    lastError := some (String.ofList (error.toList.take 2048)) }

/-- **What one call can do to a row of the outbox.** -/
inductive Turn (op : StoreOp) (row : OutboxRow) : OutboxRow → Prop
  | stays : Turn op row row
  | claimed {leaseOwner : String} {limit leaseSeconds : Int} {now leaseUntil : Instant}
      (hop : op = .claimOutbox leaseOwner limit leaseSeconds now)
      (hend : leaseEnd now leaseSeconds = .ok leaseUntil)
      (hfree : Claimable (DateTime.utc now) row) :
      Turn op row (underLease leaseOwner (DateTime.utc leaseUntil) row)
  | marked {record : OutboxRecord} {now : Instant} (hop : op = .markOutboxPublished record now)
      (hleased : leased record row = true) : Turn op row (asPublished now row)
  | released {record : OutboxRecord} {error : String} (hop : op = .releaseOutbox record error)
      (hleased : leased record row = true) : Turn op row (asReleased error row)

variable {s s' t : Store} {op : StoreOp} {row row' : OutboxRow} {slot : String × Int × String}
variable {record : OutboxRecord} {now leaseUntil : Instant} {leaseSeconds : Int}

theorem Turn.key (h : Turn op row row') : outboxKey row' = outboxKey row := by
  cases h <;> rfl

/-- A call counts attempts upwards. -/
theorem Turn.attempts_le (h : Turn op row row') : row.attempts ≤ row'.attempts := by
  cases h with
  | claimed => exact Nat.le_succ _
  | _ => exact le_rfl

/-- A published row is left alone. -/
theorem Turn.published (h : Turn op row row') (hpublished : row.publishedAt ≠ none) :
    row' = row := by
  cases h with
  | stays => rfl
  | claimed _ _ hfree => exact absurd hfree.1 hpublished
  | marked _ hleased => simp_all [leased]
  | released _ hleased => simp_all [leased]

/-- When a lease ends, by a clock of the calendar. -/
theorem leaseEnd_eq_ok : leaseEnd now leaseSeconds = .ok leaseUntil ↔
    leaseUntil = now + leaseSeconds * DateTime.microsPerSecond ∧
      DateTime.Representable now ∧ DateTime.Representable leaseUntil := by
  unfold leaseEnd
  constructor
  · intro h
    simp only at h
    split_ifs at h with hcalendar
    obtain rfl := Except.ok.inj h
    exact ⟨rfl, hcalendar⟩
  · rintro ⟨rfl, hcalendar⟩
    rw [if_pos hcalendar]

/-- **A lease is free from its end on.** -/
theorem leaseFree_iff (hnow : DateTime.Representable now)
    (hend : DateTime.Representable leaseUntil)
    (hlease : row.leaseUntil = some (DateTime.utc leaseUntil)) :
    leaseFree (DateTime.utc now) row = true ↔ leaseUntil ≤ now := by
  rw [leaseFree, hlease]
  simp only [decide_eq_true_eq]
  exact DateTime.isoformat_le_iff hend hnow

/-- A row just claimed is not free. -/
theorem not_claimable_underLease (hseconds : 0 < leaseSeconds)
    (hend : leaseEnd now leaseSeconds = .ok leaseUntil) (leaseOwner : String) :
    ¬ Claimable (DateTime.utc now) (underLease leaseOwner (DateTime.utc leaseUntil) row) := by
  obtain ⟨rfl, hnow, hcalendar⟩ := leaseEnd_eq_ok.1 hend
  rintro ⟨-, hfree⟩
  have hlate := (leaseFree_iff hnow hcalendar rfl).1 hfree
  have hlater : ∀ t : Int, ¬ t + leaseSeconds * DateTime.microsPerSecond ≤ t := by
    intro t
    simp only [DateTime.microsPerSecond]
    omega
  exact hlater now hlate

variable [Digest]

/-- What a call that writes no event does to the outbox. -/
structure Turned (op : StoreOp) (s s' : Store) : Prop where
  events : s'.events = s.events
  keys : (s'.outbox.map outboxKey).Sublist (s.outbox.map outboxKey)
  rows : ∀ row' ∈ s'.outbox, ∃ row ∈ s.outbox, Turn op row row'

omit [Digest] in
theorem Turned.of_outbox (hevents : s'.events = s.events) (houtbox : s'.outbox = s.outbox) :
    Turned op s s' where
  events := hevents
  keys := by rw [houtbox]
  rows row hrow := ⟨row, houtbox ▸ hrow, .stays⟩

omit [Digest] in
/-- An update of leased rows. -/
theorem turned_updateLeased {f : OutboxRow → OutboxRow}
    (hf : ∀ row, leased record row = true → Turn op row (f row)) :
    Turned op s (finalState (updateLeased record f) s) where
  events := rfl
  keys := by
    have hsame : (updateWhere (leased record) f s.outbox).map outboxKey =
        s.outbox.map outboxKey := by
      rw [updateWhere, List.map_map]
      refine List.map_congr_left fun row _ => ?_
      by_cases hleased : leased record row = true
      · simp only [Function.comp_apply, hleased, if_true]
        exact (hf row hleased).key
      · simp only [Function.comp_apply, hleased, Bool.false_eq_true, if_false]
    show ((updateWhere (leased record) f s.outbox).map outboxKey).Sublist _
    rw [hsame]
  rows row' hrow' := by
    obtain ⟨row, hrow, rfl⟩ := List.mem_map.1 hrow'
    refine ⟨row, hrow, ?_⟩
    split_ifs with hleased
    · exact hf row hleased
    · exact .stays

/-- A claim, one row after the other: none is claimed twice. -/
theorem keeps_turned (leaseOwner : String) (limit leaseSeconds : Int) (now : Instant) :
    Keeps (fun s => SameRows t s ∧ ∀ row' ∈ s.outbox, ∃ row ∈ t.outbox,
      Turn (.claimOutbox leaseOwner limit leaseSeconds now) row row')
      (claimOutbox leaseOwner limit leaseSeconds now) := by
  refine keeps_claimOutbox fun leaseUntil hseconds hend s p hp ⟨hsame, hrows⟩ => ?_
  refine ⟨hsame.update fun _ => rfl, fun row' hrow' => ?_⟩
  obtain ⟨row, hrow, rfl⟩ := List.mem_map.1 hrow'
  obtain ⟨first, hfirst, hturn⟩ := hrows row hrow
  refine ⟨first, hfirst, ?_⟩
  split_ifs with hfree
  swap
  · exact hturn
  cases hturn with
  | stays => exact .claimed rfl hend (hp row hfree)
  | claimed hop hend' _ =>
    obtain ⟨rfl, rfl, rfl, rfl⟩ := StoreOp.claimOutbox.inj hop
    obtain rfl := Except.ok.inj (hend.symm.trans hend')
    exact absurd (hp _ hfree) (not_claimable_underLease hseconds hend leaseOwner)
  | marked hop _ => cases hop
  | released hop _ => cases hop

/-- **What one call does to the outbox**: it adds the row of the event it
writes, or it takes each row that stays through one turn. -/
theorem turned_step (h : History) (op : StoreOp) :
    (∃ e x now fault r, op = .append e x now fault ∧
        h.store.Fresh e x now r (h.step op).store) ∨ Turned op h.store (h.step op).store := by
  have hstore : (h.step op).store = finalState op.exec h.store := rfl
  cases op with
  | append e x now fault =>
    rw [StoreOp.exec, finalState_discard] at hstore
    rcases finalState_append h.store e x now fault with hsame | ⟨r, hfresh, -, -⟩
    · rw [hstore, hsame]
      exact .inr (.of_outbox rfl rfl)
    · rw [← hstore] at hfresh
      exact .inl ⟨e, x, now, fault, r, rfl, hfresh⟩
  | saveSnapshot snapshot =>
    rw [StoreOp.exec, finalState_discard] at hstore
    rcases finalState_saveSnapshot (s := h.store) snapshot with hsame | ⟨-, hsaved⟩
    · rw [hstore, hsame]
      exact .inr (.of_outbox rfl rfl)
    · rw [hstore, hsaved]
      exact .inr (.of_outbox rfl rfl)
  | pruneSnapshots twinId keep =>
    rw [StoreOp.exec, finalState_discard] at hstore
    obtain ⟨kept, -, hkept⟩ := finalState_pruneSnapshots (s := h.store) twinId keep
    rw [hstore, hkept]
    exact .inr (.of_outbox rfl rfl)
  | claimOutbox leaseOwner limit leaseSeconds now =>
    rw [StoreOp.exec, finalState_discard] at hstore
    have hkept := keeps_turned leaseOwner limit leaseSeconds now h.store
      ⟨.refl, fun row hrow => ⟨row, hrow, .stays⟩⟩
    rw [hstore]
    exact .inr ⟨hkept.1.events, hkept.1.outbox ▸ List.Sublist.refl _, hkept.2⟩
  | markOutboxPublished record now =>
    exact .inr (turned_updateLeased fun row hleased => .marked rfl hleased)
  | releaseOutbox record error =>
    exact .inr (turned_updateLeased fun row hleased => .released rfl hleased)
  | pruneOutbox publishedBefore limit =>
    rw [StoreOp.exec, finalState_discard] at hstore
    have hkept : ∃ p : OutboxRow → Bool, (h.step (.pruneOutbox publishedBefore limit)).store =
        { h.store with outbox := h.store.outbox.filter p } := by
      rw [hstore]
      unfold pruneOutbox
      split_ifs
      · exact ⟨fun _ => true, by simp [finalState, throw, throwThe, MonadExceptOf.throw,
          EStateM.throw]⟩
      · exact ⟨fun _ => true, by simp [finalState, pure, EStateM.pure]⟩
      cases hbound : bindInteger limit with
      | error err => exact ⟨fun _ => true, by simp [finalState, bind, EStateM.bind, fromExcept]⟩
      | ok bound => exact ⟨_, rfl⟩
    obtain ⟨p, hkept⟩ := hkept
    rw [hkept]
    exact .inr ⟨rfl, List.filter_sublist.map _,
      fun row hrow => ⟨row, List.mem_of_mem_filter hrow, .stays⟩⟩
  | markInvalidationProcessed record now => exact .inr (.of_outbox rfl rfl)

/-! ## One row for each slot -/

/-- Each row of the outbox announces an event, and no other row does. -/
structure Filed (s : Store) : Prop where
  distinct : s.events.Pairwise fun a b => conflicts a b = false
  nodup : (s.outbox.map outboxKey).Nodup
  events : ∀ row ∈ s.outbox, ∃ e ∈ s.events, Announces e row

omit [Digest] in
theorem Filed.row_unique (hs : Filed s) (hrow : row ∈ s.outbox) (hrow' : row' ∈ s.outbox)
    (hkey : outboxKey row' = outboxKey row) : row' = row :=
  List.inj_on_of_nodup_map hs.nodup hrow' hrow hkey

omit [Digest] in
/-- A place in a stream is one event's. -/
theorem Filed.event_unique (hs : Filed s) {e e' : EventEnvelope} (he : e ∈ s.events)
    (he' : e' ∈ s.events) (htwin : e'.twinId = e.twinId) (hsequence : e'.sequence = e.sequence) :
    e' = e := by
  by_contra hne
  have hsymm : Std.Symm fun a b : EventEnvelope => conflicts a b = false := by
    refine ⟨fun a b h => ?_⟩
    rw [← h]
    simp only [conflicts, BEq.comm (a := b.twinId), BEq.comm (a := b.sequence),
      BEq.comm (a := b.eventId), BEq.comm (a := b.idempotencyKey)]
  have hdistinct := hs.distinct.forall he' he hne
  simp [conflicts, htwin, hsequence] at hdistinct

theorem filed_step {h : History} (hs : Filed h.store) (op : StoreOp) :
    Filed (h.step op).store := by
  rcases turned_step h op with ⟨e, x, now, fault, r, rfl, hfresh⟩ | hturned
  · have hnew := hfresh.2.2.2.2.2.1
    constructor
    · rw [hfresh.events_eq, List.pairwise_append]
      refine ⟨hs.distinct, List.pairwise_singleton _ _, fun row hrow other hother => ?_⟩
      rw [List.mem_singleton.1 hother]
      exact hfresh.2.2.2.2.1 row hrow
    · rw [hfresh.outbox_eq, List.map_append, List.nodup_append]
      refine ⟨hs.nodup, List.nodup_singleton _, ?_⟩
      intro key hkey key' hkey' hsame
      obtain ⟨row, hrow, rfl⟩ := List.mem_map.1 hkey
      obtain rfl := List.mem_singleton.1 hkey'
      have hother := hnew row hrow
      simp only [outboxKey, Prod.mk.injEq] at hsame
      simp [sameOutboxKey, hsame] at hother
    · intro row hrow
      rw [hfresh.events_eq]
      rw [hfresh.outbox_eq] at hrow
      rcases List.mem_append.1 hrow with hold | hadded
      · obtain ⟨e, he, hsame⟩ := hs.events row hold
        exact ⟨e, List.mem_append_left _ he, hsame⟩
      · obtain rfl := List.mem_singleton.1 hadded
        exact ⟨r, List.mem_append_right _ (List.mem_singleton_self r), rfl⟩
  · constructor
    · rw [hturned.events]
      exact hs.distinct
    · exact hs.nodup.sublist hturned.keys
    · intro row' hrow'
      obtain ⟨row, hrow, hturn⟩ := hturned.rows row' hrow'
      obtain ⟨e, he, hsame⟩ := hs.events row hrow
      exact ⟨e, hturned.events ▸ he, hturn.key.trans hsame⟩

/-- **Over any run of the store.** -/
theorem filed_of_reachable {h : History} (hreach : Reachable History.step anyStep {} h) :
    Filed h.store := by
  refine Reachable.invariant (I := fun h => Filed h.store) ?_ ?_ hreach
  · exact ⟨List.Pairwise.nil, List.nodup_nil, fun row hrow => by cases hrow⟩
  · exact fun h op hs _ => filed_step hs op

/-- The event of the slot was written, and `Q` holds of the row that waits
for it, where it is still there. -/
structure AtSlot (slot : String × Int × String) (Q : OutboxRow → Prop) (s : Store) : Prop where
  written : ∃ e ∈ s.events, e.twinId = slot.1 ∧ e.sequence = slot.2.1
  rows : ∀ row ∈ s.outbox, outboxKey row = slot → Q row

/-- **What the turns keep of a row, the calls keep of its slot**: no later
event gets the slot again. -/
theorem AtSlot.step {h : History} {op : StoreOp} {Q : OutboxRow → Prop}
    (hs : AtSlot slot Q h.store)
    (hQ : ∀ row row', row ∈ h.store.outbox → outboxKey row = slot → Turn op row row' →
      Q row → Q row') :
    AtSlot slot Q (h.step op).store := by
  obtain ⟨e, he, htwin, hsequence⟩ := hs.written
  rcases turned_step h op with ⟨e', x, now, fault, r, rfl, hfresh⟩ | hturned
  · refine ⟨⟨e, ?_, htwin, hsequence⟩, fun row hrow hkey => ?_⟩
    · rw [hfresh.events_eq]
      exact List.mem_append_left _ he
    · rw [hfresh.outbox_eq] at hrow
      rcases List.mem_append.1 hrow with hold | hadded
      · exact hs.rows row hold hkey
      · -- the new event would share the sequence of the slot's
        obtain rfl := List.mem_singleton.1 hadded
        have hconflict := hfresh.2.2.2.2.1 e he
        subst hkey
        have htwin' : e.twinId = r.twinId := htwin
        have hsequence' : e.sequence = r.sequence := hsequence
        simp [conflicts, htwin', hsequence'] at hconflict
  · refine ⟨⟨e, hturned.events ▸ he, htwin, hsequence⟩, fun row' hrow' hkey => ?_⟩
    obtain ⟨row, hrow, hturn⟩ := hturned.rows row' hrow'
    have hkey' : outboxKey row = slot := hturn.key.symm.trans hkey
    exact hQ row row' hrow hkey' hturn (hs.rows row hrow hkey')

/-! ## What a claim returns -/

/-- What a claimed record says of the tables before and after: its row was
free, and is now under the lease. -/
structure Took (leaseOwner : String) (now leaseUntil : DateTime) (t : Store)
    (record : OutboxRecord) (s : Store) : Prop where
  written : ∃ e ∈ t.events, record.event = decode e
  row : ∃ row ∈ t.outbox, outboxKey row = record.slot ∧ Claimable now row ∧
    record.attempts = row.attempts + 1 ∧ underLease leaseOwner leaseUntil row ∈ s.outbox

/-- A claim on its way: the rows are those of `t`, some of them leased. -/
structure Underway (leaseOwner : String) (now leaseUntil : DateTime) (t s : Store) : Prop where
  same : SameRows t s
  rows : ∀ row' ∈ s.outbox, ∃ row ∈ t.outbox,
    row' = row ∨ (Claimable now row ∧ row' = underLease leaseOwner leaseUntil row)

omit [Digest] in
theorem Underway.refl {leaseOwner : String} {now leaseUntil : DateTime} :
    Underway leaseOwner now leaseUntil t t :=
  ⟨.refl, fun row hrow => ⟨row, hrow, .inl rfl⟩⟩

section Round

variable {leaseOwner : String} {start stop : DateTime} {selected : OutboxRow}
variable {claimed : Option OutboxRecord}

omit [Digest] in
/-- An event read back is the one in the table. -/
theorem rowToEvent_ok {e e' : EventEnvelope} (h : rowToEvent e = .ok e') : e' = decode e := by
  unfold rowToEvent at h
  split_ifs at h
  exact (Except.ok.inj h).symm

/-- The row of the selected key, where it is free. -/
def wanted (now : DateTime) (selected row : OutboxRow) : Bool :=
  sameOutboxKey row selected && row.publishedAt.isNone && leaseFree now row

omit [Digest] in
theorem wanted_iff : wanted start selected row = true ↔
    outboxKey row = outboxKey selected ∧ Claimable start row := by
  simp [wanted, sameOutboxKey, outboxKey, Claimable, and_assoc]

/-- The lease on the selected row. -/
def leaseSelected (leaseOwner : String) (now leaseUntil : DateTime) (selected : OutboxRow)
    (s : Store) : Store :=
  { s with outbox := updateWhere (wanted now selected) (underLease leaseOwner leaseUntil) s.outbox }

/-- **What one round of a claim does**: nothing, or it leases the selected
row and reads its event back. -/
theorem claimRow_cases
    (h : Returns (claimRow leaseOwner start stop selected) s claimed s') :
    (claimed = none ∧ s' = s) ∨
      (s.outbox.filter (wanted start selected)).length = 1 ∧
        s' = leaseSelected leaseOwner start stop selected s ∧
        ∃ found eventRow event, s'.outbox.find? (sameOutboxKey selected) = some found ∧
          s.eventAt selected.twinId selected.sequence = some eventRow ∧
          rowToEvent eventRow = .ok event ∧
          claimed = some
            { topic := found.topic
              key := found.messageKey
              event := event
              createdAt := found.createdAt.astimezoneUtc
              attempts := found.attempts
              leaseOwner := leaseOwner } := by
  simp only [claimRow, returns_bind, returns_get, returns_ite, returns_pure, returns_set] at h
  obtain ⟨_, _, ⟨rfl, rfl⟩, ⟨-, rfl, rfl⟩ | ⟨hfree, _, _, rfl, _, _, ⟨rfl, rfl⟩, h⟩⟩ := h
  · exact .inl ⟨rfl, rfl⟩
  · refine .inr ⟨not_not.1 hfree, ?_⟩
    split at h
    · rename_i found eventRow hfound hevent
      simp only [returns_bind, returns_fromExcept, returns_pure] at h
      obtain ⟨event, _, ⟨hdecoded, rfl⟩, _, _, ⟨-, rfl⟩, rfl, rfl⟩ := h
      exact ⟨rfl, found, eventRow, event, hfound, hevent, hdecoded, rfl⟩
    · simp at h

omit [Digest] in
/-- A leased row is not leased again by the same claim. -/
theorem underLease_mem (hbusy : ∀ row, ¬ Claimable start (underLease leaseOwner stop row))
    (hrow : underLease leaseOwner stop row ∈ s.outbox) :
    underLease leaseOwner stop row ∈ (leaseSelected leaseOwner start stop selected s).outbox :=
  List.mem_map.2 ⟨_, hrow, if_neg fun hwanted => hbusy row (wanted_iff.1 hwanted).2⟩

omit [Digest] in
theorem Underway.leaseSelected
    (hbusy : ∀ row, ¬ Claimable start (underLease leaseOwner stop row))
    (hs : Underway leaseOwner start stop t s) :
    Underway leaseOwner start stop t (leaseSelected leaseOwner start stop selected s) := by
  refine ⟨hs.same.update fun _ => rfl, fun row' hrow' => ?_⟩
  obtain ⟨middle, hmiddle, rfl⟩ := List.mem_map.1 hrow'
  obtain ⟨first, hfirst, hturn⟩ := hs.rows middle hmiddle
  refine ⟨first, hfirst, ?_⟩
  split_ifs with hwanted
  · have hfree := (wanted_iff.1 hwanted).2
    obtain rfl | ⟨-, rfl⟩ := hturn
    · exact .inr ⟨hfree, rfl⟩
    · exact absurd hfree (hbusy first)
  · exact hturn

/-- **One round of a claim.** -/
theorem claimRow_took (ht : Filed t)
    (hbusy : ∀ row, ¬ Claimable start (underLease leaseOwner stop row))
    (hs : Underway leaseOwner start stop t s)
    (h : Returns (claimRow leaseOwner start stop selected) s claimed s') :
    Underway leaseOwner start stop t s' ∧
      (∀ record ∈ claimed, record.leaseOwner = leaseOwner ∧
        Took leaseOwner start stop t record s') ∧
      ∀ row, underLease leaseOwner stop row ∈ s.outbox →
        underLease leaseOwner stop row ∈ s'.outbox := by
  rcases claimRow_cases h with ⟨rfl, rfl⟩ |
    ⟨hone, rfl, found, eventRow, event, hfound, hevent, hdecoded, rfl⟩
  · exact ⟨hs, by simp, fun _ hrow => hrow⟩
  have hafter : Underway leaseOwner start stop t (leaseSelected leaseOwner start stop selected s) :=
    hs.leaseSelected hbusy
  refine ⟨hafter, fun record hrecord => ?_, fun row hrow => underLease_mem hbusy hrow⟩
  obtain rfl := Option.some.inj hrecord
  -- the free row of the selected key, which no round has touched yet
  obtain ⟨row, hrow, hin, hkey, hfree⟩ : ∃ row ∈ t.outbox, row ∈ s.outbox ∧
      outboxKey row = outboxKey selected ∧ Claimable start row := by
    obtain ⟨row, hfilter⟩ := List.length_eq_one_iff.1 hone
    obtain ⟨hin, hwanted⟩ := List.mem_filter.1 (hfilter ▸ List.mem_singleton_self row)
    obtain ⟨hkey, hfree⟩ := wanted_iff.1 hwanted
    obtain ⟨first, hfirst, rfl | ⟨-, rfl⟩⟩ := hs.rows row hin
    · exact ⟨row, hfirst, hin, hkey, hfree⟩
    · exact absurd hfree (hbusy first)
  have hleased : underLease leaseOwner stop row ∈
      (leaseSelected leaseOwner start stop selected s).outbox :=
    List.mem_map.2 ⟨row, hin, if_pos (wanted_iff.2 ⟨hkey, hfree⟩)⟩
  -- the row read back is the one just leased
  have hfound' : found = underLease leaseOwner stop row := by
    have hp := List.find?_some hfound
    have hfoundKey : outboxKey found = outboxKey selected := by
      simp only [sameOutboxKey, Bool.and_eq_true, beq_iff_eq] at hp
      simp [outboxKey, hp]
    have hnodup : ((leaseSelected leaseOwner start stop selected s).outbox.map outboxKey).Nodup := by
      rw [hafter.same.outbox]
      exact ht.nodup
    exact List.inj_on_of_nodup_map hnodup (List.mem_of_find?_eq_some hfound) hleased
      (hfoundKey.trans hkey.symm)
  obtain rfl := rowToEvent_ok hdecoded
  have hat := List.find?_some hevent
  simp only [Bool.and_eq_true, beq_iff_eq] at hat
  have hslot : outboxKey row = (eventRow.twinId, eventRow.sequence, found.topic) := by
    rw [hfound', hat.1, hat.2]
    simp only [outboxKey, Prod.mk.injEq] at hkey ⊢
    exact ⟨hkey.1, hkey.2.1, rfl⟩
  have hmem : eventRow ∈ t.events := hs.same.events ▸ List.mem_of_find?_eq_some hevent
  refine ⟨rfl, ⟨eventRow, hmem, rfl⟩, row, hrow, hslot, hfree, ?_, hleased⟩
  rw [hfound']
  rfl

end Round

/-- **What a claim returns**: records of rows that were free, and that are
under the lease when it ends. -/
theorem claimOutbox_took {leaseOwner : String} {limit : Int} {records : List OutboxRecord}
    (ht : Filed t)
    (h : Returns (claimOutbox leaseOwner limit leaseSeconds now) t records s) :
    ∀ record ∈ records, ∃ leaseUntil, leaseEnd now leaseSeconds = .ok leaseUntil ∧
      SameRows t s ∧ record.leaseOwner = leaseOwner ∧
      Took leaseOwner (DateTime.utc now) (DateTime.utc leaseUntil) t record s := by
  unfold claimOutbox at h
  split_ifs at h with howner hlimit hseconds
  · simp at h
  · obtain ⟨rfl, -⟩ := returns_pure.1 h
    exact fun record hrecord => absurd hrecord List.not_mem_nil
  · simp at h
  simp only [claimPending, returns_bind, returns_fromExcept, returns_transaction, returns_get,
    returns_pure] at h
  obtain ⟨leaseUntil, _, ⟨hend, hstart⟩, bound, _, ⟨-, hbound⟩, _, _, ⟨hread, rfl⟩, claimed, _,
    hclaimed, rfl, rfl⟩ := h
  obtain rfl := hstart.symm
  obtain rfl := hbound.symm
  obtain rfl := hread.symm
  have hbusy : ∀ row : OutboxRow, ¬ Claimable (DateTime.utc now)
      (underLease leaseOwner (DateTime.utc leaseUntil) row) :=
    fun _ => not_claimable_underLease (not_lt.1 hseconds) hend leaseOwner
  obtain ⟨hunderway, hrecords⟩ := returns_mapM
    (Q := fun claimed s => ∀ record ∈ claimed, record.leaseOwner = leaseOwner ∧
      Took leaseOwner (DateTime.utc now) (DateTime.utc leaseUntil) t record s)
    (fun _ _ _ _ hs hround => ⟨(claimRow_took ht hbusy hs hround).1,
      (claimRow_took ht hbusy hs hround).2.1⟩)
    (fun _ _ _ _ _ hs hround htook record hrecord => by
      obtain ⟨howner', hwritten, row, hrow, hslot, hfree, hattempts, hleased⟩ :=
        htook record hrecord
      exact ⟨howner', hwritten, row, hrow, hslot, hfree, hattempts,
        (claimRow_took ht hbusy hs hround).2.2 row hleased⟩)
    .refl hclaimed
  intro record hrecord
  obtain ⟨found, hfound, hsome⟩ := List.mem_filterMap.1 hrecord
  obtain ⟨howner', htook⟩ := hrecords found hfound record hsome
  exact ⟨leaseUntil, hend, hunderway.same, howner', htook⟩

/-! ## Records that went stale -/

omit [Digest] in
theorem leased_iff : leased record row = true ↔ outboxKey row = record.slot ∧
    row.publishedAt = none ∧ row.leaseOwner = some record.leaseOwner ∧
    row.attempts = record.attempts := by
  simp [leased, outboxKey, OutboxRecord.slot, and_assoc]

omit [Digest] in
/-- **An update hits where the record's row is under its lease.** -/
theorem updateLeased_true_iff (hs : Filed s) {f : OutboxRow → OutboxRow} :
    outcome (updateLeased record f) s = .ok true ↔
      ∃ row ∈ s.outbox, leased record row = true := by
  have houtcome : outcome (updateLeased record f) s =
      .ok ((s.outbox.filter (leased record)).length == 1) := rfl
  rw [houtcome, Except.ok.injEq, beq_iff_eq]
  constructor
  · intro hone
    obtain ⟨row, hfilter⟩ := List.length_eq_one_iff.1 hone
    exact ⟨row, List.mem_filter.1 (hfilter ▸ List.mem_singleton_self row)⟩
  · rintro ⟨row, hrow, hleased⟩
    have hmem : row ∈ s.outbox.filter (leased record) := List.mem_filter.2 ⟨hrow, hleased⟩
    have hall : ∀ other ∈ s.outbox.filter (leased record), other = row := by
      intro other hother
      obtain ⟨hin, hleased'⟩ := List.mem_filter.1 hother
      exact hs.row_unique hrow hin ((leased_iff.1 hleased').1.trans (leased_iff.1 hleased).1.symm)
    have hsame := List.eq_replicate_of_mem hall
    have hnodup : (s.outbox.filter (leased record)).Nodup :=
      (List.Nodup.of_map _ hs.nodup).filter _
    rw [hsame, List.nodup_replicate] at hnodup
    have hpos := List.length_pos_of_mem hmem
    omega

omit [Digest] in
/-- A record without a row under its lease changes nothing. -/
theorem updateLeased_stale {f : OutboxRow → OutboxRow}
    (h : ∀ row ∈ s.outbox, leased record row = false) :
    updateLeased record f s = .ok false s := by
  have hnone : s.outbox.filter (leased record) = [] :=
    List.filter_eq_nil_iff.2 fun row hrow => by simp [h row hrow]
  have hsame : updateWhere (leased record) f s.outbox = s.outbox := by
    rw [updateWhere]
    refine (List.map_congr_left fun row hrow => ?_).trans (List.map_id _)
    rw [h row hrow]
    rfl
  show EStateM.Result.ok ((s.outbox.filter (leased record)).length == 1)
    { s with outbox := updateWhere (leased record) f s.outbox } = _
  rw [hnone, hsame]
  rfl

end Store

/-! ## Over a run -/

/-- What a call read off the clock. -/
def StoreOp.reading : StoreOp → Option Instant
  | .append _ _ now _ => some now
  | .claimOutbox _ _ _ now => some now
  | .markOutboxPublished _ now => some now
  | .markInvalidationProcessed _ now => some now
  | _ => none

/-- The clock never goes back. -/
def Steady (ops : List StoreOp) : Prop := (ops.filterMap StoreOp.reading).Pairwise (· ≤ ·)

instance (ops : List StoreOp) : Decidable (Steady ops) :=
  inferInstanceAs (Decidable (List.Pairwise _ _))

theorem Steady.le {ops : List StoreOp} (hsteady : Steady ops) {i j : Nat} (hij : i < j)
    {op op' : StoreOp} (hi : ops[i]? = some op) (hj : ops[j]? = some op') {now now' : Instant}
    (hop : op.reading = some now) (hop' : op'.reading = some now') : now ≤ now' := by
  rw [Steady, List.pairwise_filterMap, List.pairwise_iff_getElem] at hsteady
  obtain ⟨hilt, rfl⟩ := List.getElem?_eq_some_iff.1 hi
  obtain ⟨hjlt, rfl⟩ := List.getElem?_eq_some_iff.1 hj
  exact hsteady i j hilt hjlt hij now hop now' hop'

variable [Digest]

/-- The tables before the `i`-th call of a run. -/
def storeAt (ops : List StoreOp) (i : Nat) : Store := (run History.step {} (ops.take i)).store

/-- The `i`-th call is a claim that returns the record. -/
def ClaimedAt (ops : List StoreOp) (i : Nat) (leaseSeconds : Int) (now : Instant)
    (record : OutboxRecord) : Prop :=
  ∃ leaseOwner limit records, ops[i]? = some (.claimOutbox leaseOwner limit leaseSeconds now) ∧
    outcome (Store.claimOutbox leaseOwner limit leaseSeconds now) (storeAt ops i) = .ok records ∧
    record ∈ records

/-- The `i`-th call is a mark of the record that returns `True`. -/
def MarkedAt (ops : List StoreOp) (i : Nat) (record : OutboxRecord) : Prop :=
  ∃ now, ops[i]? = some (.markOutboxPublished record now) ∧
    outcome (Store.markOutboxPublished record now) (storeAt ops i) = .ok true

/-- The `i`-th call is a release of the slot's row that returns `True`. -/
def ReleasedAt (ops : List StoreOp) (i : Nat) (slot : String × Int × String) : Prop :=
  ∃ record error, ops[i]? = some (.releaseOutbox record error) ∧ record.slot = slot ∧
    outcome (Store.releaseOutbox record error) (storeAt ops i) = .ok true

/-- What leases promise their holders. -/
structure LeaseContract (ops : List StoreOp) : Prop where
  exclusive : ∀ i j leaseSeconds now record leaseSeconds' now' record',
    ClaimedAt ops i leaseSeconds now record → ClaimedAt ops j leaseSeconds' now' record' →
    i < j → record'.slot = record.slot →
    now' < now + leaseSeconds * DateTime.microsPerSecond →
    ∃ k, i < k ∧ k < j ∧ ReleasedAt ops k record.slot
  fenced : ∀ i j k leaseSeconds now record leaseSeconds' now' record',
    ClaimedAt ops i leaseSeconds now record → ClaimedAt ops j leaseSeconds' now' record' →
    i < j → record'.slot = record.slot → j < k →
    (∀ now, Store.markOutboxPublished record now (storeAt ops k) = .ok false (storeAt ops k)) ∧
      ∀ error, Store.releaseOutbox record error (storeAt ops k) = .ok false (storeAt ops k)
  once : ∀ i j record record', MarkedAt ops i record → MarkedAt ops j record' →
    record'.slot = record.slot → i = j

variable {ops : List StoreOp} {i j k : Nat} {leaseSeconds leaseSeconds' : Int}
variable {now now' : Instant} {record record' : OutboxRecord} {slot : String × Int × String}
variable {op : StoreOp}

theorem filed_storeAt (ops : List StoreOp) (i : Nat) : (storeAt ops i).Filed :=
  Store.filed_of_reachable (reachable_run _)

/-- The tables after the `i`-th call. -/
theorem storeAt_succ (hop : ops[i]? = some op) :
    storeAt ops (i + 1) = finalState op.exec (storeAt ops i) := by
  rw [storeAt, run_take_succ hop]
  rfl

/-- **What the turns of a slot's row keep, a stretch of the run keeps.** -/
theorem atSlot_storeAt {Q : OutboxRow → Prop} (hij : i ≤ j)
    (hi : Store.AtSlot slot Q (storeAt ops i))
    (hQ : ∀ k op row row', i ≤ k → k < j → ops[k]? = some op → row ∈ (storeAt ops k).outbox →
      Store.outboxKey row = slot → Store.Turn op row row' → Q row → Q row') :
    Store.AtSlot slot Q (storeAt ops j) := by
  refine run_between (I := fun h : History => Store.AtSlot slot Q h.store) hij hi ?_
  intro k op hik hkj hop hslot
  exact hslot.step (fun row row' hrow hkey => hQ k op row row' hik hkj hop hrow hkey)

/-- **A claim at work**: its row was free before the call, and is under the
lease after it. -/
theorem ClaimedAt.took (h : ClaimedAt ops i leaseSeconds now record) :
    ∃ leaseUntil row, Store.leaseEnd now leaseSeconds = .ok leaseUntil ∧
      row ∈ (storeAt ops i).outbox ∧ Store.outboxKey row = record.slot ∧
      Store.Claimable (DateTime.utc now) row ∧ record.attempts = row.attempts + 1 ∧
      Store.AtSlot record.slot (fun row' => row' = Store.underLease record.leaseOwner
        (DateTime.utc leaseUntil) row) (storeAt ops (i + 1)) := by
  obtain ⟨leaseOwner, limit, records, hop, houtcome, hrecord⟩ := h
  obtain ⟨after, hreturns⟩ := outcome_eq_ok.1 houtcome
  have hafter : storeAt ops (i + 1) = after := by
    rw [storeAt_succ hop, StoreOp.exec, finalState_discard, finalState_of_returns hreturns]
  obtain ⟨leaseUntil, hend, hsame, rfl, htook⟩ :=
    Store.claimOutbox_took (filed_storeAt ops i) hreturns record hrecord
  obtain ⟨row, hrow, hslot, hfree, hattempts, hleased⟩ := htook.row
  refine ⟨leaseUntil, row, hend, hrow, hslot, hfree, hattempts, ?_, fun row' hrow' hkey => ?_⟩
  · obtain ⟨e, he, hdecoded⟩ := htook.written
    rw [hafter, hsame.events]
    refine ⟨e, he, ?_, ?_⟩
    · rw [OutboxRecord.slot, hdecoded]
      rfl
    · rw [OutboxRecord.slot, hdecoded]
      rfl
  · have hfiled := filed_storeAt ops (i + 1)
    rw [hafter] at hfiled hrow'
    exact hfiled.row_unique hleased hrow' (hkey.trans hslot.symm)

/-- **A lease is exclusive** up to its end, unless its row is released. -/
theorem exclusive_of_steady (hsteady : Steady ops)
    (hi : ClaimedAt ops i leaseSeconds now record)
    (hj : ClaimedAt ops j leaseSeconds' now' record') (hij : i < j)
    (hslot : record'.slot = record.slot)
    (hbefore : now' < now + leaseSeconds * DateTime.microsPerSecond) :
    ∃ k, i < k ∧ k < j ∧ ReleasedAt ops k record.slot := by
  by_contra hreleased
  obtain ⟨leaseUntil, row, hend, -, -, -, -, htaken⟩ := hi.took
  obtain ⟨rfl, -, hcalendar⟩ := Store.leaseEnd_eq_ok.1 hend
  obtain ⟨_, row', hend', hrow', hkey', hfree', -⟩ := hj.took
  obtain ⟨-, hnow', -⟩ := Store.leaseEnd_eq_ok.1 hend'
  obtain ⟨leaseOwner', limit', records', hclaim', -⟩ := hj
  -- from the claim on, the row is under the lease or published
  have hheld : Store.AtSlot record.slot (fun row => row.publishedAt ≠ none ∨ row.leaseUntil =
      some (DateTime.utc (now + leaseSeconds * DateTime.microsPerSecond))) (storeAt ops j) := by
    refine atSlot_storeAt (i := i + 1) hij ⟨htaken.written, fun row hrow hkey => ?_⟩ ?_
    · rw [htaken.rows row hrow hkey]
      exact .inr rfl
    intro k op row row' hik hkj hop hrow hkey hturn hheld
    by_cases hpublished : row.publishedAt = none
    swap
    · rw [hturn.published hpublished]
      exact .inl hpublished
    have hlease := hheld.resolve_left (not_not.2 hpublished)
    cases hturn with
    | stays => exact hheld
    | claimed hclaim hend'' hfree =>
      -- it would have to come after the end of the lease
      rename_i owner'' limit'' seconds'' now'' _
      obtain ⟨-, hnow'', -⟩ := Store.leaseEnd_eq_ok.1 hend''
      have hlate := (Store.leaseFree_iff hnow'' hcalendar hlease).1 hfree.2
      have hreading : now'' ≤ now' :=
        hsteady.le hkj (hclaim ▸ hop) hclaim' rfl rfl
      exact absurd (hlate.trans hreading) (not_le.2 hbefore)
    | marked => exact .inl (by simp [Store.asPublished])
    | released hrelease hleased =>
      rename_i other error
      refine absurd ⟨k, hik, hkj, other, error, hrelease ▸ hop, ?_, ?_⟩ hreleased
      · exact (Store.leased_iff.1 hleased).1.symm.trans hkey
      · exact (Store.updateLeased_true_iff (filed_storeAt ops k)).2 ⟨row, hrow, hleased⟩
  rcases hheld.rows row' hrow' (hkey'.trans hslot) with hpublished | hlease
  · exact hpublished hfree'.1
  · have hlate := (Store.leaseFree_iff hnow' hcalendar hlease).1 hfree'.2
    exact absurd hlate (not_le.2 hbefore)

/-- After a later claim the count of the row is past an older record's. -/
theorem attempts_past (hi : ClaimedAt ops i leaseSeconds now record)
    (hj : ClaimedAt ops j leaseSeconds' now' record') (hij : i < j)
    (hslot : record'.slot = record.slot) (hjk : j < k) :
    Store.AtSlot record.slot (fun row => record.attempts < row.attempts) (storeAt ops k) := by
  obtain ⟨_, first, -, -, -, -, hcount, htaken⟩ := hi.took
  obtain ⟨_, second, -, hsecond, hkey, -, hcount', htaken'⟩ := hj.took
  have hcounted : Store.AtSlot record.slot (fun row => record.attempts ≤ row.attempts)
      (storeAt ops j) := by
    refine atSlot_storeAt (i := i + 1) hij ⟨htaken.written, fun row hrow hrowKey => ?_⟩ ?_
    · rw [htaken.rows row hrow hrowKey, hcount]
      exact le_rfl
    · exact fun k op row row' _ _ _ _ _ hturn hle => hle.trans hturn.attempts_le
  have hold := hcounted.rows second hsecond (hkey.trans hslot)
  refine atSlot_storeAt (i := j + 1) hjk ⟨hslot ▸ htaken'.written, fun row hrow hrowKey => ?_⟩ ?_
  · rw [htaken'.rows row hrow (hrowKey.trans hslot.symm)]
    exact Nat.lt_succ_of_le hold
  · exact fun k op row row' _ _ _ _ _ hturn hlt => lt_of_lt_of_le hlt hturn.attempts_le

/-- After a mark that returned `True` the row is published as long as it is
there. -/
theorem MarkedAt.published (hi : MarkedAt ops i record) (hij : i < j) :
    Store.AtSlot record.slot (fun row => row.publishedAt ≠ none) (storeAt ops j) := by
  obtain ⟨now, hop, houtcome⟩ := hi
  have hfiled := filed_storeAt ops i
  obtain ⟨row, hrow, hleased⟩ := (Store.updateLeased_true_iff hfiled).1 houtcome
  obtain ⟨hkey, -⟩ := Store.leased_iff.1 hleased
  obtain ⟨e, he, hannounces⟩ := hfiled.events row hrow
  have hslot : record.slot = (e.twinId, e.sequence, Store.eventTopic) :=
    hkey.symm.trans hannounces
  refine atSlot_storeAt (i := i + 1) hij ⟨⟨e, ?_, ?_, ?_⟩, fun row' hrow' hkey' => ?_⟩ ?_
  · rw [storeAt_succ hop]
    exact he
  · rw [hslot]
  · rw [hslot]
  · rw [storeAt_succ hop] at hrow'
    obtain ⟨before, hbefore, rfl⟩ := List.mem_map.1 hrow'
    have hsame : before = row := by
      refine hfiled.row_unique hrow hbefore (Eq.trans ?_ hkey.symm)
      rw [← hkey']
      split_ifs <;> rfl
    rw [hsame, if_pos hleased]
    simp
  · intro k op row row' _ _ _ _ _ hturn hpublished
    rw [hturn.published hpublished]
    exact hpublished

/-- **Leases are exclusive and fenced**, in any run by a clock that never
goes back: a lease holds until its end or its release, a record whose row
was claimed again changes nothing, and a row is marked once. -/
theorem lease_contract (hsteady : Steady ops) : LeaseContract ops where
  exclusive _ _ _ _ _ _ _ _ hi hj hij hslot hbefore :=
    exclusive_of_steady hsteady hi hj hij hslot hbefore
  fenced i j k _ _ record _ _ _ hi hj hij hslot hjk := by
    have hpast := attempts_past hi hj hij hslot hjk
    have hstale : ∀ row ∈ (storeAt ops k).outbox, Store.leased record row = false := by
      intro row hrow
      by_contra hleased
      obtain ⟨hkey, -, -, hcount⟩ := Store.leased_iff.1 (Bool.not_eq_false _ ▸ hleased)
      exact absurd hcount (ne_of_gt (hpast.rows row hrow hkey))
    exact ⟨fun _ => Store.updateLeased_stale hstale, fun _ => Store.updateLeased_stale hstale⟩
  once i j record record' hi hj hslot := by
    have hnever : ∀ {i j : Nat} {record record' : OutboxRecord}, MarkedAt ops i record →
        MarkedAt ops j record' → record'.slot = record.slot → ¬ i < j := by
      intro i j record record' hi hj hslot hij
      have hpublished := hi.published hij
      obtain ⟨now, -, houtcome⟩ := hj
      obtain ⟨row, hrow, hleased⟩ :=
        (Store.updateLeased_true_iff (filed_storeAt ops j)).1 houtcome
      obtain ⟨hkey, hnone, -⟩ := Store.leased_iff.1 hleased
      exact hpublished.rows row hrow (hkey.trans hslot) hnone
    have hafter := hnever hi hj hslot
    have hbefore := hnever hj hi hslot.symm
    omega

/-- One relay takes the row over from another of the same name. -/
def takeover : List StoreOp :=
  [.append firstEvent 0 1 none, .claimOutbox "relay" 100 30 2, .claimOutbox "relay" 100 30 30000001,
    .claimOutbox "relay" 100 30 30000002]

omit [Digest] in
theorem lease_contract_takeover :
    let _ : Digest := checksumDigest
    LeaseContract takeover ∧ (storeAt takeover 3).outbox.map (·.attempts) = [1] ∧
      (storeAt takeover 4).outbox.map (·.attempts) = [2] := by
  intro digest
  exact ⟨lease_contract (by decide), by decide +kernel, by decide +kernel⟩

end ArgoTwin
