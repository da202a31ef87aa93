import ArgoTwin.Leases
/-!
# What a claim takes

On a store that reads back, a claim takes the rows that are free, in the
order of the outbox and up to its limit: each goes under the lease and is
handed out with its event, and nothing else changes (`returns_claimOutbox`).
-/

namespace ArgoTwin

open Library

namespace Store

variable [Digest] {s : Store} {row : OutboxRow} {record : OutboxRecord} {leaseOwner : String}
variable {now leaseUntil : DateTime}

/-- The rows a claim finds free, in the order it takes them. -/
def pendingRows (s : Store) (now : DateTime) : List OutboxRow :=
  (s.outbox.filter fun row => row.publishedAt.isNone && leaseFree now row).insertionSort
    fun a b => outboxBefore a b

/-- The record of a row and its event, under a new lease. -/
def recordOf (leaseOwner : String) (row : OutboxRow) (e : EventEnvelope) : OutboxRecord where
  topic := row.topic
  key := row.messageKey
  event := decode e
  createdAt := row.createdAt.astimezoneUtc
  attempts := row.attempts + 1
  leaseOwner := leaseOwner

/-- The record a claim hands out for a row. -/
def RecordOf (s : Store) (leaseOwner : String) (row : OutboxRow) (record : OutboxRecord) : Prop :=
  ∃ e ∈ s.events, Announces e row ∧ record = recordOf leaseOwner row e

/-- The rows of these keys put under the lease. -/
def leaseKeys (leaseOwner : String) (leaseUntil : DateTime) (keys : List (String × Int × String))
    (s : Store) : Store :=
  { s with outbox :=
    updateWhere (fun row => outboxKey row ∈ keys) (underLease leaseOwner leaseUntil) s.outbox }

omit [Digest] in
theorem RecordOf.slot (h : RecordOf s leaseOwner row record) : record.slot = outboxKey row := by
  obtain ⟨e, -, hannounces, rfl⟩ := h
  have hkey : outboxKey row = (e.twinId, e.sequence, eventTopic) := hannounces
  have htopic : row.topic = eventTopic := (Prod.mk.inj (Prod.mk.inj hkey).2).2
  rw [hkey, ← htopic]
  rfl

omit [Digest] in
theorem mem_pendingRows : row ∈ s.pendingRows now ↔ row ∈ s.outbox ∧ Claimable now row := by
  simp [pendingRows, Claimable]

omit [Digest] in
theorem nodup_pendingRows (hs : s.Filed) : ((s.pendingRows now).map outboxKey).Nodup := by
  have hperm : (s.pendingRows now).Perm
      (s.outbox.filter fun row => row.publishedAt.isNone && leaseFree now row) :=
    List.perm_insertionSort _ _
  rw [(hperm.map outboxKey).nodup_iff]
  exact hs.nodup.sublist (List.filter_sublist.map _)

omit [Digest] in
theorem leaseKeys_nil : s.leaseKeys leaseOwner leaseUntil [] = s := by
  simp [leaseKeys, updateWhere]

omit [Digest] in
/-- One key after the others. -/
theorem leaseKeys_cons {key : String × Int × String} {keys : List (String × Int × String)}
    (hkey : key ∉ keys) :
    (s.leaseKeys leaseOwner leaseUntil [key]).leaseKeys leaseOwner leaseUntil keys =
      s.leaseKeys leaseOwner leaseUntil (key :: keys) := by
  have hsame : ∀ row : OutboxRow, outboxKey (underLease leaseOwner leaseUntil row) =
      outboxKey row := fun _ => rfl
  simp only [leaseKeys, updateWhere, List.map_map]
  congr 1
  refine List.map_congr_left fun row _ => ?_
  by_cases hrow : outboxKey row = key
  · subst hrow
    simp [hsame, hkey]
  · simp [hrow]

theorem valid_leaseKeys {keys : List (String × Int × String)} (hs : s.Valid) :
    (s.leaseKeys leaseOwner leaseUntil keys).Valid := ⟨hs.chained, hs.unique, hs.admitted, hs.bound⟩

omit [Digest] in
theorem filed_leaseKeys (leaseOwner : String) (leaseUntil : DateTime)
    (keys : List (String × Int × String)) (hs : s.Filed) :
    (s.leaseKeys leaseOwner leaseUntil keys).Filed where
  distinct := hs.distinct
  nodup := by
    have hsame : SameRows s (s.leaseKeys leaseOwner leaseUntil keys) :=
      SameRows.refl.update fun _ => rfl
    rw [hsame.outbox]
    exact hs.nodup
  events row' hrow' := by
    obtain ⟨row, hrow, rfl⟩ := List.mem_map.1 hrow'
    obtain ⟨e, he, hannounces⟩ := hs.events row hrow
    refine ⟨e, he, ?_⟩
    split_ifs <;> exact hannounces

omit [Digest] in
/-- The event a row announces is the one at its key. -/
theorem Filed.eventAt_announced (hf : s.Filed) {e : EventEnvelope} (he : e ∈ s.events)
    (hannounces : Announces e row) : s.eventAt row.twinId row.sequence = some e := by
  have hkey : row.twinId = e.twinId ∧ row.sequence = e.sequence := by
    have hslot : outboxKey row = (e.twinId, e.sequence, eventTopic) := hannounces
    simp only [outboxKey, Prod.mk.injEq] at hslot
    exact ⟨hslot.1, hslot.2.1⟩
  have hsome : (s.eventAt row.twinId row.sequence).isSome := by
    rw [eventAt, List.find?_isSome]
    exact ⟨e, he, by simp [hkey]⟩
  obtain ⟨found, hfound⟩ := Option.isSome_iff_exists.1 hsome
  have hat := List.find?_some hfound
  simp only [Bool.and_eq_true, beq_iff_eq, hkey] at hat
  rw [hfound, hf.event_unique he (List.mem_of_find?_eq_some hfound) hat.1 hat.2]

/-- **One round of a claim** on a row that is free. -/
theorem returns_claimRow_free (leaseOwner : String) (leaseUntil : DateTime) (hs : s.Valid)
    (hf : s.Filed) (hrow : row ∈ s.outbox) (hfree : Claimable now row) :
    ∃ record, RecordOf s leaseOwner row record ∧
      Returns (claimRow leaseOwner now leaseUntil row) s (some record)
        (s.leaseKeys leaseOwner leaseUntil [outboxKey row]) := by
  -- the row is the only one the update touches
  have hwanted : ∀ other ∈ s.outbox, wanted now row other = true ↔ other = row := by
    intro other hother
    rw [wanted_iff]
    constructor
    · exact fun h => hf.row_unique hrow hother h.1
    · rintro rfl
      exact ⟨rfl, hfree⟩
  have hone : (s.outbox.filter (wanted now row)).length = 1 := by
    have hsame : s.outbox.filter (wanted now row) = s.outbox.filter (· == row) := by
      refine List.filter_congr fun other hother => ?_
      rw [Bool.eq_iff_iff, hwanted other hother, beq_iff_eq]
    rw [hsame, ← List.count_eq_length_filter]
    exact List.count_eq_one_of_mem (List.Nodup.of_map _ hf.nodup) hrow
  have hleased : leaseSelected leaseOwner now leaseUntil row s =
      s.leaseKeys leaseOwner leaseUntil [outboxKey row] := by
    simp only [leaseSelected, leaseKeys, updateWhere]
    congr 1
    refine List.map_congr_left fun other hother => ?_
    have hkey : wanted now row other = true ↔ outboxKey other ∈ [outboxKey row] := by
      rw [hwanted other hother, List.mem_singleton]
      exact ⟨fun h => h ▸ rfl, fun h => hf.row_unique hrow hother h⟩
    by_cases hother : wanted now row other = true
    · simp only [hother, hkey.1 hother, decide_true, if_true]
    · simp only [hother, mt hkey.2 hother, decide_false, Bool.false_eq_true, if_false]
  obtain ⟨e, he, hannounces⟩ := hf.events row hrow
  have hevent := hf.eventAt_announced he hannounces
  have hafter := filed_leaseKeys leaseOwner leaseUntil [outboxKey row] hf
  have hmem : underLease leaseOwner leaseUntil row ∈
      (s.leaseKeys leaseOwner leaseUntil [outboxKey row]).outbox :=
    List.mem_map.2 ⟨row, hrow, if_pos (by simp)⟩
  have hfound : (s.leaseKeys leaseOwner leaseUntil [outboxKey row]).outbox.find?
      (sameOutboxKey row) = some (underLease leaseOwner leaseUntil row) := by
    have hsome : ((s.leaseKeys leaseOwner leaseUntil [outboxKey row]).outbox.find?
        (sameOutboxKey row)).isSome := by
      rw [List.find?_isSome]
      exact ⟨_, hmem, by simp [sameOutboxKey, underLease]⟩
    obtain ⟨found, hfound⟩ := Option.isSome_iff_exists.1 hsome
    have hsame := List.find?_some hfound
    simp only [sameOutboxKey, Bool.and_eq_true, beq_iff_eq] at hsame
    rw [hfound, hafter.row_unique hmem (List.mem_of_find?_eq_some hfound)
      (by simp [outboxKey, underLease, hsame])]
  have hhash : e.eventHash = contentHash e.hashMaterial :=
    (EventEnvelope.verify_eq_ok.1 (hs.verify_row he)).2
  have hverify : (decode e).verify (decode e).previousHash = .ok () := by
    rw [EventEnvelope.verify_eq_ok, contentHash, canonicalJson_decode]
    exact ⟨rfl, hhash⟩
  refine ⟨recordOf leaseOwner row e, ⟨e, he, hannounces, rfl⟩, ?_⟩
  simp only [claimRow, returns_bind, returns_get, returns_ite, returns_set]
  refine ⟨s, s, ⟨rfl, rfl⟩, .inr ⟨not_not.2 hone, (), _, hleased.symm, _, _, ⟨rfl, rfl⟩, ?_⟩⟩
  rw [hfound, hevent]
  simp only [returns_bind, returns_fromExcept, returns_pure]
  exact ⟨_, _, ⟨rowToEvent_eq (hs.admitted e he), rfl⟩, _, _,
    ⟨hverify, rfl⟩, rfl, rfl⟩

/-- **The rounds of a claim**, on free rows of different keys. -/
theorem returns_claimRows (leaseOwner : String) (leaseUntil : DateTime) {rows : List OutboxRow}
    (hs : s.Valid) (hf : s.Filed) (hrows : ∀ row ∈ rows, row ∈ s.outbox ∧ Claimable now row)
    (hkeys : (rows.map outboxKey).Nodup) :
    ∃ records, List.Forall₂ (RecordOf s leaseOwner) rows records ∧
      Returns (rows.mapM (claimRow leaseOwner now leaseUntil)) s (records.map some)
        (s.leaseKeys leaseOwner leaseUntil (rows.map outboxKey)) := by
  induction rows generalizing s with
  | nil =>
    refine ⟨[], .nil, ?_⟩
    rw [List.map_nil, List.map_nil, leaseKeys_nil]
    rfl
  | cons row rows ih =>
    obtain ⟨hmine, hothers⟩ := List.forall_mem_cons.1 hrows
    rw [List.map_cons, List.nodup_cons] at hkeys
    obtain ⟨record, hrecord, hround⟩ := returns_claimRow_free leaseOwner leaseUntil hs hf
      hmine.1 hmine.2
    -- the other rows are as they were
    have hleft : ∀ other ∈ rows,
        other ∈ (s.leaseKeys leaseOwner leaseUntil [outboxKey row]).outbox ∧
          Claimable now other := by
      intro other hother
      have hdifferent : outboxKey other ≠ outboxKey row := by
        intro hsame
        exact hkeys.1 (hsame ▸ List.mem_map_of_mem hother)
      refine ⟨List.mem_map.2 ⟨other, (hothers other hother).1, ?_⟩, (hothers other hother).2⟩
      rw [if_neg (by simpa using hdifferent)]
    obtain ⟨records, hrecords, hrest⟩ :=
      ih (valid_leaseKeys hs) (filed_leaseKeys _ _ _ hf) hleft hkeys.2
    refine ⟨record :: records, .cons hrecord hrecords, ?_⟩
    rw [leaseKeys_cons hkeys.1] at hrest
    simp only [List.mapM_cons, returns_bind, returns_pure, List.map_cons]
    exact ⟨_, _, hround, _, _, hrest, rfl, rfl⟩

/-- **What a claim takes**: the rows that are free, in the order of the
outbox, as many as its limit. -/
theorem returns_claimOutbox (hs : s.Valid) (hf : s.Filed) {limit leaseSeconds : Int}
    {start stop : Instant} (howner : leaseOwner ≠ "") (hlimit : 0 < limit)
    (hbound : limit < 2 ^ 63) (hseconds : 1 ≤ leaseSeconds) (hend : leaseEnd start leaseSeconds = .ok stop) :
    ∃ records, List.Forall₂ (RecordOf s leaseOwner)
        ((s.pendingRows (DateTime.utc start)).take limit.toNat) records ∧
      Returns (claimOutbox leaseOwner limit leaseSeconds start) s records
        (s.leaseKeys leaseOwner (DateTime.utc stop)
          (((s.pendingRows (DateTime.utc start)).take limit.toNat).map outboxKey)) := by
  have hrows : ∀ row ∈ (s.pendingRows (DateTime.utc start)).take limit.toNat,
      row ∈ s.outbox ∧ Claimable (DateTime.utc start) row :=
    fun row hrow => mem_pendingRows.1 (List.mem_of_mem_take hrow)
  have hkeys : (((s.pendingRows (DateTime.utc start)).take limit.toNat).map outboxKey).Nodup :=
    (nodup_pendingRows hf).sublist ((List.take_sublist _ _).map _)
  obtain ⟨records, hrecords, hclaimed⟩ :=
    returns_claimRows leaseOwner (DateTime.utc stop) hs hf hrows hkeys
  refine ⟨records, hrecords, ?_⟩
  unfold claimOutbox
  rw [if_neg howner, if_neg (by omega), if_neg (by omega)]
  simp only [returns_bind, returns_fromExcept]
  refine ⟨stop, s, ⟨hend, rfl⟩, limit, s, ⟨bindInteger_of_pos hlimit hbound, rfl⟩, ?_⟩
  simp only [claimPending, returns_transaction, returns_bind, returns_get, returns_pure]
  exact ⟨s, s, ⟨rfl, rfl⟩, _, _, hclaimed, by simp, rfl⟩

end Store

end ArgoTwin
