import ArgoTwin.Leases
import ArgoTwin.Relay
/-!
# Relays over one outbox

Any number of relays drain the outbox of one store. A drain claims rows,
gives the event of each to the publisher, and marks the row published or
releases it; it may end at any point, and its lease may end before it does.
Whatever the order of these steps, a row is marked only after its event was
published, and an event is lost by none (`at_least_once`).
-/

namespace ArgoTwin

open Library

/-- A relay over the store. -/
structure OutboxRelay where
  leaseOwner : String
  leaseSeconds : Int := 30

/-- Where a drain is with the first of its records. -/
inductive Attempt where
  | claimed
  | published
  | failed
  deriving DecidableEq

/-- A drain in flight. -/
structure Batch where
  pending : List OutboxRecord
  attempt : Attempt := .claimed

/-- The store, the drains of all its relays, and every event `publish` has
returned for. -/
structure Relays where
  history : History := {}
  batches : List Batch := []
  delivered : List EventEnvelope := []

inductive RelayMove where
  | store (op : StoreOp)
  | drain (relay : OutboxRelay) (limit : Int) (now : Instant)
  | publish (i : Nat)
  | publishFails (i : Nat)
  | mark (i : Nat) (now : Instant)
  | release (i : Nat) (error : String)
  | crash (i : Nat)

namespace Relays

variable [Digest]

/-- The drains after an update of a record's row: the drain raises where
the lease was lost, and goes on with the next record otherwise. -/
def settled (w : Relays) (i : Nat) (record : OutboxRecord) (rest : List OutboxRecord) :
    List Batch :=
  if (w.history.store.outbox.filter (Store.leased record)).length = 1 then
    w.batches.set i { pending := rest }
  else w.batches.eraseIdx i

def step (w : Relays) : RelayMove → Relays
  | .store op => { w with history := w.history.step op }
  | .drain relay limit now =>
    let claim := Store.claimOutbox relay.leaseOwner limit relay.leaseSeconds now
    let history := w.history.step (.claimOutbox relay.leaseOwner limit relay.leaseSeconds now)
    match outcome claim w.history.store with
    | .ok records => { w with history := history, batches := w.batches ++ [{ pending := records }] }
    | .error _ => { w with history := history }
  | .publish i =>
    match w.batches[i]? with
    | some { pending := record :: rest, attempt := .claimed } =>
      { w with
        batches := w.batches.set i { pending := record :: rest, attempt := .published }
        delivered := w.delivered ++ [record.event] }
    | _ => w
  | .publishFails i =>
    match w.batches[i]? with
    | some { pending := record :: rest, attempt := .claimed } =>
      { w with batches := w.batches.set i { pending := record :: rest, attempt := .failed } }
    | _ => w
  | .mark i now =>
    match w.batches[i]? with
    | some { pending := record :: rest, attempt := .published } =>
      { w with
        history := w.history.step (.markOutboxPublished record now)
        batches := w.settled i record rest }
    | _ => w
  | .release i error =>
    match w.batches[i]? with
    | some { pending := record :: rest, attempt := .failed } =>
      { w with
        history := w.history.step (.releaseOutbox record error)
        batches := w.settled i record rest }
    | _ => w
  | .crash i => { w with batches := w.batches.eraseIdx i }

/-- Only a drain marks rows published. -/
def Genuine (_ : Relays) : RelayMove → Prop
  | .store (.markOutboxPublished _ _) => False
  | _ => True

/-- The event was published. -/
def Delivered (w : Relays) (e : EventEnvelope) : Prop := Store.decode e ∈ w.delivered

end Relays

/-- **At least once, and nothing lost.** -/
structure AtLeastOnce (w : Relays) : Prop where
  marked : ∀ row, row ∈ w.history.store.outbox ∨ row ∈ w.history.pruned →
    row.publishedAt ≠ none → ∃ e ∈ w.history.store.events, Announces e row ∧ w.Delivered e
  committed : ∀ e ∈ w.history.store.events, w.history.store.Unpublished e ∨ w.Delivered e
  pruned : ∀ publishedBefore limit, ∀ row ∈ w.history.store.outbox, row.publishedAt = none →
    row ∈ (finalState (Store.pruneOutbox publishedBefore limit) w.history.store).outbox

/-! ## The ledger against what was delivered -/

/-- The tables agree with the events delivered so far. -/
structure Accounted (delivered : List EventEnvelope) (h : History) : Prop where
  filed : h.store.Filed
  marked : ∀ row, row ∈ h.store.outbox ∨ row ∈ h.pruned → row.publishedAt ≠ none →
    ∃ e ∈ h.store.events, Announces e row ∧ Store.decode e ∈ delivered
  committed : ∀ e ∈ h.store.events, h.store.Unpublished e ∨ Store.decode e ∈ delivered

/-- The record was read from the ledger. -/
def ReadFrom (s : Store) (record : OutboxRecord) : Prop :=
  ∃ e ∈ s.events, record.event = Store.decode e

variable {h : History} {op : StoreOp} {delivered more : List EventEnvelope}
variable {record : OutboxRecord} {row row' : OutboxRow}

theorem Accounted.mono (hs : Accounted delivered h) (hmore : delivered ⊆ more) :
    Accounted more h where
  filed := hs.filed
  marked row hrow hpublished := by
    obtain ⟨e, he, hannounces, hdelivered⟩ := hs.marked row hrow hpublished
    exact ⟨e, he, hannounces, hmore hdelivered⟩
  committed e he := (hs.committed e he).imp_right fun hdelivered => hmore hdelivered

/-- The row a genuine record is leased is its event's. -/
theorem ReadFrom.event_eq {s : Store} (hs : s.Filed) (hread : ReadFrom s record)
    (hleased : Store.leased record row = true) {e : EventEnvelope}
    (he : e ∈ s.events) (hannounces : Announces e row) : record.event = Store.decode e := by
  obtain ⟨e', he', hevent⟩ := hread
  have hslot : record.slot = (e.twinId, e.sequence, Store.eventTopic) :=
    (Store.leased_iff.1 hleased).1.symm.trans hannounces
  have hsame : e' = e := by
    simp only [OutboxRecord.slot, hevent, Prod.mk.injEq] at hslot
    exact hs.event_unique he he' hslot.1 hslot.2.1
  rw [hevent, hsame]

variable [Digest]

theorem events_subset (h : History) (op : StoreOp) : h.store.events ⊆ (h.step op).store.events := by
  rcases Store.turned_step h op with ⟨e, x, now, fault, r, rfl, hfresh⟩ | hturned
  · rw [hfresh.events_eq]
    exact List.subset_append_left _ _
  · rw [hturned.events]
    exact List.Subset.refl _

theorem ReadFrom.step (hread : ReadFrom h.store record) :
    ReadFrom (h.step op).store record := by
  obtain ⟨e, he, hevent⟩ := hread
  exact ⟨e, events_subset h op he, hevent⟩

omit [Digest] in
/-- A row that is published after a call was published before it, or its
mark is the call. -/
theorem published_before (hturn : Store.Turn op row row') (hpublished : row'.publishedAt ≠ none) :
    row' = row ∨ ∃ record now, op = .markOutboxPublished record now ∧
      Store.leased record row = true := by
  cases hturn with
  | stays => exact .inl rfl
  | claimed _ _ hfree => exact absurd hfree.1 hpublished
  | marked hop hleased => exact .inr ⟨_, _, hop, hleased⟩
  | released _ hleased => exact absurd (Store.leased_iff.1 hleased).2.1 hpublished

/-- **One call keeps the account**, where a mark is of an event that was
delivered. -/
theorem accounted_step (hs : Accounted delivered h)
    (hop : ∀ record now, op = .markOutboxPublished record now →
      ReadFrom h.store record ∧ record.event ∈ delivered) : Accounted delivered (h.step op) where
  filed := Store.filed_step hs.filed op
  marked row' hrow' hpublished := by
    have hkept : ∀ row, row ∈ h.store.outbox ∨ row ∈ h.pruned → row.publishedAt ≠ none →
        ∃ e ∈ (h.step op).store.events, Announces e row ∧ Store.decode e ∈ delivered := by
      intro row hrow hpublished
      obtain ⟨e, he, hannounces, hdelivered⟩ := hs.marked row hrow hpublished
      exact ⟨e, events_subset h op he, hannounces, hdelivered⟩
    rcases hrow' with hin | hgone
    · rcases Store.turned_step h op with ⟨e, x, now, fault, r, rfl, hfresh⟩ | hturned
      · rw [hfresh.outbox_eq] at hin
        rcases List.mem_append.1 hin with hold | hadded
        · exact hkept row' (.inl hold) hpublished
        · rw [List.mem_singleton.1 hadded] at hpublished
          exact absurd rfl hpublished
      · obtain ⟨row, hrow, hturn⟩ := hturned.rows row' hin
        rcases published_before hturn hpublished with rfl | ⟨record, now, hmark, hleased⟩
        · exact hkept row' (.inl hrow) hpublished
        · obtain ⟨hread, hdelivered⟩ := hop record now hmark
          obtain ⟨e, he, hannounces⟩ := hs.filed.events row hrow
          have hevent := hread.event_eq hs.filed hleased he hannounces
          exact ⟨e, hturned.events ▸ he, hturn.key.trans hannounces, hevent ▸ hdelivered⟩
    · -- a row that was pruned was there before
      rcases List.mem_append.1 hgone with hold | hpruned
      · exact hkept row' (.inr hold) hpublished
      · have hrow : row' ∈ h.store.outbox := by
          cases op with
          | pruneOutbox publishedBefore limit => exact List.mem_of_mem_filter hpruned
          | _ => exact absurd hpruned List.not_mem_nil
        exact hkept row' (.inl hrow) hpublished
  committed e he := by
    by_cases hmark : ∃ record now, op = .markOutboxPublished record now
    · obtain ⟨record, now, rfl⟩ := hmark
      obtain ⟨hread, hdelivered⟩ := hop record now rfl
      rcases hs.committed e he with ⟨row, hrow, hannounces, hnone⟩ | hdone
      · by_cases hleased : Store.leased record row = true
        · exact .inr (hread.event_eq hs.filed hleased he hannounces ▸ hdelivered)
        · exact .inl ⟨row, List.mem_map.2 ⟨row, hrow, if_neg hleased⟩, hannounces, hnone⟩
      · exact .inr hdone
    · have hwaiting : Store.Waiting h.store (h.step op).store :=
        Store.waiting_step fun record now hop => hmark ⟨record, now, hop⟩
      rcases Store.turned_step h op with ⟨e', x, now, fault, r, rfl, hfresh⟩ | hturned
      · rw [hfresh.events_eq] at he
        rcases List.mem_append.1 he with hold | hadded
        · exact (hs.committed e hold).imp_left hwaiting.unpublished
        · obtain rfl := List.mem_singleton.1 hadded
          refine .inl ⟨Store.outboxRow e, ?_, rfl, rfl⟩
          rw [hfresh.outbox_eq]
          exact List.mem_append_right _ (List.mem_singleton_self _)
      · rw [hturned.events] at he
        exact (hs.committed e he).imp_left hwaiting.unpublished

/-! ## The drains -/

/-- What holds of the drains in flight: their records are of the ledger,
and what they have published was delivered. -/
structure Relays.Tracked (w : Relays) : Prop where
  accounted : Accounted w.delivered w.history
  read : ∀ batch ∈ w.batches, ∀ record ∈ batch.pending, ReadFrom w.history.store record
  published : ∀ batch ∈ w.batches, batch.attempt = .published →
    ∀ record ∈ batch.pending.head?, record.event ∈ w.delivered

namespace Relays

variable {w : Relays} {i : Nat} {batch : Batch} {batches : List Batch}
variable {rest : List OutboxRecord}

/-- A call of the store by anyone but a drain. -/
theorem Tracked.call (hw : w.Tracked) (hop : ∀ record now, op ≠ .markOutboxPublished record now) :
    ({ w with history := w.history.step op } : Relays).Tracked where
  accounted := accounted_step hw.accounted fun record now hmark => absurd hmark (hop record now)
  read batch hbatch record hrecord := (hw.read batch hbatch record hrecord).step
  published := hw.published

omit [Digest] in
/-- Drains that have published nothing. -/
theorem Tracked.resume (hw : w.Tracked) (hbatches : ∀ batch ∈ batches, batch ∈ w.batches ∨
      (batch.attempt ≠ .published ∧ ∀ record ∈ batch.pending, ReadFrom w.history.store record)) :
    ({ w with batches := batches } : Relays).Tracked where
  accounted := hw.accounted
  read batch hbatch record hrecord := by
    rcases hbatches batch hbatch with hold | ⟨-, hread⟩
    · exact hw.read batch hold record hrecord
    · exact hread record hrecord
  published batch hbatch hpublished := by
    rcases hbatches batch hbatch with hold | ⟨hnot, -⟩
    · exact hw.published batch hold hpublished
    · exact absurd hpublished hnot

omit [Digest] in
/-- The drain goes on with its next record, or ends. -/
theorem mem_settled {other : Batch} (h : other ∈ w.settled i record rest) :
    other ∈ w.batches ∨ other = { pending := rest } := by
  unfold settled at h
  split_ifs at h
  · exact List.mem_or_eq_of_mem_set h
  · exact .inl (List.mem_of_mem_eraseIdx h)

/-- A drain settles a record: with a mark, of an event that was delivered,
or with a release. -/
theorem Tracked.settle (hw : w.Tracked) (hi : w.batches[i]? = some batch)
    (hpending : batch.pending = record :: rest) {op : StoreOp}
    (hop : ∀ other now, op = .markOutboxPublished other now →
      other = record ∧ batch.attempt = .published) :
    ({ w with history := w.history.step op, batches := w.settled i record rest } :
      Relays).Tracked := by
  have hbatch : batch ∈ w.batches := List.mem_of_getElem? hi
  have hread : ∀ other ∈ batch.pending, ReadFrom w.history.store other := hw.read batch hbatch
  have hcalled : ({ w with history := w.history.step op } : Relays).Tracked := by
    refine ⟨accounted_step hw.accounted fun other now hmark => ?_, ?_, hw.published⟩
    · obtain ⟨rfl, hpublished⟩ := hop other now hmark
      refine ⟨hread other (hpending ▸ List.mem_cons_self), ?_⟩
      exact hw.published batch hbatch hpublished other (by rw [hpending]; rfl)
    · exact fun b hb record hrecord => (hw.read b hb record hrecord).step
  refine hcalled.resume fun other hother => ?_
  rcases mem_settled hother with hold | rfl
  · exact .inl hold
  · refine .inr ⟨by simp, fun later hlater => ?_⟩
    exact (hread later (hpending ▸ List.mem_cons_of_mem _ hlater)).step

/-- **One move keeps track.** -/
theorem Tracked.step (hw : w.Tracked) {move : RelayMove} (hgenuine : w.Genuine move) :
    (w.step move).Tracked := by
  cases move with
  | store op =>
    refine hw.call fun record now hop => ?_
    subst hop
    exact hgenuine
  | drain relay limit now =>
    have hclaim : ∀ record now', StoreOp.claimOutbox relay.leaseOwner limit relay.leaseSeconds now ≠
        .markOutboxPublished record now' := fun _ _ => by simp
    have hcalled := hw.call hclaim
    simp only [Relays.step]
    split
    · rename_i records hclaimed
      refine hcalled.resume fun other hother => ?_
      rcases List.mem_append.1 hother with hold | hnew
      · exact .inl hold
      · obtain rfl := List.mem_singleton.1 hnew
        refine .inr ⟨by simp, fun record hrecord => ?_⟩
        obtain ⟨after, hreturns⟩ := outcome_eq_ok.1 hclaimed
        obtain ⟨_, -, -, -, htook⟩ :=
          Store.claimOutbox_took hw.accounted.filed hreturns record hrecord
        exact ReadFrom.step htook.written
    · exact hcalled
  | publish i =>
    simp only [Relays.step]
    split
    swap
    · exact hw
    rename_i record rest hi
    refine ⟨hw.accounted.mono (List.subset_append_left _ _), ?_, ?_⟩
    · intro other hother
      rcases List.mem_or_eq_of_mem_set hother with hold | rfl
      · exact hw.read other hold
      · have hread := hw.read _ (List.mem_of_getElem? hi)
        exact hread
    · -- what is published before it is marked is on the list of the delivered
      intro other hother hpublished later hlater
      rcases List.mem_or_eq_of_mem_set hother with hold | rfl
      · exact List.mem_append_left _ (hw.published other hold hpublished later hlater)
      · obtain rfl := Option.some.inj hlater
        exact List.mem_append_right _ (List.mem_singleton_self _)
  | publishFails i =>
    simp only [Relays.step]
    split
    swap
    · exact hw
    rename_i record rest hi
    refine hw.resume fun other hother => ?_
    rcases List.mem_or_eq_of_mem_set hother with hold | rfl
    · exact .inl hold
    · have hread := hw.read _ (List.mem_of_getElem? hi)
      exact .inr ⟨by simp, hread⟩
  | mark i now =>
    simp only [Relays.step]
    split
    · rename_i record rest hi
      refine hw.settle hi rfl fun other now' hmark => ?_
      exact ⟨(StoreOp.markOutboxPublished.inj hmark).1.symm, rfl⟩
    · exact hw
  | release i error =>
    simp only [Relays.step]
    split
    · rename_i record rest hi
      refine hw.settle hi rfl fun other now' hmark => ?_
      cases hmark
    · exact hw
  | crash i => exact hw.resume fun other hother => .inl (List.mem_of_mem_eraseIdx hother)

theorem tracked_init : ({} : Relays).Tracked where
  accounted :=
    { filed := Store.filed_of_reachable .init
      marked := by rintro row (hrow | hrow) <;> cases hrow
      committed := fun e he => by cases he }
  read batch hbatch := by cases hbatch
  published batch hbatch := by cases hbatch

end Relays

/-- The runs of the relays over an empty store. -/
abbrev RelaysReachable : Relays → Prop := Reachable Relays.step Relays.Genuine {}

/-- **Publication is at least once, and nothing is lost**, whatever the
relays do, in any order, with any failures. -/
theorem at_least_once {w : Relays} (hreach : RelaysReachable w) : AtLeastOnce w := by
  have htracked := hreach.invariant (I := Relays.Tracked) Relays.tracked_init
    fun _ _ hw hgenuine => hw.step hgenuine
  refine ⟨htracked.accounted.marked, htracked.accounted.committed, ?_⟩
  intro publishedBefore limit row hrow hnone
  obtain ⟨kept, hkept, hrows⟩ :=
    Store.finalState_pruneOutbox (s := w.history.store) publishedBefore limit
  rw [hkept]
  rcases hrows row hrow with hstays | ⟨-, hpublished⟩
  · exact hstays
  · rw [hnone] at hpublished
    cases hpublished

/-- Two relays, one of which loses its lease after it published. -/
def relayedTwice : List RelayMove :=
  [.store (.append firstEvent 0 1 none), .drain { leaseOwner := "one" } 100 2, .publish 0,
    .drain { leaseOwner := "two" } 100 30000002, .mark 0 30000003, .publish 0,
    .mark 0 30000004, .store (.pruneOutbox (DateTime.utc 30000005) 10)]

omit [Digest] in
theorem at_least_once_relayedTwice :
    let _ : Digest := checksumDigest
    let w := run Relays.step {} relayedTwice
    AtLeastOnce w ∧ w.delivered.length = 2 ∧ w.history.pruned.length = 1 ∧
      w.history.store.outbox.length = 0 := by
  intro digest w
  have hreach : RelaysReachable w :=
    reachable_run_of (by simp [relayedTwice, Relays.Genuine])
  exact ⟨at_least_once hreach, by decide +kernel, by decide +kernel, by decide +kernel⟩

end ArgoTwin
