import ArgoTwin.ReadBack
import ArgoTwin.StoreRuns
/-!
# Replaying from a snapshot

A snapshot is faithful where it is the state after some events of its
twin, and a ledger whose events were accepted and whose snapshots were
rebuilt from it keeps them so, however it is appended to and pruned. From
a faithful snapshot `rebuild` comes to the state the origin leads to.
-/

namespace ArgoTwin

open Library TwinAggregate

namespace Store

variable {s : Store} {twinId : String} [Digest]

/-- The event at a sequence is the row in that place. -/
theorem Valid.eventAt_eq (hs : s.Valid) (n : Nat) :
    s.eventAt twinId ((n : Int) + 1) = (s.rowsOf twinId)[n]? := by
  have hfind : s.eventAt twinId ((n : Int) + 1) =
      (s.rowsOf twinId).find? fun row => row.sequence == (n : Int) + 1 := by
    rw [rowsOf, List.find?_filter, eventAt]
    congr 1
    funext row
    rw [Bool.eq_iff_iff]
    simp
  rw [hfind]
  cases hrow : (s.rowsOf twinId)[n]? with
  | none =>
    rw [List.find?_eq_none]
    intro row hmem hsequence
    obtain ⟨i, hi⟩ := List.mem_iff_getElem?.1 hmem
    have hseq := sequence_of_getElem? (hs.chained twinId) hi
    have hn : i = n := by
      have := of_decide_eq_true hsequence
      omega
    rw [hn, hrow] at hi
    cases hi
  | some row =>
    have hseq := sequence_of_getElem? (hs.chained twinId) hrow
    cases hfound : (s.rowsOf twinId).find? fun row => row.sequence == (n : Int) + 1 with
    | none =>
      rw [List.find?_eq_none] at hfound
      have := hfound row (List.mem_of_getElem? hrow)
      simp only [hseq, beq_iff_eq] at this
      omega
    | some other =>
      obtain ⟨i, hi⟩ := List.mem_iff_getElem?.1 (List.mem_of_find?_eq_some hfound)
      have hseq' := sequence_of_getElem? (hs.chained twinId) hi
      have hother : other.sequence = (n : Int) + 1 := by simpa using List.find?_some hfound
      have hn : i = n := by omega
      rw [hn, hrow] at hi
      rw [Option.some.inj hi]

end Store

variable {s : Store} {twinId : String} [Digest]

/-- Every snapshot is the state of its twin after some of its events. -/
def Faithful (s : Store) : Prop :=
  ∀ row ∈ s.snapshots, ∃ (n : Nat) (now : Instant), n < (s.stream row.twinId).length ∧
    row = (stateAt s row.twinId (n + 1)).toSnapshot now

/-- A snapshot of a canonical state at a position is found as it was taken. -/
theorem rowToSnapshot_toSnapshot {state : TwinState} {now : Instant} (hstate : state.Canonical)
    (hverify : (state.toSnapshot now).verify = .ok ()) :
    Store.rowToSnapshot (state.toSnapshot now) = .ok (state.toSnapshot now) := by
  have hcreated : (state.toSnapshot now).createdAt = DateTime.utc now := rfl
  have hread : (state.toSnapshot now).state.reread = (state.toSnapshot now).state := hstate.toDict
  simp only [Store.rowToSnapshot, hread, hcreated, DateTime.naive_utc, Bool.false_eq_true, ↓reduceIte,
    DateTime.astimezoneUtc_utc]
  rw [← hcreated]
  simp only [hverify, bind, Except.bind]
  rfl

/-- **A state replayed from at least one event** stands at a position, and
survives the codec. -/
theorem stateAt_written (hvalid : s.Valid) (hlawful : Lawful s) {n : Nat}
    (hn : n < (s.stream twinId).length) :
    (stateAt s twinId (n + 1)).sequence = (n : Int) + 1 ∧
      (stateAt s twinId (n + 1)).twinId = twinId ∧ twinId ≠ "" ∧
      (stateAt s twinId (n + 1)).lastEventHash ≠ "" := by
  have he : (s.stream twinId)[n]? = some (s.stream twinId)[n] := List.getElem?_eq_getElem hn
  obtain ⟨hsequence, hhash⟩ := stateAt_succ he
  have hseq := Store.sequence_of_getElem? (hvalid.chained_stream twinId) he
  have hmem : (s.stream twinId)[n] ∈ s.stream twinId := List.getElem_mem hn
  have hchained := hvalid.chained_stream twinId
  have hlegal := hlawful twinId
  obtain ⟨before, after, hsplit⟩ := List.append_of_mem hmem
  rw [hsplit, legal_append] at hlegal
  rw [hsplit, Store.Chained, linked_append] at hchained
  obtain ⟨row, hrow, hdecode⟩ := List.mem_map.1 hmem
  refine ⟨by rw [hsequence, hseq]; simp, replay_twinId, ?_, ?_⟩
  · have htwin := (header_of_validateEvent hlegal.2.1.1).1.1
    rwa [← hdecode, Store.decode, (Store.mem_rowsOf.1 hrow).2] at htwin
  · rw [hhash, hchained.2.1.eventHash]
    exact contentHash_ne_empty _

/-- What a snapshot restores. -/
theorem fromDict_stateAt (hvalid : s.Valid) (hlawful : Lawful s) {n : Nat}
    (hn : n < (s.stream twinId).length) :
    TwinState.fromDict (stateAt s twinId (n + 1)).toDict = .ok (stateAt s twinId (n + 1)) := by
  obtain ⟨hseq, htwin, hne, hhash⟩ := stateAt_written hvalid hlawful hn
  exact TwinState.fromDict_toDict (by omega) (by rwa [htwin]) hhash

theorem verify_toSnapshot (now : Instant) (hvalid : s.Valid) (hlawful : Lawful s) {n : Nat}
    (hn : n < (s.stream twinId).length) :
    ((stateAt s twinId (n + 1)).toSnapshot now).verify = .ok () := by
  obtain ⟨hseq, htwin, hne, hhash⟩ := stateAt_written hvalid hlawful hn
  exact SnapshotRecord.verify_new (by omega) (by rwa [htwin]) hhash

/-- A snapshot in the table stands on an event of the stream. -/
theorem Store.Valid.eventAt_hash (hvalid : s.Valid) {n : Nat}
    (hn : n < (s.stream twinId).length) :
    (s.eventAt twinId ((n : Int) + 1)).map (·.eventHash) =
      some (stateAt s twinId (n + 1)).lastEventHash := by
  have hn' : n < (s.rowsOf twinId).length := by simpa [Store.stream] using hn
  have hrow : (s.rowsOf twinId)[n]? = some (s.rowsOf twinId)[n] := List.getElem?_eq_getElem hn'
  have he : (s.stream twinId)[n]? = some (Store.decode (s.rowsOf twinId)[n]) := by
    rw [Store.stream, List.getElem?_map, hrow]
    rfl
  rw [hvalid.eventAt_eq, hrow, (stateAt_succ he).2]
  rfl

/-- **Loading a snapshot** finds none, or the state after some of the
events in range. -/
theorem loadSnapshot_eq (hvalid : s.Valid) (hlawful : Lawful s) (hfaithful : Faithful s)
    (twinId : String) {upTo : Option Int} (hupTo : Store.Bindable upTo) :
    s.loadSnapshot twinId upTo = .ok none ∨
      ∃ (n : Nat) (now : Instant), n < (s.stream twinId).length ∧
        Store.within upTo ((n : Int) + 1) = true ∧
        s.loadSnapshot twinId upTo = .ok (some ((stateAt s twinId (n + 1)).toSnapshot now)) := by
  simp only [Store.loadSnapshot, Store.bindUpTo_of_bindable hupTo, bind, Except.bind]
  cases hmax : greatest (fun row : SnapshotRecord => row.sequence) _ with
  | none => exact .inl rfl
  | some row =>
    have hmem := greatest_mem hmax
    simp only [List.mem_filter, Bool.and_eq_true, beq_iff_eq] at hmem
    obtain ⟨hmem, ⟨htwin, -⟩, hwithin⟩ := hmem
    obtain ⟨n, now, hn, hrow⟩ := hfaithful row hmem
    rw [htwin] at hn hrow
    subst hrow
    obtain ⟨hseq, hname, hne, hhash⟩ := stateAt_written hvalid hlawful hn
    have hsequence : ((stateAt s twinId (n + 1)).toSnapshot now).sequence = (n : Int) + 1 := hseq
    rw [hsequence] at hwithin
    refine .inr ⟨n, now, hn, hwithin, ?_⟩
    have hlink := hvalid.eventAt_hash hn
    simp only [rowToSnapshot_toSnapshot (canonical_stateAt s twinId (n + 1))
      (verify_toSnapshot _ hvalid hlawful hn), htwin, hsequence, hlink, Option.getD_some]
    exact if_neg fun hne => hne rfl

/-- **Starting from a snapshot makes no difference.** -/
theorem rebuild_snapshots (hvalid : s.Valid) (hlawful : Lawful s) (hfaithful : Faithful s)
    {upTo : Option Int} (hupTo : Store.Bindable upTo) :
    rebuild s twinId true upTo none = rebuild s twinId false upTo none := by
  rcases loadSnapshot_eq hvalid hlawful hfaithful twinId hupTo with hnone | ⟨n, now, hn, hin, hsome⟩
  · simp only [rebuild, restored, hnone, bind, Except.bind, Option.isNone_none, Bool.and_self,
      Bool.false_and, Bool.false_eq_true, ↓reduceIte]
  · obtain ⟨hseq, hname, hne, hhash⟩ := stateAt_written hvalid hlawful hn
    have hverify := verify_toSnapshot now hvalid hlawful hn
    have hrestored : restored s twinId true upTo none = .ok (stateAt s twinId (n + 1)) := by
      have hstate : ((stateAt s twinId (n + 1)).toSnapshot now).state =
          (stateAt s twinId (n + 1)).toDict := rfl
      simp only [restored, hsome, bind, Except.bind, Option.isNone_none, Bool.and_self,
        ↓reduceIte, hverify, hstate, fromDict_stateAt hvalid hlawful hn]
      exact if_neg (by simp [TwinState.toSnapshot, SnapshotRecord.new])
    have hcut : ∀ m, n + 1 ≤ m → stateAt s twinId (n + 1) =
        replay { twinId := twinId } (((s.stream twinId).take m).take (n + 1)) := by
      intro m hm
      rw [stateAt, List.take_take, min_eq_left hm]
    obtain ⟨m, hm, hcutAt, -⟩ := cutAt_eq_take (s.stream twinId) upTo
    have hle : n + 1 ≤ m := by
      have hlength := congrArg List.length hcutAt
      cases upTo with
      | none =>
        simp only [Store.cutAt, List.length_take] at hlength
        omega
      | some k =>
        simp only [Store.cutAt, List.length_take] at hlength
        have hk : (n : Int) + 1 ≤ k := of_decide_eq_true hin
        omega
    have hchained : Store.Chained ((s.stream twinId).take m) := (hvalid.chained_stream twinId).take
    have hlegal : Legal { twinId := twinId } ((s.stream twinId).take m) := (hlawful twinId).take
    have hload := hvalid.load_range twinId (stateAt s twinId (n + 1)).sequence hupTo
    have hdrop : (stateAt s twinId (n + 1)).sequence.toNat = n + 1 := by omega
    rw [rebuild_origin_of_lawful hvalid hlawful hupTo, hcutAt]
    simp only [rebuild, hrestored, bind, Except.bind, hload, hcutAt, hdrop]
    rw [replayFrom_eq, folded_of_legal]
    · rw [hcut m hle, ← replay_append, List.take_append_drop]
    · rw [hcut m hle]
      exact hlegal.drop
    · rw [Store.Chained, ← List.take_append_drop (n + 1) ((s.stream twinId).take m),
        linked_append] at hchained
      rw [hcut m hle, replay_position]
      exact hchained.2

end ArgoTwin
