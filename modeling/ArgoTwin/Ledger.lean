import ArgoTwin.Append
/-!
# The ledger invariant

The rows of one twin are a log: each follows the position its predecessor
left, numbered from one and chained by hash (`Chained`). `Valid` adds the
uniqueness constraints, and what the tables' own checks admit. On a valid
store the reads come out as expected: the head is the end of the log, and
loading a range is cutting the log.
-/

namespace ArgoTwin

open Library

namespace Store

/-- The event as it is read back. -/
def decode (row : EventEnvelope) : EventEnvelope :=
  { row with
    payload := row.payload.reread
    occurredAt := row.occurredAt.astimezoneUtc
    recordedAt := row.recordedAt.astimezoneUtc }

/-- The position an event leaves its stream at. -/
def position (e : EventEnvelope) : Int × String := (e.sequence, e.eventHash)

/-- A row whose times are aware, in the schema and on a plane the store
takes. -/
structure Admitted (row : EventEnvelope) : Prop where
  occurredAt : row.occurredAt.naive = false
  recordedAt : row.recordedAt.naive = false
  schemaVersion : row.schemaVersion = "argo.dt.event/v2"
  plane : row.plane ≠ .simulation

/-- A twin's events as they are read back. -/
def stream (s : Store) (twinId : String) : List EventEnvelope := (s.rowsOf twinId).map decode

/-- The events up to a sequence, all of them where none is given. -/
def cutAt (es : List EventEnvelope) : Option Int → List EventEnvelope
  | some n => es.take n.toNat
  | none => es

/-- Both times of the row name their offsets. -/
structure Aware (row : EventEnvelope) : Prop where
  occurredAt : row.occurredAt.naive = false
  recordedAt : row.recordedAt.naive = false

/-- A row can be read exactly when it is aware of its times. -/
theorem rowToEvent_eq_ok {row e : EventEnvelope} :
    rowToEvent row = .ok e ↔ Aware row ∧ e = decode row := by
  rw [rowToEvent]
  split_ifs with h
  · refine iff_of_false (by simp) fun ⟨haware, _⟩ => ?_
    simp [haware.occurredAt, haware.recordedAt] at h
  · rw [not_or, Bool.not_eq_true, Bool.not_eq_true] at h
    rw [Except.ok.injEq, eq_comm]
    exact ⟨fun heq => ⟨⟨h.1, h.2⟩, heq⟩, fun heq => heq.2⟩

theorem rowToEvent_eq {row : EventEnvelope} (h : Admitted row) :
    rowToEvent row = .ok (decode row) :=
  rowToEvent_eq_ok.2 ⟨⟨h.occurredAt, h.recordedAt⟩, rfl⟩

/-- Reading an event back keeps what its hash covers, as it is written. -/
@[simp] theorem canonicalJson_decode (row : EventEnvelope) :
    canonicalJson (decode row).hashMaterial = canonicalJson row.hashMaterial := by
  have htimes : (decode row).hashMaterial = row.reread.hashMaterial := by
    simp only [EventEnvelope.hashMaterial, EventEnvelope.reread, decode,
      DateTime.toPrimitive_astimezoneUtc]
    rfl
  rw [htimes, EventEnvelope.canonicalJson_hashMaterial_reread]

/-- What was read back is read back as it is. -/
@[simp] theorem decode_decode (row : EventEnvelope) : decode (decode row) = decode row := by
  simp [decode]

/-- And so can a list of rows. -/
theorem mapM_rowToEvent_eq_ok {rows es : List EventEnvelope} :
    rows.mapM rowToEvent = .ok es ↔ (∀ row ∈ rows, Aware row) ∧ es = rows.map decode := by
  induction rows generalizing es with
  | nil => simp [pure, Except.pure, eq_comm]
  | cons row rows ih =>
    simp only [List.mapM_cons, bind_eq_ok, rowToEvent_eq_ok, ih, List.forall_mem_cons,
      List.map_cons]
    constructor
    · rintro ⟨_, ⟨haware, rfl⟩, _, ⟨hrest, rfl⟩, hes⟩
      cases hes
      exact ⟨⟨haware, hrest⟩, rfl⟩
    · rintro ⟨⟨haware, hrest⟩, rfl⟩
      exact ⟨_, ⟨haware, rfl⟩, _, ⟨hrest, rfl⟩, rfl⟩

theorem mapM_rowToEvent {rows : List EventEnvelope} (hrows : ∀ row ∈ rows, Admitted row) :
    rows.mapM rowToEvent = .ok (rows.map decode) := by
  refine mapM_rowToEvent_eq_ok.2 ⟨fun row hrow => ?_, rfl⟩
  exact ⟨(hrows row hrow).occurredAt, (hrows row hrow).recordedAt⟩

variable {s : Store} {twinId : String}

theorem mem_rowsOf {row : EventEnvelope} :
    row ∈ s.rowsOf twinId ↔ row ∈ s.events ∧ row.twinId = twinId := by
  simp [rowsOf]

variable [Digest]

/-- The event comes next after a position. -/
structure Follows (p : Int × String) (e : EventEnvelope) : Prop where
  sequence : e.sequence = p.1 + 1
  previousHash : e.previousHash = p.2
  eventHash : e.eventHash = contentHash e.hashMaterial

/-- A stream from its beginning. -/
abbrev Chained (es : List EventEnvelope) : Prop := Linked Follows position (0, "") es

/-- **The ledger invariant.** -/
structure Valid (s : Store) : Prop where
  chained : ∀ twinId, Chained (s.rowsOf twinId)
  unique : s.events.Pairwise fun a b => conflicts a b = false
  admitted : ∀ row ∈ s.events, Admitted row
  bound : ∀ row ∈ s.events, Bindable (some row.sequence)

/-! ## Positions in a log -/

section Positions

variable {es : List EventEnvelope} {p : Int × String}

/-- A log read from `p` ends as many events after it as it has. -/
theorem endOf_sequence (h : Linked Follows position p es) :
    (endOf position p es).1 = p.1 + es.length := by
  induction es generalizing p with
  | nil => simp
  | cons e es ih =>
    obtain ⟨hfollows, hrest⟩ := h
    rw [endOf_cons, ih hrest, position, hfollows.sequence, List.length_cons]
    push_cast
    omega

/-- The `i`-th event of a stream has sequence `i + 1`. -/
theorem sequence_of_getElem? {i : Nat} {e : EventEnvelope} (h : Linked Follows position p es)
    (he : es[i]? = some e) : e.sequence = p.1 + i + 1 := by
  induction es generalizing p i with
  | nil => simp at he
  | cons a es ih =>
    obtain ⟨hfollows, hrest⟩ := h
    cases i with
    | zero =>
      simp only [List.getElem?_cons_zero, Option.some.injEq] at he
      subst he
      rw [hfollows.sequence]
      simp
    | succ i =>
      rw [ih hrest (by simpa using he), position, hfollows.sequence]
      push_cast
      omega

/-- The sequences of a log are consecutive. -/
theorem mem_sequence (h : Linked Follows position p es) {e : EventEnvelope} (he : e ∈ es) :
    p.1 < e.sequence ∧ e.sequence ≤ p.1 + es.length := by
  obtain ⟨i, hi⟩ := List.mem_iff_getElem?.1 he
  have hseq := sequence_of_getElem? h hi
  have hlt : i < es.length := (List.getElem?_eq_some_iff.1 hi).1
  omega

/-- A log is in the order of its sequences. -/
theorem pairwise_sequence (h : Linked Follows position p es) :
    es.Pairwise fun a b => a.sequence < b.sequence := by
  induction es generalizing p with
  | nil => exact .nil
  | cons e es ih =>
    obtain ⟨-, hrest⟩ := h
    exact .cons (fun b hb => (mem_sequence hrest hb).1) (ih hrest)

/-- Cutting a stream by sequence is taking a beginning of it. -/
theorem filter_le_sequence (h : Linked Follows position p es) (n : Int) :
    es.filter (fun e => e.sequence ≤ n) = es.take (n - p.1).toNat := by
  induction es generalizing p with
  | nil => simp
  | cons e es ih =>
    obtain ⟨hfollows, hrest⟩ := h
    have hseq := hfollows.sequence
    by_cases hle : e.sequence ≤ n
    · have hn : (n - p.1).toNat = (n - (position e).1).toNat + 1 := by
        simp only [position]
        omega
      rw [List.filter_cons_of_pos (by simpa using hle), hn, List.take_succ_cons, ih hrest]
    · have hn : (n - p.1).toNat = 0 := by omega
      rw [hn, List.take_zero, List.filter_eq_nil_iff]
      intro b hb
      rcases List.mem_cons.1 hb with rfl | hb
      · simpa using hle
      · have := (mem_sequence hrest hb).1
        simp only [position] at this
        simp only [decide_eq_true_eq]
        omega

/-- And what is left is the rest. -/
theorem filter_lt_sequence (h : Linked Follows position p es) (n : Int) :
    es.filter (fun e => n < e.sequence) = es.drop (n - p.1).toNat := by
  induction es generalizing p with
  | nil => simp
  | cons e es ih =>
    obtain ⟨hfollows, hrest⟩ := h
    have hseq := hfollows.sequence
    by_cases hlt : n < e.sequence
    · have hn : (n - p.1).toNat = 0 := by omega
      rw [hn, List.drop_zero, List.filter_eq_self]
      intro b hb
      rcases List.mem_cons.1 hb with rfl | hb
      · simpa using hlt
      · have := (mem_sequence hrest hb).1
        simp only [position] at this
        simp only [decide_eq_true_eq]
        omega
    · have hn : (n - p.1).toNat = (n - (position e).1).toNat + 1 := by
        simp only [position]
        omega
      rw [List.filter_cons_of_neg (by simpa using hlt), hn, List.drop_succ_cons, ih hrest]

/-- The newest row of a stream is its last. -/
theorem greatest_sequence (h : Linked Follows position p es) :
    greatest (fun row => row.sequence) es = es.getLast? := by
  induction es using List.reverseRecOn with
  | nil => rfl
  | append_singleton es e ih =>
    obtain ⟨hes, hfollows⟩ := linked_concat.1 h
    rw [greatest_concat, List.getLast?_concat]
    cases hmax : greatest (fun row => row.sequence) es with
    | none => rfl
    | some c =>
      have hle := (mem_sequence hes (greatest_mem hmax)).2
      have hend := endOf_sequence hes
      have hseq := hfollows.sequence
      have hlt : c.sequence < e.sequence := by omega
      simp [hlt]

end Positions

/-! ## Reading a valid store -/

theorem follows_decode {p : Int × String} {row : EventEnvelope} :
    Follows p (decode row) ↔ Follows p row := by
  constructor
  · rintro ⟨hseq, hprev, hhash⟩
    refine ⟨hseq, hprev, ?_⟩
    rwa [contentHash, canonicalJson_decode] at hhash
  · rintro ⟨hseq, hprev, hhash⟩
    refine ⟨hseq, hprev, ?_⟩
    rwa [contentHash, canonicalJson_decode]

/-- A chained stream passes the loop of `verify_chain`. -/
theorem verifyFrom_eq {es : List EventEnvelope} {n : Int} {previous : String}
    (hes : Linked Follows position (n, previous) es) :
    verifyFrom (n + 1, previous) es = .ok true := by
  induction es generalizing n previous with
  | nil => rfl
  | cons e es ih =>
    obtain ⟨hfollows, hrest⟩ := hes
    have hverify : e.verify previous = .ok () :=
      EventEnvelope.verify_eq_ok.2 ⟨hfollows.previousHash, hfollows.eventHash⟩
    have hseq : e.sequence = n + 1 := hfollows.sequence
    simp only [verifyFrom, hseq, ne_eq, not_true_eq_false, ↓reduceIte, hverify, bind, Except.bind]
    rw [position, hseq] at hrest
    exact ih hrest

/-- A stream that passes the loop is chained. -/
theorem linked_of_verifyFrom {es : List EventEnvelope} {n : Int} {previous : String}
    (h : verifyFrom (n + 1, previous) es = .ok true) :
    Linked Follows position (n, previous) es := by
  induction es generalizing n previous with
  | nil => trivial
  | cons e es ih =>
    rw [verifyFrom] at h
    split_ifs at h with hsequence
    obtain ⟨_, hverify, hrest⟩ := bind_eq_ok.1 h
    obtain ⟨hprevious, hhash⟩ := EventEnvelope.verify_eq_ok.1 hverify
    rw [not_not] at hsequence
    refine ⟨⟨hsequence, hprevious, hhash⟩, ?_⟩
    rw [position, hsequence]
    exact ih hrest

/-- The newest row of a chained stream is its last. -/
theorem newestRow_of_chained (h : Chained (s.rowsOf twinId)) :
    s.newestRow twinId = (s.rowsOf twinId).getLast? := greatest_sequence h

/-- The head's position, on the rows themselves. -/
theorem head_of_chained (h : Chained (s.rowsOf twinId)) :
    s.head twinId = endOf position (0, "") (s.rowsOf twinId) := by
  rw [head, newestRow_of_chained h, endOf]
  cases (s.rowsOf twinId).getLast? <;> rfl

namespace Valid

variable (h : s.Valid)

include h

theorem chained_stream (twinId : String) : Chained (s.stream twinId) :=
  (linked_map (fun _ _ => follows_decode) fun _ => rfl).2 (h.chained twinId)

theorem newestRow_eq (twinId : String) : s.newestRow twinId = (s.rowsOf twinId).getLast? :=
  newestRow_of_chained (h.chained twinId)

/-- The head is where the stream ends. -/
theorem head_eq (twinId : String) : s.head twinId = endOf position (0, "") (s.stream twinId) := by
  rw [head, h.newestRow_eq, endOf, stream, List.getLast?_map]
  cases (s.rowsOf twinId).getLast? <;> rfl

/-- A stream has as many events as its head says. -/
theorem head_sequence (twinId : String) :
    (s.head twinId).1 = (s.stream twinId).length := by
  rw [h.head_eq, endOf_sequence (h.chained_stream twinId)]
  simp

theorem admitted_rowsOf {row : EventEnvelope} (hrow : row ∈ s.rowsOf twinId) : Admitted row :=
  h.admitted row (mem_rowsOf.1 hrow).1

/-- SQLite takes every position of a stream. -/
theorem bindable {n : Int} (hpos : 0 ≤ n) (hle : n ≤ (s.stream twinId).length) :
    Bindable (some n) := by
  have hlength : ((s.stream twinId).length : Int) < 2 ^ 63 := by
    rw [← h.head_sequence, head, h.newestRow_eq]
    cases hlast : (s.rowsOf twinId).getLast? with
    | none => norm_num
    | some row =>
      have hrow := h.bound row (mem_rowsOf.1 (List.mem_of_getLast? hlast)).1
      exact (bindable_some.1 hrow).2
  exact bindable_some.2 ⟨by omega, by omega⟩

theorem bySequence_filter (p : EventEnvelope → Bool) :
    bySequence ((s.rowsOf twinId).filter p) = (s.rowsOf twinId).filter p := by
  refine List.Pairwise.insertionSort_eq ?_
  exact ((pairwise_sequence (h.chained twinId)).imp fun hlt => le_of_lt hlt).filter p

/-- **Loading the whole stream.** -/
theorem load_all (twinId : String) : s.load twinId 0 none [] = .ok (s.stream twinId) := by
  have hall : (s.rowsOf twinId).filter (fun row => 0 < row.sequence && within none row.sequence && true) =
      s.rowsOf twinId := by
    rw [List.filter_eq_self]
    intro row hrow
    simpa [within] using (mem_sequence (h.chained twinId) hrow).1
  simp only [load, bindUpTo, bind, Except.bind, List.isEmpty_nil, Bool.true_or]
  rw [h.bySequence_filter, hall, mapM_rowToEvent fun row hrow => h.admitted_rowsOf hrow]
  rfl

/-- **Loading a range** cuts the stream at its end and at its beginning. -/
theorem load_range (twinId : String) (after : Int) {upTo : Option Int} (hupTo : Bindable upTo) :
    s.load twinId after upTo [.authoritative, .projection] =
      .ok ((cutAt (s.stream twinId) upTo).drop after.toNat) := by
  have hplane : ∀ row ∈ s.rowsOf twinId,
      ([EventPlane.authoritative, .projection].isEmpty ||
        [EventPlane.authoritative, .projection].contains row.plane) = true := by
    intro row hrow
    have hne := (h.admitted_rowsOf hrow).plane
    cases hp : row.plane <;> simp_all
  have hfilter : (s.rowsOf twinId).filter (fun row =>
      after < row.sequence && within upTo row.sequence &&
      ([EventPlane.authoritative, .projection].isEmpty ||
        [EventPlane.authoritative, .projection].contains row.plane)) =
      (cutAt (s.rowsOf twinId) upTo).drop after.toNat := by
    have hcut : Chained (cutAt (s.rowsOf twinId) upTo) := by
      cases upTo with
      | none => exact h.chained twinId
      | some n => exact (h.chained twinId).take
    have hdrop := filter_lt_sequence hcut after
    rw [Int.sub_zero] at hdrop
    rw [← hdrop]
    cases upTo with
    | none =>
      refine List.filter_congr fun row hrow => ?_
      rw [hplane row hrow]
      simp [within]
    | some n =>
      have htake := filter_le_sequence (h.chained twinId) n
      rw [Int.sub_zero] at htake
      rw [cutAt, ← htake, List.filter_filter]
      refine List.filter_congr fun row hrow => ?_
      rw [hplane row hrow]
      simp [within]
  simp only [load, bindUpTo_of_bindable hupTo, bind, Except.bind]
  rw [h.bySequence_filter, hfilter, mapM_rowToEvent]
  · cases upTo <;> simp [stream, cutAt, List.map_drop, List.map_take]
  · intro row hrow
    have hmem := List.mem_of_mem_drop hrow
    cases upTo with
    | none => exact h.admitted_rowsOf hmem
    | some n => exact h.admitted_rowsOf (List.mem_of_mem_take hmem)

/-- **`verify_chain` accepts every stream.** -/
theorem verifyChain_eq (twinId : String) : s.verifyChain twinId = .ok true := by
  rw [verifyChain, h.load_all]
  exact verifyFrom_eq (h.chained_stream twinId)

end Valid

/-! ## What keeps a store valid -/

/-- The invariant is about the event table only. -/
theorem Valid.congr {s s' : Store} (h : s.Valid) (hevents : s'.events = s.events) : s'.Valid where
  chained twinId := by
    rw [rowsOf, hevents]
    exact h.chained twinId
  unique := by
    rw [hevents]
    exact h.unique
  admitted := by
    rw [hevents]
    exact h.admitted
  bound := by
    rw [hevents]
    exact h.bound

theorem valid_empty : ({} : Store).Valid where
  chained _ := trivial
  unique := .nil
  admitted := by simp
  bound := by simp

variable {s s' : Store} {e r : EventEnvelope} {x : Int} {now : Instant}

/-- A fresh append adds one row at the end. -/
theorem Fresh.events_eq (h : Fresh s e x now r s') : s'.events = s.events ++ [r] := by
  obtain ⟨-, -, -, -, -, -, t, hindexed, rfl⟩ := h
  rw [written, (indexed_frame hindexed).1]

theorem Fresh.outbox_eq (h : Fresh s e x now r s') : s'.outbox = s.outbox ++ [outboxRow r] := by
  obtain ⟨-, -, -, -, -, -, t, hindexed, rfl⟩ := h
  rw [written, (indexed_frame hindexed).2.1]

theorem Fresh.snapshots_eq (h : Fresh s e x now r s') : s'.snapshots = s.snapshots := by
  obtain ⟨-, -, -, -, -, -, t, hindexed, rfl⟩ := h
  rw [written, (indexed_frame hindexed).2.2]

theorem Fresh.sealed (h : Fresh s e x now r s') :
    r = e.sealAt (x + 1) (s.head e.twinId).2 (DateTime.utc now) := h.2.2.1

theorem Fresh.head (h : Fresh s e x now r s') : (s.head e.twinId).1 = x := h.2.1

@[simp] theorem sealAt_twinId {n : Int} {previous : String} {d : DateTime} :
    (e.sealAt n previous d).twinId = e.twinId := rfl

/-- The row is added to its own twin's rows, and to no other's. -/
theorem Fresh.rowsOf_eq (h : Fresh s e x now r s') (twinId : String) :
    s'.rowsOf twinId =
      if e.twinId = twinId then s.rowsOf twinId ++ [r] else s.rowsOf twinId := by
  have htwin : r.twinId = e.twinId := by rw [h.sealed, sealAt_twinId]
  rw [Store.rowsOf, h.events_eq, List.filter_append, rowsOf]
  by_cases heq : e.twinId = twinId <;> simp [htwin, heq]

/-- A sealed event follows the position it was sealed at. -/
theorem follows_sealAt {p : Int × String} {d : DateTime} :
    Follows p (e.sealAt (p.1 + 1) p.2 d) where
  sequence := rfl
  previousHash := rfl
  eventHash := rfl

/-- A fresh append keeps every stream chained. -/
theorem Fresh.chained (h : Fresh s e x now r s') (hs : ∀ twinId, Chained (s.rowsOf twinId))
    (twinId : String) : Chained (s'.rowsOf twinId) := by
  rw [h.rowsOf_eq]
  split
  · rename_i heq
    subst heq
    refine linked_concat.2 ⟨hs _, ?_⟩
    rw [← head_of_chained (hs _), h.sealed, ← h.head]
    exact follows_sealAt
  · exact hs twinId

/-- **A fresh append keeps the ledger.** -/
theorem Fresh.valid (h : Fresh s e x now r s') (hs : s.Valid)
    (haware : e.occurredAt.naive = false) (hschema : e.schemaVersion = "argo.dt.event/v2")
    (hplane : e.plane ≠ .simulation) : s'.Valid where
  chained := h.chained hs.chained
  unique := by
    have hunique := h.2.2.2.2.1
    rw [h.events_eq, List.pairwise_append]
    refine ⟨hs.unique, List.pairwise_singleton _ _, ?_⟩
    simpa using hunique
  admitted := by
    rw [h.events_eq]
    intro row hrow
    rcases List.mem_append.1 hrow with hrow | hrow
    · exact hs.admitted row hrow
    · rw [List.mem_singleton.1 hrow, h.sealed]
      exact ⟨haware, rfl, hschema, hplane⟩
  bound := by
    rw [h.events_eq]
    intro row hrow
    rcases List.mem_append.1 hrow with hrow | hrow
    · exact hs.bound row hrow
    · rw [List.mem_singleton.1 hrow]
      exact h.2.2.2.1

end Store

end ArgoTwin
