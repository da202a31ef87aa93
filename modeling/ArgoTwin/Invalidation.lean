import ArgoTwin.LedgerRuns
/-!
# What a deletion invalidates

The store keeps an index of what depends on what, edge by edge as events
are handed in, and queues for a deletion all that the edges reach. Over any
run the index holds the edges of the events there are, as they were handed
in, and the queue holds for each deletion what was reached when it was
written (`Indexed`).
-/

namespace ArgoTwin

open Library TwinAggregate

/-- The event puts `b` down as depending on `a`. -/
def Draws (e : EventEnvelope) (a b : Store.Node) : Prop :=
  ∃ rows, Store.edgesOf e = .ok rows ∧ ∃ row ∈ rows, (row.sourceId ≠ "" ∧ row.dependentId ≠ "") ∧
    a = (row.sourceKind, row.sourceId) ∧ b = (row.dependentKind, row.dependentId)

/-- One of the events does. -/
def Feeds (es : List EventEnvelope) (a b : Store.Node) : Prop := ∃ e ∈ es, Draws e a b

/-- What depends on the evidence, however indirectly. -/
def Reached (es : List EventEnvelope) (evidenceId : String) (node : Store.Node) : Prop :=
  Relation.TransGen (Feeds es) ("evidence", evidenceId) node

/-- The node is queued for the deletion at this sequence. -/
def Queued (s : Store) (twinId : String) (sequence : Int) (node : Store.Node) : Prop :=
  ∃ row ∈ s.invalidations, row.twinId = twinId ∧ row.deletionSequence = sequence ∧
    (row.dependentKind, row.dependentId) = node

/-- **What the dependency index and the queue hold.** -/
structure Indexed (s : Store) : Prop where
  graph : ∀ twinId a b, (a, b) ∈ s.graphOf twinId ↔ Feeds (s.rowsOf twinId) a b
  queue : ∀ twinId sequence node, Queued s twinId sequence node ↔
    ∃ (n : Nat) (e : EventEnvelope), (s.rowsOf twinId)[n]? = some e ∧ sequence = (n : Int) + 1 ∧
      e.kind = .evidenceDeleted ∧ idOf e.payload "evidence_id" ≠ "" ∧
      Reached ((s.rowsOf twinId).take n) (idOf e.payload "evidence_id") node

namespace Store

variable {s : Store} {e : EventEnvelope} {twinId : String} {a b node : Node}

theorem mem_graphOf : (a, b) ∈ s.graphOf twinId ↔ ∃ row ∈ s.dependencies, row.twinId = twinId ∧
    a = (row.sourceKind, row.sourceId) ∧ b = (row.dependentKind, row.dependentId) := by
  simp [graphOf, and_assoc, eq_comm]

/-- **The edges of an event** are of its twin and carry its sequence; they
lead from evidence or a claim to what is made of it. -/
theorem shape_of_edgesOf {rows : List DependencyRow} (h : edgesOf e = .ok rows) :
    ∀ row ∈ rows, (row.twinId = e.twinId ∧ row.createdSequence = e.sequence) ∧
      (row.sourceKind = "evidence" ∨ row.sourceKind = "claim") ∧
      row.dependentKind ∈ ["claim", "entity", "contradiction", "correction", "projection"] := by
  unfold edgesOf at h
  split at h
  all_goals
    simp only [bind_eq_ok, pure, Except.pure, Except.ok.injEq] at h
  · obtain ⟨references, -, rfl⟩ := h
    intro row hrow
    obtain ⟨reference, -, rfl⟩ := List.mem_map.1 hrow
    simp
  · obtain ⟨references, -, rfl⟩ := h
    intro row hrow
    obtain ⟨reference, -, rfl⟩ := List.mem_map.1 hrow
    simp
  · subst h
    simp
  · obtain ⟨claimIds, -, rfl⟩ := h
    simp
  · split at h
    · rename_i hkind
      cases h
      simp [hkind]
    · cases h
      simp
  · obtain ⟨claimIds, -, rfl⟩ := h
    simp
  · subst h
    simp

theorem twinId_of_edgesOf {rows : List DependencyRow} (h : edgesOf e = .ok rows) :
    ∀ row ∈ rows, row.twinId = e.twinId := fun row hrow => (shape_of_edgesOf h row hrow).1.1

/-- Adding edges adds them, once. -/
theorem exists_mem_addEdge {rows : List DependencyRow} {row : DependencyRow} :
    (∃ other ∈ addEdge rows row, other.twinId = twinId ∧
        a = (other.sourceKind, other.sourceId) ∧ b = (other.dependentKind, other.dependentId)) ↔
      (∃ other ∈ rows, other.twinId = twinId ∧
        a = (other.sourceKind, other.sourceId) ∧ b = (other.dependentKind, other.dependentId)) ∨
      (row.sourceId ≠ "" ∧ row.dependentId ≠ "") ∧ row.twinId = twinId ∧
        a = (row.sourceKind, row.sourceId) ∧ b = (row.dependentKind, row.dependentId) := by
  unfold addEdge
  split
  · rename_i hempty
    have hnot : ¬ (row.sourceId ≠ "" ∧ row.dependentId ≠ "") := by tauto
    simp [hnot]
  · rename_i hempty
    have hends : row.sourceId ≠ "" ∧ row.dependentId ≠ "" := by tauto
    split
    · rename_i hthere
      rw [List.any_eq_true] at hthere
      obtain ⟨other, hother, hsame⟩ := hthere
      simp only [sameEdge, Bool.and_eq_true, beq_iff_eq] at hsame
      refine ⟨.inl, ?_⟩
      rintro (hold | ⟨-, htwin, ha, hb⟩)
      · exact hold
      · exact ⟨other, hother, by grind⟩
    · simp only [List.mem_append, List.mem_singleton, or_and_right, exists_or, exists_eq_left,
        hends, true_and, and_self, ne_eq, not_false_eq_true]

theorem exists_mem_addEdges {rows added : List DependencyRow} :
    (∃ other ∈ added.foldl addEdge rows, other.twinId = twinId ∧
        a = (other.sourceKind, other.sourceId) ∧ b = (other.dependentKind, other.dependentId)) ↔
      (∃ other ∈ rows, other.twinId = twinId ∧
        a = (other.sourceKind, other.sourceId) ∧ b = (other.dependentKind, other.dependentId)) ∨
      ∃ row ∈ added, (row.sourceId ≠ "" ∧ row.dependentId ≠ "") ∧ row.twinId = twinId ∧
        a = (row.sourceKind, row.sourceId) ∧ b = (row.dependentKind, row.dependentId) := by
  induction added generalizing rows with
  | nil => simp
  | cons row added ih => rw [List.foldl_cons, ih, exists_mem_addEdge, or_assoc, List.exists_mem_cons_iff]

/-- Adding to the queue adds the nodes, once. -/
theorem exists_mem_addInvalidation {rows : List InvalidationRow} {row : InvalidationRow}
    {sequence : Int} :
    (∃ other ∈ addInvalidation rows row, other.twinId = twinId ∧
        other.deletionSequence = sequence ∧ (other.dependentKind, other.dependentId) = node) ↔
      (∃ other ∈ rows, other.twinId = twinId ∧
        other.deletionSequence = sequence ∧ (other.dependentKind, other.dependentId) = node) ∨
      row.twinId = twinId ∧ row.deletionSequence = sequence ∧
        (row.dependentKind, row.dependentId) = node := by
  unfold addInvalidation
  split
  · rename_i hthere
    rw [List.any_eq_true] at hthere
    obtain ⟨other, hother, hsame⟩ := hthere
    simp only [Bool.and_eq_true, beq_iff_eq] at hsame
    refine ⟨.inl, ?_⟩
    rintro (hold | ⟨htwin, hsequence, hnode⟩)
    · exact hold
    · exact ⟨other, hother, by grind⟩
  · simp only [List.mem_append, List.mem_singleton, or_and_right, exists_or, exists_eq_left]

theorem exists_mem_addInvalidations {rows added : List InvalidationRow} {sequence : Int} :
    (∃ other ∈ added.foldl addInvalidation rows, other.twinId = twinId ∧
        other.deletionSequence = sequence ∧ (other.dependentKind, other.dependentId) = node) ↔
      (∃ other ∈ rows, other.twinId = twinId ∧
        other.deletionSequence = sequence ∧ (other.dependentKind, other.dependentId) = node) ∨
      ∃ row ∈ added, row.twinId = twinId ∧ row.deletionSequence = sequence ∧
        (row.dependentKind, row.dependentId) = node := by
  induction added generalizing rows with
  | nil => simp
  | cons row added ih =>
    rw [List.foldl_cons, ih, exists_mem_addInvalidation, or_assoc, List.exists_mem_cons_iff]

/-- A canonical event is indexed as it is once it is read back. -/
theorem edgesOf_decode (hcanonical : e.payload.Canonical) : edgesOf (decode e) = edgesOf e := by
  have hpayload : (decode e).payload = e.payload := hcanonical
  simp only [edgesOf, hpayload]
  rfl

/-- **The recursive query finds what the graph reaches.** -/
theorem mem_impacted {evidenceId : String} : node ∈ s.impacted twinId evidenceId ↔
    Relation.TransGen (fun a b => (a, b) ∈ s.graphOf twinId) ("evidence", evidenceId) node := by
  have hmem : node ∈ s.impacted twinId evidenceId ↔ node ∈ closure (s.graphOf twinId)
      (successors (s.graphOf twinId) ("evidence", evidenceId)) :=
    (List.perm_insertionSort _ _).mem_iff
  rw [hmem, mem_closure_successors]

end Store

variable {s s' : Store} {twinId : String}

/-- Where the events, the edges and the queued nodes stay, so does the
index. -/
theorem Indexed.of_same (hs : Indexed s) (hevents : s'.events = s.events)
    (hdependencies : s'.dependencies = s.dependencies)
    (hinvalidations : s'.invalidations.map Store.InvalidationRow.said =
      s.invalidations.map Store.InvalidationRow.said) : Indexed s' := by
  have hrows : ∀ twinId, s'.rowsOf twinId = s.rowsOf twinId := fun twinId => by
    rw [Store.rowsOf, hevents]
    rfl
  have hqueued : ∀ twinId sequence node,
      Queued s' twinId sequence node ↔ Queued s twinId sequence node := by
    have hsaid : ∀ (t : Store) twinId sequence node, Queued t twinId sequence node ↔
        ∃ row ∈ t.invalidations.map Store.InvalidationRow.said, row.twinId = twinId ∧
          row.deletionSequence = sequence ∧ (row.dependentKind, row.dependentId) = node := by
      intro t twinId sequence node
      simp only [Queued, List.mem_map, Store.InvalidationRow.said, exists_exists_and_eq_and]
    intro twinId sequence node
    rw [hsaid, hsaid, hinvalidations]
  constructor
  · intro twinId a b
    rw [hrows, ← hs.graph, Store.graphOf, Store.graphOf, hdependencies]
  · intro twinId sequence node
    rw [hqueued, hrows, hs.queue]

/-- A canonical event draws what it draws once it is read back. -/
theorem draws_decode {r : EventEnvelope} (hcanonical : r.payload.Canonical) {a b : Store.Node} :
    Draws (Store.decode r) a b ↔ Draws r a b := by
  rw [Draws, Draws, Store.edgesOf_decode hcanonical]

theorem feeds_decode {rows : List EventEnvelope} (hcanonical : ∀ row ∈ rows, row.payload.Canonical) :
    Feeds (rows.map Store.decode) = Feeds rows := by
  funext a b
  simp only [Feeds, List.mem_map, exists_exists_and_eq_and, eq_iff_iff]
  exact exists_congr fun row => and_congr_right fun hrow => draws_decode (hcanonical row hrow)

theorem feeds_concat {es : List EventEnvelope} {e : EventEnvelope} {a b : Store.Node} :
    Feeds (es ++ [e]) a b ↔ Feeds es a b ∨ Draws e a b := by
  simp [Feeds, or_and_right, exists_or]

/-- A deletion draws nothing. -/
theorem not_draws_of_deletion {e : EventEnvelope} (hkind : e.kind = .evidenceDeleted)
    {a b : Store.Node} : ¬ Draws e a b := by
  rintro ⟨rows, hrows, row, hrow, -⟩
  rw [Store.edgesOf, hkind] at hrows
  cases hrows
  cases hrow

variable [Digest] {e r : EventEnvelope} {x : Int} {now : Instant}

/-- The graph after a fresh append: the event's edges are in it too. -/
theorem Store.Fresh.mem_graphOf (hfresh : s.Fresh e x now r s') {a b : Store.Node} :
    (a, b) ∈ s'.graphOf twinId ↔
      (a, b) ∈ s.graphOf twinId ∨ (e.twinId = twinId ∧ Draws r a b) := by
  obtain ⟨-, -, hsealed, -, -, -, t, hindexed, rfl⟩ := hfresh
  have htwin : r.twinId = e.twinId := by rw [hsealed, Store.sealAt_twinId]
  rw [Store.mem_graphOf, Store.mem_graphOf]
  by_cases hkind : r.kind = .evidenceDeleted
  · simp only [Store.indexed, hkind, ↓reduceIte, Except.ok.injEq] at hindexed
    subst hindexed
    simp [Store.written, not_draws_of_deletion hkind]
  · simp only [Store.indexed, hkind, ↓reduceIte, bind_eq_ok, Except.ok.injEq] at hindexed
    obtain ⟨edges, hedges, rfl⟩ := hindexed
    rw [Store.written, Store.exists_mem_addEdges]
    refine or_congr_right ?_
    constructor
    · rintro ⟨row, hrow, hends, hrowtwin, ha, hb⟩
      rw [Store.twinId_of_edgesOf hedges row hrow, htwin] at hrowtwin
      exact ⟨hrowtwin, edges, hedges, row, hrow, hends, ha, hb⟩
    · rintro ⟨rfl, edges', hedges', row, hrow, hends, ha, hb⟩
      rw [hedges] at hedges'
      cases hedges'
      exact ⟨row, hrow, hends, (Store.twinId_of_edgesOf hedges row hrow).trans htwin, ha, hb⟩

/-- The queue after a fresh append: what a deletion reaches is in it too. -/
theorem Store.Fresh.queued_iff (hfresh : s.Fresh e x now r s') {sequence : Int}
    {node : Store.Node} : Queued s' twinId sequence node ↔ Queued s twinId sequence node ∨
      (e.twinId = twinId ∧ sequence = x + 1 ∧ r.kind = .evidenceDeleted ∧
        idOf r.payload "evidence_id" ≠ "" ∧
        node ∈ s.impacted twinId (idOf r.payload "evidence_id")) := by
  obtain ⟨-, -, hsealed, -, -, -, t, hindexed, rfl⟩ := hfresh
  have htwin : r.twinId = e.twinId := by rw [hsealed, Store.sealAt_twinId]
  have hsequence : r.sequence = x + 1 := by rw [hsealed]; rfl
  by_cases hkind : r.kind = .evidenceDeleted
  · simp only [Store.indexed, hkind, ↓reduceIte, Except.ok.injEq] at hindexed
    subst hindexed
    rw [Queued, Store.written, Store.exists_mem_addInvalidations, Queued]
    refine or_congr_right ?_
    unfold Store.invalidationsOf
    by_cases hid : idOf r.payload "evidence_id" = ""
    · simp [hid]
    · simp only [hid, ↓reduceIte, List.mem_map, exists_exists_and_eq_and, htwin, hsequence, hkind,
        ne_eq, not_false_eq_true, true_and]
      constructor
      · rintro ⟨node, hnode, rfl, rfl, rfl⟩
        exact ⟨rfl, rfl, hnode⟩
      · rintro ⟨rfl, rfl, hnode⟩
        exact ⟨node, hnode, rfl, rfl, rfl⟩
  · simp only [Store.indexed, hkind, ↓reduceIte, bind_eq_ok, Except.ok.injEq] at hindexed
    obtain ⟨edges, -, rfl⟩ := hindexed
    simp [Queued, Store.written, hkind]

/-- **A written event keeps the index.** -/
theorem Indexed.fresh (hs : Indexed s) (hvalid : s.Valid) (hfresh : s.Fresh e x now r s') :
    Indexed s' := by
  constructor
  · intro twinId a b
    rw [hfresh.mem_graphOf, hs.graph, hfresh.rowsOf_eq]
    by_cases htwin : e.twinId = twinId
    · simp only [htwin, true_and, ↓reduceIte, feeds_concat]
    · simp only [htwin, false_and, or_false, ↓reduceIte]
  · intro twinId sequence node
    rw [hfresh.queued_iff, hs.queue, hfresh.rowsOf_eq]
    by_cases htwin : e.twinId = twinId
    · have hlength : x = ((s.rowsOf twinId).length : Int) := by
        rw [← hfresh.head, htwin, hvalid.head_sequence, Store.stream, List.length_map]
      have himpacted : ∀ evidenceId, node ∈ s.impacted twinId evidenceId ↔
          Reached (s.rowsOf twinId) evidenceId node := by
        intro evidenceId
        rw [Store.mem_impacted, Reached]
        have hsame : (fun a b => (a, b) ∈ s.graphOf twinId) = Feeds (s.rowsOf twinId) := by
          funext a b
          exact propext (hs.graph twinId a b)
        rw [hsame]
      simp only [htwin, true_and, ↓reduceIte, himpacted]
      constructor
      · rintro (⟨n, e', he', hsequence, hkind, hid, hreached⟩ | ⟨hsequence, hkind, hid, hreached⟩)
        · have hn := (List.getElem?_eq_some_iff.1 he').1
          refine ⟨n, e', ?_, hsequence, hkind, hid, ?_⟩
          · rw [List.getElem?_append_left hn, he']
          · rwa [List.take_append_of_le_length hn.le]
        · refine ⟨(s.rowsOf twinId).length, r, by simp, by rw [hsequence, hlength],
            hkind, hid, ?_⟩
          rwa [List.take_left']
          rfl
      · rintro ⟨n, e', he', hsequence, hkind, hid, hreached⟩
        rcases Nat.lt_or_ge n (s.rowsOf twinId).length with hn | hn
        · rw [List.getElem?_append_left hn] at he'
          rw [List.take_append_of_le_length hn.le] at hreached
          exact .inl ⟨n, e', he', hsequence, hkind, hid, hreached⟩
        · rw [List.getElem?_append_right hn] at he'
          have hlast : n = (s.rowsOf twinId).length := by
            have hlt := (List.getElem?_eq_some_iff.1 he').1
            simp only [List.length_singleton] at hlt
            omega
          subst hlast
          rw [Nat.sub_self, List.getElem?_cons_zero, Option.some.injEq] at he'
          subst he'
          rw [List.take_left' rfl] at hreached
          exact .inr ⟨by rw [hsequence, hlength], hkind, hid, hreached⟩
    · simp only [htwin, false_and, or_false, ↓reduceIte]

variable {h : History}

/-- **Over any run of the store** the index is that of the events. -/
theorem StoreReachable.indexed (hreach : StoreReachable h) : Indexed h.store := by
  refine (Reachable.invariant (I := fun h => Indexed h.store ∧ h.store.Valid ∧ Announced h)
    ⟨?_, Store.valid_empty, fun event hevent => by simp at hevent⟩ ?_ hreach).1
  · constructor
    · intro twinId a b
      simp [Store.graphOf, Feeds, Store.rowsOf]
    · intro twinId sequence node
      simp [Queued, Store.rowsOf]
  · rintro h op ⟨hs, hvalid, hann⟩ hop
    refine ⟨?_, step_keeps hvalid hann hop⟩
    rcases step_cases h op with ⟨e, x, now, fault, r, rfl, hfresh, -, -⟩ |
      ⟨snapshot, rfl, hsaved⟩ | hquiet
    · exact hs.fresh hvalid hfresh
    · rw [hsaved.store]
      exact hs.of_same rfl rfl rfl
    · exact hs.of_same hquiet.events hquiet.dependencies hquiet.invalidations

end ArgoTwin
