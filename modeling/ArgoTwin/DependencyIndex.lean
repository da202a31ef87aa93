import ArgoTwin.Invalidation
import ArgoTwin.Lineage
import ArgoTwin.Library.Ignoring
import ArgoTwin.Library.TextOrder
/-!
# The dependency index

Over any run the index holds the rows of all events there are, the first
of each key: a row keeps the sequence of the first event that put the edge
down. So the edges up to a sequence are those of the events up to it, and
the two lineage queries walk the same graph, one of them backwards.
-/

namespace ArgoTwin

open Library

namespace Store

variable {s : Store} {rows edges : List DependencyRow} {row : DependencyRow}

/-- The primary key of `dt_dependencies`. -/
def edgeKey (row : DependencyRow) : String × String × String × String × String × String :=
  (row.twinId, row.sourceKind, row.sourceId, row.dependentKind, row.dependentId, row.relation)

/-- Both ends of an edge are named. -/
def ended (row : DependencyRow) : Bool := row.sourceId ≠ "" && row.dependentId ≠ ""

/-- The rows an event puts into the index. -/
def edgesIn (e : EventEnvelope) : List DependencyRow :=
  match edgesOf e with
  | .ok rows => rows.filter ended
  | .error _ => []

theorem sameEdge_iff {a b : DependencyRow} : sameEdge a b = true ↔ edgeKey a = edgeKey b := by
  simp [sameEdge, edgeKey, and_assoc]

/-- A key and a sequence make a row. -/
theorem eq_of_edgeKey {a b : DependencyRow} (hkey : edgeKey a = edgeKey b)
    (hsequence : a.createdSequence = b.createdSequence) : a = b := by
  cases a
  cases b
  simp_all [edgeKey]

theorem ended_iff : ended row = true ↔ ¬ (row.sourceId = "" ∨ row.dependentId = "") := by
  simp [ended]

theorem addEdge_eq : addEdge rows row = if ended row then insertNew edgeKey rows row else rows := by
  have hany : (rows.any fun other => sameEdge other row) = true ↔
      edgeKey row ∈ rows.map edgeKey := by
    simp [sameEdge_iff]
  unfold addEdge
  by_cases hends : row.sourceId = "" ∨ row.dependentId = ""
  · rw [if_pos hends, if_neg fun h => ended_iff.1 h hends]
  · rw [if_neg hends, if_pos (ended_iff.2 hends), insertNew]
    by_cases htaken : edgeKey row ∈ rows.map edgeKey
    · rw [if_pos (hany.2 htaken), if_pos htaken]
    · rw [if_neg fun h => htaken (hany.1 h), if_neg htaken]

theorem foldl_addEdge :
    edges.foldl addEdge rows = insertAll edgeKey rows (edges.filter ended) := by
  induction edges generalizing rows with
  | nil => rfl
  | cons row edges ih =>
    rw [List.foldl_cons, ih, addEdge_eq]
    by_cases hends : ended row = true
    · rw [if_pos hends, List.filter_cons_of_pos hends]
      rfl
    · rw [if_neg hends, List.filter_cons_of_neg hends]

theorem mem_edgesIn {e : EventEnvelope} :
    row ∈ edgesIn e ↔ ∃ rows, edgesOf e = .ok rows ∧ row ∈ rows ∧ ended row = true := by
  unfold edgesIn
  cases edgesOf e <;> simp

/-- What an event draws is an edge of a row of it. -/
theorem draws_iff {e : EventEnvelope} {a b : Node} : Draws e a b ↔
    ∃ row ∈ edgesIn e, a = (row.sourceKind, row.sourceId) ∧
      b = (row.dependentKind, row.dependentId) := by
  have hended : ∀ row, ended row = true ↔ row.sourceId ≠ "" ∧ row.dependentId ≠ "" := fun row =>
    ended_iff.trans not_or
  constructor
  · rintro ⟨rows, hrows, row, hrow, hends, ha, hb⟩
    exact ⟨row, mem_edgesIn.2 ⟨rows, hrows, hrow, (hended row).2 hends⟩, ha, hb⟩
  · rintro ⟨row, hrow, ha, hb⟩
    obtain ⟨rows, hrows, hrow, hends⟩ := mem_edgesIn.1 hrow
    exact ⟨rows, hrows, row, hrow, (hended row).1 hends, ha, hb⟩

theorem shape_of_mem_edgesIn {e : EventEnvelope} (h : row ∈ edgesIn e) :
    (row.twinId = e.twinId ∧ row.createdSequence = e.sequence) ∧
      (row.sourceKind = "evidence" ∨ row.sourceKind = "claim") ∧
      row.dependentKind ∈ ["claim", "entity", "contradiction", "correction", "projection"] := by
  obtain ⟨rows, hrows, hrow, -⟩ := mem_edgesIn.1 h
  exact shape_of_edgesOf hrows row hrow

/-! ## The index of a list of events -/

/-- The table the events fill. -/
def indexOf (es : List EventEnvelope) : List DependencyRow :=
  insertAll edgeKey [] (es.flatMap edgesIn)

/-- The events of each twin come in the order of their sequences. -/
def Ordered (es : List EventEnvelope) : Prop :=
  es.Pairwise fun a b => a.twinId = b.twinId → a.sequence < b.sequence

/-- **What the index of ordered events holds**: of each key the row of the
first event that has one. -/
theorem mem_indexOf {es : List EventEnvelope} (h : Ordered es) : row ∈ indexOf es ↔
    (∃ e ∈ es, row ∈ edgesIn e) ∧ ∀ e ∈ es, ∀ other ∈ edgesIn e, edgeKey other = edgeKey row →
      row.createdSequence ≤ other.createdSequence := by
  have hordered : (es.flatMap edgesIn).Pairwise fun a b =>
      edgeKey a = edgeKey b → a.createdSequence ≤ b.createdSequence := by
    rw [List.pairwise_flatMap]
    refine ⟨fun e he => ?_, h.imp fun hlt a ha b hb hkey => ?_⟩
    · refine List.pairwise_of_forall_mem_list fun a ha b hb _ => ?_
      rw [(shape_of_mem_edgesIn ha).1.2, (shape_of_mem_edgesIn hb).1.2]
    · obtain ⟨hatwin, hasequence⟩ := (shape_of_mem_edgesIn ha).1
      obtain ⟨hbtwin, hbsequence⟩ := (shape_of_mem_edgesIn hb).1
      have htwin : a.twinId = b.twinId := congrArg Prod.fst hkey
      have hlt := hlt (hatwin.symm.trans (htwin.trans hbtwin))
      omega
  rw [indexOf, mem_insertAll_iff (fun a b => eq_of_edgeKey) hordered]
  simp only [List.mem_flatMap, forall_exists_index, and_imp]
  exact and_congr_right fun _ => ⟨fun hall e he other hother => hall other e he hother,
    fun hall other e he hother => hall e he other hother⟩

theorem ordered_of_chained [Digest] (hs : ∀ twinId, Chained (s.rowsOf twinId)) :
    Ordered s.events := by
  rw [Ordered, List.pairwise_iff_forall_sublist]
  intro a b hsub htwin
  have hrows := pairwise_sequence (hs a.twinId)
  have hpair : [a, b].Sublist (s.rowsOf a.twinId) := by
    have hfilter := hsub.filter fun row => decide (row.twinId = a.twinId)
    simpa [rowsOf, htwin] using hfilter
  exact List.pairwise_iff_forall_sublist.1 hrows hpair

end Store

/-! ## Over a run -/

/-- **The index is that of the events**, each of which was read for it
and follows those of its twin. -/
structure Deposited [Digest] (s : Store) : Prop where
  dependencies : s.dependencies = Store.indexOf s.events
  readable : ∀ e ∈ s.events, ∃ rows, Store.edgesOf e = .ok rows
  chained : ∀ twinId, Store.Chained (s.rowsOf twinId)

variable [Digest] {s s' : Store} {e r : EventEnvelope} {x : Int} {now : Instant} {h h' : History}

theorem Deposited.of_same (hs : Deposited s) (hevents : s'.events = s.events)
    (hdependencies : s'.dependencies = s.dependencies) : Deposited s' where
  dependencies := by rw [hdependencies, hs.dependencies, hevents]
  readable := by
    rw [hevents]
    exact hs.readable
  chained twinId := by
    rw [Store.rowsOf, hevents]
    exact hs.chained twinId

/-- An event is read for the index as it is written. -/
theorem Store.Fresh.edgesOf_ok (hfresh : s.Fresh e x now r s') : ∃ rows, Store.edgesOf r = .ok rows ∧
    s'.dependencies = rows.foldl Store.addEdge s.dependencies := by
  obtain ⟨-, -, -, -, -, -, t, hindexed, rfl⟩ := hfresh
  by_cases hkind : r.kind = .evidenceDeleted
  · simp only [Store.indexed, hkind, ↓reduceIte, Except.ok.injEq] at hindexed
    subst hindexed
    exact ⟨[], by rw [Store.edgesOf, hkind], rfl⟩
  · simp only [Store.indexed, hkind, ↓reduceIte, bind_eq_ok, Except.ok.injEq] at hindexed
    obtain ⟨edges, hedges, rfl⟩ := hindexed
    exact ⟨edges, hedges, rfl⟩

theorem Deposited.fresh (hs : Deposited s) (hfresh : s.Fresh e x now r s') : Deposited s' := by
  obtain ⟨rows, hrows, htable⟩ := hfresh.edgesOf_ok
  constructor
  · have hedges : Store.edgesIn r = rows.filter Store.ended := by rw [Store.edgesIn, hrows]
    rw [hfresh.events_eq, htable, hs.dependencies, Store.foldl_addEdge, Store.indexOf,
      Store.indexOf, List.flatMap_append, insertAll_append, List.flatMap_singleton, hedges]
  · rw [hfresh.events_eq]
    intro event hevent
    rcases List.mem_append.1 hevent with hold | hnew
    · exact hs.readable event hold
    · obtain rfl := List.mem_singleton.1 hnew
      exact ⟨rows, hrows⟩
  · exact hfresh.chained hs.chained

/-- The rows of a twin stay, and new ones come after them. -/
theorem rowsOf_prefix_of_reachable {ok : History → StoreOp → Prop}
    (hreach : Reachable History.step ok h h') (twinId : String) :
    h.store.rowsOf twinId <+: h'.store.rowsOf twinId := by
  have hevents : h.store.events <+: h'.store.events := by
    refine Reachable.invariant (I := fun h' => h.store.events <+: h'.store.events)
      List.prefix_rfl (fun h' op hI _ => hI.trans ?_) hreach
    rcases step_cases h' op with ⟨e, x, now, fault, r, rfl, hfresh, -, -⟩ |
      ⟨snapshot, rfl, hsaved⟩ | hquiet
    · rw [hfresh.events_eq]
      exact List.prefix_append _ _
    · rw [hsaved.store]
    · rw [hquiet.events]
  exact hevents.filter _

/-- **Over any run of the store**, whatever the times of its events. -/
theorem deposited_of_reachable (hreach : Reachable History.step anyStep {} h) :
    Deposited h.store := by
  refine Reachable.invariant (I := fun h => Deposited h.store) ?_ ?_ hreach
  · exact ⟨rfl, fun e he => (by cases he), fun _ => trivial⟩
  · intro h op hs _
    rcases step_cases h op with ⟨e, x, now, fault, r, rfl, hfresh, -, -⟩ |
      ⟨snapshot, rfl, hsaved⟩ | hquiet
    · exact hs.fresh hfresh
    · rw [hsaved.store]
      exact hs.of_same rfl rfl
    · exact hs.of_same hquiet.events hquiet.dependencies

/-! ## The graph at a sequence -/

namespace Store

variable {twinId : String} {a b : Node}

/-- The first rows of a twin are those up to a sequence. -/
theorem take_rowsOf (hchained : Chained (s.rowsOf twinId)) (cutoff : Int) :
    (s.rowsOf twinId).take cutoff.toNat =
      (s.rowsOf twinId).filter fun row => row.sequence ≤ cutoff := by
  rw [filter_le_sequence hchained, Int.sub_zero]

/-- **The edges up to a sequence** are those of the events up to it. -/
theorem mem_graphUpTo (hdeposited : Deposited s) (cutoff : Int) :
    (a, b) ∈ s.graphUpTo twinId cutoff ↔ Feeds ((s.rowsOf twinId).take cutoff.toNat) a b := by
  have hordered := ordered_of_chained hdeposited.chained
  have hfeeds : Feeds ((s.rowsOf twinId).take cutoff.toNat) a b ↔
      ∃ e ∈ s.events, (e.twinId = twinId ∧ e.sequence ≤ cutoff) ∧ Draws e a b := by
    rw [take_rowsOf (hdeposited.chained twinId), Feeds]
    simp only [List.mem_filter, mem_rowsOf, decide_eq_true_eq]
    constructor
    · rintro ⟨e, ⟨⟨he, htwin⟩, hcutoff⟩, hdraws⟩
      exact ⟨e, he, ⟨htwin, hcutoff⟩, hdraws⟩
    · rintro ⟨e, he, ⟨htwin, hcutoff⟩, hdraws⟩
      exact ⟨e, ⟨⟨he, htwin⟩, hcutoff⟩, hdraws⟩
  have hrows : (a, b) ∈ s.graphUpTo twinId cutoff ↔ ∃ row ∈ indexOf s.events,
      (row.twinId = twinId ∧ row.createdSequence ≤ cutoff) ∧
        a = (row.sourceKind, row.sourceId) ∧ b = (row.dependentKind, row.dependentId) := by
    simp only [graphUpTo, hdeposited.dependencies, List.mem_map, List.mem_filter, decide_eq_true_eq]
    constructor
    · rintro ⟨row, ⟨hrow, hthere⟩, hpair⟩
      cases hpair
      exact ⟨row, hrow, hthere, rfl, rfl⟩
    · rintro ⟨row, hrow, hthere, rfl, rfl⟩
      exact ⟨row, ⟨hrow, hthere⟩, rfl⟩
  rw [hfeeds, hrows]
  constructor
  · rintro ⟨row, hrow, ⟨htwin, hcutoff⟩, ha, hb⟩
    obtain ⟨⟨e, he, hmem⟩, -⟩ := (mem_indexOf hordered).1 hrow
    obtain ⟨⟨hetwin, hesequence⟩, -⟩ := shape_of_mem_edgesIn hmem
    exact ⟨e, he, ⟨hetwin.symm.trans htwin, by omega⟩, draws_iff.2 ⟨row, hmem, ha, hb⟩⟩
  · rintro ⟨e, he, ⟨htwin, hcutoff⟩, hdraws⟩
    obtain ⟨row, hmem, ha, hb⟩ := draws_iff.1 hdraws
    obtain ⟨⟨hrowtwin, hrowsequence⟩, -⟩ := shape_of_mem_edgesIn hmem
    -- the row kept under this key is no later
    have hkey : edgeKey row ∈ (indexOf s.events).map edgeKey := by
      rw [indexOf, key_mem_insertAll]
      exact .inr (List.mem_map_of_mem (List.mem_flatMap.2 ⟨e, he, hmem⟩))
    obtain ⟨first, hfirst, hsame⟩ := List.mem_map.1 hkey
    have hearliest := ((mem_indexOf hordered).1 hfirst).2 e he row hmem hsame.symm
    simp only [edgeKey, Prod.mk.injEq] at hsame
    obtain ⟨hftwin, hfsource, hfsourceId, hfdependent, hfdependentId, -⟩ := hsame
    refine ⟨first, hfirst, ⟨hftwin.trans (hrowtwin.trans htwin), by omega⟩, ?_, ?_⟩
    · rw [ha, hfsource, hfsourceId]
    · rw [hb, hfdependent, hfdependentId]

/-! ## The queries -/

section Queries

omit [Digest]

/-- `a` comes before `b` in the order of the queries. -/
def Before (a b : Node) : Prop := a.1 < b.1 ∨ (a.1 = b.1 ∧ a.2 < b.2)

theorem Before.asymm {a b : Node} (h : Before a b) : ¬ Before b a := by
  rintro (hkind | ⟨hkind, hid⟩)
  · rcases h with hkind' | ⟨hkind', -⟩
    · exact String.lt_asymm hkind hkind'
    · exact String.lt_irrefl _ (hkind' ▸ hkind)
  · rcases h with hkind' | ⟨-, hid'⟩
    · exact String.lt_irrefl _ (hkind ▸ hkind')
    · exact String.lt_asymm hid hid'

instance : Std.Total (fun a b : Node => a.2 ≤ b.2) := ⟨fun _ _ => String.le_total _ _⟩

instance : IsTrans Node (fun a b => a.2 ≤ b.2) := ⟨fun _ _ _ => String.le_trans⟩

/-- **A query returns what paths reach.** -/
theorem mem_reached {edges : List (Node × Node)} :
    b ∈ reached edges a ↔ Relation.TransGen (fun a b => (a, b) ∈ edges) a b := by
  rw [← mem_closure_successors]
  exact (List.perm_insertionSort _ _).mem_iff

/-- Each node comes once, and in order. -/
theorem sorted_reached (edges : List (Node × Node)) (a : Node) :
    (reached edges a).Pairwise Before := by
  have hsorted : (reached edges a).Pairwise (byText Prod.fst fun a b => a.2 ≤ b.2) :=
    List.pairwise_insertionSort _ _
  have hnodup : (reached edges a).Nodup :=
    (List.perm_insertionSort _ _).nodup_iff.2 nodup_closure
  refine (hsorted.and hnodup).imp ?_
  rintro a b ⟨hle | ⟨hkind, hle⟩, hne⟩
  · exact .inl hle
  · by_cases hlt : a.2 < b.2
    · exact .inr ⟨hkind, hlt⟩
    · exact absurd (Prod.ext hkind (String.le_antisymm hle (String.not_lt.1 hlt))) hne

/-- Of two lists in order with the same nodes, both are the same. -/
theorem eq_of_before {l l' : List Node} (hl : l.Pairwise Before) (hl' : l'.Pairwise Before)
    (hsame : ∀ node, node ∈ l ↔ node ∈ l') : l = l' := by
  have hnodup : ∀ l : List Node, l.Pairwise Before → l.Nodup := fun l hl =>
    hl.imp fun {a b} hbefore heq => hbefore.asymm (by rw [heq] at hbefore ⊢; exact hbefore)
  have hperm := (List.perm_ext_iff_of_nodup (hnodup l hl) (hnodup l' hl')).2 hsame
  exact hperm.eq_of_pairwise (fun a b _ _ hab hba => absurd hba hab.asymm) hl hl'

/-- What an event draws leads from evidence or a claim to what is made of
it. -/
theorem draws_kinds {e : EventEnvelope} (h : Draws e a b) :
    (∃ kind, EpistemicNodeKind.ofValue a.1 = .ok kind) ∧
      ∃ kind, EpistemicNodeKind.ofValue b.1 = .ok kind := by
  obtain ⟨row, hrow, rfl, rfl⟩ := draws_iff.1 h
  obtain ⟨-, hsource, hdependent⟩ := shape_of_mem_edgesIn hrow
  have hall : ∀ kind ∈ ["claim", "entity", "contradiction", "correction", "projection"],
      ∃ k, EpistemicNodeKind.ofValue kind = .ok k := by
    simp only [List.forall_mem_cons, List.not_mem_nil, false_implies, implies_true, and_true]
    exact ⟨⟨.claim, rfl⟩, ⟨.entity, rfl⟩, ⟨.contradiction, rfl⟩, ⟨.correction, rfl⟩,
      ⟨.projection, rfl⟩⟩
  refine ⟨?_, hall _ hdependent⟩
  rcases hsource with hkind | hkind
  · exact ⟨.evidence, by rw [hkind]; rfl⟩
  · exact ⟨.claim, by rw [hkind]; rfl⟩

end Queries

/-- The events of a twin a query looks at, as they were appended. -/
def firstEvents (s : Store) (twinId : String) (upTo : Option Int) : List EventEnvelope :=
  (s.rowsOf twinId).take (upTo.getD lastSequence).toNat

omit [Digest] in
/-- A cutoff the database takes is bound as it is. -/
theorem bindInteger_cutoff {upTo : Option Int} (hupTo : ∀ n, upTo = some n → n < 2 ^ 63)
    (hnegative : ¬ upTo.getD lastSequence < 0) :
    bindInteger (upTo.getD lastSequence) = .ok (upTo.getD lastSequence) := by
  refine bindInteger_eq_ok.2 ⟨rfl, by omega, ?_⟩
  cases upTo with
  | none => decide
  | some n => exact hupTo n rfl

/-- **`dependents` is exact**: what non-empty paths lead to. -/
theorem mem_dependents (hs : Deposited s) (twinId : String) {upTo : Option Int}
    (hupTo : ∀ n, upTo = some n → n < 2 ^ 63) (a b : Node) :
    (∃ nodes, s.dependents twinId a upTo = .ok nodes ∧ b ∈ nodes) ↔
      Relation.TransGen (Feeds (s.firstEvents twinId upTo)) a b := by
  have hgraph : (fun a b => (a, b) ∈ s.graphUpTo twinId (upTo.getD lastSequence)) =
      Feeds (s.firstEvents twinId upTo) := by
    funext a b
    exact propext (mem_graphUpTo hs _)
  cases hkind : EpistemicNodeKind.ofValue a.1 with
  | error err =>
    simp only [dependents, hkind, reduceCtorEq, false_and, exists_false, false_iff]
    intro hpath
    obtain ⟨c, ⟨e, -, hdraws⟩, -⟩ := Relation.TransGen.head'_iff.1 hpath
    obtain ⟨kind, hok⟩ := (draws_kinds hdraws).1
    rw [hkind] at hok
    cases hok
  | ok kind =>
    simp only [dependents, hkind]
    split_ifs with hnegative
    · simp only [Except.ok.injEq, exists_eq_left', List.not_mem_nil, false_iff]
      intro hpath
      obtain ⟨c, ⟨e, he, -⟩, -⟩ := Relation.TransGen.head'_iff.1 hpath
      have hnone : (upTo.getD lastSequence).toNat = 0 := by omega
      simp [firstEvents, hnone] at he
    · simp only [bindInteger_cutoff hupTo hnegative, bind, Except.bind, pure, Except.pure,
        Except.ok.injEq, exists_eq_left', mem_reached, hgraph]

/-- **`ancestors` is its converse.** -/
theorem mem_ancestors (hs : Deposited s) (twinId : String) {upTo : Option Int}
    (hupTo : ∀ n, upTo = some n → n < 2 ^ 63) (a b : Node) :
    (∃ nodes, s.ancestors twinId b upTo = .ok nodes ∧ a ∈ nodes) ↔
      Relation.TransGen (Feeds (s.firstEvents twinId upTo)) a b := by
  have hgraph : (fun a b => (a, b) ∈ (s.graphUpTo twinId (upTo.getD lastSequence)).map Prod.swap) =
      Function.swap (Feeds (s.firstEvents twinId upTo)) := by
    funext a b
    have hswap : (a, b) ∈ (s.graphUpTo twinId (upTo.getD lastSequence)).map Prod.swap ↔
        (b, a) ∈ s.graphUpTo twinId (upTo.getD lastSequence) := by
      rw [List.mem_map]
      constructor
      · rintro ⟨edge, hedge, hpair⟩
        cases hpair
        exact hedge
      · intro hedge
        exact ⟨(b, a), hedge, rfl⟩
    exact propext (hswap.trans (mem_graphUpTo hs _))
  cases hkind : EpistemicNodeKind.ofValue b.1 with
  | error err =>
    simp only [ancestors, hkind, reduceCtorEq, false_and, exists_false, false_iff]
    intro hpath
    obtain ⟨c, -, ⟨e, -, hdraws⟩⟩ := Relation.TransGen.tail'_iff.1 hpath
    obtain ⟨kind, hok⟩ := (draws_kinds hdraws).2
    rw [hkind] at hok
    cases hok
  | ok kind =>
    simp only [ancestors, hkind]
    split_ifs with hnegative
    · simp only [Except.ok.injEq, exists_eq_left', List.not_mem_nil, false_iff]
      intro hpath
      obtain ⟨c, ⟨e, he, -⟩, -⟩ := Relation.TransGen.head'_iff.1 hpath
      have hnone : (upTo.getD lastSequence).toNat = 0 := by omega
      simp [firstEvents, hnone] at he
    · simp only [bindInteger_cutoff hupTo hnegative, bind, Except.bind, pure, Except.pure,
        Except.ok.injEq, exists_eq_left', mem_reached, hgraph, Relation.transGen_swap]

omit [Digest] in
/-- Both queries answer for every kind of node there is, in order and with
each node once. -/
theorem query_sorted (s : Store) (twinId : String) {upTo : Option Int}
    (hupTo : ∀ n, upTo = some n → n < 2 ^ 63) {node : Node} {kind : EpistemicNodeKind}
    (hkind : EpistemicNodeKind.ofValue node.1 = .ok kind) :
    (∃ nodes, s.dependents twinId node upTo = .ok nodes ∧ nodes.Pairwise Before) ∧
      ∃ nodes, s.ancestors twinId node upTo = .ok nodes ∧ nodes.Pairwise Before := by
  simp only [dependents, ancestors, hkind]
  split_ifs with hnegative
  · exact ⟨⟨[], rfl, .nil⟩, [], rfl, .nil⟩
  · rw [bindInteger_cutoff hupTo hnegative]
    exact ⟨⟨_, rfl, sorted_reached _ _⟩, _, rfl, sorted_reached _ _⟩

/-- Ledgers with the same first events answer alike. -/
theorem queries_eq {upTo : Option Int} (hs : Deposited s) (hs' : Deposited s')
    (hupTo : ∀ n, upTo = some n → n < 2 ^ 63)
    (hfirst : s'.firstEvents twinId upTo = s.firstEvents twinId upTo) (node : Node) :
    s'.dependents twinId node upTo = s.dependents twinId node upTo ∧
      s'.ancestors twinId node upTo = s.ancestors twinId node upTo := by
  cases hkind : EpistemicNodeKind.ofValue node.1 with
  | error err => simp only [dependents, ancestors, hkind, and_self]
  | ok kind =>
    obtain ⟨⟨ds, hds, hdsorted⟩, as, has, hasorted⟩ := query_sorted s twinId hupTo hkind
    obtain ⟨⟨ds', hds', hdsorted'⟩, as', has', hasorted'⟩ := query_sorted s' twinId hupTo hkind
    have hdependents : ∀ b, b ∈ ds' ↔ b ∈ ds := by
      intro b
      have hold := mem_dependents hs twinId hupTo node b
      have hnew := mem_dependents hs' twinId hupTo node b
      rw [hfirst] at hnew
      simpa [hds, hds'] using hnew.trans hold.symm
    have hancestors : ∀ a, a ∈ as' ↔ a ∈ as := by
      intro a
      have hold := mem_ancestors hs twinId hupTo a node
      have hnew := mem_ancestors hs' twinId hupTo a node
      rw [hfirst] at hnew
      simpa [has, has'] using hnew.trans hold.symm
    rw [hds, hds', has, has', eq_of_before hdsorted' hdsorted hdependents,
      eq_of_before hasorted' hasorted hancestors]
    exact ⟨rfl, rfl⟩

end Store

/-- **Lineage is exact, converse and stable.** Over any run of the store,
at every cutoff the database takes, each query returns what non-empty paths
over the edges of the twin's first events reach, and the two are converse;
the edges are those of the events as they were appended, and as they are
read back where that is the same; the nodes come once and in order, on
cyclic graphs too; and events after the cutoff change neither answer. -/
theorem lineage_exact (hreach : Reachable History.step anyStep {} h) (twinId : String)
    {upTo : Option Int} (hupTo : ∀ n, upTo = some n → n < 2 ^ 63) (a b : Store.Node) :
    ((∃ nodes, h.store.dependents twinId a upTo = .ok nodes ∧ b ∈ nodes) ↔
      Relation.TransGen (Feeds (h.store.firstEvents twinId upTo)) a b) ∧
    ((∃ nodes, h.store.ancestors twinId b upTo = .ok nodes ∧ a ∈ nodes) ↔
      Relation.TransGen (Feeds (h.store.firstEvents twinId upTo)) a b) ∧
    ((∀ e ∈ h.store.firstEvents twinId upTo, e.payload.Canonical) →
      Feeds (h.store.firstEvents twinId upTo) =
        Feeds ((h.store.stream twinId).take (upTo.getD Store.lastSequence).toNat)) ∧
    (∀ kind, EpistemicNodeKind.ofValue a.1 = .ok kind →
      (∃ nodes, h.store.dependents twinId a upTo = .ok nodes ∧ nodes.Pairwise Store.Before) ∧
      ∃ nodes, h.store.ancestors twinId a upTo = .ok nodes ∧ nodes.Pairwise Store.Before) ∧
    ∀ h', Reachable History.step anyStep h h' →
      (upTo.getD Store.lastSequence).toNat ≤ (h.store.stream twinId).length →
      h'.store.dependents twinId a upTo = h.store.dependents twinId a upTo ∧
      h'.store.ancestors twinId a upTo = h.store.ancestors twinId a upTo := by
  have hs := deposited_of_reachable hreach
  refine ⟨Store.mem_dependents hs twinId hupTo a b, Store.mem_ancestors hs twinId hupTo a b,
    fun hcanonical => ?_, fun kind hkind => Store.query_sorted h.store twinId hupTo hkind,
    fun h' hlater hlength => ?_⟩
  · rw [Store.stream, ← List.map_take]
    exact (feeds_decode hcanonical).symm
  · have hs' := deposited_of_reachable (hreach.trans hlater)
    refine Store.queries_eq hs hs' hupTo ?_ a
    obtain ⟨more, hmore⟩ := rowsOf_prefix_of_reachable hlater twinId
    rw [Store.stream, List.length_map] at hlength
    rw [Store.firstEvents, Store.firstEvents, ← hmore, List.take_append_of_le_length hlength]

omit [Digest]

/-- Two claims, each superseded by the other. -/
def exchangedClaims : List EventEnvelope :=
  [EventEnvelope.new "t" "ClaimSuperseded" .authoritative (Payload.ofFields
     [("claim_id", .str "c1"), ("successor_claim_id", .str "c2")]) "review" .humanReview "key-1"
     none none ⟨0, "event-1"⟩,
   EventEnvelope.new "t" "ClaimSuperseded" .authoritative (Payload.ofFields
     [("claim_id", .str "c2"), ("successor_claim_id", .str "c1")]) "review" .humanReview "key-2"
     none none ⟨0, "event-2"⟩]

/-- **Past the last integer the database takes**, a query raises: a path is
there and is not found. -/
theorem lineage_past_last_integer :
    let _ : Digest := checksumDigest
    let h := run History.step {} (appends exchangedClaims)
    h.store.dependents "t" ("claim", "c1") (some (2 ^ 63)) =
        .error (.overflowError "Python int too large to convert to SQLite INTEGER") ∧
      Relation.TransGen (Feeds (h.store.firstEvents "t" (some (2 ^ 63)))) ("claim", "c1")
        ("claim", "c1") := by
  intro digest h
  have hanswer : h.store.dependents "t" ("claim", "c1") none =
      .ok [("claim", "c1"), ("claim", "c2")] := by decide +kernel
  have hlength : (h.store.rowsOf "t").length = 2 := by decide +kernel
  have hwhole : ∀ upTo, 2 ≤ (upTo.getD Store.lastSequence).toNat →
      h.store.firstEvents "t" upTo = h.store.rowsOf "t" := fun upTo hupTo =>
    List.take_of_length_le (hlength.le.trans hupTo)
  have hpath := (Store.mem_dependents
    (deposited_of_reachable (reachable_run (appends exchangedClaims))) "t"
    (fun n hn => by cases hn) ("claim", "c1") ("claim", "c1")).1 ⟨_, hanswer, by decide⟩
  rw [hwhole none (by decide)] at hpath
  rw [hwhole (some (2 ^ 63)) (by decide)]
  exact ⟨by decide +kernel, hpath⟩

theorem lineage_exact_exchanged :
    let _ : Digest := checksumDigest
    let h := run History.step {} (appends exchangedClaims)
    h.store.dependents "t" ("claim", "c1") (some 2) = .ok [("claim", "c1"), ("claim", "c2")] ∧
      Relation.TransGen (Feeds (h.store.firstEvents "t" (some 2))) ("claim", "c1")
        ("claim", "c1") := by
  intro digest h
  have hanswer : h.store.dependents "t" ("claim", "c1") (some 2) =
      .ok [("claim", "c1"), ("claim", "c2")] := by decide +kernel
  have hexact := (lineage_exact (reachable_run (appends exchangedClaims)) "t"
    (fun n hn => Option.some.inj hn ▸ (by decide : (2 : Int) < 2 ^ 63)) ("claim", "c1")
    ("claim", "c1")).1
  exact ⟨hanswer, hexact.1 ⟨_, hanswer, by decide⟩⟩

end ArgoTwin
