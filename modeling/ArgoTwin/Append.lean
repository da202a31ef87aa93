import ArgoTwin.Store
/-!
# What `append` does

An append that returns either found its key used, and changed nothing, or
passed the compare-and-swap and wrote one row to the event table, the
edges or invalidations of the event, and one outbox row
(`returns_append`). One that raises changed nothing (`append_error`).
-/

namespace ArgoTwin

open Library

namespace Store

variable {s s' : Store} {e r : EventEnvelope} {x : Int} {now : Instant}
variable {fault : Option AppendStep}

/-- The injected failure is at none of these steps. -/
def Avoids (fault : Option AppendStep) (steps : List AppendStep) : Prop :=
  ∀ step ∈ steps, fault ≠ some step

@[simp] theorem returns_failAt {here : AppendStep} {u : Unit} :
    Returns (failAt fault here) s u s' ↔ fault ≠ some here ∧ s' = s := by
  simp [failAt, eq_comm]

/-- The key was used by the same request, whose event is the answer. -/
def Duplicate (s : Store) (e r : EventEnvelope) : Prop :=
  ∃ row, s.keyed e.twinId e.idempotencyKey = some row ∧ rowToEvent row = .ok r ∧
    sameRequest r e = true

/-- The outbox row of an event. -/
def outboxRow (e : EventEnvelope) : OutboxRow :=
  { twinId := e.twinId
    sequence := e.sequence
    topic := eventTopic
    messageKey := e.twinId
    createdAt := e.recordedAt }

/-- The dependency index after an event. -/
def indexed (s : Store) (e : EventEnvelope) : Except PyError Store :=
  if e.kind = .evidenceDeleted then
    .ok { s with invalidations := (s.invalidationsOf e).foldl addInvalidation s.invalidations }
  else do
    let edges ← edgesOf e
    .ok { s with dependencies := edges.foldl addEdge s.dependencies }

/-- The tables after the event `r` is written to them, `t` being those
after its edges or invalidations are. -/
def written (t : Store) (r : EventEnvelope) : Store :=
  { t with events := t.events ++ [r], outbox := t.outbox ++ [outboxRow r] }

/-- The compare-and-swap passes, and the constraints of the tables hold. -/
def Fresh [Digest] (s : Store) (e : EventEnvelope) (x : Int) (now : Instant) (r : EventEnvelope)
    (s' : Store) : Prop :=
  s.keyed e.twinId e.idempotencyKey = none ∧ (s.head e.twinId).1 = x ∧
    r = e.sealAt (x + 1) (s.head e.twinId).2 (DateTime.utc now) ∧ Bindable (some r.sequence) ∧
    (∀ row ∈ s.events, conflicts row r = false) ∧
    (∀ row ∈ s.outbox, sameOutboxKey row (outboxRow r) = false) ∧
    ∃ t, s.indexed r = .ok t ∧ s' = t.written r

theorem returns_insertEvent {u : Unit} :
    Returns (insertEvent e) s u s' ↔ Bindable (some e.sequence) ∧
      (∀ row ∈ s.events, conflicts row e = false) ∧
        s' = { s with events := s.events ++ [e] } := by
  simp only [insertEvent, returns_bind, returns_fromExcept, bindInteger_eq_ok, returns_get,
    returns_ite, returns_throw, returns_modify, bindable_some]
  constructor
  · rintro ⟨_, _, ⟨⟨rfl, hbound⟩, rfl⟩, _, _, ⟨rfl, rfl⟩, ⟨_, _, _, h, _⟩ | ⟨h, rfl⟩⟩
    · exact h.elim
    · exact ⟨hbound, by simpa using h, rfl⟩
  · rintro ⟨hbound, h, rfl⟩
    exact ⟨e.sequence, s, ⟨⟨rfl, hbound⟩, rfl⟩, s, s, ⟨rfl, rfl⟩, .inr ⟨by simpa using h, rfl⟩⟩

theorem returns_insertOutbox {u : Unit} :
    Returns (insertOutbox e) s u s' ↔
      (∀ row ∈ s.outbox, sameOutboxKey row (outboxRow e) = false) ∧
        s' = { s with outbox := s.outbox ++ [outboxRow e] } := by
  simp only [insertOutbox, returns_bind, returns_get, returns_ite, returns_throw, returns_modify]
  constructor
  · rintro ⟨_, _, ⟨rfl, rfl⟩, ⟨_, _, _, h, _⟩ | ⟨h, rfl⟩⟩
    · exact h.elim
    · exact ⟨by simpa [sameOutboxKey, outboxRow] using h, rfl⟩
  · rintro ⟨h, rfl⟩
    exact ⟨s, s, ⟨rfl, rfl⟩, .inr ⟨by simpa [sameOutboxKey, outboxRow] using h, rfl⟩⟩

theorem returns_indexDependencies {u : Unit} :
    Returns (indexDependencies e) s u s' ↔ s.indexed e = .ok s' := by
  by_cases hkind : e.kind = .evidenceDeleted
  · simp [indexDependencies, indexed, hkind, eq_comm]
  · simp only [indexDependencies, indexed, hkind, ↓reduceIte, returns_bind, returns_fromExcept,
      returns_modify]
    cases edgesOf e with
    | error => simp [bind, Except.bind]
    | ok edges => simp [bind, Except.bind, eq_comm]

theorem returns_answerDuplicate {row : EventEnvelope} :
    Returns (answerDuplicate fault row e) s r s' ↔
      (rowToEvent row = .ok r ∧ sameRequest r e = true) ∧ fault ≠ some .commit ∧ s' = s := by
  simp only [answerDuplicate, returns_bind, returns_fromExcept, returns_ite, returns_throw,
    returns_failAt, returns_pure]
  constructor
  · rintro ⟨existing, _, ⟨hrow, rfl⟩, ⟨_, _, _, h, _⟩ | ⟨hsame, _, _, ⟨hfault, rfl⟩, rfl, rfl⟩⟩
    · exact h.elim
    · exact ⟨⟨hrow, by simpa using hsame⟩, hfault, rfl⟩
  · rintro ⟨⟨hrow, hsame⟩, hfault, rfl⟩
    exact ⟨r, _, ⟨hrow, rfl⟩, .inr ⟨by simpa using hsame, (), _, ⟨hfault, rfl⟩, rfl, rfl⟩⟩

/-- Indexing does not read the event table. -/
theorem indexed_events {rows : List EventEnvelope} :
    ({ s with events := rows } : Store).indexed e =
      (s.indexed e).map fun t => { t with events := rows } := by
  by_cases hkind : e.kind = .evidenceDeleted
  · simp only [indexed, hkind, ↓reduceIte, Except.map]
    rfl
  · simp only [indexed, hkind, ↓reduceIte]
    cases edgesOf e <;> rfl

/-- Indexing writes the index only. -/
theorem indexed_frame {t : Store} (h : s.indexed e = .ok t) :
    t.events = s.events ∧ t.outbox = s.outbox ∧ t.snapshots = s.snapshots := by
  by_cases hkind : e.kind = .evidenceDeleted
  · simp only [indexed, hkind, ↓reduceIte, Except.ok.injEq] at h
    subst h
    exact ⟨rfl, rfl, rfl⟩
  · simp only [indexed, hkind, ↓reduceIte] at h
    cases hedges : edgesOf e with
    | error => simp [hedges, bind, Except.bind] at h
    | ok edges =>
      simp only [hedges, bind, Except.bind, Except.ok.injEq] at h
      subst h
      exact ⟨rfl, rfl, rfl⟩

variable [Digest]

theorem returns_commitFresh (hkey : s.keyed e.twinId e.idempotencyKey = none) :
    Returns (commitFresh fault e x now) s r s' ↔
      Avoids fault [.selectHead, .insertEvent, .indexDependencies, .insertOutbox, .commit] ∧
        Fresh s e x now r s' := by
  simp only [commitFresh, returns_bind, returns_get, returns_ite, returns_throw, returns_failAt,
    returns_insertEvent, returns_indexDependencies, returns_insertOutbox, returns_pure,
    Avoids, List.forall_mem_cons, Fresh]
  constructor
  · rintro ⟨_, _, ⟨h1, rfl⟩, _, _, ⟨rfl, rfl⟩, ⟨_, _, _, h, _⟩ |
      ⟨hhead, _, _, ⟨h2, rfl⟩, _, _, ⟨hbound, hunique, rfl⟩, _, _, ⟨h3, rfl⟩, _, t',
        hindex,
        _, _, ⟨h4, rfl⟩, _, _, ⟨hout, rfl⟩, _, _, ⟨h5, rfl⟩, rfl, rfl⟩⟩
    · exact h.elim
    · rw [not_not] at hhead
      rw [indexed_events] at hindex
      cases hindexed : indexed _ _ with
      | error => simp [hindexed, Except.map] at hindex
      | ok t =>
        simp only [hindexed, Except.map, Except.ok.injEq] at hindex
        subst hindex
        obtain ⟨hevents, houtbox, -⟩ := indexed_frame hindexed
        rw [hhead] at *
        refine ⟨⟨h1, h2, h3, h4, h5, by simp⟩, hkey, rfl, rfl, hbound, hunique, ?_, t, rfl, ?_⟩
        · rwa [← houtbox]
        · rw [written, hevents]
  · rintro ⟨⟨h1, h2, h3, h4, h5, -⟩, -, rfl, rfl, hbound, hunique, hout, t, hindexed, rfl⟩
    obtain ⟨hevents, houtbox, -⟩ := indexed_frame hindexed
    refine ⟨(), s, ⟨h1, rfl⟩, s, s, ⟨rfl, rfl⟩, .inr ⟨not_not.2 rfl, (), s, ⟨h2, rfl⟩, (), _,
      ⟨hbound, hunique, rfl⟩, (), _, ⟨h3, rfl⟩, (), { t with events := s.events ++ [e.sealAt
        ((s.head e.twinId).1 + 1) (s.head e.twinId).2 (DateTime.utc now)] }, ?_, (), _,
      ⟨h4, rfl⟩, (), _, ⟨?_, rfl⟩, (), _, ⟨h5, rfl⟩, rfl, ?_⟩⟩
    · rw [indexed_events, hindexed]
      rfl
    · rwa [houtbox]
    · rw [written, hevents]

/-- **What an append that returns has done.** -/
theorem returns_append :
    Returns (append e x now fault) s r s' ↔
      e.schemaVersion = "argo.dt.event/v2" ∧ e.plane ≠ .simulation ∧
        ((Avoids fault [.begin, .selectDuplicate, .commit] ∧ Duplicate s e r ∧ s' = s) ∨
          (Avoids fault [.begin, .selectDuplicate, .selectHead, .insertEvent,
              .indexDependencies, .insertOutbox, .commit] ∧ Fresh s e x now r s')) := by
  by_cases hschema : e.schemaVersion = "argo.dt.event/v2"
  swap
  · simp [append, hschema]
  by_cases hplane : e.plane = .simulation
  · simp [append, hplane]
  simp only [append, hschema, hplane, ne_eq, not_true_eq_false, ↓reduceIte, not_false_eq_true,
    true_and, returns_bind, returns_transaction, returns_failAt, returns_get]
  cases hkey : s.keyed e.twinId e.idempotencyKey with
  | some row =>
    constructor
    · rintro ⟨_, _, ⟨h1, rfl⟩, _, _, ⟨h2, rfl⟩, _, _, ⟨rfl, rfl⟩, h⟩
      rw [hkey] at h
      obtain ⟨⟨hrow, hsame⟩, h3, rfl⟩ := returns_answerDuplicate.1 h
      exact .inl ⟨by simp [Avoids, h1, h2, h3], ⟨row, hkey, hrow, hsame⟩, rfl⟩
    · rintro (⟨hfault, ⟨row', hkey', hrow, hsame⟩, rfl⟩ | ⟨-, hfresh⟩)
      · simp only [Avoids, List.forall_mem_cons] at hfault
        rw [hkey] at hkey'
        cases hkey'
        refine ⟨(), s', ⟨hfault.1, rfl⟩, (), s', ⟨hfault.2.1, rfl⟩, s', s', ⟨rfl, rfl⟩, ?_⟩
        rw [hkey]
        exact returns_answerDuplicate.2 ⟨⟨hrow, hsame⟩, hfault.2.2.1, rfl⟩
      · rw [hfresh.1] at hkey
        cases hkey
  | none =>
    constructor
    · rintro ⟨_, _, ⟨h1, rfl⟩, _, _, ⟨h2, rfl⟩, _, _, ⟨rfl, rfl⟩, h⟩
      rw [hkey] at h
      obtain ⟨hfault, hfresh⟩ := (returns_commitFresh hkey).1 h
      simp only [Avoids, List.forall_mem_cons] at hfault ⊢
      exact .inr ⟨⟨h1, h2, hfault⟩, hfresh⟩
    · rintro (⟨-, ⟨row, hkey', -⟩, -⟩ | ⟨hfault, hfresh⟩)
      · rw [hkey] at hkey'
        cases hkey'
      · simp only [Avoids, List.forall_mem_cons] at hfault
        refine ⟨(), s, ⟨hfault.1, rfl⟩, (), s, ⟨hfault.2.1, rfl⟩, s, s, ⟨rfl, rfl⟩, ?_⟩
        rw [hkey]
        refine (returns_commitFresh hkey).2 ⟨?_, hfresh⟩
        simp only [Avoids, List.forall_mem_cons]
        exact hfault.2.2

/-- **An append that raises changes nothing.** -/
theorem append_error {err : PyError} (h : append e x now fault s = .error err s') : s' = s := by
  unfold append at h
  by_cases hschema : e.schemaVersion = "argo.dt.event/v2"
  · by_cases hplane : e.plane = .simulation
    · simp [hschema, hplane, bind, EStateM.bind, throw, throwThe, MonadExceptOf.throw,
        EStateM.throw] at h
      exact h.2.symm
    · simp only [hschema, hplane, ne_eq, not_true_eq_false, ↓reduceIte] at h
      exact transaction_error h
  · simp [hschema, bind, EStateM.bind, throw, throwThe, MonadExceptOf.throw,
      EStateM.throw] at h
    exact h.2.symm

end Store

end ArgoTwin
