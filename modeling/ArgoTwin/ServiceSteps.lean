import ArgoTwin.LedgerRuns
import ArgoTwin.Service
/-!
# What the steps of a call do

The service reads and writes the store in one step of `append` only; the
others work on its memory. A memory is coherent with a store where every
state in it is the replay of a beginning of its twin's stream, and the
cache names the twins its states belong to.
-/

namespace ArgoTwin

open Library TwinAggregate

/-- A memory that agrees with the store. -/
structure Memory.Coherent (s : Store) (m : Memory) : Prop where
  objects : ∀ ref, Replayed s (m.objects ref)
  cache : ∀ entry ∈ m.cache, entry.2 < m.allocated ∧ (m.objects entry.2).twinId = entry.1

/-- A call may hold an object of its twin. -/
structure Memory.Holds (m : Memory) (ref : Nat) (twinId : String) : Prop where
  allocated : ref < m.allocated
  twinId : (m.objects ref).twinId = twinId

/-- Objects stay, and stay of their twin. -/
structure Memory.Grows (m m' : Memory) : Prop where
  allocated : m.allocated ≤ m'.allocated
  twinId : ∀ ref < m.allocated, (m'.objects ref).twinId = (m.objects ref).twinId

section Memory

variable {s s' : Store} {m m' : Memory} {state : TwinState} {twinId : String} {ref : Nat}

theorem Replayed.of_extends (h : Replayed s state) (hs : Extends s s') : Replayed s' state := by
  obtain ⟨n, hn, hstate⟩ := h
  exact ⟨n, hn.trans (hs _).length_le, by rw [hs.stateAt_eq hn]; exact hstate⟩

theorem replayed_stateAt {n : Nat} (hn : n ≤ (s.stream twinId).length) :
    Replayed s (stateAt s twinId n) := by
  have htwin : (stateAt s twinId n).twinId = twinId := replay_twinId
  exact ⟨n, by rwa [htwin], by rw [htwin]⟩

/-- A blank object is the state of its twin before any event. -/
theorem replayed_blank : Replayed s { twinId := twinId } := replayed_stateAt (Nat.zero_le _)

theorem Memory.Coherent.of_extends (h : m.Coherent s) (hs : Extends s s') : m.Coherent s' :=
  ⟨fun ref => (h.objects ref).of_extends hs, h.cache⟩

theorem Memory.Grows.refl : m.Grows m := ⟨le_rfl, fun _ _ => rfl⟩

theorem Memory.Grows.trans {m'' : Memory} (h : m.Grows m') (h' : m'.Grows m'') : m.Grows m'' :=
  ⟨h.allocated.trans h'.allocated, fun ref href =>
    (h'.twinId ref (lt_of_lt_of_le href h.allocated)).trans (h.twinId ref href)⟩

theorem Memory.Holds.of_grows (h : m.Holds ref twinId) (hm : m.Grows m') :
    m'.Holds ref twinId :=
  ⟨lt_of_lt_of_le h.allocated hm.allocated, (hm.twinId ref h.allocated).trans h.twinId⟩

/-- A cache that lists no more than before is as good. -/
theorem Memory.Coherent.of_cache (h : m.Coherent s) {cache : List (String × Nat)}
    (hcache : ∀ entry ∈ cache, entry ∈ m.cache ∨ m.Holds entry.2 entry.1) :
    Memory.Coherent s { m with cache := cache } := by
  refine ⟨h.objects, fun entry hentry => ?_⟩
  rcases hcache entry hentry with hold | hnew
  · exact h.cache entry hold
  · exact ⟨hnew.allocated, hnew.twinId⟩

theorem mem_pop {entry : String × Nat} (h : entry ∈ (m.pop twinId).cache) : entry ∈ m.cache :=
  List.mem_of_mem_filter h

theorem Memory.Coherent.pop (twinId : String) (h : m.Coherent s) : (m.pop twinId).Coherent s :=
  h.of_cache fun _ hentry => .inl (mem_pop hentry)

theorem Memory.Coherent.put (h : m.Coherent s) (href : m.Holds ref twinId) :
    (m.put twinId ref).Coherent s := by
  refine h.of_cache fun entry hentry => ?_
  rcases List.mem_append.1 hentry with hold | hnew
  · exact .inl (mem_pop hold)
  · rw [List.mem_singleton.1 hnew]
    exact .inr href

theorem Memory.Coherent.trim (h : m.Coherent s) {limit : Nat} : (m.trim limit).Coherent s :=
  h.of_cache fun _ hentry => .inl (List.mem_of_mem_drop hentry)

theorem Memory.Coherent.alloc (h : m.Coherent s) (hstate : Replayed s state) :
    (m.alloc state).Coherent s := by
  constructor
  · intro ref
    by_cases href : ref = m.allocated
    · subst href
      simpa [Memory.alloc] using hstate
    · simpa [Memory.alloc, Function.update_of_ne href] using h.objects ref
  · intro entry hentry
    obtain ⟨hlt, htwin⟩ := h.cache entry hentry
    refine ⟨Nat.lt_succ_of_lt hlt, ?_⟩
    have hne : entry.2 ≠ m.allocated := hlt.ne
    simpa [Memory.alloc, Function.update_of_ne hne] using htwin

/-- **Taking an object forward** within its twin's replays. -/
theorem Memory.Coherent.setObject (h : m.Coherent s) (hstate : Replayed s state)
    (htwin : (m.objects ref).twinId = state.twinId) : (m.setObject ref state).Coherent s := by
  constructor
  · intro ref'
    by_cases href : ref' = ref
    · subst href
      simpa [Memory.setObject] using hstate
    · simpa [Memory.setObject, Function.update_of_ne href] using h.objects ref'
  · intro entry hentry
    obtain ⟨hlt, hname⟩ := h.cache entry hentry
    refine ⟨hlt, ?_⟩
    by_cases href : entry.2 = ref
    · rw [← hname, href, htwin]
      simp [Memory.setObject]
    · simpa [Memory.setObject, Function.update_of_ne href] using hname

theorem Memory.grows_alloc (state : TwinState) : m.Grows (m.alloc state) := by
  refine ⟨Nat.le_succ _, fun ref href => ?_⟩
  simp [Memory.alloc, Function.update_of_ne href.ne]

theorem Memory.grows_setObject (htwin : (m.objects ref).twinId = state.twinId) :
    m.Grows (m.setObject ref state) := by
  refine ⟨le_rfl, fun ref' _ => ?_⟩
  by_cases href : ref' = ref
  · subst href
    simp [Memory.setObject, htwin]
  · simp [Memory.setObject, Function.update_of_ne href]

theorem Memory.coherent_empty : Memory.Coherent s {} :=
  ⟨fun _ => replayed_blank, by simp⟩

/-- What the cache finds is an object of the twin. -/
theorem Memory.Coherent.lookup (h : m.Coherent s) (href : m.lookup twinId = some ref) :
    m.Holds ref twinId := by
  obtain ⟨before, after, hcache, -⟩ := List.lookup_eq_some_iff.1 href
  have hmem : (twinId, ref) ∈ m.cache := by simp [hcache]
  obtain ⟨hlt, htwin⟩ := h.cache (twinId, ref) hmem
  exact ⟨hlt, htwin⟩

/-- A replayed state that stands where its stream ends is the latest. -/
theorem Replayed.latest [Digest] (h : Replayed s state) (hs : s.Valid)
    (hposition : state.position = s.head state.twinId) : state = latest s state.twinId := by
  obtain ⟨n, hn, hstate⟩ := h
  have hsequence := stateAt_sequence hs hn
  have hhead := hs.head_sequence state.twinId
  rw [← hposition, TwinState.position] at hhead
  rw [← hstate] at hsequence
  have hlength : n = (s.stream state.twinId).length := by
    simp only at hhead
    omega
  rw [latest_eq_stateAt, ← hlength]
  exact hstate

end Memory

namespace Service

variable {p p' : Process} {α : Type}

/-! ## The store and the memory -/

@[simp] theorem returns_onStore {x : Store.Method α} {a : α} :
    Returns (onStore x) p a p' ↔ ∃ s', Returns x p.store a s' ∧ p' = { p with store := s' } :=
  returns_onPart

@[simp] theorem returns_onMemory {f : Memory → Memory} {u : Unit} :
    Returns (onMemory f) p u p' ↔ p' = { p with memory := f p.memory } := returns_modify

@[simp] theorem returns_demand {ok : Prop} [Decidable ok] {error : PyError} {u : Unit} :
    Returns (demand ok error) p u p' ↔ ok ∧ p' = p := by
  simp [demand, eq_comm]

theorem finalState_onStore {x : Store.Method α} :
    finalState (onStore x) p = { p with store := finalState x p.store } := by
  simp only [finalState, onStore, onPart]
  cases x p.store <;> rfl

/-- The store stays, and the memory agrees with it and has only grown. -/
structure Served (p p' : Process) : Prop where
  store : p'.store = p.store
  coherent : p'.memory.Coherent p.store
  grows : p.memory.Grows p'.memory

theorem Served.refl (h : p.memory.Coherent p.store) : Served p p := ⟨rfl, h, .refl⟩

theorem Served.trans {p'' : Process} (h : Served p p') (h' : Served p' p'') : Served p p'' :=
  ⟨h'.store.trans h.store, h.store ▸ h'.coherent, h.grows.trans h'.grows⟩

/-- A change of the memory alone. -/
theorem served_memory {m : Memory} (hcoherent : m.Coherent p.store) (hgrows : p.memory.Grows m) :
    Served p { p with memory := m } := ⟨rfl, hcoherent, hgrows⟩

variable {svc : Service} {twinId : String} {ref : Nat} {u : Unit}

/-! ## The state cache -/

/-- Caching a state leaves it as it was. -/
theorem returns_cacheState (h : Returns (svc.cacheState ref) p u p') :
    p'.store = p.store ∧ p'.memory.objects = p.memory.objects := by
  simp only [cacheState, returns_ite, returns_pure, returns_onMemory] at h
  rcases h with ⟨-, -, rfl⟩ | ⟨-, rfl⟩ <;> exact ⟨rfl, rfl⟩

theorem cacheState_returns (svc : Service) (ref : Nat) (p : Process) :
    ∃ p', Returns (svc.cacheState ref) p () p' := by
  by_cases hentries : svc.stateCacheEntries = 0 <;> simp [cacheState, hentries]

theorem served_cacheState (h : Returns (svc.cacheState ref) p u p')
    (hcoherent : p.memory.Coherent p.store) (href : ref < p.memory.allocated) : Served p p' := by
  simp only [cacheState, returns_ite, returns_pure, returns_onMemory] at h
  rcases h with ⟨-, -, rfl⟩ | ⟨-, rfl⟩
  · exact .refl hcoherent
  · exact served_memory (hcoherent.put ⟨href, rfl⟩).trim ⟨le_rfl, fun _ _ => rfl⟩

variable [Digest]

/-- `_latest_state` leaves the store alone, whether it returns or raises. -/
theorem store_latestState (svc : Service) (twinId : String) (p : Process) :
    (finalState (svc.latestState twinId) p).store = p.store := by
  have hmemory : ∀ f, Keeps (fun q : Process => q.store = p.store) (onMemory f) := fun f =>
    keeps_modify fun _ hq => hq
  have hcache : ∀ ref, Keeps (fun q : Process => q.store = p.store) (svc.cacheState ref) :=
    fun ref => keeps_ite keeps_pure (hmemory _)
  have hrebuild : Keeps (fun q : Process => q.store = p.store) (svc.rebuildLatest twinId) :=
    keeps_bind keeps_get fun q => keeps_bind keeps_fromExcept fun _ =>
      keeps_bind (hmemory _) fun _ => keeps_bind (hcache _) fun _ => keeps_pure
  have hkeeps : Keeps (fun q : Process => q.store = p.store) (svc.latestState twinId) := by
    refine keeps_bind keeps_get fun q => ?_
    cases q.memory.lookup twinId with
    | none => exact hrebuild
    | some ref =>
      exact keeps_ite (keeps_bind (hmemory _) fun _ => keeps_pure)
        (keeps_bind (hmemory _) fun _ => hrebuild)
  exact hkeeps p rfl

theorem store_state : (finalState (svc.state twinId) p).store = p.store := by
  rw [state]
  have hlatest := store_latestState svc twinId p
  rcases finalState_cases (svc.latestState twinId) p with ⟨ref, h⟩ | ⟨err, h⟩
  · rw [finalState_bind h, ← hlatest]
    rfl
  · rw [finalState_bind_error h, ← hlatest]

/-- Rebuilding on a sound store allocates the latest state. -/
theorem returns_rebuildLatest (hs : Sound p.store) :
    Returns (svc.rebuildLatest twinId) p ref p' ↔ ref = p.memory.allocated ∧
      Returns (svc.cacheState ref)
        { p with memory := p.memory.alloc (latest p.store twinId) } () p' := by
  have hrebuild : rebuild p.store twinId true none none = .ok (latest p.store twinId) :=
    hs.rebuild_latest twinId true
  simp only [rebuildLatest, returns_bind, returns_get, returns_fromExcept, returns_onMemory,
    returns_pure]
  constructor
  · rintro ⟨_, _, ⟨rfl, rfl⟩, state, _, ⟨hstate, rfl⟩, _, _, rfl, _, _, hcached, rfl, rfl⟩
    rw [hrebuild, Except.ok.injEq] at hstate
    subst hstate
    exact ⟨rfl, hcached⟩
  · rintro ⟨rfl, hcached⟩
    exact ⟨p, p, ⟨rfl, rfl⟩, _, p, ⟨hrebuild, rfl⟩, (), _, rfl, (), _, hcached, rfl, rfl⟩

theorem served_rebuildLatest (hs : Sound p.store) (hcoherent : p.memory.Coherent p.store)
    (h : Returns (svc.rebuildLatest twinId) p ref p') : Served p p' := by
  obtain ⟨rfl, hcached⟩ := (returns_rebuildLatest hs).1 h
  have hlatest : Replayed p.store (latest p.store twinId) := by
    rw [latest_eq_stateAt]
    exact replayed_stateAt le_rfl
  have halloc := served_memory (hcoherent.alloc hlatest)
    (p.memory.grows_alloc (latest p.store twinId))
  exact halloc.trans (served_cacheState hcached (hcoherent.alloc hlatest) (Nat.lt_succ_self _))

/-- **The state `_latest_state` serves** is the one cached at the head, or
the one the stream replays to. -/
theorem object_latestState (hs : Sound p.store)
    (h : Returns (svc.latestState twinId) p ref p') : p'.store = p.store ∧
      ((p.memory.lookup twinId = some ref ∧
          (p.memory.objects ref).position = p.store.head twinId ∧
          p'.memory.objects ref = p.memory.objects ref) ∨
        p'.memory.objects ref = latest p.store twinId) := by
  have hrebuilt : ∀ q : Process, q.store = p.store →
      Returns (svc.rebuildLatest twinId) q ref p' →
      p'.store = p.store ∧ p'.memory.objects ref = latest p.store twinId := by
    intro q hq hreturns
    obtain ⟨rfl, hcached⟩ := (returns_rebuildLatest (hq ▸ hs)).1 hreturns
    obtain ⟨hstore, hobjects⟩ := returns_cacheState hcached
    refine ⟨hstore.trans hq, ?_⟩
    rw [hobjects, ← hq]
    simp [Memory.alloc]
  rw [latestState, returns_get_bind] at h
  cases hlookup : p.memory.lookup twinId with
  | none =>
    rw [hlookup] at h
    exact (hrebuilt p rfl h).imp_right .inr
  | some cached =>
    rw [hlookup] at h
    simp only [returns_ite, returns_bind, returns_onMemory, returns_pure] at h
    rcases h with ⟨hposition, _, _, rfl, rfl, rfl⟩ | ⟨-, _, _, rfl, h⟩
    · exact ⟨rfl, .inl ⟨rfl, hposition, rfl⟩⟩
    · exact (hrebuilt { p with memory := p.memory.pop twinId } rfl h).imp_right .inr

/-- On a sound store `_latest_state` does not raise. -/
theorem latestState_returns (svc : Service) (twinId : String) (hs : Sound p.store) :
    ∃ ref p', Returns (svc.latestState twinId) p ref p' := by
  have hrebuilt : ∀ q : Process, q.store = p.store →
      ∃ ref p', Returns (svc.rebuildLatest twinId) q ref p' := by
    intro q hq
    obtain ⟨p', hp'⟩ := cacheState_returns svc q.memory.allocated
      { q with memory := q.memory.alloc (latest q.store twinId) }
    exact ⟨_, p', (returns_rebuildLatest (hq ▸ hs)).2 ⟨rfl, hp'⟩⟩
  simp only [latestState, returns_get_bind]
  cases hlookup : p.memory.lookup twinId with
  | none => exact hrebuilt p rfl
  | some cached =>
    by_cases hposition : (p.memory.objects cached).position = p.store.head twinId
    · refine ⟨cached, { p with memory := p.memory.put twinId cached }, ?_⟩
      simp only [if_pos hposition, returns_bind, returns_onMemory, returns_pure]
      exact ⟨(), _, rfl, trivial, rfl⟩
    · obtain ⟨ref, p', h⟩ := hrebuilt { p with memory := p.memory.pop twinId } rfl
      refine ⟨ref, p', ?_⟩
      simp only [if_neg hposition, returns_bind, returns_onMemory]
      exact ⟨(), _, rfl, h⟩

/-- **On a coherent memory `_latest_state` serves the latest state**, in
an object of the twin, and leaves the memory coherent. -/
theorem served_latestState (hs : Sound p.store) (hcoherent : p.memory.Coherent p.store)
    (h : Returns (svc.latestState twinId) p ref p') :
    Served p p' ∧ p'.memory.Holds ref twinId ∧ p'.memory.objects ref = latest p.store twinId := by
  have hrebuilt : ∀ q : Process, q.store = p.store → q.memory.Coherent p.store →
      Returns (svc.rebuildLatest twinId) q ref p' →
      Served q p' ∧ p'.memory.Holds ref twinId ∧
        p'.memory.objects ref = latest p.store twinId := by
    intro q hq hq' hreturns
    have hserved := served_rebuildLatest (hq ▸ hs) (hq ▸ hq') hreturns
    obtain ⟨rfl, hcached⟩ := (returns_rebuildLatest (hq ▸ hs)).1 hreturns
    obtain ⟨-, hobjects⟩ := returns_cacheState hcached
    have hobject : p'.memory.objects q.memory.allocated = latest p.store twinId := by
      rw [hobjects, ← hq]
      simp [Memory.alloc]
    refine ⟨hserved, ⟨?_, ?_⟩, hobject⟩
    · simp only [cacheState, returns_ite, returns_pure, returns_onMemory] at hcached
      rcases hcached with ⟨-, -, rfl⟩ | ⟨-, rfl⟩ <;> exact Nat.lt_succ_self _
    · rw [hobject]
      exact replay_twinId
  rw [latestState, returns_get_bind] at h
  cases hlookup : p.memory.lookup twinId with
  | none =>
    rw [hlookup] at h
    exact hrebuilt p rfl hcoherent h
  | some cached =>
    have hholds := hcoherent.lookup hlookup
    rw [hlookup] at h
    simp only [returns_ite, returns_bind, returns_onMemory, returns_pure] at h
    rcases h with ⟨hposition, _, _, rfl, rfl, rfl⟩ | ⟨-, _, _, rfl, h⟩
    · have hlatest := (hcoherent.objects cached).latest hs.valid
        (by rw [hposition, hholds.twinId])
      rw [hholds.twinId] at hlatest
      exact ⟨served_memory (hcoherent.put hholds) ⟨le_rfl, fun _ _ => rfl⟩,
        ⟨hholds.allocated, hholds.twinId⟩, hlatest⟩
    · have hpop := served_memory (p := p) (hcoherent.pop twinId)
        ⟨le_rfl, fun _ _ => rfl⟩
      obtain ⟨hserved, hrest⟩ :=
        hrebuilt { p with memory := p.memory.pop twinId } rfl hpop.coherent h
      exact ⟨hpop.trans hserved, hrest⟩

/-! ## The steps of `append` -/

variable {e persisted : EventEnvelope} {expectedSequence : Int} {head : Int × String}
variable {held : Option Nat} {now : Instant} {actor : ActorContext}

omit [Digest] in
theorem returns_vet : Returns (vet e actor) p head p' ↔
    (EventOwnershipPolicy.authorize e actor = .ok () ∧ validateEvent e = .ok () ∧
      e.plane ≠ .simulation) ∧ head = p.store.head e.twinId ∧ p' = p := by
  simp only [vet, returns_bind, returns_fromExcept, returns_demand, returns_get, returns_pure]
  constructor
  · rintro ⟨_, _, ⟨hauthorize, rfl⟩, _, _, ⟨hvalid, rfl⟩, _, _, ⟨hplane, rfl⟩, _, _, ⟨rfl, rfl⟩,
      rfl, rfl⟩
    exact ⟨⟨hauthorize, hvalid, hplane⟩, rfl, rfl⟩
  · rintro ⟨⟨hauthorize, hvalid, hplane⟩, rfl, rfl⟩
    exact ⟨(), _, ⟨hauthorize, rfl⟩, (), _, ⟨hvalid, rfl⟩, (), _, ⟨hplane, rfl⟩, _, _,
      ⟨rfl, rfl⟩, rfl, rfl⟩

omit [Digest] in
/-- Admission changes nothing. -/
theorem finalState_vet : finalState (vet e actor) p = p := by
  have hkeeps : Keeps (fun q => q = p) (vet e actor) :=
    keeps_bind keeps_fromExcept fun _ => keeps_bind keeps_fromExcept fun _ =>
      keeps_bind (keeps_ite keeps_pure keeps_throw) fun _ => keeps_bind keeps_get fun _ =>
        keeps_pure
  exact hkeeps p rfl

theorem returns_tryTransition : Returns (tryTransition e expectedSequence head now ref) p held p' ↔
    ((p.memory.objects ref).position = head ∧
      Accepts (e.sealAt (expectedSequence + 1) head.2 (DateTime.utc now))
        (p.memory.objects ref)) ∧ held = some ref ∧ p' = p := by
  rw [tryTransition, returns_get_bind]
  simp only [returns_bind, returns_demand, returns_fromExcept, applied_eq_ok, returns_pure]
  constructor
  · rintro ⟨_, _, ⟨hposition, rfl⟩, _, _, ⟨⟨haccepts, rfl⟩, rfl⟩, rfl, rfl⟩
    exact ⟨⟨hposition, haccepts⟩, rfl, rfl⟩
  · rintro ⟨⟨hposition, haccepts⟩, rfl, rfl⟩
    exact ⟨(), _, ⟨hposition, rfl⟩, _, _, ⟨⟨haccepts, rfl⟩, rfl⟩, rfl, rfl⟩

/-- Trying a transition changes nothing. -/
theorem finalState_tryTransition :
    finalState (tryTransition e expectedSequence head now ref) p = p := by
  have hkeeps : Keeps (fun q => q = p) (tryTransition e expectedSequence head now ref) :=
    keeps_bind keeps_get fun _ => keeps_bind (keeps_ite keeps_pure keeps_throw) fun _ =>
      keeps_bind keeps_fromExcept fun _ => keeps_pure
  exact hkeeps p rfl

/-- **A preview** is skipped where the head is not the expected one; else
the latest state accepts the event as it would be stored. -/
theorem returns_preview :
    Returns (svc.preview e expectedSequence head now) p held p' ↔
      (head.1 ≠ expectedSequence ∧ held = none ∧ p' = p) ∨
        (head.1 = expectedSequence ∧ ∃ ref, held = some ref ∧
          Returns (svc.latestState e.twinId) p ref p' ∧
          (p'.memory.objects ref).position = head ∧
          Accepts (e.sealAt (expectedSequence + 1) head.2 (DateTime.utc now))
            (p'.memory.objects ref)) := by
  simp only [preview, returns_ite, returns_bind, returns_tryTransition, returns_pure]
  constructor
  · rintro (⟨hhead, ref, _, hlatest, ⟨hposition, haccepts⟩, rfl, rfl⟩ | ⟨hhead, rfl, rfl⟩)
    · exact .inr ⟨hhead, ref, rfl, hlatest, hposition, haccepts⟩
    · exact .inl ⟨hhead, rfl, rfl⟩
  · rintro (⟨hhead, rfl, rfl⟩ | ⟨hhead, ref, rfl, hlatest, hposition, haccepts⟩)
    · exact .inr ⟨hhead, rfl, rfl⟩
    · exact .inl ⟨hhead, ref, _, hlatest, ⟨hposition, haccepts⟩, rfl, rfl⟩

/-- A preview leaves the store alone. -/
theorem store_preview :
    (finalState (svc.preview e expectedSequence head now) p).store = p.store := by
  rw [preview]
  split
  · have hlatest := store_latestState svc e.twinId p
    rcases finalState_cases (svc.latestState e.twinId) p with ⟨ref, h⟩ | ⟨err, h⟩
    · rw [finalState_bind h, finalState_tryTransition, hlatest]
    · rw [finalState_bind_error h, hlatest]
  · rfl

/-- A preview keeps a memory coherent, whether it passes or not. -/
theorem served_preview (svc : Service) (e : EventEnvelope) (expectedSequence : Int)
    (head : Int × String) (now : Instant) (hs : Sound p.store)
    (hcoherent : p.memory.Coherent p.store) :
    Served p (finalState (svc.preview e expectedSequence head now) p) := by
  rw [preview]
  split
  · obtain ⟨ref, q, hlatest⟩ := latestState_returns svc e.twinId hs
    rw [finalState_bind hlatest, finalState_tryTransition]
    exact (served_latestState hs hcoherent hlatest).1
  · exact .refl hcoherent

omit [Digest] in
/-- Settling leaves the store alone. -/
theorem store_settle (svc : Service) (head : Int × String) (held : Option Nat)
    (persisted : EventEnvelope) (p : Process) :
    (finalState (svc.settle head held persisted) p).store = p.store := by
  have hmemory : ∀ f, Keeps (fun q : Process => q.store = p.store) (onMemory f) := fun f =>
    keeps_modify fun _ hq => hq
  have hkeeps : Keeps (fun q : Process => q.store = p.store) (svc.settle head held persisted) := by
    refine keeps_ite ?_ keeps_pure
    cases held with
    | none => exact hmemory _
    | some ref =>
      refine keeps_get_bind fun q hq => ?_
      cases apply persisted (q.memory.objects ref) with
      | ok _ after =>
        exact keeps_bind (hmemory _) (fun _ => keeps_ite keeps_pure (hmemory _)) q hq
      | error err after => exact keeps_bind (hmemory _) (fun _ => keeps_throw) q hq
  exact hkeeps p rfl

omit [Digest] in
/-- Advancing a held state over an event it accepts goes through. -/
theorem advance_returns (svc : Service) {ref : Nat} {after : TwinState}
    (happly : Returns (apply persisted) (p.memory.objects ref) () after) :
    ∃ q, Returns (svc.advance ref persisted) p () q ∧
      Returns (svc.cacheState ref) { p with memory := p.memory.setObject ref after } () q := by
  obtain ⟨q, hcached⟩ :=
    cacheState_returns svc ref { p with memory := p.memory.setObject ref after }
  refine ⟨q, ?_, hcached⟩
  rw [advance, returns_get_bind]
  simp only [Returns] at happly
  simp only [happly, returns_bind, returns_onMemory]
  exact ⟨(), _, rfl, hcached⟩

/-- Settling goes through where the held state accepts the event. -/
theorem settle_ok (svc : Service) (head : Int × String) {held : Option Nat}
    (haccepts : ∀ ref, held = some ref → head.1 < persisted.sequence →
      Accepts persisted (p.memory.objects ref)) :
    ∃ q, Returns (svc.settle head held persisted) p () q ∧ q.store = p.store := by
  have hreturns : ∃ q, Returns (svc.settle head held persisted) p () q := by
    unfold settle
    split
    swap
    · exact ⟨p, by simp⟩
    rename_i hpast
    cases held with
    | none => exact ⟨_, returns_onMemory.2 rfl⟩
    | some ref =>
      obtain ⟨q, hadvance, -⟩ :=
        advance_returns svc (returns_apply.2 ⟨haccepts ref rfl hpast, rfl⟩)
      exact ⟨q, hadvance⟩
  obtain ⟨q, hq⟩ := hreturns
  have hstore := store_settle svc head held persisted p
  rw [finalState_of_returns hq] at hstore
  exact ⟨q, hq, hstore⟩

/-- **Settling goes through** where a held state is answered with the event
after it, and that event is canonical, and keeps the memory coherent. -/
theorem settle_returns (svc : Service) (head : Int × String) (held : Option Nat)
    (hs : Sound p.store) (hcoherent : p.memory.Coherent p.store)
    (hstored : Stored p.store persisted)
    (hheld : ∀ ref, held = some ref → p.memory.Holds ref persisted.twinId)
    (hnext : ∀ ref, held = some ref → head.1 < persisted.sequence →
      persisted.payload.Canonical ∧
        persisted.sequence = (p.memory.objects ref).sequence + 1) :
    ∃ q, Returns (svc.settle head held persisted) p () q ∧ Served p q := by
  unfold settle
  split
  swap
  · exact ⟨p, by simp, .refl hcoherent⟩
  rename_i hpast
  cases held with
  | none =>
    exact ⟨_, returns_onMemory.2 rfl, served_memory (hcoherent.pop _) ⟨le_rfl, fun _ _ => rfl⟩⟩
  | some ref =>
    have hholds := hheld ref rfl
    obtain ⟨hcanonical, hsequence⟩ := hnext ref rfl hpast
    obtain ⟨n, hn, hplace, haccepts, heffect⟩ := hstored.place hs.valid hs.lawful hcanonical
    -- the held state is the one the event was accepted on
    have hobject : p.memory.objects ref = stateAt p.store persisted.twinId n := by
      obtain ⟨m, hm, hstate⟩ := hcoherent.objects ref
      rw [hholds.twinId] at hm hstate
      have hposition := stateAt_sequence hs.valid hm
      rw [← hstate] at hposition
      have hmn : m = n := by omega
      rw [hstate, hmn]
    have happly : Returns (apply persisted) (p.memory.objects ref) ()
        (stateAt p.store persisted.twinId (n + 1)) := by
      rw [returns_apply, hobject]
      exact ⟨haccepts, heffect.symm⟩
    have htwin : (p.memory.objects ref).twinId =
        (stateAt p.store persisted.twinId (n + 1)).twinId := by
      rw [hobject]
      simp [stateAt]
    have hset := hcoherent.setObject (replayed_stateAt hn) htwin
    obtain ⟨q, hadvance, hcached⟩ := advance_returns svc happly
    exact ⟨q, hadvance, (served_memory hset (Memory.grows_setObject htwin)).trans
      (served_cacheState hcached hset hholds.allocated)⟩

theorem served_settle (svc : Service) (head : Int × String) (held : Option Nat)
    (hs : Sound p.store) (hcoherent : p.memory.Coherent p.store)
    (hstored : Stored p.store persisted)
    (hheld : ∀ ref, held = some ref → p.memory.Holds ref persisted.twinId)
    (hnext : ∀ ref, held = some ref → head.1 < persisted.sequence →
      persisted.payload.Canonical ∧
        persisted.sequence = (p.memory.objects ref).sequence + 1) :
    Served p (finalState (svc.settle head held persisted) p) := by
  obtain ⟨q, hreturns, hserved⟩ := settle_returns svc head held hs hcoherent hstored hheld hnext
  rwa [finalState_of_returns hreturns]

end Service

end ArgoTwin
