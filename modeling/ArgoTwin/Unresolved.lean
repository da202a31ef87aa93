import ArgoTwin.Facade
import ArgoTwin.NonInterference
import ArgoTwin.Plans
/-!
# Which contradictions are unresolved

Three read models tell which contradictions nobody has resolved: the loss
report of a kernel artifact, the gaps of a plan, and the deficits of a
representation. The plan and the deficits leave out what was adjudicated;
the loss report does not.
-/

namespace ArgoTwin

open Library TwinAggregate

open TwinState (except_ok_bind)

/-! ## Detected and adjudicated -/

/-- A contradiction of this name was detected. -/
def Detected (es : List EventEnvelope) (id : String) : Prop :=
  ∃ e ∈ es, e.kind = .contradictionDetected ∧ idOf e.payload "contradiction_id" = id

/-- A contradiction of this name was adjudicated. -/
def Adjudicated (es : List EventEnvelope) (id : String) : Prop :=
  ∃ e ∈ es, e.kind = .contradictionAdjudicated ∧ idOf e.payload "contradiction_id" = id

/-- Detected, and not yet adjudicated. -/
def Unresolved (es : List EventEnvelope) (id : String) : Prop :=
  Detected es id ∧ ¬ Adjudicated es id

section Histories

variable {s : TwinState} {e : EventEnvelope} {es : List EventEnvelope} {id : String}

theorem effect_adjudications : (effect e s).adjudications =
    if e.kind = .contradictionAdjudicated then
      s.adjudications.insert (idOf e.payload "contradiction_id") (recorded e)
    else s.adjudications := by
  have h : (effectKind e s).adjudications =
      if e.kind = .contradictionAdjudicated then
        s.adjudications.insert (idOf e.payload "contradiction_id") (recorded e)
      else s.adjudications := by
    unfold effectKind
    cases e.kind with
    | contradictionDetected => simp only [reduceCtorEq, ↓reduceIte]; rw [boundIfNamed_eq]
    | correctionRecorded => simp only [reduceCtorEq, ↓reduceIte]; split <;> rfl
    | _ => rfl
  exact h

/-- A dictionary that events of one kind enter records into holds what they
entered. -/
theorem mem_entered (get : TwinState → Dict Payload) {kind : EventKind}
    (hstep : ∀ e s, get (effect e s) =
      if e.kind = kind then (get s).insert (idOf e.payload "contradiction_id") (recorded e)
      else get s) :
    id ∈ get (replay s es) ↔ id ∈ get s ∨
      ∃ e ∈ es, e.kind = kind ∧ idOf e.payload "contradiction_id" = id := by
  induction es generalizing s with
  | nil => simp [replay]
  | cons e es ih =>
    have hreplay : replay s (e :: es) = replay (effect e s) es := rfl
    rw [hreplay, ih, hstep]
    split_ifs with hkind
    · rw [mem_dict_insert]
      simp only [List.exists_mem_cons_iff, hkind, true_and]
      rw [or_comm (a := idOf e.payload "contradiction_id" = id), or_assoc]
    · simp only [List.exists_mem_cons_iff, hkind, false_and, false_or]

/-- **The contradictions of a state are those detected.** -/
theorem mem_contradictions_iff {twinId : String} :
    id ∈ (replay { twinId := twinId } es).contradictions ↔ Detected es id := by
  rw [mem_entered TwinState.contradictions fun e s => effect_contradictions]
  exact or_iff_right (by simp)

/-- The adjudications of a state are of those adjudicated. -/
theorem mem_adjudications_iff {twinId : String} :
    id ∈ (replay { twinId := twinId } es).adjudications ↔ Adjudicated es id := by
  rw [mem_entered TwinState.adjudications fun e s => effect_adjudications]
  exact or_iff_right (by simp)

end Histories

/-! ## The gaps of a plan -/

section Gaps

open GapDirectedElicitor

variable [Digest] {elicitor : GapDirectedElicitor} {s : TwinState} {objective : String}
variable {found : List (EpistemicGap × ElicitationQuestion)}

/-- The gap of a contradiction, and its question. -/
def contradictionGap (s : TwinState) (objective : String) (entry : String × Payload) :
    EpistemicGap × ElicitationQuestion :=
  gap s objective .unresolvedContradiction (targetsOf entry.2)
    "Competing claims have not been adjudicated."
    ("What dated, firsthand, or independently sourced evidence resolves this " ++
      "contradiction?") [entry.1]

/-- A gap of a contradiction nobody resolved. -/
def ofContradiction (x : EpistemicGap × ElicitationQuestion) : Bool :=
  x.1.kind = .unresolvedContradiction

/-- What a claim lacks is not a resolution. -/
theorem filter_claimGaps {claimId : String}
    (h : elicitor.claimGaps s objective claimId = .ok found) :
    found.filter ofContradiction = [] := by
  unfold claimGaps at h
  cases hclaim : s.claims[claimId]? with
  | none =>
    rw [hclaim] at h
    cases h
  | some claim =>
    rw [hclaim] at h
    obtain ⟨_, -, h⟩ := bind_eq_ok.1 h
    obtain ⟨groups, -, h⟩ := bind_eq_ok.1 h
    cases h
    rw [List.filter_eq_nil_iff]
    intro x hx
    simp only [List.mem_append, List.mem_ite_nil_right, List.mem_singleton] at hx
    rcases hx with (⟨-, rfl⟩ | ⟨-, rfl⟩) | ⟨-, rfl⟩ <;> exact Bool.false_ne_true

theorem filter_flatten_claimGaps {claimIds : List String}
    {ofClaims : List (List (EpistemicGap × ElicitationQuestion))}
    (h : claimIds.mapM (elicitor.claimGaps s objective) = .ok ofClaims) :
    ofClaims.flatten.filter ofContradiction = [] := by
  induction claimIds generalizing ofClaims with
  | nil =>
    obtain rfl : [] = ofClaims := Except.ok.inj h
    rfl
  | cons claimId claimIds ih =>
    rw [List.mapM_cons] at h
    obtain ⟨first, hfirst, h⟩ := bind_eq_ok.1 h
    obtain ⟨rest, hrest, h⟩ := bind_eq_ok.1 h
    obtain rfl := Except.ok.inj h
    rw [List.flatten_cons, List.filter_append, filter_claimGaps hfirst, ih hrest]
    rfl

/-- Where no claims are named, every contradiction not resolved is a gap. -/
theorem contradictionGaps_eq {entry : String × Payload} {claimIds : List Json}
    (h : (entry.2.listD "claim_ids").pyIter = .ok claimIds) :
    contradictionGaps s objective none entry =
      .ok (if s.resolvedContradictionIds.contains entry.1 then []
        else [contradictionGap s objective entry]) := by
  unfold contradictionGaps
  split
  · rfl
  · have htargets : (claimIds.map Json.pyStr).insertionSort (fun a b => a ≤ b) =
        targetsOf entry.2 := by
      rw [targetsOf, h]
      rfl
    rw [h, except_ok_bind]
    simp only [htargets]
    rfl

theorem mapM_contradictionGaps {entries : List (String × Payload)}
    (h : ∀ entry ∈ entries, ∃ claimIds, (entry.2.listD "claim_ids").pyIter = .ok claimIds) :
    ∃ gaps, entries.mapM (contradictionGaps s objective none) = .ok gaps ∧
      gaps.flatten = (entries.filter fun entry =>
        !s.resolvedContradictionIds.contains entry.1).map (contradictionGap s objective) := by
  induction entries with
  | nil => exact ⟨[], rfl, rfl⟩
  | cons entry entries ih =>
    obtain ⟨gaps, hgaps, hflat⟩ := ih fun entry' h' => h entry' (List.mem_cons_of_mem _ h')
    obtain ⟨claimIds, hclaimIds⟩ := h entry List.mem_cons_self
    refine ⟨(if s.resolvedContradictionIds.contains entry.1 then []
        else [contradictionGap s objective entry]) :: gaps, ?_, ?_⟩
    · rw [List.mapM_cons, contradictionGaps_eq hclaimIds, hgaps]
      rfl
    · rw [List.flatten_cons, hflat, List.filter_cons]
      cases s.resolvedContradictionIds.contains entry.1 <;> rfl

/-- Every claim says what it rests on, in a list. -/
def Sourced (claims : Dict Payload) : Prop :=
  ∀ (id : String) (claim : Payload), claims[id]? = some claim →
    ∃ references, (claim.listD "provenance").pyIter = .ok references

omit [Digest] in
theorem sourced_effect {e : EventEnvelope} (haccepts : Accepts e s) (h : Sourced s.claims) :
    Sourced (effect e s).claims := by
  rw [effect_claims]
  split
  · rename_i hkind
    have hallowed := haccepts.2.2
    simp only [Allowed, hkind] at hallowed
    obtain ⟨-, -, ⟨references, hreferences, -⟩, -⟩ := hallowed
    have hlist : (recorded e).listD "provenance" = e.payload.listD "provenance" := by
      simp [recorded, Payload.listD, getElem?_insert]
    intro id claim hclaim
    rw [getElem?_insert] at hclaim
    split at hclaim
    · obtain rfl := Option.some.inj hclaim
      exact ⟨references, hlist ▸ listD_of_requireList hreferences⟩
    · exact h id claim hclaim
  · exact h

omit [Digest] in
theorem sourced_replay {es : List EventEnvelope} (hlegal : Legal s es) (h : Sourced s.claims) :
    Sourced (replay s es).claims := by
  induction es generalizing s with
  | nil => exact h
  | cons e es ih => exact ih hlegal.2 (sourced_effect hlegal.1 h)

variable (elicitor objective) in
/-- What a claim with a list of sources lacks can be told. -/
theorem claimGaps_isOk (h : Sourced s.claims) {claimId : String} (hclaim : claimId ∈ s.claims) :
    ∃ found, elicitor.claimGaps s objective claimId = .ok found := by
  obtain ⟨claim, hclaim⟩ := mem_iff_getElem?.1 hclaim
  obtain ⟨references, hreferences⟩ := h claimId claim hclaim
  have hgroups : ∃ groups, groupsOf claim = .ok groups :=
    ⟨_, bind_eq_ok.2 ⟨references, hreferences, rfl⟩⟩
  obtain ⟨groups, hgroups⟩ := hgroups
  unfold claimGaps
  rw [hclaim]
  exact ⟨_, bind_eq_ok.2 ⟨claim, rfl, bind_eq_ok.2 ⟨groups, hgroups, rfl⟩⟩⟩

theorem mapM_claimGaps_isOk (h : Sourced s.claims) {claimIds : List String}
    (hclaims : ∀ claimId ∈ claimIds, claimId ∈ s.claims) :
    ∃ found, claimIds.mapM (elicitor.claimGaps s objective) = .ok found := by
  induction claimIds with
  | nil => exact ⟨[], rfl⟩
  | cons claimId claimIds ih =>
    obtain ⟨first, hfirst⟩ := claimGaps_isOk elicitor objective h
      (hclaims claimId List.mem_cons_self)
    obtain ⟨rest, hrest⟩ := ih fun id hid => hclaims id (List.mem_cons_of_mem _ hid)
    exact ⟨first :: rest, by rw [List.mapM_cons, hfirst, hrest]; rfl⟩

variable (elicitor) in
/-- **A plan about all claims** comes out, and its gaps for contradictions
are those of the contradictions not resolved. -/
theorem plan_gaps (hs : Consistent s) (hsourced : Sourced s.claims)
    (hobjective : isBlank objective = false) :
    ∃ plan, elicitor.plan s objective none = .ok plan ∧
      (plan.gaps.filter fun gap => gap.kind = .unresolvedContradiction) =
        (s.contradictions.toList.filter fun entry =>
          !s.resolvedContradictionIds.contains entry.1).map fun entry =>
            (contradictionGap s objective entry).1 := by
  have hknown : ∀ claimId ∈ selected s none, claimId ∈ s.claims := by
    intro claimId hclaimId
    exact Std.ExtTreeMap.mem_keys.1 hclaimId
  obtain ⟨ofClaims, hofClaims⟩ := mapM_claimGaps_isOk hsourced hknown
  obtain ⟨ofContradictions, hofContradictions, hflat⟩ := mapM_contradictionGaps fun entry hentry =>
    (hs.disputes.claims_known entry.1 entry.2 (mem_dict_toList.1 hentry)).imp fun _ h => h.1
  refine ⟨_, plan_eq_ok.2 ⟨hobjective, hknown, ofClaims, ofContradictions, hofClaims,
    hofContradictions, rfl⟩, ?_⟩
  have hunaddressed : (unaddressed s objective (selected s none)).filter ofContradiction = [] := by
    unfold unaddressed
    split <;> rfl
  have hall : (ofContradictions.flatten).filter ofContradiction = ofContradictions.flatten := by
    rw [hflat, List.filter_map]
    exact congrArg _ (List.filter_eq_self.2 fun _ _ => rfl)
  show ((List.map Prod.fst (_ ++ _ ++ _)).filter fun gap : EpistemicGap => _) = _
  rw [List.filter_map]
  have hkinds : (unaddressed s objective (selected s none) ++ ofClaims.flatten ++
      ofContradictions.flatten).filter ofContradiction = ofContradictions.flatten := by
    rw [List.filter_append, List.filter_append, hunaddressed, filter_flatten_claimGaps hofClaims,
      hall]
    rfl
  refine (congrArg (List.map Prod.fst) hkinds).trans ?_
  rw [hflat, List.map_map]
  rfl

end Gaps

/-! ## The deficits of a representation -/

section Deficits

open InProcessK2Facade

variable [Digest] {s : TwinState} {representationId : String}

/-- The deficits of contradictions are of those not resolved. -/
theorem mem_contradiction_deficits {degradedReasons : List String} {id : String} :
    (∃ d ∈ deficits representationId s degradedReasons,
        d.kind = "unresolved_contradiction" ∧ id ∈ d.targetRefs) ↔
      id ∈ s.contradictions ∧ id ∉ s.resolvedContradictionIds := by
  have hlisted : id ∈ (s.contradictions.keys.filter fun id =>
      !s.resolvedContradictionIds.contains id) ↔
        id ∈ s.contradictions ∧ id ∉ s.resolvedContradictionIds := by
    rw [List.mem_filter, Std.ExtTreeMap.mem_keys, Std.ExtTreeSet.mem_iff_contains,
      Bool.not_eq_true', Bool.not_eq_true]
  rw [← hlisted]
  constructor
  · rintro ⟨d, hd, hkind, hid⟩
    simp only [deficits, List.mem_append] at hd
    rcases hd with (((hd | hd) | hd) | hd) | hd
    · split at hd
      · obtain rfl := List.mem_singleton.1 hd
        exact absurd hkind (by simp)
      · cases hd
    · obtain ⟨claimId, -, rfl⟩ := List.mem_map.1 hd
      exact absurd hkind (by simp)
    · obtain ⟨claimId, -, rfl⟩ := List.mem_map.1 hd
      exact absurd hkind (by simp)
    · obtain ⟨contradictionId, hmem, rfl⟩ := List.mem_map.1 hd
      obtain rfl := List.mem_singleton.1 hid
      exact hmem
    · obtain ⟨index, hindex, rfl⟩ := List.mem_mapIdx.1 hd
      exact absurd hkind (by simp)
  · intro hmem
    refine ⟨contradictionDeficit representationId id, ?_, rfl, List.mem_singleton_self id⟩
    simp only [deficits, List.mem_append]
    exact .inl (.inr (List.mem_map.2 ⟨id, hmem, rfl⟩))

omit [Digest] in
theorem returns_served {α : Type} {x : Service.Method α} {p p' : Process} {a : α} :
    Returns (served x) p a p' ↔ Returns x p a p' := by
  unfold Returns served
  cases x p <;> simp

omit [Digest] in
theorem returns_translated {α : Type} {x : Method α} {p p' : Process} {a : α} :
    Returns (translated x) p a p' ↔ Returns x p a p' := by
  unfold Returns translated mapRaised
  cases x p <;> simp

variable {svc : Service} {p p' : Process} {request : RepresentationQuery}

/-- What is read for an actor is the latest state. -/
theorem scopedState_spec (hp : p.Healthy) {twinId : String} {actor : ActorContext}
    (h : Returns (svc.scopedState twinId actor) p s p') :
    s = latest p.store twinId ∧ Service.Served p p' := by
  obtain ⟨first, q, hfirst, hchecked⟩ := returns_bind.1 h
  obtain ⟨_, q', hauthorized, hgiven⟩ := returns_bind.1 hchecked
  obtain ⟨hfirst', hq'⟩ := returns_pure.1 hgiven
  obtain ⟨-, hq⟩ := returns_fromExcept.1 hauthorized
  obtain ⟨q₀, hlatest, hserved⟩ := Service.served_state svc hp twinId
  obtain ⟨hsame, hq₀⟩ := returns_unique hlatest hfirst
  refine ⟨hfirst'.symm.trans hsame.symm, ?_⟩
  rwa [← hq', hq, ← hq₀]

theorem readRepresentationState_spec (hp : p.Healthy) {view : RepresentationStateView}
    (h : Returns (readRepresentationState svc request) p view p') : Service.Served p p' ∧
      view.degradedReasons = (latest p.store request.representationId).degradedReasons := by
  obtain ⟨actor, q, hactor, hread⟩ := returns_bind.1 h
  obtain ⟨-, hq⟩ := returns_fromExcept.1 hactor
  rw [hq] at hread
  obtain ⟨state, q', hscoped, hviewed⟩ := returns_bind.1 hread
  obtain ⟨rfl, hserved⟩ := scopedState_spec hp (returns_served.1 (returns_translated.1 hscoped))
  cases hsubject : (latest p.store request.representationId).subjectId with
  | none =>
    rw [hsubject] at hviewed
    cases hviewed
  | some subjectId =>
    rw [hsubject] at hviewed
    simp only at hviewed
    split at hviewed
    · cases hviewed
    · obtain ⟨hview, rfl⟩ := returns_fromExcept.1 hviewed
      refine ⟨hserved, ?_⟩
      cases hmade : stateView request.representationId
          (latest p.store request.representationId) subjectId with
      | error e =>
        rw [hmade] at hview
        cases hview
      | ok made =>
        rw [hmade] at hview
        obtain rfl := Except.ok.inj hview
        obtain ⟨subjectRef, -, hrest⟩ := bind_eq_ok.1 hmade
        obtain ⟨snapshotRef, -, hrest⟩ := bind_eq_ok.1 hrest
        obtain rfl := Except.ok.inj hrest
        rfl

/-- **What is read of a representation is the latest state of the twin**,
and its deficits are that state's. -/
theorem readRepresentationDeficits_spec (hp : p.Healthy) {found : List RepresentationDeficit}
    (h : Returns (readRepresentationDeficits svc request) p found p') :
    Service.Served p p' ∧ found = deficits request.representationId
      (latest p.store request.representationId)
      (latest p.store request.representationId).degradedReasons := by
  obtain ⟨view, q, hview, hrest⟩ := returns_bind.1 h
  obtain ⟨state, q', hstate, hfound⟩ := returns_bind.1 hrest
  obtain ⟨rfl, rfl⟩ := returns_pure.1 hfound
  obtain ⟨hserved, hreasons⟩ := readRepresentationState_spec hp hview
  obtain ⟨q₀, hagain, hserved'⟩ :=
    Service.served_state svc (hserved.healthy hp) request.representationId
  obtain ⟨rfl, rfl⟩ := returns_unique hagain (returns_served.1 hstate)
  exact ⟨hserved.trans hserved', by rw [hreasons, hserved.store]⟩

end Deficits

/-! ## Three read models -/

section Agreement

open InProcessK2Facade GapDirectedElicitor

variable [Digest]

/-- **One notion of unresolved**: what the loss report of any artifact, the
gaps of a plan about all claims, and the deficits name is what was detected
and not yet adjudicated. -/
structure OneNotion (es : List EventEnvelope) (s : TwinState) (elicitor : GapDirectedElicitor)
    (objective representationId : String) : Prop where
  compiles : ∃ artifact, KernelCompiler.compile s "kernel" {} ⟨0, ""⟩ = .ok artifact
  lossReport : ∀ (artifactType : String) (bounds : TwinState.Bounds) (readings : Readings)
    (artifact : KernelArtifact),
    KernelCompiler.compile s artifactType bounds readings = .ok artifact →
      ∃ ids : List String,
        artifact.lossReport["unresolved_contradiction_ids"]? = some (.arr (ids.map .str)) ∧
          ∀ id, id ∈ ids ↔ Unresolved es id
  gaps : ∃ (plan : ElicitationPlan) (remaining : List (String × Payload)),
    elicitor.plan s objective none = .ok plan ∧
      (plan.gaps.filter fun gap => gap.kind = .unresolvedContradiction) =
        remaining.map (fun entry => (contradictionGap s objective entry).1) ∧
      ∀ id, id ∈ remaining.map (·.1) ↔ Unresolved es id
  deficits : ∀ id, (∃ d ∈ deficits representationId s s.degradedReasons,
    d.kind = "unresolved_contradiction" ∧ id ∈ d.targetRefs) ↔ Unresolved es id

/-- Any loss report lists every contradiction of the state. -/
theorem lossReport_of_compile {s : TwinState} {artifactType : String} {bounds : TwinState.Bounds}
    {readings : Readings} {artifact : KernelArtifact}
    (h : KernelCompiler.compile s artifactType bounds readings = .ok artifact) :
    artifact.lossReport["unresolved_contradiction_ids"]? =
      some (.arr (s.contradictions.keys.map .str)) := by
  unfold KernelCompiler.compile at h
  split at h
  · cases h
  · obtain ⟨accepted, -, h⟩ := bind_eq_ok.1 h
    obtain ⟨selected, -, h⟩ := bind_eq_ok.1 h
    obtain ⟨claimIds, -, h⟩ := bind_eq_ok.1 h
    obtain rfl := Except.ok.inj h
    show (KernelCompiler.lossReport s)["unresolved_contradiction_ids"]? = _
    simp [KernelCompiler.lossReport, Payload.getElem?_ofFields, List.lookup_cons]

/-- Bounded by nothing, the kernel of a state compiles. -/
theorem kernel_isOk {s : TwinState} (hs : Consistent s) (hkeyed : Keyed s.claims)
    (readings : Readings) :
    ∃ artifact, KernelCompiler.compile s "kernel" {} readings = .ok artifact := by
  have hknown : ∀ id ∈ s.standing, id ∈ s.claims := fun id hid =>
    hs.claims.accepted_known id (TwinState.mem_standing.1 hid).1
  have haccepted : s.acceptedClaims {} = .ok _ :=
    visibleAmong_eq_ok.2 ⟨fun id hid => by
      obtain ⟨claim, hclaim⟩ := mem_iff_getElem?.1 (hknown id hid)
      exact ⟨claim, hclaim, true, rfl⟩, rfl⟩
  have hsupported : artifactFields.contains "kernel" = true := by decide +kernel
  obtain ⟨artifact, hartifact, -⟩ :=
    compile_eq hsupported haccepted rfl
      (claimIds_eq hkeyed fun id hid => hknown id (List.mem_of_mem_filter hid)) readings
  exact ⟨artifact, hartifact⟩

/-- **The three read models agree exactly while nothing is adjudicated.** -/
theorem oneNotion_iff {twinId : String} {es : List EventEnvelope} {s : TwinState}
    (h : folded { twinId := twinId } es = .ok s) (elicitor : GapDirectedElicitor)
    {objective : String} (hobjective : isBlank objective = false) (representationId : String) :
    OneNotion es s elicitor objective representationId ↔
      ∀ id, Detected es id → ¬ Adjudicated es id := by
  obtain ⟨hlegal, rfl⟩ := folded_eq_ok.1 h
  have hconsistent := (kept_replay hlegal kept_blank).consistent
  have hdetected (id : String) :
      id ∈ (replay { twinId := twinId } es).contradictions ↔ Detected es id :=
    mem_contradictions_iff
  have hopen (id : String) : (id ∈ (replay { twinId := twinId } es).contradictions ∧
      id ∉ (replay { twinId := twinId } es).resolvedContradictionIds) ↔ Unresolved es id := by
    rw [hconsistent.disputes.resolved_iff, mem_adjudications_iff, hdetected, Unresolved]
  constructor
  · intro hone id hfound
    obtain ⟨artifact, hartifact⟩ := hone.compiles
    obtain ⟨ids, hids, hreported⟩ := hone.lossReport _ _ _ artifact hartifact
    rw [lossReport_of_compile hartifact] at hids
    obtain rfl : (replay { twinId := twinId } es).contradictions.keys = ids := by
      have hmap := Json.arr.inj (Option.some.inj hids)
      exact List.map_injective_iff.2 (fun _ _ heq => Json.str.inj heq) hmap
    exact ((hreported id).1 (Std.ExtTreeMap.mem_keys.2 ((hdetected id).2 hfound))).2
  · intro hnone
    have hunresolved (id : String) : Detected es id ↔ Unresolved es id :=
      ⟨fun hfound => ⟨hfound, hnone id hfound⟩, fun hfound => hfound.1⟩
    have hkeyed : Keyed (replay { twinId := twinId } es).claims :=
      keyed_replay hlegal fun id claim hclaim => by simp at hclaim
    have hsourced : Sourced (replay { twinId := twinId } es).claims :=
      sourced_replay hlegal fun id claim hclaim => by simp at hclaim
    obtain ⟨plan, hplan, hgaps⟩ := plan_gaps elicitor hconsistent hsourced hobjective
    refine ⟨kernel_isOk hconsistent hkeyed _, fun _ _ _ artifact hartifact =>
      ⟨_, lossReport_of_compile hartifact, fun id => ?_⟩, ⟨plan, _, hplan, hgaps, fun id => ?_⟩,
      fun id => ?_⟩
    · rw [Std.ExtTreeMap.mem_keys, hdetected, hunresolved]
    · rw [← hopen, List.mem_map]
      constructor
      · rintro ⟨entry, hentry, rfl⟩
        obtain ⟨hmem, hnot⟩ := List.mem_filter.1 hentry
        refine ⟨mem_of_getElem? (mem_dict_toList.1 hmem), ?_⟩
        rwa [Bool.not_eq_true', ← Bool.not_eq_true, ← Std.ExtTreeSet.mem_iff_contains] at hnot
      · rintro ⟨hmem, hnot⟩
        obtain ⟨contradiction, hget⟩ := mem_iff_getElem?.1 hmem
        refine ⟨(id, contradiction), List.mem_filter.2 ⟨mem_dict_toList.2 hget, ?_⟩, rfl⟩
        rwa [Bool.not_eq_true', ← Bool.not_eq_true, ← Std.ExtTreeSet.mem_iff_contains]
    · rw [mem_contradiction_deficits, hopen]

/-- Two claims are proposed, and contradict each other. -/
def disputed : List EventEnvelope :=
  [eventOf "EvidenceIngested" .ingestService (evidencePayload "e1") "key-1",
   eventOf "ClaimProposed" .adjudicationWorker (claimPayload "c1" "e1") "key-2",
   eventOf "ClaimProposed" .adjudicationWorker (claimPayload "c2" "e1") "key-3",
   eventOf "ContradictionDetected" .adjudicationWorker (Payload.ofFields
     [("contradiction_id", .str "k1"), ("claim_ids", .arr [.str "c1", .str "c2"]),
      ("subject_id", .str "s"), ("basis", .str "incompatible")]) "key-4"]

/-- The first claim is upheld. -/
def upheld : EventEnvelope :=
  eventOf "ContradictionAdjudicated" .humanReview (Payload.ofFields
    [("contradiction_id", .str "k1"), ("subject_id", .str "s"),
     ("reviewer_identity_id", .str "reviewer"), ("resolution", .str "uphold"),
     ("rationale", .str "witnessed"), ("preferred_claim_ids", .arr [.str "c1"])]) "key-5"

omit [Digest] in
theorem oneNotion_disputed :
    let _ : Digest := checksumDigest
    OneNotion disputed (replay { twinId := "t" } disputed) {} "the weather" "t" := by
  intro digest
  have hfolded : folded { twinId := "t" } disputed = .ok (replay { twinId := "t" } disputed) :=
    folded_eq_ok.2 ⟨legal_of_folded (by decide +kernel), rfl⟩
  refine (oneNotion_iff hfolded {} (by decide +kernel) "t").2 fun id _ => ?_
  rintro ⟨e, he, hkind, -⟩
  have hnone : ∀ e ∈ disputed, e.kind ≠ .contradictionAdjudicated := by decide +kernel
  exact hnone e he hkind

omit [Digest] in
/-- **An adjudicated contradiction stays in the loss report**, when neither
a gap nor a deficit names it any longer. -/
theorem adjudicated_still_reported :
    let _ : Digest := checksumDigest
    let es := disputed ++ [upheld]
    let s := replay { twinId := "t" } es
    folded { twinId := "t" } es = .ok s ∧
      ¬ OneNotion es s {} "the weather" "t" ∧
      (KernelCompiler.lossReport s)["unresolved_contradiction_ids"]? = some (.arr [.str "k1"]) ∧
      ((GapDirectedElicitor.plan {} s "the weather" none).map fun plan =>
        plan.gaps.filter fun gap => gap.kind = .unresolvedContradiction) = .ok [] ∧
      (InProcessK2Facade.deficits "t" s s.degradedReasons).filter
        (fun d => d.kind = "unresolved_contradiction") = [] := by
  intro digest es s
  have hfolded : folded { twinId := "t" } es = .ok s :=
    folded_eq_ok.2 ⟨legal_of_folded (by decide +kernel), rfl⟩
  refine ⟨hfolded, fun hone => ?_, by decide +kernel, by decide +kernel, by decide +kernel⟩
  obtain ⟨artifact, hartifact⟩ := hone.compiles
  obtain ⟨ids, hids, hreported⟩ := hone.lossReport _ _ _ artifact hartifact
  rw [lossReport_of_compile hartifact] at hids
  have hmember : (Json.str "k1") ∈ ids.map Json.str := by
    rw [← Json.arr.inj (Option.some.inj hids)]
    decide +kernel
  obtain ⟨id, hid, heq⟩ := List.mem_map.1 hmember
  obtain rfl := Json.str.inj heq
  exact ((hreported "k1").1 hid).2
    ⟨upheld, List.mem_append_right _ (List.mem_singleton_self _), by decide +kernel,
      by decide +kernel⟩

end Agreement

end ArgoTwin
