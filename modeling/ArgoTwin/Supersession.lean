import ArgoTwin.Disclosure
import ArgoTwin.Library.Chains
import ArgoTwin.Library.Runs
/-!
# What was superseded in favour of what

A supersession puts a claim in another's place, a correction a claim or a
piece of evidence. Each record is superseded once at most, so the edges
make chains; the correction looks that its replacement is live, the
supersession does not, and may close a chain into a cycle.
-/

namespace ArgoTwin

open Library TwinAggregate

/-- What can be superseded. -/
inductive RecordId where
  | evidence (id : String)
  | claim (id : String)
  deriving DecidableEq

/-- What the event supersedes, and in favour of what. -/
def replaces (e : EventEnvelope) : Option (RecordId × RecordId) :=
  match e.kind with
  | .claimSuperseded =>
    some (.claim (idOf e.payload "claim_id"), .claim (idOf e.payload "successor_claim_id"))
  | .correctionRecorded =>
    if correctsEvidence e.payload then
      some (.evidence (idOf e.payload "target_id"), .evidence (idOf e.payload "replacement_id"))
    else some (.claim (idOf e.payload "target_id"), .claim (idOf e.payload "replacement_id"))
  | _ => none

/-- `x` was superseded in favour of `y`. -/
def InFavourOf (es : List EventEnvelope) (x y : RecordId) : Prop :=
  ∃ e ∈ es, replaces e = some (x, y)

/-- The record is superseded. -/
def Superseded (s : TwinState) : RecordId → Prop
  | .evidence id => id ∈ s.supersededEvidenceIds
  | .claim id => id ∈ s.supersededClaimIds

/-- **Chains that end**: no record supersedes itself, however indirectly,
and from each the successors lead to one that is not superseded. -/
structure WellFoundedSupersession (es : List EventEnvelope) (s : TwinState) : Prop where
  acyclic : Acyclic (InFavourOf es)
  ends : ∀ x, ∃ y, Relation.ReflTransGen (InFavourOf es) x y ∧ ¬ Superseded s y

/-- What a supersession has to meet: its successor does not lead back to
the record it supersedes. A correction's replacement is live, so there the
two have to differ. -/
def Forward (es : List EventEnvelope) (e : EventEnvelope) : Prop :=
  match e.kind with
  | .claimSuperseded => ¬ Relation.ReflTransGen (InFavourOf es)
      (.claim (idOf e.payload "successor_claim_id")) (.claim (idOf e.payload "claim_id"))
  | .correctionRecorded => idOf e.payload "target_id" ≠ idOf e.payload "replacement_id"
  | _ => True

variable {s : TwinState} {e : EventEnvelope} {es : List EventEnvelope} {x y : RecordId}
variable {twinId : String}

/-- An event supersedes what it replaces, and no more. -/
theorem superseded_effect :
    Superseded (effect e s) x ↔ Superseded s x ∨ ∃ y, replaces e = some (x, y) := by
  have hkind : Superseded (effectKind e s) x ↔ Superseded s x ∨ ∃ y, replaces e = some (x, y) := by
    unfold effectKind replaces
    cases e.kind with
    | claimSuperseded =>
      cases x with
      | evidence id => simp [Superseded]
      | claim id => simp [Superseded, or_comm]
    | correctionRecorded =>
      simp only
      split <;> cases x with
      | evidence id => simp [Superseded, bound, or_comm]
      | claim id => simp [Superseded, markCiting, bound, or_comm]
    | contradictionDetected =>
      simp only
      rw [boundIfNamed_eq]
      cases x <;> simp [Superseded]
    | _ => cases x <;> simp [Superseded, bound, markCiting]
  cases x <;> exact hkind

/-- The superseded records are those with an edge. -/
theorem superseded_replay :
    Superseded (replay { twinId := twinId } es) x ↔ ∃ y, InFavourOf es x y := by
  induction es using List.reverseRecOn with
  | nil => cases x <;> simp [Superseded, InFavourOf]
  | append_singleton es e ih =>
    rw [replay_concat, superseded_effect, ih]
    simp only [InFavourOf, List.mem_append, List.mem_singleton, or_and_right, exists_or,
      exists_eq_left]

/-- What is superseded was not before, and a correction's replacement is
not either. -/
theorem live_of_replaces (haccepts : Accepts e s) (h : replaces e = some (x, y)) :
    ¬ Superseded s x ∧ (e.kind = .correctionRecorded → ¬ Superseded s y) := by
  have hallowed := haccepts.2.2
  unfold replaces at h
  unfold Allowed at hallowed
  split at h
  · rename_i hkind
    simp only [hkind] at hallowed
    obtain ⟨rfl, rfl⟩ := Prod.mk.inj (Option.some.inj h)
    exact ⟨hallowed.2.2.2.2.1, fun habsurd => by rw [hkind] at habsurd; cases habsurd⟩
  · rename_i hkind
    simp only [hkind] at hallowed
    obtain ⟨-, -, -, -, hlive, -⟩ := hallowed
    split at h
    · rename_i hevidence
      rw [hevidence] at hlive
      obtain ⟨rfl, rfl⟩ := Prod.mk.inj (Option.some.inj h)
      exact ⟨hlive.1, fun _ => hlive.2⟩
    · rename_i hclaim
      rw [Bool.not_eq_true] at hclaim
      rw [hclaim] at hlive
      obtain ⟨rfl, rfl⟩ := Prod.mk.inj (Option.some.inj h)
      exact ⟨hlive.1, fun _ => hlive.2⟩
  · cases h

theorem inFavourOf_concat_none (h : replaces e = none) :
    InFavourOf (es ++ [e]) = InFavourOf es := by
  funext x y
  simp [InFavourOf, or_and_right, exists_or, h]

theorem inFavourOf_concat_some (h : replaces e = some (x, y)) :
    InFavourOf (es ++ [e]) = withEdge (InFavourOf es) x y := by
  funext x' y'
  simp only [InFavourOf, List.mem_append, List.mem_singleton, or_and_right, exists_or,
    exists_eq_left, h, withEdge, Option.some.injEq, Prod.mk.injEq, @eq_comm _ x', @eq_comm _ y']

/-- The two ways to say that chains end. -/
theorem ends_iff : Ends (InFavourOf es) ↔ ∀ x, ∃ y,
    Relation.ReflTransGen (InFavourOf es) x y ∧ ¬ Superseded (replay { twinId := twinId } es) y := by
  simp only [Ends, superseded_replay, not_exists]

/-- Where the two differ, a live replacement leads nowhere. -/
theorem forward_iff (haccepts : Accepts e (replay { twinId := twinId } es))
    (h : replaces e = some (x, y)) :
    Forward es e ↔ ¬ Relation.ReflTransGen (InFavourOf es) y x := by
  have hlive := (live_of_replaces haccepts h).2
  unfold replaces at h
  unfold Forward
  split at h
  · rename_i hkind
    obtain ⟨rfl, rfl⟩ := Prod.mk.inj (Option.some.inj h)
    rfl
  · rename_i hkind
    have hend : ∀ z, ¬ InFavourOf es y z := fun z hedge =>
      hlive hkind (superseded_replay.2 ⟨z, hedge⟩)
    have hleads : Relation.ReflTransGen (InFavourOf es) y x ↔ y = x := by
      constructor
      · intro hpath
        rcases hpath.cases_head with heq | ⟨z, hedge, -⟩
        · exact heq
        · exact absurd hedge (hend z)
      · rintro rfl
        exact .refl
    rw [hleads]
    split at h <;>
      obtain ⟨rfl, rfl⟩ := Prod.mk.inj (Option.some.inj h) <;>
      simp [@eq_comm _ (idOf e.payload "replacement_id")]
  · cases h

/-- **One event keeps the chains ending exactly when it goes forward.** -/
theorem wellFounded_concat (haccepts : Accepts e (replay { twinId := twinId } es))
    (h : WellFoundedSupersession es (replay { twinId := twinId } es)) :
    WellFoundedSupersession (es ++ [e]) (replay { twinId := twinId } (es ++ [e])) ↔
      Forward es e := by
  have hends : Ends (InFavourOf es) := ends_iff.2 h.ends
  cases hreplaces : replaces e with
  | none =>
    have hsame : InFavourOf (es ++ [e]) = InFavourOf es := inFavourOf_concat_none hreplaces
    refine iff_of_true ⟨by rw [hsame]; exact h.acyclic, ends_iff.1 (by rw [hsame]; exact hends)⟩ ?_
    unfold replaces at hreplaces
    unfold Forward
    split at hreplaces
    · cases hreplaces
    · split at hreplaces <;> cases hreplaces
    · rename_i hsupersession hcorrection
      cases hkind : e.kind with
      | claimSuperseded => exact absurd hkind hsupersession
      | correctionRecorded => exact absurd hkind hcorrection
      | _ => trivial
  | some edge =>
    obtain ⟨x, y⟩ := edge
    have hsame : InFavourOf (es ++ [e]) = withEdge (InFavourOf es) x y :=
      inFavourOf_concat_some hreplaces
    rw [forward_iff haccepts hreplaces]
    constructor
    · intro hafter
      have hacyclic := hafter.acyclic
      rwa [hsame, acyclic_withEdge h.acyclic] at hacyclic
    · intro hback
      refine ⟨?_, ends_iff.1 ?_⟩
      · rw [hsame]
        exact (acyclic_withEdge h.acyclic).2 hback
      · rw [hsame]
        exact ends_withEdge hends hback

/-- The events read so far, as the states of a machine. -/
theorem run_concat (es : List EventEnvelope) :
    run (fun read e => read ++ [e]) ([] : List EventEnvelope) es = es := by
  induction es using List.reverseRecOn with
  | nil => rfl
  | append_singleton es e ih =>
    have hstep : run (fun read e => read ++ [e]) [] (es ++ [e]) =
        run (fun read e => read ++ [e]) [] es ++ [e] := by
      simp [run]
    rw [hstep, ih]

/-- **Supersession is well founded exactly when it goes forward.** Over the
events `apply` accepts from nothing, at every position the chains are free
of cycles and lead to records that are not superseded, just when no claim
was superseded in favour of one that leads back to it, and no correction
names its target as its own replacement. -/
theorem supersession_wellFounded_iff {s : TwinState}
    (h : folded { twinId := twinId } es = .ok s) :
    (∀ n, WellFoundedSupersession (es.take n) (replay { twinId := twinId } (es.take n))) ↔
      ∀ n e, es[n]? = some e → Forward (es.take n) e := by
  have hlegal : Legal { twinId := twinId } es := (folded_eq_ok.1 h).1
  have hstart : WellFoundedSupersession [] (replay { twinId := twinId } []) := by
    refine ⟨fun x hcycle => ?_, fun x => ⟨x, .refl, by cases x <;> simp [Superseded]⟩⟩
    obtain ⟨y, ⟨e, he, -⟩, -⟩ := Relation.TransGen.head'_iff.1 hcycle
    cases he
  -- a run reads the events one by one; what is known is that `apply` took them
  have haccepted : ∀ n e, es[n]? = some e → Accepts e (replay { twinId := twinId }
      (run (fun read e => read ++ [e]) [] (es.take n))) := by
    intro n e he
    rw [run_concat]
    exact legal_iff.1 hlegal n e he
  have key := always_iff (fun read e => read ++ [e])
    (Legal { twinId := twinId })
    (fun read => WellFoundedSupersession read (replay { twinId := twinId } read))
    (fun read e => Accepts e (replay { twinId := twinId } read)) Forward
    (show Legal { twinId := twinId } [] from trivial) hstart
    (fun read e hread haccepts => legal_concat.2 ⟨hread, haccepts⟩)
    (fun read e _ haccepts hwell => wellFounded_concat haccepts hwell)
    haccepted
  simpa only [run_concat] using key

/-- A supersession of one claim by another. -/
def supersessionPayload (claimId successorId : String) : Payload :=
  Payload.ofFields [("claim_id", .str claimId), ("successor_claim_id", .str successorId)]

/-- Two claims, superseded in favour of each other. -/
def crossed : List EventEnvelope :=
  [eventOf "EvidenceIngested" .ingestService (evidencePayload "e1") "key-1",
   eventOf "ClaimProposed" .adjudicationWorker (claimPayload "c1" "e1") "key-2",
   eventOf "ClaimProposed" .adjudicationWorker (claimPayload "c2" "e1") "key-3",
   eventOf "ClaimSuperseded" .humanReview (supersessionPayload "c1" "c2") "key-4",
   eventOf "ClaimSuperseded" .humanReview (supersessionPayload "c2" "c1") "key-5"]

/-- **Two claims that supersede each other**: neither chain ends. -/
theorem crossed_supersession :
    (folded { twinId := "t" } crossed).toOption.isSome = true ∧
      ¬ WellFoundedSupersession crossed (replay { twinId := "t" } crossed) := by
  refine ⟨by decide +kernel, fun hwell => hwell.acyclic (.claim "c1") ?_⟩
  have hthere : InFavourOf crossed (.claim "c1") (.claim "c2") :=
    ⟨_, List.mem_of_getElem? (show crossed[3]? = some _ from rfl), by decide +kernel⟩
  have hback : InFavourOf crossed (.claim "c2") (.claim "c1") :=
    ⟨_, List.mem_of_getElem? (show crossed[4]? = some _ from rfl), by decide +kernel⟩
  exact .tail (.single hthere) hback

theorem supersession_wellFounded_iff_crossed :
    (∀ n, WellFoundedSupersession (crossed.take n)
        (replay { twinId := "t" } (crossed.take n))) ↔
      ∀ n e, crossed[n]? = some e → Forward (crossed.take n) e :=
  supersession_wellFounded_iff
    (folded_eq_ok.2 ⟨legal_of_folded (by decide +kernel), rfl⟩)

end ArgoTwin
