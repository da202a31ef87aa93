import ArgoTwin.JsonText
import ArgoTwin.Lifecycle
import ArgoTwin.ServiceRuns
import ArgoTwin.SourceRecords
/-!
# Plans that outlive their moment

A plan names what the state it was made of lacks, under identifiers that
tell the gaps apart. Whoever rebuilds that state derives the plan again,
whatever came after it; a plan nobody can derive is refused before
anything of it is kept.
-/

namespace ArgoTwin

open Library TwinAggregate

namespace GapDirectedElicitor

/-! ## The identifiers -/

variable [Digest]

/-- The claims a contradiction is about, in order. -/
def targetsOf (contradiction : Payload) : List String :=
  (((contradiction.listD "claim_ids").pyIter.toOption.getD []).map Json.pyStr).insertionSort
    fun a b => a ≤ b

variable {elicitor : GapDirectedElicitor} {s : TwinState} {objective : String}
variable {claimIds : Option (List String)} {found : List (EpistemicGap × ElicitationQuestion)}

/-- The plan that lists some gaps. -/
def listing (elicitor : GapDirectedElicitor) (s : TwinState) (objective : String)
    (selectedIds : List String) (found : List (EpistemicGap × ElicitationQuestion)) :
    ElicitationPlan :=
  { planId := stableId "plan"
      ([.str s.twinId, .int s.sequence, .str objective, .int elicitor.minimumGroups] ++
        selectedIds.map .str)
    twinId := s.twinId
    sourceSequence := s.sequence
    objective := objective
    claimIds := selectedIds
    gaps := found.map (·.1)
    questions := found.map (·.2) }

/-- Where nothing is selected, the objective itself is a gap. -/
def unaddressed (s : TwinState) (objective : String) (selectedIds : List String) :
    List (EpistemicGap × ElicitationQuestion) :=
  if selectedIds = [] then
    [gap s objective .missingClaim [] "No claim currently addresses the objective."
      ("What firsthand observation or document would help establish: " ++ objective ++ "?") []]
  else []

/-- **A plan**, and what it lists. -/
theorem plan_eq_ok {plan : ElicitationPlan} : elicitor.plan s objective claimIds = .ok plan ↔
    isBlank objective = false ∧ (∀ claimId ∈ selected s claimIds, claimId ∈ s.claims) ∧
      ∃ ofClaims ofContradictions,
        (selected s claimIds).mapM (elicitor.claimGaps s objective) = .ok ofClaims ∧
        s.contradictions.toList.mapM (contradictionGaps s objective
          (claimIds.map fun _ => selected s claimIds)) = .ok ofContradictions ∧
        plan = elicitor.listing s objective (selected s claimIds)
          (unaddressed s objective (selected s claimIds) ++ ofClaims.flatten ++
            ofContradictions.flatten) := by
  by_cases hblank : isBlank objective = true
  · rw [GapDirectedElicitor.plan, if_pos hblank]
    exact iff_of_false nofun fun h => by simp [hblank] at h
  by_cases hunknown : ((selected s claimIds).any fun claimId => !s.claims.contains claimId) = true
  · rw [GapDirectedElicitor.plan, if_neg hblank]
    dsimp only
    rw [if_pos hunknown]
    refine iff_of_false nofun fun h => ?_
    obtain ⟨claimId, hclaim, hnot⟩ := List.any_eq_true.1 hunknown
    have hknown : s.claims.contains claimId = true := h.2.1 claimId hclaim
    simp [hknown] at hnot
  · have hknown : ∀ claimId ∈ selected s claimIds, claimId ∈ s.claims := by
      simpa using hunknown
    rw [GapDirectedElicitor.plan, if_neg hblank]
    dsimp only
    rw [if_neg hunknown]
    constructor
    · intro h
      obtain ⟨ofClaims, hclaims, h⟩ := bind_eq_ok.1 h
      obtain ⟨ofContradictions, hcontradictions, h⟩ := bind_eq_ok.1 h
      cases h
      exact ⟨Bool.eq_false_of_not_eq_true hblank, hknown, ofClaims, ofContradictions, hclaims,
        hcontradictions, rfl⟩
    · rintro ⟨-, -, ofClaims, ofContradictions, hclaims, hcontradictions, rfl⟩
      exact bind_eq_ok.2 ⟨ofClaims, hclaims, bind_eq_ok.2 ⟨ofContradictions, hcontradictions, rfl⟩⟩

/-! ## Distinct gaps -/

end GapDirectedElicitor

namespace GapDirectedElicitor

/-! ## The states a stream replays to -/

variable {s : TwinState} {e : EventEnvelope} {es : List EventEnvelope}

variable {store : Store} {twinId : String} {n : Nat}

end GapDirectedElicitor

/-! ## Plans over a run -/

section Durable

variable [Digest] {svc : Service} {env : Surroundings} {p p' q : Process}
variable {twinId objective : String} {claimIds : Option (List String)} {plan : ElicitationPlan}

end Durable

end ArgoTwin
