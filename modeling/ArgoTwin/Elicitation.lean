import ArgoTwin.Aggregate
/-!
# Gaps, and the questions that would close them

The elicitor reads a state and lists what its claims lack: independent
support, an adjudication, current evidence. Each gap gets a question; a
plan is the list of both, under identifiers derived from the state's
position, so that whoever holds the state can derive the plan again.
-/

namespace ArgoTwin

open Library

inductive GapKind where
  | missingClaim
  | independenceDeficit
  | contestedClaim
  | staleLineage
  | unresolvedContradiction
  deriving DecidableEq, Repr

def GapKind.value : GapKind → String
  | .missingClaim => "missing_claim"
  | .independenceDeficit => "independence_deficit"
  | .contestedClaim => "contested_claim"
  | .staleLineage => "stale_lineage"
  | .unresolvedContradiction => "unresolved_contradiction"

structure EpistemicGap where
  gapId : String
  kind : GapKind
  targetIds : List String
  rationale : String
  deriving DecidableEq

structure ElicitationQuestion where
  questionId : String
  gapId : String
  prompt : String
  requestedRelation : String
  deriving DecidableEq

structure ElicitationPlan where
  planId : String
  twinId : String
  sourceSequence : Int
  objective : String
  claimIds : List String
  gaps : List EpistemicGap
  questions : List ElicitationQuestion
  deriving DecidableEq

/-- The question of a plan under an identifier. -/
def ElicitationPlan.question (plan : ElicitationPlan) (questionId : String) :
    Except PyError ElicitationQuestion :=
  match plan.questions.find? fun question => question.questionId == questionId with
  | some question => .ok question
  | none => .error (.invariantViolation "question does not belong to elicitation plan")

/-- `text.strip()` leaves nothing. -/
def isBlank (text : String) : Bool := text.toList.all Json.isSpace

def maxElicitationAnswerBytes : Nat := 1024 * 1024

structure ElicitationResponse where
  responseId : String
  questionId : String
  answer : String
  sensitivity : Sensitivity
  answeredAt : DateTime
  identified : responseId ≠ "" ∧ questionId ≠ "" ∧ isBlank answer = false
  limited : answer.utf8ByteSize ≤ maxElicitationAnswerBytes
  aware : answeredAt.naive = false

/-- How many independent groups a claim is asked to have. -/
structure GapDirectedElicitor where
  minimumGroups : Nat := 2
  positive : 1 ≤ minimumGroups := by decide

namespace GapDirectedElicitor

variable [Digest]

/-- `_stable_id`. -/
def stableId (kind : String) (parts : List Json) : String :=
  kind ++ "-" ++ Digest.uuid5 (canonicalJson (.arr (.str kind :: parts)))

/-- `add_gap`: a gap, and the question that goes with it. -/
def gap (s : TwinState) (objective : String) (kind : GapKind) (targets : List String)
    (rationale prompt : String) (identityParts : List String) :
    EpistemicGap × ElicitationQuestion :=
  let gapId := stableId "gap"
    ([.str s.twinId, .int s.sequence, .str objective, .str kind.value] ++
      (targets ++ identityParts).map .str)
  (⟨gapId, kind, targets, rationale⟩,
    ⟨stableId "question" [.str gapId], gapId, prompt, "supports_or_refutes"⟩)

omit [Digest] in
/-- The independence groups of a claim's provenance. -/
def groupsOf (claim : Payload) : Except PyError IdSet := do
  let references ← (claim.listD "provenance").pyIter
  let named := references.filterMap fun reference =>
    match reference.get? "independence_group" with
    | some group => if group.truthy then some group.pyStr else none
    | none => none
  pure (.ofList named)

variable (elicitor : GapDirectedElicitor)

/-- What one claim lacks. -/
def claimGaps (s : TwinState) (objective : String) (claimId : String) :
    Except PyError (List (EpistemicGap × ElicitationQuestion)) := do
  let claim ← match s.claims[claimId]? with
    | some claim => pure claim
    | none => .error (.keyError claimId)
  let statement := claim.strD "statement" claimId
  let groups ← groupsOf claim
  pure <|
    (if groups.size < elicitor.minimumGroups then
      [gap s objective .independenceDeficit [claimId]
        ("Claim has " ++ toString groups.size ++ " independent group(s); " ++
          toString elicitor.minimumGroups ++ " required.")
        ("Provide an independent observation or source that supports or refutes: " ++ statement) []]
      else []) ++
    (if s.contestedClaimIds.contains claimId then
      [gap s objective .contestedClaim [claimId] "The claim remains contested."
        ("What evidence would distinguish the competing interpretations of: " ++ statement ++ "?")
        []]
      else []) ++
    (if s.staleClaimIds.contains claimId then
      [gap s objective .staleLineage [claimId]
        "The claim depends on deleted or superseded evidence."
        ("Can you provide current replacement evidence for: " ++ statement ++ "?") []]
      else [])

/-- What one contradiction lacks: an adjudication, unless there is one or
no claim asked about is at stake. -/
def contradictionGaps (s : TwinState) (objective : String) (claimIds : Option (List String))
    (contradiction : String × Payload) :
    Except PyError (List (EpistemicGap × ElicitationQuestion)) := do
  if s.resolvedContradictionIds.contains contradiction.1 then pure []
  else
    let items ← (contradiction.2.listD "claim_ids").pyIter
    let targets := (items.map Json.pyStr).insertionSort fun a b => a ≤ b
    let asked := match claimIds with
      | none => true
      | some ids => targets.any fun target => ids.contains target
    pure <| if asked then
      [gap s objective .unresolvedContradiction targets
        "Competing claims have not been adjudicated."
        ("What dated, firsthand, or independently sourced evidence resolves this " ++
          "contradiction?") [contradiction.1]]
      else []

omit [Digest] in
/-- The claims a plan is about, in order. -/
def selected (s : TwinState) : Option (List String) → List String
  | none => s.claims.keys
  | some ids => (Std.ExtTreeSet.ofList ids : IdSet).toList

def plan (s : TwinState) (objective : String) (claimIds : Option (List String)) :
    Except PyError ElicitationPlan :=
  if isBlank objective then
    .error (.invariantViolation "elicitation objective is required")
  else
    let selectedIds := selected s claimIds
    if selectedIds.any fun claimId => !s.claims.contains claimId then
      .error (.invariantViolation "elicitation target references an unknown claim")
    else do
      let unaddressed := if selectedIds = [] then
        [gap s objective .missingClaim [] "No claim currently addresses the objective."
          ("What firsthand observation or document would help establish: " ++ objective ++ "?") []]
        else []
      let ofClaims ← selectedIds.mapM (elicitor.claimGaps s objective)
      let ofContradictions ← s.contradictions.toList.mapM
        (contradictionGaps s objective (claimIds.map fun _ => selectedIds))
      let found := unaddressed ++ ofClaims.flatten ++ ofContradictions.flatten
      pure
        { planId := stableId "plan"
            ([.str s.twinId, .int s.sequence, .str objective, .int elicitor.minimumGroups] ++
              selectedIds.map .str)
          twinId := s.twinId
          sourceSequence := s.sequence
          objective := objective
          claimIds := selectedIds
          gaps := found.map (·.1)
          questions := found.map (·.2) }

/-- `verify_plan`: the plan is the one the state gives. -/
def verifyPlan (s : TwinState) (plan : ElicitationPlan) : Except PyError Unit :=
  if s.twinId ≠ plan.twinId ∨ s.sequence ≠ plan.sourceSequence then
    .error (.invariantViolation "elicitation plan source state is unavailable")
  else do
    let expected ← elicitor.plan s plan.objective (some plan.claimIds)
    if expected ≠ plan then
      .error (.invariantViolation "elicitation plan authenticity check failed")
    else .ok ()

end GapDirectedElicitor

end ArgoTwin
