import ArgoTwin.Elicitation
import ArgoTwin.Service
/-!
# Simulations

A branch is forked from a state and kept apart from the ledger: events of
the simulation plane are appended to it, and what they predict is gathered
into a proposal for a human to review.
-/

namespace ArgoTwin

open Library

structure SimulationBranch where
  branchId : String
  twinId : String
  baseSequence : Int
  scenario : String
  events : List EventEnvelope := []
  predictedState : Payload := ∅
  deriving DecidableEq

namespace SimulationBranch

/-- `predicted_state.update(changes)`, where the event has changes to tell. -/
def predicted (branch : SimulationBranch) (event : EventEnvelope) : Payload :=
  match event.payload["predicted_state"]? with
  | some (.obj fields) =>
    fields.foldl (fun state field => state.insert field.1 field.2) branch.predictedState
  | _ => branch.predictedState

def append (branch : SimulationBranch) (event : EventEnvelope) (actor : ActorContext) :
    Except PyError SimulationBranch := do
  EventOwnershipPolicy.authorize event actor
  if event.plane ≠ .simulation then
    .error (.invariantViolation "simulation branch accepts simulation-plane events only")
  else if event.twinId ≠ branch.twinId then
    .error (.invariantViolation "simulation event belongs to a different twin")
  else
    .ok { branch with
      events := branch.events ++ [event], predictedState := branch.predicted event }

end SimulationBranch

namespace SimulationEngine

/-- `fork`, with the fresh identifier of the branch. -/
def fork (state : TwinState) (scenario branchId : String) : Except PyError SimulationBranch :=
  if isBlank scenario then .error (.invariantViolation "simulation scenario is required")
  else .ok
    { branchId := branchId
      twinId := state.twinId
      baseSequence := state.sequence
      scenario := scenario }

/-- A proposal to review, never evidence. -/
def proposalPayload (branch : SimulationBranch) : Payload :=
  Payload.ofFields
    [("branch_id", .str branch.branchId), ("base_sequence", .int branch.baseSequence),
     ("scenario", .str branch.scenario), ("predicted_state", .ofPayload branch.predictedState),
     ("simulation_event_ids", .arr (branch.events.map fun event => .str event.eventId)),
     ("requires_human_review", .bool true), ("may_not_be_used_as_evidence", .bool true)]

end SimulationEngine

/-- `fork_simulation`. -/
def Service.forkSimulation [Digest] (svc : Service) (twinId scenario branchId : String)
    (actor : ActorContext) : Service.Method SimulationBranch := do
  fromExcept (EventOwnershipPolicy.authorizeIntent "ScenarioStatePredicted" .simulationService actor)
  let state ← svc.state twinId
  fromExcept (EventOwnershipPolicy.authorizeSubject actor state.subjectId)
  fromExcept (SimulationEngine.fork state scenario branchId)

end ArgoTwin
