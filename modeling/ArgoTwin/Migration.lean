import ArgoTwin.DependencyIndex
/-!
# Rebuilding the dependency index

A store whose index is of an older version drops it as it is opened and
replays its events into an empty one, twin by twin, over an invalidation
queue that keeps its rows. Each edge is put down again by the first event
that has it, and each deletion finds all that it reaches queued already.
-/

namespace ArgoTwin

open Library TwinAggregate

namespace Store

/-- The event types that are replayed. -/
def replayedTypes : List String :=
  ["EntityLinked", "ClaimProposed", "ClaimSuperseded", "ContradictionDetected",
   "CorrectionRecorded", "ProjectionIssued", "EvidenceDeleted"]

/-- `ORDER BY twin_id, sequence`. -/
def byTwin (rows : List EventEnvelope) : List EventEnvelope :=
  rows.insertionSort fun a b =>
    a.twinId < b.twinId ∨ (a.twinId = b.twinId ∧ a.sequence ≤ b.sequence)

/-- The rows a migration replays, in its order. -/
def replayed (s : Store) : List EventEnvelope :=
  byTwin (s.events.filter fun row => replayedTypes.contains row.eventType)

/-- One round of the replay. -/
def reindex (row : EventEnvelope) : Method Unit := do
  indexDependencies (← fromExcept (rowToEvent row))

/-- `_migrate_dependency_index`, by the version `dt_adapter_metadata` holds
of the index; it returns the version held after it. -/
def migrateDependencyIndex (marker : Option String) : Method (Option String) :=
  if marker = some "v2" then pure marker
  else transaction do
    modify fun s => { s with dependencies := [] }
    (replayed (← get)).forM reindex
    pure (some "v2")

variable {s : Store} {twinId : String} {row : EventEnvelope}

theorem mem_replayed : row ∈ s.replayed ↔ row ∈ s.events ∧ row.eventType ∈ replayedTypes := by
  have hperm : row ∈ s.replayed ↔
      row ∈ s.events.filter fun row => replayedTypes.contains row.eventType :=
    (List.perm_insertionSort _ _).mem_iff
  rw [hperm, List.mem_filter, List.contains_iff_mem]

instance : Std.Total (fun a b : EventEnvelope => a.sequence ≤ b.sequence) :=
  ⟨fun a b => Int.le_total a.sequence b.sequence⟩

instance : IsTrans EventEnvelope (fun a b => a.sequence ≤ b.sequence) :=
  ⟨fun _ _ _ => Int.le_trans⟩

variable [Digest]

end Store

variable [Digest] {h : History}

omit [Digest]

end ArgoTwin
