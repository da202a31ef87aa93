import ArgoTwin.Service
/-!
# Lineage

What a node came from and what was made of it, by the dependency index: two
recursive queries over the edges there were at a sequence, and the
evidence among what they find, grouped by how independent it is.
-/

namespace ArgoTwin

open Library

inductive EpistemicNodeKind where
  | evidence
  | entity
  | claim
  | contradiction
  | correction
  | projection
  deriving DecidableEq, Repr

namespace EpistemicNodeKind

def value : EpistemicNodeKind → String
  | .evidence => "evidence"
  | .entity => "entity"
  | .claim => "claim"
  | .contradiction => "contradiction"
  | .correction => "correction"
  | .projection => "projection"

def ofValue (text : String) : Except PyError EpistemicNodeKind :=
  match [evidence, entity, claim, contradiction, correction, projection].find?
      fun kind => kind.value == text with
  | some kind => .ok kind
  | none => .error (.valueError ("'" ++ text ++ "' is not a valid EpistemicNodeKind"))

end EpistemicNodeKind

structure LineageNode where
  kind : EpistemicNodeKind
  nodeId : String
  deriving DecidableEq

/-- The constructor, with its check. -/
def LineageNode.new (kind : EpistemicNodeKind) (nodeId : String) : Except PyError LineageNode :=
  if nodeId = "" then .error (.invariantViolation "lineage node_id is required")
  else .ok ⟨kind, nodeId⟩

structure LineageTrace where
  twinId : String
  root : LineageNode
  ancestors : List LineageNode
  dependents : List LineageNode
  evidenceByIndependenceGroup : List (String × List String)
  deriving DecidableEq

namespace Store

/-- The edges of one twin that were there at a sequence. -/
def graphUpTo (s : Store) (twinId : String) (cutoff : Int) : List (Node × Node) :=
  (s.dependencies.filter fun row => row.twinId = twinId ∧ row.createdSequence ≤ cutoff).map fun row =>
    ((row.sourceKind, row.sourceId), (row.dependentKind, row.dependentId))

/-- All that edges lead to from a node, however indirectly. -/
def reached (edges : List (Node × Node)) (node : Node) : List Node :=
  byNode (closure edges (successors edges node))

/-- The greatest sequence SQLite keeps. -/
def lastSequence : Int := 2 ^ 63 - 1

/-- `dependents`, transitively. -/
def dependents (s : Store) (twinId : String) (source : Node) (upToSequence : Option Int) :
    Except PyError (List Node) :=
  match EpistemicNodeKind.ofValue source.1 with
  | .error _ => .error (.valueError "source_kind is not a supported lineage kind")
  | .ok _ =>
    let cutoff := upToSequence.getD lastSequence
    if cutoff < 0 then .ok []
    else do
      let cutoff ← bindInteger cutoff
      pure (reached (s.graphUpTo twinId cutoff) source)

/-- `ancestors`, transitively: the same along the edges backwards. -/
def ancestors (s : Store) (twinId : String) (dependent : Node) (upToSequence : Option Int) :
    Except PyError (List Node) :=
  match EpistemicNodeKind.ofValue dependent.1 with
  | .error _ => .error (.valueError "dependent_kind is not a supported lineage kind")
  | .ok _ =>
    let cutoff := upToSequence.getD lastSequence
    if cutoff < 0 then .ok []
    else do
      let cutoff ← bindInteger cutoff
      pure (reached ((s.graphUpTo twinId cutoff).map Prod.swap) dependent)

end Store

namespace LineageTracer

/-- A row of a query as a node. -/
def node (row : Store.Node) : Except PyError LineageNode := do
  LineageNode.new (← EpistemicNodeKind.ofValue row.1) row.2

/-- The evidence under each independence group it names. -/
def grouped (s : TwinState) (evidenceIds : IdSet) : List (String × List String) :=
  let groups : Dict (List String) := evidenceIds.toList.foldl (fun groups evidenceId =>
    match s.evidence[evidenceId]? with
    | none => groups
    | some evidence =>
      let group := evidence.strD "independence_group" ""
      if group = "" then groups
      else groups.insert group (groups[group]?.getD [] ++ [evidenceId])) ∅
  groups.toList

def trace (store : Store) (s : TwinState) (root : LineageNode) : Except PyError LineageTrace := do
  let start : Store.Node := (root.kind.value, root.nodeId)
  let ancestors ← (← store.ancestors s.twinId start (some s.sequence)).mapM node
  let dependents ← (← store.dependents s.twinId start (some s.sequence)).mapM node
  let evidenceIds : List String :=
    ((ancestors ++ [root]).filter fun node => node.kind = .evidence).map (·.nodeId)
  pure ⟨s.twinId, root, ancestors, dependents, grouped s (.ofList evidenceIds)⟩

end LineageTracer

/-- `trace_lineage`. -/
def Service.traceLineage [Digest] (svc : Service) (twinId : String) (kind : EpistemicNodeKind)
    (nodeId : String) (asOfRecorded : Option DateTime) : Service.Method LineageTrace := do
  let state ← svc.stateAsOf twinId none asOfRecorded
  let root ← fromExcept (LineageNode.new kind nodeId)
  fromExcept (LineageTracer.trace (← get).store state root)

end ArgoTwin
