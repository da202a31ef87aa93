import ArgoTwin.Json
import ArgoTwin.Errors
import ArgoTwin.Library.Effects
import ArgoTwin.Library.Worklist
/-!
# The shape of a telemetry record

A record's payload is walked before anything else reads it: it may have so
many nodes and be nested so deep, and no more. The nodes wait on a stack,
and the walk's verdict is the one the size and the depth of the value
give, whatever order they come off it.
-/

namespace ArgoTwin

open Library

namespace Json

/-! ## The size and the depth of a value -/

/-- What a value holds directly. -/
def children : Json → List Json
  | .arr items => items
  | .obj fields => fields.map (·.2)
  | _ => []

mutual

/-- Every object, array and scalar, each time it occurs. -/
def nodes : Json → Nat
  | .arr items => nodesItems items + 1
  | .obj fields => nodesFields fields + 1
  | _ => 1

def nodesItems : List Json → Nat
  | [] => 0
  | item :: rest => nodes item + nodesItems rest

def nodesFields : List (String × Json) → Nat
  | [] => 0
  | (_, value) :: rest => nodes value + nodesFields rest

end

mutual

/-- How deep a value is nested; a scalar has depth 1. -/
def depth : Json → Nat
  | .arr items => depthItems items + 1
  | .obj fields => depthFields fields + 1
  | _ => 1

def depthItems : List Json → Nat
  | [] => 0
  | item :: rest => max (depth item) (depthItems rest)

def depthFields : List (String × Json) → Nat
  | [] => 0
  | (_, value) :: rest => max (depth value) (depthFields rest)

end

variable {items : List Json} {fields : List (String × Json)} {n : Nat}

theorem nodesItems_eq : nodesItems items = (items.map nodes).sum := by
  induction items with
  | nil => rfl
  | cons item items ih => rw [nodesItems, ih, List.map_cons, List.sum_cons]

theorem nodesFields_eq : nodesFields fields = ((fields.map (·.2)).map nodes).sum := by
  induction fields with
  | nil => rfl
  | cons field fields ih => rw [nodesFields, ih, List.map_cons, List.map_cons, List.sum_cons]

theorem depthItems_le : depthItems items ≤ n ↔ ∀ item ∈ items, depth item ≤ n := by
  induction items with
  | nil => simp [depthItems]
  | cons item items ih => simp [depthItems, ih]

theorem depthFields_le : depthFields fields ≤ n ↔ ∀ value ∈ fields.map (·.2), depth value ≤ n := by
  induction fields with
  | nil => simp [depthFields]
  | cons field fields ih => simp [depthFields, ih]

/-- Both are what the children's are, and one more. -/
theorem sized : Worklist.Sized children nodes depth where
  size_eq value := by
    cases value with
    | arr items => rw [nodes, nodesItems_eq, children]
    | obj fields => rw [nodes, nodesFields_eq, children]
    | _ => rfl
  height_pos value := by
    cases value <;> exact Nat.succ_pos _
  height_le value n := by
    cases value with
    | arr items => rw [depth, Nat.add_le_add_iff_right, depthItems_le, children]
    | obj fields => rw [depth, Nat.add_le_add_iff_right, depthFields_le, children]
    | _ => simp [depth, children]

end Json

namespace Telemetry

/-! ## The walk -/

/-- `_MAX_JSON_NODES` and `_MAX_JSON_DEPTH`. -/
def maxJson : Worklist.Limits := ⟨100000, 64⟩

/-- How many nodes wait, with all below them. -/
def waiting (pending : List (Json × Nat)) : Nat := (pending.map fun x => x.1.nodes).sum

/-- A node off the list, and its children on it, is one node less. -/
theorem waiting_children {value : Json} {depth : Nat} {pending : List (Json × Nat)} :
    waiting ((value.children.map fun item => (item, depth + 1)).reverse ++ pending) <
      waiting ((value, depth) :: pending) := by
  have hsize : (value, depth).1.nodes = (value.children.map Json.nodes).sum + 1 :=
    Json.sized.size_eq value
  have hchildren : (value.children.map ((fun x : Json × Nat => x.1.nodes) ∘
      fun item => (item, depth + 1))).sum = (value.children.map Json.nodes).sum := rfl
  rw [waiting, waiting, List.map_append, List.sum_append, List.map_reverse, List.sum_reverse,
    List.map_map, List.map_cons, List.sum_cons]
  omega

/-- `_validate_json_shape` with its counters; the last of `pending` in the
source comes first here. The keys of a decoded object are strings. -/
def validateFrom (pending : List (Json × Nat)) (visited : Nat) : Except PyError Unit :=
  match pending with
  | [] => .ok ()
  | (value, depth) :: rest =>
    if visited + 1 > maxJson.nodes then .error (.valueError "JSON node limit exceeded")
    else if depth > maxJson.depth then .error (.valueError "JSON depth limit exceeded")
    else validateFrom ((value.children.map fun item => (item, depth + 1)).reverse ++ rest)
      (visited + 1)
termination_by waiting pending
decreasing_by exact waiting_children

/-- `_validate_json_shape`. -/
def validateJsonShape (root : Json) : Except PyError Unit := validateFrom [(root, 1)] 0

/-- The stack is one order of the walk: it ends with nothing left, or
stopped. -/
theorem validateFrom_walks (pending : List (Json × Nat)) (visited : Nat) :
    ∃ w, Relation.ReflTransGen (Worklist.Visit Json.children maxJson) ⟨pending, visited⟩ w ∧
    (validateFrom pending visited = .ok () ∧ w.pending = [] ∨
      (∃ error, validateFrom pending visited = .error error) ∧ Worklist.Stopped maxJson w) := by
  induction pending, visited using validateFrom.induct with
  | case1 visited => exact ⟨_, .refl, .inl ⟨by rw [validateFrom], rfl⟩⟩
  | case2 visited value depth rest hnodes =>
    refine ⟨_, .refl, .inr ⟨⟨_, by rw [validateFrom, if_pos hnodes]⟩, (value, depth),
      List.mem_cons_self, fun hadmitted => ?_⟩⟩
    exact absurd hadmitted.1 (by simpa using hnodes)
  | case3 visited value depth rest hnodes hdepth =>
    refine ⟨_, .refl, .inr ⟨⟨_, by rw [validateFrom, if_neg hnodes, if_pos hdepth]⟩, (value, depth),
      List.mem_cons_self, fun hadmitted => ?_⟩⟩
    exact absurd hadmitted.2 (by simpa using hdepth)
  | case4 visited value depth rest hnodes hdepth ih =>
    obtain ⟨w, hwalk, hends⟩ := ih
    have hvisit : Worklist.Visit Json.children maxJson ⟨(value, depth) :: rest, visited⟩
        ⟨(value.children.map fun item => (item, depth + 1)).reverse ++ rest, visited + 1⟩ :=
      .mk (.refl _) ⟨Nat.not_lt.1 hnodes, Nat.not_lt.1 hdepth⟩
        ((List.reverse_perm _).append_right rest)
    refine ⟨w, hwalk.head hvisit, ?_⟩
    rw [validateFrom, if_neg hnodes, if_neg hdepth]
    exact hends

/-- **The shape check is exact.** It raises where a value has more nodes,
or is nested deeper, than it may, and nowhere else; taking the nodes in
any other order ends too, and ends alike. -/
theorem jsonShape_exact (value : Json) :
    ((∃ error, validateJsonShape value = .error error) ↔
      100000 < value.nodes ∨ 64 < value.depth) ∧
    (WellFounded fun w' w => Worklist.Visit Json.children maxJson w w') ∧
    ∀ w, Relation.ReflTransGen (Worklist.Visit Json.children maxJson) (Worklist.start value) w →
      (w.pending = [] → ¬ (100000 < value.nodes ∨ 64 < value.depth)) ∧
      (Worklist.Stopped maxJson w → 100000 < value.nodes ∨ 64 < value.depth) := by
  have hlimits : value.nodes ≤ maxJson.nodes ∧ value.depth ≤ maxJson.depth ↔
      ¬ (100000 < value.nodes ∨ 64 < value.depth) := by
    rw [not_or, Nat.not_lt, Nat.not_lt]
    rfl
  have hends : ∀ w, Relation.ReflTransGen (Worklist.Visit Json.children maxJson)
      (Worklist.start value) w →
      (w.pending = [] → ¬ (100000 < value.nodes ∨ 64 < value.depth)) ∧
      (Worklist.Stopped maxJson w → 100000 < value.nodes ∨ 64 < value.depth) := by
    intro w hwalk
    obtain ⟨hdone, hstopped⟩ := Worklist.walk_ends Json.sized hwalk
    rw [hlimits] at hdone hstopped
    exact ⟨hdone, fun h => not_not.1 (hstopped h)⟩
  refine ⟨?_, Worklist.wellFounded_visit Json.sized, hends⟩
  obtain ⟨w, hwalk, hends'⟩ := validateFrom_walks [(value, 1)] 0
  rw [validateJsonShape]
  rcases hends' with ⟨hok, hempty⟩ | ⟨herror, hstopped⟩
  · refine iff_of_false ?_ ((hends w hwalk).1 hempty)
    rintro ⟨error, herror⟩
    rw [hok] at herror
    cases herror
  · exact iff_of_true herror ((hends w hwalk).2 hstopped)

end Telemetry

end ArgoTwin
