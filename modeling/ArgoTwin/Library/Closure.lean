import Mathlib
/-!
# Recursive queries

`WITH RECURSIVE … UNION …` over a table of edges: rows wait in a queue,
a row met before is dropped, and each new row brings in the rows it has
an edge to. What is left is what the edges reach from the first rows.
The fuel is one step for each row that can ever wait, so it never runs
out.
-/

namespace ArgoTwin

namespace Library

variable {α : Type} [DecidableEq α]

/-- The rows `x` has an edge to. -/
def successors (edges : List (α × α)) (x : α) : List α :=
  (edges.filter fun edge => edge.1 = x).map (·.2)

/-- Works the queue off; `seen` is the result so far. -/
def explore (edges : List (α × α)) : Nat → List α → List α → List α
  | 0, _, seen => seen
  | _ + 1, [], seen => seen
  | fuel + 1, x :: queue, seen =>
    if x ∈ seen then explore edges fuel queue seen
    else explore edges fuel (queue ++ successors edges x) (seen ++ [x])

/-- The rows of the recursive query that starts from `rows`. -/
def closure (edges : List (α × α)) (rows : List α) : List α :=
  explore edges (rows.length + edges.length) rows []

variable {edges : List (α × α)} {x y : α}

theorem mem_successors : y ∈ successors edges x ↔ (x, y) ∈ edges := by
  simp [successors]

/-- What is seen stays seen. -/
theorem mem_explore_of_mem_seen {fuel : Nat} {queue seen : List α} (h : y ∈ seen) :
    y ∈ explore edges fuel queue seen := by
  induction fuel generalizing queue seen with
  | zero => exact h
  | succ fuel ih =>
    cases queue with
    | nil => exact h
    | cons x queue =>
      simp only [explore]
      split
      · exact ih h
      · exact ih (List.mem_append_left _ h)

/-- Every row of the result was there or is reached from the queue. -/
theorem explore_sound {fuel : Nat} {queue seen : List α} (h : y ∈ explore edges fuel queue seen) :
    y ∈ seen ∨ ∃ x ∈ queue, Relation.ReflTransGen (fun a b => (a, b) ∈ edges) x y := by
  induction fuel generalizing queue seen with
  | zero => exact .inl h
  | succ fuel ih =>
    cases queue with
    | nil => exact .inl h
    | cons x queue =>
      simp only [explore] at h
      split at h
      · obtain hy | ⟨z, hz, hreach⟩ := ih h
        · exact .inl hy
        · exact .inr ⟨z, List.mem_cons_of_mem _ hz, hreach⟩
      · obtain hy | ⟨z, hz, hreach⟩ := ih h
        · rcases List.mem_append.1 hy with hy | hy
          · exact .inl hy
          · rw [List.mem_singleton.1 hy]
            exact .inr ⟨x, List.mem_cons_self, .refl⟩
        · rcases List.mem_append.1 hz with hz | hz
          · exact .inr ⟨z, List.mem_cons_of_mem _ hz, hreach⟩
          · exact .inr ⟨x, List.mem_cons_self, .head (mem_successors.1 hz) hreach⟩

/-- A row is seen once. -/
theorem nodup_explore {fuel : Nat} {queue seen : List α} (h : seen.Nodup) :
    (explore edges fuel queue seen).Nodup := by
  induction fuel generalizing queue seen with
  | zero => exact h
  | succ fuel ih =>
    cases queue with
    | nil => exact h
    | cons x queue =>
      simp only [explore]
      split_ifs with hx
      · exact ih h
      · refine ih (List.nodup_append'.2 ⟨h, List.nodup_singleton x, ?_⟩)
        intro y hy hnew
        obtain rfl := List.mem_singleton.1 hnew
        exact hx hy

/-- The edges whose source is still to be seen. -/
def openEdges (edges : List (α × α)) (seen : List α) : List (α × α) :=
  edges.filter fun edge => edge.1 ∉ seen

/-- Seeing a row closes the edges it is the source of. -/
theorem length_openEdges_add (edges : List (α × α)) {seen : List α} (hx : x ∉ seen) :
    (openEdges edges (seen ++ [x])).length + (successors edges x).length =
      (openEdges edges seen).length := by
  induction edges with
  | nil => rfl
  | cons edge edges ih =>
    simp only [openEdges, successors, List.length_map] at ih ⊢
    by_cases hsource : edge.1 = x
    · simp [hsource, hx] at ih ⊢
      omega
    · by_cases hseen : edge.1 ∈ seen <;> simp [hsource, hseen] at ih ⊢ <;> omega

/-- **With a step for every waiting row and every open edge, the result
is closed**: it holds the queue, and the successors of every row it adds. -/
theorem explore_closed {fuel : Nat} {queue seen : List α}
    (hfuel : queue.length + (openEdges edges seen).length ≤ fuel) :
    (∀ x ∈ queue, x ∈ explore edges fuel queue seen) ∧
      ∀ x ∈ explore edges fuel queue seen, x ∉ seen →
        ∀ y, (x, y) ∈ edges → y ∈ explore edges fuel queue seen := by
  induction fuel generalizing queue seen with
  | zero =>
    obtain rfl : queue = [] := List.length_eq_zero_iff.1 (by omega)
    exact ⟨by simp, fun x hx hnew => absurd hx hnew⟩
  | succ fuel ih =>
    cases queue with
    | nil => exact ⟨by simp, fun x hx hnew => absurd hx hnew⟩
    | cons z queue =>
      rw [List.length_cons] at hfuel
      by_cases hz : z ∈ seen
      · obtain ⟨hqueue, hclosed⟩ := @ih queue seen (by omega)
        simp only [explore, hz, ↓reduceIte, List.forall_mem_cons]
        exact ⟨⟨mem_explore_of_mem_seen hz, hqueue⟩, hclosed⟩
      · have hopen := length_openEdges_add edges hz
        obtain ⟨hqueue, hclosed⟩ := @ih (queue ++ successors edges z) (seen ++ [z])
          (by rw [List.length_append]; omega)
        simp only [explore, hz, ↓reduceIte, List.forall_mem_cons]
        refine ⟨⟨mem_explore_of_mem_seen (by simp), fun x hx => hqueue x (by simp [hx])⟩, ?_⟩
        intro x hx hnew y hedge
        by_cases hxz : x = z
        · subst hxz
          exact hqueue y (List.mem_append_right _ (mem_successors.2 hedge))
        · exact hclosed x hx (by simp [hnew, hxz]) y hedge

/-- **The recursive query returns what the edges reach.** -/
theorem mem_closure {rows : List α} :
    y ∈ closure edges rows ↔
      ∃ x ∈ rows, Relation.ReflTransGen (fun a b => (a, b) ∈ edges) x y := by
  have hfuel : rows.length + (openEdges edges []).length ≤ rows.length + edges.length := by
    simp [openEdges]
  obtain ⟨hrows, hclosed⟩ := explore_closed hfuel
  constructor
  · intro h
    obtain hy | hy := explore_sound h
    · cases hy
    · exact hy
  · rintro ⟨x, hx, hreach⟩
    induction hreach with
    | refl => exact hrows x hx
    | tail _ hedge ih => exact hclosed _ ih (by simp) _ hedge

/-- **From all a row has an edge to**, the query returns what non-empty
paths reach. -/
theorem mem_closure_successors :
    y ∈ closure edges (successors edges x) ↔ Relation.TransGen (fun a b => (a, b) ∈ edges) x y := by
  rw [mem_closure]
  constructor
  · rintro ⟨z, hz, hreach⟩
    exact .head' (mem_successors.1 hz) hreach
  · intro hreach
    obtain ⟨z, hz, hrest⟩ := Relation.TransGen.head'_iff.1 hreach
    exact ⟨z, mem_successors.2 hz, hrest⟩

theorem nodup_closure {rows : List α} : (closure edges rows).Nodup := nodup_explore .nil

end Library

end ArgoTwin
