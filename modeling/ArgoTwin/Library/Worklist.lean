import Mathlib
/-!
# Working off a tree

A tree is walked without recursion: its nodes wait on a list, each with the
depth it was met at, and whoever takes one off puts its children on. The
walk stops early where it has met too many nodes or one too deep. Nothing
is asked of the order the nodes are taken in: any order ends, and all of
them end alike, as the size and the height of the tree decide.
-/

namespace ArgoTwin

namespace Library

variable {α : Type}

/-- The nodes that wait, and how many were met before them. -/
structure Worklist (α : Type) where
  pending : List (α × Nat)
  visited : Nat

namespace Worklist

/-- What a tree's size and height are, by its children's. -/
structure Sized (children : α → List α) (size height : α → Nat) : Prop where
  size_eq : ∀ a, size a = ((children a).map size).sum + 1
  height_pos : ∀ a, 0 < height a
  height_le : ∀ a n, height a ≤ n + 1 ↔ ∀ b ∈ children a, height b ≤ n

/-- How many nodes a walk takes, and how deep. -/
structure Limits where
  nodes : Nat
  depth : Nat

/-- The limits do not stop a walk at a node of this depth. -/
def Limits.Admit (limits : Limits) (w : Worklist α) (depth : Nat) : Prop :=
  w.visited + 1 ≤ limits.nodes ∧ depth ≤ limits.depth

variable {children : α → List α} {size height : α → Nat} {limits : Limits} {w w' : Worklist α}

/-- The walk that begins at a node. -/
def start (a : α) : Worklist α := ⟨[(a, 1)], 0⟩

/-- A node is taken, wherever it waits, and its children wait for it, in
whatever order. -/
inductive Visit (children : α → List α) (limits : Limits) : Worklist α → Worklist α → Prop where
  | mk {w : Worklist α} {a : α} {depth : Nat} {rest after : List (α × Nat)}
      (taken : w.pending.Perm ((a, depth) :: rest)) (admitted : limits.Admit w depth)
      (left : after.Perm (((children a).map fun b => (b, depth + 1)) ++ rest)) :
      Visit children limits w ⟨after, w.visited + 1⟩

/-- A node that waits is one too many, or too deep. -/
def Stopped (limits : Limits) (w : Worklist α) : Prop :=
  ∃ x ∈ w.pending, ¬ limits.Admit w x.2

/-- What waits, with all below it, stays within the limits. -/
structure Fits (size height : α → Nat) (limits : Limits) (w : Worklist α) : Prop where
  nodes : w.visited + (w.pending.map fun x => size x.1).sum ≤ limits.nodes
  depth : ∀ x ∈ w.pending, x.2 + height x.1 ≤ limits.depth + 1

/-- **A visit neither spends nor gains**: what is left fits as what there
was did. -/
theorem Visit.fits_iff (hsized : Sized children size height) (h : Visit children limits w w') :
    Fits size height limits w' ↔ Fits size height limits w := by
  obtain ⟨htaken, hadmitted, hleft⟩ := h
  rename_i a depth rest after
  have hsum : (w.pending.map fun x => size x.1).sum =
      size a + (rest.map fun x => size x.1).sum := by
    rw [(htaken.map _).sum_eq, List.map_cons, List.sum_cons]
  have hsum' : (after.map fun x => size x.1).sum =
      ((children a).map size).sum + (rest.map fun x => size x.1).sum := by
    rw [(hleft.map _).sum_eq, List.map_append, List.sum_append, List.map_map]
    rfl
  have hsize := hsized.size_eq a
  have hheight : depth + height a ≤ limits.depth + 1 ↔
      ∀ b ∈ children a, depth + 1 + height b ≤ limits.depth + 1 := by
    obtain ⟨n, hn⟩ : ∃ n, limits.depth = depth + n := Nat.exists_eq_add_of_le hadmitted.2
    have hchildren := hsized.height_le a n
    constructor
    · intro hle b hb
      have hchild := hchildren.1 (by omega) b hb
      omega
    · intro hall
      have hle := hchildren.2 fun b hb => by have := hall b hb; omega
      omega
  constructor
  · rintro ⟨hnodes, hdepth⟩
    simp only at hnodes hdepth
    refine ⟨by omega, fun x hx => ?_⟩
    rcases List.mem_cons.1 (htaken.mem_iff.1 hx) with rfl | hrest
    · refine hheight.2 fun b hb => hdepth (b, depth + 1) (hleft.mem_iff.2 ?_)
      exact List.mem_append_left _ (List.mem_map.2 ⟨b, hb, rfl⟩)
    · exact hdepth x (hleft.mem_iff.2 (List.mem_append_right _ hrest))
  · rintro ⟨hnodes, hdepth⟩
    refine ⟨by simp only; omega, fun x hx => ?_⟩
    rcases List.mem_append.1 (hleft.mem_iff.1 hx) with hchild | hrest
    · obtain ⟨b, hb, rfl⟩ := List.mem_map.1 hchild
      exact hheight.1 (hdepth (a, depth) (htaken.mem_iff.2 List.mem_cons_self)) b hb
    · exact hdepth x (htaken.mem_iff.2 (List.mem_cons_of_mem _ hrest))

/-- **Over a walk**, in whatever order. -/
theorem fits_iff_of_walk (hsized : Sized children size height)
    (h : Relation.ReflTransGen (Visit children limits) w w') :
    Fits size height limits w' ↔ Fits size height limits w := by
  induction h with
  | refl => rfl
  | tail _ hvisit ih => exact (hvisit.fits_iff hsized).trans ih

/-- What fits is not stopped. -/
theorem Fits.not_stopped (hsized : Sized children size height)
    (h : Fits size height limits w) : ¬ Stopped limits w := by
  rintro ⟨x, hx, hnot⟩
  have hsize : size x.1 ≤ (w.pending.map fun x => size x.1).sum :=
    List.single_le_sum (fun _ _ => Nat.zero_le _) _ (List.mem_map.2 ⟨x, hx, rfl⟩)
  have hone := hsized.size_eq x.1
  have hpos := hsized.height_pos x.1
  have hdepth := h.depth x hx
  have hnodes := h.nodes
  exact hnot ⟨by omega, by omega⟩

/-- **Every order ends**: each visit takes a node off the tree. -/
theorem wellFounded_visit (hsized : Sized children size height) :
    WellFounded fun w' w => Visit children limits w w' := by
  refine Subrelation.wf ?_ (measure fun w : Worklist α => (w.pending.map fun x => size x.1).sum).wf
  rintro w' w ⟨htaken, hadmitted, hleft⟩
  rename_i a depth rest after
  change (after.map fun x => size x.1).sum < (w.pending.map fun x => size x.1).sum
  rw [(hleft.map _).sum_eq, (htaken.map _).sum_eq, List.map_append, List.sum_append, List.map_map,
    List.map_cons, List.sum_cons]
  have hsize : size (a, depth).1 = ((children a).map size).sum + 1 := hsized.size_eq a
  have hchildren : ((children a).map ((fun x => size x.1) ∘ fun b => (b, depth + 1))).sum =
      ((children a).map size).sum := rfl
  omega

/-- A walk meets no more nodes than it may. -/
theorem visited_le_of_walk (h : Relation.ReflTransGen (Visit children limits) w w')
    (hw : w.visited ≤ limits.nodes) : w'.visited ≤ limits.nodes := by
  induction h with
  | refl => exact hw
  | tail _ hvisit _ =>
    obtain ⟨-, hadmitted, -⟩ := hvisit
    exact hadmitted.1

/-- **All orders end alike.** A walk that has nothing left to do had a tree
within the limits, and one that is stopped had not. -/
theorem walk_ends (hsized : Sized children size height) {a : α}
    (h : Relation.ReflTransGen (Visit children limits) (start a) w) :
    (w.pending = [] → size a ≤ limits.nodes ∧ height a ≤ limits.depth) ∧
    (Stopped limits w → ¬ (size a ≤ limits.nodes ∧ height a ≤ limits.depth)) := by
  have hstart : Fits size height limits (start a) ↔
      size a ≤ limits.nodes ∧ height a ≤ limits.depth := by
    constructor
    · rintro ⟨hnodes, hdepth⟩
      have hroot : 1 + height a ≤ limits.depth + 1 := hdepth (a, 1) List.mem_cons_self
      simp only [start, List.map_cons, List.map_nil, List.sum_cons, List.sum_nil] at hnodes
      omega
    · rintro ⟨hnodes, hdepth⟩
      refine ⟨by simpa [start] using hnodes, fun x hx => ?_⟩
      obtain rfl := List.mem_singleton.1 hx
      change 1 + height a ≤ limits.depth + 1
      omega
  have hvisited : w.visited ≤ limits.nodes := visited_le_of_walk h (Nat.zero_le _)
  rw [← hstart, ← fits_iff_of_walk hsized h]
  refine ⟨fun hempty => ⟨by simpa [hempty] using hvisited, by simp [hempty]⟩, ?_⟩
  exact fun hstopped hfits => hfits.not_stopped hsized hstopped

end Worklist

end Library

end ArgoTwin
