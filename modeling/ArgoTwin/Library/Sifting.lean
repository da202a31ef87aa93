import Mathlib
/-!
# A queue worked off in batches

A round takes the first entries of a queue, as many as fit a batch, and
puts back in their places those that fail. Where the failures in front of
an entry fill a batch, no round ever comes to it; everything else is worked
off in as many rounds as there are entries (`all_bad_iff`).
-/

namespace ArgoTwin

namespace Library

variable {α : Type} {bad : α → Bool} {limit n : Nat} {q u v : List α} {x : α}

/-- One round. -/
def sift (bad : α → Bool) (limit : Nat) (q : List α) : List α :=
  (q.take limit).filter bad ++ q.drop limit

theorem sift_sublist : (sift bad limit q).Sublist q := by
  have hboth := (List.filter_sublist (p := bad) (l := q.take limit)).append
    (List.Sublist.refl (q.drop limit))
  rwa [List.take_append_drop] at hboth

/-- What the entries are called does not matter. -/
theorem sift_map {β : Type} {bad : β → Bool} {f : α → β} :
    sift bad limit (q.map f) = (sift (fun x => bad (f x)) limit q).map f := by
  rw [sift, sift, ← List.map_take, ← List.map_drop, List.filter_map, List.map_append]
  rfl

theorem iterate_sift_map {β : Type} {bad : β → Bool} {f : α → β} :
    (sift bad limit)^[n] (q.map f) = ((sift (fun x => bad (f x)) limit)^[n] q).map f := by
  induction n generalizing q with
  | zero => rfl
  | succ n ih => rw [Function.iterate_succ_apply, Function.iterate_succ_apply, sift_map, ih]

theorem iterate_sift_sublist : ((sift bad limit)^[n] q).Sublist q := by
  induction n generalizing q with
  | zero => exact List.Sublist.refl q
  | succ n ih =>
    rw [Function.iterate_succ_apply]
    exact ih.trans sift_sublist

/-- A round that works anything off shortens the queue. -/
theorem sift_eq_or_lt (bad : α → Bool) (limit : Nat) (q : List α) :
    (∀ x ∈ q.take limit, bad x = true) ∧ sift bad limit q = q ∨
      (sift bad limit q).length < q.length := by
  by_cases hall : ∀ x ∈ q.take limit, bad x = true
  · refine .inl ⟨hall, ?_⟩
    rw [sift, List.filter_eq_self.2 hall, List.take_append_drop]
  · refine .inr ?_
    have hshorter : ((q.take limit).filter bad).length < (q.take limit).length := by
      push Not at hall
      exact List.length_filter_lt_length_iff_exists.2 hall
    have hwhole : (q.take limit).length + (q.drop limit).length = q.length := by
      rw [← List.length_append, List.take_append_drop]
    rw [sift, List.length_append]
    omega

/-- After as many rounds as there are entries the batch holds failures only. -/
theorem settled_iterate (bad : α → Bool) (limit : Nat) (hn : q.length ≤ n) :
    ∀ x ∈ ((sift bad limit)^[n] q).take limit, bad x = true := by
  induction n generalizing q with
  | zero =>
    obtain rfl := List.length_eq_zero_iff.1 (Nat.le_zero.1 hn)
    simp
  | succ n ih =>
    rw [Function.iterate_succ_apply]
    rcases sift_eq_or_lt bad limit q with ⟨hall, hsame⟩ | hlt
    · rw [hsame, Function.iterate_fixed hsame]
      exact hall
    · exact ih (by omega)

/-- A good entry that is left stood behind the batch, and behind as many
failures as before. -/
theorem split_of_sift (hx : bad x = false) (h : sift bad limit q = u ++ x :: v) :
    ∃ u', q = u' ++ x :: v ∧ u'.countP bad = u.countP bad := by
  rw [sift, List.append_eq_append_iff] at h
  rcases h with ⟨w, hu, hdrop⟩ | ⟨w, htake, hw⟩
  · refine ⟨q.take limit ++ w, ?_, ?_⟩
    · rw [List.append_assoc, ← hdrop, List.take_append_drop]
    · rw [hu, List.countP_append, List.countP_append, List.countP_filter]
      simp
  · cases w with
    | nil =>
      refine ⟨q.take limit, ?_, ?_⟩
      · rw [List.nil_append] at hw
        rw [hw, List.take_append_drop]
      · rw [List.append_nil] at htake
        rw [← htake, List.countP_filter]
        simp
    | cons y w =>
      -- then it would be one of the failures put back
      obtain ⟨rfl, -⟩ := List.cons.inj hw
      have hmem : x ∈ (q.take limit).filter bad := by
        rw [htake]
        exact List.mem_append_right _ List.mem_cons_self
      rw [(List.mem_filter.1 hmem).2] at hx
      cases hx

theorem split_of_iterate (hx : bad x = false) (h : (sift bad limit)^[n] q = u ++ x :: v) :
    ∃ u' v', q = u' ++ x :: v' ∧ u'.countP bad = u.countP bad := by
  induction n generalizing q with
  | zero => exact ⟨u, v, h, rfl⟩
  | succ n ih =>
    rw [Function.iterate_succ_apply] at h
    obtain ⟨u₁, v₁, hfirst, hcount⟩ := ih h
    obtain ⟨u₂, hbefore, hsame⟩ := split_of_sift hx hfirst
    exact ⟨u₂, v₁, hbefore, hsame.trans hcount⟩

/-- An entry behind a batch of failures is never come to. -/
theorem blocked_iterate (h : limit ≤ u.countP bad) :
    ∃ u', (sift bad limit)^[n] (u ++ x :: v) = u' ++ x :: v ∧ limit ≤ u'.countP bad := by
  induction n generalizing u with
  | zero => exact ⟨u, rfl, h⟩
  | succ n ih =>
    have hlength : limit ≤ u.length := h.trans List.countP_le_length
    have hround : sift bad limit (u ++ x :: v) =
        ((u.take limit).filter bad ++ u.drop limit) ++ x :: v := by
      rw [sift, List.take_append_of_le_length hlength, List.drop_append_of_le_length hlength,
        List.append_assoc]
    have hcount : ((u.take limit).filter bad ++ u.drop limit).countP bad = u.countP bad := by
      rw [List.countP_append, List.countP_filter]
      simp only [Bool.and_self]
      rw [← List.countP_append, List.take_append_drop]
    rw [Function.iterate_succ_apply, hround]
    exact ih (hcount ▸ h)

/-- **What is worked off**: all but the failures, where none of the others
has a batch of failures before it. -/
theorem all_bad_iff (hn : q.length ≤ n) :
    (∀ x ∈ (sift bad limit)^[n] q, bad x = true) ↔
      ∀ u x v, q = u ++ x :: v → bad x = false → u.countP bad < limit := by
  constructor
  · rintro hall u x v rfl hx
    by_contra hblocked
    obtain ⟨u', hleft, -⟩ := blocked_iterate (n := n) (x := x) (v := v) (not_lt.1 hblocked)
    have hbad := hall x (by rw [hleft]; exact List.mem_append_right _ List.mem_cons_self)
    rw [hx] at hbad
    cases hbad
  · intro hroom x hmem
    by_contra hgood
    have hx : bad x = false := by simpa using hgood
    obtain ⟨u, v, hleft⟩ := List.append_of_mem hmem
    have hsettled := settled_iterate bad limit hn
    rw [hleft] at hsettled
    obtain ⟨u', v', hbefore, hcount⟩ := split_of_iterate hx hleft
    have hfew := hroom u' x v' hbefore hx
    -- so the batch reaches the entry
    have hreached : u.length < limit := by
      by_contra hfar
      have htake : (u ++ x :: v).take limit = u.take limit :=
        List.take_append_of_le_length (not_lt.1 hfar)
      rw [htake] at hsettled
      have hfull : (u.take limit).countP bad = limit := by
        rw [List.countP_eq_length.2 hsettled, List.length_take]
        omega
      have hle : (u.take limit).countP bad ≤ u.countP bad := (List.take_sublist _ _).countP_le
      omega
    refine absurd (hsettled x ?_) (by rw [hx]; exact Bool.false_ne_true)
    rw [List.take_append, List.mem_append]
    refine .inr ?_
    obtain ⟨k, hk⟩ : ∃ k, limit - u.length = k + 1 := ⟨limit - u.length - 1, by omega⟩
    rw [hk, List.take_succ_cons]
    exact List.mem_cons_self

end Library

end ArgoTwin
