import Mathlib
/-!
# Taking the oldest of what is due

Of the entries of a table that are due, a removal takes the oldest, as many
as it may. One that goes by another reading of what is due takes the same
where the two readings agree on the table, or where both leave more than
it may take (`takesOldest_iff`).
-/

namespace ArgoTwin

namespace Library

variable {α : Type} {key : α → Int} {early due : α → Bool} {n : Nat} {l taken : List α}

/-- Only what is due, as much of it as there is up to `n`, and nothing
later than what is left. -/
structure TakesOldest (key : α → Int) (due : α → Bool) (n : Nat) (l taken : List α) : Prop where
  only : ∀ a ∈ taken, due a = true
  count : taken.length = min n (l.countP due)
  oldest : ∀ a ∈ taken, ∀ b ∈ l, due b = true → b ∉ taken → key a ≤ key b

/-- The first `n` in the order of age. -/
theorem takesOldest_sorted {le : α → α → Prop} [DecidableRel le]
    (hsorted : ((l.filter due).insertionSort le).Pairwise fun a b => key a ≤ key b) :
    TakesOldest key due n l (((l.filter due).insertionSort le).take n) where
  only a ha := by
    have hmem := (List.mem_insertionSort le).1 (List.mem_of_mem_take ha)
    exact (List.mem_filter.1 hmem).2
  count := by
    rw [List.length_take, List.length_insertionSort, List.countP_eq_length_filter]
  oldest a ha b hb hdue hleft := by
    have hmem : b ∈ (l.filter due).insertionSort le :=
      (List.mem_insertionSort le).2 (List.mem_filter.2 ⟨hb, hdue⟩)
    rw [← List.take_append_drop n ((l.filter due).insertionSort le)] at hsorted hmem
    have hlater := (List.mem_append.1 hmem).resolve_left hleft
    exact (List.pairwise_append.1 hsorted).2.2 a ha b hlater

/-- In whatever order they are taken. -/
theorem TakesOldest.perm {taken' : List α} (h : TakesOldest key due n l taken)
    (hperm : taken.Perm taken') : TakesOldest key due n l taken' where
  only a ha := h.only a (hperm.mem_iff.2 ha)
  count := hperm.length_eq ▸ h.count
  oldest a ha b hb hdue hleft :=
    h.oldest a (hperm.mem_iff.2 ha) b hb hdue fun hmem => hleft (hperm.mem_iff.1 hmem)

/-- Two lists without repetition, one in the other. -/
theorem length_le_of_subset {a b : List α} (ha : a.Nodup) (h : a ⊆ b) : a.length ≤ b.length :=
  (List.subperm_of_subset ha h).length_le

/-- As long, and so the same entries. -/
theorem subset_of_length_eq {a b : List α} (ha : a.Nodup) (h : a ⊆ b)
    (hlength : b.length ≤ a.length) : b ⊆ a :=
  ((List.subperm_of_subset ha h).perm_of_length_le hlength).symm.subset

/-- **Two readings of what is due**, that follow the age where they meet. -/
theorem takesOldest_iff (hl : l.Nodup) (hsub : taken ⊆ l) (hnodup : taken.Nodup)
    (htaken : TakesOldest key early n l taken)
    (hearly : ∀ a ∈ l, ∀ b ∈ l, due a = true → early b = true → key a ≤ key b → early a = true)
    (hdue : ∀ a ∈ l, ∀ b ∈ l, early a = true → due b = true → key a ≤ key b → due a = true) :
    TakesOldest key due n l taken ↔
      (∀ a ∈ l, early a = due a) ∨ (n ≤ l.countP early ∧ n ≤ l.countP due) := by
  have hcount := htaken.count
  constructor
  · intro h
    by_cases hboth : n ≤ l.countP early ∧ n ≤ l.countP due
    · exact .inr hboth
    have hsame := hcount.symm.trans h.count
    have hequal : l.countP early = l.countP due ∧ l.countP early ≤ taken.length := by omega
    -- everything that reads as due was taken, and so is due
    have hall : l.filter early ⊆ taken := by
      refine subset_of_length_eq hnodup (fun a ha => ?_) ?_
      · exact List.mem_filter.2 ⟨hsub ha, htaken.only a ha⟩
      · rw [← List.countP_eq_length_filter]
        exact hequal.2
    have hin : l.filter early ⊆ l.filter due := by
      intro a ha
      exact List.mem_filter.2 ⟨(List.mem_filter.1 ha).1, h.only a (hall ha)⟩
    have hout : l.filter due ⊆ l.filter early := by
      refine subset_of_length_eq (hl.filter _) hin ?_
      rw [← List.countP_eq_length_filter, ← List.countP_eq_length_filter]
      omega
    refine .inl fun a ha => ?_
    rw [Bool.eq_iff_iff]
    constructor
    · exact fun hread => (List.mem_filter.1 (hin (List.mem_filter.2 ⟨ha, hread⟩))).2
    · exact fun hread => (List.mem_filter.1 (hout (List.mem_filter.2 ⟨ha, hread⟩))).2
  · rintro (hsame | ⟨hearlies, hdues⟩)
    · have hcounts : l.countP early = l.countP due :=
        List.countP_congr fun a ha => by rw [hsame a ha]
      refine ⟨fun a ha => ?_, hcounts ▸ hcount, fun a ha b hb hb' => ?_⟩
      · rw [← hsame a (hsub ha)]
        exact htaken.only a ha
      · exact htaken.oldest a ha b hb (by rw [hsame b hb]; exact hb')
    · refine ⟨fun a ha => ?_, by omega, fun a ha b hb hb' hleft => ?_⟩
      · by_contra hnot
        -- then all that is due is older, was taken, and is one entry too few
        have htook : ∀ b ∈ l, due b = true → b ∈ taken := by
          intro b hb hb'
          have holder : key b < key a := by
            by_contra hlater
            exact hnot (hdue a (hsub ha) b hb (htaken.only a ha) hb' (not_lt.1 hlater))
          by_contra hleft
          have hread := hearly b hb a (hsub ha) hb' (htaken.only a ha) (le_of_lt holder)
          exact absurd (htaken.oldest a ha b hb hread hleft) (not_le.2 holder)
        have hfew : (a :: l.filter due).length ≤ taken.length := by
          refine length_le_of_subset ?_ ?_
          · exact List.nodup_cons.2 ⟨fun h => hnot (List.mem_filter.1 h).2, hl.filter _⟩
          · intro b hb
            rcases List.mem_cons.1 hb with rfl | hb
            · exact ha
            · exact htook b (List.mem_filter.1 hb).1 (List.mem_filter.1 hb).2
        rw [List.length_cons, ← List.countP_eq_length_filter] at hfew
        omega
      · by_cases hread : early b = true
        · exact htaken.oldest a ha b hb hread hleft
        · by_contra hlater
          exact hread (hearly b hb a (hsub ha) hb' (htaken.only a ha) (le_of_lt (not_le.1 hlater)))

end Library

end ArgoTwin
