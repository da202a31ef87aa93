import Mathlib
/-!
# Texts joined by a separator

Two parts joined by a separator can be told apart again only where the
separator is in neither. `joined_eq_iff` says which pairs are joined to
one text: those where a part of the one ends, or begins, with what the
other has beyond the separator.
-/

namespace ArgoTwin

namespace Library

section Delimited

variable {α : Type} {sep : α} {a b a' b' : List α}

/-- **Which pairs are joined to one text**: the same pair, or two where
one separator stands inside the first part of the one and inside the
second part of the other. -/
theorem joined_eq_iff : a ++ sep :: b = a' ++ sep :: b' ↔ (a = a' ∧ b = b') ∨
    ∃ m, (a' = a ++ sep :: m ∧ b = m ++ sep :: b') ∨
      (a = a' ++ sep :: m ∧ b' = m ++ sep :: b) := by
  -- one of the first parts is a beginning of the other
  have hshift : ∀ {a b a' b' beyond : List α}, a' = a ++ beyond →
      sep :: b = beyond ++ sep :: b' → (a = a' ∧ b = b') ∨
        ∃ m, a' = a ++ sep :: m ∧ b = m ++ sep :: b' := by
    intro a b a' b' beyond ha hb
    cases beyond with
    | nil =>
      rw [List.nil_append, List.cons.injEq] at hb
      rw [List.append_nil] at ha
      exact .inl ⟨ha.symm, hb.2⟩
    | cons c m =>
      rw [List.cons_append, List.cons.injEq] at hb
      obtain ⟨rfl, hb⟩ := hb
      exact .inr ⟨m, ha, hb⟩
  constructor
  · intro h
    rcases List.append_eq_append_iff.1 h with ⟨beyond, ha, hb⟩ | ⟨beyond, ha, hb⟩
    · rcases hshift ha hb with hsame | ⟨m, hm⟩
      · exact .inl hsame
      · exact .inr ⟨m, .inl hm⟩
    · rcases hshift ha hb with ⟨ha, hb⟩ | ⟨m, hm⟩
      · exact .inl ⟨ha.symm, hb.symm⟩
      · exact .inr ⟨m, .inr hm⟩
  · rintro (⟨rfl, rfl⟩ | ⟨m, ⟨rfl, rfl⟩ | ⟨rfl, rfl⟩⟩)
    · rfl
    · simp
    · simp

/-- **A text written out between quotes is not the same text joined to
another**: what precedes the first separator of the one is longer. -/
theorem quoted_ne_joined [DecidableEq α] (start : List α) {write : α → List α}
    (hstart : sep ∉ start) (hnonempty : start ≠ [])
    (hwrite : ∀ c, c ≠ sep → write c ≠ [] ∧ sep ∉ write c) (l rest more : List α) :
    start ++ (l.flatMap write ++ rest) ≠ l ++ sep :: more := by
  -- what precedes the first separator
  let before : List α → List α := List.takeWhile fun c => decide (c ≠ sep)
  have hbefore : ∀ u v : List α, sep ∉ u → before (u ++ v) = u ++ before v := by
    intro u v hu
    refine List.takeWhile_append_of_pos fun c hc => ?_
    rw [decide_eq_true_eq]
    rintro rfl
    exact hu hc
  have hlonger : ∀ l : List α,
      (before (l ++ sep :: more)).length ≤ (before (l.flatMap write ++ rest)).length := by
    intro l
    induction l with
    | nil => simp [before]
    | cons c l ih =>
      by_cases hc : c = sep
      · simp [before, hc]
      · obtain ⟨hwritten, hno⟩ := hwrite c hc
        have hpos : 0 < (write c).length := List.length_pos_of_ne_nil hwritten
        have hleft : before (c :: l ++ sep :: more) = [c] ++ before (l ++ sep :: more) :=
          hbefore [c] _ (by simpa using Ne.symm hc)
        rw [List.flatMap_cons, List.append_assoc, hbefore _ _ hno, hleft, List.length_append,
          List.length_append, List.length_singleton]
        omega
  intro h
  have hlength := congrArg (fun text => (before text).length) h
  have hpos : 0 < start.length := List.length_pos_of_ne_nil hnonempty
  have := hlonger l
  simp only [hbefore _ _ hstart, List.length_append] at hlength
  omega

end Delimited

end Library

end ArgoTwin
