import Mathlib
/-!
# Runs of a state machine

A machine is a step function on states, whose labels carry every choice:
which party moves, what it reads off the clock, what fails. `Reachable`
is every state some run passes through, under a condition on the steps
taken; an invariant is shown once for a step and holds of them all.
-/

namespace ArgoTwin

namespace Library

variable {State Label : Type}

/-- The states runs from `init` pass through when each step meets `ok`. -/
inductive Reachable (step : State → Label → State) (ok : State → Label → Prop)
    (init : State) : State → Prop
  | init : Reachable step ok init init
  | step {s : State} (l : Label) : Reachable step ok init s → ok s l →
      Reachable step ok init (step s l)

/-- A condition every step meets. -/
def anyStep : State → Label → Prop := fun _ _ => True

/-- The state a list of labels leads to. -/
def run (step : State → Label → State) (s : State) (ls : List Label) : State :=
  ls.foldl step s

variable {step : State → Label → State} {ok : State → Label → Prop} {init : State}

/-- **The invariant rule.** -/
theorem Reachable.invariant {I : State → Prop} (h0 : I init)
    (hstep : ∀ s l, I s → ok s l → I (step s l)) {s : State}
    (h : Reachable step ok init s) : I s := by
  induction h with
  | init => exact h0
  | step l _ hok ih => exact hstep _ l ih hok

/-- A weaker condition reaches more. -/
theorem Reachable.mono {ok' : State → Label → Prop} (hok : ∀ s l, ok s l → ok' s l)
    {s : State} (h : Reachable step ok init s) : Reachable step ok' init s := by
  induction h with
  | init => exact .init
  | step l _ hl ih => exact .step l ih (hok _ l hl)

/-- Runs compose. -/
theorem Reachable.trans {s t : State} (h : Reachable step ok init s)
    (h' : Reachable step ok s t) : Reachable step ok init t := by
  induction h' with
  | init => exact h
  | step l _ hl ih => exact .step l ih hl

/-- A list of labels allowed in every state is a run. -/
theorem reachable_run_of {ls : List Label} (hok : ∀ l ∈ ls, ∀ s, ok s l) :
    Reachable step ok init (run step init ls) := by
  have key : ∀ ls : List Label, (∀ l ∈ ls, ∀ s, ok s l) → ∀ s, Reachable step ok init s →
      Reachable step ok init (run step s ls) := by
    intro ls
    induction ls with
    | nil => exact fun _ s h => h
    | cons l ls ih =>
      intro hall s h
      exact ih (fun l' hl' => hall l' (List.mem_cons_of_mem _ hl')) _
        (.step l h (hall l List.mem_cons_self s))
  exact key ls hok init .init

/-- Where every step is allowed, every list of labels is a run. -/
theorem reachable_run (ls : List Label) :
    Reachable step anyStep init (run step init ls) :=
  reachable_run_of fun _ _ _ => trivial

theorem run_take_succ {ls : List Label} {n : Nat} {l : Label} (h : ls[n]? = some l) :
    run step init (ls.take (n + 1)) = step (run step init (ls.take n)) l := by
  obtain ⟨hlt, hget⟩ := List.getElem?_eq_some_iff.1 h
  rw [run, List.take_succ_eq_append_getElem hlt, hget, List.foldl_append]
  rfl

/-- **From one moment of a run to a later one**: what every call in between
keeps. -/
theorem run_between {I : State → Prop} {ls : List Label} {i j : Nat} (hij : i ≤ j)
    (hI : I (run step init (ls.take i)))
    (hstep : ∀ k l, i ≤ k → k < j → ls[k]? = some l → I (run step init (ls.take k)) →
      I (step (run step init (ls.take k)) l)) : I (run step init (ls.take j)) := by
  induction hij with
  | refl => exact hI
  | @step k hik ih =>
    have hk := ih fun m l him hmk => hstep m l him (by omega)
    cases hget : ls[k]? with
    | some l =>
      rw [run_take_succ hget]
      exact hstep k l hik (Nat.lt_succ_self k) hget hk
    | none =>
      have hlength : ls.length ≤ k := List.getElem?_eq_none_iff.1 hget
      rw [List.take_of_length_le (by omega)]
      rwa [List.take_of_length_le hlength] at hk

/-- **An invariant and its guard.** Where a step keeps `P` exactly when its
guard passes, `P` holds all along a run exactly when every guard does. `I`
is what is known of the states anyway, `fits` of the steps. -/
theorem always_iff (step : State → Label → State) (I P : State → Prop)
    (fits guard : State → Label → Prop) {ls : List Label} (hI0 : I init) (hP0 : P init)
    (hI : ∀ s l, I s → fits s l → I (step s l))
    (hP : ∀ s l, I s → fits s l → P s → (P (step s l) ↔ guard s l))
    (hfits : ∀ n l, ls[n]? = some l → fits (run step init (ls.take n)) l) :
    (∀ n, P (run step init (ls.take n))) ↔
      ∀ n l, ls[n]? = some l → guard (run step init (ls.take n)) l := by
  have hknown : ∀ n, n ≤ ls.length → I (run step init (ls.take n)) := by
    intro n
    induction n with
    | zero => exact fun _ => hI0
    | succ n ih =>
      intro hn
      have hget : ls[n]? = some ls[n] := List.getElem?_eq_getElem hn
      rw [run_take_succ hget]
      exact hI _ _ (ih (Nat.le_of_lt hn)) (hfits n _ hget)
  constructor
  · intro h n l hget
    have hlt : n < ls.length := (List.getElem?_eq_some_iff.1 hget).1
    have hnext := h (n + 1)
    rw [run_take_succ hget] at hnext
    exact (hP _ _ (hknown n (Nat.le_of_lt hlt)) (hfits n l hget) (h n)).1 hnext
  · intro h n
    induction n with
    | zero => exact hP0
    | succ n ih =>
      by_cases hn : n < ls.length
      · have hget : ls[n]? = some ls[n] := List.getElem?_eq_getElem hn
        rw [run_take_succ hget]
        exact (hP _ _ (hknown n (Nat.le_of_lt hn)) (hfits n _ hget) ih).2 (h n _ hget)
      · rw [List.take_of_length_le (by omega)]
        rwa [List.take_of_length_le (by omega)] at ih

end Library

end ArgoTwin
