import ArgoTwin.Library.Effects
import ArgoTwin.Library.Runs
/-!
# Runs with and without some of their steps

Two computations are coupled when they come out alike: both return, with
what they return related, or both raise the same. One that is coupled with
itself from every two related states is oblivious of what they differ in.
A machine whose hidden steps lead to a state related to the one before,
and whose other steps are oblivious, runs as if the hidden steps had been
left out.
-/

namespace ArgoTwin

namespace Library

variable {ε σ τ α β α' β' : Type}

/-- Two results that are alike: `Q` relates what is returned and the states
left then, `E` the states an exception leaves. -/
inductive Coupled (Q : α → σ → β → τ → Prop) (E : σ → τ → Prop) :
    EStateM.Result ε σ α → EStateM.Result ε τ β → Prop
  | ok {a : α} {s : σ} {b : β} {t : τ} : Q a s b t → Coupled Q E (.ok a s) (.ok b t)
  | error {e : ε} {s : σ} {t : τ} : E s t → Coupled Q E (.error e s) (.error e t)

/-- From related states `x` comes out the same, and leaves related states. -/
def Oblivious (R : σ → σ → Prop) (x : EStateM ε σ α) : Prop :=
  ∀ s t, R s t → Coupled (fun a s' b t' => a = b ∧ R s' t') R (x s) (x t)

section Coupling

variable {Q : α → σ → β → τ → Prop} {Q' : α' → σ → β' → τ → Prop} {E : σ → τ → Prop}
variable {x : EStateM ε σ α} {y : EStateM ε τ β} {s : σ} {t : τ}

/-- **The bind rule**: coupled computations go on coupled. -/
theorem Coupled.bind {f : α → EStateM ε σ α'} {g : β → EStateM ε τ β'}
    (h : Coupled Q E (x s) (y t))
    (hf : ∀ a s' b t', Q a s' b t' → Returns x s a s' → Returns y t b t' →
      Coupled Q' E (f a s') (g b t')) :
    Coupled Q' E ((x >>= f) s) ((y >>= g) t) := by
  simp only [Returns] at hf
  simp only [Bind.bind, EStateM.bind]
  generalize x s = r at h hf
  generalize y t = u at h hf
  cases h with
  | ok hq => exact hf _ _ _ _ hq rfl rfl
  | error he => exact .error he

/-- What is known of the states left anyway goes with the coupling. -/
theorem Coupled.finalState (h : Coupled Q E (x s) (y t)) :
    Coupled (fun a s' b t' => Q a s' b t' ∧ s' = Library.finalState x s ∧
        t' = Library.finalState y t)
      (fun s' t' => E s' t' ∧ s' = Library.finalState x s ∧ t' = Library.finalState y t)
      (x s) (y t) := by
  unfold Library.finalState
  generalize x s = r at h ⊢
  generalize y t = u at h ⊢
  cases h with
  | ok hq => exact .ok ⟨hq, rfl, rfl⟩
  | error he => exact .error ⟨he, rfl, rfl⟩

theorem Coupled.mono {Q' : α → σ → β → τ → Prop} {E' : σ → τ → Prop}
    (h : Coupled Q E (x s) (y t)) (hQ : ∀ a s' b t', Q a s' b t' → Q' a s' b t')
    (hE : ∀ s' t', E s' t' → E' s' t') : Coupled Q' E' (x s) (y t) := by
  generalize x s = r at h ⊢
  generalize y t = u at h ⊢
  cases h with
  | ok hq => exact .ok (hQ _ _ _ _ hq)
  | error he => exact .error (hE _ _ he)

/-- Computations that both return are coupled by what is known of that. -/
theorem coupled_of_returns {a : α} {b : β} {s' : σ} {t' : τ} (hx : Returns x s a s')
    (hy : Returns y t b t') (h : Q a s' b t') : Coupled Q E (x s) (y t) := by
  rw [show x s = .ok a s' from hx, show y t = .ok b t' from hy]
  exact .ok h

end Coupling

section Oblivious

variable {R : σ → σ → Prop} {x : EStateM ε σ α} {s t : σ}

/-- What an oblivious computation answers. -/
theorem Oblivious.outcome_eq (hx : Oblivious R x) (h : R s t) : outcome x s = outcome x t := by
  have hcoupled := hx s t h
  unfold outcome
  generalize x s = r at hcoupled ⊢
  generalize x t = u at hcoupled ⊢
  cases hcoupled with
  | ok hq => rw [hq.1]
  | error => rfl

/-- What an oblivious computation leaves. -/
theorem Oblivious.finalState (hx : Oblivious R x) (h : R s t) :
    R (finalState x s) (finalState x t) := by
  have hcoupled := hx s t h
  unfold Library.finalState
  generalize x s = r at hcoupled ⊢
  generalize x t = u at hcoupled ⊢
  cases hcoupled with
  | ok hq => exact hq.2
  | error he => exact he

theorem oblivious_pure {a : α} : Oblivious R (pure a : EStateM ε σ α) :=
  fun _ _ h => .ok ⟨rfl, h⟩

theorem oblivious_throw {e : ε} : Oblivious R (throw e : EStateM ε σ α) := fun _ _ h => .error h

theorem oblivious_fromExcept {r : Except ε α} : Oblivious R (fromExcept r) := fun _ _ h => by
  cases r with
  | ok a => exact .ok ⟨rfl, h⟩
  | error e => exact .error h

theorem oblivious_bind {f : α → EStateM ε σ β} (hx : Oblivious R x)
    (hf : ∀ a, Oblivious R (f a)) : Oblivious R (x >>= f) := by
  intro s t h
  refine (hx s t h).bind ?_
  rintro a s' _ t' ⟨rfl, h'⟩ - -
  exact hf a s' t' h'

/-- What follows may use what is known of every answer. -/
theorem oblivious_bind_answers {f : α → EStateM ε σ β} {P : α → Prop} (hx : Oblivious R x)
    (hanswers : Answers P x) (hf : ∀ a, P a → Oblivious R (f a)) : Oblivious R (x >>= f) :=
  fun s t h => (hx s t h).bind fun a s' _ t' hq hreturns _ => by
    obtain ⟨rfl, hrel⟩ := hq
    exact hf a (hanswers s a s' hreturns) s' t' hrel

theorem oblivious_ite {p : Prop} [Decidable p] {y : EStateM ε σ α} (hx : Oblivious R x)
    (hy : Oblivious R y) : Oblivious R (if p then x else y) := by
  by_cases h : p
  · rw [if_pos h]; exact hx
  · rw [if_neg h]; exact hy

/-- A block that reads the state first may use what related states share. -/
theorem oblivious_get_bind {f : σ → EStateM ε σ β} (hf : ∀ s t, R s t → f s = f t)
    (h : ∀ s, Oblivious R (f s)) : Oblivious R (get >>= f) := by
  intro s t hR
  show Coupled _ R (f s s) (f t t)
  rw [← hf s t hR]
  exact h s s t hR

theorem oblivious_mapM {l : List α} {f : α → EStateM ε σ β} (hf : ∀ x, Oblivious R (f x)) :
    Oblivious R (l.mapM f) := by
  induction l with
  | nil =>
    rw [List.mapM_nil]
    exact oblivious_pure
  | cons x l ih =>
    rw [List.mapM_cons]
    exact oblivious_bind (hf x) fun _ => oblivious_bind ih fun _ => oblivious_pure

end Oblivious

/-! ## Runs -/

section Purge

variable {State Label Answer : Type}

/-- The labels of a run, each with its answer. -/
def answers (step : State → Label → State) (answer : State → Label → Answer) :
    State → List Label → List (Label × Answer)
  | _, [] => []
  | s, l :: ls => (l, answer s l) :: answers step answer (step s l) ls

/-- **Purging.** Where hidden steps lead nowhere that `R` could tell, and
the others take related states to related states, a run and the same run
without its hidden steps end related; and those of the other steps that
are compared have the same answers. -/
theorem purge (step : State → Label → State) (answer : State → Label → Answer)
    (R : State → State → Prop) (hidden compared : Label → Bool) (ok : State → Label → Prop)
    (hhidden : ∀ s t l, R s t → hidden l = true → ok s l → R (step s l) t)
    (hshown : ∀ s t l, R s t → hidden l = false → ok s l → R (step s l) (step t l) ∧
      (compared l = true → answer s l = answer t l))
    {ls : List Label} {s t : State} (h : R s t)
    (hok : ∀ n l, ls[n]? = some l → ok (run step s (ls.take n)) l) :
    R (run step s ls) (run step t (ls.filter fun l => !hidden l)) ∧
      (answers step answer s ls).filter (fun said => !hidden said.1 && compared said.1) =
        (answers step answer t (ls.filter fun l => !hidden l)).filter
          fun said => compared said.1 := by
  induction ls generalizing s t with
  | nil => exact ⟨h, rfl⟩
  | cons l ls ih =>
    have hrest : ∀ n l', ls[n]? = some l' → ok (run step (step s l) (ls.take n)) l' :=
      fun n l' hget => hok (n + 1) l' hget
    cases hl : hidden l with
    | true =>
      obtain ⟨hstates, hanswers⟩ := ih (hhidden s t l h hl (hok 0 l rfl)) hrest
      simpa [run, answers, hl] using ⟨hstates, hanswers⟩
    | false =>
      obtain ⟨hstep, hsaid⟩ := hshown s t l h hl (hok 0 l rfl)
      obtain ⟨hstates, hanswers⟩ := ih hstep hrest
      cases hcompared : compared l with
      | true => simpa [run, answers, hl, hcompared, hsaid hcompared] using ⟨hstates, hanswers⟩
      | false => simpa [run, answers, hl, hcompared] using ⟨hstates, hanswers⟩

end Purge

end Library

end ArgoTwin
