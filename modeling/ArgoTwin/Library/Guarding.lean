import ArgoTwin.Library.Effects
/-!
# What is raised while an invariant holds

A computation may raise one thing from any state and another only from
states that nothing leads to. Here the states are those of an invariant,
which each part keeps for the next.
-/

namespace ArgoTwin

namespace Library

variable {ε σ τ α β : Type} {P : σ → Prop} {E : ε → Prop}

section

variable {x : EStateM ε σ α} {s s' : σ} {e : ε}

/-- What raised has left the state it raised with. -/
theorem finalState_of_error (h : x s = .error e s') : finalState x s = s' := by
  simp [finalState, h]

end

/-- Whatever `x` raises from a state of `P` is in `E`. -/
def RaisesFrom (P : σ → Prop) (E : ε → Prop) (x : EStateM ε σ α) : Prop :=
  ∀ s, P s → ∀ e s', x s = .error e s' → E e

theorem Raises.from_any {x : EStateM ε σ α} (h : Raises E x) : RaisesFrom P E x :=
  fun s _ => h s

theorem raisesFrom_pure {a : α} : RaisesFrom P E (pure a : EStateM ε σ α) :=
  raises_pure.from_any

theorem raisesFrom_throw {e : ε} (he : E e) : RaisesFrom P E (throw e : EStateM ε σ α) :=
  (raises_throw he).from_any

theorem raisesFrom_fromExcept {r : Except ε α} (hr : ∀ e, r = .error e → E e) :
    RaisesFrom P E (fromExcept r : EStateM ε σ α) :=
  (raises_fromExcept hr).from_any

/-- The first part keeps the invariant for the second. -/
theorem raisesFrom_bind {x : EStateM ε σ α} {f : α → EStateM ε σ β} (hx : RaisesFrom P E x)
    (hkeeps : Keeps P x) (hf : ∀ a, RaisesFrom P E (f a)) : RaisesFrom P E (x >>= f) := by
  intro s hs e s'' h
  rcases bind_eq_error h with hraised | ⟨a, s', hreturned, hraised⟩
  · exact hx s hs e s'' hraised
  · exact hf a s' (hkeeps.of_returns hreturned hs) e s'' hraised

/-- What follows an outcome may use that it is one. -/
theorem raisesFrom_fromExcept_bind {r : Except ε α} {f : α → EStateM ε σ β}
    (hr : ∀ e, r = .error e → E e) (hf : ∀ a, r = .ok a → RaisesFrom P E (f a)) :
    RaisesFrom P E (fromExcept r >>= f) := by
  cases r with
  | ok a => exact hf a rfl
  | error e =>
    intro s _ e' s' h
    obtain ⟨rfl, -⟩ := EStateM.Result.error.inj h
    exact hr e rfl

/-- Of one state of the invariant it holds too. -/
theorem RaisesFrom.of_mem {x : EStateM ε σ α} (h : RaisesFrom P E x) {s : σ} (hs : P s) :
    RaisesFrom (fun t => t = s) E x := by
  rintro _ rfl
  exact h _ hs

/-- A block that reads the state first starts from what it read. -/
theorem raisesFrom_get_bind {f : σ → EStateM ε σ β}
    (hf : ∀ s, P s → RaisesFrom (fun t => t = s) E (f s)) : RaisesFrom P E (get >>= f) :=
  fun s hs => hf s hs s rfl

theorem raisesFrom_ite {p : Prop} [Decidable p] {x y : EStateM ε σ α} (hx : p → RaisesFrom P E x)
    (hy : ¬ p → RaisesFrom P E y) : RaisesFrom P E (if p then x else y) := by
  by_cases h : p
  · rw [if_pos h]
    exact hx h
  · rw [if_neg h]
    exact hy h

theorem raisesFrom_mapM {l : List α} {f : α → EStateM ε σ β} (hf : ∀ x, RaisesFrom P E (f x))
    (hkeeps : ∀ x, Keeps P (f x)) : RaisesFrom P E (l.mapM f) := by
  induction l with
  | nil =>
    rw [List.mapM_nil]
    exact raisesFrom_pure
  | cons x l ih =>
    rw [List.mapM_cons]
    exact raisesFrom_bind (hf x) (hkeeps x) fun _ =>
      raisesFrom_bind ih (keeps_mapM hkeeps) fun _ => raisesFrom_pure

/-- On a part of the state, the invariant is of that part. -/
theorem raisesFrom_onPart {Q : τ → Prop} {get : σ → τ} {set : τ → σ → σ} {x : EStateM ε τ α}
    (hx : RaisesFrom Q E x) (hpart : ∀ s, P s → Q (get s)) : RaisesFrom P E (onPart get set x) := by
  intro s hs e s' h
  simp only [onPart] at h
  cases hr : x (get s) with
  | ok a t => simp [hr] at h
  | error e' t =>
    simp only [hr, EStateM.Result.error.injEq] at h
    exact hx _ (hpart s hs) e t (h.1 ▸ hr)

theorem raisesFrom_transaction {x : EStateM ε σ α} (hx : RaisesFrom P E x) :
    RaisesFrom P E (transaction x) := by
  intro s hs e s' h
  simp only [transaction] at h
  cases hr : x s with
  | ok a t => simp [hr] at h
  | error e' t =>
    simp only [hr, EStateM.Result.error.injEq] at h
    exact hx s hs e t (h.1 ▸ hr)

end Library

end ArgoTwin
