import Mathlib
/-!
# Computations that raise and keep their state

`EStateM ε σ α` is a computation over a state `σ` that either returns or
raises, and whose state survives the exception: what a Python method does
to an object it mutates in place. `Returns` says that it returns, and the
lemmas read a `do` block back, one statement at a time. `Keeps` is what
holds of the state afterwards either way.
-/

namespace ArgoTwin

namespace Library

variable {ε σ τ α β : Type}

/-- The state left behind, whether the computation returns or raises. -/
def finalState (x : EStateM ε σ α) (s : σ) : σ :=
  match x s with
  | .ok _ s' => s'
  | .error _ s' => s'

/-- The outcome, with the state forgotten. -/
def outcome (x : EStateM ε σ α) (s : σ) : Except ε α :=
  match x s with
  | .ok a _ => .ok a
  | .error e _ => .error e

/-- `x` returns `a` from `s` and leaves `s'`. -/
def Returns (x : EStateM ε σ α) (s : σ) (a : α) (s' : σ) : Prop :=
  x s = .ok a s'

/-- An outcome as a computation that leaves the state alone. -/
def fromExcept (r : Except ε α) : EStateM ε σ α := fun s =>
  match r with
  | .ok a => .ok a s
  | .error e => .error e s

/-- Running a computation on a component of the state. -/
def onPart (get : σ → τ) (set : τ → σ → σ) (x : EStateM ε τ α) : EStateM ε σ α := fun s =>
  match x (get s) with
  | .ok a t => .ok a (set t s)
  | .error e t => .error e (set t s)

/-- **A transaction**: an exception puts the state back. -/
def transaction (x : EStateM ε σ α) : EStateM ε σ α := fun s =>
  match x s with
  | .ok a s' => .ok a s'
  | .error e _ => .error e s

/-! An outcome is there or not, and so is a value looked up: what is asked
of it can be decided. -/

instance decidableForallOk {p : α → Prop} [DecidablePred p] (x : Except ε α) :
    Decidable (∀ a, x = .ok a → p a) :=
  match x with
  | .ok a => decidable_of_iff (p a) (by simp)
  | .error _ => isTrue (by simp)

instance decidableExistsOk (x : Except ε α) : Decidable (∃ a, x = .ok a) :=
  match x with
  | .ok a => isTrue ⟨a, rfl⟩
  | .error _ => isFalse (by simp)

instance decidableForallSome {p : α → Prop} [DecidablePred p] (x : Option α) :
    Decidable (∀ a, x = some a → p a) :=
  match x with
  | some a => decidable_of_iff (p a) (by simp)
  | none => isTrue (by simp)

instance decidableExistsSome {p : α → Prop} [DecidablePred p] (x : Option α) :
    Decidable (∃ a, x = some a ∧ p a) :=
  match x with
  | some a => decidable_of_iff (p a) (by simp)
  | none => isFalse (by simp)

theorem ok_bind (a : α) (f : α → Except ε β) : (Except.ok a >>= f) = f a := rfl

/-- Of two outcomes in turn, both are needed. -/
theorem bind_eq_ok {x : Except ε α} {f : α → Except ε β} {b : β} :
    x >>= f = .ok b ↔ ∃ a, x = .ok a ∧ f a = .ok b := by
  cases x <;> simp [bind, Except.bind]

/-- Of two outcomes in turn, either may be the exception. -/
theorem error_of_bind {P : ε → Prop} {x : Except ε α} {f : α → Except ε β}
    (hx : ∀ e, x = .error e → P e) (hf : ∀ a e, f a = .error e → P e) :
    ∀ e, x >>= f = .error e → P e := by
  intro e h
  cases x with
  | ok a => exact hf a e h
  | error e' =>
    simp only [bind, Except.bind, Except.error.injEq] at h
    exact h ▸ hx e' rfl

section Returns

variable {s s' s'' : σ} {a b : α} {e : ε}

@[simp] theorem returns_pure : Returns (ε := ε) (pure a) s b s' ↔ a = b ∧ s = s' := by
  simp [Returns, pure, EStateM.pure]

@[simp] theorem returns_bind {x : EStateM ε σ α} {f : α → EStateM ε σ β} {c : β} :
    Returns (x >>= f) s c s'' ↔ ∃ a s', Returns x s a s' ∧ Returns (f a) s' c s'' := by
  simp only [Returns, bind, EStateM.bind]
  cases x s with
  | ok a t =>
    constructor
    · intro h; exact ⟨a, t, rfl, h⟩
    · rintro ⟨a', t', h, h'⟩; cases h; exact h'
  | error e t => simp

/-- A computation returns one thing. -/
theorem returns_unique {x : EStateM ε σ α} {t t' : σ} (h : Returns x s a t)
    (h' : Returns x s b t') : a = b ∧ t = t' := by
  simp only [Returns] at h h'
  rw [h, EStateM.Result.ok.injEq] at h'
  exact h'

@[simp] theorem returns_throw : Returns (throw e : EStateM ε σ α) s a s' ↔ False := by
  simp [Returns, throw, throwThe, MonadExceptOf.throw, EStateM.throw]

@[simp] theorem returns_get {t : σ} :
    Returns (ε := ε) get s t s' ↔ t = s ∧ s' = s := by
  simp only [Returns, get, getThe, MonadStateOf.get, EStateM.get, EStateM.Result.ok.injEq]
  constructor <;> rintro ⟨rfl, rfl⟩ <;> simp

/-- A block that reads the state first goes on from what it read. -/
theorem returns_get_bind {f : σ → EStateM ε σ β} {b : β} :
    Returns (get >>= f) s b s' ↔ Returns (f s) s b s' := Iff.rfl

@[simp] theorem returns_set {t : σ} {u : PUnit} :
    Returns (ε := ε) (set t) s u s' ↔ s' = t := by
  simp only [Returns, MonadStateOf.set, EStateM.set, EStateM.Result.ok.injEq, true_and]
  exact eq_comm

@[simp] theorem returns_modify {f : σ → σ} {u : PUnit} :
    Returns (ε := ε) (modify f) s u s' ↔ s' = f s := by
  simp only [Returns, modify, modifyGet, MonadStateOf.modifyGet, EStateM.modifyGet,
    EStateM.Result.ok.injEq, true_and]
  exact eq_comm

@[simp] theorem returns_ite {p : Prop} [Decidable p] {x y : EStateM ε σ α} :
    Returns (if p then x else y) s a s' ↔
      (p ∧ Returns x s a s') ∨ (¬ p ∧ Returns y s a s') := by
  by_cases h : p <;> simp [h]

@[simp] theorem returns_fromExcept {r : Except ε α} :
    Returns (fromExcept r) s a s' ↔ r = .ok a ∧ s' = s := by
  cases r with
  | ok b =>
    simp only [Returns, fromExcept, EStateM.Result.ok.injEq, Except.ok.injEq]
    constructor <;> rintro ⟨rfl, rfl⟩ <;> simp
  | error e => simp [Returns, fromExcept]

/-- **A loop of steps whose effect is known** runs through when each of
them may run where it comes to run. -/
theorem returns_forM {l : List α} {f : α → EStateM ε σ PUnit} {P : α → Prop} {g : σ → α → σ}
    (hf : ∀ x s s', Returns (f x) s ⟨⟩ s' ↔ P x ∧ s' = g s x) {u : PUnit} :
    Returns (l.forM f) s u s' ↔ (∀ x ∈ l, P x) ∧ s' = l.foldl g s := by
  induction l generalizing s with
  | nil => simp [eq_comm]
  | cons x l ih =>
    change Returns (f x >>= fun _ => l.forM f) s u s' ↔ _
    simp only [returns_bind, List.forall_mem_cons, List.foldl_cons]
    constructor
    · rintro ⟨_, t, hx, hl⟩
      obtain ⟨hP, rfl⟩ := (hf x s t).1 hx
      exact ⟨⟨hP, (ih.1 hl).1⟩, (ih.1 hl).2⟩
    · rintro ⟨⟨hP, hl⟩, hs⟩
      exact ⟨⟨⟩, _, (hf x s _).2 ⟨hP, rfl⟩, ih.2 ⟨hl, hs⟩⟩

/-- A loop runs through when each of its rounds does, wherever it starts. -/
theorem exists_returns_forM {l : List α} {f : α → EStateM ε σ PUnit}
    (hf : ∀ x ∈ l, ∀ s, ∃ s', Returns (f x) s ⟨⟩ s') (s : σ) :
    ∃ s', Returns (l.forM f) s ⟨⟩ s' := by
  induction l generalizing s with
  | nil => exact ⟨s, returns_pure.2 ⟨rfl, rfl⟩⟩
  | cons x l ih =>
    obtain ⟨t, hx⟩ := hf x List.mem_cons_self s
    obtain ⟨s', hl⟩ := ih (fun y hy => hf y (List.mem_cons_of_mem _ hy)) t
    exact ⟨s', returns_bind.2 ⟨_, _, hx, hl⟩⟩

/-- A loop of checks leaves the state alone. -/
theorem returns_forM_check {l : List α} {f : α → EStateM ε σ PUnit} {P : α → σ → Prop}
    (hf : ∀ x s s', Returns (f x) s ⟨⟩ s' ↔ P x s ∧ s' = s) {u : PUnit} :
    Returns (l.forM f) s u s' ↔ (∀ x ∈ l, P x s) ∧ s' = s := by
  induction l with
  | nil => simp [eq_comm]
  | cons x l ih =>
    change Returns (f x >>= fun _ => l.forM f) s u s' ↔ _
    simp only [returns_bind, List.forall_mem_cons]
    constructor
    · rintro ⟨_, t, hx, hl⟩
      obtain ⟨hP, rfl⟩ := (hf x s t).1 hx
      exact ⟨⟨hP, (ih.1 hl).1⟩, (ih.1 hl).2⟩
    · rintro ⟨⟨hP, hl⟩, hs⟩
      exact ⟨⟨⟩, s, (hf x s s).2 ⟨hP, rfl⟩, ih.2 ⟨hl, hs⟩⟩

/-- **A loop that gathers**: what every round keeps is kept, and what a
round's answer says of the state still holds after the others. -/
theorem returns_mapM {l : List α} {f : α → EStateM ε σ β} {P : σ → Prop} {Q : β → σ → Prop}
    (hf : ∀ x s b s', P s → Returns (f x) s b s' → P s' ∧ Q b s')
    (hkept : ∀ x s b s' c, P s → Returns (f x) s b s' → Q c s → Q c s')
    {bs : List β} (hs : P s) (h : Returns (l.mapM f) s bs s') : P s' ∧ ∀ b ∈ bs, Q b s' := by
  have hrest : ∀ (l : List α) s bs, P s → Returns (l.mapM f) s bs s' →
      (P s' ∧ ∀ b ∈ bs, Q b s') ∧ ∀ c, Q c s → Q c s' := by
    intro l
    induction l with
    | nil =>
      intro s bs hs h
      rw [List.mapM_nil, returns_pure] at h
      obtain ⟨rfl, rfl⟩ := h
      exact ⟨⟨hs, by simp⟩, fun _ hc => hc⟩
    | cons x l ih =>
      intro s bs hs h
      simp only [List.mapM_cons, returns_bind, returns_pure] at h
      obtain ⟨b, t, hx, rest, t', hrest, rfl, rfl⟩ := h
      obtain ⟨ht, hb⟩ := hf x s b t hs hx
      obtain ⟨⟨hs', hall⟩, hstays⟩ := ih t rest ht hrest
      exact ⟨⟨hs', List.forall_mem_cons.2 ⟨hstays b hb, hall⟩⟩,
        fun c hc => hstays c (hkept x s b t c hs hx hc)⟩
  exact (hrest l s bs hs h).1

theorem returns_onPart {get : σ → τ} {set : τ → σ → σ} {x : EStateM ε τ α} :
    Returns (onPart get set x) s a s' ↔ ∃ t, Returns x (get s) a t ∧ s' = set t s := by
  simp only [Returns, onPart]
  cases x (get s) with
  | ok b t =>
    simp only [EStateM.Result.ok.injEq]
    constructor
    · rintro ⟨rfl, rfl⟩; exact ⟨t, ⟨rfl, rfl⟩, rfl⟩
    · rintro ⟨t, ⟨rfl, rfl⟩, rfl⟩; exact ⟨rfl, rfl⟩
  | error e t => simp

@[simp] theorem returns_transaction {x : EStateM ε σ α} :
    Returns (transaction x) s a s' ↔ Returns x s a s' := by
  simp only [Returns, transaction]
  cases x s <;> simp

/-- An exception undoes a transaction. -/
theorem transaction_error {x : EStateM ε σ α} (h : transaction x s = .error e s') : s' = s := by
  simp only [transaction] at h
  cases hx : x s with
  | ok b t => simp [hx] at h
  | error b t => simp only [hx, EStateM.Result.error.injEq] at h; exact h.2.symm

theorem outcome_eq_ok {x : EStateM ε σ α} :
    outcome x s = .ok a ↔ ∃ s', Returns x s a s' := by
  simp only [outcome, Returns]
  cases x s <;> simp

/-- The state left is that of the return or that of the exception. -/
theorem finalState_cases (x : EStateM ε σ α) (s : σ) :
    (∃ a, Returns x s a (finalState x s)) ∨ ∃ e, x s = .error e (finalState x s) := by
  simp only [Returns, finalState]
  cases h : x s with
  | ok a t => exact .inl ⟨a, rfl⟩
  | error e t => exact .inr ⟨e, rfl⟩

/-- Dropping the answer leaves the state alone. -/
@[simp] theorem finalState_discard {x : EStateM ε σ α} :
    finalState (discard x) s = finalState x s := by
  change finalState (EStateM.map _ x) s = _
  simp only [finalState, EStateM.map]
  cases x s <;> rfl

theorem finalState_of_returns {x : EStateM ε σ α} (h : Returns x s a s') :
    finalState x s = s' := by
  simp only [Returns] at h
  simp [finalState, h]

/-- What follows a computation that returns starts where it ended. -/
theorem finalState_bind {x : EStateM ε σ α} {f : α → EStateM ε σ β} (h : Returns x s a s') :
    finalState (x >>= f) s = finalState (f a) s' := by
  simp only [Returns] at h
  simp [finalState, bind, EStateM.bind, h]

/-- Nothing follows a computation that raises. -/
theorem finalState_bind_error {x : EStateM ε σ α} {f : α → EStateM ε σ β}
    (h : x s = .error e s') : finalState (x >>= f) s = s' := by
  simp [finalState, bind, EStateM.bind, h]

/-- Of two computations in turn one has raised. -/
theorem bind_eq_error {x : EStateM ε σ α} {f : α → EStateM ε σ β}
    (h : (x >>= f) s = .error e s'') :
    x s = .error e s'' ∨ ∃ a s', Returns x s a s' ∧ f a s' = .error e s'' := by
  simp only [bind, EStateM.bind] at h
  cases hx : x s with
  | ok a t =>
    rw [hx] at h
    exact .inr ⟨a, t, hx, h⟩
  | error e' t =>
    rw [hx] at h
    obtain ⟨rfl, rfl⟩ : e' = e ∧ t = s'' := by simpa using h
    exact .inl rfl

/-- After a computation that returned comes what follows. -/
theorem bind_eq_of_returns {x : EStateM ε σ α} {f : α → EStateM ε σ β} (h : Returns x s a s') :
    (x >>= f) s = f a s' := by
  simp only [Returns] at h
  simp [bind, EStateM.bind, h]

/-- An outcome raises itself. -/
theorem fromExcept_eq_error {r : Except ε α} (h : fromExcept r s = .error e s') :
    r = .error e := by
  cases r with
  | ok a => cases h
  | error e' =>
    simp only [fromExcept, EStateM.Result.error.injEq] at h
    rw [h.1]

/-- Answering with something else leaves the same state. -/
theorem finalState_bind_pure {x : EStateM ε σ α} {f : α → β} :
    finalState (x >>= fun a => pure (f a)) s = finalState x s := by
  simp only [finalState, bind, EStateM.bind, pure, EStateM.pure]
  cases x s <;> rfl

end Returns

/-! ## What every outcome keeps -/

/-- `P` survives `x`, also where `x` raises. -/
def Keeps (P : σ → Prop) (x : EStateM ε σ α) : Prop :=
  ∀ s, P s → P (finalState x s)

section Keeps

variable {P : σ → Prop}

theorem keeps_pure {a : α} : Keeps P (pure a : EStateM ε σ α) := fun _ h => h

theorem keeps_throw {e : ε} : Keeps P (throw e : EStateM ε σ α) := fun _ h => h

theorem keeps_get : Keeps P (get : EStateM ε σ σ) := fun _ h => h

theorem keeps_fromExcept {r : Except ε α} : Keeps P (fromExcept r) := fun _ h => by
  cases r <;> exact h

theorem keeps_modify {f : σ → σ} (hf : ∀ s, P s → P (f s)) :
    Keeps P (modify f : EStateM ε σ PUnit) := fun s h => hf s h

theorem keeps_bind {x : EStateM ε σ α} {f : α → EStateM ε σ β} (hx : Keeps P x)
    (hf : ∀ a, Keeps P (f a)) : Keeps P (x >>= f) := by
  intro s h
  have hx' := hx s h
  simp only [finalState, bind, EStateM.bind] at hx' ⊢
  cases hr : x s with
  | ok a t =>
    rw [hr] at hx'
    exact hf a t hx'
  | error e t =>
    rw [hr] at hx'
    exact hx'

/-- What holds after the first part, every rest keeps. -/
theorem finalState_bind_keeps {x : EStateM ε σ α} {f : α → EStateM ε σ β} {s : σ}
    (hx : P (finalState x s)) (hf : ∀ a, Keeps P (f a)) : P (finalState (x >>= f) s) := by
  rcases finalState_cases x s with ⟨a, h⟩ | ⟨e, h⟩
  · rw [finalState_bind h]
    exact hf a _ hx
  · rw [finalState_bind_error h]
    exact hx

theorem keeps_ite {p : Prop} [Decidable p] {x y : EStateM ε σ α} (hx : Keeps P x)
    (hy : Keeps P y) : Keeps P (if p then x else y) := by
  by_cases h : p
  · rw [if_pos h]; exact hx
  · rw [if_neg h]; exact hy

/-- What follows an outcome may use that it is one. -/
theorem keeps_fromExcept_bind {r : Except ε α} {f : α → EStateM ε σ β}
    (hf : ∀ a, r = .ok a → Keeps P (f a)) : Keeps P (fromExcept r >>= f) := by
  cases r with
  | ok a => exact hf a rfl
  | error e => exact fun s h => h

theorem keeps_set_of {t : σ} (ht : P t) : Keeps P (set t : EStateM ε σ PUnit) := fun _ _ => ht

/-- A block that reads the state first may use what it read. -/
theorem keeps_get_bind {f : σ → EStateM ε σ β}
    (hf : ∀ s, P s → P (finalState (f s) s)) : Keeps P (get >>= f) := hf

theorem keeps_mapM {l : List α} {f : α → EStateM ε σ β} (hf : ∀ x, Keeps P (f x)) :
    Keeps P (l.mapM f) := by
  induction l with
  | nil =>
    rw [List.mapM_nil]
    exact keeps_pure
  | cons x l ih =>
    rw [List.mapM_cons]
    exact keeps_bind (hf x) fun _ => keeps_bind ih fun _ => keeps_pure

theorem keeps_forM {l : List α} {f : α → EStateM ε σ PUnit} (hf : ∀ x, Keeps P (f x)) :
    Keeps P (l.forM f) := by
  induction l with
  | nil => exact keeps_pure
  | cons x l ih => exact keeps_bind (hf x) fun _ => ih

/-- A transaction keeps what its body does. -/
theorem keeps_transaction {x : EStateM ε σ α} (hx : Keeps P x) : Keeps P (transaction x) := by
  intro s h
  have hx' := hx s h
  simp only [finalState, transaction] at hx' ⊢
  cases hr : x s with
  | ok a t => simpa [hr] using hx'
  | error e t => exact h

theorem Keeps.of_returns {x : EStateM ε σ α} (hx : Keeps P x) {s s' : σ} {a : α}
    (h : Returns x s a s') (hP : P s) : P s' :=
  finalState_of_returns h ▸ hx s hP

end Keeps

/-! ## What may be answered -/

/-- Whatever `x` returns, from any state, is in `Q`. -/
def Answers (Q : α → Prop) (x : EStateM ε σ α) : Prop :=
  ∀ s a s', Returns x s a s' → Q a

theorem answers_pure {Q : α → Prop} {a : α} (ha : Q a) :
    Answers Q (pure a : EStateM ε σ α) := by
  intro s b s' h
  obtain ⟨rfl, -⟩ := returns_pure.1 h
  exact ha

/-- The last computation answers. -/
theorem answers_bind {Q : β → Prop} {x : EStateM ε σ α} {f : α → EStateM ε σ β}
    (hf : ∀ a, Answers Q (f a)) : Answers Q (x >>= f) := by
  intro s b s' h
  obtain ⟨a, t, -, h⟩ := returns_bind.1 h
  exact hf a t b s' h

/-! ## What may be raised -/

/-- Whatever `x` raises, from any state, is in `E`. -/
def Raises (E : ε → Prop) (x : EStateM ε σ α) : Prop :=
  ∀ s e s', x s = .error e s' → E e

section Raises

variable {E : ε → Prop}

theorem raises_pure {a : α} : Raises E (pure a : EStateM ε σ α) := fun _ _ _ h => by cases h

theorem raises_throw {e : ε} (he : E e) : Raises E (throw e : EStateM ε σ α) := by
  intro s e' s' h
  simp only [throw, throwThe, MonadExceptOf.throw, EStateM.throw,
    EStateM.Result.error.injEq] at h
  exact h.1 ▸ he

theorem raises_modify {f : σ → σ} : Raises E (modify f : EStateM ε σ PUnit) :=
  fun _ _ _ h => by cases h

theorem raises_set {t : σ} : Raises E (set t : EStateM ε σ PUnit) :=
  fun _ _ _ h => by cases h

theorem raises_get : Raises E (get : EStateM ε σ σ) := fun _ _ _ h => by cases h

theorem raises_fromExcept {r : Except ε α} (hr : ∀ e, r = .error e → E e) :
    Raises (σ := σ) E (fromExcept r) := by
  intro s e s' h
  cases r with
  | ok a => cases h
  | error e' =>
    simp only [fromExcept, EStateM.Result.error.injEq] at h
    exact hr e (h.1 ▸ rfl)

/-- Of two computations in turn either may raise. -/
theorem raises_bind {x : EStateM ε σ α} {f : α → EStateM ε σ β} (hx : Raises E x)
    (hf : ∀ a, Raises E (f a)) : Raises E (x >>= f) := by
  intro s e s' h
  simp only [bind, EStateM.bind] at h
  cases hr : x s with
  | ok a t =>
    rw [hr] at h
    exact hf a t e s' h
  | error e' t =>
    simp only [hr, EStateM.Result.error.injEq] at h
    exact hx s e t (h.1 ▸ hr)

theorem raises_ite {p : Prop} [Decidable p] {x y : EStateM ε σ α} (hx : Raises E x)
    (hy : Raises E y) : Raises E (if p then x else y) := by
  by_cases h : p
  · rw [if_pos h]; exact hx
  · rw [if_neg h]; exact hy

theorem raises_mapM {l : List α} {f : α → EStateM ε σ β} (hf : ∀ x, Raises E (f x)) :
    Raises E (l.mapM f) := by
  induction l with
  | nil =>
    rw [List.mapM_nil]
    exact raises_pure
  | cons x l ih =>
    rw [List.mapM_cons]
    exact raises_bind (hf x) fun _ => raises_bind ih fun _ => raises_pure

theorem raises_onPart {get : σ → τ} {set : τ → σ → σ} {x : EStateM ε τ α} (hx : Raises E x) :
    Raises E (onPart get set x) := by
  intro s e s' h
  simp only [onPart] at h
  cases hr : x (get s) with
  | ok a t => simp [hr] at h
  | error e' t =>
    simp only [hr, EStateM.Result.error.injEq] at h
    exact hx _ e t (h.1 ▸ hr)

theorem raises_transaction {x : EStateM ε σ α} (hx : Raises E x) : Raises E (transaction x) := by
  intro s e s' h
  simp only [transaction] at h
  cases hr : x s with
  | ok a t => simp [hr] at h
  | error e' t =>
    simp only [hr, EStateM.Result.error.injEq] at h
    exact hx _ e t (h.1 ▸ hr)

end Raises

end Library

end ArgoTwin
