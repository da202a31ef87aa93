import ArgoTwin.Library.Effects
/-!
# Calls carried over a wire

A call carried over a wire: the request is written down and read again on
the far side, and the reply, or the failure, comes back the same way. Where
nothing is lost in the writing, the carried call is the call itself, its
effect on the far side included.
-/

namespace ArgoTwin

namespace Library

variable {α β ε σ : Type}

/-! ## Values that passed their constructor's checks -/

/-- A value its constructor let through. -/
structure Checked (check : α → Except ε Unit) where
  val : α
  valid : check val = .ok ()

/-- The constructor: the value, or what the check raises. -/
def Checked.build (check : α → Except ε Unit) (x : α) : Except ε (Checked check) :=
  match h : check x with
  | .ok () => .ok ⟨x, h⟩
  | .error e => .error e

/-- What was built once can be built again. -/
@[simp] theorem Checked.build_val {check : α → Except ε Unit} (x : Checked check) :
    Checked.build check x.val = .ok x := by
  obtain ⟨val, valid⟩ := x
  unfold Checked.build
  split
  · rfl
  · rename_i e hraised
    cases valid.symm.trans hraised

@[ext] theorem Checked.ext {check : α → Except ε Unit} {x y : Checked check}
    (h : x.val = y.val) : x = y := by
  cases x
  cases y
  cases h
  rfl

/-! ## Calls -/

/-- The exception a computation raises, put another way. -/
def mapRaised (f : ε → ε) (x : EStateM ε σ α) : EStateM ε σ α := fun s =>
  match x s with
  | .ok a s' => .ok a s'
  | .error e s' => .error (f e) s'

/-- A call, with what becomes of the request, the reply and the failure on
the way. -/
def carried (request : α → Except ε α) (reply : β → Except ε β) (failure : ε → ε)
    (call : α → EStateM ε σ β) (x : α) : EStateM ε σ β := do
  let received ← fromExcept (request x)
  let result ← mapRaised failure (call received)
  fromExcept (reply result)

/-- **A call is carried unchanged** where its request, its replies and its
failures are. -/
theorem carried_eq {request : α → Except ε α} {reply : β → Except ε β} {failure : ε → ε}
    {call : α → EStateM ε σ β} {x : α} (hrequest : request x = .ok x)
    (hreply : ∀ y, reply y = .ok y)
    (hfailure : ∀ s e s', call x s = .error e s' → failure e = e) :
    carried request reply failure call x = call x := by
  funext s
  have hmapped : mapRaised failure (call x) s = call x s := by
    unfold mapRaised
    cases hcall : call x s with
    | ok y s' => rfl
    | error e s' =>
      have hsame := hfailure s e s' hcall
      show EStateM.Result.error (failure e) s' = _
      rw [hsame]
  unfold carried
  rw [hrequest]
  show (mapRaised failure (call x) >>= fun result => fromExcept (reply result)) s = call x s
  simp only [bind, EStateM.bind, hmapped]
  cases call x s with
  | ok y s' =>
    show fromExcept (reply y) s' = _
    rw [hreply y]
    rfl
  | error e s' => rfl

/-- A list is read back where its members are. -/
theorem mapM_read {write : α → β} {read : β → Except ε α} (h : ∀ x, read (write x) = .ok x)
    (xs : List α) : (xs.map write).mapM read = .ok xs := by
  induction xs with
  | nil => rfl
  | cons x xs ih =>
    rw [List.map_cons, List.mapM_cons, h x, ih]
    rfl

end Library

end ArgoTwin
