import Mathlib
/-!
# Machines that reply to calls

A machine takes a call and a state to a reply and the next state. Two
machines of which one simulates the other answer every run of calls alike.
-/

namespace ArgoTwin

namespace Library

variable {Call Answer State Spec : Type}

/-- The replies to calls made in turn. -/
def replies (perform : Call → State → Answer × State) : List Call → State → List Answer
  | [], _ => []
  | call :: rest, s => (perform call s).1 :: replies perform rest (perform call s).2

variable {perform : Call → State → Answer × State} {specified : Call → Spec → Answer × Spec}

/-- **The simulation rule.** Where related states answer each call alike and
stay related, they answer whole runs alike. -/
theorem replies_eq {Related : State → Spec → Prop} {fits : Call → Prop}
    (hstep : ∀ call s t, Related s t → fits call →
      (perform call s).1 = (specified call t).1 ∧
        Related (perform call s).2 (specified call t).2)
    {calls : List Call} (hfits : ∀ call ∈ calls, fits call) {s : State} {t : Spec}
    (h : Related s t) : replies perform calls s = replies specified calls t := by
  induction calls generalizing s t with
  | nil => rfl
  | cons call rest ih =>
    obtain ⟨halike, hnext⟩ := hstep call s t h (hfits call List.mem_cons_self)
    have hrest := ih (fun other hother => hfits other (List.mem_cons_of_mem call hother)) hnext
    rw [replies, replies, halike, hrest]

end Library

end ArgoTwin
