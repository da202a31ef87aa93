import Mathlib
/-!
# Append-only logs

A log's entries each follow the position their predecessor left: the
next number, the predecessor's digest. `Linked` says so of a list read
from a position; appending, cutting and checking a log are stated
against it.
-/

namespace ArgoTwin

namespace Library

variable {α π ε : Type}

/-- Read from `p`, every entry follows the position before it. -/
def Linked (follows : π → α → Prop) (next : α → π) : π → List α → Prop
  | _, [] => True
  | p, a :: l => follows p a ∧ Linked follows next (next a) l

/-- The position a log read from `p` ends at. -/
def endOf (next : α → π) (p : π) (l : List α) : π :=
  (l.getLast?.map next).getD p

variable {follows : π → α → Prop} {next : α → π} {p : π} {a : α} {l m : List α}

@[simp] theorem endOf_nil : endOf next p [] = p := rfl

@[simp] theorem endOf_cons : endOf next p (a :: l) = endOf next (next a) l := by
  cases l with
  | nil => rfl
  | cons b l => simp [endOf, List.getLast?_cons]

@[simp] theorem endOf_concat : endOf next p (l ++ [a]) = next a := by
  simp [endOf]

/-- A log is cut anywhere. -/
theorem linked_append :
    Linked follows next p (l ++ m) ↔
      Linked follows next p l ∧ Linked follows next (endOf next p l) m := by
  induction l generalizing p with
  | nil => simp [Linked]
  | cons a l ih => simp [Linked, ih, and_assoc]

/-- **Appending** an entry that follows the end keeps a log linked. -/
theorem linked_concat :
    Linked follows next p (l ++ [a]) ↔
      Linked follows next p l ∧ follows (endOf next p l) a := by
  simp [linked_append, Linked]

/-- A view of the entries that keeps what they follow and leave. -/
theorem linked_map {f : α → α} (hfollows : ∀ p a, follows p (f a) ↔ follows p a)
    (hnext : ∀ a, next (f a) = next a) :
    Linked follows next p (l.map f) ↔ Linked follows next p l := by
  induction l generalizing p with
  | nil => rfl
  | cons a l ih => simp [Linked, hfollows, hnext, ih]

/-- **Two logs that end at one position are one**, up to what the position
an entry leaves does not say, where it says which position it follows. -/
theorem forall₂_of_endOf {R : α → α → Prop}
    (hback : ∀ q q' a b, a ∈ l → b ∈ m → follows q a → follows q' b → next a = next b →
      R a b ∧ q = q')
    (hstart : ∀ q a, follows q a → next a ≠ p) (hl : Linked follows next p l)
    (hm : Linked follows next p m) (hend : endOf next p l = endOf next p m) :
    List.Forall₂ R l m := by
  induction l using List.reverseRecOn generalizing m with
  | nil =>
    -- the other log has not left the start either
    rcases List.eq_nil_or_concat' m with rfl | ⟨m, b, rfl⟩
    · exact .nil
    · rw [linked_concat] at hm
      rw [endOf_nil, endOf_concat] at hend
      exact absurd hend.symm (hstart _ _ hm.2)
  | append_singleton l a ih =>
    rw [linked_concat] at hl
    rcases List.eq_nil_or_concat' m with rfl | ⟨m, b, rfl⟩
    · rw [endOf_nil, endOf_concat] at hend
      exact absurd hend (hstart _ _ hl.2)
    · rw [linked_concat] at hm
      rw [endOf_concat, endOf_concat] at hend
      obtain ⟨hsame, hposition⟩ := hback _ _ a b (List.mem_append_right _ (List.mem_singleton_self a))
        (List.mem_append_right _ (List.mem_singleton_self b)) hl.2 hm.2 hend
      have hrest := ih (m := m) (fun q q' a b ha hb => hback q q' a b (List.mem_append_left _ ha)
        (List.mem_append_left _ hb)) hl.1 hm.1 hposition
      exact List.rel_append hrest (.cons hsame .nil)

/-- A beginning of a log is a log. -/
theorem Linked.take {n : Nat} (h : Linked follows next p l) :
    Linked follows next p (l.take n) := by
  rw [← List.take_append_drop n l, linked_append] at h
  exact h.1

/-- Where what passes comes before what does not, keeping what passes is
stopping at the first that does not. -/
theorem takeWhile_eq_filter {passes : α → Bool}
    (h : l.Pairwise fun a b => passes b = true → passes a = true) :
    l.takeWhile passes = l.filter passes := by
  induction l with
  | nil => rfl
  | cons a l ih =>
    obtain ⟨hfirst, hrest⟩ := List.pairwise_cons.1 h
    cases ha : passes a with
    | true => rw [List.takeWhile_cons_of_pos ha, List.filter_cons_of_pos ha, ih hrest]
    | false =>
      have hnone : ∀ b ∈ l, ¬ passes b = true := fun b hb hpass => by
        rw [hfirst b hb hpass] at ha
        cases ha
      have hnot : ¬ passes a = true := by simp [ha]
      rw [List.takeWhile_cons_of_neg hnot, List.filter_cons_of_neg hnot,
        List.filter_eq_nil_iff.2 hnone]

/-! ## The greatest entry -/

/-- The first entry of the greatest number: `ORDER BY number DESC LIMIT 1`. -/
def greatest (number : α → Int) (l : List α) : Option α :=
  @List.argmax α Int Int.instLinearOrder.toPreorder Int.decLt number l

variable {number : α → Int}

theorem greatest_concat : greatest number (l ++ [a]) =
    Option.casesOn (greatest number l) (some a) fun b => if number b < number a then some a else some b :=
  @List.argmax_concat α Int Int.instLinearOrder.toPreorder Int.decLt number a l

theorem greatest_mem (h : greatest number l = some a) : a ∈ l :=
  @List.argmax_mem α Int Int.instLinearOrder.toPreorder Int.decLt number l a h

theorem greatest_eq_none : greatest number l = none ↔ l = [] :=
  @List.argmax_eq_none α Int Int.instLinearOrder.toPreorder Int.decLt number l

theorem le_of_greatest {b : α} (hb : b ∈ l) (h : greatest number l = some a) :
    number b ≤ number a :=
  @List.le_of_mem_argmax α Int Int.instLinearOrder number l b a hb h

end Library

end ArgoTwin
