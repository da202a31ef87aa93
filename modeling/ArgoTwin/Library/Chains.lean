import Mathlib
/-!
# Chains that end

A relation grown one edge at a time, from points that had no edge yet. It
stays free of cycles exactly where the new edge does not lead back to the
point it starts from, and then every point goes on leading to an end.
-/

namespace ArgoTwin

namespace Library

open Relation

variable {α : Type} {r : α → α → Prop} {a b x y : α}

/-- No point leads back to itself. -/
def Acyclic (r : α → α → Prop) : Prop := ∀ x, ¬ TransGen r x x

/-- Every point leads to one that leads nowhere. -/
def Ends (r : α → α → Prop) : Prop := ∀ x, ∃ y, ReflTransGen r x y ∧ ∀ z, ¬ r y z

/-- The relation with one more edge. -/
def withEdge (r : α → α → Prop) (a b : α) : α → α → Prop := fun x y => r x y ∨ (x = a ∧ y = b)

theorem reflTransGen_withEdge (h : ReflTransGen r x y) : ReflTransGen (withEdge r a b) x y :=
  ReflTransGen.mono (fun _ _ hedge => .inl hedge) _ _ h

/-- A path either does without the new edge, or takes it after it came to
its start the old way, and leaves its target the old way. -/
theorem transGen_withEdge (h : TransGen (withEdge r a b) x y) :
    TransGen r x y ∨ (ReflTransGen r x a ∧ ReflTransGen r b y) := by
  induction h with
  | single hedge =>
    obtain hold | ⟨rfl, rfl⟩ := hedge
    · exact .inl (.single hold)
    · exact .inr ⟨.refl, .refl⟩
  | tail _ hedge ih =>
    obtain hold | ⟨rfl, rfl⟩ := hedge
    · rcases ih with hpath | ⟨hto, hfrom⟩
      · exact .inl (hpath.tail hold)
      · exact .inr ⟨hto, hfrom.tail hold⟩
    · rcases ih with hpath | ⟨hto, -⟩
      · exact .inr ⟨hpath.to_reflTransGen, .refl⟩
      · exact .inr ⟨hto, .refl⟩

/-- **One more edge closes a cycle exactly when it leads back.** -/
theorem acyclic_withEdge (h : Acyclic r) :
    Acyclic (withEdge r a b) ↔ ¬ ReflTransGen r b a := by
  constructor
  · intro hacyclic hback
    exact hacyclic b (.tail' (reflTransGen_withEdge hback) (.inr ⟨rfl, rfl⟩))
  · intro hback x hcycle
    rcases transGen_withEdge hcycle with hold | ⟨hto, hfrom⟩
    · exact h x hold
    · exact hback (hfrom.trans hto)

/-- **Chains go on ending** where the new edge does not lead back: those
that ended at its start go on to where its target leads. -/
theorem ends_withEdge (h : Ends r) (hback : ¬ ReflTransGen r b a) : Ends (withEdge r a b) := by
  have hother : ∀ {y}, y ≠ a → (∀ z, ¬ r y z) → ∀ z, ¬ withEdge r a b y z := by
    rintro y hne hlast z (hold | ⟨rfl, -⟩)
    · exact hlast z hold
    · exact hne rfl
  intro x
  obtain ⟨y, hpath, hlast⟩ := h x
  by_cases hy : y = a
  · subst hy
    obtain ⟨last, hrest, hend⟩ := h b
    have hne : last ≠ y := fun heq => hback (heq ▸ hrest)
    have hedge : withEdge r y b y b := .inr ⟨rfl, rfl⟩
    exact ⟨last, (reflTransGen_withEdge hpath).trans (.head hedge (reflTransGen_withEdge hrest)),
      hother hne hend⟩
  · exact ⟨y, reflTransGen_withEdge hpath, hother hy hlast⟩

end Library

end ArgoTwin
