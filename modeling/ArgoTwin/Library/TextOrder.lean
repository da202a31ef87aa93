import Mathlib
/-!
# The order of texts

Text is compared character by character, and rows are ordered by a text
first and by something else after it.
-/

namespace ArgoTwin

namespace Library

variable {α : Type}

/-- Ordered by a text, and by `r` where the texts are the same. -/
abbrev byText (text : α → String) (r : α → α → Prop) (a b : α) : Prop :=
  text a < text b ∨ (text a = text b ∧ r a b)

variable {text : α → String} {r : α → α → Prop}

instance [Std.Total r] : Std.Total (byText text r) where
  total a b := by
    by_cases hlt : text a < text b
    · exact .inl (.inl hlt)
    · by_cases hgt : text b < text a
      · exact .inr (.inl hgt)
      · have hsame : text a = text b :=
          String.le_antisymm (String.not_lt.1 hgt) (String.not_lt.1 hlt)
        rcases Std.Total.total (r := r) a b with hab | hba
        · exact .inl (.inr ⟨hsame, hab⟩)
        · exact .inr (.inr ⟨hsame.symm, hba⟩)

instance [IsTrans α r] : IsTrans α (byText text r) where
  trans a b c := by
    rintro (hab | ⟨hab, hab'⟩) (hbc | ⟨hbc, hbc'⟩)
    · exact .inl (String.lt_trans hab hbc)
    · exact .inl (hbc ▸ hab)
    · exact .inl (hab ▸ hbc)
    · exact .inr ⟨hab.trans hbc, IsTrans.trans _ _ _ hab' hbc'⟩

/-! ## Numbers of a fixed width -/

/-- The text `a` comes before the text `b`, whatever follows either. -/
def Below (a b : List Char) : Prop := ∀ x y, a ++ x < b ++ y

section Below

variable {a b : List Char}

theorem Below.lt (h : Below a b) : a < b := by
  have hnil := h [] []
  rwa [List.append_nil, List.append_nil] at hnil

theorem below_of_char {c d : Char} (h : c < d) : Below (c :: a) (d :: b) :=
  fun _ _ => List.cons_lt_cons_iff.2 (.inl h)

theorem Below.append_left (h : Below a b) (start : List Char) :
    Below (start ++ a) (start ++ b) := by
  intro x y
  rw [List.append_assoc, List.append_assoc]
  exact List.append_left_lt (h x y)

theorem Below.append_right (h : Below a b) (x y : List Char) : Below (a ++ x) (b ++ y) := by
  intro x' y'
  rw [List.append_assoc, List.append_assoc]
  exact h _ _

/-- Of two runs of as many digits, read on from `n` and `m`, the smaller
number is the one that comes first. -/
theorem below_of_digits (hlength : a.length = b.length) (ha : ∀ c ∈ a, c.isDigit = true)
    (hb : ∀ c ∈ b, c.isDigit = true) {n m : Nat}
    (h : a.foldl (fun n c => 10 * n + (c.toNat - 48)) n <
      b.foldl (fun n c => 10 * n + (c.toNat - 48)) m) : n < m ∨ (n = m ∧ Below a b) := by
  induction a generalizing b n m with
  | nil =>
    obtain rfl := List.length_eq_zero_iff.1 hlength.symm
    exact .inl h
  | cons c a ih =>
    obtain ⟨d, b, rfl⟩ := List.exists_cons_of_length_eq_add_one hlength.symm
    have hc : 48 ≤ c.toNat ∧ c.toNat ≤ 57 := by
      have hdigit := ha c List.mem_cons_self
      simpa [Char.isDigit_iff_toNat] using hdigit
    have hd : 48 ≤ d.toNat ∧ d.toNat ≤ 57 := by
      have hdigit := hb d List.mem_cons_self
      simpa [Char.isDigit_iff_toNat] using hdigit
    have hrest : 10 * n + (c.toNat - 48) < 10 * m + (d.toNat - 48) ∨
        (10 * n + (c.toNat - 48) = 10 * m + (d.toNat - 48) ∧ Below a b) :=
      ih (Nat.succ.inj hlength) (fun c hc => ha c (List.mem_cons_of_mem _ hc))
        (fun c hc => hb c (List.mem_cons_of_mem _ hc)) h
    -- the first digits decide, unless they are the same
    rcases hrest with hlt | ⟨heq, hbelow⟩
    · by_cases hnm : n < m
      · exact .inl hnm
      · refine .inr ⟨by omega, below_of_char ?_⟩
        show c.toNat < d.toNat
        omega
    · have hsame : c = d := Char.toNat_inj.1 (by omega)
      refine .inr ⟨by omega, ?_⟩
      rw [hsame]
      exact hbelow.append_left [d]

end Below

end Library

end ArgoTwin
