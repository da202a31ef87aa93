import Mathlib
/-!
# Rows inserted once

`INSERT OR IGNORE` into a table with a key: the first row of a key stays
and later ones are dropped. Where rows come stamped in order, the row kept
of a key is its earliest, whatever other rows come between; so two tables
filled with the same rows in orders that agree on each key hold the same
rows.
-/

namespace ArgoTwin

namespace Library

variable {α κ : Type} [DecidableEq κ] {key : α → κ} {rows added : List α} {x row : α}

/-- `INSERT OR IGNORE` of one row. -/
def insertNew (key : α → κ) (rows : List α) (row : α) : List α :=
  if key row ∈ rows.map key then rows else rows ++ [row]

/-- `INSERT OR IGNORE` of rows one after another. -/
def insertAll (key : α → κ) (rows added : List α) : List α := added.foldl (insertNew key) rows

@[simp] theorem insertAll_nil : insertAll key rows [] = rows := rfl

theorem insertAll_append (more : List α) :
    insertAll key rows (added ++ more) = insertAll key (insertAll key rows added) more :=
  List.foldl_append

theorem insertAll_concat :
    insertAll key rows (added ++ [row]) = insertNew key (insertAll key rows added) row := by
  rw [insertAll_append]
  rfl

/-- The keys of a table are those of all rows inserted. -/
theorem key_mem_insertAll {k : κ} :
    k ∈ (insertAll key rows added).map key ↔ k ∈ rows.map key ∨ k ∈ added.map key := by
  induction added using List.reverseRecOn with
  | nil => simp
  | append_singleton added row ih =>
    rw [insertAll_concat, insertNew]
    split_ifs with htaken
    · have hsame : k = key row → k ∈ rows.map key ∨ k ∈ added.map key := by
        rintro rfl
        exact ih.1 htaken
      rw [ih]
      simp only [List.map_append, List.map_singleton, List.mem_append, List.mem_singleton]
      tauto
    · simp only [List.map_append, List.mem_append, ih, or_assoc]

/-- **The row kept of a key is its earliest**, where the rows of a key come
in the order of their stamps, and a key and a stamp make a row. -/
theorem mem_insertAll_iff {stamp : α → Int}
    (hdetermined : ∀ a b, key a = key b → stamp a = stamp b → a = b)
    (hordered : added.Pairwise fun a b => key a = key b → stamp a ≤ stamp b) :
    x ∈ insertAll key [] added ↔
      x ∈ added ∧ ∀ y ∈ added, key y = key x → stamp x ≤ stamp y := by
  induction added using List.reverseRecOn with
  | nil => simp
  | append_singleton added row ih =>
    obtain ⟨hordered, -, hlast⟩ := List.pairwise_append.1 hordered
    have hlast : ∀ y ∈ added, key y = key row → stamp y ≤ stamp row := fun y hy =>
      hlast y hy row (List.mem_singleton_self _)
    have hkeys : key row ∈ (insertAll key [] added).map key ↔ ∃ y ∈ added, key y = key row := by
      rw [key_mem_insertAll]
      simp
    rw [insertAll_concat, insertNew]
    split_ifs with htaken
    · -- an earlier row of the key is kept, and it is no later than this one
      rw [ih hordered]
      obtain ⟨first, hfirst, hfirstKey⟩ := hkeys.1 htaken
      constructor
      · rintro ⟨hx, hearliest⟩
        refine ⟨List.mem_append_left _ hx, fun y hy hkey => ?_⟩
        rcases List.mem_append.1 hy with hy | hy
        · exact hearliest y hy hkey
        · obtain rfl := List.mem_singleton.1 hy
          exact hlast x hx hkey.symm
      · rintro ⟨hx, hearliest⟩
        refine ⟨?_, fun y hy hkey => hearliest y (List.mem_append_left _ hy) hkey⟩
        rcases List.mem_append.1 hx with hx | hx
        · exact hx
        · obtain rfl := List.mem_singleton.1 hx
          have hle := hearliest first (List.mem_append_left _ hfirst) hfirstKey
          have hge := hlast first hfirst hfirstKey
          rwa [hdetermined x first hfirstKey.symm (le_antisymm hle hge)]
    · have hnever : ∀ y ∈ added, key y ≠ key row := fun y hy hkey =>
        htaken (hkeys.2 ⟨y, hy, hkey⟩)
      rw [List.mem_append, ih hordered, List.mem_singleton]
      constructor
      · rintro (⟨hx, hearliest⟩ | rfl)
        · refine ⟨List.mem_append_left _ hx, fun y hy hkey => ?_⟩
          rcases List.mem_append.1 hy with hy | hy
          · exact hearliest y hy hkey
          · obtain rfl := List.mem_singleton.1 hy
            exact absurd hkey.symm (hnever x hx)
        · refine ⟨List.mem_append_right _ (List.mem_singleton_self _), fun y hy hkey => ?_⟩
          rcases List.mem_append.1 hy with hy | hy
          · exact absurd hkey (hnever y hy)
          · obtain rfl := List.mem_singleton.1 hy
            exact le_rfl
      · rintro ⟨hx, hearliest⟩
        rcases List.mem_append.1 hx with hx | hx
        · exact .inl ⟨hx, fun y hy hkey => hearliest y (List.mem_append_left _ hy) hkey⟩
        · exact .inr (List.mem_singleton.1 hx)

end Library

end ArgoTwin
