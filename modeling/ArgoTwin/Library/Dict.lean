import Mathlib
/-!
# Dictionaries and sets keyed by text

Both are compared by what they hold and listed in key order, so that a
dictionary and the sorted object it is written as are one value. The
lemmas restate the library's at text keys, where comparing equal is being
equal.
-/

namespace ArgoTwin

/-- A dictionary keyed by text. -/
abbrev Dict (α : Type) := Std.ExtTreeMap String α

/-- A set of text identifiers. -/
abbrev IdSet := Std.ExtTreeSet String

namespace Library

variable {α : Type} {d : Dict α} {s t : IdSet} {k l : String} {v w : α}

theorem getElem?_insert : (d.insert k v)[l]? = if k = l then some v else d[l]? := by
  simp [Std.ExtTreeMap.getElem?_insert]

theorem getElem?_erase : (d.erase k)[l]? = if k = l then none else d[l]? := by
  simp [Std.ExtTreeMap.getElem?_erase]

theorem mem_iff_getElem? : k ∈ d ↔ ∃ v, d[k]? = some v := by
  rw [Std.ExtTreeMap.mem_iff_isSome_getElem?, Option.isSome_iff_exists]

theorem mem_of_getElem? (h : d[k]? = some v) : k ∈ d := mem_iff_getElem?.2 ⟨v, h⟩

theorem getElem?_eq_none_iff : d[k]? = none ↔ k ∉ d := by
  rw [mem_iff_getElem?, Option.eq_none_iff_forall_ne_some]
  simp

theorem mem_dict_insert : l ∈ d.insert k v ↔ k = l ∨ l ∈ d := by
  simp [Std.ExtTreeMap.mem_insert]

theorem mem_dict_erase : l ∈ d.erase k ↔ k ≠ l ∧ l ∈ d := by
  simp [Std.ExtTreeMap.mem_erase]

theorem mem_dict_toList : (k, v) ∈ d.toList ↔ d[k]? = some v := by
  rw [Std.ExtTreeMap.mem_toList_iff_getElem?_eq_some]

theorem getElem?_filter {p : α → Bool} :
    (d.filter fun _ v => p v)[k]? = some v ↔ d[k]? = some v ∧ p v = true := by
  rw [Std.ExtTreeMap.getElem?_filter', Option.filter_eq_some_iff]

@[simp] theorem mem_set_insert : l ∈ s.insert k ↔ k = l ∨ l ∈ s := by
  simp [Std.ExtTreeSet.mem_insert]

@[simp] theorem mem_set_erase : l ∈ s.erase k ↔ k ≠ l ∧ l ∈ s := by
  simp [Std.ExtTreeSet.mem_erase]

/-- Two sets with the same members are one. -/
theorem set_ext (h : ∀ k, k ∈ s ↔ k ∈ t) : s = t :=
  Std.ExtTreeSet.ext_mem h

/-- Two dictionaries that look every key up alike are one. -/
theorem dict_ext {d d' : Dict α} (h : ∀ k : String, d[k]? = d'[k]?) : d = d' :=
  Std.ExtTreeMap.ext_getElem? h

/-- Entries inserted one after another are looked up from the last. -/
theorem getElem?_foldl_insert (entries : List (String × α)) (d : Dict α) (key : String) :
    (entries.foldl (fun d entry => d.insert entry.1 entry.2) d)[key]? =
      ((entries.reverse.lookup key).or d[key]?) := by
  induction entries generalizing d with
  | nil => simp
  | cons entry entries ih =>
    rw [List.foldl_cons, ih, getElem?_insert, List.reverse_cons, List.lookup_append]
    by_cases h : entry.1 = key
    · subst h
      cases entries.reverse.lookup entry.1 <;> simp [List.lookup]
    · have hne : (key == entry.1) = false := by simpa using fun h' => h h'.symm
      cases entries.reverse.lookup key <;> simp [List.lookup, h, hne]

/-- **A dictionary is its sorted list of entries.** -/
theorem ofList_toList_dict : Std.ExtTreeMap.ofList d.toList = d := by
  refine dict_ext fun k => ?_
  have hdistinct := Std.ExtTreeMap.distinct_keys_toList (t := d)
  cases h : d[k]? with
  | some v =>
    exact Std.ExtTreeMap.getElem?_ofList_of_mem (by simp) hdistinct (mem_dict_toList.2 h)
  | none =>
    refine Std.ExtTreeMap.getElem?_ofList_of_contains_eq_false ?_
    simp only [List.contains_eq_mem, List.mem_map, Prod.exists, exists_and_right, exists_eq_right,
      decide_eq_false_iff_not, not_exists]
    intro v hv
    rw [mem_dict_toList, h] at hv
    cases hv

theorem foldl_insert_toList :
    d.toList.foldl (fun d entry => d.insert entry.1 entry.2) ∅ = d := by
  rw [← Std.ExtTreeMap.insertMany_list_eq_foldl, ← Std.ExtTreeMap.ofList_eq_insertMany_empty,
    ofList_toList_dict]

/-- A dictionary is listed in key order. -/
theorem ordered_toList_dict : (d.toList.map (·.1)).Pairwise (· < ·) := by
  have hordered := Std.ExtTreeMap.ordered_keys_toList (t := d)
  exact List.pairwise_map.2 (hordered.imp fun hlt => compareOfLessAndEq_eq_lt.1 hlt)

/-- What is looked up in a list of entries is one of them. -/
theorem mem_of_lookup {entries : List (String × α)} (h : entries.lookup k = some v) :
    (k, v) ∈ entries := by
  obtain ⟨before, after, rfl, -⟩ := List.lookup_eq_some_iff.1 h
  exact List.mem_append_right _ List.mem_cons_self

/-- **A list in key order is the one its dictionary is listed in.** -/
theorem toList_ofList_ordered {entries : List (String × α)}
    (h : (entries.map (·.1)).Pairwise (· < ·)) :
    (Std.ExtTreeMap.ofList entries).toList = entries := by
  have hlt : entries.Pairwise (fun a b => compare a.1 b.1 = .lt) :=
    (List.pairwise_map.1 h).imp fun hab => compareOfLessAndEq_eq_lt.2 hab
  have hordered := Std.ExtTreeMap.ordered_keys_toList (t := Std.ExtTreeMap.ofList entries)
  have hnodup : ∀ {l : List (String × α)}, l.Pairwise (fun a b => compare a.1 b.1 = .lt) →
      l.Nodup := fun hl => hl.imp (by rintro a b hab rfl; simp at hab)
  have hdistinct : entries.Pairwise (fun a b => ¬ compare a.1 b.1 = .eq) :=
    hlt.imp fun hab heq => by rw [heq] at hab; cases hab
  have hmem : ∀ entry, entry ∈ (Std.ExtTreeMap.ofList entries).toList ↔ entry ∈ entries := by
    rintro ⟨key, value⟩
    rw [mem_dict_toList]
    constructor
    · intro hget
      by_cases hkey : (entries.map (·.1)).contains key = true
      · rw [List.contains_eq_mem, decide_eq_true_eq, List.mem_map] at hkey
        obtain ⟨⟨key', value'⟩, hentry, rfl⟩ := hkey
        rw [Std.ExtTreeMap.getElem?_ofList_of_mem (by simp) hdistinct hentry] at hget
        cases hget
        exact hentry
      · rw [Std.ExtTreeMap.getElem?_ofList_of_contains_eq_false (by simpa using hkey)] at hget
        cases hget
    · exact Std.ExtTreeMap.getElem?_ofList_of_mem (by simp) hdistinct
  have hperm := (List.perm_ext_iff_of_nodup (hnodup hordered) (hnodup hlt)).2 hmem
  refine hperm.eq_of_pairwise (fun a b _ _ hab hba => ?_) hordered hlt
  exact absurd hba (Std.OrientedCmp.not_lt_of_lt hab)

/-- Members inserted in any order make the set. -/
theorem foldl_insert_set {l : List String} (h : ∀ k, k ∈ l ↔ k ∈ s) :
    l.foldl (fun s k => s.insert k) ∅ = s := by
  rw [← Std.ExtTreeSet.insertMany_list_eq_foldl]
  refine set_ext fun k => ?_
  rw [Std.ExtTreeSet.mem_insertMany_list, List.contains_eq_mem, decide_eq_true_eq, h]
  simp

end Library

end ArgoTwin
