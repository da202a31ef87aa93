import ArgoTwin.JsonText
import ArgoTwin.Types
/-!
# Canonical text of values in no order

Mappings and sets come in whatever order they are iterated in. The
canonical text sorts them, mappings by the text of their keys and sets by
the text of their elements, so that two orders of one value are written
alike; but keys are made text before they are sorted, and of two keys that
become the same text the one met later is kept.
-/

namespace ArgoTwin

/-- A key of a mapping. -/
inductive Key where
  | str (s : String)
  | int (n : Int)
  deriving DecidableEq

/-- `str(key)`. -/
def Key.text : Key → String
  | .str s => s
  | .int n => toString n

/-- What `canonical_json` is given; mappings and sets are in the order they
are iterated in. -/
inductive PyValue where
  | null
  | bool (b : Bool)
  | int (n : Int)
  | str (s : String)
  | time (d : DateTime) (aware : d.naive = false)
  | list (items : List PyValue)
  | set (items : List PyValue)
  | dict (entries : List (Key × PyValue))

/-- What `to_primitive` returns; a dictionary keeps the order its keys were
first met in. -/
inductive Primitive where
  | null
  | bool (b : Bool)
  | int (n : Int)
  | str (s : String)
  | list (items : List Primitive)
  | dict (fields : List (String × Primitive))

/-- An entry of a dictionary: it takes the place of the one under its key,
or comes last. -/
def putField {α : Type} (fields : List (String × α)) (field : String × α) : List (String × α) :=
  if fields.any fun old => old.1 == field.1 then
    fields.map fun old => if old.1 == field.1 then field else old
  else fields ++ [field]

/-- A dictionary comprehension. -/
def dictOf {α : Type} (fields : List (String × α)) : List (String × α) :=
  fields.foldl putField []

namespace Primitive

mutual

/-- The value `json.dumps` writes with `sort_keys`. -/
def encode : Primitive → Json
  | .null => .null
  | .bool b => .bool b
  | .int n => .int n
  | .str s => .str s
  | .list items => .arr (encodeItems items)
  | .dict fields => .obj ((encodeFields fields).insertionSort fun a b => a.1 ≤ b.1)

def encodeItems : List Primitive → List Json
  | [] => []
  | item :: rest => encode item :: encodeItems rest

def encodeFields : List (String × Primitive) → List (String × Json)
  | [] => []
  | (key, value) :: rest => (key, encode value) :: encodeFields rest

end

/-- `json.dumps(value, ensure_ascii=False, sort_keys=True, ...)`. -/
def dumps (value : Primitive) : String := value.encode.dumps

mutual

/-- A primitive value is one of those it can be made of. -/
def toValue : Primitive → PyValue
  | .null => .null
  | .bool b => .bool b
  | .int n => .int n
  | .str s => .str s
  | .list items => .list (toValueItems items)
  | .dict fields => .dict (toValueFields fields)

def toValueItems : List Primitive → List PyValue
  | [] => []
  | item :: rest => toValue item :: toValueItems rest

def toValueFields : List (String × Primitive) → List (Key × PyValue)
  | [] => []
  | (key, value) :: rest => (.str key, toValue value) :: toValueFields rest

end

end Primitive

namespace PyValue

mutual

/-- `to_primitive`. -/
def toPrimitive : PyValue → Primitive
  | .null => .null
  | .bool b => .bool b
  | .int n => .int n
  | .str s => .str s
  | .time d _ => .str d.toPrimitive
  | .list items => .list (toPrimitives items)
  | .set items => .list ((toPrimitives items).insertionSort fun a b => a.dumps ≤ b.dumps)
  | .dict entries => .dict (dictOf (toPrimitiveEntries entries))

def toPrimitives : List PyValue → List Primitive
  | [] => []
  | item :: rest => toPrimitive item :: toPrimitives rest

def toPrimitiveEntries : List (Key × PyValue) → List (String × Primitive)
  | [] => []
  | (key, value) :: rest => (key.text, toPrimitive value) :: toPrimitiveEntries rest

end

/-- `canonical_json`. -/
def canonicalText (v : PyValue) : String := v.toPrimitive.dumps

/-- `content_hash`. -/
def hash [Digest] (v : PyValue) : String := "sha256:" ++ Digest.sha256 v.canonicalText

/-- The value as it is written: sorted throughout. -/
def written (v : PyValue) : Json := v.toPrimitive.encode

end PyValue

/-! ## Dictionaries as they are looked up -/

section Fields

variable {α β : Type} {fields fields' : List (String × α)} {field old : String × α}

/-- A field put takes the place of the one under its key. -/
theorem mem_putField :
    old ∈ putField fields field ↔ old = field ∨ old ∈ fields ∧ old.1 ≠ field.1 := by
  unfold putField
  split_ifs with hkey
  · obtain ⟨taken, htaken, hsame⟩ := List.any_eq_true.1 hkey
    rw [List.mem_map]
    constructor
    · rintro ⟨before, hbefore, rfl⟩
      split_ifs with h
      · exact .inl rfl
      · exact .inr ⟨hbefore, by simpa using h⟩
    · rintro (rfl | ⟨hmem, hne⟩)
      · exact ⟨taken, htaken, by rw [if_pos hsame]⟩
      · exact ⟨old, hmem, by rw [if_neg (by simpa using hne)]⟩
  · have hfree : ∀ before ∈ fields, before.1 ≠ field.1 := fun before hbefore hsame =>
      hkey (List.any_eq_true.2 ⟨before, hbefore, by simpa using hsame⟩)
    rw [List.mem_append, List.mem_singleton, or_comm]
    exact or_congr_right ⟨fun hmem => ⟨hmem, hfree old hmem⟩, And.left⟩

theorem nodup_putField (h : (fields.map (·.1)).Nodup) :
    ((putField fields field).map (·.1)).Nodup := by
  unfold putField
  split_ifs with hkey
  · have hkeys : (fields.map fun old => if old.1 == field.1 then field else old).map (·.1) =
        fields.map (·.1) := by
      rw [List.map_map]
      refine List.map_congr_left fun old _ => ?_
      by_cases hsame : old.1 = field.1
      · simp [hsame]
      · simp [hsame]
    rwa [hkeys]
  · have hfree : field.1 ∉ fields.map (·.1) := by simpa using hkey
    rw [List.map_append, List.nodup_append]
    refine ⟨h, by simp, ?_⟩
    rintro key hmem _ hlast rfl
    simp only [List.map_cons, List.map_nil, List.mem_singleton] at hlast
    exact hfree (hlast ▸ hmem)

theorem dictOf_concat : dictOf (fields ++ [field]) = putField (dictOf fields) field := by
  rw [dictOf, List.foldl_append]
  rfl

/-- The keys of a dictionary are distinct. -/
theorem nodup_dictOf : ((dictOf fields).map (·.1)).Nodup := by
  induction fields using List.reverseRecOn with
  | nil => exact .nil
  | append_singleton fields field ih =>
    rw [dictOf_concat]
    exact nodup_putField ih

/-- **Of the fields under a key the last is kept.** -/
theorem mem_dictOf {key : String} {value : α} :
    (key, value) ∈ dictOf fields ↔ fields.reverse.lookup key = some value := by
  induction fields using List.reverseRecOn with
  | nil => simp [dictOf]
  | append_singleton fields field ih =>
    obtain ⟨last, kept⟩ := field
    rw [dictOf_concat, mem_putField, ih, List.reverse_append, List.reverse_singleton,
      List.singleton_append, List.lookup_cons]
    by_cases hkey : key = last
    · subst hkey
      simp [eq_comm]
    · simp [hkey, beq_eq_false_iff_ne.2 hkey]

/-- What is a dictionary already is made one as it is. -/
theorem dictOf_eq (h : (fields.map (·.1)).Nodup) : dictOf fields = fields := by
  induction fields using List.reverseRecOn with
  | nil => rfl
  | append_singleton fields field ih =>
    rw [List.map_append, List.nodup_append] at h
    obtain ⟨hrest, -, hfresh⟩ := h
    rw [dictOf_concat, ih hrest, putField, if_neg]
    intro hkey
    obtain ⟨old, hold, hsame⟩ := List.any_eq_true.1 hkey
    exact hfresh old.1 (List.mem_map_of_mem hold) field.1 (by simp) (by simpa using hsame)

/-- Fields in the order of their keys are told by which they are. -/
theorem eq_of_ordered (h : (fields.map (·.1)).Pairwise (· < ·))
    (h' : (fields'.map (·.1)).Pairwise (· < ·)) (hmem : ∀ field, field ∈ fields ↔ field ∈ fields') :
    fields = fields' := by
  rw [List.pairwise_map] at h h'
  have hnodup : ∀ {l : List (String × α)}, l.Pairwise (fun a b => a.1 < b.1) → l.Nodup := by
    refine fun {l} hl => hl.imp ?_
    rintro a _ hlt rfl
    exact String.lt_irrefl _ hlt
  refine List.Perm.eq_of_pairwise (fun a b _ _ hab hba => ?_) h h'
    ((List.perm_ext_iff_of_nodup (hnodup h) (hnodup h')).2 hmem)
  exact absurd hba (String.lt_asymm hab)

/-- Sorting distinct keys puts each before the next. -/
theorem ordered_sorted (h : (fields.map (·.1)).Nodup) :
    ((fields.insertionSort fun a b => a.1 ≤ b.1).map (·.1)).Pairwise (· < ·) := by
  have hsorted := List.pairwise_insertionSort (fun a b : String × α => a.1 ≤ b.1) fields
  have hdistinct : ((fields.insertionSort fun a b => a.1 ≤ b.1).map (·.1)).Nodup :=
    ((List.perm_insertionSort _ fields).map _).nodup_iff.2 h
  rw [List.pairwise_map]
  rw [List.Nodup, List.pairwise_map] at hdistinct
  refine hsorted.imp₂ (fun a b hle hne => ?_) hdistinct
  exact String.not_le.1 fun hge => hne (String.le_antisymm hle hge)

end Fields

/-! ## What is written -/

namespace Primitive

theorem encodeItems_eq {items : List Primitive} : encodeItems items = items.map encode := by
  induction items with
  | nil => rfl
  | cons item items ih => rw [encodeItems, ih, List.map_cons]

theorem encodeFields_eq {fields : List (String × Primitive)} :
    encodeFields fields = fields.map fun field => (field.1, encode field.2) := by
  induction fields with
  | nil => rfl
  | cons field fields ih => rw [encodeFields, ih, List.map_cons]

theorem toValueItems_eq {items : List Primitive} : toValueItems items = items.map toValue := by
  induction items with
  | nil => rfl
  | cons item items ih => rw [toValueItems, ih, List.map_cons]

theorem toValueFields_eq {fields : List (String × Primitive)} :
    toValueFields fields = fields.map fun field => (.str field.1, toValue field.2) := by
  induction fields with
  | nil => rfl
  | cons field fields ih => rw [toValueFields, ih, List.map_cons]

end Primitive

namespace PyValue

theorem toPrimitives_eq {items : List PyValue} : toPrimitives items = items.map toPrimitive := by
  induction items with
  | nil => rfl
  | cons item items ih => rw [toPrimitives, ih, List.map_cons]

theorem toPrimitiveEntries_eq {entries : List (Key × PyValue)} :
    toPrimitiveEntries entries = entries.map fun entry => (entry.1.text, toPrimitive entry.2) := by
  induction entries with
  | nil => rfl
  | cons entry entries ih => rw [toPrimitiveEntries, ih, List.map_cons]

/-- What is kept under a text: the last value of those whose keys have it. -/
def kept (entries : List (Key × PyValue)) (key : String) : Option Json :=
  (entries.map fun entry => (entry.1.text, entry.2.written)).reverse.lookup key

variable {items items' : List PyValue} {entries entries' : List (Key × PyValue)}

theorem written_list : (PyValue.list items).written = .arr (items.map written) := by
  rw [written, toPrimitive, Primitive.encode, Primitive.encodeItems_eq, toPrimitives_eq,
    List.map_map]
  rfl

/-- A set is written in the order of its elements' texts. -/
theorem written_set : ∃ sorted, (PyValue.set items).written = .arr sorted ∧
    sorted.Perm (items.map written) ∧ sorted.Pairwise fun a b => a.dumps ≤ b.dumps := by
  refine ⟨_, by rw [written, toPrimitive, Primitive.encode, Primitive.encodeItems_eq], ?_, ?_⟩
  · have hperm := (List.perm_insertionSort (fun a b : Primitive => a.dumps ≤ b.dumps)
      (toPrimitives items)).map Primitive.encode
    rw [toPrimitives_eq, List.map_map] at hperm
    rw [toPrimitives_eq]
    exact hperm
  · rw [List.pairwise_map]
    exact List.pairwise_insertionSort _ _

/-- A mapping is written in the order of its keys' texts, each with what is
kept under it. -/
theorem written_dict : ∃ fields, (PyValue.dict entries).written = .obj fields ∧
    (fields.map (·.1)).Pairwise (· < ·) ∧
    ∀ key value, (key, value) ∈ fields ↔ kept entries key = some value := by
  refine ⟨_, by rw [written, toPrimitive, Primitive.encode], ordered_sorted ?_, fun key value => ?_⟩
  · rw [Primitive.encodeFields_eq, List.map_map]
    exact nodup_dictOf
  · have hlookup : ∀ {α β : Type} {f : α → β} {l : List (String × α)},
        (l.map fun field => (field.1, f field.2)).lookup key = (l.lookup key).map f := by
      intro α β f l
      induction l with
      | nil => rfl
      | cons field l ih =>
        rw [List.map_cons, List.lookup_cons, List.lookup_cons, ih]
        cases key == field.1 <;> rfl
    have hkept : kept entries key =
        ((toPrimitiveEntries entries).reverse.lookup key).map Primitive.encode := by
      rw [← hlookup, List.map_reverse, toPrimitiveEntries_eq, List.map_map]
      rfl
    rw [List.mem_insertionSort, Primitive.encodeFields_eq, List.mem_map, hkept,
      Option.map_eq_some_iff]
    constructor
    · rintro ⟨⟨name, primitive⟩, hmem, heq⟩
      obtain ⟨rfl, rfl⟩ := Prod.mk.inj heq
      exact ⟨primitive, mem_dictOf.1 hmem, rfl⟩
    · rintro ⟨primitive, hlast, rfl⟩
      exact ⟨(key, primitive), mem_dictOf.2 hlast, rfl⟩

theorem sizeOf_item_lt {item : PyValue} (h : item ∈ items) : sizeOf item < sizeOf (list items) := by
  have hitem := List.sizeOf_lt_of_mem h
  rw [list.sizeOf_spec]
  omega

theorem sizeOf_element_lt {item : PyValue} (h : item ∈ items) :
    sizeOf item < sizeOf (set items) := by
  have hitem := List.sizeOf_lt_of_mem h
  rw [set.sizeOf_spec]
  omega

theorem sizeOf_entry_lt {entry : Key × PyValue} (h : entry ∈ entries) :
    sizeOf entry.2 < sizeOf (dict entries) := by
  have hentry := List.sizeOf_lt_of_mem h
  have hpair : sizeOf entry = 1 + sizeOf entry.1 + sizeOf entry.2 := by cases entry; rfl
  rw [dict.sizeOf_spec]
  omega

/-- What is written is a proper value: the keys of every object are in
order. -/
theorem proper_written : ∀ v : PyValue, Json.Proper (fun _ => none) v.written
  | .null | .bool _ | .int _ | .str _ | .time _ _ => trivial
  | .list items => by
    have hitems : ∀ item ∈ items, Json.Proper (fun _ => none) item.written :=
      fun item hitem => proper_written item
    rw [written_list, Json.Proper, Json.properItems_iff]
    simpa using hitems
  | .set items => by
    have hitems : ∀ item ∈ items, Json.Proper (fun _ => none) item.written :=
      fun item hitem => proper_written item
    obtain ⟨sorted, hwritten, hperm, -⟩ := @written_set items
    rw [hwritten, Json.Proper, Json.properItems_iff]
    intro value hvalue
    obtain ⟨item, hitem, rfl⟩ := List.mem_map.1 (hperm.mem_iff.1 hvalue)
    exact hitems item hitem
  | .dict entries => by
    have hentries : ∀ entry ∈ entries, Json.Proper (fun _ => none) entry.2.written :=
      fun entry hentry => proper_written entry.2
    obtain ⟨fields, hwritten, hordered, hfields⟩ := @written_dict entries
    rw [hwritten, Json.Proper, Json.properFields_iff]
    refine ⟨hordered, fun field hfield => ?_⟩
    have hlast := Library.mem_of_lookup ((hfields field.1 field.2).1 hfield)
    obtain ⟨entry, hentry, heq⟩ := List.mem_map.1 (List.mem_reverse.1 hlast)
    rw [← (Prod.mk.inj heq).2]
    exact hentries entry hentry
termination_by v => sizeOf v
decreasing_by
  · exact sizeOf_item_lt hitem
  · exact sizeOf_element_lt hitem
  · exact sizeOf_entry_lt hentry

/-- **Values are written alike where their texts are the same.** -/
theorem canonicalText_eq_iff {v w : PyValue} :
    v.canonicalText = w.canonicalText ↔ v.written = w.written := by
  constructor
  · exact fun h => Json.dumps_inj (proper_written v) (proper_written w) h
  · intro h
    rw [canonicalText, canonicalText, Primitive.dumps, Primitive.dumps, ← written, ← written, h]

theorem written_set_eq_iff :
    (PyValue.set items).written = (PyValue.set items').written ↔
      (items.map written).Perm (items'.map written) := by
  obtain ⟨sorted, hwritten, hperm, hordered⟩ := @written_set items
  obtain ⟨sorted', hwritten', hperm', hordered'⟩ := @written_set items'
  rw [hwritten, hwritten', Json.arr.injEq]
  constructor
  · rintro rfl
    exact hperm.symm.trans hperm'
  · intro h
    have hproper : ∀ {l : List PyValue} {value : Json}, value ∈ l.map written →
        Json.Proper (fun _ => none) value := by
      intro l value hvalue
      obtain ⟨item, -, rfl⟩ := List.mem_map.1 hvalue
      exact proper_written item
    refine List.Perm.eq_of_pairwise (fun a b ha hb hab hba => ?_) hordered hordered'
      ((hperm.trans h).trans hperm'.symm)
    exact Json.dumps_inj (hproper (hperm.mem_iff.1 ha)) (hproper (hperm'.mem_iff.1 hb))
      (String.le_antisymm hab hba)

theorem written_dict_eq_iff :
    (PyValue.dict entries).written = (PyValue.dict entries').written ↔
      ∀ key, kept entries key = kept entries' key := by
  obtain ⟨fields, hwritten, hordered, hfields⟩ := @written_dict entries
  obtain ⟨fields', hwritten', hordered', hfields'⟩ := @written_dict entries'
  rw [hwritten, hwritten', Json.obj.injEq]
  constructor
  · rintro rfl key
    exact Option.ext fun value => (hfields key value).symm.trans (hfields' key value)
  · intro h
    refine eq_of_ordered hordered hordered' fun field => ?_
    rw [hfields field.1 field.2, hfields' field.1 field.2, h]

/-! ## Reordering -/

/-- The values differ only in the order some mappings and sets in them are
iterated in. -/
inductive Reordered : PyValue → PyValue → Prop where
  | refl {v : PyValue} : Reordered v v
  | trans {v w x : PyValue} : Reordered v w → Reordered w x → Reordered v x
  | set {items items' : List PyValue} : items.Perm items' → Reordered (.set items) (.set items')
  | dict {entries entries' : List (Key × PyValue)} : entries.Perm entries' →
      Reordered (.dict entries) (.dict entries')
  | inList {before after : List PyValue} {v w : PyValue} : Reordered v w →
      Reordered (.list (before ++ v :: after)) (.list (before ++ w :: after))
  | inSet {before after : List PyValue} {v w : PyValue} : Reordered v w →
      Reordered (.set (before ++ v :: after)) (.set (before ++ w :: after))
  | inDict {before after : List (Key × PyValue)} {key : Key} {v w : PyValue} : Reordered v w →
      Reordered (.dict (before ++ (key, v) :: after)) (.dict (before ++ (key, w) :: after))

/-- Wherever two keys of one mapping have the same text, what is under them
is written alike. -/
inductive Unambiguous : PyValue → Prop where
  | null : Unambiguous .null
  | bool {b : Bool} : Unambiguous (.bool b)
  | int {n : Int} : Unambiguous (.int n)
  | str {s : String} : Unambiguous (.str s)
  | time {d : DateTime} {aware : d.naive = false} : Unambiguous (.time d aware)
  | list {items : List PyValue} : (∀ item ∈ items, Unambiguous item) → Unambiguous (.list items)
  | set {items : List PyValue} : (∀ item ∈ items, Unambiguous item) → Unambiguous (.set items)
  | dict {entries : List (Key × PyValue)} : (∀ entry ∈ entries, Unambiguous entry.2) →
      (∀ entry ∈ entries, ∀ other ∈ entries, entry.1.text = other.1.text →
        entry.2.canonicalText = other.2.canonicalText) → Unambiguous (.dict entries)

/-- What is kept is written from a value under that text. -/
theorem kept_eq_some {key : String} {value : Json} (h : kept entries key = some value) :
    ∃ entry ∈ entries, entry.1.text = key ∧ entry.2.written = value := by
  have hlast := Library.mem_of_lookup h
  obtain ⟨entry, hentry, heq⟩ := List.mem_map.1 (List.mem_reverse.1 hlast)
  exact ⟨entry, hentry, (Prod.mk.inj heq).1, (Prod.mk.inj heq).2⟩

/-- Where keys of one text hold what is written alike, each value is what
is kept under its text. -/
theorem kept_iff (hclear : ∀ entry ∈ entries, ∀ other ∈ entries, entry.1.text = other.1.text →
      entry.2.canonicalText = other.2.canonicalText) {key : String} {value : Json} :
    kept entries key = some value ↔
      ∃ entry ∈ entries, entry.1.text = key ∧ entry.2.written = value := by
  refine ⟨kept_eq_some, ?_⟩
  rintro ⟨entry, hentry, rfl, rfl⟩
  cases hkept : kept entries entry.1.text with
  | none =>
    have hnever := List.lookup_eq_none_iff.1 hkept (entry.1.text, entry.2.written)
      (List.mem_reverse.2 (List.mem_map_of_mem hentry))
    simp at hnever
  | some value =>
    obtain ⟨other, hother, htext, rfl⟩ := kept_eq_some hkept
    rw [canonicalText_eq_iff.1 (hclear entry hentry other hother htext.symm)]

/-- What comes last is kept. -/
theorem kept_last {key : Key} {v : PyValue} :
    kept (entries ++ [(key, v)]) key.text = some v.written := by
  rw [kept, List.map_append, List.reverse_append]
  simp

theorem written_dict_congr
    (hclear : ∀ entry ∈ entries, ∀ other ∈ entries, entry.1.text = other.1.text →
      entry.2.canonicalText = other.2.canonicalText)
    (hclear' : ∀ entry ∈ entries', ∀ other ∈ entries', entry.1.text = other.1.text →
      entry.2.canonicalText = other.2.canonicalText)
    (h : ∀ key value, (∃ entry ∈ entries, entry.1.text = key ∧ entry.2.written = value) ↔
      ∃ entry ∈ entries', entry.1.text = key ∧ entry.2.written = value) :
    (PyValue.dict entries).written = (PyValue.dict entries').written := by
  refine written_dict_eq_iff.2 fun key => Option.ext fun value => ?_
  exact (kept_iff hclear).trans ((h key value).trans (kept_iff hclear').symm)

/-- **An unambiguous value is written alike in every order**, and stays
unambiguous. -/
theorem written_of_reordered {v w : PyValue} (h : Reordered v w) (hv : Unambiguous v) :
    w.written = v.written ∧ Unambiguous w := by
  induction h with
  | refl => exact ⟨rfl, hv⟩
  | trans _ _ ih ih' =>
    obtain ⟨hfirst, hw⟩ := ih hv
    obtain ⟨hsecond, hx⟩ := ih' hw
    exact ⟨hsecond.trans hfirst, hx⟩
  | set hperm =>
    -- a set is written in the order of its members' texts
    cases hv with
    | set hitems =>
      exact ⟨written_set_eq_iff.2 (hperm.symm.map _),
        .set fun item hitem => hitems item (hperm.mem_iff.2 hitem)⟩
  | @dict entries entries' hperm =>
    cases hv with
    | dict hentries hclear =>
      have hclear' : ∀ entry ∈ entries', ∀ other ∈ entries', entry.1.text = other.1.text →
          entry.2.canonicalText = other.2.canonicalText := fun entry hentry other hother =>
        hclear entry (hperm.mem_iff.2 hentry) other (hperm.mem_iff.2 hother)
      refine ⟨written_dict_congr hclear' hclear fun key value => ?_,
        .dict (fun entry hentry => hentries entry (hperm.mem_iff.2 hentry)) hclear'⟩
      exact exists_congr fun entry => and_congr_left fun _ => hperm.mem_iff.symm
  | @inList before after v w _ ih =>
    cases hv with
    | list hitems =>
      obtain ⟨hwritten, hw⟩ := ih (hitems v (by simp))
      refine ⟨by rw [written_list, written_list, List.map_append, List.map_append, List.map_cons,
        List.map_cons, hwritten], .list fun item hitem => ?_⟩
      rw [List.mem_append, List.mem_cons] at hitem
      rcases hitem with hitem | rfl | hitem
      · exact hitems item (by simp [hitem])
      · exact hw
      · exact hitems item (by simp [hitem])
  | @inSet before after v w _ ih =>
    cases hv with
    | set hitems =>
      obtain ⟨hwritten, hw⟩ := ih (hitems v (by simp))
      refine ⟨written_set_eq_iff.2 ?_, .set fun item hitem => ?_⟩
      · rw [List.map_append, List.map_append, List.map_cons, List.map_cons, hwritten]
      rw [List.mem_append, List.mem_cons] at hitem
      rcases hitem with hitem | rfl | hitem
      · exact hitems item (by simp [hitem])
      · exact hw
      · exact hitems item (by simp [hitem])
  | @inDict before after key v w _ ih =>
    cases hv with
    | dict hentries hclear =>
      obtain ⟨hwritten, hw⟩ := ih (hentries (key, v) (by simp))
      -- entry by entry the two mappings hold values written alike
      have hback : ∀ entry ∈ before ++ (key, w) :: after, ∃ other ∈ before ++ (key, v) :: after,
          other.1 = entry.1 ∧ other.2.written = entry.2.written := by
        intro entry hentry
        rw [List.mem_append, List.mem_cons] at hentry
        rcases hentry with hentry | rfl | hentry
        · exact ⟨entry, by simp [hentry], rfl, rfl⟩
        · exact ⟨(key, v), by simp, rfl, hwritten.symm⟩
        · exact ⟨entry, by simp [hentry], rfl, rfl⟩
      -- and the other way round
      have hforth : ∀ entry ∈ before ++ (key, v) :: after, ∃ other ∈ before ++ (key, w) :: after,
          other.1 = entry.1 ∧ other.2.written = entry.2.written := by
        intro entry hentry
        rw [List.mem_append, List.mem_cons] at hentry
        rcases hentry with hentry | rfl | hentry
        · exact ⟨entry, by simp [hentry], rfl, rfl⟩
        · exact ⟨(key, w), by simp, rfl, hwritten⟩
        · exact ⟨entry, by simp [hentry], rfl, rfl⟩
      have hclear' : ∀ entry ∈ before ++ (key, w) :: after, ∀ other ∈ before ++ (key, w) :: after,
          entry.1.text = other.1.text → entry.2.canonicalText = other.2.canonicalText := by
        intro entry hentry other hother htext
        obtain ⟨entry', hentry', hkey, hsame⟩ := hback entry hentry
        obtain ⟨other', hother', hkey', hsame'⟩ := hback other hother
        rw [canonicalText_eq_iff, ← hsame, ← hsame']
        exact canonicalText_eq_iff.1 (hclear entry' hentry' other' hother'
          (by rw [hkey, hkey', htext]))
      refine ⟨written_dict_congr hclear' hclear fun key value => ⟨?_, ?_⟩, .dict ?_ hclear'⟩
      · rintro ⟨entry, hentry, rfl, rfl⟩
        obtain ⟨other, hother, hkey, hsame⟩ := hback entry hentry
        exact ⟨other, hother, by rw [hkey], hsame⟩
      · rintro ⟨entry, hentry, rfl, rfl⟩
        obtain ⟨other, hother, hkey, hsame⟩ := hforth entry hentry
        exact ⟨other, hother, by rw [hkey], hsame⟩
      · intro entry hentry
        rw [List.mem_append, List.mem_cons] at hentry
        rcases hentry with hentry | rfl | hentry
        · exact hentries entry (by simp [hentry])
        · exact hw
        · exact hentries entry (by simp [hentry])

/-- **A value written alike in every order is unambiguous.** -/
theorem unambiguous_of_written : ∀ v : PyValue,
    (∀ w, Reordered v w → w.written = v.written) → Unambiguous v
  | .null, _ => .null
  | .bool _, _ => .bool
  | .int _, _ => .int
  | .str _, _ => .str
  | .time _ _, _ => .time
  | .list items, h => by
    refine .list fun item hitem => unambiguous_of_written item fun w hw => ?_
    obtain ⟨before, after, hsplit⟩ := List.append_of_mem hitem
    rw [hsplit] at h
    have hsame := h _ (.inList hw)
    rw [written_list, written_list, Json.arr.injEq, List.map_append, List.map_append,
      List.map_cons, List.map_cons] at hsame
    exact (List.cons.inj (List.append_cancel_left hsame)).1
  | .set items, h => by
    refine .set fun item hitem => unambiguous_of_written item fun w hw => ?_
    obtain ⟨before, after, hsplit⟩ := List.append_of_mem hitem
    rw [hsplit] at h
    have hsame := h _ (.inSet hw)
    rw [written_set_eq_iff, List.map_append, List.map_append, List.map_cons,
      List.map_cons] at hsame
    have hcons := (List.perm_append_left_iff _).1 hsame
    have hone : [w.written].Perm [item.written] := (List.perm_append_right_iff _).1 hcons
    exact List.singleton_inj.1 (List.perm_singleton.1 hone)
  | .dict entries, h => by
    -- put last, whatever order its value is in, an entry is what is kept
    have hlast : ∀ entry ∈ entries, ∀ w, Reordered entry.2 w →
        kept entries entry.1.text = some w.written := by
      rintro ⟨key, v⟩ hentry w hw
      obtain ⟨before, after, rfl⟩ := List.append_of_mem hentry
      have hmoved : Reordered (.dict (before ++ (key, v) :: after))
          (.dict ((before ++ after) ++ [(key, w)])) := by
        have hput : Reordered (.dict ((before ++ after) ++ [(key, v)]))
            (.dict ((before ++ after) ++ [(key, w)])) := .inDict hw
        exact .trans (.dict (List.perm_middle.trans (List.perm_append_singleton _ _).symm)) hput
      rw [← written_dict_eq_iff.1 (h _ hmoved) key.text, kept_last]
    have hheld : ∀ entry ∈ entries, kept entries entry.1.text = some entry.2.written :=
      fun entry hentry => hlast entry hentry entry.2 .refl
    refine .dict (fun entry hentry => unambiguous_of_written entry.2 fun w hw => ?_)
      fun entry hentry other hother htext => ?_
    · have hkept := hlast entry hentry w hw
      rw [hheld entry hentry, Option.some.injEq] at hkept
      exact hkept.symm
    · have hkept := hheld entry hentry
      rw [htext, hheld other hother, Option.some.injEq] at hkept
      exact canonicalText_eq_iff.2 hkept.symm
termination_by v => sizeOf v
decreasing_by
  · exact sizeOf_item_lt hitem
  · exact sizeOf_element_lt hitem
  · exact sizeOf_entry_lt hentry

/-! ## A value made primitive -/

/-- Making a value primitive makes it all it can be. -/
theorem toPrimitive_toValue : ∀ v : PyValue, v.toPrimitive.toValue.toPrimitive = v.toPrimitive
  | .null | .bool _ | .int _ | .str _ | .time _ _ => rfl
  | .list items => by
    have hitems : ∀ item ∈ items, item.toPrimitive.toValue.toPrimitive = item.toPrimitive :=
      fun item hitem => toPrimitive_toValue item
    rw [toPrimitive, Primitive.toValue, Primitive.toValueItems_eq, toPrimitive, toPrimitives_eq,
      toPrimitives_eq, List.map_map, List.map_map]
    exact congrArg Primitive.list (List.map_congr_left hitems)
  | .set items => by
    have hitems : ∀ item ∈ items, item.toPrimitive.toValue.toPrimitive = item.toPrimitive :=
      fun item hitem => toPrimitive_toValue item
    rw [toPrimitive, Primitive.toValue, Primitive.toValueItems_eq, toPrimitive, toPrimitives_eq,
      toPrimitives_eq, List.map_map]
    refine congrArg Primitive.list ((List.map_congr_left fun primitive hmem => ?_).trans
      (List.map_id _))
    obtain ⟨item, hitem, rfl⟩ := List.mem_map.1 ((List.mem_insertionSort _).1 hmem)
    exact hitems item hitem
  | .dict entries => by
    have hentries : ∀ entry ∈ entries,
        entry.2.toPrimitive.toValue.toPrimitive = entry.2.toPrimitive :=
      fun entry hentry => toPrimitive_toValue entry.2
    rw [toPrimitive, Primitive.toValue, Primitive.toValueFields_eq, toPrimitive,
      toPrimitiveEntries_eq, List.map_map]
    have hsame : (dictOf (toPrimitiveEntries entries)).map ((fun entry : Key × PyValue =>
        (entry.1.text, entry.2.toPrimitive)) ∘ fun field : String × Primitive =>
          (Key.str field.1, field.2.toValue)) = dictOf (toPrimitiveEntries entries) := by
      refine (List.map_congr_left fun field hfield => ?_).trans (List.map_id _)
      have hlast := Library.mem_of_lookup (mem_dictOf.1 hfield)
      rw [toPrimitiveEntries_eq] at hlast
      obtain ⟨entry, hentry, heq⟩ := List.mem_map.1 (List.mem_reverse.1 hlast)
      obtain ⟨name, primitive⟩ := field
      obtain ⟨rfl, rfl⟩ := Prod.mk.inj heq
      exact Prod.ext rfl (hentries entry hentry)
    rw [hsame, dictOf_eq nodup_dictOf]
termination_by v => sizeOf v
decreasing_by
  · exact sizeOf_item_lt hitem
  · exact sizeOf_element_lt hitem
  · exact sizeOf_entry_lt hentry

/-- **When canonical JSON is independent of iteration order**: exactly where
no mapping in the value has two keys of one text, unless what is under them
is written alike. Making the value primitive first changes nothing, ever. -/
theorem canonical_order_free [Digest] (v : PyValue) :
    ((∀ w, Reordered v w → w.canonicalText = v.canonicalText ∧ w.hash = v.hash) ↔
      Unambiguous v) ∧
    v.toPrimitive.toValue.canonicalText = v.canonicalText := by
  refine ⟨⟨fun h => ?_, fun hv w hw => ?_⟩, ?_⟩
  · exact unambiguous_of_written v fun w hw => canonicalText_eq_iff.1 (h w hw).1
  · have htext := canonicalText_eq_iff.2 (written_of_reordered hw hv).1
    exact ⟨htext, by rw [hash, hash, htext]⟩
  · rw [canonicalText, toPrimitive_toValue, canonicalText]

/-- `{1: "a", "1": "b"}`. -/
def clash : PyValue := .dict [(.int 1, .str "a"), (.str "1", .str "b")]

/-- **Two orders of a mapping, two texts**: both keys become `"1"`, and the
value met later is kept. -/
theorem canonical_order_clash :
    ∃ w, Reordered clash w ∧ w.canonicalText ≠ clash.canonicalText := by
  refine ⟨.dict [(.str "1", .str "b"), (.int 1, .str "a")], .dict (.swap _ _ _), ?_⟩
  decide +kernel

end PyValue

end ArgoTwin
