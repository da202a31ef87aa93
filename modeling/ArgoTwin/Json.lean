import ArgoTwin.Errors
import ArgoTwin.Library.Dict
/-!
# JSON values

Event payloads and stored records are JSON objects that the code reads
with Python's own operations: truth, `str`, `==`, iteration, `isinstance`.
Identifiers are read with `str(...)` in one place and compared raw in
another, so a payload whose identifier is a number is not the same as one
whose identifier is text, and the values here keep the difference.

An object is its list of fields in the order they were put in, which is
what `str` shows of it. `json.dumps(sort_keys=True)` writes them in key
order, and so `json.loads` reads them back: `Json.reread` is what comes
back of a value, and `Json.object` puts fields in that order.
-/

namespace ArgoTwin

/-- A finite float by the digits Python prints: `± digits · 10 ^ exponent`,
with no trailing zero among the digits. -/
structure PyFloat where
  negative : Bool
  digits : Nat
  exponent : Int
  normal : digits % 10 ≠ 0 ∨ (digits = 0 ∧ exponent = 0)
  deriving DecidableEq

namespace PyFloat

/-- `0.0 <= x <= 1.0`. -/
def inUnit (x : PyFloat) : Bool :=
  (x.digits == 0) || (!x.negative &&
    (if 0 ≤ x.exponent then x.digits * 10 ^ x.exponent.toNat ≤ 1
     else x.digits ≤ 10 ^ (-x.exponent).toNat))

/-- `x == n` for an integer `n`. -/
def eqInt (x : PyFloat) (n : Int) : Bool :=
  let signed : Int := if x.negative then -(x.digits : Int) else x.digits
  if 0 ≤ x.exponent then signed * 10 ^ x.exponent.toNat == n
  else signed == n * 10 ^ (-x.exponent).toNat

/-- `x == y`, which holds of the two zeros. -/
def eqFloat (x y : PyFloat) : Bool :=
  (x.digits == 0 && y.digits == 0) ||
    (x.negative == y.negative && x.digits == y.digits && x.exponent == y.exponent)

/-- `repr(x)`: positional between `1e-4` and `1e16`, scientific outside. -/
def repr (x : PyFloat) : String :=
  let digits := toString x.digits
  let point : Int := digits.length + x.exponent
  let body :=
    if x.digits = 0 then "0.0"
    else if point ≤ -4 ∨ 16 < point then
      let power := point - 1
      let size := toString power.natAbs
      String.ofList (digits.toList.take 1) ++
        (if digits.length = 1 then "" else "." ++ String.ofList (digits.toList.drop 1)) ++
        "e" ++ (if power < 0 then "-" else "+") ++
        (if size.length = 1 then "0" ++ size else size)
    else if point ≤ 0 then
      "0." ++ String.ofList (List.replicate (-point).toNat '0') ++ digits
    else if digits.length ≤ point.toNat then
      digits ++ String.ofList (List.replicate (point.toNat - digits.length) '0') ++ ".0"
    else
      String.ofList (digits.toList.take point.toNat) ++ "." ++
        String.ofList (digits.toList.drop point.toNat)
  if x.negative then "-" ++ body else body

end PyFloat

/-- A JSON value. -/
inductive Json where
  | null
  | bool (b : Bool)
  | int (n : Int)
  | float (x : PyFloat)
  | str (s : String)
  | arr (items : List Json)
  | obj (fields : List (String × Json))

/-- A `dict[str, Any]`. -/
abbrev Payload := Dict Json

namespace Json

mutual

/-- Equality of the values as written. -/
def decEq : (a b : Json) → Decidable (a = b)
  | .null, .null => isTrue rfl
  | .bool a, .bool b => decidable_of_iff (a = b) (by simp)
  | .int a, .int b => decidable_of_iff (a = b) (by simp)
  | .float a, .float b => decidable_of_iff (a = b) (by simp)
  | .str a, .str b => decidable_of_iff (a = b) (by simp)
  | .arr a, .arr b => @decidable_of_iff _ (a = b) (by simp) (decEqItems a b)
  | .obj a, .obj b => @decidable_of_iff _ (a = b) (by simp) (decEqFields a b)
  | .null, .bool _ | .null, .int _ | .null, .float _ | .null, .str _ | .null, .arr _
  | .null, .obj _ | .bool _, .null | .bool _, .int _ | .bool _, .float _ | .bool _, .str _
  | .bool _, .arr _ | .bool _, .obj _ | .int _, .null | .int _, .bool _ | .int _, .float _
  | .int _, .str _ | .int _, .arr _ | .int _, .obj _ | .float _, .null | .float _, .bool _
  | .float _, .int _ | .float _, .str _ | .float _, .arr _ | .float _, .obj _ | .str _, .null
  | .str _, .bool _ | .str _, .int _ | .str _, .float _ | .str _, .arr _ | .str _, .obj _
  | .arr _, .null | .arr _, .bool _ | .arr _, .int _ | .arr _, .float _ | .arr _, .str _
  | .arr _, .obj _ | .obj _, .null | .obj _, .bool _ | .obj _, .int _ | .obj _, .float _
  | .obj _, .str _ | .obj _, .arr _ => isFalse (by simp)

def decEqItems : (a b : List Json) → Decidable (a = b)
  | [], [] => isTrue rfl
  | [], _ :: _ | _ :: _, [] => isFalse (by simp)
  | a :: as, b :: bs =>
    @decidable_of_iff _ (a = b ∧ as = bs) (by simp) (@instDecidableAnd _ _ (decEq a b) (decEqItems as bs))

def decEqFields : (a b : List (String × Json)) → Decidable (a = b)
  | [], [] => isTrue rfl
  | [], _ :: _ | _ :: _, [] => isFalse (by simp)
  | (k, a) :: as, (l, b) :: bs =>
    @decidable_of_iff _ (k = l ∧ a = b ∧ as = bs) (by simp [and_assoc])
      (@instDecidableAnd _ _ _ (@instDecidableAnd _ _ (decEq a b) (decEqFields as bs)))

end

instance : DecidableEq Json := decEq

instance : Inhabited Json := ⟨.null⟩

/-- The object with these fields; of two under one key the later stays. -/
def object (fields : List (String × Json)) : Json :=
  .obj (Std.ExtTreeMap.ofList fields).toList

/-- An object as a dictionary. -/
def ofPayload (p : Payload) : Json := .obj p.toList

/-- `value.get(key)` of an object; none of anything else. -/
def get? (key : String) : Json → Option Json
  | .obj fields => (fields.find? (fun field => field.1 == key)).map (·.2)
  | _ => none

def isDict : Json → Bool
  | .obj _ => true
  | _ => false

mutual

/-- `json.loads(canonical_json(value))`: every object in key order. -/
def reread : Json → Json
  | .arr items => .arr (rereadItems items)
  | .obj fields => object (rereadFields fields)
  | value => value

def rereadItems : List Json → List Json
  | [] => []
  | item :: rest => reread item :: rereadItems rest

def rereadFields : List (String × Json) → List (String × Json)
  | [] => []
  | (key, value) :: rest => (key, reread value) :: rereadFields rest

end

/-- A value that is read back as it was. -/
def Canonical (value : Json) : Prop := value.reread = value

instance (value : Json) : Decidable value.Canonical :=
  inferInstanceAs (Decidable (value.reread = value))

/-- `bool(value)`. -/
def truthy : Json → Bool
  | .null => false
  | .bool b => b
  | .int n => n != 0
  | .float x => x.digits != 0
  | .str s => s != ""
  | .arr items => !items.isEmpty
  | .obj fields => !fields.isEmpty

/-- Python quotes a text with double quotes only to keep a single one. -/
def reprStr (s : String) : String :=
  let quote : Char := if s.toList.contains '\'' && !s.toList.contains '"' then '"' else '\''
  let escape : Char → List Char := fun c =>
    if c = '\\' then ['\\', '\\']
    else if c = quote then ['\\', c]
    else if c = '\n' then ['\\', 'n']
    else if c = '\r' then ['\\', 'r']
    else if c = '\t' then ['\\', 't']
    else [c]
  String.ofList (quote :: s.toList.flatMap escape ++ [quote])

mutual

/-- `repr(value)`. -/
def repr : Json → String
  | .null => "None"
  | .bool b => if b then "True" else "False"
  | .int n => toString n
  | .float x => x.repr
  | .str s => reprStr s
  | .arr items => "[" ++ reprItems items ++ "]"
  | .obj fields => "\x7b" ++ reprFields fields ++ "\x7d"

def reprItems : List Json → String
  | [] => ""
  | [item] => repr item
  | item :: rest => repr item ++ ", " ++ reprItems rest

def reprFields : List (String × Json) → String
  | [] => ""
  | [(key, value)] => reprStr key ++ ": " ++ repr value
  | (key, value) :: rest => reprStr key ++ ": " ++ repr value ++ ", " ++ reprFields rest

end

/-- `str(value)`. -/
def pyStr : Json → String
  | .str s => s
  | value => repr value

@[simp] theorem pyStr_str (s : String) : pyStr (.str s) = s := rfl

/-- Python's `str.isspace` of one character. -/
def isSpace (c : Char) : Bool :=
  let n := c.toNat
  (9 ≤ n && n ≤ 13) || (28 ≤ n && n ≤ 32) || n == 0x85 || n == 0xa0 || n == 0x1680 ||
    (0x2000 ≤ n && n ≤ 0x200a) || n == 0x2028 || n == 0x2029 || n == 0x202f || n == 0x205f ||
    n == 0x3000

/-- `int(text)`: blanks around it, a sign, and digits that single
underscores may part. -/
def intOfText (text : String) : Option Int :=
  match (text.toList.dropWhile isSpace).rdropWhile isSpace with
  | '+' :: digits => (String.ofList digits).toNat?.map Int.ofNat
  | '-' :: digits => (String.ofList digits).toNat?.map fun n => -(n : Int)
  | digits => (String.ofList digits).toNat?.map Int.ofNat

/-- The number a value counts as where `True` is `1`. -/
def asInt : Json → Option Int
  | .bool b => some (if b then 1 else 0)
  | .int n => some n
  | _ => none

mutual

/-- `a == b`: numbers compare across their types, containers by content,
objects whatever the order of their fields. -/
def pyEq : Json → Json → Bool
  | .null, .null => true
  | .str a, .str b => a == b
  | .arr a, .arr b => pyEqItems a b
  | .obj a, .obj b => a.length == b.length && pyEqFields a b
  | .float a, .float b => a.eqFloat b
  | .float a, b => (b.asInt.map a.eqInt).getD false
  | a, .float b => (a.asInt.map b.eqInt).getD false
  | .bool a, b => b.asInt == some (if a then 1 else 0)
  | .int a, b => b.asInt == some a
  | _, _ => false

def pyEqItems : List Json → List Json → Bool
  | [], [] => true
  | a :: as, b :: bs => pyEq a b && pyEqItems as bs
  | _, _ => false

/-- Every field of the first is found in the second. -/
def pyEqFields : List (String × Json) → List (String × Json) → Bool
  | [], _ => true
  | (key, a) :: rest, fields =>
    (match fields.lookup key with
      | some b => pyEq a b
      | none => false) && pyEqFields rest fields

end

/-- Equality where a missing key reads `None`. -/
def pyEqOption (a b : Option Json) : Bool := pyEq (a.getD .null) (b.getD .null)

/-- `hash(value)` does not raise. -/
def hashable : Json → Bool
  | .arr _ | .obj _ => false
  | _ => true

/-- `len(set(items)) != len(items)`; an unhashable item raises. -/
def hasDuplicates (items : List Json) : Except PyError Bool :=
  if items.all hashable then
    .ok (items.any fun a => 1 < (items.filter (pyEq a)).length)
  else .error (.typeError "unhashable type")

/-- `iter(value)`. -/
def pyIter : Json → Except PyError (List Json)
  | .arr items => .ok items
  | .obj fields => .ok (fields.map fun field => .str field.1)
  | .str s => .ok (s.toList.map fun c => .str (String.singleton c))
  | _ => .error (.typeError "object is not iterable")

/-- `set(value)`, as the list it is built from. -/
def pySet (value : Json) : Except PyError (List Json) := do
  let items ← pyIter value
  if items.all hashable then .ok items else .error (.typeError "unhashable type")

/-- `isinstance(value, (int, float))`. -/
def isNumber : Json → Bool
  | .bool _ | .int _ | .float _ => true
  | _ => false

/-- `0.0 <= value <= 1.0`; comparing anything but a number raises. -/
def inUnit : Json → Except PyError Bool
  | .float x => .ok x.inUnit
  | .bool _ => .ok true
  | .int n => .ok (0 ≤ n && n ≤ 1)
  | _ => .error (.typeError "'<=' not supported")

/-! ## Canonical text -/

/-- Two hexadecimal digits. -/
def hex2 (n : Nat) : List Char :=
  [Nat.digitChar (n / 16 % 16), Nat.digitChar (n % 16)]

/-- A text as `json.dumps(ensure_ascii=False)` quotes it. -/
def quoteStr (s : String) : String :=
  let escape : Char → List Char := fun c =>
    if c = '"' then ['\\', '"']
    else if c = '\\' then ['\\', '\\']
    else if c = '\n' then ['\\', 'n']
    else if c = '\r' then ['\\', 'r']
    else if c = '\t' then ['\\', 't']
    else if c.toNat = 8 then ['\\', 'b']
    else if c.toNat = 12 then ['\\', 'f']
    else if c.toNat < 32 then ['\\', 'u', '0', '0'] ++ hex2 c.toNat
    else [c]
  String.ofList ('"' :: s.toList.flatMap escape ++ ['"'])

mutual

/-- `json.dumps` with no blanks, the keys as they come. -/
def dumps : Json → String
  | .null => "null"
  | .bool b => if b then "true" else "false"
  | .int n => toString n
  | .float x => x.repr
  | .str s => quoteStr s
  | .arr items => "[" ++ dumpsItems items ++ "]"
  | .obj fields => "\x7b" ++ dumpsFields fields ++ "\x7d"

def dumpsItems : List Json → String
  | [] => ""
  | [item] => dumps item
  | item :: rest => dumps item ++ "," ++ dumpsItems rest

def dumpsFields : List (String × Json) → String
  | [] => ""
  | [(key, value)] => quoteStr key ++ ":" ++ dumps value
  | (key, value) :: rest => quoteStr key ++ ":" ++ dumps value ++ "," ++ dumpsFields rest

end

end Json

/-- `canonical_json` of a value already made of JSON: its keys sorted. -/
def canonicalJson (value : Json) : String := value.reread.dumps

namespace Payload

/-- A dictionary display: of two fields under one key the later stays. -/
def ofFields (fields : List (String × Json)) : Payload :=
  fields.foldl (fun p field => p.insert field.1 field.2) ∅

/-- A display is looked up from its end. -/
theorem getElem?_ofFields (fields : List (String × Json)) (key : String) :
    (ofFields fields)[key]? = fields.reverse.lookup key := by
  simp [ofFields, Library.getElem?_foldl_insert]

/-- The keys of a display. -/
theorem mem_ofFields {fields : List (String × Json)} {key : String} :
    key ∈ ofFields fields ↔ key ∈ fields.map (·.1) := by
  rw [Library.mem_iff_getElem?, getElem?_ofFields, ← List.mem_reverse, ← List.map_reverse]
  induction fields.reverse with
  | nil => simp
  | cons field rest ih =>
    rw [List.lookup_cons, List.map_cons, List.mem_cons, ← ih]
    by_cases h : key = field.1
    · simp [h]
    · simp [h, beq_eq_false_iff_ne.2 h]

@[simp] theorem ofFields_toList (p : Payload) : ofFields p.toList = p :=
  Library.foldl_insert_toList

/-- An object written from a dictionary is looked up in it. -/
theorem get?_ofPayload (p : Payload) (key : String) : Json.get? key (.ofPayload p) = p[key]? := by
  rw [Json.ofPayload, Json.get?]
  cases h : p[key]? with
  | none =>
    rw [Option.map_eq_none_iff, List.find?_eq_none]
    rintro ⟨k, v⟩ hmem
    rw [Library.mem_dict_toList] at hmem
    rintro heq
    obtain rfl : k = key := by simpa using heq
    rw [h] at hmem
    cases hmem
  | some v =>
    have hmem : (key, v) ∈ p.toList := Library.mem_dict_toList.2 h
    cases hfind : p.toList.find? fun field => field.1 == key with
    | none =>
      have hnever := List.find?_eq_none.1 hfind _ hmem
      simp at hnever
    | some field =>
      obtain ⟨k, w⟩ := field
      have hkey : k = key := by simpa using List.find?_some hfind
      have hfield := Library.mem_dict_toList.1 (List.mem_of_find?_eq_some hfind)
      rw [hkey, h] at hfield
      simpa using hfield.symm

/-- The fields of an object are those of the display. -/
theorem object_eq (fields : List (String × Json)) :
    Json.object fields = .ofPayload (ofFields fields) := by
  rw [Json.object, Json.ofPayload, ofFields, ← Std.ExtTreeMap.insertMany_list_eq_foldl,
    ← Std.ExtTreeMap.ofList_eq_insertMany_empty]

/-- A field of an object written out is the last one of that name. -/
theorem get?_object (fields : List (String × Json)) (name : String) :
    (Json.object fields).get? name = fields.reverse.lookup name := by
  rw [object_eq, get?_ofPayload, getElem?_ofFields]

/-- `payload.get(key)` in a condition: false where the key is missing. -/
def truthy (p : Payload) (key : String) : Bool :=
  match p[key]? with
  | some value => value.truthy
  | none => false

/-- `payload[key]`. -/
def require (p : Payload) (key : String) : Except PyError Json :=
  match p[key]? with
  | some value => .ok value
  | none => .error (.keyError key)

/-- `str(payload.get(key, default))`. -/
def strD (p : Payload) (key default : String) : String :=
  match p[key]? with
  | some value => value.pyStr
  | none => default

/-- `payload.get(key, [])`. -/
def listD (p : Payload) (key : String) : Json := p[key]?.getD (.arr [])

/-! ## What is read back -/

/-- `json.loads(canonical_json(payload))`. -/
def reread (p : Payload) : Payload := p.map fun _ value => value.reread

/-- A dictionary that is read back as it was. -/
def Canonical (p : Payload) : Prop := p.reread = p

instance (p : Payload) : Decidable p.Canonical := inferInstanceAs (Decidable (p.reread = p))

@[simp] theorem getElem?_reread (p : Payload) (key : String) :
    p.reread[key]? = p[key]?.map Json.reread := Std.ExtTreeMap.getElem?_map

end Payload

namespace Json

@[simp] theorem rereadItems_eq (items : List Json) : rereadItems items = items.map reread := by
  induction items with
  | nil => rfl
  | cons item rest ih => rw [rereadItems, ih, List.map_cons]

@[simp] theorem rereadFields_eq (fields : List (String × Json)) :
    rereadFields fields = fields.map fun field => (field.1, field.2.reread) := by
  induction fields with
  | nil => rfl
  | cons field rest ih => rw [rereadFields, ih, List.map_cons]

/-- What can be iterated can be once it is read back. -/
theorem pyIter_reread {value : Json} {items : List Json} (h : value.pyIter = .ok items) :
    ∃ items, value.reread.pyIter = .ok items := by
  cases value with
  | arr items => exact ⟨_, rfl⟩
  | obj fields => exact ⟨_, rfl⟩
  | str text => exact ⟨_, rfl⟩
  | _ => cases h

/-- A dictionary written out is read back field by field. -/
@[simp] theorem reread_ofPayload (p : Payload) : (ofPayload p).reread = ofPayload p.reread := by
  have hfields : p.toList.map (fun field => (field.1, field.2.reread)) = p.reread.toList := by
    rw [Payload.reread, Std.ExtTreeMap.toList_map]
  rw [ofPayload, reread, rereadFields_eq, hfields, Payload.object_eq, Payload.ofFields_toList]

/-- So is a display. -/
theorem reread_ofFields (fields : List (String × Json)) : (Payload.ofFields fields).reread =
    Payload.ofFields (fields.map fun field => (field.1, field.2.reread)) := by
  have hlookup : ∀ (entries : List (String × Json)) (key : String),
      (entries.map fun field => (field.1, field.2.reread)).lookup key =
        (entries.lookup key).map reread := by
    intro entries key
    induction entries with
    | nil => rfl
    | cons entry rest ih =>
      rw [List.map_cons, List.lookup_cons, List.lookup_cons, ih]
      cases key == entry.1 <;> rfl
  refine Library.dict_ext fun key => ?_
  rw [Payload.getElem?_reread, Payload.getElem?_ofFields, Payload.getElem?_ofFields,
    ← List.map_reverse, hlookup]

theorem reread_object (fields : List (String × Json)) : (object fields).reread =
    object (fields.map fun field => (field.1, field.2.reread)) := by
  rw [Payload.object_eq, reread_ofPayload, reread_ofFields, Payload.object_eq]

mutual

/-- **What is read back is canonical.** -/
@[simp] theorem reread_reread (value : Json) : value.reread.reread = value.reread := by
  cases value with
  | arr items => rw [reread, reread, rereadItems_reread]
  | obj fields =>
    have hfields := rereadFields_reread fields
    rw [rereadFields_eq (rereadFields fields)] at hfields
    rw [reread, reread_object, hfields]
  | _ => rfl

theorem rereadItems_reread (items : List Json) :
    rereadItems (rereadItems items) = rereadItems items := by
  cases items with
  | nil => rfl
  | cons item rest => rw [rereadItems, rereadItems, reread_reread, rereadItems_reread]

theorem rereadFields_reread (fields : List (String × Json)) :
    rereadFields (rereadFields fields) = rereadFields fields := by
  cases fields with
  | nil => rfl
  | cons field rest => rw [rereadFields, rereadFields, reread_reread, rereadFields_reread]

end

end Json

/-- Reading a value back does not change how it is written. -/
@[simp] theorem canonicalJson_reread (value : Json) :
    canonicalJson value.reread = canonicalJson value := by
  rw [canonicalJson, canonicalJson, Json.reread_reread]

namespace Payload

/-- **A dictionary that was read back is canonical.** -/
@[simp] theorem reread_reread (p : Payload) : p.reread.reread = p.reread := by
  refine Library.dict_ext fun key => ?_
  rw [getElem?_reread, getElem?_reread, Option.map_map]
  exact congrArg (Option.map · _) (funext Json.reread_reread)

theorem listD_reread (p : Payload) (key : String) :
    p.reread.listD key = (p.listD key).reread := by
  rw [listD, listD, getElem?_reread]
  cases p[key]? <;> rfl

theorem canonical_reread (p : Payload) : p.reread.Canonical := reread_reread p

/-- A dictionary is canonical where its values are. -/
theorem canonical_iff {p : Payload} :
    p.Canonical ↔ ∀ (key : String) value, p[key]? = some value → value.Canonical := by
  constructor
  · intro h key value hvalue
    have hread := getElem?_reread p key
    rw [h, hvalue, Option.map_some] at hread
    exact (Option.some.inj hread).symm
  · intro h
    refine Library.dict_ext fun key => ?_
    rw [getElem?_reread]
    cases hvalue : p[key]? with
    | none => rfl
    | some value => exact congrArg some (h key value hvalue)

/-- A dictionary is canonical as a value where it is one. -/
theorem canonical_ofPayload {p : Payload} : (Json.ofPayload p).Canonical ↔ p.Canonical := by
  rw [Json.Canonical, Json.reread_ofPayload]
  constructor
  · intro h
    have hfields := congrArg Payload.ofFields (Json.obj.inj h)
    rwa [ofFields_toList, ofFields_toList] at hfields
  · intro h
    rw [h]

/-- A display of canonical values is canonical. -/
theorem canonical_ofFields {fields : List (String × Json)}
    (h : ∀ field ∈ fields, field.2.Canonical) : (ofFields fields).Canonical := by
  rw [Canonical, Json.reread_ofFields]
  refine congrArg ofFields ((List.map_congr_left fun field hfield => ?_).trans (List.map_id _))
  exact Prod.ext rfl (h field hfield)

end Payload

end ArgoTwin
