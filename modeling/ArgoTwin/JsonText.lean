import ArgoTwin.Json
/-!
# Reading JSON

`json.loads`, character by character: blanks, numbers, texts with their
escapes, arrays and objects. What `json.dumps` writes is read back as the
value it was written from (`loads_dumps`). A number that is no float and a
text with half a surrogate pair are values of the language and none of
`Json`; a document with one is set apart from one that is no JSON.
-/

namespace ArgoTwin

namespace PyFloat

/-- The decimal `± digits · 10 ^ exponent`, without trailing zeros. -/
def ofDecimal (negative : Bool) (digits : Nat) (exponent : Int) : PyFloat :=
  if h : digits = 0 then ⟨negative, 0, 0, .inr ⟨rfl, rfl⟩⟩
  else ⟨negative, digits.divMaxPow 10, exponent + padicValNat 10 digits,
    .inl fun hzero => Nat.not_dvd_divMaxPow (by decide) h (Nat.dvd_of_mod_eq_zero hzero)⟩

/-- A decimal is the same with its point moved. -/
theorem ofDecimal_shift (negative : Bool) (digits shift : Nat) (exponent : Int) :
    ofDecimal negative (10 ^ shift * digits) (exponent - shift) =
      ofDecimal negative digits exponent := by
  by_cases h : digits = 0
  · simp [ofDecimal, h]
  · have hne : 10 ^ shift * digits ≠ 0 :=
      Nat.mul_ne_zero (Nat.pos_iff_ne_zero.1 (Nat.pow_pos (by decide))) h
    have hval : padicValNat 10 (10 ^ shift * digits) = padicValNat 10 digits + shift :=
      padicValNat_base_pow_mul (by decide) h shift
    simp only [ofDecimal, dif_neg h, dif_neg hne, mk.injEq, true_and]
    refine ⟨Nat.divMaxPow_base_pow_mul (by decide) digits shift, ?_⟩
    omega

/-- A float is the decimal it prints. -/
theorem ofDecimal_self (x : PyFloat) : ofDecimal x.negative x.digits x.exponent = x := by
  obtain ⟨negative, digits, exponent, hnormal⟩ := x
  by_cases h : digits = 0
  · subst h
    obtain hne | ⟨-, rfl⟩ := hnormal
    · exact absurd rfl hne
    · simp [ofDecimal]
  · have hnot : ¬ 10 ∣ digits := by
      obtain hne | ⟨hzero, -⟩ := hnormal
      · exact fun hdvd => hne (Nat.mod_eq_zero_of_dvd hdvd)
      · exact absurd hzero h
    have hpair := Nat.maxPowDvdDiv_of_not_dvd hnot
    have hdigits : digits.divMaxPow 10 = digits := by rw [Nat.divMaxPow, hpair]
    have hval : padicValNat 10 digits = 0 := by rw [padicValNat, hpair]
    simp [ofDecimal, h, hdigits, hval]

end PyFloat

namespace Json

/-- What is raised for a text, or what keeps its value out of `Json`. -/
inductive Unread where
  | invalid
  | foreign
  deriving DecidableEq, Repr

/-- How documents are read: the float nearest to a decimal, none where it is
infinite; and whether an object may name a key twice. -/
structure Reader where
  nearest : PyFloat → Option PyFloat
  unique : Bool := false

/-! ## Numbers -/

def skipSpace (text : List Char) : List Char :=
  text.dropWhile fun c => c = ' ' || c = '\t' || c = '\n' || c = '\r'

/-- `0|[1-9]\d*`. -/
def takeInteger : List Char → Option (List Char × List Char)
  | '0' :: rest => some (['0'], rest)
  | text =>
    let digits := text.takeWhile Char.isDigit
    if digits = [] then none else some (digits, text.dropWhile Char.isDigit)

/-- `(\.\d+)?`, without the point. -/
def takeFraction : List Char → List Char × List Char
  | '.' :: rest =>
    let digits := rest.takeWhile Char.isDigit
    if digits = [] then ([], '.' :: rest) else (digits, rest.dropWhile Char.isDigit)
  | text => ([], text)

/-- `([eE][-+]?\d+)?`, as a number. -/
def takeExponent : List Char → Option Int × List Char
  | [] => (none, [])
  | mark :: rest =>
    let signed := match rest with
      | '-' :: digits => (true, digits)
      | '+' :: digits => (false, digits)
      | digits => (false, digits)
    let digits := signed.2.takeWhile Char.isDigit
    if (mark = 'e' ∨ mark = 'E') ∧ digits ≠ [] then
      let n : Int := Nat.ofDigitChars 10 digits 0
      (some (if signed.1 then -n else n), signed.2.dropWhile Char.isDigit)
    else (none, mark :: rest)

/-- A number, from behind its sign on. -/
def scanUnsigned (nearest : PyFloat → Option PyFloat) (negative : Bool) (text : List Char) :
    Except Unread (Json × List Char) :=
  match takeInteger text with
  | none => .error .invalid
  | some (digits, rest) =>
    let (fraction, rest) := takeFraction rest
    let (exponent, rest) := takeExponent rest
    if fraction = [] ∧ exponent = none then
      let n : Int := Nat.ofDigitChars 10 digits 0
      .ok (.int (if negative then -n else n), rest)
    else
      match nearest (.ofDecimal negative (Nat.ofDigitChars 10 (digits ++ fraction) 0)
          (exponent.getD 0 - fraction.length)) with
      | some x => .ok (.float x, rest)
      | none => .error .foreign

def scanNumber (nearest : PyFloat → Option PyFloat) :
    List Char → Except Unread (Json × List Char)
  | '-' :: rest => scanUnsigned nearest true rest
  | text => scanUnsigned nearest false text

/-! ## Texts -/

def hexValue (c : Char) : Option Nat :=
  if '0' ≤ c ∧ c ≤ '9' then some (c.toNat - '0'.toNat)
  else if 'a' ≤ c ∧ c ≤ 'f' then some (c.toNat - 'a'.toNat + 10)
  else if 'A' ≤ c ∧ c ≤ 'F' then some (c.toNat - 'A'.toNat + 10)
  else none

/-- Four hexadecimal digits. -/
def takeHex4 : List Char → Option (Nat × List Char)
  | a :: b :: c :: d :: rest => do
    let a ← hexValue a
    let b ← hexValue b
    let c ← hexValue c
    let d ← hexValue d
    pure (((a * 16 + b) * 16 + c) * 16 + d, rest)
  | _ => none

/-- `\uXXXX`, from its digits on; two of them may make one character. -/
def takeUnicode (text : List Char) : Except Unread (Char × List Char) :=
  match takeHex4 text with
  | none => .error .invalid
  | some (n, rest) =>
    if 0xd800 ≤ n ∧ n < 0xdc00 then
      match rest with
      | '\\' :: 'u' :: low =>
        match takeHex4 low with
        | none => .error .invalid
        | some (m, rest) =>
          if 0xdc00 ≤ m ∧ m < 0xe000 then
            .ok (Char.ofNat (0x10000 + (n - 0xd800) * 0x400 + (m - 0xdc00)), rest)
          else .error .foreign
      | _ => .error .foreign
    else if 0xdc00 ≤ n ∧ n < 0xe000 then .error .foreign
    else .ok (Char.ofNat n, rest)

/-- What follows a backslash. -/
def takeEscape : List Char → Except Unread (Char × List Char)
  | '"' :: rest => .ok ('"', rest)
  | '\\' :: rest => .ok ('\\', rest)
  | '/' :: rest => .ok ('/', rest)
  | 'b' :: rest => .ok (Char.ofNat 8, rest)
  | 'f' :: rest => .ok (Char.ofNat 12, rest)
  | 'n' :: rest => .ok ('\n', rest)
  | 'r' :: rest => .ok ('\r', rest)
  | 't' :: rest => .ok ('\t', rest)
  | 'u' :: rest => takeUnicode rest
  | _ => .error .invalid

/-- A text up to its closing quote; no control character stands in one. -/
def scanChars : Nat → List Char → Except Unread (List Char × List Char)
  | 0, _ | _, [] => .error .invalid
  | fuel + 1, c :: rest =>
    if c = '"' then .ok ([], rest)
    else if c = '\\' then do
      let (escaped, rest) ← takeEscape rest
      let (chars, rest) ← scanChars fuel rest
      pure (escaped :: chars, rest)
    else if c.toNat < 32 then .error .invalid
    else do
      let (chars, rest) ← scanChars fuel rest
      pure (c :: chars, rest)

def scanString (text : List Char) : Except Unread (String × List Char) := do
  let (chars, rest) ← scanChars (text.length + 1) text
  pure (String.ofList chars, rest)

/-! ## Values -/

/-- What an object is read as, from its fields in the order they stand. -/
def Reader.object (r : Reader) (fields : List (String × Json)) : Except Unread Json :=
  if r.unique && !(fields.map (·.1)).Nodup then .error .invalid else .ok (Json.object fields)

mutual

/-- A value, from its first character on. -/
def scanValue (r : Reader) : Nat → List Char → Except Unread (Json × List Char)
  | 0, _ => .error .invalid
  | fuel + 1, text =>
    match text with
    | '"' :: rest => do
      let (s, rest) ← scanString rest
      pure (.str s, rest)
    | '[' :: rest =>
      match skipSpace rest with
      | ']' :: rest => .ok (.arr [], rest)
      | rest => do
        let (items, rest) ← scanItems r fuel rest
        pure (.arr items, rest)
    | '\x7b' :: rest =>
      match skipSpace rest with
      | '\x7d' :: rest => do
        let value ← r.object []
        pure (value, rest)
      | rest => do
        let (fields, rest) ← scanFields r fuel rest
        let value ← r.object fields
        pure (value, rest)
    | 'n' :: 'u' :: 'l' :: 'l' :: rest => .ok (.null, rest)
    | 't' :: 'r' :: 'u' :: 'e' :: rest => .ok (.bool true, rest)
    | 'f' :: 'a' :: 'l' :: 's' :: 'e' :: rest => .ok (.bool false, rest)
    | 'N' :: 'a' :: 'N' :: _ => .error .foreign
    | 'I' :: 'n' :: 'f' :: 'i' :: 'n' :: 'i' :: 't' :: 'y' :: _ => .error .foreign
    | '-' :: 'I' :: 'n' :: 'f' :: 'i' :: 'n' :: 'i' :: 't' :: 'y' :: _ => .error .foreign
    | text => scanNumber r.nearest text

/-- The items of an array that has one. -/
def scanItems (r : Reader) : Nat → List Char → Except Unread (List Json × List Char)
  | 0, _ => .error .invalid
  | fuel + 1, text => do
    let (item, rest) ← scanValue r fuel text
    match skipSpace rest with
    | ',' :: rest =>
      let (items, rest) ← scanItems r fuel (skipSpace rest)
      pure (item :: items, rest)
    | ']' :: rest => pure ([item], rest)
    | _ => .error .invalid

/-- The fields of an object that has one. -/
def scanFields (r : Reader) : Nat → List Char →
    Except Unread (List (String × Json) × List Char)
  | 0, _ => .error .invalid
  | fuel + 1, text =>
    match text with
    | '"' :: text => do
      let (key, rest) ← scanString text
      match skipSpace rest with
      | ':' :: rest =>
        let (value, rest) ← scanValue r fuel (skipSpace rest)
        match skipSpace rest with
        | ',' :: rest =>
          let (fields, rest) ← scanFields r fuel (skipSpace rest)
          pure ((key, value) :: fields, rest)
        | '\x7d' :: rest => pure ([(key, value)], rest)
        | _ => .error .invalid
      | _ => .error .invalid
    | _ => .error .invalid

end

/-- `json.loads`: one value, and blanks around it. -/
def loads (r : Reader) (text : String) : Except Unread Json := do
  let start := skipSpace text.toList
  let (value, rest) ← scanValue r (start.length + 1) start
  if skipSpace rest = [] then .ok value else .error .invalid

/-! ## Numbers are read back -/

/-- What follows a number does not go on with it. -/
def Stops (rest : List Char) : Prop :=
  ∀ c ∈ rest.head?, c.isDigit = false ∧ c ≠ '.' ∧ c ≠ 'e' ∧ c ≠ 'E'

/-- A run of digits is taken up to what is none. -/
theorem take_digits {digits rest : List Char} (hdigits : ∀ c ∈ digits, c.isDigit = true)
    (hrest : ∀ c ∈ rest.head?, c.isDigit = false) :
    (digits ++ rest).takeWhile Char.isDigit = digits ∧
      (digits ++ rest).dropWhile Char.isDigit = rest := by
  rw [List.takeWhile_append_of_pos hdigits, List.dropWhile_append_of_pos hdigits]
  cases rest with
  | nil => simp
  | cons c rest =>
    have hc : c.isDigit = false := hrest c rfl
    simp [hc]

theorem isDigit_toDigits (n : Nat) : ∀ c ∈ Nat.toDigits 10 n, c.isDigit = true :=
  fun _ hc => Nat.isDigit_of_mem_toDigits (by decide) (by decide) hc

/-- Only zero is written with a leading zero. -/
theorem head_toDigits {n : Nat} (hn : n ≠ 0) : (Nat.toDigits 10 n).head? ≠ some '0' := by
  induction n using Nat.strongRecOn with
  | ind n ih =>
    by_cases hlt : n < 10
    · rw [Nat.toDigits_of_lt_base hlt]
      have hall : ∀ n < 10, n ≠ 0 → [n.digitChar].head? ≠ some '0' := by decide
      exact hall n hlt hn
    · have hshort := ih (n / 10) (by omega) (by omega)
      rw [Nat.toDigits_of_base_le (by decide) (by omega)]
      cases hdigits : Nat.toDigits 10 (n / 10) with
      | nil => exact absurd hdigits Nat.toDigits_ne_nil
      | cons c rest =>
        rw [hdigits] at hshort
        exact hshort

/-- Digits that do not lead with a zero are an integer part. -/
theorem takeInteger_digits {digits rest : List Char} (hdigits : ∀ c ∈ digits, c.isDigit = true)
    (hne : digits ≠ []) (hhead : digits.head? ≠ some '0')
    (hrest : ∀ c ∈ rest.head?, c.isDigit = false) :
    takeInteger (digits ++ rest) = some (digits, rest) := by
  obtain ⟨htake, hdrop⟩ := take_digits hdigits hrest
  unfold takeInteger
  split
  · rename_i tail heq
    cases digits with
    | nil => exact absurd rfl hne
    | cons c digits =>
      rw [List.cons_append, List.cons.injEq] at heq
      exact absurd (congrArg some heq.1) hhead
  · simp only [htake, hdrop, if_neg hne]

/-- A number without sign is read back. -/
theorem takeInteger_toDigits (n : Nat) {rest : List Char}
    (hrest : ∀ c ∈ rest.head?, c.isDigit = false) :
    takeInteger (Nat.toDigits 10 n ++ rest) = some (Nat.toDigits 10 n, rest) := by
  by_cases hn : n = 0
  · subst hn
    rfl
  · exact takeInteger_digits (isDigit_toDigits n) Nat.toDigits_ne_nil (head_toDigits hn) hrest

theorem takeFraction_stops {rest : List Char} (h : Stops rest) :
    takeFraction rest = ([], rest) := by
  unfold takeFraction
  split
  · rename_i tail
    exact absurd rfl (h '.' rfl).2.1
  · rfl

theorem takeExponent_stops {rest : List Char} (h : Stops rest) :
    takeExponent rest = (none, rest) := by
  cases rest with
  | nil => rfl
  | cons c rest =>
    obtain ⟨-, -, hlower, hupper⟩ := h c rfl
    simp [takeExponent, hlower, hupper]

/-- A number that begins with a digit is read as it is. -/
theorem scanNumber_unsigned (nearest : PyFloat → Option PyFloat) {text : List Char}
    (h : ∀ c ∈ text.head?, c.isDigit = true) :
    scanNumber nearest text = scanUnsigned nearest false text := by
  unfold scanNumber
  split
  · rename_i tail
    exact absurd (h '-' rfl) (by decide)
  · rfl

theorem head_digits {digits : List Char} (hdigits : ∀ c ∈ digits, c.isDigit = true)
    (hne : digits ≠ []) (rest : List Char) : ∀ c ∈ (digits ++ rest).head?, c.isDigit = true := by
  cases digits with
  | nil => exact absurd rfl hne
  | cons d digits =>
    rintro c ⟨rfl⟩
    exact hdigits d List.mem_cons_self

theorem scanUnsigned_int (nearest : PyFloat → Option PyFloat) (negative : Bool) (m : Nat)
    {rest : List Char} (h : Stops rest) :
    scanUnsigned nearest negative (Nat.toDigits 10 m ++ rest) =
      .ok (.int (if negative then -(m : Int) else m), rest) := by
  have hrest : ∀ c ∈ rest.head?, c.isDigit = false := fun c hc => (h c hc).1
  simp only [scanUnsigned, takeInteger_toDigits m hrest, takeFraction_stops h,
    takeExponent_stops h, Nat.ofDigitChars_ten_toDigits, and_self, if_true]

/-- **An integer is read back.** -/
theorem scanNumber_int (nearest : PyFloat → Option PyFloat) (n : Int) {rest : List Char}
    (h : Stops rest) : scanNumber nearest ((toString n).toList ++ rest) = .ok (.int n, rest) := by
  cases n with
  | ofNat m =>
    have htext : (toString (Int.ofNat m)).toList = Nat.toDigits 10 m := Nat.toList_repr
    rw [htext, scanNumber_unsigned nearest (head_digits (isDigit_toDigits m) Nat.toDigits_ne_nil _),
      scanUnsigned_int nearest false m h]
    rfl
  | negSucc m =>
    have htext : (toString (Int.negSucc m)).toList = '-' :: Nat.toDigits 10 (m + 1) := by
      have hrepr : toString (Int.negSucc m) = "-" ++ (m + 1).repr := rfl
      rw [hrepr, String.toList_append, Nat.toList_repr]
      rfl
    rw [htext]
    exact scanUnsigned_int nearest true (m + 1) h

/-- A fraction is digits behind a point. -/
theorem takeFraction_digits {digits rest : List Char} (hdigits : ∀ c ∈ digits, c.isDigit = true)
    (hne : digits ≠ []) (hrest : ∀ c ∈ rest.head?, c.isDigit = false) :
    takeFraction ('.' :: (digits ++ rest)) = (digits, rest) := by
  obtain ⟨htake, hdrop⟩ := take_digits hdigits hrest
  simp only [takeFraction, htake, hdrop, if_neg hne]

/-- An exponent is a sign and digits behind an `e`. -/
theorem takeExponent_digits {digits rest : List Char} (negative : Bool)
    (hdigits : ∀ c ∈ digits, c.isDigit = true) (hne : digits ≠ [])
    (hrest : ∀ c ∈ rest.head?, c.isDigit = false) :
    takeExponent ('e' :: (if negative then '-' else '+') :: (digits ++ rest)) =
      (some (if negative then -(Nat.ofDigitChars 10 digits 0 : Int)
        else (Nat.ofDigitChars 10 digits 0 : Int)), rest) := by
  obtain ⟨htake, hdrop⟩ := take_digits hdigits hrest
  cases negative <;> simp [takeExponent, htake, hdrop, hne]

/-- A decimal is read as the float nearest to it. -/
theorem scanUnsigned_decimal {nearest : PyFloat → Option PyFloat} {x : PyFloat}
    (hx : nearest x = some x) {text rest : List Char} (whole fraction tail : List Char)
    (exponent : Option Int)
    (hwhole : takeInteger text = some (whole, tail))
    (hfraction : ∃ behind, takeFraction tail = (fraction, behind) ∧
      takeExponent behind = (exponent, rest))
    (hdecimal : fraction ≠ [] ∨ exponent ≠ none)
    (hvalue : PyFloat.ofDecimal x.negative (Nat.ofDigitChars 10 (whole ++ fraction) 0)
      (exponent.getD 0 - fraction.length) = x) :
    scanUnsigned nearest x.negative text = .ok (.float x, rest) := by
  obtain ⟨behind, hbehind, hexponent⟩ := hfraction
  have hnot : ¬ (fraction = [] ∧ exponent = none) := by
    rintro ⟨hf, he⟩
    exact hdecimal.elim (fun h => h hf) fun h => h he
  simp only [scanUnsigned, hwhole, hbehind, hexponent, if_neg hnot, hvalue, hx]

/-- What `repr` prints behind the sign. -/
def body (x : PyFloat) : List Char :=
  let digits := Nat.toDigits 10 x.digits
  let point : Int := digits.length + x.exponent
  if x.digits = 0 then ['0', '.', '0']
  else if point ≤ -4 ∨ 16 < point then
    let power := point - 1
    let size := Nat.toDigits 10 power.natAbs
    digits.take 1 ++ (if digits.length = 1 then [] else '.' :: digits.drop 1) ++
      ('e' :: (if power < 0 then '-' else '+') :: (if size.length = 1 then '0' :: size else size))
  else if point ≤ 0 then '0' :: '.' :: (List.replicate (-point).toNat '0' ++ digits)
  else if digits.length ≤ point.toNat then
    digits ++ List.replicate (point.toNat - digits.length) '0' ++ ['.', '0']
  else digits.take point.toNat ++ '.' :: digits.drop point.toNat

theorem toList_repr (x : PyFloat) :
    x.repr.toList = (if x.negative then ['-'] else []) ++ body x := by
  have hdigits : (toString x.digits).toList = Nat.toDigits 10 x.digits := Nat.toList_repr
  have hlength : (toString x.digits).length = (Nat.toDigits 10 x.digits).length := by
    rw [← hdigits, String.length_toList]
  have hsize : ∀ n : Nat, (toString n).toList = Nat.toDigits 10 n := fun n => Nat.toList_repr
  have hsizes : ∀ n : Nat, (toString n).length = (Nat.toDigits 10 n).length := by
    intro n
    rw [← hsize, String.length_toList]
  unfold PyFloat.repr body
  simp only [hlength, hdigits, hsizes]
  split_ifs <;> simp [Nat.toList_repr]

theorem isDigit_zeros (n : Nat) : ∀ c ∈ List.replicate n '0', c.isDigit = true := by
  intro c hc
  rw [List.eq_of_mem_replicate hc]
  rfl

/-- The decimal with its digits behind `shift` places is the float. -/
theorem ofDecimal_eq {x : PyFloat} {digits : Nat} {exponent : Int} (shift : Nat)
    (hdigits : digits = 10 ^ shift * x.digits) (hexponent : exponent = x.exponent - shift) :
    PyFloat.ofDecimal x.negative digits exponent = x := by
  rw [hdigits, hexponent, PyFloat.ofDecimal_shift, PyFloat.ofDecimal_self]

section Body

variable {nearest : PyFloat → Option PyFloat} {x : PyFloat} {rest : List Char}

/-- The scientific form is read back. -/
theorem scan_scientific (hx : nearest x = some x) (hzero : x.digits ≠ 0) (h : Stops rest)
    {power : Int} (hpower : power = (Nat.toDigits 10 x.digits).length + x.exponent - 1)
    {size : List Char} (hsize : ∀ c ∈ size, c.isDigit = true) (hne : size ≠ [])
    (hvalue : Nat.ofDigitChars 10 size 0 = power.natAbs) :
    scanUnsigned nearest x.negative ((Nat.toDigits 10 x.digits).take 1 ++
      (if (Nat.toDigits 10 x.digits).length = 1 then []
        else '.' :: (Nat.toDigits 10 x.digits).drop 1) ++
      ('e' :: (if power < 0 then '-' else '+') :: size) ++ rest) = .ok (.float x, rest) := by
  have hrest : ∀ c ∈ rest.head?, c.isDigit = false := fun c hc => (h c hc).1
  have hall := isDigit_toDigits x.digits
  have hhead := head_toDigits hzero
  have hread : Nat.ofDigitChars 10 (Nat.toDigits 10 x.digits) 0 = x.digits :=
    Nat.ofDigitChars_ten_toDigits
  have hexponent := takeExponent_digits (decide (power < 0)) hsize hne hrest
  have hsigned : (if decide (power < 0) = true then -(Nat.ofDigitChars 10 size 0 : Int)
      else (Nat.ofDigitChars 10 size 0 : Int)) = power := by
    rw [hvalue]
    split_ifs with hneg
    · have := of_decide_eq_true hneg
      omega
    · have : ¬ power < 0 := fun hlt => hneg (decide_eq_true hlt)
      omega
  rw [hsigned] at hexponent
  cases hdigits : Nat.toDigits 10 x.digits with
  | nil => exact absurd hdigits Nat.toDigits_ne_nil
  | cons d ds =>
    rw [hdigits] at hall hhead hread hpower
    have hwhole : ∀ tail : List Char, (∀ c ∈ tail.head?, c.isDigit = false) →
        takeInteger ([d] ++ tail) = some ([d], tail) := fun tail htail =>
      takeInteger_digits (fun c hc => hall c (List.mem_singleton.1 hc ▸ List.mem_cons_self))
        (by simp) hhead htail
    cases ds with
    | nil =>
      refine scanUnsigned_decimal hx [d] []
        ('e' :: (if power < 0 then '-' else '+') :: (size ++ rest)) (some power) ?_ ⟨_, rfl, ?_⟩
        (.inr (by simp)) ?_
      · have := hwhole ('e' :: (if power < 0 then '-' else '+') :: (size ++ rest)) (by simp)
        simpa using this
      · simpa using hexponent
      · refine ofDecimal_eq 0 ?_ ?_
        · simpa using hread
        · simp at hpower ⊢
          omega
    | cons c cs =>
      have hfraction : ∀ tail : List Char, (∀ d ∈ tail.head?, d.isDigit = false) →
          takeFraction ('.' :: ((c :: cs) ++ tail)) = (c :: cs, tail) := fun tail htail =>
        takeFraction_digits (fun d hd => hall d (List.mem_cons_of_mem _ hd))
          (List.cons_ne_nil c cs) htail
      refine scanUnsigned_decimal hx [d] (c :: cs)
        ('.' :: ((c :: cs) ++ 'e' :: (if power < 0 then '-' else '+') :: (size ++ rest)))
        (some power) ?_ ⟨_, hfraction _ (by simp), ?_⟩ (.inl (by simp)) ?_
      · have := hwhole ('.' :: ((c :: cs) ++ 'e' :: (if power < 0 then '-' else '+') ::
          (size ++ rest))) (by simp)
        simpa using this
      · simpa using hexponent
      · refine ofDecimal_eq 0 ?_ ?_
        · simpa using hread
        · simp at hpower ⊢
          omega

/-- The positional forms are read back: digits, a point and digits. -/
theorem scan_positional (hx : nearest x = some x) (h : Stops rest)
    (whole fraction : List Char) (shift : Nat)
    (hwhole : ∀ tail : List Char, (∀ c ∈ tail.head?, c.isDigit = false) →
      takeInteger (whole ++ tail) = some (whole, tail))
    (hfraction : ∀ c ∈ fraction, c.isDigit = true) (hne : fraction ≠ [])
    (hdigits : Nat.ofDigitChars 10 (whole ++ fraction) 0 = 10 ^ shift * x.digits)
    (hexponent : -(fraction.length : Int) = x.exponent - shift) :
    scanUnsigned nearest x.negative (whole ++ '.' :: (fraction ++ rest)) =
      .ok (.float x, rest) := by
  have hrest : ∀ c ∈ rest.head?, c.isDigit = false := fun c hc => (h c hc).1
  refine scanUnsigned_decimal hx whole fraction _ none (hwhole _ (by simp))
    ⟨rest, takeFraction_digits hfraction hne hrest, takeExponent_stops h⟩ (.inl hne) ?_
  refine ofDecimal_eq shift hdigits ?_
  simpa using hexponent

/-- **What is printed of a float is read back.** -/
theorem scan_body (hx : nearest x = some x) (h : Stops rest) :
    scanUnsigned nearest x.negative (body x ++ rest) = .ok (.float x, rest) := by
  have hall := isDigit_toDigits x.digits
  have hread : Nat.ofDigitChars 10 (Nat.toDigits 10 x.digits) 0 = x.digits :=
    Nat.ofDigitChars_ten_toDigits
  have hpos : 0 < (Nat.toDigits 10 x.digits).length := Nat.length_toDigits_pos
  have hlead : ∀ tail : List Char, (∀ c ∈ tail.head?, c.isDigit = false) →
      takeInteger (['0'] ++ tail) = some (['0'], tail) := fun _ _ => rfl
  unfold body
  simp only
  by_cases hzero : x.digits = 0
  · rw [if_pos hzero]
    have hexponent : x.exponent = 0 := x.normal.elim (fun hne => absurd (by rw [hzero]) hne) (·.2)
    refine scan_positional hx h ['0'] ['0'] 1 hlead (List.forall_mem_singleton.2 rfl) (by simp)
      ?_ ?_
    · rw [hzero]
      decide
    · rw [hexponent]
      decide
  rw [if_neg hzero]
  generalize hpoint : ((Nat.toDigits 10 x.digits).length : Int) + x.exponent = point
  by_cases hlarge : point ≤ -4 ∨ 16 < point
  · -- scientific; an exponent of one digit is padded
    rw [if_pos hlarge]
    refine scan_scientific hx hzero h (by omega) ?_ ?_ ?_
    · split_ifs
      · intro c hc
        rcases List.mem_cons.1 hc with rfl | hc
        · rfl
        · exact isDigit_toDigits _ c hc
      · exact isDigit_toDigits _
    · split_ifs
      · simp
      · exact Nat.toDigits_ne_nil
    · split_ifs
      · rw [Nat.ofDigitChars_cons]
        exact Nat.ofDigitChars_ten_toDigits
      · exact Nat.ofDigitChars_ten_toDigits
  rw [if_neg hlarge]
  by_cases hsmall : point ≤ 0
  · -- zeros behind the point
    rw [if_pos hsmall]
    have hscan := scan_positional hx h ['0']
      (List.replicate (-point).toNat '0' ++ Nat.toDigits 10 x.digits) 0 hlead ?_
      (by simp [Nat.toDigits_ne_nil]) ?_ ?_
    · simpa using hscan
    · intro c hc
      rcases List.mem_append.1 hc with hc | hc
      · exact isDigit_zeros _ c hc
      · exact hall c hc
    · have hzeros : ['0'] ++ List.replicate (-point).toNat '0' =
          List.replicate ((-point).toNat + 1) '0' := List.replicate_succ.symm
      rw [← List.append_assoc, hzeros, Nat.ofDigitChars_append, Nat.ofDigitChars_replicate_zero]
      simp
    · simp only [List.length_append, List.length_replicate]
      omega
  rw [if_neg hsmall]
  by_cases hlong : (Nat.toDigits 10 x.digits).length ≤ point.toNat
  · -- zeros before the point
    rw [if_pos hlong]
    have hscan := scan_positional hx h (Nat.toDigits 10 x.digits ++
        List.replicate (point.toNat - (Nat.toDigits 10 x.digits).length) '0')
      ['0'] (point.toNat - (Nat.toDigits 10 x.digits).length + 1) ?_
      (List.forall_mem_singleton.2 rfl) (by simp) ?_ ?_
    · simpa using hscan
    · intro tail htail
      refine takeInteger_digits (fun c hc => ?_) (by simp [Nat.toDigits_ne_nil]) ?_ htail
      · rcases List.mem_append.1 hc with hc | hc
        · exact hall c hc
        · exact isDigit_zeros _ c hc
      · have hhead := head_toDigits hzero
        cases hdigits : Nat.toDigits 10 x.digits with
        | nil => exact absurd hdigits Nat.toDigits_ne_nil
        | cons c cs =>
          rw [hdigits] at hhead
          exact hhead
    · rw [List.append_assoc, ← List.replicate_succ', Nat.ofDigitChars_append, hread,
        Nat.ofDigitChars_replicate_zero]
    · simp only [List.length_singleton]
      omega
  · rw [if_neg hlong]
    have hsplit : (Nat.toDigits 10 x.digits).take point.toNat ++
        (Nat.toDigits 10 x.digits).drop point.toNat = Nat.toDigits 10 x.digits :=
      List.take_append_drop _ _
    have hscan := scan_positional hx h ((Nat.toDigits 10 x.digits).take point.toNat)
      ((Nat.toDigits 10 x.digits).drop point.toNat) 0 ?_
      (fun c hc => hall c (List.mem_of_mem_drop hc)) ?_ ?_ ?_
    · simpa using hscan
    · intro tail htail
      refine takeInteger_digits (fun c hc => hall c (List.mem_of_mem_take hc)) ?_ ?_ htail
      · have hlength : ((Nat.toDigits 10 x.digits).take point.toNat).length ≠ 0 := by
          rw [List.length_take]
          omega
        exact fun hnil => hlength (by rw [hnil]; rfl)
      · rw [List.head?_take, if_neg (by omega)]
        exact head_toDigits hzero
    · intro hnil
      have hlength := congrArg List.length hnil
      simp only [List.length_drop, List.length_nil] at hlength
      omega
    · rw [hsplit, hread]
      simp
    · simp only [List.length_drop]
      omega

end Body

theorem head_body {x : PyFloat} (rest : List Char) :
    ∀ c ∈ (body x ++ rest).head?, c.isDigit = true := by
  have hall := isDigit_toDigits x.digits
  cases hdigits : Nat.toDigits 10 x.digits with
  | nil => exact absurd hdigits Nat.toDigits_ne_nil
  | cons d ds =>
    rw [hdigits] at hall
    have hd := hall d List.mem_cons_self
    have htake : ∀ point : Int, ¬ point ≤ 0 → ((d :: ds).take point.toNat).head? = some d := by
      intro point hpoint
      rw [List.head?_take, if_neg (by omega)]
      rfl
    unfold body
    simp only [hdigits]
    generalize ((d :: ds).length : Int) + x.exponent = point
    by_cases hzero : x.digits = 0
    · simp [hzero]
    rw [if_neg hzero]
    by_cases hlarge : point ≤ -4 ∨ 16 < point
    · simp [hlarge, hd]
    rw [if_neg hlarge]
    by_cases hsmall : point ≤ 0
    · simp [hsmall]
    rw [if_neg hsmall]
    by_cases hlong : (d :: ds).length ≤ point.toNat
    · rw [if_pos hlong]
      simp [hd]
    · rw [if_neg hlong, List.append_assoc, List.head?_append, htake point hsmall]
      simp [hd]

/-- **A float is read back.** -/
theorem scanNumber_float {nearest : PyFloat → Option PyFloat} {x : PyFloat} {rest : List Char}
    (hx : nearest x = some x) (h : Stops rest) :
    scanNumber nearest (x.repr.toList ++ rest) = .ok (.float x, rest) := by
  have hbody := scan_body hx h
  rw [toList_repr]
  cases hsign : x.negative with
  | true =>
    rw [hsign] at hbody
    exact hbody
  | false =>
    rw [hsign] at hbody
    show scanNumber nearest (body x ++ rest) = _
    rw [scanNumber_unsigned nearest (head_body rest), hbody]

/-! ## Texts are read back -/

/-- What a character is written as in a text. -/
def escaped (c : Char) : List Char :=
  if c = '"' then ['\\', '"']
  else if c = '\\' then ['\\', '\\']
  else if c = '\n' then ['\\', 'n']
  else if c = '\r' then ['\\', 'r']
  else if c = '\t' then ['\\', 't']
  else if c.toNat = 8 then ['\\', 'b']
  else if c.toNat = 12 then ['\\', 'f']
  else if c.toNat < 32 then ['\\', 'u', '0', '0'] ++ hex2 c.toNat
  else [c]

theorem toList_quoteStr (s : String) :
    (quoteStr s).toList = '"' :: (s.toList.flatMap escaped ++ ['"']) := by
  rw [quoteStr, String.toList_ofList]
  rfl

theorem length_escaped (c : Char) : 1 ≤ (escaped c).length := by
  unfold escaped
  split_ifs <;> simp

/-- **A character is read back from what it is written as.** -/
theorem scanChars_escaped (c : Char) {fuel : Nat} {chars text rest : List Char}
    (h : scanChars fuel text = .ok (chars, rest)) :
    scanChars (fuel + 1) (escaped c ++ text) = .ok (c :: chars, rest) := by
  have hbind : ∀ char tail, takeEscape tail = .ok (char, text) →
      scanChars (fuel + 1) ('\\' :: tail) = .ok (char :: chars, rest) := by
    intro char tail hescape
    simp [scanChars, hescape, h, bind, Except.bind, pure, Except.pure]
  have hof : ∀ n, c.toNat = n → Char.ofNat n = c := by
    rintro n rfl
    exact Char.ofNat_toNat c
  have hhex : ∀ n < 32, takeHex4 ('0' :: '0' :: (hex2 n ++ text)) = some (n, text) := by
    intro n hn
    have hdigits : ∀ n < 32, (hex2 n).map hexValue = [some (n / 16), some (n % 16)] := by decide
    have hpair := hdigits n hn
    simp only [hex2, List.map_cons, List.map_nil, List.cons.injEq, and_true] at hpair
    have hzero : hexValue '0' = some 0 := by decide
    simp only [hex2, List.cons_append, List.nil_append, takeHex4, hzero, hpair.1, hpair.2]
    simp
    omega
  unfold escaped
  split_ifs with hquote hback hnew hreturn htab hbell hfeed hcontrol
  · subst hquote
    exact hbind _ _ rfl
  · subst hback
    exact hbind _ _ rfl
  · subst hnew
    exact hbind _ _ rfl
  · subst hreturn
    exact hbind _ _ rfl
  · subst htab
    exact hbind _ _ rfl
  · refine hbind _ _ ?_
    rw [← hof 8 hbell]
    rfl
  · refine hbind _ _ ?_
    rw [← hof 12 hfeed]
    rfl
  · refine hbind _ _ ?_
    show takeUnicode ('0' :: '0' :: (hex2 c.toNat ++ text)) = _
    simp only [takeUnicode, hhex c.toNat hcontrol]
    rw [if_neg (by omega), if_neg (by omega), Char.ofNat_toNat]
  · simp [scanChars, hquote, hback, hcontrol, h, bind, Except.bind, pure, Except.pure]

/-- Characters are read back up to the closing quote. -/
theorem scanChars_flatMap (rest : List Char) :
    ∀ (cs : List Char) (fuel : Nat), cs.length < fuel →
      scanChars fuel (cs.flatMap escaped ++ '"' :: rest) = .ok (cs, rest) := by
  intro cs
  induction cs with
  | nil =>
    intro fuel hfuel
    cases fuel with
    | zero => exact absurd hfuel (Nat.lt_irrefl 0)
    | succ fuel => rfl
  | cons c cs ih =>
    intro fuel hfuel
    cases fuel with
    | zero => exact absurd hfuel (Nat.not_lt_zero _)
    | succ fuel =>
      rw [List.flatMap_cons, List.append_assoc]
      exact scanChars_escaped c (ih fuel (by simpa using hfuel))

theorem length_flatMap_escaped (cs : List Char) : cs.length ≤ (cs.flatMap escaped).length := by
  induction cs with
  | nil => exact Nat.le_refl 0
  | cons c cs ih =>
    have := length_escaped c
    rw [List.flatMap_cons, List.length_append, List.length_cons]
    omega

/-- **A text is read back from its quotes.** -/
theorem scanString_quoteStr (s : String) (rest : List Char) :
    scanString (s.toList.flatMap escaped ++ '"' :: rest) = .ok (s, rest) := by
  have hlength := length_flatMap_escaped s.toList
  have hchars := scanChars_flatMap rest s.toList
    ((s.toList.flatMap escaped ++ '"' :: rest).length + 1)
    (by rw [List.length_append]; omega)
  simp only [scanString, hchars, bind, Except.bind, pure, Except.pure, String.ofList_toList]

/-! ## Values are read back -/

mutual

/-- What `json.dumps` writes and reading gives back: a dictionary's fields
stand in the order of their keys, and every float is the nearest to itself. -/
def Proper (nearest : PyFloat → Option PyFloat) : Json → Prop
  | .float x => nearest x = some x
  | .arr items => ProperItems nearest items
  | .obj fields => (fields.map (·.1)).Pairwise (· < ·) ∧ ProperFields nearest fields
  | _ => True

def ProperItems (nearest : PyFloat → Option PyFloat) : List Json → Prop
  | [] => True
  | item :: rest => Proper nearest item ∧ ProperItems nearest rest

def ProperFields (nearest : PyFloat → Option PyFloat) : List (String × Json) → Prop
  | [] => True
  | (_, value) :: rest => Proper nearest value ∧ ProperFields nearest rest

end


/-- Fields in key order are the object. -/
theorem object_of_ordered {fields : List (String × Json)}
    (h : (fields.map (·.1)).Pairwise (· < ·)) (r : Reader) :
    r.object fields = .ok (.obj fields) := by
  have hnodup : (fields.map (·.1)).Nodup :=
    h.imp (by rintro a b hab rfl; exact String.lt_irrefl _ hab)
  simp only [Reader.object, hnodup, decide_true, Bool.not_true, Bool.and_false,
    Bool.false_eq_true, if_false, object, Library.toList_ofList_ordered h]

/-- What a value starts with: no blank, and nothing that closes an array. -/
def Opens (c : Char) : Prop := c ≠ ' ' ∧ c ≠ '\t' ∧ c ≠ '\n' ∧ c ≠ '\r' ∧ c ≠ ']'

instance (c : Char) : Decidable (Opens c) := by unfold Opens; infer_instance

theorem skipSpace_of_opens {c : Char} {text : List Char} (h : Opens c) :
    skipSpace (c :: text) = c :: text := by
  obtain ⟨hspace, htab, hline, hreturn, -⟩ := h
  simp [skipSpace, hspace, htab, hline, hreturn]

theorem opens_of_isDigit {c : Char} (h : c.isDigit = true) : Opens c := by
  refine ⟨?_, ?_, ?_, ?_, ?_⟩ <;>
  · rintro rfl
    revert h
    decide

/-- The text of a number. -/
def Numeral (text : List Char) : Prop :=
  ∃ (c : Char) (tail : List Char), c.isDigit = true ∧
    (text = c :: tail ∨ text = '-' :: c :: tail)

theorem scanValue_numeral (r : Reader) (fuel : Nat) {text : List Char} (h : Numeral text) :
    scanValue r (fuel + 1) text = scanNumber r.nearest text := by
  obtain ⟨c, tail, hc, rfl | rfl⟩ := h
  · unfold scanValue
    split
    case h_10 => rfl
    all_goals
      rename_i heq
      rw [List.cons.injEq] at heq
      rw [heq.1] at hc
      exact absurd hc (by decide)
  · unfold scanValue
    split
    case h_10 => rfl
    case h_9 =>
      rename_i heq
      rw [List.cons.injEq, List.cons.injEq] at heq
      rw [heq.2.1] at hc
      exact absurd hc (by decide)
    all_goals
      rename_i heq
      rw [List.cons.injEq] at heq
      exact absurd heq.1 (by decide)

theorem numeral_repr (x : PyFloat) : Numeral x.repr.toList := by
  have hhead := head_body (x := x) []
  rw [List.append_nil] at hhead
  rw [toList_repr]
  cases hbody : body x with
  | nil =>
    exfalso
    revert hbody
    unfold body
    simp only
    split_ifs <;> simp [Nat.toDigits_ne_nil]
  | cons c tail =>
    rw [hbody] at hhead
    refine ⟨c, tail, hhead c rfl, ?_⟩
    cases x.negative <;> simp

theorem numeral_int (n : Int) : Numeral (toString n).toList := by
  have hdigits : ∀ m : Nat, ∃ c tail, c.isDigit = true ∧ Nat.toDigits 10 m = c :: tail := by
    intro m
    have hall := isDigit_toDigits m
    cases h : Nat.toDigits 10 m with
    | nil => exact absurd h Nat.toDigits_ne_nil
    | cons c tail => exact ⟨c, tail, hall c (h ▸ List.mem_cons_self), rfl⟩
  cases n with
  | ofNat m =>
    have htext : (toString (Int.ofNat m)).toList = Nat.toDigits 10 m := Nat.toList_repr
    obtain ⟨c, tail, hc, hm⟩ := hdigits m
    exact ⟨c, tail, hc, .inl (htext.trans hm)⟩
  | negSucc m =>
    have htext : (toString (Int.negSucc m)).toList = '-' :: Nat.toDigits 10 (m + 1) := by
      have hrepr : toString (Int.negSucc m) = "-" ++ (m + 1).repr := rfl
      rw [hrepr, String.toList_append, Nat.toList_repr]
      rfl
    obtain ⟨c, tail, hc, hm⟩ := hdigits (m + 1)
    exact ⟨c, tail, hc, .inr (by rw [htext, hm])⟩

theorem Numeral.append {text : List Char} (h : Numeral text) (rest : List Char) :
    Numeral (text ++ rest) := by
  obtain ⟨c, tail, hc, rfl | rfl⟩ := h
  · exact ⟨c, tail ++ rest, hc, .inl rfl⟩
  · exact ⟨c, tail ++ rest, hc, .inr rfl⟩

theorem Numeral.opens {text : List Char} (h : Numeral text) :
    ∃ c tail, text = c :: tail ∧ Opens c := by
  obtain ⟨c, tail, hc, rfl | rfl⟩ := h
  · exact ⟨c, tail, rfl, opens_of_isDigit hc⟩
  · exact ⟨'-', c :: tail, rfl, by decide⟩

theorem opens_dumps (v : Json) : ∃ c tail, (dumps v).toList = c :: tail ∧ Opens c := by
  cases v with
  | null => exact ⟨'n', _, rfl, by decide⟩
  | bool b =>
    cases b with
    | true => exact ⟨'t', _, rfl, by decide⟩
    | false => exact ⟨'f', _, rfl, by decide⟩
  | int n => exact (numeral_int n).opens
  | float x => exact (numeral_repr x).opens
  | str s => exact ⟨'"', _, toList_quoteStr s, by decide⟩
  | arr items =>
    exact ⟨'[', (dumpsItems items).toList ++ [']'], by simp [dumps], by decide⟩
  | obj fields =>
    exact ⟨'\x7b', (dumpsFields fields).toList ++ ['\x7d'], by simp [dumps], by decide⟩

theorem toList_dumpsItems (item : Json) (rest : List Json) :
    (dumpsItems (item :: rest)).toList =
      (dumps item).toList ++ (if rest = [] then [] else ',' :: (dumpsItems rest).toList) := by
  cases rest with
  | nil => simp [dumpsItems]
  | cons next rest => simp [dumpsItems]

theorem toList_dumpsFields (key : String) (value : Json) (rest : List (String × Json)) :
    (dumpsFields ((key, value) :: rest)).toList =
      (quoteStr key).toList ++ ':' :: ((dumps value).toList ++
        (if rest = [] then [] else ',' :: (dumpsFields rest).toList)) := by
  cases rest with
  | nil => simp [dumpsFields]
  | cons next rest => simp [dumpsFields]

/-- An array that does not close at once has items. -/
theorem scanValue_items (r : Reader) (fuel : Nat) {c : Char} (text : List Char) (h : Opens c) :
    scanValue r (fuel + 1) ('[' :: c :: text) = (do
      let (items, rest) ← scanItems r fuel (c :: text)
      pure (.arr items, rest)) := by
  simp only [scanValue, skipSpace_of_opens h]
  split
  · rename_i heq
    rw [List.cons.injEq] at heq
    exact absurd heq.1 h.2.2.2.2
  · rfl

/-- An object that does not close at once has fields. -/
theorem scanValue_fields (r : Reader) (fuel : Nat) (text : List Char) :
    scanValue r (fuel + 1) ('\x7b' :: '"' :: text) = (do
      let (fields, rest) ← scanFields r fuel ('"' :: text)
      let value ← r.object fields
      pure (value, rest)) := by
  simp only [scanValue, skipSpace_of_opens (show Opens '"' by decide)]
  rfl

theorem stops_cons {c : Char} (h : c = ',' ∨ c = ']' ∨ c = '\x7d') (rest : List Char) :
    Stops (c :: rest) := by
  rintro d ⟨rfl⟩
  obtain rfl | rfl | rfl := h <;> decide

mutual

/-- **A value is read back from what it is written as.** -/
theorem scanValue_dumps (r : Reader) {v : Json} (hv : Proper r.nearest v) (fuel : Nat)
    (hfuel : (dumps v).toList.length < fuel) (rest : List Char) (h : Stops rest) :
    scanValue r fuel ((dumps v).toList ++ rest) = .ok (v, rest) := by
  cases fuel with
  | zero => exact absurd hfuel (Nat.not_lt_zero _)
  | succ fuel =>
    cases v with
    | null => rfl
    | bool b => cases b <;> rfl
    | int n =>
      show scanValue r (fuel + 1) ((toString n).toList ++ rest) = _
      rw [scanValue_numeral r fuel ((numeral_int n).append rest), scanNumber_int r.nearest n h]
    | float x =>
      show scanValue r (fuel + 1) (x.repr.toList ++ rest) = _
      rw [scanValue_numeral r fuel ((numeral_repr x).append rest)]
      exact scanNumber_float hv h
    | str s =>
      show scanValue r (fuel + 1) ((quoteStr s).toList ++ rest) = _
      have htext : (quoteStr s).toList ++ rest =
          '"' :: (s.toList.flatMap escaped ++ '"' :: rest) := by simp [toList_quoteStr]
      rw [htext]
      simp only [scanValue, scanString_quoteStr, bind, Except.bind, pure, Except.pure]
    | arr items =>
      have htext : (dumps (.arr items)).toList ++ rest =
          '[' :: ((dumpsItems items).toList ++ ']' :: rest) := by simp [dumps]
      have hlength : (dumps (.arr items)).toList.length = (dumpsItems items).toList.length + 2 := by
        simp [dumps]
      rw [htext]
      cases items with
      | nil => rfl
      | cons item items =>
        have hitems := scanItems_dumpsItems r (item :: items) (by simp) hv
          fuel (by omega) rest
        obtain ⟨c, tail, hc, hopens⟩ := opens_dumps item
        rw [toList_dumpsItems, hc] at hitems ⊢
        simp only [List.cons_append] at hitems ⊢
        rw [scanValue_items r fuel _ hopens, hitems]
        rfl
    | obj fields =>
      have htext : (dumps (.obj fields)).toList ++ rest =
          '\x7b' :: ((dumpsFields fields).toList ++ '\x7d' :: rest) := by simp [dumps]
      have hlength : (dumps (.obj fields)).toList.length =
          (dumpsFields fields).toList.length + 2 := by simp [dumps]
      rw [htext]
      cases fields with
      | nil =>
        show (r.object [] >>= fun value => pure (value, rest)) = _
        rw [object_of_ordered List.Pairwise.nil r]
        rfl
      | cons field fields =>
        have hfields := scanFields_dumpsFields r (field :: fields) (by simp) hv.2
          fuel (by omega) rest
        rw [toList_dumpsFields, toList_quoteStr] at hfields ⊢
        simp only [List.cons_append] at hfields ⊢
        rw [scanValue_fields r fuel, hfields]
        show (r.object (field :: fields) >>= fun value => pure (value, rest)) = _
        rw [object_of_ordered hv.1 r]
        rfl

theorem scanItems_dumpsItems (r : Reader) (items : List Json) (hne : items ≠ [])
    (hv : ProperItems r.nearest items) (fuel : Nat)
    (hfuel : (dumpsItems items).toList.length + 1 < fuel) (rest : List Char) :
    scanItems r fuel ((dumpsItems items).toList ++ ']' :: rest) = .ok (items, rest) := by
  cases fuel with
  | zero => exact absurd hfuel (Nat.not_lt_zero _)
  | succ fuel =>
    cases items with
    | nil => exact absurd rfl hne
    | cons item items =>
      rw [toList_dumpsItems] at hfuel ⊢
      rw [List.length_append] at hfuel
      rw [List.append_assoc]
      cases items with
      | nil =>
        have hitem := scanValue_dumps r hv.1 fuel (by omega)
          _ (stops_cons (.inr (.inl rfl)) rest)
        simp only [if_true, List.nil_append, scanItems, hitem, bind, Except.bind]
        rfl
      | cons next items =>
        rw [if_neg (by simp), List.length_cons] at hfuel
        rw [if_neg (by simp)]
        have hitem := scanValue_dumps r hv.1 fuel (by omega)
          _ (stops_cons (.inl rfl) ((dumpsItems (next :: items)).toList ++ ']' :: rest))
        have hitems := scanItems_dumpsItems r (next :: items) (by simp) hv.2
          fuel (by omega) rest
        obtain ⟨c, tail, hc, hopens⟩ := opens_dumps next
        have hskip : skipSpace ((dumpsItems (next :: items)).toList ++ ']' :: rest) =
            (dumpsItems (next :: items)).toList ++ ']' :: rest := by
          rw [toList_dumpsItems, hc]
          exact skipSpace_of_opens hopens
        rw [List.cons_append, scanItems]
        simp only [hitem, bind, Except.bind]
        rw [skipSpace_of_opens (show Opens ',' by decide)]
        simp only [hskip, hitems, pure, Except.pure]

theorem scanFields_dumpsFields (r : Reader) (fields : List (String × Json)) (hne : fields ≠ [])
    (hv : ProperFields r.nearest fields) (fuel : Nat)
    (hfuel : (dumpsFields fields).toList.length + 1 < fuel) (rest : List Char) :
    scanFields r fuel ((dumpsFields fields).toList ++ '\x7d' :: rest) = .ok (fields, rest) := by
  cases fuel with
  | zero => exact absurd hfuel (Nat.not_lt_zero _)
  | succ fuel =>
    cases fields with
    | nil => exact absurd rfl hne
    | cons field fields =>
      obtain ⟨key, value⟩ := field
      obtain ⟨c, tail, hc, hopens⟩ := opens_dumps value
      have hskip : ∀ after, skipSpace ((dumps value).toList ++ after) =
          (dumps value).toList ++ after := by
        intro after
        rw [hc]
        exact skipSpace_of_opens hopens
      have hcolon : ∀ after, skipSpace (':' :: after) = ':' :: after :=
        fun after => skipSpace_of_opens (by decide)
      rw [toList_dumpsFields] at hfuel ⊢
      rw [List.length_append, List.length_cons, List.length_append] at hfuel
      rw [toList_quoteStr]
      simp only [List.cons_append, List.append_assoc, List.nil_append]
      cases fields with
      | nil =>
        have hvalue := scanValue_dumps r hv.1 fuel (by omega)
          _ (stops_cons (.inr (.inr rfl)) rest)
        simp only [if_true, List.nil_append, scanFields, scanString_quoteStr, bind, Except.bind,
          hcolon, hskip, hvalue]
        rfl
      | cons next fields =>
        rw [if_neg (by simp), List.length_cons] at hfuel
        rw [if_neg (by simp)]
        have hvalue := scanValue_dumps r hv.1 fuel (by omega)
          _ (stops_cons (.inl rfl) ((dumpsFields (next :: fields)).toList ++ '\x7d' :: rest))
        have hfields := scanFields_dumpsFields r (next :: fields) (by simp) hv.2
          fuel (by omega) rest
        have hnext : skipSpace ((dumpsFields (next :: fields)).toList ++ '\x7d' :: rest) =
            (dumpsFields (next :: fields)).toList ++ '\x7d' :: rest := by
          rw [toList_dumpsFields, toList_quoteStr]
          exact skipSpace_of_opens (by decide)
        rw [List.cons_append, scanFields]
        simp only [scanString_quoteStr, bind, Except.bind, hcolon, hskip, hvalue]
        rw [skipSpace_of_opens (show Opens ',' by decide)]
        simp only [hnext, hfields, pure, Except.pure]

end

/-- **What `json.dumps` writes is read as the value it was written from.** -/
theorem loads_dumps (r : Reader) {v : Json} (hv : Proper r.nearest v) :
    loads r (dumps v) = .ok v := by
  obtain ⟨c, tail, hc, hopens⟩ := opens_dumps v
  have hskip : skipSpace (dumps v).toList = (dumps v).toList := by
    rw [hc]
    exact skipSpace_of_opens hopens
  have hvalue := scanValue_dumps r hv _ (Nat.lt_succ_self _) [] nofun
  rw [List.append_nil] at hvalue
  simp only [loads, hskip, hvalue, bind, Except.bind]
  rfl

/-- **A value is read off its canonical text.** -/
theorem dumps_inj {nearest : PyFloat → Option PyFloat} {v w : Json} (hv : Proper nearest v)
    (hw : Proper nearest w) (h : dumps v = dumps w) : v = w := by
  let reader : Reader := { nearest := nearest }
  have hread := loads_dumps reader hv
  rw [h, loads_dumps reader hw, Except.ok.injEq] at hread
  exact hread.symm

/-! ## What is proper -/

variable {nearest : PyFloat → Option PyFloat}

theorem properItems_iff {items : List Json} :
    ProperItems nearest items ↔ ∀ item ∈ items, Proper nearest item := by
  induction items with
  | nil => simp [ProperItems]
  | cons item items ih => simp [ProperItems, ih]

theorem properFields_iff {fields : List (String × Json)} :
    ProperFields nearest fields ↔ ∀ field ∈ fields, Proper nearest field.2 := by
  induction fields with
  | nil => simp [ProperFields]
  | cons field fields ih => simp [ProperFields, ih]

/-- A dictionary of proper values is proper. -/
theorem proper_ofPayload {p : Payload} :
    Proper nearest (.ofPayload p) ↔ ∀ field ∈ p.toList, Proper nearest field.2 := by
  rw [ofPayload, Proper, properFields_iff]
  exact and_iff_right Library.ordered_toList_dict

/-- So is an object written out of proper fields. -/
theorem proper_object {fields : List (String × Json)}
    (h : ∀ field ∈ fields, Proper nearest field.2) : Proper nearest (object fields) := by
  rw [Payload.object_eq, proper_ofPayload]
  rintro ⟨key, value⟩ hmem
  rw [Library.mem_dict_toList, Payload.getElem?_ofFields] at hmem
  exact h (key, value) (List.mem_reverse.1 (Library.mem_of_lookup hmem))

/-! ## Canonical text is read back -/

mutual

/-- A proper value is read back as it was. -/
theorem canonical_of_proper (v : Json) (hv : Proper nearest v) : v.Canonical := by
  cases v with
  | arr items => exact congrArg arr (reread_properItems items hv)
  | obj fields =>
    rw [Canonical, reread, reread_properFields fields hv.2, object,
      Library.toList_ofList_ordered hv.1]
  | _ => rfl

theorem reread_properItems (items : List Json) (hv : ProperItems nearest items) :
    rereadItems items = items := by
  cases items with
  | nil => rfl
  | cons item rest =>
    rw [rereadItems, canonical_of_proper item hv.1, reread_properItems rest hv.2]

theorem reread_properFields (fields : List (String × Json)) (hv : ProperFields nearest fields) :
    rereadFields fields = fields := by
  cases fields with
  | nil => rfl
  | cons field rest =>
    rw [rereadFields, canonical_of_proper field.2 hv.1, reread_properFields rest hv.2]

end

/-- A proper value is written as it is. -/
theorem canonicalJson_of_proper {v : Json} (hv : Proper nearest v) : canonicalJson v = dumps v := by
  rw [canonicalJson, canonical_of_proper v hv]

theorem canonicalJson_inj {v w : Json} (hv : Proper nearest v) (hw : Proper nearest w)
    (h : canonicalJson v = canonicalJson w) : v = w := by
  rw [canonicalJson_of_proper hv, canonicalJson_of_proper hw] at h
  exact dumps_inj hv hw h

mutual

/-- Every float in the value is the nearest to itself. -/
def Reads (nearest : PyFloat → Option PyFloat) : Json → Prop
  | .float x => nearest x = some x
  | .arr items => ReadsItems nearest items
  | .obj fields => ReadsFields nearest fields
  | _ => True

def ReadsItems (nearest : PyFloat → Option PyFloat) : List Json → Prop
  | [] => True
  | item :: rest => Reads nearest item ∧ ReadsItems nearest rest

def ReadsFields (nearest : PyFloat → Option PyFloat) : List (String × Json) → Prop
  | [] => True
  | (_, value) :: rest => Reads nearest value ∧ ReadsFields nearest rest

end

mutual

/-- **What is read back is proper**, where its floats are read. -/
theorem proper_reread (v : Json) (hv : Reads nearest v) : Proper nearest v.reread := by
  cases v with
  | arr items =>
    rw [reread]
    exact properItems_reread items hv
  | obj fields =>
    rw [reread]
    exact proper_object (properFields_iff.1 (properFields_reread fields hv))
  | float x => exact hv
  | _ => trivial

theorem properItems_reread (items : List Json) (hv : ReadsItems nearest items) :
    ProperItems nearest (rereadItems items) := by
  cases items with
  | nil => trivial
  | cons item rest => exact ⟨proper_reread item hv.1, properItems_reread rest hv.2⟩

theorem properFields_reread (fields : List (String × Json)) (hv : ReadsFields nearest fields) :
    ProperFields nearest (rereadFields fields) := by
  cases fields with
  | nil => trivial
  | cons field rest => exact ⟨proper_reread field.2 hv.1, properFields_reread rest hv.2⟩

end

mutual

/-- A reader that keeps every float reads every value. -/
theorem reads_some (v : Json) : Reads some v := by
  cases v with
  | arr items => exact readsItems_some items
  | obj fields => exact readsFields_some fields
  | float x => rfl
  | _ => trivial

theorem readsItems_some (items : List Json) : ReadsItems some items := by
  cases items with
  | nil => trivial
  | cons item rest => exact ⟨reads_some item, readsItems_some rest⟩

theorem readsFields_some (fields : List (String × Json)) : ReadsFields some fields := by
  cases fields with
  | nil => trivial
  | cons field rest => exact ⟨reads_some field.2, readsFields_some rest⟩

end

/-- **One canonical text, one value**, as it is read back. -/
theorem reread_of_canonicalJson {v w : Json} (h : canonicalJson v = canonicalJson w) :
    v.reread = w.reread :=
  dumps_inj (proper_reread v (reads_some v)) (proper_reread w (reads_some w)) h

-- a value need not be computed to see that its floats are read
attribute [irreducible] Reads

/-- **What `json.loads` gives back of `canonical_json`.** -/
theorem loads_canonicalJson (r : Reader) (v : Json) (hv : Reads r.nearest v) :
    loads r (canonicalJson v) = .ok v.reread := loads_dumps r (proper_reread v hv)

end Json

end ArgoTwin
