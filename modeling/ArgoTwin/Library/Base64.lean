import ArgoTwin.Library.Bytes
/-!
# Base64

Three bytes are four digits of six bits each; a last group of one or two
bytes is filled up with `=`. The codec is one for every alphabet of
sixty-four digits.
-/

namespace ArgoTwin

namespace Library

/-- The digits of a base64 text, in the order of their values. -/
structure Alphabet where
  digits : List Char
  length_eq : digits.length = 64
  distinct : digits.Nodup
  pad_free : '=' ∉ digits

namespace Alphabet

def standard : Alphabet where
  digits := "ABCDEFGHIJKLMNOPQRSTUVWXYZabcdefghijklmnopqrstuvwxyz0123456789+/".toList
  length_eq := by decide
  distinct := by decide
  pad_free := by decide

variable (alphabet : Alphabet)

/-- The digit of a value below sixty-four. -/
def digit (n : Nat) : Char := alphabet.digits.getD n '='

/-- The value of a digit. -/
def value? (c : Char) : Option Nat :=
  if c ∈ alphabet.digits then some (alphabet.digits.idxOf c) else none

def encode : Bytes → List Char
  | [] => []
  | [x] => [alphabet.digit (x.toNat / 4), alphabet.digit (x.toNat % 4 * 16), '=', '=']
  | [x, y] =>
    [alphabet.digit (x.toNat / 4), alphabet.digit (x.toNat % 4 * 16 + y.toNat / 16),
      alphabet.digit (y.toNat % 16 * 4), '=']
  | x :: y :: z :: rest =>
    alphabet.digit (x.toNat / 4) :: alphabet.digit (x.toNat % 4 * 16 + y.toNat / 16) ::
      alphabet.digit (y.toNat % 16 * 4 + z.toNat / 64) :: alphabet.digit (z.toNat % 64) ::
      encode rest

/-- The strict reading: nothing but digits, in groups of four, and padding
only at the end. -/
def decode : List Char → Option Bytes
  | [] => some []
  | a :: b :: c :: d :: rest => do
    let a ← alphabet.value? a
    let b ← alphabet.value? b
    let x := UInt8.ofNat (a * 4 + b / 16)
    if c = '=' then
      if d = '=' ∧ rest = [] then some [x] else none
    else
      let c ← alphabet.value? c
      let y := UInt8.ofNat (b % 16 * 16 + c / 4)
      if d = '=' then
        if rest = [] then some [x, y] else none
      else
        let d ← alphabet.value? d
        let tail ← decode rest
        some (x :: y :: UInt8.ofNat (c % 4 * 64 + d) :: tail)
  | _ => none

variable {alphabet}

theorem digit_mem {n : Nat} (h : n < 64) : alphabet.digit n ∈ alphabet.digits := by
  have hlength : n < alphabet.digits.length := by rw [alphabet.length_eq]; exact h
  rw [digit, List.getD_eq_getElem _ _ hlength]
  exact List.getElem_mem hlength

theorem digit_ne_pad {n : Nat} (h : n < 64) : alphabet.digit n ≠ '=' :=
  fun hpad => alphabet.pad_free (hpad ▸ digit_mem h)

/-- **A digit has its value.** -/
theorem value?_digit {n : Nat} (h : n < 64) : alphabet.value? (alphabet.digit n) = some n := by
  have hlength : n < alphabet.digits.length := by rw [alphabet.length_eq]; exact h
  rw [value?, if_pos (digit_mem h), digit, List.getD_eq_getElem _ _ hlength,
    alphabet.distinct.idxOf_getElem]

/-- A byte is put together from the numbers that make it up. -/
theorem ofNat_eq {n : Nat} {x : UInt8} (h : n = x.toNat) : UInt8.ofNat n = x := by
  rw [h, UInt8.ofNat_toNat]

/-- **What is encoded is decoded again.** -/
theorem decode_encode : ∀ bytes : Bytes, alphabet.decode (alphabet.encode bytes) = some bytes
  | [] => rfl
  | [x] => by
    have hx := x.toNat_lt
    have ha : x.toNat / 4 < 64 := by omega
    have hb : x.toNat % 4 * 16 < 64 := by omega
    have hbyte : UInt8.ofNat (x.toNat / 4 * 4 + x.toNat % 4 * 16 / 16) = x := ofNat_eq (by omega)
    simp only [encode, decode, value?_digit ha, value?_digit hb, Option.bind_eq_bind,
      Option.bind_some, and_self, if_true, hbyte]
  | [x, y] => by
    have hx := x.toNat_lt
    have hy := y.toNat_lt
    have ha : x.toNat / 4 < 64 := by omega
    have hb : x.toNat % 4 * 16 + y.toNat / 16 < 64 := by omega
    have hc : y.toNat % 16 * 4 < 64 := by omega
    have hfirst : UInt8.ofNat (x.toNat / 4 * 4 + (x.toNat % 4 * 16 + y.toNat / 16) / 16) = x :=
      ofNat_eq (by omega)
    have hsecond : UInt8.ofNat ((x.toNat % 4 * 16 + y.toNat / 16) % 16 * 16 +
        y.toNat % 16 * 4 / 4) = y := ofNat_eq (by omega)
    simp only [encode, decode, value?_digit ha, value?_digit hb, value?_digit hc,
      if_neg (digit_ne_pad hc), Option.bind_eq_bind, Option.bind_some, if_true, hfirst, hsecond]
  | x :: y :: z :: rest => by
    have hx := x.toNat_lt
    have hy := y.toNat_lt
    have hz := z.toNat_lt
    have ha : x.toNat / 4 < 64 := by omega
    have hb : x.toNat % 4 * 16 + y.toNat / 16 < 64 := by omega
    have hc : y.toNat % 16 * 4 + z.toNat / 64 < 64 := by omega
    have hd : z.toNat % 64 < 64 := by omega
    have hfirst : UInt8.ofNat (x.toNat / 4 * 4 + (x.toNat % 4 * 16 + y.toNat / 16) / 16) = x :=
      ofNat_eq (by omega)
    have hsecond : UInt8.ofNat ((x.toNat % 4 * 16 + y.toNat / 16) % 16 * 16 +
        (y.toNat % 16 * 4 + z.toNat / 64) / 4) = y := ofNat_eq (by omega)
    have hthird : UInt8.ofNat ((y.toNat % 16 * 4 + z.toNat / 64) % 4 * 64 + z.toNat % 64) = z :=
      ofNat_eq (by omega)
    simp only [encode, decode, value?_digit ha, value?_digit hb, value?_digit hc, value?_digit hd,
      if_neg (digit_ne_pad hc), if_neg (digit_ne_pad hd), decode_encode rest, Option.bind_eq_bind,
      Option.bind_some, hfirst, hsecond, hthird]

variable (alphabet) in
/-- **What is encoded is digits, and padding** up to a multiple of four. -/
theorem encode_eq : ∀ bytes : Bytes, ∃ (digits : List Char) (pad : Nat),
    alphabet.encode bytes = digits ++ List.replicate pad '=' ∧ (∀ c ∈ digits, c ∈ alphabet.digits) ∧
      pad < 4 ∧ (digits.length + pad) % 4 = 0 ∧ (bytes ≠ [] → digits ≠ [])
  | [] => ⟨[], 0, rfl, by simp, by decide, rfl, by simp⟩
  | [x] => by
    have hx := x.toNat_lt
    refine ⟨[alphabet.digit (x.toNat / 4), alphabet.digit (x.toNat % 4 * 16)], 2, rfl, ?_, by decide,
      by simp, by simp⟩
    simp only [List.mem_cons, List.not_mem_nil, or_false]
    rintro c (rfl | rfl)
    · exact digit_mem (by omega)
    · exact digit_mem (by omega)
  | [x, y] => by
    have hx := x.toNat_lt
    have hy := y.toNat_lt
    refine ⟨[alphabet.digit (x.toNat / 4), alphabet.digit (x.toNat % 4 * 16 + y.toNat / 16),
      alphabet.digit (y.toNat % 16 * 4)], 1, rfl, ?_, by decide, by simp, by simp⟩
    simp only [List.mem_cons, List.not_mem_nil, or_false]
    rintro c (rfl | rfl | rfl)
    · exact digit_mem (by omega)
    · exact digit_mem (by omega)
    · exact digit_mem (by omega)
  | x :: y :: z :: rest => by
    have hx := x.toNat_lt
    have hy := y.toNat_lt
    have hz := z.toNat_lt
    obtain ⟨digits, pad, hrest, hdigits, hpad, hlength, -⟩ := encode_eq rest
    refine ⟨alphabet.digit (x.toNat / 4) :: alphabet.digit (x.toNat % 4 * 16 + y.toNat / 16) ::
      alphabet.digit (y.toNat % 16 * 4 + z.toNat / 64) :: alphabet.digit (z.toNat % 64) :: digits,
      pad, by rw [encode, hrest]; rfl, ?_, hpad, ?_, by simp⟩
    · simp only [List.mem_cons]
      rintro c (rfl | rfl | rfl | rfl | hc)
      · exact digit_mem (by omega)
      · exact digit_mem (by omega)
      · exact digit_mem (by omega)
      · exact digit_mem (by omega)
      · exact hdigits c hc
    · simp only [List.length_cons]
      omega

end Alphabet

end Library

end ArgoTwin
