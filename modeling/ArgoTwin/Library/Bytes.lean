import Mathlib
/-!
# Byte strings

Byte strings are lists of bytes: whole numbers written big-endian in a fixed
width, and texts in UTF-8. Sealed messages are what an ideal authenticated
cipher has encrypted: it opens what it sealed, under the same key, nonce and
associated data, and nothing else.
-/

namespace ArgoTwin

namespace Library

abbrev Bytes := List UInt8

/-! ## Whole numbers -/

/-- The low `width` bytes of a number, the highest first. -/
def toBytes : Nat → Nat → Bytes
  | 0, _ => []
  | width + 1, n => toBytes width (n / 256) ++ [UInt8.ofNat (n % 256)]

/-- The number bytes spell, the highest first. -/
def ofBytes (bytes : Bytes) : Nat := bytes.foldl (fun n byte => n * 256 + byte.toNat) 0

@[simp] theorem length_toBytes (width n : Nat) : (toBytes width n).length = width := by
  induction width generalizing n with
  | zero => rfl
  | succ width ih => rw [toBytes, List.length_append, ih, List.length_singleton]

/-- **A number that fits is read back.** -/
theorem ofBytes_toBytes {width n : Nat} (h : n < 256 ^ width) : ofBytes (toBytes width n) = n := by
  induction width generalizing n with
  | zero =>
    have hzero : n = 0 := by simpa using h
    rw [hzero]
    rfl
  | succ width ih =>
    have hhigh : n / 256 < 256 ^ width := Nat.div_lt_of_lt_mul (by rwa [← Nat.pow_succ'])
    have hlow : (UInt8.ofNat (n % 256)).toNat = n % 256 :=
      Nat.mod_eq_of_lt (Nat.mod_lt n (by decide))
    rw [toBytes, ofBytes, List.foldl_append, ← ofBytes, ih hhigh, List.foldl_cons, List.foldl_nil,
      hlow]
    omega

/-! ## Texts -/

def utf8 (text : String) : Bytes := text.toUTF8.data.toList

def ofUtf8 (bytes : Bytes) : Option String := String.fromUTF8? ⟨bytes.toArray⟩

/-- **A text is read off its bytes.** -/
@[simp] theorem ofUtf8_utf8 (text : String) : ofUtf8 (utf8 text) = some text := by
  have hbytes : ByteArray.mk (utf8 text).toArray = text.toUTF8 := by
    rw [utf8, Array.toArray_toList]
  have hvalid : text.toUTF8.IsValidUTF8 := text.isValidUTF8
  rw [ofUtf8, hbytes, String.fromUTF8?, dif_pos hvalid]
  rfl

theorem utf8_inj {text text' : String} (h : utf8 text = utf8 text') : text = text' := by
  have hread := ofUtf8_utf8 text
  rw [h, ofUtf8_utf8] at hread
  exact (Option.some.inj hread).symm

theorem utf8_eq (text : String) : utf8 text = text.toList.flatMap String.utf8EncodeChar := by
  rw [utf8, String.toUTF8, ← String.utf8Encode_toList, List.utf8Encode, List.toList_data_toByteArray]

/-! ## Sealed messages -/

/-- A message sealed under a key, with a nonce and associated data. -/
structure Sealed where
  key : Bytes
  nonce : Bytes
  aad : Bytes
  plaintext : Bytes
  ciphertext : Bytes
  deriving DecidableEq

end Library

end ArgoTwin
