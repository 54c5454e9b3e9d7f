import Mathlib.Data.List.Basic

/-! # Base64 without padding

Bytes written with an alphabet of 64 characters, four for every three bytes, and read back.
-/

namespace Advance.Foundation

namespace Base64

/-! ## Digits -/

/-- The alphabet for addresses and file names. -/
def digitChar (n : Nat) : Char :=
  if n < 26 then Char.ofNat (65 + n)
  else if n < 52 then Char.ofNat (71 + n)
  else if n < 62 then Char.ofNat (n - 4)
  else if n = 62 then '-'
  else '_'

def digitValue (c : Char) : Option Nat :=
  if 'A' ≤ c ∧ c ≤ 'Z' then some (c.toNat - 65)
  else if 'a' ≤ c ∧ c ≤ 'z' then some (c.toNat - 71)
  else if '0' ≤ c ∧ c ≤ '9' then some (c.toNat + 4)
  else if c = '-' then some 62
  else if c = '_' then some 63
  else none

def isDigit (c : Char) : Bool := (digitValue c).isSome

variable {n : Nat}

theorem digitValue_digitChar (small : n < 64) : digitValue (digitChar n) = some n := by
  have all : ∀ n < 64, digitValue (digitChar n) = some n := by decide
  exact all n small

/-! ## Writing and reading -/

def byteOf (n : Nat) : UInt8 := UInt8.ofNat n

/-- Three bytes are four digits; one or two that are left over are two or three digits. -/
def encode : List UInt8 → List Char
  | [] => []
  | [a] => [digitChar (a.toNat / 4), digitChar (a.toNat % 4 * 16)]
  | [a, b] =>
    [digitChar (a.toNat / 4), digitChar (a.toNat % 4 * 16 + b.toNat / 16), digitChar (b.toNat % 16 * 4)]
  | a :: b :: c :: rest =>
    digitChar (a.toNat / 4) :: digitChar (a.toNat % 4 * 16 + b.toNat / 16) ::
      digitChar (b.toNat % 16 * 4 + c.toNat / 64) :: digitChar (c.toNat % 64) :: encode rest

/-- The bytes of digits; bits that make no whole byte are dropped. -/
def bytesOf : List Nat → List UInt8
  | [] | [_] => []
  | [w, x] => [byteOf (w * 4 + x / 16)]
  | [w, x, y] => [byteOf (w * 4 + x / 16), byteOf (x % 16 * 16 + y / 4)]
  | w :: x :: y :: z :: rest =>
    byteOf (w * 4 + x / 16) :: byteOf (x % 16 * 16 + y / 4) :: byteOf (y % 4 * 64 + z) :: bytesOf rest

/-- Characters that are no digits are skipped. -/
def decode (text : List Char) : List UInt8 := bytesOf (text.filterMap digitValue)

/-! ## What is written is read back -/

theorem byteOf_eq {byte : UInt8} (same : n = byte.toNat) : byteOf n = byte := by
  rw [same, byteOf, UInt8.ofNat_toNat]

theorem filterMap_digit (small : n < 64) (rest : List Char) :
    (digitChar n :: rest).filterMap digitValue = n :: rest.filterMap digitValue :=
  List.filterMap_cons_some (digitValue_digitChar small)

theorem decode_encode (bytes : List UInt8) : decode (encode bytes) = bytes := by
  unfold decode
  induction bytes using encode.induct with
  | case1 => rfl
  | case2 a =>
    have bound := a.toNat_lt
    rw [encode, filterMap_digit (by omega), filterMap_digit (by omega)]
    exact congrArg (fun byte => [byte]) (byteOf_eq (by omega))
  | case3 a b =>
    have first := a.toNat_lt
    have second := b.toNat_lt
    rw [encode, filterMap_digit (by omega), filterMap_digit (by omega), filterMap_digit (by omega)]
    exact congrArg₂ (fun byte other => [byte, other]) (byteOf_eq (by omega)) (byteOf_eq (by omega))
  | case4 a b c rest ih =>
    have first := a.toNat_lt
    have second := b.toNat_lt
    have third := c.toNat_lt
    rw [encode, filterMap_digit (by omega), filterMap_digit (by omega), filterMap_digit (by omega),
      filterMap_digit (by omega), bytesOf, ih, @byteOf_eq _ a (by omega), @byteOf_eq _ b (by omega),
      @byteOf_eq _ c (by omega)]

theorem isDigit_digitChar (small : n < 64) : isDigit (digitChar n) = true := by
  rw [isDigit, digitValue_digitChar small]
  rfl

theorem encode_alphabet (bytes : List UInt8) : ∀ c ∈ encode bytes, isDigit c = true := by
  induction bytes using encode.induct with
  | case1 => simp [encode]
  | case2 a =>
    have bound := a.toNat_lt
    simp only [encode, List.forall_mem_cons, List.not_mem_nil, false_imp_iff, implies_true, and_true]
    exact ⟨isDigit_digitChar (by omega), isDigit_digitChar (by omega)⟩
  | case3 a b =>
    have first := a.toNat_lt
    have second := b.toNat_lt
    simp only [encode, List.forall_mem_cons, List.not_mem_nil, false_imp_iff, implies_true, and_true]
    exact ⟨isDigit_digitChar (by omega), isDigit_digitChar (by omega), isDigit_digitChar (by omega)⟩
  | case4 a b c rest ih =>
    have first := a.toNat_lt
    have second := b.toNat_lt
    have third := c.toNat_lt
    simp only [encode, List.forall_mem_cons]
    exact ⟨isDigit_digitChar (by omega), isDigit_digitChar (by omega), isDigit_digitChar (by omega),
      isDigit_digitChar (by omega), ih⟩

theorem encode_ne_nil {bytes : List UInt8} (filled : bytes ≠ []) : encode bytes ≠ [] := by
  intro empty
  apply filled
  rw [← decode_encode bytes, empty]
  rfl

end Base64

end Advance.Foundation
