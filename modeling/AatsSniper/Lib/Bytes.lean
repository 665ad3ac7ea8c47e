/-
# Byte strings and the integers they spell

Python's `bytes`, `int.from_bytes`, `int.to_bytes` and `struct.pack`, as far as
fixed-layout codecs need them.  A byte string is a list of bytes, so that
slicing is `List.take` and `List.drop`; the integer a slice spells is
`Nat.ofDigits 256`, least significant byte first for `"little"`, last for
`"big"`.

`leNat_append` says how the value of a concatenation splits, and
`leNat_leBytes` that a little-endian field of `k` bytes reads back modulo
`256 ^ k`.  Fixed-width fields are read through these two.  A number written in as
many bytes as its bits take is written in its base-256 digits (`bitBytes_eq`).
-/

import Mathlib.Data.Nat.Digits.Lemmas
import Mathlib.Data.Nat.Size

namespace AatsSniper

/-- Python's `bytes`. -/
abbrev Bytes := List UInt8

namespace Bytes

/-- `int.from_bytes(data, "little")`. -/
def leNat (data : Bytes) : ℕ := Nat.ofDigits 256 (data.map UInt8.toNat)

/-- `int.from_bytes(data, "big")`. -/
def beNat (data : Bytes) : ℕ := leNat data.reverse

/-- `n.to_bytes(k, "little")`, the low `k` bytes of `n`. -/
def leBytes : ℕ → ℕ → Bytes
  | 0, _ => []
  | k + 1, n => UInt8.ofNat (n % 256) :: leBytes k (n / 256)

/-- `n.to_bytes(length, "big")`; no bytes where it raises `OverflowError`. -/
def toBytes (n length : ℕ) : Option Bytes :=
  if n < 256 ^ length then some (leBytes length n).reverse else none

/-- `n.bit_length()`. -/
def bitLength (n : ℕ) : ℕ := n.size

/-- `n.to_bytes((n.bit_length() + 7) // 8, "big") if n > 0 else b""`. -/
def bitBytes (n : ℕ) : Option Bytes :=
  if 0 < n then toBytes n ((bitLength n + 7) / 8) else some []

/-- `data[i:j]`. -/
def slice (data : Bytes) (i j : ℕ) : Bytes := (data.drop i).take (j - i)

@[simp] theorem leBytes_length (k n : ℕ) : (leBytes k n).length = k := by
  induction k generalizing n with
  | zero => rfl
  | succ k ih => simp [leBytes, ih]

theorem leNat_append (a b : Bytes) : leNat (a ++ b) = leNat a + 256 ^ a.length * leNat b := by
  simp [leNat, Nat.ofDigits_append]

/-- **A `k`-byte little-endian field reads back modulo `256 ^ k`.** -/
theorem leNat_leBytes (k n : ℕ) : leNat (leBytes k n) = n % 256 ^ k := by
  induction k generalizing n with
  | zero => simp [leNat, leBytes, Nat.mod_one]
  | succ k ih =>
      have hcons : leNat (leBytes (k + 1) n) = n % 256 + 256 * leNat (leBytes k (n / 256)) := by
        simp [leNat, leBytes, Nat.ofDigits_cons]
      rw [hcons, ih, pow_succ', Nat.mod_mul]

/-- The first bytes of a field are the field of that width. -/
theorem take_leBytes {j k : ℕ} (h : j ≤ k) (n : ℕ) : (leBytes k n).take j = leBytes j n := by
  induction j generalizing k n with
  | zero => rfl
  | succ j ih =>
      obtain ⟨k, rfl⟩ := Nat.exists_eq_add_of_le h
      rw [Nat.add_right_comm]
      simp only [leBytes, List.take_succ_cons]
      rw [ih (by omega)]

/-- The bytes of a number that needs all of them are its digits. -/
theorem leBytes_eq_digits {k n : ℕ} (hlt : n < 256 ^ k) (hle : ∀ j < k, 256 ^ j ≤ n) :
    leBytes k n = (Nat.digits 256 n).map UInt8.ofNat := by
  induction k generalizing n with
  | zero =>
      obtain rfl := Nat.lt_one_iff.1 hlt
      rw [Nat.digits_zero]
      rfl
  | succ k ih =>
      have hpos : 0 < n := (hle 0 (Nat.succ_pos k)).trans_lt' Nat.zero_lt_one
      have hquot : n / 256 < 256 ^ k := by
        rw [Nat.div_lt_iff_lt_mul (by decide), ← pow_succ]
        exact hlt
      have hquot' : ∀ j < k, 256 ^ j ≤ n / 256 := by
        intro j hj
        rw [Nat.le_div_iff_mul_le (by decide), ← pow_succ]
        exact hle (j + 1) (Nat.succ_lt_succ hj)
      rw [leBytes, Nat.digits_def' (by decide) hpos, List.map_cons, ih hquot hquot']

/-- **The bytes that the bits of a number take hold it, and are its digits.** -/
theorem bitBytes_eq (n : ℕ) : bitBytes n = some ((Nat.digits 256 n).reverse.map UInt8.ofNat) := by
  have hbase : ∀ j, 256 ^ j = 2 ^ (8 * j) := fun j => by rw [pow_mul]; norm_num
  have hlt : n < 256 ^ ((bitLength n + 7) / 8) := by
    rw [hbase, ← Nat.size_le]
    unfold bitLength
    omega
  have hle : ∀ j < (bitLength n + 7) / 8, 256 ^ j ≤ n := by
    intro j hj
    rw [hbase, ← Nat.lt_size]
    unfold bitLength at hj
    omega
  unfold bitBytes
  split_ifs with hpos
  · rw [toBytes, if_pos hlt, leBytes_eq_digits hlt hle, List.map_reverse]
  · rw [Nat.eq_zero_of_not_pos hpos, Nat.digits_zero]
    rfl

end Bytes
end AatsSniper
