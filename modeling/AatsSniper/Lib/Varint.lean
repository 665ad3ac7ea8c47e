/-
# Base-128 numbers

A number is spelled seven bits a byte, the low ones first; every byte but the last has
its high bit set (`Spells`).  A byte string spells at most one number
(`Spells.unique`), and does not go on where another spelling ends
(`Spells.append_inj`); a number is spelled in many ways, with zeros for its high
digits.  `encode` is the shortest, and a spelling is that one iff its last byte is
not zero, or it has only one (`Spells.shortest_iff`).
-/

import AatsSniper.Lib.Bytes
import Mathlib.Data.Nat.Bitwise

namespace AatsSniper
namespace Varint

/-- The bytes spell the number. -/
inductive Spells : Bytes → ℕ → Prop
  | last (b : UInt8) (h : b.toNat < 128) : Spells [b] b.toNat
  | more (b : UInt8) {pre : Bytes} {n : ℕ} (h : 128 ≤ b.toNat) (hpre : Spells pre n) :
      Spells (b :: pre) (b.toNat - 128 + 128 * n)

/-- The shortest spelling. -/
def encode (n : ℕ) : Bytes :=
  if n < 128 then [UInt8.ofNat n] else UInt8.ofNat (n % 128 + 128) :: encode (n / 128)
decreasing_by omega

/-- No zeros stand for high digits. -/
def Shortest (pre : Bytes) : Prop := pre.length = 1 ∨ pre.getLast? ≠ some 0

instance : DecidablePred Shortest := fun pre =>
  inferInstanceAs (Decidable (pre.length = 1 ∨ pre.getLast? ≠ some 0))

variable {pre pre' rest rest' : Bytes} {n m : ℕ}

theorem Spells.ne_nil (h : Spells pre n) : pre ≠ [] := by
  cases h with
  | last b _ => exact List.cons_ne_nil b []
  | more b _ _ => exact List.cons_ne_nil b _

/-- **Where a spelling ends** does not depend on what follows it. -/
theorem Spells.append_inj (h : Spells pre n) (h' : Spells pre' m)
    (heq : pre ++ rest = pre' ++ rest') : pre = pre' ∧ n = m ∧ rest = rest' := by
  induction h generalizing pre' m with
  | last b hb =>
      cases h' with
      | last b' hb' =>
          obtain ⟨rfl, rfl⟩ := List.cons.inj heq
          exact ⟨rfl, rfl, rfl⟩
      | more b' hb' _ =>
          obtain ⟨rfl, -⟩ := List.cons.inj heq
          omega
  | more b hb _ ih =>
      cases h' with
      | last b' hb' =>
          obtain ⟨rfl, -⟩ := List.cons.inj heq
          omega
      | more b' hb' hpre' =>
          obtain ⟨rfl, htail⟩ := List.cons.inj heq
          obtain ⟨rfl, rfl, rfl⟩ := ih hpre' htail
          exact ⟨rfl, rfl, rfl⟩

theorem Spells.unique (h : Spells pre n) (h' : Spells pre m) : n = m :=
  (h.append_inj h' (rfl : pre ++ [] = pre ++ [])).2.1

/-- A spelling of `k` bytes spells less than `128 ^ k`. -/
theorem Spells.lt (h : Spells pre n) : n < 128 ^ pre.length := by
  induction h with
  | last b hb => simpa using hb
  | @more b pre n hb _ ih =>
      have hbyte := b.toNat_lt
      rw [List.length_cons, pow_succ]
      omega

theorem spells_encode (n : ℕ) : Spells (encode n) n := by
  induction n using encode.induct with
  | case1 n hlt =>
      have hbyte : (UInt8.ofNat n).toNat = n := by
        rw [UInt8.toNat_ofNat']
        omega
      rw [encode, if_pos hlt]
      simpa only [hbyte] using Spells.last (UInt8.ofNat n) (by omega)
  | case2 n hge ih =>
      have hbyte : (UInt8.ofNat (n % 128 + 128)).toNat = n % 128 + 128 := by
        rw [UInt8.toNat_ofNat']
        omega
      rw [encode, if_neg hge]
      have hmore := Spells.more (UInt8.ofNat (n % 128 + 128)) (by omega) ih
      rw [hbyte] at hmore
      convert hmore using 1
      omega

/-- A number of at most `7 * k` bits takes at most `k` bytes. -/
theorem length_encode_le {k : ℕ} (hk : 0 < k) (h : n < 128 ^ k) : (encode n).length ≤ k := by
  induction k, hk using Nat.le_induction generalizing n with
  | base =>
      rw [encode, if_pos (by simpa using h)]
      rfl
  | succ k hk ih =>
      rw [encode]
      split_ifs with hlt
      · exact Nat.succ_le_succ (Nat.zero_le k)
      · rw [pow_succ] at h
        exact Nat.succ_le_succ (ih (by omega))

theorem encode_ne_nil (n : ℕ) : encode n ≠ [] := (spells_encode n).ne_nil

/-- What follows the first byte ends as the whole does. -/
theorem getLast?_cons_of_ne_nil {b : UInt8} (h : pre ≠ []) :
    (b :: pre).getLast? = pre.getLast? := by
  rw [List.getLast?_cons, List.getLast?_eq_some_getLast h]
  rfl

/-- The last byte of the shortest spelling holds the highest digit. -/
theorem getLast?_encode_ne (h : 0 < n) : (encode n).getLast? ≠ some 0 := by
  induction n using encode.induct with
  | case1 n hlt =>
      rw [encode, if_pos hlt, List.getLast?_singleton]
      intro hzero
      have hbyte := congrArg UInt8.toNat (Option.some.inj hzero)
      rw [UInt8.toNat_ofNat', UInt8.toNat_zero] at hbyte
      omega
  | case2 n hge ih =>
      rw [encode, if_neg hge, getLast?_cons_of_ne_nil (encode_ne_nil _)]
      exact ih (by omega)

theorem encode_shortest (n : ℕ) : Shortest (encode n) := by
  rcases Nat.eq_zero_or_pos n with rfl | hpos
  · refine .inl ?_
    rw [encode, if_pos (by decide)]
    rfl
  · exact .inr (getLast?_encode_ne hpos)

/-- **A spelling is the encoding** iff it is the shortest. -/
theorem Spells.shortest_iff (h : Spells pre n) : Shortest pre ↔ pre = encode n := by
  refine ⟨fun hshortest => ?_, fun heq => heq ▸ encode_shortest n⟩
  induction h with
  | last b hb =>
      rw [encode, if_pos hb, UInt8.ofNat_toNat]
  | @more b pre n hb hpre ih =>
      have hlast : pre.getLast? ≠ some 0 := by
        rcases hshortest with hone | hlast
        · exact absurd (List.length_eq_zero_iff.1 (Nat.succ.inj hone)) hpre.ne_nil
        · rwa [getLast?_cons_of_ne_nil hpre.ne_nil] at hlast
      have htail := ih (.inr hlast)
      have hpos : 0 < n := by
        by_contra hzero
        obtain rfl : n = 0 := by omega
        rw [htail, encode, if_pos (by decide)] at hlast
        exact hlast rfl
      rw [encode, if_neg (by omega)]
      have hbyte := b.toNat_lt
      have hlow : (b.toNat - 128 + 128 * n) % 128 + 128 = b.toNat := by omega
      have hhigh : (b.toNat - 128 + 128 * n) / 128 = n := by omega
      rw [hlow, hhigh, UInt8.ofNat_toNat, ← htail]

end Varint
end AatsSniper
