/-
# The on-curve check answers for the Ed25519 curve

`is_on_curve` is read against RFC 8032: a point is an `x` and a `y` modulo
`q = 2²⁵⁵ - 19` on `-x² + y² = 1 + d x² y²`, and is written as the 32 bytes of `y` with the
lowest bit of `x` in the top bit (`Point.encode`).

`q` is a prime (`fieldQ_prime`, by a certificate checked with the source's own `pow`), `-1` a
square and `d` none, so the source's root finds an `x` wherever there is one
(`xRecover_isSome_iff`).  Hence the check accepts the encodings of points, the top bit apart,
and nothing else (`on_curve_iff_encodes`).
-/

import AatsSniper.Lib.Edwards
import AatsSniper.Lib.Lucas
import AatsSniper.Signer.Ata
import Mathlib.Tactic.NormNum.Prime

namespace AatsSniper
namespace Signer

/-- Square and multiply computes the power, where the fuel is the bits of the exponent. -/
theorem powModLoop_eq (b m : ℕ) {fuel e : ℕ} (h : e < 2 ^ fuel) :
    powModLoop b m fuel e = b ^ e % m := by
  induction fuel generalizing e with
  | zero =>
      obtain rfl : e = 0 := by simpa using h
      simp [powModLoop]
  | succ fuel ih =>
      by_cases hzero : e = 0
      · simp [powModLoop, hzero]
      · have hhalf : e / 2 < 2 ^ fuel := by
          rw [pow_succ] at h
          omega
        have hsquare : b ^ (e / 2) % m * (b ^ (e / 2) % m) % m = b ^ (e / 2 + e / 2) % m := by
          rw [← Nat.mul_mod, ← pow_add]
        simp only [powModLoop, hzero, if_false, ih hhalf, hsquare]
        by_cases hodd : e % 2 = 1
        · rw [if_pos hodd, Nat.mod_mul_mod, ← pow_succ]
          congr 2
          omega
        · rw [if_neg hodd]
          congr 2
          omega

/-- `pow(b, e, m)` is the power modulo `m`. -/
theorem powMod_eq (b e m : ℕ) : powMod b e m = b ^ e % m := powModLoop_eq b m Nat.lt_log2_self

/-- The primes the certificate starts from. -/
def smallPrimes : List ℕ :=
  [2, 3, 5, 7, 13, 19, 31, 47, 107, 127, 223, 353, 2437, 4153, 57467, 65147, 75707, 132049, 430751,
    569003, 1923133, 8574133]

theorem smallPrimes_prime : ∀ p ∈ smallPrimes, p.Prime := by
  simp only [smallPrimes, List.forall_mem_cons, List.not_mem_nil, false_imp_iff, imp_true_iff,
    and_true]
  norm_num

/-- Lucas's test of `q`, and of the primes below it. -/
def fieldCertificate : List Lucas.Line :=
  [⟨2773320623, 5, [2, 2437, 569003]⟩,
    ⟨72106336199, 7, [2, 13, 2773320623]⟩,
    ⟨1919519569386763, 2, [2, 3, 7, 19, 47, 47, 127, 8574133]⟩,
    ⟨31757755568855353, 10, [2, 2, 2, 3, 31, 107, 223, 4153, 430751]⟩,
    ⟨75445702479781427272750846543864801, 7,
      [2, 2, 2, 2, 2, 3, 3, 5, 5, 75707, 72106336199, 1919519569386763]⟩,
    ⟨74058212732561358302231226437062788676166966415465897661863160754340907, 2,
      [2, 3, 353, 57467, 132049, 1923133, 31757755568855353,
        75445702479781427272750846543864801]⟩,
    ⟨fieldQ, 2,
      [2, 2, 3, 65147, 74058212732561358302231226437062788676166966415465897661863160754340907]⟩]

/-- **`2²⁵⁵ - 19` is a prime.** -/
theorem fieldQ_prime : fieldQ.Prime := by
  have hcertifies : Lucas.certifies powMod smallPrimes fieldCertificate = true := by
    decide +kernel
  have hlast : fieldCertificate.getLast (List.cons_ne_nil _ _) ∈ fieldCertificate :=
    List.getLast_mem _
  exact Lucas.prime_of_certifies powMod_eq smallPrimes_prime hcertifies _ hlast

instance : Fact fieldQ.Prime := ⟨fieldQ_prime⟩

/-- The integers modulo `q`. -/
abbrev Fq : Type := ZMod fieldQ

theorem fieldQ_mod : fieldQ % 8 = 5 := by decide +kernel

theorem cast_powMod (b e : ℕ) : ((powMod b e fieldQ : ℕ) : Fq) = (b : Fq) ^ e := by
  rw [powMod_eq, ZMod.natCast_mod, Nat.cast_pow]

/-- Fermat's power is the inverse, of zero too. -/
theorem cast_fieldInv (x : ℕ) : ((fieldInv x : ℕ) : Fq) = (x : Fq)⁻¹ := by
  rw [fieldInv, cast_powMod]
  by_cases hzero : (x : Fq) = 0
  · rw [hzero, inv_zero, zero_pow (by decide +kernel)]
  · refine eq_inv_of_mul_eq_one_left ?_
    rw [← pow_succ]
    exact ZMod.pow_card_sub_one_eq_one hzero

theorem cast_fieldNeg (x : ℕ) : ((fieldNeg x : ℕ) : Fq) = -(x : Fq) := by
  have hle : x % fieldQ ≤ fieldQ := (Nat.mod_lt x fieldQ_prime.pos).le
  rw [fieldNeg, ZMod.natCast_mod, Nat.cast_sub hle, ZMod.natCast_self, ZMod.natCast_mod, zero_sub]

/-- The curve's `d`, as RFC 8032 has it. -/
def curveD : Fq := -121665 / 121666

theorem cast_fieldD : ((fieldD : ℕ) : Fq) = curveD := by
  rw [fieldD, cast_fieldNeg, Nat.cast_mul, ← fieldInv, cast_fieldInv, curveD]
  push_cast
  ring

/-- The root of `-1` that the source multiplies with. -/
theorem fieldI_sq : ((fieldI : ℕ) : Fq) ^ 2 = -1 := by
  rw [fieldI, cast_powMod]
  exact Edwards.sq_two_pow fieldQ_mod

theorem curveD_not_isSquare : ¬ IsSquare curveD := by
  rw [← cast_fieldD]
  intro hsquare
  have hone : powMod fieldD (fieldQ / 2) fieldQ ≠ 1 := by decide +kernel
  have hzero : ((fieldD : ℕ) : Fq) ≠ 0 := by
    rw [ne_eq, ZMod.natCast_eq_zero_iff]
    exact Nat.not_dvd_of_pos_of_lt (by decide +kernel) (by decide +kernel)
  refine hone ?_
  rw [powMod_eq, ← Lucas.cast_pow_eq_one_iff fieldQ_prime.one_lt]
  exact (ZMod.euler_criterion fieldQ hzero).1 hsquare

/-- A point of the curve. -/
@[ext] structure Point where
  x : Fq
  y : Fq
  onCurve : Edwards.OnEdwards curveD x y

/-- The 32 bytes of a point: `y`, and the lowest bit of `x` in the top bit. -/
def Point.encode (P : Point) : Bytes := Bytes.leBytes 32 (P.y.val + 2 ^ 255 * (P.x.val % 2))

/-- The quotient whose root `_x_recover` takes. -/
def xSquared (y : ℕ) : ℕ :=
  (y * y + fieldNeg 1) * fieldInv ((fieldD * y * y + 1) % fieldQ) % fieldQ

theorem cast_xSquared (y : ℕ) :
    ((xSquared y : ℕ) : Fq) = ((y : Fq) ^ 2 - 1) / (curveD * (y : Fq) ^ 2 + 1) := by
  rw [xSquared, ZMod.natCast_mod, Nat.cast_mul, cast_fieldInv, ZMod.natCast_mod, div_eq_mul_inv]
  push_cast
  rw [cast_fieldNeg, cast_fieldD]
  push_cast
  ring_nf

/-- The test of a root. -/
theorem mul_self_mod_eq_iff (x y : ℕ) :
    x * x % fieldQ = xSquared y ↔ ((x : ℕ) : Fq) ^ 2 = ((xSquared y : ℕ) : Fq) := by
  have hlt : xSquared y < fieldQ := Nat.mod_lt _ fieldQ_prime.pos
  rw [sq, ← Nat.cast_mul, ZMod.natCast_eq_natCast_iff', Nat.mod_eq_of_lt hlt]

/-- **`_x_recover` finds an `x` wherever the curve has one.** -/
theorem xRecover_isSome_iff (y : ℕ) :
    (xRecover y).isSome ↔ ∃ x : Fq, Edwards.OnEdwards curveD x (y : Fq) := by
  have hcandidate := Edwards.isSquare_iff_candidate fieldQ_mod fieldI_sq ((xSquared y : ℕ) : Fq)
  rw [Edwards.exists_onEdwards_iff fieldI_sq curveD_not_isSquare, ← cast_xSquared, hcandidate,
    ← cast_powMod]
  generalize hroot : powMod (xSquared y) ((fieldQ + 3) / 8) fieldQ = root
  have hrecover : xRecover y =
      let x := if root * root % fieldQ = xSquared y then root else root * fieldI % fieldQ
      if x * x % fieldQ = xSquared y then some x else none := by
    rw [← hroot]
    rfl
  rw [hrecover]
  by_cases hfirst : root * root % fieldQ = xSquared y
  · have hfirst' := (mul_self_mod_eq_iff root y).1 hfirst
    simp only [hfirst, hfirst', if_true, true_or, Option.isSome_some]
  · have hfirst' : ¬ ((root : ℕ) : Fq) ^ 2 = ((xSquared y : ℕ) : Fq) := by
      rwa [← mul_self_mod_eq_iff]
    have hsecond := mul_self_mod_eq_iff (root * fieldI % fieldQ) y
    rw [ZMod.natCast_mod, Nat.cast_mul] at hsecond
    simp only [hfirst, if_false, hfirst', false_or, ← hsecond]
    by_cases h : root * fieldI % fieldQ * (root * fieldI % fieldQ) % fieldQ = xSquared y
    · simp only [h, if_true, Option.isSome_some]
    · simp only [h, if_false, Option.isSome_none, Bool.false_eq_true]

/-- What the check reads: the bytes without the top bit. -/
def yBits (compressed : Bytes) : ℕ := Bytes.leNat compressed % 2 ^ 255

theorem Point.yBits_encode (P : Point) : yBits P.encode = P.y.val := by
  have hy : P.y.val < 2 ^ 255 := (ZMod.val_lt P.y).trans (by decide +kernel)
  have hx : P.x.val % 2 < 2 := Nat.mod_lt _ (by decide)
  have h256 : (256 : ℕ) ^ 32 = 2 ^ 255 * 2 := by norm_num
  rw [yBits, encode, Bytes.leNat_leBytes, h256, Nat.mod_mul_right_mod, Nat.add_mul_mod_self_left,
    Nat.mod_eq_of_lt hy]

/-- The check as one condition. -/
theorem isOnCurve_eq_ok_true_iff (compressed : Bytes) :
    isOnCurve compressed = .ok true ↔ compressed.length = 32 ∧ yBits compressed < fieldQ ∧
      (xRecover (yBits compressed)).isSome = true := by
  by_cases hlength : compressed.length = 32
  · by_cases hlt : yBits compressed < fieldQ
    · have hle : ¬ fieldQ ≤ Bytes.leNat compressed % 2 ^ 255 := Nat.not_le_of_lt hlt
      simp only [isOnCurve, hlength, hlt, hle, ne_eq, not_true, if_false, Except.ok.injEq, true_and]
      rfl
    · have hle : fieldQ ≤ Bytes.leNat compressed % 2 ^ 255 := Nat.le_of_not_lt hlt
      simp only [isOnCurve, hlength, hlt, hle, ne_eq, not_true, if_false, if_true, Except.ok.injEq,
        Bool.false_eq_true, false_and, and_false]
  · simp [isOnCurve, hlength]

/-- **The check accepts the encodings of points**, the top bit apart, and nothing else.  The source
reads no sign of `x`, so a byte string passes as soon as some point is written with its lower 255
bits; a `y` that is not reduced is that of no point. -/
theorem on_curve_iff_encodes (compressed : Bytes) :
    isOnCurve compressed = .ok true ↔
      compressed.length = 32 ∧ ∃ P : Point, yBits compressed = yBits P.encode := by
  rw [isOnCurve_eq_ok_true_iff]
  refine and_congr_right fun _ => ?_
  constructor
  · rintro ⟨hlt, hsome⟩
    obtain ⟨x, hx⟩ := (xRecover_isSome_iff _).1 hsome
    refine ⟨⟨x, (yBits compressed : Fq), hx⟩, ?_⟩
    rw [Point.yBits_encode]
    exact (ZMod.val_natCast_of_lt hlt).symm
  · rintro ⟨P, hP⟩
    rw [Point.yBits_encode] at hP
    rw [hP]
    refine ⟨ZMod.val_lt P.y, (xRecover_isSome_iff _).2 ⟨P.x, ?_⟩⟩
    rw [ZMod.natCast_zmod_val]
    exact P.onCurve

end Signer
end AatsSniper
