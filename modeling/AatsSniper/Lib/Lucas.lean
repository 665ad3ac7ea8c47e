/-
# Lucas's test, with the primes below it taken as known

A number `p` is prime when some base has order `p - 1` modulo it (`lucas_primality`), which
the prime factors of `p - 1` decide.  A line names a number, its base and these factors; a
certificate is a list of lines, each with factors that are known or stand on a line before.
`certifies` is the check, over any exponentiation that computes `b ^ e % m`, so that it can be
run with a fast one, and `prime_of_certifies` what a passed check says.
-/

import Mathlib.NumberTheory.LucasPrimality

namespace AatsSniper
namespace Lucas

/-- A number, a base of order `p - 1`, and the prime factors of `p - 1`, repeated ones too. -/
structure Line where
  p : ℕ
  base : ℕ
  factors : List ℕ

variable (pow : ℕ → ℕ → ℕ → ℕ)

/-- Lucas's test of one line, whose factors are `known`. -/
def Line.passes (known : List ℕ) (line : Line) : Bool :=
  decide (1 < line.p) && decide (line.factors.prod + 1 = line.p) &&
    (line.factors.all fun q => decide (q ∈ known)) &&
    decide (pow line.base (line.p - 1) line.p = 1) &&
    line.factors.all fun q => decide (pow line.base ((line.p - 1) / q) line.p ≠ 1)

/-- Each line passes, the numbers of the lines before it being known. -/
def certifies : List ℕ → List Line → Bool
  | _, [] => true
  | known, line :: lines => line.passes pow known && certifies (line.p :: known) lines

variable {pow}

/-- A power is one in `ZMod p` where its residue is. -/
theorem cast_pow_eq_one_iff {p : ℕ} (hp : 1 < p) (b e : ℕ) :
    (b : ZMod p) ^ e = 1 ↔ b ^ e % p = 1 := by
  have hone : ((1 : ℕ) : ZMod p) = 1 := Nat.cast_one
  rw [← Nat.cast_pow, ← hone, ZMod.natCast_eq_natCast_iff', Nat.mod_eq_of_lt hp]

/-- **A line that passes is of a prime.** -/
theorem Line.prime_of_passes (hpow : ∀ b e m, pow b e m = b ^ e % m) {known : List ℕ}
    (hknown : ∀ q ∈ known, q.Prime) {line : Line} (h : line.passes pow known = true) :
    line.p.Prime := by
  simp only [Line.passes, Bool.and_eq_true, decide_eq_true_eq, List.all_eq_true] at h
  obtain ⟨⟨⟨⟨hlt, hprod⟩, hfactors⟩, hfull⟩, hpart⟩ := h
  refine lucas_primality line.p (line.base : ZMod line.p) ?_ ?_
  · rw [cast_pow_eq_one_iff hlt, ← hpow]
    exact hfull
  · intro q hq hdvd
    have hdvd' : q ∣ line.factors.prod := by
      rwa [← hprod, Nat.add_sub_cancel] at hdvd
    obtain ⟨f, hf, hqf⟩ := (Prime.dvd_prod_iff hq.prime).1 hdvd'
    obtain rfl : q = f := (Nat.prime_dvd_prime_iff_eq hq (hknown f (hfactors f hf))).1 hqf
    rw [ne_eq, cast_pow_eq_one_iff hlt, ← hpow]
    exact hpart q hf

/-- **The numbers of a certificate that checks are prime.** -/
theorem prime_of_certifies (hpow : ∀ b e m, pow b e m = b ^ e % m) {known : List ℕ}
    {lines : List Line} (hknown : ∀ q ∈ known, q.Prime) (h : certifies pow known lines = true) :
    ∀ line ∈ lines, line.p.Prime := by
  induction lines generalizing known with
  | nil =>
      intro line hline
      cases hline
  | cons first lines ih =>
      simp only [certifies, Bool.and_eq_true] at h
      have hfirst := Line.prime_of_passes hpow hknown h.1
      have hknown' : ∀ q ∈ first.p :: known, q.Prime := by
        intro q hq
        rcases List.mem_cons.1 hq with rfl | hq
        · exact hfirst
        · exact hknown q hq
      intro line hline
      rcases List.mem_cons.1 hline with rfl | hline
      · exact hfirst
      · exact ih hknown' h.2 line hline

end Lucas
end AatsSniper
