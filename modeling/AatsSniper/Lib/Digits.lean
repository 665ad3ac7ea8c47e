/-
# Numerals with leading zeros

A list of digits, the high ones first, is a number and a count of leading zeros:
`numeral` puts the two together, `ofDigits_numeral` and `takeWhile_numeral` take them
apart again, and every list of digits is put together so (`numeral_ofDigits`).
Rewriting a byte string in another base and keeping its leading zeros loses nothing.

Dividing a number by the base until nothing is left gives its digits, the low ones first
(`divmodLoop_eq`).
-/

import Mathlib.Data.Nat.Digits.Lemmas

namespace AatsSniper
namespace Digits

variable {b : ℕ}

/-- `k` zeros and the digits of `n`, the high ones first. -/
def numeral (b k n : ℕ) : List ℕ := List.replicate k 0 ++ (Nat.digits b n).reverse

/-- Zeros at the front do not change the number. -/
theorem ofDigits_reverse_replicate_append (k : ℕ) (digits : List ℕ) :
    Nat.ofDigits b (List.replicate k 0 ++ digits).reverse = Nat.ofDigits b digits.reverse := by
  rw [List.reverse_append, List.reverse_replicate, Nat.ofDigits_append_replicate_zero]

theorem ofDigits_numeral (k n : ℕ) : Nat.ofDigits b (numeral b k n).reverse = n := by
  rw [numeral, ofDigits_reverse_replicate_append, List.reverse_reverse, Nat.ofDigits_digits]

theorem lt_of_mem_numeral (hb : 1 < b) {k n d : ℕ} (h : d ∈ numeral b k n) : d < b := by
  rcases List.mem_append.1 h with hzero | hdigit
  · rw [List.eq_of_mem_replicate hzero]
    omega
  · exact Nat.digits_lt_base hb (List.mem_reverse.1 hdigit)

/-- The digits of a number do not begin with a zero. -/
theorem head?_reverse_digits_ne (n : ℕ) : (Nat.digits b n).reverse.head? ≠ some 0 := by
  rw [List.head?_reverse]
  intro hlast
  have hne : Nat.digits b n ≠ [] := by
    rintro hnil
    rw [hnil] at hlast
    cases hlast
  rw [List.getLast?_eq_some_getLast hne] at hlast
  exact Nat.getLast_digit_ne_zero b (Nat.digits_ne_nil_iff_ne_zero.1 hne) (Option.some.inj hlast)

/-- A list that does not begin with a zero has no leading zeros. -/
theorem takeWhile_eq_nil_of_head? {digits : List ℕ} (h : digits.head? ≠ some 0) :
    digits.takeWhile (· == 0) = [] := by
  cases digits with
  | nil => rfl
  | cons d digits =>
      rw [List.takeWhile_cons, if_neg]
      intro hzero
      rw [eq_of_beq hzero] at h
      exact h rfl

theorem takeWhile_numeral (k n : ℕ) :
    (numeral b k n).takeWhile (· == 0) = List.replicate k 0 := by
  rw [numeral, List.takeWhile_append_of_pos fun d hd => ?_]
  · rw [takeWhile_eq_nil_of_head? (head?_reverse_digits_ne n), List.append_nil]
  · rw [List.eq_of_mem_replicate hd]
    rfl

/-- A numeral has one count of zeros and one number. -/
theorem numeral_inj {k k' n n' : ℕ} (h : numeral b k n = numeral b k' n') : k = k' ∧ n = n' := by
  constructor
  · have hzeros := congrArg (fun digits => (digits.takeWhile (· == 0)).length) h
    simpa only [takeWhile_numeral, List.length_replicate] using hzeros
  · have hvalue := congrArg (fun digits => Nat.ofDigits b digits.reverse) h
    simpa only [ofDigits_numeral] using hvalue

/-- Digits that do not begin with a zero are those of the number they spell. -/
theorem digits_ofDigits_reverse (hb : 1 < b) {digits : List ℕ} (hlt : ∀ d ∈ digits, d < b)
    (hhead : digits.head? ≠ some 0) :
    (Nat.digits b (Nat.ofDigits b digits.reverse)).reverse = digits := by
  rw [Nat.digits_ofDigits b hb, List.reverse_reverse]
  · intro d hd
    exact hlt d (List.mem_reverse.1 hd)
  · intro hne hzero
    refine hhead ?_
    rw [← List.reverse_reverse digits, List.head?_reverse, List.getLast?_eq_some_getLast hne, hzero]

/-- **A list of digits is its number behind its leading zeros.** -/
theorem numeral_ofDigits (hb : 1 < b) {digits : List ℕ} (hlt : ∀ d ∈ digits, d < b) :
    numeral b (digits.takeWhile (· == 0)).length (Nat.ofDigits b digits.reverse) = digits := by
  induction digits with
  | nil => simp [numeral]
  | cons d digits ih =>
      obtain ⟨hd, hlt'⟩ := List.forall_mem_cons.1 hlt
      by_cases hzero : d = 0
      · subst hzero
        have hcons : 0 :: digits = List.replicate 1 0 ++ digits := rfl
        rw [List.takeWhile_cons_of_pos rfl, List.length_cons, hcons,
          ofDigits_reverse_replicate_append, numeral, List.replicate_succ, List.cons_append]
        exact congrArg _ (ih hlt')
      · have hhead : (d :: digits).head? ≠ some 0 := fun h => hzero (Option.some.inj h)
        rw [takeWhile_eq_nil_of_head? hhead, numeral, digits_ofDigits_reverse hb hlt hhead]
        rfl

variable {α : Type}

/-- What `while n > 0: n, rem = divmod(n, base); out.append(digit(rem))` appends to `out`. -/
def divmodLoop (base : ℕ) (digit : ℕ → α) (n : ℕ) : List α :=
  if 0 < n ∧ 1 < base then digit (n % base) :: divmodLoop base digit (n / base)
  else []
termination_by n
decreasing_by
  rename_i h
  exact Nat.div_lt_self h.1 h.2

/-- **The loop appends the digits.** -/
theorem divmodLoop_eq (hb : 1 < b) (digit : ℕ → α) (n : ℕ) :
    divmodLoop b digit n = (Nat.digits b n).map digit := by
  fun_induction divmodLoop b digit n with
  | case1 n h ih => rw [ih, Nat.digits_def' h.2 h.1, List.map_cons]
  | case2 n h =>
      have hzero : n = 0 := by omega
      rw [hzero, Nat.digits_zero, List.map_nil]

end Digits
end AatsSniper
