/-
# `json.dumps`

Python's JSON encoder with `ensure_ascii`, on a value and the separators it is given: the escapes of
`py_encode_basestring_ascii`, integers in decimal, arrays and objects on one line.

Its strings and integers are read back by the scanners of the decoder: a string when it has no high
surrogate before a low one (the decoder would join the two), an integer when it has no more digits than
the decoder converts.
-/

import AatsSniper.Lib.Digits
import AatsSniper.Lib.Json

namespace AatsSniper
namespace Json

/-- A digit of `0-9a-f`. -/
def hexChar (d : ℕ) : ℕ := if d < 10 then 48 + d else 87 + d

/-- `'\\u{0:04x}'.format(n)`. -/
def uEscape (n : ℕ) : CodePoints :=
  [92, 117, hexChar (n / 4096 % 16), hexChar (n / 256 % 16), hexChar (n / 16 % 16), hexChar (n % 16)]

/-- The high surrogate of a code point past the basic plane. -/
def highOf (c : ℕ) : ℕ := 0xD800 + (c - 0x10000) / 1024 % 1024

/-- The low surrogate. -/
def lowOf (c : ℕ) : ℕ := 0xDC00 + (c - 0x10000) % 1024

/-- What `py_encode_basestring_ascii` writes for one character. -/
def escape (c : ℕ) : CodePoints :=
  if c = 34 ∨ c = 92 then [92, c]
  else if 32 ≤ c ∧ c ≤ 126 then [c]
  else if c = 8 then [92, 98]
  else if c = 12 then [92, 102]
  else if c = 10 then [92, 110]
  else if c = 13 then [92, 114]
  else if c = 9 then [92, 116]
  else if c < 0x10000 then uEscape c
  else uEscape (highOf c) ++ uEscape (lowOf c)

/-- A string between its quotes. -/
def dumpString (s : CodePoints) : CodePoints := 34 :: (s.flatMap escape ++ [34])

/-- The decimal digits of a number. -/
def decimal (n : ℕ) : CodePoints :=
  if n = 0 then [48] else (Nat.digits 10 n).reverse.map (48 + ·)

/-- `int.__repr__`. -/
def dumpInt (n : ℤ) : CodePoints := if n < 0 then 45 :: decimal n.natAbs else decimal n.natAbs

/-- What stands after a comma and after a colon: whitespace, or nothing. -/
structure Separators where
  afterComma : CodePoints
  afterColon : CodePoints
  spaces : ∀ c ∈ afterComma ++ afterColon, isSpace c = true

/-- The default `separators=(", ", ": ")`. -/
def Separators.default : Separators := ⟨[32], [32], by decide⟩

/-- `separators=(",", ":")`. -/
def Separators.compact : Separators := ⟨[], [], by decide⟩

section Dumps

variable (sep : Separators)

mutual

/-- `JSONEncoder.encode(value)`. -/
def dumps : Json → CodePoints
  | .null => codePoints "null"
  | .bool true => codePoints "true"
  | .bool false => codePoints "false"
  | .int n => dumpInt n
  | .float literal => literal
  | .str s => dumpString s
  | .arr [] => [91, 93]
  | .arr (e :: es) => 91 :: (dumps e ++ dumpElems es)
  | .obj [] => [123, 125]
  | .obj (m :: ms) => 123 :: (dumpMember m ++ dumpMembers ms)

/-- The elements after the first, and the bracket. -/
def dumpElems : List Json → CodePoints
  | [] => [93]
  | e :: es => 44 :: (sep.afterComma ++ dumps e ++ dumpElems es)

/-- The members after the first, and the brace. -/
def dumpMembers : List (CodePoints × Json) → CodePoints
  | [] => [125]
  | m :: ms => 44 :: (sep.afterComma ++ dumpMember m ++ dumpMembers ms)

/-- One member of an object. -/
def dumpMember : CodePoints × Json → CodePoints
  | (key, value) => dumpString key ++ 58 :: (sep.afterColon ++ dumps value)

end

end Dumps

/-- An escape, a surrogate pair and a negative number. -/
example : dumps .default (.obj [(codePoints "a\n", .arr [.int (-5), .null]),
    (codePoints "b", .str [0x1F600])]) =
      codePoints "\x7b\"a\\n\": [-5, null], \"b\": \"\\ud83d\\ude00\"\x7d" := by
  decide +kernel

/-- A string as text holds one: code points, no high surrogate of them before a low one. -/
structure Whole (s : CodePoints) : Prop where
  bounded : ∀ c ∈ s, c ≤ 0x10FFFF
  unpaired : s.IsChain fun a b => ¬ (Text.isHigh a = true ∧ Text.isLow b = true)

theorem isValidChar_of_mem_codePoints {s : String} {c : ℕ} (h : c ∈ codePoints s) :
    c.isValidChar := by
  obtain ⟨d, -, rfl⟩ := List.mem_map.1 h
  exact d.valid

/-- Text is made of code points that are no surrogates. -/
theorem whole_codePoints (s : String) : Whole (codePoints s) := by
  have hvalid : ∀ c ∈ codePoints s, c.isValidChar := fun c hc => isValidChar_of_mem_codePoints hc
  refine ⟨fun c hc => ?_, ?_⟩
  · rcases hvalid c hc with h | h <;> omega
  · refine List.Pairwise.isChain (List.pairwise_of_forall_mem_list fun a ha b _ => ?_)
    rintro ⟨hhigh, -⟩
    simp only [Text.isHigh, decide_eq_true_eq] at hhigh
    rcases hvalid a ha with h | h <;> omega

theorem hexDigit_hexChar : ∀ d < 16, hexDigit (hexChar d) = some d := by decide

/-- An escape of four digits is read back. -/
theorem hex4_uEscape {n : ℕ} (h : n < 0x10000) :
    hex4 (hexChar (n / 4096 % 16)) (hexChar (n / 256 % 16)) (hexChar (n / 16 % 16))
      (hexChar (n % 16)) = some n := by
  have hdigit : ∀ m, hexDigit (hexChar (m % 16)) = some (m % 16) := fun m =>
    hexDigit_hexChar _ (Nat.mod_lt m (by decide))
  simp only [hex4, hdigit, Option.bind_eq_bind, Option.bind_some, pure]
  congr 1
  omega

/-- What stands still to be joined after a character. -/
def pending (c : ℕ) : Option ℕ := if Text.isHigh c then some c else none

/-- What is read for a character at once. -/
def settled (c : ℕ) : CodePoints := if Text.isHigh c then [] else [c]

theorem settled_append_pending (c : ℕ) : settled c ++ (pending c).toList = [c] := by
  unfold settled pending
  split_ifs <;> rfl

theorem isHigh_of_mem_pending {c h : ℕ} (hh : h ∈ pending c) : Text.isHigh h = true := by
  unfold pending at hh
  split_ifs at hh with hc
  · obtain rfl := Option.mem_some_iff.1 hh
    exact hc
  · cases hh

variable {high : Option ℕ} {c : ℕ} {rest : CodePoints}

/-- A character that needs no escape. -/
theorem scanString_plain (h32 : 32 ≤ c) (h34 : c ≠ 34) (h92 : c ≠ 92) :
    scanString high (c :: rest) =
      (scanString none rest).map fun p => (high.toList ++ c :: p.1, p.2) := by
  rw [scanString.eq_def]
  split
  · rename_i h
    cases h
  · rename_i h
    exact absurd (List.cons.inj h).1 h34
  · rename_i h
    exact absurd (List.cons.inj h).1 h92
  · rename_i h
    exact absurd (List.cons.inj h).1 h92
  · rename_i h
    obtain ⟨rfl, rfl⟩ := List.cons.inj h
    rw [if_neg (by omega)]

/-- A one-letter escape. -/
theorem scanString_simple {e : ℕ} (h117 : e ≠ 117) (h : simpleEscape e = some c) :
    scanString high (92 :: e :: rest) =
      (scanString none rest).map fun p => (high.toList ++ c :: p.1, p.2) := by
  rw [scanString, h]
  intro _ _ _ _ _ heq
  exact absurd heq h117

/-- An escape of four digits, of no low surrogate after a high one. -/
theorem scanString_uEscape (hc : c < 0x10000)
    (hpair : ¬ (high.isSome = true ∧ Text.isLow c = true)) :
    scanString high (uEscape c ++ rest) =
      (scanString (pending c) rest).map fun p => (high.toList ++ settled c ++ p.1, p.2) := by
  have hjoin : (high.isSome && Text.isLow c) = false := by
    rw [← Bool.not_eq_true, Bool.and_eq_true]
    exact hpair
  unfold uEscape pending settled
  simp only [List.cons_append, List.nil_append, scanString, hex4_uEscape hc, hjoin,
    Bool.false_eq_true, if_false]
  by_cases hhigh : Text.isHigh c = true
  · simp only [if_pos hhigh, List.append_nil]
  · simp only [if_neg hhigh, List.append_assoc, List.singleton_append]

theorem highOf_bounds (c : ℕ) : 0xD800 ≤ highOf c ∧ highOf c ≤ 0xDBFF := by unfold highOf; omega

theorem lowOf_bounds (c : ℕ) : 0xDC00 ≤ lowOf c ∧ lowOf c ≤ 0xDFFF := by unfold lowOf; omega

theorem joinSurrogates_highOf_lowOf (hbig : 0x10000 ≤ c) (hc : c ≤ 0x10FFFF) :
    Text.joinSurrogates (highOf c) (lowOf c) = c := by
  unfold Text.joinSurrogates highOf lowOf
  omega

/-- An escaped low surrogate joins with the high one before it. -/
theorem scanString_low {hi lo : ℕ} (hlo : lo < 0x10000) (hislow : Text.isLow lo = true) :
    scanString (some hi) (uEscape lo ++ rest) =
      (scanString none rest).map fun p => (Text.joinSurrogates hi lo :: p.1, p.2) := by
  unfold uEscape
  simp only [List.cons_append, List.nil_append, scanString, hex4_uEscape hlo, Option.isSome_some,
    hislow, Bool.and_self, if_true, Option.getD_some]

/-- An escaped surrogate pair. -/
theorem scanString_pair (hbig : 0x10000 ≤ c) (hc : c ≤ 0x10FFFF) :
    scanString high (uEscape (highOf c) ++ uEscape (lowOf c) ++ rest) =
      (scanString none rest).map fun p => (high.toList ++ c :: p.1, p.2) := by
  have hhigh : Text.isHigh (highOf c) = true := decide_eq_true (highOf_bounds c)
  have hnotlow : Text.isLow (highOf c) = false := by
    refine decide_eq_false fun h => ?_
    have := highOf_bounds c
    omega
  have hlow : Text.isLow (lowOf c) = true := decide_eq_true (lowOf_bounds c)
  have hpending : pending (highOf c) = some (highOf c) := if_pos hhigh
  have hsettled : settled (highOf c) = [] := if_pos hhigh
  have hlt : highOf c < 0x10000 ∧ lowOf c < 0x10000 := by
    have := highOf_bounds c
    have := lowOf_bounds c
    omega
  rw [List.append_assoc, scanString_uEscape hlt.1 (by simp [hnotlow]), hpending, hsettled,
    scanString_low hlt.2 hlow, joinSurrogates_highOf_lowOf hbig hc]
  cases scanString none rest <;> simp [Except.map]

/-- **One character of a string.** -/
theorem scanString_escape (hc : c ≤ 0x10FFFF)
    (hpair : ∀ h ∈ high, ¬ (Text.isHigh h = true ∧ Text.isLow c = true))
    (hhigh : ∀ h ∈ high, Text.isHigh h = true) :
    scanString high (escape c ++ rest) =
      (scanString (pending c) rest).map fun p => (high.toList ++ settled c ++ p.1, p.2) := by
  have hlow : ¬ (high.isSome = true ∧ Text.isLow c = true) := by
    rintro ⟨hsome, hlow⟩
    obtain ⟨h, hh⟩ := Option.isSome_iff_exists.1 hsome
    exact hpair h hh ⟨hhigh h hh, hlow⟩
  have hsmall : c < 0xD800 ∨ 0x10000 ≤ c → pending c = none ∧ settled c = [c] := by
    intro h
    have hnot : ¬ Text.isHigh c = true := by simp only [Text.isHigh, decide_eq_true_eq]; omega
    exact ⟨if_neg hnot, if_neg hnot⟩
  have hsimple : ∀ e, e ≠ 117 → simpleEscape e = some c → c < 0xD800 →
      scanString high (92 :: e :: rest) =
        (scanString (pending c) rest).map fun p => (high.toList ++ settled c ++ p.1, p.2) := by
    intro e he hescape hlt
    rw [scanString_simple he hescape, (hsmall (.inl hlt)).1, (hsmall (.inl hlt)).2]
    simp
  unfold escape
  split_ifs with h₁ h₂ h₃ h₄ h₅ h₆ h₇ h₈
  · exact hsimple c (by omega) (if_pos (by tauto)) (by omega)
  · rw [List.singleton_append, scanString_plain h₂.1 (by tauto) (by tauto),
      (hsmall (by omega)).1, (hsmall (by omega)).2]
    simp
  · exact hsimple 98 (by decide) (by rw [h₃]; rfl) (by omega)
  · exact hsimple 102 (by decide) (by rw [h₄]; rfl) (by omega)
  · exact hsimple 110 (by decide) (by rw [h₅]; rfl) (by omega)
  · exact hsimple 114 (by decide) (by rw [h₆]; rfl) (by omega)
  · exact hsimple 116 (by decide) (by rw [h₇]; rfl) (by omega)
  · exact scanString_uEscape h₈ hlow
  · rw [scanString_pair (by omega) hc, (hsmall (by omega)).1, (hsmall (by omega)).2]
    simp

/-- The characters of a string and its closing quote, by induction on the string: a high surrogate
is pending until the next character is read. -/
theorem scanString_flatMap_escape {s : CodePoints} (hs : ∀ c ∈ s, c ≤ 0x10FFFF)
    (hhigh : ∀ h ∈ high, Text.isHigh h = true)
    (hchain : (high.toList ++ s).IsChain fun a b => ¬ (Text.isHigh a = true ∧ Text.isLow b = true)) :
    scanString high (s.flatMap escape ++ 34 :: rest) = .ok (high.toList ++ s, rest) := by
  induction s generalizing high with
  | nil => simp [scanString]
  | cons c s ih =>
      obtain ⟨hc, hs⟩ := List.forall_mem_cons.1 hs
      have hpair : ∀ h ∈ high, ¬ (Text.isHigh h = true ∧ Text.isLow c = true) := by
        intro h hh
        obtain rfl := Option.mem_def.1 hh
        exact (List.isChain_cons_cons.1 hchain).1
      have htail : ((pending c).toList ++ s).IsChain
          fun a b => ¬ (Text.isHigh a = true ∧ Text.isLow b = true) := by
        have hsuffix : (c :: s).IsChain _ := (List.isChain_append.1 hchain).2.1
        unfold pending
        split_ifs
        · exact hsuffix
        · exact hsuffix.tail
      rw [List.flatMap_cons, List.append_assoc, scanString_escape hc hpair hhigh,
        ih hs (fun h hh => isHigh_of_mem_pending hh) htail]
      simp only [Except.map, List.append_assoc]
      rw [← List.append_assoc (settled c), settled_append_pending]
      rfl

/-- **A string is read back.** -/
theorem scanString_dumpString {s : CodePoints} (h : Whole s) (rest : CodePoints) :
    scanString none (s.flatMap escape ++ 34 :: rest) = .ok (s, rest) :=
  scanString_flatMap_escape h.bounded nofun h.unpaired

/-- A value is followed by nothing, a comma or a closing bracket. -/
def Delimited (rest : CodePoints) : Prop := ∀ c ∈ rest.head?, c = 44 ∨ c = 93 ∨ c = 125

theorem isDigit_of_mem_decimal {n d : ℕ} (h : d ∈ decimal n) : isDigit d = true := by
  unfold decimal at h
  split_ifs at h
  · rw [List.mem_singleton.1 h]
    rfl
  · obtain ⟨d, hd, rfl⟩ := List.mem_map.1 h
    have := Nat.digits_lt_base (by decide : 1 < 10) (List.mem_reverse.1 hd)
    simp only [isDigit, decide_eq_true_eq]
    omega

/-- The digits spell the number. -/
theorem digitsValue_decimal (n : ℕ) : digitsValue (decimal n) = n := by
  have hdigits : ∀ ds : List ℕ, digitsValue (ds.reverse.map (48 + ·)) = Nat.ofDigits 10 ds := by
    intro ds
    rw [digitsValue, List.foldl_map, List.foldl_reverse, Nat.ofDigits_eq_foldr]
    congr 1
    funext d m
    simp only [Nat.add_sub_cancel_left, Nat.cast_id]
    omega
  unfold decimal
  split_ifs with h
  · rw [h]
    rfl
  · rw [hdigits, Nat.ofDigits_digits]

/-- Either the one digit zero, or digits that do not begin with it. -/
theorem decimal_cases (n : ℕ) : decimal n = [48] ∨
    ∃ d ds, decimal n = d :: ds ∧ d ≠ 48 ∧ isDigit d = true := by
  have hmem : ∀ d ∈ decimal n, isDigit d = true := fun d hd => isDigit_of_mem_decimal hd
  unfold decimal at hmem ⊢
  split_ifs at hmem ⊢ with h
  · exact .inl rfl
  · right
    have hhead := Digits.head?_reverse_digits_ne (b := 10) n
    cases hds : (Nat.digits 10 n).reverse with
    | nil => exact absurd (Nat.digits_eq_nil_iff_eq_zero.1 (List.reverse_eq_nil_iff.1 hds)) h
    | cons d ds =>
        rw [hds] at hhead hmem
        refine ⟨48 + d, ds.map (48 + ·), List.map_cons, fun hd => ?_, hmem _ List.mem_cons_self⟩
        obtain rfl : d = 0 := by omega
        exact hhead rfl

theorem Delimited.not_digit {rest : CodePoints} (h : Delimited rest) :
    rest.takeWhile isDigit = [] ∧ rest.dropWhile isDigit = rest := by
  cases rest with
  | nil => exact ⟨rfl, rfl⟩
  | cons c rest => rcases h c rfl with rfl | rfl | rfl <;> exact ⟨rfl, rfl⟩

theorem scanFrac_delimited {rest : CodePoints} (h : Delimited rest) : scanFrac rest = ([], rest) := by
  cases rest with
  | nil => rfl
  | cons c rest => rcases h c rfl with rfl | rfl | rfl <;> rfl

theorem scanExp_delimited {rest : CodePoints} (h : Delimited rest) : scanExp rest = ([], rest) := by
  cases rest with
  | nil => rfl
  | cons c rest => rcases h c rfl with rfl | rfl | rfl <;> rfl

/-- The digits of a number are taken whole. -/
theorem scanInt_decimal (n : ℕ) {rest : CodePoints} (h : Delimited rest) :
    scanInt (decimal n ++ rest) = some (decimal n, rest) := by
  rcases decimal_cases n with hzero | ⟨d, ds, hds, h48, hd⟩
  · rw [hzero]
    rfl
  · have hall : ∀ c ∈ ds, isDigit c = true := fun c hc =>
      isDigit_of_mem_decimal (n := n) (hds ▸ List.mem_cons_of_mem d hc)
    rw [hds, List.cons_append, scanInt, if_pos hd, List.takeWhile_append_of_pos hall,
      List.dropWhile_append_of_pos hall, h.not_digit.1, h.not_digit.2, List.append_nil]
    exact fun h => h48 h

/-- **An integer is read back.** -/
theorem scanNumber_dumpInt {n : ℤ} (hlen : (decimal n.natAbs).length ≤ 4300) {rest : CodePoints}
    (h : Delimited rest) : scanNumber (dumpInt n ++ rest) = .ok (.int n, rest) := by
  have hscan := scanInt_decimal n.natAbs h
  have hvalue := digitsValue_decimal n.natAbs
  unfold dumpInt
  split_ifs with hneg
  · simp only [scanNumber, List.cons_append, List.head?_cons, beq_self_eq_true, if_true,
      List.drop_succ_cons, List.drop_zero, hscan, scanFrac_delimited h, scanExp_delimited h, and_self,
      if_neg (not_lt.2 hlen), hvalue]
    congr 3
    omega
  · have hhead : ((decimal n.natAbs ++ rest).head? == some 45) = false := by
      rcases decimal_cases n.natAbs with hzero | ⟨d, ds, hds, -, hd⟩
      · rw [hzero]
        rfl
      · rw [hds]
        simp only [isDigit, decide_eq_true_eq] at hd
        rw [List.cons_append, List.head?_cons, beq_eq_false_iff_ne]
        intro heq
        have := Option.some.inj heq
        omega
    simp only [scanNumber, hhead, Bool.false_eq_true, if_false, hscan, scanFrac_delimited h,
      scanExp_delimited h, and_self, if_true, if_neg (not_lt.2 hlen), hvalue]
    congr 3
    omega

end Json
end AatsSniper
