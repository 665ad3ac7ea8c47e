/-
# Base58

`b58encode` and `b58decode` of `aats/execution/solana_wire.py`: the
Bitcoin/Solana alphabet, leading zero bytes written as leading `1`s.

The `while n > 0: n, rem = divmod(n, 58)` loop collects the base-58 digits of
the big-endian integer, least significant first, and reverses them, which is
`Nat.digits`; `n.to_bytes((n.bit_length() + 7) // 8, "big")` is the base-256
expansion in the other direction.  `b58encode_eq_loop` and `b58decode_eq_toBytes` say
so of the loop and of the bytes that the bits of `n` take.

Both write a numeral in another base and keep its leading zeros, so a string is
decoded to the bytes it is the encoding of, and to no others
(`b58decode_eq_ok_iff`).  The strings that decode are those over the alphabet
(`overAlphabet_iff`).
-/

import AatsSniper.Lib.Bytes
import AatsSniper.Lib.Digits
import AatsSniper.Lib.Except

namespace AatsSniper
namespace Wire

/-- `_B58_ALPHABET`. -/
def b58Alphabet : List Char :=
  "123456789ABCDEFGHJKLMNPQRSTUVWXYZabcdefghijkmnopqrstuvwxyz".toList

/-- `b58encode(data)`. -/
def b58encode (data : Bytes) : String :=
  let digits := (Nat.digits 58 (Bytes.beNat data)).reverse.map fun d => b58Alphabet.getD d '1'
  let nPad := (data.takeWhile (· == 0)).length
  String.ofList (List.replicate nPad '1' ++ digits)

/-- The loop of `b58decode`: `n = n * 58 + idx`, a `ValueError` on a character
outside the alphabet. -/
def b58Value : List Char → ℕ → Except String ℕ
  | [], n => .ok n
  | ch :: rest, n =>
      match b58Alphabet.idxOf? ch with
      | none => .error s!"invalid base58 character: '{ch}'"
      | some idx => b58Value rest (n * 58 + idx)

/-- `b58decode(s)`. -/
def b58decode (s : String) : Except String Bytes := do
  let n ← b58Value s.toList 0
  let body := (Nat.digits 256 n).reverse.map UInt8.ofNat
  let nPad := (s.toList.takeWhile (· == '1')).length
  return List.replicate nPad 0 ++ body

/-- The System program id is 32 zero bytes, written as 32 `1`s. -/
example : b58encode (List.replicate 32 0) = "11111111111111111111111111111111" := by decide +kernel

/-- The loop of `b58encode`. -/
theorem b58encode_eq_loop (data : Bytes) : b58encode data = String.ofList
    (List.replicate (data.takeWhile (· == 0)).length '1' ++
      (Digits.divmodLoop 58 (fun rem => b58Alphabet.getD rem '1') (Bytes.beNat data)).reverse) := by
  rw [Digits.divmodLoop_eq (by decide), ← List.map_reverse]
  rfl

/-- The body of `b58decode`: `to_bytes` never refuses. -/
theorem b58decode_eq_toBytes (s : String) : b58decode s = (do
    let n ← b58Value s.toList 0
    let body ← (Bytes.bitBytes n).elim (.error "int too big to convert") .ok
    return List.replicate (s.toList.takeWhile (· == '1')).length 0 ++ body) := by
  simp only [Bytes.bitBytes_eq]
  rfl

/-- The character of a digit. -/
def b58Char (d : ℕ) : Char := b58Alphabet.getD d '1'

/-- The alphabet has each digit once. -/
theorem idxOf?_b58Char : ∀ d < 58, b58Alphabet.idxOf? (b58Char d) = some d := by decide +kernel

theorem b58Char_of_idxOf? {ch : Char} {d : ℕ} (h : b58Alphabet.idxOf? ch = some d) :
    d < 58 ∧ b58Char d = ch := by
  obtain ⟨hlt, hch, -⟩ := List.idxOf?_eq_some_iff.1 h
  refine ⟨hlt, ?_⟩
  simp [b58Char, hlt, hch]

theorem b58Value_eq_ok_iff {chars : List Char} {acc n : ℕ} :
    b58Value chars acc = .ok n ↔ ∃ digits : List ℕ, (∀ d ∈ digits, d < 58) ∧
      chars = digits.map b58Char ∧
        n = acc * 58 ^ digits.length + Nat.ofDigits 58 digits.reverse := by
  induction chars generalizing acc with
  | nil =>
      constructor
      · intro h
        obtain rfl := Except.ok.inj h
        exact ⟨[], by simp, rfl, by simp⟩
      · rintro ⟨digits, -, hnil, rfl⟩
        obtain rfl := List.map_eq_nil_iff.1 hnil.symm
        simp [b58Value]
  | cons ch chars ih =>
      have hstep : ∀ (d : ℕ) (digits : List ℕ), (acc * 58 + d) * 58 ^ digits.length +
          Nat.ofDigits 58 digits.reverse = acc * 58 ^ (d :: digits).length +
            Nat.ofDigits 58 (d :: digits).reverse := by
        intro d digits
        rw [List.reverse_cons, Nat.ofDigits_append, Nat.ofDigits_singleton, List.length_reverse,
          List.length_cons]
        ring
      unfold b58Value
      cases hidx : b58Alphabet.idxOf? ch with
      | none =>
          refine ⟨fun h => (by cases h), ?_⟩
          rintro ⟨digits, hlt, hchars, -⟩
          obtain ⟨d, digits, rfl, rfl, -⟩ := List.map_eq_cons_iff.1 hchars.symm
          rw [idxOf?_b58Char d (hlt d List.mem_cons_self)] at hidx
          cases hidx
      | some d =>
          obtain ⟨hd, rfl⟩ := b58Char_of_idxOf? hidx
          dsimp only
          rw [ih]
          constructor
          · rintro ⟨digits, hlt, rfl, rfl⟩
            exact ⟨d :: digits, List.forall_mem_cons.2 ⟨hd, hlt⟩, rfl, hstep d digits⟩
          · rintro ⟨digits, hlt, hchars, rfl⟩
            obtain ⟨d', digits, rfl, hsame, rfl⟩ := List.map_eq_cons_iff.1 hchars.symm
            obtain ⟨hd', hlt'⟩ := List.forall_mem_cons.1 hlt
            have hidx' := idxOf?_b58Char d' hd'
            rw [hsame, hidx] at hidx'
            obtain rfl := Option.some.inj hidx'
            exact ⟨digits, hlt', rfl, (hstep d digits).symm⟩

/-- The `1`s at the front are the zeros at the front. -/
theorem takeWhile_map_b58Char {digits : List ℕ} (hlt : ∀ d ∈ digits, d < 58) :
    ((digits.map b58Char).takeWhile (· == '1')).length = (digits.takeWhile (· == 0)).length := by
  have hone : ∀ d < 58, (b58Char d == '1') = (d == 0) := by
    intro d hd
    have hzero : b58Char 0 = '1' := rfl
    rw [Bool.eq_iff_iff, beq_iff_eq, beq_iff_eq]
    refine ⟨fun h => ?_, fun h => h ▸ hzero⟩
    have hidx := idxOf?_b58Char d hd
    rw [h, ← hzero, idxOf?_b58Char 0 (Nat.succ_pos 57)] at hidx
    exact (Option.some.inj hidx).symm
  induction digits with
  | nil => rfl
  | cons d digits ih =>
      obtain ⟨hd, hlt'⟩ := List.forall_mem_cons.1 hlt
      rw [List.map_cons, List.takeWhile_cons, List.takeWhile_cons, hone d hd]
      cases d == 0 with
      | false => rfl
      | true => exact congrArg Nat.succ (ih hlt')

/-- The zeros of a byte string, and its numeral. -/
theorem map_toNat_eq_numeral (data : Bytes) :
    data.map UInt8.toNat =
      Digits.numeral 256 (data.takeWhile (· == 0)).length (Bytes.beNat data) := by
  have hlt : ∀ d ∈ data.map UInt8.toNat, d < 256 := by
    intro d hd
    obtain ⟨b, -, rfl⟩ := List.mem_map.1 hd
    exact b.toNat_lt
  have hzeros : ((data.map UInt8.toNat).takeWhile (· == 0)).length =
      (data.takeWhile (· == 0)).length := by
    rw [List.takeWhile_map, List.length_map]
    congr 2
    funext b
    exact Bool.eq_iff_iff.2 (by simp [← UInt8.toNat_inj])
  rw [← hzeros, Bytes.beNat, Bytes.leNat, List.map_reverse, Digits.numeral_ofDigits (by decide) hlt]

theorem b58encode_toList (data : Bytes) :
    (b58encode data).toList =
      (Digits.numeral 58 (data.takeWhile (· == 0)).length (Bytes.beNat data)).map b58Char := by
  rw [b58encode, String.toList_ofList, Digits.numeral, List.map_append, List.map_replicate]
  rfl

/-- **A string decodes to the bytes it encodes.** -/
theorem b58decode_eq_ok_iff {s : String} {data : Bytes} :
    b58decode s = .ok data ↔ s = b58encode data := by
  constructor
  · intro h
    obtain ⟨n, hvalue, h⟩ := ok_of_bind h
    obtain ⟨digits, hlt, hchars, hn⟩ := b58Value_eq_ok_iff.1 hvalue
    rw [Nat.zero_mul, Nat.zero_add] at hn
    have hbytes : data.map UInt8.toNat =
        Digits.numeral 256 (digits.takeWhile (· == 0)).length n := by
      rw [← Except.ok.inj h, hchars, takeWhile_map_b58Char hlt]
      simp only [Digits.numeral, List.map_append, List.map_replicate]
      congr 1
      rw [List.map_map, List.map_congr_left (g := id), List.map_id]
      intro d hd
      exact UInt8.toNat_ofNat_of_lt' (Nat.digits_lt_base (by decide) (List.mem_reverse.1 hd))
    obtain ⟨hzeros, hnat⟩ := Digits.numeral_inj ((map_toNat_eq_numeral data).symm.trans hbytes)
    refine String.ext ?_
    rw [b58encode_toList, hzeros, hnat, hn, Digits.numeral_ofDigits (by decide) hlt, hchars]
  · rintro rfl
    have hlt : ∀ d ∈ Digits.numeral 58 (data.takeWhile (· == 0)).length (Bytes.beNat data),
        d < 58 := fun d => Digits.lt_of_mem_numeral (by decide)
    have hvalue : b58Value (b58encode data).toList 0 = .ok (Bytes.beNat data) :=
      b58Value_eq_ok_iff.2 ⟨_, hlt, b58encode_toList data, by rw [Digits.ofDigits_numeral]; simp⟩
    refine (bind_of_ok hvalue).trans ?_
    rw [b58encode_toList, takeWhile_map_b58Char hlt, Digits.takeWhile_numeral,
      List.length_replicate]
    have hbytes := congrArg (List.map UInt8.ofNat) (map_toNat_eq_numeral data)
    simp only [Digits.numeral, List.map_append, List.map_replicate, List.map_map] at hbytes
    have hid : data.map (UInt8.ofNat ∘ UInt8.toNat) = data := by simp [Function.comp_def]
    rw [hid] at hbytes
    exact congrArg Except.ok hbytes.symm

/-- A string over the base58 alphabet. -/
def OverAlphabet (s : String) : Prop := ∀ ch ∈ s.toList, ch ∈ b58Alphabet

/-- The alphabet is the characters of the digits. -/
theorem exists_b58Char {ch : Char} : ch ∈ b58Alphabet ↔ ∃ d < 58, b58Char d = ch := by
  rw [← List.isSome_idxOf?, Option.isSome_iff_exists]
  constructor
  · rintro ⟨d, hd⟩
    exact ⟨d, b58Char_of_idxOf? hd⟩
  · rintro ⟨d, hd, rfl⟩
    exact ⟨d, idxOf?_b58Char d hd⟩

theorem exists_digits {chars : List Char} (h : ∀ ch ∈ chars, ch ∈ b58Alphabet) :
    ∃ digits : List ℕ, (∀ d ∈ digits, d < 58) ∧ chars = digits.map b58Char := by
  induction chars with
  | nil => exact ⟨[], by simp, rfl⟩
  | cons ch chars ih =>
      obtain ⟨hch, h'⟩ := List.forall_mem_cons.1 h
      obtain ⟨d, hd, rfl⟩ := exists_b58Char.1 hch
      obtain ⟨digits, hlt, rfl⟩ := ih h'
      exact ⟨d :: digits, List.forall_mem_cons.2 ⟨hd, hlt⟩, rfl⟩

/-- **The strings over the alphabet are those that decode.** -/
theorem overAlphabet_iff {s : String} : OverAlphabet s ↔ ∃ data, b58decode s = .ok data := by
  constructor
  · intro h
    obtain ⟨digits, hlt, hchars⟩ := exists_digits h
    have hvalue : b58Value s.toList 0 = .ok _ := b58Value_eq_ok_iff.2 ⟨digits, hlt, hchars, rfl⟩
    exact ⟨_, bind_of_ok hvalue⟩
  · rintro ⟨data, hdecode⟩ ch hch
    obtain ⟨n, hvalue, -⟩ := ok_of_bind hdecode
    obtain ⟨digits, hlt, hchars, -⟩ := b58Value_eq_ok_iff.1 hvalue
    rw [hchars] at hch
    obtain ⟨d, hd, rfl⟩ := List.mem_map.1 hch
    exact exists_b58Char.2 ⟨d, hlt d hd, rfl⟩

/-- Different bytes have different encodings. -/
theorem b58encode_injective : Function.Injective b58encode := by
  intro data data' h
  have hdecode := b58decode_eq_ok_iff.2 h
  rw [b58decode_eq_ok_iff.2 rfl] at hdecode
  exact Except.ok.inj hdecode

end Wire
end AatsSniper
