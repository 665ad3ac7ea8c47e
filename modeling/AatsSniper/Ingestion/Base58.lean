/-
# Base58 of the transport

`_bytes_to_base58` and `_base58_decode` of `aats/ingestion/transport.py`, which work on the bytes
of ASCII texts where `b58encode` and `b58decode` of the signer work on characters.

The encoders are one function (`bytesToBase58_eq`), and the decoders take the same strings to the
same bytes (`base58Decode_eq_ok_iff`).  The strings over the alphabet are exactly those that
decode, and both pairs are inverse on them (`base58_codecs_inverse`).
-/

import AatsSniper.Wire.Base58

namespace AatsSniper
namespace Ingestion

open Wire

/-- The byte of an ASCII character. -/
def asciiByte (ch : Char) : UInt8 := UInt8.ofNat ch.toNat

/-- `_BASE58_ALPHABET`. -/
def base58Alphabet : Bytes :=
  "123456789ABCDEFGHJKLMNPQRSTUVWXYZabcdefghijkmnopqrstuvwxyz".toList.map asciiByte

/-- `data.decode("ascii")`, of bytes below 128. -/
def decodeAscii (data : Bytes) : String := String.ofList (data.map fun b => Char.ofNat b.toNat)

/-- `s.encode("ascii")`; no bytes where it raises `UnicodeEncodeError`. -/
def encodeAscii (s : String) : Option Bytes :=
  if s.toList.all fun ch => decide (ch.toNat < 128) then
    some (s.toList.map asciiByte)
  else none

/-- `_bytes_to_base58(data)`. -/
def bytesToBase58 (data : Bytes) : String :=
  if data = [] then ""
  else
    let leadingZeros := (data.takeWhile (· == 0)).length
    let n := Bytes.beNat data
    let result := Digits.divmodLoop 58 (fun remainder => base58Alphabet.getD remainder 0) n
    let result := result ++ List.replicate leadingZeros (base58Alphabet.getD 0 0)
    decodeAscii result.reverse

/-- What `_base58_decode` raises. -/
inductive Base58Error
  | unicodeEncodeError
  | valueError (message : String)
  | overflowError
  deriving DecidableEq

/-- The loop of `_base58_decode`. -/
def base58Value : Bytes → ℕ → Except Base58Error ℕ
  | [], n => .ok n
  | char :: rest, n =>
      match base58Alphabet.idxOf? char with
      | none => .error (.valueError s!"Invalid base58 character: {char.toNat}")
      | some digit => base58Value rest (n * 58 + digit)

/-- `_base58_decode(s)`. -/
def base58Decode (s : String) : Except Base58Error Bytes := do
  let chars ← (encodeAscii s).elim (.error .unicodeEncodeError) .ok
  let n ← base58Value chars 0
  let leadingOnes := (s.toList.takeWhile (· == '1')).length
  let resultBytes ← (Bytes.bitBytes n).elim (.error .overflowError) .ok
  return List.replicate leadingOnes 0 ++ resultBytes

theorem asciiByte_toNat {ch : Char} (h : ch.toNat < 128) : (asciiByte ch).toNat = ch.toNat :=
  UInt8.toNat_ofNat_of_lt' (h.trans (by decide))

theorem base58Alphabet_eq : base58Alphabet = b58Alphabet.map asciiByte := rfl

theorem b58Alphabet_ascii {ch : Char} (h : ch ∈ b58Alphabet) : ch.toNat < 128 := by
  have hall : ∀ d < 58, (b58Char d).toNat < 128 := by decide +kernel
  obtain ⟨d, hd, rfl⟩ := exists_b58Char.1 h
  exact hall d hd

theorem ascii_of_overAlphabet {s : String} (h : OverAlphabet s) :
    ∀ ch ∈ s.toList, ch.toNat < 128 :=
  fun ch hch => b58Alphabet_ascii (h ch hch)

/-- The two alphabets, digit by digit. -/
theorem ofNat_base58Alphabet {d : ℕ} (hd : d < 58) :
    Char.ofNat (base58Alphabet.getD d 0).toNat = b58Char d := by
  have hmem : b58Char d ∈ b58Alphabet := exists_b58Char.2 ⟨d, hd, rfl⟩
  have hget : b58Alphabet[d]? = some (b58Char d) := by
    have hlt : d < b58Alphabet.length := hd
    rw [b58Char, List.getD_eq_getElem?_getD, List.getElem?_eq_getElem hlt]
    rfl
  have hbyte : base58Alphabet.getD d 0 = asciiByte (b58Char d) := by
    rw [List.getD_eq_getElem?_getD, base58Alphabet_eq, List.getElem?_map, hget]
    rfl
  rw [hbyte, asciiByte_toNat (b58Alphabet_ascii hmem), Char.ofNat_toNat]

/-- Looking up the byte of a character among the bytes of characters. -/
theorem idxOf?_map_asciiByte {chars : List Char} (hchars : ∀ ch ∈ chars, ch.toNat < 128) {ch : Char}
    (hch : ch.toNat < 128) : (chars.map asciiByte).idxOf? (asciiByte ch) = chars.idxOf? ch := by
  induction chars with
  | nil => rfl
  | cons ch' chars ih =>
      obtain ⟨hch', hchars'⟩ := List.forall_mem_cons.1 hchars
      have hsame : (asciiByte ch' == asciiByte ch) = (ch' == ch) := by
        rw [Bool.eq_iff_iff, beq_iff_eq, beq_iff_eq, ← UInt8.toNat_inj, asciiByte_toNat hch',
          asciiByte_toNat hch, Char.toNat_inj]
      rw [List.map_cons, List.idxOf?_cons, List.idxOf?_cons, hsame, ih hchars']

/-- **One encoder.** -/
theorem bytesToBase58_eq (data : Bytes) : bytesToBase58 data = b58encode data := by
  unfold bytesToBase58
  split_ifs with hnil
  · subst hnil
    rfl
  · have hdigits : (Nat.digits 58 (Bytes.beNat data)).reverse.map
          (fun d => Char.ofNat (base58Alphabet.getD d 0).toNat) =
        (Nat.digits 58 (Bytes.beNat data)).reverse.map b58Char :=
      List.map_congr_left fun d hd =>
        ofNat_base58Alphabet (Nat.digits_lt_base (by decide) (List.mem_reverse.1 hd))
    dsimp only
    rw [Digits.divmodLoop_eq (by decide), List.reverse_append, List.reverse_replicate,
      decodeAscii, List.map_append, List.map_replicate, ← List.map_reverse, List.map_map,
      Function.comp_def, hdigits]
    rfl

theorem base58Value_eq_ok_iff {chars : List Char} (hascii : ∀ ch ∈ chars, ch.toNat < 128)
    {n m : ℕ} : base58Value (chars.map asciiByte) n = .ok m ↔ b58Value chars n = .ok m := by
  induction chars generalizing n with
  | nil => exact ⟨fun h => congrArg _ (Except.ok.inj h), fun h => congrArg _ (Except.ok.inj h)⟩
  | cons ch chars ih =>
      obtain ⟨hch, hascii'⟩ := List.forall_mem_cons.1 hascii
      rw [List.map_cons, base58Value, b58Value, base58Alphabet_eq,
        idxOf?_map_asciiByte (fun _ => b58Alphabet_ascii) hch]
      cases b58Alphabet.idxOf? ch with
      | none => exact ⟨fun h => (by cases h), fun h => (by cases h)⟩
      | some digit => exact ih hascii'

theorem encodeAscii_eq_some {s : String} {chars : Bytes} : encodeAscii s = some chars ↔
    (∀ ch ∈ s.toList, ch.toNat < 128) ∧ s.toList.map asciiByte = chars := by
  unfold encodeAscii
  simp only [List.all_eq_true, decide_eq_true_eq]
  split_ifs with hascii
  · rw [Option.some.injEq]
    exact ⟨fun h => ⟨hascii, h⟩, fun h => h.2⟩
  · exact ⟨nofun, fun h => absurd h.1 hascii⟩

/-- **The decoders take the same strings to the same bytes.** -/
theorem base58Decode_eq_ok_iff {s : String} {data : Bytes} :
    base58Decode s = .ok data ↔ b58decode s = .ok data := by
  constructor
  · intro h
    obtain ⟨chars, hchars, hrest⟩ := ok_of_bind h
    obtain ⟨n, hvalue, hbody⟩ := ok_of_bind hrest
    obtain ⟨hascii, rfl⟩ := encodeAscii_eq_some.1 (elim_eq_ok.1 hchars)
    rw [Bytes.bitBytes_eq] at hbody
    refine (bind_of_ok ((base58Value_eq_ok_iff hascii).1 hvalue)).trans ?_
    exact congrArg Except.ok (Except.ok.inj hbody)
  · intro h
    have hascii := ascii_of_overAlphabet (overAlphabet_iff.2 ⟨data, h⟩)
    obtain ⟨n, hvalue, hbody⟩ := ok_of_bind h
    unfold base58Decode
    rw [encodeAscii_eq_some.2 ⟨hascii, rfl⟩]
    refine (bind_of_ok ((base58Value_eq_ok_iff hascii).2 hvalue)).trans ?_
    rw [Bytes.bitBytes_eq]
    exact congrArg Except.ok (Except.ok.inj hbody)

/-- **The two codecs are inverse, and agree.**  Every byte string is decoded from its encoding, and
the strings over the alphabet are exactly those that both decoders take to bytes of which they are
the encoding. -/
theorem base58_codecs_inverse :
    (∀ data : Bytes, b58decode (b58encode data) = .ok data ∧
      base58Decode (bytesToBase58 data) = .ok data ∧ bytesToBase58 data = b58encode data) ∧
    ∀ s : String, OverAlphabet s ↔ ∃ data, b58decode s = .ok data ∧ base58Decode s = .ok data ∧
      b58encode data = s ∧ bytesToBase58 data = s := by
  have hinverse : ∀ data : Bytes, b58decode (b58encode data) = .ok data := fun data =>
    b58decode_eq_ok_iff.2 rfl
  refine ⟨fun data => ⟨hinverse data, ?_, bytesToBase58_eq data⟩, fun s => ?_⟩
  · rw [base58Decode_eq_ok_iff, bytesToBase58_eq]
    exact hinverse data
  · rw [overAlphabet_iff]
    refine ⟨?_, fun ⟨data, hdecode, _⟩ => ⟨data, hdecode⟩⟩
    rintro ⟨data, hdecode⟩
    have hencode : b58encode data = s := (b58decode_eq_ok_iff.1 hdecode).symm
    exact ⟨data, hdecode, base58Decode_eq_ok_iff.2 hdecode, hencode,
      (bytesToBase58_eq data).trans hencode⟩

/-- Two zero bytes in front, and the digits of 61. -/
example : bytesToBase58 [0, 0, 61] = "1124" ∧ base58Decode "1124" = .ok [0, 0, 61] := by
  decide +kernel

end Ingestion
end AatsSniper
