/-
# From bytes to text

`s.decode(json.detect_encoding(s), "surrogatepass")`, the step with which
`json.loads` turns a byte string into a `str`.  `detectEncoding` follows
`json.detect_encoding` branch by branch; the decoders are Python's UTF-8, UTF-16
and UTF-32 codecs, with the `surrogatepass` handler letting a lone surrogate
through.  `none` is a `UnicodeDecodeError`.
-/

import AatsSniper.Lib.Base64

namespace AatsSniper
namespace Text

/-- The encodings `json.detect_encoding` names. -/
inductive Encoding
  | utf8
  | utf8Sig
  | utf16
  | utf16Be
  | utf16Le
  | utf32
  | utf32Be
  | utf32Le
  deriving DecidableEq

/-- The last part of `json.detect_encoding`: no byte-order mark, so the zero
bytes of the first four decide. -/
def detectByZeros : Bytes → Encoding
  | b₀ :: b₁ :: b₂ :: b₃ :: _ =>
      if b₀ = 0 then if b₁ ≠ 0 then .utf16Be else .utf32Be
      else if b₁ = 0 then if b₂ ≠ 0 ∨ b₃ ≠ 0 then .utf16Le else .utf32Le
      else .utf8
  | [b₀, b₁] => if b₀ = 0 then .utf16Be else if b₁ = 0 then .utf16Le else .utf8
  | _ => .utf8

/-- `json.detect_encoding(b)`. -/
def detectEncoding (b : Bytes) : Encoding :=
  if [0x00, 0x00, 0xFE, 0xFF].isPrefixOf b || [0xFF, 0xFE, 0x00, 0x00].isPrefixOf b then .utf32
  else if [0xFE, 0xFF].isPrefixOf b || [0xFF, 0xFE].isPrefixOf b then .utf16
  else if [0xEF, 0xBB, 0xBF].isPrefixOf b then .utf8Sig
  else detectByZeros b

/-- A UTF-8 continuation byte. -/
def isCont (b : UInt8) : Bool := decide (0x80 ≤ b ∧ b ≤ 0xBF)

/-- The UTF-8 codec; `ED A0 … ED BF`, the surrogates, pass. -/
def decodeUtf8 : Bytes → Option CodePoints
  | [] => some []
  | a :: rest =>
      if a < 0x80 then (decodeUtf8 rest).map (a.toNat :: ·)
      else if 0xC2 ≤ a ∧ a ≤ 0xDF then
        match rest with
        | b :: rest =>
            if isCont b then
              (decodeUtf8 rest).map ((a.toNat % 32 * 64 + b.toNat % 64) :: ·)
            else none
        | _ => none
      else if 0xE0 ≤ a ∧ a ≤ 0xEF then
        match rest with
        | b :: c :: rest =>
            if isCont b ∧ isCont c ∧ (a = 0xE0 → 0xA0 ≤ b) then
              (decodeUtf8 rest).map ((a.toNat % 16 * 4096 + b.toNat % 64 * 64 + c.toNat % 64) :: ·)
            else none
        | _ => none
      else if 0xF0 ≤ a ∧ a ≤ 0xF4 then
        match rest with
        | b :: c :: d :: rest =>
            if isCont b ∧ isCont c ∧ isCont d ∧ (a = 0xF0 → 0x90 ≤ b) ∧ (a = 0xF4 → b ≤ 0x8F) then
              (decodeUtf8 rest).map
                ((a.toNat % 8 * 262144 + b.toNat % 64 * 4096 + c.toNat % 64 * 64 + d.toNat % 64) :: ·)
            else none
        | _ => none
      else none

/-- The 16-bit units of a byte string. -/
def units16 (bigEndian : Bool) : Bytes → Option (List ℕ)
  | [] => some []
  | [_] => none
  | a :: b :: rest =>
      (units16 bigEndian rest).map
        ((if bigEndian then a.toNat * 256 + b.toNat else b.toNat * 256 + a.toNat) :: ·)

/-- A high surrogate. -/
def isHigh (u : ℕ) : Bool := decide (0xD800 ≤ u ∧ u ≤ 0xDBFF)

/-- A low surrogate. -/
def isLow (u : ℕ) : Bool := decide (0xDC00 ≤ u ∧ u ≤ 0xDFFF)

/-- The code point of a surrogate pair. -/
def joinSurrogates (hi lo : ℕ) : ℕ := 0x10000 + (hi - 0xD800) * 0x400 + (lo - 0xDC00)

/-- Surrogate pairs joined, lone surrogates passed. -/
def joinUnits : List ℕ → CodePoints
  | u :: v :: rest =>
      if isHigh u && isLow v then joinSurrogates u v :: joinUnits rest else u :: joinUnits (v :: rest)
  | us => us

/-- The 32-bit units of a byte string, each at most `0x10FFFF`. -/
def units32 (bigEndian : Bool) : Bytes → Option CodePoints
  | [] => some []
  | a :: b :: c :: d :: rest =>
      let unit := if bigEndian then Bytes.beNat [a, b, c, d] else Bytes.leNat [a, b, c, d]
      if unit ≤ 0x10FFFF then (units32 bigEndian rest).map (unit :: ·) else none
  | _ => none

/-- `data.decode(encoding, "surrogatepass")`.  The codecs named without an
endianness read it off the byte-order mark and drop the mark. -/
def decode (encoding : Encoding) (data : Bytes) : Option CodePoints :=
  match encoding with
  | .utf8 => decodeUtf8 data
  | .utf8Sig => decodeUtf8 (data.drop 3)
  | .utf16 => (units16 (data.head? == some 0xFE) (data.drop 2)).map joinUnits
  | .utf16Be => (units16 true data).map joinUnits
  | .utf16Le => (units16 false data).map joinUnits
  | .utf32 => units32 (data.head? == some 0x00) (data.drop 4)
  | .utf32Be => units32 true data
  | .utf32Le => units32 false data

end Text
end AatsSniper
