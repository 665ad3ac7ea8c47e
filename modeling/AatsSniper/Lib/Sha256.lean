/-
# SHA-256

`hashlib.sha256(data).digest()`, as FIPS 180-4 specifies it: the message is
padded to a multiple of 64 bytes, each block is expanded to 64 words and folded
into the eight-word state by 64 rounds.  Words are naturals below `2 ^ 32`, so
the digest of a closed byte string evaluates in the kernel.  No property of the
hash is stated or needed: the definition is there so that a program that hashes
can be run on a concrete input.
-/

import AatsSniper.Lib.Bytes

namespace AatsSniper
namespace Sha256

/-- FIPS 180-4 §4.2.2, the round constants. -/
def roundConstants : List ℕ :=
  [0x428a2f98, 0x71374491, 0xb5c0fbcf, 0xe9b5dba5, 0x3956c25b, 0x59f111f1, 0x923f82a4, 0xab1c5ed5,
   0xd807aa98, 0x12835b01, 0x243185be, 0x550c7dc3, 0x72be5d74, 0x80deb1fe, 0x9bdc06a7, 0xc19bf174,
   0xe49b69c1, 0xefbe4786, 0x0fc19dc6, 0x240ca1cc, 0x2de92c6f, 0x4a7484aa, 0x5cb0a9dc, 0x76f988da,
   0x983e5152, 0xa831c66d, 0xb00327c8, 0xbf597fc7, 0xc6e00bf3, 0xd5a79147, 0x06ca6351, 0x14292967,
   0x27b70a85, 0x2e1b2138, 0x4d2c6dfc, 0x53380d13, 0x650a7354, 0x766a0abb, 0x81c2c92e, 0x92722c85,
   0xa2bfe8a1, 0xa81a664b, 0xc24b8b70, 0xc76c51a3, 0xd192e819, 0xd6990624, 0xf40e3585, 0x106aa070,
   0x19a4c116, 0x1e376c08, 0x2748774c, 0x34b0bcb5, 0x391c0cb3, 0x4ed8aa4a, 0x5b9cca4f, 0x682e6ff3,
   0x748f82ee, 0x78a5636f, 0x84c87814, 0x8cc70208, 0x90befffa, 0xa4506ceb, 0xbef9a3f7, 0xc67178f2]

/-- The hash value between two blocks: the words `a … h`. -/
structure State where
  a : ℕ
  b : ℕ
  c : ℕ
  d : ℕ
  e : ℕ
  f : ℕ
  g : ℕ
  h : ℕ

/-- FIPS 180-4 §5.3.3. -/
def initial : State :=
  ⟨0x6a09e667, 0xbb67ae85, 0x3c6ef372, 0xa54ff53a, 0x510e527f, 0x9b05688c, 0x1f83d9ab, 0x5be0cd19⟩

/-- `ROTR^n` on a 32-bit word. -/
def rotr (n x : ℕ) : ℕ := (x >>> n ||| x <<< (32 - n)) % 2 ^ 32

/-- Extend the message schedule by `n` words; `w` holds the words so far, latest first. -/
def schedule : ℕ → List ℕ → List ℕ
  | 0, w => w.reverse
  | n + 1, w =>
      let x := w.getD 14 0
      let y := w.getD 1 0
      let small₀ := rotr 7 x ^^^ rotr 18 x ^^^ (x >>> 3)
      let small₁ := rotr 17 y ^^^ rotr 19 y ^^^ (y >>> 10)
      schedule n (((small₁ + w.getD 6 0 + small₀ + w.getD 15 0) % 2 ^ 32) :: w)

/-- One round, with its constant and schedule word. -/
def round (s : State) (kw : ℕ × ℕ) : State :=
  let big₁ := rotr 6 s.e ^^^ rotr 11 s.e ^^^ rotr 25 s.e
  let ch := (s.e &&& s.f) ^^^ ((2 ^ 32 - 1 - s.e) &&& s.g)
  let t₁ := s.h + big₁ + ch + kw.1 + kw.2
  let big₀ := rotr 2 s.a ^^^ rotr 13 s.a ^^^ rotr 22 s.a
  let maj := (s.a &&& s.b) ^^^ (s.a &&& s.c) ^^^ (s.b &&& s.c)
  ⟨(t₁ + big₀ + maj) % 2 ^ 32, s.a, s.b, s.c, (s.d + t₁) % 2 ^ 32, s.e, s.f, s.g⟩

/-- Wordwise addition modulo `2 ^ 32`. -/
def State.add (s t : State) : State :=
  ⟨(s.a + t.a) % 2 ^ 32, (s.b + t.b) % 2 ^ 32, (s.c + t.c) % 2 ^ 32, (s.d + t.d) % 2 ^ 32,
   (s.e + t.e) % 2 ^ 32, (s.f + t.f) % 2 ^ 32, (s.g + t.g) % 2 ^ 32, (s.h + t.h) % 2 ^ 32⟩

/-- The big-endian 32-bit words of a block. -/
def words : Bytes → List ℕ
  | a :: b :: c :: d :: rest => Bytes.beNat [a, b, c, d] :: words rest
  | _ => []

/-- FIPS 180-4 §6.2.2: fold one 64-byte block into the hash value. -/
def compress (s : State) (block : Bytes) : State :=
  s.add ((roundConstants.zip (schedule 48 (words block).reverse)).foldl round s)

/-- FIPS 180-4 §5.1.1: a one bit, zeros, and the bit length as 64 big-endian bits. -/
def pad (data : Bytes) : Bytes :=
  data ++ 128 :: List.replicate ((119 - data.length % 64) % 64) 0 ++
    (Bytes.leBytes 8 (8 * data.length)).reverse

/-- Fold `n` blocks of the padded message. -/
def blocks : ℕ → Bytes → State → State
  | 0, _, s => s
  | n + 1, m, s => blocks n (m.drop 64) (compress s (m.take 64))

/-- `hashlib.sha256(data).digest()`. -/
def digest (data : Bytes) : Bytes :=
  let s := blocks ((pad data).length / 64) (pad data) initial
  [s.a, s.b, s.c, s.d, s.e, s.f, s.g, s.h].flatMap fun w => (Bytes.leBytes 4 w).reverse

/-- The digest of `b"abc"`, FIPS 180-4's own example. -/
example : digest [0x61, 0x62, 0x63] =
    [0xba, 0x78, 0x16, 0xbf, 0x8f, 0x01, 0xcf, 0xea, 0x41, 0x41, 0x40, 0xde, 0x5d, 0xae, 0x22, 0x23,
     0xb0, 0x03, 0x61, 0xa3, 0x96, 0x17, 0x7a, 0x9c, 0xb4, 0x10, 0xff, 0x61, 0xf2, 0x00, 0x15, 0xad] := by
  decide +kernel

end Sha256
end AatsSniper
