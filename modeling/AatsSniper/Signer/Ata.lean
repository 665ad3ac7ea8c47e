/-
# Deriving the wallet's associated token account

`aats/execution/ed25519_field.py` (`is_on_curve`) and the address derivation of
`aats/execution/signer_enforcer.py` (`_create_program_address` …
`_try_derive_ata`).

The associated token account of a wallet and a mint is
`find_program_address([wallet, spl_token, mint], ata_program)`: the first bump
from 255 down whose SHA-256 digest is off the Ed25519 curve.  The source has two
backends for it.  The pure-Python one is embedded here in full.  The other is
the `solders` package, which is not part of the repository: it enters as a
`SoldersPubkey`, and `none` is an environment in which it cannot be imported.
-/

import AatsSniper.Lib.Sha256
import AatsSniper.Wire.Base58

namespace AatsSniper
namespace Signer

open Wire

/-- `_Q`, the field prime. -/
def fieldQ : ℕ := 2 ^ 255 - 19

/-- Square and multiply over the bits of `e`, at most `fuel` of them. -/
def powModLoop (b m : ℕ) : ℕ → ℕ → ℕ
  | 0, _ => 1 % m
  | fuel + 1, e =>
      if e = 0 then 1 % m
      else
        let half := powModLoop b m fuel (e / 2)
        if e % 2 = 1 then half * half % m * b % m else half * half % m

/-- Python's `pow(b, e, m)`. -/
def powMod (b e m : ℕ) : ℕ := powModLoop b m (Nat.log2 e + 1) e

/-- `_inv(x)`, by Fermat. -/
def fieldInv (x : ℕ) : ℕ := powMod x (fieldQ - 2) fieldQ

/-- `-x % q`. -/
def fieldNeg (x : ℕ) : ℕ := (fieldQ - x % fieldQ) % fieldQ

/-- `_D`. -/
def fieldD : ℕ := fieldNeg (121665 * powMod 121666 (fieldQ - 2) fieldQ)

/-- `_I`, a square root of `-1`. -/
def fieldI : ℕ := powMod 2 ((fieldQ - 1) / 4) fieldQ

/-- `_x_recover(y)`. -/
def xRecover (y : ℕ) : Option ℕ :=
  let xx := (y * y + fieldNeg 1) * fieldInv ((fieldD * y * y + 1) % fieldQ) % fieldQ
  let x := powMod xx ((fieldQ + 3) / 8) fieldQ
  let x := if x * x % fieldQ = xx then x else x * fieldI % fieldQ
  if x * x % fieldQ = xx then some x else none

/-- `is_on_curve(compressed)`. -/
def isOnCurve (compressed : Bytes) : Except String Bool :=
  if compressed.length ≠ 32 then .error "compressed point must be exactly 32 bytes"
  else
    let y := Bytes.leNat compressed % 2 ^ 255
    if fieldQ ≤ y then .ok false else .ok (xRecover y).isSome

/-- `_PDA_MARKER`, `b"ProgramDerivedAddress"`. -/
def pdaMarker : Bytes :=
  [0x50, 0x72, 0x6f, 0x67, 0x72, 0x61, 0x6d, 0x44, 0x65, 0x72, 0x69, 0x76, 0x65, 0x64, 0x41, 0x64,
   0x64, 0x72, 0x65, 0x73, 0x73]

/-- `_create_program_address(seeds, program_id)`. -/
def createProgramAddress (seeds : List Bytes) (programId : Bytes) : Except String Bytes :=
  if seeds.any fun s => decide (32 < s.length) then .error "PDA seed exceeds 32 bytes"
  else do
    let candidate := Sha256.digest (seeds.flatten ++ programId ++ pdaMarker)
    let onCurve ← isOnCurve candidate
    if onCurve then .error "candidate address is on-curve" else return candidate

/-- The bump loop of `_find_program_address`, bumps below `n` left to try. -/
def findProgramAddressFrom (seeds : List Bytes) (programId : Bytes) :
    ℕ → Except String (Bytes × ℕ)
  | 0 => .error "unable to find a valid program address (exhausted all 256 bump seeds)"
  | bump + 1 =>
      match createProgramAddress (seeds ++ [[UInt8.ofNat bump]]) programId with
      | .ok addr => .ok (addr, bump)
      | .error _ => findProgramAddressFrom seeds programId bump

/-- `_find_program_address(seeds, program_id)`. -/
def findProgramAddress (seeds : List Bytes) (programId : Bytes) : Except String (Bytes × ℕ) :=
  findProgramAddressFrom seeds programId 256

/-- `derive_ata(wallet_pubkey, mint, ...)`. -/
def deriveAta (walletPubkey mint ataProgramId splTokenProgramId : String) :
    Except String String := do
  let walletB ← b58decode walletPubkey
  let tokenB ← b58decode splTokenProgramId
  let mintB ← b58decode mint
  let programB ← b58decode ataProgramId
  if [walletB, tokenB, mintB, programB].any fun b => decide (b.length ≠ 32) then
    .error "PDA inputs must each decode to 32 bytes"
  else do
    let (addr, _) ← findProgramAddress [walletB, tokenB, mintB] programB
    return b58encode addr

/-- What the signer uses of `solders.pubkey.Pubkey`: `from_string` (`none` where
it raises), the bytes of a key, `find_program_address` and `str`. -/
structure SoldersPubkey where
  Pubkey : Type
  fromString : String → Option Pubkey
  bytes : Pubkey → Bytes
  findProgramAddress : List Bytes → Pubkey → Pubkey × ℕ
  str : Pubkey → String

/-- `_derive_ata_native(pubkey_cls, ...)`. -/
def deriveAtaNative (pubkeyCls : SoldersPubkey)
    (walletPubkey mint ataProgramId splTokenProgramId : String) : Option String := do
  let walletPk ← pubkeyCls.fromString walletPubkey
  let tokenPk ← pubkeyCls.fromString splTokenProgramId
  let mintPk ← pubkeyCls.fromString mint
  let programPk ← pubkeyCls.fromString ataProgramId
  let seeds := [pubkeyCls.bytes walletPk, pubkeyCls.bytes tokenPk, pubkeyCls.bytes mintPk]
  return pubkeyCls.str (pubkeyCls.findProgramAddress seeds programPk).1

/-- `_try_derive_ata(wallet_pubkey, mint, ...)`: the native backend where it is
importable, the pure one otherwise, a `ValueError` of the latter being `None`. -/
def tryDeriveAta (solders : Option SoldersPubkey)
    (walletPubkey mint ataProgramId splTokenProgramId : String) : Option String :=
  match solders with
  | some cls => deriveAtaNative cls walletPubkey mint ataProgramId splTokenProgramId
  | none => (deriveAta walletPubkey mint ataProgramId splTokenProgramId).toOption

/-- RFC 8032's base point, `y = 4/5`, is on the curve. -/
example : isOnCurve (0x58 :: List.replicate 31 0x66) = .ok true := by decide +kernel

end Signer
end AatsSniper
