/-
# Parsing a serialized transaction

`read_compact_u16` and `parse_transaction` of `aats/execution/solana_wire.py`.

The source walks an offset `pos` into one buffer.  Here a reader is handed the
unread bytes `buf[pos:]` and returns the bytes it leaves unread, so `pos` is the
length of what has been consumed and `pos + k > len(tx_bytes)` is
"fewer than `k` bytes are left".  A `ValueError` is its message.

A transaction is a signature section followed by the message;
`parseTransaction` skips the first and hands the second to `parseMessage`, so
that everything in the result is a function of the message bytes alone.
-/

import AatsSniper.Wire.Base58

namespace AatsSniper
namespace Wire

/-- The loop of `read_compact_u16`, `fuel` iterations left. -/
def readCompactU16Loop : ℕ → ℕ → ℕ → Bytes → Except String (ℕ × Bytes)
  | 0, _, _, _ => .error "compact-u16 overflow (more than 3 continuation bytes)"
  | _ + 1, _, _, [] => .error "truncated compact-u16"
  | fuel + 1, value, shift, b :: rest =>
      let value := value ||| ((b.toNat &&& 0x7F) <<< shift)
      if b.toNat &&& 0x80 = 0 then .ok (value, rest)
      else readCompactU16Loop fuel value (shift + 7) rest

/-- `read_compact_u16(buf, offset)`: the value and the bytes after it. -/
def readCompactU16 (buf : Bytes) : Except String (ℕ × Bytes) := readCompactU16Loop 3 0 0 buf

/-- `buf[pos:pos + n]` behind the check `pos + n > len(buf)`. -/
def takeExact (n : ℕ) (message : String) (buf : Bytes) : Except String (Bytes × Bytes) :=
  if buf.length < n then .error message else .ok (buf.take n, buf.drop n)

/-- `ParsedInstruction`: `programId` is `""` when the index points past the static keys. -/
structure ParsedInstruction where
  programId : String
  programIdIndex : ℕ
  accountIndices : List ℕ
  data : Bytes
  deriving DecidableEq

/-- `ParsedTx`: `accountKeys` are the static keys only. -/
structure ParsedTx where
  accountKeys : List String
  numRequiredSignatures : ℕ
  payer : String
  recentBlockhash : String
  instructions : List ParsedInstruction
  isVersioned : Bool
  hasAddressTableLookups : Bool
  deriving DecidableEq

/-- `is_versioned` and the bytes after the version byte, if there is one. -/
def readVersion : Bytes → Except String (Bool × Bytes)
  | [] => .error "truncated transaction: no message bytes after signatures"
  | b :: rest =>
      if b.toNat &&& 0x80 = 0 then .ok (false, b :: rest)
      else if b.toNat &&& 0x7F = 0 then .ok (true, rest)
      else .error s!"unsupported transaction message version: {b.toNat &&& 0x7F}"

/-- The account-key loop, `n_keys` iterations. -/
def readKeys : ℕ → Bytes → Except String (List String × Bytes)
  | 0, buf => .ok ([], buf)
  | n + 1, buf => do
      let (key, buf) ← takeExact 32 "truncated transaction: account key" buf
      let (keys, buf) ← readKeys n buf
      return (b58encode key :: keys, buf)

/-- `_resolve_static`, with `_AltRegionIndex` caught: `""` past the static keys. -/
def resolveStatic (keys : List String) (index : ℕ) : String := keys.getD index ""

/-- One iteration of the instruction loop. -/
def readInstruction (keys : List String) (buf : Bytes) :
    Except String (ParsedInstruction × Bytes) := do
  let (index, buf) ← takeExact 1 "truncated transaction: instruction program_id_index" buf
  let programIdIndex := (index.headD 0).toNat
  let (nAcc, buf) ← readCompactU16 buf
  let (accIndices, buf) ← takeExact nAcc "truncated transaction: instruction accounts" buf
  let (nData, buf) ← readCompactU16 buf
  let (data, buf) ← takeExact nData "truncated transaction: instruction data" buf
  return ({ programId := resolveStatic keys programIdIndex
            programIdIndex := programIdIndex
            accountIndices := accIndices.map UInt8.toNat
            data := data }, buf)

/-- The instruction loop, `n_ix` iterations. -/
def readInstructions (keys : List String) :
    ℕ → Bytes → Except String (List ParsedInstruction × Bytes)
  | 0, buf => .ok ([], buf)
  | n + 1, buf => do
      let (ix, buf) ← readInstruction keys buf
      let (ixs, buf) ← readInstructions keys n buf
      return (ix :: ixs, buf)

/-- What one instruction contributes to `alt_region_hit`: its program or one of
its accounts lies past the static keys. -/
def altRegionHit (keys : List String) (ix : ParsedInstruction) : Bool :=
  decide (keys.length ≤ ix.programIdIndex) ||
    ix.accountIndices.any fun idx => decide (keys.length ≤ idx)

/-- The address-table-lookup loop, `n_alt` iterations; its contents are skipped. -/
def skipLookups : ℕ → Bytes → Except String Bytes
  | 0, buf => .ok buf
  | n + 1, buf => do
      let (_, buf) ← takeExact 32 "truncated transaction: ALT lookup account" buf
      let (nW, buf) ← readCompactU16 buf
      let (_, buf) ← takeExact nW "truncated transaction: ALT writable indexes" buf
      let (nR, buf) ← readCompactU16 buf
      let (_, buf) ← takeExact nR "truncated transaction: ALT readonly indexes" buf
      skipLookups n buf

/-- The lookup section of a v0 message: whether it declares any lookup.  A
legacy message has none, and a v0 message may end before it. -/
def readLookups (isVersioned : Bool) (buf : Bytes) : Except String Bool :=
  if isVersioned = true ∧ buf ≠ [] then do
    let (nAlt, buf) ← readCompactU16 buf
    let _ ← skipLookups nAlt buf
    return decide (0 < nAlt)
  else .ok false

/-- `parse_transaction` from the first message byte on. -/
def parseMessage (message : Bytes) : Except String ParsedTx := do
  let (isVersioned, buf) ← readVersion message
  let (header, buf) ← takeExact 3 "truncated transaction: no message header" buf
  let (nKeys, buf) ← readCompactU16 buf
  let (accountKeys, buf) ← readKeys nKeys buf
  let some payer := accountKeys.head? | .error "transaction has no account keys (no payer)"
  let (blockhash, buf) ← takeExact 32 "truncated transaction: recent blockhash" buf
  let (nIx, buf) ← readCompactU16 buf
  let (instructions, buf) ← readInstructions accountKeys nIx buf
  let declared ← readLookups isVersioned buf
  return { accountKeys := accountKeys
           numRequiredSignatures := (header.headD 0).toNat
           payer := payer
           recentBlockhash := b58encode blockhash
           instructions := instructions
           isVersioned := isVersioned
           hasAddressTableLookups := instructions.any (altRegionHit accountKeys) || declared }

/-- `parse_transaction(tx_bytes)`. -/
def parseTransaction (txBytes : Bytes) : Except String ParsedTx := do
  let (nSigs, buf) ← readCompactU16 txBytes
  let (_, message) ← takeExact (nSigs * 64) "truncated transaction: signatures section" buf
  parseMessage message

end Wire
end AatsSniper
