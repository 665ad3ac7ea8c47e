/-
# Building a transaction

`write_compact_u16` and `build_versioned_tx` of `aats/execution/solana_wire.py`, and
the round trip through `parse_transaction` (`parse_build`).

What the builder writes is the canonical layout of what it was asked for
(`buildVersionedTx_eq_ok`), so the parser reads it back.  An index is one byte, which
is why a program or an account past the first 256 keys cannot be named, and a
transaction has a payer, which is why the parser refuses an empty key list.
-/

import AatsSniper.Wire.Canonical

namespace AatsSniper
namespace Wire

open Varint (encode)

/-- The loop of `write_compact_u16`. -/
def writeCompactU16Loop (v : ℕ) : Bytes :=
  let b := v &&& 0x7F
  if v >>> 7 ≠ 0 then UInt8.ofNat (b ||| 0x80) :: writeCompactU16Loop (v >>> 7)
  else [UInt8.ofNat b]
decreasing_by
  simp only [Nat.shiftRight_eq_div_pow] at *
  omega

/-- `write_compact_u16(value)`. -/
def writeCompactU16 (value : ℤ) : Except String Bytes :=
  if value < 0 then .error "compact-u16 cannot encode a negative value"
  else .ok (writeCompactU16Loop value.toNat)

/-- `bytearray.append(value)`. -/
def appendByte (value : ℤ) : Except String Bytes :=
  if 0 ≤ value ∧ value < 256 then .ok [UInt8.ofNat value.toNat]
  else .error "byte must be in range(0, 256)"

/-- `bytes(values)`. -/
def bytesOf (values : List ℤ) : Except String Bytes :=
  if ∀ v ∈ values, 0 ≤ v ∧ v < 256 then .ok (values.map fun v => UInt8.ofNat v.toNat)
  else .error "bytes must be in range(0, 256)"

/-- `RawInstruction`. -/
structure RawInstruction where
  programId : String := ""
  accounts : List ℤ := []
  data : Bytes := []
  programIdIndexOverride : Option ℤ := none
  deriving DecidableEq

/-- The arguments of `build_versioned_tx`. -/
structure BuildArgs where
  accountKeys : List String
  numRequiredSignatures : ℤ
  recentBlockhash : String
  instructions : List RawInstruction
  numReadonlySigned : ℤ := 0
  numReadonlyUnsigned : ℤ := 0
  versioned : Bool := true
  nAddressTableLookups : ℤ := 0
  deriving DecidableEq

/-- One iteration of the account-key loop. -/
def writeKey (key : String) : Except String Bytes := do
  let raw ← b58decode key
  require (raw.length = 32) s!"account key '{key}' does not decode to 32 bytes"
  return raw

/-- `prog_index`. -/
def programIndex (accountKeys : List String) (ix : RawInstruction) : Except String ℤ :=
  match ix.programIdIndexOverride with
  | some index => .ok index
  | none =>
      match accountKeys.idxOf? ix.programId with
      | some index => .ok index
      | none => .error s!"instruction program_id '{ix.programId}' not in account_keys"

/-- One iteration of the instruction loop. -/
def writeInstruction (accountKeys : List String) (ix : RawInstruction) : Except String Bytes := do
  let progIndex ← programIndex accountKeys ix
  require (0 ≤ progIndex ∧ progIndex ≤ 255) "program_id_index must fit in a single byte"
  let index ← appendByte progIndex
  let nAccounts ← writeCompactU16 ix.accounts.length
  let accounts ← bytesOf ix.accounts
  let nData ← writeCompactU16 ix.data.length
  return index ++ nAccounts ++ accounts ++ nData ++ ix.data

/-- The lookup section: dummy entries. -/
def writeLookups (versioned : Bool) (n : ℤ) : Except String Bytes :=
  if versioned = true then do
    let count ← writeCompactU16 n
    let writable ← writeCompactU16 0
    let readonly ← writeCompactU16 0
    return count ++ (List.replicate n.toNat (List.replicate 32 0 ++ writable ++ readonly)).flatten
  else .ok []

/-- `build_versioned_tx(...)`. -/
def buildVersionedTx (a : BuildArgs) : Except String Bytes := do
  let nSigs ← writeCompactU16 a.numRequiredSignatures
  let slots := List.replicate (64 * a.numRequiredSignatures.toNat) 0
  let version := if a.versioned then [0x80] else []
  let required ← appendByte a.numRequiredSignatures
  let readonlySigned ← appendByte a.numReadonlySigned
  let readonlyUnsigned ← appendByte a.numReadonlyUnsigned
  let nKeys ← writeCompactU16 a.accountKeys.length
  let keys ← a.accountKeys.mapM writeKey
  let blockhash ← b58decode a.recentBlockhash
  require (blockhash.length = 32) "recent_blockhash does not decode to 32 bytes"
  let nIx ← writeCompactU16 a.instructions.length
  let instructions ← a.instructions.mapM (writeInstruction a.accountKeys)
  let lookups ← writeLookups a.versioned a.nAddressTableLookups
  return nSigs ++ slots ++ version ++ required ++ readonlySigned ++ readonlyUnsigned ++ nKeys ++
    keys.flatten ++ blockhash ++ nIx ++ instructions.flatten ++ lookups

/-! ### What the builder writes -/

theorem writeCompactU16Loop_eq_encode (v : ℕ) : writeCompactU16Loop v = encode v := by
  have hor : ∀ n < 128, n ||| 0x80 = n + 128 := by decide
  induction v using AatsSniper.Varint.encode.induct with
  | case1 v hlt =>
      have hhigh : v >>> 7 = 0 := by
        rw [Nat.shiftRight_eq_div_pow]
        omega
      have hlow : v &&& 0x7F = v := by
        rw [(byte_bits v (by omega)).2]
        omega
      rw [writeCompactU16Loop, encode, if_pos hlt, hhigh, if_neg (by simp), hlow]
  | case2 v hge ih =>
      have hhigh : v >>> 7 = v / 128 := Nat.shiftRight_eq_div_pow v 7
      have hlow : v &&& 0x7F = v % 128 := Nat.and_two_pow_sub_one_eq_mod v 7
      rw [writeCompactU16Loop, encode, if_neg hge, hhigh, if_pos (by omega), hlow,
        hor _ (Nat.mod_lt v (by decide)), ih]

theorem writeCompactU16_natCast (n : ℕ) : writeCompactU16 n = .ok (encode n) := by
  rw [writeCompactU16, if_neg (by omega), Int.toNat_natCast, writeCompactU16Loop_eq_encode]

theorem appendByte_eq_ok {value : ℤ} (h : 0 ≤ value ∧ value < 256) :
    appendByte value = .ok [UInt8.ofNat value.toNat] := if_pos h

/-- An instruction that names its program and its accounts among the keys, each by one byte. -/
structure RawInstruction.Static (accountKeys : List String) (ix : RawInstruction) : Prop where
  index : ix.programIdIndexOverride = none
  program : ix.programId ∈ accountKeys.take 256
  accounts : ∀ v ∈ ix.accounts, 0 ≤ v ∧ v < accountKeys.length ∧ v < 256
  accounts_length : ix.accounts.length < 2 ^ 21
  data_length : ix.data.length < 2 ^ 21

/-- Arguments that spell a transaction. -/
structure BuildArgs.Static (a : BuildArgs) : Prop where
  keys : ∀ key ∈ a.accountKeys, ∃ raw, b58decode key = .ok raw ∧ raw.length = 32
  keys_ne_nil : a.accountKeys ≠ []
  keys_length : a.accountKeys.length < 2 ^ 21
  required : 1 ≤ a.numRequiredSignatures ∧ a.numRequiredSignatures ≤ 255
  legacy : a.versioned = false → a.numRequiredSignatures < 128
  readonlySigned : 0 ≤ a.numReadonlySigned ∧ a.numReadonlySigned < 256
  readonlyUnsigned : 0 ≤ a.numReadonlyUnsigned ∧ a.numReadonlyUnsigned < 256
  blockhash : ∃ raw, b58decode a.recentBlockhash = .ok raw ∧ raw.length = 32
  instructions_length : a.instructions.length < 2 ^ 21
  instructions : ∀ ix ∈ a.instructions, ix.Static a.accountKeys
  lookups : 0 ≤ a.nAddressTableLookups ∧ a.nAddressTableLookups < 2 ^ 21

/-- What an instruction is asked to say. -/
def RawInstruction.contents (accountKeys : List String) (ix : RawInstruction) :
    InstructionContents where
  programIdIndex := UInt8.ofNat (accountKeys.idxOf ix.programId)
  accounts := ix.accounts.map fun v => UInt8.ofNat v.toNat
  data := ix.data

/-- What a transaction is asked to say, its keys and blockhash decoded. -/
def BuildArgs.contents (a : BuildArgs) (keys : List Bytes) (blockhash : Bytes) : Contents where
  signatures := List.replicate (64 * a.numRequiredSignatures.toNat) 0
  isVersioned := a.versioned
  header := [a.numRequiredSignatures, a.numReadonlySigned, a.numReadonlyUnsigned].map
    fun v => UInt8.ofNat v.toNat
  keys := keys
  blockhash := blockhash
  instructions := a.instructions.map (RawInstruction.contents a.accountKeys)
  lookups := List.replicate a.nAddressTableLookups.toNat ⟨List.replicate 32 0, [], []⟩

section Instructions

variable {accountKeys : List String} {ix : RawInstruction}

theorem RawInstruction.Static.idxOf_lt (h : ix.Static accountKeys) :
    accountKeys.idxOf ix.programId < 256 ∧
      accountKeys.idxOf ix.programId < accountKeys.length := by
  have hmem := List.mem_of_mem_take h.program
  refine ⟨?_, List.idxOf_lt_length_of_mem hmem⟩
  have htake := List.idxOf_lt_length_of_mem h.program
  rw [← List.take_append_drop 256 accountKeys, List.idxOf_append_of_mem h.program]
  exact lt_of_lt_of_le htake (List.length_take_le 256 accountKeys)

theorem programIndex_of_mem (hnone : ix.programIdIndexOverride = none)
    (hmem : ix.programId ∈ accountKeys) :
    programIndex accountKeys ix = .ok (accountKeys.idxOf ix.programId : ℤ) := by
  rw [programIndex, hnone, List.idxOf_eq_getD_idxOf?]
  cases hindex : accountKeys.idxOf? ix.programId with
  | none => exact absurd hmem (List.idxOf?_eq_none_iff.1 hindex)
  | some index => rfl

/-- An instruction is written as its canonical layout. -/
theorem RawInstruction.Static.write_eq (h : ix.Static accountKeys) :
    writeInstruction accountKeys ix = .ok (ix.contents accountKeys).layout.write := by
  obtain ⟨hbyte, hlt⟩ := h.idxOf_lt
  have hbytes : bytesOf ix.accounts = .ok (ix.contents accountKeys).accounts :=
    if_pos fun v hv => ⟨(h.accounts v hv).1, (h.accounts v hv).2.2⟩
  unfold writeInstruction
  refine (bind_of_ok (programIndex_of_mem h.index (List.mem_of_mem_take h.program))).trans ?_
  refine (require_bind (by omega)).trans ?_
  refine (bind_of_ok (appendByte_eq_ok (by omega))).trans ?_
  refine (bind_of_ok (writeCompactU16_natCast _)).trans ?_
  refine (bind_of_ok hbytes).trans ?_
  refine (bind_of_ok (writeCompactU16_natCast _)).trans ?_
  simp [WireInstruction.write, InstructionContents.layout, RawInstruction.contents, Counted.write,
    Counted.canonical, Length.canonical, pure, Except.pure]

theorem RawInstruction.Static.spellable (h : ix.Static accountKeys) :
    (ix.contents accountKeys).Spellable :=
  ⟨by simpa [RawInstruction.contents] using h.accounts_length, h.data_length⟩

/-- An instruction is parsed as it was asked for. -/
theorem RawInstruction.Static.parsed_eq (h : ix.Static accountKeys) :
    (ix.contents accountKeys).layout.parsed accountKeys =
      { programId := ix.programId
        programIdIndex := accountKeys.idxOf ix.programId
        accountIndices := ix.accounts.map Int.toNat
        data := ix.data } := by
  obtain ⟨hbyte, hlt⟩ := h.idxOf_lt
  have hindex : (UInt8.ofNat (accountKeys.idxOf ix.programId)).toNat =
      accountKeys.idxOf ix.programId := UInt8.toNat_ofNat_of_lt' hbyte
  have hprogram : resolveStatic accountKeys (accountKeys.idxOf ix.programId) = ix.programId := by
    simp [resolveStatic, hlt]
  have haccounts : (ix.accounts.map fun v => UInt8.ofNat v.toNat).map UInt8.toNat =
      ix.accounts.map Int.toNat := by
    rw [List.map_map]
    refine List.map_congr_left fun v hv => ?_
    have hv' : v.toNat < 256 := by
      have := h.accounts v hv
      omega
    exact UInt8.toNat_ofNat_of_lt' hv'
  simp only [WireInstruction.parsed, InstructionContents.layout, RawInstruction.contents,
    Counted.canonical, List.headD_cons, hindex, hprogram, haccounts]

/-- It names nothing past the keys. -/
theorem RawInstruction.Static.altRegionHit_eq (h : ix.Static accountKeys) :
    altRegionHit accountKeys ((ix.contents accountKeys).layout.parsed accountKeys) = false := by
  have hlt := h.idxOf_lt.2
  rw [h.parsed_eq, altRegionHit]
  simp only [Bool.or_eq_false_iff, decide_eq_false_iff_not, List.any_eq_false, List.mem_map]
  refine ⟨not_le.2 hlt, ?_⟩
  rintro index ⟨v, hv, rfl⟩
  have := h.accounts v hv
  simp only [decide_eq_true_eq]
  omega

end Instructions

theorem writeLookups_eq_ok {versioned : Bool} {n : ℤ} (h : 0 ≤ n) :
    writeLookups versioned n = .ok (if versioned then (Items.canonical LookupContents.layout
      (List.replicate n.toNat ⟨List.replicate 32 0, [], []⟩)).write WireLookup.write else []) := by
  unfold writeLookups
  split_ifs with hversioned
  · obtain ⟨n, rfl⟩ := Int.eq_ofNat_of_zero_le h
    refine (bind_of_ok (writeCompactU16_natCast n)).trans ?_
    refine (bind_of_ok (writeCompactU16_natCast 0)).trans ?_
    refine (bind_of_ok (writeCompactU16_natCast 0)).trans ?_
    simp [Items.write, Items.canonical, Length.canonical, LookupContents.layout, WireLookup.write,
      Counted.write, Counted.canonical, List.flatMap, pure, Except.pure]
  · rfl

/-- Arguments with nothing wrong up to the instructions: the keys and the blockhash are decoded. -/
structure BuildArgs.Framed (a : BuildArgs) (keys : List Bytes) (blockhash : Bytes) : Prop where
  required : 0 ≤ a.numRequiredSignatures ∧ a.numRequiredSignatures < 256
  readonlySigned : 0 ≤ a.numReadonlySigned ∧ a.numReadonlySigned < 256
  readonlyUnsigned : 0 ≤ a.numReadonlyUnsigned ∧ a.numReadonlyUnsigned < 256
  accountKeys : a.accountKeys = keys.map b58encode
  width : ∀ key ∈ keys, key.length = 32
  recentBlockhash : a.recentBlockhash = b58encode blockhash
  blockhash_width : blockhash.length = 32

namespace BuildArgs

variable {a : BuildArgs} {keys : List Bytes} {blockhash : Bytes}

/-- The builder up to the instructions. -/
theorem Framed.build_eq (h : a.Framed keys blockhash) : buildVersionedTx a = do
    let instructions ← a.instructions.mapM (writeInstruction a.accountKeys)
    let lookups ← writeLookups a.versioned a.nAddressTableLookups
    return encode a.numRequiredSignatures.toNat ++
      List.replicate (64 * a.numRequiredSignatures.toNat) 0 ++
      (if a.versioned then [0x80] else []) ++ [UInt8.ofNat a.numRequiredSignatures.toNat] ++
      [UInt8.ofNat a.numReadonlySigned.toNat] ++ [UInt8.ofNat a.numReadonlyUnsigned.toNat] ++
      encode a.accountKeys.length ++ keys.flatten ++ blockhash ++ encode a.instructions.length ++
      instructions.flatten ++ lookups := by
  have hwrite : a.accountKeys.mapM writeKey = .ok keys := by
    rw [h.accountKeys]
    refine mapM_map_eq_ok fun key hkey => ?_
    refine (bind_of_ok (b58decode_eq_ok_iff.2 rfl)).trans ?_
    exact require_bind (h.width key hkey)
  have hsigs : writeCompactU16 a.numRequiredSignatures =
      .ok (encode a.numRequiredSignatures.toNat) := by
    rw [← writeCompactU16_natCast, Int.toNat_of_nonneg h.required.1]
  unfold buildVersionedTx
  refine (bind_of_ok hsigs).trans ?_
  refine (bind_of_ok (appendByte_eq_ok h.required)).trans ?_
  refine (bind_of_ok (appendByte_eq_ok h.readonlySigned)).trans ?_
  refine (bind_of_ok (appendByte_eq_ok h.readonlyUnsigned)).trans ?_
  refine (bind_of_ok (writeCompactU16_natCast _)).trans ?_
  refine (bind_of_ok hwrite).trans ?_
  refine (bind_of_ok (b58decode_eq_ok_iff.2 h.recentBlockhash)).trans ?_
  refine (require_bind h.blockhash_width).trans ?_
  exact bind_of_ok (writeCompactU16_natCast _)

/-- An instruction that cannot be written stops the builder. -/
theorem Framed.build_of_raises (h : a.Framed keys blockhash) {e : String}
    (he : a.instructions.mapM (writeInstruction a.accountKeys) = .error e) :
    buildVersionedTx a = .error e := by
  rw [h.build_eq]
  exact bind_of_error he

/-- The keys as the builder is given them. -/
theorem Static.exists_keys (h : a.Static) :
    ∃ keys : List Bytes, a.accountKeys = keys.map b58encode ∧ ∀ key ∈ keys, key.length = 32 := by
  have hkeys := h.keys
  generalize a.accountKeys = accountKeys at hkeys
  induction accountKeys with
  | nil => exact ⟨[], rfl, by simp⟩
  | cons key accountKeys ih =>
      obtain ⟨⟨raw, hdecode, hlength⟩, hothers⟩ := List.forall_mem_cons.1 hkeys
      obtain ⟨keys, rfl, hwidth⟩ := ih hothers
      refine ⟨raw :: keys, ?_, List.forall_mem_cons.2 ⟨hlength, hwidth⟩⟩
      rw [b58decode_eq_ok_iff.1 hdecode, List.map_cons]

theorem Static.exists_framed (h : a.Static) : ∃ keys blockhash, a.Framed keys blockhash := by
  obtain ⟨keys, hkeys, hwidth⟩ := h.exists_keys
  obtain ⟨blockhash, hdecode, hwidth'⟩ := h.blockhash
  have := h.required
  exact ⟨keys, blockhash, by omega, h.readonlySigned, h.readonlyUnsigned, hkeys, hwidth,
    b58decode_eq_ok_iff.1 hdecode, hwidth'⟩

/-- The builder writes the canonical layout. -/
theorem Static.build_eq (h : a.Static) (hframed : a.Framed keys blockhash) :
    buildVersionedTx a = .ok (a.contents keys blockhash).layout.bytes := by
  have hinstructions : a.instructions.mapM (writeInstruction a.accountKeys) =
      .ok (a.instructions.map fun ix => (ix.contents a.accountKeys).layout.write) :=
    mapM_eq_ok fun ix hix => (h.instructions ix hix).write_eq
  have hlength : a.accountKeys.length = keys.length := by rw [hframed.accountKeys, List.length_map]
  have hslots : 64 * a.numRequiredSignatures.toNat / 64 = a.numRequiredSignatures.toNat :=
    Nat.mul_div_cancel_left _ (by decide)
  rw [hframed.build_eq]
  refine (bind_of_ok hinstructions).trans ?_
  refine (bind_of_ok (writeLookups_eq_ok h.lookups.1)).trans ?_
  cases hversioned : a.versioned with
  | false =>
      simp [WireTx.bytes, Contents.layout, contents, Counted.write, Counted.canonical, Items.write,
        Items.canonical, Length.canonical, List.flatMap, Function.comp_def, hversioned, hlength,
        hslots, pure, Except.pure]
  | true =>
      simp [WireTx.bytes, Contents.layout, contents, Counted.write, Counted.canonical, Items.write,
        Items.canonical, Length.canonical, List.flatMap, Function.comp_def, hversioned, hlength,
        hslots, pure, Except.pure]

theorem Static.spellable (h : a.Static) (hframed : a.Framed keys blockhash) :
    (a.contents keys blockhash).Spellable where
  signatures := by simp [contents]
  slots := by
    have := h.required
    simp only [contents, List.length_replicate]
    omega
  header := rfl
  legacy := by
    intro hlegacy
    have hsmall := h.legacy hlegacy
    have := h.required
    simp only [contents, List.map_cons, List.head?_cons, Option.mem_def, Option.some.injEq]
    rintro b rfl
    rw [UInt8.toNat_ofNat']
    omega
  keys := by
    have hlength := h.keys_length
    rw [hframed.accountKeys, List.length_map] at hlength
    exact ⟨hlength, hframed.width⟩
  keys_ne_nil := by
    have hne := h.keys_ne_nil
    rw [hframed.accountKeys] at hne
    exact fun hnil => hne (List.map_eq_nil_iff.2 hnil)
  blockhash := hframed.blockhash_width
  instructions := by
    refine ⟨by simpa [contents] using h.instructions_length, fun ix hix => ?_⟩
    obtain ⟨raw, hraw, rfl⟩ := List.mem_map.1 hix
    exact (h.instructions raw hraw).spellable
  lookups := by
    have := h.lookups
    refine ⟨by simp only [contents, List.length_replicate]; omega, fun l hl => ?_⟩
    rw [List.eq_of_mem_replicate hl]
    exact ⟨by simp, by decide, by decide⟩

end BuildArgs

/-- What a canonical layout is parsed as. -/
theorem Contents.parsed_layout (c : Contents) : c.layout.parsed =
    { accountKeys := c.keys.map b58encode
      numRequiredSignatures := (c.header.headD 0).toNat
      payer := (c.keys.map b58encode).headD ""
      recentBlockhash := b58encode c.blockhash
      instructions := c.instructions.map fun ix => ix.layout.parsed (c.keys.map b58encode)
      isVersioned := c.isVersioned
      hasAddressTableLookups :=
        (c.instructions.any fun ix =>
          altRegionHit (c.keys.map b58encode) (ix.layout.parsed (c.keys.map b58encode))) ||
            c.isVersioned && decide (0 < c.lookups.length) } := by
  cases hversioned : c.isVersioned with
  | false =>
      simp [WireTx.parsed, WireTx.accountKeys, WireTx.isVersioned, layout, Items.canonical,
        Function.comp_def, hversioned]
  | true =>
      simp [WireTx.parsed, WireTx.accountKeys, WireTx.isVersioned, layout, Items.canonical,
        Length.canonical, Function.comp_def, hversioned]

/-- What is parsed is what was asked for. -/
structure ParsedTx.Answers (a : BuildArgs) (t : ParsedTx) : Prop where
  accountKeys : t.accountKeys = a.accountKeys
  numRequiredSignatures : t.numRequiredSignatures = a.numRequiredSignatures
  payer : a.accountKeys.head? = some t.payer
  recentBlockhash : t.recentBlockhash = a.recentBlockhash
  isVersioned : t.isVersioned = a.versioned
  instructions : t.instructions.map
      (fun ix => (ix.programId, ix.accountIndices.map ((↑) : ℕ → ℤ), ix.data)) =
    a.instructions.map fun ix => (ix.programId, ix.accounts, ix.data)
  lookups : t.hasAddressTableLookups = true ↔ a.versioned = true ∧ 0 < a.nAddressTableLookups

/-- Its accounts, read back. -/
theorem RawInstruction.Static.map_cast_accounts {accountKeys : List String} {ix : RawInstruction}
    (h : ix.Static accountKeys) : (ix.accounts.map Int.toNat).map ((↑) : ℕ → ℤ) = ix.accounts := by
  rw [List.map_map]
  refine (List.map_congr_left fun v hv => ?_).trans (List.map_id ix.accounts)
  exact Int.toNat_of_nonneg (h.accounts v hv).1

theorem BuildArgs.Static.answers {a : BuildArgs} (h : a.Static) {keys : List Bytes}
    {blockhash : Bytes} (hframed : a.Framed keys blockhash) :
    (a.contents keys blockhash).layout.parsed.Answers a := by
  have hany : ((a.instructions.map (RawInstruction.contents a.accountKeys)).any fun ix =>
      altRegionHit a.accountKeys (ix.layout.parsed a.accountKeys)) = false := by
    rw [List.any_map, List.any_eq_false]
    intro ix hix
    rw [Function.comp_apply, (h.instructions ix hix).altRegionHit_eq]
    decide
  rw [Contents.parsed_layout]
  simp only [BuildArgs.contents, ← hframed.accountKeys]
  refine ⟨rfl, ?_, ?_, hframed.recentBlockhash.symm, rfl, ?_, ?_⟩
  · have := h.required
    simp
    omega
  · obtain ⟨key, others, hcons⟩ := List.exists_cons_of_ne_nil h.keys_ne_nil
    simp [hcons]
  · dsimp only
    rw [List.map_map, List.map_map]
    refine List.map_congr_left fun ix hix => ?_
    have hix' := h.instructions ix hix
    simp only [Function.comp_apply, hix'.parsed_eq, hix'.map_cast_accounts]
  · have := h.lookups.1
    dsimp only
    rw [hany]
    simp

/-- **A transaction parses as it was built.**  The builder accepts all arguments that spell a
transaction, the parser accepts what the builder writes, and what is parsed is what was asked for. -/
theorem parse_build {a : BuildArgs} (h : a.Static) :
    ∃ txBytes t, buildVersionedTx a = .ok txBytes ∧ parseTransaction txBytes = .ok t ∧
      t.Answers a := by
  obtain ⟨keys, blockhash, hframed⟩ := h.exists_framed
  refine ⟨_, (a.contents keys blockhash).layout.parsed, h.build_eq hframed, ?_, h.answers hframed⟩
  rw [parseTransaction_eq_readWire, readWire_eq_ok_iff.2 ⟨(h.spellable hframed).valid, rfl⟩]
  rfl

/-- A payer, and an instruction for a program that takes it. -/
def oneInstruction : BuildArgs where
  accountKeys := [b58encode (List.replicate 32 1), b58encode (List.replicate 32 0)]
  numRequiredSignatures := 1
  recentBlockhash := b58encode (List.replicate 32 2)
  instructions := [{ programId := b58encode (List.replicate 32 0), accounts := [0], data := [7] }]

theorem parse_build_oneInstruction : oneInstruction.Static ∧
    ∃ txBytes t, buildVersionedTx oneInstruction = .ok txBytes ∧
      parseTransaction txBytes = .ok t ∧ t.Answers oneInstruction := by
  have hstatic : oneInstruction.Static :=
    { keys := by
        intro key hkey
        simp only [oneInstruction, List.mem_cons, List.not_mem_nil, or_false] at hkey
        rcases hkey with rfl | rfl
        · exact ⟨_, b58decode_eq_ok_iff.2 rfl, rfl⟩
        · exact ⟨_, b58decode_eq_ok_iff.2 rfl, rfl⟩
      keys_ne_nil := List.cons_ne_nil _ _
      keys_length := by simp [oneInstruction]
      required := by decide
      legacy := by decide
      readonlySigned := by decide
      readonlyUnsigned := by decide
      blockhash := ⟨_, b58decode_eq_ok_iff.2 rfl, rfl⟩
      instructions_length := by simp [oneInstruction]
      instructions := by
        intro ix hix
        simp only [oneInstruction, List.mem_cons, List.not_mem_nil, or_false] at hix
        subst hix
        exact ⟨rfl, by simp [oneInstruction], by simp [oneInstruction], by simp, by simp⟩
      lookups := by decide }
  exact ⟨hstatic, parse_build hstatic⟩

/-! ### What cannot be built, or not parsed -/

/-- No keys. -/
def noKeys : BuildArgs where
  accountKeys := []
  numRequiredSignatures := 1
  recentBlockhash := b58encode (List.replicate 32 2)
  instructions := []

/-- A key. -/
def aKey : Bytes := List.replicate 32 0

/-- Another key. -/
def anotherKey : Bytes := List.replicate 32 1

/-- The one 256 times, and then the other. -/
def manyKeys : List Bytes := List.replicate 256 aKey ++ [anotherKey]

/-- An instruction among many keys. -/
def amongMany (ix : RawInstruction) : BuildArgs where
  accountKeys := manyKeys.map b58encode
  numRequiredSignatures := 1
  recentBlockhash := b58encode (List.replicate 32 2)
  instructions := [ix]

/-- What the builder makes of no keys. -/
def noKeysTx : Bytes :=
  [1] ++ List.replicate 64 0 ++ [0x80, 1, 0, 0, 0] ++ List.replicate 32 2 ++ [0, 0]

theorem noKeys_framed : noKeys.Framed [] (List.replicate 32 2) :=
  ⟨by decide, by decide, by decide, rfl, by simp, rfl, rfl⟩

theorem build_noKeys : buildVersionedTx noKeys = .ok noKeysTx := by
  have hzero : encode 0 = [0] := by
    rw [encode, if_pos (by decide)]
    rfl
  have hone : encode 1 = [1] := by
    rw [encode, if_pos (by decide)]
    rfl
  rw [noKeys_framed.build_eq]
  refine (bind_of_ok (rfl : List.mapM (writeInstruction []) [] = .ok [])).trans ?_
  refine (bind_of_ok (writeLookups_eq_ok (le_refl (0 : ℤ)))).trans ?_
  simp [noKeys, noKeysTx, hzero, hone, Items.write, Items.canonical, Length.canonical, pure,
    Except.pure]

theorem amongMany_framed (ix : RawInstruction) :
    (amongMany ix).Framed manyKeys (List.replicate 32 2) := by
  have hbyte : (0 : ℤ) ≤ 1 ∧ (1 : ℤ) < 256 := by decide
  have hzero : (0 : ℤ) ≤ 0 ∧ (0 : ℤ) < 256 := by decide
  refine ⟨hbyte, hzero, hzero, rfl, fun key hkey => ?_, rfl, rfl⟩
  rcases List.mem_append.1 hkey with hkey | hkey
  · rw [List.eq_of_mem_replicate hkey]
    rfl
  · rw [List.mem_singleton.1 hkey]
    rfl

theorem amongMany_raises {ix : RawInstruction} {e : String}
    (h : writeInstruction (manyKeys.map b58encode) ix = .error e) :
    buildVersionedTx (amongMany ix) = .error e := by
  refine (amongMany_framed ix).build_of_raises ?_
  rw [show (amongMany ix).instructions = [ix] from rfl, List.mapM_cons]
  exact bind_of_error h

theorem aKey_mem : b58encode aKey ∈ manyKeys.map b58encode := by
  refine List.mem_map_of_mem (List.mem_append_left _ (List.mem_replicate.2 ⟨?_, rfl⟩))
  decide

theorem anotherKey_mem : b58encode anotherKey ∈ manyKeys.map b58encode :=
  List.mem_map_of_mem (List.mem_append_right _ List.mem_cons_self)

/-- The other key is the 257th. -/
theorem idxOf_anotherKey : (manyKeys.map b58encode).idxOf (b58encode anotherKey) = 256 := by
  have hne : b58encode anotherKey ∉ (List.replicate 256 aKey).map b58encode := by
    rw [List.map_replicate]
    intro hmem
    have heq := b58encode_injective (List.eq_of_mem_replicate hmem)
    exact absurd heq (by decide)
  rw [manyKeys, List.map_append, List.idxOf_append_of_notMem hne, List.map_cons, List.idxOf_cons_self,
    List.length_map, List.length_replicate]

/-- Without a payer the parser refuses what was built; a program or an account past the first 256
keys stops the builder. -/
theorem build_not_parsed :
    (buildVersionedTx noKeys >>= parseTransaction) =
        .error "transaction has no account keys (no payer)" ∧
      b58encode anotherKey ∈ manyKeys.map b58encode ∧
      buildVersionedTx (amongMany { programId := b58encode anotherKey }) =
        .error "program_id_index must fit in a single byte" ∧
      256 < manyKeys.length ∧ b58encode aKey ∈ manyKeys.map b58encode ∧
      buildVersionedTx (amongMany { programId := b58encode aKey, accounts := [256] }) =
        .error "bytes must be in range(0, 256)" := by
  have hlength : 256 < manyKeys.length := by
    rw [manyKeys, List.length_append, List.length_replicate]
    decide
  refine ⟨?_, anotherKey_mem, amongMany_raises ?_, hlength, aKey_mem, amongMany_raises ?_⟩
  · rw [build_noKeys]
    rfl
  · unfold writeInstruction
    refine (bind_of_ok (programIndex_of_mem rfl anotherKey_mem)).trans ?_
    rw [idxOf_anotherKey]
    rfl
  · have hidx : (manyKeys.map b58encode).idxOf (b58encode aKey) = 0 := by
      have hcons : manyKeys = aKey :: (List.replicate 255 aKey ++ [anotherKey]) := rfl
      rw [hcons, List.map_cons, List.idxOf_cons_self]
    unfold writeInstruction
    refine (bind_of_ok (programIndex_of_mem rfl aKey_mem)).trans ?_
    rw [hidx]
    refine (require_bind (by decide)).trans ?_
    refine (bind_of_ok (appendByte_eq_ok (by decide))).trans ?_
    refine (bind_of_ok (writeCompactU16_natCast _)).trans ?_
    rfl

end Wire
end AatsSniper
