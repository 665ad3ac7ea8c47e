/-
# The entry transaction the builder asks for

`_build_real_entry_tx` of `aats/execution/tx_builder.py`, down to the list of
instructions it hands to `MessageV0.try_compile`, and its helpers
`_build_swap_accounts` and `_get_tip_accounts_from_allowlist`.

`solders` is not part of the repository.  What the builder uses of it is a
parameter: `SoldersPubkey` for `Pubkey`, `ComputeBudget` for the two
ComputeBudget instructions.  What `MessageV0.try_compile` does to an instruction
is `Compiles`: its accounts are indices into the key table of the message, its
data is left alone.
-/

import AatsSniper.Lib.Except
import AatsSniper.Signer.Policy

namespace AatsSniper
namespace Builder

open Signer Wire

/-- The exceptions that leave the builder: `VenueError(reason, message)`, the
`ValueError` of `Pubkey.from_string`, the `struct.error` of `struct.pack`, and the
`OverflowError` of a ComputeBudget argument. -/
inductive BuildError
  | venueError (reason message : String)
  | valueError
  | structError
  | overflowError
  deriving DecidableEq

/-- `solders.instruction.AccountMeta`. -/
structure AccountMeta (Pubkey : Type) where
  pubkey : Pubkey
  isSigner : Bool
  isWritable : Bool
  deriving DecidableEq

/-- `solders.instruction.Instruction`. -/
structure Instruction (Pubkey : Type) where
  programId : Pubkey
  accounts : List (AccountMeta Pubkey)
  data : Bytes
  deriving DecidableEq

/-- `set_compute_unit_limit` and `set_compute_unit_price` of `solders.compute_budget`. -/
structure ComputeBudget (Pubkey : Type) where
  setComputeUnitLimit : ℤ → Except BuildError (Instruction Pubkey)
  setComputeUnitPrice : ℤ → Except BuildError (Instruction Pubkey)

/-- `struct.pack("<Q", n)`. -/
def packQ (n : ℤ) : Except BuildError Bytes :=
  if 0 ≤ n ∧ n < 2 ^ 64 then .ok (Bytes.leBytes 8 n.toNat) else .error .structError

/-- `d.get(key)` where the empty string counts as missing. -/
def getTruthy (d : List (String × String)) (key : String) : Option String :=
  (d.lookup key).filter fun v => v ≠ ""

/-- What reading the allowlist file gave: the text of an `OSError` or
`JSONDecodeError`, a missing key, or the pinned accounts. -/
inductive AllowlistFile
  | unreadable (exc : String)
  | keyMissing (key : String)
  | pinned (accounts : List String)

/-- `_get_tip_accounts_from_allowlist()`, the file being at `path`. -/
def getTipAccountsFromAllowlist (path : String) : AllowlistFile → Except BuildError (List String)
  | .unreadable exc =>
      .error (.venueError "tip_accounts_load_failed"
        (s!"tx_builder: cannot load allowlist for Jito tip accounts from '{path}': {exc}. " ++
          "Refusing to build transaction without a verified tip-account set " ++
          "(execution-venue.md §3.2 fail-CLOSED — never substitute a hardcoded literal)."))
  | .keyMissing key =>
      .error (.venueError "tip_accounts_key_missing"
        (s!"tx_builder: allowlist at '{path}' is missing required key '{key}'. " ++
          "Refusing to build transaction without a verified tip-account set."))
  | .pinned [] =>
      .error (.venueError "tip_accounts_empty"
        (s!"tx_builder: allowlist at '{path}' returned an empty tip-account list. " ++
          "Refusing to build transaction without a verified tip-account set."))
  | .pinned (account :: accounts) => .ok (account :: accounts)

section Solders

variable (solders : SoldersPubkey)

/-- `Pubkey.from_string(s)`. -/
def fromString (s : String) : Except BuildError solders.Pubkey :=
  match solders.fromString s with
  | some pubkey => .ok pubkey
  | none => .error .valueError

/-- A program id of the allowlist; the builder refuses where it is missing. -/
def requireProgramId (programIds : List (String × String)) (name : String) :
    Except BuildError String :=
  match getTruthy programIds name with
  | some id => .ok id
  | none =>
      .error (.venueError "program_id_missing"
        (s!"tx_builder: '{name}' not found in loaded program IDs. " ++
          "Refusing to build — fail-CLOSED (execution-venue.md §3.2)."))

/-- `pool_keys.get("program_id") or pool_keys.get("program")`. -/
def poolProgramId (poolKeys : List (String × String)) : Except BuildError String :=
  match (getTruthy poolKeys "program_id").or (getTruthy poolKeys "program") with
  | some id => .ok id
  | none =>
      .error (.venueError "pool_program_id_missing"
        ("tx_builder: pool_keys missing 'program_id' or 'program'. " ++
          "Refusing to build — pool keys must come from the live VenueRegistry."))

/-- `_build_swap_accounts(...)`. -/
def buildSwapAccounts (walletPubkey : String) (poolKeys : List (String × String)) (mint : String)
    (programIds : List (String × String)) :
    Except BuildError (List (AccountMeta solders.Pubkey)) := do
  let wallet ← fromString solders walletPubkey
  let splTokenId ← requireProgramId programIds "spl_token_program"
  let ataProgramId ← requireProgramId programIds "associated_token_account_program"
  let splToken ← fromString solders splTokenId
  let ataProgram ← fromString solders ataProgramId
  let pk (k : String) := fromString solders
    ((poolKeys.lookup k).getD "11111111111111111111111111111111")
  let pool ← pk "pool"
  let vaultSol ← pk "vault_sol"
  let vaultToken ← pk "vault_token"
  let mintKey ← fromString solders mint
  return [⟨wallet, true, true⟩, ⟨pool, false, true⟩, ⟨vaultSol, false, true⟩,
    ⟨vaultToken, false, true⟩, ⟨mintKey, false, false⟩, ⟨splToken, false, false⟩,
    ⟨ataProgram, false, false⟩]

/-- `SWAP_DISCRIMINATOR`. -/
def swapDiscriminator : Bytes := [0x66, 0x06, 0x3d, 0x12, 0x01, 0xda, 0xeb, 0xea]

/-- `TIP_DISCRIMINATOR`. -/
def tipDiscriminator : Bytes := [0x00, 0x00, 0x00, 0x00, 0x02, 0x00, 0x00, 0x00]

/-- `tip_ix`: the Jito tip. -/
def tipInstruction (systemProgramId wallet tipAccount : solders.Pubkey) (tipLamports : ℤ) :
    Except BuildError (Instruction solders.Pubkey) := do
  let packed ← packQ tipLamports
  return { programId := systemProgramId
           accounts := [⟨wallet, true, true⟩, ⟨tipAccount, false, true⟩]
           data := tipDiscriminator ++ packed }

/-- The arguments of `_build_real_entry_tx` that reach an instruction. -/
structure EntryTx where
  walletPubkey : String
  poolKeys : List (String × String)
  solInLamports : ℤ
  minTokensOut : ℤ
  tipLamports : ℤ
  cuPriceMicrolamports : ℤ
  cuLimit : ℤ
  mint : String

/-- The instructions of `_build_real_entry_tx(...)`. -/
def buildRealEntryTx (budget : ComputeBudget solders.Pubkey) (programIds : List (String × String))
    (path : String) (file : AllowlistFile) (tx : EntryTx) :
    Except BuildError (List (Instruction solders.Pubkey)) := do
  let systemProgramIdStr ← requireProgramId programIds "system_program"
  let systemProgramId ← fromString solders systemProgramIdStr
  let poolProgramIdStr ← poolProgramId tx.poolKeys
  let poolProgramId ← fromString solders poolProgramIdStr
  let wallet ← fromString solders tx.walletPubkey
  let tipAccounts ← getTipAccountsFromAllowlist path file
  let tipAccount ← fromString solders (tipAccounts.headD "")
  let cuLimitIx ← budget.setComputeUnitLimit tx.cuLimit
  let cuPriceIx ← budget.setComputeUnitPrice tx.cuPriceMicrolamports
  let swapAccounts ← buildSwapAccounts solders tx.walletPubkey tx.poolKeys tx.mint programIds
  let solIn ← packQ tx.solInLamports
  let minOut ← packQ tx.minTokensOut
  let swapIx : Instruction solders.Pubkey :=
    { programId := poolProgramId
      accounts := swapAccounts
      data := swapDiscriminator ++ solIn.reverse ++ minOut.reverse }
  let tipIx ← tipInstruction solders systemProgramId wallet tipAccount tx.tipLamports
  return [cuLimitIx, cuPriceIx, swapIx, tipIx]

/-- An instruction as the signer reads it back from a compiled message: each
account an index into the key table, the data as it was. -/
structure Compiles (accountKeys : List String) (ix : Instruction solders.Pubkey)
    (parsed : ParsedInstruction) : Prop where
  programId : parsed.programId = solders.str ix.programId
  accounts : parsed.accountIndices.map (fun index => accountKeys[index]?) =
    ix.accounts.map fun account => some (solders.str account.pubkey)
  data : parsed.data = ix.data

end Solders

section Tip

variable {solders : SoldersPubkey}

theorem fromString_eq_ok {s : String} {pubkey : solders.Pubkey}
    (h : fromString solders s = .ok pubkey) : solders.fromString s = some pubkey := by
  unfold fromString at h
  cases hs : solders.fromString s with
  | none => simp [hs] at h
  | some key => rw [hs] at h; rw [Except.ok.inj h]

/-- Two accounts of a compiled instruction, read back by the signer. -/
theorem Compiles.resolve {keys : List String} {ix : Instruction solders.Pubkey}
    {parsed : ParsedInstruction} (h : Compiles solders keys ix parsed)
    {first second : AccountMeta solders.Pubkey} (haccounts : ix.accounts = [first, second]) :
    parsed.accountIndices.length = 2 ∧
      Signer.resolve keys (parsed.accountIndices.getD 0 0) = .ok (solders.str first.pubkey) ∧
      Signer.resolve keys (parsed.accountIndices.getD 1 0) = .ok (solders.str second.pubkey) := by
  have hmap := h.accounts
  rw [haccounts] at hmap
  match hindices : parsed.accountIndices with
  | [i, j] =>
      rw [hindices] at hmap
      obtain ⟨hi, hj⟩ : keys[i]? = some (solders.str first.pubkey) ∧
          keys[j]? = some (solders.str second.pubkey) := by simpa using hmap
      simp [Signer.resolve, hi, hj]
  | [] | [_] | _ :: _ :: _ :: _ => simp [hindices] at hmap

/-- A tip that was packed fits in eight bytes. -/
theorem tipLamports_range {systemProgramId wallet tipAccount : solders.Pubkey} {tipLamports : ℤ}
    {ix : Instruction solders.Pubkey}
    (h : tipInstruction solders systemProgramId wallet tipAccount tipLamports = .ok ix) :
    0 ≤ tipLamports ∧ tipLamports < 2 ^ 64 := by
  obtain ⟨packed, hpacked, -⟩ := ok_of_bind h
  unfold packQ at hpacked
  split_ifs at hpacked with hrange
  exact hrange

/-- **What the signer makes of a tip.**  Its discriminator is eight bytes, the first
four of them zero: the signer reads a CreateAccount, and the second four bytes
of the discriminator as the low half of the lamports. -/
theorem decodeSystemTransfer_tip {systemProgramId wallet tipAccount : solders.Pubkey}
    {tipLamports : ℤ} {ix : Instruction solders.Pubkey}
    (hix : tipInstruction solders systemProgramId wallet tipAccount tipLamports = .ok ix)
    {keys : List String} {parsed : ParsedInstruction} (h : Compiles solders keys ix parsed) :
    decodeSystemTransfer parsed keys = .ok (some (solders.str wallet, solders.str tipAccount,
      2 + 2 ^ 32 * (tipLamports.toNat % 2 ^ 32))) := by
  unfold tipInstruction at hix
  obtain ⟨packed, hpacked, hix⟩ := ok_of_bind hix
  obtain rfl := Except.ok.inj hix
  unfold packQ at hpacked
  split_ifs at hpacked with hrange
  obtain rfl := Except.ok.inj hpacked
  obtain ⟨hlength, hwallet, htip⟩ := h.resolve rfl
  have hdata := h.data
  dsimp only at hdata
  have hdiscriminant : Bytes.leNat (parsed.data.take 4) = 0 := by
    rw [hdata, tipDiscriminator]
    rfl
  have hlamports : Bytes.leNat (Bytes.slice parsed.data 4 12) =
      2 + 2 ^ 32 * (tipLamports.toNat % 2 ^ 32) := by
    have hslice : Bytes.slice parsed.data 4 12 =
        [2, 0, 0, 0] ++ (Bytes.leBytes 8 tipLamports.toNat).take 4 := by
      rw [hdata]
      rfl
    rw [hslice, Bytes.take_leBytes (by decide), Bytes.leNat_append, Bytes.leNat_leBytes]
    rfl
  have hbytes : parsed.data.length = 16 := by
    rw [hdata]
    simp [tipDiscriminator]
  unfold decodeSystemTransfer
  rw [if_neg (by omega), hdiscriminant]
  simp only [OfNat.zero_ne_ofNat, if_false, if_true]
  unfold decodeTransferAt
  rw [if_neg (by omega), hwallet, htip, hlamports]
  rfl

/-- The last instruction of a built transaction is the tip, from the wallet to the
first pinned account. -/
theorem exists_tip_of_build {budget : ComputeBudget solders.Pubkey}
    {programIds : List (String × String)} {path : String} {file : AllowlistFile} {tx : EntryTx}
    {ixs : List (Instruction solders.Pubkey)}
    (h : buildRealEntryTx solders budget programIds path file tx = .ok ixs) :
    ∃ tipAccounts systemProgramId wallet tipAccount tipIx,
      getTipAccountsFromAllowlist path file = .ok tipAccounts ∧
      solders.fromString tx.walletPubkey = some wallet ∧
      solders.fromString (tipAccounts.headD "") = some tipAccount ∧
      tipInstruction solders systemProgramId wallet tipAccount tx.tipLamports = .ok tipIx ∧
      ixs.getLast? = some tipIx := by
  unfold buildRealEntryTx at h
  obtain ⟨_, _, h⟩ := ok_of_bind h
  obtain ⟨systemProgramId, _, h⟩ := ok_of_bind h
  obtain ⟨_, _, h⟩ := ok_of_bind h
  obtain ⟨_, _, h⟩ := ok_of_bind h
  obtain ⟨wallet, hwallet, h⟩ := ok_of_bind h
  obtain ⟨tipAccounts, htips, h⟩ := ok_of_bind h
  obtain ⟨tipAccount, htip, h⟩ := ok_of_bind h
  obtain ⟨_, _, h⟩ := ok_of_bind h
  obtain ⟨_, _, h⟩ := ok_of_bind h
  obtain ⟨_, _, h⟩ := ok_of_bind h
  obtain ⟨_, _, h⟩ := ok_of_bind h
  obtain ⟨_, _, h⟩ := ok_of_bind h
  obtain ⟨tipIx, htipIx, h⟩ := ok_of_bind h
  obtain rfl := Except.ok.inj h
  exact ⟨tipAccounts, systemProgramId, wallet, tipAccount, tipIx, htips, fromString_eq_ok hwallet,
    fromString_eq_ok htip, htipIx, rfl⟩

end Tip

/-- **When builder and signer agree on the tip.**  `str` gives back the text a
`Pubkey` was read from.  For every transaction the builder returns, the signer
decodes its tip instruction as a transfer of `tip_lamports` from the wallet to the
tip account exactly when `tip_lamports` is `2 ^ 33 + 2`. -/
theorem tip_decodes_iff (solders : SoldersPubkey)
    (hstr : ∀ s pubkey, solders.fromString s = some pubkey → solders.str pubkey = s)
    (budget : ComputeBudget solders.Pubkey) (programIds : List (String × String)) (path : String)
    (file : AllowlistFile) (tx : EntryTx) (ixs : List (Instruction solders.Pubkey))
    (h : buildRealEntryTx solders budget programIds path file tx = .ok ixs) :
    ∃ tipAccounts tipIx, getTipAccountsFromAllowlist path file = .ok tipAccounts ∧
      ixs.getLast? = some tipIx ∧ 0 ≤ tx.tipLamports ∧ tx.tipLamports < 2 ^ 64 ∧
      ∀ keys parsed, Compiles solders keys tipIx parsed →
        (decodeSystemTransfer parsed keys =
            .ok (some (tx.walletPubkey, tipAccounts.headD "", tx.tipLamports.toNat)) ↔
          tx.tipLamports = 2 ^ 33 + 2) := by
  obtain ⟨tipAccounts, systemProgramId, wallet, tipAccount, tipIx, htips, hwallet, htip, htipIx,
    hlast⟩ := exists_tip_of_build h
  obtain ⟨hlo, hhi⟩ := tipLamports_range htipIx
  refine ⟨tipAccounts, tipIx, htips, hlast, hlo, hhi, fun keys parsed hcompiles => ?_⟩
  rw [decodeSystemTransfer_tip htipIx hcompiles, hstr _ _ hwallet, hstr _ _ htip]
  simp only [Except.ok.injEq, Option.some.injEq, Prod.mk.injEq, true_and]
  omega

/-- Keys are their text, checked as `solders` checks it: base58 of 32 bytes. -/
def sampleSolders : SoldersPubkey where
  Pubkey := String
  fromString := fun s => if (b58decode s).toOption.any fun b => b.length = 32 then some s else none
  bytes := fun s => (b58decode s).toOption.getD []
  findProgramAddress := fun _ programId => (programId, 0)
  str := id

/-- The two ComputeBudget instructions, by their documented layouts. -/
def sampleBudget : ComputeBudget String where
  setComputeUnitLimit := fun n =>
    if 0 ≤ n ∧ n < 2 ^ 32 then
      .ok ⟨"ComputeBudget111111111111111111111111111111", [], [2] ++ Bytes.leBytes 4 n.toNat⟩
    else .error .overflowError
  setComputeUnitPrice := fun n =>
    if 0 ≤ n ∧ n < 2 ^ 64 then
      .ok ⟨"ComputeBudget111111111111111111111111111111", [], [3] ++ Bytes.leBytes 8 n.toNat⟩
    else .error .overflowError

/-- An entry of the sample wallet with a tip. -/
def sampleEntry (tipLamports : ℤ) : EntryTx where
  walletPubkey := "So11111111111111111111111111111111111111112"
  poolKeys := [("program_id", "pAMMBay6oceH9fJKBRHGP5D4bD4sWpmSwMn52FMfXEA")]
  solInLamports := 50000000
  minTokensOut := 1
  tipLamports := tipLamports
  cuPriceMicrolamports := 1000
  cuLimit := 200000
  mint := "So11111111111111111111111111111111111111112"

/-- Build it against the program ids and the first tip account of the allowlist. -/
def sampleBuild (tipLamports : ℤ) : Except BuildError (List (Instruction String)) :=
  buildRealEntryTx sampleSolders sampleBudget
    [("system_program", "11111111111111111111111111111111"),
      ("spl_token_program", "TokenkegQfeZyiNwAJbNbGKPFXCWuBvf9Ss623VQ5DA"),
      ("associated_token_account_program", "ATokenGPvbdGVxr1b2hvZbsiqW5xWH25efTNsLJA8knL")]
    "config/program-allowlist.json" (.pinned ["9n3d1K5YD2vECAbRFhFFGYNNjiXtHXJWn9F31t89vsAV"])
    (sampleEntry tipLamports)

/-- The tip it ends with. -/
def sampleTip (tipLamports : ℕ) : Instruction String where
  programId := "11111111111111111111111111111111"
  accounts := [⟨"So11111111111111111111111111111111111111112", true, true⟩,
    ⟨"9n3d1K5YD2vECAbRFhFFGYNNjiXtHXJWn9F31t89vsAV", false, true⟩]
  data := tipDiscriminator ++ Bytes.leBytes 8 tipLamports

/-- The tip as the signer reads it. -/
def sampleParsed (tipLamports : ℕ) : ParsedInstruction where
  programId := "11111111111111111111111111111111"
  programIdIndex := 2
  accountIndices := [0, 1]
  data := tipDiscriminator ++ Bytes.leBytes 8 tipLamports

/-- The key table it refers to. -/
def sampleKeys : List String :=
  ["So11111111111111111111111111111111111111112", "9n3d1K5YD2vECAbRFhFFGYNNjiXtHXJWn9F31t89vsAV",
    "11111111111111111111111111111111"]

theorem compiles_sampleTip (tipLamports : ℕ) :
    Compiles sampleSolders sampleKeys (sampleTip tipLamports) (sampleParsed tipLamports) :=
  ⟨rfl, rfl, rfl⟩

/-- The two tips below, as the builder builds them. -/
theorem sampleBuild_getLast : ∀ tip ∈ [10000, 8589934594],
    (sampleBuild (tip : ℕ)).toOption.bind List.getLast? = some (sampleTip tip) := by
  decide +kernel

/-- The one tip on which the two agree. -/
theorem tip_decodes_iff_sample :
    decodeSystemTransfer (sampleParsed 8589934594) sampleKeys =
      .ok (some ("So11111111111111111111111111111111111111112",
        "9n3d1K5YD2vECAbRFhFFGYNNjiXtHXJWn9F31t89vsAV", 8589934594)) := by
  have hstr : ∀ s pubkey, sampleSolders.fromString s = some pubkey → sampleSolders.str pubkey = s := by
    intro s pubkey h
    simp only [sampleSolders] at h
    split_ifs at h
    exact (Option.some.inj h).symm
  have hlast : (sampleBuild 8589934594).toOption.bind List.getLast? =
      some (sampleTip 8589934594) := sampleBuild_getLast 8589934594 (by simp)
  obtain ⟨ixs, hixs, hlast⟩ := Option.bind_eq_some_iff.1 hlast
  have hbuild : sampleBuild 8589934594 = .ok ixs := by
    cases hbuild : sampleBuild 8589934594 with
    | error e => rw [hbuild] at hixs; cases hixs
    | ok ixs' => rw [hbuild] at hixs; rw [Option.some.inj hixs]
  obtain ⟨tipAccounts, tipIx, htips, hlast', -, -, hiff⟩ :=
    tip_decodes_iff sampleSolders hstr sampleBudget _ _ _ _ ixs hbuild
  obtain rfl := Option.some.inj (hlast.symm.trans hlast')
  obtain rfl := Except.ok.inj htips
  exact (hiff sampleKeys (sampleParsed 8589934594) (compiles_sampleTip _)).2 rfl

/-- A tip of 10000 lamports is priced by the signer at 42949 SOL. -/
theorem tip_of_10000_misdecoded :
    (sampleBuild 10000).toOption.bind List.getLast? = some (sampleTip 10000) ∧
      Compiles sampleSolders sampleKeys (sampleTip 10000) (sampleParsed 10000) ∧
      decodeSystemTransfer (sampleParsed 10000) sampleKeys =
        .ok (some ("So11111111111111111111111111111111111111112",
          "9n3d1K5YD2vECAbRFhFFGYNNjiXtHXJWn9F31t89vsAV", 42949672960002)) ∧
      decodeSystemTransfer (sampleParsed 10000) sampleKeys ≠
        .ok (some ("So11111111111111111111111111111111111111112",
          "9n3d1K5YD2vECAbRFhFFGYNNjiXtHXJWn9F31t89vsAV", 10000)) :=
  ⟨sampleBuild_getLast 10000 (by simp), compiles_sampleTip _, by decide +kernel, by decide +kernel⟩

end Builder
end AatsSniper
