/-
# Whom a signed transfer can pay

A derived address is a digest at which the curve check says no: there is no point whose
encoding it is (`Keyless`), so no key can sign for it.  The bump loop of
`_find_program_address` stops at the highest bump that gives one (`ProgramAddress`), and
`derive_ata` returns that address of the wallet, the token program and the mint (`OwnAta`).

With the check of C2 this says who receives what leaves the wallet: in any run of a signer
without `solders`, each System debit of the wallet that a signed transaction makes, seed
creates apart, pays a tip account, the wallet itself, or such an address
(`debits_pay_no_other_key`).
-/

import AatsSniper.Signer.Curve
import AatsSniper.Signer.Outflow

namespace AatsSniper
namespace Signer

open Wire

/-- No point is written so. -/
def Keyless (address : Bytes) : Prop := ∀ P : Point, P.encode ≠ address

/-- What the check turns down is keyless. -/
theorem keyless_of_off_curve {address : Bytes} (h : isOnCurve address ≠ .ok true) :
    Keyless address := by
  rintro P rfl
  exact h ((on_curve_iff_encodes _).2 ⟨Bytes.leBytes_length 32 _, P, rfl⟩)

/-- A digest is 32 bytes. -/
theorem length_digest (data : Bytes) : (Sha256.digest data).length = 32 := by
  simp [Sha256.digest]

/-- The digest the search looks at for a bump. -/
def candidateAt (seeds : List Bytes) (programId : Bytes) (bump : ℕ) : Bytes :=
  Sha256.digest ((seeds ++ [[UInt8.ofNat bump]]).flatten ++ programId ++ pdaMarker)

/-- The address at the highest bump below `n` whose digest is off the curve. -/
structure ProgramAddress (seeds : List Bytes) (programId : Bytes) (n bump : ℕ) (address : Bytes) :
    Prop where
  lt : bump < n
  digest : address = candidateAt seeds programId bump
  off : isOnCurve address = .ok false
  highest : ∀ b, bump < b → b < n → isOnCurve (candidateAt seeds programId b) = .ok true

theorem isOnCurve_candidateAt (seeds : List Bytes) (programId : Bytes) (bump : ℕ) :
    ∃ answer, isOnCurve (candidateAt seeds programId bump) = .ok answer := by
  have hlength : (candidateAt seeds programId bump).length = 32 := length_digest _
  rw [isOnCurve, if_neg (not_not.2 hlength)]
  dsimp only
  split_ifs
  · exact ⟨_, rfl⟩
  · exact ⟨_, rfl⟩

theorem ProgramAddress.keyless {seeds : List Bytes} {programId address : Bytes} {n bump : ℕ}
    (h : ProgramAddress seeds programId n bump address) : Keyless address := by
  refine keyless_of_off_curve ?_
  rw [h.off]
  simp

section Search

variable {seeds : List Bytes} {programId : Bytes} (hseeds : ∀ s ∈ seeds, s.length ≤ 32)
include hseeds

/-- One bump: its digest, where that is off the curve. -/
theorem createProgramAddress_eq_ok_iff (bump : ℕ) (address : Bytes) :
    createProgramAddress (seeds ++ [[UInt8.ofNat bump]]) programId = .ok address ↔
      address = candidateAt seeds programId bump ∧
        isOnCurve (candidateAt seeds programId bump) = .ok false := by
  have hshort : ((seeds ++ [[UInt8.ofNat bump]]).any fun s => decide (32 < s.length)) = false := by
    simp only [List.any_eq_false, List.mem_append, List.mem_singleton, decide_eq_true_eq, not_lt]
    rintro s (hs | rfl)
    · exact hseeds s hs
    · exact Nat.le_of_ble_eq_true rfl
  obtain ⟨answer, hanswer⟩ := isOnCurve_candidateAt seeds programId bump
  unfold createProgramAddress
  rw [hshort, ← candidateAt]
  simp only [Bool.false_eq_true, if_false, hanswer, bind, Except.bind]
  cases answer with
  | true => simp
  | false => simp [eq_comm, pure, Except.pure]

/-- **The loop stops at the highest bump off the curve.**  By induction on the bumps left:
those passed over are on the curve. -/
theorem findProgramAddressFrom_eq_ok {n bump : ℕ} {address : Bytes}
    (h : findProgramAddressFrom seeds programId n = .ok (address, bump)) :
    ProgramAddress seeds programId n bump address := by
  induction n with
  | zero => cases h
  | succ n ih =>
      unfold findProgramAddressFrom at h
      cases hcreate : createProgramAddress (seeds ++ [[UInt8.ofNat n]]) programId with
      | ok address' =>
          rw [hcreate] at h
          obtain ⟨rfl, rfl⟩ := Prod.mk.inj (Except.ok.inj h)
          obtain ⟨rfl, hoff⟩ := (createProgramAddress_eq_ok_iff hseeds n address').1 hcreate
          exact ⟨Nat.lt_succ_self _, rfl, hoff, fun b hgt hle => by omega⟩
      | error message =>
          rw [hcreate] at h
          obtain ⟨hlt, hdigest, hoff, hhighest⟩ := ih h
          refine ⟨hlt.trans (Nat.lt_succ_self n), hdigest, hoff, fun b hgt hle => ?_⟩
          rcases Nat.lt_succ_iff_lt_or_eq.1 hle with hb | rfl
          · exact hhighest b hgt hb
          · obtain ⟨answer, hanswer⟩ := isOnCurve_candidateAt seeds programId b
            cases answer with
            | true => exact hanswer
            | false =>
                have hfound := (createProgramAddress_eq_ok_iff hseeds b _).2 ⟨rfl, hanswer⟩
                rw [hcreate] at hfound
                cases hfound

end Search

/-- The token account `derive_ata` gives the wallet for a mint. -/
structure OwnAta (policy : SignerPolicy) (wallet mint recipient : String) : Prop where
  derived : ∃ walletB tokenB mintB programB address bump,
    b58decode wallet = .ok walletB ∧ b58decode policy.splTokenProgramId = .ok tokenB ∧
    b58decode mint = .ok mintB ∧ b58decode policy.ataProgramId = .ok programB ∧
    ProgramAddress [walletB, tokenB, mintB] programB 256 bump address ∧
    recipient = b58encode address

/-- No key's address is the wallet's own token account. -/
theorem OwnAta.keyless {policy : SignerPolicy} {wallet mint recipient : String}
    (h : OwnAta policy wallet mint recipient) (P : Point) : b58encode P.encode ≠ recipient := by
  obtain ⟨walletB, tokenB, mintB, programB, address, bump, -, -, -, -, haddress, rfl⟩ := h
  exact fun heq => haddress.keyless P (b58encode_injective heq)

/-- What the pure backend derives. -/
theorem ownAta_of_deriveOwn {policy : SignerPolicy} {wallet mint recipient : String}
    (h : deriveOwn none policy wallet mint = some recipient) :
    OwnAta policy wallet mint recipient := by
  have hok : deriveAta wallet mint policy.ataProgramId policy.splTokenProgramId =
      .ok recipient := by
    cases hderive : deriveAta wallet mint policy.ataProgramId policy.splTokenProgramId with
    | error message => simp [deriveOwn, tryDeriveAta, hderive, Except.toOption] at h
    | ok address => simpa [deriveOwn, tryDeriveAta, hderive, Except.toOption] using h
  unfold deriveAta at hok
  obtain ⟨walletB, hwallet, hok⟩ := ok_of_bind hok
  obtain ⟨tokenB, htoken, hok⟩ := ok_of_bind hok
  obtain ⟨mintB, hmint, hok⟩ := ok_of_bind hok
  obtain ⟨programB, hprogram, hok⟩ := ok_of_bind hok
  split_ifs at hok with hlengths
  obtain ⟨⟨address, bump⟩, hfind, hok⟩ := ok_of_bind hok
  obtain rfl := Except.ok.inj hok
  have hseeds : ∀ s ∈ [walletB, tokenB, mintB], s.length ≤ 32 := by
    intro s hs
    simp only [List.any_eq_true, decide_eq_true_eq, not_exists, not_and, not_not] at hlengths
    refine (hlengths s ?_).le
    simp only [List.mem_cons, List.not_mem_nil, or_false] at hs ⊢
    tauto
  exact ⟨walletB, tokenB, mintB, programB, address, bump, hwallet, htoken, hmint, hprogram,
    findProgramAddressFrom_eq_ok hseeds hfind, rfl⟩

/-- **What leaves the wallet reaches no other key.**  In every state a signer without `solders`
can be in, each System debit of the wallet by a transaction it signs, seed creates apart, pays
a pinned tip account, the wallet, or a token account of the wallet for a mint among the keys,
which is no key's address. -/
theorem debits_pay_no_other_key (cfg : SignerConfig) (hpure : cfg.solders = none)
    (ledger : VelocityLedger) (earlier : List Request) (request : Request)
    (hsigned : isSigned (handleSignRequest cfg (parseAndPrice cfg.solders cfg.policy) request.1
      request.2 (runCached cfg earlier (booted ledger)).2).1 = true) :
    ∃ members txBytes parsed, request.1 = .obj members ∧ txBytesOf members = .ok txBytes ∧
      parseTransaction txBytes = .ok parsed ∧
      ∀ d ∈ walletDebits cfg.policy cfg.pubkeyB58 parsed.accountKeys
          (parsed.instructions.filter fun ix => !isSeedCreate ix),
        d.recipient ∈ cfg.policy.pinnedTipAccounts ∨ d.recipient = cfg.pubkeyB58 ∨
          (∃ mint ∈ parsed.accountKeys, OwnAta cfg.policy cfg.pubkeyB58 mint d.recipient) ∧
            ∀ P : Point, b58encode P.encode ≠ d.recipient := by
  have hp := parseAndPrice_prices cfg
  have hstate : Caches.Consistent cfg.solders cfg.policy
      (runCached cfg earlier (booted ledger)).2.enforcer :=
    run_keeps hp earlier (Caches.consistent_empty cfg.solders cfg.policy)
  obtain ⟨members, txBytes, parsed, spend, hpayload, htx, hprice⟩ :=
    exists_priced_of_signed hp request hstate hsigned
  obtain ⟨hparse, -, hpinned, -, -⟩ := priced_eq_ok hprice
  refine ⟨members, txBytes, parsed, hpayload, htx, hparse, fun d hd => ?_⟩
  rcases hpinned _ (exists_walletTransfer_of_unseeded hd) with htip | hself | ⟨mint, hmint, hata⟩
  · exact .inl htip
  · exact .inr (.inl hself)
  · rw [hpure] at hata
    have hown := ownAta_of_deriveOwn hata
    exact .inr (.inr ⟨⟨mint, hmint, hown⟩, hown.keyless⟩)

/-- The token account of the sample wallet for itself as the mint. -/
def sampleAta : Bytes :=
  [124, 189, 233, 138, 96, 56, 93, 12, 194, 112, 236, 176, 112, 46, 213, 27, 31, 29, 23, 118, 112,
    73, 19, 185, 219, 247, 8, 83, 222, 199, 130, 187]

/-- A transfer to it out of the sample wallet. -/
def ownAtaTx (lamports : ℕ) : Bytes :=
  let data := [2, 0, 0, 0] ++ Bytes.leBytes 8 lamports
  sampleTx [sampleAta, List.replicate 32 0]
    [[2] ++ [2, 0, 1] ++ [UInt8.ofNat data.length] ++ data]

/-- The theorem at a transfer to the wallet's own token account. -/
theorem debits_pay_no_other_key_sample :
    ∃ parsed, parseTransaction (ownAtaTx 5000) = .ok parsed ∧
      ∀ d ∈ walletDebits samplePolicy sampleConfig.pubkeyB58 parsed.accountKeys
          (parsed.instructions.filter fun ix => !isSeedCreate ix),
        d.recipient = sampleConfig.pubkeyB58 ∨ ∀ P : Point, b58encode P.encode ≠ d.recipient := by
  obtain ⟨members, txBytes, parsed, hpayload, htx, hparse, hpays⟩ :=
    debits_pay_no_other_key sampleConfig rfl ⟨60, []⟩ []
      (.obj (sampleMembers (ownAtaTx 5000)), 1)
      (by rw [handleSignRequest_sampleMembers]; decide +kernel)
  obtain rfl := Json.obj.inj hpayload
  obtain rfl := Except.ok.inj ((txBytesOf_sampleMembers _).symm.trans htx)
  refine ⟨parsed, hparse, fun d hd => ?_⟩
  rcases hpays d hd with htip | hself | ⟨-, hkeyless⟩
  · exact absurd htip (Finset.notMem_empty _)
  · exact .inl hself
  · exact .inr hkeyless

end Signer
end AatsSniper
