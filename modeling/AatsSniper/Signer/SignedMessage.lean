/-
# What is signed is what was policed

`parse_transaction` and `sign_transaction` find the end of the signature
section on their own, each from the length prefix of the transaction.
`messageOf` is what the parser goes on to read after it.  `sign_transaction` hands
that message to `sign_message` and overwrites the first slot of the section, which
leaves the prefix and the message alone; so the signed transaction parses as the one
that was policed.
-/

import AatsSniper.Signer.Pricing
import AatsSniper.Signer.Runs
import AatsSniper.Wire.Layout

namespace AatsSniper
namespace Wire

/-- A length prefix is read from its own bytes alone. -/
theorem readCompactU16_eq_ok {buf rest : Bytes} {n : ℕ} (h : readCompactU16 buf = .ok (n, rest)) :
    ∃ pre, buf = pre ++ rest ∧ ∀ rest', readCompactU16 (pre ++ rest') = .ok (n, rest') := by
  obtain ⟨pre, hbuf, hspells, hlength⟩ := readCompactU16_eq_ok_iff.1 h
  exact ⟨pre, hbuf, fun _ => readCompactU16_eq_ok_iff.2 ⟨pre, rfl, hspells, hlength⟩⟩

/-- The message of a transaction: what `parse_transaction` has left after the
signature section. -/
def messageOf (txBytes : Bytes) : Except String Bytes := do
  let (nSigs, buf) ← readCompactU16 txBytes
  let (_, message) ← takeExact (nSigs * 64) "truncated transaction: signatures section" buf
  return message

/-- The parser reads the message and nothing else. -/
theorem parseTransaction_eq (txBytes : Bytes) :
    parseTransaction txBytes = (messageOf txBytes).bind parseMessage := by
  unfold parseTransaction messageOf
  cases readCompactU16 txBytes with
  | error message => rfl
  | ok read =>
      simp only [bind, Except.bind]
      cases takeExact (read.1 * 64) "truncated transaction: signatures section" read.2 with
      | error message => rfl
      | ok taken => rfl

/-- The message of a transaction given by its parts. -/
theorem messageOf_append {pre slots message : Bytes} {nSigs : ℕ}
    (hpre : ∀ rest, readCompactU16 (pre ++ rest) = .ok (nSigs, rest))
    (hslots : slots.length = nSigs * 64) : messageOf (pre ++ slots ++ message) = .ok message := by
  have htake : takeExact (nSigs * 64) "truncated transaction: signatures section"
      (slots ++ message) = .ok (slots, message) := by
    rw [takeExact, if_neg (by simp [hslots]), ← hslots, List.take_left, List.drop_left]
  rw [messageOf, List.append_assoc, hpre]
  simp only [bind, Except.bind, htake]
  rfl

end Wire

namespace Signer

open Wire

theorem exists_append_of_le {buf : Bytes} {n : ℕ} (h : n ≤ buf.length) :
    ∃ front back, buf = front ++ back ∧ front.length = n :=
  ⟨buf.take n, buf.drop n, (List.take_append_drop n buf).symm, List.length_take_of_le h⟩

/-- **What `sign_transaction` does.**  It signs the message the parser reads and
writes the signature over the first slot. -/
theorem signTransaction_eq_ok {txBytes signedBytes : Bytes} {signMessage : Bytes → Bytes}
    {messages : List Bytes} (h : signTransaction txBytes signMessage = (.ok signedBytes, messages)) :
    ∃ (pre slot others message : Bytes) (nSigs : ℕ),
      txBytes = pre ++ slot ++ others ++ message ∧
      (∀ rest, readCompactU16 (pre ++ rest) = .ok (nSigs, rest)) ∧
      slot.length = 64 ∧ (slot ++ others).length = nSigs * 64 ∧
      (signMessage message).length = 64 ∧ messages = [message] ∧
      signedBytes = pre ++ signMessage message ++ others ++ message := by
  unfold signTransaction at h
  rcases hread : readCompactU16 txBytes with exc | ⟨nSigs, rest⟩
  · simp [hread] at h
  · obtain ⟨pre, rfl, hpre⟩ := readCompactU16_eq_ok hread
    have hstart : (pre ++ rest).length - rest.length = pre.length := by simp
    simp only [hread, hstart] at h
    split_ifs at h with hindex htruncated hlength
    · cases h
    · cases h
    · cases h
    · have hroom : nSigs * 64 ≤ rest.length := by
        rw [List.length_append] at htruncated
        omega
      obtain ⟨slots, message, rfl, hslots⟩ := exists_append_of_le hroom
      have hone : 64 ≤ slots.length := by omega
      obtain ⟨slot, others, rfl, hslot⟩ := exists_append_of_le hone
      have hmessage : (pre ++ (slot ++ others ++ message)).drop (pre.length + nSigs * 64) =
          message := by
        rw [List.drop_length_add_append, ← hslots, List.drop_left]
      have htake : (pre ++ (slot ++ others ++ message)).take (pre.length + Int.toNat 0 * 64) =
          pre := by
        simp
      have hdrop : (pre ++ (slot ++ others ++ message)).drop (pre.length + Int.toNat 0 * 64 + 64) =
          others ++ message := by
        rw [Int.toNat_zero, Nat.zero_mul, Nat.add_zero, List.drop_length_add_append,
          List.append_assoc, ← hslot, List.drop_left]
      rw [hmessage] at hlength h
      rw [htake, hdrop] at h
      obtain ⟨hsigned, rfl⟩ := Prod.mk.inj h
      obtain rfl := Except.ok.inj hsigned
      refine ⟨pre, slot, others, message, nSigs, by simp, hpre, hslot, hslots, ?_, rfl, by simp⟩
      exact not_not.1 hlength

/-- A signed response carries what `sign_transaction` returned, and the messages
it signed are logged. -/
theorem handleSignRequest_signed {σ : Type} {cfg : SignerConfig} {pricer : Pricer σ}
    (request : Request) {st : SignerState σ}
    (hsigned : isSigned (handleSignRequest cfg pricer request.1 request.2 st).1 = true) :
    ∃ members txBytes signedBytes messages, request.1 = .obj members ∧
      txBytesOf members = .ok txBytes ∧
      signTransaction txBytes cfg.signMessage = (.ok signedBytes, messages) ∧
      (handleSignRequest cfg pricer request.1 request.2 st).1 =
        .ok (.signed (Base64.b64encode signedBytes) cfg.pubkeyB58) ∧
      (handleSignRequest cfg pricer request.1 request.2 st).2.signedMessages =
        st.signedMessages ++ messages := by
  obtain ⟨payload, nowS⟩ := request
  cases payload with
  | null | bool _ | int _ | float _ | str _ | arr _ => cases hsigned
  | obj members =>
      simp only [handleSignRequest, handleSignDict] at hsigned ⊢
      split_ifs at hsigned ⊢
      · cases htx : txBytesOf members with
        | error message =>
            rw [htx] at hsigned
            cases hsigned
        | ok txBytes =>
            rw [htx] at hsigned
            simp only [policeAndSign] at hsigned ⊢
            rcases henforce : enforce pricer cfg.policy txBytes cfg.pubkeyB58 nowS
              (st.enforcer, st.ledger) with ⟨exc | _, caches, ledger⟩
            · rw [henforce] at hsigned
              cases hsigned
            · rcases hsign : signTransaction txBytes cfg.signMessage with ⟨exc | signedBytes, messages⟩
              · rw [henforce, hsign] at hsigned
                cases hsigned
              · exact ⟨members, txBytes, signedBytes, messages, rfl, htx, hsign, rfl, rfl⟩
      · cases hsigned

/-- **What is signed is what was policed.**  For every signed request, in any state
the process can be in: the transaction is a length prefix, the first signature
slot, the other slots and a message; that message is what `parse_transaction`
reads, what the policy was checked on, and the one message passed to
`sign_message`; the returned bytes have the signature in the first slot, are
otherwise the same, and parse the same. -/
theorem signed_message_is_policed_message (cfg : SignerConfig) (ledger : VelocityLedger)
    (earlier : List Request) (request : Request)
    (hsigned : isSigned (handleSignRequest cfg (parseAndPrice cfg.solders cfg.policy) request.1
      request.2 (runCached cfg earlier (booted ledger)).2).1 = true) :
    let before := (runCached cfg earlier (booted ledger)).2
    let answered := handleSignRequest cfg (parseAndPrice cfg.solders cfg.policy) request.1
      request.2 before
    ∃ (members : List (CodePoints × Json)) (txBytes pre slot others message signedBytes : Bytes)
      (nSigs : ℕ) (parsed : ParsedTx),
      request.1 = .obj members ∧ txBytesOf members = .ok txBytes ∧
      txBytes = pre ++ slot ++ others ++ message ∧
      readCompactU16 txBytes = .ok (nSigs, slot ++ others ++ message) ∧
      slot.length = 64 ∧ (slot ++ others).length = nSigs * 64 ∧
      messageOf txBytes = .ok message ∧ parseMessage message = .ok parsed ∧
      parseTransaction txBytes = .ok parsed ∧
      answered.2.signedMessages = before.signedMessages ++ [message] ∧
      answered.1 = .ok (.signed (Base64.b64encode signedBytes) cfg.pubkeyB58) ∧
      Base64.b64decode (codePoints (Base64.b64encode signedBytes)) = .ok signedBytes ∧
      signedBytes = pre ++ cfg.signMessage message ++ others ++ message ∧
      (cfg.signMessage message).length = 64 ∧
      parseTransaction signedBytes = parseTransaction txBytes := by
  intro before answered
  have hp := parseAndPrice_prices cfg
  have hbefore : Caches.Consistent cfg.solders cfg.policy before.enforcer :=
    run_keeps hp earlier (Caches.consistent_empty cfg.solders cfg.policy)
  obtain ⟨members, txBytes, signedBytes, messages, hpayload, htx, hsign, hresponse, hlog⟩ :=
    handleSignRequest_signed request hsigned
  obtain ⟨members', txBytes', parsed, spend, hpayload', htx', hprice⟩ :=
    exists_priced_of_signed hp request hbefore hsigned
  obtain rfl := Json.obj.inj (hpayload.symm.trans hpayload')
  obtain rfl := Except.ok.inj (htx.symm.trans htx')
  obtain ⟨hparse, -⟩ := priced_eq_ok hprice
  obtain ⟨pre, slot, others, message, nSigs, rfl, hpre, hslot, hslots, hlength, rfl, rfl⟩ :=
    signTransaction_eq_ok hsign
  have hmessage : messageOf (pre ++ slot ++ others ++ message) = .ok message := by
    rw [List.append_assoc pre slot others]
    exact messageOf_append hpre hslots
  have hsigned' : messageOf (pre ++ cfg.signMessage message ++ others ++ message) = .ok message := by
    rw [List.append_assoc pre _ others]
    refine messageOf_append hpre ?_
    rw [← hslots, List.length_append, List.length_append, hlength, hslot]
  refine ⟨members, _, pre, slot, others, message, _, nSigs, parsed, hpayload, htx, rfl, ?_, hslot,
    hslots, hmessage, ?_, hparse, hlog, hresponse, Base64.b64decode_b64encode _, rfl, hlength, ?_⟩
  · have hread := hpre (slot ++ others ++ message)
    simpa only [List.append_assoc] using hread
  · rw [parseTransaction_eq, hmessage] at hparse
    exact hparse
  · rw [parseTransaction_eq, parseTransaction_eq, hmessage, hsigned']

/-- The sample signer signs a transaction. -/
theorem signed_message_is_policed_message_sample :
    ∃ message, messageOf (sampleTx [] []) = .ok message ∧
      (handleSignRequest sampleConfig (parseAndPrice sampleConfig.solders sampleConfig.policy)
        (.obj (sampleMembers (sampleTx [] []))) 1 (booted ⟨60, []⟩)).2.signedMessages =
        [message] := by
  obtain ⟨members, txBytes, _, _, _, message, _, _, _, hpayload, htx, -, -, -, -, hmessage, -, -,
    hlog, -⟩ := signed_message_is_policed_message sampleConfig ⟨60, []⟩ []
      (.obj (sampleMembers (sampleTx [] [])), 1)
      (by rw [handleSignRequest_sampleMembers]; decide +kernel)
  obtain rfl := Json.obj.inj hpayload
  obtain rfl := Except.ok.inj ((txBytesOf_sampleMembers _).symm.trans htx)
  simp only [runCached, run] at hlog
  exact ⟨message, hmessage, hlog⟩

end Signer
end AatsSniper
