/-
# Signing over the socket

Calls of `SocketSignerClient.sign`, by any clients, over connections that may break anywhere.

A call whose connection holds does what `handle_sign_request` does with its request
(`remote_sign_eq_local`).  In a run of calls the process does what it would do if it were handed the
requests that arrived whole, one after the other; no client is told anything the process did not say,
except that the signer is unavailable; and no call ends the process, short of a response of four
gigabytes (`calls_refine_run`).  So the caps of the policy bound what the clients hold signed
(`handed_within_caps`): a signature whose reply is lost counts against the caps, and never for more than
one.
-/

import AatsSniper.Signer.Client
import AatsSniper.Signer.Velocity

namespace AatsSniper
namespace Signer

open Venue (UnsignedTx SignedTx)

/-! ### One call -/

/-- The frame of the response can be packed. -/
def Response.fits (response : Response) : Bool := (frame (encode response.members)).isSome

variable {σ : Type} {cfg : SystemConfig σ}

/-- The frame that is sent for a response, or nothing where it cannot be packed. -/
theorem serveConnection_of_sent {conn : List Bytes} {nowS : ℚ} {st st' : SignerState σ}
    {response : Response}
    (h : serveOneConnection cfg.signer cfg.pricer cfg.depthLimit conn nowS st =
      (⟨.ok (), [response]⟩, st')) :
    serveConnection cfg conn nowS st =
      ⟨response.fits, (frame (encode response.members)).getD [], response, st'⟩ := by
  unfold serveConnection serveAcceptedConnection Response.fits
  rw [h, if_neg (by simp)]
  dsimp only
  cases frame (encode response.members) <;> rfl

/-- A connection that is cut off is logged. -/
theorem serveConnection_of_osError {conn : List Bytes} {nowS : ℚ} {st : SignerState σ}
    (h : serveOneConnection cfg.signer cfg.pricer cfg.depthLimit conn nowS st =
      (⟨.error .osError, []⟩, st)) :
    serveConnection cfg conn nowS st = ⟨true, [], none, st⟩ := by
  unfold serveConnection serveAcceptedConnection
  rw [h, if_pos rfl]

/-- A call whose reply is not cut off reads the response. -/
theorem readReply_whole (cfg : SystemConfig σ) {call : SignCall} {response : Response} {sent : Bytes}
    (hframe : frame (encode response.members) = some sent)
    (hwhole : (call.reply.chunks sent).flatten = sent) (cached : Option Json) :
    (readReply cfg call (call.reply.chunks sent) cached).1 = resultOf call.tx response := by
  have hrecv := recvFrame_eq hframe (call.reply.filled sent) (call.reply.in_order sent)
  obtain ⟨members, hmembers⟩ := response.members_eq
  have hloads : Json.loads cfg.depthLimit (encode response.members) = .ok (.obj response.members) := by
    rw [hmembers]
    exact loads_encode cfg.nests members
  rw [readReply, hrecv, if_pos hwhole]
  simp only [hloads]
  exact readResponse_members _ _ _ _

/-- What a client reads of a response: what it says, or that the signer is unavailable. -/
def Reads (call : SignCall) (response : Response) (result : Except ClientError SignedTx) : Prop :=
  result = .error (unavailable call.detail) ∨
    response.fits = true ∧ result = resultOf call.tx response

/-- Nothing is read where nothing was sent. -/
theorem readReply_nil (call : SignCall) (cached : Option Json) :
    readReply cfg call (call.reply.chunks []) cached = (.error (unavailable call.detail), cached) := by
  have hnil : (call.reply.chunks []).flatten = [] := List.prefix_nil.1 (call.reply.in_order [])
  have hshort := recvExact_short 4 (call.reply.chunks []) (call.reply.filled [])
    (by rw [hnil]; decide)
  have hrecv : recvFrame (call.reply.chunks []) = .error .osError := by
    rw [recvFrame, hshort]
    rfl
  rw [readReply, hrecv]

theorem readReply_sent (cfg : SystemConfig σ) (call : SignCall) (response : Response) (cached : Option Json) :
    Reads call response (readReply cfg call
      (call.reply.chunks ((frame (encode response.members)).getD [])) cached).1 := by
  cases hframe : frame (encode response.members) with
  | none => exact .inl (by rw [Option.getD_none, readReply_nil])
  | some sent =>
      rw [Option.getD_some]
      by_cases hwhole : (call.reply.chunks sent).flatten = sent
      · refine .inr ⟨?_, readReply_whole cfg hframe hwhole cached⟩
        rw [Response.fits, hframe]
        rfl
      · left
        have hrecv := recvFrame_eq hframe (call.reply.filled sent) (call.reply.in_order sent)
        rw [readReply, hrecv, if_neg hwhole]

/-- The process on the whole frame of a request: the handler's response, and its state. -/
theorem serveOneConnection_whole (cfg : SystemConfig σ) {conn : List Bytes}
    {members : List (CodePoints × Json)} {sent : Bytes}
    (hload : Json.loads cfg.depthLimit (encode members) = .ok (.obj members))
    (hframe : frame (encode members) = some sent) (hconn : ∀ chunk ∈ conn, chunk ≠ [])
    (hwhole : conn.flatten = sent) (hfits : (encode members).length ≤ maxFrameBytes)
    (nowS : ℚ) (st : SignerState σ) :
    let handled := handleSignDict cfg.signer cfg.pricer members nowS st
    serveOneConnection cfg.signer cfg.pricer cfg.depthLimit conn nowS st =
      (⟨.ok (), [handled.1]⟩, handled.2) := by
  intro handled
  obtain ⟨-, hsent⟩ := frame_eq_some hframe
  have hsends : Sends conn (encode members) :=
    ⟨hconn, [], by rw [hwhole, hsent, List.append_nil]⟩
  have hpayload : loadPayload cfg.depthLimit (encode members) = .ok (some (.obj members)) := by
    rw [loadPayload, hload]
  rw [serveOneConnection_eq _ _ _ hsends hfits, serveBody, hpayload]
  rfl

/-- The process on a frame that is cut off, or too large: an `OSError`, or the refusal that is sent
without reading the body. -/
theorem serveOneConnection_cut (cfg : SystemConfig σ) {conn : List Bytes} {payload sent : Bytes}
    (hframe : frame payload = some sent) (hconn : ∀ chunk ∈ conn, chunk ≠ [])
    (hcarried : conn.flatten <+: sent) (hcut : ¬ (conn.flatten = sent ∧ payload.length ≤ maxFrameBytes))
    (nowS : ℚ) (st : SignerState σ) :
    serveOneConnection cfg.signer cfg.pricer cfg.depthLimit conn nowS st = (⟨.error .osError, []⟩, st) ∨
      ∃ error, serveOneConnection cfg.signer cfg.pricer cfg.depthLimit conn nowS st =
        (⟨.ok (), [.refused error .frameTooLarge]⟩, st) := by
  unfold serveOneConnection
  rcases recv_header hframe hconn hcarried with ⟨herror, -⟩ |
    ⟨header, rest, hheader, hvalue, hfilled, hbody, hwhole⟩
  · rw [herror]
    exact .inl rfl
  · rw [hheader]
    simp only [hvalue]
    by_cases hlarge : maxFrameBytes < payload.length
    · rw [if_pos hlarge]
      exact .inr ⟨_, rfl⟩
    · left
      have hne : rest.flatten ≠ payload := fun heq => hcut ⟨hwhole.1 heq, not_lt.1 hlarge⟩
      have hshort : rest.flatten.length < payload.length :=
        lt_of_le_of_ne hbody.length_le fun heq => hne (hbody.eq_of_length heq)
      rw [if_neg hlarge, recvExact_short _ rest hfilled hshort]

/-- The request is handled when all of it arrived and it is not too large. -/
theorem handledOn_eq {conn : List Bytes} {members : List (CodePoints × Json)} {sent : Bytes}
    (hload : Json.loads cfg.depthLimit (encode members) = .ok (.obj members))
    (hframe : frame (encode members) = some sent) (hconn : ∀ chunk ∈ conn, chunk ≠ [])
    (hcarried : conn.flatten <+: sent) (nowS : ℚ) (st : SignerState σ) :
    handledOn cfg conn nowS st =
      if conn.flatten = sent ∧ (encode members).length ≤ maxFrameBytes then
        some ((.obj members, nowS),
          .ok (handleSignDict cfg.signer cfg.pricer members nowS st).1)
      else none := by
  unfold handledOn
  rw [recvFrame_eq hframe hconn hcarried]
  by_cases hwhole : conn.flatten = sent
  · rw [if_pos hwhole]
    by_cases hfits : (encode members).length ≤ maxFrameBytes
    · simp only [if_neg (not_lt.2 hfits), hload]
      rw [if_pos ⟨hwhole, hfits⟩]
      rfl
    · simp only [if_pos (not_le.1 hfits)]
      rw [if_neg fun h => hfits h.2]
  · rw [if_neg hwhole, if_neg fun h => hwhole h.1]

/-- What a call can do: nothing at the process, and it is told the signer is unavailable or its own
frame cannot be packed; the refusal of a frame that is too large; or what the handler does. -/
inductive Did (cfg : SystemConfig σ) (sys : System σ) (call : SignCall) :
    Exchange × System σ → Prop
  | nothing {exc : ClientError} (hexc : exc = .structError ∨ exc = unavailable call.detail) :
      Did cfg sys call (⟨none, none, .error exc⟩, sys)
  | tooLarge (error : String) {result : Except ClientError SignedTx} {pubkeys : ℕ → Option Json}
      (hresult : Reads call (.refused error .frameTooLarge) result) :
      Did cfg sys call (⟨none, some (.refused error .frameTooLarge), result⟩,
        { sys with alive := (Response.refused error .frameTooLarge).fits, pubkeys := pubkeys })
  | handled {result : Except ClientError SignedTx} {pubkeys : ℕ → Option Json}
      {handled : Response × SignerState σ}
      (hhandled : handled = handleSignDict cfg.signer cfg.pricer
        (requestMembers call.tx call.walletId) call.nowS sys.signer)
      (hresult : Reads call handled.1 result) :
      Did cfg sys call
        (⟨some ((.obj (requestMembers call.tx call.walletId), call.nowS), .ok handled.1),
            some handled.1, result⟩,
          { signer := handled.2, alive := handled.1.fits, pubkeys := pubkeys })

/-- **One call.** -/
theorem did_callSigner (cfg : SystemConfig σ) (sys : System σ) (call : SignCall) :
    Did cfg sys call (callSigner cfg sys call) := by
  unfold callSigner
  cases hframe : frame (encode (requestMembers call.tx call.walletId)) with
  | none => exact .nothing (.inl rfl)
  | some sent =>
      dsimp only
      split_ifs with halive
      · have hconn := call.request.filled sent
        have hcarried := call.request.in_order sent
        have hload : Json.loads cfg.depthLimit (encode (requestMembers call.tx call.walletId)) =
            .ok (.obj (requestMembers call.tx call.walletId)) := loads_encode cfg.nests _
        rw [handledOn_eq hload hframe hconn hcarried]
        by_cases hwhole : (call.request.chunks sent).flatten = sent ∧
            (encode (requestMembers call.tx call.walletId)).length ≤ maxFrameBytes
        · have hserve := serveConnection_of_sent (serveOneConnection_whole cfg hload hframe hconn
            hwhole.1 hwhole.2 call.nowS sys.signer)
          rw [if_pos hwhole, hserve]
          generalize hhandled : handleSignDict cfg.signer cfg.pricer
            (requestMembers call.tx call.walletId) call.nowS sys.signer = handled
          exact .handled hhandled.symm (readReply_sent cfg call handled.1 _)
        · rw [if_neg hwhole]
          rcases serveOneConnection_cut cfg hframe hconn hcarried hwhole call.nowS
            sys.signer with hcut | ⟨error, hlarge⟩
          · rw [serveConnection_of_osError hcut]
            dsimp only
            rw [readReply_nil, Function.update_eq_self, ← halive]
            exact .nothing (.inr rfl)
          · have hread := readReply_sent cfg call (.refused error .frameTooLarge)
              (sys.pubkeys call.client)
            rw [serveConnection_of_sent hlarge]
            dsimp only
            exact .tooLarge error hread
      · exact .nothing (.inr rfl)

/-- Nothing is cut off. -/
def Pipe.Whole (pipe : Pipe) : Prop := ∀ sent, (pipe.chunks sent).flatten = sent

/-- A request that arrives whole is handled, and its response is read where nothing of it is cut
off. -/
theorem callSigner_arrived {sys : System σ} {call : SignCall} {response : Response}
    {st : SignerState σ} (halive : sys.alive = true) (hrequest : call.request.Whole)
    (hsize : (encode (requestMembers call.tx call.walletId)).length ≤ maxFrameBytes)
    (hresponse : handleSignDict cfg.signer cfg.pricer (requestMembers call.tx call.walletId)
      call.nowS sys.signer = (response, st)) (hfits : response.fits = true) :
    (callSigner cfg sys call).1.handled =
        some ((.obj (requestMembers call.tx call.walletId), call.nowS), .ok response) ∧
      (callSigner cfg sys call).2.signer = st ∧ (callSigner cfg sys call).2.alive = true ∧
      (call.reply.Whole → (callSigner cfg sys call).1.result = resultOf call.tx response) := by
  have hlen : (encode (requestMembers call.tx call.walletId)).length < 256 ^ 4 :=
    lt_of_le_of_lt hsize (by decide)
  obtain ⟨sent, hframe⟩ := Option.isSome_iff_exists.1 (frame_isSome hlen)
  obtain ⟨replied, hreplied⟩ : ∃ replied, frame (encode response.members) = some replied :=
    Option.isSome_iff_exists.1 hfits
  have hload : Json.loads cfg.depthLimit (encode (requestMembers call.tx call.walletId)) =
      .ok (.obj (requestMembers call.tx call.walletId)) := loads_encode cfg.nests _
  have hserve := serveConnection_of_sent (serveOneConnection_whole cfg hload hframe
    (call.request.filled sent) (hrequest sent) hsize call.nowS sys.signer)
  have hhandled := handledOn_eq hload hframe (call.request.filled sent) (call.request.in_order sent)
    call.nowS sys.signer
  rw [if_pos ⟨hrequest sent, hsize⟩, hresponse] at hhandled
  rw [hresponse, hreplied, Option.getD_some, hfits] at hserve
  unfold callSigner
  rw [hframe]
  dsimp only
  rw [if_pos halive, hserve]
  exact ⟨hhandled, rfl, rfl, fun hreply =>
    readReply_whole cfg hreplied (hreply replied) (sys.pubkeys call.client)⟩

/-- **A remote call is a local one.**  Over a connection that holds, in whatever chunks, to a process
that runs: for a request of at most a frame and a response that can be packed in one, `sign` returns
or raises what `handle_sign_request` answers to the members of the request, and leaves the process in
the state that the handler leaves it in. -/
theorem remote_sign_eq_local (cfg : SystemConfig σ) (sys : System σ) (call : SignCall)
    (halive : sys.alive = true) (hrequest : call.request.Whole) (hreply : call.reply.Whole)
    (hsize : (encode (requestMembers call.tx call.walletId)).length ≤ maxFrameBytes)
    (hfits : (handleSignDict cfg.signer cfg.pricer (requestMembers call.tx call.walletId) call.nowS
      sys.signer).1.fits = true) :
    let handled := handleSignDict cfg.signer cfg.pricer (requestMembers call.tx call.walletId)
      call.nowS sys.signer
    (callSigner cfg sys call).1.result = resultOf call.tx handled.1 ∧
      (callSigner cfg sys call).2.signer = handled.2 ∧ (callSigner cfg sys call).2.alive = true := by
  intro handled
  obtain ⟨-, hstate, hrunning, hresult⟩ := callSigner_arrived halive hrequest hsize rfl hfits
  exact ⟨hresult hreply, hstate, hrunning⟩

/-- A pipe that carries one byte at a time. -/
def bytewise : Pipe where
  chunks := fun sent => sent.map fun b => [b]
  filled := by
    intro sent chunk hchunk
    obtain ⟨b, -, rfl⟩ := List.mem_map.1 hchunk
    exact List.cons_ne_nil b []
  in_order := by
    intro sent
    rw [← List.flatMap_def, List.flatMap_singleton']

/-- A pipe that carries nothing. -/
def severed : Pipe where
  chunks := fun _ => []
  filled := fun _ _ h => absurd h List.not_mem_nil
  in_order := fun _ => List.nil_prefix

theorem bytewise_whole : bytewise.Whole := by
  intro sent
  show (sent.map fun b => [b]).flatten = sent
  rw [← List.flatMap_def, List.flatMap_singleton']

/-- A request for a transaction of which the handler knows the bytes. -/
theorem handleSignDict_requestMembers {pricer : Pricer σ} {signer : SignerConfig} {tx : UnsignedTx}
    {walletId : String} {txBytes : Bytes} (htx : tx.serializedB64 = Base64.b64encode txBytes)
    (hid : signer.expectedWalletId = none) (nowS : ℚ) (st : SignerState σ) :
    handleSignDict signer pricer (requestMembers tx walletId) nowS st =
      policeAndSign signer pricer txBytes nowS st := by
  have hwallet : walletIdMatches signer (requestMembers tx walletId) = true := by
    rw [walletIdMatches, hid]
  have hget : Json.get (requestMembers tx walletId) (codePoints "tx_b64") =
      some (.str (codePoints tx.serializedB64)) := by
    have hkeys : codePoints "mint" ≠ codePoints "tx_b64" ∧
        codePoints "intent_kind" ≠ codePoints "tx_b64" ∧
          codePoints "intent_id" ≠ codePoints "tx_b64" := by decide
    simp [requestMembers, strMembers, Json.get, hkeys]
  have hbytes : txBytesOf (requestMembers tx walletId) = .ok txBytes := by
    rw [txBytesOf, hget, htx]
    dsimp only
    rw [Base64.b64decode_b64encode]
  rw [handleSignDict, if_pos hwallet, hbytes]

/-- What is answered to a transaction that is signed. -/
theorem policeAndSign_of_signed {pricer : Pricer σ} {signer : SignerConfig} {txBytes signed : Bytes}
    {nowS : ℚ} {st : SignerState σ}
    (hsigned : isSigned (.ok (policeAndSign signer pricer txBytes nowS st).1) = true)
    (hbytes : (signTransaction txBytes signer.signMessage).1 = .ok signed) :
    (policeAndSign signer pricer txBytes nowS st).1 =
      .signed (Base64.b64encode signed) signer.pubkeyB58 := by
  unfold policeAndSign at hsigned ⊢
  split at hsigned
  · cases hsigned
  · cases hsign : signTransaction txBytes signer.signMessage with
    | mk result messages =>
        rw [hsign] at hbytes
        subst hbytes
        rfl

/-- A transfer of the sample wallet to itself. -/
def selfTransferTx (lamports : ℕ) : Bytes :=
  let data := [2, 0, 0, 0] ++ Bytes.leBytes 8 lamports
  sampleTx [List.replicate 32 0] [[1] ++ [2, 0, 0] ++ [UInt8.ofNat data.length] ++ data]

/-- The same transaction, signed by the sample signer. -/
def signedSelfTransfer (lamports : ℕ) : Bytes :=
  let message := (selfTransferTx lamports).drop 65
  [1] ++ sampleConfig.signMessage message ++ message

theorem signTransaction_selfTransfer :
    (signTransaction (selfTransferTx 5000) sampleConfig.signMessage).1 =
      .ok (signedSelfTransfer 5000) := by
  decide +kernel

/-- The process on the caches of its `Enforcer`. -/
def cachedProcess (cfg : SignerConfig) (depthLimit : ℕ) (nests : 1 ≤ depthLimit)
    (walletPubkey : String) : SystemConfig Caches :=
  { signer := cfg, pricer := parseAndPrice cfg.solders cfg.policy, depthLimit, nests, walletPubkey }

/-- The process of the sample signer. -/
def sampleProcess : SystemConfig Caches := cachedProcess sampleConfig 1000 (by decide) ""

/-- What it answers to the transfer. -/
def sampleResponse : Response :=
  .signed (Base64.b64encode (signedSelfTransfer 5000)) sampleConfig.pubkeyB58

/-- A client asks for the signature of a transfer of 5000 lamports, over a connection that carries
the request one byte at a time. -/
def sampleCall (reply : Pipe) (nowS : ℚ) : SignCall where
  client := 0
  tx := { serializedB64 := Base64.b64encode (selfTransferTx 5000), intentKind := "ENTRY"
          mint := "m", clientIntentId := "i" }
  walletId := "wallet-0"
  request := bytewise
  reply := reply
  nowS := nowS
  detail := "timed out"

theorem sampleCall_size (reply : Pipe) (nowS : ℚ) :
    (encode (requestMembers (sampleCall reply nowS).tx (sampleCall reply nowS).walletId)).length ≤
      maxFrameBytes := by
  simp only [sampleCall, requestMembers, strMembers, Base64.b64encode, List.map_cons,
    codePoints_ofList]
  decide +kernel

theorem sampleResponse_fits : sampleResponse.fits = true := by
  have hlength : (encode sampleResponse.members).length < 256 ^ 4 := by
    simp only [Response.members, sampleResponse, strMembers, sampleConfig, Base64.b64encode,
      List.map_cons, codePoints_ofList]
    decide +kernel
  rw [Response.fits]
  exact frame_isSome hlength

/-- What the process does with the request wherever it signs. -/
theorem handled_sampleCall {reply : Pipe} {nowS : ℚ} {st : SignerState Caches}
    (hsigned : isSigned (.ok (policeAndSign sampleConfig sampleProcess.pricer (selfTransferTx 5000)
      nowS st).1) = true) :
    handleSignDict sampleProcess.signer sampleProcess.pricer
        (requestMembers (sampleCall reply nowS).tx (sampleCall reply nowS).walletId)
        (sampleCall reply nowS).nowS st =
      (sampleResponse, (policeAndSign sampleConfig sampleProcess.pricer (selfTransferTx 5000)
        nowS st).2) := by
  have htx : (sampleCall reply nowS).tx.serializedB64 =
      Base64.b64encode (selfTransferTx 5000) := by rw [sampleCall]
  have hid : sampleProcess.signer.expectedWalletId = none := rfl
  have hnow : (sampleCall reply nowS).nowS = nowS := rfl
  rw [handleSignDict_requestMembers htx hid, hnow]
  exact Prod.ext (policeAndSign_of_signed hsigned signTransaction_selfTransfer) rfl

/-- The signed transfer comes back byte by byte. -/
theorem remote_sign_eq_local_sample :
    (callSigner sampleProcess { signer := booted ⟨60, []⟩ } (sampleCall bytewise 1)).1.result =
      .ok { serializedB64 := Base64.b64encode (signedSelfTransfer 5000)
            signerPubkey := sampleConfig.pubkeyB58
            intentKind := "ENTRY", mint := "m", clientIntentId := "i" } := by
  have hhandled := @handled_sampleCall bytewise 1 (booted ⟨60, []⟩) (by decide +kernel)
  have hfits : (handleSignDict sampleProcess.signer sampleProcess.pricer
      (requestMembers (sampleCall bytewise 1).tx (sampleCall bytewise 1).walletId)
      (sampleCall bytewise 1).nowS (booted ⟨60, []⟩)).1.fits = true := by
    rw [hhandled]
    exact sampleResponse_fits
  obtain ⟨hresult, -, -⟩ := remote_sign_eq_local sampleProcess { signer := booted ⟨60, []⟩ }
    (sampleCall bytewise 1) rfl bytewise_whole bytewise_whole (sampleCall_size bytewise 1) hfits
  rw [hresult, hhandled]
  simp only [resultOf, sampleResponse, sampleCall]

/-! ### Runs -/

/-- The calls one after the other: what each did, and the system after them. -/
def callAll (cfg : SystemConfig σ) (sys : System σ) : List SignCall → List Exchange × System σ
  | [] => ([], sys)
  | call :: calls =>
      let called := callSigner cfg sys call
      let later := callAll cfg called.2 calls
      (called.1 :: later.1, later.2)

/-- What is handled is the request of the call, and what the client is told was said: it is handed
nothing that was not signed for its request. -/
structure Exchange.Sound (call : SignCall) (x : Exchange) : Prop where
  handled : ∀ h ∈ x.handled, ∃ response ∈ x.answered,
    h = ((.obj (requestMembers call.tx call.walletId), call.nowS), .ok response)
  told : x.result = .error .structError ∨ x.result = .error (unavailable call.detail) ∨
    ∃ response ∈ x.answered, x.result = resultOf call.tx response
  handed : ∀ tx, x.result = .ok tx → x.handled.isSome = true

/-- What is read is told, and a signature is read of no refusal. -/
theorem Reads.told {call : SignCall} {response : Response} {result : Except ClientError SignedTx}
    (h : Reads call response result) : result = .error .structError ∨
      result = .error (unavailable call.detail) ∨
        ∃ said ∈ some response, result = resultOf call.tx said := by
  rcases h with h | ⟨-, h⟩
  · exact .inr (.inl h)
  · exact .inr (.inr ⟨response, rfl, h⟩)

theorem Did.sound {sys : System σ} {call : SignCall} {out : Exchange × System σ}
    (h : Did cfg sys call out) : out.1.Sound call := by
  cases h with
  | nothing hexc =>
      refine ⟨nofun, ?_, nofun⟩
      rcases hexc with rfl | rfl
      · exact .inl rfl
      · exact .inr (.inl rfl)
  | tooLarge error hresult =>
      refine ⟨nofun, hresult.told, fun tx htx => ?_⟩
      rcases hresult with hread | ⟨-, hread⟩
      · cases hread.symm.trans htx
      · cases hread.symm.trans htx
  | @handled result pubkeys handled hhandled hresult =>
      refine ⟨fun h hh => ⟨handled.1, rfl, ?_⟩, hresult.told, fun _ _ => rfl⟩
      exact (Option.mem_some_iff.1 hh).symm

/-- What a call does to the process: it handles what was handled. -/
theorem Did.run {sys : System σ} {call : SignCall} {out : Exchange × System σ}
    (h : Did cfg sys call out) :
    run cfg.signer cfg.pricer (out.1.handled.toList.map Prod.fst) sys.signer =
      (out.1.handled.toList, out.2.signer) := by
  cases h with
  | nothing => rfl
  | tooLarge => rfl
  | handled hhandled =>
      subst hhandled
      rfl

/-- The process ends over a response that cannot be packed. -/
theorem Did.ends {sys : System σ} {call : SignCall} {out : Exchange × System σ}
    (h : Did cfg sys call out) (halive : sys.alive = true) (hends : out.2.alive = false) :
    ∃ response ∈ out.1.answered, response.fits = false := by
  cases h with
  | nothing => cases halive.symm.trans hends
  | tooLarge error =>
      dsimp only at hends
      exact ⟨_, Option.mem_some_self _, hends⟩
  | handled =>
      dsimp only at hends
      exact ⟨_, Option.mem_some_self _, hends⟩

theorem run_append (cfg : SignerConfig) (pricer : Pricer σ) (requests later : List Request)
    (st : SignerState σ) : Signer.run cfg pricer (requests ++ later) st =
      ((Signer.run cfg pricer requests st).1 ++
          (Signer.run cfg pricer later (Signer.run cfg pricer requests st).2).1,
        (Signer.run cfg pricer later (Signer.run cfg pricer requests st).2).2) := by
  induction requests generalizing st with
  | nil => rfl
  | cons request requests ih =>
      rw [List.cons_append, run, run, ih]
      rfl

/-- Every exchange of a run is sound. -/
theorem callAll_sound (cfg : SystemConfig σ) (sys : System σ) (calls : List SignCall) :
    List.Forall₂ Exchange.Sound calls (callAll cfg sys calls).1 := by
  induction calls generalizing sys with
  | nil => exact .nil
  | cons call calls ih => exact .cons (did_callSigner cfg sys call).sound (ih _)

/-- The process runs on what is handled, by induction on the calls. -/
theorem callAll_run (cfg : SystemConfig σ) (sys : System σ) (calls : List SignCall) :
    let handled := (callAll cfg sys calls).1.filterMap Exchange.handled
    run cfg.signer cfg.pricer (handled.map Prod.fst) sys.signer =
      (handled, (callAll cfg sys calls).2.signer) := by
  induction calls generalizing sys with
  | nil => rfl
  | cons call calls ih =>
      have hcall := (did_callSigner cfg sys call).run
      have hlater := ih (callSigner cfg sys call).2
      rw [callAll]
      dsimp only at hlater ⊢
      have hsplit : ((callSigner cfg sys call).1 ::
            (callAll cfg (callSigner cfg sys call).2 calls).1).filterMap Exchange.handled =
          (callSigner cfg sys call).1.handled.toList ++
            (callAll cfg (callSigner cfg sys call).2 calls).1.filterMap Exchange.handled := by
        cases hhandled : (callSigner cfg sys call).1.handled with
        | none => rw [List.filterMap_cons_none hhandled, Option.toList_none, List.nil_append]
        | some _ => rw [List.filterMap_cons_some hhandled, Option.toList_some, List.singleton_append]
      rw [hsplit, List.map_append, run_append, hcall, hlater]

/-- While every response can be packed the process goes on. -/
theorem callAll_alive {sys : System σ} (halive : sys.alive = true) {calls : List SignCall}
    (hfits : ∀ x ∈ (callAll cfg sys calls).1, ∀ response ∈ x.answered, response.fits = true) :
    (callAll cfg sys calls).2.alive = true := by
  induction calls generalizing sys with
  | nil => exact halive
  | cons call calls ih =>
      obtain ⟨hcall, hlater⟩ := List.forall_mem_cons.1 hfits
      refine ih ?_ hlater
      cases hends : (callSigner cfg sys call).2.alive with
      | true => rfl
      | false =>
          obtain ⟨response, hmem, hunfit⟩ := (did_callSigner cfg sys call).ends halive hends
          cases (hcall response hmem).symm.trans hunfit

/-- **The clients and the process.**  In any run of calls, by any clients, over connections that may
break anywhere: the process does what it does when handed the requests that were handled, in their order;
every client is told what the process said to it, or that the signer is unavailable; and while every
response can be packed the process goes on. -/
theorem calls_refine_run (cfg : SystemConfig σ) (st : SignerState σ) (calls : List SignCall) :
    let out := callAll cfg { signer := st } calls
    List.Forall₂ Exchange.Sound calls out.1 ∧
      run cfg.signer cfg.pricer ((out.1.filterMap Exchange.handled).map Prod.fst) st =
        (out.1.filterMap Exchange.handled, out.2.signer) ∧
      ((∀ x ∈ out.1, ∀ response ∈ x.answered, response.fits = true) → out.2.alive = true) :=
  ⟨callAll_sound cfg _ calls, callAll_run cfg _ calls, callAll_alive rfl⟩

/-! ### The caps -/

/-- A transaction was handed out. -/
def Exchange.isHanded (x : Exchange) : Bool :=
  match x.result with
  | .ok _ => true
  | .error _ => false

theorem isHanded_of_signed {x : Exchange} {tx : UnsignedTx} {signedB64 pubkey : String}
    (h : x.result = resultOf tx (.signed signedB64 pubkey)) : x.isHanded = true := by
  rw [Exchange.isHanded, h]
  rfl

/-- The price of the transaction that a call asks to sign. -/
def SignCall.spend (cfg : SignerConfig) (call : SignCall) : Option ℤ :=
  spendOf cfg (.obj (requestMembers call.tx call.walletId))

/-- What the clients were handed: when it was signed, and its price. -/
def handedOut (cfg : SignerConfig) (calls : List SignCall) (out : List Exchange) : List (ℚ × ℤ) :=
  ((calls.zip out).filter fun p => p.2.isHanded).map fun p => (p.1.nowS, (p.1.spend cfg).getD 0)

/-- A transaction that is handed out was accepted. -/
theorem Exchange.Sound.accepted {call : SignCall} {x : Exchange} (h : x.Sound call)
    (hhanded : x.isHanded = true) : ∃ response,
      x.handled = some ((.obj (requestMembers call.tx call.walletId), call.nowS), .ok response) ∧
        isSigned (.ok response) = true := by
  unfold Exchange.isHanded at hhanded
  cases hresult : x.result with
  | error exc =>
      rw [hresult] at hhanded
      cases hhanded
  | ok tx =>
      obtain ⟨handled, hmem⟩ := Option.isSome_iff_exists.1 (h.handed tx hresult)
      obtain ⟨response, hanswered, rfl⟩ := h.handled handled hmem
      refine ⟨response, hmem, ?_⟩
      rcases h.told with htold | htold | ⟨said, hsaid, htold⟩
      · cases hresult.symm.trans htold
      · cases hresult.symm.trans htold
      · obtain rfl := Option.mem_unique hanswered hsaid
        cases response with
        | signed _ _ => rfl
        | refused _ _ => cases hresult.symm.trans htold

/-- What is handed out is among what is issued. -/
theorem handedOut_sublist (cfg : SignerConfig) {calls : List SignCall} {out : List Exchange}
    (h : List.Forall₂ Exchange.Sound calls out) :
    (handedOut cfg calls out).Sublist (issued cfg (out.filterMap Exchange.handled)) := by
  induction h with
  | nil => exact .slnil
  | @cons call x calls out hsound _ ih =>
      unfold handedOut issued acceptedOf at ih ⊢
      rw [List.zip_cons_cons]
      cases hhanded : x.isHanded with
      | false =>
          rw [List.filter_cons_of_neg (by simp [hhanded])]
          refine ih.trans (((List.Sublist.filterMap Exchange.handled
            (List.sublist_cons_self x out)).filter _).map _)
      | true =>
          obtain ⟨response, hhandled, hsigned⟩ := hsound.accepted hhanded
          rw [List.filter_cons_of_pos (by simpa using hhanded), List.filterMap_cons_some hhandled,
            List.filter_cons_of_pos (by simpa using hsigned), List.map_cons, List.map_cons]
          exact ih.cons_cons _

/-- The requests are handled at the times of their calls, in their order. -/
theorem times_sublist {calls : List SignCall} {out : List Exchange}
    (h : List.Forall₂ Exchange.Sound calls out) :
    ((out.filterMap Exchange.handled).map fun handled => handled.1.2).Sublist
      (calls.map SignCall.nowS) := by
  induction h with
  | nil => exact .slnil
  | @cons call x calls out hsound _ ih =>
      rw [List.map_cons]
      cases hhandled : x.handled with
      | none =>
          rw [List.filterMap_cons_none hhandled]
          exact ih.cons _
      | some handled =>
          obtain ⟨response, -, rfl⟩ := hsound.handled handled hhandled
          rw [List.filterMap_cons_some hhandled, List.map_cons]
          exact ih.cons_cons _

theorem inOrder_handled {calls : List SignCall} {out : List Exchange}
    (h : List.Forall₂ Exchange.Sound calls out) (horder : calls.Pairwise fun c c' => c.nowS ≤ c'.nowS) :
    InOrder ((out.filterMap Exchange.handled).map Prod.fst) := by
  have htimes : (calls.map SignCall.nowS).Pairwise (· ≤ ·) := List.pairwise_map.2 horder
  exact List.pairwise_map.2 (List.pairwise_map.1 (htimes.sublist (times_sublist h)))

/-- **What the clients hold is within the caps.**  From the boot of the process on an empty ledger, over
connections that may break anywhere, with its clock not going back: what the clients were handed is
among what was issued, and in every window of `window_seconds` with a signature in it, all that was
issued, the signatures whose replies were lost included, spends at most the aggregate cap and numbers
at most `max_sign_count`; and so does what was handed out. -/
theorem handed_within_caps (cfg : SignerConfig) (depthLimit : ℕ) (nests : 1 ≤ depthLimit)
    (walletPubkey : String) (hdecoders : DecodersNonneg cfg.policy) (calls : List SignCall)
    (horder : calls.Pairwise fun c c' => c.nowS ≤ c'.nowS) (t : ℝ) :
    let out := callAll (cachedProcess cfg depthLimit nests walletPubkey)
      { signer := booted ⟨cfg.policy.windowSeconds, []⟩ } calls
    let issued := issuedIn cfg t (out.1.filterMap Exchange.handled)
    let handed := Window.within (cfg.policy.windowSeconds : ℝ) t (onReals (handedOut cfg calls out.1))
    (∀ p ∈ calls.zip out.1, p.2.isHanded = true → (p.1.spend cfg).isSome = true) ∧
      handed.Sublist issued ∧
      (issued ≠ [] → (issued.map Prod.snd).sum ≤ cfg.policy.aggregateCapLamports ∧
        (issued.length : ℤ) ≤ cfg.policy.maxSignCount) ∧
      (handed ≠ [] → (handed.map Prod.snd).sum ≤ cfg.policy.aggregateCapLamports ∧
        (handed.length : ℤ) ≤ cfg.policy.maxSignCount) := by
  intro out issued handed
  have hsound : List.Forall₂ Exchange.Sound calls out.1 := callAll_sound _ _ calls
  have hrun : runCached cfg ((out.1.filterMap Exchange.handled).map Prod.fst)
      (booted ⟨cfg.policy.windowSeconds, []⟩) = (out.1.filterMap Exchange.handled, out.2.signer) :=
    callAll_run (cachedProcess cfg depthLimit nests walletPubkey) _ calls
  have hprices : ∀ a ∈ acceptedOf (runCached cfg ((out.1.filterMap Exchange.handled).map Prod.fst)
      (booted ⟨cfg.policy.windowSeconds, []⟩)).1, (spendOf cfg a.1.1).isSome = true :=
    spendOf_isSome_of_accepted _ (Caches.consistent_empty cfg.solders cfg.policy)
  have hcapped := capped_booted hdecoders (inOrder_handled hsound horder)
  rw [hrun] at hprices hcapped
  have hsub : handed.Sublist issued := ((handedOut_sublist cfg hsound).map _).filter _
  have hwithin (hne : issued ≠ []) :
      (issued.map Prod.snd).sum ≤ cfg.policy.aggregateCapLamports ∧
        (issued.length : ℤ) ≤ cfg.policy.maxSignCount := by
    have hcount := hcapped.count t hne
    rw [List.map_const', List.sum_replicate, nsmul_eq_mul, mul_one] at hcount
    exact ⟨hcapped.spend t hne, hcount⟩
  refine ⟨fun p hp hhanded => ?_, hsub, hwithin, fun hne => ?_⟩
  · obtain ⟨response, hhandled, hsigned⟩ := ((List.forall₂_iff_zip.1 hsound).2 hp).accepted hhanded
    have hmem := List.mem_filterMap.2 ⟨p.2, (List.of_mem_zip hp).2, hhandled⟩
    exact hprices _ (List.mem_filter.2 ⟨hmem, hsigned⟩)
  · obtain ⟨hspend, hcount⟩ := hwithin fun hnil => hne (List.sublist_nil.1 (hnil ▸ hsub))
    refine ⟨((hsub.map Prod.snd).sum_le_sum fun spend hmem => ?_).trans hspend,
      (Int.ofNat_le.2 hsub.length_le).trans hcount⟩
    obtain ⟨e, he, rfl⟩ := List.mem_map.1 hmem
    obtain ⟨e', he', rfl⟩ := List.mem_map.1 (List.mem_of_mem_filter he)
    exact hcapped.nonneg e' he'

/-- A client that is sent nothing is handed nothing. -/
theorem not_handed_of_severed (cfg : SystemConfig σ) (sys : System σ) {call : SignCall}
    (hreply : call.reply = severed) : (callSigner cfg sys call).1.isHanded = false := by
  unfold callSigner
  cases frame (encode (requestMembers call.tx call.walletId)) with
  | none => rfl
  | some sent =>
      dsimp only
      split_ifs
      · have hnothing : ∀ sent, call.reply.chunks sent = call.reply.chunks [] := by
          rw [hreply]
          exact fun _ => rfl
        rw [hnothing, readReply_nil]
        rfl
      · rfl

theorem issued_pair {x x' : Exchange} {payload payload' : Json}
    (h : x.handled = some ((payload, 1), .ok sampleResponse))
    (h' : x'.handled = some ((payload', 2), .ok sampleResponse)) :
    (issuedIn sampleConfig 2 ([x, x'].filterMap Exchange.handled)).length = 2 := by
  have hwindow : (sampleConfig.policy.windowSeconds : ℝ) = 60 := rfl
  rw [List.filterMap_cons_some h, List.filterMap_cons_some h', List.filterMap_nil]
  norm_num [issuedIn, issued, acceptedOf, isSigned, sampleResponse, onReals, Window.within, hwindow,
    List.filter]

theorem handed_second {call call' : SignCall} {x x' : Exchange} (hnow : call'.nowS = 2)
    (h : x.isHanded = false) (h' : x'.isHanded = true) :
    (Window.within (60 : ℝ) 2 (onReals (handedOut sampleConfig [call, call'] [x, x']))).length =
      1 := by
  norm_num [handedOut, h, h', onReals, Window.within, List.filter, hnow]

/-- Two calls a second apart, the first of which never hears of its answer: two transfers are issued,
and one is handed out. -/
theorem handed_within_caps_sample :
    let calls := [sampleCall severed 1, sampleCall bytewise 2]
    let out := callAll sampleProcess { signer := booted ⟨60, []⟩ } calls
    let issued := issuedIn sampleConfig 2 (out.1.filterMap Exchange.handled)
    let handed := Window.within (60 : ℝ) 2 (onReals (handedOut sampleConfig calls out.1))
    (issued.length = 2 ∧ handed.length = 1) ∧
      (issued.map Prod.snd).sum ≤ 500000000 ∧ (handed.map Prod.snd).sum ≤ 500000000 := by
  intro calls out issued handed
  obtain ⟨-, -, hissuedCaps, hhandedCaps⟩ := handed_within_caps sampleConfig 1000 (by decide) ""
    (fun _ _ h => by cases h) calls (by simp [calls, sampleCall]) 2
  obtain ⟨hfirst, hstate, halive, -⟩ := @callSigner_arrived _ sampleProcess
    { signer := booted ⟨60, []⟩ } (sampleCall severed 1) _ _ rfl bytewise_whole
    (sampleCall_size severed 1) (handled_sampleCall (by decide +kernel)) sampleResponse_fits
  obtain ⟨hsecond, -, -, hread⟩ := @callSigner_arrived _ sampleProcess
    (callSigner sampleProcess { signer := booted ⟨60, []⟩ } (sampleCall severed 1)).2
    (sampleCall bytewise 2) _ _ halive bytewise_whole (sampleCall_size bytewise 2)
    (handled_sampleCall (by rw [hstate]; decide +kernel)) sampleResponse_fits
  have hissued : issued.length = 2 := issued_pair hfirst hsecond
  have hhanded : handed.length = 1 :=
    handed_second rfl (not_handed_of_severed _ _ rfl) (isHanded_of_signed (hread bytewise_whole))
  refine ⟨⟨hissued, hhanded⟩, (hissuedCaps fun hnil => ?_).1, (hhandedCaps fun hnil => ?_).1⟩
  · exact absurd (hissued.symm.trans (congrArg List.length hnil)) (by decide)
  · exact absurd (hhanded.symm.trans (congrArg List.length hnil)) (by decide)

end Signer
end AatsSniper
