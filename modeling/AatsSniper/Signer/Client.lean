/-
# The signer client

`SocketSignerClient` of `aats/execution/signer_client.py`, and one call of it to the process of
`aats/execution/signer_process.py`: the request and the response as JSON in frames of a four-byte
length, each side reading the chunks that its socket hands it.

A socket is a `Pipe`: what one side sends reaches the other in order, in any chunks, and may be cut off
anywhere (a closed connection, a timeout of either side; both are `OSError`s).  What is received of a
frame is its payload or an `OSError` (`recvFrame_eq`), and a response that is received is read as
what the process said (`readResponse_members`).
-/

import AatsSniper.Lib.JsonRoundTrip
import AatsSniper.Signer.Answers
import AatsSniper.Venue.Client

namespace AatsSniper
namespace Signer

open Venue (UnsignedTx SignedTx)

/-- A `dict` of strings. -/
def strMembers (members : List (String × String)) : List (CodePoints × Json) :=
  members.map fun m => (codePoints m.1, .str (codePoints m.2))

/-- The request of `sign(unsigned_tx, wallet_id)`. -/
def requestMembers (tx : UnsignedTx) (walletId : String) : List (CodePoints × Json) :=
  strMembers [("wallet_id", walletId), ("tx_b64", tx.serializedB64),
    ("intent_id", tx.clientIntentId), ("intent_kind", tx.intentKind), ("mint", tx.mint)]

/-- `{"signed_b64", "pubkey"}` or `{"error", "reason"}`. -/
def Response.members : Response → List (CodePoints × Json)
  | .signed signedB64 pubkey => strMembers [("signed_b64", signedB64), ("pubkey", pubkey)]
  | .refused error reason => strMembers [("error", error), ("reason", reason.code)]

/-- `json.dumps(members).encode()`. -/
def encode (members : List (CodePoints × Json)) : Bytes :=
  Json.asciiBytes (Json.dumps .default (.obj members))

/-- `struct.pack("!I", len(payload)) + payload`; no bytes where `pack` raises `struct.error`. -/
def frame (payload : Bytes) : Option Bytes :=
  (Bytes.toBytes payload.length 4).map (· ++ payload)

/-- What can leave `sign`: a refusal with the values it was raised with, `struct.error`, what
`json.loads` raises, and what the body of the method and the model `SignedTx` raise on a response that
is not the signer's. -/
inductive ClientError
  | signerRefused (reason message : Json)
  | structError
  | loads (exc : Json.LoadError)
  | notADict
  | keyError
  | runtimeError
  | validationError

/-- A value that is not `None`. -/
def notNull : Json → Option Json
  | .null => none
  | value => some value

/-- `signer_pubkey`, and `_pubkey` after it; `walletPubkey` is the environment variable. -/
def signerPubkey (walletPubkey : String) : Option Json → Except ClientError Json × Option Json
  | some pubkey => (.ok pubkey, some pubkey)
  | none =>
      if walletPubkey = "" then (.error .runtimeError, none)
      else (.ok (.str (codePoints walletPubkey)), some (.str (codePoints walletPubkey)))

/-- A `str` field of a model: text, which holds no surrogates. -/
def strField : Json → Except ClientError String
  | .str s =>
      if ∀ c ∈ s, c.isValidChar then .ok (String.ofList (s.map Char.ofNat))
      else .error .validationError
  | _ => .error .validationError

/-- What `sign` does with a `dict`, and `_pubkey` after it. -/
def readDict (walletPubkey : String) (tx : UnsignedTx) (response : List (CodePoints × Json))
    (cached : Option Json) : Except ClientError SignedTx × Option Json :=
  match Json.get response (codePoints "error") with
  | some error =>
      (.error (.signerRefused
        ((Json.get response (codePoints "reason")).getD (.str (codePoints "signer_error"))) error),
        cached)
  | none =>
      let pubkey := Json.get response (codePoints "pubkey")
      let cached := cached.or (pubkey.bind notNull)
      match Json.get response (codePoints "signed_b64") with
      | none => (.error .keyError, cached)
      | some signedB64 =>
          -- `self.signer_pubkey` is evaluated also where `get` does not need its default
          match signerPubkey walletPubkey cached with
          | (.error exc, cached) => (.error exc, cached)
          | (.ok fallback, cached) =>
              (do
                let serializedB64 ← strField signedB64
                let signerPubkey ← strField (pubkey.getD fallback)
                return { serializedB64, signerPubkey, intentKind := tx.intentKind, mint := tx.mint
                         clientIntentId := tx.clientIntentId }, cached)

/-- What `sign` does with the decoded response. -/
def readResponse (walletPubkey : String) (tx : UnsignedTx) (response : Json)
    (cached : Option Json) : Except ClientError SignedTx × Option Json :=
  match response with
  | .obj members => readDict walletPubkey tx members cached
  | _ => (.error .notADict, cached)

/-- The header and the body of a response. -/
def recvFrame (conn : List Bytes) : Except PyException Bytes := do
  let (header, conn) ← recvExact 4 conn
  let (body, _) ← recvExact (Bytes.beNat header) conn
  return body

/-- The refusal of a call that reached no signer; `detail` is the text of the `OSError`. -/
def unavailable (detail : String) : ClientError :=
  .signerRefused (.str (codePoints "signer_unavailable"))
    (.str (codePoints ("aats-signer socket unreachable: " ++ detail)))

/-- One direction of a socket: the chunks in which the other side's `recv` returns what is sent. -/
structure Pipe where
  chunks : Bytes → List Bytes
  filled : ∀ sent, ∀ chunk ∈ chunks sent, chunk ≠ []
  in_order : ∀ sent, (chunks sent).flatten <+: sent

/-- A call of `sign` by one of the clients: its arguments, the two directions of its connection, the
reading of the signer's clock, and the text of the `OSError` if there is one. -/
structure SignCall where
  client : ℕ
  tx : UnsignedTx
  walletId : String
  request : Pipe
  reply : Pipe
  nowS : ℚ
  detail : String

/-- The process and its clients: the state of the process, whether `serve_forever` still runs, and the
`_pubkey` of each client. -/
structure System (σ : Type) where
  signer : SignerState σ
  alive : Bool := true
  pubkeys : ℕ → Option Json := fun _ => none

/-- What the parties are configured with.  The recursion limit allows an object. -/
structure SystemConfig (σ : Type) where
  signer : SignerConfig
  pricer : Pricer σ
  depthLimit : ℕ
  nests : 1 ≤ depthLimit
  walletPubkey : String

/-- What the process did on one connection. -/
structure Serving (σ : Type) where
  alive : Bool
  sent : Bytes
  answered : Option Response
  state : SignerState σ

/-- What a call did: the request that the process handled with the outcome of the handler, the response
that the process had for it, and what `sign` returned or raised. -/
structure Exchange where
  handled : Option (Request × Except PyException Response)
  answered : Option Response
  result : Except ClientError SignedTx

section Calls

variable {σ : Type} (cfg : SystemConfig σ)

/-- The process on one connection.  `struct.error` is no `OSError`: it leaves the loop, as whatever
else is not caught does. -/
def serveConnection (conn : List Bytes) (nowS : ℚ) (st : SignerState σ) : Serving σ :=
  let served := serveAcceptedConnection cfg.signer cfg.pricer cfg.depthLimit conn nowS st
  match served.1.outcome, served.1.sent with
  | .error _, _ => ⟨false, [], none, served.2⟩
  | .ok _, [] => ⟨true, [], none, served.2⟩
  | .ok _, response :: _ =>
      match frame (encode response.members) with
      | some sent => ⟨true, sent, response, served.2⟩
      | none => ⟨false, [], response, served.2⟩

/-- The request that a connection brings to `handle_sign_request`, with its response. -/
def handledOn (conn : List Bytes) (nowS : ℚ) (st : SignerState σ) :
    Option (Request × Except PyException Response) :=
  match recvFrame conn with
  | .error _ => none
  | .ok body =>
      if maxFrameBytes < body.length then none
      else
        match Json.loads cfg.depthLimit body with
        | .error _ => none
        | .ok payload =>
            some ((payload, nowS), (handleSignRequest cfg.signer cfg.pricer payload nowS st).1)

/-- `sign(unsigned_tx, wallet_id)` from the response frame on. -/
def readReply (call : SignCall) (conn : List Bytes) (cached : Option Json) :
    Except ClientError SignedTx × Option Json :=
  match recvFrame conn with
  | .error _ => (.error (unavailable call.detail), cached)
  | .ok body =>
      match Json.loads cfg.depthLimit body with
      | .error exc => (.error (.loads exc), cached)
      | .ok response => readResponse cfg.walletPubkey call.tx response cached

/-- `SocketSignerClient.sign(unsigned_tx, wallet_id)`. -/
def callSigner (sys : System σ) (call : SignCall) : Exchange × System σ :=
  match frame (encode (requestMembers call.tx call.walletId)) with
  | none => (⟨none, none, .error .structError⟩, sys)
  | some sent =>
      if sys.alive then
        let conn := call.request.chunks sent
        let served := serveConnection cfg conn call.nowS sys.signer
        let read := readReply cfg call (call.reply.chunks served.sent) (sys.pubkeys call.client)
        (⟨handledOn cfg conn call.nowS sys.signer, served.answered, read.1⟩,
          { signer := served.state, alive := served.alive
            pubkeys := Function.update sys.pubkeys call.client read.2 })
      else (⟨none, none, .error (unavailable call.detail)⟩, sys)

end Calls

/-- A text passes through JSON. -/
theorem strField_codePoints (s : String) : strField (.str (codePoints s)) = .ok s := by
  have htext : (codePoints s).map Char.ofNat = s.toList := by
    rw [codePoints, List.map_map]
    refine (List.map_congr_left fun c _ => ?_).trans (List.map_id _)
    exact Char.ofNat_toNat c
  rw [strField, if_pos fun c hc => Json.isValidChar_of_mem_codePoints hc, htext, String.ofList_toList]

/-- The messages of both sides are read back. -/
theorem loads_encode {depthLimit : ℕ} (hdepth : 1 ≤ depthLimit) (members : List (String × String)) :
    Json.loads depthLimit (encode (strMembers members)) = .ok (.obj (strMembers members)) := by
  obtain ⟨depth, rfl⟩ := Nat.exists_eq_add_of_le' hdepth
  refine Json.loads_dumps (.obj (fun m hm => ?_) fun m hm => ?_)
  · obtain ⟨m, -, rfl⟩ := List.mem_map.1 hm
    exact Json.whole_codePoints m.1
  · obtain ⟨m, -, rfl⟩ := List.mem_map.1 hm
    exact .str (Json.whole_codePoints m.2)

/-- What `sign` makes of a response. -/
def resultOf (tx : UnsignedTx) : Response → Except ClientError SignedTx
  | .signed signedB64 pubkey =>
      .ok { serializedB64 := signedB64, signerPubkey := pubkey, intentKind := tx.intentKind
            mint := tx.mint, clientIntentId := tx.clientIntentId }
  | .refused error reason =>
      .error (.signerRefused (.str (codePoints reason.code)) (.str (codePoints error)))

theorem Response.members_eq (response : Response) :
    ∃ members, response.members = strMembers members := by
  cases response with
  | signed signedB64 pubkey => exact ⟨_, rfl⟩
  | refused error reason => exact ⟨_, rfl⟩

/-- The keys of the messages are different. -/
theorem keys_ne : codePoints "error" ≠ codePoints "reason" ∧
    codePoints "error" ≠ codePoints "signed_b64" ∧ codePoints "error" ≠ codePoints "pubkey" ∧
    codePoints "signed_b64" ≠ codePoints "pubkey" := by decide

/-- The two members of a message. -/
theorem get_strMembers_pair {key other : String} (h : codePoints key ≠ codePoints other)
    (value otherValue : String) :
    Json.get (strMembers [(key, value), (other, otherValue)]) (codePoints key) =
        some (.str (codePoints value)) ∧
      Json.get (strMembers [(key, value), (other, otherValue)]) (codePoints other) =
        some (.str (codePoints otherValue)) := by
  have hne : (codePoints other == codePoints key) = false := beq_eq_false_iff_ne.2 h.symm
  constructor
  · simp [Json.get, strMembers, hne]
  · simp [Json.get, strMembers]

/-- A response of the process is read as what it says. -/
theorem readResponse_members (walletPubkey : String) (tx : UnsignedTx) (response : Response)
    (cached : Option Json) :
    (readResponse walletPubkey tx (.obj response.members) cached).1 = resultOf tx response := by
  obtain ⟨hreason, hsignedKey, hpubkeyKey, hkeys⟩ := keys_ne
  cases response with
  | refused error reason =>
      obtain ⟨herror, hcode⟩ := get_strMembers_pair hreason error reason.code
      simp only [readResponse, readDict, Response.members, herror, hcode, Option.getD_some, resultOf]
  | signed signedB64 pubkey =>
      obtain ⟨hsigned, hpubkey⟩ := get_strMembers_pair hkeys signedB64 pubkey
      have herror : Json.get (strMembers [("signed_b64", signedB64), ("pubkey", pubkey)])
          (codePoints "error") = none := by
        have h₁ : (codePoints "pubkey" == codePoints "error") = false :=
          beq_eq_false_iff_ne.2 hpubkeyKey.symm
        have h₂ : (codePoints "signed_b64" == codePoints "error") = false :=
          beq_eq_false_iff_ne.2 hsignedKey.symm
        simp [Json.get, strMembers, h₁, h₂]
      obtain ⟨known, hknown⟩ : ∃ known,
          cached.or (some (.str (codePoints pubkey))) = some known := by
        cases cached with
        | none => exact ⟨_, rfl⟩
        | some known => exact ⟨known, rfl⟩
      have hnotNull : (some (Json.str (codePoints pubkey))).bind notNull =
          some (.str (codePoints pubkey)) := rfl
      simp only [readResponse, readDict, Response.members, herror, hsigned, hpubkey, hnotNull, hknown,
        signerPubkey, Option.getD_some, strField_codePoints]
      rfl

theorem frame_eq_some {payload sent : Bytes} (h : frame payload = some sent) :
    payload.length < 256 ^ 4 ∧ sent = (Bytes.leBytes 4 payload.length).reverse ++ payload := by
  unfold frame Bytes.toBytes at h
  split_ifs at h with hlen
  · exact ⟨hlen, (Option.some.inj h).symm⟩
  · cases h

theorem frame_isSome {payload : Bytes} (h : payload.length < 256 ^ 4) : (frame payload).isSome := by
  unfold frame Bytes.toBytes
  rw [if_pos h]
  rfl

/-- A stream that ends too soon. -/
theorem recvExact_short : ∀ (n : ℕ) (conn : List Bytes), (∀ chunk ∈ conn, chunk ≠ []) →
    conn.flatten.length < n → recvExact n conn = .error .osError
  | 0, _, _, h => absurd h (Nat.not_lt_zero _)
  | n + 1, [], _, _ => rfl
  | n + 1, chunk :: conn, hconn, h => by
      obtain ⟨hchunk, hconn⟩ := List.forall_mem_cons.1 hconn
      rw [List.flatten_cons, List.length_append] at h
      have hpos : 0 < chunk.length := List.length_pos_iff.2 hchunk
      have hrest := recvExact_short (n + 1 - chunk.length) conn hconn (by omega)
      unfold recvExact
      rw [if_neg hchunk, if_neg (by omega), hrest]
      rfl
termination_by n => n

/-- Either the header is read, or the stream has no four bytes. -/
theorem recv_header {payload sent : Bytes} (hframe : frame payload = some sent) {conn : List Bytes}
    (hconn : ∀ chunk ∈ conn, chunk ≠ []) (hcarried : conn.flatten <+: sent) :
    recvExact 4 conn = .error .osError ∧ conn.flatten ≠ sent ∨
      ∃ header rest, recvExact 4 conn = .ok (header, rest) ∧ Bytes.beNat header = payload.length ∧
        (∀ chunk ∈ rest, chunk ≠ []) ∧ rest.flatten <+: payload ∧
        (rest.flatten = payload ↔ conn.flatten = sent) := by
  obtain ⟨hlen, rfl⟩ := frame_eq_some hframe
  have hvalue : Bytes.beNat (Bytes.leBytes 4 payload.length).reverse = payload.length := by
    rw [Bytes.beNat, List.reverse_reverse, Bytes.leNat_leBytes, Nat.mod_eq_of_lt hlen]
  have hheader : (Bytes.leBytes 4 payload.length).reverse.length = 4 := by simp
  generalize (Bytes.leBytes 4 payload.length).reverse = header at hcarried hvalue hheader
  rcases lt_or_ge conn.flatten.length 4 with hshort | hfour
  · refine .inl ⟨recvExact_short 4 conn hconn hshort, fun heq => ?_⟩
    rw [heq, List.length_append] at hshort
    omega
  · obtain ⟨rest, hrest, hflatten, hfilled⟩ := recvExact_eq_ok 4 conn hconn hfour
    obtain ⟨more, hmore⟩ := hcarried
    have hsplit : conn.flatten = header ++ rest.flatten := by
      have htake : conn.flatten.take 4 = header := by
        have := congrArg (List.take 4) hmore
        rwa [List.take_append_of_le_length hfour, ← hheader, List.take_left, hheader] at this
      rw [hflatten, ← htake, List.take_append_drop]
    rw [hsplit, List.append_assoc] at hmore
    refine .inr ⟨header, rest, ?_, hvalue, hfilled, ⟨more, List.append_cancel_left hmore⟩, ?_⟩
    · rw [hrest, hsplit, ← hheader, List.take_left]
    · rw [hsplit]
      exact (List.append_right_inj header).symm

/-- **What is received of a frame.**  Its payload if the whole frame arrived, in whatever chunks;
otherwise an `OSError`. -/
theorem recvFrame_eq {payload sent : Bytes} (hframe : frame payload = some sent)
    {conn : List Bytes} (hconn : ∀ chunk ∈ conn, chunk ≠ []) (hcarried : conn.flatten <+: sent) :
    recvFrame conn = if conn.flatten = sent then .ok payload else .error .osError := by
  unfold recvFrame
  rcases recv_header hframe hconn hcarried with ⟨herror, hne⟩ |
    ⟨header, rest, hheader, hvalue, hfilled, hbody, hwhole⟩
  · rw [herror, if_neg hne]
    rfl
  · rw [hheader]
    simp only [bind, Except.bind, hvalue]
    by_cases hsent : conn.flatten = sent
    · obtain ⟨more, hmore, -, -⟩ := recvExact_eq_ok payload.length rest hfilled
        (by rw [hwhole.2 hsent])
      rw [hmore, if_pos hsent, hwhole.2 hsent, List.take_length]
      rfl
    · have hshort : rest.flatten.length < payload.length := by
        refine lt_of_le_of_ne hbody.length_le fun heq => hsent (hwhole.1 ?_)
        exact hbody.eq_of_length heq
      rw [recvExact_short _ rest hfilled hshort, if_neg hsent]

end Signer
end AatsSniper
