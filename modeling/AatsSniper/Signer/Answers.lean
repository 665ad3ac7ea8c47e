/-
# Which request frames are answered

`_serve_one_connection` catches `JSONDecodeError` and nothing else, and
`handle_sign_request` calls `payload.get` on whatever the body decodes to.  Of
the frames within the size limit it answers those whose body is a JSON object
and those whose body is malformed JSON.  The others raise: a value that is not
an object (`AttributeError`), bytes that are no Unicode text
(`UnicodeDecodeError`), nesting past the recursion limit (`RecursionError`), an
integer past the digit limit (`ValueError`).  None of these is an `OSError`, so
they leave `_serve_accepted_connection` too.
-/

import AatsSniper.Signer.Runs

namespace AatsSniper
namespace Signer

/-- However the stream is cut into chunks, `_recv_exact` returns its first `n` bytes. -/
theorem recvExact_eq_ok : ∀ (n : ℕ) (conn : List Bytes), (∀ chunk ∈ conn, chunk ≠ []) →
    n ≤ conn.flatten.length →
    ∃ rest, recvExact n conn = .ok (conn.flatten.take n, rest) ∧
      rest.flatten = conn.flatten.drop n ∧ ∀ chunk ∈ rest, chunk ≠ []
  | 0, conn, hconn, _ => ⟨conn, by simp [recvExact], by simp, hconn⟩
  | n + 1, [], _, hn => by simp at hn
  | n + 1, chunk :: conn, hconn, hn => by
      obtain ⟨hchunk, hconn⟩ := List.forall_mem_cons.1 hconn
      unfold recvExact
      rw [if_neg hchunk, List.flatten_cons]
      split_ifs with hlong
      · refine ⟨chunk.drop (n + 1) :: conn, ?_, ?_, ?_⟩
        · rw [List.take_append_of_le_length hlong.le]
        · rw [List.flatten_cons, List.drop_append_of_le_length hlong.le]
        · refine List.forall_mem_cons.2 ⟨fun hnil => ?_, hconn⟩
          rw [List.drop_eq_nil_iff] at hnil
          omega
      · rw [List.flatten_cons, List.length_append] at hn
        have hpos : 0 < chunk.length := List.length_pos_iff.2 hchunk
        obtain ⟨rest, hrest, hflatten, hne⟩ :=
          recvExact_eq_ok (n + 1 - chunk.length) conn hconn (by omega)
        refine ⟨rest, ?_, ?_, hne⟩
        · simp only [hrest, bind, Except.bind, pure, Except.pure]
          rw [List.take_append, List.take_of_length_le (not_lt.1 hlong)]
        · rw [hflatten, List.drop_append, List.drop_eq_nil_of_le (not_lt.1 hlong), List.nil_append]
termination_by n => n

/-- A peer that sends a frame: the four-byte length, the body, and maybe more. -/
structure Sends (conn : List Bytes) (body : Bytes) : Prop where
  open_ : ∀ chunk ∈ conn, chunk ≠ []
  frame : ∃ more, conn.flatten = (Bytes.leBytes 4 body.length).reverse ++ body ++ more

/-- The server reads the body back out of a frame. -/
theorem recv_frame {conn : List Bytes} {body : Bytes} (h : Sends conn body)
    (hbody : body.length ≤ maxFrameBytes) :
    ∃ header rest rest', recvExact 4 conn = .ok (header, rest) ∧
      Bytes.beNat header = body.length ∧ recvExact body.length rest = .ok (body, rest') := by
  obtain ⟨hopen, more, hframe⟩ := h
  have hvalue : Bytes.beNat (Bytes.leBytes 4 body.length).reverse = body.length := by
    rw [Bytes.beNat, List.reverse_reverse, Bytes.leNat_leBytes]
    have hsmall : maxFrameBytes < 256 ^ 4 := by decide
    exact Nat.mod_eq_of_lt (by omega)
  have hlength : (Bytes.leBytes 4 body.length).reverse.length = 4 := by simp
  generalize (Bytes.leBytes 4 body.length).reverse = header at hframe hvalue hlength
  obtain ⟨rest, hrest, hflatten, hopen'⟩ :=
    recvExact_eq_ok 4 conn hopen (by rw [hframe]; simp [hlength])
  rw [hframe, List.append_assoc, ← hlength, List.take_left] at hrest
  rw [hframe, List.append_assoc, ← hlength, List.drop_left] at hflatten
  obtain ⟨rest', hrest', -, -⟩ := recvExact_eq_ok body.length rest hopen' (by rw [hflatten]; simp)
  rw [hflatten, List.take_left] at hrest'
  exact ⟨header, rest, rest', hlength ▸ hrest, hvalue, hrest'⟩

variable {σ : Type} (cfg : SignerConfig) (pricer : Pricer σ) (depthLimit : ℕ)

/-- One connection serves the body that was sent. -/
theorem serveOneConnection_eq {conn : List Bytes} {body : Bytes} (h : Sends conn body)
    (hbody : body.length ≤ maxFrameBytes) (nowS : ℚ) (st : SignerState σ) :
    serveOneConnection cfg pricer depthLimit conn nowS st =
      serveBody cfg pricer depthLimit body nowS st := by
  obtain ⟨header, rest, rest', hheader, hlength, hrest⟩ := recv_frame h hbody
  unfold serveOneConnection
  simp only [hheader, hlength, if_neg (not_lt.2 hbody), hrest]

/-- The handler answers a payload exactly when it is an object. -/
theorem handleSignRequest_answers_iff (payload : Json) (nowS : ℚ) (st : SignerState σ) :
    (∃ response, (handleSignRequest cfg pricer payload nowS st).1 = .ok response) ↔
      ∃ members, payload = .obj members := by
  cases payload with
  | obj members => exact ⟨fun _ => ⟨members, rfl⟩, fun _ => ⟨_, rfl⟩⟩
  | null | bool _ | int _ | float _ | str _ | arr _ =>
      constructor
      · rintro ⟨response, h⟩
        cases h
      · rintro ⟨members, h⟩
        cases h

/-- The frame is answered: one response is sent and nothing is raised, the
handler returns for the payload, and nothing escapes to the accept loop. -/
structure Answered (conn : List Bytes) (body : Bytes) (nowS : ℚ) (st : SignerState σ) : Prop where
  returns : (serveOneConnection cfg pricer depthLimit conn nowS st).1.outcome = .ok ()
  one : (serveOneConnection cfg pricer depthLimit conn nowS st).1.sent.length = 1
  handler : ∀ payload, Json.loads depthLimit body = .ok payload →
    ∃ response, (handleSignRequest cfg pricer payload nowS st).1 = .ok response
  survives : (serveAcceptedConnection cfg pricer depthLimit conn nowS st).1.outcome = .ok ()

/-- The body is a JSON object, or `json.loads` reports it as malformed. -/
def ObjectOrMalformed (body : Bytes) : Prop :=
  (∃ members, Json.loads depthLimit body = .ok (.obj members)) ∨
    Json.loads depthLimit body = .error .jsonDecodeError

/-- **Which frames are answered.**  A frame of at most `_MAX_FRAME_BYTES`, in any
chunks and any state of the signer, is answered exactly when its body is a JSON
object or malformed JSON. -/
theorem answered_iff_objectOrMalformed {conn : List Bytes} {body : Bytes} (h : Sends conn body)
    (hbody : body.length ≤ maxFrameBytes) (nowS : ℚ) (st : SignerState σ) :
    Answered cfg pricer depthLimit conn body nowS st ↔ ObjectOrMalformed depthLimit body := by
  have hserve := serveOneConnection_eq cfg pricer depthLimit h hbody nowS st
  constructor
  · intro hanswered
    cases hload : Json.loads depthLimit body with
    | ok payload =>
        have hhandler := hanswered.handler payload hload
        obtain ⟨members, rfl⟩ := (handleSignRequest_answers_iff cfg pricer payload nowS st).1 hhandler
        exact .inl ⟨members, hload⟩
    | error exc =>
        have hreturns := hanswered.returns
        rw [hserve] at hreturns
        cases exc with
        | jsonDecodeError => exact .inr hload
        | unicodeDecodeError | recursionError | valueError | outOfFuel =>
            simp [serveBody, loadPayload, hload] at hreturns
  · rintro (⟨members, hload⟩ | hload)
    · have hload' : loadPayload depthLimit body = .ok (some (.obj members)) := by
        simp [loadPayload, hload]
      simp only [serveBody, hload', handleSignRequest] at hserve
      refine ⟨by rw [hserve], by rw [hserve]; rfl, ?_, ?_⟩
      · intro payload hpayload
        obtain rfl := Except.ok.inj (hload.symm.trans hpayload)
        exact ⟨_, rfl⟩
      · simp [serveAcceptedConnection, hserve]
    · have hload' : loadPayload depthLimit body = .ok none := by
        simp [loadPayload, hload]
      simp only [serveBody, hload'] at hserve
      refine ⟨by rw [hserve], by rw [hserve]; rfl, ?_, ?_⟩
      · intro payload hpayload
        rw [hload] at hpayload
        cases hpayload
      · simp [serveAcceptedConnection, hserve]

/-- The body `{}`, sent in two chunks, is answered. -/
theorem answered_iff_objectOrMalformed_sample :
    Answered sampleConfig (parseAndPrice none samplePolicy) 1000 [[0, 0], [0, 2, 123, 125]]
      [123, 125] 1 (booted ⟨60, []⟩) :=
  (answered_iff_objectOrMalformed sampleConfig (parseAndPrice none samplePolicy) 1000
    ⟨by decide, [], by decide⟩ (by decide) 1 (booted ⟨60, []⟩)).2 (.inl ⟨[], rfl⟩)

/-- The body `[]` is not: the `AttributeError` ends the accept loop. -/
theorem array_body_not_answered :
    Sends [[0, 0, 0, 2, 91, 93]] [91, 93] ∧
      (serveAcceptedConnection sampleConfig (parseAndPrice none samplePolicy) 1000
        [[0, 0, 0, 2, 91, 93]] 1 (booted ⟨60, []⟩)).1.outcome = .error .attributeError ∧
      ¬ Answered sampleConfig (parseAndPrice none samplePolicy) 1000 [[0, 0, 0, 2, 91, 93]]
        [91, 93] 1 (booted ⟨60, []⟩) := by
  have houtcome : (serveAcceptedConnection sampleConfig (parseAndPrice none samplePolicy) 1000
      [[0, 0, 0, 2, 91, 93]] 1 (booted ⟨60, []⟩)).1.outcome = .error .attributeError := by
    decide +kernel
  refine ⟨⟨by decide, [], by decide⟩, houtcome, fun hanswered => ?_⟩
  have hsurvives := hanswered.survives
  rw [houtcome] at hsurvives
  cases hsurvives

end Signer
end AatsSniper
