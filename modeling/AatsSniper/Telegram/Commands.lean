/-
# The operator's command bot

`TelegramCommandHandler` of `aats/telegram/commands.py`, with `is_operator` of
`aats/telegram/command_config.py`.  A `Message` is an update with what the handler draws while it
serves it: the two readings of the clock, in seconds, and the nonce of `secrets.token_hex`.  The
calls of the client are recorded; what the client answers only goes into the text of the reply.

A prompt is a ticket: `handled_turn` says that an update issues one, spends one or loses some, and
`commands_confirmed` what follows for any updates of any senders.
-/

import AatsSniper.Lib.PyValue
import AatsSniper.Lib.Table
import AatsSniper.Lib.Ticket

namespace AatsSniper
namespace Telegram

/-- `c.lower()`, of the letters of ASCII and the two that become one; no other becomes a letter of
a verb. -/
def lowerChar (c : ℕ) : CodePoints :=
  if 65 ≤ c ∧ c ≤ 90 then [c + 32]
  else if c = 0x212A then [107]
  else if c = 0x130 then [105, 0x307]
  else [c]

/-- `_parse_command(text)`. -/
def parseCommand (text : CodePoints) : Option (CodePoints × Option CodePoints) :=
  match PyText.strip text with
  | 47 :: rest =>
      let line := rest.dropWhile PyText.isSpace
      if line = [] then none
      else
        let word := (line.takeWhile fun c => !PyText.isSpace c).flatMap lowerChar
        let arg := PyText.strip (line.dropWhile fun c => !PyText.isSpace c)
        some (word.takeWhile fun c => decide (c ≠ 64), if arg = [] then none else some arg)
  | _ => none

/-- `_CONFIRM_REQUIRED`. -/
inductive ConfirmCommand
  | kill
  | flatten
  deriving DecidableEq

/-- The calls of `ControlPlaneClient`. -/
inductive ClientCall
  | getStatus
  | kill
  | flattenMint (mint : CodePoints)
  | pause
  deriving DecidableEq

/-- The calls that need a confirmation. -/
def ClientCall.destructive : ClientCall → Bool
  | .kill => true
  | .flattenMint _ => true
  | _ => false

/-- `_PendingConfirm`. -/
structure PendingConfirm where
  nonce : CodePoints
  userId : ℤ
  command : ConfirmCommand
  arg : Option CodePoints
  createdAt : ℚ
  deriving DecidableEq

/-- What is called when it is confirmed. -/
def PendingConfirm.call (p : PendingConfirm) : ClientCall :=
  match p.command with
  | .kill => .kill
  | .flatten => .flattenMint (p.arg.getD [])

/-- `_pending`, by nonce, in the order of insertion. -/
abbrev Pending := Table PendingConfirm.nonce

/-- `_MAX_PENDING_CONFIRMS`. -/
def maxPendingConfirms : ℕ := 64

/-- `TelegramCommandConfig`, of what the handler reads, and its `confirm_ttl_s`. -/
structure CommandConfig where
  operatorUserIds : List ℤ
  confirmTtlS : ℚ := 60

/-- An update: its sender and its text where it has them, and what the handler draws for it. -/
structure Message where
  sender : Option ℤ
  text : Option CodePoints
  evictAt : ℚ
  now : ℚ
  nonce : CodePoints

/-- The texts of the replies. -/
inductive ReplyText
  | empty
  | unknownCommand
  | flattenUsage
  | confirmRequired (command : ConfirmCommand) (arg : Option CodePoints) (nonce : CodePoints)
  | confirmUsage
  | tokenInvalid
  | tokenNotYours
  | tokenExpired
  | answered (call : ClientCall)
  deriving DecidableEq

/-- `CommandReply`. -/
structure CommandReply where
  text : ReplyText
  fired : Bool
  authorized : Bool
  confirmNonce : Option CodePoints := none
  deriving DecidableEq

/-- What an update comes to: the reply, what is pending afterwards, the prompt that was issued, the
one that was confirmed, and the call of the client. -/
structure Handled where
  reply : Option CommandReply
  pending : Pending
  issued : Option PendingConfirm := none
  spent : Option PendingConfirm := none
  call : Option ClientCall := none

section Handler

variable (cfg : CommandConfig)

/-- `_evict_expired()`. -/
def evictExpired (pending : Pending) (now : ℚ) : Pending where
  rows := pending.rows.filter fun p => decide (now - p.createdAt ≤ cfg.confirmTtlS)
  distinct := (List.filter_sublist.map _).nodup pending.distinct

/-- The oldest are dropped over the bound. -/
def capped (pending : Pending) : Pending where
  rows := pending.rows.drop (pending.rows.length - maxPendingConfirms)
  distinct := ((List.drop_sublist _ _).map _).nodup pending.distinct

/-- `_issue_confirm(user_id, command, arg)`. -/
def issueConfirm (pending : Pending) (msg : Message) (userId : ℤ) (command : ConfirmCommand)
    (arg : Option CodePoints) : Handled :=
  let p : PendingConfirm := ⟨msg.nonce, userId, command, arg, msg.now⟩
  { reply := some
      { text := .confirmRequired command arg msg.nonce
        fired := false
        authorized := true
        confirmNonce := some msg.nonce }
    pending := capped ((evictExpired cfg pending msg.evictAt).upsert p)
    issued := some p }

/-- A reply that changes nothing more. -/
def refuse (pending : Pending) (text : ReplyText) : Handled where
  reply := some { text := text, fired := false, authorized := true }
  pending := pending

/-- A call of the client. -/
def fire (pending : Pending) (call : ClientCall) : Handled where
  reply := some { text := .answered call, fired := true, authorized := true }
  pending := pending
  call := some call

/-- `_handle_confirm(user_id, nonce)`. -/
def handleConfirm (pending : Pending) (msg : Message) (userId : ℤ) (nonce : Option CodePoints) :
    Handled :=
  let live := evictExpired cfg pending msg.evictAt
  match nonce with
  | none => refuse live .confirmUsage
  | some nonce =>
      match live.get? nonce with
      | none => refuse live .tokenInvalid
      | some p =>
          if p.userId ≠ userId then refuse live .tokenNotYours
          else if cfg.confirmTtlS < msg.now - p.createdAt then
            refuse (live.remove nonce) .tokenExpired
          else { fire (live.remove nonce) p.call with spent := some p }

/-- `_dispatch(user_id, verb, arg)`, of a known command, and the reply to any other. -/
def dispatch (pending : Pending) (msg : Message) (userId : ℤ) (verb : CodePoints)
    (arg : Option CodePoints) : Handled :=
  if verb = codePoints "status" then fire pending .getStatus
  else if verb = codePoints "pause" then fire pending .pause
  else if verb = codePoints "kill" then issueConfirm cfg pending msg userId .kill arg
  else if verb = codePoints "flatten" then
    if arg = none then refuse pending .flattenUsage
    else issueConfirm cfg pending msg userId .flatten arg
  else refuse pending .unknownCommand

/-- `handle_update(update)`. -/
def handleUpdate (pending : Pending) (msg : Message) : Handled :=
  match msg.text.filter fun text => decide (PyText.strip text ≠ []) with
  | none => { reply := none, pending := pending }
  | some text =>
      match msg.sender.filter fun userId => decide (userId ∈ cfg.operatorUserIds) with
      | none =>
          { reply := some { text := .empty, fired := false, authorized := false }
            pending := pending }
      | some userId =>
          match parseCommand text with
          | none => { reply := none, pending := pending }
          | some (verb, arg) =>
              if verb = codePoints "confirm" then handleConfirm cfg pending msg userId arg
              else dispatch cfg pending msg userId verb arg

/-- What an update is allowed to do: it issues a prompt of its sender or spends one in time, and it
calls what it spends, or nothing that needs a confirmation; and all of it only for an operator. -/
structure Handled.Sound (msg : Message) (h : Handled) : Prop where
  operator : h.call ≠ none ∨ h.issued ≠ none → ∃ userId ∈ cfg.operatorUserIds,
    msg.sender = some userId
  prompted : ∀ p, h.issued = some p → msg.sender = some p.userId ∧ p.createdAt = msg.now ∧
    h.call = none
  confirmed : ∀ p, h.spent = some p → msg.sender = some p.userId ∧
    msg.now - p.createdAt ≤ cfg.confirmTtlS ∧ h.call = some p.call
  spends : ∀ call, h.call = some call → call.destructive = true → h.spent ≠ none

variable {cfg} {pending : Pending} {msg : Message} {userId : ℤ}

/-- An update without a call. -/
theorem Handled.Sound.quiet {h : Handled} (hcall : h.call = none) (hissued : h.issued = none)
    (hspent : h.spent = none) : h.Sound cfg msg where
  operator hany := absurd hany (by simp [hcall, hissued])
  prompted p hp := by
    rw [hissued] at hp
    cases hp
  confirmed p hp := by
    rw [hspent] at hp
    cases hp
  spends call hc := by
    rw [hcall] at hc
    cases hc

/-- A call that needs no confirmation. -/
theorem sound_fire {call : ClientCall} (hsender : msg.sender = some userId)
    (hoperator : userId ∈ cfg.operatorUserIds) (hharmless : call.destructive = false) :
    (fire pending call).Sound cfg msg where
  operator _ := ⟨userId, hoperator, hsender⟩
  prompted _ hp := by cases hp
  confirmed _ hp := by cases hp
  spends call' hcall hdestructive := by
    obtain rfl := Option.some.inj hcall
    rw [hharmless] at hdestructive
    cases hdestructive

theorem sound_issueConfirm {command : ConfirmCommand} {arg : Option CodePoints}
    (hsender : msg.sender = some userId) (hoperator : userId ∈ cfg.operatorUserIds) :
    (issueConfirm cfg pending msg userId command arg).Sound cfg msg where
  operator _ := ⟨userId, hoperator, hsender⟩
  prompted p hp := by
    obtain rfl := Option.some.inj hp
    exact ⟨hsender, rfl, rfl⟩
  confirmed _ hp := by cases hp
  spends _ hcall := by cases hcall

theorem sound_handleConfirm {nonce : Option CodePoints} (hsender : msg.sender = some userId)
    (hoperator : userId ∈ cfg.operatorUserIds) :
    (handleConfirm cfg pending msg userId nonce).Sound cfg msg := by
  unfold handleConfirm
  dsimp only
  split
  · exact .quiet rfl rfl rfl
  · split
    · exact .quiet rfl rfl rfl
    · rename_i p _
      split_ifs with huser hexpired
      · exact .quiet rfl rfl rfl
      · exact .quiet rfl rfl rfl
      · obtain rfl : p.userId = userId := not_not.1 huser
        refine ⟨fun _ => ⟨p.userId, hoperator, hsender⟩, fun _ hp => ?_, fun p' hp => ?_,
          fun _ _ _ => Option.some_ne_none p⟩
        · cases hp
        · obtain rfl := Option.some.inj hp
          exact ⟨hsender, not_lt.1 hexpired, rfl⟩

/-- **An update** does only what it is allowed to. -/
theorem sound_handleUpdate (cfg : CommandConfig) (pending : Pending) (msg : Message) :
    (handleUpdate cfg pending msg).Sound cfg msg := by
  unfold handleUpdate
  split
  · exact .quiet rfl rfl rfl
  · split
    · exact .quiet rfl rfl rfl
    · rename_i userId hsender
      obtain ⟨hsender, hoperator⟩ := Option.filter_eq_some_iff.1 hsender
      have hoperator : userId ∈ cfg.operatorUserIds := of_decide_eq_true hoperator
      split
      · exact .quiet rfl rfl rfl
      · split_ifs
        · exact sound_handleConfirm hsender hoperator
        · unfold dispatch
          split_ifs
          · exact sound_fire hsender hoperator rfl
          · exact sound_fire hsender hoperator rfl
          · exact sound_issueConfirm hsender hoperator
          · exact .quiet rfl rfl rfl
          · exact sound_issueConfirm hsender hoperator
          · exact .quiet rfl rfl rfl

open Ticket (Turn outputs accounted_run)

theorem evictExpired_sublist (cfg : CommandConfig) (pending : Pending) (now : ℚ) :
    (evictExpired cfg pending now).rows.Sublist pending.rows :=
  List.filter_sublist

theorem turn_issueConfirm {command : ConfirmCommand} {arg : Option CodePoints} :
    Turn (issueConfirm cfg pending msg userId command arg).issued none pending.rows
      (issueConfirm cfg pending msg userId command arg).pending.rows := by
  refine .issue ?_
  let live := evictExpired cfg pending msg.evictAt
  let p : PendingConfirm := ⟨msg.nonce, userId, command, arg, msg.now⟩
  have hcapped : (capped (live.upsert p)).rows.Subperm (live.upsert p).rows :=
    (List.drop_sublist _ _).subperm
  have hothers : (live.remove p.nonce).rows.Subperm pending.rows :=
    (List.filter_sublist.trans (evictExpired_sublist cfg pending msg.evictAt)).subperm
  exact (hcapped.trans (live.upsert_perm p).subperm).trans ((List.subperm_cons p).2 hothers)

theorem turn_handleConfirm {nonce : Option CodePoints} :
    Turn (handleConfirm cfg pending msg userId nonce).issued
      (handleConfirm cfg pending msg userId nonce).spent pending.rows
      (handleConfirm cfg pending msg userId nonce).pending.rows := by
  have hlive := evictExpired_sublist cfg pending msg.evictAt
  unfold handleConfirm
  dsimp only
  split
  · exact .lose hlive.subperm
  · split
    · exact .lose hlive.subperm
    · rename_i p hfound
      obtain ⟨hp, rfl⟩ := Table.mem_of_get? hfound
      have hremoved : ((evictExpired cfg pending msg.evictAt).remove p.nonce).rows.Sublist
          (evictExpired cfg pending msg.evictAt).rows := List.filter_sublist
      split_ifs
      · exact .lose hlive.subperm
      · exact .lose (hremoved.trans hlive).subperm
      · have hperm := Table.perm_cons_filter (evictExpired cfg pending msg.evictAt).distinct hp
        exact .spend (hperm.symm.subperm.trans hlive.subperm)

/-- **An update is a turn**: it issues a prompt, spends one, or loses some. -/
theorem handled_turn (cfg : CommandConfig) (pending : Pending) (msg : Message) :
    Turn (handleUpdate cfg pending msg).issued (handleUpdate cfg pending msg).spent pending.rows
      (handleUpdate cfg pending msg).pending.rows := by
  have hsame : Turn (none : Option PendingConfirm) none pending.rows pending.rows :=
    .lose (List.Subperm.refl _)
  unfold handleUpdate
  split
  · exact hsame
  · split
    · exact hsame
    · split
      · exact hsame
      · split_ifs
        · exact turn_handleConfirm
        · unfold dispatch
          split_ifs
          · exact hsame
          · exact hsame
          · exact turn_issueConfirm
          · exact hsame
          · exact turn_issueConfirm
          · exact hsame

/-- What is pending after an update. -/
def nextPending (cfg : CommandConfig) (pending : Pending) (msg : Message) : Pending :=
  (handleUpdate cfg pending msg).pending

/-- Every update of a run, from a handler with nothing pending. -/
def handledAll (cfg : CommandConfig) (messages : List Message) : List Handled :=
  outputs (nextPending cfg) (handleUpdate cfg) Table.empty messages

/-- **Nothing is killed or flattened that was not prompted for and confirmed.**  In any run of updates
of any senders: only operators issue prompts and have the client called; each call that needs a
confirmation spends the prompt of the same sender for it, in time; and the prompts that are spent are
among those that were issued, each no more often. -/
theorem commands_confirmed (cfg : CommandConfig) (messages : List Message) :
    List.Forall₂ (fun msg h => h.Sound cfg msg) messages (handledAll cfg messages) ∧
      ((handledAll cfg messages).filterMap Handled.spent).Subperm
        ((handledAll cfg messages).filterMap Handled.issued) := by
  refine ⟨Ticket.forall_outputs (sound_handleUpdate cfg) Table.empty messages, ?_⟩
  let read (f : Handled → Option PendingConfirm) : List PendingConfirm :=
    (outputs (nextPending cfg) (fun pending msg => f (handleUpdate cfg pending msg)) Table.empty
      messages).filterMap id
  have haccounted : Ticket.Accounted (read Handled.spent)
      (messages.foldl (nextPending cfg) Table.empty).rows (read Handled.issued) :=
    accounted_run (handled_turn cfg) rfl messages
  have hread : ∀ f, (handledAll cfg messages).filterMap f = read f := by
    intro f
    show _ = (outputs (nextPending cfg) (fun pending msg => f (handleUpdate cfg pending msg))
      Table.empty messages).filterMap id
    rw [← Ticket.map_outputs (nextPending cfg) (handleUpdate cfg) f, List.filterMap_map]
    rfl
  rw [hread, hread]
  exact haccounted.spent_subperm

/-- A prompt that is confirmed twice fires once. -/
example :
    let say (text : String) (now : ℚ) : Message :=
      { sender := some 7, text := some (codePoints text), evictAt := now, now := now, nonce := [97] }
    (handledAll { operatorUserIds := [7] } [say "/kill" 0, say "/confirm a" 5, say "/confirm a" 6]
      ).filterMap Handled.call = [.kill] := by
  decide +kernel

end Handler

end Telegram
end AatsSniper
