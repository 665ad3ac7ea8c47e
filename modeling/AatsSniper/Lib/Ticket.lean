/-
# Tickets that are spent once

A machine issues tickets and holds them until they are spent or lost.  A turn of it is a `Turn`: it
issues one ticket at most, or spends one at most of those it holds, and may lose any.
`accounted_run` is what follows for a run of any length: what was spent and what is still held are
among the tickets that were issued, each as often as it was issued and no more.
-/

import Mathlib.Data.List.Perm.Basic

namespace AatsSniper
namespace Ticket

variable {α σ ι : Type}

/-- What was spent and what is held was issued, each no more often than that. -/
def Accounted (spent held issued : List α) : Prop := (spent ++ held).Subperm issued

/-- One turn: the ticket it issues, the one it spends, and what is held before it and after. -/
inductive Turn : Option α → Option α → List α → List α → Prop
  | issue {a : α} {held held' : List α} (h : held'.Subperm (a :: held)) :
      Turn (some a) none held held'
  | spend {a : α} {held held' : List α} (h : (a :: held').Subperm held) :
      Turn none (some a) held held'
  | lose {held held' : List α} (h : held'.Subperm held) : Turn none none held held'

/-- **A turn keeps the account.** -/
theorem Accounted.turn {spent held held' issued : List α} {new used : Option α}
    (h : Accounted spent held issued) (hturn : Turn new used held held') :
    Accounted (spent ++ used.toList) held' (issued ++ new.toList) := by
  unfold Accounted at h ⊢
  cases hturn with
  | @issue a _ _ hheld =>
      have hmoved : (spent ++ a :: held).Subperm (issued ++ [a]) := by
        refine List.perm_middle.subperm.trans ?_
        exact ((List.subperm_cons a).2 h).trans (List.perm_append_singleton a issued).symm.subperm
      rw [show spent ++ (none : Option α).toList = spent from List.append_nil spent]
      exact ((List.subperm_append_left spent).2 hheld).trans hmoved
  | @spend a _ _ hheld =>
      rw [show issued ++ (none : Option α).toList = issued from List.append_nil issued,
        List.append_assoc]
      exact ((List.subperm_append_left spent).2 hheld).trans h
  | lose hheld =>
      rw [show issued ++ (none : Option α).toList = issued from List.append_nil issued,
        show spent ++ (none : Option α).toList = spent from List.append_nil spent]
      exact ((List.subperm_append_left spent).2 hheld).trans h

/-- What a run puts out, one for each input. -/
def outputs {β : Type} (next : σ → ι → σ) (out : σ → ι → β) (s : σ) : List ι → List β
  | [] => []
  | i :: inputs => out s i :: outputs next out (next s i) inputs

/-- What is read off each output. -/
theorem map_outputs {β γ : Type} (next : σ → ι → σ) (out : σ → ι → β) (f : β → γ) (s : σ)
    (inputs : List ι) :
    (outputs next out s inputs).map f = outputs next (fun s i => f (out s i)) s inputs := by
  induction inputs generalizing s with
  | nil => rfl
  | cons i inputs ih => exact congrArg (f (out s i) :: ·) (ih (next s i))

/-- One input more. -/
theorem outputs_snoc {β : Type} (next : σ → ι → σ) (out : σ → ι → β) (s : σ) (inputs : List ι)
    (i : ι) : outputs next out s (inputs ++ [i]) =
      outputs next out s inputs ++ [out (inputs.foldl next s) i] := by
  induction inputs generalizing s with
  | nil => rfl
  | cons first inputs ih => exact congrArg (out s first :: ·) (ih (next s first))

/-- What holds of each output. -/
theorem forall_outputs {β : Type} {next : σ → ι → σ} {out : σ → ι → β} {P : ι → β → Prop}
    (h : ∀ s i, P i (out s i)) (s : σ) (inputs : List ι) :
    List.Forall₂ P inputs (outputs next out s inputs) := by
  induction inputs generalizing s with
  | nil => exact .nil
  | cons i inputs ih => exact .cons (h s i) (ih (next s i))

section Runs

variable {next : σ → ι → σ} {held : σ → List α} {issued spent : σ → ι → Option α}

theorem accounted_outputs
    (hturn : ∀ s i, Turn (issued s i) (spent s i) (held s) (held (next s i))) (s : σ)
    (inputs : List ι) {before beforeIssued : List α} (h : Accounted before (held s) beforeIssued) :
    Accounted (before ++ (outputs next spent s inputs).filterMap id)
      (held (inputs.foldl next s)) (beforeIssued ++ (outputs next issued s inputs).filterMap id) := by
  induction inputs generalizing s before beforeIssued with
  | nil =>
      show Accounted (before ++ []) (held s) (beforeIssued ++ [])
      rw [List.append_nil, List.append_nil]
      exact h
  | cons i inputs ih =>
      have hrest := ih (next s i) (h.turn (hturn s i))
      have hcons : ∀ out : σ → ι → Option α, (outputs next out s (i :: inputs)).filterMap id =
          (out s i).toList ++ (outputs next out (next s i) inputs).filterMap id := by
        intro out
        show (out s i :: _).filterMap id = _
        cases out s i with
        | none => rfl
        | some a => rfl
      rw [hcons, hcons, ← List.append_assoc, ← List.append_assoc]
      exact hrest

/-- **Every run keeps the account**, from a machine that holds nothing. -/
theorem accounted_run
    (hturn : ∀ s i, Turn (issued s i) (spent s i) (held s) (held (next s i))) {s : σ}
    (hempty : held s = []) (inputs : List ι) :
    Accounted ((outputs next spent s inputs).filterMap id) (held (inputs.foldl next s))
      ((outputs next issued s inputs).filterMap id) := by
  have hstart : Accounted [] (held s) [] := by
    rw [hempty]
    exact List.Subperm.refl []
  exact accounted_outputs hturn s inputs hstart

/-- What was spent was issued. -/
theorem Accounted.spent_subperm {spent held issued : List α} (h : Accounted spent held issued) :
    spent.Subperm issued :=
  (List.sublist_append_left spent held).subperm.trans h

end Runs

end Ticket
end AatsSniper
