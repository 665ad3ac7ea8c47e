/-
# Readers and the writers they invert

A reader takes a value off the front of a byte string and leaves the rest, or raises.
It inverts a writer on the values it can return (`Inverts`) if what it returns was
written there, and what is written is returned whatever follows.

`readMany` is the counted loop over a reader.
-/

import AatsSniper.Lib.Bytes
import AatsSniper.Lib.Except

namespace AatsSniper

variable {ε α : Type}

/-- What is read, and the bytes after it. -/
abbrev Reader (ε α : Type) := Bytes → Except ε (α × Bytes)

/-- The reader returns the values that are `ok`, each where it was written. -/
structure Inverts (read : Reader ε α) (write : α → Bytes) (ok : α → Prop) : Prop where
  sound : ∀ {buf rest : Bytes} {a : α}, read buf = .ok (a, rest) → ok a ∧ buf = write a ++ rest
  complete : ∀ {a : α}, ok a → ∀ rest, read (write a ++ rest) = .ok (a, rest)

/-- `n` readings, one after the other. -/
def readMany (read : Reader ε α) : ℕ → Reader ε (List α)
  | 0, buf => .ok ([], buf)
  | n + 1, buf => do
      let (a, buf) ← read buf
      let (as, buf) ← readMany read n buf
      return (a :: as, buf)

theorem readMany_succ_eq_ok {read : Reader ε α} {n : ℕ} {buf rest : Bytes} {as : List α} :
    readMany read (n + 1) buf = .ok (as, rest) ↔
      ∃ a as' rest', read buf = .ok (a, rest') ∧ readMany read n rest' = .ok (as', rest) ∧
        as = a :: as' := by
  constructor
  · intro h
    obtain ⟨⟨a, rest'⟩, hfirst, h⟩ := ok_of_bind h
    obtain ⟨⟨as', rest''⟩, hothers, h⟩ := ok_of_bind h
    obtain ⟨rfl, rfl⟩ := Prod.mk.inj (Except.ok.inj h)
    exact ⟨a, as', rest', hfirst, hothers, rfl⟩
  · rintro ⟨a, as', rest', hfirst, hothers, rfl⟩
    rw [readMany, bind_of_ok hfirst]
    exact bind_of_ok hothers

/-- **A loop over a reader** inverts the writings put together. -/
theorem Inverts.many {read : Reader ε α} {write : α → Bytes} {ok : α → Prop}
    (h : Inverts read write ok) (n : ℕ) :
    Inverts (readMany read n) (fun as => as.flatMap write)
      (fun as => as.length = n ∧ ∀ a ∈ as, ok a) := by
  refine ⟨fun {buf rest as} hread => ?_, fun {as} hok rest => ?_⟩
  · induction n generalizing buf as with
    | zero =>
        obtain ⟨rfl, rfl⟩ := Prod.mk.inj (Except.ok.inj hread)
        exact ⟨⟨rfl, by simp⟩, rfl⟩
    | succ n ih =>
        obtain ⟨a, as', rest', hfirst, hothers, rfl⟩ := readMany_succ_eq_ok.1 hread
        obtain ⟨ha, rfl⟩ := h.sound hfirst
        obtain ⟨⟨hlength, hall⟩, rfl⟩ := ih hothers
        refine ⟨⟨congrArg Nat.succ hlength, ?_⟩, ?_⟩
        · exact List.forall_mem_cons.2 ⟨ha, hall⟩
        · rw [List.flatMap_cons, List.append_assoc]
  · induction n generalizing as with
    | zero =>
        obtain rfl := List.length_eq_zero_iff.1 hok.1
        rfl
    | succ n ih =>
        obtain ⟨hlength, hall⟩ := hok
        cases as with
        | nil => cases hlength
        | cons a as =>
            obtain ⟨ha, hall⟩ := List.forall_mem_cons.1 hall
            rw [List.flatMap_cons, List.append_assoc]
            exact readMany_succ_eq_ok.2
              ⟨a, as, _, h.complete ha _, ih ⟨Nat.succ.inj hlength, hall⟩, rfl⟩

end AatsSniper
