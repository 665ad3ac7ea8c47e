/-
# Programs that act on the outside

A program reads and changes a state, logs what it does, and returns or raises; what it
did before it raised stays done and logged.  `Act.Keeps T m` says that every run of
`m` goes from its state over its log to the state it leaves along `T`; where `T`
composes, a program keeps it iff its parts do.  `Act.bind_returned` takes a run of a
sequence apart.
-/

import Mathlib.Data.List.Basic

namespace AatsSniper

/-- What a program comes to. -/
structure Outcome (σ ε τ α : Type) where
  result : Except ε α
  state : σ
  log : List τ

/-- A program over states `σ` that raises `ε` and logs `τ`. -/
def Act (σ ε τ α : Type) : Type := σ → Outcome σ ε τ α

namespace Act

variable {σ ε τ α β : Type}

/-- Return a value. -/
def ret (a : α) : Act σ ε τ α := fun s => ⟨.ok a, s, []⟩

/-- Raise. -/
def raise (e : ε) : Act σ ε τ α := fun s => ⟨.error e, s, []⟩

/-- One program after the other. -/
def andThen (m : Act σ ε τ α) (f : α → Act σ ε τ β) : Act σ ε τ β := fun s =>
  match (m s).result with
  | .ok a =>
      let o := f a (m s).state
      ⟨o.result, o.state, (m s).log ++ o.log⟩
  | .error e => ⟨.error e, (m s).state, (m s).log⟩

instance : Monad (Act σ ε τ) where
  pure := ret
  bind := andThen

/-- `try: m except e: h(e)`. -/
def rescue (m : Act σ ε τ α) (h : ε → Act σ ε τ α) : Act σ ε τ α := fun s =>
  match (m s).result with
  | .ok a => ⟨.ok a, (m s).state, (m s).log⟩
  | .error e =>
      let o := h e (m s).state
      ⟨o.result, o.state, (m s).log ++ o.log⟩

/-- A check that may raise. -/
def ofExcept (x : Except ε α) : Act σ ε τ α := fun s => ⟨x, s, []⟩

/-- Read from the state. -/
def gets (f : σ → α) : Act σ ε τ α := fun s => ⟨.ok (f s), s, []⟩

/-- Change the state. -/
def modify (f : σ → σ) : Act σ ε τ Unit := fun s => ⟨.ok (), f s, []⟩

/-- Log an entry. -/
def note (t : τ) : Act σ ε τ Unit := fun s => ⟨.ok (), s, [t]⟩

variable {m : Act σ ε τ α} {f : α → Act σ ε τ β} {s : σ}

theorem gets_bind (g : σ → α) (f : α → Act σ ε τ β) (s : σ) : (gets g >>= f) s = f (g s) s := rfl

theorem bind_ok {a : α} (h : (m s).result = .ok a) :
    (m >>= f) s = ⟨(f a (m s).state).result, (f a (m s).state).state,
      (m s).log ++ (f a (m s).state).log⟩ := by
  show andThen m f s = _
  unfold andThen
  rw [h]

theorem bind_error {e : ε} (h : (m s).result = .error e) :
    (m >>= f) s = ⟨.error e, (m s).state, (m s).log⟩ := by
  show andThen m f s = _
  unfold andThen
  rw [h]

/-- A sequence that returned. -/
theorem bind_returned {b : β} (h : ((m >>= f) s).result = .ok b) :
    ∃ a, (m s).result = .ok a ∧ (f a (m s).state).result = .ok b ∧
      ((m >>= f) s).state = (f a (m s).state).state ∧
      ((m >>= f) s).log = (m s).log ++ (f a (m s).state).log := by
  cases hm : (m s).result with
  | error e =>
      rw [bind_error hm] at h
      cases h
  | ok a =>
      rw [bind_ok hm] at h ⊢
      exact ⟨a, rfl, h, rfl, rfl⟩

theorem rescue_of_ok {h : ε → Act σ ε τ α} {a : α} (hm : (m s).result = .ok a) :
    rescue m h s = ⟨.ok a, (m s).state, (m s).log⟩ := by
  unfold rescue
  rw [hm]

theorem rescue_of_error {h : ε → Act σ ε τ α} {e : ε} (hm : (m s).result = .error e) :
    rescue m h s =
      ⟨(h e (m s).state).result, (h e (m s).state).state, (m s).log ++ (h e (m s).state).log⟩ := by
  unfold rescue
  rw [hm]

/-- Steps that can be made one after the other. -/
structure Composes (T : σ → List τ → σ → Prop) : Prop where
  refl : ∀ s, T s [] s
  trans : ∀ s l₁ s₁ l₂ s₂, T s l₁ s₁ → T s₁ l₂ s₂ → T s (l₁ ++ l₂) s₂

/-- Every run of the program, whether it returns or raises, is a step of `T`. -/
def Keeps (T : σ → List τ → σ → Prop) (m : Act σ ε τ α) : Prop :=
  ∀ s, T s (m s).log (m s).state

section Keeps

variable {T : σ → List τ → σ → Prop}

theorem keeps_pure (hT : Composes T) (a : α) : Keeps T (pure a : Act σ ε τ α) := hT.refl

theorem keeps_raise (hT : Composes T) (e : ε) : Keeps T (raise e : Act σ ε τ α) := hT.refl

theorem keeps_ofExcept (hT : Composes T) (x : Except ε α) :
    Keeps T (ofExcept x : Act σ ε τ α) := hT.refl

theorem keeps_gets (hT : Composes T) (g : σ → α) : Keeps T (gets g : Act σ ε τ α) := hT.refl

/-- **Sequences.** -/
theorem keeps_bind (hT : Composes T) (hm : Keeps T m) (hf : ∀ a, Keeps T (f a)) :
    Keeps T (m >>= f) := by
  intro s
  cases h : (m s).result with
  | error e =>
      rw [bind_error h]
      exact hm s
  | ok a =>
      rw [bind_ok h]
      exact hT.trans _ _ _ _ _ (hm s) (hf a _)

end Keeps

/-- Every run that returns `a` has logged what `P` says of `a`. -/
def Returns (m : Act σ ε τ α) (P : α → List τ → Prop) : Prop :=
  ∀ s a, (m s).result = .ok a → P a (m s).log

theorem returns_pure {P : α → List τ → Prop} {a : α} (h : P a []) :
    Returns (pure a : Act σ ε τ α) P := by
  intro s a' ha
  obtain rfl := Except.ok.inj ha
  exact h

/-- **Sequences.** -/
theorem returns_bind {Q : α → List τ → Prop} {P : β → List τ → Prop} (hm : Returns m Q)
    (hf : ∀ a, Returns (f a) fun b l₂ => ∀ l₁, Q a l₁ → P b (l₁ ++ l₂)) :
    Returns (m >>= f) P := by
  intro s b h
  obtain ⟨a, ha, hb, -, hlog⟩ := bind_returned h
  rw [hlog]
  exact hf a _ b hb _ (hm s a ha)

/-- Sequences whose first program says nothing. -/
theorem returns_bind_of_tail {P : β → List τ → Prop} (hP : ∀ b l₁ l₂, P b l₂ → P b (l₁ ++ l₂))
    (hf : ∀ a, Returns (f a) P) : Returns (m >>= f) P := by
  intro s b h
  obtain ⟨a, -, hb, -, hlog⟩ := bind_returned h
  rw [hlog]
  exact hP b _ _ (hf a _ b hb)

/-- No entry of the log is one of `p`. -/
def Free (p : τ → Prop) (_ : σ) (log : List τ) (_ : σ) : Prop := ∀ t ∈ log, ¬ p t

theorem composes_free (p : τ → Prop) : Composes (Free p : σ → List τ → σ → Prop) where
  refl := fun _ t ht => absurd ht List.not_mem_nil
  trans := by
    intro s l₁ s₁ l₂ s₂ h₁ h₂ t ht
    rcases List.mem_append.1 ht with ht | ht
    · exact h₁ t ht
    · exact h₂ t ht

end Act

section Marked

variable {τ : Type} {p : τ → Prop}

/-- The first marked entry of a list. -/
theorem first_marked {y b : τ} {mid mid' rest after : List τ} (hmid : ∀ t ∈ mid, ¬ p t)
    (hmid' : ∀ t ∈ mid', ¬ p t) (hy : p y) (hb : p b) (h : mid ++ y :: rest = mid' ++ b :: after) :
    mid = mid' ∧ y = b ∧ rest = after := by
  rcases List.append_eq_append_iff.1 h with ⟨as, hmids, hrest⟩ | ⟨as, hmids, hrest⟩
  · cases as with
    | nil =>
        obtain ⟨rfl, rfl⟩ := List.cons.inj hrest
        exact ⟨(hmids.trans (List.append_nil _)).symm, rfl, rfl⟩
    | cons c as =>
        obtain ⟨rfl, -⟩ := List.cons.inj hrest
        refine absurd hy (hmid' y ?_)
        rw [hmids]
        exact List.mem_append_right _ List.mem_cons_self
  · cases as with
    | nil =>
        obtain ⟨rfl, rfl⟩ := List.cons.inj hrest
        exact ⟨hmids.trans (List.append_nil _), rfl, rfl⟩
    | cons c as =>
        obtain ⟨rfl, -⟩ := List.cons.inj hrest
        refine absurd hb (hmid b ?_)
        rw [hmids]
        exact List.mem_append_right _ List.mem_cons_self

/-- A marked entry behind a stretch of unmarked ones. -/
theorem marked_after {a : τ} {mid rest before after : List τ} (hmid : ∀ t ∈ mid, ¬ p t) (ha : p a)
    (h : mid ++ rest = before ++ a :: after) :
    ∃ before', before = mid ++ before' ∧ rest = before' ++ a :: after := by
  rcases List.append_eq_append_iff.1 h with ⟨as, hbefore, hrest⟩ | ⟨as, hmids, hrest⟩
  · exact ⟨as, hbefore, hrest⟩
  · cases as with
    | nil =>
        rw [List.append_nil] at hmids
        exact ⟨[], by rw [List.append_nil, hmids], hrest.symm⟩
    | cons c as =>
        obtain ⟨rfl, -⟩ := List.cons.inj hrest
        refine absurd ha (hmid a ?_)
        rw [hmids]
        exact List.mem_append_right _ List.mem_cons_self

end Marked

end AatsSniper
