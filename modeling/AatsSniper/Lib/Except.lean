/-
# Taking a fallible computation apart

A `do` block in `Except` that returned has returned at every step, and every
check in it has passed.
-/

namespace AatsSniper

universe u v

/-- A computation that returned did so at its first step. -/
theorem ok_of_bind {ε : Type u} {α β : Type v} {x : Except ε α} {f : α → Except ε β} {b : β}
    (h : x >>= f = .ok b) : ∃ a, x = .ok a ∧ f a = .ok b :=
  match x, h with
  | .ok a, h => ⟨a, rfl, h⟩

theorem bind_of_ok {ε : Type u} {α β : Type v} {x : Except ε α} {f : α → Except ε β} {a : α}
    (h : x = .ok a) : x >>= f = f a := by
  rw [h]
  rfl

/-- What raises first is what a sequence raises. -/
theorem bind_of_error {ε : Type u} {α β : Type v} {x : Except ε α} {f : α → Except ε β} {e : ε}
    (h : x = .error e) : x >>= f = .error e := by
  rw [h]
  rfl

theorem map_eq_ok {ε : Type u} {α β : Type v} {x : Except ε α} {f : α → β} {b : β} :
    x.map f = .ok b ↔ ∃ a, x = .ok a ∧ f a = b := by
  constructor
  · intro h
    cases x with
    | ok a => exact ⟨a, rfl, Except.ok.inj h⟩
    | error e => cases h
  · rintro ⟨a, rfl, rfl⟩
    rfl

/-- A value, or what is raised where there is none. -/
theorem elim_eq_ok {ε : Type u} {α : Type v} {o : Option α} {e : ε} {a : α} :
    o.elim (.error e) .ok = (.ok a : Except ε α) ↔ o = some a := by
  cases o with
  | none => exact ⟨nofun, nofun⟩
  | some b =>
      exact ⟨fun h => congrArg some (Except.ok.inj h), fun h => congrArg _ (Option.some.inj h)⟩

/-- A run that can be evaluated: it returned, with a result that passes a test. -/
theorem exists_ok_of_any {ε : Type u} {α : Type v} {x : Except ε α} {p : α → Bool}
    (h : x.toOption.any p = true) : ∃ a, x = .ok a ∧ p a = true :=
  match x, h with
  | .ok a, h => ⟨a, rfl, h⟩

/-- `if not p: raise e`. -/
def require {ε : Type u} (p : Prop) [Decidable p] (e : ε) : Except ε Unit :=
  if p then .ok () else .error e

theorem require_eq_ok {ε : Type u} {p : Prop} [Decidable p] {e : ε} {u : Unit} :
    require p e = .ok u ↔ p := by
  by_cases hp : p
  · simp [require, hp]
  · simp [require, hp]

/-- A check at the head of a `do` block. -/
theorem ok_of_require {ε : Type u} {β : Type} {p : Prop} [Decidable p] {e : ε}
    {f : Unit → Except ε β} {b : β} (h : require p e >>= f = .ok b) : p ∧ f () = .ok b := by
  obtain ⟨_, hp, hf⟩ := ok_of_bind h
  exact ⟨require_eq_ok.1 hp, hf⟩

theorem require_bind {ε : Type u} {β : Type} {p : Prop} [Decidable p] {e : ε}
    {f : Unit → Except ε β} (hp : p) : (require p e >>= f) = f () := by
  rw [require, if_pos hp]
  rfl

/-- A check, for the value it lets through. -/
theorem toOption_require_bind {ε : Type u} {β : Type} {p : Prop} [Decidable p] {e : ε}
    {f : Unit → Except ε β} :
    (require p e >>= f).toOption = if p then (f ()).toOption else none := by
  by_cases hp : p
  · rw [require_bind hp, if_pos hp]
  · rw [require, if_neg hp, if_neg hp]
    rfl

/-- What neither the check nor the rest of the block raises. -/
theorem require_bind_ne_error {ε : Type u} {β : Type} {p : Prop} [Decidable p] {e e' : ε}
    {f : Unit → Except ε β} (he : e ≠ e') (hf : f () ≠ .error e') :
    (require p e >>= f) ≠ .error e' := by
  by_cases hp : p
  · rw [require_bind hp]
    exact hf
  · rw [require, if_neg hp]
    exact fun h => he (Except.error.inj h)

/-- A loop none of whose turns raises. -/
theorem forM_eq_ok {ε α : Type u} {f : α → Except ε PUnit} {rows : List α}
    (h : ∀ a ∈ rows, f a = .ok ⟨⟩) : rows.forM f = .ok ⟨⟩ := by
  induction rows with
  | nil => rfl
  | cons a rows ih =>
      show f a >>= (fun _ => rows.forM f) = .ok ⟨⟩
      rw [h a List.mem_cons_self]
      exact ih fun b hb => h b (List.mem_cons_of_mem a hb)

/-- A loop that ended raised in no turn. -/
theorem ok_of_forM {ε α : Type u} {f : α → Except ε PUnit} {rows : List α}
    (h : rows.forM f = .ok ⟨⟩) : ∀ a ∈ rows, f a = .ok ⟨⟩ := by
  induction rows with
  | nil => simp
  | cons a rows ih =>
      obtain ⟨_, hfirst, hrest⟩ := ok_of_bind (show f a >>= (fun _ => rows.forM f) = .ok ⟨⟩ from h)
      intro b hb
      rcases List.mem_cons.1 hb with rfl | hb
      · exact hfirst
      · exact ih hrest b hb

/-- A loop that makes something of every row. -/
theorem mapM_eq_ok {ε : Type u} {α β : Type v} {f : α → Except ε β} {g : α → β} {rows : List α}
    (h : ∀ a ∈ rows, f a = .ok (g a)) : rows.mapM f = .ok (rows.map g) := by
  induction rows with
  | nil => rfl
  | cons a rows ih =>
      rw [List.mapM_cons]
      refine (bind_of_ok (h a List.mem_cons_self)).trans ?_
      exact bind_of_ok (ih fun b hb => h b (List.mem_cons_of_mem a hb))

/-- A loop that undoes what was done to every row. -/
theorem mapM_map_eq_ok {ε : Type u} {α β : Type v} {f : β → Except ε α} {g : α → β}
    {rows : List α} (h : ∀ a ∈ rows, f (g a) = .ok a) : (rows.map g).mapM f = .ok rows := by
  rw [List.mapM_map]
  exact (mapM_eq_ok h).trans (congrArg Except.ok (List.map_id rows))

/-- A loop that returned has made something of every row. -/
theorem length_of_mapM {ε : Type u} {α β : Type v} {f : α → Except ε β} {rows : List α}
    {outs : List β} (h : rows.mapM f = .ok outs) : outs.length = rows.length := by
  induction rows generalizing outs with
  | nil =>
      cases h
      rfl
  | cons row rows ih =>
      rw [List.mapM_cons] at h
      obtain ⟨out, -, h⟩ := ok_of_bind h
      obtain ⟨rest, hrest, h⟩ := ok_of_bind h
      cases h
      rw [List.length_cons, List.length_cons, ih hrest]

end AatsSniper
