/-
# `json.loads`

Python's JSON decoder on a byte string, and every way it can fail.  The scanner
follows the one of the standard library: whitespace is the four JSON
characters, `NaN`, `Infinity` and `-Infinity` are accepted, a control character
in a string is not, and an object keeps its members in order.  `JSONDecodeError`
is only one of the exceptions it raises:

* `UnicodeDecodeError`, when the bytes are not text in the detected encoding;
* `RecursionError`, when arrays and objects nest deeper than the interpreter's
  recursion allows (`depthLimit`);
* `ValueError`, when an integer literal has more than 4300 digits
  (`sys.int_info.default_max_str_digits`).

The scanner is structural in a fuel argument, started at twice the length of the
text; `loads_ne_outOfFuel` says that it never runs out.
-/

import AatsSniper.Lib.Text

namespace AatsSniper

/-- A decoded JSON value.  A float is kept as its literal. -/
inductive Json
  | null
  | bool (b : Bool)
  | int (n : ℤ)
  | float (literal : CodePoints)
  | str (s : CodePoints)
  | arr (elems : List Json)
  | obj (members : List (CodePoints × Json))

namespace Json

/-- The exceptions of `json.loads`, and the scanner's own fuel. -/
inductive LoadError
  | jsonDecodeError
  | unicodeDecodeError
  | recursionError
  | valueError
  | outOfFuel
  deriving DecidableEq

/-- `payload.get(key)` on a decoded object: the last member of that name. -/
def get (members : List (CodePoints × Json)) (key : CodePoints) : Option Json :=
  (members.reverse.find? fun m => m.1 == key).map Prod.snd

/-- The whitespace of the grammar: space, tab, newline, carriage return. -/
def isSpace (c : ℕ) : Bool := c == 32 || c == 9 || c == 10 || c == 13

/-- The text after its leading whitespace. -/
def skipSpace (s : CodePoints) : CodePoints := s.dropWhile isSpace

/-- An ASCII digit. -/
def isDigit (c : ℕ) : Bool := decide (48 ≤ c ∧ c ≤ 57)

/-- The value of a hexadecimal digit. -/
def hexDigit (c : ℕ) : Option ℕ :=
  if 48 ≤ c ∧ c ≤ 57 then some (c - 48)
  else if 97 ≤ c ∧ c ≤ 102 then some (c - 87)
  else if 65 ≤ c ∧ c ≤ 70 then some (c - 55)
  else none

/-- The four hexadecimal digits of a `\uXXXX` escape. -/
def hex4 (a b c d : ℕ) : Option ℕ := do
  let a ← hexDigit a
  let b ← hexDigit b
  let c ← hexDigit c
  let d ← hexDigit d
  return ((a * 16 + b) * 16 + c) * 16 + d

/-- What the one-letter escapes stand for. -/
def simpleEscape (c : ℕ) : Option ℕ :=
  if c = 34 ∨ c = 92 ∨ c = 47 then some c
  else if c = 98 then some 8
  else if c = 102 then some 12
  else if c = 110 then some 10
  else if c = 114 then some 13
  else if c = 116 then some 9
  else none

/-- `scanstring(s, end, strict=True)`, after the opening quote.  `high` is a high
surrogate escaped just before, which joins with a low surrogate escaped next. -/
def scanString : Option ℕ → CodePoints → Except LoadError (CodePoints × CodePoints)
  | _, [] => .error .jsonDecodeError
  | high, 34 :: rest => .ok (high.toList, rest)
  | high, 92 :: 117 :: a :: b :: c :: d :: rest =>
      match hex4 a b c d with
      | none => .error .jsonDecodeError
      | some v =>
          if high.isSome && Text.isLow v then
            (scanString none rest).map fun (s, r) => (Text.joinSurrogates (high.getD 0) v :: s, r)
          else if Text.isHigh v then
            (scanString (some v) rest).map fun (s, r) => (high.toList ++ s, r)
          else (scanString none rest).map fun (s, r) => (high.toList ++ v :: s, r)
  | high, 92 :: e :: rest =>
      match simpleEscape e with
      | some u => (scanString none rest).map fun (s, r) => (high.toList ++ u :: s, r)
      | none => .error .jsonDecodeError
  | high, c :: rest =>
      if c < 32 ∨ c = 92 then .error .jsonDecodeError
      else (scanString none rest).map fun (s, r) => (high.toList ++ c :: s, r)

/-- The integer part of a number: `0`, or a digit run that does not start with it. -/
def scanInt : CodePoints → Option (CodePoints × CodePoints)
  | 48 :: rest => some ([48], rest)
  | c :: rest =>
      if isDigit c then some (c :: rest.takeWhile isDigit, rest.dropWhile isDigit) else none
  | [] => none

/-- The fraction part, if a digit follows the point. -/
def scanFrac : CodePoints → CodePoints × CodePoints
  | 46 :: c :: rest =>
      if isDigit c then (46 :: c :: rest.takeWhile isDigit, rest.dropWhile isDigit)
      else ([], 46 :: c :: rest)
  | s => ([], s)

/-- The exponent part, if a digit ends it. -/
def scanExp (s : CodePoints) : CodePoints × CodePoints :=
  match s with
  | e :: rest =>
      if e = 101 ∨ e = 69 then
        let sign := rest.take 1 |>.filter fun c => c == 43 || c == 45
        let tail := rest.drop sign.length
        let digits := tail.takeWhile isDigit
        if digits = [] then ([], s) else (e :: sign ++ digits, tail.dropWhile isDigit)
      else ([], s)
  | [] => ([], [])

/-- The natural number a digit run spells. -/
def digitsValue (digits : CodePoints) : ℕ := digits.foldl (fun n c => n * 10 + (c - 48)) 0

/-- `_match_number`, with its `int` and `float` conversions. -/
def scanNumber (s : CodePoints) : Except LoadError (Json × CodePoints) :=
  let negative := s.head? == some 45
  match scanInt (if negative then s.drop 1 else s) with
  | none => .error .jsonDecodeError
  | some (digits, rest) =>
      let (frac, rest) := scanFrac rest
      let (exp, rest) := scanExp rest
      if frac = [] ∧ exp = [] then
        if 4300 < digits.length then .error .valueError
        else .ok (.int (if negative then -(digitsValue digits : ℤ) else digitsValue digits), rest)
      else .ok (.float ((if negative then [45] else []) ++ digits ++ frac ++ exp), rest)

/-- The constants of the scanner. -/
def literals : List (CodePoints × Json) :=
  [(codePoints "null", .null), (codePoints "true", .bool true), (codePoints "false", .bool false),
   (codePoints "NaN", .float (codePoints "NaN")),
   (codePoints "Infinity", .float (codePoints "Infinity")),
   (codePoints "-Infinity", .float (codePoints "-Infinity"))]

/-- The scalars that are not strings: a constant, or else a number. -/
def scanScalar (s : CodePoints) : Except LoadError (Json × CodePoints) :=
  match literals.find? fun l => l.1.isPrefixOf s with
  | some (text, value) => .ok (value, s.drop text.length)
  | none => scanNumber s

mutual

/-- `scan_once(s, idx)`; `depth` nested containers are still allowed. -/
def scanOnce : ℕ → ℕ → CodePoints → Except LoadError (Json × CodePoints)
  | 0, _, _ => .error .outOfFuel
  | fuel + 1, depth, s =>
      match s with
      | 34 :: rest => (scanString none rest).map fun (t, r) => (.str t, r)
      | 123 :: rest =>
          match depth with
          | 0 => .error .recursionError
          | depth + 1 =>
              match skipSpace rest with
              | 125 :: rest => .ok (.obj [], rest)
              | rest => (scanMembers fuel depth rest).map fun (ms, r) => (.obj ms, r)
      | 91 :: rest =>
          match depth with
          | 0 => .error .recursionError
          | depth + 1 =>
              match skipSpace rest with
              | 93 :: rest => .ok (.arr [], rest)
              | rest => (scanElems fuel depth rest).map fun (es, r) => (.arr es, r)
      | s => scanScalar s

/-- The loop of `_parse_object`, from a key on. -/
def scanMembers : ℕ → ℕ → CodePoints → Except LoadError (List (CodePoints × Json) × CodePoints)
  | 0, _, _ => .error .outOfFuel
  | fuel + 1, depth, s =>
      match s with
      | 34 :: rest => do
          let (key, rest) ← scanString none rest
          match skipSpace rest with
          | 58 :: rest => do
              let (value, rest) ← scanOnce fuel depth (skipSpace rest)
              match skipSpace rest with
              | 125 :: rest => return ([(key, value)], rest)
              | 44 :: rest => do
                  let (members, rest) ← scanMembers fuel depth (skipSpace rest)
                  return ((key, value) :: members, rest)
              | _ => .error .jsonDecodeError
          | _ => .error .jsonDecodeError
      | _ => .error .jsonDecodeError

/-- The loop of `_parse_array`, from an element on. -/
def scanElems : ℕ → ℕ → CodePoints → Except LoadError (List Json × CodePoints)
  | 0, _, _ => .error .outOfFuel
  | fuel + 1, depth, s => do
      let (value, rest) ← scanOnce fuel depth s
      match skipSpace rest with
      | 93 :: rest => return ([value], rest)
      | 44 :: rest => do
          let (elems, rest) ← scanElems fuel depth (skipSpace rest)
          return (value :: elems, rest)
      | _ => .error .jsonDecodeError

end

/-- `JSONDecoder.decode(s)`: one value, surrounded by whitespace. -/
def decodeText (depthLimit : ℕ) (s : CodePoints) : Except LoadError Json := do
  let (value, rest) ← scanOnce (2 * s.length + 1) depthLimit (skipSpace s)
  if skipSpace rest = [] then return value else .error .jsonDecodeError

/-- `json.loads(body)` of a byte string. -/
def loads (depthLimit : ℕ) (body : Bytes) : Except LoadError Json :=
  match Text.decode (Text.detectEncoding body) body with
  | none => .error .unicodeDecodeError
  | some s => decodeText depthLimit s

/-! ### The fuel suffices

Every scanner consumes at least one character, so twice the length of the text
bounds the calls: one for a value and one for the list it stands in. -/

/-- A scanner's outcome on a text `s`: it consumed something or it failed, but
not for want of fuel. -/
def Consumes {α : Type} (s : CodePoints) : Except LoadError (α × CodePoints) → Prop
  | .ok (_, rest) => rest.length < s.length
  | .error e => e ≠ .outOfFuel

theorem Consumes.mono {α : Type} {s s' : CodePoints} {x : Except LoadError (α × CodePoints)}
    (h : Consumes s x) (hs : s.length ≤ s'.length) : Consumes s' x := by
  rcases x with e | ⟨a, rest⟩
  · exact h
  · exact lt_of_lt_of_le h hs

theorem Consumes.map {α β : Type} {s : CodePoints} {x : Except LoadError (α × CodePoints)}
    (h : Consumes s x) {f : α × CodePoints → β × CodePoints} (hf : ∀ p, (f p).2 = p.2) :
    Consumes s (x.map f) := by
  rcases x with e | p
  · exact h
  · simpa [Except.map, Consumes, hf] using h

/-- Peel a `do` step: the continuation runs on a shorter text. -/
theorem Consumes.bind {α β : Type} {s : CodePoints} {x : Except LoadError (α × CodePoints)}
    {f : α × CodePoints → Except LoadError (β × CodePoints)} (h : Consumes s x)
    (hf : ∀ a rest, rest.length < s.length → Consumes s (f (a, rest))) : Consumes s (x >>= f) := by
  rcases x with e | ⟨a, rest⟩
  · exact h
  · exact hf a rest h

theorem length_skipSpace_le (s : CodePoints) : (skipSpace s).length ≤ s.length :=
  (List.dropWhile_suffix _).length_le

/-- What stands after the first character past the whitespace is shorter. -/
theorem length_of_skipSpace_eq {s rest : CodePoints} {c : ℕ} (h : skipSpace s = c :: rest) :
    rest.length < s.length := by
  have := length_skipSpace_le s
  rw [h, List.length_cons] at this
  omega

theorem scanString_consumes (high : Option ℕ) (s : CodePoints) : Consumes s (scanString high s) := by
  induction high, s using scanString.induct with
  | case1 => simp [scanString, Consumes]
  | case2 => simp [scanString, Consumes]
  | case3 high a b c d rest h => simp [scanString, h, Consumes]
  | case4 high a b c d rest v h hjoin ih =>
      simp only [scanString, h, hjoin, if_true]
      exact (ih.mono (by simp; omega)).map fun _ => rfl
  | case5 high a b c d rest v h hjoin hhigh ih =>
      simp only [scanString, h, hjoin, hhigh, if_true]
      exact (ih.mono (by simp; omega)).map fun _ => rfl
  | case6 high a b c d rest v h hjoin hhigh ih =>
      simp only [scanString, h, hjoin, hhigh]
      exact (ih.mono (by simp; omega)).map fun _ => rfl
  | case7 high e rest hu u h ih =>
      rw [scanString, h]
      · exact (ih.mono (by simp; omega)).map fun _ => rfl
      · exact hu
  | case8 high e rest hu h =>
      rw [scanString, h]
      · simp [Consumes]
      · exact hu
  | case9 high c rest h1 h2 h3 h4 =>
      rw [scanString, if_pos h4]
      · simp [Consumes]
      · exact h1
      · exact h2
      · exact h3
  | case10 high c rest h1 h2 h3 h4 ih =>
      rw [scanString, if_neg h4]
      · exact (ih.mono (by simp)).map fun _ => rfl
      · exact h1
      · exact h2
      · exact h3

theorem scanInt_length {s digits rest : CodePoints} (h : scanInt s = some (digits, rest)) :
    rest.length < s.length := by
  unfold scanInt at h
  split at h
  · cases h
    simp
  · split at h
    · cases h
      have := (List.dropWhile_suffix isDigit (l := ‹List ℕ›)).length_le
      simp
      omega
    · cases h
  · cases h

theorem length_scanFrac_le (s : CodePoints) : (scanFrac s).2.length ≤ s.length := by
  unfold scanFrac
  split
  · split
    · have := (List.dropWhile_suffix isDigit (l := ‹List ℕ›)).length_le
      simp
      omega
    · rfl
  · rfl

theorem length_scanExp_le (s : CodePoints) : (scanExp s).2.length ≤ s.length := by
  unfold scanExp
  split
  · split
    · dsimp only
      split
      · rfl
      · refine (List.dropWhile_suffix _).length_le.trans ?_
        simp only [List.length_drop, List.length_cons]
        omega
    · rfl
  · rfl

theorem scanNumber_consumes (s : CodePoints) : Consumes s (scanNumber s) := by
  unfold scanNumber
  dsimp only
  split
  · simp [Consumes]
  · next digits rest hint =>
      have h₁ := scanInt_length hint
      have h₂ := length_scanFrac_le rest
      have h₃ := length_scanExp_le (scanFrac rest).2
      have h₀ : (if (s.head? == some 45) = true then s.drop 1 else s).length ≤ s.length := by
        split <;> simp
      split
      · split
        · simp [Consumes]
        · simp only [Consumes]; omega
      · simp only [Consumes]; omega

theorem scanScalar_consumes (s : CodePoints) : Consumes s (scanScalar s) := by
  unfold scanScalar
  split
  · next text value hfind =>
      have hprefix : text <+: s := by simpa using List.find?_some hfind
      have hpos : 0 < text.length := by
        have hmem := List.mem_of_find?_eq_some hfind
        have : ∀ l ∈ literals, 0 < l.1.length := by decide +kernel
        exact this _ hmem
      have := hprefix.length_le
      simp only [Consumes, List.length_drop]
      omega
  · exact scanNumber_consumes s

/-- With `fuel` no scanner of the mutual recursion runs out on a text of half the length, and each
consumes at least one character. -/
structure Fueled (fuel : ℕ) : Prop where
  once : ∀ depth s, 2 * s.length + 1 ≤ fuel → Consumes s (scanOnce fuel depth s)
  members : ∀ depth s, 2 * s.length + 2 ≤ fuel → Consumes s (scanMembers fuel depth s)
  elems : ∀ depth s, 2 * s.length + 2 ≤ fuel → Consumes s (scanElems fuel depth s)

theorem Fueled.scanOnce_consumes {fuel : ℕ} (h : Fueled fuel) (depth : ℕ) (s : CodePoints)
    (hfuel : 2 * s.length + 1 ≤ fuel + 1) : Consumes s (scanOnce (fuel + 1) depth s) := by
  unfold scanOnce
  split
  · exact ((scanString_consumes _ _).mono (by simp)).map fun _ => rfl
  · next rest =>
      rw [List.length_cons] at hfuel
      have hle := length_skipSpace_le rest
      split
      · simp [Consumes]
      · split
        · next heq =>
            have := length_of_skipSpace_eq heq
            simp only [Consumes, List.length_cons]
            omega
        · next depth _ _ =>
            exact ((h.members depth _ (by omega)).mono (by simp; omega)).map fun _ => rfl
  · next rest =>
      rw [List.length_cons] at hfuel
      have hle := length_skipSpace_le rest
      split
      · simp [Consumes]
      · split
        · next heq =>
            have := length_of_skipSpace_eq heq
            simp only [Consumes, List.length_cons]
            omega
        · next depth _ _ =>
            exact ((h.elems depth _ (by omega)).mono (by simp; omega)).map fun _ => rfl
  · exact scanScalar_consumes _

theorem Fueled.scanMembers_consumes {fuel : ℕ} (h : Fueled fuel) (depth : ℕ) (s : CodePoints)
    (hfuel : 2 * s.length + 2 ≤ fuel + 1) : Consumes s (scanMembers (fuel + 1) depth s) := by
  unfold scanMembers
  split
  · refine ((scanString_consumes none _).mono (by simp)).bind fun key rest hrest => ?_
    dsimp only
    split
    · next rest₁ h₁ =>
        have l₁ := length_of_skipSpace_eq h₁
        have l₂ := length_skipSpace_le rest₁
        refine ((h.once depth (skipSpace rest₁) (by omega)).mono (by omega)).bind
          fun value rest₂ hrest₂ => ?_
        dsimp only
        split
        · next rest₃ h₃ =>
            have := length_of_skipSpace_eq h₃
            show rest₃.length < _
            omega
        · next rest₃ h₃ =>
            have l₃ := length_of_skipSpace_eq h₃
            have l₄ := length_skipSpace_le rest₃
            exact ((h.members depth _ (by omega)).mono (by omega)).bind
              fun members rest₄ hrest₄ => hrest₄
        · simp [Consumes]
    · simp [Consumes]
  · simp [Consumes]

theorem Fueled.scanElems_consumes {fuel : ℕ} (h : Fueled fuel) (depth : ℕ) (s : CodePoints)
    (hfuel : 2 * s.length + 2 ≤ fuel + 1) : Consumes s (scanElems (fuel + 1) depth s) := by
  unfold scanElems
  refine (h.once depth s (by omega)).bind fun value rest hrest => ?_
  dsimp only
  split
  · next rest₁ h₁ =>
      have := length_of_skipSpace_eq h₁
      show rest₁.length < s.length
      omega
  · next rest₁ h₁ =>
      have l₁ := length_of_skipSpace_eq h₁
      have l₂ := length_skipSpace_le rest₁
      exact ((h.elems depth _ (by omega)).mono (by omega)).bind
        fun elems rest₂ hrest₂ => hrest₂
  · simp [Consumes]

/-- **Enough fuel.** -/
theorem fueled (fuel : ℕ) : Fueled fuel := by
  induction fuel with
  | zero => exact ⟨fun _ _ h => by omega, fun _ _ h => by omega, fun _ _ h => by omega⟩
  | succ fuel ih => exact ⟨ih.scanOnce_consumes, ih.scanMembers_consumes, ih.scanElems_consumes⟩

/-- **`json.loads` returns or raises one of Python's exceptions**, whatever the
bytes and the recursion limit. -/
theorem loads_ne_outOfFuel (depthLimit : ℕ) (body : Bytes) :
    loads depthLimit body ≠ .error .outOfFuel := by
  unfold loads
  split
  · simp
  · next s _ =>
      have hle := length_skipSpace_le s
      have h := (fueled (2 * s.length + 1)).once depthLimit (skipSpace s) (by omega)
      unfold decodeText
      rcases hscan : scanOnce (2 * s.length + 1) depthLimit (skipSpace s) with e | ⟨value, rest⟩
      · rw [hscan] at h
        intro heq
        exact h (Except.error.inj heq)
      · dsimp [bind, Except.bind]
        split <;> simp [pure, Except.pure]

end Json
end AatsSniper
