/-
# Strict base64

Python's `base64.b64decode(s, validate=True)` and `base64.b64encode(data)`.

A Python `str` is the list of its code points, since one read from JSON may
hold a lone surrogate, which no Lean `String` does.  The decoder is the strict
mode of `binascii.a2b_base64`: one pass over the characters with the position in
the current quad, the bits left over from the last character and the padding
seen so far; its error messages are `binascii.Error`'s.  Without `validate`, what is no
base64 is skipped (`b64decodeLax`).

`b64decode_b64encode` is the round trip: what the encoder writes the strict
decoder reads back.
-/

import AatsSniper.Lib.Bytes

namespace AatsSniper

/-- A Python `str`: its code points. -/
abbrev CodePoints := List ℕ

/-- The code points of a Lean string. -/
def codePoints (s : String) : CodePoints := s.toList.map Char.toNat

theorem codePoints_ofList (chars : List Char) :
    codePoints (String.ofList chars) = chars.map Char.toNat := by
  rw [codePoints, String.toList_ofList]

namespace Base64

/-- `table_a2b_base64`: the six bits an ASCII character stands for. -/
def index (c : ℕ) : Option ℕ :=
  if 65 ≤ c ∧ c ≤ 90 then some (c - 65)
  else if 97 ≤ c ∧ c ≤ 122 then some (c - 71)
  else if 48 ≤ c ∧ c ≤ 57 then some (c + 4)
  else if c = 43 then some 62
  else if c = 47 then some 63
  else none

/-- `table_b2a_base64`: the character of six bits. -/
def char (i : ℕ) : Char :=
  "ABCDEFGHIJKLMNOPQRSTUVWXYZabcdefghijklmnopqrstuvwxyz0123456789+/".toList.getD i '='

/-- The state of the decoding loop: `quad_pos`, `leftchar`, `pads`,
`padding_started` and the bytes written, latest first. -/
structure Cursor where
  quadPos : ℕ := 0
  leftchar : ℕ := 0
  pads : ℕ := 0
  paddingStarted : Bool := false
  out : Bytes := []

/-- The `switch (quad_pos)`: take six more bits. -/
def Cursor.push (s : Cursor) (bits : ℕ) : Cursor :=
  match s.quadPos with
  | 0 => { s with quadPos := 1, leftchar := bits, pads := 0 }
  | 1 => { s with quadPos := 2, leftchar := bits % 16, pads := 0,
                  out := UInt8.ofNat (s.leftchar * 4 + bits / 16) :: s.out }
  | 2 => { s with quadPos := 3, leftchar := bits % 4, pads := 0,
                  out := UInt8.ofNat (s.leftchar * 16 + bits / 4) :: s.out }
  | _ => { s with quadPos := 0, leftchar := 0, pads := 0,
                  out := UInt8.ofNat (s.leftchar * 64 + bits) :: s.out }

/-- What the loop leaves at the end of the text. -/
def Cursor.finish (s : Cursor) : Except String Bytes :=
  if s.quadPos = 0 then .ok s.out.reverse
  else if s.quadPos = 1 then
    .error s!"Invalid base64-encoded string: number of data characters ({s.out.length / 3 * 4 + 1}) cannot be 1 more than a multiple of 4"
  else .error "Incorrect padding"

/-- The loop of `binascii.a2b_base64(s, strict_mode=True)`. -/
def decodeLoop : Cursor → List ℕ → Except String Bytes
  | s, [] => s.finish
  | s, c :: rest =>
      if c = 61 then
        if 2 ≤ s.quadPos ∧ 4 ≤ s.quadPos + (s.pads + 1) then
          if rest ≠ [] then .error "Excess data after padding" else .ok s.out.reverse
        else
          -- `++pads` is only evaluated once `quad_pos >= 2` holds
          decodeLoop { s with paddingStarted := true,
                              pads := if 2 ≤ s.quadPos then s.pads + 1 else s.pads } rest
      else
        match index c with
        | none => .error "Only base64 data is allowed"
        | some bits =>
            if s.paddingStarted then .error "Discontinuous padding not allowed"
            else decodeLoop (s.push bits) rest

/-- `base64.b64decode(s, validate=True)` of a `str`. -/
def b64decode (s : CodePoints) : Except String Bytes :=
  if s.any fun c => decide (128 ≤ c) then
    .error "string argument should contain only ASCII characters"
  else if s.head? = some 61 then .error "Leading padding not allowed"
  else decodeLoop {} s

/-- The loop of `binascii.a2b_base64(s)`: characters that are no base64 data are skipped, and so is
what follows the padding. -/
def decodeLaxLoop : Cursor → List ℕ → Except String Bytes
  | s, [] => s.finish
  | s, c :: rest =>
      if c = 61 then
        if 2 ≤ s.quadPos ∧ 4 ≤ s.quadPos + (s.pads + 1) then .ok s.out.reverse
        else decodeLaxLoop { s with pads := if 2 ≤ s.quadPos then s.pads + 1 else s.pads } rest
      else
        match index c with
        | none => decodeLaxLoop s rest
        | some bits => decodeLaxLoop (s.push bits) rest

/-- `base64.b64decode(s)` of a `str`. -/
def b64decodeLax (s : CodePoints) : Except String Bytes :=
  if s.any fun c => decide (128 ≤ c) then
    .error "string argument should contain only ASCII characters"
  else decodeLaxLoop {} s

/-- The characters `base64.b64encode` writes. -/
def encodeChars : Bytes → List Char
  | a :: b :: c :: rest =>
      char (a.toNat / 4) :: char (a.toNat % 4 * 16 + b.toNat / 16) ::
        char (b.toNat % 16 * 4 + c.toNat / 64) :: char (c.toNat % 64) :: encodeChars rest
  | [a, b] => [char (a.toNat / 4), char (a.toNat % 4 * 16 + b.toNat / 16), char (b.toNat % 16 * 4), '=']
  | [a] => [char (a.toNat / 4), char (a.toNat % 4 * 16), '=', '=']
  | [] => []

/-- `base64.b64encode(data).decode()`. -/
def b64encode (data : Bytes) : String := String.ofList (encodeChars data)

/-- Every six-bit value has an ASCII character that is not the pad and reads back. -/
theorem char_spec : ∀ i < 64, index (char i).toNat = some i ∧ (char i).toNat < 128 ∧
    (char i).toNat ≠ 61 := by decide +kernel

theorem decodeLoop_char (s : Cursor) (hs : s.paddingStarted = false) {i : ℕ} (hi : i < 64)
    (rest : List ℕ) : decodeLoop s ((char i).toNat :: rest) = decodeLoop (s.push i) rest := by
  obtain ⟨hindex, -, hpad⟩ := char_spec i hi
  simp [decodeLoop, hpad, hindex, hs]

/-- **What the loop makes of an encoding**, from a quad boundary on. -/
theorem decodeLoop_encodeChars (data out : Bytes) :
    decodeLoop { out := out } ((encodeChars data).map Char.toNat) = .ok (out.reverse ++ data) := by
  induction data using encodeChars.induct generalizing out with
  | case1 a b c rest ih =>
      have ha := a.toNat_lt; have hb := b.toNat_lt; have hc := c.toNat_lt
      simp only [encodeChars, List.map_cons]
      rw [decodeLoop_char _ rfl (by omega), decodeLoop_char _ rfl (by omega),
        decodeLoop_char _ rfl (by omega), decodeLoop_char _ rfl (by omega)]
      have h₁ : a.toNat / 4 * 4 + (a.toNat % 4 * 16 + b.toNat / 16) / 16 = a.toNat := by omega
      have h₂ : (a.toNat % 4 * 16 + b.toNat / 16) % 16 * 16 +
          (b.toNat % 16 * 4 + c.toNat / 64) / 4 = b.toNat := by omega
      have h₃ : (b.toNat % 16 * 4 + c.toNat / 64) % 4 * 64 + c.toNat % 64 = c.toNat := by omega
      simp only [Cursor.push, h₁, h₂, h₃, UInt8.ofNat_toNat]
      rw [ih]
      simp
  | case2 a b =>
      have ha := a.toNat_lt; have hb := b.toNat_lt
      simp only [encodeChars, List.map_cons, List.map_nil]
      rw [decodeLoop_char _ rfl (by omega), decodeLoop_char _ rfl (by omega),
        decodeLoop_char _ rfl (by omega)]
      have h₁ : a.toNat / 4 * 4 + (a.toNat % 4 * 16 + b.toNat / 16) / 16 = a.toNat := by omega
      have h₂ : (a.toNat % 4 * 16 + b.toNat / 16) % 16 * 16 + b.toNat % 16 * 4 / 4 = b.toNat := by
        omega
      simp only [Cursor.push, h₁, h₂, UInt8.ofNat_toNat]
      simp [decodeLoop]
  | case3 a =>
      have ha := a.toNat_lt
      simp only [encodeChars, List.map_cons, List.map_nil]
      rw [decodeLoop_char _ rfl (by omega), decodeLoop_char _ rfl (by omega)]
      have h₁ : a.toNat / 4 * 4 + a.toNat % 4 * 16 / 16 = a.toNat := by omega
      simp only [Cursor.push, h₁, UInt8.ofNat_toNat]
      simp [decodeLoop]
  | case4 => simp [encodeChars, decodeLoop, Cursor.finish]

/-- An encoding is ASCII and does not start with the pad. -/
theorem encodeChars_ascii (data : Bytes) :
    (∀ c ∈ encodeChars data, c.toNat < 128) ∧ (encodeChars data).head? ≠ some '=' := by
  have hc : ∀ i < 64, (char i).toNat < 128 := fun i hi => (char_spec i hi).2.1
  have hp : ∀ i < 64, char i ≠ '=' := fun i hi he => (char_spec i hi).2.2 (by rw [he]; rfl)
  have he : ('=' : Char).toNat < 128 := by decide
  induction data using encodeChars.induct with
  | case1 a b c rest ih =>
      have ha := a.toNat_lt; have hb := b.toNat_lt; have hc' := c.toNat_lt
      refine ⟨?_, by simpa [encodeChars] using hp _ (by omega)⟩
      simp only [encodeChars, List.forall_mem_cons]
      exact ⟨hc _ (by omega), hc _ (by omega), hc _ (by omega), hc _ (by omega), ih.1⟩
  | case2 a b =>
      have ha := a.toNat_lt; have hb := b.toNat_lt
      refine ⟨?_, by simpa [encodeChars] using hp _ (by omega)⟩
      simp only [encodeChars, List.forall_mem_cons]
      exact ⟨hc _ (by omega), hc _ (by omega), hc _ (by omega), he, by simp⟩
  | case3 a =>
      have ha := a.toNat_lt
      refine ⟨?_, by simpa [encodeChars] using hp _ (by omega)⟩
      simp only [encodeChars, List.forall_mem_cons]
      exact ⟨hc _ (by omega), hc _ (by omega), he, he, by simp⟩
  | case4 => simp [encodeChars]

/-- **The strict decoder reads back what the encoder writes.** -/
theorem b64decode_b64encode (data : Bytes) : b64decode (codePoints (b64encode data)) = .ok data := by
  obtain ⟨hascii, hhead⟩ := encodeChars_ascii data
  have hcode : codePoints (b64encode data) = (encodeChars data).map Char.toNat := by
    simp [codePoints, b64encode]
  have hany : ((encodeChars data).map Char.toNat).any (fun c => decide (128 ≤ c)) = false := by
    simpa [List.any_eq_false] using hascii
  have hfirst : ((encodeChars data).map Char.toNat).head? ≠ some 61 := by
    rw [List.head?_map]
    intro h
    obtain ⟨c, hc, hn⟩ := Option.map_eq_some_iff.1 h
    exact hhead (by rw [hc]; congr 1; exact Char.toNat_inj.mp (by rw [hn]; rfl))
  rw [b64decode, hcode, hany, if_neg Bool.false_ne_true, if_neg hfirst]
  simpa using decodeLoop_encodeChars data []

end Base64
end AatsSniper
