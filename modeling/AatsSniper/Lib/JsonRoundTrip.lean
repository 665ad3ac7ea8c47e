/-
# What `json.dumps` writes, `json.loads` reads

The round trip of a whole value, `loads_dumps`: for the values whose strings and integers are read back
and whose nesting is within the recursion limit of the decoder (`Readable`), the bytes of the encoder's
text decode to the value, whatever whitespace the separators have.  Floats are left out: the encoder
prints them by their `repr`, and a `Json` keeps only the literal.
-/

import AatsSniper.Lib.JsonDumps

namespace AatsSniper
namespace Json

/-- A value that the decoder reads back, within `depth` nested containers. -/
inductive Readable : ℕ → Json → Prop
  | null {depth : ℕ} : Readable depth .null
  | bool {depth : ℕ} (b : Bool) : Readable depth (.bool b)
  | int {depth : ℕ} {n : ℤ} (h : (decimal n.natAbs).length ≤ 4300) : Readable depth (.int n)
  | str {depth : ℕ} {s : CodePoints} (h : Whole s) : Readable depth (.str s)
  | arr {depth : ℕ} {elems : List Json} (h : ∀ e ∈ elems, Readable depth e) :
      Readable (depth + 1) (.arr elems)
  | obj {depth : ℕ} {members : List (CodePoints × Json)} (hkeys : ∀ m ∈ members, Whole m.1)
      (hvalues : ∀ m ∈ members, Readable depth m.2) : Readable (depth + 1) (.obj members)

variable {c : ℕ} {rest : CodePoints}

/-! ### Values -/

theorem scanOnce_scalar {fuel depth : ℕ} (h34 : c ≠ 34) (h123 : c ≠ 123) (h91 : c ≠ 91) :
    scanOnce (fuel + 1) depth (c :: rest) = scanScalar (c :: rest) := by
  rw [scanOnce]
  · exact fun _ h => h34 (List.cons.inj h).1
  · exact fun _ h => h123 (List.cons.inj h).1
  · exact fun _ h => h91 (List.cons.inj h).1

/-- A number begins with a digit, or with a minus sign before one: no constant does. -/
theorem dumpInt_cases (n : ℤ) : (∃ d ds, dumpInt n = d :: ds ∧ isDigit d = true) ∨
    ∃ d ds, dumpInt n = 45 :: d :: ds ∧ isDigit d = true := by
  have hdecimal : ∃ d ds, decimal n.natAbs = d :: ds ∧ isDigit d = true := by
    rcases decimal_cases n.natAbs with hzero | ⟨d, ds, hds, -, hd⟩
    · exact ⟨48, [], hzero, rfl⟩
    · exact ⟨d, ds, hds, hd⟩
  obtain ⟨d, ds, hds, hd⟩ := hdecimal
  unfold dumpInt
  rw [hds]
  split_ifs
  · exact .inr ⟨d, ds, rfl, hd⟩
  · exact .inl ⟨d, ds, rfl, hd⟩

theorem scanScalar_of_digit {d : ℕ} (hd : isDigit d = true) :
    scanScalar (d :: rest) = scanNumber (d :: rest) ∧
      scanScalar (45 :: d :: rest) = scanNumber (45 :: d :: rest) := by
  simp only [isDigit, decide_eq_true_eq] at hd
  have hnone : ∀ s : CodePoints, (∀ l ∈ literals, l.1.isPrefixOf s = false) →
      scanScalar s = scanNumber s := by
    intro s hs
    have hfind : literals.find? (fun l => l.1.isPrefixOf s) = none :=
      List.find?_eq_none.2 fun l hl => by simp [hs l hl]
    rw [scanScalar, hfind]
  have hliterals : literals.map Prod.fst = [[110, 117, 108, 108], [116, 114, 117, 101],
    [102, 97, 108, 115, 101], [78, 97, 78], [73, 110, 102, 105, 110, 105, 116, 121],
    [45, 73, 110, 102, 105, 110, 105, 116, 121]] := by decide
  have hforall : ∀ s : CodePoints, (∀ t ∈ literals.map Prod.fst, t.isPrefixOf s = false) →
      ∀ l ∈ literals, l.1.isPrefixOf s = false := fun s hs l hl => hs l.1 (List.mem_map_of_mem hl)
  constructor
  · refine hnone _ (hforall _ ?_)
    rw [hliterals]
    simp only [List.forall_mem_cons, List.isPrefixOf, Bool.and_eq_false_imp, beq_iff_eq]
    refine ⟨?_, ?_, ?_, ?_, ?_, ?_, List.forall_mem_nil _⟩ <;> · intro; omega
  · refine hnone _ (hforall _ ?_)
    rw [hliterals]
    simp only [List.forall_mem_cons, List.isPrefixOf, Bool.and_eq_false_imp, beq_iff_eq]
    refine ⟨?_, ?_, ?_, ?_, ?_, ?_, List.forall_mem_nil _⟩ <;> · intros; omega

theorem scanOnce_dumpInt {n : ℤ} (hlen : (decimal n.natAbs).length ≤ 4300) (fuel depth : ℕ)
    (h : Delimited rest) : scanOnce (fuel + 1) depth (dumpInt n ++ rest) = .ok (.int n, rest) := by
  rw [← scanNumber_dumpInt hlen h]
  have hne : ∀ d, isDigit d = true → d ≠ 34 ∧ d ≠ 123 ∧ d ≠ 91 := by
    intro d hd
    simp only [isDigit, decide_eq_true_eq] at hd
    omega
  rcases dumpInt_cases n with ⟨d, ds, hds, hd⟩ | ⟨d, ds, hds, hd⟩
  · obtain ⟨h34, h123, h91⟩ := hne d hd
    rw [hds, List.cons_append, scanOnce_scalar h34 h123 h91, (scanScalar_of_digit hd).1]
  · rw [hds, List.cons_append, List.cons_append, scanOnce_scalar (by decide) (by decide) (by decide),
      (scanScalar_of_digit hd).2]

section RoundTrip

variable {sep : Separators}

theorem skipSpace_append {spaces : CodePoints} (h : ∀ c ∈ spaces, isSpace c = true) :
    skipSpace (spaces ++ rest) = skipSpace rest := List.dropWhile_append_of_pos h

theorem skipSpace_afterComma : skipSpace (sep.afterComma ++ rest) = skipSpace rest :=
  skipSpace_append fun c h => sep.spaces c (List.mem_append_left _ h)

theorem skipSpace_afterColon : skipSpace (sep.afterColon ++ rest) = skipSpace rest :=
  skipSpace_append fun c h => sep.spaces c (List.mem_append_right _ h)

/-- What is written begins with no space and no closing bracket. -/
def Opens (s : CodePoints) : Prop :=
  ∃ c rest, s = c :: rest ∧ isSpace c = false ∧ c ≠ 93 ∧ c ≠ 125

theorem Opens.append {s : CodePoints} (h : Opens s) (rest : CodePoints) : Opens (s ++ rest) := by
  obtain ⟨c, s, rfl, h⟩ := h
  exact ⟨c, s ++ rest, rfl, h⟩

theorem Opens.skipSpace_eq {s : CodePoints} (h : Opens s) : skipSpace s = s := by
  obtain ⟨c, s, rfl, hc, -⟩ := h
  rw [skipSpace, List.dropWhile_cons_of_neg (by simp [hc])]

theorem opens_dumpString (s : CodePoints) : Opens (dumpString s) :=
  ⟨34, s.flatMap escape ++ [34], rfl, rfl, by decide, by decide⟩

theorem opens_dumps (sep : Separators) {depth : ℕ} {value : Json}
    (h : Readable depth value) : Opens (dumps sep value) := by
  cases h with
  | null => exact ⟨110, _, rfl, rfl, by decide, by decide⟩
  | bool b =>
      cases b with
      | false => exact ⟨102, _, rfl, rfl, by decide, by decide⟩
      | true => exact ⟨116, _, rfl, rfl, by decide, by decide⟩
  | @int _ n _ =>
      have hdigit : ∀ d, isDigit d = true → isSpace d = false ∧ d ≠ 93 ∧ d ≠ 125 := by
        intro d hd
        simp only [isDigit, decide_eq_true_eq] at hd
        simp only [isSpace, Bool.or_eq_false_iff, beq_eq_false_iff_ne]
        omega
      rcases dumpInt_cases n with ⟨d, ds, hds, hd⟩ | ⟨d, ds, hds, hd⟩
      · exact ⟨d, ds, by rw [dumps, hds], hdigit d hd⟩
      · exact ⟨45, d :: ds, by rw [dumps, hds], rfl, by decide, by decide⟩
  | str => exact opens_dumpString _
  | @arr _ elems =>
      cases elems with
      | nil => exact ⟨91, _, rfl, rfl, by decide, by decide⟩
      | cons e es => exact ⟨91, _, rfl, rfl, by decide, by decide⟩
  | @obj _ members =>
      cases members with
      | nil => exact ⟨123, _, rfl, rfl, by decide, by decide⟩
      | cons m ms => exact ⟨123, _, rfl, rfl, by decide, by decide⟩

/-- The decoder reads a written value, given fuel for its length. -/
def ReadsBack (sep : Separators) (depth : ℕ) (value : Json) : Prop :=
  ∀ fuel rest, (dumps sep value).length ≤ fuel → Delimited rest →
    scanOnce fuel depth (dumps sep value ++ rest) = .ok (value, rest)

theorem delimited_dumpElems (es : List Json) (rest : CodePoints) :
    Delimited (dumpElems sep es ++ rest) := by
  intro c hc
  cases es with
  | nil => exact .inr (.inl (Option.some.inj hc).symm)
  | cons e es => exact .inl (Option.some.inj hc).symm

theorem delimited_dumpMembers (ms : List (CodePoints × Json)) (rest : CodePoints) :
    Delimited (dumpMembers sep ms ++ rest) := by
  intro c hc
  cases ms with
  | nil => exact .inr (.inr (Option.some.inj hc).symm)
  | cons m ms => exact .inl (Option.some.inj hc).symm

/-- The elements of an array, by induction on them. -/
theorem scanElems_dumps {depth : ℕ} {e : Json} {es : List Json}
    (hreads : ∀ v ∈ e :: es, ReadsBack sep depth v) (hopens : ∀ v ∈ e :: es, Opens (dumps sep v))
    {fuel : ℕ} (hfuel : (dumps sep e ++ dumpElems sep es).length ≤ fuel) (rest : CodePoints) :
    scanElems fuel depth (dumps sep e ++ dumpElems sep es ++ rest) = .ok (e :: es, rest) := by
  induction es generalizing e fuel with
  | nil =>
      obtain _ | fuel := fuel
      · simp [dumpElems] at hfuel
      · have hfuel' : (dumps sep e).length ≤ fuel := by simpa [dumpElems] using hfuel
        have hvalue := hreads e List.mem_cons_self fuel (dumpElems sep [] ++ rest) hfuel'
          (delimited_dumpElems [] rest)
        rw [List.append_assoc, scanElems, hvalue]
        rfl
  | cons e' es ih =>
      obtain _ | fuel := fuel
      · simp [dumpElems] at hfuel
      · have hlen : (dumps sep e).length ≤ fuel ∧
            (dumps sep e' ++ dumpElems sep es).length ≤ fuel := by
          simp only [dumpElems, List.length_append, List.length_cons] at hfuel ⊢
          omega
        have hvalue := hreads e List.mem_cons_self fuel (dumpElems sep (e' :: es) ++ rest) hlen.1
          (delimited_dumpElems _ rest)
        have hlater := ih (fun v hv => hreads v (List.mem_cons_of_mem e hv))
          (fun v hv => hopens v (List.mem_cons_of_mem e hv)) hlen.2
        have hskip : skipSpace (sep.afterComma ++ dumps sep e' ++ dumpElems sep es ++ rest) =
            dumps sep e' ++ dumpElems sep es ++ rest := by
          rw [List.append_assoc, List.append_assoc, skipSpace_afterComma, ← List.append_assoc]
          exact (((hopens e' (by simp)).append _).append _).skipSpace_eq
        rw [List.append_assoc, scanElems, hvalue]
        simp only [bind, Except.bind, dumpElems, List.cons_append]
        rw [skipSpace, List.dropWhile_cons_of_neg (by decide)]
        change (scanElems fuel depth (skipSpace _) >>= fun later => pure (e :: later.1, later.2)) = _
        rw [hskip, hlater]
        rfl

/-- One member of an object; what follows decides how to go on. -/
theorem scanMembers_dumpMember {depth fuel : ℕ} {m : CodePoints × Json} {tail : CodePoints}
    (hkey : Whole m.1) (hreads : ReadsBack sep depth m.2) (hopens : Opens (dumps sep m.2))
    (hfuel : (dumps sep m.2).length ≤ fuel) (htail : Delimited tail) :
    (∀ rest, skipSpace tail = 125 :: rest →
      scanMembers (fuel + 1) depth (dumpMember sep m ++ tail) = .ok ([m], rest)) ∧
    (∀ rest, skipSpace tail = 44 :: rest →
      scanMembers (fuel + 1) depth (dumpMember sep m ++ tail) =
        (scanMembers fuel depth (skipSpace rest)).map fun later => (m :: later.1, later.2)) := by
  obtain ⟨key, value⟩ := m
  have hvalue := hreads fuel tail hfuel htail
  have htext : dumpMember sep (key, value) ++ tail =
      34 :: (key.flatMap escape ++ 34 :: 58 :: (sep.afterColon ++ (dumps sep value ++ tail))) := by
    simp [dumpMember, dumpString]
  have hskip : skipSpace (sep.afterColon ++ (dumps sep value ++ tail)) = dumps sep value ++ tail := by
    rw [skipSpace_afterColon]
    exact (hopens.append tail).skipSpace_eq
  have hcolon (text : CodePoints) : skipSpace (58 :: text) = 58 :: text :=
    List.dropWhile_cons_of_neg (by decide)
  rw [htext, scanMembers, scanString_dumpString hkey]
  simp only [bind, Except.bind, hcolon, hskip, hvalue]
  constructor
  · intro rest hclose
    simp only [hclose]
    rfl
  · intro rest hcomma
    simp only [hcomma]
    cases scanMembers fuel depth (skipSpace rest) <;> rfl

theorem opens_dumpMember (sep : Separators) (m : CodePoints × Json) : Opens (dumpMember sep m) := by
  obtain ⟨key, value⟩ := m
  exact (opens_dumpString key).append _

theorem length_dumpMember (sep : Separators) (m : CodePoints × Json) :
    (dumps sep m.2).length < (dumpMember sep m).length := by
  obtain ⟨key, value⟩ := m
  simp only [dumpMember, List.length_append, List.length_cons]
  omega

theorem skipSpace_dumpMember {m : CodePoints × Json} :
    skipSpace (sep.afterComma ++ (dumpMember sep m ++ rest)) = dumpMember sep m ++ rest := by
  rw [skipSpace_afterComma]
  exact ((opens_dumpMember sep m).append rest).skipSpace_eq

/-- The members of an object, by induction on them. -/
theorem scanMembers_dumps {depth : ℕ} {m : CodePoints × Json} {ms : List (CodePoints × Json)}
    (hkeys : ∀ v ∈ m :: ms, Whole v.1) (hreads : ∀ v ∈ m :: ms, ReadsBack sep depth v.2)
    (hopens : ∀ v ∈ m :: ms, Opens (dumps sep v.2)) {fuel : ℕ}
    (hfuel : (dumpMember sep m ++ dumpMembers sep ms).length ≤ fuel) (rest : CodePoints) :
    scanMembers fuel depth (dumpMember sep m ++ dumpMembers sep ms ++ rest) =
      .ok (m :: ms, rest) := by
  induction ms generalizing m fuel with
  | nil =>
      have hlt := length_dumpMember sep m
      obtain _ | fuel := fuel
      · simp [dumpMembers] at hfuel
      · rw [List.length_append] at hfuel
        rw [List.append_assoc]
        exact (scanMembers_dumpMember (hkeys m List.mem_cons_self)
          (hreads m List.mem_cons_self) (hopens m List.mem_cons_self) (by omega)
          (delimited_dumpMembers [] rest)).1 rest rfl
  | cons m' ms ih =>
      have hlt := length_dumpMember sep m
      obtain _ | fuel := fuel
      · simp [dumpMembers] at hfuel
      · have hlen : (dumpMember sep m' ++ dumpMembers sep ms).length ≤ fuel := by
          simp only [dumpMembers, List.length_append, List.length_cons] at hfuel ⊢
          omega
        have hlater := ih (fun v hv => hkeys v (List.mem_cons_of_mem m hv))
          (fun v hv => hreads v (List.mem_cons_of_mem m hv))
          (fun v hv => hopens v (List.mem_cons_of_mem m hv)) hlen
        rw [List.length_append] at hfuel
        rw [List.append_assoc, (scanMembers_dumpMember (hkeys m List.mem_cons_self)
          (hreads m List.mem_cons_self) (hopens m List.mem_cons_self) (by omega)
          (delimited_dumpMembers (m' :: ms) rest)).2 _ rfl]
        change (scanMembers fuel depth (skipSpace (_ ++ rest))).map _ = _
        simp only [List.append_assoc] at hlater ⊢
        rw [skipSpace_dumpMember, hlater]
        rfl

/-- An array that is not empty. -/
theorem scanOnce_arr {fuel depth : ℕ} {text : CodePoints} (h : Opens text) :
    scanOnce (fuel + 1) (depth + 1) (91 :: text) =
      (scanElems fuel depth text).map fun elems => (.arr elems.1, elems.2) := by
  have hskip := h.skipSpace_eq
  obtain ⟨c, text, rfl, -, h93, -⟩ := h
  rw [scanOnce]
  simp only [hskip]
  split
  · next heq => exact absurd (List.cons.inj heq).1 h93
  · rfl

/-- An object that is not empty. -/
theorem scanOnce_obj {fuel depth : ℕ} {text : CodePoints} (h : Opens text) :
    scanOnce (fuel + 1) (depth + 1) (123 :: text) =
      (scanMembers fuel depth text).map fun members => (.obj members.1, members.2) := by
  have hskip := h.skipSpace_eq
  obtain ⟨c, text, rfl, -, -, h125⟩ := h
  rw [scanOnce]
  simp only [hskip]
  split
  · next heq => exact absurd (List.cons.inj heq).1 h125
  · rfl

/-- **A value is read back**, by induction on what can be read. -/
theorem readsBack_of_readable (sep : Separators) {depth : ℕ} {value : Json}
    (h : Readable depth value) : ReadsBack sep depth value := by
  have hfuel : ∀ {depth : ℕ} {value : Json}, Readable depth value →
      ∀ fuel, (dumps sep value).length ≤ fuel → ∃ fuel', fuel = fuel' + 1 := by
    intro depth value hvalue fuel hle
    obtain ⟨c, text, htext, -⟩ := opens_dumps sep hvalue
    rw [htext, List.length_cons] at hle
    exact ⟨fuel - 1, by omega⟩
  induction h with
  | @null depth =>
      intro fuel rest hle _
      obtain ⟨fuel, rfl⟩ := hfuel (.null : Readable depth _) fuel hle
      rfl
  | @bool depth b =>
      intro fuel rest hle _
      obtain ⟨fuel, rfl⟩ := hfuel (.bool b : Readable depth _) fuel hle
      cases b <;> rfl
  | @int depth n hlen =>
      intro fuel rest hle hrest
      obtain ⟨fuel, rfl⟩ := hfuel (.int hlen : Readable depth _) fuel hle
      exact scanOnce_dumpInt hlen fuel _ hrest
  | @str depth s hs =>
      intro fuel rest hle _
      obtain ⟨fuel, rfl⟩ := hfuel (.str hs : Readable depth _) fuel hle
      have htext : dumps sep (.str s) ++ rest = 34 :: (s.flatMap escape ++ 34 :: rest) := by
        simp [dumps, dumpString]
      rw [htext, scanOnce, scanString_dumpString hs]
      rfl
  | @arr depth elems helems ih =>
      intro fuel rest hle _
      obtain ⟨fuel, rfl⟩ := hfuel (.arr helems) fuel hle
      cases elems with
      | nil => rfl
      | cons e es =>
          have hopens : ∀ v ∈ e :: es, Opens (dumps sep v) := fun v hv => opens_dumps sep (helems v hv)
          have hlen : (dumps sep e ++ dumpElems sep es).length ≤ fuel := by
            simpa [dumps] using hle
          have hfirst := ((hopens e List.mem_cons_self).append (dumpElems sep es)).append rest
          rw [dumps, List.cons_append, scanOnce_arr hfirst, scanElems_dumps ih hopens hlen rest]
          rfl
  | @obj depth members hkeys hvalues ih =>
      intro fuel rest hle _
      obtain ⟨fuel, rfl⟩ := hfuel (.obj hkeys hvalues) fuel hle
      cases members with
      | nil => rfl
      | cons m ms =>
          have hopens : ∀ v ∈ m :: ms, Opens (dumps sep v.2) :=
            fun v hv => opens_dumps sep (hvalues v hv)
          have hlen : (dumpMember sep m ++ dumpMembers sep ms).length ≤ fuel := by
            simpa [dumps] using hle
          have hfirst := ((opens_dumpMember sep m).append (dumpMembers sep ms)).append rest
          rw [dumps, List.cons_append, scanOnce_obj hfirst,
            scanMembers_dumps hkeys ih hopens hlen rest]
          rfl

/-- **The text of a value decodes to it.** -/
theorem decodeText_dumps {depthLimit : ℕ} {value : Json} (h : Readable depthLimit value) :
    decodeText depthLimit (dumps sep value) = .ok value := by
  have hskip := (opens_dumps sep h).skipSpace_eq
  have hread := readsBack_of_readable sep h (2 * (dumps sep value).length + 1) []
    (by omega) nofun
  rw [List.append_nil] at hread
  rw [decodeText, hskip, hread]
  rfl

end RoundTrip

/-! ### Bytes -/

/-- `s.encode()` of a text of ASCII characters. -/
def asciiBytes (s : CodePoints) : Bytes := s.map UInt8.ofNat

/-- An ASCII character other than NUL. -/
def Ascii (c : ℕ) : Prop := 0 < c ∧ c < 128

instance (c : ℕ) : Decidable (Ascii c) := inferInstanceAs (Decidable (0 < c ∧ c < 128))

theorem toNat_of_ascii (h : Ascii c) : (UInt8.ofNat c).toNat = c := by
  obtain ⟨-, h⟩ := h
  rw [UInt8.toNat_ofNat']
  omega

theorem decodeUtf8_asciiBytes {s : CodePoints} (h : ∀ c ∈ s, Ascii c) :
    Text.decodeUtf8 (asciiBytes s) = some s := by
  induction s with
  | nil => rfl
  | cons c s ih =>
      obtain ⟨hc, hs⟩ := List.forall_mem_cons.1 h
      have hlt : UInt8.ofNat c < 0x80 := by
        rw [UInt8.lt_iff_toNat_lt, toNat_of_ascii hc]
        exact hc.2
      have hstep : Text.decodeUtf8 (UInt8.ofNat c :: asciiBytes s) =
          (Text.decodeUtf8 (asciiBytes s)).map ((UInt8.ofNat c).toNat :: ·) := by
        rw [Text.decodeUtf8.eq_def]
        exact if_pos hlt
      change Text.decodeUtf8 (UInt8.ofNat c :: asciiBytes s) = _
      rw [hstep, ih hs, toNat_of_ascii hc]
      rfl

/-- A text with no zero byte and no byte past the ASCII range is taken for UTF-8. -/
theorem detectEncoding_asciiBytes {s : CodePoints} (h : ∀ c ∈ s, Ascii c) :
    Text.detectEncoding (asciiBytes s) = .utf8 := by
  have hbyte : ∀ c, Ascii c → UInt8.ofNat c ≠ 0 ∧ UInt8.ofNat c ≠ 0xFF ∧ UInt8.ofNat c ≠ 0xFE ∧
      UInt8.ofNat c ≠ 0xEF := by
    intro c hc
    have hnat := toNat_of_ascii hc
    obtain ⟨hpos, hlt⟩ := hc
    refine ⟨?_, ?_, ?_, ?_⟩ <;>
      · intro heq
        rw [heq] at hnat
        simp at hnat
        omega
  have hzeros : Text.detectByZeros (asciiBytes s) = .utf8 := by
    unfold asciiBytes
    match s, h with
    | [], _ => rfl
    | [_], _ => rfl
    | [a, b], h =>
        have ha := (hbyte a (h a (by simp))).1
        have hb := (hbyte b (h b (by simp))).1
        simp only [List.map_cons, List.map_nil, Text.detectByZeros, if_neg ha, if_neg hb]
    | [_, _, _], _ => rfl
    | a :: b :: _ :: _ :: _, h =>
        have ha := (hbyte a (h a (by simp))).1
        have hb := (hbyte b (h b (by simp))).1
        simp only [List.map_cons, Text.detectByZeros, if_neg ha, if_neg hb]
  have hmark : ∀ (m : UInt8) (mark : Bytes), (∀ c ∈ s, UInt8.ofNat c ≠ m) →
      (m :: mark).isPrefixOf (asciiBytes s) = false := by
    intro m mark hm
    cases s with
    | nil => rfl
    | cons c s =>
        have hne : (m == UInt8.ofNat c) = false :=
          beq_eq_false_iff_ne.2 (hm c List.mem_cons_self).symm
        simp [asciiBytes, List.isPrefixOf, hne]
  unfold Text.detectEncoding
  rw [hmark 0x00 _ fun c hc => (hbyte c (h c hc)).1, hmark 0xFF _ fun c hc => (hbyte c (h c hc)).2.1,
    hmark 0xFE _ fun c hc => (hbyte c (h c hc)).2.2.1, hmark 0xFF _ fun c hc => (hbyte c (h c hc)).2.1,
    hmark 0xEF _ fun c hc => (hbyte c (h c hc)).2.2.2, hzeros]
  rfl

theorem ascii_hexChar {d : ℕ} (h : d < 16) : Ascii (hexChar d) := by
  unfold hexChar Ascii
  split_ifs <;> omega

theorem ascii_uEscape (n : ℕ) : ∀ c ∈ uEscape n, Ascii c := by
  have hdigit : ∀ m, Ascii (hexChar (m % 16)) := fun m => ascii_hexChar (Nat.mod_lt m (by decide))
  unfold uEscape
  simp only [List.forall_mem_cons, hdigit, true_and]
  exact ⟨by decide, by decide, List.forall_mem_nil _⟩

theorem ascii_escape (c : ℕ) : ∀ d ∈ escape c, Ascii d := by
  unfold escape
  split_ifs with h₁ h₂
  · rcases h₁ with rfl | rfl <;> decide
  · intro d hd
    rw [List.mem_singleton.1 hd]
    exact ⟨by omega, by omega⟩
  · decide
  · decide
  · decide
  · decide
  · decide
  · exact ascii_uEscape c
  · intro d hd
    rcases List.mem_append.1 hd with hd | hd
    · exact ascii_uEscape _ d hd
    · exact ascii_uEscape _ d hd

theorem ascii_dumpString (s : CodePoints) : ∀ c ∈ dumpString s, Ascii c := by
  intro c hc
  rcases List.mem_cons.1 hc with rfl | hc
  · decide
  · rcases List.mem_append.1 hc with hc | hc
    · obtain ⟨d, -, hd⟩ := List.mem_flatMap.1 hc
      exact ascii_escape d c hd
    · rw [List.mem_singleton.1 hc]
      decide

theorem ascii_dumpInt (n : ℤ) : ∀ c ∈ dumpInt n, Ascii c := by
  have hdecimal : ∀ c ∈ decimal n.natAbs, Ascii c := by
    intro c hc
    have hdigit := isDigit_of_mem_decimal hc
    simp only [isDigit, decide_eq_true_eq] at hdigit
    exact ⟨by omega, by omega⟩
  unfold dumpInt
  split_ifs
  · exact List.forall_mem_cons.2 ⟨by decide, hdecimal⟩
  · exact hdecimal

section Encoded

variable {sep : Separators}

theorem ascii_spaces : ∀ c ∈ sep.afterComma ++ sep.afterColon, Ascii c := by
  intro c hc
  have hspace := sep.spaces c hc
  simp only [isSpace, Bool.or_eq_true, beq_iff_eq] at hspace
  exact ⟨by omega, by omega⟩

theorem ascii_dumpElems {es : List Json} (h : ∀ e ∈ es, ∀ c ∈ dumps sep e, Ascii c) :
    ∀ c ∈ dumpElems sep es, Ascii c := by
  induction es with
  | nil => simp [dumpElems, Ascii]
  | cons e es ih =>
      obtain ⟨he, hes⟩ := List.forall_mem_cons.1 h
      intro c hc
      rw [dumpElems, List.mem_cons, List.mem_append, List.mem_append] at hc
      rcases hc with rfl | (hc | hc) | hc
      · decide
      · exact ascii_spaces c (List.mem_append_left _ hc)
      · exact he c hc
      · exact ih hes c hc

theorem ascii_dumpMember {m : CodePoints × Json} (h : ∀ c ∈ dumps sep m.2, Ascii c) :
    ∀ c ∈ dumpMember sep m, Ascii c := by
  obtain ⟨key, value⟩ := m
  intro c hc
  rw [dumpMember, List.mem_append, List.mem_cons, List.mem_append] at hc
  rcases hc with hc | rfl | hc | hc
  · exact ascii_dumpString key c hc
  · decide
  · exact ascii_spaces c (List.mem_append_right _ hc)
  · exact h c hc

theorem ascii_dumpMembers {ms : List (CodePoints × Json)}
    (h : ∀ m ∈ ms, ∀ c ∈ dumps sep m.2, Ascii c) : ∀ c ∈ dumpMembers sep ms, Ascii c := by
  induction ms with
  | nil => simp [dumpMembers, Ascii]
  | cons m ms ih =>
      obtain ⟨hm, hms⟩ := List.forall_mem_cons.1 h
      intro c hc
      rw [dumpMembers, List.mem_cons, List.mem_append, List.mem_append] at hc
      rcases hc with rfl | (hc | hc) | hc
      · decide
      · exact ascii_spaces c (List.mem_append_left _ hc)
      · exact ascii_dumpMember hm c hc
      · exact ih hms c hc

/-- The text of a value is ASCII. -/
theorem ascii_dumps (sep : Separators) {depth : ℕ} {value : Json} (h : Readable depth value) :
    ∀ c ∈ dumps sep value, Ascii c := by
  induction h with
  | null => simp only [dumps]; decide
  | bool b => cases b <;> · simp only [dumps]; decide
  | int _ => exact ascii_dumpInt _
  | str _ => exact ascii_dumpString _
  | @arr depth elems _ ih =>
      cases elems with
      | nil => simp only [dumps]; decide
      | cons e es =>
          obtain ⟨he, hes⟩ := List.forall_mem_cons.1 ih
          rw [dumps]
          refine List.forall_mem_cons.2 ⟨by decide, fun c hc => ?_⟩
          rcases List.mem_append.1 hc with hc | hc
          · exact he c hc
          · exact ascii_dumpElems hes c hc
  | @obj depth members _ _ ih =>
      cases members with
      | nil => simp only [dumps]; decide
      | cons m ms =>
          obtain ⟨hm, hms⟩ := List.forall_mem_cons.1 ih
          rw [dumps]
          refine List.forall_mem_cons.2 ⟨by decide, fun c hc => ?_⟩
          rcases List.mem_append.1 hc with hc | hc
          · exact ascii_dumpMember hm c hc
          · exact ascii_dumpMembers hms c hc

/-- **The round trip.**  What `json.dumps(value).encode()` writes `json.loads` reads back. -/
theorem loads_dumps {depthLimit : ℕ} {value : Json} (h : Readable depthLimit value) :
    loads depthLimit (asciiBytes (dumps sep value)) = .ok value := by
  have hascii := ascii_dumps sep h
  have hdecode : Text.decode .utf8 (asciiBytes (dumps sep value)) = some (dumps sep value) :=
    decodeUtf8_asciiBytes hascii
  rw [loads, detectEncoding_asciiBytes hascii, hdecode]
  exact decodeText_dumps h

end Encoded

end Json
end AatsSniper
