/-
# `POST /api/risk-config`

The handler of `aats/control_plane/server.py`, its `_validate_risk_config_tighten_only`, and
`RiskConfig` of `aats/contracts/risk.py`.

A request is compared with the stored body, field by field, and then replaces it.  Only
seven fields are compared, and each only where both bodies have it; what is in
effect is `RiskConfig(**body)`, where an absent field has its default.  `compared_noLooser`
is what the comparison is worth: for two numbers it holds the limit.  For every other
field the limit holds only if the operator keeps it.

What `decimal.Decimal` reads in a text, how `pydantic` coerces a value, and how Python compares
other values than numbers and texts, are parameters (`Runtime`).
-/

import AatsSniper.Lib.Run
import Mathlib.Algebra.Order.Ring.Rat
import Mathlib.Data.String.Basic

namespace AatsSniper
namespace ControlPlane

/-! ### Python's numbers -/

/-- A `float` or a `Decimal`. -/
inductive Num
  | finite (q : ℚ)
  | inf (negative : Bool)
  | nan
  deriving DecidableEq

/-- `x < y` on numbers; nothing is less than a NaN. -/
def Num.lt : Num → Num → Bool
  | .finite p, .finite q => decide (p < q)
  | .finite _, .inf negative => !negative
  | .inf negative, .finite _ => negative
  | .inf negative, .inf negative' => negative && !negative'
  | _, _ => false

/-- `x` is a number, and so is `y`, and `x` is not above `y`. -/
def Num.Le (x y : Num) : Prop := x ≠ .nan ∧ y ≠ .nan ∧ y.lt x = false

instance (x y : Num) : Decidable (x.Le y) := inferInstanceAs (Decidable (_ ∧ _ ∧ _))

theorem Num.finite_le {p q : ℚ} : (Num.finite p).Le (.finite q) ↔ p ≤ q := by
  simp [Num.Le, Num.lt]

theorem Num.Le.trans {x y z : Num} (hxy : x.Le y) (hyz : y.Le z) : x.Le z := by
  obtain ⟨hx, hy, hxy⟩ := hxy
  obtain ⟨-, hz, hyz⟩ := hyz
  refine ⟨hx, hz, ?_⟩
  cases x <;> cases y <;> cases z <;> simp_all [Num.lt]
  exact hxy.trans hyz

/-- A value of a request body; a `Decimal` only comes of a text. -/
inductive PyValue
  | none
  | bool (b : Bool)
  | int (n : ℤ)
  | float (x : Num)
  | decimal (x : Num)
  | str (s : String)
  | nested (json : String)
  deriving DecidableEq

/-- The number a value is, if it is one. -/
def PyValue.number : PyValue → Option Num
  | .bool b => some (.finite (if b then 1 else 0))
  | .int n => some (.finite n)
  | .float x => some x
  | .decimal x => some x
  | _ => Option.none

/-! ### Fields -/

/-- The fields of `RiskConfig`. -/
inductive RiskField
  | perTradeCapLamports
  | maxAggregateLamports
  | dailyRiskTrancheLamports
  | dailyLossLimitPct
  | dailyLossFloorLamports
  | maxSlippageBps
  | snipeThreshold
  | vetoThreshold
  | jitoTipCapFrac
  | kellyFractionCap
  | nWalletsMax
  | blastRadiusCapLamports
  | tDmsSeconds
  | preCalibrationHaircutBps
  deriving DecidableEq

namespace RiskField

/-- All of them. -/
def all : List RiskField :=
  [perTradeCapLamports, maxAggregateLamports, dailyRiskTrancheLamports, dailyLossLimitPct,
    dailyLossFloorLamports, maxSlippageBps, snipeThreshold, vetoThreshold, jitoTipCapFrac,
    kellyFractionCap, nWalletsMax, blastRadiusCapLamports, tDmsSeconds, preCalibrationHaircutBps]

theorem mem_all (f : RiskField) : f ∈ all := by
  cases f <;> decide

/-- `_DECIMAL_STRING_FIELDS`: the fields of type `Decimal`. -/
def IsDecimal (f : RiskField) : Prop :=
  f = dailyLossLimitPct ∨ f = jitoTipCapFrac ∨ f = kellyFractionCap

instance (f : RiskField) : Decidable f.IsDecimal := inferInstanceAs (Decidable (_ ∨ _ ∨ _))

/-- The fields of type `float`. -/
def IsFloat (f : RiskField) : Prop := f = snipeThreshold ∨ f = vetoThreshold

instance (f : RiskField) : Decidable f.IsFloat := inferInstanceAs (Decidable (_ ∨ _))

/-- The defaults. -/
def default : RiskField → ℚ
  | perTradeCapLamports => 100000000
  | maxAggregateLamports => 500000000
  | dailyRiskTrancheLamports => 500000000
  | dailyLossLimitPct => 3
  | dailyLossFloorLamports => 300000000
  | maxSlippageBps => 300
  | snipeThreshold => 0.65
  | vetoThreshold => 0.30
  | jitoTipCapFrac => 0.30
  | kellyFractionCap => 0.25
  | nWalletsMax => 1
  | blastRadiusCapLamports => 100000000
  | tDmsSeconds => 60
  | preCalibrationHaircutBps => 150

/-- `_INT_MONEY_FIELDS`. -/
def intMoney : List RiskField :=
  [perTradeCapLamports, maxAggregateLamports, dailyRiskTrancheLamports, dailyLossFloorLamports,
    blastRadiusCapLamports]

/-- The ceilings of `_floor_invariants`, in its order. -/
def ceilings : List (RiskField × ℚ) :=
  [(perTradeCapLamports, 100000000), (maxAggregateLamports, 500000000), (dailyLossLimitPct, 3),
    (kellyFractionCap, 0.25), (jitoTipCapFrac, 0.30)]

/-- The fields that bear risk: caps, slippage, loss limits, Kelly cap, haircut and the time of the
dead-man's switch. -/
def riskBearing : List RiskField :=
  [perTradeCapLamports, maxAggregateLamports, dailyRiskTrancheLamports, dailyLossLimitPct,
    dailyLossFloorLamports, maxSlippageBps, kellyFractionCap, nWalletsMax, blastRadiusCapLamports,
    tDmsSeconds, preCalibrationHaircutBps]

end RiskField

/-- A request body: its keys that name a field.  `pydantic` ignores the others. -/
abbrev Body := RiskField → Option PyValue

/-- The values of a `RiskConfig`. -/
abbrev Limits := RiskField → Num

/-- `_make_risk_config()`: what is stored at the start. -/
def makeRiskConfig : Body
  | .dailyLossLimitPct => some (.str "3.0")
  | .jitoTipCapFrac => some (.str "0.30")
  | .kellyFractionCap => some (.str "0.25")
  | .snipeThreshold => some (.float (.finite 0.65))
  | .vetoThreshold => some (.float (.finite 0.30))
  | f => some (.int f.default.num)

/-- What the server is built on. -/
structure Runtime where
  decimal : String → Option Num
  coerce : RiskField → PyValue → Option Num
  gtOther : PyValue → PyValue → Option Bool
  int_kept : ∀ f n, ¬ f.IsFloat → coerce f (.int n) = some (.finite n)
  decimal_kept : ∀ f q, f.IsDecimal → coerce f (.decimal (.finite q)) = some (.finite q)

/-- What a request is refused with. -/
inductive PostError
  | unauthorized
  | comparison (field : RiskField)
  | riskIncreaseRejected (violations : List RiskField)
  | invalidOperation (field : RiskField)
  | floatMoney (field : RiskField)
  | validation (field : RiskField)
  | ceiling (field : RiskField)
  | haircut
  deriving DecidableEq

/-! ### Tighten-only -/

/-- `_coerce(field, val)`. -/
def Runtime.coerceText (rt : Runtime) (f : RiskField) (v : PyValue) : PyValue :=
  match v with
  | .str s => if f.IsDecimal then ((rt.decimal s).map PyValue.decimal).getD v else v
  | _ => v

/-- `x > y`; `none` where Python raises.  A `Decimal` NaN has no order. -/
def Runtime.gt (rt : Runtime) (x y : PyValue) : Option Bool :=
  match x, y with
  | .str s, .str t => some (decide (t < s))
  | _, _ =>
      match x.number, y.number with
      | some p, some q =>
          if x = .decimal .nan ∨ y = .decimal .nan then none else some (q.lt p)
      | _, _ => rt.gtOther x y

/-- The direction in which a field may move. -/
inductive Direction
  | decreaseOnly
  | increaseOnly
  deriving DecidableEq

/-- `_check_decrease_only(field)` and `_check_increase_only(field)`. -/
def Runtime.check (rt : Runtime) (current proposed : Body) (f : RiskField) (d : Direction) :
    Except PostError (List RiskField) :=
  match (current f).getD .none, (proposed f).getD .none with
  | .none, _ => .ok []
  | _, .none => .ok []
  | cur, new =>
      let cur := rt.coerceText f cur
      let new := rt.coerceText f new
      let widened :=
        match d with
        | .decreaseOnly => rt.gt new cur
        | .increaseOnly => rt.gt cur new
      match widened with
      | none => .error (.comparison f)
      | some true => .ok [f]
      | some false => .ok []

/-- The checks, in their order. -/
def checks : List (RiskField × Direction) :=
  [(.perTradeCapLamports, .decreaseOnly), (.maxAggregateLamports, .decreaseOnly),
    (.maxSlippageBps, .decreaseOnly), (.jitoTipCapFrac, .decreaseOnly),
    (.kellyFractionCap, .decreaseOnly), (.dailyLossLimitPct, .decreaseOnly),
    (.snipeThreshold, .increaseOnly)]

/-- `_validate_risk_config_tighten_only(current, proposed)`. -/
def Runtime.validateTightenOnly (rt : Runtime) (current proposed : Body) :
    Except PostError (List RiskField) :=
  checks.foldlM (fun violations c => do
    let more ← rt.check current proposed c.1 c.2
    return violations ++ more) []

/-! ### `RiskConfig(**body)` -/

/-- `safe_body`: the texts of the `Decimal` fields parsed. -/
def Runtime.safeBody (rt : Runtime) (body : Body) : Except PostError Body := do
  RiskField.all.forM fun f =>
    match body f with
    | some (.str s) =>
        require (f.IsDecimal → (rt.decimal s).isSome) (PostError.invalidOperation f)
    | _ => .ok ()
  return fun f => (body f).map (rt.coerceText f)

/-- The value of a field: the one given, coerced, or the default. -/
def Runtime.limit (rt : Runtime) (body : Body) (f : RiskField) : Option Num :=
  match body f with
  | none => some (.finite f.default)
  | some v => rt.coerce f v

/-- `RiskConfig(**body)`: `_reject_float_money`, the fields, `_floor_invariants`. -/
def Runtime.riskConfig (rt : Runtime) (body : Body) : Except PostError Limits := do
  RiskField.intMoney.forM fun f =>
    match body f with
    | some (.float _) => .error (PostError.floatMoney f)
    | _ => .ok ()
  RiskField.all.forM fun f => require ((rt.limit body f).isSome) (PostError.validation f)
  let limits : Limits := fun f => (rt.limit body f).getD .nan
  RiskField.ceilings.forM fun c =>
    require ((Num.finite c.2).lt (limits c.1) = false) (PostError.ceiling c.1)
  require ((limits .preCalibrationHaircutBps).lt (.finite 150) = false) .haircut
  return limits

/-- What a stored body puts into effect. -/
def Runtime.effective (rt : Runtime) (body : Body) : Except PostError Limits := do
  let safe ← rt.safeBody body
  rt.riskConfig safe

/-! ### The handler -/

/-- A request: what `_check_operator_auth` finds, and the body. -/
structure Request where
  authorized : Bool
  body : Body

/-- The checks of the handler; what an accepted body puts into effect. -/
def Runtime.accept (rt : Runtime) (stored : Body) (r : Request) : Except PostError Limits := do
  require (r.authorized = true) .unauthorized
  let violations ← rt.validateTightenOnly stored r.body
  require (violations = []) (.riskIncreaseRejected violations)
  rt.effective r.body

/-- `post_risk_config(request)`: the answer, and what is stored afterwards. -/
def Runtime.postRiskConfig (rt : Runtime) (stored : Body) (r : Request) :
    Except PostError Body × Body :=
  match rt.accept stored r with
  | .ok _ => (.ok r.body, r.body)
  | .error e => (.error e, stored)

/-! ### What the comparison is worth -/

variable {rt : Runtime} {stored body : Body} {f : RiskField}

/-- A value of a field that is a number after parsing, and that `RiskConfig` keeps. -/
def Runtime.exactNumber (rt : Runtime) (f : RiskField) (v : Option PyValue) : Option ℚ :=
  match v.map (rt.coerceText f) with
  | some (.int n) => if f.IsFloat then none else some n
  | some (.decimal (.finite q)) => if f.IsDecimal then some q else none
  | _ => none

/-- A field that the tighten-only check compares as numbers. -/
def Runtime.Compared (rt : Runtime) (stored body : Body) (f : RiskField) : Prop :=
  (f, Direction.decreaseOnly) ∈ checks ∧ (rt.exactNumber f (stored f)).isSome ∧
    (rt.exactNumber f (body f)).isSome

instance : Decidable (rt.Compared stored body f) := inferInstanceAs (Decidable (_ ∧ _ ∧ _))

/-- A field's new value is no looser than its old one: the haircut may only grow. -/
def NoLooser (f : RiskField) (new old : Num) : Prop :=
  if f = .preCalibrationHaircutBps then old.Le new else new.Le old

instance (f : RiskField) (new old : Num) : Decidable (NoLooser f new old) := by
  unfold NoLooser
  infer_instance

theorem NoLooser.trans {new mid old : Num} (h : NoLooser f new mid) (h' : NoLooser f mid old) :
    NoLooser f new old := by
  unfold NoLooser at h h' ⊢
  split_ifs with hf
  · rw [if_pos hf] at h h'
    exact h'.trans h
  · rw [if_neg hf] at h h'
    exact h.trans h'

/-- An exact number: an integer, or a finite `Decimal` of a field of that type. -/
theorem exactNumber_eq_some {v : Option PyValue} {q : ℚ} (h : rt.exactNumber f v = some q) :
    ∃ given, v = some given ∧
      ((∃ n : ℤ, rt.coerceText f given = .int n ∧ ¬ f.IsFloat ∧ q = n) ∨
        (rt.coerceText f given = .decimal (.finite q) ∧ f.IsDecimal)) := by
  unfold Runtime.exactNumber at h
  cases v with
  | none => simp at h
  | some given =>
      refine ⟨given, rfl, ?_⟩
      cases hgiven : rt.coerceText f given with
      | int n =>
          by_cases hfloat : f.IsFloat
          · simp [hgiven, hfloat] at h
          · exact .inl ⟨n, rfl, hfloat, by simpa [hgiven, hfloat, eq_comm] using h⟩
      | decimal x =>
          cases x with
          | finite p =>
              by_cases hdecimal : f.IsDecimal
              · obtain rfl : p = q := by simpa [hgiven, hdecimal] using h
                exact .inr ⟨rfl, hdecimal⟩
              · simp [hgiven, hdecimal] at h
          | inf negative => simp [hgiven] at h
          | nan => simp [hgiven] at h
      | none => simp [hgiven] at h
      | bool b => simp [hgiven] at h
      | float x => simp [hgiven] at h
      | str s => simp [hgiven] at h
      | nested json => simp [hgiven] at h

/-- `RiskConfig` keeps an exact number. -/
theorem limit_of_exactNumber {q : ℚ} (h : rt.exactNumber f (body f) = some q) :
    rt.limit (fun f => (body f).map (rt.coerceText f)) f = some (.finite q) := by
  obtain ⟨given, hgiven, ⟨n, hn, hfloat, rfl⟩ | ⟨hq, hdecimal⟩⟩ := exactNumber_eq_some h
  · simp only [Runtime.limit, hgiven, Option.map_some, hn]
    exact rt.int_kept f n hfloat
  · simp only [Runtime.limit, hgiven, Option.map_some, hq]
    exact rt.decimal_kept f q hdecimal

/-- An exact number compares as the number it is. -/
theorem gt_of_exactNumber {v w : PyValue} {p q : ℚ} (hv : rt.exactNumber f (some v) = some p)
    (hw : rt.exactNumber f (some w) = some q) :
    rt.gt (rt.coerceText f v) (rt.coerceText f w) = some (decide (q < p)) := by
  obtain ⟨v', hv', hv⟩ := exactNumber_eq_some hv
  obtain ⟨w', hw', hw⟩ := exactNumber_eq_some hw
  obtain rfl := Option.some.inj hv'
  obtain rfl := Option.some.inj hw'
  rcases hv with ⟨m, hm, -, rfl⟩ | ⟨hp, -⟩ <;> rcases hw with ⟨n, hn, -, rfl⟩ | ⟨hq, -⟩
  · simp [hm, hn, Runtime.gt, PyValue.number, Num.lt]
  · simp [hm, hq, Runtime.gt, PyValue.number, Num.lt]
  · simp [hp, hn, Runtime.gt, PyValue.number, Num.lt]
  · simp [hp, hq, Runtime.gt, PyValue.number, Num.lt]

theorem ne_none_of_exactNumber {v : PyValue} {q : ℚ} (h : rt.exactNumber f (some v) = some q) :
    v ≠ .none := by
  rintro rfl
  simp [Runtime.exactNumber, Runtime.coerceText] at h

/-- **Two exact numbers that pass the check are in order.** -/
theorem le_of_check {cur new : ℚ} (hcur : rt.exactNumber f (stored f) = some cur)
    (hnew : rt.exactNumber f (body f) = some new)
    (hcheck : rt.check stored body f .decreaseOnly = .ok []) : new ≤ cur := by
  obtain ⟨v, hv, -⟩ := exactNumber_eq_some hcur
  obtain ⟨w, hw, -⟩ := exactNumber_eq_some hnew
  rw [hv] at hcur
  rw [hw] at hnew
  have hgt := gt_of_exactNumber hnew hcur
  unfold Runtime.check at hcheck
  rw [hv, hw] at hcheck
  simp only [Option.getD_some] at hcheck
  split at hcheck
  · exact absurd rfl (ne_none_of_exactNumber hcur)
  · exact absurd rfl (ne_none_of_exactNumber hnew)
  · rw [hgt] at hcheck
    by_contra hlt
    simp [not_le.1 hlt] at hcheck

theorem foldlM_checks {rt : Runtime} {current proposed : Body}
    {cs : List (RiskField × Direction)} {violations : List RiskField}
    (h : cs.foldlM (fun violations c => do
      let more ← rt.check current proposed c.1 c.2
      return violations ++ more) violations = .ok []) :
    violations = [] ∧ ∀ c ∈ cs, rt.check current proposed c.1 c.2 = .ok [] := by
  induction cs generalizing violations with
  | nil => exact ⟨Except.ok.inj h, by simp⟩
  | cons c cs ih =>
      rw [List.foldlM_cons] at h
      obtain ⟨next, hnext, hrest⟩ := ok_of_bind h
      obtain ⟨more, hmore, hret⟩ := ok_of_bind hnext
      obtain ⟨hnil, hall⟩ := ih hrest
      have happend : violations ++ more = [] := (Except.ok.inj hret).trans hnil
      obtain ⟨rfl, rfl⟩ := List.append_eq_nil_iff.1 happend
      refine ⟨rfl, fun c' hc' => ?_⟩
      rcases List.mem_cons.1 hc' with rfl | hc'
      · exact hmore
      · exact hall c' hc'

/-- A body in effect: every field has the value its coercion, or its default, gives. -/
theorem limit_of_effective {limits : Limits} (h : rt.effective body = .ok limits) (f : RiskField) :
    rt.limit (fun f => (body f).map (rt.coerceText f)) f = some (limits f) := by
  obtain ⟨safe, hsafe, hconfig⟩ := ok_of_bind h
  obtain ⟨_, -, hret⟩ := ok_of_bind hsafe
  obtain rfl := Except.ok.inj hret
  obtain ⟨_, -, hconfig⟩ := ok_of_bind hconfig
  obtain ⟨_, hfields, hconfig⟩ := ok_of_bind hconfig
  obtain ⟨_, -, hconfig⟩ := ok_of_bind hconfig
  obtain ⟨_, -, hconfig⟩ := ok_of_bind hconfig
  obtain rfl := Except.ok.inj hconfig
  have hsome := require_eq_ok.1 (ok_of_forM hfields f (RiskField.mem_all f))
  obtain ⟨value, hvalue⟩ := Option.isSome_iff_exists.1 hsome
  show _ = some ((rt.limit _ f).getD .nan)
  rw [hvalue]
  rfl

/-- **What the comparison holds.**  Where a request is accepted, a field compared as numbers is
no looser than what the stored body put into effect. -/
theorem compared_noLooser {r : Request} {limits old : Limits}
    (haccept : rt.accept stored r = .ok limits) (hold : rt.effective stored = .ok old)
    (hcompared : rt.Compared stored r.body f) : NoLooser f (limits f) (old f) := by
  obtain ⟨hcheck, hcur, hnew⟩ := hcompared
  obtain ⟨cur, hcur⟩ := Option.isSome_iff_exists.1 hcur
  obtain ⟨new, hnew⟩ := Option.isSome_iff_exists.1 hnew
  obtain ⟨-, haccept⟩ := ok_of_require haccept
  obtain ⟨violations, hvalid, haccept⟩ := ok_of_bind haccept
  obtain ⟨rfl, heffective⟩ := ok_of_require haccept
  have hle := le_of_check hcur hnew ((foldlM_checks hvalid).2 _ hcheck)
  have hcurLimit := (limit_of_exactNumber hcur).symm.trans (limit_of_effective hold f)
  have hnewLimit := (limit_of_exactNumber hnew).symm.trans (limit_of_effective heffective f)
  have hhaircut : f ≠ .preCalibrationHaircutBps := by
    rintro rfl
    revert hcheck
    decide
  rw [NoLooser, if_neg hhaircut, ← Option.some.inj hnewLimit, ← Option.some.inj hcurLimit]
  exact Num.finite_le.2 hle

/-! ### Runs -/

/-- The server, and beside it what each accepted request put into effect. -/
structure Desk where
  stored : Body
  accepted : List Limits := []

/-- One request. -/
def Runtime.serve (rt : Runtime) (d : Desk) (r : Request) : Except PostError Desk :=
  .ok
    { stored := (rt.postRiskConfig d.stored r).2
      accepted := d.accepted ++ (rt.accept d.stored r).toOption.toList }

/-- Each accepted request is no looser than every earlier one, in every field that bears risk. -/
def Desk.Tightens (d : Desk) : Prop :=
  d.accepted.Pairwise fun old new => ∀ f ∈ RiskField.riskBearing, NoLooser f (new f) (old f)

/-- An accepted request keeps, itself, every risk-bearing field that is not compared as numbers. -/
def Runtime.KeepsUncompared (rt : Runtime) (d : Desk) (r : Request) : Prop :=
  ∀ limits, rt.accept d.stored r = .ok limits → ∀ old ∈ d.accepted.getLast?,
    ∀ f ∈ RiskField.riskBearing, ¬ rt.Compared d.stored r.body f →
      NoLooser f (limits f) (old f)

/-- The last accepted request is in effect. -/
def Runtime.InEffect (rt : Runtime) (d : Desk) : Prop :=
  ∀ old ∈ d.accepted.getLast?, rt.effective d.stored = .ok old

theorem effective_of_accept {r : Request} {limits : Limits}
    (h : rt.accept stored r = .ok limits) : rt.effective r.body = .ok limits := by
  obtain ⟨-, h⟩ := ok_of_require h
  obtain ⟨violations, -, h⟩ := ok_of_bind h
  exact (ok_of_require h).2

theorem serve_of_accept {d : Desk} {r : Request} {limits : Limits}
    (h : rt.accept d.stored r = .ok limits) :
    rt.serve d r = .ok ⟨r.body, d.accepted ++ [limits]⟩ := by
  simp only [Runtime.serve, Runtime.postRiskConfig, h]
  rfl

/-- A refused request changes nothing. -/
theorem serve_of_refuse {d : Desk} {r : Request} {e : PostError}
    (h : rt.accept d.stored r = .error e) : rt.serve d r = .ok d := by
  simp only [Runtime.serve, Runtime.postRiskConfig, h, Except.toOption, Option.toList_none,
    List.append_nil]

/-- A new entry is held to the last one: the earlier ones follow. -/
theorem tightens_append {stored stored' : Body} {accepted : List Limits} {limits : Limits}
    (h : Desk.Tightens ⟨stored, accepted⟩) :
    Desk.Tightens ⟨stored', accepted ++ [limits]⟩ ↔
      ∀ old ∈ accepted.getLast?, ∀ f ∈ RiskField.riskBearing, NoLooser f (limits f) (old f) := by
  unfold Desk.Tightens at h ⊢
  rw [List.pairwise_append]
  constructor
  · rintro ⟨-, -, hlast⟩ old hold
    exact hlast old (List.mem_of_getLast? hold) limits (List.mem_singleton_self _)
  · intro hlast
    refine ⟨h, List.pairwise_singleton _ _, fun old hold new hnew f hf => ?_⟩
    obtain rfl := List.mem_singleton.1 hnew
    rcases List.eq_nil_or_concat accepted with rfl | ⟨before, last, rfl⟩
    · cases hold
    rw [List.concat_eq_append] at h hold hlast
    have hstep := hlast last (by simp) f hf
    rcases List.mem_append.1 hold with hold | hold
    · exact hstep.trans ((List.pairwise_append.1 h).2.2 old hold last
        (List.mem_singleton_self _) f hf)
    · obtain rfl := List.mem_singleton.1 hold
      exact hstep

/-- **One request.**  The limits stay tight iff it keeps the fields that are not compared. -/
theorem serve_spec {d : Desk} (r : Request) (heffect : rt.InEffect d) (htight : d.Tightens) :
    ∃ d', rt.serve d r = .ok d' ∧ (d'.Tightens ↔ rt.KeepsUncompared d r) ∧ rt.InEffect d' := by
  cases haccept : rt.accept d.stored r with
  | error e =>
      refine ⟨d, serve_of_refuse haccept, ⟨fun _ limits h => ?_, fun _ => htight⟩, heffect⟩
      rw [haccept] at h
      cases h
  | ok limits =>
      refine ⟨_, serve_of_accept haccept, ?_, fun old hold => ?_⟩
      · rw [@tightens_append d.stored r.body d.accepted limits htight]
        constructor
        · intro hlast limits' hlimits old hold f hf _
          obtain rfl := Except.ok.inj (haccept.symm.trans hlimits)
          exact hlast old hold f hf
        · intro hkeeps old hold f hf
          by_cases hcompared : rt.Compared d.stored r.body f
          · exact compared_noLooser haccept (heffect old hold) hcompared
          · exact hkeeps limits haccept old hold f hf hcompared
      · obtain rfl : limits = old := by simpa using hold
        exact effective_of_accept haccept

/-- **The limits only tighten iff the operator keeps what is not compared.**  Over any requests,
from any stored body: after each accepted request the limits are no looser than after any
earlier one iff every accepted request keeps the risk-bearing fields that are not compared as
numbers; and a refused request changes nothing. -/
theorem risk_config_tightens_iff (rt : Runtime) (stored : Body) (requests : List Request) :
    (EveryState rt.serve (fun _ d => d.Tightens) ⟨stored, []⟩ requests ↔
      EveryStep rt.serve (fun _ d r => rt.KeepsUncompared d r) ⟨stored, []⟩ requests) ∧
    ∀ (box : Body) (r : Request) (e : PostError),
      (rt.postRiskConfig box r).1 = .error e → (rt.postRiskConfig box r).2 = box := by
  constructor
  · refine everyState_iff_everyStep (J := rt.InEffect) List.Pairwise.nil (by simp [Runtime.InEffect])
      (fun _ d r heffect htight => ?_) requests
    obtain ⟨d', hserve, hiff, heffect'⟩ := serve_spec r heffect htight
    exact ⟨d', hserve, hiff, fun _ => heffect'⟩
  · intro box r e h
    unfold Runtime.postRiskConfig at h ⊢
    split at h
    · cases h
    · rfl

/-- The number of a text of digits. -/
def readDigits (s : String) : Option Num :=
  if s ≠ "" ∧ s.toList.all Char.isDigit then
    some (.finite (s.toList.foldl (fun n c => 10 * n + (c.toNat - 48)) 0 : ℕ))
  else none

/-- A runtime that reads whole numbers. -/
def wholeNumbers : Runtime where
  decimal := readDigits
  coerce f
    | .int n => some (.finite n)
    | .decimal (.finite q) => if f.IsDecimal then some (.finite q) else none
    | .str s => readDigits s
    | _ => none
  gtOther _ _ := none
  int_kept _ _ _ := rfl
  decimal_kept f q h := by simp [h]

/-- An authorized request with one field. -/
def only (f : RiskField) (v : PyValue) : Request where
  authorized := true
  body := fun g => if g = f then some v else none

/-- An authorized request with no field. -/
def emptyBody : Request := ⟨true, fun _ => none⟩

/-- A limit reopens when its key is left out, when it is not in the list, when the stored body has
no base for it, and when it is compared as text. -/
theorem risk_config_reopens :
    (∃ d, runSteps wholeNumbers.serve ⟨makeRiskConfig, []⟩
        [only .perTradeCapLamports (.int 50000000), emptyBody] = .ok d ∧ ¬ d.Tightens) ∧
      (∃ d, runSteps wholeNumbers.serve ⟨makeRiskConfig, []⟩
        [only .nWalletsMax (.int 1), only .nWalletsMax (.int 100)] = .ok d ∧ ¬ d.Tightens) ∧
      (∃ d, runSteps wholeNumbers.serve ⟨makeRiskConfig, []⟩
        [emptyBody, only .maxSlippageBps (.int 5000)] = .ok d ∧ ¬ d.Tightens) ∧
      ∃ d, runSteps wholeNumbers.serve ⟨makeRiskConfig, []⟩
        [emptyBody, only .maxSlippageBps (.str "20"), only .maxSlippageBps (.str "100")] = .ok d ∧
          ¬ d.Tightens := by
  refine ⟨⟨_, rfl, ?_⟩, ⟨_, rfl, ?_⟩, ⟨_, rfl, ?_⟩, ⟨_, rfl, ?_⟩⟩ <;>
    · unfold Desk.Tightens
      decide +kernel

end ControlPlane
end AatsSniper
