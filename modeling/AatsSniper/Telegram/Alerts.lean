/-
# The operator's alerts

`aats/telegram/alerts.py`: an event of the feed, or a trip of the breaker, as a message with
the key that tells its repeats.  A formatter raises on money that is no integer, on a
number `quantize` cannot hold, and on flags that cannot be iterated.

A value is printed as `str` prints it; what `str` makes of a float, a list or a dict is the
parameter `repr`.
-/

import AatsSniper.Lib.JsonDumps
import AatsSniper.Lib.PyValue
import AatsSniper.Lib.Seen

namespace AatsSniper
namespace Telegram

/-- `AlertCategory`. -/
inductive AlertCategory
  | fill
  | rugAvoided
  | breakerTrip
  deriving DecidableEq

/-- The value of a category. -/
def AlertCategory.value : AlertCategory → CodePoints
  | .fill => codePoints "FILL"
  | .rugAvoided => codePoints "RUG_AVOIDED"
  | .breakerTrip => codePoints "BREAKER_TRIP"

/-- `AlertMessage`. -/
structure AlertMessage where
  category : AlertCategory
  text : CodePoints
  dedupeKey : CodePoints
  deriving DecidableEq

/-- `d.quantize(...)` to a number of places, as the units of the last place. -/
def quantize (places : ℕ) (q : ℚ) : Except PyError ℤ :=
  let units := Decimal.halfEven (q * 10 ^ places)
  if |units| < 10 ^ 28 then .ok units else .error .invalidOperation

/-- The text of a quantized `Decimal`: a zero keeps its sign. -/
def fixedText (negative : Bool) (units places : ℕ) : CodePoints :=
  let digits := Json.decimal units
  let padded := List.replicate (places + 1 - digits.length) 48 ++ digits
  (if negative then [45] else []) ++ padded.take (padded.length - places) ++ 46 ::
    padded.drop (padded.length - places)

/-- `format_sol_from_lamports(lamports)`. -/
def formatSolFromLamports : Json → Except PyError CodePoints
  | .int lamports => do
      let sol ← PyDecimal.inContext (lamports / 1000000000)
      let units ← quantize 6 sol
      return (if 0 ≤ units then [43] else []) ++ fixedText (decide (lamports < 0)) units.natAbs 6 ++
        codePoints " SOL"
  | _ => .error .typeError

/-- The percentage of a `pnl_pct` that is a number. -/
def pctText : Json → Except PyError (Option CodePoints)
  | .int n => do
      let units ← quantize 2 n
      return some (fixedText (decide (n < 0)) units.natAbs 2)
  | .float literal =>
      match PyFloat.ofLiteral literal with
      | .finite q => do
          let units ← quantize 2 (PyFloat.shown q)
          return some (fixedText (literal.head? == some 45) units.natAbs 2)
      | .infinite _ => .error .invalidOperation
      | .nan => .ok (some (codePoints "NaN"))
  | _ => .ok none

section Format

variable (repr : Json → CodePoints)

/-- `str(x)`. -/
def pyStr : Json → CodePoints
  | .null => codePoints "None"
  | .bool true => codePoints "True"
  | .bool false => codePoints "False"
  | .int n => Json.dumpInt n
  | .str s => s
  | v => repr v

/-- `for x in v`. -/
def iterate : Json → Except PyError (List Json)
  | .arr elems => .ok elems
  | .str s => .ok (s.map fun c => .str [c])
  | .obj members => .ok ((firstsBy Prod.fst members).map fun m => .str m.1)
  | _ => .error .typeError

/-- `event.get(key)`. -/
def field (event : List (CodePoints × Json)) (key : String) : Json := Json.getD event key .null

/-- `x or []`. -/
def orEmpty (v : Json) : Json := if v.truthy then v else .arr []

/-- The slot is an `int`, and so is a `bool`. -/
def isSlot : Json → Bool
  | .int _ => true
  | .bool _ => true
  | _ => false

/-- `_event_slot(event)`. -/
def eventSlot (event : List (CodePoints × Json)) : Json :=
  let ownSlot := if isSlot (field event "slot") then field event "slot" else .int 0
  match field event "event_time" with
  | .obj et => if isSlot (field et "slot") then field et "slot" else ownSlot
  | _ => ownSlot

/-- `_short_mint(mint)`. -/
def shortMint (mint : CodePoints) : CodePoints :=
  if mint.length ≤ 12 then mint else mint.take 6 ++ codePoints "…" ++ mint.drop (mint.length - 4)

/-- The veto source is set, and is not the text `null`. -/
def hasVeto (event : List (CodePoints × Json)) : Bool :=
  let source := field event "veto_source"
  source.truthy && !(source matches .str [110, 117, 108, 108])

/-- `classify_event(event)`. -/
def classifyEvent (event : List (CodePoints × Json)) : Option AlertCategory :=
  match field event "action" with
  | .str action =>
      if action = codePoints "sniped" then some .fill
      else if action = codePoints "vetoed" ∨ action = codePoints "skipped" then
        if (field event "red_flags").truthy || hasVeto event then some .rugAvoided else none
      else none
  | _ => none

/-- `_money_lamports(event, key)`, formatted with its label. -/
def moneyLine (event : List (CodePoints × Json)) (key label : String) :
    Except PyError (List CodePoints) :=
  match field event key with
  | .null => .ok []
  | v => do
      let sol ← formatSolFromLamports v
      return [codePoints label ++ sol]

/-- `"\n".join(lines)`. -/
def joinLines (lines : List CodePoints) : CodePoints := [10].intercalate lines

/-- `event.get("mint", "?")`, abbreviated. -/
def mintOf (event : List (CodePoints × Json)) : CodePoints :=
  shortMint (pyStr repr (Json.getD event "mint" (.str (codePoints "?"))))

/-- The token and the mint of an event. -/
def tokenLine (event : List (CodePoints × Json)) : CodePoints :=
  codePoints "token: " ++ pyStr repr (Json.getD event "token" (.str (codePoints "?"))) ++
    codePoints "  mint: " ++ mintOf repr event

/-- The key of an event's alert: its id, or its mint and slot. -/
def eventKey (category : AlertCategory) (event : List (CodePoints × Json)) : CodePoints :=
  category.value ++ 58 :: pyStr repr (Json.getD event "id"
    (.str (mintOf repr event ++ 58 :: pyStr repr (eventSlot event))))

/-- `format_fill(event)`. -/
def formatFill (event : List (CodePoints × Json)) : Except PyError AlertMessage := do
  let size ← moneyLine event "sol_in_lamports" "size: "
  let realized ← moneyLine event "realized_pnl_net_lamports" "net pnl: "
  let pct ← pctText (field event "pnl_pct")
  let lines := [codePoints "✅ FILL", tokenLine repr event,
      codePoints "source: " ++ pyStr repr (Json.getD event "source" (.str (codePoints "?"))) ++
        codePoints "  slot: " ++ pyStr repr (eventSlot event)] ++ size ++ realized ++
    (pct.toList.map fun pct => codePoints "pnl: " ++ pct ++ [37])
  return ⟨.fill, joinLines lines, eventKey repr .fill event⟩

/-- The line of the red flags, or of the gate's reasons where there are none. -/
def reasonLine (event : List (CodePoints × Json)) : Except PyError (List CodePoints) :=
  let comma := codePoints ", "
  let redFlags := orEmpty (field event "red_flags")
  if redFlags.truthy then do
    let flags ← iterate redFlags
    return [codePoints "red flags: " ++ comma.intercalate (flags.map (pyStr repr))]
  else if (orEmpty (field event "gate_reasons")).truthy then do
    let gateReasons ← iterate (orEmpty (field event "gate_reasons"))
    let reasons := gateReasons.filter fun r => !(r matches .str [112, 97, 115, 115, 101, 100])
    return if reasons.isEmpty then []
      else [codePoints "gate: " ++ comma.intercalate (reasons.map (pyStr repr))]
  else return []

/-- `format_rug_avoided(event)`. -/
def formatRugAvoided (event : List (CodePoints × Json)) : Except PyError AlertMessage := do
  let reason ← reasonLine repr event
  let vetoed := if hasVeto event then
      [codePoints "vetoed by: " ++ pyStr repr (field event "veto_source")]
    else []
  let lines := [codePoints "🛡️ RUG AVOIDED", tokenLine repr event,
      codePoints "slot: " ++ pyStr repr (eventSlot event)] ++ vetoed ++ reason
  return ⟨.rugAvoided, joinLines lines, eventKey repr .rugAvoided event⟩

/-- `BreakerSnapshot`. -/
structure BreakerSnapshot where
  tripped : Bool
  dailyNetPnlLamports : Json
  dailyLossLimitSol : CodePoints
  trippedAtUtc : Option CodePoints
  dryRunEnabled : Bool

/-- `format_breaker_trip(...)`: an empty time counts as none. -/
def formatBreakerTrip (snap : BreakerSnapshot) : Except PyError AlertMessage := do
  let pnl ← formatSolFromLamports snap.dailyNetPnlLamports
  let at? := snap.trippedAtUtc.filter fun t => decide (t ≠ [])
  let lines := [codePoints "⛔ CIRCUIT BREAKER TRIPPED",
      codePoints "all new entries HALTED; open positions handed to ExitEngine.",
      codePoints "daily net pnl: " ++ pnl,
      codePoints "daily loss limit: " ++ snap.dailyLossLimitSol ++ codePoints " SOL",
      codePoints "posture: " ++
        codePoints (if snap.dryRunEnabled then "DRY-RUN (no real capital)" else "LIVE"),
      codePoints "manual review required to re-arm (operator-only; never automated)."] ++
    (at?.toList.map fun t => codePoints "tripped at: " ++ t)
  return ⟨.breakerTrip, joinLines lines,
    codePoints "BREAKER_TRIP:" ++ at?.getD (codePoints "unknown")⟩

/-- The alert of an event: `None` where it calls for none, or classifying or formatting it
raises. -/
def eventAlert : Json → Option AlertMessage
  | .obj event =>
      match classifyEvent event with
      | none => none
      | some .fill => (formatFill repr event).toOption
      | some _ => (formatRugAvoided repr event).toOption
  | _ => none

end Format

/-- One lamport lost is shown with two signs: the zero it rounds to keeps its own. -/
example : formatSolFromLamports (.int (-1)) = .ok (codePoints "+-0.000000 SOL") := by
  decide +kernel

end Telegram
end AatsSniper
