/-
# Python's conversions of a JSON value

What `int(x)`, `Decimal(str(x))`, `bool(x)` and `x.get(key)` make of a decoded JSON value, and
what they raise.  A string is read as Python reads it: Unicode digits and white space count,
and underscores do, between digits for `int`, anywhere for `Decimal`.  A float is the double
nearest to its literal, and its text the shortest that reads back as it.

A `Decimal` is a rational, an infinity or a NaN; only a finite result is rounded, as in
`Lib/Decimal`.  What `str` prints of a value that is no string is left to the caller.
-/

import AatsSniper.Lib.Decimal
import AatsSniper.Lib.Json
import Mathlib.Data.Int.ConditionallyCompleteOrder
import Mathlib.Data.Nat.Digits.Defs

namespace AatsSniper

/-- The exceptions of the conversions. -/
inductive PyError
  | attributeError
  | keyError
  | typeError
  | valueError
  | overflowError
  | invalidOperation
  | decimalOverflow
  | divisionByZero
  deriving DecidableEq

namespace PyText

/-- The zeros of the runs of decimal digits. -/
def digitZeros : List ℕ :=
  [0x30, 0x660, 0x6F0, 0x7C0, 0x966, 0x9E6, 0xA66, 0xAE6, 0xB66, 0xBE6, 0xC66, 0xCE6, 0xD66,
    0xDE6, 0xE50, 0xED0, 0xF20, 0x1040, 0x1090, 0x17E0, 0x1810, 0x1946, 0x19D0, 0x1A80, 0x1A90,
    0x1B50, 0x1BB0, 0x1C40, 0x1C50, 0xA620, 0xA8D0, 0xA900, 0xA9D0, 0xA9F0, 0xAA50, 0xABF0,
    0xFF10, 0x104A0, 0x10D30, 0x11066, 0x110F0, 0x11136, 0x111D0, 0x112F0, 0x11450, 0x114D0,
    0x11650, 0x116C0, 0x11730, 0x118E0, 0x11950, 0x11C50, 0x11D50, 0x11DA0, 0x16A60, 0x16AC0,
    0x16B50, 0x1D7CE, 0x1D7D8, 0x1D7E2, 0x1D7EC, 0x1D7F6, 0x1E140, 0x1E2F0, 0x1E950, 0x1FBF0]

/-- The white space besides that of ASCII. -/
def wideSpaces : List ℕ :=
  [0x85, 0xA0, 0x1680, 0x2000, 0x2001, 0x2002, 0x2003, 0x2004, 0x2005, 0x2006, 0x2007, 0x2008,
    0x2009, 0x200A, 0x2028, 0x2029, 0x202F, 0x205F, 0x3000]

/-- `c.isspace()`. -/
def isSpace (c : ℕ) : Bool :=
  decide (9 ≤ c ∧ c ≤ 13 ∨ 28 ≤ c ∧ c ≤ 32) || wideSpaces.contains c

/-- What `int` skips: the separators of ASCII are none to it. -/
def isIntSpace (c : ℕ) : Bool := isSpace c && !decide (28 ≤ c ∧ c ≤ 31)

/-- A text without the characters `space` at its ends. -/
def stripBy (space : ℕ → Bool) (s : CodePoints) : CodePoints :=
  ((s.dropWhile space).reverse.dropWhile space).reverse

/-- `s.strip()`. -/
def strip (s : CodePoints) : CodePoints := stripBy isSpace s

/-- A decimal digit as an ASCII one, and any other character as it is. -/
def asciiDigit (c : ℕ) : ℕ :=
  match digitZeros.find? fun first => decide (first ≤ c ∧ c < first + 10) with
  | some first => 48 + (c - first)
  | none => c

/-- The number a run of ASCII digits is. -/
def digitsValue (s : CodePoints) : ℕ := Nat.ofDigits 10 (s.reverse.map fun c => c - 48)

/-- A sign and what follows it. -/
def takeSign : CodePoints → Bool × CodePoints
  | 45 :: rest => (true, rest)
  | 43 :: rest => (false, rest)
  | s => (false, s)

/-- `int(s)`: a sign and digits, an underscore between two of them, at most 4300. -/
def toInt (s : CodePoints) : Option ℤ :=
  let (negative, body) := takeSign ((stripBy isIntSpace s).map asciiDigit)
  let runs := body.splitOn 95
  if (runs.all fun run => decide (run ≠ []) && run.all Json.isDigit) &&
      decide (runs.flatten.length ≤ 4300) then
    some (if negative then -(digitsValue runs.flatten : ℤ) else digitsValue runs.flatten)
  else none

/-- The digits and the exponent of a decimal numeral. -/
structure Numeral where
  digits : CodePoints
  exponent : ℤ

/-- The fraction of a numeral, and what follows it. -/
def takeFraction : CodePoints → CodePoints × CodePoints
  | 46 :: rest => (rest.takeWhile Json.isDigit, rest.dropWhile Json.isDigit)
  | s => ([], s)

/-- The exponent of a numeral, where nothing follows it. -/
def takeExponent : CodePoints → Option ℤ
  | [] => some 0
  | e :: rest =>
      let (negative, digits) := takeSign rest
      if (e = 101 ∨ e = 69) ∧ digits ≠ [] ∧ digits.all Json.isDigit then
        some (if negative then -(digitsValue digits : ℤ) else digitsValue digits)
      else none

/-- An unsigned numeral: digits with at most one point, and an exponent. -/
def toNumeral (s : CodePoints) : Option Numeral :=
  let whole := s.takeWhile Json.isDigit
  let (fraction, rest) := takeFraction (s.dropWhile Json.isDigit)
  match takeExponent rest with
  | some exponent =>
      if whole ++ fraction = [] then none
      else some ⟨whole ++ fraction, exponent - fraction.length⟩
  | none => none

/-- The number a numeral is. -/
def Numeral.value (n : Numeral) : ℚ := digitsValue n.digits * 10 ^ n.exponent

end PyText

/-- A `Decimal`. -/
inductive PyDecimal
  | finite (q : ℚ)
  | infinite (negative : Bool)
  | nan
  | snan
  deriving DecidableEq

namespace PyDecimal

/-- `MAX_EMAX`. -/
def maxEmax : ℤ := 999999999999999999

/-- `MIN_ETINY`. -/
def minEtiny : ℤ := -1999999999999999997

/-- A numeral the constructor can hold without rounding it. -/
def Fits (n : PyText.Numeral) : Prop :=
  minEtiny ≤ n.exponent ∧
    n.exponent + max 1 ((n.digits.dropWhile fun c => c == 48).length : ℤ) - 1 ≤ maxEmax

instance (n : PyText.Numeral) : Decidable (Fits n) := inferInstanceAs (Decidable (_ ∧ _))

/-- The letters of a text in lower case. -/
def lower (s : CodePoints) : CodePoints := s.map fun c => if 65 ≤ c ∧ c ≤ 90 then c + 32 else c

/-- The text is `name` with digits after it. -/
def isNamed (name : String) (s : CodePoints) : Bool :=
  (codePoints name).isPrefixOf s && (s.drop name.length).all Json.isDigit

/-- `Decimal(s)`; `none` where it raises `InvalidOperation`. -/
def ofText (s : CodePoints) : Option PyDecimal :=
  let ascii := ((PyText.strip s).filter fun c => decide (c ≠ 95)).map PyText.asciiDigit
  let (negative, body) := PyText.takeSign ascii
  let word := lower body
  if word = codePoints "inf" ∨ word = codePoints "infinity" then some (.infinite negative)
  else if isNamed "nan" word then some .nan
  else if isNamed "snan" word then some .snan
  else
    match PyText.toNumeral body with
    | some n => if Fits n then some (.finite (if negative then -n.value else n.value)) else none
    | none => none

/-- `Emax` of the context. -/
def emax : ℤ := 999999

/-- A finite result, rounded to the context. -/
def inContext (q : ℚ) : Except PyError ℚ :=
  let r := Decimal.round q
  if emax < Int.log 10 |r| then .error .decimalOverflow else .ok r

end PyDecimal

/-- A `float`. -/
inductive PyFloat
  | finite (q : ℚ)
  | infinite (negative : Bool)
  | nan
  deriving DecidableEq

namespace PyFloat

/-- The nearest double, ties to even; `none` past the largest. -/
def nearest (q : ℚ) : Option ℚ :=
  if q = 0 then some 0
  else
    let weight : ℚ := 2 ^ max (Int.log 2 |q| - 52) (-1074)
    let r := Decimal.halfEven (q / weight) * weight
    if |r| < 2 ^ 1024 then some r else none

/-- `float(q)`. -/
def ofRat (q : ℚ) : PyFloat :=
  match nearest q with
  | some r => .finite r
  | none => .infinite (decide (q < 0))

/-- The float of a JSON literal. -/
def ofLiteral (s : CodePoints) : PyFloat :=
  let (negative, body) := PyText.takeSign s
  match PyText.toNumeral body with
  | some n => ofRat (if negative then -n.value else n.value)
  | none => if body = codePoints "Infinity" then .infinite negative else .nan

/-- The decimals of `n` digits next to a number that round to it. -/
def readBack (q : ℚ) (n : ℕ) : List ℚ :=
  let unit : ℚ := 10 ^ (Int.log 10 |q| - n + 1)
  [⌊q / unit⌋ * unit, ⌈q / unit⌉ * unit].filter fun r => decide (nearest r = some q)

/-- What `repr` prints of a finite float: of the shortest decimals that read back as it, the one
nearest to it. -/
def shown (q : ℚ) : ℚ :=
  match ((List.range 17).map fun n => readBack q (n + 1)).find? fun rs => decide (rs ≠ []) with
  | some (r :: rs) => rs.foldl (fun best r => if |r - q| < |best - q| then r else best) r
  | _ => q

/-- `Decimal(str(x))`. -/
def toDecimal : PyFloat → PyDecimal
  | .finite q => .finite (shown q)
  | .infinite negative => .infinite negative
  | .nan => .nan

end PyFloat

namespace Json

/-- `bool(x)`. -/
def truthy : Json → Bool
  | .null => false
  | .bool b => b
  | .int n => decide (n ≠ 0)
  | .float literal => decide (PyFloat.ofLiteral literal ≠ .finite 0)
  | .str s => decide (s ≠ [])
  | .arr elems => !elems.isEmpty
  | .obj members => !members.isEmpty

/-- `int(x)`. -/
def toInt : Json → Except PyError ℤ
  | .bool b => .ok (if b then 1 else 0)
  | .int n => .ok n
  | .float literal =>
      match PyFloat.ofLiteral literal with
      | .finite q => .ok (truncate q)
      | .infinite _ => .error .overflowError
      | .nan => .error .valueError
  | .str s =>
      match PyText.toInt s with
      | some n => .ok n
      | none => .error .valueError
  | _ => .error .typeError

/-- `Decimal(str(x))`: `True`, `None`, `[` and `{` begin no number. -/
def toDecimal : Json → Except PyError PyDecimal
  | .int n => .ok (.finite n)
  | .float literal => .ok (PyFloat.ofLiteral literal).toDecimal
  | .str s =>
      match PyDecimal.ofText s with
      | some d => .ok d
      | none => .error .invalidOperation
  | _ => .error .invalidOperation

/-- The members of a `dict`; nothing else has a `get`. -/
def members : Json → Except PyError (List (CodePoints × Json))
  | .obj members => .ok members
  | _ => .error .attributeError

/-- `d.get(key, default)`. -/
def getD (members : List (CodePoints × Json)) (key : String) (default : Json) : Json :=
  (get members (codePoints key)).getD default

/-- `d[key]`. -/
def item (members : List (CodePoints × Json)) (key : String) : Except PyError Json :=
  match get members (codePoints key) with
  | some v => .ok v
  | none => .error .keyError

/-- `_decimal_or_none(x)`. -/
def decimalOrNone : Json → Except PyError (Option PyDecimal)
  | .null => .ok none
  | v => v.toDecimal.map some

end Json

/-- The float `0.1` is shown as a tenth, and `int` takes it for what it is. -/
example : (PyFloat.ofLiteral (codePoints "0.1")).toDecimal = .finite (1 / 10) ∧
    PyFloat.ofLiteral (codePoints "0.1") ≠ .finite (1 / 10) := by decide +kernel

end AatsSniper
