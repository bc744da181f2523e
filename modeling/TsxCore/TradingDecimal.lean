import TsxCore.JsRuntime

/-!
# Decimal text arithmetic (`trading_decimal.ts`)

A decimal is a text with at most 36 integer and 18 fractional digits. Every
operation parses its arguments, computes on coefficients and writes the result
with `format`, which drops trailing fractional zeros but does not bound the
number of integer digits: an oversized result is rejected by whatever parses it
next. Coefficients are natural numbers here, so the negative-coefficient guard
of `format` has no counterpart.
-/

namespace TsxCore.TradingDecimal

open Outcome

structure ParsedDecimal where
  coefficient : ℕ
  scale : ℕ
  deriving DecidableEq

/-- `/^(?:0|[1-9]\d{0,35})(?:\.\d{1,18})?$/`. -/
def decimalPattern (cs : List Char) : Bool :=
  Numeral.isNatural 36 (cs.takeWhile (· != '.')) &&
    match cs.dropWhile (· != '.') with
    | [] => true
    | _ :: fraction => Numeral.isFraction 18 fraction

/-- `const [integer, fraction = ''] = value.split('.')`, for a text with at most one point. -/
def integerPart (value : String) : List Char := value.toList.takeWhile (· != '.')

def fractionPart (value : String) : List Char := (value.toList.dropWhile (· != '.')).drop 1

def powerOfTen (exponent : ℕ) : Outcome ℕ := do
  throwIf (36 < exponent) (.error "Decimal scale is outside the supported range.")
  return 10 ^ exponent

def parse (value : String) : Outcome ParsedDecimal := do
  throwIf (decimalPattern value.toList = false)
    (.error ("Invalid unsigned decimal '" ++ value ++ "'."))
  return ⟨Nat.ofDigitChars 10 (integerPart value ++ fractionPart value) 0,
    (fractionPart value).length⟩

def format (coefficient scale : ℕ) : String :=
  let digits := (Nat.toDigits 10 coefficient).leftpad (scale + 1) '0'
  if scale = 0 then .ofList digits
  else
    let integer := digits.take (digits.length - scale)
    let fraction := (digits.drop (digits.length - scale)).rdropWhile (· == '0')
    if fraction = [] then .ofList integer else .ofList (integer ++ '.' :: fraction)

structure Aligned where
  left : ℕ
  right : ℕ
  scale : ℕ

def align (left right : ParsedDecimal) : Outcome Aligned := do
  let scale := max left.scale right.scale
  let leftFactor ← powerOfTen (scale - left.scale)
  let rightFactor ← powerOfTen (scale - right.scale)
  return ⟨left.coefficient * leftFactor, right.coefficient * rightFactor, scale⟩

/-- The sign that a comparison function of the source returns. -/
def sign (left right : ℕ) : ℤ :=
  if left < right then -1 else if right < left then 1 else 0

def compareDecimal (left right : String) : Outcome ℤ := do
  let a ← align (← parse left) (← parse right)
  return sign a.left a.right

/-- `decimal(value, { positive, max })`. -/
def decimal (value : String) (positive : Bool := false) (maximum : Option String := none) :
    Outcome String := do
  let parsed ← parse (trim value)
  let normalized := format parsed.coefficient parsed.scale
  throwIf (positive = true ∧ parsed.coefficient = 0) (.error "Decimal must be greater than zero.")
  match maximum with
  | none => return normalized
  | some bound =>
    let order ← compareDecimal normalized bound
    throwIf (0 < order) (.error ("Decimal must not exceed " ++ bound ++ "."))
    return normalized

def addDecimal (left right : String) : Outcome String := do
  let a ← align (← parse left) (← parse right)
  return format (a.left + a.right) a.scale

def subtractDecimal (left right : String) : Outcome String := do
  let a ← align (← parse left) (← parse right)
  throwIf (a.left < a.right) (.error "Unsigned decimal subtraction would be negative.")
  return format (a.left - a.right) a.scale

def multiplyDecimal (left right : String) : Outcome String := do
  let parsedLeft ← parse left
  let parsedRight ← parse right
  let productScale := parsedLeft.scale + parsedRight.scale
  let coefficient := parsedLeft.coefficient * parsedRight.coefficient
  if productScale ≤ 18 then return format coefficient productScale
  else return format (coefficient / (← powerOfTen (productScale - 18))) 18

def divideDecimal (left right : String) (scale : ℕ := 18) : Outcome String := do
  let parsedLeft ← parse left
  let parsedRight ← parse right
  throwIf (parsedRight.coefficient = 0) (.error "Division by zero.")
  throwIf (18 < scale) (.error "Division scale must be between 0 and 18.")
  let numerator := parsedLeft.coefficient * (← powerOfTen (scale + parsedRight.scale))
  let denominator := parsedRight.coefficient * (← powerOfTen parsedLeft.scale)
  return format (numerator / denominator) scale

def sumDecimals (values : List String) : Outcome String :=
  values.foldlM (fun total value => addDecimal total value) "0"

def midpointDecimal (min max : String) : Outcome String := do
  throwIf (0 < (← compareDecimal min max)) (.error "Decimal range is inverted.")
  divideDecimal (← addDecimal min max) "2"

/-- `minDecimal(first, ...values)`; every caller passes at least one argument. -/
def minDecimal (first : String) (values : List String) : Outcome String :=
  values.foldlM (fun minimum value => do
    return if (← compareDecimal value minimum) < 0 then value else minimum) first

def quantizeDecimalDown (value increment : String) : Outcome String := do
  let _ ← decimal value
  let _ ← decimal increment true
  multiplyDecimal (← divideDecimal value increment 0) increment

def isNegative (value : String) : Bool := value.toList.head? == some '-'

/-- `value.slice(1)`. -/
def tail (value : String) : String := .ofList (value.toList.drop 1)

def magnitude (value : String) : String := if isNegative value then tail value else value

def signedDecimal (value : String) : Outcome String := do
  let normalized ← decimal (magnitude value)
  return if isNegative value ∧ normalized ≠ "0" then "-" ++ normalized else normalized

def negateSignedDecimal (value : String) : Outcome String := do
  let normalized ← signedDecimal value
  return if normalized = "0" then "0"
    else if isNegative normalized then tail normalized else "-" ++ normalized

def addSignedDecimal (left right : String) : Outcome String := do
  let signedLeft ← signedDecimal left
  let signedRight ← signedDecimal right
  let leftMagnitude := magnitude signedLeft
  let rightMagnitude := magnitude signedRight
  if isNegative signedLeft = isNegative signedRight then
    let sum ← addDecimal leftMagnitude rightMagnitude
    return if isNegative signedLeft ∧ sum ≠ "0" then "-" ++ sum else sum
  else
    let order ← compareDecimal leftMagnitude rightMagnitude
    if order = 0 then return "0"
    else
      let difference ← if 0 < order then subtractDecimal leftMagnitude rightMagnitude
        else subtractDecimal rightMagnitude leftMagnitude
      let negative := if 0 < order then isNegative signedLeft else isNegative signedRight
      return if negative then "-" ++ difference else difference

def subtractSignedDecimal (left right : String) : Outcome String := do
  addSignedDecimal left (← negateSignedDecimal right)

def multiplySignedDecimal (left right : String) : Outcome String := do
  let signedLeft ← signedDecimal left
  let signedRight ← signedDecimal right
  let product ← multiplyDecimal (magnitude signedLeft) (magnitude signedRight)
  if isNegative signedLeft ≠ isNegative signedRight then negateSignedDecimal product
  else return product

/-- Trailing zeros of an exact product are divided out before its scale is checked. -/
def stripScale : ℕ → ℕ → ℕ × ℕ
  | coefficient, 0 => (coefficient, 0)
  | coefficient, scale + 1 =>
    if coefficient % 10 = 0 then stripScale (coefficient / 10) scale else (coefficient, scale + 1)

def multiplyExactSignedDecimal (left right : String) : Outcome String := do
  let signedLeft ← signedDecimal left
  let signedRight ← signedDecimal right
  let parsedA ← parse (magnitude signedLeft)
  let parsedB ← parse (magnitude signedRight)
  let stripped := stripScale (parsedA.coefficient * parsedB.coefficient)
    (parsedA.scale + parsedB.scale)
  throwIf (18 < stripped.2)
    (.error "Exact monetary valuation exceeds supported decimal precision.")
  let product ← decimal (format stripped.1 stripped.2)
  if isNegative signedLeft ≠ isNegative signedRight then negateSignedDecimal product
  else return product

def allocateDecimalExact (value numerator denominator : String) : Outcome String := do
  let amount ← parse (← decimal value)
  let share ← parse (← decimal numerator)
  let total ← parse (← decimal denominator true)
  let top := amount.coefficient * share.coefficient * (← powerOfTen total.scale) *
    (← powerOfTen 18)
  let bottom := total.coefficient * (← powerOfTen (amount.scale + share.scale))
  throwIf (top % bottom ≠ 0)
    (.error "Exact cost allocation exceeds supported decimal precision.")
  decimal (format (top / bottom) 18)

def signedDifference (left right : String) : Outcome String := do
  let order ← compareDecimal left right
  if order = 0 then return "0"
  else
    let difference ← if 0 < order then subtractDecimal left right else subtractDecimal right left
    return if 0 < order then difference else "-" ++ difference

end TsxCore.TradingDecimal
