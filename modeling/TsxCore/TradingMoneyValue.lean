import TsxCore.TradingRational

/-!
# Money values (`trading_money_value.ts`)

A money value carries decimal bounds, the exact fraction while it is known, and
the number of terms it was summed from. Addition stays exact until the reduced
sum exceeds the fraction limit; from then on only outward bounds remain.
Records are typed here, so the structural checks of `dataRecord` have no
counterpart, and a count that is not an integer cannot occur.
-/

namespace TsxCore.TradingMoneyValue

open Outcome TradingDecimal TradingRational

inductive Precision
  | exactDecimal
  | exactRational
  | bounded
  deriving DecidableEq

structure MoneyValue where
  lower : String
  upper : String
  exact : Option ExactRational
  decimal : Option String
  precision : Precision
  terms : ℤ
  deriving DecidableEq

def canonicalDecimal (value : String) : Outcome String := do
  let normalized ← signedDecimal value
  throwIf (normalized ≠ value) (.error "Invalid canonical money decimal.")
  return value

def exactFraction (value : ExactRational) (requireCanonical : Bool) : Outcome ExactRational := do
  let normalized ← rational value
  throwIf (requireCanonical = true ∧
      (normalized.numerator ≠ value.numerator ∨ normalized.denominator ≠ value.denominator))
    (.error "Money rational must be reduced and canonical.")
  return normalized

def decimalUnits (value : String) : ℤ :=
  bigint (.ofList (integerPart value ++ (fractionPart value).rightpad 18 '0'))

def checkedTerms (value : ℤ) : Outcome ℤ := do
  throwIf ((maxSafeInteger : ℤ) < value ∨ value < 0)
    (.error "Money terms must be a nonnegative safe integer.")
  return value

def exactValue (exact : ExactRational) (terms : ℤ) : Outcome MoneyValue := do
  let bounds ← rationalDecimalBounds exact
  return {
    lower := bounds.lower
    upper := bounds.upper
    exact := some exact
    decimal := if bounds.exact then some bounds.lower else none
    precision := if bounds.exact then .exactDecimal else .exactRational
    terms }

def validateExact (source : MoneyValue) (fraction : ExactRational) (terms : ℤ)
    (lower upper : String) : Outcome MoneyValue := do
  let exact ← exactFraction fraction true
  let result ← exactValue exact terms
  throwIf (lower ≠ result.lower ∨ upper ≠ result.upper ∨ source.decimal ≠ result.decimal ∨
      source.precision ≠ result.precision)
    (.error "Money exact value, bounds and precision disagree.")
  throwIf (terms = 0 ∧ exact.numerator ≠ "0")
    (.error "Zero money terms require an exact zero identity.")
  return result

def validateMoneyValue (source : MoneyValue) : Outcome MoneyValue := do
  let lower ← canonicalDecimal source.lower
  let upper ← canonicalDecimal source.upper
  let terms ← checkedTerms source.terms
  match source.exact with
  | some fraction => validateExact source fraction terms lower upper
  | none =>
    let width := decimalUnits upper - decimalUnits lower
    throwIf (source.precision ≠ .bounded ∨ source.decimal ≠ none ∨ terms < 2 ∨ width ≤ 0 ∨
        terms < width)
      (.error "Money bounded interval, precision and terms disagree.")
    return ⟨lower, upper, none, none, .bounded, terms⟩

def moneyValueFromRational (value : ExactRational) : Outcome MoneyValue := do
  exactValue (← exactFraction value false) 1

def moneyValueFromDecimal (value : String) : Outcome MoneyValue := do
  exactValue (← rationalFromDecimal value) 1

/-- Called with a positive right operand only, where it is the loop of `trading_rational.ts`. -/
def gcd (left right : ℤ) : ℤ := TradingRational.gcd left right

def exceedsRationalLimit (left right : ExactRational) : Bool :=
  let leftNumerator := bigint left.numerator
  let leftDenominator := bigint left.denominator
  let rightNumerator := bigint right.numerator
  let rightDenominator := bigint right.denominator
  let common := gcd leftDenominator rightDenominator
  let numerator := leftNumerator * rightDenominator.tdiv common +
    rightNumerator * leftDenominator.tdiv common
  let denominator := leftDenominator * rightDenominator.tdiv common
  let divisor := gcd numerator denominator
  let magnitude : ℤ := if numerator < 0 then -numerator else numerator
  decide (256 < (bigintText (magnitude.tdiv divisor)).length) ||
    decide (256 < (bigintText (denominator.tdiv divisor)).length)

def addBounds (left right : MoneyValue) (terms : ℤ) : Outcome MoneyValue := do
  let lower ← addSignedDecimal left.lower right.lower
  let upper ← addSignedDecimal left.upper right.upper
  validateMoneyValue ⟨lower, upper, none, none, .bounded, terms⟩

def addMoneyValues (left right : MoneyValue) : Outcome MoneyValue := do
  let validatedLeft ← validateMoneyValue left
  let validatedRight ← validateMoneyValue right
  let terms ← checkedTerms (validatedLeft.terms + validatedRight.terms)
  match validatedLeft.exact, validatedRight.exact with
  | some l, some r =>
    if exceedsRationalLimit l r = false then exactValue (← addRational l r) terms
    else addBounds validatedLeft validatedRight terms
  | _, _ => addBounds validatedLeft validatedRight terms

def negateMoneyValue (value : MoneyValue) : Outcome MoneyValue := do
  let source ← validateMoneyValue value
  match source.exact with
  | some fraction =>
    exactValue ⟨bigintText (-bigint fraction.numerator), fraction.denominator⟩ source.terms
  | none =>
    let lower ← negateSignedDecimal source.upper
    let upper ← negateSignedDecimal source.lower
    validateMoneyValue ⟨lower, upper, none, none, .bounded, source.terms⟩

/-- The part of a ledger event that the sum reads: its reporting value once it is valued. -/
structure MoneyEvent where
  valued : Bool
  reportingValue : Option MoneyValue

/-- `{ ...moneyValueFromDecimal('0'), terms }`. -/
def zeroWithTerms (terms : ℤ) : Outcome MoneyValue := do
  return { ← moneyValueFromDecimal "0" with terms }

/-- One round of the reduction in `sumMoneyEventValues`. -/
def addMoneyEvent (sum : MoneyValue) (event : MoneyEvent) : Outcome MoneyValue :=
  match event.valued, event.reportingValue with
  | true, some value => addMoneyValues sum value
  | _, _ => .error (.error "Monetary event remains unresolved.")

/-- `sumMoneyEventValues` of `trading_money_ledger.ts`. -/
def sumMoneyEventValues (events : List MoneyEvent) : Outcome MoneyValue := do
  events.foldlM addMoneyEvent (← zeroWithTerms 0)

end TsxCore.TradingMoneyValue
