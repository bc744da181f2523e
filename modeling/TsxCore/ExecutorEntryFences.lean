import TsxCore.SignificantDigits
import TsxCore.Json
import TsxCore.TradingRisk

/-!
# Entry fences of the executor

`entry_price_constraints.py`, `leverage_tiers.py` and `fx_tier_budget.py`, with what
they use of `common.py`. A plain decimal text is read as its digits and its scale,
arithmetic inside `localcontext` rounds to 180 digits and `Fraction` is exact. What
Node sends is read back from its JSON text: numbers arrive as `int` when they are
written without a fraction or an exponent.
-/

namespace TsxCore.Executor

open Outcome TradingDecimal TradingTypes TradingMoneyValue

def contractError (message : String) : Thrown := ⟨"ExchangeContractError", none, message⟩

/-- `Decimal(text)` of a plain decimal text. -/
structure Decimal where
  coefficient : ℕ
  scale : ℕ

def Decimal.ofText (text : String) : Decimal :=
  ⟨Nat.ofDigitChars 10 (integerPart text ++ fractionPart text) 0, (fractionPart text).length⟩

def Decimal.value (number : Decimal) : ℚ := number.coefficient / 10 ^ number.scale

/-- `format(number, 'f')`. -/
def Decimal.fixed (number : Decimal) : List Char :=
  Numeral.numeral number.coefficient number.scale

def rstrip (c : Char) (text : List Char) : List Char := text.rdropWhile (· == c)

def decimalString (value label : String) (positive : Bool) : Outcome String := do
  throwIf (decimalPattern value.toList = false)
    (contractError (label ++ " must be a plain decimal string."))
  let number := Decimal.ofText value
  throwIf (number.value < 0 ∨ (positive = true ∧ number.value ≤ 0))
    (contractError (label ++ " is outside the allowed range."))
  let normalized :=
    if '.' ∈ number.fixed then rstrip '.' (rstrip '0' number.fixed) else number.fixed
  return if normalized = [] then "0" else .ofList normalized

/-- `context.prec`. -/
def precision : ℕ := 180

section Boundaries

def boundaryError (message : String) : Thrown :=
  ⟨"EntryPriceConstraintError", some "ENTRY_PRICE_BOUND_UNPROVEN", message⟩

structure BoundaryValues where
  referencePrice : ℚ
  maxSlippagePercent : ℚ
  priceTick : ℚ
  limitPrice : ℚ

def roundedBoundary (values : BoundaryValues) (side : String) : ℚ :=
  let context := SignificantDigits.rounded 10 precision
  let factor := if side = "buy" then context (100 + values.maxSlippagePercent)
    else context (100 - values.maxSlippagePercent)
  let ticks := context (context (values.referencePrice * factor) / context (100 * values.priceTick))
  let whole := if side = "buy" then ⌊ticks⌋ else ⌈ticks⌉
  context (whole * values.priceTick)

def originalBoundary (boundary : Option TradingEntryPriceBoundary) :
    Outcome TradingEntryPriceBoundary :=
  match boundary with
  | none => .error (boundaryError "Original entry price boundary is missing or invalid.")
  | some boundary => do
    throwIf (boundary.version ≠ 1)
      (boundaryError "Original entry price boundary is missing or invalid.")
    return boundary

/-- `Decimal(decimal_string(boundary[key], key, positive=True))`. -/
def boundaryDecimal (value key : String) : Outcome ℚ := do
  return (Decimal.ofText (← decimalString value key true)).value

def boundaryValues (boundary : Option TradingEntryPriceBoundary) (side priceTick : String) :
    Outcome (TradingEntryPriceBoundary × BoundaryValues) := do
  let boundary ← originalBoundary boundary
  let values : BoundaryValues :=
    ⟨← boundaryDecimal boundary.referencePrice "referencePrice",
      ← boundaryDecimal boundary.maxSlippagePercent "maxSlippagePercent",
      ← boundaryDecimal boundary.priceTick "priceTick",
      ← boundaryDecimal boundary.limitPrice "limitPrice"⟩
  throwIf (5 < values.maxSlippagePercent ∨ values.priceTick ≠ (Decimal.ofText priceTick).value)
    (boundaryError
      "Original entry boundary does not match its certified market tick or slippage.")
  throwIf (side ≠ "buy" ∧ side ≠ "sell") (boundaryError "Bounded entry side is invalid.")
  return (boundary, values)

def boundaryLimit (values : BoundaryValues) (side : String)
    (boundary : TradingEntryPriceBoundary) : Outcome String := do
  let allowed := roundedBoundary values side
  throwIf (allowed ≤ 0 ∨ values.limitPrice ≠ allowed)
    (boundaryError "Tick rounding widened or changed the original entry price boundary.")
  return boundary.limitPrice

/-- The arithmetic of `assert_boundary`. -/
def boundaryFence (boundary : Option TradingEntryPriceBoundary) (side priceTick : String) :
    Outcome String := do
  let (original, values) ← boundaryValues boundary side priceTick
  boundaryLimit values side original

end Boundaries

section Tiers

def tierError (reason : String) : Thrown :=
  ⟨"TierEvidenceError", some "LEVERAGE_TIERS_UNPROVEN", reason⟩

def requireTier (condition : Prop) [Decidable condition] (reason : String) : Outcome Unit :=
  throwIf (¬ condition) (tierError reason)

/-- `number(value, positive=…)`. -/
def tierNumber (value : String) (positive : Bool) : Outcome String :=
  match decimalString value "tier value" positive with
  | .ok normalized => .ok normalized
  | .error _ => .error (tierError "Invalid tier decimal.")

/-- The loop of `validate_tiers`, with the bound and the leverage of the previous tier. -/
def validateTierRows (lower : Option String) (maximum : ℤ) : List TradingLeverageTier → Outcome Unit
  | [] => return ()
  | tier :: rest => do
    requireTier (some (← tierNumber tier.lowerBound false) = lower)
      "Leverage tier range is contradictory."
    requireTier (1 ≤ tier.maxLeverage ∧ tier.maxLeverage ≤ maximum)
      "Leverage tier maxima must decrease."
    requireTier (tier.upperBound ≠ none ∨ rest = []) "Only the final tier can be unlimited."
    match tier.upperBound with
    | none => return ()
    | some upper => requireTier ((Decimal.ofText (lower.getD "")).value <
        (Decimal.ofText (← tierNumber upper true)).value) "Invalid tier upper bound."
    validateTierRows tier.upperBound tier.maxLeverage rest

def validateTiers (tiers : List TradingLeverageTier) : Outcome Unit := do
  requireTier (0 < tiers.length ∧ tiers.length ≤ 500) "Complete leverage tiers are required."
  validateTierRows (some "0") 50 tiers

/-- The search loop of `assert_quantity_tier`. -/
def quantityTier (notional : ℚ) (leverage : ℤ) : ℕ → List TradingLeverageTier → Outcome ℕ
  | _, [] => .error (tierError "Quantized notional is outside the proven leverage tiers.")
  | index, tier :: rest =>
    if (Decimal.ofText tier.lowerBound).value ≤ notional ∧
        tier.upperBound.all (fun upper => notional < (Decimal.ofText upper).value) then do
      requireTier (leverage ≤ tier.maxLeverage)
        "Requested leverage exceeds the quantized notional tier."
      return index
    else quantityTier notional leverage (index + 1) rest

def assertQuantityTier (tiers : List TradingLeverageTier) (quantity mark : String)
    (leverage : ℤ) : Outcome ℕ := do
  validateTiers tiers
  requireTier (1 ≤ leverage ∧ leverage ≤ 50) "Invalid requested tier leverage."
  let notional := SignificantDigits.rounded 10 precision
    ((Decimal.ofText (← tierNumber quantity true)).value *
      (Decimal.ofText (← tierNumber mark true)).value)
  quantityTier notional leverage 0 tiers

end Tiers

section Budgets

/-- A number as `json.loads` returns it. -/
inductive Number
  | int (value : ℤ)
  | float (value : ℚ)

/-- `JSON.stringify` writes integers below `10 ^ 21` without a fraction or an exponent. -/
def Number.received (value : ℚ) : Number :=
  if value.den = 1 ∧ |value| < 10 ^ 21 then .int value.num else .float value

def Number.int? : Number → Option ℤ
  | .int value => some value
  | .float _ => none

/-- `_shape(value, fields)`. -/
def shape (value : Json Number) (fields : List String) :
    Outcome (List (String × Json Number)) :=
  match value with
  | .object members => do
    requireTier ((members.map (·.1)).toFinset = fields.toFinset)
      "Invalid exact notional value fields."
    return members
  | _ => .error (tierError "Invalid exact notional value fields.")

def positiveInteger (value : Option (Json Number)) : Outcome ℕ :=
  match value.bind Json.text? with
  | none => .error (tierError "Invalid positive bounded notional coefficient.")
  | some digits => do
    requireTier (TradingRational.positiveInteger digits.toList = true)
      "Invalid positive bounded notional coefficient."
    return Nat.ofDigitChars 10 digits.toList 0

def positiveTerms (value : Option (Json Number)) : Outcome Unit :=
  match (value.bind Json.number?).bind Number.int? with
  | none => .error (tierError "Notional terms must be a positive safe integer.")
  | some terms => requireTier (1 ≤ terms ∧ terms ≤ maxSafeInteger)
    "Notional terms must be a positive safe integer."

/-- `_display(units)`. -/
def display (units : ℕ) : Outcome String := do
  let digits := (Nat.toDigits 10 units).leftpad 19 '0'
  let whole := digits.take (digits.length - 18)
  requireTier (whole.length ≤ 36) "Notional display exceeds the 36-digit integer limit."
  return .ofList (rstrip '.' (rstrip '0' (whole ++ '.' :: digits.drop (digits.length - 18))))

def exactPositiveMoneyValue (value : Json Number) : Outcome ℚ := do
  let members ← shape value ["lower", "upper", "exact", "decimal", "precision", "terms"]
  let exact ← shape ((Json.lookup "exact" members).getD .null) ["numerator", "denominator"]
  let numerator ← positiveInteger (Json.lookup "numerator" exact)
  let denominator ← positiveInteger (Json.lookup "denominator" exact)
  requireTier (Nat.gcd numerator denominator = 1)
    "Notional fraction must already be canonically reduced."
  positiveTerms (Json.lookup "terms" members)
  let units := numerator * 10 ^ 18 / denominator
  let remainder := numerator * 10 ^ 18 % denominator
  let lower ← display units
  let upper ← display (units + if remainder = 0 then 0 else 1)
  requireTier ((Json.lookup "lower" members).bind Json.text? = some lower ∧
      (Json.lookup "upper" members).bind Json.text? = some upper ∧
      (Json.lookup "decimal" members).bind Json.nullableText? =
        some (if remainder = 0 then some lower else none) ∧
      (Json.lookup "precision" members).bind Json.text? =
        some (if remainder = 0 then "exact_decimal" else "exact_rational"))
    "Notional fraction, bounds, decimal and precision disagree."
  return numerator / denominator

def precisionText : Precision → String
  | .exactDecimal => "exact_decimal"
  | .exactRational => "exact_rational"
  | .bounded => "bounded"

def moneyJson (value : MoneyValue) : Json ℚ :=
  .object [("lower", .string value.lower), ("upper", .string value.upper),
    ("exact", value.exact.elim .null (fun exact => .object
      [("numerator", .string exact.numerator), ("denominator", .string exact.denominator)])),
    ("decimal", value.decimal.elim .null .string),
    ("precision", .string (precisionText value.precision)),
    ("terms", .number value.terms)]

def received (value : Json ℚ) : Json Number := value.map Number.received

def assertFxTierBudget (decision : TradingLeverageTierDecision)
    (currency quantity mark specPrice : String) : Outcome Unit := do
  let maximum ← exactPositiveMoneyValue
    (received (decision.maximumNotionalValue.elim .null moneyJson))
  requireTier (decision.maximumNotionalCurrency = some currency)
    "Original notional budget currency changed."
  requireTier (decision.maximumNotional = decision.maximumNotionalValue.bind (·.decimal))
    "Original notional decimal alias differs from its exact value."
  let valuation := max (Decimal.ofText (← tierNumber mark true)).value
    (Decimal.ofText (← tierNumber specPrice true)).value
  requireTier ((Decimal.ofText (← tierNumber quantity true)).value * valuation ≤ maximum)
    "Current valuation exceeds the original margin/notional budget."

end Budgets

/-- `dataRecord(value, keys)` of a parsed value. -/
def dataRecord (value : Json ℚ) (keys : List String) : Option (List (String × Json ℚ)) :=
  match value with
  | .object members =>
    if members.length = keys.length ∧ keys.all (fun key => (Json.lookup key members).isSome) then
      some members
    else none
  | _ => none

def readExact : Json ℚ → Option (Option TradingRational.ExactRational)
  | .null => some none
  | value => do
    let members ← dataRecord value ["numerator", "denominator"]
    let numerator ← (Json.lookup "numerator" members).bind Json.text?
    let denominator ← (Json.lookup "denominator" members).bind Json.text?
    return some ⟨numerator, denominator⟩

def readPrecision : String → Option Precision
  | "exact_decimal" => some .exactDecimal
  | "exact_rational" => some .exactRational
  | "bounded" => some .bounded
  | _ => none

/-- The checks of `validateMoneyValue` on the type of a field. -/
def readMoneyValue (value : Json ℚ) : Option MoneyValue := do
  let members ← dataRecord value ["lower", "upper", "exact", "decimal", "precision", "terms"]
  let lower ← (Json.lookup "lower" members).bind Json.text?
  let upper ← (Json.lookup "upper" members).bind Json.text?
  let exact ← (Json.lookup "exact" members).bind readExact
  let decimal ← (Json.lookup "decimal" members).bind Json.nullableText?
  let precision ← ((Json.lookup "precision" members).bind Json.text?).bind readPrecision
  let terms ← (Json.lookup "terms" members).bind Json.number?
  if terms.den = 1 then return ⟨lower, upper, exact, decimal, precision, terms.num⟩ else none

/-- `validateMoneyValue(value)` of any parsed value. -/
def validateMoneyJson (value : Json ℚ) : Outcome MoneyValue :=
  match readMoneyValue value with
  | none => .error (.error "Invalid money value structure.")
  | some money => validateMoneyValue money

end TsxCore.Executor
