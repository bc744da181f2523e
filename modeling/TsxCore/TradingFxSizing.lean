import TsxCore.TradingTypes
import TsxCore.MoneyAmount
import TsxCore.RationalProducts

/-!
# Sizing across currencies (`trading_fx_sizing.ts`)

When an account reports in one stable asset and the market settles in another,
equity and balance are converted with the stored rate as exact fractions and only
the final quantity is rounded, down to the step of the market. The notional budget
that the tier decision records is computed again from the same fractions.
-/

namespace TsxCore.TradingFxSizing

open Outcome TradingDecimal TradingRational TradingMoneyValue TradingTypes TradingFxQuotes

structure FxSizingInput where
  account : TradingAccountSnapshot
  market : TradingMarketSnapshot
  strategy : StrategyConfiguration
  fxConversion : Option StoredFxConversion

structure FxQuantityInput extends FxSizingInput where
  entry : String
  distance : String
  percent : String
  leverage : ℤ

def positive (value : String) : Outcome ExactRational := do
  rationalFromDecimal (← decimal value true)

def nonnegative (value : String) : Outcome ExactRational := do
  rationalFromDecimal (← decimal value)

/-- `minimum(first, ...values)`; ties keep the earlier fraction. -/
def minimum (first : ExactRational) (values : List ExactRational) : Outcome ExactRational :=
  values.foldlM (fun left right => do
    return if (← compareRational left right) ≤ 0 then left else right) first

/-- `/^[a-f0-9]{64}$/`. -/
def conversionIdPattern (value : String) : Bool :=
  value.toList.length == 64 && value.toList.all fun c =>
    ('a' ≤ c && c ≤ 'f') || ('0' ≤ c && c ≤ '9')

def sizingAssets : List String := ["USD", "USDT", "USDC"]

section Context

variable (digest : FxConversion → Outcome String) (now : ℤ)

def assertSizingRecipe (fx : Option StoredFxConversion) (reporting settlement : String) :
    Outcome StoredFxConversion := do
  throwIf (¬ (reporting ∈ sizingAssets ∧ settlement ∈ sizingAssets))
    (invalidFx "SIZING_ASSET_UNSUPPORTED")
  match fx with
  | none => throw (invalidFx "SIZING_CONVERSION_UNPROVEN")
  | some fx => do
    throwIf (conversionIdPattern fx.id = false ∨ fx.conversion.baseAsset ≠ settlement ∨
      fx.conversion.quoteAsset ≠ reporting) (invalidFx "SIZING_CONVERSION_UNPROVEN")
    assertFxConversionFresh digest now fx.conversion
    let order ← compareRational fx.conversion.rate (← rationalFromDecimal "0")
    throwIf (order ≤ 0) (invalidFx "SIZING_RATE_INVALID")
    return fx

def present (value : Option String) : Option String := value.filter (· ≠ "")

def fxSizingContext (input : FxSizingInput) : Outcome (Option TradingFxSizingContext) := do
  match present input.account.reportingCurrency,
    present (input.market.accounting.map (·.settlementAsset)) with
  | some reporting, some settlement =>
    if reporting = settlement then
      throwIf (input.fxConversion ≠ none) (invalidFx "SIZING_UNEXPECTED_CONVERSION")
      return none
    else
      let fx ← assertSizingRecipe digest now input.fxConversion reporting settlement
      return some {
        version := 1
        conversionId := fx.id
        conversion := fx.conversion
        reportingCurrency := reporting
        notionalCurrency := settlement
        strategyMaximumNotionalCurrency := settlement
        riskAmountCurrency :=
          if input.strategy.sizing.positionSizingMode.getD .riskPercent = .riskPercent
            then reporting
          else settlement }
  | _, _ =>
    throwIf (input.fxConversion ≠ none) (invalidFx "SIZING_UNITS_UNPROVEN")
    return none

structure SizingBudgets where
  capital : ExactRational
  leverage : ExactRational
  available : ExactRational
  strategyMaximum : ExactRational

def sizingBudgets (input : FxQuantityInput) : Outcome SizingBudgets := do
  match ← fxSizingContext digest now input.toFxSizingInput, input.fxConversion with
  | some _, some fx => do
    let rate := fx.conversion.rate
    let leverage ← positive (bigintText input.leverage)
    let capitalReporting ← divideRational
      (← multiplyRational (← nonnegative input.account.equity) (← positive input.percent))
      (← positive "100")
    let capital ← divideRational capitalReporting rate
    let available ← divideRational
      (← multiplyRational (← nonnegative input.account.availableBalance) leverage) rate
    let strategyMaximum ← positive input.strategy.sizing.maxPositionNotional
    return ⟨capital, leverage, available, strategyMaximum⟩
  | _, _ => throw (invalidFx "SIZING_CONVERSION_UNPROVEN")

def notionalBudget (budget : SizingBudgets) (mode : Option PositionSizingMode) :
    Outcome ExactRational := do
  match mode with
  | some .equityPercentMargin =>
    minimum budget.strategyMaximum
      [budget.available, ← multiplyRational budget.capital budget.leverage]
  | some .equityPercentNotional =>
    minimum budget.strategyMaximum [budget.available, budget.capital]
  | _ => minimum budget.strategyMaximum [budget.available]

/-- `if (mode === 'risk_percent') quantity = minimum(quantity, …)`. -/
def limitByRisk (budget : SizingBudgets) (mode : PositionSizingMode) (distance : String)
    (quantity : ExactRational) : Outcome ExactRational := do
  match mode with
  | .riskPercent => minimum quantity [← divideRational budget.capital (← positive distance)]
  | _ => return quantity

def fxSizedQuantity (input : FxQuantityInput) : Outcome String := do
  let budget ← sizingBudgets digest now input
  let mode := input.strategy.sizing.positionSizingMode.getD .riskPercent
  let byNotional ← divideRational (← notionalBudget budget (some mode)) (← positive input.entry)
  let quantity ← limitByRisk budget mode input.distance byNotional
  let result ← quantizeRational quantity input.market.quantityStep .floor
  let order ← compareDecimal result input.market.minimumQuantity
  throwIf (order < 0 ∨ result = "0") (invalidFx "SIZING_QUANTITY_BELOW_MINIMUM")
  let actualNotional ← multiplyRational (← nonnegative result) (← positive input.entry)
  let notionalOrder ← compareRational actualNotional (← nonnegative input.market.minimumNotional)
  throwIf (notionalOrder < 0) (invalidFx "SIZING_NOTIONAL_BELOW_MINIMUM")
  return result

def fxNotionalBudget (input : FxQuantityInput) : Outcome MoneyValue := do
  moneyValueFromRational
    (← notionalBudget (← sizingBudgets digest now input) input.strategy.sizing.positionSizingMode)

end Context

theorem positive_ok_iff {s : String} {r : ExactRational} :
    positive s = .ok r ↔ ∃ u, Reads s u ∧ 0 < u ∧ rationalText (unitValue u) = r := by
  simp only [positive, bind_eq_ok, decimal_positive_ok_iff]
  constructor
  · intro h
    obtain ⟨_, ⟨u, hu, hpos, rfl⟩, h⟩ := h
    rw [rationalFromDecimal_text hu.lt, Except.ok.injEq] at h
    exact ⟨u, hu, hpos, h⟩
  · intro h
    obtain ⟨u, hu, hpos, rfl⟩ := h
    exact ⟨_, ⟨u, hu, hpos, rfl⟩, rationalFromDecimal_text hu.lt⟩

theorem minimum_cons_ok_iff {first x r : ExactRational} {rest : List ExactRational} :
    minimum first (x :: rest) = .ok r ↔ ∃ p q, Represents first p ∧ Represents x q ∧
      minimum (if p ≤ q then first else x) rest = .ok r := by
  have horder : ∀ p q : ℚ, order p q ≤ 0 ↔ p ≤ q := by
    intro p q
    rw [← not_lt, order_pos_iff, not_lt]
  simp only [minimum, List.foldlM_cons, bind_eq_ok, pure_eq_ok_iff, compareRational_ok_iff]
  constructor
  · intro h
    obtain ⟨_, ⟨_, ⟨p, q, hp, hq, rfl⟩, rfl⟩, h⟩ := h
    simp only [horder] at h
    exact ⟨p, q, hp, hq, h⟩
  · intro h
    obtain ⟨p, q, hp, hq, h⟩ := h
    refine ⟨_, ⟨_, ⟨p, q, hp, hq, rfl⟩, rfl⟩, ?_⟩
    simp only [horder]
    exact h

theorem Represents.ite_le {x y : ExactRational} {p q : ℚ} (hp : Represents x p)
    (hq : Represents y q) : Represents (if p ≤ q then x else y) (min p q) := by
  split_ifs with hle
  · rwa [min_eq_left hle]
  · rwa [min_eq_right (not_le.mp hle).le]

section Sizing

variable {digest : FxConversion → Outcome String} {now : ℤ} {input : FxQuantityInput}

theorem notionalBudget_getD (budget : SizingBudgets) (mode : Option PositionSizingMode) :
    notionalBudget budget (some (mode.getD .riskPercent)) = notionalBudget budget mode := by
  cases mode with
  | none => rfl
  | some mode => cases mode <;> rfl

def Budget (digest : FxConversion → Outcome String) (now : ℤ) (input : FxQuantityInput) (b : ℚ) :
    Prop :=
  ∃ budget r, sizingBudgets digest now input = .ok budget ∧
    notionalBudget budget input.strategy.sizing.positionSizingMode = .ok r ∧ Represents r b

theorem Budget.unique {b b' : ℚ} (h : Budget digest now input b) (h' : Budget digest now input b') :
    b = b' := by
  obtain ⟨budget, r, hbud, hr, hb⟩ := h
  obtain ⟨budget', r', hbud', hr', hb'⟩ := h'
  rw [hbud] at hbud'
  cases hbud'
  rw [hr] at hr'
  cases hr'
  exact hb.unique hb'

theorem unitValue_floor_le {x : ℚ} {u w : ℕ} (hu : 0 < u) (hw : ⌊x / unitValue u⌋ * (u : ℤ) = w) :
    unitValue w ≤ x := by
  have hpos : 0 < unitValue u := by
    rw [unitValue_natCast]
    positivity
  have hval : unitValue w = ⌊x / unitValue u⌋ * unitValue u := by
    rw [← hw, unitValue, unitValue]
    push_cast
    rw [mul_div_assoc]
  rw [hval, ← le_div_iff₀ hpos]
  exact Int.floor_le _

theorem limitByRisk_le {budget : SizingBudgets} {mode : PositionSizingMode} {distance : String}
    {x y : ExactRational} {p q : ℚ} (h : limitByRisk budget mode distance x = .ok y)
    (hx : Represents x p) (hy : Represents y q) : q ≤ p := by
  cases mode with
  | riskPercent =>
    simp only [limitByRisk, bind_eq_ok, minimum_cons_ok_iff] at h
    obtain ⟨_, -, d, -, p', r, hp', hr, h⟩ := h
    obtain rfl := hx.unique hp'
    obtain rfl : (if p ≤ r then x else d) = y := by simpa [minimum] using h
    rw [hy.unique (Represents.ite_le hx hr)]
    exact min_le_left _ _
  | equityPercentNotional =>
    cases h
    exact (hy.unique hx).le
  | equityPercentMargin =>
    cases h
    exact (hy.unique hx).le

/-- The sized quantity is a positive number of quanta whose notional is within the budget. -/
theorem fxSizedQuantity_within {s : String} (h : fxSizedQuantity digest now input = .ok s) :
    ∃ w e b, text w = s ∧ 0 < w ∧ w < unitLimit ∧ Reads input.entry e ∧ 0 < e ∧
      Budget digest now input b ∧ unitValue w * unitValue e ≤ b := by
  simp only [fxSizedQuantity, bind_eq_ok, notionalBudget_getD, divideRational_ok_iff,
    positive_ok_iff, quantizeRational_ok_iff, compareDecimal_ok_iff, throwIf_eq_ok,
    pure_eq_ok_iff] at h
  obtain ⟨budget, hbud, r, hr, _, ⟨e, he, hepos, rfl⟩, _, ⟨b, e', hb, he', -, hfit, rfl⟩, x, hx,
    _, ⟨y, u, hy, hu, hupos, -, rfl⟩, _, ⟨w, m, hw, -, rfl⟩, -, hnonzero, h⟩ := h
  obtain ⟨_, -, _, -, _, -, _, -, _, -, -, -, rfl⟩ := h
  obtain ⟨rfl, -⟩ := represents_rationalText_iff.mp he'
  obtain ⟨hcount, -⟩ := readsSigned_signedText_iff.mp hw.readsSigned
  have hbound : y ≤ b / unitValue e := limitByRisk_le hx (represents_rationalText hfit) hy
  have hepos' : 0 < unitValue e := by
    rw [unitValue_natCast]
    positivity
  have hw0 : 0 < w := by
    apply Nat.pos_of_ne_zero
    intro hzero
    apply hnonzero
    right
    rw [hcount, hzero]
    exact signedText_eq_zero.mpr rfl
  refine ⟨w, e, b, ?_, hw0, hw.lt, he, hepos, ⟨budget, r, hbud, hr, hb⟩, ?_⟩
  · rw [hcount, signedText_natCast]
  · calc
      unitValue w * unitValue e ≤ b / unitValue e * unitValue e := by
        apply mul_le_mul_of_nonneg_right _ hepos'.le
        exact (unitValue_floor_le hupos hcount).trans hbound
      _ = b := div_mul_cancel₀ b hepos'.ne'

theorem fxNotionalBudget_exact {m : MoneyValue} (h : fxNotionalBudget digest now input = .ok m) :
    ∃ b x, Budget digest now input b ∧ m.exact = some x ∧ Represents x b := by
  simp only [fxNotionalBudget, moneyValueFromRational, exactFraction, bind_eq_ok,
    rational_ok_iff, throwIf_eq_ok, pure_eq_ok_iff] at h
  obtain ⟨budget, hbud, r, hr, _, ⟨_, ⟨b, hb, hfit, rfl⟩, -, -, rfl⟩, h⟩ := h
  obtain ⟨-, -, rfl⟩ := (exactValue_ok_iff hfit (t := 1)).mp h
  exact ⟨b, _, ⟨budget, r, hbud, hr, hb⟩, rfl, represents_rationalText hfit⟩

end Sizing

end TsxCore.TradingFxSizing
