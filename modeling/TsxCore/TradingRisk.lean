import TsxCore.TradingLeverageTiers
import TsxCore.TradingFxSizing

/-!
# Trading plans (`trading_risk.ts`)

`createTradingPlan` turns an executable signal into an entry, a stop and one
take-profit order per target. Prices are rounded to the tick in the direction that
the side and the kind of entry ask for, the quantity is sized from the risk, the
notional cap and the buying power, and a market entry becomes a limit order at the
price of its slippage boundary. `Runtime` holds what the module takes from outside:
the SHA-256 digest of a text in hexadecimal, the digest of a conversion, and the
clock, which is read once per plan.
-/

namespace TsxCore.TradingRisk

open Outcome TradingDecimal TradingMoneyValue TradingTypes TradingFxQuotes TradingFxSizing
open TradingLeverageTiers

structure Runtime where
  sha256 : String → String
  fxEvidenceDigest : FxConversion → Outcome String
  dateNow : ℤ

def tradingRiskError (code message : String) : Thrown := ⟨"TradingRiskError", some code, message⟩

def priceQuantum (value : String) : Outcome ℕ := do
  let normalized ← decimal value true
  return Nat.ofDigitChars 10
    (integerPart normalized ++ (fractionPart normalized).rightpad 18 '0') 0

def formatPriceQuantum (value : ℕ) : Outcome String :=
  let digits := (Nat.toDigits 10 value).leftpad 19 '0'
  decimal (.ofList (digits.take (digits.length - 18) ++ '.' :: digits.drop (digits.length - 18)))
    true

def createEntryPriceBoundary (side : TradingSide)
    (referencePrice priceTick maxSlippagePercent : String) :
    Outcome TradingEntryPriceBoundary := do
  let referencePrice ← decimal referencePrice true
  let priceTick ← decimal priceTick true
  let maxSlippagePercent ← decimal maxSlippagePercent true (some "5")
  let hundred := 100 * 10 ^ 18
  let slippage ← priceQuantum maxSlippagePercent
  let factor := match side with
    | .long => hundred + slippage
    | .short => hundred - slippage
  let numerator := (← priceQuantum referencePrice) * factor
  let denominator := hundred * (← priceQuantum priceTick)
  let ticks := match side with
    | .long => numerator / denominator
    | .short => (numerator + denominator - 1) / denominator
  let limitPrice ← formatPriceQuantum (ticks * (← priceQuantum priceTick))
  return ⟨1, referencePrice, maxSlippagePercent, priceTick, limitPrice⟩

def assertBoundaryContract (boundary : TradingEntryPriceBoundary) (side : TradingSide)
    (slippage : String) : Outcome Unit := do
  let expected ← createEntryPriceBoundary side boundary.referencePrice boundary.priceTick slippage
  throwIf (boundary ≠ expected) (tradingRiskError "ENTRY_PRICE_BOUND_UNPROVEN"
    "Original entry price boundary is invalid or changed.")

def assertEntryPriceBoundary (side : TradingSide) (maxSlippagePercent : String)
    (entryPriceBoundary : Option TradingEntryPriceBoundary) (entry : PlannedOrder) :
    Outcome Unit := do
  match entryPriceBoundary with
  | none =>
    throwIf (entry.orderType = .market ∨ entry.immediateOrCancel = true)
      (tradingRiskError "ENTRY_PRICE_BOUND_UNPROVEN"
        "Market-based entry requires its original price boundary.")
  | some boundary =>
    assertBoundaryContract boundary side maxSlippagePercent
    throwIf (entry.role ≠ .entry ∨ entry.reduceOnly = true ∨ entry.orderType ≠ .limit ∨
        entry.immediateOrCancel = false ∨ entry.postOnly = true ∨
        entry.price ≠ some boundary.limitPrice ∨
        entry.side ≠ match side with | .long => OrderSide.buy | .short => OrderSide.sell)
      (tradingRiskError "ENTRY_PRICE_BOUND_UNPROVEN"
        "Entry must retain its original price-limited IOC contract.")

/-- A signal without a range, or a strategy that enters at market. -/
def isMarketEntry (signal : ExecutableSignal) (strategy : StrategyConfiguration) : Bool :=
  signal.entry == .market || strategy.entry.orderType == .market

/-- `input.entryPriceBoundary ?? createEntryPriceBoundary(…)`. -/
def originalBoundary (signal : ExecutableSignal) (strategy : StrategyConfiguration)
    (market : TradingMarketSnapshot) :
    Option TradingEntryPriceBoundary → Outcome TradingEntryPriceBoundary
  | some boundary => return boundary
  | none => createEntryPriceBoundary signal.action market.markPrice market.priceTick
      strategy.safety.maxSlippagePercent

def planPriceBoundary (signal : ExecutableSignal) (strategy : StrategyConfiguration)
    (market : TradingMarketSnapshot) (entryPriceBoundary : Option TradingEntryPriceBoundary) :
    Outcome (Option TradingEntryPriceBoundary) := do
  if isMarketEntry signal strategy = false then
    throwIf (entryPriceBoundary ≠ none) (tradingRiskError "ENTRY_PRICE_BOUND_UNPROVEN"
      "Ordinary signal limits must not become market IOC entries.")
    return none
  else
    let boundary ← originalBoundary signal strategy market entryPriceBoundary
    assertBoundaryContract boundary signal.action strategy.safety.maxSlippagePercent
    throwIf (boundary.priceTick ≠ (← decimal market.priceTick))
      (tradingRiskError "ENTRY_PRICE_BOUND_UNPROVEN"
        "Market tick changed since original entry planning.")
    return some boundary

def resolveEntryExpiresAt (originAt ttlSeconds : ℤ) (earlierDeadline : Option ℤ) : Outcome ℤ := do
  let deadline := originAt + ttlSeconds * 1000
  throwIf (¬ isSafeInteger originAt ∨ originAt ≤ 0 ∨ ¬ isSafeInteger ttlSeconds ∨
      ttlSeconds < 10 ∨ 86400 < ttlSeconds ∨ ¬ isSafeInteger deadline)
    (tradingRiskError "ENTRY_DEADLINE_UNPROVEN"
      "Original entry origin or deadline cannot be proven.")
  match earlierDeadline with
  | none => return deadline
  | some earlier =>
    throwIf (¬ isSafeInteger earlier ∨ earlier ≤ 0)
      (tradingRiskError "ENTRY_DEADLINE_UNPROVEN" "Persisted entry deadline is invalid.")
    return min deadline earlier

def clientOrderId (sha256 : String → String) (intentId : String) (role : OrderRole)
    (index : ℕ := 0) : String :=
  "0x" ++ .ofList
    ((sha256 (intentId ++ ":" ++ role.text ++ ":" ++ bigintText index)).toList.take 32)

def entryPrice (signal : ExecutableSignal) (strategy : StrategyConfiguration)
    (market : TradingMarketSnapshot) : Outcome String :=
  if strategy.entry.orderType = .market then return market.markPrice
  else
    match signal.entry with
    | .market => return market.markPrice
    | .range bounds =>
      match strategy.entry.rangePrice, signal.action with
      | .midpoint, _ => midpointDecimal bounds.min bounds.max
      | .near, .long => return bounds.max
      | .near, .short => return bounds.min
      | .far, .long => return bounds.min
      | .far, .short => return bounds.max

def quantizeDecimalUp (value increment : String) : Outcome String := do
  let down ← quantizeDecimalDown value increment
  if (← compareDecimal down value) = 0 then return down else addDecimal down increment

def quantizedEntryPrice (signal : ExecutableSignal) (strategy : StrategyConfiguration)
    (market : TradingMarketSnapshot) : Outcome String := do
  let raw ← decimal (← entryPrice signal strategy market) true
  match isMarketEntry signal strategy, signal.action with
  | true, .long => quantizeDecimalUp raw market.priceTick
  | true, .short => quantizeDecimalDown raw market.priceTick
  | false, .long => quantizeDecimalDown raw market.priceTick
  | false, .short => quantizeDecimalUp raw market.priceTick

def quantizedStopPrice (signal : ExecutableSignal) (market : TradingMarketSnapshot) :
    Outcome String :=
  match signal.action with
  | .long => quantizeDecimalDown signal.stopLoss market.priceTick
  | .short => quantizeDecimalUp signal.stopLoss market.priceTick

def assertStrategyAllows (signal : ExecutableSignal) (strategy : StrategyConfiguration) :
    Outcome Unit := do
  throwIf (signal.schema ∉ strategy.allowedSignalSchemas) (tradingRiskError "SIGNAL_SCHEMA_BLOCKED"
    ("Strategy does not allow " ++ signal.schema ++ " signals."))
  throwIf (signal.action ∉ strategy.allowedSides) (tradingRiskError "SIDE_BLOCKED"
    ("Strategy does not allow " ++ signal.action.text ++ " positions."))
  throwIf (0 < strategy.allowedSymbols.length ∧ signal.symbol ∉ strategy.allowedSymbols)
    (tradingRiskError "SYMBOL_BLOCKED" ("Strategy does not allow " ++ signal.symbol ++ "."))

/-- `riskDistance` of a signal whose stop is the submitted one. -/
def riskDistance (action : TradingSide) (stopLoss price : String) : Outcome String := do
  let order ← compareDecimal stopLoss price
  match action with
  | .long => do
    throwIf (0 ≤ order) (tradingRiskError "INVALID_STOP" "LONG stop must be below entry.")
    subtractDecimal price stopLoss
  | .short => do
    throwIf (order ≤ 0) (tradingRiskError "INVALID_STOP" "SHORT stop must be above entry.")
    subtractDecimal stopLoss price

def leverageCapSource (strategyCaps marketCaps : Bool) : Option LeverageCap :=
  match strategyCaps, marketCaps with
  | true, true => some .strategyAndMarket
  | true, false => some .strategy
  | false, true => some .market
  | false, false => none

def resolveLeverageDecision (signal : ExecutableSignal) (strategy : StrategyConfiguration)
    (market : TradingMarketSnapshot) : LeverageDecision :=
  let requested := signal.suggestedLeverage.getD
    (strategy.sizing.defaultLeverage.getD strategy.sizing.maxLeverage)
  let strategyMaximum := strategy.sizing.maxLeverage
  let marketMaximum := market.maxLeverage
  let effective := min (min (min requested strategyMaximum) marketMaximum) 50
  let strategyCaps := decide (strategyMaximum < requested ∧ strategyMaximum = effective)
  let marketCaps := decide (marketMaximum < requested ∧ marketMaximum = effective)
  { requested
    requestedSource := if signal.suggestedLeverage.isSome then .signal else .strategyDefault
    strategyMaximum
    marketMaximum
    effective
    cappedBy := leverageCapSource strategyCaps marketCaps }

/-- The minimum checks that the three sizing functions share; `label` opens both messages. -/
def aboveMinimum (label : String) (market : TradingMarketSnapshot) (entry quantity : String) :
    Outcome String := do
  throwIf ((← compareDecimal quantity market.minimumQuantity) < 0)
    (tradingRiskError "QUANTITY_BELOW_MINIMUM"
      (label ++ " quantity is below the exchange minimum."))
  throwIf ((← compareDecimal (← multiplyDecimal quantity entry) market.minimumNotional) < 0)
    (tradingRiskError "NOTIONAL_BELOW_MINIMUM"
      (label ++ " notional is below the exchange minimum."))
  return quantity

def positionQuantity (account : TradingAccountSnapshot) (market : TradingMarketSnapshot)
    (entry riskAmount riskDistance maxNotional : String) (leverage : ℤ) : Outcome String := do
  let byRisk ← divideDecimal riskAmount riskDistance
  let byNotional ← divideDecimal maxNotional entry
  let buyingPower ← multiplyDecimal account.availableBalance (bigintText leverage)
  let byBuyingPower ← divideDecimal buyingPower entry
  let quantity ← quantizeDecimalDown (← minDecimal byRisk [byNotional, byBuyingPower])
    market.quantityStep
  aboveMinimum "Risk-limited" market entry quantity

def equityPercentPositionQuantity (account : TradingAccountSnapshot)
    (market : TradingMarketSnapshot) (entry positionPercent maxNotional : String) (leverage : ℤ) :
    Outcome String := do
  let portfolioNotional ← divideDecimal (← multiplyDecimal account.equity positionPercent) "100"
  let buyingPower ← multiplyDecimal account.availableBalance (bigintText leverage)
  let allowedNotional ← minDecimal portfolioNotional [maxNotional, buyingPower]
  let quantity ← quantizeDecimalDown (← divideDecimal allowedNotional entry) market.quantityStep
  aboveMinimum "Portfolio-sized" market entry quantity

def equityPercentMarginQuantity (account : TradingAccountSnapshot)
    (market : TradingMarketSnapshot) (entry capitalPercent maxNotional : String) (leverage : ℤ) :
    Outcome String := do
  let deployedCapital ← divideDecimal (← multiplyDecimal account.equity capitalPercent) "100"
  let leveragedNotional ← multiplyDecimal deployedCapital (bigintText leverage)
  let buyingPower ← multiplyDecimal account.availableBalance (bigintText leverage)
  let allowedNotional ← minDecimal leveragedNotional [maxNotional, buyingPower]
  let quantity ← quantizeDecimalDown (← divideDecimal allowedNotional entry) market.quantityStep
  aboveMinimum "Capital-sized" market entry quantity

/-- The loop of `allocateTargetQuantities`; the last target takes what is left. -/
def allocateTargets (quantity step : String) : String → List String → Outcome (List String)
  | _, [] => return []
  | allocated, [_] => return [← subtractDecimal quantity allocated]
  | allocated, allocation :: next :: rest => do
    let target ← quantizeDecimalDown
      (← divideDecimal (← multiplyDecimal quantity allocation) "100") step
    throwIf ((← compareDecimal target "0") ≤ 0)
      (tradingRiskError "TARGET_QUANTITY_BELOW_MINIMUM" "A take-profit allocation rounds to zero.")
    let others ← allocateTargets quantity step (← addDecimal allocated target) (next :: rest)
    return target :: others

def allocateTargetQuantities (quantity : String) (allocations : List String) (step : String) :
    Outcome (List String) :=
  allocateTargets quantity step "0" allocations

/-- Halves of what remains, then the remainder itself. -/
def halvings : ℕ → String → Outcome (List String)
  | 0, remaining => return [remaining]
  | count + 1, remaining => do
    let allocation ← divideDecimal remaining "2"
    let others ← halvings count (← subtractDecimal remaining allocation)
    return allocation :: others

def adaptiveTargetAllocations (targetCount : ℕ) : Outcome (List String) := do
  throwIf (targetCount < 1 ∨ 20 < targetCount) (tradingRiskError "INVALID_TARGET_COUNT"
    "Adaptive target count must be between one and twenty.")
  halvings (targetCount - 1) "100"

def resolveTargetAllocations (strategy : StrategyConfiguration) (targetCount : ℕ) :
    Outcome (List String) :=
  match strategy.exits.targetAllocationMode.getD .manual with
  | .adaptiveHalving => adaptiveTargetAllocations targetCount
  | .manual => do
    let allocations := strategy.exits.targetAllocationsPercent
    throwIf (allocations.length ≠ targetCount) (tradingRiskError "TARGET_COUNT_MISMATCH"
      ("Strategy defines " ++ bigintText allocations.length ++ " exits but the signal contains " ++
        bigintText targetCount ++ " targets."))
    return allocations

structure TradingPlanInput where
  intentId : String
  signal : ExecutableSignal
  strategy : StrategyConfiguration
  account : TradingAccountSnapshot
  market : TradingMarketSnapshot
  fxConversion : Option StoredFxConversion
  effectiveRiskPercent : Option String
  entryOriginAt : Option ℤ
  entryExpiresAt : Option ℤ
  entryPriceBoundary : Option TradingEntryPriceBoundary
  now : Option ℤ

def TradingPlanInput.toFxSizingInput (input : TradingPlanInput) : FxSizingInput :=
  ⟨input.account, input.market, input.strategy, input.fxConversion⟩

def TradingPlanInput.isMarket (input : TradingPlanInput) : Bool :=
  isMarketEntry input.signal input.strategy

def targetQuantity (quantities : List String) (index : ℕ) : Outcome String :=
  match quantities[index]? with
  | none => throw (.error "Target allocation is missing.")
  | some quantity => return quantity

def takeProfitPrice (input : TradingPlanInput) (target : DecimalRange) : Outcome String := do
  let midpoint ← midpointDecimal target.min target.max
  match input.signal.action with
  | .long => quantizeDecimalDown midpoint input.market.priceTick
  | .short => quantizeDecimalUp midpoint input.market.priceTick

def takeProfitOrders (sha256 : String → String) (input : TradingPlanInput) (side : OrderSide)
    (quantities : List String) : ℕ → List DecimalRange → Outcome (List PlannedOrder)
  | _, [] => return []
  | index, target :: rest => do
    let quantity ← targetQuantity quantities index
    let price ← takeProfitPrice input target
    let order : PlannedOrder := {
      clientOrderId := clientOrderId sha256 input.intentId .takeProfit (index + 1)
      role := .takeProfit
      side
      orderType := .limit
      immediateOrCancel := false
      quantity
      price := some price
      triggerPrice := none
      reduceOnly := true
      postOnly := false
      targetIndex := some (index + 1) }
    return order :: (← takeProfitOrders sha256 input side quantities (index + 1) rest)

def entryOrder (sha256 : String → String) (input : TradingPlanInput) (entry quantity : String)
    (entryPriceBoundary : Option TradingEntryPriceBoundary) : PlannedOrder where
  clientOrderId := clientOrderId sha256 input.intentId .entry
  role := .entry
  side := if input.signal.action = .long then .buy else .sell
  orderType := if entryPriceBoundary.isSome ∨ input.isMarket = false then .limit else .market
  immediateOrCancel := entryPriceBoundary.isSome
  quantity
  price := match entryPriceBoundary with
    | some boundary => some boundary.limitPrice
    | none => if input.isMarket then none else some entry
  triggerPrice := none
  reduceOnly := false
  postOnly := !input.isMarket && input.strategy.entry.postOnly
  targetIndex := none

def stopOrder (sha256 : String → String) (input : TradingPlanInput) (stop quantity : String) :
    PlannedOrder where
  clientOrderId := clientOrderId sha256 input.intentId .stopLoss
  role := .stopLoss
  side := if input.signal.action = .long then .sell else .buy
  orderType := .stopMarket
  immediateOrCancel := false
  quantity
  price := none
  triggerPrice := some stop
  reduceOnly := true
  postOnly := false
  targetIndex := none

def plannedOrders (sha256 : String → String) (input : TradingPlanInput)
    (entry stop quantity : String) (targetAllocations : List String)
    (entryPriceBoundary : Option TradingEntryPriceBoundary) : Outcome (List PlannedOrder) := do
  let targets ← allocateTargetQuantities quantity targetAllocations input.market.quantityStep
  let closingSide := if input.signal.action = .long then .sell else .buy
  let takeProfits ← takeProfitOrders sha256 input closingSide targets 0 input.signal.targets
  return entryOrder sha256 input entry quantity entryPriceBoundary ::
    stopOrder sha256 input stop quantity :: takeProfits

def selectedPlanRisk (input : TradingPlanInput) : Outcome String := do
  let sizing := input.strategy.sizing
  let adaptiveCeiling := sizing.maxAdaptiveRiskPercent.getD sizing.riskPerTradePercent
  match present input.effectiveRiskPercent with
  | some effective => minDecimal (← decimal effective true (some "10")) [adaptiveCeiling]
  | none => return sizing.riskPerTradePercent

def configuredPlanRisk (input : TradingPlanInput) : Outcome String := do
  let selectedRisk ← selectedPlanRisk input
  match input.strategy.sizing.positionSizingMode.getD .riskPercent,
    present input.signal.suggestedRiskPercent with
  | .riskPercent, some suggested => minDecimal selectedRisk [suggested]
  | _, _ => return selectedRisk

def TradingPlanInput.fxQuantityInput (input : TradingPlanInput)
    (entry percent distance : String) (leverage : ℤ) : FxQuantityInput :=
  { input.toFxSizingInput with entry, percent, distance, leverage }

def quantityForPlan (runtime : Runtime) (input : TradingPlanInput)
    (entry riskPercent distance : String) (leverage : ℤ) : Outcome String := do
  let sizing := input.strategy.sizing
  match input.fxConversion, sizing.positionSizingMode with
  | some _, _ =>
    fxSizedQuantity runtime.fxEvidenceDigest runtime.dateNow
      (input.fxQuantityInput entry riskPercent distance leverage)
  | none, some .equityPercentNotional =>
    equityPercentPositionQuantity input.account input.market entry riskPercent
      sizing.maxPositionNotional leverage
  | none, some .equityPercentMargin =>
    equityPercentMarginQuantity input.account input.market entry riskPercent
      sizing.maxPositionNotional leverage
  | none, _ =>
    let riskAmount ← divideDecimal (← multiplyDecimal input.account.equity riskPercent) "100"
    positionQuantity input.account input.market entry riskAmount distance
      sizing.maxPositionNotional leverage

/-- The `sized` budget of the mode; `capital` is the percentage of equity. -/
def modeNotional (input : TradingPlanInput) (capital : String) (leverage : ℤ) : Outcome String :=
  match input.strategy.sizing.positionSizingMode with
  | some .equityPercentMargin => multiplyDecimal capital (bigintText leverage)
  | some .equityPercentNotional => return capital
  | _ => return input.strategy.sizing.maxPositionNotional

def originalNotionalBudget (input : TradingPlanInput) (capital : String) (leverage : ℤ) :
    Outcome String := do
  let sized ← modeNotional input capital leverage
  minDecimal input.strategy.sizing.maxPositionNotional
    [← multiplyDecimal input.account.availableBalance (bigintText leverage), sized]

structure PlanSizing where
  quantity : String
  leverage : ℤ
  leverageDecision : LeverageDecision
  riskAmount : String
  fxSizing : Option TradingFxSizingContext
  leverageTierDecision : Option TradingLeverageTierDecision

/-- The price that notionals are sized at: with tiers the dearer of mark and submitted price. -/
def planSizingPrice (input : TradingPlanInput) (price limitPrice : String) : Outcome String :=
  match input.market.leverageTiers with
  | none => return price
  | some _ => valuationPrice input.market.markPrice limitPrice

def solvedQuantity (input : TradingPlanInput) (effective : ℤ)
    (quantityAtLeverage : ℤ → Outcome String) : Outcome TierSizing :=
  match input.market.leverageTiers with
  | some tiers => solveTierQuantity tiers effective quantityAtLeverage
  | none => return ⟨effective, ← quantityAtLeverage effective, 0⟩

/-- The budget that the tier decision records, in the terms of the sizing that was used. -/
def planNotionalBudget (runtime : Runtime) (input : TradingPlanInput)
    (fxSizing : Option TradingFxSizingContext) (sizingPrice configuredRisk distance : String)
    (configuredRiskAmount : String) (leverage : ℤ) : Outcome NotionalBudget :=
  match fxSizing with
  | some _ => return .money (← fxNotionalBudget runtime.fxEvidenceDigest runtime.dateNow
      (input.fxQuantityInput sizingPrice configuredRisk distance leverage))
  | none => return .decimal (← originalNotionalBudget input configuredRiskAmount leverage)

def planRiskAmount (input : TradingPlanInput) (quantity distance configuredRiskAmount : String) :
    Outcome String :=
  match input.strategy.sizing.positionSizingMode with
  | some .equityPercentNotional => multiplyDecimal quantity distance
  | some .equityPercentMargin => multiplyDecimal quantity distance
  | _ => return configuredRiskAmount

def planTierDecision (runtime : Runtime) (input : TradingPlanInput) (solved : TierSizing)
    (maximumNotional : NotionalBudget) : Outcome (Option TradingLeverageTierDecision) :=
  match input.market.leverageTiers with
  | none => return none
  | some tiers => return some (← tierDecision runtime.sha256 tiers solved maximumNotional)

def solvePlanSizing (runtime : Runtime) (input : TradingPlanInput)
    (price distance limitPrice : String) : Outcome PlanSizing := do
  let fxSizing ← fxSizingContext runtime.fxEvidenceDigest runtime.dateNow input.toFxSizingInput
  let configuredRisk ← configuredPlanRisk input
  let leverageDecision := resolveLeverageDecision input.signal input.strategy input.market
  let configuredRiskAmount ← divideDecimal
    (← multiplyDecimal input.account.equity configuredRisk) "100"
  let sizingPrice ← planSizingPrice input price limitPrice
  let solved ← solvedQuantity input leverageDecision.effective
    (quantityForPlan runtime input sizingPrice configuredRisk distance)
  let maximumNotional ← planNotionalBudget runtime input fxSizing sizingPrice configuredRisk
    distance configuredRiskAmount solved.leverage
  let cappedBy := if solved.leverage < leverageDecision.effective then some .market
    else leverageDecision.cappedBy
  let riskAmount ← planRiskAmount input solved.quantity distance configuredRiskAmount
  let leverageTierDecision ← planTierDecision runtime input solved maximumNotional
  return {
    quantity := solved.quantity
    leverage := solved.leverage
    leverageDecision := { leverageDecision with effective := solved.leverage, cappedBy }
    riskAmount
    fxSizing
    leverageTierDecision }

structure EntryTiming where
  createdAt : ℤ
  entryExpiresAt : ℤ

def planEntryTiming (runtime : Runtime) (input : TradingPlanInput) : Outcome EntryTiming := do
  let createdAt := input.now.getD runtime.dateNow
  let originAt := input.entryOriginAt.getD createdAt
  return ⟨createdAt, ← resolveEntryExpiresAt originAt input.strategy.safety.entryOrderTtlSeconds
    input.entryExpiresAt⟩

/-- The market that prices are read from: a boundary fixes the mark it was derived from. -/
def pricingMarket (market : TradingMarketSnapshot)
    (entryPriceBoundary : Option TradingEntryPriceBoundary) : TradingMarketSnapshot :=
  match entryPriceBoundary with
  | some boundary => { market with markPrice := boundary.referencePrice }
  | none => market

def createTradingPlan (runtime : Runtime) (input : TradingPlanInput) : Outcome TradingPlan := do
  assertStrategyAllows input.signal input.strategy
  let targetAllocations ← resolveTargetAllocations input.strategy input.signal.targets.length
  let entryPriceBoundary ← planPriceBoundary input.signal input.strategy input.market
    input.entryPriceBoundary
  let price ← quantizedEntryPrice input.signal input.strategy
    (pricingMarket input.market entryPriceBoundary)
  let stop ← quantizedStopPrice input.signal input.market
  let limitPrice := (entryPriceBoundary.map (·.limitPrice)).getD price
  let distance ← riskDistance input.signal.action stop limitPrice
  let sizing ← solvePlanSizing runtime input price distance limitPrice
  let notional ← multiplyDecimal sizing.quantity price
  let orders ← plannedOrders runtime.sha256 input price stop sizing.quantity targetAllocations
    entryPriceBoundary
  let timing ← planEntryTiming runtime input
  return {
    version := 1
    symbol := input.signal.symbol
    side := input.signal.action
    entryPrice := price
    entryPriceBoundary
    stopPrice := stop
    quantity := sizing.quantity
    leverage := sizing.leverage
    leverageDecision := sizing.leverageDecision
    riskAmount := sizing.riskAmount
    fxSizing := sizing.fxSizing
    leverageTierDecision := sizing.leverageTierDecision
    notional
    entryTimeoutSeconds := input.strategy.entry.timeoutSeconds
    entryOrderTtlSeconds := input.strategy.safety.entryOrderTtlSeconds
    maxSlippagePercent := input.strategy.safety.maxSlippagePercent
    quantityStep := input.market.quantityStep
    targetAllocationMode := input.strategy.exits.targetAllocationMode.getD .manual
    targetAllocationsPercent := targetAllocations
    stopLossMode := input.strategy.exits.stopLossMode.getD .configured
    orders
    createdAt := timing.createdAt
    entryExpiresAt := timing.entryExpiresAt }

end TsxCore.TradingRisk
