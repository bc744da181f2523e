import TsxCore.TradingMoneyValue
import TsxCore.TradingFxQuotes

/-!
# Shared types (`trading_types.ts`)

Columns with a closed set of values are enumerations; `text` is the stored word.
Optional fields and fields that may be null are options. Leverages, counts and
times are integer-valued numbers. A record has the fields that modelled functions
read or write.
-/

namespace TsxCore.TradingTypes

open TradingMoneyValue TradingFxQuotes

inductive TradingSide
  | long
  | short
  deriving DecidableEq

def TradingSide.text : TradingSide → String
  | .long => "LONG"
  | .short => "SHORT"

inductive OrderSide
  | buy
  | sell
  deriving DecidableEq

inductive OrderRole
  | entry
  | takeProfit
  | stopLoss
  | flatten
  deriving DecidableEq

def OrderRole.text : OrderRole → String
  | .entry => "entry"
  | .takeProfit => "take_profit"
  | .stopLoss => "stop_loss"
  | .flatten => "flatten"

inductive TradingAccountMode
  | paper
  | testnet
  | live
  deriving DecidableEq

inductive TradingIntentStatus
  | pending
  | planned
  | submitting
  | monitoring
  | completed
  | blocked
  | failed
  | unknown
  deriving DecidableEq

/-- The `source` of a fill accounting contract. -/
inductive AccountingSource
  | ccxtMarket
  | paperContract
  deriving DecidableEq

structure ExchangeFillAccounting where
  source : AccountingSource
  providerSymbol : String
  settlementAsset : String
  deriving DecidableEq

structure DecimalRange where
  min : String
  max : String
  deriving DecidableEq

inductive SignalEntry
  | market
  | range (bounds : DecimalRange)
  deriving DecidableEq

structure ExecutableSignal where
  schema : String
  action : TradingSide
  symbol : String
  entry : SignalEntry
  targets : List DecimalRange
  stopLoss : String
  suggestedLeverage : Option ℤ
  suggestedRiskPercent : Option String

inductive TradingOrderType
  | market
  | limit
  deriving DecidableEq

inductive RangePrice
  | near
  | midpoint
  | far
  deriving DecidableEq

inductive PositionSizingMode
  | riskPercent
  | equityPercentNotional
  | equityPercentMargin
  deriving DecidableEq

inductive TargetAllocationMode
  | manual
  | adaptiveHalving
  deriving DecidableEq

inductive StopLossMode
  | configured
  | adaptiveTargets
  deriving DecidableEq

structure EntryConfiguration where
  orderType : TradingOrderType
  rangePrice : RangePrice
  postOnly : Bool
  timeoutSeconds : ℤ
  deriving DecidableEq

structure SizingConfiguration where
  positionSizingMode : Option PositionSizingMode
  riskPerTradePercent : String
  maxAdaptiveRiskPercent : Option String
  maxPositionNotional : String
  defaultLeverage : Option ℤ
  maxLeverage : ℤ
  deriving DecidableEq

structure ExitConfiguration where
  targetAllocationMode : Option TargetAllocationMode
  targetAllocationsPercent : List String
  stopLossMode : Option StopLossMode
  deriving DecidableEq

structure SafetyConfiguration where
  maxSlippagePercent : String
  entryOrderTtlSeconds : ℤ
  deriving DecidableEq

structure StrategyConfiguration where
  allowedSignalSchemas : List String
  allowedSymbols : List String
  allowedSides : List TradingSide
  entry : EntryConfiguration
  sizing : SizingConfiguration
  exits : ExitConfiguration
  safety : SafetyConfiguration
  deriving DecidableEq

/-- `reportingCurrency` is the field of the optional `accounting` record. -/
structure TradingAccountSnapshot where
  equity : String
  availableBalance : String
  reportingCurrency : Option String

structure TradingLeverageTier where
  lowerBound : String
  upperBound : Option String
  maxLeverage : ℤ

structure TradingLeverageTierEvidence where
  exchange : String
  symbol : String
  providerSymbol : String
  accountFingerprint : String
  credentialGeneration : String
  ccxtVersion : String
  profileHash : String
  source : String
  currency : String
  contractSize : String
  markPrice : String
  tiers : List TradingLeverageTier

structure TradingLeverageTierDecision where
  version : ℕ
  evidenceHash : String
  providerSymbol : String
  contractSize : String
  tierIndex : ℕ
  quantity : String
  leverage : ℤ
  maximumNotional : Option String
  maximumNotionalCurrency : Option String
  maximumNotionalValue : Option MoneyValue

structure TradingMarketSnapshot where
  markPrice : String
  priceTick : String
  quantityStep : String
  minimumQuantity : String
  minimumNotional : String
  maxLeverage : ℤ
  accounting : Option ExchangeFillAccounting
  leverageTiers : Option TradingLeverageTierEvidence

structure TradingFxSizingContext where
  version : ℕ
  conversionId : String
  conversion : FxConversionEvidence
  reportingCurrency : String
  notionalCurrency : String
  strategyMaximumNotionalCurrency : String
  riskAmountCurrency : String

inductive PlannedOrderType
  | market
  | limit
  | stopMarket
  deriving DecidableEq

structure PlannedOrder where
  clientOrderId : String
  role : OrderRole
  side : OrderSide
  orderType : PlannedOrderType
  /-- `timeInForce: 'IOC'`. -/
  immediateOrCancel : Bool
  quantity : String
  price : Option String
  triggerPrice : Option String
  reduceOnly : Bool
  postOnly : Bool
  targetIndex : Option ℕ
  deriving DecidableEq

structure TradingEntryPriceBoundary where
  version : ℕ
  referencePrice : String
  maxSlippagePercent : String
  priceTick : String
  limitPrice : String
  deriving DecidableEq

inductive LeverageSource
  | signal
  | strategyDefault

inductive LeverageCap
  | strategy
  | market
  | strategyAndMarket

structure LeverageDecision where
  requested : ℤ
  requestedSource : LeverageSource
  strategyMaximum : ℤ
  marketMaximum : ℤ
  effective : ℤ
  cappedBy : Option LeverageCap

structure TradingPlan where
  version : ℕ
  symbol : String
  side : TradingSide
  entryPrice : String
  entryPriceBoundary : Option TradingEntryPriceBoundary
  stopPrice : String
  quantity : String
  leverage : ℤ
  leverageDecision : LeverageDecision
  riskAmount : String
  fxSizing : Option TradingFxSizingContext
  leverageTierDecision : Option TradingLeverageTierDecision
  notional : String
  entryTimeoutSeconds : ℤ
  entryOrderTtlSeconds : ℤ
  maxSlippagePercent : String
  quantityStep : String
  targetAllocationMode : TargetAllocationMode
  targetAllocationsPercent : List String
  stopLossMode : StopLossMode
  orders : List PlannedOrder
  createdAt : ℤ
  entryExpiresAt : ℤ

end TsxCore.TradingTypes
