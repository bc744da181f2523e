import TsxCore.KeyedTable
import TsxCore.Trace
import TsxCore.TradingRisk

/-!
# Paper exchange (`paper_exchange.ts`)

The store holds the rows of one account, so the account id is not a column here. Every
mutating call runs in one transaction: it returns the store that it commits, or throws
and leaves the store as it was. A leverage is the text that `String` makes of the number,
which is how the margin is computed from it; `shown` is how a null column reads where a
decimal is parsed. `Services` holds what a call takes from outside: the clock, the random
ids of the rows that it inserts, one for each order, and `toUpperCase`.
-/

namespace TsxCore.PaperExchange

open Outcome TradingDecimal TradingTypes TradingRisk

inductive ReduceOnlyRemainder
  | cancelWhenFlat
  | retain
  deriving DecidableEq

/-- An adapter with its execution options; the maximum is stored as `decimal` returns it. -/
structure PaperExchangeAdapter where
  maximumFillQuantity : Option String
  reduceOnlyRemainder : ReduceOnlyRemainder
  normalized : ∀ quantity ∈ maximumFillQuantity, ∃ given, decimal given true = .ok quantity

structure Services where
  now : String → ℤ
  orderId : String → String
  fillId : String → String
  toUpperCase : String → String

/-- The two columns of a trading account that the adapter checks. -/
structure TradingAccount where
  exchange : String
  mode : TradingAccountMode

def assertPaperAccount (account : TradingAccount) : Outcome Unit :=
  throwIf (account.exchange ≠ "paper" ∨ account.mode ≠ .paper)
    (.error "Paper adapter only accepts paper accounts.")

structure PaperAccountRow where
  equity : String
  availableBalance : String
  realizedPnl : String
  deriving DecidableEq

structure PaperMarketRow where
  symbol : String
  markPrice : String
  priceTick : String
  quantityStep : String
  minimumQuantity : String
  minimumNotional : String
  maxLeverage : ℤ

/-- `opened` is the word `open`. -/
inductive PaperOrderStatus
  | opened
  | partiallyFilled
  | filled
  | cancelled
  | rejected
  deriving DecidableEq

/-- `status IN ('open', 'partially_filled')`. -/
def PaperOrderStatus.isWorking : PaperOrderStatus → Bool
  | .opened | .partiallyFilled => true
  | .filled | .cancelled | .rejected => false

structure PaperOrderRow where
  exchangeOrderId : String
  clientOrderId : String
  symbol : String
  role : OrderRole
  side : OrderSide
  orderType : PlannedOrderType
  status : PaperOrderStatus
  quantity : String
  filledQuantity : String
  averagePrice : Option String
  price : Option String
  triggerPrice : Option String
  reduceOnly : Bool
  leverage : String
  createdAt : ℤ
  deriving DecidableEq

structure PaperPositionRow where
  symbol : String
  side : TradingSide
  quantity : String
  averageEntryPrice : String
  marginUsed : String
  realizedPnl : String
  deriving DecidableEq

structure PaperFillRow where
  exchangeFillId : String
  exchangeOrderId : String
  clientOrderId : String
  price : String
  quantity : String

structure Store where
  account : Option PaperAccountRow
  markets : Keyed PaperMarketRow.symbol
  orders : Keyed PaperOrderRow.exchangeOrderId
  positions : Keyed PaperPositionRow.symbol
  fills : Keyed PaperFillRow.exchangeFillId

structure ExchangeOrderRequest extends PlannedOrder where
  entryPriceBoundary : Option TradingEntryPriceBoundary
  symbol : String
  leverage : String

def shown (value : Option String) : String := value.getD "null"

def signedMultiply (value multiplier : String) : Outcome String := do
  let normalized ← signedDecimal value
  let result ← multiplyDecimal (magnitude normalized) multiplier
  return if isNegative normalized ∧ result ≠ "0" then "-" ++ result else result

/-- A triggered market stop does not become a dormant trigger again after a partial fill. -/
def orderCanFill (row : PaperOrderRow) (markPrice : String) : Outcome Bool :=
  match row.orderType with
  | .market => return true
  | .stopMarket => do
    if 0 < (← compareDecimal row.filledQuantity "0") then return true
    else
      let order ← compareDecimal markPrice (shown row.triggerPrice)
      match row.side with
      | .sell => return order ≤ 0
      | .buy => return 0 ≤ order
  | .limit => do
    let order ← compareDecimal markPrice (shown row.price)
    match row.side with
    | .buy => return order ≤ 0
    | .sell => return 0 ≤ order

def openingSide : OrderSide → TradingSide
  | .buy => .long
  | .sell => .short

def closingSide : TradingSide → OrderSide
  | .long => .sell
  | .short => .buy

/-- The row that an opening fill writes over the position it finds. -/
def openedPosition (existing : Option PaperPositionRow) (row : PaperOrderRow)
    (fillQuantity fillPrice margin : String) : Outcome PaperPositionRow :=
  match existing with
  | none => return ⟨row.symbol, openingSide row.side, fillQuantity, fillPrice, margin, "0"⟩
  | some existing => do
    throwIf (existing.side ≠ openingSide row.side)
      (.error "Paper exchange refuses implicit position reversal.")
    let quantity ← addSignedDecimal existing.quantity fillQuantity
    let weighted ← addSignedDecimal
      (← multiplyDecimal existing.quantity existing.averageEntryPrice)
      (← multiplyDecimal fillQuantity fillPrice)
    let averageEntryPrice ← divideDecimal weighted quantity
    let marginUsed ← addSignedDecimal existing.marginUsed margin
    return { existing with quantity, averageEntryPrice, marginUsed }

def updateOpeningPosition (s : Store) (row : PaperOrderRow) (fillQuantity fillPrice : String) :
    Outcome Store :=
  match s.account with
  | none => .error (.error "Paper account balance is missing.")
  | some account => do
    let margin ← divideDecimal (← multiplyDecimal fillQuantity fillPrice) row.leverage
    throwIf ((← compareDecimal account.availableBalance margin) < 0)
      (.error "Paper account has insufficient available balance.")
    let position ← openedPosition (s.positions.find row.symbol) row fillQuantity fillPrice margin
    let availableBalance ← subtractDecimal account.availableBalance margin
    return { s with
      account := some { account with availableBalance }
      positions := s.positions.upsert position }

def cancelOrphanedReduceOrders (s : Store) (symbol : String) : Store :=
  { s with
    orders := s.orders.update
      (fun row => row.symbol = symbol ∧ row.reduceOnly = true ∧ row.status.isWorking = true)
      (fun row => { row with status := .cancelled }) (fun _ => rfl) }

/-- The position of a symbol is deleted, and with it the orders that could only reduce it. -/
def flattened (adapter : PaperExchangeAdapter) (s : Store) (account : PaperAccountRow)
    (symbol : String) : Store :=
  let closed := { s with
    account := some account
    positions := s.positions.delete (fun position => position.symbol = symbol) }
  if adapter.reduceOnlyRemainder = .retain then closed
  else cancelOrphanedReduceOrders closed symbol

def priceDifference (position : PaperPositionRow) (fillPrice : String) : Outcome String :=
  match position.side with
  | .long => signedDifference fillPrice position.averageEntryPrice
  | .short => signedDifference position.averageEntryPrice fillPrice

/-- What `updateClosingPosition` returns, with the store that it leaves. -/
structure ClosedPosition where
  quantity : String
  flat : Bool
  store : Store

def updateClosingPosition (adapter : PaperExchangeAdapter) (s : Store) (row : PaperOrderRow)
    (requestedQuantity fillPrice : String) : Outcome ClosedPosition :=
  match s.positions.find row.symbol with
  | none => return ⟨"0", true, s⟩
  | some position => do
    throwIf (row.side ≠ closingSide position.side)
      (.error "Reduce-only paper order has the wrong side.")
    let fillQuantity ← minDecimal requestedQuantity [position.quantity]
    let pnl ← signedMultiply (← priceDifference position fillPrice) fillQuantity
    let releasedMargin ←
      divideDecimal (← multiplyDecimal position.marginUsed fillQuantity) position.quantity
    let remaining ← subtractDecimal position.quantity fillQuantity
    let remainingMargin ← subtractDecimal position.marginUsed releasedMargin
    match s.account with
    | none => .error (.error "Paper account balance is missing.")
    | some account =>
      let equity ← addSignedDecimal account.equity pnl
      let availableBalance ←
        addSignedDecimal (← addSignedDecimal account.availableBalance releasedMargin) pnl
      let realizedPnl ← addSignedDecimal account.realizedPnl pnl
      let paid : PaperAccountRow := ⟨equity, availableBalance, realizedPnl⟩
      if remaining = "0" then
        return ⟨fillQuantity, true, flattened adapter s paid row.symbol⟩
      else
        let realizedPnl ← addSignedDecimal position.realizedPnl pnl
        let reduced :=
          { position with quantity := remaining, marginUsed := remainingMargin, realizedPnl }
        return ⟨fillQuantity, false,
          { s with account := some paid, positions := s.positions.upsert reduced }⟩

def previousCost (row : PaperOrderRow) : Outcome String := do
  if 0 < (← compareDecimal row.filledQuantity "0") then
    match row.averagePrice with
    | none => .error ⟨"TypeError", none, "Cannot read properties of null (reading 'trim')"⟩
    | some average => multiplyDecimal row.filledQuantity (← decimal average true)
  else return "0"

def partialFillAverage (row : PaperOrderRow) (fillQuantity fillPrice cumulative : String) :
    Outcome (Option String) :=
  if cumulative = "0" then return none
  else do
    let cost ← addSignedDecimal (← previousCost row) (← multiplyDecimal fillQuantity fillPrice)
    return some (← divideDecimal cost cumulative)

/-- `minDecimal(remaining, options.maximumFillQuantity ?? remaining)`. -/
def requestedQuantity (adapter : PaperExchangeAdapter) (row : PaperOrderRow) : Outcome String := do
  let remaining ← subtractDecimal row.quantity row.filledQuantity
  minDecimal remaining [adapter.maximumFillQuantity.getD remaining]

/-- What the two kinds of orders do to the account and the position. -/
def updatePosition (adapter : PaperExchangeAdapter) (s : Store) (row : PaperOrderRow)
    (requested fillPrice : String) : Outcome ClosedPosition :=
  if row.reduceOnly = true then updateClosingPosition adapter s row requested fillPrice
  else do return ⟨requested, false, ← updateOpeningPosition s row requested fillPrice⟩

def insertFill (services : Services) (s : Store) (row : PaperOrderRow)
    (fillPrice fillQuantity : String) : Outcome Store :=
  if fillQuantity = "0" then return s
  else do
    let fill : PaperFillRow := ⟨services.fillId row.exchangeOrderId, row.exchangeOrderId,
      row.clientOrderId, fillPrice, fillQuantity⟩
    throwIf ((s.fills.find fill.exchangeFillId).isSome)
      (.error "SQLITE_CONSTRAINT: UNIQUE constraint failed: trading_paper_fills.exchange_fill_id")
    return { s with fills := (s.fills.insert fill).2 }

def fillOrder (services : Services) (adapter : PaperExchangeAdapter) (s : Store)
    (row : PaperOrderRow) (markPrice : String) (immediatePrice : Option String) :
    Outcome Store := do
  let fillPrice := immediatePrice.getD
    (if row.orderType = .limit then shown row.price else markPrice)
  let requested ← requestedQuantity adapter row
  let closed ← updatePosition adapter s row requested fillPrice
  let cumulative ← addSignedDecimal row.filledQuantity closed.quantity
  let order ← compareDecimal cumulative row.quantity
  let status : PaperOrderStatus :=
    if order = 0 then .filled
    else if closed.flat = true ∧ adapter.reduceOnlyRemainder ≠ .retain then .cancelled
    else if cumulative = "0" then .opened
    else .partiallyFilled
  let averagePrice ← partialFillAverage row closed.quantity fillPrice cumulative
  let orders := closed.store.orders.update
    (fun stored => stored.exchangeOrderId = row.exchangeOrderId)
    (fun stored => { stored with status, filledQuantity := cumulative, averagePrice })
    (fun _ => rfl)
  insertFill services { closed.store with orders } row fillPrice closed.quantity

/-- `if (orderCanFill(row, markPrice)) await fillOrder(…)`. -/
def fillIfPossible (services : Services) (adapter : PaperExchangeAdapter) (s : Store)
    (row : PaperOrderRow) (markPrice : String) (immediatePrice : Option String) :
    Outcome Store := do
  if (← orderCanFill row markPrice) = true then
    fillOrder services adapter s row markPrice immediatePrice
  else return s

/-- `CASE role WHEN 'stop_loss' THEN 0 WHEN 'take_profit' THEN 1 ELSE 2 END`. -/
def settlementRank : OrderRole → ℕ
  | .stopLoss => 0
  | .takeProfit => 1
  | .entry | .flatten => 2

def settlesBefore (a b : PaperOrderRow) : Prop :=
  settlementRank a.role < settlementRank b.role ∨
    settlementRank a.role = settlementRank b.role ∧ a.createdAt ≤ b.createdAt

instance : DecidableRel settlesBefore := fun _ _ => instDecidableOr

/-- Rows that sort alike come in the order of their insertion. -/
def openOrders (s : Store) (symbol : String) : List PaperOrderRow :=
  (s.orders.rows.filter (fun row => row.symbol = symbol ∧
    row.status.isWorking = true)).insertionSort
    settlesBefore

/-- One round of the settlement loop, which reads the order again. -/
def settleOrder (services : Services) (adapter : PaperExchangeAdapter) (markPrice : String)
    (s : Store) (order : PaperOrderRow) : Outcome Store :=
  match s.orders.find order.exchangeOrderId with
  | none => return s
  | some current =>
    if current.status.isWorking = true then
      fillIfPossible services adapter s current markPrice none
    else return s

def settleOpenOrders (services : Services) (adapter : PaperExchangeAdapter) (s : Store)
    (symbol markPrice : String) : Outcome Store :=
  (openOrders s symbol).foldlM (settleOrder services adapter markPrice) s

/-- `/^[A-Z0-9]{2,20}$/`. -/
def symbolPattern (symbol : String) : Bool :=
  symbol.toList.all (fun c => ('A' ≤ c && c ≤ 'Z') || ('0' ≤ c && c ≤ '9')) &&
    2 ≤ symbol.toList.length && symbol.toList.length ≤ 20

/-- The row that `setMarket` stores. -/
def normalizedMarket (services : Services) (market : PaperMarketRow) : Outcome PaperMarketRow := do
  let symbol := services.toUpperCase (trim market.symbol)
  throwIf (symbolPattern symbol = false) (.error "Invalid paper market symbol.")
  let markPrice ← decimal market.markPrice true
  let priceTick ← decimal market.priceTick true
  let quantityStep ← decimal market.quantityStep true
  let minimumQuantity ← decimal market.minimumQuantity true
  let minimumNotional ← decimal market.minimumNotional true
  throwIf (¬ isSafeInteger market.maxLeverage ∨ market.maxLeverage < 1 ∨ 125 < market.maxLeverage)
    (.error "Paper market max leverage must be between 1 and 125.")
  return ⟨symbol, markPrice, priceTick, quantityStep, minimumQuantity, minimumNotional,
    market.maxLeverage⟩

def setMarket (services : Services) (adapter : PaperExchangeAdapter) (s : Store)
    (market : PaperMarketRow) : Outcome Store := do
  let row ← normalizedMarket services market
  settleOpenOrders services adapter { s with markets := s.markets.upsert row } row.symbol
    row.markPrice

/-- The market row behind `marketSnapshot`. -/
def marketSnapshot (s : Store) (account : TradingAccount) (symbol : String) :
    Outcome PaperMarketRow := do
  assertPaperAccount account
  match s.markets.find symbol with
  | none => .error ⟨"TradingSymbolUnavailableError", none,
      "Paper market " ++ symbol ++ " is not configured."⟩
  | some market => return { market with maxLeverage := min 50 market.maxLeverage }

/-- `CHECK(leverage BETWEEN 1 AND 125)`. -/
def leverageCheck (leverage : String) : Prop :=
  1 ≤ decimalValue leverage ∧ decimalValue leverage ≤ 125

instance (leverage : String) : Decidable (leverageCheck leverage) := instDecidableAnd

def insertOrder (services : Services) (s : Store) (request : ExchangeOrderRequest) :
    Outcome PaperOrderRow := do
  let quantity ← decimal request.quantity true
  let exchangeOrderId := services.orderId request.clientOrderId
  throwIf (¬ leverageCheck request.leverage)
    (.error "SQLITE_CONSTRAINT: CHECK constraint failed: leverage BETWEEN 1 AND 125")
  throwIf ((s.orders.find exchangeOrderId).isSome)
    (.error "SQLITE_CONSTRAINT: UNIQUE constraint failed: trading_paper_orders.exchange_order_id")
  return {
    exchangeOrderId
    clientOrderId := request.clientOrderId
    symbol := request.symbol
    role := request.role
    side := request.side
    orderType := request.orderType
    status := .opened
    quantity
    filledQuantity := "0"
    averagePrice := none
    price := request.price
    triggerPrice := request.triggerPrice
    reduceOnly := request.reduceOnly
    leverage := request.leverage
    createdAt := services.now request.clientOrderId }

/-- The check of a submission before its transaction. -/
def assertSubmission (account : TradingAccount) (request : ExchangeOrderRequest) :
    Outcome Unit := do
  assertPaperAccount account
  if request.immediateOrCancel = true ∨ request.entryPriceBoundary ≠ none then
    assertEntryPriceBoundary (openingSide request.side)
      ((request.entryPriceBoundary.map (·.maxSlippagePercent)).getD "")
      request.entryPriceBoundary request.toPlannedOrder
  else return ()

/-- An order that may only fill at once does not stay open. -/
def cancelRemainder (s : Store) (row : PaperOrderRow) : Store :=
  { s with
    orders := s.orders.update
      (fun stored => stored.exchangeOrderId = row.exchangeOrderId ∧
        stored.status.isWorking = true)
      (fun stored => { stored with status := .cancelled }) (fun _ => rfl) }

/-- The part of a submission after its row is inserted. -/
def executeOrder (services : Services) (adapter : PaperExchangeAdapter) (s : Store)
    (request : ExchangeOrderRequest) (row : PaperOrderRow) (markPrice : String) :
    Outcome Store := do
  let filled ← fillIfPossible services adapter s row markPrice
    (if request.immediateOrCancel = true then some markPrice else none)
  return if request.immediateOrCancel = true then cancelRemainder filled row else filled

def findClientOrder (s : Store) (clientOrderId : String) : Option PaperOrderRow :=
  s.orders.rows.find? (fun row => row.clientOrderId = clientOrderId)

/-- What `submitOrder` returns is the result of the order's row in the store that it leaves. -/
def submitOrder (services : Services) (adapter : PaperExchangeAdapter) (s : Store)
    (account : TradingAccount) (request : ExchangeOrderRequest) : Outcome Store := do
  assertSubmission account request
  match findClientOrder s request.clientOrderId with
  | some _ => return s
  | none =>
    let market ← marketSnapshot s account request.symbol
    let row ← insertOrder services s request
    executeOrder services adapter { s with orders := (s.orders.insert row).2 } request row
      market.markPrice

def submitProtectedEntry (services : Services) (adapter : PaperExchangeAdapter) (s : Store)
    (account : TradingAccount) (entry protectiveStop : ExchangeOrderRequest) : Outcome Store := do
  throwIf (entry.role ≠ .entry ∨ protectiveStop.role ≠ .stopLoss ∨
      protectiveStop.reduceOnly = false)
    (.error "Paper protected-entry contract requires an entry and a reduce-only stop.")
  let entered ← submitOrder services adapter s account entry
  submitOrder services adapter entered account protectiveStop

def cancelOrder (s : Store) (account : TradingAccount) (clientOrderId : String) :
    Outcome Store := do
  assertPaperAccount account
  let orders := s.orders.update
    (fun row => row.clientOrderId = clientOrderId ∧ row.status.isWorking = true)
    (fun row => { row with status := .cancelled }) (fun _ => rfl)
  match findClientOrder { s with orders } clientOrderId with
  | none => .error (.error "Paper order does not exist.")
  | some _ => return { s with orders }

inductive Call
  | setMarket (market : PaperMarketRow)
  | submitOrder (account : TradingAccount) (request : ExchangeOrderRequest)
  | submitProtectedEntry (account : TradingAccount) (entry protectiveStop : ExchangeOrderRequest)
  | cancelOrder (account : TradingAccount) (clientOrderId : String)

/-- A call on an adapter, with the outside values that it gets. -/
structure Request where
  services : Services
  adapter : PaperExchangeAdapter
  call : Call

def perform (s : Store) (request : Request) : Outcome Store :=
  match request.call with
  | .setMarket market => setMarket request.services request.adapter s market
  | .submitOrder account order => submitOrder request.services request.adapter s account order
  | .submitProtectedEntry account entry protectiveStop =>
    submitProtectedEntry request.services request.adapter s account entry protectiveStop
  | .cancelOrder account clientOrderId => cancelOrder s account clientOrderId

def step (s : Store) (request : Request) : Option Store :=
  match perform s request with
  | .ok t => some t
  | .error _ => some s

/-- An account without markets, orders, positions and fills. -/
def fresh (account : PaperAccountRow) : Store :=
  ⟨some account, Keyed.empty, Keyed.empty, Keyed.empty, Keyed.empty⟩

end TsxCore.PaperExchange
