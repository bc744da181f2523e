import TsxCore.TradingTypes

/-!
# Ownership proof (`trading_ownership.ts`)

The executed quantity of every managed order is the sum of its fills, which must
agree with the cumulative quantity the order itself reports.
-/

namespace TsxCore.TradingOwnership

open Outcome TradingDecimal TradingTypes

/-- `new TradingOwnershipError(code, message)`. -/
def ownershipError (code message : String) : Thrown :=
  ⟨"TradingOwnershipError", some code, "Ownership proof failed (" ++ code ++ "): " ++ message⟩

structure OwnershipOrder where
  id : String
  role : OrderRole
  side : OrderSide
  reduceOnly : ℤ
  quantity : String
  filledQuantity : String

structure OwnershipFill where
  orderId : String
  quantity : String

structure OwnershipProof where
  entryQuantity : String
  exitQuantity : String
  netQuantity : String
  deriving DecidableEq

def expectedOrderSide (role : OrderRole) (side : TradingSide) : OrderSide × ℤ :=
  let entrySide : OrderSide := if side = .long then .buy else .sell
  let exitSide : OrderSide := if entrySide = .buy then .sell else .buy
  if role = .entry then (entrySide, 0) else (exitSide, 1)

def assertOrderSemantics (order : OwnershipOrder) (side : TradingSide) : Outcome Unit :=
  let expected := expectedOrderSide order.role side
  throwIf (order.side ≠ expected.1 ∨ order.reduceOnly ≠ expected.2)
    (ownershipError "ORDER_SEMANTICS"
      ("Order " ++ order.id ++ " cannot prove an owned " ++ side.text ++ " execution."))

/-- `totals` of the fills so far; an order without fills has total `"0"`. -/
def fillTotals (orders : List OwnershipOrder) (totals : String → String) :
    List OwnershipFill → Outcome (String → String)
  | [] => return totals
  | fill :: fills => do
    throwIf (¬ orders.any (·.id == fill.orderId))
      (ownershipError "UNMAPPED_FILL" "A fill has no managed order.")
    let quantity ← decimal fill.quantity true
    let total ← addDecimal (totals fill.orderId) quantity
    fillTotals orders (Function.update totals fill.orderId total) fills

def orderTotals (totals : String → String) (side : TradingSide)
    (entryQuantity exitQuantity : String) : List OwnershipOrder → Outcome (String × String)
  | [] => return (entryQuantity, exitQuantity)
  | order :: orders => do
    assertOrderSemantics order side
    let executed := totals order.id
    let quantity ← decimal order.quantity true
    throwIf (0 < (← compareDecimal executed quantity))
      (ownershipError "ORDER_OVERFILLED" ("Fill sum exceeds order " ++ order.id ++ " quantity."))
    let filledQuantity ← decimal order.filledQuantity
    throwIf ((← compareDecimal executed filledQuantity) ≠ 0)
      (ownershipError "CUMULATIVE_EXECUTION_MISMATCH"
        ("Fill ledger and cumulative execution disagree for order " ++ order.id ++ "."))
    if order.role = .entry then
      orderTotals totals side (← addDecimal entryQuantity executed) exitQuantity orders
    else orderTotals totals side entryQuantity (← addDecimal exitQuantity executed) orders

def proveOwnedQuantity (orders : List OwnershipOrder) (fills : List OwnershipFill)
    (side : TradingSide) : Outcome OwnershipProof := do
  let totals ← fillTotals orders (fun _ => "0") fills
  let (entryQuantity, exitQuantity) ← orderTotals totals side "0" "0" orders
  throwIf (0 < (← compareDecimal exitQuantity entryQuantity))
    (ownershipError "EXITS_EXCEED_ENTRIES" "Owned exits exceed owned entries.")
  return ⟨entryQuantity, exitQuantity, ← subtractDecimal entryQuantity exitQuantity⟩

end TsxCore.TradingOwnership
