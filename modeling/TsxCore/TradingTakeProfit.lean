import TsxCore.TradingDecimal

/-!
# Take-profit budgets (`trading_take_profit.ts`)

The totals of the take-profit targets are rescaled to the net position: budgets
that are already consumed keep their fills, the rest is shared out in
proportion and rounded to the quantity step, and the rounding remainder goes to
the last targets first. The allocation row keeps the totals with the fills they
were computed from. Rows are typed, so reading their JSON back cannot fail here.
-/

namespace TsxCore.TradingTakeProfit

open Outcome TradingDecimal

/-- `assertTargetQuantities` for one collection. -/
def assertTargetQuantities (values : List String) : Outcome Unit := do
  let _ ← values.mapM (fun value => decimal value)
  return ()

def targetWeight (value filled : String) : Outcome String := do
  let executed ← decimal filled
  let total ← decimal value
  if 0 < (← compareDecimal total executed) then subtractDecimal total executed else return "0"

/-- `room` of the rounding loop: what the old cap leaves on shrink, everything on growth. -/
def roundingRoom (weight remaining remainder available total step : String) : Outcome String := do
  if (← compareDecimal available total) ≤ 0 then
    quantizeDecimalDown (← subtractDecimal weight remaining) step
  else return remainder

/-- One round of the loop: the target's new quantity and what is left to hand out. -/
def roundTarget (available total step weight remaining remainder : String) :
    Outcome (String × String) := do
  if remainder = "0" ∨ weight = "0" then return (remaining, remainder)
  else
    let room ← roundingRoom weight remaining remainder available total step
    let extra ← minDecimal room [remainder]
    return (← addDecimal remaining extra, ← subtractDecimal remainder extra)

/-- The loop of `allocateRoundingRemainder`, last target first; it ends when the remainder is 0. -/
def allocateLoop (available total step : String) :
    List (String × String) → String → Outcome (List String × String)
  | [], remainder => return ([], remainder)
  | (weight, remaining) :: targets, remainder => do
    let rest ← allocateLoop available total step targets remainder
    let target ← roundTarget available total step weight remaining rest.2
    return (target.1 :: rest.1, target.2)

def allocateRoundingRemainder (weights remaining : List String) (available weight step : String) :
    Outcome (List String) := do
  let remainder ← subtractDecimal available (← sumDecimals remaining)
  return (← allocateLoop available weight step (weights.zip remaining) remainder).1

structure Allocation where
  totals : List String
  remaining : List String
  unallocatedQuantity : String
  deriving DecidableEq

def proportionalShare (available weight total step : String) : Outcome String := do
  if total = "0" then return "0"
  else quantizeDecimalDown (← divideDecimal (← multiplyDecimal available weight) total) step

def resizeTargetTotals (previous filled : List String) (netQuantity step : String) :
    Outcome Allocation := do
  throwIf (previous.length = 0 ∨ previous.length ≠ filled.length)
    (.error "Invalid TP allocation dimensions.")
  assertTargetQuantities previous
  assertTargetQuantities filled
  let weights ← (previous.zip filled).mapM (fun target => targetWeight target.1 target.2)
  let weight ← sumDecimals weights
  let available ← quantizeDecimalDown (← decimal netQuantity) (← decimal step true)
  throwIf (weight = "0" ∧ available ≠ "0") (.error "TP_TARGETS_EXHAUSTED_WITH_EXPOSURE")
  let shares ← weights.mapM (fun value => proportionalShare available value weight step)
  let remaining ← allocateRoundingRemainder weights shares available weight step
  let totals ← (remaining.zip filled).mapM (fun target => addDecimal target.1 target.2)
  let unallocatedQuantity ← subtractDecimal netQuantity (← sumDecimals remaining)
  return { totals, remaining, unallocatedQuantity }

/-- One target of `completedTargetEvidence`. -/
def targetCompleted (total before : String) (completed : Bool) (current : String) :
    Outcome Bool := do
  throwIf ((← compareDecimal current before) < 0) (.error "TP fill evidence regressed.")
  if completed then return true
  else if (← compareDecimal total before) ≤ 0 then return false
  else if (← compareDecimal current before) ≤ 0 then return false
  else return decide (0 ≤ (← compareDecimal current total))

def completedTargetEvidence (totals previousFilled : List String) (completed : List Bool)
    (filled : List String) : Outcome (List Bool) := do
  throwIf (previousFilled.length ≠ totals.length ∨ completed.length ≠ totals.length ∨
    filled.length ≠ totals.length) (.error "Invalid target completion dimensions.")
  assertTargetQuantities totals
  assertTargetQuantities previousFilled
  assertTargetQuantities filled
  (((totals.zip previousFilled).zip completed).zip filled).mapM
    (fun target => targetCompleted target.1.1.1 target.1.1.2 target.1.2 target.2)

structure AllocationRow where
  planHash : String
  targetTotals : List String
  observedFills : List String
  completedTargets : List Bool
  unallocatedQuantity : String
  stateVersion : ℕ
  deriving DecidableEq

def previousTotals (row : AllocationRow) (hash : String) (targetCount : ℕ) :
    Outcome (List String) := do
  throwIf (row.planHash ≠ hash)
    (.error "Persisted TP allocation conflicts with the immutable trade plan.")
  throwIf (row.targetTotals.length ≠ targetCount) (.error "Invalid stored TP allocation.")
  row.targetTotals.mapM (fun value => decimal value)

/-- The row after `persistAllocation`; the transaction makes the version check succeed. -/
def persistAllocation (row : AllocationRow) (allocation : Allocation) (filled : List String)
    (completed : List Bool) : AllocationRow :=
  if row.targetTotals = allocation.totals ∧
      row.unallocatedQuantity = allocation.unallocatedQuantity ∧ row.observedFills = filled ∧
      row.completedTargets = completed then row
  else { row with
    targetTotals := allocation.totals
    observedFills := filled
    completedTargets := completed
    unallocatedQuantity := allocation.unallocatedQuantity
    stateVersion := row.stateVersion + 1 }

/-- `loadTakeProfitAllocation` on an existing row, with the fills and the net quantity it reads. -/
def loadTakeProfitAllocation (row : AllocationRow) (hash : String) (targetCount : ℕ)
    (filled : List String) (netQuantity step : String) : Outcome (AllocationRow × Allocation) := do
  let previous ← previousTotals row hash targetCount
  let completed ← completedTargetEvidence previous row.observedFills row.completedTargets filled
  let allocation ← resizeTargetTotals previous filled netQuantity step
  return (persistAllocation row allocation filled completed, allocation)

end TsxCore.TradingTakeProfit
