import TsxCore.SignalGeometry
import TsxCore.TradingPlanSizing

/-!
# The geometry of a plan's orders

Entry limit, stop trigger and take-profit prices are rounded to the tick away from
the profit. Rounding keeps the order of the signal but may make neighbours equal;
only the stop is checked again after it. A market entry takes its price from the
mark, which nothing compares with the targets.
-/

namespace TsxCore.TradingRisk

open Outcome TradingDecimal TradingRational TradingTypes TradingFxSizing SignalSchema
open TradingLeverageTiers

section Rounding

variable {l r s : String} {side : TradingSide}

theorem quantizeDecimalUp_value (h : quantizeDecimalUp l r = .ok s) :
    0 < decimalValue r ∧ decimalValue s = -floorTo (decimalValue r) (-decimalValue l) := by
  simp only [quantizeDecimalUp, bind_eq_ok] at h
  obtain ⟨down, hdown, o, ho, h⟩ := h
  obtain ⟨htick, hfloor⟩ := quantizeDecimalDown_value hdown
  have hequal := compareDecimal_eq_zero ho
  refine ⟨htick, ?_⟩
  rw [neg_floorTo_neg htick, ← hfloor]
  by_cases hzero : o = 0
  · rw [if_pos hzero, pure_eq_ok_iff] at h
    rw [if_pos (hequal.mp hzero), h]
  · rw [if_neg hzero] at h
    rw [if_neg (fun heq => hzero (hequal.mpr heq)), addDecimal_value h]

/-- Rounding against the profit of the side. -/
theorem directed_rounded (h : (match side with
      | .long => quantizeDecimalDown l r
      | .short => quantizeDecimalUp l r) = .ok s) :
    0 < decimalValue r ∧
      directed side (decimalValue s) = floorTo (decimalValue r)
        (directed side (decimalValue l)) := by
  cases side with
  | long => exact quantizeDecimalDown_value h
  | short =>
    obtain ⟨htick, hvalue⟩ := quantizeDecimalUp_value h
    refine ⟨htick, ?_⟩
    simp only [directed, hvalue, neg_neg]

/-- The midpoint of a range, truncated to 18 fractional digits. -/
def midpoint (bounds : DecimalRange) : ℚ :=
  floorTo (unitValue 1) ((decimalValue bounds.min + decimalValue bounds.max) / 2)

theorem unitValue_mul_one (n : ℤ) : n * unitValue 1 = unitValue n := by
  rw [unitValue, unitValue]
  push_cast
  ring

theorem midpointDecimal_value {bounds : DecimalRange}
    (h : midpointDecimal bounds.min bounds.max = .ok s) : decimalValue s = midpoint bounds := by
  simp only [midpointDecimal, bind_eq_ok, throwIf_eq_ok] at h
  obtain ⟨_, -, -, -, sum, hsum, h⟩ := h
  have hvalue := addDecimal_value hsum
  obtain ⟨u, v, hu, hv, hpos, rfl⟩ := (divideDecimal_ok_iff le_rfl).mp h
  have htwo : Denotes "2" (2 * 10 ^ 18) := ⟨⟨2, 0⟩, by decide +kernel, by decide⟩
  obtain rfl := hv.unique htwo
  rw [Nat.sub_self, pow_zero, mul_one, Nat.mul_div_mul_right _ _ (by positivity), decimalValue_text,
    midpoint, ← hvalue, hu.decimalValue, eq_comm]
  have hhalf : unitValue u / 2 = (u : ℚ) / 2 * unitValue 1 := by
    rw [unitValue_natCast, unitValue]
    push_cast
    ring
  have hunit : 0 < unitValue 1 := unitValue_pos (u := 1) (by omega)
  rw [← unitValue_mul_one (u / 2 : ℕ), floorTo_eq_iff hunit, hhalf, mul_le_mul_iff_left₀ hunit,
    ← add_one_mul, mul_lt_mul_iff_left₀ hunit, le_div_iff₀ (by norm_num), div_lt_iff₀ (by norm_num)]
  constructor
  · exact_mod_cast Nat.div_mul_le_self u 2
  · exact_mod_cast (by omega : u < (u / 2 + 1) * 2)

theorem within_midpoint {bounds : DecimalRange} (hreadable : Readable bounds)
    (hle : decimalValue bounds.min ≤ decimalValue bounds.max) :
    Within bounds (midpoint bounds) := by
  obtain ⟨⟨u, hu⟩, -⟩ := hreadable
  have hunit : 0 < unitValue 1 := unitValue_pos (u := 1) (by omega)
  constructor
  · rw [midpoint, hu.decimalValue, ← unitValue_mul_one, multiple_le_floorTo_iff hunit,
      unitValue_mul_one, ← hu.decimalValue]
    linarith
  · apply (floorTo_le hunit).trans
    linarith

end Rounding

section Boundary

variable {s : String} {boundary : TradingEntryPriceBoundary}

theorem formatPriceQuantum_value {n : ℕ} (h : formatPriceQuantum n = .ok s) :
    decimalValue s = unitValue n ∧ 0 < decimalValue s := by
  rw [formatPriceQuantum, Numeral.leftpad_toDigits] at h
  have hlen : (Nat.toDigits 10 (n / 10 ^ 18) ++ Numeral.fixedDigits 18 n).length - 18 =
      (Nat.toDigits 10 (n / 10 ^ 18)).length := by
    simp
  have hnumeral : Nat.toDigits 10 (n / 10 ^ 18) ++ '.' :: Numeral.fixedDigits 18 n =
      Numeral.numeral n 18 := rfl
  simp only [hlen, List.take_left, List.drop_left, hnumeral] at h
  obtain ⟨u, hu, hpos, rfl⟩ := decimal_positive_ok_iff.mp h
  obtain ⟨rfl, -⟩ := (reads_numeral_iff le_rfl).mp hu
  rw [decimalValue_text, Nat.sub_self, pow_zero, mul_one] at *
  exact ⟨rfl, unitValue_pos hpos⟩

theorem priceQuantum_value {n : ℕ} (h : priceQuantum s = .ok n) : unitValue n = decimalValue s := by
  simp only [priceQuantum, bind_eq_ok, pure_eq_ok_iff] at h
  obtain ⟨normalized, hnormalized, rfl⟩ := h
  obtain ⟨hvalue, -⟩ := decimal_value hnormalized
  obtain ⟨u, hu, rfl, -⟩ := decimal_reads hnormalized
  obtain ⟨p, hp, hunits⟩ := denotes_text hu.lt
  have hscale := (numeral_of_parse hp).2.1
  have hlen : (fractionPart (text u)).length ≤ 18 := by
    simp only [parse, bind_eq_ok, throwIf_eq_ok, pure_eq_ok_iff] at hp
    obtain ⟨-, -, rfl⟩ := hp
    exact hscale
  have hscaled := scaledValue_of_parse hp hlen le_rfl
  rw [Nat.sub_self, pow_zero, mul_one, hunits] at hscaled
  rw [← hvalue, decimalValue_text]
  exact congrArg (fun n : ℕ => unitValue n) hscaled

theorem wholeTicks {tick : String} {ticks quantum : ℕ} (htick : priceQuantum tick = .ok quantum)
    (h : formatPriceQuantum (ticks * quantum) = .ok s) :
    0 < decimalValue s ∧ ∃ n : ℤ, decimalValue s = n * decimalValue tick := by
  obtain ⟨hvalue, hpos⟩ := formatPriceQuantum_value h
  refine ⟨hpos, ticks, ?_⟩
  rw [hvalue, ← priceQuantum_value htick, unitValue_natCast, unitValue_natCast, Nat.cast_mul,
    mul_div_assoc, Int.cast_natCast]

/-- A boundary's limit is a positive whole number of its ticks. -/
theorem createEntryPriceBoundary_limit {side : TradingSide} {reference tick slippage : String}
    (h : createEntryPriceBoundary side reference tick slippage = .ok boundary) :
    0 < decimalValue boundary.limitPrice ∧
      ∃ n : ℤ, decimalValue boundary.limitPrice = n * decimalValue boundary.priceTick := by
  simp only [createEntryPriceBoundary, bind_eq_ok, pure_eq_ok_iff] at h
  obtain ⟨_, -, tick, -, _, -, _, -, _, -, _, -, quantum, hquantum, limit, hlimit, rfl⟩ := h
  exact wholeTicks hquantum hlimit

theorem planPriceBoundary_limit {signal : ExecutableSignal} {strategy : StrategyConfiguration}
    {market : TradingMarketSnapshot} {original : Option TradingEntryPriceBoundary}
    (h : planPriceBoundary signal strategy market original = .ok (some boundary)) :
    0 < decimalValue boundary.limitPrice ∧
      ∃ n : ℤ, decimalValue boundary.limitPrice = n * decimalValue market.priceTick := by
  unfold planPriceBoundary at h
  split_ifs at h
  · simp at h
  · simp only [bind_eq_ok, pure_eq_ok_iff, assertBoundaryContract, throwIf_eq_ok, not_not,
      Option.some.injEq] at h
    obtain ⟨_, -, _, ⟨expected, hexp, hsame⟩, tick, htick, _, hmarket, rfl⟩ := h
    rw [← hsame] at hexp
    have hlimit := createEntryPriceBoundary_limit hexp
    rw [hmarket, (decimal_value htick).1] at hlimit
    exact hlimit

end Boundary

section Allocations

variable {allocations quantities : List String} {count : ℕ}

/-- The checks of `validateExits` on the target allocations. -/
def validateTargetAllocations (values : List String) : Outcome (List String) := do
  throwIf (values.length < 1 ∨ 20 < values.length)
    (.error "Between one and twenty target allocations are required.")
  let allocations ← values.mapM (fun allocation => decimal allocation true (some "100"))
  let order ← compareDecimal (← sumDecimals allocations) "100"
  throwIf (order ≠ 0) (.error "Target allocations must total exactly 100 percent.")
  return allocations

/-- The allocations of a strategy are what its validation returned. -/
def ValidatedExits (exits : ExitConfiguration) : Prop :=
  ∃ values, validateTargetAllocations values = .ok exits.targetAllocationsPercent

/-- All of the quantity is allocated, and the last target is left a share. -/
structure Allocates (allocations : List String) (count : ℕ) : Prop where
  nonempty : allocations ≠ []
  length : allocations.length = count
  share : (allocations.dropLast.map decimalValue).sum < 100

theorem Allocates.of_sum (hlen : allocations.length = count)
    (hpos : ∀ allocation ∈ allocations, 0 < decimalValue allocation)
    (hsum : (allocations.map decimalValue).sum = 100) : Allocates allocations count := by
  have hne : allocations ≠ [] := by
    rintro rfl
    norm_num at hsum
  refine ⟨hne, hlen, ?_⟩
  rw [← List.dropLast_append_getLast hne, List.map_append, List.sum_append, List.map_cons,
    List.map_nil, List.sum_cons, List.sum_nil, add_zero] at hsum
  have hlast := hpos _ (List.getLast_mem hne)
  linarith

theorem ValidatedExits.allocates {exits : ExitConfiguration} (h : ValidatedExits exits) :
    Allocates exits.targetAllocationsPercent exits.targetAllocationsPercent.length := by
  obtain ⟨values, hvals⟩ := h
  simp only [validateTargetAllocations, bind_eq_ok, throwIf_eq_ok, not_not, pure_eq_ok_iff] at hvals
  obtain ⟨-, -, allocations, hmap, sum, hsum, order, horder, -, hzero, rfl⟩ := hvals
  apply Allocates.of_sum rfl
  · intro allocation hmem
    obtain ⟨value, -, hvalue⟩ := exists_of_mem_mapM hmap hmem
    obtain ⟨hsame, hpos⟩ := decimal_value hvalue
    rw [hsame]
    exact hpos rfl
  · rw [← sumDecimals_value hsum, (compareDecimal_eq_zero horder).mp hzero, decimalValue_hundred]

/-- Each half is at most half of what remains, so something remains for the last target. -/
theorem halvings_ok {remaining : String} (hpos : 0 < decimalValue remaining)
    (h : halvings count remaining = .ok allocations) :
    allocations ≠ [] ∧ allocations.length = count + 1 ∧
      (allocations.dropLast.map decimalValue).sum < decimalValue remaining := by
  induction count generalizing remaining allocations with
  | zero =>
    rw [halvings, pure_eq_ok_iff] at h
    subst h
    refine ⟨by simp, rfl, ?_⟩
    simpa using hpos
  | succ count ih =>
    simp only [halvings, bind_eq_ok, pure_eq_ok_iff] at h
    obtain ⟨allocation, halloc, rest, hrest, others, hothers, rfl⟩ := h
    have htwo : decimalValue "2" = 2 := by decide +kernel
    obtain ⟨-, hhalf⟩ := divideDecimal_le halloc
    rw [htwo] at hhalf
    have hsplit := subtractDecimal_value hrest
    obtain ⟨hne, hlen, hsum⟩ := ih (by linarith) hothers
    refine ⟨by simp, by rw [List.length_cons, hlen], ?_⟩
    rw [List.dropLast_cons_of_ne_nil hne, List.map_cons, List.sum_cons]
    linarith

theorem resolveTargetAllocations_ok {strategy : StrategyConfiguration}
    (hexits : ValidatedExits strategy.exits)
    (h : resolveTargetAllocations strategy count = .ok allocations) :
    Allocates allocations count := by
  unfold resolveTargetAllocations at h
  cases hmode : strategy.exits.targetAllocationMode.getD .manual with
  | adaptiveHalving =>
    simp only [hmode, adaptiveTargetAllocations, bind_eq_ok, throwIf_eq_ok, not_or, not_lt] at h
    obtain ⟨-, ⟨hcount, -⟩, h⟩ := h
    have hhundred : 0 < decimalValue "100" := by
      rw [decimalValue_hundred]
      norm_num
    obtain ⟨hne, hlen, hsum⟩ := halvings_ok hhundred h
    rw [decimalValue_hundred] at hsum
    exact ⟨hne, by omega, hsum⟩
  | manual =>
    simp only [hmode, bind_eq_ok, throwIf_eq_ok, not_not, pure_eq_ok_iff] at h
    obtain ⟨-, hlen, rfl⟩ := h
    obtain ⟨hne, -, hshare⟩ := hexits.allocates
    exact ⟨hne, hlen, hshare⟩

/-- The targets get all that is not allocated yet; while less than the whole quantity is
allocated, each of them gets some of it. -/
theorem allocateTargets_ok {quantity step allocated : String} (hne : allocations ≠ [])
    (h : allocateTargets quantity step allocated allocations = .ok quantities) :
    quantities.length = allocations.length ∧
      (quantities.map decimalValue).sum = decimalValue quantity - decimalValue allocated ∧
      ∀ share : ℚ, decimalValue allocated ≤ decimalValue quantity * share / 100 →
        share + (allocations.dropLast.map decimalValue).sum < 100 → 0 < decimalValue quantity →
        ∀ target ∈ quantities, 0 < decimalValue target := by
  induction allocations generalizing allocated quantities with
  | nil => exact absurd rfl hne
  | cons allocation rest ih =>
    cases rest with
    | nil =>
      simp only [allocateTargets, bind_eq_ok, pure_eq_ok_iff] at h
      obtain ⟨last, hlast, rfl⟩ := h
      have hvalue := subtractDecimal_value hlast
      refine ⟨rfl, by simpa using hvalue, ?_⟩
      intro share hallocated hshare hpos target htgt
      rw [List.mem_singleton] at htgt
      subst htgt
      simp only [List.dropLast_singleton, List.map_nil, List.sum_nil, add_zero] at hshare
      have hbelow : decimalValue quantity * share < decimalValue quantity * 100 :=
        mul_lt_mul_of_pos_left hshare hpos
      linarith
    | cons next rest =>
      simp only [allocateTargets, bind_eq_ok, throwIf_eq_ok, not_le, pure_eq_ok_iff] at h
      obtain ⟨product, hprod, percentage, hpercentage, target, htgt, order, horder, -,
        hsign, sum, hsum, others, hothers, rfl⟩ := h
      obtain ⟨hlen, htotal, hpositive⟩ := ih (by simp) hothers
      have hsum := addDecimal_value hsum
      have htarget_pos : 0 < decimalValue target := by
        have hlt := (compareDecimal_value horder).2.mp hsign
        rwa [decimalValue_zero] at hlt
      have hle : decimalValue target ≤ decimalValue quantity * decimalValue allocation / 100 :=
        (quantizeDecimalDown_le htgt).1.trans (percentage_le hprod hpercentage)
      refine ⟨by rw [List.length_cons, List.length_cons, hlen], ?_, ?_⟩
      · rw [List.map_cons, List.sum_cons, htotal, hsum]
        ring
      · intro share hallocated hshare hpos
        rw [List.dropLast_cons_of_ne_nil (by simp), List.map_cons, List.sum_cons] at hshare
        rw [List.forall_mem_cons]
        refine ⟨htarget_pos, hpositive (share + decimalValue allocation) ?_ (by linarith) hpos⟩
        rw [hsum]
        have hsplit : decimalValue quantity * (share + decimalValue allocation) / 100 =
            decimalValue quantity * share / 100 +
              decimalValue quantity * decimalValue allocation / 100 := by
          ring
        linarith

/-- The take-profit quantities are positive and add up to the quantity. -/
theorem allocateTargetQuantities_ok {quantity step : String} (hpos : 0 < decimalValue quantity)
    (hallocd : Allocates allocations count)
    (h : allocateTargetQuantities quantity allocations step = .ok quantities) :
    quantities.length = count ∧ (quantities.map decimalValue).sum = decimalValue quantity ∧
      ∀ target ∈ quantities, 0 < decimalValue target := by
  obtain ⟨hlen, hsum, hpositive⟩ := allocateTargets_ok hallocd.nonempty h
  rw [decimalValue_zero, sub_zero] at hsum
  refine ⟨hlen.trans hallocd.length, hsum, hpositive 0 ?_ ?_ hpos⟩
  · simp
  · rw [zero_add]
    exact hallocd.share

end Allocations

section Orders

variable {runtime : Runtime} {input : TradingPlanInput} {plan : TradingPlan}

/-- `amount(value, true)` of the exchange contract. -/
def positiveAmount (value : String) : Outcome String := do
  throwIf (trim value ≠ value) (.error "Invalid exchange decimal contract.")
  decimal value true

/-- The amounts that `validateMarketSnapshot` checks. -/
def ValidatedMarket (market : TradingMarketSnapshot) : Prop :=
  ∀ value ∈ [market.markPrice, market.priceTick, market.quantityStep, market.minimumQuantity,
    market.minimumNotional], ∃ s, positiveAmount value = .ok s

theorem ValidatedMarket.minimumQuantity {market : TradingMarketSnapshot}
    (h : ValidatedMarket market) : 0 < decimalValue market.minimumQuantity := by
  obtain ⟨s, hs⟩ := h market.minimumQuantity (by simp)
  simp only [positiveAmount, bind_eq_ok] at hs
  obtain ⟨-, -, hs⟩ := hs
  exact (decimal_value hs).2 rfl

theorem SizingSteps.quantity_pos {price distance limitPrice risk capital sizingPrice : String}
    {sizing : PlanSizing} {solved : TierSizing} {budget : NotionalBudget}
    (hsteps : SizingSteps runtime input price distance limitPrice sizing risk capital sizingPrice
      solved budget) (hmin : 0 < decimalValue input.market.minimumQuantity) :
    0 < decimalValue sizing.quantity := by
  obtain ⟨⟨raw, hraw, hvalue⟩, -⟩ := solvedQuantity_sized hsteps.solves
  rw [hsteps.quantity_eq, hvalue]
  cases hfx : input.fxConversion with
  | none =>
    obtain ⟨product, hprod, hcap⟩ := hsteps.percentage
    exact hmin.trans_le (quantityForPlan_native hfx hprod hcap hraw).minimumQuantity
  | some conversion =>
    simp only [quantityForPlan, hfx] at hraw
    obtain ⟨w, -, -, rfl, hw, -⟩ := fxSizedQuantity_within hraw
    rw [decimalValue_text]
    exact unitValue_pos hw

/-- The take-profit order of a target. -/
structure TakesProfit (input : TradingPlanInput) (target : DecimalRange) (order : PlannedOrder) :
    Prop where
  role : order.role = .takeProfit
  price : ∃ price, order.price = some price ∧ takeProfitPrice input target = .ok price

theorem takeProfitOrders_ok {sha256 : String → String} {side : OrderSide} {quantities : List String}
    {index : ℕ} {targets : List DecimalRange} {orders : List PlannedOrder}
    (h : takeProfitOrders sha256 input side quantities index targets = .ok orders) :
    List.Forall₂ (TakesProfit input) targets orders ∧
      orders.map (·.targetIndex) = (List.range' (index + 1) targets.length).map some ∧
      orders.map (·.quantity) = (quantities.drop index).take targets.length := by
  induction targets generalizing index orders with
  | nil =>
    rw [takeProfitOrders, pure_eq_ok_iff] at h
    subst h
    simp
  | cons target rest ih =>
    simp only [takeProfitOrders, bind_eq_ok, pure_eq_ok_iff] at h
    obtain ⟨quantity, hqty, price, hprice, others, hothers, rfl⟩ := h
    obtain ⟨hords, hindices, hqtys⟩ := ih hothers
    have hdrop : quantities.drop index = quantity :: quantities.drop (index + 1) := by
      unfold targetQuantity at hqty
      cases hget : quantities[index]? with
      | none =>
        rw [hget] at hqty
        cases hqty
      | some found =>
        rw [hget] at hqty
        cases hqty
        obtain ⟨hlt, hvalue⟩ := List.getElem?_eq_some_iff.mp hget
        rw [List.drop_eq_getElem_cons hlt, hvalue]
    refine ⟨.cons ⟨rfl, price, rfl, hprice⟩ hords, ?_, ?_⟩
    · rw [List.map_cons, hindices, List.length_cons, List.range'_succ, List.map_cons]
    · rw [List.map_cons, hqtys, hdrop, List.length_cons, List.take_succ_cons]

/-- What the plan submits: the entry at its limit, the stop at its trigger, the take-profits. -/
structure PlanOrders (input : TradingPlanInput) (plan : TradingPlan) (limit trigger : String)
    (takeProfits : List PlannedOrder) : Prop where
  orders : ∃ entry stop, plan.orders = entry :: stop :: takeProfits ∧
    (entry.role = .entry ∧ entry.price = some limit ∧ entry.quantity = plan.quantity) ∧
    (stop.role = .stopLoss ∧ stop.triggerPrice = some trigger ∧ stop.quantity = plan.quantity)
  targets : List.Forall₂ (TakesProfit input) input.signal.targets takeProfits
  indices : takeProfits.map (·.targetIndex) =
    (List.range' 1 input.signal.targets.length).map some

/-- How a plan came by its orders. -/
structure OrderSteps (runtime : Runtime) (input : TradingPlanInput) (plan : TradingPlan)
    (limit : String) (takeProfits : List PlannedOrder) : Prop where
  planned : PlanOrders input plan limit plan.stopPrice takeProfits
  stop : quantizedStopPrice input.signal input.market = .ok plan.stopPrice
  distance : ∃ distance, riskDistance input.signal.action plan.stopPrice limit = .ok distance
  limitEntry : input.isMarket = false →
    quantizedEntryPrice input.signal input.strategy input.market = .ok limit
  marketEntry : input.isMarket = true → 0 < decimalValue limit ∧
    ∃ n : ℤ, decimalValue limit = n * decimalValue input.market.priceTick
  quantity : 0 < decimalValue plan.quantity
  total : (takeProfits.map (fun order => decimalValue order.quantity)).sum =
    decimalValue plan.quantity
  shares : ∀ order ∈ takeProfits, 0 < decimalValue order.quantity

theorem createTradingPlan_orders (hexits : ValidatedExits input.strategy.exits)
    (hmarket : ValidatedMarket input.market) (h : createTradingPlan runtime input = .ok plan) :
    ∃ limit takeProfits, OrderSteps runtime input plan limit takeProfits := by
  simp only [createTradingPlan, bind_eq_ok, pure_eq_ok_iff] at h
  obtain ⟨-, -, allocations, hallocs, boundary, hboundary, price, hprice, stop, hstop,
    distance, hdst, sizing, hsizing, notional, -, orders, hords, timing, -, rfl⟩ := h
  obtain ⟨risk, capital, sizingPrice, solved, budget, hsized⟩ := solvePlanSizing_steps hsizing
  have hqty := hsized.quantity_pos hmarket.minimumQuantity
  have hallocd := resolveTargetAllocations_ok hexits hallocs
  have hkind := planPriceBoundary_eq_none_iff hboundary
  simp only [plannedOrders, bind_eq_ok, pure_eq_ok_iff] at hords
  obtain ⟨quantities, hqtys, takeProfits, htakeProfits, rfl⟩ := hords
  obtain ⟨hlen, hsum, hpositive⟩ :=
    allocateTargetQuantities_ok hqty hallocd hqtys
  obtain ⟨htgts, hindices, hshares⟩ := takeProfitOrders_ok htakeProfits
  rw [List.drop_zero, ← hlen, List.take_length] at hshares
  refine ⟨_, takeProfits, ⟨⟨_, _, rfl, ⟨rfl, ?_, rfl⟩, rfl, rfl, rfl⟩, htgts, hindices⟩, hstop,
    ⟨distance, hdst⟩, ?_, ?_, hqty, ?_, ?_⟩
  · cases boundary with
    | none => simp [entryOrder, hkind.mp rfl]
    | some boundary => rfl
  · intro hlimit
    rw [hkind.mpr hlimit] at hprice ⊢
    exact hprice
  · intro hentry
    cases boundary with
    | none =>
      rw [hkind.mp rfl] at hentry
      cases hentry
    | some boundary => exact planPriceBoundary_limit hboundary
  · rw [← hsum, ← hshares, List.map_map]
    rfl
  · intro order horder
    apply hpositive
    rw [← hshares]
    exact List.mem_map_of_mem horder

end Orders

section Geometry

variable {runtime : Runtime} {input : TradingPlanInput} {plan : TradingPlan}

/-- A price rounded to the tick against the profit of its side; only a LONG price below one
tick is lost by it. -/
structure RoundedAgainst (side : TradingSide) (tick reference price : ℚ) : Prop where
  value : directed side price = floorTo tick (directed side reference)
  positive_iff : 0 < price ↔ side = .short ∨ tick ≤ reference

variable {side : TradingSide} {tick x y p q : ℚ}

theorem roundedAgainst_of_eq (htick : 0 < tick) (hpos : 0 < x)
    (h : directed side p = floorTo tick (directed side x)) : RoundedAgainst side tick x p := by
  refine ⟨h, ?_⟩
  cases side with
  | long =>
    simp only [directed] at h
    have hone := multiple_le_floorTo_iff (x := x) htick 1
    have hzero := floorTo_eq_iff (x := x) htick 0
    simp only [Int.cast_one, Int.cast_zero, one_mul, zero_mul, zero_add] at hone hzero
    simp only [reduceCtorEq, false_or, h]
    constructor
    · intro hprice
      by_contra hlt
      exact hprice.ne' (hzero.mpr ⟨hpos.le, not_le.mp hlt⟩)
    · intro hle
      exact htick.trans_le (hone.mpr hle)
  | short =>
    have hle := floorTo_le (x := -x) htick
    simp only [directed] at h
    rw [← h] at hle
    simp only [true_or, iff_true]
    linarith

theorem RoundedAgainst.mono (htick : 0 < tick) (hp : RoundedAgainst side tick x p)
    (hq : RoundedAgainst side tick y q) (h : directed side x ≤ directed side y) :
    directed side p ≤ directed side q := by
  rw [hp.value, hq.value]
  exact floorTo_mono htick h

/-- How the prices and quantities of a plan's orders lie to each other. -/
structure PlanGeometry (input : TradingPlanInput) (plan : TradingPlan) (entry stop : PlannedOrder)
    (takeProfits : List PlannedOrder) (limit trigger : String) (prices : List String) : Prop where
  orders : plan.orders = entry :: stop :: takeProfits
  roles : entry.role = .entry ∧ stop.role = .stopLoss ∧
    ∀ order ∈ takeProfits, order.role = .takeProfit
  indices : takeProfits.map (·.targetIndex) =
    (List.range' 1 input.signal.targets.length).map some
  priced : entry.price = some limit ∧ stop.triggerPrice = some trigger ∧
    takeProfits.map (·.price) = prices.map some
  entry_positive : 0 < decimalValue limit
  entry_rounded : input.isMarket = false → ∃ bounds x, entryRange input.signal.entry = some bounds ∧
    Within bounds x ∧ RoundedAgainst input.signal.action (decimalValue input.market.priceTick) x
      (decimalValue limit)
  stop_rounded : RoundedAgainst input.signal.action (decimalValue input.market.priceTick)
    (decimalValue input.signal.stopLoss) (decimalValue trigger)
  stop_lt_entry : directed input.signal.action (decimalValue trigger) <
    directed input.signal.action (decimalValue limit)
  targets_rounded : List.Forall₂ (fun target price => RoundedAgainst input.signal.action
    (decimalValue input.market.priceTick) (midpoint target) (decimalValue price))
    input.signal.targets prices
  targets_ordered : prices.Pairwise (fun earlier later =>
    directed input.signal.action (decimalValue earlier) ≤
      directed input.signal.action (decimalValue later))
  entry_le_targets : input.isMarket = false → ∀ price ∈ prices,
    directed input.signal.action (decimalValue limit) ≤
      directed input.signal.action (decimalValue price)
  stop_quantity : stop.quantity = entry.quantity
  quantities_positive : 0 < decimalValue entry.quantity ∧
    ∀ order ∈ takeProfits, 0 < decimalValue order.quantity
  quantities_sum : (takeProfits.map (fun order => decimalValue order.quantity)).sum =
    decimalValue entry.quantity

theorem quantizedStopPrice_rounded {trigger : String} (hsignal : Accepted input.signal)
    (h : quantizedStopPrice input.signal input.market = .ok trigger) :
    0 < decimalValue input.market.priceTick ∧
      RoundedAgainst input.signal.action (decimalValue input.market.priceTick)
        (decimalValue input.signal.stopLoss) (decimalValue trigger) := by
  obtain ⟨u, hu, hpos⟩ := hsignal.denotes (List.mem_cons_self ..)
  obtain ⟨htick, hvalue⟩ := directed_rounded h
  refine ⟨htick, roundedAgainst_of_eq htick ?_ hvalue⟩
  rw [hu.decimalValue]
  exact unitValue_pos hpos

/-- The entry of a range is one of its prices, rounded. -/
theorem quantizedEntryPrice_rounded {limit : String} (hsignal : Accepted input.signal)
    (hlimit : input.isMarket = false)
    (h : quantizedEntryPrice input.signal input.strategy input.market = .ok limit) :
    ∃ bounds x, entryRange input.signal.entry = some bounds ∧ Within bounds x ∧
      RoundedAgainst input.signal.action (decimalValue input.market.priceTick) x
        (decimalValue limit) := by
  have hkind : isMarketEntry input.signal input.strategy = false := hlimit
  simp only [quantizedEntryPrice, bind_eq_ok, hkind] at h
  obtain ⟨price, hprice, raw, hraw, h⟩ := h
  obtain ⟨hsame, hpos⟩ := decimal_value hraw
  have hround : (match input.signal.action with
      | .long => quantizeDecimalDown raw input.market.priceTick
      | .short => quantizeDecimalUp raw input.market.priceTick) = .ok limit := by
    cases haction : input.signal.action with
    | long => simpa only [haction] using h
    | short => simpa only [haction] using h
  obtain ⟨htick, hvalue⟩ := directed_rounded hround
  rw [hsame] at hvalue
  simp only [isMarketEntry, Bool.or_eq_false_iff, beq_eq_false_iff_ne] at hkind
  cases hentry : input.signal.entry with
  | market => simp [hentry] at hkind
  | range bounds =>
    have hrange : entryRange input.signal.entry = some bounds := by rw [hentry]; rfl
    obtain ⟨hreadable, -⟩ := hsignal.positive (.inl hrange)
    have hle := (hsignal.ordered.2.1 bounds hrange).1
    refine ⟨bounds, decimalValue price, rfl, ?_, roundedAgainst_of_eq htick (hpos rfl) hvalue⟩
    simp only [entryPrice, hentry, if_neg hkind.2] at hprice
    obtain hmid | rfl | rfl : midpointDecimal bounds.min bounds.max = .ok price ∨
        bounds.min = price ∨ bounds.max = price := by
      cases hmode : input.strategy.entry.rangePrice with
      | midpoint => exact .inl (by simpa only [hmode] using hprice)
      | near | far =>
        cases haction : input.signal.action with
        | long | short =>
          rw [hmode, haction] at hprice
          simp only [pure_eq_ok_iff] at hprice
          simp [hprice]
    · rw [midpointDecimal_value hmid]
      exact within_midpoint hreadable hle
    · exact ⟨le_rfl, hle⟩
    · exact ⟨hle, le_rfl⟩

/-- The price of a take-profit is the midpoint of its target, rounded. -/
theorem TakesProfit.rounded {target : DecimalRange} {order : PlannedOrder}
    (hsignal : Accepted input.signal) (hmem : target ∈ input.signal.targets)
    (h : TakesProfit input target order) :
    ∃ price, order.price = some price ∧ Within target (midpoint target) ∧
      RoundedAgainst input.signal.action (decimalValue input.market.priceTick) (midpoint target)
        (decimalValue price) := by
  obtain ⟨price, hprice, htgt⟩ := h.price
  simp only [takeProfitPrice, bind_eq_ok] at htgt
  obtain ⟨middle, hmid, hround⟩ := htgt
  obtain ⟨htick, hvalue⟩ := directed_rounded hround
  obtain ⟨hreadable, hpos⟩ := hsignal.positive (.inr hmem)
  have hwithin := within_midpoint hreadable (hsignal.ordered.1 target hmem)
  rw [midpointDecimal_value hmid] at hvalue
  exact ⟨price, hprice, hwithin,
    roundedAgainst_of_eq htick (hpos.trans_le hwithin.1) hvalue⟩

/-- The prices of the take-profits, each with its target. -/
theorem takesProfit_prices {targets : List DecimalRange} {orders : List PlannedOrder}
    (hsignal : Accepted input.signal) (hsub : ∀ target ∈ targets, target ∈ input.signal.targets)
    (h : List.Forall₂ (TakesProfit input) targets orders) :
    ∃ prices, orders.map (·.price) = prices.map some ∧
      (∀ order ∈ orders, order.role = .takeProfit) ∧
      List.Forall₂ (fun target price => Within target (midpoint target) ∧
        RoundedAgainst input.signal.action (decimalValue input.market.priceTick)
          (midpoint target) (decimalValue price)) targets prices := by
  induction h with
  | nil => exact ⟨[], rfl, by simp, .nil⟩
  | cons hfirst hrest ih =>
    rw [List.forall_mem_cons] at hsub
    obtain ⟨price, hprice, hrounded⟩ := hfirst.rounded hsignal hsub.1
    obtain ⟨prices, hprices, hroles, hforall⟩ := ih hsub.2
    refine ⟨price :: prices, ?_, ?_, .cons hrounded hforall⟩
    · rw [List.map_cons, List.map_cons, hprice, hprices]
    · exact List.forall_mem_cons.mpr ⟨hfirst.role, hroles⟩

theorem riskDistance_directed {trigger limit distance : String}
    (h : riskDistance side trigger limit = .ok distance) :
    0 ≤ decimalValue trigger ∧
      directed side (decimalValue trigger) < directed side (decimalValue limit) := by
  simp only [riskDistance, bind_eq_ok] at h
  obtain ⟨order, horder, h⟩ := h
  obtain ⟨_, _, htrig, -, -⟩ := compareDecimal_ok_iff.mp horder
  refine ⟨decimalValue_nonneg htrig, ?_⟩
  obtain ⟨hless, hgreater⟩ := compareDecimal_value horder
  cases side with
  | long =>
    simp only [bind_eq_ok, throwIf_eq_ok, not_le] at h
    obtain ⟨-, hlt, -⟩ := h
    exact hless.mp hlt
  | short =>
    simp only [bind_eq_ok, throwIf_eq_ok, not_le] at h
    obtain ⟨-, hlt, -⟩ := h
    exact neg_lt_neg (hgreater.mp hlt)

/-- On accepted signals the prices of a plan, but for a market entry, are prices of the signal
rounded to the tick against the profit; a plan keeps the stop strictly on the loss side of the
entry, the order of the targets and that of a range and the targets. -/
theorem plan_order_geometry (hsignal : Accepted input.signal)
    (hexits : ValidatedExits input.strategy.exits) (hmarket : ValidatedMarket input.market)
    (h : createTradingPlan runtime input = .ok plan) :
    ∃ entry stop takeProfits limit trigger prices,
      PlanGeometry input plan entry stop takeProfits limit trigger prices := by
  obtain ⟨limit, takeProfits, hsteps⟩ := createTradingPlan_orders hexits hmarket h
  obtain ⟨⟨entry, stop, hords, ⟨hentry, hlimit, hqty⟩, hstop, htrig, hstopped⟩, htgts,
    hindices⟩ := hsteps.planned
  obtain ⟨prices, hprices, hroles, hrounded⟩ :=
    takesProfit_prices hsignal (fun _ hmem => hmem) htgts
  obtain ⟨htick, hstoprounded⟩ := quantizedStopPrice_rounded hsignal hsteps.stop
  obtain ⟨-, hentries, hpairs⟩ := hsignal.ordered
  obtain ⟨distance, hdst⟩ := hsteps.distance
  obtain ⟨hnn, hstoplt⟩ := riskDistance_directed hdst
  have hranged : input.isMarket = false → ∃ bounds x,
      entryRange input.signal.entry = some bounds ∧ Within bounds x ∧
        RoundedAgainst input.signal.action (decimalValue input.market.priceTick) x
          (decimalValue limit) :=
    fun hkind => quantizedEntryPrice_rounded hsignal hkind (hsteps.limitEntry hkind)
  have hpositive : 0 < decimalValue limit := by
    cases hkind : input.isMarket with
    | true => exact (hsteps.marketEntry hkind).1
    | false =>
      cases haction : input.signal.action with
      | long =>
        rw [haction] at hstoplt
        exact hnn.trans_lt hstoplt
      | short =>
        obtain ⟨bounds, x, -, -, hx⟩ := hranged hkind
        exact hx.positive_iff.mpr (.inl haction)
  have hget : ∀ price ∈ prices, ∃ target ∈ input.signal.targets,
      Within target (midpoint target) ∧ RoundedAgainst input.signal.action
        (decimalValue input.market.priceTick) (midpoint target) (decimalValue price) := by
    intro price hprice
    obtain ⟨i, hi, rfl⟩ := List.getElem_of_mem hprice
    have hlt : i < input.signal.targets.length := hrounded.length_eq ▸ hi
    exact ⟨input.signal.targets[i], List.getElem_mem hlt, hrounded.get hlt hi⟩
  refine ⟨entry, stop, takeProfits, limit, plan.stopPrice, prices, hords,
    ⟨hentry, hstop, hroles⟩, hindices, ⟨hlimit, htrig, hprices⟩, hpositive, hranged, hstoprounded,
    hstoplt, hrounded.imp (fun _ _ hboth => hboth.2), ?_, ?_, hstopped.trans hqty.symm, ?_, ?_⟩
  · rw [List.pairwise_iff_getElem] at hpairs ⊢
    intro i j hi hj hij
    have hlen := hrounded.length_eq
    obtain ⟨hwithin, hfirst⟩ := hrounded.get (hlen ▸ hi) hi
    obtain ⟨hwithin', hsnd⟩ := hrounded.get (hlen ▸ hj) hj
    exact hfirst.mono htick hsnd (hpairs i j _ _ hij _ _ hwithin hwithin').le
  · intro hkind price hprice
    obtain ⟨bounds, x, hrange, hx, hfirst⟩ := hranged hkind
    obtain ⟨target, hmem, hwithin, hsnd⟩ := hget price hprice
    exact hfirst.mono htick hsnd ((hentries bounds hrange).2 target hmem x _ hx hwithin).le
  · rw [hqty]
    exact ⟨hsteps.quantity, hsteps.shares⟩
  · rw [hqty]
    exact hsteps.total

/-- `boundedEntry` with its range and both targets within one tick and a stop below one tick. -/
def narrowEntry : TradingPlanInput :=
  let input := boundedEntry (.range ⟨"100", "100.005"⟩) "0.05"
  let targets : List DecimalRange := [⟨"100.01", "100.02"⟩, ⟨"100.03", "100.04"⟩]
  { input with signal := { input.signal with targets } }

/-- The prices and trigger prices of the orders of an input's plan. -/
def plannedPrices (runtime : Runtime) (input : TradingPlanInput) :
    Outcome (List (Option String × Option String)) :=
  (fun plan => plan.orders.map (fun order => (order.price, order.triggerPrice))) <$>
    createTradingPlan runtime input

theorem narrowEntry_accepted : Accepted narrowEntry.signal := by
  refine ⟨?_, ?_, rfl⟩
  · simp only [signalPrices, narrowEntry, boundedEntry, entryRange, Option.toList_some,
      List.flatMap_cons, List.flatMap_nil, List.append_nil, List.cons_append, List.nil_append,
      List.forall_mem_cons]
    exact ⟨⟨"", rfl⟩, ⟨"", rfl⟩, ⟨"", rfl⟩, ⟨"", rfl⟩, ⟨"", rfl⟩, ⟨"", rfl⟩, ⟨"", rfl⟩, by simp⟩
  · rintro _ ⟨⟩
    decide +kernel

theorem narrowEntry_validated :
    ValidatedExits narrowEntry.strategy.exits ∧ ValidatedMarket narrowEntry.market := by
  constructor
  · exact ⟨["50", "50"], rfl⟩
  · simp only [ValidatedMarket, narrowEntry, boundedEntry, List.forall_mem_cons]
    exact ⟨⟨_, rfl⟩, ⟨_, rfl⟩, ⟨_, rfl⟩, ⟨_, rfl⟩, ⟨_, rfl⟩, by simp⟩

/-- The texts of the prices, read off the plan. -/
theorem plannedPrices_eq {entry stop : PlannedOrder} {takeProfits : List PlannedOrder}
    {limit trigger price price' : String} {prices : List String} {trigger' : Option String}
    (hplan : createTradingPlan runtime input = .ok plan)
    (h : plannedPrices runtime input =
      .ok [(some limit, none), (none, some trigger), (some price, none), (some price', none)])
    (hords : plan.orders = entry :: stop :: takeProfits) {limit' : String}
    (hlimit : entry.price = some limit') (htrig : stop.triggerPrice = trigger')
    (hprices : takeProfits.map (·.price) = prices.map some) :
    limit' = limit ∧ trigger' = some trigger ∧ prices = [price, price'] := by
  obtain ⟨_, hsame, h⟩ := map_eq_ok.mp h
  obtain rfl := Except.ok.inj (hplan.symm.trans hsame)
  rw [hords] at h
  injection h with hentry h
  injection h with hstop h
  have htexts := congrArg (List.map Prod.fst) h
  rw [List.map_map, show Prod.fst ∘
    (fun order : PlannedOrder => (order.price, order.triggerPrice)) =
    (·.price) from rfl, hprices] at htexts
  refine ⟨?_, ?_, List.map_injective_iff.mpr (Option.some_injective _) htexts⟩
  · exact Option.some.inj (hlimit.symm.trans (congrArg Prod.fst hentry))
  · exact htrig.symm.trans (congrArg Prod.snd hstop)

theorem plannedPrices_narrow : plannedPrices boundedEntryRuntime narrowEntry =
    .ok [(some "100", none), (none, some "0"), (some "100", none), (some "100", none)] := rfl

theorem plan_order_geometry_narrow :
    ∃ plan entry stop takeProfits, createTradingPlan boundedEntryRuntime narrowEntry = .ok plan ∧
      PlanGeometry narrowEntry plan entry stop takeProfits "100" "0" ["100", "100"] := by
  obtain ⟨plan, hplan, -⟩ := map_eq_ok.mp plannedPrices_narrow
  obtain ⟨hexits, hmarket⟩ := narrowEntry_validated
  obtain ⟨entry, stop, takeProfits, limit, trigger, prices, hgeometry⟩ :=
    plan_order_geometry narrowEntry_accepted hexits hmarket hplan
  obtain ⟨hlimit, htrig, htexts⟩ := hgeometry.priced
  obtain ⟨rfl, ⟨⟩, rfl⟩ :=
    plannedPrices_eq hplan plannedPrices_narrow hgeometry.orders hlimit htrig htexts
  exact ⟨plan, entry, stop, takeProfits, hplan, hgeometry⟩

/-- The stop at `0.05` is rounded away, and both targets are rounded to the entry at `100`. -/
theorem tick_merges_plan_prices :
    ¬ ∀ (runtime : Runtime) (input : TradingPlanInput) (plan : TradingPlan),
      Accepted input.signal → ValidatedExits input.strategy.exits → ValidatedMarket input.market →
      createTradingPlan runtime input = .ok plan →
      ∃ entry stop takeProfits limit trigger prices, plan.orders = entry :: stop :: takeProfits ∧
        entry.price = some limit ∧ stop.triggerPrice = some trigger ∧
        takeProfits.map (·.price) = prices.map some ∧
        (∀ price ∈ limit :: trigger :: prices, 0 < decimalValue price) ∧
        directed input.signal.action (decimalValue trigger) <
          directed input.signal.action (decimalValue limit) ∧
        (limit :: prices).Pairwise (fun earlier later =>
          directed input.signal.action (decimalValue earlier) <
            directed input.signal.action (decimalValue later)) ∧
        stop.quantity = entry.quantity ∧
        (∀ order ∈ takeProfits, 0 < decimalValue order.quantity) ∧
        (takeProfits.map (fun order => decimalValue order.quantity)).sum =
          decimalValue entry.quantity := by
  intro hclaim
  obtain ⟨plan, hplan, -⟩ := map_eq_ok.mp plannedPrices_narrow
  obtain ⟨hexits, hmarket⟩ := narrowEntry_validated
  obtain ⟨entry, stop, takeProfits, limit, trigger, prices, hords, hlimit, htrig, hprices,
    hpositive, -, hstrict, -⟩ := hclaim _ _ plan narrowEntry_accepted hexits hmarket hplan
  obtain ⟨rfl, ⟨⟩, rfl⟩ :=
    plannedPrices_eq hplan plannedPrices_narrow hords hlimit htrig hprices
  have hmerged := (List.pairwise_cons.mp hstrict).1 "100" (by simp)
  exact lt_irrefl _ hmerged

end Geometry

end TsxCore.TradingRisk
