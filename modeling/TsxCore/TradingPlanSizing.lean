import TsxCore.TradingRisk
import TsxCore.DecimalBounds

/-!
# What a plan's quantity is bounded by

`NativeQuantity` lists what the three sizing functions guarantee at the price they
size at, and the capital they size from is at most the exact percentage of equity.
A plan without conversion is then read back: its entry order carries the submitted
price, the risk bound holds at that price, and the notional bounds hold at the
sizing price, which is the submitted price itself for a limit entry and at least it
when leverage tiers are given.
-/

namespace TsxCore.TradingRisk

open Outcome TradingDecimal TradingRational TradingMoneyValue TradingTypes TradingFxSizing
open TradingFxQuotes TradingLeverageTiers Numeral

section Values

theorem denotes_bigintText {n : ℤ} {u : ℕ} (h : Denotes (bigintText n) u) :
    (u : ℤ) = n * 10 ^ 18 := by
  have hnn : ¬ n < 0 := by
    intro hneg
    have hfalse := h.isNegative
    rw [bigintText, if_pos hneg, isNegative_minus] at hfalse
    cases hfalse
  have htext : bigintText n = .ofList (numeral n.natAbs 0) := by
    rw [bigintText, if_neg hnn, numeral, if_pos rfl]
  rw [htext, denotes_numeral_iff (Nat.zero_le 18)] at h
  omega

theorem decimalValue_bigintText {n : ℤ} {u : ℕ} (h : Denotes (bigintText n) u) :
    decimalValue (bigintText n) = n := by
  rw [h.decimalValue, denotes_bigintText h, unitValue, Int.cast_mul, mul_div_assoc]
  norm_num

theorem multiplyDecimal_leverage_le {balance s : String} {leverage : ℤ}
    (h : multiplyDecimal balance (bigintText leverage) = .ok s) :
    decimalValue s ≤ decimalValue balance * leverage := by
  obtain ⟨_, _, -, hv, -⟩ := multiplyDecimal_ok_iff.mp h
  have hle := multiplyDecimal_le h
  rwa [decimalValue_bigintText hv] at hle

theorem decimalValue_hundred : decimalValue "100" = 100 := by
  decide +kernel

theorem percentage_le {amount percent product s : String}
    (hprod : multiplyDecimal amount percent = .ok product)
    (h : divideDecimal product "100" = .ok s) :
    decimalValue s ≤ decimalValue amount * decimalValue percent / 100 := by
  obtain ⟨-, hle⟩ := divideDecimal_le h
  rw [decimalValue_hundred] at hle
  exact hle.trans (div_le_div_of_nonneg_right (multiplyDecimal_le hprod) (by norm_num))

end Values

section Quantities

variable {quantity : String}

/-- What sizing without a conversion guarantees: `capital` is the percentage of equity that the
mode sizes from, and notionals are taken at the price `entry`. -/
structure NativeQuantity (input : TradingPlanInput) (entry distance capital : String)
    (leverage : ℤ) (quantity : String) : Prop where
  nonneg : 0 ≤ decimalValue quantity
  multiple : ∃ n : ℕ, decimalValue quantity = n * decimalValue input.market.quantityStep
  minimumQuantity : decimalValue input.market.minimumQuantity ≤ decimalValue quantity
  minimumNotional : decimalValue input.market.minimumNotional ≤
    decimalValue quantity * decimalValue entry
  notional : decimalValue quantity * decimalValue entry ≤
    decimalValue input.strategy.sizing.maxPositionNotional
  buyingPower : ∃ b, multiplyDecimal input.account.availableBalance (bigintText leverage) = .ok b ∧
    decimalValue quantity * decimalValue entry ≤ decimalValue b
  risk : input.strategy.sizing.positionSizingMode.getD .riskPercent = .riskPercent →
    decimalValue quantity * decimalValue distance ≤ decimalValue capital
  equityNotional : input.strategy.sizing.positionSizingMode = some .equityPercentNotional →
    decimalValue quantity * decimalValue entry ≤ decimalValue capital
  equityMargin : input.strategy.sizing.positionSizingMode = some .equityPercentMargin →
    ∃ b, multiplyDecimal capital (bigintText leverage) = .ok b ∧
      decimalValue quantity * decimalValue entry ≤ decimalValue b

theorem aboveMinimum_ok {label : String} {market : TradingMarketSnapshot} {entry s : String}
    (h : aboveMinimum label market entry quantity = .ok s) :
    quantity = s ∧ 0 ≤ decimalValue quantity ∧
      decimalValue market.minimumQuantity ≤ decimalValue quantity ∧
      decimalValue market.minimumNotional ≤ decimalValue quantity * decimalValue entry := by
  simp only [aboveMinimum, bind_eq_ok, throwIf_eq_ok, pure_eq_ok_iff, not_lt] at h
  obtain ⟨o, ho, -, hqty, product, hprod, o', ho', -, hntl, rfl⟩ := h
  obtain ⟨hlt, -⟩ := compareDecimal_value ho
  obtain ⟨hlt', -⟩ := compareDecimal_value ho'
  obtain ⟨_, _, hdenotes, -⟩ := compareDecimal_ok_iff.mp ho
  refine ⟨rfl, decimalValue_nonneg hdenotes, not_lt.mp fun hbad => ?_, not_lt.mp fun hbad => ?_⟩
  · exact absurd (hlt.mpr hbad) (not_lt.mpr hqty)
  · exact absurd (hlt'.mpr ((multiplyDecimal_le hprod).trans_lt hbad)) (not_lt.mpr hntl)

theorem mul_le_of_quotient {budget price quotient : String}
    (hquot : divideDecimal budget price = .ok quotient)
    (hle : decimalValue quantity ≤ decimalValue quotient) :
    decimalValue quantity * decimalValue price ≤ decimalValue budget := by
  obtain ⟨hpos, hbound⟩ := divideDecimal_le hquot
  rw [← le_div_iff₀ hpos]
  exact hle.trans hbound

theorem mul_le_of_allowed {first allowed quotient step entry : String} {others : List String}
    (hallowed : minDecimal first others = .ok allowed)
    (hquot : divideDecimal allowed entry = .ok quotient)
    (hqty : quantizeDecimalDown quotient step = .ok quantity) :
    ∀ budget ∈ first :: others,
      decimalValue quantity * decimalValue entry ≤ decimalValue budget := by
  intro budget hbud
  exact (mul_le_of_quotient hquot (quantizeDecimalDown_le hqty).1).trans
    (minDecimal_le hallowed budget hbud)

section Native

variable {runtime : Runtime} {input : TradingPlanInput} {entry riskPercent distance s : String}
variable {leverage : ℤ} {capital product : String}

theorem positionQuantity_native
    (hmode : input.strategy.sizing.positionSizingMode.getD .riskPercent = .riskPercent)
    (h : positionQuantity input.account input.market entry capital distance
      input.strategy.sizing.maxPositionNotional leverage = .ok s) :
    NativeQuantity input entry distance capital leverage s := by
  simp only [positionQuantity, bind_eq_ok] at h
  obtain ⟨byRisk, hrisk, byNotional, hntl, power, hpower, byPower, hbyPower, least, hleast,
    quantity, hqty, h⟩ := h
  obtain ⟨rfl, hnn, hminimum, hminNotional⟩ := aboveMinimum_ok h
  obtain ⟨hdown, hmultiple⟩ := quantizeDecimalDown_le hqty
  have hle := minDecimal_le hleast
  simp only [List.mem_cons, List.not_mem_nil, or_false, forall_eq_or_imp, forall_eq] at hle
  obtain ⟨hleRisk, hleNotional, hlePower⟩ := hle
  refine ⟨hnn, hmultiple, hminimum, hminNotional,
    mul_le_of_quotient hntl (hdown.trans hleNotional),
    ⟨power, hpower, mul_le_of_quotient hbyPower (hdown.trans hlePower)⟩,
    fun _ => mul_le_of_quotient hrisk (hdown.trans hleRisk), ?_, ?_⟩
  all_goals
    intro hother
    rw [hother] at hmode
    cases hmode

theorem equityPercentPositionQuantity_native
    (hmode : input.strategy.sizing.positionSizingMode = some .equityPercentNotional)
    (hprod : multiplyDecimal input.account.equity riskPercent = .ok product)
    (hcap : divideDecimal product "100" = .ok capital)
    (h : equityPercentPositionQuantity input.account input.market entry riskPercent
      input.strategy.sizing.maxPositionNotional leverage = .ok s) :
    NativeQuantity input entry distance capital leverage s := by
  simp only [equityPercentPositionQuantity, hprod, hcap, ok_bind, bind_eq_ok] at h
  obtain ⟨power, hpower, allowed, hallowed, quotient, hquot, quantity, hqty, h⟩ := h
  obtain ⟨rfl, hnn, hminimum, hminNotional⟩ := aboveMinimum_ok h
  have hle := mul_le_of_allowed hallowed hquot hqty
  simp only [List.mem_cons, List.not_mem_nil, or_false, forall_eq_or_imp, forall_eq] at hle
  obtain ⟨hleCapital, hleNotional, hlePower⟩ := hle
  refine ⟨hnn, (quantizeDecimalDown_le hqty).2, hminimum, hminNotional, hleNotional,
    ⟨power, hpower, hlePower⟩, ?_, fun _ => hleCapital, ?_⟩
  all_goals
    intro hother
    rw [hmode] at hother
    cases hother

theorem equityPercentMarginQuantity_native
    (hmode : input.strategy.sizing.positionSizingMode = some .equityPercentMargin)
    (hprod : multiplyDecimal input.account.equity riskPercent = .ok product)
    (hcap : divideDecimal product "100" = .ok capital)
    (h : equityPercentMarginQuantity input.account input.market entry riskPercent
      input.strategy.sizing.maxPositionNotional leverage = .ok s) :
    NativeQuantity input entry distance capital leverage s := by
  simp only [equityPercentMarginQuantity, hprod, hcap, ok_bind, bind_eq_ok] at h
  obtain ⟨leveraged, hleveraged, power, hpower, allowed, hallowed, quotient, hquot, quantity,
    hqty, h⟩ := h
  obtain ⟨rfl, hnn, hminimum, hminNotional⟩ := aboveMinimum_ok h
  have hle := mul_le_of_allowed hallowed hquot hqty
  simp only [List.mem_cons, List.not_mem_nil, or_false, forall_eq_or_imp, forall_eq] at hle
  obtain ⟨hleLeveraged, hleNotional, hlePower⟩ := hle
  refine ⟨hnn, (quantizeDecimalDown_le hqty).2, hminimum, hminNotional, hleNotional,
    ⟨power, hpower, hlePower⟩, ?_, ?_, fun _ => ⟨leveraged, hleveraged, hleLeveraged⟩⟩
  all_goals
    intro hother
    rw [hmode] at hother
    cases hother

theorem quantityForPlan_native (hfx : input.fxConversion = none)
    (hprod : multiplyDecimal input.account.equity riskPercent = .ok product)
    (hcap : divideDecimal product "100" = .ok capital)
    (h : quantityForPlan runtime input entry riskPercent distance leverage = .ok s) :
    NativeQuantity input entry distance capital leverage s := by
  simp only [quantityForPlan, hfx] at h
  cases hmode : input.strategy.sizing.positionSizingMode with
  | none =>
    simp only [hmode, hprod, hcap, ok_bind] at h
    exact positionQuantity_native (by rw [hmode]; rfl) h
  | some mode =>
    cases mode with
    | riskPercent =>
      simp only [hmode, hprod, hcap, ok_bind] at h
      exact positionQuantity_native (by rw [hmode]; rfl) h
    | equityPercentNotional =>
      simp only [hmode] at h
      exact equityPercentPositionQuantity_native hmode hprod hcap h
    | equityPercentMargin =>
      simp only [hmode] at h
      exact equityPercentMarginQuantity_native hmode hprod hcap h

end Native

end Quantities

section Plans

variable {runtime : Runtime} {input : TradingPlanInput} {plan : TradingPlan}
variable {price distance limitPrice : String}

/-- The adaptive risk up to its ceiling, or else the configured one. -/
def selectedRiskPercent (input : TradingPlanInput) : ℚ :=
  let sizing := input.strategy.sizing
  match present input.effectiveRiskPercent with
  | some effective => min (decimalValue effective)
      (decimalValue (sizing.maxAdaptiveRiskPercent.getD sizing.riskPerTradePercent))
  | none => decimalValue sizing.riskPerTradePercent

/-- The percentage a plan is sized with; in `risk_percent` mode no more than the signal suggests. -/
def planRiskPercent (input : TradingPlanInput) : ℚ :=
  match input.strategy.sizing.positionSizingMode.getD .riskPercent,
    present input.signal.suggestedRiskPercent with
  | .riskPercent, some suggested => min (selectedRiskPercent input) (decimalValue suggested)
  | _, _ => selectedRiskPercent input

theorem selectedPlanRisk_value {risk : String} (h : selectedPlanRisk input = .ok risk) :
    decimalValue risk = selectedRiskPercent input := by
  unfold selectedPlanRisk at h
  unfold selectedRiskPercent
  cases hpresent : present input.effectiveRiskPercent with
  | none =>
    simp only [hpresent, pure_eq_ok_iff] at h
    rw [← h]
  | some effective =>
    simp only [hpresent, bind_eq_ok] at h
    obtain ⟨t, ht, h⟩ := h
    rw [minDecimal_pair h, (decimal_value ht).1]

theorem configuredPlanRisk_value {risk : String} (h : configuredPlanRisk input = .ok risk) :
    decimalValue risk = planRiskPercent input := by
  simp only [configuredPlanRisk, bind_eq_ok] at h
  obtain ⟨selected, hsel, h⟩ := h
  have hvalue := selectedPlanRisk_value hsel
  have hselect : ∀ {other : ℚ}, decimalValue risk = decimalValue selected →
      other = selectedRiskPercent input → decimalValue risk = other := by
    intro other hrisk hother
    rw [hrisk, hvalue, hother]
  unfold planRiskPercent
  cases hpresent : present input.signal.suggestedRiskPercent with
  | none =>
    cases hmode : input.strategy.sizing.positionSizingMode.getD .riskPercent <;>
    · simp only [hpresent, hmode, pure_eq_ok_iff] at h
      exact hselect (by rw [h]) rfl
  | some suggested =>
    cases hmode : input.strategy.sizing.positionSizingMode.getD .riskPercent with
    | riskPercent =>
      simp only [hpresent, hmode] at h
      exact (minDecimal_pair h).trans (by rw [hvalue])
    | equityPercentNotional | equityPercentMargin =>
      simp only [hpresent, hmode, pure_eq_ok_iff] at h
      exact hselect (by rw [h]) rfl

theorem planPriceBoundary_eq_none_iff {boundary : Option TradingEntryPriceBoundary}
    (h : planPriceBoundary input.signal input.strategy input.market input.entryPriceBoundary =
      .ok boundary) : boundary = none ↔ input.isMarket = false := by
  unfold planPriceBoundary at h
  rw [TradingPlanInput.isMarket]
  split_ifs at h with hmkt
  · simp only [bind_eq_ok, pure_eq_ok_iff] at h
    obtain ⟨-, -, rfl⟩ := h
    exact iff_of_true rfl hmkt
  · simp only [bind_eq_ok, pure_eq_ok_iff] at h
    obtain ⟨_, -, -, -, _, -, -, -, rfl⟩ := h
    exact iff_of_false (by simp) hmkt

theorem riskDistance_value {action : TradingSide} {stop : String}
    (h : riskDistance action stop price = .ok distance) :
    decimalValue distance = |decimalValue price - decimalValue stop| := by
  cases action with
  | long =>
    simp only [riskDistance, bind_eq_ok, throwIf_eq_ok, not_le] at h
    obtain ⟨o, ho, -, hneg, h⟩ := h
    rw [subtractDecimal_value h, abs_of_pos (sub_pos.mpr ((compareDecimal_value ho).1.mp hneg))]
  | short =>
    simp only [riskDistance, bind_eq_ok, throwIf_eq_ok, not_le] at h
    obtain ⟨o, ho, -, hpos, h⟩ := h
    rw [subtractDecimal_value h, abs_of_neg (sub_neg.mpr ((compareDecimal_value ho).2.mp hpos)),
      neg_sub]

/-- What `solvePlanSizing` computed on the way to its result. -/
structure SizingSteps (runtime : Runtime) (input : TradingPlanInput)
    (price distance limitPrice : String) (sizing : PlanSizing) (risk capital sizingPrice : String)
    (solved : TierSizing) (budget : NotionalBudget) : Prop where
  context : fxSizingContext runtime.fxEvidenceDigest runtime.dateNow input.toFxSizingInput =
    .ok sizing.fxSizing
  configured : configuredPlanRisk input = .ok risk
  percentage : ∃ product, multiplyDecimal input.account.equity risk = .ok product ∧
    divideDecimal product "100" = .ok capital
  priced : planSizingPrice input price limitPrice = .ok sizingPrice
  solves : solvedQuantity input
    (resolveLeverageDecision input.signal input.strategy input.market).effective
    (quantityForPlan runtime input sizingPrice risk distance) = .ok solved
  budgeted : planNotionalBudget runtime input sizing.fxSizing sizingPrice risk distance capital
    solved.leverage = .ok budget
  decided : planTierDecision runtime input solved budget = .ok sizing.leverageTierDecision
  quantity_eq : sizing.quantity = solved.quantity
  leverage_eq : sizing.leverage = solved.leverage

theorem solvePlanSizing_steps {sizing : PlanSizing}
    (h : solvePlanSizing runtime input price distance limitPrice = .ok sizing) :
    ∃ risk capital sizingPrice solved budget, SizingSteps runtime input price distance limitPrice
      sizing risk capital sizingPrice solved budget := by
  simp only [solvePlanSizing, bind_eq_ok, pure_eq_ok_iff] at h
  obtain ⟨fx, hfx, risk, hrisk, product, hprod, capital, hcap, sizingPrice, hprice, solved,
    hsolved, budget, hbud, _, -, decision, hdecn, rfl⟩ := h
  exact ⟨risk, capital, sizingPrice, solved, budget, hfx, hrisk, ⟨product, hprod, hcap⟩,
    hprice, hsolved, hbud, hdecn, rfl, rfl⟩

/-- What `createTradingPlan` computed on the way to its plan. -/
structure PlanSteps (runtime : Runtime) (input : TradingPlanInput) (plan : TradingPlan)
    (submitted distance : String) (sizing : PlanSizing) : Prop where
  entryOrder : ∃ entry, plan.orders.find? (·.role == .entry) = some entry ∧
    entry.price = some submitted ∧ entry.quantity = plan.quantity
  limitEntry : input.isMarket = false → submitted = plan.entryPrice
  stopped : riskDistance input.signal.action plan.stopPrice submitted = .ok distance
  sized : solvePlanSizing runtime input plan.entryPrice distance submitted = .ok sizing
  quantity_eq : plan.quantity = sizing.quantity
  leverage_eq : plan.leverage = sizing.leverage
  decision_eq : plan.leverageTierDecision = sizing.leverageTierDecision

theorem createTradingPlan_steps (h : createTradingPlan runtime input = .ok plan) :
    ∃ submitted distance sizing, PlanSteps runtime input plan submitted distance sizing := by
  simp only [createTradingPlan, bind_eq_ok, pure_eq_ok_iff] at h
  obtain ⟨-, -, allocations, -, boundary, hboundary, price, -, stop, -, distance, hdst, sizing,
    hsizing, notional, -, orders, hords, timing, -, rfl⟩ := h
  have hmkt := planPriceBoundary_eq_none_iff hboundary
  simp only [plannedOrders, bind_eq_ok, pure_eq_ok_iff] at hords
  obtain ⟨_, -, _, -, rfl⟩ := hords
  refine ⟨_, distance, sizing, ⟨_, rfl, ?_, rfl⟩, ?_, hdst, hsizing, rfl, rfl, rfl⟩
  · cases boundary with
    | none => simp [entryOrder, hmkt.mp rfl]
    | some boundary => rfl
  · intro hlimit
    rw [hmkt.mpr hlimit]
    rfl

theorem solvedQuantity_sized {effective : ℤ} {size : ℤ → Outcome String} {solved : TierSizing}
    (h : solvedQuantity input effective size = .ok solved) :
    (∃ raw, size solved.leverage = .ok raw ∧ decimalValue solved.quantity = decimalValue raw) ∧
      (input.market.leverageTiers.isSome = true → 0 < decimalValue solved.quantity) := by
  unfold solvedQuantity at h
  cases htiers : input.market.leverageTiers with
  | none =>
    simp only [htiers, bind_eq_ok, pure_eq_ok_iff] at h
    obtain ⟨raw, hraw, rfl⟩ := h
    exact ⟨⟨raw, hraw, rfl⟩, fun hsome => by cases hsome⟩
  | some tiers =>
    simp only [htiers] at h
    obtain ⟨raw, hraw, hdec⟩ := (solveTierQuantity_solved h).sized
    obtain ⟨hvalue, hpos⟩ := decimal_value hdec
    refine ⟨⟨raw, hraw, hvalue⟩, fun _ => ?_⟩
    rw [hvalue]
    exact hpos rfl

/-- The sizing price: the reference price without tiers, and no cheaper than the submitted price
with them. -/
theorem planSizingPrice_value {sizingPrice : String}
    (h : planSizingPrice input price limitPrice = .ok sizingPrice) :
    (input.market.leverageTiers = none → sizingPrice = price) ∧
      (input.market.leverageTiers.isSome = true →
        decimalValue limitPrice ≤ decimalValue sizingPrice) := by
  unfold planSizingPrice at h
  cases htiers : input.market.leverageTiers with
  | none =>
    simp only [htiers, pure_eq_ok_iff] at h
    exact ⟨fun _ => h.symm, fun hsome => by cases hsome⟩
  | some tiers =>
    simp only [htiers] at h
    refine ⟨fun hnone => (by cases hnone), fun _ => ?_⟩
    obtain ⟨u, v, hu, hv, hprice⟩ := valuationPrice_denotes h
    rw [hv.decimalValue, hprice.decimalValue, unitValue_le_iff]
    exact_mod_cast le_max_right u v

/-- The limits on a plan's notional, with its quantity valued at `price`. -/
structure WithinCaps (input : TradingPlanInput) (plan : TradingPlan) (price : ℚ) : Prop where
  maxNotional : decimalValue plan.quantity * price ≤
    decimalValue input.strategy.sizing.maxPositionNotional
  buyingPower : decimalValue plan.quantity * price ≤
    decimalValue input.account.availableBalance * plan.leverage
  equityNotional : input.strategy.sizing.positionSizingMode = some .equityPercentNotional →
    decimalValue plan.quantity * price ≤
      decimalValue input.account.equity * planRiskPercent input / 100
  equityMargin : input.strategy.sizing.positionSizingMode = some .equityPercentMargin →
    decimalValue plan.quantity * price ≤
      decimalValue input.account.equity * planRiskPercent input / 100 * plan.leverage

theorem WithinCaps.mono {lower upper : ℚ} (h : WithinCaps input plan upper) (hle : lower ≤ upper)
    (hqty : 0 ≤ decimalValue plan.quantity) : WithinCaps input plan lower := by
  have hprod := mul_le_mul_of_nonneg_left hle hqty
  exact ⟨hprod.trans h.maxNotional, hprod.trans h.buyingPower,
    fun hmode => hprod.trans (h.equityNotional hmode),
    fun hmode => hprod.trans (h.equityMargin hmode)⟩

/-- Budgets in texts become the exact limits once the capital is bounded by the exact one. -/
theorem NativeQuantity.withinCaps {entry capital quantity : String}
    (h : NativeQuantity input entry distance capital plan.leverage quantity)
    (hqty : decimalValue plan.quantity = decimalValue quantity)
    (hcap : decimalValue capital ≤
      decimalValue input.account.equity * planRiskPercent input / 100) :
    WithinCaps input plan (decimalValue entry) := by
  obtain ⟨b, hb, hpower⟩ := h.buyingPower
  have hleverage : (0 : ℚ) ≤ plan.leverage := by
    obtain ⟨_, u, -, hu, -⟩ := multiplyDecimal_ok_iff.mp hb
    have hunits := denotes_bigintText hu
    exact_mod_cast (show 0 ≤ plan.leverage by omega)
  refine ⟨?_, ?_, ?_, ?_⟩
  · rw [hqty]
    exact h.notional
  · rw [hqty]
    exact hpower.trans (multiplyDecimal_leverage_le hb)
  · intro hmode
    rw [hqty]
    exact (h.equityNotional hmode).trans hcap
  · intro hmode
    obtain ⟨c, hc, hmargin⟩ := h.equityMargin hmode
    rw [hqty]
    calc
      decimalValue quantity * decimalValue entry ≤ decimalValue c := hmargin
      _ ≤ decimalValue capital * plan.leverage := multiplyDecimal_leverage_le hc
      _ ≤ _ := mul_le_mul_of_nonneg_right hcap hleverage

/-- The risk of a plan without conversion is bounded at the submitted price, its notional at the
price it was sized at: the reference price of the plan without leverage tiers, and the dearer of
mark and submitted price with them. A limit entry submits its reference price. -/
theorem plan_sizing_bounds (hfx : input.fxConversion = none)
    (h : createTradingPlan runtime input = .ok plan) :
    ∃ entry submitted, plan.orders.find? (·.role == .entry) = some entry ∧
      entry.price = some submitted ∧ entry.quantity = plan.quantity ∧
      (∃ n : ℕ, decimalValue plan.quantity = n * decimalValue input.market.quantityStep) ∧
      (input.market.leverageTiers.isSome = true ∨ 0 < decimalValue input.market.minimumQuantity ∨
        0 < decimalValue input.market.minimumNotional → 0 < decimalValue plan.quantity) ∧
      (input.strategy.sizing.positionSizingMode.getD .riskPercent = .riskPercent →
        decimalValue plan.quantity * |decimalValue submitted - decimalValue plan.stopPrice| ≤
          decimalValue input.account.equity * planRiskPercent input / 100) ∧
      (input.market.leverageTiers.isSome = true ∨ input.isMarket = false ∨
        decimalValue submitted ≤ decimalValue plan.entryPrice →
          WithinCaps input plan (decimalValue submitted)) ∧
      (input.market.leverageTiers = none →
        WithinCaps input plan (decimalValue plan.entryPrice)) := by
  obtain ⟨submitted, distance, sizing, steps⟩ := createTradingPlan_steps h
  obtain ⟨risk, capital, sizingPrice, solved, budget, sized⟩ := solvePlanSizing_steps steps.sized
  obtain ⟨entry, hentry, hprice, hqty⟩ := steps.entryOrder
  obtain ⟨product, hprod, hcap⟩ := sized.percentage
  obtain ⟨⟨raw, hraw, hvalue⟩, hpositive⟩ := solvedQuantity_sized sized.solves
  have hplan : decimalValue plan.quantity = decimalValue raw := by
    rw [steps.quantity_eq, sized.quantity_eq, hvalue]
  have hbound : decimalValue capital ≤
      decimalValue input.account.equity * planRiskPercent input / 100 := by
    rw [← configuredPlanRisk_value sized.configured]
    exact percentage_le hprod hcap
  have hnative := quantityForPlan_native hfx hprod hcap hraw
  rw [← sized.leverage_eq, ← steps.leverage_eq] at hnative
  have hcaps := hnative.withinCaps hplan hbound
  obtain ⟨href, hdearer⟩ := planSizingPrice_value sized.priced
  have hnn : 0 ≤ decimalValue plan.quantity := by
    rw [hplan]
    exact hnative.nonneg
  refine ⟨entry, submitted, hentry, hprice, hqty, ?_, ?_, ?_, ?_, ?_⟩
  · rw [hplan]
    exact hnative.multiple
  · intro hmin
    rcases hmin with htiers | hminimum | hminimum
    · rw [steps.quantity_eq, sized.quantity_eq]
      exact hpositive htiers
    · rw [hplan]
      exact hminimum.trans_le hnative.minimumQuantity
    · apply lt_of_le_of_ne hnn
      intro hzero
      have hntl := hminimum.trans_le hnative.minimumNotional
      rw [← hplan, ← hzero, zero_mul] at hntl
      exact lt_irrefl _ hntl
  · intro hmode
    rw [hplan, ← riskDistance_value steps.stopped]
    exact (hnative.risk hmode).trans hbound
  · intro hcase
    cases htiers : input.market.leverageTiers with
    | some tiers => exact hcaps.mono (hdearer (by rw [htiers]; rfl)) hnn
    | none =>
      rw [href htiers] at hcaps
      rcases hcase with hsome | hlimit | hle
      · rw [htiers] at hsome
        cases hsome
      · rwa [steps.limitEntry hlimit]
      · exact hcaps.mono hle hnn
  · intro hnone
    rw [← href hnone]
    exact hcaps

end Plans

section Inputs

/-- The digests of the client order identities of `boundedEntry`; no conversion is digested. -/
def boundedEntryRuntime : Runtime where
  sha256 := fun identity =>
    if identity = "bounded-entry:entry:0" then
      "5e6237ac134279260d6c69d244758e025b809270b6098d84b55baa1a52658bb7"
    else if identity = "bounded-entry:stop_loss:0" then
      "97a93f51a7bbd30d0258b17cbe6be4cf5d93c69595d69d85df12c498985db67f"
    else if identity = "bounded-entry:take_profit:1" then
      "849148ad1ccf81011d5f62df72cd0bec1bc8cf4c0881465149034fd530392701"
    else "a6e59d48df21fa0ed08f55f9b5e25e67155f02a00ca2148602b2d18bd6f575e2"
  fxEvidenceDigest := fun _ => .error (invalidFx "EVIDENCE_INVALID")
  dateNow := 1700000000000

/-- A LONG signal under the default strategy, with a mark between two ticks. -/
def boundedEntry (entry : SignalEntry) (stopLoss : String) : TradingPlanInput where
  intentId := "bounded-entry"
  signal := {
    schema := "standard"
    action := .long
    symbol := "BTCUSDT"
    entry
    targets := [⟨"110", "110"⟩, ⟨"120", "120"⟩]
    stopLoss
    suggestedLeverage := none
    suggestedRiskPercent := none }
  strategy := {
    allowedSignalSchemas := ["standard", "cryptodanielvip", "loma"]
    allowedSymbols := []
    allowedSides := [.long, .short]
    entry := ⟨.limit, .midpoint, false, 10⟩
    sizing := ⟨some .riskPercent, "1", some "1", "1000", some 3, 3⟩
    exits := ⟨some .manual, ["50", "50"], some .configured⟩
    safety := ⟨"0.5", 900⟩ }
  account := ⟨"10000", "10000", none⟩
  market := ⟨"100.05", "0.1", "0.01", "0.01", "1", 10, none, none⟩
  fxConversion := none
  effectiveRiskPercent := none
  entryOriginAt := none
  entryExpiresAt := none
  entryPriceBoundary := none
  now := none

/-- The quantity and the submitted price of an input's plan. -/
def plannedEntry (runtime : Runtime) (input : TradingPlanInput) :
    Outcome (String × Option String) :=
  (fun plan => (plan.quantity, (plan.orders.find? (·.role == .entry)).bind (·.price))) <$>
    createTradingPlan runtime input

theorem plan_sizing_bounds_limit_entry :
    ∃ plan, createTradingPlan boundedEntryRuntime
        (boundedEntry (.range ⟨"100", "100"⟩) "90") = .ok plan ∧
      0 < decimalValue plan.quantity ∧
      WithinCaps (boundedEntry (.range ⟨"100", "100"⟩) "90") plan 100 := by
  have hplan : plannedEntry boundedEntryRuntime (boundedEntry (.range ⟨"100", "100"⟩) "90") =
      .ok ("10", some "100") := by
    decide +kernel
  obtain ⟨plan, h, heq⟩ := map_eq_ok.mp hplan
  obtain ⟨entry, submitted, hentry, hprice, -, -, hpositive, -, hcaps, -⟩ :=
    plan_sizing_bounds rfl h
  rw [hentry, Option.bind_some, hprice, Prod.mk.injEq, Option.some.injEq] at heq
  have hwithin := hcaps (.inr (.inl (by decide)))
  rw [heq.2, decimalValue_hundred] at hwithin
  exact ⟨plan, h, hpositive (.inr (.inl (by decide +kernel))), hwithin⟩

/-- A market entry without leverage tiers is sized at its reference price `100.1` but submitted
at the slippage boundary `100.5`, where `9.99` units exceed the notional cap of `1000`. -/
theorem market_entry_exceeds_notional_cap :
    ¬ ∀ (runtime : Runtime) (input : TradingPlanInput) (plan : TradingPlan),
      input.fxConversion = none → createTradingPlan runtime input = .ok plan →
      ∃ entry submitted, plan.orders.find? (·.role == .entry) = some entry ∧
        entry.price = some submitted ∧ 0 < decimalValue plan.quantity ∧
        (∃ n : ℕ, decimalValue plan.quantity = n * decimalValue input.market.quantityStep) ∧
        (input.strategy.sizing.positionSizingMode.getD .riskPercent = .riskPercent →
          decimalValue plan.quantity * |decimalValue submitted - decimalValue plan.stopPrice| ≤
            decimalValue input.account.equity * planRiskPercent input / 100) ∧
        WithinCaps input plan (decimalValue submitted) := by
  intro hclaim
  have hplan : plannedEntry boundedEntryRuntime (boundedEntry .market "98") =
      .ok ("9.99", some "100.5") := by
    decide +kernel
  obtain ⟨plan, h, heq⟩ := map_eq_ok.mp hplan
  obtain ⟨entry, submitted, hentry, hprice, -, -, -, hcaps⟩ := hclaim _ _ plan rfl h
  rw [hentry, Option.bind_some, hprice, Prod.mk.injEq, Option.some.injEq] at heq
  have hntl := hcaps.maxNotional
  rw [heq.1, heq.2] at hntl
  exact absurd hntl (by decide +kernel)

end Inputs

end TsxCore.TradingRisk
