import TsxCore.FxSizingAgreement

/-!
# Tier admission of a plan (`trading_leverage_admission.ts`)

Before an order is sent the recorded tier decision is checked against current tier
evidence: the tier of the quantity, the leverage it allows, and the notional budget.
A plan that was just created passes against the evidence it was created from: the
solver located the quantity with the same function, and sizing kept it within every
part of the budget at the dearer of mark and submitted price, in quanta without a
conversion and as fractions with one.
-/

namespace TsxCore.TradingLeverageAdmission

open Outcome TradingDecimal TradingRational TradingTypes TradingFxSizing
open TradingLeverageTiers TradingRisk

def evidenceError (message : String) : Thrown := tradingRiskError "LEVERAGE_TIERS_UNPROVEN" message

/-- `try { … } catch { throw … }`. -/
def orThrow {α : Type} (attempt : Outcome α) (e : Thrown) : Outcome α :=
  match attempt with
  | .ok value => .ok value
  | .error _ => .error e

def assertCurrentPlanTier (value : TradingLeverageTierEvidence) (plan : TradingPlan)
    (decision : TradingLeverageTierDecision) : Outcome Unit := do
  let index ← orThrow (tierForQuantity value.tiers plan.quantity value.markPrice)
    (evidenceError "Current notional is outside proven tiers.")
  match value.tiers[index]? with
  | none => throw (evidenceError "Current mark changed the original leverage tier.")
  | some tier =>
    throwIf (¬ (index = decision.tierIndex ∧ plan.leverage ≤ tier.maxLeverage))
      (evidenceError "Current mark changed the original leverage tier.")

section Sizing

variable {runtime : Runtime} {input : TradingPlanInput} {plan : TradingPlan} {distance raw : String}
  {tiers : TradingLeverageTierEvidence} {decision : TradingLeverageTierDecision}

theorem fxSizingContext_eq_none_iff {context : Option TradingFxSizingContext}
    (h : fxSizingContext runtime.fxEvidenceDigest runtime.dateNow input.toFxSizingInput =
      .ok context) : context = none ↔ input.fxConversion = none := by
  have hconv : input.toFxSizingInput.fxConversion = input.fxConversion := rfl
  unfold fxSizingContext at h
  rw [hconv] at h
  split at h
  · split at h
    · simp only [bind_eq_ok, throwIf_eq_ok, not_not, pure_eq_ok_iff] at h
      obtain ⟨-, hnone, rfl⟩ := h
      exact iff_of_true rfl hnone
    · simp only [bind_eq_ok, pure_eq_ok_iff] at h
      obtain ⟨fx, hfx, rfl⟩ := h
      refine iff_of_false (by simp) ?_
      intro hnone
      simp only [assertSizingRecipe, hnone, bind_eq_ok] at hfx
      obtain ⟨-, -, hfx⟩ := hfx
      cases hfx
  · simp only [bind_eq_ok, throwIf_eq_ok, not_not, pure_eq_ok_iff] at h
    obtain ⟨-, hnone, rfl⟩ := h
    exact iff_of_true rfl hnone

theorem originalNotionalBudget_covers {entry capital quantity budget : String} {leverage : ℤ}
    (h : NativeQuantity input entry distance capital leverage quantity)
    (hbud : originalNotionalBudget input capital leverage = .ok budget) :
    decimalValue quantity * decimalValue entry ≤ decimalValue budget := by
  simp only [originalNotionalBudget, bind_eq_ok] at hbud
  obtain ⟨sized, hsized, power, hpower, hleast⟩ := hbud
  obtain ⟨b, hb, hwithin⟩ := h.buyingPower
  rw [hpower] at hb
  cases hb
  have hmem := minDecimal_mem hleast
  simp only [List.mem_cons, List.not_mem_nil, or_false] at hmem
  rcases hmem with rfl | rfl | rfl
  · exact h.notional
  · exact hwithin
  · unfold modeNotional at hsized
    split at hsized
    · rename_i hmode
      obtain ⟨c, hc, hmargin⟩ := h.equityMargin hmode
      rw [hsized] at hc
      cases hc
      exact hmargin
    · rename_i hmode
      cases hsized
      exact h.equityNotional hmode
    · cases hsized
      exact h.notional

theorem sized_quanta {quantity : String} (h : decimal raw true = .ok quantity) :
    ∃ w, Denotes quantity w ∧ 0 < w ∧ decimalValue raw = unitValue w := by
  obtain ⟨w, hw, hpos, rfl⟩ := decimal_positive_ok_iff.mp h
  exact ⟨w, denotes_text hw.lt, hpos, hw.readsSigned.decimalValue⟩

theorem budget_accepts_native {solved : TierSizing} {mark submitted price capital budget : String}
    (hfx : NativeQuantity input price distance capital solved.leverage raw)
    (hqty : decimal raw true = .ok solved.quantity)
    (hprice : valuationPrice mark submitted = .ok price)
    (hbud : originalNotionalBudget input capital solved.leverage = .ok budget)
    (h : tierDecision runtime.sha256 tiers solved (.decimal budget) = .ok decision) :
    assertTierDecisionBudget decision tiers.currency solved.quantity mark submitted = .ok () := by
  obtain ⟨w, hw, -, hvalue⟩ := sized_quanta hqty
  obtain ⟨u, v, hu, hv, hmax⟩ := valuationPrice_denotes hprice
  obtain ⟨b, hb⟩ : ∃ b, Denotes budget b := by
    simp only [originalNotionalBudget, bind_eq_ok] at hbud
    obtain ⟨_, -, _, -, hleast⟩ := hbud
    obtain ⟨b, _, hb, -⟩ := minDecimal_ok hleast (by simp)
    exact ⟨b, hb⟩
  have hcovers := originalNotionalBudget_covers hfx hbud
  rw [hvalue, hmax.decimalValue, hb.decimalValue, unitValue_mul_le_iff] at hcovers
  exact assertTierDecisionBudget_decimal h tiers.currency hw.reads hu hv hb.reads hcovers

theorem budget_accepts_fx {solved : TierSizing} {money : TradingMoneyValue.MoneyValue}
    {mark submitted price risk : String}
    (hsized : fxSizedQuantity runtime.fxEvidenceDigest runtime.dateNow
      (input.fxQuantityInput price risk distance solved.leverage) = .ok raw)
    (hqty : decimal raw true = .ok solved.quantity)
    (hprice : valuationPrice mark submitted = .ok price)
    (hbud : fxNotionalBudget runtime.fxEvidenceDigest runtime.dateNow
      (input.fxQuantityInput price risk distance solved.leverage) = .ok money)
    (h : tierDecision runtime.sha256 tiers solved (.money money) = .ok decision) :
    assertTierDecisionBudget decision tiers.currency solved.quantity mark submitted = .ok () := by
  obtain ⟨w, hw, hpos, hvalue⟩ := sized_quanta hqty
  obtain ⟨u, v, hu, hv, hmax⟩ := valuationPrice_denotes hprice
  obtain ⟨w', e, b, rfl, -, -, he, hepos, hb, hle⟩ := fxSizedQuantity_within hsized
  obtain ⟨b', x, hb', hexact, hx⟩ := fxNotionalBudget_exact hbud
  obtain rfl := hb.unique hb'
  obtain rfl : e = max u v := Denotes.unique he hmax.reads
  rw [decimalValue_text] at hvalue
  rw [hvalue] at hle
  exact assertTierDecisionBudget_money h hexact hx hw.reads hpos hu hv hepos hle

theorem quantityForPlan_fx {entry risk s : String} {leverage : ℤ} (hfx : input.fxConversion ≠ none)
    (h : quantityForPlan runtime input entry risk distance leverage = .ok s) :
    fxSizedQuantity runtime.fxEvidenceDigest runtime.dateNow
      (input.fxQuantityInput entry risk distance leverage) = .ok s := by
  obtain ⟨fx, hfx⟩ := Option.ne_none_iff_exists'.mp hfx
  simpa only [quantityForPlan, hfx] using h

/-- A fresh plan passes the tier and budget checks of its own evidence, whichever currency it was
sized in. -/
theorem fresh_plan_passes_tier_fence {tiers : TradingLeverageTierEvidence}
    (htiers : input.market.leverageTiers = some tiers)
    (hmark : tiers.markPrice = input.market.markPrice)
    (h : createTradingPlan runtime input = .ok plan) :
    ∃ decision entry price, plan.leverageTierDecision = some decision ∧
      plan.orders.find? (·.role == .entry) = some entry ∧ entry.price = some price ∧
      assertTierDecisionBudget decision tiers.currency plan.quantity tiers.markPrice price =
        .ok () ∧
      tierForQuantity tiers.tiers plan.quantity tiers.markPrice = .ok decision.tierIndex ∧
      (∃ tier, tiers.tiers[decision.tierIndex]? = some tier ∧ plan.leverage ≤ tier.maxLeverage) ∧
      assertCurrentPlanTier tiers plan decision = .ok () := by
  obtain ⟨submitted, distance, sizing, steps⟩ := createTradingPlan_steps h
  obtain ⟨risk, capital, price, solved, budget, sized⟩ := solvePlanSizing_steps steps.sized
  obtain ⟨entry, hentry, hprice, -⟩ := steps.entryOrder
  obtain ⟨product, hprod, hcap⟩ := sized.percentage
  have hsolves := sized.solves
  have hdecided := sized.decided
  have hvaln := sized.priced
  simp only [solvedQuantity, planTierDecision, planSizingPrice, htiers, bind_eq_ok,
    pure_eq_ok_iff] at hsolves hdecided hvaln
  have hsolved := solveTierQuantity_solved hsolves
  obtain ⟨decision, hdecn, hsome⟩ := hdecided
  obtain ⟨hindex, -, -⟩ := tierDecision_result hdecn
  obtain ⟨raw, hraw, hqty⟩ := hsolved.sized
  obtain ⟨tier, htier, hleverage⟩ := hsolved.allowed
  have hplan : plan.quantity = solved.quantity := steps.quantity_eq.trans sized.quantity_eq
  have hplanLeverage : plan.leverage = solved.leverage :=
    steps.leverage_eq.trans sized.leverage_eq
  have hbudgeted := sized.budgeted
  have hctx := fxSizingContext_eq_none_iff sized.context
  have hacpt : assertTierDecisionBudget decision tiers.currency solved.quantity
      input.market.markPrice submitted = .ok () := by
    cases hfx : sizing.fxSizing with
    | none =>
      simp only [hfx, planNotionalBudget, bind_eq_ok, pure_eq_ok_iff] at hbudgeted
      obtain ⟨maximum, hmaximum, rfl⟩ := hbudgeted
      have hnative := quantityForPlan_native (hctx.mp hfx) hprod hcap hraw
      exact budget_accepts_native hnative hqty hvaln hmaximum hdecn
    | some context =>
      simp only [hfx, planNotionalBudget, bind_eq_ok, pure_eq_ok_iff] at hbudgeted
      obtain ⟨money, hmoney, rfl⟩ := hbudgeted
      have hconv : input.fxConversion ≠ none := by
        intro hnone
        rw [hctx.mpr hnone] at hfx
        cases hfx
      exact budget_accepts_fx (quantityForPlan_fx hconv hraw) hqty hvaln hmoney
        hdecn
  have hlocated := hsolved.tierForQuantity
  refine ⟨decision, entry, submitted, ?_, hentry, hprice, ?_, ?_, ⟨tier, ?_, ?_⟩, ?_⟩
  · rw [steps.decision_eq, hsome]
  · rw [hplan, hmark]
    exact hacpt
  · rw [hplan, hindex]
    exact hlocated
  · rw [hindex]
    exact htier
  · rw [hplanLeverage]
    exact hleverage
  · rw [assertCurrentPlanTier, hplan, hlocated, orThrow, ok_bind, htier]
    simp [hindex, hplanLeverage, hleverage]

end Sizing

section Inputs

/-- The digests of the tier table, the order identities and the conversion of `fxEntry`. -/
def fxEntryRuntime : Runtime where
  sha256 := fun identity =>
    if identity = "fx-entry:entry:0" then
      "502e439edf9331fe1172eb8547bcd68d80e29dc13a624c57ad1aa13f5cdf3ec4"
    else if identity = "fx-entry:stop_loss:0" then
      "8d956bd2813321c4b757d388c7d5c5da7d4b36b86c35357dc6536e9c94fd972c"
    else if identity = "fx-entry:take_profit:1" then
      "0780108e54ae2c07b9ab4b81ff31beef10275bf0085077cde35c606b4ceabb71"
    else "157f5b99d43c0ca0a46ac8c58c80322f15bdefb4fc2bad53f508fb6586a4c1fd"
  fxEvidenceDigest := fun _ =>
    .ok "bd23b7b737c8604269abbbb592e63bf71b93b7998beb59274d5646725f7428f6"
  dateNow := 1700000000000

def fxEntryTiers : TradingLeverageTierEvidence where
  exchange := "paper"
  symbol := "BTCUSDT"
  providerSymbol := "BTCUSDT"
  accountFingerprint := "paper-account"
  credentialGeneration := "paper"
  ccxtVersion := "paper"
  profileHash := "paper-v1"
  source := "paper_simulated_complete_tiers_v1"
  currency := "USDC"
  contractSize := "1"
  markPrice := "100"
  tiers := [⟨"0", some "1000", 50⟩, ⟨"1000", none, 10⟩]

/-- A tenth of the equity as margin, converted at three quarters; the first tier allows the
requested leverage of `50` but not the quantity it gives. -/
def fxEntry : TradingPlanInput where
  intentId := "fx-entry"
  signal := {
    schema := "standard"
    action := .long
    symbol := "BTCUSDT"
    entry := .range ⟨"100", "100"⟩
    targets := [⟨"110", "110"⟩]
    stopLoss := "90"
    suggestedLeverage := none
    suggestedRiskPercent := none }
  strategy := {
    allowedSignalSchemas := ["standard"]
    allowedSymbols := []
    allowedSides := [.long]
    entry := ⟨.market, .midpoint, false, 10⟩
    sizing := ⟨some .equityPercentMargin, "10", some "10", "100000", some 50, 50⟩
    exits := ⟨some .manual, ["100"], some .configured⟩
    safety := ⟨"1", 900⟩ }
  account := ⟨"1000", "1000", some "USD"⟩
  market := ⟨"100", "0.1", "0.001", "0.001", "1", 50, some ⟨.paperContract, "BTCUSDT", "USDC"⟩,
    some fxEntryTiers⟩
  fxConversion := some (TradingFxSizing.dollarConversion ⟨"3", "4"⟩
    "bd23b7b737c8604269abbbb592e63bf71b93b7998beb59274d5646725f7428f6")
  effectiveRiskPercent := none
  entryOriginAt := none
  entryExpiresAt := none
  entryPriceBoundary := none
  now := none

theorem fresh_plan_passes_tier_fence_converted :
    ∃ plan decision, createTradingPlan fxEntryRuntime fxEntry = .ok plan ∧
      plan.quantity = "13.201" ∧ plan.leverage = 10 ∧
      plan.leverageTierDecision = some decision ∧
      tierForQuantity fxEntryTiers.tiers plan.quantity "100" = .ok decision.tierIndex ∧
      assertCurrentPlanTier fxEntryTiers plan decision = .ok () := by
  have hplan : (fun plan => (plan.quantity, plan.leverage)) <$>
      createTradingPlan fxEntryRuntime fxEntry = .ok ("13.201", 10) := by
    decide +kernel
  obtain ⟨plan, h, heq⟩ := map_eq_ok.mp hplan
  obtain ⟨decision, -, -, hdecn, -, -, -, htier, -, hcur⟩ :=
    @fresh_plan_passes_tier_fence _ _ _ fxEntryTiers rfl rfl h
  rw [Prod.mk.injEq] at heq
  exact ⟨plan, decision, h, heq.1, heq.2, hdecn, htier, hcur⟩

end Inputs

end TsxCore.TradingLeverageAdmission
