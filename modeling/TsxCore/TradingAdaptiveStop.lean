import TsxCore.TradingOrderGeometry

/-!
# The adaptive stop (`trading_risk.ts`)

The stop of a plan climbs a ladder while its targets fill: it stays at the stop price
until the first fill, at break-even for the next two, and then follows the targets two
behind. The last target never moves it, since nothing is left to protect.
-/

namespace TsxCore.TradingRisk

open Outcome TradingDecimal TradingTypes SignalSchema

inductive AdaptiveStopReason
  | initial
  | breakEvenAfterTarget
  | targetLadderAfterTarget
  | finalTargetComplete

structure AdaptiveStopLossDecision where
  trigger : String
  reason : AdaptiveStopReason
  referenceTargetIndex : Option ℤ

def breakEvenStopPrice (side : TradingSide) (averageEntryPrice priceTick : String) :
    Outcome String :=
  match side with
  | .long => quantizeDecimalUp averageEntryPrice priceTick
  | .short => quantizeDecimalDown averageEntryPrice priceTick

/-- `Number(left.targetIndex) - Number(right.targetIndex)` is not positive; `Number(null)` is 0. -/
def targetOrder (left right : PlannedOrder) : Prop :=
  left.targetIndex.getD 0 ≤ right.targetIndex.getD 0

instance : DecidableRel targetOrder := fun left right =>
  inferInstanceAs (Decidable (left.targetIndex.getD 0 ≤ right.targetIndex.getD 0))

def planTakeProfits (plan : TradingPlan) : List PlannedOrder :=
  plan.orders.filter (·.role == .takeProfit)

def adaptiveStopLossDecision (plan : TradingPlan) (filledTargets : ℤ)
    (breakEvenPrice : String := plan.entryPrice) : Outcome AdaptiveStopLossDecision := do
  let takeProfits := (planTakeProfits plan).insertionSort targetOrder
  let finalTargetComplete : Bool := takeProfits.length ≤ filledTargets
  let managedTargetCount := if finalTargetComplete then max 0 ((takeProfits.length : ℤ) - 1)
    else filledTargets
  if managedTargetCount ≤ 0 then
    return ⟨plan.stopPrice, if finalTargetComplete then .finalTargetComplete else .initial, none⟩
  else
    let referenceTargetIndex := managedTargetCount - 2
    if referenceTargetIndex ≤ 0 then
      return ⟨breakEvenPrice,
        if finalTargetComplete then .finalTargetComplete else .breakEvenAfterTarget, none⟩
    else
      let reference := takeProfits.find? (fun order =>
        order.targetIndex.map Int.ofNat == some referenceTargetIndex)
      let price := (reference.bind (·.price)).getD ""
      throwIf (price = "") (tradingRiskError "MISSING_REFERENCE_TARGET"
        "Adaptive stop reference target is missing.")
      return ⟨price,
        if finalTargetComplete then .finalTargetComplete else .targetLadderAfterTarget,
        if finalTargetComplete then none else some referenceTargetIndex⟩

/-- Break-even is rounded against the side, so a stop there never gives back the entry. -/
theorem breakEvenStopPrice_covers {side : TradingSide} {averageEntryPrice priceTick price : String}
    (h : breakEvenStopPrice side averageEntryPrice priceTick = .ok price) :
    directed side (decimalValue averageEntryPrice) ≤ directed side (decimalValue price) := by
  cases side with
  | long =>
    obtain ⟨htick, hvalue⟩ := quantizeDecimalUp_value h
    have hle := floorTo_le (x := -decimalValue averageEntryPrice) htick
    simp only [directed, hvalue]
    linarith
  | short =>
    obtain ⟨htick, hvalue⟩ := quantizeDecimalDown_value h
    have hle := floorTo_le (x := decimalValue averageEntryPrice) htick
    simp only [directed, hvalue]
    linarith

section Ladder

variable {plan : TradingPlan} {breakEvenPrice : String} {prices : List String}

/-- The targets have the indices from one, at prices ever further in profit, and break-even
lies between the stop and the first of them. -/
structure TargetLadder (plan : TradingPlan) (breakEvenPrice : String) (prices : List String) :
    Prop where
  targets : ((planTakeProfits plan).map (fun order => (order.targetIndex, order.price))).Perm
    ((prices.zipIdx 1).map (fun (price, index) => (some index, some price)))
  priced : "" ∉ prices
  favourable : prices.Pairwise (fun left right =>
    directed plan.side (decimalValue left) < directed plan.side (decimalValue right))
  stop : directed plan.side (decimalValue plan.stopPrice) ≤
    directed plan.side (decimalValue breakEvenPrice)
  first : ∀ price ∈ prices.head?, directed plan.side (decimalValue breakEvenPrice) <
    directed plan.side (decimalValue price)

theorem TargetLadder.above (h : TargetLadder plan breakEvenPrice prices) :
    ∀ price ∈ prices, directed plan.side (decimalValue breakEvenPrice) <
      directed plan.side (decimalValue price) := by
  obtain ⟨-, -, hfavourable, -, hfirst⟩ := h
  cases prices with
  | nil => simp
  | cons first rest =>
    have hbelow := hfirst first rfl
    rw [List.forall_mem_cons]
    exact ⟨hbelow, fun price hprice => hbelow.trans (List.rel_of_pairwise_cons hfavourable hprice)⟩

/-- Where the stop stands, by the number of managed targets. -/
def rungs (plan : TradingPlan) (breakEvenPrice : String) (prices : List String) : List String :=
  plan.stopPrice :: breakEvenPrice :: breakEvenPrice :: prices

theorem TargetLadder.length (h : TargetLadder plan breakEvenPrice prices) :
    (planTakeProfits plan).length = prices.length := by
  have hlen := h.targets.length_eq
  simpa using hlen

theorem TargetLadder.price (h : TargetLadder plan breakEvenPrice prices) {order : PlannedOrder}
    {index : ℕ} (horder : order ∈ planTakeProfits plan)
    (hindex : order.targetIndex = some (index + 1)) :
    ∃ price, prices[index]? = some price ∧ order.price = some price := by
  have hmem := h.targets.mem_iff.mp (List.mem_map_of_mem horder)
  obtain ⟨⟨price, i⟩, hzip, heq⟩ := List.mem_map.mp hmem
  obtain ⟨hi, hprice⟩ := Prod.mk.inj heq
  rw [hindex, Option.some.injEq] at hi
  subst hi
  obtain ⟨-, hget⟩ := List.mk_mem_zipIdx_iff_le_and_getElem?_sub.mp hzip
  exact ⟨price, by simpa using hget, hprice.symm⟩

theorem TargetLadder.reference (h : TargetLadder plan breakEvenPrice prices) {index : ℕ}
    {price : String} (hprice : prices[index]? = some price) :
    (((planTakeProfits plan).insertionSort targetOrder).find? (fun order =>
      order.targetIndex.map Int.ofNat == some ((index : ℤ) + 1))).bind (·.price) = some price := by
  have hmem : (price, index + 1) ∈ prices.zipIdx 1 := by
    rw [List.mk_mem_zipIdx_iff_le_and_getElem?_sub]
    exact ⟨by omega, by simpa using hprice⟩
  obtain ⟨order, horder, heq⟩ := List.mem_map.mp (h.targets.mem_iff.mpr (List.mem_map_of_mem hmem))
  obtain ⟨hindex, -⟩ := Prod.mk.inj heq
  cases hfind : ((planTakeProfits plan).insertionSort targetOrder).find? (fun order =>
      order.targetIndex.map Int.ofNat == some ((index : ℤ) + 1)) with
  | none =>
    rw [List.find?_eq_none] at hfind
    have hsort := (List.mem_insertionSort targetOrder).mpr horder
    exact absurd (by simp [hindex]) (hfind order hsort)
  | some found =>
    have hfound := (List.mem_insertionSort targetOrder).mp (List.mem_of_find?_eq_some hfind)
    have hsome := List.find?_some hfind
    rw [beq_iff_eq, Option.map_eq_some_iff] at hsome
    obtain ⟨i, hi, heq⟩ := hsome
    obtain rfl : i = index + 1 := by
      have hcast : (i : ℤ) = index + 1 := heq
      omega
    obtain ⟨other, hother, hfoundprice⟩ := h.price hfound hi
    rw [hprice] at hother
    rw [Option.bind_some, hfoundprice, hother]

theorem managedTargetCount_eq (n filled : ℕ) :
    (if (decide ((n : ℤ) ≤ filled)) = true then max 0 ((n : ℤ) - 1) else (filled : ℤ)) =
      (min filled (n - 1) : ℕ) := by
  by_cases hcomp : (n : ℤ) ≤ filled
  · rw [if_pos (decide_eq_true hcomp)]
    omega
  · rw [if_neg (by simpa using hcomp)]
    omega

theorem adaptiveStopLossDecision_ok (h : TargetLadder plan breakEvenPrice prices) (filled : ℕ) :
    ∃ decision, adaptiveStopLossDecision plan filled breakEvenPrice = .ok decision ∧
      (rungs plan breakEvenPrice prices)[min filled (prices.length - 1)]? =
        some decision.trigger := by
  have hlen : ((planTakeProfits plan).insertionSort targetOrder).length = prices.length := by
    rw [List.length_insertionSort, h.length]
  simp only [adaptiveStopLossDecision, hlen, managedTargetCount_eq]
  cases hmanaged : min filled (prices.length - 1) with
  | zero => exact ⟨_, rfl, rfl⟩
  | succ behind =>
    rw [if_neg (by omega)]
    by_cases hbehind : behind < 2
    · refine ⟨_, if_pos (by omega), ?_⟩
      obtain rfl | rfl : behind = 0 ∨ behind = 1 := by omega
      · rfl
      · rfl
    · obtain ⟨index, rfl⟩ : ∃ index, behind = index + 2 := ⟨behind - 2, by omega⟩
      have hlt : index < prices.length := by omega
      have hprice : prices[index]? = some prices[index] := List.getElem?_eq_getElem hlt
      have hindex : ((index + 2 + 1 : ℕ) : ℤ) - 2 = index + 1 := by omega
      have hne : prices[index] ≠ "" := fun heq => h.priced (heq ▸ List.getElem_mem hlt)
      rw [if_neg (by omega), hindex, h.reference hprice, Option.getD_some, throwIf_of_not hne,
        ok_bind]
      exact ⟨_, rfl, hprice⟩

/-- Up the ladder the stop never loosens. -/
theorem TargetLadder.climbs (h : TargetLadder plan breakEvenPrice prices) :
    (rungs plan breakEvenPrice prices).Pairwise (fun left right =>
      directed plan.side (decimalValue left) ≤ directed plan.side (decimalValue right)) := by
  have habove := h.above
  have hprices := h.favourable.imp (fun hlt => hlt.le)
  simp only [rungs, List.pairwise_cons, List.forall_mem_cons]
  refine ⟨⟨h.stop, h.stop, ?_⟩, ⟨le_rfl, ?_⟩, ?_, hprices⟩
  · intro price hprice
    exact h.stop.trans (habove price hprice).le
  · intro price hprice
    exact (habove price hprice).le
  · intro price hprice
    exact (habove price hprice).le

theorem TargetLadder.before_next (h : TargetLadder plan breakEvenPrice prices) {filled : ℕ}
    {rung price : String} (hrung : (rungs plan breakEvenPrice prices)[filled]? = some rung)
    (hprice : prices[filled]? = some price) :
    directed plan.side (decimalValue rung) < directed plan.side (decimalValue price) := by
  have hnext := h.above price (List.mem_of_getElem? hprice)
  match filled with
  | 0 =>
    cases hrung
    exact h.stop.trans_lt hnext
  | 1 =>
    cases hrung
    exact hnext
  | 2 =>
    cases hrung
    exact hnext
  | index + 3 =>
    have hbehind : prices[index]? = some rung := hrung
    obtain ⟨hlt, rfl⟩ := List.getElem?_eq_some_iff.mp hbehind
    obtain ⟨hlast, rfl⟩ := List.getElem?_eq_some_iff.mp hprice
    exact List.pairwise_iff_getElem.mp h.favourable index (index + 3) hlt hlast (by omega)

/-- The adaptive stop is always decided; it never loosens as targets fill, and it stays short
of the first target that is still to fill. -/
theorem adaptive_stop_tightens (plan : TradingPlan) (breakEvenPrice : String)
    (prices : List String) (h : TargetLadder plan breakEvenPrice prices) :
    (∀ filled : ℤ, 0 ≤ filled →
      ∃ decision, adaptiveStopLossDecision plan filled breakEvenPrice = .ok decision) ∧
    (∀ (a b : ℤ) (before after : AdaptiveStopLossDecision), 0 ≤ a → a ≤ b →
      adaptiveStopLossDecision plan a breakEvenPrice = .ok before →
      adaptiveStopLossDecision plan b breakEvenPrice = .ok after →
        directed plan.side (decimalValue before.trigger) ≤
          directed plan.side (decimalValue after.trigger)) ∧
    ∀ (filled : ℕ) (decision : AdaptiveStopLossDecision) (next : PlannedOrder) (price : String),
      adaptiveStopLossDecision plan filled breakEvenPrice = .ok decision →
      next ∈ planTakeProfits plan → next.targetIndex = some (filled + 1) →
      next.price = some price →
        directed plan.side (decimalValue decision.trigger) <
          directed plan.side (decimalValue price) := by
  refine ⟨?_, ?_, ?_⟩
  · intro filled hfilled
    obtain ⟨n, rfl⟩ := Int.eq_ofNat_of_zero_le hfilled
    obtain ⟨decision, hdecn, -⟩ := adaptiveStopLossDecision_ok h n
    exact ⟨decision, hdecn⟩
  · intro a b before after ha hab hbefore hafter
    obtain ⟨m, rfl⟩ := Int.eq_ofNat_of_zero_le ha
    obtain ⟨n, rfl⟩ := Int.eq_ofNat_of_zero_le (ha.trans hab)
    obtain ⟨_, hm, hlow⟩ := adaptiveStopLossDecision_ok h m
    obtain ⟨_, hn, hhigh⟩ := adaptiveStopLossDecision_ok h n
    obtain rfl := Except.ok.inj (hbefore.symm.trans hm)
    obtain rfl := Except.ok.inj (hafter.symm.trans hn)
    obtain ⟨hl, hleft⟩ := List.getElem?_eq_some_iff.mp hlow
    obtain ⟨hr, hright⟩ := List.getElem?_eq_some_iff.mp hhigh
    rw [← hleft, ← hright]
    rcases Nat.lt_or_ge (min m (prices.length - 1)) (min n (prices.length - 1)) with hlt | hge
    · exact List.pairwise_iff_getElem.mp h.climbs _ _ hl hr hlt
    · have hsame : min m (prices.length - 1) = min n (prices.length - 1) := by omega
      simp only [hsame, le_refl]
  · intro filled decision next price hdecn hnext hindex hprice
    obtain ⟨_, hfilled, hrung⟩ := adaptiveStopLossDecision_ok h filled
    obtain rfl := Except.ok.inj (hdecn.symm.trans hfilled)
    obtain ⟨found, hget, hfound⟩ := h.price hnext hindex
    obtain rfl := Option.some.inj (hprice.symm.trans hfound)
    have hlt := (List.getElem?_eq_some_iff.mp hget).1
    rw [min_eq_left (by omega)] at hrung
    exact h.before_next hrung hget

def ladderTarget (price : String) (index : ℕ) : PlannedOrder where
  clientOrderId := "0x" ++ bigintText index
  role := .takeProfit
  side := .buy
  orderType := .limit
  immediateOrCancel := false
  quantity := "0.25"
  price := some price
  triggerPrice := none
  reduceOnly := true
  postOnly := false
  targetIndex := some index

/-- A SHORT from `100` with four targets, listed from the last to the first. -/
def ladderPlan : TradingPlan where
  version := 1
  symbol := "BTCUSDT"
  side := .short
  entryPrice := "100"
  entryPriceBoundary := none
  stopPrice := "110"
  quantity := "1"
  leverage := 3
  leverageDecision := ⟨3, .strategyDefault, 3, 10, 3, none⟩
  riskAmount := "10"
  fxSizing := none
  leverageTierDecision := none
  notional := "100"
  entryTimeoutSeconds := 10
  entryOrderTtlSeconds := 900
  maxSlippagePercent := "0.5"
  quantityStep := "0.01"
  targetAllocationMode := .manual
  targetAllocationsPercent := ["25", "25", "25", "25"]
  stopLossMode := .adaptiveTargets
  orders := [ladderTarget "60" 4, ladderTarget "70" 3, ladderTarget "80" 2, ladderTarget "90" 1]
  createdAt := 1700000000000
  entryExpiresAt := 1700000900000

theorem ladderPlan_targets : TargetLadder ladderPlan "99.9" ["90", "80", "70", "60"] where
  targets := by decide
  priced := by decide
  favourable := by decide +kernel
  stop := by decide +kernel
  first := by
    rintro price ⟨⟩
    decide +kernel

/-- Two fills leave the stop at break-even, short of the third target. -/
theorem adaptive_stop_tightens_short : ∃ before after : AdaptiveStopLossDecision,
    adaptiveStopLossDecision ladderPlan 2 "99.9" = .ok before ∧
      adaptiveStopLossDecision ladderPlan 3 "99.9" = .ok after ∧
      -decimalValue before.trigger ≤ -decimalValue after.trigger ∧
      -decimalValue before.trigger < -decimalValue "70" := by
  obtain ⟨hdecides, htightens, hshort⟩ := adaptive_stop_tightens _ _ _ ladderPlan_targets
  obtain ⟨before, hbefore⟩ := hdecides 2 (by decide)
  obtain ⟨after, hafter⟩ := hdecides 3 (by decide)
  refine ⟨before, after, hbefore, hafter, ?_, ?_⟩
  · exact htightens 2 3 before after (by decide) (by decide) hbefore hafter
  · exact hshort 2 before (ladderTarget "70" 3) "70" hbefore (by decide) rfl rfl

end Ladder

end TsxCore.TradingRisk
