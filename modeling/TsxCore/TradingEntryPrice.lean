import TsxCore.EntryFenceAgreement
import TsxCore.TradingOrderGeometry

/-!
# The price boundary of a market entry

The limit of a boundary is the last tick on the safe side of the reference price moved
by the allowed slippage. The bound is compared as a fraction, before anything is cut to
18 digits, so the limit is within one tick of it on either side. A boundary holds
normalised texts only, and normalising them again changes nothing: creating it again
from its own fields gives it back, which is what the checks before dispatch rely on.
-/

namespace TsxCore.TradingRisk

open Outcome TradingDecimal TradingRational TradingTypes Executor

section Bound

def slippageBound (side : TradingSide) (reference slippage : ℚ) : ℚ :=
  match side with
  | .long => reference * (1 + slippage / 100)
  | .short => reference * (1 - slippage / 100)

/-- The limit is not worse than the bound, and the next tick would be. -/
def LastTick (side : TradingSide) (limit bound tick : ℚ) : Prop :=
  match side with
  | .long => limit ≤ bound ∧ bound < limit + tick
  | .short => limit - tick < bound ∧ bound ≤ limit

variable {side : TradingSide} {r m p : ℕ}

theorem slippageBound_units (hm : m ≤ 5 * 10 ^ 18) :
    slippageBound side (unitValue r) (unitValue m) * (100 * 10 ^ 18) =
      unitValue (r * slippageFactor side m : ℕ) := by
  have hle : m ≤ 100 * 10 ^ 18 := by omega
  cases side with
  | long =>
    simp only [slippageBound, slippageFactor, unitValue_natCast]
    push_cast
    ring
  | short =>
    simp only [slippageBound, slippageFactor, unitValue_natCast]
    rw [Nat.cast_mul, Nat.cast_sub hle]
    push_cast
    ring

theorem unitValue_mul_hundred (u : ℕ) :
    unitValue u * (100 * 10 ^ 18) = unitValue (u * (100 * 10 ^ 18) : ℕ) := by
  rw [unitValue_natCast, unitValue_natCast]
  push_cast
  ring

/-- The quotient is cut towards the reference for LONG and away from zero for SHORT. -/
theorem nodeTicks_lastTick (hp : 0 < p) (hm : m ≤ 5 * 10 ^ 18) :
    LastTick side (unitValue (nodeTicks side r m p * p : ℕ))
      (slippageBound side (unitValue r) (unitValue m)) (unitValue p) := by
  have hscale : (0 : ℚ) < 100 * 10 ^ 18 := by norm_num
  have hbound : slippageBound side (unitValue r) (unitValue m) * (100 * 10 ^ 18) =
      unitValue (r * slippageFactor side m : ℕ) := slippageBound_units hm
  have hden : 0 < 100 * 10 ^ 18 * p := by positivity
  cases side with
  | long =>
    have hlow : nodeTicks .long r m p * p * (100 * 10 ^ 18) ≤ r * slippageFactor .long m := by
      have hle := Nat.div_mul_le_self (r * (100 * 10 ^ 18 + m)) (100 * 10 ^ 18 * p)
      calc nodeTicks .long r m p * p * (100 * 10 ^ 18)
        _ = r * (100 * 10 ^ 18 + m) / (100 * 10 ^ 18 * p) * (100 * 10 ^ 18 * p) := by
          rw [nodeTicks]
          ring
        _ ≤ r * slippageFactor .long m := hle
    have hhigh : r * slippageFactor .long m <
      (nodeTicks .long r m p * p + p) * (100 * 10 ^ 18) := by
      have hlt := Nat.lt_div_mul_add hden (a := r * (100 * 10 ^ 18 + m))
      calc r * slippageFactor .long m
        _ < r * (100 * 10 ^ 18 + m) / (100 * 10 ^ 18 * p) * (100 * 10 ^ 18 * p) +
            100 * 10 ^ 18 * p := hlt
        _ = (nodeTicks .long r m p * p + p) * (100 * 10 ^ 18) := by
          rw [nodeTicks]
          ring
    constructor
    · rw [← mul_le_mul_iff_left₀ hscale, hbound, unitValue_mul_hundred, unitValue_le_iff]
      exact_mod_cast hlow
    · rw [← unitValue_add, ← Nat.cast_add, ← mul_lt_mul_iff_left₀ hscale, hbound,
        unitValue_mul_hundred, unitValue_lt_iff]
      exact_mod_cast hhigh
  | short =>
    have hdiv := Nat.lt_div_mul_add hden
      (a := r * (100 * 10 ^ 18 - m) + 100 * 10 ^ 18 * p - 1)
    have hle := Nat.div_mul_le_self (r * (100 * 10 ^ 18 - m) + 100 * 10 ^ 18 * p - 1)
      (100 * 10 ^ 18 * p)
    have hunits : nodeTicks .short r m p * p * (100 * 10 ^ 18) =
        (r * (100 * 10 ^ 18 - m) + 100 * 10 ^ 18 * p - 1) / (100 * 10 ^ 18 * p) *
          (100 * 10 ^ 18 * p) := by
      rw [nodeTicks]
      ring
    have hlow : r * slippageFactor .short m ≤ nodeTicks .short r m p * p * (100 * 10 ^ 18) := by
      rw [hunits, slippageFactor]
      omega
    have hhigh : nodeTicks .short r m p * p * (100 * 10 ^ 18) <
        r * slippageFactor .short m + p * (100 * 10 ^ 18) := by
      rw [hunits, slippageFactor, mul_comm p]
      omega
    constructor
    · rw [sub_lt_iff_lt_add, ← mul_lt_mul_iff_left₀ hscale, add_mul, hbound, unitValue_mul_hundred,
        unitValue_mul_hundred, ← unitValue_add, unitValue_lt_iff]
      exact_mod_cast hhigh
    · rw [← mul_le_mul_iff_left₀ hscale, hbound, unitValue_mul_hundred, unitValue_le_iff]
      exact_mod_cast hlow

end Bound

section Boundary

variable {side : TradingSide} {reference tick slippage l s : String}
  {boundary : TradingEntryPriceBoundary}

theorem decimal_again {positive : Bool} {maximum : Option String}
    (h : decimal l positive maximum = .ok s) : decimal s positive maximum = .ok s := by
  obtain ⟨u, hu, rfl, hpos⟩ := decimal_reads h
  obtain ⟨q, hq, hunits⟩ : Reads (text u) u := reads_text_iff.mpr ⟨rfl, hu.lt⟩
  have hformat : TradingDecimal.format q.coefficient q.scale = text u := by
    rw [format_eq_text (numeral_of_parse hq).2.1, ← hunits]
    rfl
  have hpositive : ¬ (positive = true ∧ q.coefficient = 0) := by
    rintro ⟨htrue, hzero⟩
    exact q.units_pos_iff.mp (hunits.symm ▸ hpos htrue) hzero
  rw [decimal, hq, ok_bind, hformat, throwIf_of_not hpositive, ok_bind]
  cases maximum with
  | none => rfl
  | some bound =>
    simp only [decimal, bind_eq_ok, throwIf_eq_ok, pure_eq_ok_iff] at h ⊢
    obtain ⟨_, -, _, -, o, ho, _, hle, hs⟩ := h
    rw [hs] at ho
    exact ⟨o, ho, (), hle, trivial⟩

theorem createEntryPriceBoundary_ok
    (h : createEntryPriceBoundary side reference tick slippage = .ok boundary) :
    ∃ r m p, Reads reference r ∧ Reads slippage m ∧ Reads tick p ∧ 0 < p ∧ m ≤ 5 * 10 ^ 18 ∧
      boundary = ⟨1, text r, text m, text p, text (nodeTicks side r m p * p)⟩ ∧
      createEntryPriceBoundary side (text r) (text p) slippage = .ok boundary ∧
      createEntryPriceBoundary side (text r) (text p) (text m) = .ok boundary := by
  have hsteps := h
  simp only [createEntryPriceBoundary, bind_eq_ok] at hsteps
  obtain ⟨_, href, _, htick, _, hslippage, -⟩ := hsteps
  obtain ⟨r, hr, rfl, -⟩ := decimal_reads href
  obtain ⟨p, hp, rfl, hpos⟩ := decimal_reads htick
  obtain ⟨m, hm, rfl, -⟩ := decimal_reads hslippage
  have hraw : createEntryPriceBoundary side (text r) (text p) slippage = .ok boundary := by
    rw [← h]
    simp only [createEntryPriceBoundary, href, htick, decimal_again href,
      decimal_again htick]
  have hagain : createEntryPriceBoundary side (text r) (text p) (text m) = .ok boundary := by
    rw [← hraw]
    simp only [createEntryPriceBoundary, hslippage, decimal_again hslippage]
  obtain ⟨-, -, -, hle, -, -, hflds⟩ := (createEntryPriceBoundary_text hr.lt hm.lt hp.lt).mp hagain
  exact ⟨r, m, p, hr, hm, hp, hpos rfl, hle, hflds.symm, hraw, hagain⟩

end Boundary

section Plans

variable {runtime : Runtime} {input : TradingPlanInput} {plan : TradingPlan}

theorem role_of_takesProfit {targets : List DecimalRange} {orders : List PlannedOrder}
    (h : List.Forall₂ (TakesProfit input) targets orders) :
    ∀ order ∈ orders, order.role = .takeProfit := by
  induction h with
  | nil => simp
  | cons hfirst _ ih => exact List.forall_mem_cons.mpr ⟨hfirst.role, ih⟩

theorem createTradingPlan_entry (h : createTradingPlan runtime input = .ok plan) :
    ∃ boundary price quantity exits,
      planPriceBoundary input.signal input.strategy input.market input.entryPriceBoundary =
        .ok boundary ∧
      plan.side = input.signal.action ∧ plan.entryPriceBoundary = boundary ∧
      plan.maxSlippagePercent = input.strategy.safety.maxSlippagePercent ∧
      plan.orders = entryOrder runtime.sha256 input price quantity boundary :: exits ∧
      ∀ order ∈ exits, order.role ≠ .entry := by
  simp only [createTradingPlan, bind_eq_ok, pure_eq_ok_iff] at h
  obtain ⟨-, -, allocations, -, boundary, hboundary, price, -, stop, -, distance, -, sizing, -,
    notional, -, orders, hords, timing, -, rfl⟩ := h
  simp only [plannedOrders, bind_eq_ok, pure_eq_ok_iff] at hords
  obtain ⟨quantities, -, takeProfits, htakeProfits, rfl⟩ := hords
  refine ⟨boundary, price, sizing.quantity, _, hboundary, rfl, rfl, rfl, rfl, ?_⟩
  rw [List.forall_mem_cons]
  refine ⟨by simp [stopOrder], ?_⟩
  intro order horder
  rw [role_of_takesProfit (takeProfitOrders_ok htakeProfits).1 order horder]
  simp

theorem planPriceBoundary_contract {original boundary : Option TradingEntryPriceBoundary}
    {signal : ExecutableSignal} {strategy : StrategyConfiguration} {market : TradingMarketSnapshot}
    (h : planPriceBoundary signal strategy market original = .ok boundary) :
    ∀ bound ∈ boundary, assertBoundaryContract bound signal.action
      strategy.safety.maxSlippagePercent = .ok () := by
  rintro bound rfl
  unfold planPriceBoundary at h
  split_ifs at h
  · simp at h
  · simp only [bind_eq_ok, pure_eq_ok_iff, Option.some.injEq] at h
    obtain ⟨_, -, _, hcontract, _, -, _, -, rfl⟩ := h
    exact hcontract

/-- The entry order of a plan, with its boundary, keeps the contract that dispatch checks. -/
theorem assertEntryPriceBoundary_of_plan (h : createTradingPlan runtime input = .ok plan) :
    ∃ entry exits, plan.orders = entry :: exits ∧ entry.role = .entry ∧
      (∀ order ∈ exits, order.role ≠ .entry) ∧
      assertEntryPriceBoundary plan.side plan.maxSlippagePercent plan.entryPriceBoundary entry =
        .ok () := by
  obtain ⟨boundary, price, quantity, exits, hboundary, hside, hplanned, hslippage, hords, hexits⟩ :=
    createTradingPlan_entry h
  have hmkt := planPriceBoundary_eq_none_iff hboundary
  refine ⟨_, exits, hords, rfl, hexits, ?_⟩
  rw [hside, hplanned, hslippage]
  cases boundary with
  | none =>
    have hlimit : input.isMarket = false := hmkt.mp rfl
    simp only [assertEntryPriceBoundary, throwIf_eq_ok]
    simp [entryOrder, hlimit]
  | some bound =>
    have hcontract := planPriceBoundary_contract hboundary bound rfl
    have hentry : input.isMarket = true := by
      rw [← Bool.not_eq_false, ← hmkt]
      simp
    simp only [assertEntryPriceBoundary, hcontract, ok_bind, throwIf_eq_ok]
    cases hdirn : input.signal.action with
    | long => simp [entryOrder, hentry, hdirn]
    | short => simp [entryOrder, hentry, hdirn]

/-- Created on LONG as on SHORT, a limit is the last tick within the slippage; its boundary is
given back by its own fields, and the entry of every plan passes the checks of dispatch. -/
theorem entry_price_boundary_rederived :
    (∀ side reference tick slippage boundary,
      createEntryPriceBoundary side reference tick slippage = .ok boundary →
        (∃ n : ℕ, decimalValue boundary.limitPrice = n * decimalValue tick) ∧
        LastTick side (decimalValue boundary.limitPrice)
          (slippageBound side (decimalValue reference) (decimalValue slippage))
          (decimalValue tick) ∧
        assertBoundaryContract boundary side slippage = .ok () ∧
        assertBoundaryContract boundary side boundary.maxSlippagePercent = .ok ()) ∧
    ∀ runtime input plan, createTradingPlan runtime input = .ok plan →
      ∃ entry exits, plan.orders = entry :: exits ∧ entry.role = .entry ∧
        (∀ order ∈ exits, order.role ≠ .entry) ∧
        assertEntryPriceBoundary plan.side plan.maxSlippagePercent plan.entryPriceBoundary entry =
          .ok () := by
  constructor
  · intro side reference tick slippage boundary h
    obtain ⟨r, m, p, hr, hm, hp, hpos, hle, rfl, hraw, hagain⟩ := createEntryPriceBoundary_ok h
    rw [hr.readsSigned.decimalValue, hm.readsSigned.decimalValue, hp.readsSigned.decimalValue,
      decimalValue_text]
    refine ⟨⟨nodeTicks side r m p, ?_⟩, nodeTicks_lastTick hpos hle, ?_, ?_⟩
    · rw [unitValue_natCast, unitValue_natCast, Nat.cast_mul, mul_div_assoc]
    · rw [assertBoundaryContract, hraw, ok_bind, throwIf_eq_ok, not_not]
    · rw [assertBoundaryContract, hagain, ok_bind, throwIf_eq_ok, not_not]
  · intro runtime input plan h
    exact assertEntryPriceBoundary_of_plan h

/-- A SHORT boundary whose bound `99.54975` is between two ticks, and a LONG market plan. -/
theorem entry_price_boundary_rederived_market :
    (∃ boundary, createEntryPriceBoundary .short "100.05" "0.1" "0.5" = .ok boundary ∧
      LastTick .short (decimalValue boundary.limitPrice)
        (slippageBound .short (decimalValue "100.05") (decimalValue "0.5")) (decimalValue "0.1")) ∧
    ∃ plan, createTradingPlan boundedEntryRuntime (boundedEntry .market "98") = .ok plan ∧
      ∃ entry ∈ plan.orders, assertEntryPriceBoundary plan.side plan.maxSlippagePercent
        plan.entryPriceBoundary entry = .ok () := by
  obtain ⟨hbounds, hplans⟩ := entry_price_boundary_rederived
  constructor
  · have hcreated : createEntryPriceBoundary .short "100.05" "0.1" "0.5" =
        .ok ⟨1, "100.05", "0.5", "0.1", "99.6"⟩ := by decide +kernel
    exact ⟨_, hcreated, (hbounds _ _ _ _ _ hcreated).2.1⟩
  · have hplan : plannedEntry boundedEntryRuntime (boundedEntry .market "98") =
        .ok ("9.99", some "100.5") := by decide +kernel
    obtain ⟨plan, h, -⟩ := map_eq_ok.mp hplan
    obtain ⟨entry, exits, hords, -, -, hcheck⟩ := hplans _ _ plan h
    refine ⟨plan, h, entry, ?_, hcheck⟩
    rw [hords]
    exact List.mem_cons_self

end Plans

end TsxCore.TradingRisk
