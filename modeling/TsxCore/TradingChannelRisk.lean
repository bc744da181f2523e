import TsxCore.TradingMoneyRisk
import TsxCore.RationalProducts
import TsxCore.DecimalBounds

/-!
# Channel risk tiers (`trading_channel_risk_math.ts`, `trading_channel_risk.ts`)

The profit of a channel is a money value, known exactly or within bounds; a threshold is
a percentage of its equity. A verdict on one end of the interval is a verdict on every
possible profit: gains are reached at the boundary itself, and so are losses at its
negation, while the other verdict of each direction is strict.
-/

namespace TsxCore.TradingChannelRisk

open Outcome TradingDecimal TradingRational TradingMoneyValue TradingMoneyRisk

inductive ChannelThreshold
  | reached
  | notReached
  | uncertain
  deriving DecidableEq

def gainReturnThreshold (lower upper : ℤ) : ChannelThreshold :=
  if 0 ≤ lower then .reached else if upper < 0 then .notReached else .uncertain

def lossReturnThreshold (lower upper : ℤ) : ChannelThreshold :=
  if upper ≤ 0 then .reached else if 0 < lower then .notReached else .uncertain

def channelReturnThreshold (value : MoneyValue) (equity threshold : String)
    (loss : Bool := false) : Outcome ChannelThreshold := do
  let pnl ← validateMoneyValue value
  let capital ← rationalFromDecimal (← decimal equity true)
  let percent ← rationalFromDecimal (← decimal threshold true (some "100"))
  let gain ← divideRational (← multiplyRational capital percent) (← rationalFromDecimal "100")
  let boundary := if loss then { gain with numerator := bigintText (-bigint gain.numerator) }
    else gain
  let lower ← compareRational (← boundRational pnl .lower) boundary
  let upper ← compareRational (← boundRational pnl .upper) boundary
  return if loss then lossReturnThreshold lower upper else gainReturnThreshold lower upper

structure ChannelRiskTier where
  riskPercent : String

/-- The fields of a policy that a recommendation reads. -/
structure ChannelRiskPolicy where
  tiers : List ChannelRiskTier
  currentTier : ℤ
  minimumClosedTrades : ℤ
  lossThresholdPercent : String
  profitThresholdPercent : String
  lockedTier : Option ℤ

structure ChannelPerformance where
  closedTrades : ℤ
  realizedPnlValue : MoneyValue
  equity : String

inductive ChannelRiskAction
  | hold
  | increase
  | decrease
  | block

structure Recommendation where
  tier : ℤ
  action : ChannelRiskAction
  reason : String
  uncertain : Bool

def hold (tier : ℤ) (reason : String) (uncertain : Bool := false) : Recommendation :=
  ⟨tier, .hold, reason, uncertain⟩

/-- The recommendation that the two verdicts lead to; a loss is looked at first. -/
def recommended (policy : ChannelRiskPolicy) (loss profit : ChannelThreshold) : Recommendation :=
  if loss = .reached then
    ⟨max 0 (policy.currentTier - 1), .decrease,
      "Loss threshold " ++ policy.lossThresholdPercent ++ "% reached.", false⟩
  else if profit = .reached then
    ⟨min ((policy.tiers.length : ℤ) - 1) (policy.currentTier + 1), .increase,
      "Profit threshold " ++ policy.profitThresholdPercent ++ "% reached.", false⟩
  else if loss = .uncertain ∨ profit = .uncertain then
    hold policy.currentTier
      "RISK_PRECISION_UNCERTAIN: the original monetary interval overlaps a policy threshold." true
  else hold policy.currentTier "Weekly performance remained inside the neutral band."

def recommendation (policy : ChannelRiskPolicy) (performance : ChannelPerformance) :
    Outcome Recommendation := do
  match policy.lockedTier with
  | some lockedTier =>
    return hold lockedTier ("Tier is manually locked at " ++ bigintText lockedTier ++ ".")
  | none =>
    if performance.closedTrades < policy.minimumClosedTrades then
      return hold policy.currentTier ("Only " ++ bigintText performance.closedTrades ++
        " closed trades; " ++ bigintText policy.minimumClosedTrades ++ " required.")
    else
      let loss ← channelReturnThreshold performance.realizedPnlValue performance.equity
        policy.lossThresholdPercent true
      let profit ← channelReturnThreshold performance.realizedPnlValue performance.equity
        policy.profitThresholdPercent
      return recommended policy loss profit

section Intervals

variable {a : Amount} {b : ℚ}

theorem possible_least (ha : a.Valid) : a.Possible (least a) := by
  cases a with
  | exact q t => rfl
  | bounded l u t =>
    obtain ⟨-, hlt, -⟩ := ha.wellFormed
    exact ⟨le_rfl, unitValue_le_iff.mpr hlt.le⟩

theorem possible_greatest (ha : a.Valid) : a.Possible (greatest a) := by
  cases a with
  | exact q t => rfl
  | bounded l u t =>
    obtain ⟨-, hlt, -⟩ := ha.wellFormed
    exact ⟨unitValue_le_iff.mpr hlt.le, le_rfl⟩

theorem least_le_greatest (ha : a.Valid) : least a ≤ greatest a := least_le (possible_greatest ha)

theorem le_least_iff (ha : a.Valid) : b ≤ least a ↔ ∀ p, a.Possible p → b ≤ p := by
  constructor
  · intro h p hp
    exact h.trans (least_le hp)
  · intro h
    exact h _ (possible_least ha)

theorem lt_least_iff (ha : a.Valid) : b < least a ↔ ∀ p, a.Possible p → b < p := by
  constructor
  · intro h p hp
    exact h.trans_le (least_le hp)
  · intro h
    exact h _ (possible_least ha)

theorem greatest_le_iff (ha : a.Valid) : greatest a ≤ b ↔ ∀ p, a.Possible p → p ≤ b := by
  constructor
  · intro h p hp
    exact (le_greatest hp).trans h
  · intro h
    exact h _ (possible_greatest ha)

theorem greatest_lt_iff (ha : a.Valid) : greatest a < b ↔ ∀ p, a.Possible p → p < b := by
  constructor
  · intro h p hp
    exact (le_greatest hp).trans_lt h
  · intro h
    exact h _ (possible_greatest ha)

end Intervals

section Thresholds

variable {value pnl : MoneyValue} {equity threshold e t : String}

/-- The profit at which the threshold of the equity lies. -/
def returnBoundary (equity threshold : String) : ℚ :=
  decimalValue equity * decimalValue threshold / 100

theorem fits_boundary {u v : ℕ} (hu : u < unitLimit) (hv : v < unitLimit) :
    Fits (unitValue u * unitValue v) ∧ Fits (unitValue u * unitValue v / 100) := by
  have hnum : ((u * v : ℕ) : ℤ).natAbs < digitLimit := by
    rw [Int.natAbs_natCast]
    exact (Nat.mul_lt_mul'' hu hv).trans_le (by rw [unitLimit, digitLimit]; norm_num)
  have hprod : unitValue u * unitValue v = ((u * v : ℕ) : ℤ) / ((10 ^ 36 : ℤ) : ℚ) := by
    rw [unitValue_natCast, unitValue_natCast]
    push_cast
    ring
  have hquot : unitValue u * unitValue v / 100 = ((u * v : ℕ) : ℤ) / ((10 ^ 38 : ℤ) : ℚ) := by
    rw [hprod]
    push_cast
    ring
  constructor
  · rw [hprod]
    exact fits_div (by norm_num) hnum (by rw [digitLimit]; norm_num)
  · rw [hquot]
    exact fits_div (by norm_num) hnum (by rw [digitLimit]; norm_num)

/-- The boundary is computed without rounding, whatever the sizes of its factors. -/
theorem boundary_ok (he : decimal equity true = .ok e)
    (ht : decimal threshold true (some "100") = .ok t) :
    ∃ capital percent hundred product, rationalFromDecimal e = .ok capital ∧
      rationalFromDecimal t = .ok percent ∧ rationalFromDecimal "100" = .ok hundred ∧
      multiplyRational capital percent = .ok product ∧
      divideRational product hundred = .ok (rationalText (returnBoundary equity threshold)) ∧
      Fits (returnBoundary equity threshold) := by
  obtain ⟨u, hu, rfl, -⟩ := decimal_reads he
  obtain ⟨v, hv, rfl, -⟩ := decimal_reads ht
  obtain ⟨hprod, hquot⟩ := fits_boundary hu.lt hv.lt
  have hhundred : unitValue (100 * 10 ^ 18 : ℕ) = 100 := by
    rw [unitValue_natCast]
    norm_num
  have htext : text (100 * 10 ^ 18) = "100" := by decide +kernel
  have hreads : rationalFromDecimal "100" = .ok (rationalText (unitValue (100 * 10 ^ 18 : ℕ))) := by
    rw [← htext]
    exact rationalFromDecimal_text (by decide)
  have hboundary : returnBoundary equity threshold = unitValue u * unitValue v / 100 := by
    rw [returnBoundary, hu.readsSigned.decimalValue, hv.readsSigned.decimalValue]
  rw [hboundary]
  refine ⟨_, _, _, _, rationalFromDecimal_text hu.lt, rationalFromDecimal_text hv.lt, hreads,
    multiplyRational_ok_iff.mpr ⟨_, _, represents_unitValue (by simpa using hu.lt),
      represents_unitValue (by simpa using hv.lt), hprod, rfl⟩,
    divideRational_ok_iff.mpr ⟨_, _, represents_rationalText hprod,
      represents_unitValue (by decide), ?_, ?_, ?_⟩, hquot⟩
  · rw [hhundred]
    norm_num
  · rw [hhundred]
    exact hquot
  · rw [hhundred]

theorem rationalText_neg (q : ℚ) :
    { rationalText q with numerator := bigintText (-bigint (rationalText q).numerator) } =
      rationalText (-q) := by
  simp only [rationalText, bigint_bigintText, Rat.neg_num, Rat.neg_den]

theorem fits_neg {q : ℚ} (hq : Fits q) : Fits (-q) := by
  simpa only [Fits, Rat.neg_num, Rat.neg_den, Int.natAbs_neg] using hq

theorem channelReturnThreshold_ok {a : Amount} (ha : a.Valid)
    (he : decimal equity true = .ok e) (ht : decimal threshold true (some "100") = .ok t)
    (loss : Bool) :
    channelReturnThreshold a.money equity threshold loss = .ok
      (if loss then lossReturnThreshold (order (least a) (-returnBoundary equity threshold))
          (order (greatest a) (-returnBoundary equity threshold))
        else gainReturnThreshold (order (least a) (returnBoundary equity threshold))
          (order (greatest a) (returnBoundary equity threshold))) := by
  obtain ⟨capital, percent, hundred, product, hcap, hpercent, hhundred, hprod, hquot,
    hfits⟩ := boundary_ok he ht
  obtain ⟨l, hl, hlower⟩ := boundRational_of_valid ha .lower
  obtain ⟨u, hu, hupper⟩ := boundRational_of_valid ha .upper
  have hcmp : ∀ {x : ExactRational} {p q : ℚ}, Represents x p → Fits q →
      compareRational x (rationalText q) = .ok (order p q) := by
    intro x p q hx hq
    exact compareRational_ok_iff.mpr ⟨p, q, hx, represents_rationalText hq, rfl⟩
  simp only [channelReturnThreshold, ha.validate, he, ht, hcap, hpercent, hhundred, hprod,
    hquot, hl, hu, ok_bind]
  cases loss with
  | false =>
    simp only [Bool.false_eq_true, if_false, hcmp hlower hfits, hcmp hupper hfits, ok_bind]
    rfl
  | true =>
    simp only [if_true, rationalText_neg, hcmp hlower (fits_neg hfits),
      hcmp hupper (fits_neg hfits), ok_bind]
    rfl

theorem order_nonneg_iff {p q : ℚ} : 0 ≤ order p q ↔ q ≤ p := by
  rw [← not_lt, order_neg_iff, not_lt]

theorem order_nonpos_iff {p q : ℚ} : order p q ≤ 0 ↔ p ≤ q := by
  rw [← not_lt, order_pos_iff, not_lt]

theorem gainReturnThreshold_iff {a : Amount} (ha : a.Valid) (b : ℚ) :
    (gainReturnThreshold (order (least a) b) (order (greatest a) b) = .reached ↔
      ∀ p, a.Possible p → b ≤ p) ∧
    (gainReturnThreshold (order (least a) b) (order (greatest a) b) = .notReached ↔
      ∀ p, a.Possible p → p < b) := by
  have hle := least_le_greatest ha
  rw [← le_least_iff ha, ← greatest_lt_iff ha]
  simp only [gainReturnThreshold, order_nonneg_iff, order_neg_iff]
  by_cases hreach : b ≤ least a
  · simp [hreach, hreach.trans hle]
  · by_cases hmissed : greatest a < b
    · simp [hreach, hmissed]
    · simp [hreach, hmissed]

theorem lossReturnThreshold_iff {a : Amount} (ha : a.Valid) (b : ℚ) :
    (lossReturnThreshold (order (least a) b) (order (greatest a) b) = .reached ↔
      ∀ p, a.Possible p → p ≤ b) ∧
    (lossReturnThreshold (order (least a) b) (order (greatest a) b) = .notReached ↔
      ∀ p, a.Possible p → b < p) := by
  have hle := least_le_greatest ha
  rw [← greatest_le_iff ha, ← lt_least_iff ha]
  simp only [lossReturnThreshold, order_nonpos_iff, order_pos_iff]
  by_cases hreach : greatest a ≤ b
  · simp [hreach, hle.trans hreach]
  · by_cases hmissed : b < least a
    · simp [hreach, hmissed]
    · simp [hreach, hmissed]

theorem channelReturnThreshold_accepted {loss : Bool} {verdict : ChannelThreshold}
    (h : channelReturnThreshold value equity threshold loss = .ok verdict) :
    ∃ (a : Amount) (e t : String), a.Valid ∧ a.money = value ∧ decimal equity true = .ok e ∧
      decimal threshold true (some "100") = .ok t := by
  simp only [channelReturnThreshold, bind_eq_ok] at h
  obtain ⟨_, hpnl, e, he, _, -, t, ht, -⟩ := h
  obtain ⟨a, ha, hmoney, -⟩ := validateMoneyValue_ok_iff.mp hpnl
  exact ⟨a, e, t, ha, hmoney, he, ht⟩

theorem returnBoundary_pos (he : decimal equity true = .ok e)
    (ht : decimal threshold true (some "100") = .ok t) : 0 < returnBoundary equity threshold := by
  have hequity := (decimal_value he).2 rfl
  have hthreshold := (decimal_value ht).2 rfl
  rw [returnBoundary]
  positivity

theorem not_both_reached {lossThreshold gainThreshold : String} :
    ¬ (channelReturnThreshold value equity lossThreshold true = .ok .reached ∧
      channelReturnThreshold value equity gainThreshold = .ok .reached) := by
  rintro ⟨hloss, hgain⟩
  obtain ⟨a, e, t, ha, rfl, he, ht⟩ := channelReturnThreshold_accepted hloss
  obtain ⟨_, _, s, -, -, -, hs⟩ := channelReturnThreshold_accepted hgain
  rw [channelReturnThreshold_ok ha he ht, if_pos rfl, Except.ok.injEq,
    (lossReturnThreshold_iff ha _).1] at hloss
  rw [channelReturnThreshold_ok ha he hs, if_neg (by simp), Except.ok.injEq,
    (gainReturnThreshold_iff ha _).1] at hgain
  have hbelow := hloss _ (possible_least ha)
  have habove := hgain _ (possible_least ha)
  have hnegative := returnBoundary_pos he ht
  have hpos := returnBoundary_pos he hs
  linarith

theorem recommendation_moves {policy : ChannelRiskPolicy} {performance : ChannelPerformance}
    {result : Recommendation} (h : recommendation policy performance = .ok result) :
    (result.action = .decrease → channelReturnThreshold performance.realizedPnlValue
      performance.equity policy.lossThresholdPercent true = .ok .reached) ∧
    (result.action = .increase → channelReturnThreshold performance.realizedPnlValue
      performance.equity policy.profitThresholdPercent = .ok .reached) := by
  unfold recommendation at h
  cases hlocked : policy.lockedTier with
  | some lockedTier =>
    rw [hlocked, pure_eq_ok_iff] at h
    subst h
    simp [hold]
  | none =>
    simp only [hlocked] at h
    by_cases hfew : performance.closedTrades < policy.minimumClosedTrades
    · rw [if_pos hfew, pure_eq_ok_iff] at h
      subst h
      simp [hold]
    · rw [if_neg hfew] at h
      simp only [bind_eq_ok, pure_eq_ok_iff] at h
      obtain ⟨loss, hloss, profit, hprofit, rfl⟩ := h
      rw [hloss, hprofit, Except.ok.injEq, Except.ok.injEq]
      unfold recommended
      by_cases hdown : loss = .reached
      · simp [hdown]
      · by_cases hup : profit = .reached
        · simp [hdown, hup]
        · by_cases huncertain : loss = .uncertain ∨ profit = .uncertain
          · simp [hdown, hup, huncertain, hold]
          · simp [hdown, hup, huncertain, hold]

/-- The verdict of either direction is the one that every possible profit allows; the two
directions are never both reached, so a recommendation moves the tier one way only. -/
theorem channel_return_threshold_precise (value pnl : MoneyValue) (equity threshold e t : String)
    (hvalue : validateMoneyValue value = .ok pnl) (he : decimal equity true = .ok e)
    (ht : decimal threshold true (some "100") = .ok t) :
    (∃ gain loss, channelReturnThreshold value equity threshold = .ok gain ∧
      channelReturnThreshold value equity threshold true = .ok loss ∧
      (gain = .reached ↔ ∀ p, PossibleValue value p →
        decimalValue equity * decimalValue threshold / 100 ≤ p) ∧
      (gain = .notReached ↔ ∀ p, PossibleValue value p →
        p < decimalValue equity * decimalValue threshold / 100) ∧
      (loss = .reached ↔ ∀ p, PossibleValue value p →
        p ≤ -(decimalValue equity * decimalValue threshold / 100)) ∧
      (loss = .notReached ↔ ∀ p, PossibleValue value p →
        -(decimalValue equity * decimalValue threshold / 100) < p)) ∧
    (∀ lossThreshold gainThreshold,
      ¬ (channelReturnThreshold value equity lossThreshold true = .ok .reached ∧
        channelReturnThreshold value equity gainThreshold = .ok .reached)) ∧
    ∀ policy closedTrades result,
      recommendation policy ⟨closedTrades, value, equity⟩ = .ok result →
        (result.action = .decrease →
          channelReturnThreshold value equity policy.lossThresholdPercent true = .ok .reached ∧
          channelReturnThreshold value equity policy.profitThresholdPercent ≠ .ok .reached) ∧
        (result.action = .increase →
          channelReturnThreshold value equity policy.profitThresholdPercent = .ok .reached ∧
          channelReturnThreshold value equity policy.lossThresholdPercent true ≠ .ok .reached) := by
  obtain ⟨a, ha, rfl, -⟩ := validateMoneyValue_ok_iff.mp hvalue
  refine ⟨?_, fun _ _ => not_both_reached, ?_⟩
  · have hgain := channelReturnThreshold_ok ha he ht false
    have hloss := channelReturnThreshold_ok ha he ht true
    rw [if_neg (by simp)] at hgain
    rw [if_pos rfl] at hloss
    obtain ⟨hreach, hmissed⟩ := gainReturnThreshold_iff ha (returnBoundary equity threshold)
    obtain ⟨hfell, hheld⟩ := lossReturnThreshold_iff ha (-returnBoundary equity threshold)
    simp only [ha.possibleValue_iff]
    exact ⟨_, _, hgain, hloss, hreach, hmissed, hfell, hheld⟩
  · intro policy closedTrades result h
    obtain ⟨hdown, hup⟩ := recommendation_moves h
    constructor
    · intro haction
      exact ⟨hdown haction, fun hboth => not_both_reached ⟨hdown haction, hboth⟩⟩
    · intro haction
      exact ⟨hup haction, fun hboth => not_both_reached ⟨hboth, hup haction⟩⟩

/-- Bounds one quantum to either side of the boundary `5`. -/
def straddlingProfit : MoneyValue :=
  ⟨"4.999999999999999999", "5.000000000000000001", none, none, .bounded, 2⟩

theorem channel_return_threshold_precise_straddling :
    ∃ gain loss, channelReturnThreshold straddlingProfit "100" "5" = .ok gain ∧
      channelReturnThreshold straddlingProfit "100" "5" true = .ok loss ∧
      (gain = .reached ↔ ∀ p, PossibleValue straddlingProfit p →
        decimalValue "100" * decimalValue "5" / 100 ≤ p) := by
  obtain ⟨⟨gain, loss, hgain, hloss, hreach, -⟩, -⟩ :=
    channel_return_threshold_precise straddlingProfit straddlingProfit "100" "5" "100" "5"
      (by decide +kernel) (by decide +kernel) (by decide +kernel)
  exact ⟨gain, loss, hgain, hloss, hreach⟩

example : channelReturnThreshold straddlingProfit "100" "5" = .ok .uncertain := by
  decide +kernel

end Thresholds

end TsxCore.TradingChannelRisk
