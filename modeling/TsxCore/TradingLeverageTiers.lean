import TsxCore.TradingTypes
import TsxCore.MoneyAmount
import TsxCore.RationalProducts
import TsxCore.JsonText

/-!
# Leverage tiers (`trading_leverage_tiers.ts`)

A tier table cuts the notional axis into half-open ranges with falling leverage
maxima. `solveTierQuantity` lowers the leverage until the quantity sized at it
falls into a tier that allows it, and `tierDecision` records the result together
with the notional budget that `assertTierDecisionBudget` enforces again before an
order is sent. Notionals are compared as untruncated products of quanta. Leverages
are integer-valued numbers, and `sha256` stands for the digest of a text.
-/

namespace TsxCore.TradingLeverageTiers

open Outcome TradingDecimal TradingRational TradingMoneyValue TradingTypes

variable {evidence : TradingLeverageTierEvidence} {quantityForLeverage : ℤ → Outcome String}
  {result : TierSizing}

def leverageTierError (message : String) : Thrown :=
  ⟨"LeverageTierError", some "LEVERAGE_TIERS_UNPROVEN", message⟩

def requireTier (condition : Prop) [Decidable condition] (reason : String) : Outcome Unit :=
  throwIf (¬ condition) (leverageTierError reason)

/-- The loop of `validateTierTable`, with the bound and the leverage of the previous tier. -/
def validateTiers (lower : String) (previousLeverage : ℤ) :
    List TradingLeverageTier → Outcome Unit
  | [] => return ()
  | tier :: rest => do
    requireTier ((← decimal tier.lowerBound) = lower)
      "Leverage tiers are gapped, overlapping or unordered."
    requireTier (isSafeInteger tier.maxLeverage ∧ 1 ≤ tier.maxLeverage ∧
      tier.maxLeverage ≤ previousLeverage)
      "Leverage tier maxima must decrease and must not exceed 50."
    match tier.upperBound with
    | none => requireTier (rest = []) "Only the final tier can be unlimited."
    | some upper => do
      let order ← compareDecimal (← decimal upper true) lower
      requireTier (0 < order) "Invalid leverage tier range."
    validateTiers (tier.upperBound.getD "") tier.maxLeverage rest

def validateTierTable (tiers : List TradingLeverageTier) : Outcome Unit := do
  requireTier (0 < tiers.length ∧ tiers.length ≤ 500) "Complete leverage tiers are required."
  validateTiers "0" 50 tiers

def quantum (value : String) : Outcome ℕ := do
  let normalized ← decimal value
  return Nat.ofDigitChars 10
    (integerPart normalized ++ (fractionPart normalized).rightpad 18 '0') 0

/-- The range test of one tier; the upper bound is read only above the lower one. -/
def tierContains (tier : TradingLeverageTier) (product : ℕ) : Outcome Bool := do
  if product < (← quantum tier.lowerBound) * 10 ^ 18 then return false
  else
    match tier.upperBound with
    | none => return true
    | some upper => return decide (product < (← quantum upper) * 10 ^ 18)

/-- `tiers.findIndex`, with `none` for `-1`. -/
def findTier (product : ℕ) : ℕ → List TradingLeverageTier → Outcome (Option ℕ)
  | _, [] => return none
  | index, tier :: rest => do
    if ← tierContains tier product then return some index else findTier product (index + 1) rest

def findTierForQuantity (tiers : List TradingLeverageTier) (quantity markPrice : String) :
    Outcome (Option ℕ) := do
  let left ← quantum (← decimal quantity true)
  let right ← quantum (← decimal markPrice true)
  findTier (left * right) 0 tiers

def tierForQuantity (tiers : List TradingLeverageTier) (quantity markPrice : String) :
    Outcome ℕ := do
  match ← findTierForQuantity tiers quantity markPrice with
  | some index => return index
  | none => throw (leverageTierError "Quantized notional is outside the proven leverage tiers.")

structure TierSizing where
  leverage : ℤ
  quantity : String
  tierIndex : ℕ
  deriving DecidableEq

/-- One round of the solver for each unit of fuel; the leverage never increases again. -/
def solveRounds (tiers : List TradingLeverageTier) (markPrice : String)
    (quantityForLeverage : ℤ → Outcome String) : ℕ → ℤ → Outcome TierSizing
  | 0, _ => throw (leverageTierError "Leverage tier solver exceeded its monotone bound.")
  | rounds + 1, leverage => do
    let quantity ← decimal (← quantityForLeverage leverage) true
    let tierIndex ← findTierForQuantity tiers quantity markPrice
    match tiers[tierIndex.getD (tiers.length - 1)]? with
    | none => throw (leverageTierError "Complete consistent leverage tiers are required.")
    | some tier => do
      requireTier (tierIndex ≠ none ∨ tier.maxLeverage < leverage)
        "Quantized notional is outside the proven leverage tiers."
      if leverage ≤ tier.maxLeverage then return ⟨leverage, quantity, tierIndex.getD 0⟩
      else solveRounds tiers markPrice quantityForLeverage rounds tier.maxLeverage

def solveTierQuantity (evidence : TradingLeverageTierEvidence) (requested : ℤ)
    (quantityForLeverage : ℤ → Outcome String) : Outcome TierSizing := do
  validateTierTable evidence.tiers
  let _ ← decimal evidence.contractSize true
  requireTier (isSafeInteger requested ∧ 0 < requested) "Invalid requested tier leverage."
  match evidence.tiers[0]? with
  | none => throw (leverageTierError "Complete consistent leverage tiers are required.")
  | some first =>
    solveRounds evidence.tiers evidence.markPrice quantityForLeverage (evidence.tiers.length + 1)
      (min (min requested 50) first.maxLeverage)

def tierEvidenceHash (sha256 : String → String) (value : TradingLeverageTierEvidence) : String :=
  sha256 (.ofList (JsonText.array [JsonText.string value.exchange, JsonText.string value.symbol,
    JsonText.string value.providerSymbol, JsonText.string value.accountFingerprint,
    JsonText.string value.credentialGeneration, JsonText.string value.ccxtVersion,
    JsonText.string value.profileHash, JsonText.string value.source,
    JsonText.string value.currency, JsonText.string value.contractSize,
    JsonText.array (value.tiers.map fun tier => JsonText.array [JsonText.string tier.lowerBound,
      JsonText.nullable tier.upperBound, JsonText.integer tier.maxLeverage])]))

/-- `maximumNotional: string | MoneyValue`. -/
inductive NotionalBudget
  | decimal (value : String)
  | money (value : MoneyValue)

/-- What both the decision and its check require of a rational budget. -/
def exactPositive (amount : MoneyValue) (reason : String) : Outcome ExactRational := do
  match amount.exact with
  | none => throw (leverageTierError reason)
  | some exact => do
    requireTier (0 < amount.terms) reason
    let order ← compareRational exact (← rationalFromDecimal "0")
    requireTier (0 < order) reason
    return exact

def tierDecision (sha256 : String → String) (value : TradingLeverageTierEvidence)
    (result : TierSizing) (maximumNotional : NotionalBudget) :
    Outcome TradingLeverageTierDecision :=
  let decision : TradingLeverageTierDecision := {
    version := 1
    evidenceHash := tierEvidenceHash sha256 value
    providerSymbol := value.providerSymbol
    contractSize := value.contractSize
    tierIndex := result.tierIndex
    quantity := result.quantity
    leverage := result.leverage
    maximumNotional := none
    maximumNotionalCurrency := none
    maximumNotionalValue := none }
  match maximumNotional with
  | .money budget => do
    let amount ← validateMoneyValue budget
    let _ ← exactPositive amount "Exact positive notional budget is required."
    return { decision with
      version := 2
      maximumNotional := amount.decimal
      maximumNotionalValue := some amount
      maximumNotionalCurrency := some value.currency }
  | .decimal budget => return { decision with maximumNotional := some budget }

/-- `compareDecimal(markPrice, entryPrice) > 0 ? markPrice : entryPrice`. -/
def valuationPrice (markPrice entryPrice : String) : Outcome String := do
  return if 0 < (← compareDecimal markPrice entryPrice) then markPrice else entryPrice

def assertTierNotionalBudget (quantity markPrice entryPrice maximum : String) : Outcome Unit := do
  let price ← valuationPrice markPrice entryPrice
  requireTier ((← quantum quantity) * (← quantum price) ≤ (← quantum maximum) * 10 ^ 18)
    "Current valuation exceeds the original margin/notional budget."

def assertTierDecisionBudget (decision : TradingLeverageTierDecision)
    (currency quantity markPrice entryPrice : String) : Outcome Unit := do
  if decision.version = 1 then
    match decision.maximumNotional, decision.maximumNotionalValue,
      decision.maximumNotionalCurrency with
    | some maximum, none, none => assertTierNotionalBudget quantity markPrice entryPrice maximum
    | _, _, _ => throw (leverageTierError "Legacy tier budget contract changed.")
  else
    requireTier (decision.version = 2 ∧ decision.maximumNotionalCurrency = some currency)
      "Tier budget currency differs."
    let amount ← match decision.maximumNotionalValue with
      | none => throw (.error "Invalid money value structure.")
      | some value => validateMoneyValue value
    let reason := "Tier rational budget is not exact or contradicts its decimal alias."
    requireTier (decision.maximumNotional = amount.decimal) reason
    let exact ← exactPositive amount reason
    let price ← valuationPrice markPrice entryPrice
    let actual ← multiplyRational (← rationalFromDecimal (← decimal quantity true))
      (← rationalFromDecimal (← decimal price true))
    let order ← compareRational actual exact
    requireTier (order ≤ 0) "Current valuation exceeds the original margin/notional budget."

@[simp] theorem requireTier_eq_ok {condition : Prop} [Decidable condition] {reason : String}
    {u : Unit} : requireTier condition reason = .ok u ↔ condition := by
  rw [requireTier, throwIf_eq_ok, not_not]

theorem ofDigitChars_text (u : ℕ) :
    Nat.ofDigitChars 10 (integerPart (text u) ++ (fractionPart (text u)).rightpad 18 '0') 0 =
      u := by
  have hunits := decimalUnits_signedText u
  obtain ⟨c, k, -, -, hint, -⟩ := signedText_parts u
  rw [decimalUnits, bigint, isNegative, String.toList_ofList, hint] at hunits
  rw [← signedText_natCast, hint]
  have hnn : ¬ (u : ℤ) < 0 := by omega
  simp only [if_neg hnn, List.nil_append] at hunits ⊢
  rw [List.head?_append_of_ne_nil _ Nat.toDigits_ne_nil] at hunits
  have hhead : ((Nat.toDigits 10 (c / 10 ^ k)).head? == some '-') = false := by
    simpa using head_toDigits_ne_minus (c / 10 ^ k)
  rw [hhead, if_neg Bool.false_ne_true] at hunits
  exact_mod_cast hunits

theorem quantum_ok_iff {s : String} {u : ℕ} : quantum s = .ok u ↔ Reads s u := by
  simp only [quantum, bind_eq_ok, decimal_ok_iff, pure_eq_ok_iff]
  constructor
  · intro h
    obtain ⟨_, ⟨v, hv, rfl⟩, rfl⟩ := h
    rwa [ofDigitChars_text]
  · intro h
    exact ⟨_, ⟨u, h, rfl⟩, ofDigitChars_text u⟩

theorem valuationPrice_ok_iff {m e p : String} :
    valuationPrice m e = .ok p ↔
      ∃ u v, Denotes m u ∧ Denotes e v ∧ (if v < u then m else e) = p := by
  simp only [valuationPrice, bind_eq_ok, pure_eq_ok_iff, compareDecimal_ok_iff]
  constructor
  · intro h
    obtain ⟨_, ⟨u, v, hu, hv, rfl⟩, rfl⟩ := h
    exact ⟨u, v, hu, hv, by simp only [sign_pos_iff]⟩
  · intro h
    obtain ⟨u, v, hu, hv, rfl⟩ := h
    exact ⟨_, ⟨u, v, hu, hv, rfl⟩, by simp only [sign_pos_iff]⟩

theorem valuationPrice_denotes {m e p : String} (h : valuationPrice m e = .ok p) :
    ∃ u v, Denotes m u ∧ Denotes e v ∧ Denotes p (max u v) := by
  obtain ⟨u, v, hu, hv, rfl⟩ := valuationPrice_ok_iff.mp h
  refine ⟨u, v, hu, hv, ?_⟩
  split_ifs with hlt
  · rwa [max_eq_left hlt.le]
  · rwa [max_eq_right (not_lt.mp hlt)]

theorem exactPositive_ok_iff {amount : MoneyValue} {reason : String} {x : ExactRational} :
    exactPositive amount reason = .ok x ↔
      amount.exact = some x ∧ 0 < amount.terms ∧ ∃ b, Represents x b ∧ 0 < b := by
  have hzero : rationalFromDecimal "0" = .ok (rationalText 0) := by
    have h := rationalFromDecimal_text (show 0 < unitLimit by rw [unitLimit]; positivity)
    rwa [text_eq_zero.mpr rfl, Nat.cast_zero, unitValue_zero] at h
  unfold exactPositive
  cases hexact : amount.exact with
  | none =>
    simp only [reduceCtorEq, false_and]
  | some y =>
    simp only [bind_eq_ok, requireTier_eq_ok, hzero, Except.ok.injEq, compareRational_ok_iff,
      pure_eq_ok_iff, Option.some.injEq]
    constructor
    · intro h
      obtain ⟨-, hterms, _, rfl, _, ⟨b, z, hb, hz, rfl⟩, -, horder, rfl⟩ := h
      obtain ⟨rfl, -⟩ := represents_rationalText_iff.mp hz
      exact ⟨rfl, hterms, b, hb, order_pos_iff.mp horder⟩
    · intro h
      obtain ⟨rfl, hterms, b, hb, hpos⟩ := h
      have hfits : Fits 0 := by decide
      exact ⟨(), hterms, _, rfl, _, ⟨b, 0, hb, represents_rationalText hfits, rfl⟩, (),
        order_pos_iff.mpr hpos, rfl⟩

theorem fits_product {q p : ℕ} (hq : q < unitLimit) (hp : p < unitLimit) :
    Fits (unitValue q * unitValue p) := by
  have hvalue : unitValue q * unitValue p = ((q * p : ℤ) : ℚ) / ((10 ^ 36 : ℤ) : ℚ) := by
    rw [unitValue_natCast, unitValue_natCast, div_mul_div_comm, ← pow_add]
    push_cast
    rfl
  rw [hvalue]
  apply fits_div (by positivity)
  · rw [Int.natAbs_mul, Int.natAbs_natCast, Int.natAbs_natCast]
    calc
      q * p < unitLimit * unitLimit := Nat.mul_lt_mul'' hq hp
      _ ≤ digitLimit := by
        rw [unitLimit, digitLimit, ← pow_add]
        exact Nat.pow_le_pow_right (by omega) (by omega)
  · rw [Int.natAbs_pow, digitLimit]
    exact Nat.pow_lt_pow_right (by decide) (by omega)

theorem multiplyRational_unitValue {q p : ℕ} (hq : q < unitLimit) (hp : p < unitLimit) :
    multiplyRational (rationalText (unitValue q)) (rationalText (unitValue p)) =
      .ok (rationalText (unitValue q * unitValue p)) :=
  multiplyRational_ok_iff.mpr ⟨_, _, represents_unitValue (by simpa using hq),
    represents_unitValue (by simpa using hp), fits_product hq hp, rfl⟩

section Budgets

variable {sha256 : String → String} {value : TradingLeverageTierEvidence} {result : TierSizing}
variable {decision : TradingLeverageTierDecision} {budget quantity mark entry : String} {q u v : ℕ}

/-- The fields that a decision takes over whatever its budget is. -/
theorem tierDecision_result {maximumNotional : NotionalBudget}
    (h : tierDecision sha256 value result maximumNotional = .ok decision) :
    decision.tierIndex = result.tierIndex ∧ decision.quantity = result.quantity ∧
      decision.leverage = result.leverage := by
  cases maximumNotional with
  | decimal budget =>
    cases h
    exact ⟨rfl, rfl, rfl⟩
  | money budget =>
    simp only [tierDecision, bind_eq_ok, pure_eq_ok_iff] at h
    obtain ⟨_, -, _, -, rfl⟩ := h
    exact ⟨rfl, rfl, rfl⟩

theorem assertTierDecisionBudget_decimal {maximum : ℕ}
    (h : tierDecision sha256 value result (.decimal budget) = .ok decision) (currency : String)
    (hq : Reads quantity q) (hmark : Denotes mark u) (hentry : Denotes entry v)
    (hbud : Reads budget maximum) (hle : q * max u v ≤ maximum * 10 ^ 18) :
    assertTierDecisionBudget decision currency quantity mark entry = .ok () := by
  cases h
  have hprice := valuationPrice_ok_iff.mpr ⟨u, v, hmark, hentry, rfl⟩
  have hdearer : Denotes (if v < u then mark else entry) (max u v) := by
    obtain ⟨u', v', hu', hv', h⟩ := valuationPrice_denotes hprice
    rwa [hu'.unique hmark, hv'.unique hentry] at h
  change assertTierNotionalBudget quantity mark entry budget = .ok ()
  rw [assertTierNotionalBudget, hprice, ok_bind, quantum_ok_iff.mpr hq, ok_bind,
    quantum_ok_iff.mpr hdearer.reads, ok_bind, quantum_ok_iff.mpr hbud, ok_bind,
    requireTier_eq_ok]
  exact hle

theorem assertTierDecisionBudget_money {money : MoneyValue} {x : ExactRational} {b : ℚ}
    (h : tierDecision sha256 value result (.money money) = .ok decision)
    (hexact : money.exact = some x) (hx : Represents x b) (hq : Reads quantity q) (hqpos : 0 < q)
    (hmark : Denotes mark u) (hentry : Denotes entry v) (hpos : 0 < max u v)
    (hle : unitValue q * unitValue (max u v : ℕ) ≤ b) :
    assertTierDecisionBudget decision value.currency quantity mark entry = .ok () := by
  simp only [tierDecision, bind_eq_ok, pure_eq_ok_iff, exactPositive_ok_iff] at h
  obtain ⟨amount, hvalid, y, ⟨hy, hterms, hposb⟩, rfl⟩ := h
  obtain ⟨a, ha, rfl, rfl⟩ := validateMoneyValue_ok_iff.mp hvalid
  obtain rfl : x = y := by
    rw [hexact] at hy
    exact Option.some.inj hy
  have hprice := valuationPrice_ok_iff.mpr ⟨u, v, hmark, hentry, rfl⟩
  have hdearer : Denotes (if v < u then mark else entry) (max u v) := by
    obtain ⟨u', v', hu', hv', h⟩ := valuationPrice_denotes hprice
    rwa [hu'.unique hmark, hv'.unique hentry] at h
  have hprod := multiplyRational_unitValue hq.lt hdearer.lt
  simp only [assertTierDecisionBudget, OfNat.ofNat_ne_one, if_false, bind_eq_ok, requireTier_eq_ok,
    true_and, exactPositive_ok_iff, ha.validate]
  refine ⟨(), _, rfl, (), rfl, x, ⟨hexact, hterms, hposb⟩, _, hprice, _,
    decimal_positive_ok_iff.mpr ⟨q, hq, hqpos, rfl⟩, _, rationalFromDecimal_text hq.lt, _,
    decimal_positive_ok_iff.mpr ⟨_, hdearer.reads, hpos, rfl⟩, _,
    rationalFromDecimal_text hdearer.lt, _, hprod, _,
    compareRational_ok_iff.mpr ⟨_, b, represents_rationalText (fits_product hq.lt hdearer.lt), hx,
      rfl⟩, ?_⟩
  exact not_lt.mp fun h => absurd (order_pos_iff.mp h) (not_lt.mpr hle)

end Budgets

/-- What a solved leverage satisfies, whatever sizes a position at it. -/
structure SolvedTier (evidence : TradingLeverageTierEvidence)
    (quantityForLeverage : ℤ → Outcome String) (result : TierSizing) : Prop where
  sized : ∃ quantity, quantityForLeverage result.leverage = .ok quantity ∧
    decimal quantity true = .ok result.quantity
  located : findTierForQuantity evidence.tiers result.quantity evidence.markPrice =
    .ok (some result.tierIndex)
  allowed : ∃ tier, evidence.tiers[result.tierIndex]? = some tier ∧
    result.leverage ≤ tier.maxLeverage

theorem solveRounds_solved {rounds : ℕ} {leverage : ℤ}
    (h : solveRounds evidence.tiers evidence.markPrice quantityForLeverage rounds leverage =
      .ok result) :
    SolvedTier evidence quantityForLeverage result := by
  induction rounds generalizing leverage with
  | zero => cases h
  | succ rounds ih =>
    simp only [solveRounds, bind_eq_ok] at h
    obtain ⟨raw, hraw, quantity, hqty, tierIndex, hfind, h⟩ := h
    split at h
    · cases h
    · rename_i tier htier
      simp only [bind_eq_ok, requireTier_eq_ok] at h
      obtain ⟨-, hinside, h⟩ := h
      split_ifs at h with hle
      · cases tierIndex with
        | none => exact absurd hinside (by simpa using hle)
        | some index =>
          cases h
          exact ⟨⟨raw, hraw, hqty⟩, hfind, tier, htier, hle⟩
      · exact ih h

theorem solveTierQuantity_solved {requested : ℤ}
    (h : solveTierQuantity evidence requested quantityForLeverage = .ok result) :
    SolvedTier evidence quantityForLeverage result := by
  simp only [solveTierQuantity, bind_eq_ok] at h
  obtain ⟨-, -, -, -, -, -, h⟩ := h
  split at h
  · cases h
  · exact solveRounds_solved h

theorem SolvedTier.tierForQuantity (h : SolvedTier evidence quantityForLeverage result) :
    tierForQuantity evidence.tiers result.quantity evidence.markPrice = .ok result.tierIndex := by
  rw [TradingLeverageTiers.tierForQuantity, h.located, ok_bind]
  rfl

end TsxCore.TradingLeverageTiers
