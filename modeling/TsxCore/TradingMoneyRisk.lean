import TsxCore.MoneyExpression

/-!
# Daily monetary risk (`trading_money_risk.ts`)

The verdict compares the least and the greatest possible total commitment with
the budget, so an ambiguous interval neither admits nor proves a breach.
-/

namespace TsxCore.TradingMoneyRisk

open Outcome TradingDecimal TradingRational TradingMoneyValue

variable {a : Amount} {input : MonetaryDailyRiskInput} {risk : MonetaryDailyRisk}

inductive Bound
  | lower
  | upper

structure MonetaryDailyRiskInput where
  budget : String
  ledgerPnl : MoneyValue
  unrealizedPnl : String
  existingCommitment : MoneyValue
  candidateCommitment : MoneyValue

structure MonetaryDailyRisk where
  budget : String
  dayPnl : MoneyValue
  consumedLoss : MoneyValue
  existingCommitment : MoneyValue
  candidateCommitment : MoneyValue
  totalCommitment : MoneyValue
  allowed : Bool
  breached : Bool
  lossLimitReached : Bool
  precisionUncertain : Bool

def boundText (value : MoneyValue) : Bound → String
  | .lower => value.lower
  | .upper => value.upper

/-- `value.exact ?? rationalFromDecimal(value[bound])`. -/
def boundRational (value : MoneyValue) (bound : Bound) : Outcome ExactRational :=
  match value.exact with
  | some exact => .ok exact
  | none => rationalFromDecimal (boundText value bound)

def compareBound (value : MoneyValue) (threshold : ExactRational) (bound : Bound) : Outcome ℤ := do
  let comparison ← compareRational (← boundRational value bound) threshold
  return if comparison < 0 then -1 else if 0 < comparison then 1 else 0

def nonnegativeCommitment (value : MoneyValue) : Outcome MoneyValue := do
  let source ← validateMoneyValue value
  let zero ← rationalFromDecimal "0"
  let order ← compareBound source zero .lower
  throwIf (order < 0) (.error "Monetary commitment must be proven nonnegative.")
  return source

def consumedLossForInexact (loss : MoneyValue) : Outcome MoneyValue :=
  let lower := if isNegative loss.lower then "0" else loss.lower
  let upper := if isNegative loss.upper then "0" else loss.upper
  if upper = "0" then zeroWithTerms loss.terms
  else validateMoneyValue { loss with lower, upper }

def consumedLossFor (dayPnl : MoneyValue) : Outcome MoneyValue := do
  let loss ← negateMoneyValue dayPnl
  if loss.exact.isSome then
    let zero ← rationalFromDecimal "0"
    let order ← compareBound loss zero .lower
    if 0 < order then return loss else zeroWithTerms loss.terms
  else consumedLossForInexact loss

def normalizedBudget (value : String) : Outcome String := do
  throwIf (hasSpace value = true) (.error "Invalid monetary risk budget.")
  decimal value

def calculateMonetaryDailyRisk (input : MonetaryDailyRiskInput) : Outcome MonetaryDailyRisk := do
  let budget ← normalizedBudget input.budget
  let threshold ← rationalFromDecimal budget
  let ledgerPnl ← validateMoneyValue input.ledgerPnl
  let existingCommitment ← nonnegativeCommitment input.existingCommitment
  let candidateCommitment ← nonnegativeCommitment input.candidateCommitment
  let dayPnl ← addMoneyValues ledgerPnl (← moneyValueFromDecimal input.unrealizedPnl)
  let consumedLoss ← consumedLossFor dayPnl
  let committed ← addMoneyValues consumedLoss existingCommitment
  let totalCommitment ← addMoneyValues committed candidateCommitment
  let upper ← compareBound totalCommitment threshold .upper
  let lower ← compareBound totalCommitment threshold .lower
  let loss ← compareBound consumedLoss threshold .lower
  return {
    budget, dayPnl, consumedLoss, existingCommitment, candidateCommitment, totalCommitment
    allowed := decide (upper ≤ 0)
    breached := decide (0 < lower)
    lossLimitReached := decide (0 ≤ loss)
    precisionUncertain := [ledgerPnl, existingCommitment, candidateCommitment, dayPnl, consumedLoss,
      totalCommitment].any (fun value => value.precision == .bounded) }

def least : Amount → ℚ
  | .exact q _ => q
  | .bounded l _ _ => unitValue l

def greatest : Amount → ℚ
  | .exact q _ => q
  | .bounded _ u _ => unitValue u

theorem least_le {v : ℚ} (hv : a.Possible v) : least a ≤ v := by
  cases a with
  | exact q t => exact (show v = q from hv).ge
  | bounded l u t => exact hv.1

theorem le_greatest {v : ℚ} (hv : a.Possible v) : v ≤ greatest a := by
  cases a with
  | exact q t => exact (show v = q from hv).le
  | bounded l u t => exact hv.2

def boundValue (a : Amount) : Bound → ℚ
  | .lower => least a
  | .upper => greatest a

theorem hasSpace_signedText (i : ℤ) (hi : i.natAbs < unitLimit) :
    hasSpace (signedText i) = false := by
  have hmag := (denotes_text hi).hasSpace
  unfold signedText
  split_ifs
  · simp only [hasSpace, String.toList_append, List.any_append, Bool.or_eq_false_iff] at hmag ⊢
    exact ⟨by decide, hmag⟩
  · exact hmag

theorem rationalFromDecimal_signedText {i : ℤ} (hi : i.natAbs < unitLimit) :
    rationalFromDecimal (signedText i) = .ok (rationalText (unitValue i)) :=
  rationalFromDecimal_ok_iff.mpr
    ⟨hasSpace_signedText i hi, i, readsSigned_signedText_iff.mpr ⟨rfl, hi⟩, rfl⟩

theorem boundRational_of_valid (ha : a.Valid) (bound : Bound) :
    ∃ x, boundRational a.money bound = .ok x ∧ Represents x (boundValue a bound) := by
  cases a with
  | exact q t =>
    refine ⟨rationalText q, rfl, ?_⟩
    cases bound <;> exact represents_rationalText ha.wellFormed.1
  | bounded l u t =>
    have hl := ha.lower_lt
    have hu := ha.upper_lt
    simp only [Amount.lower, Amount.upper] at hl hu
    cases bound with
    | lower =>
      exact ⟨_, rationalFromDecimal_signedText hl, represents_rationalText
        (fits_unitValue (by omega))⟩
    | upper =>
      exact ⟨_, rationalFromDecimal_signedText hu, represents_rationalText
        (fits_unitValue (by omega))⟩

theorem compareBound_of_valid (ha : a.Valid) {t : ℚ} {r : ExactRational} (hr : Represents r t)
    (bound : Bound) : compareBound a.money r bound = .ok (order (boundValue a bound) t) := by
  obtain ⟨x, hx, hrep⟩ := boundRational_of_valid ha bound
  have hcmp := compareRational_ok_iff.mpr ⟨_, _, hrep, hr, rfl⟩
  rw [compareBound, hx, ok_bind, hcmp, ok_bind]
  simp only [order_neg_iff, order_pos_iff]
  rfl

theorem compareBound_zero (ha : a.Valid) :
    ∃ zero, rationalFromDecimal "0" = .ok zero ∧
      compareBound a.money zero .lower = .ok (order (least a) 0) := by
  have hzero : unitValue 0 = 0 := by simp [unitValue]
  have hrep : Represents (rationalText (unitValue 0)) 0 := by
    rw [represents_rationalText_iff]
    exact ⟨hzero, fits_unitValue (by decide)⟩
  refine ⟨rationalText (unitValue 0), ?_, compareBound_of_valid ha hrep .lower⟩
  have htext : signedText 0 = "0" := signedText_eq_zero.mpr rfl
  rw [← htext]
  exact rationalFromDecimal_signedText (by decide)

theorem nonnegativeCommitment_ok {m r : MoneyValue} (h : nonnegativeCommitment m = .ok r) :
    ∃ a : Amount, a.Valid ∧ a.money = m ∧ m = r ∧ 0 ≤ least a := by
  simp only [nonnegativeCommitment, bind_eq_ok, throwIf_eq_ok, pure_eq_ok_iff] at h
  obtain ⟨_, hv, zero, hz, order, horder, -, hnn, rfl⟩ := h
  obtain ⟨a, ha, rfl, rfl⟩ := validateMoneyValue_ok_iff.mp hv
  obtain ⟨zero', hz', hcmp⟩ := compareBound_zero ha
  rw [hz] at hz'
  cases hz'
  rw [hcmp] at horder
  cases horder
  rw [order_neg_iff, not_lt] at hnn
  exact ⟨a, ha, rfl, rfl, hnn⟩

def positivePart : Amount → Amount
  | .exact q t => if 0 < q then .exact q t else .exact 0 t
  | .bounded l u t => if u ≤ 0 then .exact 0 t else .bounded (max l 0) u t

theorem positivePart_valid (ha : a.Valid) : (positivePart a).Valid := by
  cases a with
  | exact q t =>
    simp only [positivePart]
    split_ifs
    · exact ha
    · exact zero_valid ha.terms_le
  | bounded l u t =>
    obtain ⟨htwo, hlt, hwidth⟩ := ha.wellFormed
    have hl := ha.lower_lt
    simp only [Amount.lower] at hl
    simp only [positivePart]
    split_ifs with hu
    · exact zero_valid ha.terms_le
    · refine ⟨⟨ha.terms_le, ?_, ha.upper_lt⟩, htwo, by omega, by omega⟩
      simp only [Amount.lower]
      omega

theorem possible_positivePart {v : ℚ} (hv : a.Possible v) :
    (positivePart a).Possible (max 0 v) := by
  cases a with
  | exact q t =>
    have hq : v = q := hv
    simp only [positivePart]
    split_ifs with hpos
    · exact (max_eq_right (hq ▸ hpos.le)).trans hq
    · exact max_eq_left (hq ▸ not_lt.mp hpos)
  | bounded l u t =>
    obtain ⟨hl, hu⟩ := hv
    have hmono : ∀ {i j : ℤ}, i ≤ j → unitValue i ≤ unitValue j := by
      intro i j hij
      exact div_le_div_of_nonneg_right (by exact_mod_cast hij) (by positivity)
    have hzero : unitValue 0 = 0 := by simp [unitValue]
    simp only [positivePart]
    split_ifs with hneg
    · exact max_eq_left (hu.trans (hzero ▸ hmono hneg))
    · refine ⟨?_, max_le (hzero ▸ hmono (by omega)) hu⟩
      rcases le_total l 0 with h0 | h0
      · rw [max_eq_right h0, hzero]
        exact le_max_left _ _
      · rw [max_eq_left h0]
        exact hl.trans (le_max_right _ _)

theorem consumedLossFor_of_valid (ha : a.Valid) :
    consumedLossFor a.money = .ok (positivePart a.negate).money := by
  have hneg := Amount.negate_valid ha
  rw [consumedLossFor, negateMoneyValue_of_valid ha, ok_bind]
  generalize a.negate = b at hneg ⊢
  cases b with
  | exact q t =>
    obtain ⟨zero, hz, hcmp⟩ := compareBound_zero hneg
    rw [if_pos (by rfl), hz, ok_bind, hcmp, ok_bind]
    simp only [order_pos_iff, positivePart, least]
    by_cases hpos : 0 < q
    · simp only [if_pos hpos]
      rfl
    · simp only [if_neg hpos, Amount.money_terms]
      exact zeroWithTerms_eq t
  | bounded l u t =>
    obtain ⟨-, hlt, -⟩ := hneg.wellFormed
    have hclamp : ∀ i : ℤ, (if isNegative (signedText i) then "0" else signedText i) =
        signedText (max i 0) := by
      intro i
      rw [isNegative_signedText]
      by_cases hi : i < 0
      · rw [if_pos (by simpa using hi), max_eq_right hi.le, signedText_eq_zero.mpr rfl]
      · rw [if_neg (by simpa using hi), max_eq_left (not_lt.mp hi)]
    have hinexact : consumedLossForInexact (Amount.bounded l u t).money =
        if signedText (max u 0) = "0" then zeroWithTerms t
        else validateMoneyValue (Amount.bounded (max l 0) (max u 0) t).money := by
      simp only [Amount.money, ← hclamp]
      rfl
    have hvalid := positivePart_valid hneg
    rw [if_neg (by simp [Amount.money]), hinexact]
    simp only [positivePart] at hvalid ⊢
    by_cases hu : u ≤ 0
    · rw [if_pos (signedText_eq_zero.mpr (max_eq_right hu))]
      simp only [if_pos hu]
      exact zeroWithTerms_eq t
    · rw [if_neg (fun hz => hu (by have := signedText_eq_zero.mp hz; omega)),
        max_eq_left (by omega : 0 ≤ u)]
      simp only [if_neg hu] at hvalid ⊢
      exact hvalid.validate

theorem moneyValueFromDecimal_ok_iff {s : String} {m : MoneyValue} :
    moneyValueFromDecimal s = .ok m ↔
      hasSpace s = false ∧ ∃ i, ReadsSigned s i ∧ (Amount.exact (unitValue i) 1).Valid ∧
        (Amount.exact (unitValue i) 1).money = m := by
  simp only [moneyValueFromDecimal, bind_eq_ok, rationalFromDecimal_ok_iff]
  refine ⟨?_, ?_⟩
  · intro h
    obtain ⟨_, ⟨hspace, i, hi, rfl⟩, h⟩ := h
    have hfit := fits_unitValue (i := i) (by have := hi.lt; omega)
    obtain ⟨hlo, hup, rfl⟩ := (exactValue_ok_iff (t := 1) hfit).mp h
    exact ⟨hspace, i, hi, ⟨⟨(by decide : 1 ≤ maxSafeInteger), hlo, hup⟩, hfit, by omega⟩, rfl⟩
  · intro h
    obtain ⟨hspace, i, hi, hvalid, rfl⟩ := h
    exact ⟨_, ⟨hspace, i, hi, rfl⟩, (exactValue_ok_iff (t := 1) hvalid.wellFormed.1).mpr
      ⟨hvalid.lower_lt, hvalid.upper_lt, rfl⟩⟩

/-- `q` is the value of the decimal text `s`. -/
def DecimalValue (s : String) (q : ℚ) : Prop := ∃ i, ReadsSigned s i ∧ q = unitValue i

section Verdict

variable (ledger existing candidate : Amount) (u : ℚ)

def dayEnclosure : Amount := ledger.add (.exact u 1)

def lossEnclosure : Amount := positivePart (dayEnclosure ledger u).negate

def committedEnclosure : Amount := (lossEnclosure ledger u).add existing

def totalEnclosure : Amount := (committedEnclosure ledger existing u).add candidate

/-- The enclosures behind a returned verdict and what the verdict says about them. -/
structure Verdict (input : MonetaryDailyRiskInput) (risk : MonetaryDailyRisk) (B : ℚ) : Prop where
  budget : DecimalValue input.budget B
  unrealized : DecimalValue input.unrealizedPnl u
  unrealized_valid : (Amount.exact u 1).Valid
  ledger_valid : ledger.Valid
  ledger_money : ledger.money = input.ledgerPnl
  existing_valid : existing.Valid
  existing_money : existing.money = input.existingCommitment
  candidate_valid : candidate.Valid
  candidate_money : candidate.money = input.candidateCommitment
  day_valid : (dayEnclosure ledger u).Valid
  loss_valid : (lossEnclosure ledger u).Valid
  committed_valid : (committedEnclosure ledger existing u).Valid
  total_valid : (totalEnclosure ledger existing candidate u).Valid
  allowed_iff : risk.allowed = true ↔ greatest (totalEnclosure ledger existing candidate u) ≤ B
  breached_iff : risk.breached = true ↔ B < least (totalEnclosure ledger existing candidate u)
  lossLimitReached_iff : risk.lossLimitReached = true ↔ B ≤ least (lossEnclosure ledger u)
  certain : risk.precisionUncertain = false →
    (totalEnclosure ledger existing candidate u).money.precision ≠ .bounded

end Verdict

theorem calculateMonetaryDailyRisk_ok (h : calculateMonetaryDailyRisk input = .ok risk) :
    ∃ ledger existing candidate u B, Verdict ledger existing candidate u input risk B := by
  simp only [calculateMonetaryDailyRisk, bind_eq_ok, pure_eq_ok_iff, normalizedBudget,
    throwIf_eq_ok, decimal_ok_iff] at h
  obtain ⟨_, ⟨-, hspace, b, hb, rfl⟩, threshold, hthreshold, _, hledger, _, hex, _, hcand,
    _, hunrealized, _, hday, _, hloss, _, hcommitted, _, htotal, o1, ho1, o2, ho2, o3, ho3,
    rfl⟩ := h
  obtain ⟨ledger, hvl, hml, rfl⟩ := validateMoneyValue_ok_iff.mp hledger
  obtain ⟨existing, hve, hme, rfl, -⟩ := nonnegativeCommitment_ok hex
  obtain ⟨candidate, hvc, hmc, rfl, -⟩ := nonnegativeCommitment_ok hcand
  obtain ⟨-, i, hi, hvu, rfl⟩ := moneyValueFromDecimal_ok_iff.mp hunrealized
  rw [← hml] at hday
  obtain ⟨hrange, rfl⟩ := (addMoneyValues_ok_iff hvl hvu).mp hday
  have hvday : (dayEnclosure ledger (unitValue i)).Valid := ⟨hrange, Amount.add_wellFormed hvl hvu⟩
  obtain rfl := Except.ok.inj ((consumedLossFor_of_valid hvday).symm.trans hloss)
  have hvloss : (lossEnclosure ledger (unitValue i)).Valid :=
    positivePart_valid (Amount.negate_valid hvday)
  rw [← hme] at hcommitted
  obtain ⟨hrange, rfl⟩ := (addMoneyValues_ok_iff hvloss hve).mp hcommitted
  have hvcommitted : (committedEnclosure ledger existing (unitValue i)).Valid :=
    ⟨hrange, Amount.add_wellFormed hvloss hve⟩
  rw [← hmc] at htotal
  obtain ⟨hrange, rfl⟩ := (addMoneyValues_ok_iff hvcommitted hvc).mp htotal
  have hvtotal : (totalEnclosure ledger existing candidate (unitValue i)).Valid :=
    ⟨hrange, Amount.add_wellFormed hvcommitted hvc⟩
  have hbud : Denotes input.budget b := by
    rwa [Reads, trim_of_hasSpace_false (by simpa using hspace)] at hb
  have hthreshold' := rationalFromDecimal_signedText (i := b) hbud.lt
  rw [signedText_natCast, hthreshold] at hthreshold'
  cases hthreshold'
  have hrep := represents_rationalText (fits_unitValue (i := b) (by have := hbud.lt; omega))
  obtain rfl := Except.ok.inj ((compareBound_of_valid hvtotal hrep .upper).symm.trans ho1)
  obtain rfl := Except.ok.inj ((compareBound_of_valid hvtotal hrep .lower).symm.trans ho2)
  obtain rfl := Except.ok.inj ((compareBound_of_valid hvloss hrep .lower).symm.trans ho3)
  refine ⟨ledger, existing, candidate, unitValue i, unitValue b, ⟨b, hbud.readsSigned, rfl⟩,
    ⟨i, hi, rfl⟩, hvu, hvl, hml, hve, hme, hvc, hmc, hvday, hvloss, hvcommitted, hvtotal,
    ?_, ?_, ?_, ?_⟩
  · rw [decide_eq_true_eq, ← not_lt, order_pos_iff, not_lt]
    rfl
  · rw [decide_eq_true_eq, order_pos_iff]
    rfl
  · rw [decide_eq_true_eq, ← not_lt, order_neg_iff, not_lt]
    rfl
  · intro hcertain
    simpa using (List.any_eq_false.mp hcertain) _ (by simp [totalEnclosure])

theorem Verdict.possible_total {ledger existing candidate : Amount} {u B : ℚ}
    (h : Verdict ledger existing candidate u input risk B) {L E C : ℚ}
    (hL : PossibleValue input.ledgerPnl L) (hE : PossibleValue input.existingCommitment E)
    (hC : PossibleValue input.candidateCommitment C) :
    (lossEnclosure ledger u).Possible (max 0 (-(L + u))) ∧
      (totalEnclosure ledger existing candidate u).Possible (max 0 (-(L + u)) + E + C) := by
  rw [← h.ledger_money, h.ledger_valid.possibleValue_iff] at hL
  rw [← h.existing_money, h.existing_valid.possibleValue_iff] at hE
  rw [← h.candidate_money, h.candidate_valid.possibleValue_iff] at hC
  have hday : (dayEnclosure ledger u).Possible (L + u) :=
    Amount.possible_add h.ledger_valid h.unrealized_valid hL rfl
  have hloss : (lossEnclosure ledger u).Possible (max 0 (-(L + u))) :=
    possible_positivePart (Amount.possible_negate hday)
  refine ⟨hloss, ?_⟩
  exact Amount.possible_add h.committed_valid h.candidate_valid
    (Amount.possible_add h.loss_valid h.existing_valid hloss hE) hC

/-- The daily verdict is sound for every possible ledger result and commitment, and exact
whenever no precision was lost. -/
theorem daily_risk_verdict_sound (input : MonetaryDailyRiskInput) (risk : MonetaryDailyRisk)
    (h : calculateMonetaryDailyRisk input = .ok risk) :
    ∃ B u, DecimalValue input.budget B ∧ DecimalValue input.unrealizedPnl u ∧
      ∀ L E C, PossibleValue input.ledgerPnl L → PossibleValue input.existingCommitment E →
        PossibleValue input.candidateCommitment C →
        (risk.allowed = true → max 0 (-(L + u)) + E + C ≤ B) ∧
        (risk.breached = true → B < max 0 (-(L + u)) + E + C) ∧
        (risk.lossLimitReached = true → B ≤ max 0 (-(L + u))) ∧
        ¬ (risk.allowed = true ∧ risk.breached = true) ∧
        (risk.precisionUncertain = false →
          (risk.allowed = true ↔ max 0 (-(L + u)) + E + C ≤ B) ∧
          (risk.breached = true ↔ B < max 0 (-(L + u)) + E + C)) := by
  obtain ⟨ledger, existing, candidate, u, B, hverd⟩ := calculateMonetaryDailyRisk_ok h
  refine ⟨B, u, hverd.budget, hverd.unrealized, ?_⟩
  intro L E C hL hE hC
  obtain ⟨hloss, htotal⟩ := hverd.possible_total hL hE hC
  rw [hverd.allowed_iff, hverd.breached_iff, hverd.lossLimitReached_iff]
  have hlow := least_le htotal
  have hhigh := le_greatest htotal
  refine ⟨hhigh.trans, fun hb => hb.trans_le hlow, fun hb => hb.trans (least_le hloss), ?_, ?_⟩
  · intro hboth
    exact absurd (hboth.2.trans_le (hlow.trans hhigh)) hboth.1.not_gt
  · intro hcertain
    have hexact := hverd.certain hcertain
    cases hcase : totalEnclosure ledger existing candidate u with
    | exact q t =>
      rw [hcase] at htotal
      have hq : max 0 (-(L + u)) + E + C = q := htotal
      rw [hq]
      exact ⟨Iff.rfl, Iff.rfl⟩
    | bounded l r t =>
      rw [hcase] at hexact
      exact absurd rfl hexact

/-- A loss of one, a commitment of one and a budget of two. -/
def lossOfOneInput : MonetaryDailyRiskInput where
  budget := "2"
  ledgerPnl := ⟨"1", "1", some ⟨"1", "1"⟩, some "1", .exactDecimal, 1⟩
  unrealizedPnl := "-2"
  existingCommitment := ⟨"0", "0", some ⟨"0", "1"⟩, some "0", .exactDecimal, 0⟩
  candidateCommitment := ⟨"1", "1", some ⟨"1", "1"⟩, some "1", .exactDecimal, 1⟩

theorem daily_risk_verdict_sound_loss_of_one : ∃ risk B u,
    calculateMonetaryDailyRisk lossOfOneInput = .ok risk ∧ risk.allowed = true ∧
      DecimalValue "2" B ∧ DecimalValue "-2" u ∧ max 0 (-(1 + u)) + 0 + 1 ≤ B := by
  have hallowed : (·.allowed) <$> calculateMonetaryDailyRisk lossOfOneInput = .ok true := by
    decide +kernel
  obtain ⟨risk, hrisk, hrisk_allowed⟩ := map_eq_ok.mp hallowed
  have hone : PossibleValue lossOfOneInput.ledgerPnl 1 := ⟨1, 1, by decide +kernel, by norm_num⟩
  have hzero : PossibleValue lossOfOneInput.existingCommitment 0 :=
    ⟨0, 1, by decide +kernel, by norm_num⟩
  obtain ⟨B, u, hB, hu, hsound⟩ := daily_risk_verdict_sound lossOfOneInput risk hrisk
  exact ⟨risk, B, u, hrisk, hrisk_allowed, hB, hu, (hsound 1 0 1 hone hzero hone).1 hrisk_allowed⟩

end TsxCore.TradingMoneyRisk
