import TsxCore.OutcomeErrors
import TsxCore.TradingLeverageTiers

/-!
# The leverage tier solver

Every retry lowers the leverage to the maximum of some tier, so fewer and fewer
tiers are left below it and the bound of the loop is never reached, whatever sizes
the positions. The ranges of a validated table follow each other without overlap.
-/

namespace TsxCore.TradingLeverageTiers

open Outcome TradingDecimal TradingTypes

def monotoneBoundExceeded : Thrown :=
  leverageTierError "Leverage tier solver exceeded its monotone bound."

def WithinBound (thrown : Thrown) : Prop := thrown ≠ monotoneBoundExceeded

section Errors

variable {P : Thrown → Prop} (hP : ∀ message, P (.error message))

include hP

theorem throws_parse (value : String) : Throws P (parse value) :=
  (throws_throwIf (hP _)).bind (fun _ _ => throws_pure _)

theorem throws_powerOfTen (exponent : ℕ) : Throws P (powerOfTen exponent) :=
  (throws_throwIf (hP _)).bind (fun _ _ => throws_pure _)

theorem throws_compareDecimal (left right : String) : Throws P (compareDecimal left right) := by
  unfold compareDecimal align
  apply (throws_parse hP left).bind
  intro l _
  apply (throws_parse hP right).bind
  intro r _
  apply Throws.bind
  · apply (throws_powerOfTen hP _).bind
    intro leftFactor _
    apply (throws_powerOfTen hP _).bind
    intro rightFactor _
    exact throws_pure _
  · intro a _
    exact throws_pure _

theorem throws_decimal (value : String) (positive : Bool) : Throws P (decimal value positive) := by
  unfold decimal
  apply (throws_parse hP _).bind
  intro parsed _
  apply (throws_throwIf (hP _)).bind
  intro _ _
  exact throws_pure _

theorem throws_quantum (value : String) : Throws P (quantum value) :=
  (throws_decimal hP value false).bind (fun _ _ => throws_pure _)

theorem throws_tierContains (tier : TradingLeverageTier) (product : ℕ) :
    Throws P (tierContains tier product) := by
  unfold tierContains
  apply (throws_quantum hP _).bind
  intro lower _
  split_ifs
  · exact throws_pure _
  · cases tier.upperBound with
    | none => exact throws_pure _
    | some upper => exact (throws_quantum hP upper).bind (fun _ _ => throws_pure _)

theorem throws_findTier (product index : ℕ) (tiers : List TradingLeverageTier) :
    Throws P (findTier product index tiers) := by
  induction tiers generalizing index with
  | nil => exact throws_pure _
  | cons tier tiers ih =>
    unfold findTier
    apply (throws_tierContains hP tier product).bind
    intro found _
    cases found with
    | true => exact throws_pure _
    | false => exact ih (index + 1)

theorem throws_findTierForQuantity (tiers : List TradingLeverageTier)
    (quantity markPrice : String) :
    Throws P (findTierForQuantity tiers quantity markPrice) := by
  unfold findTierForQuantity
  apply (throws_decimal hP _ true).bind
  intro left _
  apply (throws_quantum hP _).bind
  intro leftUnits _
  apply (throws_decimal hP _ true).bind
  intro right _
  apply (throws_quantum hP _).bind
  intro rightUnits _
  exact throws_findTier hP _ _ _

omit hP in
theorem throws_requireTier {condition : Prop} [Decidable condition] {reason : String}
    (h : P (leverageTierError reason)) : Throws P (requireTier condition reason) :=
  throws_throwIf h

end Errors

theorem withinBound_error (message : String) : WithinBound (.error message) := by
  intro h
  have hcode := congrArg Thrown.code h
  cases hcode

theorem withinBound_tier {reason : String}
    (h : reason ≠ "Leverage tier solver exceeded its monotone bound.") :
    WithinBound (leverageTierError reason) :=
  fun heq => h (congrArg Thrown.message heq)

theorem throws_validateTiers {lower : String} {previousLeverage : ℤ}
    (tiers : List TradingLeverageTier) :
    Throws WithinBound (validateTiers lower previousLeverage tiers) := by
  induction tiers generalizing lower previousLeverage with
  | nil => exact throws_pure _
  | cons tier tiers ih =>
    unfold validateTiers
    apply (throws_decimal withinBound_error _ _).bind
    intro first _
    apply (throws_requireTier (withinBound_tier (by decide))).bind
    intro _ _
    apply (throws_requireTier (withinBound_tier (by decide))).bind
    intro _ _
    cases tier.upperBound with
    | none => exact (throws_requireTier (withinBound_tier (by decide))).bind (fun _ _ => ih)
    | some bound =>
      apply (throws_decimal withinBound_error _ _).bind
      intro upper _
      apply (throws_compareDecimal withinBound_error _ _).bind
      intro order _
      exact (throws_requireTier (withinBound_tier (by decide))).bind (fun _ _ => ih)

section Bound

variable {tiers : List TradingLeverageTier} {tier : TradingLeverageTier} {leverage : ℤ}
variable {markPrice : String} {quantityForLeverage : ℤ → Outcome String} {rounds : ℕ}
  {result : TierSizing}

def tiersBelow (tiers : List TradingLeverageTier) (leverage : ℤ) : ℕ :=
  tiers.countP (fun tier => tier.maxLeverage < leverage)

theorem tiersBelow_retry (htier : tier ∈ tiers) (hlt : tier.maxLeverage < leverage) :
    tiersBelow tiers tier.maxLeverage < tiersBelow tiers leverage := by
  unfold tiersBelow
  induction tiers with
  | nil => cases htier
  | cons other tiers ih =>
    have hmono : tiers.countP (fun t => t.maxLeverage < tier.maxLeverage) ≤
        tiers.countP (fun t => t.maxLeverage < leverage) := by
      apply List.countP_mono_left
      intro t _ ht
      exact decide_eq_true ((of_decide_eq_true ht).trans hlt)
    simp only [List.countP_cons, decide_eq_true_eq]
    rcases List.mem_cons.mp htier with rfl | hmem
    · rw [if_neg (lt_irrefl _), if_pos hlt]
      omega
    · have hrest := ih hmem
      split_ifs <;> omega

theorem solveRounds_bounded
    (hsizes : ∀ leverage, ∃ quantity, quantityForLeverage leverage = .ok quantity)
    (hrounds : tiersBelow tiers leverage < rounds) :
    Throws WithinBound (solveRounds tiers markPrice quantityForLeverage rounds leverage) := by
  induction rounds generalizing leverage with
  | zero => exact absurd hrounds (Nat.not_lt_zero _)
  | succ rounds ih =>
    obtain ⟨raw, hraw⟩ := hsizes leverage
    unfold solveRounds
    rw [hraw, ok_bind]
    apply (throws_decimal withinBound_error _ _).bind
    intro quantity _
    apply (throws_findTierForQuantity withinBound_error _ _ _).bind
    intro tierIndex _
    cases hfound : tiers[tierIndex.getD (tiers.length - 1)]? with
    | none => exact throws_error (withinBound_tier (by decide))
    | some tier =>
      dsimp only
      apply (throws_requireTier (withinBound_tier (by decide))).bind
      intro _ _
      split_ifs with hle
      · exact throws_pure _
      · have hretry := tiersBelow_retry (List.mem_of_getElem? hfound) (not_le.mp hle)
        exact ih (by omega)

theorem solveTierQuantity_bounded (evidence : TradingLeverageTierEvidence) (requested : ℤ)
    (hsizes : ∀ leverage, ∃ quantity, quantityForLeverage leverage = .ok quantity) :
    Throws WithinBound (solveTierQuantity evidence requested quantityForLeverage) := by
  unfold solveTierQuantity validateTierTable
  apply Throws.bind
  · exact (throws_requireTier (withinBound_tier (by decide))).bind
      (fun _ _ => throws_validateTiers evidence.tiers)
  intro _ _
  apply (throws_decimal withinBound_error _ _).bind
  intro contractSize _
  apply (throws_requireTier (withinBound_tier (by decide))).bind
  intro _ _
  cases evidence.tiers[0]? with
  | none => exact throws_error (withinBound_tier (by decide))
  | some first =>
    exact solveRounds_bounded hsizes (Nat.lt_succ_of_le List.countP_le_length)

theorem solveRounds_le
    (h : solveRounds tiers markPrice quantityForLeverage rounds leverage = .ok result) :
    result.leverage ≤ leverage := by
  induction rounds generalizing leverage with
  | zero => cases h
  | succ rounds ih =>
    simp only [solveRounds, bind_eq_ok] at h
    obtain ⟨raw, -, quantity, -, tierIndex, -, h⟩ := h
    split at h
    · cases h
    · simp only [bind_eq_ok] at h
      obtain ⟨-, -, h⟩ := h
      split_ifs at h with hle
      · cases h
        exact le_rfl
      · exact (ih h).trans (not_le.mp hle).le

end Bound

/-- The untruncated product of two decimals, in quanta of `10 ^ -36`, lies in the tier. -/
structure InRange (tier : TradingLeverageTier) (product : ℕ) : Prop where
  lower : ∃ l, Reads tier.lowerBound l ∧ l * 10 ^ 18 ≤ product
  upper : ∀ bound, tier.upperBound = some bound → ∃ u, Reads bound u ∧ product < u * 10 ^ 18

section Ranges

variable {tiers : List TradingLeverageTier} {tier tier' : TradingLeverageTier}
  {product index i j : ℕ}

theorem inRange_of_tierContains (h : tierContains tier product = .ok true) :
    InRange tier product := by
  simp only [tierContains, bind_eq_ok, quantum_ok_iff] at h
  obtain ⟨l, hl, h⟩ := h
  split_ifs at h with hlow
  · cases h
  · refine ⟨⟨l, hl, not_lt.mp hlow⟩, ?_⟩
    intro bound hbound
    rw [hbound] at h
    simp only [bind_eq_ok, quantum_ok_iff, pure_eq_ok_iff, decide_eq_true_eq] at h
    exact h

theorem findTier_inRange (h : findTier product index tiers = .ok (some i)) :
    index ≤ i ∧ ∃ tier, tiers[i - index]? = some tier ∧ InRange tier product := by
  induction tiers generalizing index with
  | nil => cases h
  | cons tier tiers ih =>
    simp only [findTier, bind_eq_ok] at h
    obtain ⟨found, hfound, h⟩ := h
    cases found with
    | true =>
      cases h
      refine ⟨le_rfl, tier, ?_, inRange_of_tierContains hfound⟩
      rw [Nat.sub_self]
      rfl
    | false =>
      obtain ⟨hle, tier', htier, hrange⟩ := ih h
      refine ⟨by omega, tier', ?_, hrange⟩
      rw [show i - index = i - (index + 1) + 1 by omega, List.getElem?_cons_succ]
      exact htier

/-- Each tier of a validated table starts at or above the upper bound of those before it. -/
theorem validateTiers_ordered {lower : String} {previousLeverage : ℤ} {l : ℕ}
    (hlower : Reads lower l)
    (h : validateTiers lower previousLeverage tiers = .ok ()) :
    (∀ tier ∈ tiers, ∀ u, Reads tier.lowerBound u → l ≤ u) ∧
      tiers.Pairwise (fun a b => ∃ bound u, a.upperBound = some bound ∧ Reads bound u ∧
        ∀ v, Reads b.lowerBound v → u ≤ v) := by
  induction tiers generalizing lower previousLeverage l with
  | nil => exact ⟨by simp, .nil⟩
  | cons tier tiers ih =>
    simp only [validateTiers, bind_eq_ok, requireTier_eq_ok, decimal_ok_iff] at h
    obtain ⟨_, ⟨first, hfirst, rfl⟩, -, hstart, -, -, h⟩ := h
    have hbelow : ∀ u, Reads tier.lowerBound u → l ≤ u := by
      intro u hu
      obtain rfl := Denotes.unique hu hfirst
      rw [← hstart] at hlower
      exact (reads_text_iff.mp hlower).1.ge
    cases hbound : tier.upperBound with
    | none =>
      rw [hbound] at h
      simp only [bind_eq_ok, requireTier_eq_ok] at h
      obtain ⟨-, rfl, -⟩ := h
      exact ⟨by simpa using hbelow, List.pairwise_singleton _ _⟩
    | some bound =>
      rw [hbound] at h
      simp only [bind_eq_ok, requireTier_eq_ok, decimal_positive_ok_iff, compareDecimal_ok_iff] at h
      obtain ⟨_, ⟨u, hu, -, rfl⟩, _, ⟨u', l', hu', hl', rfl⟩, -, hpos, hrest⟩ := h
      obtain ⟨rfl, -⟩ := denotes_text_iff.mp hu'
      obtain rfl := Denotes.unique hl'.reads hlower
      obtain ⟨hlater, hordered⟩ := ih hu hrest
      have hlt := sign_pos_iff.mp hpos
      constructor
      · intro other hother v hv
        rcases List.mem_cons.mp hother with rfl | hmem
        · exact hbelow v hv
        · exact hlt.le.trans (hlater other hmem v hv)
      · apply List.Pairwise.cons _ hordered
        intro other hother
        exact ⟨bound, u, hbound, hu, hlater other hother⟩

theorem inRange_unique (h : validateTierTable tiers = .ok ()) (htier : tiers[i]? = some tier)
    (htier' : tiers[j]? = some tier') (hrange : InRange tier product)
    (hrange' : InRange tier' product) :
    i = j := by
  simp only [validateTierTable, bind_eq_ok] at h
  obtain ⟨-, -, h⟩ := h
  have hzero : Reads "0" 0 := by
    have htext := reads_text_iff.mpr ⟨rfl, show 0 < unitLimit by rw [unitLimit]; positivity⟩
    rwa [text_eq_zero.mpr rfl] at htext
  obtain ⟨-, hordered⟩ := validateTiers_ordered hzero h
  have happart : ∀ {i j : ℕ} {a b : TradingLeverageTier}, i < j → tiers[i]? = some a →
    tiers[j]? = some b →
      InRange a product → InRange b product → False := by
    intro i j a b hlt ha hb hina hinb
    obtain ⟨hi, rfl⟩ := List.getElem?_eq_some_iff.mp ha
    obtain ⟨hj, rfl⟩ := List.getElem?_eq_some_iff.mp hb
    obtain ⟨bound, u, hbound, hu, habove⟩ := List.pairwise_iff_getElem.mp hordered i j hi hj hlt
    obtain ⟨u', hu', hbelow⟩ := hina.upper bound hbound
    obtain ⟨l, hl, hstart⟩ := hinb.lower
    obtain rfl := Denotes.unique hu' hu
    have hle := Nat.mul_le_mul_right (10 ^ 18) (habove l hl)
    omega
  rcases lt_trichotomy i j with hlt | heq | hgt
  · exact (happart hlt htier htier' hrange hrange').elim
  · exact heq
  · exact (happart hgt htier' htier hrange' hrange).elim

end Ranges

/-- The solver never runs out of rounds, what it returns lies in the tier that it names at a
leverage which that tier allows, and no other tier of the table contains the product. -/
theorem tier_solver_sound (evidence : TradingLeverageTierEvidence) (requested : ℤ)
    (quantityForLeverage : ℤ → Outcome String)
    (hsizes : ∀ leverage, ∃ raw u, quantityForLeverage leverage = .ok raw ∧ Reads raw u ∧ 0 < u) :
    solveTierQuantity evidence requested quantityForLeverage ≠ .error monotoneBoundExceeded ∧
    (∀ result, solveTierQuantity evidence requested quantityForLeverage = .ok result →
      ∃ raw q p tier, quantityForLeverage result.leverage = .ok raw ∧ Reads raw q ∧
        result.quantity = text q ∧ result.leverage ≤ min requested 50 ∧ Reads evidence.markPrice p ∧
        evidence.tiers[result.tierIndex]? = some tier ∧ InRange tier (q * p) ∧
        result.leverage ≤ tier.maxLeverage) ∧
    (validateTierTable evidence.tiers = .ok () →
      ∀ (product i j : ℕ) (tier tier' : TradingLeverageTier),
      evidence.tiers[i]? = some tier → evidence.tiers[j]? = some tier' → InRange tier product →
        InRange tier' product → i = j) := by
  refine ⟨?_, ?_, ?_⟩
  · intro h
    exact solveTierQuantity_bounded evidence requested
      (fun leverage => ⟨_, (hsizes leverage).choose_spec.choose_spec.1⟩) _ h rfl
  · intro result h
    obtain ⟨⟨raw, hraw, hqty⟩, hlocated, tier, htier, hallowed⟩ := solveTierQuantity_solved h
    obtain ⟨q, hq, -, htext⟩ := decimal_positive_ok_iff.mp hqty
    simp only [findTierForQuantity, bind_eq_ok, quantum_ok_iff, decimal_positive_ok_iff] at hlocated
    obtain ⟨_, ⟨q', hq', -, rfl⟩, left, hleft, _, ⟨p, hp, -, rfl⟩, right, hright, hfind⟩ := hlocated
    obtain ⟨rfl, -⟩ := reads_text_iff.mp hleft
    obtain ⟨rfl, -⟩ := reads_text_iff.mp hright
    rw [← htext] at hq'
    obtain ⟨rfl, -⟩ := reads_text_iff.mp hq'
    obtain ⟨-, found, hfound, hrange⟩ := findTier_inRange hfind
    rw [Nat.sub_zero, htier] at hfound
    obtain rfl := Option.some.inj hfound
    refine ⟨raw, _, _, tier, hraw, hq, htext.symm, ?_, hp, htier, hrange, hallowed⟩
    simp only [solveTierQuantity, bind_eq_ok] at h
    obtain ⟨-, -, -, -, -, -, h⟩ := h
    split at h
    · cases h
    · exact (solveRounds_le h).trans (min_le_left _ _)
  · intro hvalid product i j tier tier' htier htier' hrange hrange'
    exact inRange_unique hvalid htier htier' hrange hrange'

def twoTiers : TradingLeverageTierEvidence where
  exchange := "bybit"
  symbol := "BTCUSDT"
  providerSymbol := "BTC/USDT:USDT"
  accountFingerprint := "fingerprint"
  credentialGeneration := "generation"
  ccxtVersion := "4"
  profileHash := "profile"
  source := "markets"
  currency := "USDT"
  contractSize := "0.001"
  markPrice := "100"
  tiers := [⟨"0", some "1000", 50⟩, ⟨"1000", none, 10⟩]

def sizedByLeverage (leverage : ℤ) : Outcome String :=
  .ok (if leverage = 50 then "25" else "5")

/-- The position sized at leverage 50 falls into the second tier, the one at 10 into the first. -/
theorem tier_solver_sound_retry :
    solveTierQuantity twoTiers 50 sizedByLeverage = .ok ⟨10, "5", 0⟩ ∧
      ∃ q p tier, Reads "5" q ∧ Reads "100" p ∧ twoTiers.tiers[0]? = some tier ∧
        InRange tier (q * p) := by
  have hsolve : solveTierQuantity twoTiers 50 sizedByLeverage = .ok ⟨10, "5", 0⟩ := by
    decide +kernel
  have hsizes : ∀ leverage, ∃ raw u, sizedByLeverage leverage = .ok raw ∧ Reads raw u ∧ 0 < u := by
    intro leverage
    by_cases hfull : leverage = 50
    · have hparse : parse "25" = .ok ⟨25, 0⟩ := by decide +kernel
      exact ⟨"25", _, by rw [sizedByLeverage, if_pos hfull],
        Denotes.reads ⟨_, hparse, rfl⟩, by decide⟩
    · have hparse : parse "5" = .ok ⟨5, 0⟩ := by decide +kernel
      exact ⟨"5", _, by rw [sizedByLeverage, if_neg hfull],
        Denotes.reads ⟨_, hparse, rfl⟩, by decide⟩
  obtain ⟨-, hsound, -⟩ := tier_solver_sound twoTiers 50 sizedByLeverage hsizes
  obtain ⟨raw, q, p, tier, hraw, hq, -, -, hp, htier, hrange, -⟩ := hsound _ hsolve
  obtain rfl : "5" = raw := Except.ok.inj hraw
  exact ⟨hsolve, q, p, tier, hq, hp, htier, hrange⟩

end TsxCore.TradingLeverageTiers
