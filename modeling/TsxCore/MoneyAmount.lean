import TsxCore.TradingMoneyValue
import TsxCore.RationalValue

/-!
# Money values as enclosures

An accepted money value is either a known rational with its outward decimal
bounds, or a proper interval of quanta that is no wider than its number of
terms. Addition and negation of accepted values are the operations on these
enclosures, and they stay accepted as long as the bounds fit 36 integer digits
and the number of terms is a safe integer.
-/

namespace TsxCore.TradingMoneyValue

open Outcome TradingDecimal TradingRational Numeral

inductive Amount
  | exact (value : ℚ) (terms : ℕ)
  | bounded (lower upper : ℤ) (terms : ℕ)

namespace Amount

def lower : Amount → ℤ
  | exact q _ => ⌊q * 10 ^ 18⌋
  | bounded l _ _ => l

def upper : Amount → ℤ
  | exact q _ => ⌈q * 10 ^ 18⌉
  | bounded _ u _ => u

def terms : Amount → ℕ
  | exact _ t => t
  | bounded _ _ t => t

def Possible : Amount → ℚ → Prop
  | exact q _, v => v = q
  | bounded l u _, v => unitValue l ≤ v ∧ v ≤ unitValue u

structure InRange (a : Amount) : Prop where
  terms_le : a.terms ≤ maxSafeInteger
  lower_lt : a.lower.natAbs < unitLimit
  upper_lt : a.upper.natAbs < unitLimit

def WellFormed : Amount → Prop
  | exact q t => Fits q ∧ (t = 0 → q = 0)
  | bounded l u t => 2 ≤ t ∧ l < u ∧ u - l ≤ t

structure Valid (a : Amount) : Prop extends InRange a where
  wellFormed : a.WellFormed

def money : Amount → MoneyValue
  | exact q t =>
    { lower := signedText ⌊q * 10 ^ 18⌋
      upper := signedText ⌈q * 10 ^ 18⌉
      exact := some (rationalText q)
      decimal := if ⌊q * 10 ^ 18⌋ == ⌈q * 10 ^ 18⌉ then some (signedText ⌊q * 10 ^ 18⌋) else none
      precision := if ⌊q * 10 ^ 18⌋ == ⌈q * 10 ^ 18⌉ then .exactDecimal else .exactRational
      terms := t }
  | bounded l u t => ⟨signedText l, signedText u, none, none, .bounded, t⟩

@[simp] theorem money_lower (a : Amount) : a.money.lower = signedText a.lower := by
  cases a <;> rfl

@[simp] theorem money_upper (a : Amount) : a.money.upper = signedText a.upper := by
  cases a <;> rfl

@[simp] theorem money_terms (a : Amount) : a.money.terms = a.terms := by
  cases a <;> rfl

end Amount

/-- The values a money value leaves open: its exact value, or anything within its bounds. -/
def PossibleValue (m : MoneyValue) (v : ℚ) : Prop :=
  match m.exact with
  | some r => Represents r v
  | none => ∃ l u, ReadsSigned m.lower l ∧ ReadsSigned m.upper u ∧ unitValue l ≤ v ∧ v ≤ unitValue u

theorem Amount.Valid.possibleValue_iff {a : Amount} (ha : a.Valid) (v : ℚ) :
    PossibleValue a.money v ↔ a.Possible v := by
  cases a with
  | exact q t =>
    simp only [PossibleValue, Amount.money, Amount.Possible, represents_rationalText_iff]
    exact ⟨fun h => h.1.symm, fun h => ⟨h.symm, ha.wellFormed.1⟩⟩
  | bounded l u t =>
    simp only [PossibleValue, Amount.money, Amount.Possible, readsSigned_signedText_iff]
    refine ⟨?_, fun h => ⟨l, u, ⟨rfl, ha.lower_lt⟩, ⟨rfl, ha.upper_lt⟩, h⟩⟩
    intro h
    obtain ⟨_, _, ⟨rfl, -⟩, ⟨rfl, -⟩, hv⟩ := h
    exact hv

section Validation

theorem canonicalDecimal_ok_iff {s t : String} :
    canonicalDecimal s = .ok t ↔ ∃ i : ℤ, i.natAbs < unitLimit ∧ signedText i = s ∧ s = t := by
  simp only [canonicalDecimal, bind_eq_ok, throwIf_eq_ok, pure_eq_ok_iff, not_not,
    signedDecimal_ok_iff]
  refine ⟨?_, ?_⟩
  · intro h
    obtain ⟨_, ⟨i, hi, rfl⟩, -, rfl, rfl⟩ := h
    exact ⟨i, hi.lt, rfl, rfl⟩
  · intro h
    obtain ⟨i, hi, rfl, rfl⟩ := h
    exact ⟨_, ⟨i, readsSigned_signedText_iff.mpr ⟨rfl, hi⟩, rfl⟩, (), rfl, rfl⟩

theorem canonicalDecimal_signedText {i : ℤ} (hi : i.natAbs < unitLimit) :
    canonicalDecimal (signedText i) = .ok (signedText i) :=
  canonicalDecimal_ok_iff.mpr ⟨i, hi, rfl, rfl⟩

theorem decimalUnits_signedText (i : ℤ) : decimalUnits (signedText i) = i := by
  obtain ⟨c, k, hk, hc, hint, hfrac⟩ := signedText_parts i
  have hhead : (Nat.toDigits 10 (c / 10 ^ k) ++
      (fixedDigits k c ++ List.replicate (18 - k) '0')).head? ≠ some '-' := by
    rw [List.head?_append_of_ne_nil _ Nat.toDigits_ne_nil]
    exact head_toDigits_ne_minus _
  rw [decimalUnits, hint, hfrac, List.rightpad, length_fixedDigits, List.append_assoc,
    bigint_digits _ _ hhead, ← List.append_assoc, Nat.ofDigitChars_append, ofDigitChars_split,
    ofDigitChars_zeros, hc, signedUnits_natAbs]

theorem checkedTerms_ok_iff {v w : ℤ} :
    checkedTerms v = .ok w ↔ ∃ n : ℕ, n ≤ maxSafeInteger ∧ (n : ℤ) = v ∧ v = w := by
  simp only [checkedTerms, bind_eq_ok, throwIf_eq_ok, pure_eq_ok_iff]
  refine ⟨?_, ?_⟩
  · intro h
    obtain ⟨-, hv, rfl⟩ := h
    exact ⟨v.toNat, by omega, by omega, rfl⟩
  · intro h
    obtain ⟨n, hn, rfl, rfl⟩ := h
    exact ⟨(), by omega, rfl⟩

theorem checkedTerms_of_le {n : ℕ} (hn : n ≤ maxSafeInteger) : checkedTerms n = .ok (n : ℤ) :=
  checkedTerms_ok_iff.mpr ⟨n, hn, rfl, rfl⟩

theorem exactFraction_canonical_ok_iff {r s : ExactRational} :
    exactFraction r true = .ok s ↔ ∃ q, Fits q ∧ rationalText q = r ∧ r = s := by
  simp only [exactFraction, bind_eq_ok, throwIf_eq_ok, pure_eq_ok_iff, rational_ok_iff, true_and,
    not_or, not_not]
  refine ⟨?_, ?_⟩
  · intro h
    obtain ⟨t, ⟨q, -, hfit, rfl⟩, -, ⟨hn, hd⟩, rfl⟩ := h
    have heq : rationalText q = r := by
      cases r
      exact ExactRational.mk.injEq .. |>.mpr ⟨hn, hd⟩
    exact ⟨q, hfit, heq, heq.symm⟩
  · intro h
    obtain ⟨q, hfit, rfl, rfl⟩ := h
    exact ⟨_, ⟨q, represents_rationalText hfit, hfit, rfl⟩, (), ⟨rfl, rfl⟩, rfl⟩

theorem exactValue_ok_iff {q : ℚ} (hq : Fits q) {t : ℕ} {m : MoneyValue} :
    exactValue (rationalText q) t = .ok m ↔ (Amount.exact q t).lower.natAbs < unitLimit ∧
      (Amount.exact q t).upper.natAbs < unitLimit ∧ (Amount.exact q t).money = m := by
  simp only [exactValue, bind_eq_ok, pure_eq_ok_iff, rationalDecimalBounds_ok_iff,
    represents_rationalText_iff, Amount.lower, Amount.upper]
  refine ⟨?_, ?_⟩
  · intro h
    obtain ⟨_, ⟨_, ⟨rfl, -⟩, hlo, hup, rfl⟩, rfl⟩ := h
    exact ⟨hlo, hup, rfl⟩
  · intro h
    obtain ⟨hlo, hup, rfl⟩ := h
    exact ⟨_, ⟨q, ⟨rfl, hq⟩, hlo, hup, rfl⟩, rfl⟩

theorem exactValue_error {q : ℚ} (hq : Fits q) {t : ℤ} {e : Thrown}
    (h : exactValue (rationalText q) t = .error e) : Oversized e := by
  rw [exactValue, bind_eq_error] at h
  rcases h with h | ⟨_, -, h⟩
  · exact rationalDecimalBounds_error (represents_rationalText hq) h
  · cases h

theorem validateMoneyValue_ok_iff {m r : MoneyValue} :
    validateMoneyValue m = .ok r ↔ ∃ a : Amount, a.Valid ∧ a.money = m ∧ m = r := by
  refine ⟨?_, ?_⟩
  · intro h
    simp only [validateMoneyValue, bind_eq_ok, canonicalDecimal_ok_iff, checkedTerms_ok_iff] at h
    obtain ⟨_, ⟨l, hl, hlower, rfl⟩, _, ⟨u, hu, hupper, rfl⟩, _, ⟨n, hn, hterms, rfl⟩, h⟩ := h
    obtain ⟨lower, upper, fraction, decimal, precision, terms⟩ := m
    dsimp only at hlower hupper hterms h
    subst hlower hupper hterms
    cases fraction with
    | some f =>
      simp only [validateExact, bind_eq_ok, throwIf_eq_ok, pure_eq_ok_iff,
        exactFraction_canonical_ok_iff] at h
      obtain ⟨_, ⟨q, hfit, rfl, rfl⟩, s, hs, -, hsame, -, hzero, rfl⟩ := h
      obtain ⟨hlo, hup, rfl⟩ := (exactValue_ok_iff hfit).mp hs
      simp only [not_or, not_not, Amount.money] at hsame
      obtain ⟨hl', hu', rfl, rfl⟩ := hsame
      refine ⟨.exact q n, ⟨⟨hn, hlo, hup⟩, hfit, ?_⟩, ?_, ?_⟩
      · intro hz
        simp only [hz, Nat.cast_zero, true_and, not_not, rationalText] at hzero
        have := congrArg bigint hzero
        rw [bigint_bigintText] at this
        exact Rat.num_eq_zero.mp this
      · simp only [Amount.money, hl', hu']
      · simp only [Amount.money, hl', hu']
    | none =>
      simp only [bind_eq_ok, throwIf_eq_ok, pure_eq_ok_iff, not_or, not_not, not_lt, not_le,
        decimalUnits_signedText] at h
      obtain ⟨-, ⟨rfl, rfl, htwo, hpos, hwidth⟩, rfl⟩ := h
      exact ⟨.bounded l u n, ⟨⟨hn, hl, hu⟩, by exact_mod_cast htwo, by omega, hwidth⟩, rfl, rfl⟩
  · intro h
    obtain ⟨a, ha, rfl, rfl⟩ := h
    rw [validateMoneyValue, Amount.money_lower, Amount.money_upper, Amount.money_terms,
      canonicalDecimal_signedText ha.lower_lt, ok_bind, canonicalDecimal_signedText ha.upper_lt,
      ok_bind, checkedTerms_of_le ha.terms_le, ok_bind]
    cases a with
    | exact q n =>
      obtain ⟨hfit, hzero⟩ := ha.wellFormed
      have hvalue := (exactValue_ok_iff hfit).mpr ⟨ha.lower_lt, ha.upper_lt, rfl⟩
      have hfraction := exactFraction_canonical_ok_iff.mpr ⟨q, hfit, rfl, rfl⟩
      have hnum : ¬ ((n : ℤ) = 0 ∧ (rationalText q).numerator ≠ "0") := by
        intro hbad
        rw [hzero (by exact_mod_cast hbad.1)] at hbad
        exact hbad.2 rfl
      simp only [Amount.money, Amount.terms] at hvalue ⊢
      rw [validateExact, hfraction, ok_bind, hvalue, ok_bind,
        throwIf_of_not (by simp [Amount.lower, Amount.upper]), ok_bind, throwIf_of_not hnum,
        ok_bind]
      rfl
    | bounded l u n =>
      obtain ⟨htwo, hlt, hwidth⟩ := ha.wellFormed
      have hcheck : ¬ (Precision.bounded ≠ .bounded ∨ (none : Option String) ≠ none ∨ (n : ℤ) < 2 ∨
          u - l ≤ 0 ∨ (n : ℤ) < u - l) := by
        simp only [ne_eq, not_true_eq_false, false_or, not_or]
        omega
      simp only [Amount.money, Amount.lower, Amount.upper, Amount.terms, decimalUnits_signedText]
      rw [throwIf_of_not hcheck, ok_bind]
      rfl

theorem Amount.Valid.validate {a : Amount} (ha : a.Valid) :
    validateMoneyValue a.money = .ok a.money :=
  validateMoneyValue_ok_iff.mpr ⟨a, ha, rfl, rfl⟩

end Validation

section Operations

instance (q : ℚ) : Decidable (Fits q) := inferInstanceAs (Decidable (_ ∧ _))

theorem length_bigintText_natCast (n : ℕ) : 256 < (bigintText n).length ↔ digitLimit ≤ n := by
  rw [← String.length_toList, toList_bigintText, if_neg (by omega), Int.natAbs_natCast,
    ← not_le, Nat.length_toDigits_le_iff (by omega) (by omega), not_lt, digitLimit]

theorem exceedsRationalLimit_eq {p q : ℚ} :
    exceedsRationalLimit (rationalText p) (rationalText q) = decide (¬ Fits (p + q)) := by
  obtain ⟨hsum, hpos⟩ := cross_sum (a := p.num) (c := q.num) (b := p.den) (d := q.den)
    (by exact_mod_cast p.den_pos) (by exact_mod_cast q.den_pos)
  have hvalue : (p.num : ℚ) / ((p.den : ℤ) : ℚ) + (q.num : ℚ) / ((q.den : ℤ) : ℚ) = p + q := by
    rw [Int.cast_natCast, Int.cast_natCast, Rat.num_div_den, Rat.num_div_den]
  rw [hvalue] at hsum
  simp only [exceedsRationalLimit, rationalText, bigint_bigintText, gcd]
  generalize hn : p.num * (q.den : ℤ).tdiv (TradingRational.gcd p.den q.den) +
    q.num * (p.den : ℤ).tdiv (TradingRational.gcd p.den q.den) = n at hsum ⊢
  generalize hd : (p.den : ℤ) * (q.den : ℤ).tdiv (TradingRational.gcd p.den q.den) =
    d at hsum hpos ⊢
  obtain ⟨hnum, hden⟩ := reduce_num_den (a := n) hpos
  rw [hsum] at hnum hden
  have hmagnitude : (if n < 0 then -n else n).tdiv (TradingRational.gcd n d) =
      (((p + q).num.natAbs : ℕ) : ℤ) := by
    have habs : (if n < 0 then -n else n) = |n| := by
      split_ifs with hneg
      · rw [abs_of_neg hneg]
      · rw [abs_of_nonneg (not_lt.mp hneg)]
    rw [gcd_eq, habs, hnum, Int.natAbs_tdiv, Int.abs_eq_natAbs]
    rfl
  rw [hmagnitude, gcd_eq, ← hden, Bool.eq_iff_iff]
  simp only [Bool.or_eq_true, decide_eq_true_eq, length_bigintText_natCast, Fits,
    not_and_or, not_lt]

def Amount.sumBounds (a b : Amount) : Amount :=
  .bounded (a.lower + b.lower) (a.upper + b.upper) (a.terms + b.terms)

/-- Sum of enclosures: exact while the reduced sum fits, else the sum of the bounds. -/
def Amount.add : Amount → Amount → Amount
  | .exact p s, .exact q t =>
    if Fits (p + q) then .exact (p + q) (s + t) else (Amount.exact p s).sumBounds (.exact q t)
  | a, b => a.sumBounds b

def Amount.negate : Amount → Amount
  | .exact q t => .exact (-q) t
  | .bounded l u t => .bounded (-u) (-l) t

namespace Amount

variable {a b : Amount}

@[simp] theorem terms_add : (a.add b).terms = a.terms + b.terms := by
  cases a <;> cases b <;> simp only [add, terms, sumBounds]
  split_ifs <;> rfl

@[simp] theorem lower_sumBounds : (a.sumBounds b).lower = a.lower + b.lower := rfl

@[simp] theorem upper_sumBounds : (a.sumBounds b).upper = a.upper + b.upper := rfl

@[simp] theorem terms_sumBounds : (a.sumBounds b).terms = a.terms + b.terms := rfl

@[simp] theorem terms_negate : a.negate.terms = a.terms := by
  cases a <;> rfl

@[simp] theorem lower_negate : a.negate.lower = -a.upper := by
  cases a with
  | exact q t => rw [negate, lower, neg_mul, Int.floor_neg, upper]
  | bounded l u t => rfl

@[simp] theorem upper_negate : a.negate.upper = -a.lower := by
  cases a with
  | exact q t => rw [negate, upper, neg_mul, Int.ceil_neg, lower]
  | bounded l u t => rfl

theorem lower_le_upper (ha : a.Valid) : a.lower ≤ a.upper := by
  cases a with
  | exact q t => exact Int.floor_le_ceil _
  | bounded l u t => exact ha.wellFormed.2.1.le

theorem width_le_terms (ha : a.Valid) : a.upper - a.lower ≤ a.terms := by
  cases a with
  | exact q t =>
    rcases Nat.eq_zero_or_pos t with rfl | ht
    · simp [lower, upper, terms, ha.wellFormed.2 rfl]
    · have hceil := Int.ceil_le_floor_add_one (q * 10 ^ 18)
      simp only [lower, upper, terms]
      omega
  | bounded l u t => exact ha.wellFormed.2.2

theorem eq_unitValue_of_width {q : ℚ} (h : ⌈q * 10 ^ 18⌉ = ⌊q * 10 ^ 18⌋) :
    q = unitValue ⌊q * 10 ^ 18⌋ := by
  have hle := Int.le_ceil (q * 10 ^ 18)
  have hge := Int.floor_le (q * 10 ^ 18)
  rw [h] at hle
  rw [unitValue, le_antisymm hge hle]
  field_simp

theorem add_cases (a b : Amount) :
    (∃ p s q t, a = exact p s ∧ b = exact q t ∧ Fits (p + q) ∧ a.add b = exact (p + q) (s + t)) ∨
      (a.add b = a.sumBounds b ∧ ∀ p s q t, a = exact p s → b = exact q t → ¬ Fits (p + q)) := by
  cases a with
  | exact p s =>
    cases b with
    | exact q t =>
      by_cases hfit : Fits (p + q)
      · exact .inl ⟨p, s, q, t, rfl, rfl, hfit, if_pos hfit⟩
      · refine .inr ⟨if_neg hfit, ?_⟩
        intro p' s' q' t' hp hq
        cases hp
        cases hq
        exact hfit
    | bounded l u t => exact .inr ⟨rfl, fun _ _ _ _ _ h => by cases h⟩
  | bounded l u t => exact .inr ⟨rfl, fun _ _ _ _ h => by cases h⟩

/-- Once exactness is lost the summed bounds form a proper interval within the term count. -/
theorem sumBounds_wellFormed (ha : a.Valid) (hb : b.Valid)
    (hlost : ∀ p s q t, a = exact p s → b = exact q t → ¬ Fits (p + q)) :
    (a.sumBounds b).WellFormed := by
  have hwa := width_le_terms ha
  have hwb := width_le_terms hb
  have hla := lower_le_upper ha
  have hlb := lower_le_upper hb
  have hproper : 2 ≤ a.terms + b.terms ∧ a.lower + b.lower < a.upper + b.upper := by
    cases a with
    | bounded l u t =>
      obtain ⟨htwo, hlt, -⟩ := ha.wellFormed
      simp only [terms, lower, upper] at hlb ⊢
      exact ⟨by omega, by omega⟩
    | exact p s =>
      cases b with
      | bounded l u t =>
        obtain ⟨htwo, hlt, -⟩ := hb.wellFormed
        simp only [terms, lower, upper] at hla ⊢
        exact ⟨by omega, by omega⟩
      | exact q t =>
        have hnot := hlost p s q t rfl rfl
        have hs : s ≠ 0 := by
          intro hz
          rw [ha.wellFormed.2 hz, zero_add] at hnot
          exact hnot hb.wellFormed.1
        have ht : t ≠ 0 := by
          intro hz
          rw [hb.wellFormed.2 hz, add_zero] at hnot
          exact hnot ha.wellFormed.1
        refine ⟨by simp only [terms]; omega, ?_⟩
        by_contra hle
        have hp := eq_unitValue_of_width (q := p) (by simp only [lower, upper] at *; omega)
        have hq := eq_unitValue_of_width (q := q) (by simp only [lower, upper] at *; omega)
        have hsum : p + q = unitValue (⌊p * 10 ^ 18⌋ + ⌊q * 10 ^ 18⌋) := by
          rw [unitValue, Int.cast_add, add_div, ← unitValue, ← unitValue, ← hp, ← hq]
        have hlp := ha.lower_lt
        have hlq := hb.lower_lt
        simp only [lower] at hlp hlq
        rw [hsum] at hnot
        exact hnot (fits_unitValue (by omega))
  exact ⟨hproper.1, hproper.2, by push_cast; omega⟩

theorem add_wellFormed (ha : a.Valid) (hb : b.Valid) : (a.add b).WellFormed := by
  rcases add_cases a b with ⟨p, s, q, t, rfl, rfl, hfit, hadd⟩ | ⟨hadd, hlost⟩
  · rw [hadd]
    refine ⟨hfit, ?_⟩
    intro hz
    rw [ha.wellFormed.2 (by omega), hb.wellFormed.2 (by omega), add_zero]
  · rw [hadd]
    exact sumBounds_wellFormed ha hb hlost

theorem negate_valid (ha : a.Valid) : a.negate.Valid := by
  refine ⟨⟨?_, ?_, ?_⟩, ?_⟩
  · rw [terms_negate]
    exact ha.terms_le
  · rw [lower_negate, Int.natAbs_neg]
    exact ha.upper_lt
  · rw [upper_negate, Int.natAbs_neg]
    exact ha.lower_lt
  · cases a with
    | exact q t =>
      obtain ⟨hfit, hzero⟩ := ha.wellFormed
      refine ⟨?_, fun hz => by rw [hzero hz, neg_zero]⟩
      rw [Fits, Rat.num_neg_eq_neg_num, Rat.den_neg_eq_den, Int.natAbs_neg]
      exact hfit
    | bounded l u t =>
      obtain ⟨htwo, hlt, hwidth⟩ := ha.wellFormed
      exact ⟨htwo, by omega, by omega⟩

theorem possible_bounds (ha : a.Valid) {v : ℚ} (hv : a.Possible v) :
    unitValue a.lower ≤ v ∧ v ≤ unitValue a.upper := by
  cases a with
  | exact q t =>
    have hq : v = q := hv
    rw [unitValue, unitValue, div_le_iff₀ (by positivity), le_div_iff₀ (by positivity), hq]
    exact ⟨Int.floor_le _, Int.le_ceil _⟩
  | bounded l u t => exact hv

theorem possible_add (ha : a.Valid) (hb : b.Valid) {v w : ℚ} (hv : a.Possible v)
    (hw : b.Possible w) : (a.add b).Possible (v + w) := by
  rcases add_cases a b with ⟨p, s, q, t, rfl, rfl, -, hadd⟩ | ⟨hadd, -⟩
  · rw [hadd]
    exact congrArg₂ (· + ·) hv hw
  · rw [hadd]
    obtain ⟨hvl, hvu⟩ := possible_bounds ha hv
    obtain ⟨hwl, hwu⟩ := possible_bounds hb hw
    simp only [sumBounds, Possible, unitValue, Int.cast_add, add_div]
    exact ⟨add_le_add hvl hwl, add_le_add hvu hwu⟩

theorem possible_negate {v : ℚ} (hv : a.Possible v) : a.negate.Possible (-v) := by
  cases a with
  | exact q t => exact congrArg Neg.neg hv
  | bounded l u t =>
    obtain ⟨hl, hu⟩ := hv
    simp only [negate, Possible, unitValue, Int.cast_neg, neg_div]
    exact ⟨neg_le_neg hu, neg_le_neg hl⟩

end Amount

variable {a b : Amount}

theorem addMoneyValues_exact {p q : ℚ} {s t : ℕ} (ha : (Amount.exact p s).Valid)
    (hb : (Amount.exact q t).Valid) (hfit : Fits (p + q)) :
    addMoneyValues (Amount.exact p s).money (Amount.exact q t).money =
      (do exactValue (rationalText (p + q)) (← checkedTerms ((s + t : ℕ) : ℤ))) := by
  have hsum : addRational (rationalText p) (rationalText q) = .ok (rationalText (p + q)) :=
    addRational_ok_iff.mpr ⟨p, q, represents_rationalText ha.wellFormed.1,
      represents_rationalText hb.wellFormed.1, hfit, rfl⟩
  rw [addMoneyValues, ha.validate, ok_bind, hb.validate, ok_bind]
  simp only [Amount.money, exceedsRationalLimit_eq, hfit, not_true_eq_false, decide_false, if_true,
    hsum, ok_bind, Nat.cast_add]

theorem addMoneyValues_bounds (ha : a.Valid) (hb : b.Valid)
    (hlost : ∀ p s q t, a = .exact p s → b = .exact q t → ¬ Fits (p + q)) :
    addMoneyValues a.money b.money = (do
      let terms ← checkedTerms ((a.terms + b.terms : ℕ) : ℤ)
      validateMoneyValue ⟨signedText (a.lower + b.lower), signedText (a.upper + b.upper),
        none, none,
        .bounded, terms⟩) := by
  have hbounds : ∀ terms, addBounds a.money b.money terms = validateMoneyValue
      ⟨signedText (a.lower + b.lower), signedText (a.upper + b.upper), none, none, .bounded,
        terms⟩ := by
    intro terms
    rw [addBounds, Amount.money_lower, Amount.money_lower, Amount.money_upper, Amount.money_upper,
      addSignedDecimal_of_reads (readsSigned_signedText_iff.mpr ⟨rfl, ha.lower_lt⟩)
        (readsSigned_signedText_iff.mpr ⟨rfl, hb.lower_lt⟩), ok_bind,
      addSignedDecimal_of_reads (readsSigned_signedText_iff.mpr ⟨rfl, ha.upper_lt⟩)
        (readsSigned_signedText_iff.mpr ⟨rfl, hb.upper_lt⟩), ok_bind]
  rw [addMoneyValues, ha.validate, ok_bind, hb.validate, ok_bind, Amount.money_terms,
    Amount.money_terms, Nat.cast_add]
  apply bind_congr
  intro terms
  rw [← hbounds]
  cases a with
  | exact p s =>
    cases b with
    | exact q t =>
      simp only [Amount.money, exceedsRationalLimit_eq, hlost p s q t rfl rfl, not_false_eq_true,
        decide_true, Bool.true_eq_false, if_false]
    | bounded l u t => rfl
  | bounded l u t => rfl

theorem addMoneyValues_ok_iff (ha : a.Valid) (hb : b.Valid) {m : MoneyValue} :
    addMoneyValues a.money b.money = .ok m ↔ (a.add b).InRange ∧ (a.add b).money = m := by
  rcases Amount.add_cases a b with ⟨p, s, q, t, rfl, rfl, hfit, hadd⟩ | ⟨hadd, hlost⟩
  · rw [hadd, addMoneyValues_exact ha hb hfit]
    simp only [bind_eq_ok, checkedTerms_ok_iff]
    refine ⟨?_, ?_⟩
    · intro h
      obtain ⟨_, ⟨n, hn, hcast, rfl⟩, h⟩ := h
      obtain ⟨hlo, hup, rfl⟩ := (exactValue_ok_iff hfit).mp h
      exact ⟨⟨by simp only [Amount.terms]; omega, hlo, hup⟩, rfl⟩
    · intro h
      exact ⟨_, ⟨s + t, h.1.terms_le, rfl, rfl⟩,
        (exactValue_ok_iff hfit).mpr ⟨h.1.lower_lt, h.1.upper_lt, h.2⟩⟩
  · have hwf := Amount.sumBounds_wellFormed ha hb hlost
    rw [hadd, addMoneyValues_bounds ha hb hlost]
    simp only [bind_eq_ok, checkedTerms_ok_iff]
    refine ⟨?_, ?_⟩
    · intro h
      obtain ⟨_, ⟨n, hn, hcast, rfl⟩, h⟩ := h
      obtain ⟨c, hc, hmoney, rfl⟩ := validateMoneyValue_ok_iff.mp h
      have hlo := congrArg MoneyValue.lower hmoney
      have hup := congrArg MoneyValue.upper hmoney
      rw [Amount.money_lower, signedText_inj] at hlo
      rw [Amount.money_upper, signedText_inj] at hup
      refine ⟨⟨?_, ?_, ?_⟩, rfl⟩
      · rw [Amount.terms_sumBounds]
        omega
      · rw [Amount.lower_sumBounds, ← hlo]
        exact hc.lower_lt
      · rw [Amount.upper_sumBounds, ← hup]
        exact hc.upper_lt
    · intro h
      obtain ⟨hrange, rfl⟩ := h
      have hvalid : (a.sumBounds b).Valid := ⟨hrange, hwf⟩
      exact ⟨_, ⟨_, hrange.terms_le, rfl, rfl⟩, hvalid.validate⟩

theorem negateMoneyValue_of_valid (ha : a.Valid) :
    negateMoneyValue a.money = .ok a.negate.money := by
  have hneg := Amount.negate_valid ha
  rw [negateMoneyValue, ha.validate, ok_bind]
  cases a with
  | exact q t =>
    have htext : (⟨bigintText (-bigint (rationalText q).numerator), (rationalText q).denominator⟩ :
        ExactRational) = rationalText (-q) := by
      simp only [rationalText, bigint_bigintText, Rat.num_neg_eq_neg_num, Rat.den_neg_eq_den]
    simp only [Amount.money, htext]
    exact (exactValue_ok_iff hneg.wellFormed.1).mpr ⟨hneg.lower_lt, hneg.upper_lt, rfl⟩
  | bounded l u t =>
    have hlower := negateSignedDecimal_ok_iff.mpr
      ⟨u, readsSigned_signedText_iff.mpr ⟨rfl, ha.upper_lt⟩, rfl⟩
    have hupper := negateSignedDecimal_ok_iff.mpr
      ⟨l, readsSigned_signedText_iff.mpr ⟨rfl, ha.lower_lt⟩, rfl⟩
    simp only [Amount.money, hlower, hupper, ok_bind]
    exact hneg.validate

end Operations

end TsxCore.TradingMoneyValue
