import TsxCore.NumeralValue

/-!
# Products, quotients and rounding of bounded fractions

`multiplyRational` cancels across before it multiplies and `divideRational` does
not; both are the operation on rational numbers followed by the digit check.
`quantizeRational` rounds the quotient by the increment once, so its result is a
whole multiple of the increment with no intermediate decimal.
-/

namespace TsxCore.TradingRational

open Outcome TradingDecimal Numeral

section Operations

variable {l r s : ExactRational}

theorem cross_product {a b c d : ℤ} (hb : 0 < b) (hd : 0 < d) :
    ((a.tdiv (gcd a d) * c.tdiv (gcd c b) : ℤ) : ℚ) /
        ((b.tdiv (gcd c b) * d.tdiv (gcd a d) : ℤ) : ℚ) = a / b * (c / d) ∧
      0 < b.tdiv (gcd c b) * d.tdiv (gcd a d) := by
  obtain ⟨ha, hd', hg⟩ := cast_tdiv_gcd (a := a) hd.ne'
  obtain ⟨hc, hb', hg'⟩ := cast_tdiv_gcd (a := c) hb.ne'
  have hbq : (b : ℚ) ≠ 0 := by exact_mod_cast hb.ne'
  have hdq : (d : ℚ) ≠ 0 := by exact_mod_cast hd.ne'
  have hpos : ∀ {x y : ℤ}, 0 < y → 0 < y.tdiv (gcd x y) := by
    intro x y hy
    rw [gcd_eq, Int.tdiv_eq_ediv_of_dvd (Int.gcd_dvd_right ..)]
    exact Int.ediv_pos_of_pos_of_dvd hy (by positivity) (Int.gcd_dvd_right ..)
  refine ⟨?_, mul_pos (hpos hb) (hpos hd)⟩
  push_cast
  rw [ha, hc, hb', hd']
  field_simp

theorem multiplyRational_ok_iff :
    multiplyRational l r = .ok s ↔
      ∃ p q, Represents l p ∧ Represents r q ∧ Fits (p * q) ∧ rationalText (p * q) = s := by
  simp only [multiplyRational, bind_eq_ok, Prod.exists, fraction_ok_iff]
  constructor
  · intro h
    obtain ⟨a, b, hl, c, d, hr, -, hfit, rfl⟩ := h
    have hbd := cross_product (a := a) (c := c) ((integers_ok_iff _ _ _).mp hl).2.2.1
      ((integers_ok_iff _ _ _).mp hr).2.2.1
    rw [hbd.1] at hfit ⊢
    exact ⟨_, _, ⟨a, b, hl, rfl⟩, ⟨c, d, hr, rfl⟩, hfit, rfl⟩
  · intro h
    obtain ⟨_, _, ⟨a, b, hl, rfl⟩, ⟨c, d, hr, rfl⟩, hfit, rfl⟩ := h
    have hbd := cross_product (a := a) (c := c) ((integers_ok_iff _ _ _).mp hl).2.2.1
      ((integers_ok_iff _ _ _).mp hr).2.2.1
    refine ⟨a, b, hl, c, d, hr, hbd.2.ne', ?_⟩
    rw [hbd.1]
    exact ⟨hfit, rfl⟩

theorem divideRational_ok_iff :
    divideRational l r = .ok s ↔
      ∃ p q, Represents l p ∧ Represents r q ∧ q ≠ 0 ∧ Fits (p / q) ∧ rationalText (p / q) = s := by
  have hval : ∀ {a b c d : ℤ}, 0 < b → 0 < d →
      ((a * d : ℤ) : ℚ) / ((b * c : ℤ) : ℚ) = a / b / (c / d) ∧
        ((c : ℚ) / d ≠ 0 ↔ c ≠ 0) ∧ (b * c ≠ 0 ↔ c ≠ 0) := by
    intro a b c d hb hd
    have hdq : (d : ℚ) ≠ 0 := by exact_mod_cast hd.ne'
    refine ⟨?_, ?_, ?_⟩
    · push_cast
      rw [div_div_div_eq]
    · rw [div_ne_zero_iff]
      exact ⟨fun h => by exact_mod_cast h.1, fun h => ⟨by exact_mod_cast h, hdq⟩⟩
    · rw [mul_ne_zero_iff]
      exact ⟨fun h => h.2, fun h => ⟨hb.ne', h⟩⟩
  simp only [divideRational, bind_eq_ok, throwIf_eq_ok, Prod.exists, fraction_ok_iff]
  constructor
  · intro h
    obtain ⟨a, b, hl, c, d, hr, -, hc, -, hfit, rfl⟩ := h
    obtain ⟨hq, hne, -⟩ := @hval a b c d ((integers_ok_iff _ _ _).mp hl).2.2.1
      ((integers_ok_iff _ _ _).mp hr).2.2.1
    rw [hq] at hfit ⊢
    exact ⟨_, _, ⟨a, b, hl, rfl⟩, ⟨c, d, hr, rfl⟩, hne.mpr hc, hfit, rfl⟩
  · intro h
    obtain ⟨_, _, ⟨a, b, hl, rfl⟩, ⟨c, d, hr, rfl⟩, hq0, hfit, rfl⟩ := h
    obtain ⟨hq, hne, hne'⟩ := @hval a b c d ((integers_ok_iff _ _ _).mp hl).2.2.1
      ((integers_ok_iff _ _ _).mp hr).2.2.1
    refine ⟨a, b, hl, c, d, hr, (), hne.mp hq0, hne'.mpr (hne.mp hq0), ?_⟩
    rw [hq]
    exact ⟨hfit, rfl⟩

end Operations

theorem rationalFromDecimal_text {u : ℕ} (hu : u < unitLimit) :
    rationalFromDecimal (text u) = .ok (rationalText (unitValue u)) := by
  have hd := denotes_text hu
  exact rationalFromDecimal_ok_iff.mpr ⟨hd.hasSpace, u, hd.readsSigned, rfl⟩

theorem represents_unitValue {i : ℤ} (hi : i.natAbs < unitLimit) :
    Represents (rationalText (unitValue i)) (unitValue i) :=
  represents_rationalText (fits_unitValue (by omega))

def RoundingDirection.round (direction : RoundingDirection) (q : ℚ) : ℤ :=
  match direction with
  | .floor => ⌊q⌋
  | .ceil => ⌈q⌉

theorem integerBounds_cross {q p : ℚ} (hp : 0 < p) {n d a b : ℤ} (hd : 0 < d) (hb : 0 < b)
    (hq : q = n / d) (hp' : p = a / b) :
    integerBounds (n * b) (d * a) = (⌊q / p⌋, ⌈q / p⌉) := by
  have hbq : (0 : ℚ) < b := by exact_mod_cast hb
  have ha : 0 < a := by
    rw [hp', div_pos_iff_of_pos_right hbq] at hp
    exact_mod_cast hp
  have hval : ((n * b : ℤ) : ℚ) / ((d * a : ℤ) : ℚ) = q / p := by
    push_cast
    rw [hq, hp', div_div_div_eq]
  rw [integerBounds_eq (mul_pos hd ha), hval]

theorem count_mul_unitValue (count : ℤ) (u : ℕ) :
    (count : ℚ) * unitValue u * 10 ^ 18 = ((count * u : ℤ) : ℚ) := by
  rw [unitValue_natCast]
  push_cast
  field_simp

theorem fits_count {count : ℤ} {u : ℕ} (hpos : 0 < u) (hlt : (count * u).natAbs < unitLimit) :
    Fits ((count : ℚ) / ((1 : ℤ) : ℚ)) := by
  apply fits_div one_pos
  · have hle : count.natAbs ≤ (count * u).natAbs := by
      rw [Int.natAbs_mul, Int.natAbs_natCast]
      exact Nat.le_mul_of_pos_right _ hpos
    have hlimit : unitLimit < digitLimit := by
      rw [unitLimit, digitLimit]
      exact Nat.pow_lt_pow_right (by omega) (by omega)
    omega
  · rw [digitLimit]
    exact Nat.one_lt_pow (by omega) (by omega)

/-- The result is the rounded number of increments, and only its own digits are limited. -/
theorem quantizeRational_ok_iff {value : ExactRational} {increment s : String}
    {direction : RoundingDirection} :
    quantizeRational value increment direction = .ok s ↔
      ∃ q u, Represents value q ∧ Denotes increment u ∧ 0 < u ∧
        (direction.round (q / unitValue u) * u).natAbs < unitLimit ∧
        signedText (direction.round (q / unitValue u) * u) = s := by
  have hbounds : ∀ {q : ℚ} {u : ℕ} {n d a b : ℤ}, 0 < u → u < unitLimit →
      integers value = .ok (n, d) → integers (rationalText (unitValue u)) = .ok (a, b) →
      q = n / d → integerBounds (n * b) (d * a) = (⌊q / unitValue u⌋, ⌈q / unitValue u⌉) := by
    intro q u n d a b hpos hlt hv hs hq
    refine integerBounds_cross (by rw [unitValue_natCast]; positivity)
      ((integers_ok_iff _ _ _).mp hv).2.2.1 ((integers_ok_iff _ _ _).mp hs).2.2.1 hq ?_
    exact (represents_unitValue (by simpa using hlt)).unique ⟨a, b, hs, rfl⟩
  simp only [quantizeRational, bind_eq_ok, throwIf_eq_ok, not_not, decimal_positive_ok_iff,
    pure_eq_ok_iff, Prod.exists, fraction_ok_iff, multiplyRational_ok_iff,
    rationalDecimalBounds_ok_iff, Bool.not_eq_false]
  constructor
  · intro h
    obtain ⟨-, htrim, _, ⟨u, hu, hpos, rfl⟩, step, hstep, n, d, hv, a, b, hs, _, ⟨-, -, rfl⟩,
      _, ⟨x, y, hx, hy, -, rfl⟩, _, ⟨w, hw, hlow, -, rfl⟩, -, -, rfl⟩ := h
    rw [Reads, htrim] at hu
    rw [rationalFromDecimal_text hu.lt] at hstep
    cases hstep
    rw [hbounds hpos hu.lt hv hs rfl] at hx
    obtain ⟨rfl, -⟩ := represents_rationalText_iff.mp hx
    obtain ⟨rfl, -⟩ := represents_rationalText_iff.mp hy
    obtain ⟨rfl, -⟩ := represents_rationalText_iff.mp hw
    rw [Int.cast_one, div_one, count_mul_unitValue, Int.floor_intCast] at hlow ⊢
    exact ⟨_, u, ⟨n, d, hv, rfl⟩, hu, hpos, hlow, rfl⟩
  · intro h
    obtain ⟨_, u, ⟨n, d, hv, rfl⟩, hu, hpos, hlt, rfl⟩ := h
    obtain ⟨a, b, hs, -⟩ := represents_unitValue (i := u) (by simpa using hu.lt)
    let count := direction.round ((n : ℚ) / d / unitValue u)
    have hval : (count : ℚ) / ((1 : ℤ) : ℚ) * unitValue u * 10 ^ 18 = ((count * u : ℤ) : ℚ) := by
      rw [Int.cast_one, div_one, count_mul_unitValue]
    have hcount : Fits ((count : ℚ) / ((1 : ℤ) : ℚ)) := fits_count hpos hlt
    have hfit : Fits ((count : ℚ) / ((1 : ℤ) : ℚ) * unitValue u) := by
      have hunits : (count : ℚ) / ((1 : ℤ) : ℚ) * unitValue u = unitValue (count * u) := by
        rw [unitValue.eq_1 (count * u), ← hval, mul_div_cancel_right₀ _ (by positivity)]
      rw [hunits]
      exact fits_unitValue (hlt.trans (by rw [unitLimit]; norm_num))
    refine ⟨(), trim_of_hasSpace_false hu.hasSpace, _, ⟨u, hu.reads, hpos, rfl⟩, _,
      rationalFromDecimal_text hu.lt, n, d, hv, a, b, hs, _, ⟨one_ne_zero, ?_, rfl⟩, _,
      ⟨_, _, represents_rationalText ?_, represents_unitValue (by simpa using hu.lt), ?_, rfl⟩, _,
      ⟨_, represents_rationalText ?_, ?_, ?_, rfl⟩, (), ?_, ?_⟩
    all_goals rw [hbounds hpos hu.lt hv hs rfl]
    · exact hcount
    · exact hcount
    · exact hfit
    · exact hfit
    · change ⌊(count : ℚ) / ((1 : ℤ) : ℚ) * unitValue u * 10 ^ 18⌋.natAbs < unitLimit
      rwa [hval, Int.floor_intCast]
    · change ⌈(count : ℚ) / ((1 : ℤ) : ℚ) * unitValue u * 10 ^ 18⌉.natAbs < unitLimit
      rwa [hval, Int.ceil_intCast]
    · change (⌊(count : ℚ) / ((1 : ℤ) : ℚ) * unitValue u * 10 ^ 18⌋ ==
        ⌈(count : ℚ) / ((1 : ℤ) : ℚ) * unitValue u * 10 ^ 18⌉) = true
      rw [hval, Int.floor_intCast, Int.ceil_intCast, beq_self_eq_true]
    · change signedText ⌊(count : ℚ) / ((1 : ℤ) : ℚ) * unitValue u * 10 ^ 18⌋ = _
      rw [hval, Int.floor_intCast]

end TsxCore.TradingRational
