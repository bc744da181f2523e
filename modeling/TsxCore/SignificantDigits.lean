import Mathlib.Tactic
import Mathlib.Data.Int.Log

/-!
# Arithmetic of fixed precision

The result of an operation is its exact value rounded to a number of significant
digits, ties to even. Values that have no more digits are kept, a large value stays
beyond the powers of the base below it, and a quotient of two integers keeps its floor
and its ceiling as long as its numerator has fewer digits.
-/

namespace TsxCore.SignificantDigits

def roundHalfEven (x : ℚ) : ℤ :=
  if x - ⌊x⌋ < 1 / 2 then ⌊x⌋
  else if 1 / 2 < x - ⌊x⌋ then ⌊x⌋ + 1
  else if ⌊x⌋ % 2 = 0 then ⌊x⌋
  else ⌊x⌋ + 1

/-- The unit of the last of `precision` significant digits. -/
def quantum (base precision : ℕ) (x : ℚ) : ℚ :=
  (base : ℚ) ^ (Int.log base |x| - (precision - 1 : ℤ))

def rounded (base precision : ℕ) (x : ℚ) : ℚ :=
  roundHalfEven (x / quantum base precision x) * quantum base precision x

@[simp] theorem roundHalfEven_intCast (n : ℤ) : roundHalfEven n = n := by
  simp [roundHalfEven]

theorem abs_roundHalfEven_sub_le (x : ℚ) : |(roundHalfEven x : ℚ) - x| ≤ 1 / 2 := by
  have hlow := Int.floor_le x
  have hhigh := Int.lt_floor_add_one x
  rw [abs_le]
  unfold roundHalfEven
  split_ifs <;> push_cast <;> constructor <;> linarith

theorem floor_le_roundHalfEven (x : ℚ) : ⌊x⌋ ≤ roundHalfEven x := by
  unfold roundHalfEven
  split_ifs <;> omega

section Rounding

variable {base precision scale : ℕ} {n : ℤ} {x : ℚ}

theorem quantum_pos (hbase : 1 < base) : 0 < quantum base precision x := by
  have hpos : (0 : ℚ) < base := by exact_mod_cast (zero_lt_one.trans hbase)
  rw [quantum]
  positivity

theorem abs_rounded_sub_le (hbase : 1 < base) :
    |rounded base precision x - x| ≤ quantum base precision x / 2 := by
  have hpos := @quantum_pos base precision x hbase
  have hround := abs_roundHalfEven_sub_le (x / quantum base precision x)
  have hsplit : rounded base precision x - x =
      (roundHalfEven (x / quantum base precision x) - x / quantum base precision x) *
        quantum base precision x := by
    rw [rounded, sub_mul, div_mul_cancel₀ x hpos.ne']
  rw [hsplit, abs_mul, abs_of_pos hpos]
  calc
    |(roundHalfEven (x / quantum base precision x) : ℚ) - x / quantum base precision x| *
        quantum base precision x ≤ 1 / 2 * quantum base precision x :=
      mul_le_mul_of_nonneg_right hround hpos.le
    _ = quantum base precision x / 2 := by ring

theorem rounded_of_digits (hbase : 1 < base) (hn : |n| < (base : ℤ) ^ precision) :
    rounded base precision (n / (base : ℚ) ^ scale) = n / (base : ℚ) ^ scale := by
  have hbasePos : (0 : ℚ) < base := by exact_mod_cast (zero_lt_one.trans hbase)
  by_cases hzero : n = 0
  · simp [hzero, rounded, roundHalfEven]
  · have hpos : (0 : ℚ) < |(n : ℚ) / (base : ℚ) ^ scale| := by positivity
    have hlt : |(n : ℚ) / (base : ℚ) ^ scale| < (base : ℚ) ^ ((precision : ℤ) - scale) := by
      rw [abs_div, abs_of_pos (by positivity : (0 : ℚ) < (base : ℚ) ^ scale),
        zpow_sub₀ hbasePos.ne', zpow_natCast, zpow_natCast]
      apply div_lt_div_of_pos_right _ (by positivity)
      exact_mod_cast hn
    have hlog : Int.log base |(n : ℚ) / (base : ℚ) ^ scale| < precision - scale := by
      by_contra hge
      have hpow : (base : ℚ) ^ ((precision : ℤ) - scale) ≤
          (base : ℚ) ^ Int.log base |(n : ℚ) / (base : ℚ) ^ scale| :=
        zpow_le_zpow_right₀ (by exact_mod_cast hbase.le) (not_lt.mp hge)
      have hself := Int.zpow_log_le_self hbase hpos
      linarith
    obtain ⟨k, hk⟩ : ∃ k : ℕ,
        Int.log base |(n : ℚ) / (base : ℚ) ^ scale| - (precision - 1 : ℤ) = -(scale : ℤ) - k :=
      ⟨(precision - scale - 1 - Int.log base |(n : ℚ) / (base : ℚ) ^ scale|).toNat, by omega⟩
    have hquot : (n : ℚ) / (base : ℚ) ^ scale /
        quantum base precision (n / (base : ℚ) ^ scale) = ((n * (base : ℤ) ^ k : ℤ) : ℚ) := by
      rw [quantum, hk, zpow_sub₀ hbasePos.ne', zpow_neg, zpow_natCast, zpow_natCast]
      field_simp
      push_cast
      ring
    rw [rounded, hquot, roundHalfEven_intCast, ← hquot,
      div_mul_cancel₀ _ (quantum_pos hbase).ne']

theorem quantum_le (hbase : 1 < base) (hprec : 1 ≤ precision) (hx : x ≠ 0) :
    quantum base precision x * (base : ℚ) ^ (precision - 1) ≤ |x| := by
  have hbasePos : (0 : ℚ) < base := by exact_mod_cast (zero_lt_one.trans hbase)
  have hself := Int.zpow_log_le_self hbase (abs_pos.mpr hx)
  rw [quantum, zpow_sub₀ hbasePos.ne', ← Nat.cast_pred hprec, zpow_natCast,
    div_mul_cancel₀ _ (by positivity)]
  exact hself

/-- Rounding does not cross a power of the base from above. -/
theorem le_rounded (hbase : 1 < base) (hprec : 1 ≤ precision) {k : ℤ}
    (h : (base : ℚ) ^ k ≤ x) : (base : ℚ) ^ k ≤ rounded base precision x := by
  have hbasePos : (0 : ℚ) < base := by exact_mod_cast (zero_lt_one.trans hbase)
  have hx : 0 < x := (zpow_pos hbasePos k).trans_le h
  have hpos := @quantum_pos base precision x hbase
  have hdigits : ((base ^ (precision - 1) : ℕ) : ℤ) ≤
      roundHalfEven (x / quantum base precision x) := by
    refine le_trans (Int.le_floor.mpr ?_) (floor_le_roundHalfEven _)
    have hself := @quantum_le base precision _ hbase hprec hx.ne'
    rw [abs_of_pos hx] at hself
    rw [le_div_iff₀ hpos]
    push_cast
    rwa [mul_comm]
  have hlog : k ≤ Int.log base |x| := by
    rw [abs_of_pos hx, ← Int.zpow_le_iff_le_log hbase hx]
    exact h
  calc
    (base : ℚ) ^ k ≤ (base : ℚ) ^ Int.log base |x| :=
      zpow_le_zpow_right₀ (by exact_mod_cast hbase.le) hlog
    _ = (base : ℚ) ^ (precision - 1) * quantum base precision x := by
      rw [quantum, zpow_sub₀ hbasePos.ne', ← Nat.cast_pred hprec, zpow_natCast]
      field_simp
    _ ≤ rounded base precision x := by
      rw [rounded]
      exact mul_le_mul_of_nonneg_right (by exact_mod_cast hdigits) hpos.le

section Doubles

/-- The double nearest to a number that is neither too large nor too small for the normal ones. -/
def nearestDouble (x : ℚ) : ℚ := rounded 2 53 x

theorem nearestDouble_intCast (h : |n| < 9007199254740992) : nearestDouble n = n := by
  have hkept := @rounded_of_digits 2 53 0 n one_lt_two (by norm_num; exact h)
  rwa [pow_zero, div_one] at hkept

theorem le_nearestDouble (h : 9007199254740992 ≤ x) : 9007199254740992 ≤ nearestDouble x := by
  have hpow : ((2 : ℕ) : ℚ) ^ (53 : ℤ) = 9007199254740992 := by norm_num
  rw [← hpow] at h ⊢
  exact le_rounded one_lt_two (by norm_num) h

theorem nearestDouble_nonneg (h : 0 ≤ x) : 0 ≤ nearestDouble x := by
  have hpos := @quantum_pos 2 53 x one_lt_two
  have hfloor : 0 ≤ ⌊x / quantum 2 53 x⌋ := Int.floor_nonneg.mpr (div_nonneg h hpos.le)
  have hdigits : 0 ≤ roundHalfEven (x / quantum 2 53 x) :=
    hfloor.trans (floor_le_roundHalfEven _)
  exact mul_nonneg (by exact_mod_cast hdigits) hpos.le

end Doubles

end Rounding

section Quotients

variable {base precision : ℕ} {a b : ℤ}

/-- A quotient that is not an integer stays strictly between the same two integers. -/
theorem rounded_between (hbase : 1 < base) (hprec : 1 ≤ precision) (ha : 0 < a) (hb : 0 < b)
    (hdigits : a < (base : ℤ) ^ (precision - 1)) (hfrac : ¬ b ∣ a) :
    (⌊(a : ℚ) / b⌋ : ℚ) < rounded base precision (a / b) ∧
      rounded base precision (a / b) < ⌊(a : ℚ) / b⌋ + 1 := by
  have hbq : (0 : ℚ) < b := by exact_mod_cast hb
  have haq : (0 : ℚ) < a := by exact_mod_cast ha
  have hxpos : (0 : ℚ) < a / b := div_pos haq hbq
  have herror := @abs_rounded_sub_le base precision ((a : ℚ) / b) hbase
  have hquantum := @quantum_le base precision _ hbase hprec hxpos.ne'
  rw [abs_of_pos hxpos] at hquantum
  have hunit : quantum base precision ((a : ℚ) / b) < 1 / b := by
    have hpow : (0 : ℚ) < (base : ℚ) ^ (precision - 1) := by positivity
    have hsmall : (a : ℚ) / b < (base : ℚ) ^ (precision - 1) / b :=
      div_lt_div_of_pos_right (by exact_mod_cast hdigits) hbq
    have hless : quantum base precision ((a : ℚ) / b) * (base : ℚ) ^ (precision - 1) <
        1 / b * (base : ℚ) ^ (precision - 1) := by
      calc
        quantum base precision ((a : ℚ) / b) * (base : ℚ) ^ (precision - 1) ≤ a / b := hquantum
        _ < (base : ℚ) ^ (precision - 1) / b := hsmall
        _ = 1 / b * (base : ℚ) ^ (precision - 1) := by ring
    exact lt_of_mul_lt_mul_right hless hpow.le
  have hfloor : ⌊(a : ℚ) / b⌋ = a / b := by
    have h := Rat.floor_intCast_div_natCast a b.toNat
    rwa [← Int.cast_natCast (R := ℚ), Int.toNat_of_nonneg hb.le] at h
  have hmod := Int.emod_lt_of_pos a hb
  have hpositive : 0 < a % b := by
    have hnn := Int.emod_nonneg a hb.ne'
    have hne : a % b ≠ 0 := fun h => hfrac (Int.dvd_of_emod_eq_zero h)
    omega
  have hdivision : ((a / b : ℤ) : ℚ) = a / b - (a % b : ℤ) / b := by
    have hsplit : (a : ℚ) = b * (a / b : ℤ) + (a % b : ℤ) := by
      exact_mod_cast (Int.mul_ediv_add_emod a b).symm
    rw [hsplit]
    field_simp
    ring
  have hleft : (1 : ℚ) / b ≤ (a % b : ℤ) / b := by
    apply div_le_div_of_nonneg_right _ hbq.le
    exact_mod_cast hpositive
  have hright : ((a % b : ℤ) : ℚ) / b ≤ 1 - 1 / b := by
    rw [le_sub_iff_add_le, ← add_div, div_le_one hbq]
    exact_mod_cast hmod
  rw [abs_le] at herror
  rw [hfloor, hdivision]
  constructor <;> linarith [@quantum_pos base precision ((a : ℚ) / b) hbase]

theorem rounded_of_dvd (hbase : 1 < base) (ha : 0 < a) (hb : 0 < b)
    (hdigits : a < (base : ℤ) ^ (precision - 1)) (hdvd : b ∣ a) :
    rounded base precision (a / b) = (a : ℚ) / b := by
  obtain ⟨n, rfl⟩ := hdvd
  have hn : 0 < n := pos_of_mul_pos_right ha hb.le
  have hle : n ≤ b * n := le_mul_of_one_le_left hn.le hb
  have hfit : |n| < (base : ℤ) ^ precision := by
    rw [abs_of_pos hn]
    calc
      n ≤ b * n := hle
      _ < (base : ℤ) ^ (precision - 1) := hdigits
      _ ≤ (base : ℤ) ^ precision :=
        pow_le_pow_right₀ (by exact_mod_cast hbase.le) (Nat.sub_le precision 1)
  have hbq : (b : ℚ) ≠ 0 := by exact_mod_cast hb.ne'
  have hquot : ((b * n : ℤ) : ℚ) / b = n := by
    push_cast
    field_simp
  have hkept := @rounded_of_digits base precision 0 n hbase hfit
  rw [pow_zero, div_one] at hkept
  rw [hquot, hkept]

theorem floor_rounded (hbase : 1 < base) (hprec : 1 ≤ precision) (ha : 0 < a) (hb : 0 < b)
    (hdigits : a < (base : ℤ) ^ (precision - 1)) :
    ⌊rounded base precision (a / b)⌋ = ⌊(a : ℚ) / b⌋ := by
  by_cases hdvd : b ∣ a
  · rw [rounded_of_dvd hbase ha hb hdigits hdvd]
  · obtain ⟨hlow, hhigh⟩ := rounded_between hbase hprec ha hb hdigits hdvd
    exact Int.floor_eq_iff.mpr ⟨hlow.le, hhigh⟩

theorem ceil_rounded (hbase : 1 < base) (hprec : 1 ≤ precision) (ha : 0 < a) (hb : 0 < b)
    (hdigits : a < (base : ℤ) ^ (precision - 1)) :
    ⌈rounded base precision (a / b)⌉ = ⌈(a : ℚ) / b⌉ := by
  by_cases hdvd : b ∣ a
  · rw [rounded_of_dvd hbase ha hb hdigits hdvd]
  · obtain ⟨hlow, hhigh⟩ := rounded_between hbase hprec ha hb hdigits hdvd
    have hfrac : (⌊(a : ℚ) / b⌋ : ℚ) < a / b := by
      apply lt_of_le_of_ne (Int.floor_le _)
      intro heq
      apply hdvd
      have hbq : (b : ℚ) ≠ 0 := by exact_mod_cast hb.ne'
      rw [eq_div_iff hbq] at heq
      exact ⟨⌊(a : ℚ) / b⌋, by rw [mul_comm]; exact_mod_cast heq.symm⟩
    have hceil : ⌈(a : ℚ) / b⌉ = ⌊(a : ℚ) / b⌋ + 1 := by
      rw [Int.ceil_eq_iff]
      push_cast
      exact ⟨by linarith, (Int.lt_floor_add_one _).le⟩
    rw [hceil, Int.ceil_eq_iff]
    push_cast
    exact ⟨by linarith, hhigh.le⟩

end Quotients

end TsxCore.SignificantDigits
