import TsxCore.TradingRational
import TsxCore.SignedUnits
import Mathlib.Data.Rat.Floor
import Mathlib.Data.Rat.Lemmas

/-!
# Bounded fractions as rational numbers

`Represents r q` states that `r` is an accepted fraction of value `q`, and
`rationalText q` is the reduced fraction that the module writes for `q`. Each
operation is the corresponding operation on rational numbers followed by the
256-digit check of the reduced result, and decimal bounds are the floor and the
ceiling of the value in quanta.
-/

namespace TsxCore.TradingRational

open Outcome TradingDecimal Numeral

variable {a b : ℤ} {q : ℚ} {r : ExactRational}

/-- One more than the largest reduced numerator or denominator. -/
def digitLimit : ℕ := 10 ^ 256

def Fits (q : ℚ) : Prop := q.num.natAbs < digitLimit ∧ q.den < digitLimit

def rationalText (q : ℚ) : ExactRational := ⟨bigintText q.num, bigintText q.den⟩

def Represents (r : ExactRational) (q : ℚ) : Prop :=
  ∃ n d : ℤ, integers r = .ok (n, d) ∧ q = n / d

theorem positiveInteger_iff (cs : List Char) :
    positiveInteger cs = true ↔ ∃ n, cs = Nat.toDigits 10 n ∧ 0 < n ∧ n < digitLimit := by
  rw [positiveInteger, Bool.and_eq_true, isNatural_iff (by omega), bne_iff_ne, digitLimit]
  constructor
  · rintro ⟨⟨n, rfl, hn⟩, hne⟩
    refine ⟨n, rfl, Nat.pos_of_ne_zero ?_, hn⟩
    rintro rfl
    exact hne (Nat.toDigits_zero 10)
  · rintro ⟨n, rfl, hpos, hn⟩
    refine ⟨⟨n, rfl, hn⟩, ?_⟩
    intro he
    have := congrArg (fun cs => Nat.ofDigitChars 10 cs 0) he
    simp only [Nat.ofDigitChars_ten_toDigits] at this
    rw [this] at hpos
    exact absurd hpos (by decide)

theorem head_toDigits_ne_minus (n : ℕ) : (Nat.toDigits 10 n).head? ≠ some '-' := by
  intro h
  have hdigit := Nat.isDigit_of_mem_toDigits (by omega) (by omega) (List.mem_of_head? h)
  exact absurd hdigit (by decide)

theorem toList_bigintText (i : ℤ) : (bigintText i).toList =
    if i < 0 then '-' :: Nat.toDigits 10 i.natAbs else Nat.toDigits 10 i.natAbs := by
  unfold bigintText
  split_ifs <;> simp

theorem bigint_bigintText (i : ℤ) : bigint (bigintText i) = i := by
  unfold bigint isNegative
  rw [toList_bigintText]
  by_cases hi : i < 0
  · simp only [if_pos hi, List.head?_cons, List.drop_succ_cons, List.drop_zero,
      Nat.ofDigitChars_ten_toDigits, beq_self_eq_true, if_true]
    omega
  · have hhead : ((Nat.toDigits 10 i.natAbs).head? == some '-') = false := by
      simpa using head_toDigits_ne_minus i.natAbs
    simp only [if_neg hi, hhead, Bool.false_eq_true, if_false, Nat.ofDigitChars_ten_toDigits]
    omega

theorem integerPattern_iff (cs : List Char) :
    integerPattern cs = true ↔ ∃ i : ℤ, cs = (bigintText i).toList ∧ i.natAbs < digitLimit := by
  unfold integerPattern
  split
  · rename_i digits
    rw [positiveInteger_iff]
    constructor
    · rintro ⟨n, rfl, hpos, hn⟩
      exact ⟨-(n : ℤ), by simp [toList_bigintText, hpos], by simpa using hn⟩
    · rintro ⟨i, hi, hlt⟩
      rw [toList_bigintText] at hi
      split_ifs at hi with hneg
      · exact ⟨i.natAbs, List.tail_eq_of_cons_eq hi, by omega, hlt⟩
      · have := congrArg List.head? hi
        rw [List.head?_cons] at this
        exact absurd this.symm (head_toDigits_ne_minus _)
  · rename_i hminus
    rw [isNatural_iff (by omega)]
    constructor
    · rintro ⟨n, rfl, hn⟩
      exact ⟨n, by simp [toList_bigintText], by simpa [digitLimit] using hn⟩
    · rintro ⟨i, rfl, hlt⟩
      rw [toList_bigintText] at hminus ⊢
      split_ifs at hminus ⊢ with hneg
      · exact absurd rfl (hminus _)
      · exact ⟨i.natAbs, rfl, hlt⟩

theorem integers_ok_iff (r : ExactRational) (n d : ℤ) :
    integers r = .ok (n, d) ↔ r = ⟨bigintText n, bigintText d⟩ ∧ n.natAbs < digitLimit ∧
      0 < d ∧ d.natAbs < digitLimit := by
  obtain ⟨top, bottom⟩ := r
  simp only [integers, bind_eq_ok, throwIf_eq_ok, pure_eq_ok_iff, not_or, Bool.not_eq_false,
    integerPattern_iff, positiveInteger_iff, Prod.mk.injEq, ExactRational.mk.injEq]
  constructor
  · rintro ⟨-, ⟨⟨i, hi, hlt⟩, m, hm, hpos, hmlt⟩, rfl, rfl⟩
    have htop : top = bigintText i := String.toList_inj.mp hi
    have hbottom : bottom = bigintText m := by
      apply String.toList_inj.mp
      rw [hm, toList_bigintText, if_neg (by omega), Int.natAbs_natCast]
    subst htop hbottom
    rw [bigint_bigintText, bigint_bigintText]
    exact ⟨⟨rfl, rfl⟩, hlt, by omega, by simpa using hmlt⟩
  · rintro ⟨⟨rfl, rfl⟩, hlt, hpos, hdlt⟩
    refine ⟨(), ⟨⟨n, rfl, hlt⟩, d.natAbs, ?_, by omega, hdlt⟩, ?_, ?_⟩
    · rw [toList_bigintText, if_neg (by omega)]
    · exact bigint_bigintText n
    · exact bigint_bigintText d

theorem gcdLoop_eq (fuel a b : ℕ) (hf : b < fuel) : gcdLoop fuel a b = Nat.gcd a b := by
  induction fuel generalizing a b with
  | zero => omega
  | succ fuel ih =>
    rw [gcdLoop]
    split_ifs with hb
    · simp [hb]
    · have hlt : a % b < b := Nat.mod_lt _ (Nat.pos_of_ne_zero hb)
      rw [ih b (a % b) (by omega), Nat.gcd_comm b, ← Nat.gcd_rec, Nat.gcd_comm]

theorem gcd_eq (a b : ℤ) : gcd a b = Int.gcd a b :=
  gcdLoop_eq _ _ _ (Nat.lt_succ_self _)

theorem reduce_num_den (hb : 0 < b) :
    ((a : ℚ) / b).num = a.tdiv (Int.gcd a b) ∧ (((a : ℚ) / b).den : ℤ) = b.tdiv (Int.gcd a b) := by
  have hg : 0 < (Int.gcd a b : ℤ) := by
    exact_mod_cast Int.gcd_pos_of_ne_zero_right a hb.ne'
  have ha' : (Int.gcd a b : ℤ) ∣ a := Int.gcd_dvd_left ..
  have hb' : (Int.gcd a b : ℤ) ∣ b := Int.gcd_dvd_right ..
  rw [Int.tdiv_eq_ediv_of_dvd ha', Int.tdiv_eq_ediv_of_dvd hb']
  have hpos : 0 < b / (Int.gcd a b : ℤ) := Int.ediv_pos_of_pos_of_dvd hb hg.le hb'
  have hcop : Nat.Coprime (a / (Int.gcd a b : ℤ)).natAbs (b / (Int.gcd a b : ℤ)).natAbs := by
    have := Int.gcd_div_gcd_div_gcd (i := a) (j := b) (by exact_mod_cast hg)
    simpa [Nat.Coprime, Int.gcd] using this
  have hval : (a : ℚ) / b = ((a / (Int.gcd a b : ℤ) : ℤ) : ℚ) /
    ((b / (Int.gcd a b : ℤ) : ℤ) : ℚ) := by
    have hgq : ((Int.gcd a b : ℤ) : ℚ) ≠ 0 := by exact_mod_cast hg.ne'
    rw [Int.cast_div ha' hgq, Int.cast_div hb' hgq, div_div_div_cancel_right₀ hgq]
  rw [hval]
  exact ⟨Rat.num_div_eq_of_coprime hpos hcop, Rat.den_div_eq_of_coprime hpos hcop⟩

theorem integers_rationalText (hq : Fits q) :
    integers (rationalText q) = .ok (q.num, (q.den : ℤ)) :=
  (integers_ok_iff _ _ _).mpr ⟨rfl, hq.1, by exact_mod_cast q.den_pos, by simpa using hq.2⟩

theorem represents_rationalText (hq : Fits q) : Represents (rationalText q) q :=
  ⟨_, _, integers_rationalText hq, by simpa using (Rat.num_div_den q).symm⟩

theorem represents_rationalText_iff {p : ℚ} : Represents (rationalText p) q ↔ p = q ∧ Fits p := by
  constructor
  · rintro ⟨n, d, hr, rfl⟩
    have hints := hr
    simp only [integers, bind_eq_ok, throwIf_eq_ok, pure_eq_ok_iff] at hr
    obtain ⟨-, -, hnd⟩ := hr
    simp only [rationalText, bigint_bigintText, Prod.mk.injEq] at hnd
    obtain ⟨rfl, rfl⟩ := hnd
    obtain ⟨-, hn, -, hd⟩ := (integers_ok_iff _ _ _).mp hints
    exact ⟨by simpa using (Rat.num_div_den p).symm, hn, by simpa using hd⟩
  · rintro ⟨rfl, hp⟩
    exact represents_rationalText hp

theorem Represents.unique {p : ℚ} (hp : Represents r p) (hq : Represents r q) : p = q := by
  obtain ⟨n, d, hr, rfl⟩ := hp
  obtain ⟨n', d', hr', rfl⟩ := hq
  rw [hr] at hr'
  cases hr'
  rfl

theorem fraction_of_pos (hb : 0 < b) (hfit : Fits ((a : ℚ) / b)) :
    fraction a b = .ok (rationalText ((a : ℚ) / b)) := by
  obtain ⟨hnum, hden⟩ := reduce_num_den (a := a) hb
  have htext : (⟨bigintText (a.tdiv (gcd a b)), bigintText (b.tdiv (gcd a b))⟩ : ExactRational) =
      rationalText ((a : ℚ) / b) := by
    rw [gcd_eq, rationalText, hnum, hden]
  rw [fraction, throwIf_of_not hb.ne', ok_bind]
  simp only [if_neg hb.not_gt]
  rw [htext, integers_rationalText hfit, ok_bind]
  rfl

/-- A quotient of integers succeeds exactly when its reduced form fits both digit limits. -/
theorem fraction_ok_iff :
    fraction a b = .ok r ↔ b ≠ 0 ∧ Fits ((a : ℚ) / b) ∧ rationalText ((a : ℚ) / b) = r := by
  have hpos : ∀ {a b : ℤ}, 0 < b →
      (fraction a b = .ok r ↔ Fits ((a : ℚ) / b) ∧ rationalText ((a : ℚ) / b) = r) := by
    intro a b hb
    constructor
    · intro h
      obtain ⟨hnum, hden⟩ := reduce_num_den (a := a) hb
      rw [fraction, throwIf_of_not hb.ne', ok_bind] at h
      simp only [if_neg hb.not_gt, bind_eq_ok, pure_eq_ok_iff, Prod.exists] at h
      obtain ⟨n, d, hints, rfl⟩ := h
      rw [gcd_eq, ← hnum, ← hden] at hints ⊢
      have hrep : Represents (rationalText ((a : ℚ) / b)) (n / d) := ⟨n, d, hints, rfl⟩
      exact ⟨(represents_rationalText_iff.mp hrep).2, rfl⟩
    · rintro ⟨hfit, rfl⟩
      exact fraction_of_pos hb hfit
  rcases lt_trichotomy b 0 with hb | rfl | hb
  · have hflip : fraction a b = fraction (-a) (-b) := by
      simp only [fraction, if_pos hb, if_neg (show ¬ -b < 0 by omega), Int.neg_eq_zero]
    have hval : ((-a : ℤ) : ℚ) / ((-b : ℤ) : ℚ) = (a : ℚ) / b := by
      push_cast
      rw [neg_div_neg_eq]
    rw [hflip, hpos (show 0 < -b by omega), hval]
    exact ⟨fun h => ⟨hb.ne, h⟩, fun h => h.2⟩
  · simp [fraction, throwIf]
  · rw [hpos hb]
    exact ⟨fun h => ⟨hb.ne', h⟩, fun h => h.2⟩

theorem rational_ok_iff {s : ExactRational} :
    rational r = .ok s ↔ ∃ q, Represents r q ∧ Fits q ∧ rationalText q = s := by
  simp only [rational, bind_eq_ok, Prod.exists, fraction_ok_iff]
  constructor
  · rintro ⟨n, d, hr, -, hfit, rfl⟩
    exact ⟨_, ⟨n, d, hr, rfl⟩, hfit, rfl⟩
  · rintro ⟨_, ⟨n, d, hr, rfl⟩, hfit, rfl⟩
    exact ⟨n, d, hr, ((integers_ok_iff _ _ _).mp hr).2.2.1.ne', hfit, rfl⟩

theorem fits_div {n d : ℤ} (hd : 0 < d) (hn : n.natAbs < digitLimit)
    (hdlt : d.natAbs < digitLimit) : Fits ((n : ℚ) / d) := by
  obtain ⟨hnum, hden⟩ := reduce_num_den (a := n) hd
  have hle : ∀ (x g : ℤ), (x.tdiv g).natAbs ≤ x.natAbs := by
    intro x g
    rw [Int.natAbs_tdiv]
    exact Nat.div_le_self _ _
  refine ⟨?_, ?_⟩
  · rw [hnum]
    exact (hle n _).trans_lt hn
  · have hden' : ((n : ℚ) / d).den = (d.tdiv (Int.gcd n d)).natAbs := by
      rw [← hden, Int.natAbs_natCast]
    rw [hden']
    exact (hle d _).trans_lt hdlt

section Operations

variable {l r s : ExactRational}

theorem cast_tdiv_gcd {a b : ℤ} (hb : b ≠ 0) :
    ((a.tdiv (gcd a b) : ℤ) : ℚ) = a / (Int.gcd a b : ℤ) ∧
      ((b.tdiv (gcd a b) : ℤ) : ℚ) = b / (Int.gcd a b : ℤ) ∧ ((Int.gcd a b : ℤ) : ℚ) ≠ 0 := by
  have hg : ((Int.gcd a b : ℤ) : ℚ) ≠ 0 := by
    exact_mod_cast (Int.gcd_pos_of_ne_zero_right a hb).ne'
  rw [gcd_eq, Int.tdiv_eq_ediv_of_dvd (Int.gcd_dvd_left ..),
    Int.tdiv_eq_ediv_of_dvd (Int.gcd_dvd_right ..)]
  exact ⟨Int.cast_div (Int.gcd_dvd_left ..) hg, Int.cast_div (Int.gcd_dvd_right ..) hg, hg⟩

/-- The cross sum over the shared divisor of the denominators, as the source adds fractions. -/
theorem cross_sum {a b c d : ℤ} (hb : 0 < b) (hd : 0 < d) :
    ((a * d.tdiv (gcd b d) + c * b.tdiv (gcd b d) : ℤ) : ℚ) / ((b * d.tdiv (gcd b d) : ℤ) : ℚ) =
      a / b + c / d ∧ 0 < b * d.tdiv (gcd b d) := by
  obtain ⟨h1, h2, hg⟩ := cast_tdiv_gcd (a := b) hd.ne'
  have hbq : (b : ℚ) ≠ 0 := by exact_mod_cast hb.ne'
  have hdq : (d : ℚ) ≠ 0 := by exact_mod_cast hd.ne'
  refine ⟨?_, ?_⟩
  · push_cast
    rw [h1, h2]
    field_simp
  · apply mul_pos hb
    rw [gcd_eq, Int.tdiv_eq_ediv_of_dvd (Int.gcd_dvd_right ..)]
    exact Int.ediv_pos_of_pos_of_dvd hd (by positivity) (Int.gcd_dvd_right ..)

theorem addRational_ok_iff :
    addRational l r = .ok s ↔
      ∃ p q, Represents l p ∧ Represents r q ∧ Fits (p + q) ∧ rationalText (p + q) = s := by
  simp only [addRational, bind_eq_ok, Prod.exists, fraction_ok_iff]
  constructor
  · rintro ⟨a, b, hl, c, d, hr, -, hfit, rfl⟩
    have hbd := cross_sum (a := a) (c := c) ((integers_ok_iff _ _ _).mp hl).2.2.1
      ((integers_ok_iff _ _ _).mp hr).2.2.1
    rw [hbd.1] at hfit ⊢
    exact ⟨_, _, ⟨a, b, hl, rfl⟩, ⟨c, d, hr, rfl⟩, hfit, rfl⟩
  · rintro ⟨_, _, ⟨a, b, hl, rfl⟩, ⟨c, d, hr, rfl⟩, hfit, rfl⟩
    have hbd := cross_sum (a := a) (c := c) ((integers_ok_iff _ _ _).mp hl).2.2.1
      ((integers_ok_iff _ _ _).mp hr).2.2.1
    refine ⟨a, b, hl, c, d, hr, hbd.2.ne', ?_⟩
    rw [hbd.1]
    exact ⟨hfit, rfl⟩

/-- The sign that a comparison of two values returns. -/
def order (p q : ℚ) : ℤ := if p < q then -1 else if q < p then 1 else 0

theorem order_neg_iff {p q : ℚ} : order p q < 0 ↔ p < q := by
  unfold order
  split_ifs <;> simp_all

theorem order_pos_iff {p q : ℚ} : 0 < order p q ↔ q < p := by
  unfold order
  split_ifs with hlt hgt
  · simp [hlt.le]
  · simp [hgt]
  · simp [hgt]

theorem compareRational_ok_iff {o : ℤ} :
    compareRational l r = .ok o ↔ ∃ p q, Represents l p ∧ Represents r q ∧ order p q = o := by
  have hval : ∀ {a b c d : ℤ}, 0 < b → 0 < d →
      ((a * d - c * b < 0 ↔ (a : ℚ) / b < c / d) ∧ (0 < a * d - c * b ↔ (c : ℚ) / d < a / b)) := by
    intro a b c d hb hd
    have hbq : (0 : ℚ) < b := by exact_mod_cast hb
    have hdq : (0 : ℚ) < d := by exact_mod_cast hd
    rw [div_lt_div_iff₀ hbq hdq, div_lt_div_iff₀ hdq hbq, sub_neg, sub_pos]
    exact ⟨by exact_mod_cast Iff.rfl, by exact_mod_cast Iff.rfl⟩
  simp only [compareRational, bind_eq_ok, pure_eq_ok_iff, Prod.exists]
  constructor
  · rintro ⟨a, b, hl, c, d, hr, rfl⟩
    have hbd := hval (a := a) (c := c) ((integers_ok_iff _ _ _).mp hl).2.2.1
      ((integers_ok_iff _ _ _).mp hr).2.2.1
    refine ⟨_, _, ⟨a, b, hl, rfl⟩, ⟨c, d, hr, rfl⟩, ?_⟩
    simp only [order, hbd]
  · rintro ⟨_, _, ⟨a, b, hl, rfl⟩, ⟨c, d, hr, rfl⟩, rfl⟩
    have hbd := hval (a := a) (c := c) ((integers_ok_iff _ _ _).mp hl).2.2.1
      ((integers_ok_iff _ _ _).mp hr).2.2.1
    refine ⟨a, b, hl, c, d, hr, ?_⟩
    simp only [order, hbd]

end Operations

/-- Rounding outwards: the two bounds are the floor and the ceiling of the quotient. -/
theorem integerBounds_eq (hb : 0 < b) : integerBounds a b = (⌊(a : ℚ) / b⌋, ⌈(a : ℚ) / b⌉) := by
  have hbq : (0 : ℚ) < b := by exact_mod_cast hb
  have hsplit := Int.mul_tdiv_add_tmod a b
  have hupper := Int.tmod_lt_of_pos a hb
  have hlower := Int.lt_tmod_of_pos a hb
  have hfloor : ∀ z : ℤ, z * b ≤ a → a < z * b + b → ⌊(a : ℚ) / b⌋ = z := by
    intro z hle hlt
    rw [Int.floor_eq_iff, le_div_iff₀ hbq, div_lt_iff₀ hbq, add_mul, one_mul]
    exact ⟨by exact_mod_cast hle, by exact_mod_cast hlt⟩
  have hceil : ∀ z : ℤ, z * b - b < a → a ≤ z * b → ⌈(a : ℚ) / b⌉ = z := by
    intro z hlt hle
    rw [Int.ceil_eq_iff, lt_div_iff₀ hbq, div_le_iff₀ hbq, sub_mul, one_mul]
    exact ⟨by exact_mod_cast hlt, by exact_mod_cast hle⟩
  have hprev : (a.tdiv b - 1) * b = b * a.tdiv b - b := by ring
  have hnext : (a.tdiv b + 1) * b = b * a.tdiv b + b := by ring
  have hsame : a.tdiv b * b = b * a.tdiv b := mul_comm _ _
  unfold integerBounds
  refine Prod.ext ?_ ?_
  · dsimp only
    split_ifs with hr
    · exact (hfloor _ (by omega) (by omega)).symm
    · rw [sub_zero]
      exact (hfloor _ (by omega) (by omega)).symm
  · dsimp only
    split_ifs with hr
    · exact (hceil _ (by omega) (by omega)).symm
    · rw [add_zero]
      exact (hceil _ (by omega) (by omega)).symm

theorem format_unsigned (n k : ℕ) :
    (if k = 0 then String.ofList ((Nat.toDigits 10 n).leftpad (k + 1) '0')
      else .ofList (((Nat.toDigits 10 n).leftpad (k + 1) '0').take
          (((Nat.toDigits 10 n).leftpad (k + 1) '0').length - k) ++
        '.' :: ((Nat.toDigits 10 n).leftpad (k + 1) '0').drop
          (((Nat.toDigits 10 n).leftpad (k + 1) '0').length - k))) = .ofList (numeral n k) := by
  rw [leftpad_toDigits, numeral]
  split_ifs with hz
  · simp [hz, fixedDigits]
  · have hlen : (Nat.toDigits 10 (n / 10 ^ k) ++ fixedDigits k n).length - k =
        (Nat.toDigits 10 (n / 10 ^ k)).length := by simp
    rw [hlen, List.take_left, List.drop_left]

theorem format_error {i : ℤ} {k : ℕ} (hk : k ≤ 18) {e : Thrown} (h : format i k = .error e) :
    Oversized e := by
  simp only [format, format_unsigned] at h
  apply oversized_of_signedDecimal (c := i.natAbs) hk _ h
  split_ifs with hi
  · rw [magnitude, isNegative_minus, if_pos rfl, tail_minus]
  · rw [magnitude, isNegative_numeral]
    rfl

theorem format_ok_iff {i : ℤ} {k : ℕ} (hk : k ≤ 18) {s : String} :
    format i k = .ok s ↔ (i * 10 ^ (18 - k)).natAbs < unitLimit ∧
      signedText (i * 10 ^ (18 - k)) = s := by
  have hreads : ∀ j, ReadsSigned (if i < 0 then "-" ++ .ofList (numeral i.natAbs k)
      else .ofList (numeral i.natAbs k)) j ↔
      i * 10 ^ (18 - k) = j ∧ (i * 10 ^ (18 - k)).natAbs < unitLimit := by
    intro j
    have habs : (i * 10 ^ (18 - k)).natAbs = i.natAbs * 10 ^ (18 - k) := by
      rw [Int.natAbs_mul, Int.natAbs_pow]
      rfl
    have hsigned : signedUnits (decide (i < 0)) (i.natAbs * 10 ^ (18 - k)) = i * 10 ^ (18 - k) := by
      rw [signedUnits_mul, signedUnits_natAbs, Nat.cast_pow]
      rfl
    rw [habs, ReadsSigned]
    by_cases hi : i < 0
    · simp only [if_pos hi, magnitude, isNegative_minus, tail_minus, if_true,
        reads_numeral_iff hk]
      simp only [hi, decide_true] at hsigned
      constructor
      · rintro ⟨u, ⟨rfl, hlt⟩, rfl⟩
        exact ⟨hsigned.symm, hlt⟩
      · rintro ⟨rfl, hlt⟩
        exact ⟨_, ⟨rfl, hlt⟩, hsigned⟩
    · simp only [if_neg hi, magnitude, isNegative_numeral, Bool.false_eq_true, if_false,
        reads_numeral_iff hk]
      simp only [hi, decide_false] at hsigned
      constructor
      · rintro ⟨u, ⟨rfl, hlt⟩, rfl⟩
        exact ⟨hsigned.symm, hlt⟩
      · rintro ⟨rfl, hlt⟩
        exact ⟨_, ⟨rfl, hlt⟩, hsigned⟩
  simp only [format, format_unsigned, signedDecimal_ok_iff, hreads]
  constructor
  · rintro ⟨j, ⟨rfl, hlt⟩, rfl⟩
    exact ⟨hlt, rfl⟩
  · rintro ⟨hlt, rfl⟩
    exact ⟨_, ⟨rfl, hlt⟩, rfl⟩

def unitValue (i : ℤ) : ℚ := i / 10 ^ 18

theorem fits_unitValue {i : ℤ} (hi : i.natAbs < 2 * unitLimit) : Fits (unitValue i) := by
  have h := fits_div (n := i) (d := 10 ^ 18) (by positivity)
    (hi.trans_le (by rw [unitLimit, digitLimit]; norm_num))
    (by rw [Int.natAbs_pow, digitLimit]; exact Nat.pow_lt_pow_right (by decide) (by omega))
  rw [unitValue]
  exact_mod_cast h

theorem bigint_digits (negative : Prop) [Decidable negative] (cs : List Char)
    (hcs : cs.head? ≠ some '-') :
    bigint (.ofList ((if negative then ['-'] else []) ++ cs)) =
      signedUnits (decide negative) (Nat.ofDigitChars 10 cs 0) := by
  rw [bigint, isNegative, String.toList_ofList]
  by_cases hn : negative
  · simp [hn, signedUnits]
  · have hhead : (cs.head? == some '-') = false := by simpa using hcs
    simp [hn, hhead, signedUnits]

theorem bigint_signedText_parts (i : ℤ) : ∃ c k, k ≤ 18 ∧ c * 10 ^ (18 - k) = i.natAbs ∧
    bigint (.ofList (integerPart (signedText i) ++ fractionPart (signedText i))) =
      signedUnits (decide (i < 0)) c ∧ (fractionPart (signedText i)).length = k := by
  obtain ⟨c, k, hk, hc, hint, hfrac⟩ := signedText_parts i
  refine ⟨c, k, hk, hc, ?_, by rw [hfrac, length_fixedDigits]⟩
  rw [hint, hfrac, List.append_assoc, bigint_digits, ofDigitChars_split]
  rw [List.head?_append_of_ne_nil _ Nat.toDigits_ne_nil]
  exact head_toDigits_ne_minus _

theorem rationalFromDecimal_ok_iff {s : String} :
    rationalFromDecimal s = .ok r ↔
      hasSpace s = false ∧ ∃ i, ReadsSigned s i ∧ rationalText (unitValue i) = r := by
  have hvalue : ∀ {i : ℤ}, i.natAbs < unitLimit → ∀ r,
      fraction (bigint (.ofList (integerPart (signedText i) ++ fractionPart (signedText i))))
        (10 ^ (fractionPart (signedText i)).length) = .ok r ↔
      rationalText (unitValue i) = r := by
    intro i hi r
    obtain ⟨c, k, hk, hc, hbig, hlen⟩ := bigint_signedText_parts i
    have hq : ((signedUnits (decide (i < 0)) c : ℤ) : ℚ) / ((10 ^ k : ℤ) : ℚ) = unitValue i := by
      have hi' := signedUnits_natAbs i
      rw [← hc, signedUnits_mul] at hi'
      have hpow : (10 : ℚ) ^ 18 = 10 ^ k * 10 ^ (18 - k) := by
        rw [← pow_add, Nat.add_sub_cancel' hk]
      have hcast : (i : ℚ) = ((signedUnits (decide (i < 0)) c : ℤ) : ℚ) * 10 ^ (18 - k) := by
        have h := congrArg (Int.cast : ℤ → ℚ) hi'
        push_cast at h
        exact h.symm
      rw [unitValue, hpow, hcast, mul_div_mul_right _ _ (by positivity)]
      push_cast
      rfl
    rw [hbig, hlen, fraction_ok_iff, hq]
    exact ⟨fun h => h.2.2, fun h => ⟨by positivity, fits_unitValue (by omega), h⟩⟩
  simp only [rationalFromDecimal, bind_eq_ok, throwIf_eq_ok, signedDecimal_ok_iff, Bool.not_eq_true]
  constructor
  · rintro ⟨-, hs, _, ⟨i, hi, rfl⟩, h⟩
    exact ⟨hs, i, hi, (hvalue hi.lt r).mp h⟩
  · rintro ⟨hs, i, hi, h⟩
    exact ⟨(), hs, _, ⟨i, hi, rfl⟩, (hvalue hi.lt r).mpr h⟩

theorem rationalDecimalBounds_scale_iff {r : ExactRational} {b : RationalDecimalBounds} {k : ℕ}
    (hk : k ≤ 18) : rationalDecimalBounds r k = .ok b ↔ ∃ q, Represents r q ∧
      (⌊q * 10 ^ k⌋ * 10 ^ (18 - k)).natAbs < unitLimit ∧
      (⌈q * 10 ^ k⌉ * 10 ^ (18 - k)).natAbs < unitLimit ∧
      ⟨signedText (⌊q * 10 ^ k⌋ * 10 ^ (18 - k)), signedText (⌈q * 10 ^ k⌉ * 10 ^ (18 - k)),
        ⌊q * 10 ^ k⌋ == ⌈q * 10 ^ k⌉⟩ = b := by
  have hval : ∀ n d : ℤ, ((n * 10 ^ k : ℤ) : ℚ) / d = (n : ℚ) / d * 10 ^ k := by
    intro n d
    push_cast
    ring
  simp only [rationalDecimalBounds, bind_eq_ok, throwIf_eq_ok, pure_eq_ok_iff, Prod.exists,
    format_ok_iff hk]
  constructor
  · rintro ⟨-, -, n, d, hr, _, ⟨hlo, rfl⟩, _, ⟨hup, rfl⟩, rfl⟩
    have hd := ((integers_ok_iff _ _ _).mp hr).2.2.1
    rw [integerBounds_eq hd, hval] at hlo hup ⊢
    exact ⟨_, ⟨n, d, hr, rfl⟩, hlo, hup, rfl⟩
  · rintro ⟨_, ⟨n, d, hr, rfl⟩, hlo, hup, rfl⟩
    have hd := ((integers_ok_iff _ _ _).mp hr).2.2.1
    refine ⟨(), by omega, n, d, hr, ?_⟩
    rw [integerBounds_eq hd, hval]
    exact ⟨_, ⟨hlo, rfl⟩, _, ⟨hup, rfl⟩, rfl⟩

theorem rationalDecimalBounds_ok_iff {b : RationalDecimalBounds} :
    rationalDecimalBounds r = .ok b ↔ ∃ q, Represents r q ∧
      ⌊q * 10 ^ 18⌋.natAbs < unitLimit ∧ ⌈q * 10 ^ 18⌉.natAbs < unitLimit ∧
      ⟨signedText ⌊q * 10 ^ 18⌋, signedText ⌈q * 10 ^ 18⌉,
        ⌊q * 10 ^ 18⌋ == ⌈q * 10 ^ 18⌉⟩ = b := by
  have h := @rationalDecimalBounds_scale_iff r b 18 le_rfl
  simp only [Nat.sub_self, pow_zero, mul_one] at h
  exact h

/-- A represented value has decimal bounds unless one of them is too long. -/
theorem rationalDecimalBounds_error (hr : Represents r q) {e : Thrown}
    (h : rationalDecimalBounds r = .error e) : Oversized e := by
  obtain ⟨n, d, hints, -⟩ := hr
  rw [rationalDecimalBounds, throwIf_of_not (by omega), ok_bind, hints, ok_bind, bind_eq_error] at h
  rcases h with h | ⟨_, -, h⟩
  · exact format_error le_rfl h
  · rw [bind_eq_error] at h
    rcases h with h | ⟨_, -, h⟩
    · exact format_error le_rfl h
    · cases h

end TsxCore.TradingRational
