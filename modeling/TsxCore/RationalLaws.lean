import TsxCore.DecimalLaws
import TsxCore.RationalProducts

/-!
# The laws of bounded fractions

Every operation on fractions is the exact one, in lowest terms, as long as the reduced terms have at
most 256 digits. Rounding is exact in both directions, and what it returns is a multiple of the
increment, so that the check of it never fails.
-/

namespace TsxCore.TradingRational

open Outcome TradingDecimal

section Fractions

def LowestTerms (r : ExactRational) (q : ℚ) : Prop :=
  ∃ n d : ℤ, integers r = .ok (n, d) ∧ 0 < d ∧ Int.gcd n d = 1 ∧ q = n / d

/-- The call returns exactly if `p` holds, and then a value in lowest terms. -/
def Yields (call : Outcome ExactRational) (p : Prop) (q : ℚ) : Prop :=
  ((∃ s, call = .ok s) ↔ p) ∧ ∀ s, call = .ok s → LowestTerms s q

variable {call : Outcome ExactRational} {l r s : ExactRational} {p q : ℚ} {condition : Prop}

theorem lowestTerms_rationalText (h : Fits q) : LowestTerms (rationalText q) q := by
  refine ⟨q.num, q.den, integers_rationalText h, by exact_mod_cast q.den_pos, ?_, ?_⟩
  · exact q.reduced
  · exact_mod_cast (Rat.num_div_den q).symm

theorem yields_of_iff (hfits : condition → Fits q)
    (hcall : ∀ s, call = .ok s ↔ condition ∧ rationalText q = s) : Yields call condition q := by
  refine ⟨⟨?_, fun h => ⟨_, (hcall _).mpr ⟨h, rfl⟩⟩⟩, ?_⟩
  · rintro ⟨s, hs⟩
    exact ((hcall s).mp hs).1
  · intro s hs
    obtain ⟨h, rfl⟩ := (hcall s).mp hs
    exact lowestTerms_rationalText (hfits h)

theorem Represents.exists_iff {good : ℚ → Prop} (h : Represents l p) :
    (∃ q, Represents l q ∧ good q) ↔ good p :=
  ⟨fun ⟨_, hq, hgood⟩ => h.unique hq ▸ hgood, fun hgood => ⟨p, h, hgood⟩⟩

theorem Represents.fits (h : Represents l p) : Fits p := by
  obtain ⟨n, d, hints, rfl⟩ := h
  obtain ⟨-, hn, hpos, hd⟩ := (integers_ok_iff _ _ _).mp hints
  exact fits_div hpos hn hd

theorem yields_rational (h : Represents l p) : Yields (rational l) True p := by
  apply yields_of_iff (fun _ => h.fits)
  intro s
  rw [rational_ok_iff, h.exists_iff, true_and, and_iff_right h.fits]

variable (hl : Represents l p) (hr : Represents r q)

include hl hr

theorem yields_addRational : Yields (addRational l r) (Fits (p + q)) (p + q) := by
  apply yields_of_iff id
  intro s
  simp only [addRational_ok_iff, exists_and_left, hl.exists_iff, hr.exists_iff]

theorem yields_multiplyRational : Yields (multiplyRational l r) (Fits (p * q)) (p * q) := by
  apply yields_of_iff id
  intro s
  simp only [multiplyRational_ok_iff, exists_and_left, hl.exists_iff, hr.exists_iff]

theorem yields_divideRational : Yields (divideRational l r) (q ≠ 0 ∧ Fits (p / q)) (p / q) := by
  apply yields_of_iff And.right
  intro s
  simp only [divideRational_ok_iff, exists_and_left, hl.exists_iff, hr.exists_iff, and_assoc]

theorem compareRational_order : compareRational l r = .ok (order p q) :=
  compareRational_ok_iff.mpr ⟨p, q, hl, hr, rfl⟩

end Fractions

section Rounding

variable {r : ExactRational} {b : RationalDecimalBounds} {q : ℚ} {k u : ℕ} {s increment : String}

theorem unitValue_scale (hk : k ≤ 18) (i : ℤ) :
    unitValue (i * 10 ^ (18 - k)) = i * (1 / 10 ^ k) := by
  have hpow : (10 : ℚ) ^ 18 = 10 ^ k * 10 ^ (18 - k) := by
    rw [← pow_add, Nat.add_sub_cancel' hk]
  rw [unitValue, hpow]
  push_cast
  field_simp

theorem natAbs_scale_lt (hk : k ≤ 18) (i : ℤ) :
    (i * 10 ^ (18 - k)).natAbs < unitLimit ↔ |i| < 10 ^ (36 + k) := by
  have hlimit : unitLimit = 10 ^ (36 + k) * 10 ^ (18 - k) := by
    rw [unitLimit, ← pow_add]
    congr 1
    omega
  have hscaled : (i * 10 ^ (18 - k)).natAbs = i.natAbs * 10 ^ (18 - k) := by
    rw [Int.natAbs_mul, Int.natAbs_pow]
    rfl
  rw [hscaled, hlimit, Nat.mul_lt_mul_right (by positivity), Int.abs_eq_natAbs]
  exact_mod_cast Iff.rfl

theorem rationalDecimalBounds_returns (h : Represents r q) (hk : k ≤ 18) :
    (∃ b, rationalDecimalBounds r k = .ok b) ↔
      |⌊q * 10 ^ k⌋| < 10 ^ (36 + k) ∧ |⌈q * 10 ^ k⌉| < 10 ^ (36 + k) := by
  simp only [rationalDecimalBounds_scale_iff hk, natAbs_scale_lt hk, h.exists_iff]
  constructor
  · rintro ⟨b, hfloor, hceil, -⟩
    exact ⟨hfloor, hceil⟩
  · rintro ⟨hfloor, hceil⟩
    exact ⟨_, hfloor, hceil, rfl⟩

theorem rationalDecimalBounds_value (h : Represents r q) (hk : k ≤ 18)
    (hb : rationalDecimalBounds r k = .ok b) :
    IsGreatest (multiplesBelow (1 / 10 ^ k) q) (decimalValue b.lower) ∧
      IsLeast (multiplesAbove (1 / 10 ^ k) q) (decimalValue b.upper) ∧
      (b.exact = true ↔ b.lower = b.upper) := by
  rw [rationalDecimalBounds_scale_iff hk, h.exists_iff] at hb
  obtain ⟨-, -, rfl⟩ := hb
  have htick : (0 : ℚ) < 1 / 10 ^ k := by positivity
  have hscaled : q / (1 / 10 ^ k) = q * 10 ^ k := by rw [div_div_eq_mul_div, div_one]
  have hfloor := isGreatest_floor_mul (x := q) htick
  have hceil := isLeast_ceil_mul (x := q) htick
  rw [hscaled] at hfloor hceil
  simp only [decimalValue_signedText, unitValue_scale hk, beq_iff_eq, signedText_inj]
  exact ⟨hfloor, hceil, (mul_left_inj' (by positivity)).symm⟩

variable {direction : RoundingDirection}

theorem quantizeRational_returns (h : Represents r q) (hu : Denotes increment u) :
    (∃ s, quantizeRational r increment direction = .ok s) ↔ decimalValue increment ≠ 0 ∧
      |direction.round (q / decimalValue increment) * decimalValue increment| < 10 ^ 36 := by
  have hbound (n : ℤ) : |(n : ℚ) * unitValue u| < 10 ^ 36 ↔ (n * u).natAbs < unitLimit := by
    have habs : ((n * u).natAbs : ℚ) = |(n : ℚ) * u| := by
      rw [Nat.cast_natAbs]
      push_cast
      rfl
    rw [unitValue_natCast, ← mul_div_assoc, abs_div, abs_of_pos
      (show (0 : ℚ) < 10 ^ 18 by positivity),
      div_lt_iff₀ (by positivity), ← habs, unitLimit, ← pow_add]
    exact_mod_cast Iff.rfl
  have hzero : unitValue u ≠ 0 ↔ 0 < u := by
    rw [ne_eq, unitValue_eq_zero, Int.natCast_eq_zero, Nat.pos_iff_ne_zero]
  simp only [quantizeRational_ok_iff, exists_and_left, h.exists_iff, hu.exists_iff,
    hu.decimalValue, hbound, hzero, exists_eq', and_true]

theorem quantizeRational_value (h : Represents r q) (hu : Denotes increment u)
    (hs : quantizeRational r increment direction = .ok s) :
    decimalValue s = direction.round (q / decimalValue increment) * decimalValue increment ∧
      0 < decimalValue increment := by
  simp only [quantizeRational_ok_iff, exists_and_left, h.exists_iff, hu.exists_iff] at hs
  obtain ⟨hpos, -, rfl⟩ := hs
  rw [decimalValue_signedText, hu.decimalValue, unitValue, unitValue_natCast]
  push_cast
  exact ⟨by ring, by positivity⟩

theorem quantizeRational_floor_eq {v t : String} (hv : Denotes v u)
    (hr : rationalFromDecimal v = .ok r) (hs : quantizeRational r increment .floor = .ok s)
    (ht : quantizeDecimalDown v increment = .ok t) : s = t := by
  obtain ⟨-, i, hi, rfl⟩ := rationalFromDecimal_ok_iff.mp hr
  obtain rfl := hi.unique hv.readsSigned
  obtain ⟨_, w, hq, hw, hpos, -, rfl⟩ := quantizeRational_ok_iff.mp hs
  obtain ⟨rfl, -⟩ := represents_rationalText_iff.mp hq
  obtain ⟨u', w', hu', hw', -, -, rfl⟩ := quantizeDecimalDown_ok_iff.mp ht
  obtain rfl := hv.unique hu'
  obtain rfl := hw.unique hw'
  rw [RoundingDirection.round, unitValue_div hpos.ne', Rat.floor_natCast_div_natCast,
    ← signedText_natCast]
  push_cast
  rfl

end Rounding

section Exactness

variable {r : ExactRational} {increment : String} {direction : RoundingDirection}

/-- What `quantizeRational` throws for a result that is no decimal. -/
def inexactIncrement : Thrown := .error "Rational increment cannot be represented exactly."

abbrev Exact {α : Type} (call : Outcome α) : Prop := Throws (· ≠ inexactIncrement) call

theorem invalidDecimal_ne (value : String) : invalidDecimal value ≠ inexactIncrement := by
  intro heq
  have hhead := congrArg (fun e : Thrown => e.message.toList.head?) heq
  simp [invalidDecimal, inexactIncrement, Thrown.error] at hhead

theorem exact_throwIf {bad : Prop} [Decidable bad] {message : String}
    (h : message ≠ "Rational increment cannot be represented exactly.") :
    Exact (throwIf bad (.error message)) :=
  throws_throwIf fun heq => h (congrArg Thrown.message heq)

theorem exact_parse (value : String) : Exact (parse value) := by
  intro e he
  rw [(parse_error he).2]
  exact invalidDecimal_ne value

theorem exact_decimal (value : String) : Exact (decimal value true) := by
  apply (exact_parse _).bind
  intro parsed _
  apply (exact_throwIf (by decide)).bind
  exact fun _ _ => throws_pure _

theorem exact_integers (value : ExactRational) : Exact (integers value) := by
  apply (exact_throwIf (by decide)).bind
  exact fun _ _ => throws_pure _

theorem exact_fraction (n d : ℤ) : Exact (fraction n d) := by
  apply (exact_throwIf (by decide)).bind
  exact fun _ _ => (exact_integers _).bind fun _ _ => throws_pure _

theorem exact_rationalFromDecimal (value : String) : Exact (rationalFromDecimal value) := by
  apply (exact_throwIf (by decide)).bind
  intro _ _
  apply Throws.bind
  · intro e he
    rw [(signedDecimal_error he).2]
    exact invalidDecimal_ne _
  · exact fun _ _ => exact_fraction _ _

theorem exact_multiplyRational (l r : ExactRational) : Exact (multiplyRational l r) := by
  apply (exact_integers l).bind
  intro _ _
  apply (exact_integers r).bind
  exact fun _ _ => exact_fraction _ _

theorem exact_of_multiple {step counted result : ExactRational} {count : ℤ} {u : ℕ}
    {b : RationalDecimalBounds} (hstep : step = rationalText (unitValue u))
    (hcounted : fraction count 1 = .ok counted) (hres : multiplyRational counted step = .ok result)
    (hb : rationalDecimalBounds result = .ok b) : b.exact = true := by
  obtain ⟨-, -, rfl⟩ := fraction_ok_iff.mp hcounted
  obtain ⟨p, q, hp, hq, -, rfl⟩ := multiplyRational_ok_iff.mp hres
  subst hstep
  obtain ⟨rfl, -⟩ := represents_rationalText_iff.mp hp
  obtain ⟨rfl, -⟩ := represents_rationalText_iff.mp hq
  obtain ⟨_, hvalue, -, -, rfl⟩ := rationalDecimalBounds_ok_iff.mp hb
  obtain ⟨rfl, -⟩ := represents_rationalText_iff.mp hvalue
  dsimp only
  rw [Int.cast_one, div_one, count_mul_unitValue, Int.floor_intCast, Int.ceil_intCast,
    beq_self_eq_true]

theorem exact_quantizeRational : Exact (quantizeRational r increment direction) := by
  apply (exact_throwIf (by decide)).bind
  intro _ _
  apply (exact_decimal increment).bind
  intro normalized hnormalized
  obtain ⟨u, hu, -, rfl⟩ := decimal_positive_ok_iff.mp hnormalized
  apply (exact_rationalFromDecimal _).bind
  intro step hstep
  rw [rationalFromDecimal_text (Denotes.lt hu), Except.ok.injEq] at hstep
  apply (exact_integers r).bind
  intro v _
  apply (exact_integers step).bind
  intro s _
  apply (exact_fraction _ 1).bind
  intro counted hcounted
  apply (exact_multiplyRational counted step).bind
  intro result hres
  apply Throws.bind
  · intro e he
    obtain ⟨p, q, -, -, hfits, rfl⟩ := multiplyRational_ok_iff.mp hres
    obtain ⟨c, k, -, rfl⟩ := rationalDecimalBounds_error (represents_rationalText hfits) he
    exact invalidDecimal_ne _
  · intro b hb
    rw [exact_of_multiple hstep.symm hcounted hres hb, throwIf_of_not nofun, ok_bind]
    exact throws_pure _

end Exactness

/-- The laws of the module, for all fractions that it accepts. -/
theorem rational_laws :
    (∀ r q, Represents r q → Yields (rational r) True q) ∧
    (∀ l r p q, Represents l p → Represents r q →
      Yields (addRational l r) (Fits (p + q)) (p + q) ∧
      Yields (multiplyRational l r) (Fits (p * q)) (p * q) ∧
      Yields (divideRational l r) (q ≠ 0 ∧ Fits (p / q)) (p / q) ∧
      compareRational l r = .ok (order p q)) ∧
    (∀ r q k, Represents r q → k ≤ 18 →
      ((∃ b, rationalDecimalBounds r k = .ok b) ↔
        |⌊q * 10 ^ k⌋| < 10 ^ (36 + k) ∧ |⌈q * 10 ^ k⌉| < 10 ^ (36 + k)) ∧
      ∀ b, rationalDecimalBounds r k = .ok b →
        IsGreatest (multiplesBelow (1 / 10 ^ k) q) (decimalValue b.lower) ∧
        IsLeast (multiplesAbove (1 / 10 ^ k) q) (decimalValue b.upper) ∧
        (b.exact = true ↔ b.lower = b.upper)) ∧
    (∀ r q increment direction, Represents r q → Grammatical increment →
      ((∃ s, quantizeRational r increment direction = .ok s) ↔ decimalValue increment ≠ 0 ∧
        |direction.round (q / decimalValue increment) * decimalValue increment| < 10 ^ 36)) ∧
    (∀ r q increment s, Represents r q → Grammatical increment →
      (quantizeRational r increment .floor = .ok s →
        IsGreatest (multiplesBelow (decimalValue increment) q) (decimalValue s)) ∧
      (quantizeRational r increment .ceil = .ok s →
        IsLeast (multiplesAbove (decimalValue increment) q) (decimalValue s))) ∧
    (∀ r increment direction,
      quantizeRational r increment direction ≠ .error inexactIncrement) ∧
    ∀ v r increment s t, Grammatical v → rationalFromDecimal v = .ok r →
      quantizeRational r increment .floor = .ok s → quantizeDecimalDown v increment = .ok t →
        s = t := by
  refine ⟨fun r q h => yields_rational h, ?_, ?_, ?_, ?_, ?_, ?_⟩
  · intro l r p q hl hr
    exact ⟨yields_addRational hl hr, yields_multiplyRational hl hr, yields_divideRational hl hr,
      compareRational_order hl hr⟩
  · intro r q k h hk
    exact ⟨rationalDecimalBounds_returns h hk, fun b hb => rationalDecimalBounds_value h hk hb⟩
  · intro r q increment direction h hincrement
    obtain ⟨u, hu⟩ := exists_denotes hincrement
    exact quantizeRational_returns h hu
  · intro r q increment s h hincrement
    obtain ⟨u, hu⟩ := exists_denotes hincrement
    refine ⟨fun hs => ?_, fun hs => ?_⟩
    · obtain ⟨hvalue, hpos⟩ := quantizeRational_value h hu hs
      rw [hvalue]
      exact isGreatest_floor_mul hpos
    · obtain ⟨hvalue, hpos⟩ := quantizeRational_value h hu hs
      rw [hvalue]
      exact isLeast_ceil_mul hpos
  · exact fun r increment direction h => exact_quantizeRational _ h rfl
  · intro v r increment s t hv hr hs ht
    obtain ⟨u, hu⟩ := exists_denotes hv
    exact quantizeRational_floor_eq hu hr hs ht

/-- A fraction may have more integer digits than a decimal. -/
theorem decimal_digits_exceeded :
    ∃ r, Represents r (10 ^ 36) ∧ (∀ b, rationalDecimalBounds r ≠ .ok b) ∧
      ∀ s, quantizeRational r "1" .floor ≠ .ok s := by
  have hvalue : unitValue (10 ^ 54) = 10 ^ 36 := by norm_num [unitValue]
  have hfits : Fits (10 ^ 36) := hvalue ▸ fits_unitValue (by norm_num [unitLimit])
  have hone : Denotes "1" (10 ^ 18) := ⟨⟨1, 0⟩, by decide, by decide⟩
  have hr := represents_rationalText hfits
  refine ⟨_, hr, fun b hb => ?_, fun s hs => ?_⟩
  · obtain ⟨hfloor, -⟩ := (rationalDecimalBounds_returns hr le_rfl).mp ⟨b, hb⟩
    have hscaled : (10 ^ 36 * 10 ^ 18 : ℚ) = ((10 ^ (36 + 18) : ℤ) : ℚ) := by norm_num
    rw [hscaled, Int.floor_intCast, abs_of_pos (by positivity)] at hfloor
    exact lt_irrefl _ hfloor
  · obtain ⟨-, hlt⟩ := (quantizeRational_returns hr hone).mp ⟨s, hs⟩
    rw [hone.decimalValue] at hlt
    norm_num [unitValue, RoundingDirection.round] at hlt

end TsxCore.TradingRational
