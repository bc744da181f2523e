import TsxCore.RationalValue

/-!
# The rational value of a decimal text

`decimalValue` reads any optionally signed numeral, also one that is too long
for `parse` to accept, so that the result of an operation has a value before
the next operation checks its digits. On accepted texts it counts quanta.
-/

namespace TsxCore.TradingDecimal

open Outcome Numeral TradingRational

variable {i : ℤ} {s : String}

def decimalValue (value : String) : ℚ :=
  let digits := trim (magnitude value)
  let absolute : ℚ := (Nat.ofDigitChars 10 (integerPart digits ++ fractionPart digits) 0 : ℕ) /
    10 ^ (fractionPart digits).length
  if isNegative value then -absolute else absolute

theorem unitValue_natCast (u : ℕ) : unitValue u = u / 10 ^ 18 := by
  simp [unitValue]

@[simp] theorem unitValue_zero : unitValue 0 = 0 := by
  simp [unitValue]

theorem unitValue_add (i j : ℤ) : unitValue (i + j) = unitValue i + unitValue j := by
  rw [unitValue, unitValue, unitValue, Int.cast_add, add_div]

theorem unitValue_sub (i j : ℤ) : unitValue (i - j) = unitValue i - unitValue j := by
  rw [unitValue, unitValue, unitValue, Int.cast_sub, sub_div]

theorem unitValue_neg (i : ℤ) : unitValue (-i) = -unitValue i := by
  rw [unitValue, unitValue, Int.cast_neg, neg_div]

theorem unitValue_injective {j : ℤ} (h : unitValue i = unitValue j) : i = j := by
  rw [unitValue, unitValue, div_left_inj' (by positivity)] at h
  exact_mod_cast h

@[simp] theorem unitValue_eq_zero : unitValue i = 0 ↔ i = 0 := by
  simp [unitValue]

theorem unitValue_le_iff {j : ℤ} : unitValue i ≤ unitValue j ↔ i ≤ j := by
  rw [unitValue, unitValue, div_le_div_iff_of_pos_right (by positivity)]
  exact_mod_cast Iff.rfl

theorem unitValue_nonneg (u : ℕ) : 0 ≤ unitValue u := by
  rw [unitValue_natCast]
  positivity

theorem unitValue_mul {j k : ℤ} (h : i * j = k * 10 ^ 18) :
    unitValue i * unitValue j = unitValue k := by
  have hcast : (i : ℚ) * j = k * 10 ^ 18 := by exact_mod_cast h
  rw [unitValue, unitValue, unitValue, div_mul_div_comm, hcast]
  field_simp

theorem numeral_value {c k : ℕ} (hk : k ≤ 18) :
    ((c : ℕ) : ℚ) / 10 ^ k = unitValue (c * 10 ^ (18 - k) : ℕ) := by
  have hpow : (10 : ℚ) ^ 18 = 10 ^ (18 - k) * 10 ^ k := by
    rw [← pow_add]
    congr 1
    omega
  rw [unitValue_natCast, hpow]
  push_cast
  rw [mul_comm ((10 : ℚ) ^ (18 - k)), mul_div_mul_right _ _ (by positivity)]

theorem digits_numeral {c k : ℕ} (hs : s.toList = numeral c k) :
    Nat.ofDigitChars 10 (integerPart s ++ fractionPart s) 0 = c ∧ (fractionPart s).length = k := by
  rw [integerPart, fractionPart, hs, takeWhile_numeral, drop_point_numeral, ofDigitChars_split,
    length_fixedDigits]
  exact ⟨rfl, rfl⟩

theorem decimalValue_of_numeral {c k : ℕ} (hk : k ≤ 18)
    (hs : (trim (magnitude s)).toList = numeral c k) :
    decimalValue s = unitValue (signedUnits (isNegative s) (c * 10 ^ (18 - k))) := by
  obtain ⟨hvalue, hlen⟩ := digits_numeral hs
  rw [decimalValue, hvalue, hlen, numeral_value hk, signedUnits]
  split_ifs
  · rw [unitValue_neg]
  · rfl

theorem ReadsSigned.decimalValue (h : ReadsSigned s i) : decimalValue s = unitValue i := by
  obtain ⟨_, ⟨p, hp, rfl⟩, rfl⟩ := h
  obtain ⟨hs, hscale, -⟩ := numeral_of_parse hp
  exact decimalValue_of_numeral hscale hs

theorem Denotes.decimalValue {u : ℕ} (h : Denotes s u) : decimalValue s = unitValue u :=
  h.readsSigned.decimalValue

@[simp] theorem decimalValue_signedText (i : ℤ) : decimalValue (signedText i) = unitValue i := by
  have hs : (trim (magnitude (signedText i))).toList = canonical i.natAbs 18 := by
    rw [magnitude_signedText, trim_text, text_eq_canonical, String.toList_ofList]
  rw [decimalValue_of_numeral (reduced_scale_le 18 _) hs, reduced_mul, isNegative_signedText,
    signedUnits_natAbs]

@[simp] theorem decimalValue_text (u : ℕ) : decimalValue (text u) = unitValue u := by
  rw [← signedText_natCast, decimalValue_signedText]

end TsxCore.TradingDecimal
