import TsxCore.DecimalBounds
import TsxCore.OutcomeErrors

/-!
# The laws of decimal arithmetic

Every text that the decimal module computes is canonical, so that two of them are equal exactly when
their values are. Sums and differences are exact, products and quotients are truncated to a multiple
of the quantum, and no scale on the way is outside the range of `powerOfTen`.
-/

namespace TsxCore.TradingDecimal

open Outcome Numeral TradingRational

variable {l r s t : String}

section Canonical

variable {c k : ℕ}

/-- No zeros at the end of a fraction, and no sign before zero. -/
def Canonical (s : String) : Prop :=
  ∃ c k, (magnitude s).toList = numeral c k ∧ (k ≠ 0 → c % 10 ≠ 0) ∧ (isNegative s = true → c ≠ 0)

theorem reduced_mod_ne_zero (h : (reduced c k).2 ≠ 0) : (reduced c k).1 % 10 ≠ 0 := by
  induction k generalizing c with
  | zero => exact absurd rfl h
  | succ k ih =>
    rw [reduced] at h ⊢
    by_cases hzero : c % 10 = 0
    · rw [if_pos hzero] at h ⊢
      exact ih h
    · rw [if_neg hzero]
      exact hzero

theorem reduced_of_mod_ne_zero (h : k ≠ 0 → c % 10 ≠ 0) : reduced c k = (c, k) := by
  cases k with
  | zero => rfl
  | succ k => rw [reduced, if_neg (h k.succ_ne_zero)]

theorem canonical_signedText (i : ℤ) : Canonical (signedText i) := by
  refine ⟨(reduced i.natAbs 18).1, (reduced i.natAbs 18).2, ?_, reduced_mod_ne_zero, ?_⟩
  · rw [magnitude_signedText, text_eq_canonical, String.toList_ofList, Numeral.canonical]
  · intro hnegative hzero
    have hvalue := reduced_mul 18 i.natAbs
    rw [isNegative_signedText, decide_eq_true_eq] at hnegative
    rw [hzero, Nat.zero_mul] at hvalue
    omega

theorem canonical_text (u : ℕ) : Canonical (text u) := by
  rw [← signedText_natCast]
  exact canonical_signedText u

theorem numeral_eq_of_value {d m : ℕ} (hc : k ≠ 0 → c % 10 ≠ 0) (hd : m ≠ 0 → d % 10 ≠ 0)
    (h : (c : ℚ) / 10 ^ k = d / 10 ^ m) : c = d ∧ k = m := by
  rw [div_eq_div_iff (by positivity) (by positivity)] at h
  have hcross : c * 10 ^ m = d * 10 ^ k := by exact_mod_cast h
  have hleft := reduced_shift k c m
  rw [hcross, Nat.add_comm, reduced_shift, reduced_of_mod_ne_zero hc, reduced_of_mod_ne_zero hd]
    at hleft
  exact ⟨(congrArg Prod.fst hleft).symm, (congrArg Prod.snd hleft).symm⟩

theorem decimalValue_of_magnitude (h : (magnitude s).toList = numeral c k) :
    decimalValue s = if isNegative s = true then -((c : ℚ) / 10 ^ k) else (c : ℚ) / 10 ^ k := by
  have hspace : hasSpace (magnitude s) = false := by
    rw [hasSpace, h, numeral_any_isSpace]
  obtain ⟨hvalue, hlen⟩ := digits_numeral h
  rw [decimalValue, trim_of_hasSpace_false hspace, hvalue, hlen]

theorem toList_of_isNegative (h : isNegative s = true) :
    s.toList = '-' :: (magnitude s).toList := by
  rw [magnitude, if_pos h, tail, String.toList_ofList]
  rw [isNegative, beq_iff_eq, List.head?_eq_some_iff] at h
  obtain ⟨cs, hcs⟩ := h
  rw [hcs]
  rfl

theorem eq_of_magnitude (hsign : isNegative s = isNegative t) (h : magnitude s = magnitude t) :
    s = t := by
  by_cases hnegative : isNegative s = true
  · have hnegative' : isNegative t = true := hsign ▸ hnegative
    apply String.toList_injective
    rw [toList_of_isNegative hnegative, toList_of_isNegative hnegative', h]
  · have hnegative' : ¬ isNegative t = true := hsign ▸ hnegative
    rw [magnitude, magnitude, if_neg hnegative, if_neg hnegative'] at h
    exact h

theorem Canonical.isNegative_iff (h : Canonical s) : isNegative s = true ↔ decimalValue s < 0 := by
  obtain ⟨c, k, hdigits, -, hzero⟩ := h
  rw [decimalValue_of_magnitude hdigits]
  by_cases hnegative : isNegative s = true
  · have hpos : (0 : ℚ) < c := by exact_mod_cast Nat.pos_of_ne_zero (hzero hnegative)
    rw [if_pos hnegative, neg_lt_zero]
    exact iff_of_true hnegative (by positivity)
  · rw [if_neg hnegative]
    exact iff_of_false hnegative (not_lt.mpr (by positivity))

theorem Canonical.eq_iff (hs : Canonical s) (ht : Canonical t) :
    s = t ↔ decimalValue s = decimalValue t := by
  refine ⟨fun h => by rw [h], fun h => ?_⟩
  have hsign : isNegative s = isNegative t := by
    rw [Bool.eq_iff_iff, hs.isNegative_iff, ht.isNegative_iff, h]
  obtain ⟨c, k, hdigits, hc, -⟩ := hs
  obtain ⟨d, m, hdigits', hd, -⟩ := ht
  rw [decimalValue_of_magnitude hdigits, decimalValue_of_magnitude hdigits', hsign] at h
  have hvalue : (c : ℚ) / 10 ^ k = d / 10 ^ m := by
    split_ifs at h
    · exact neg_inj.mp h
    · exact h
  obtain ⟨rfl, rfl⟩ := numeral_eq_of_value hc hd hvalue
  exact eq_of_magnitude hsign (String.toList_injective (hdigits.trans hdigits'.symm))

end Canonical

section Scales

/-- What `powerOfTen` throws. -/
def scaleError : Thrown := .error "Decimal scale is outside the supported range."

theorem error_ne_scaleError {message : String}
    (h : message.toList.take 9 ≠ ['D', 'e', 'c', 'i', 'm', 'a', 'l', ' ', 's']) :
    Thrown.error message ≠ scaleError := by
  intro heq
  apply h
  rw [show message = "Decimal scale is outside the supported range." from
    congrArg Thrown.message heq]
  rfl

abbrev Unscaled {α : Type} (call : Outcome α) : Prop := Throws (· ≠ scaleError) call

theorem unscaled_throwIf {bad : Prop} [Decidable bad] {message : String}
    (h : message.toList.take 9 ≠ ['D', 'e', 'c', 'i', 'm', 'a', 'l', ' ', 's']) :
    Unscaled (throwIf bad (.error message)) := throws_throwIf (error_ne_scaleError h)

theorem unscaled_parse (value : String) : Unscaled (parse value) := by
  apply (unscaled_throwIf (by simp)).bind
  exact fun _ _ => throws_pure _

theorem unscaled_powerOfTen {e : ℕ} (he : e ≤ 36) : Unscaled (powerOfTen e) := by
  rw [powerOfTen_of_le he]
  exact throws_ok _

theorem unscaled_aligned {β : Type} {f : Aligned → Outcome β} (hf : ∀ a, Unscaled (f a)) :
    Unscaled (do f (← align (← parse l) (← parse r))) := by
  apply (unscaled_parse l).bind
  intro p hp
  apply (unscaled_parse r).bind
  intro q hq
  obtain ⟨a, ha, -⟩ := align_parsed hp hq
  rw [ha]
  exact (throws_ok a).bind fun a _ => hf a

theorem unscaled_compareDecimal : Unscaled (compareDecimal l r) :=
  unscaled_aligned fun _ => throws_pure _

theorem unscaled_addDecimal : Unscaled (addDecimal l r) := unscaled_aligned fun _ => throws_pure _

theorem unscaled_subtractDecimal : Unscaled (subtractDecimal l r) := by
  apply unscaled_aligned
  intro a
  apply (unscaled_throwIf (by decide)).bind
  exact fun _ _ => throws_pure _

theorem unscaled_decimal (value : String) (positive : Bool) (maximum : Option String) :
    Unscaled (decimal value positive maximum) := by
  apply (unscaled_parse _).bind
  intro parsed _
  apply (unscaled_throwIf (by decide)).bind
  intro _ _
  cases maximum with
  | none => exact throws_pure _
  | some bound =>
    apply unscaled_compareDecimal.bind
    intro order _
    apply (unscaled_throwIf (by simp)).bind
    exact fun _ _ => throws_pure _

theorem unscaled_multiplyDecimal : Unscaled (multiplyDecimal l r) := by
  apply (unscaled_parse l).bind
  intro p hp
  apply (unscaled_parse r).bind
  intro q hq
  have hscale := (numeral_of_parse hp).2.1
  have hscale' := (numeral_of_parse hq).2.1
  dsimp only
  split_ifs
  · exact throws_pure _
  · exact (unscaled_powerOfTen (by omega)).bind fun _ _ => throws_pure _

theorem unscaled_divideDecimal (k : ℕ) : Unscaled (divideDecimal l r k) := by
  apply (unscaled_parse l).bind
  intro p hp
  apply (unscaled_parse r).bind
  intro q hq
  have hscale := (numeral_of_parse hp).2.1
  have hscale' := (numeral_of_parse hq).2.1
  apply (unscaled_throwIf (by decide)).bind
  intro _ _
  apply (unscaled_throwIf (by decide)).bind
  intro _ hk
  rw [throwIf_eq_ok] at hk
  apply (unscaled_powerOfTen (by omega)).bind
  intro _ _
  exact (unscaled_powerOfTen (by omega)).bind fun _ _ => throws_pure _

theorem unscaled_sumDecimals (values : List String) : Unscaled (sumDecimals values) :=
  throws_foldlM (fun _ _ _ => unscaled_addDecimal) "0"

theorem unscaled_minDecimal (first : String) (values : List String) :
    Unscaled (minDecimal first values) :=
  throws_foldlM (fun _ _ _ => unscaled_compareDecimal.bind fun _ _ => throws_pure _) first

theorem unscaled_midpointDecimal : Unscaled (midpointDecimal l r) := by
  apply unscaled_compareDecimal.bind
  intro order _
  apply (unscaled_throwIf (by decide)).bind
  intro _ _
  exact unscaled_addDecimal.bind fun _ _ => unscaled_divideDecimal 18

theorem unscaled_quantizeDecimalDown : Unscaled (quantizeDecimalDown l r) := by
  apply (unscaled_decimal l false none).bind
  intro _ _
  apply (unscaled_decimal r true none).bind
  intro _ _
  exact (unscaled_divideDecimal 0).bind fun _ _ => unscaled_multiplyDecimal

theorem unscaled_signedDecimal (value : String) : Unscaled (signedDecimal value) :=
  (unscaled_decimal _ false none).bind fun _ _ => throws_pure _

theorem unscaled_negateSignedDecimal (value : String) : Unscaled (negateSignedDecimal value) :=
  (unscaled_signedDecimal value).bind fun _ _ => throws_pure _

theorem unscaled_addSignedDecimal : Unscaled (addSignedDecimal l r) := by
  apply (unscaled_signedDecimal l).bind
  intro signedLeft _
  apply (unscaled_signedDecimal r).bind
  intro signedRight _
  dsimp only
  split
  · exact unscaled_addDecimal.bind fun _ _ => throws_pure _
  · apply unscaled_compareDecimal.bind
    intro order _
    split
    · exact throws_pure _
    · split
      · exact unscaled_subtractDecimal.bind fun _ _ => throws_pure _
      · exact unscaled_subtractDecimal.bind fun _ _ => throws_pure _

theorem unscaled_signedDifference : Unscaled (signedDifference l r) := by
  apply unscaled_compareDecimal.bind
  intro order _
  split_ifs
  · exact throws_pure _
  · exact unscaled_subtractDecimal.bind fun _ _ => throws_pure _
  · exact unscaled_subtractDecimal.bind fun _ _ => throws_pure _

theorem unscaled_multiplySignedDecimal : Unscaled (multiplySignedDecimal l r) := by
  apply (unscaled_signedDecimal l).bind
  intro signedLeft _
  apply (unscaled_signedDecimal r).bind
  intro signedRight _
  apply unscaled_multiplyDecimal.bind
  intro product _
  split
  · exact unscaled_negateSignedDecimal product
  · exact throws_pure _

theorem unscaled_multiplyExactSignedDecimal : Unscaled (multiplyExactSignedDecimal l r) := by
  apply (unscaled_signedDecimal l).bind
  intro signedLeft _
  apply (unscaled_signedDecimal r).bind
  intro signedRight _
  apply (unscaled_parse _).bind
  intro p _
  apply (unscaled_parse _).bind
  intro q _
  apply (unscaled_throwIf (by decide)).bind
  intro _ _
  apply (unscaled_decimal _ false none).bind
  intro product _
  split
  · exact unscaled_negateSignedDecimal product
  · exact throws_pure _

theorem unscaled_allocateDecimalExact {v n d : String} :
    Unscaled (allocateDecimalExact v n d) := by
  apply (unscaled_decimal v false none).bind
  intro amount _
  apply (unscaled_parse amount).bind
  intro p hp
  apply (unscaled_decimal n false none).bind
  intro share _
  apply (unscaled_parse share).bind
  intro q hq
  apply (unscaled_decimal d true none).bind
  intro total _
  apply (unscaled_parse total).bind
  intro t ht
  have hp' := (numeral_of_parse hp).2.1
  have hq' := (numeral_of_parse hq).2.1
  have ht' := (numeral_of_parse ht).2.1
  apply (unscaled_powerOfTen (by omega)).bind
  intro _ _
  apply (unscaled_powerOfTen (by omega)).bind
  intro _ _
  apply (unscaled_powerOfTen (by omega)).bind
  intro _ _
  apply (unscaled_throwIf (by decide)).bind
  intro _ _
  exact unscaled_decimal _ false none

end Scales

section Operations

/-- A call that computes a decimal. `minDecimal` is none, it returns one of its arguments. -/
inductive Operation
  | decimal (value : String) (positive : Bool) (maximum : Option String)
  | addDecimal (left right : String)
  | subtractDecimal (left right : String)
  | multiplyDecimal (left right : String)
  | divideDecimal (left right : String) (scale : ℕ)
  | sumDecimals (values : List String)
  | midpointDecimal (min max : String)
  | quantizeDecimalDown (value increment : String)
  | signedDecimal (value : String)
  | negateSignedDecimal (value : String)
  | addSignedDecimal (left right : String)
  | subtractSignedDecimal (left right : String)
  | multiplySignedDecimal (left right : String)
  | multiplyExactSignedDecimal (left right : String)
  | allocateDecimalExact (value numerator denominator : String)
  | signedDifference (left right : String)

def Operation.run : Operation → Outcome String
  | .decimal value positive maximum => TradingDecimal.decimal value positive maximum
  | .addDecimal left right => TradingDecimal.addDecimal left right
  | .subtractDecimal left right => TradingDecimal.subtractDecimal left right
  | .multiplyDecimal left right => TradingDecimal.multiplyDecimal left right
  | .divideDecimal left right scale => TradingDecimal.divideDecimal left right scale
  | .sumDecimals values => TradingDecimal.sumDecimals values
  | .midpointDecimal min max => TradingDecimal.midpointDecimal min max
  | .quantizeDecimalDown value increment => TradingDecimal.quantizeDecimalDown value increment
  | .signedDecimal value => TradingDecimal.signedDecimal value
  | .negateSignedDecimal value => TradingDecimal.negateSignedDecimal value
  | .addSignedDecimal left right => TradingDecimal.addSignedDecimal left right
  | .subtractSignedDecimal left right => TradingDecimal.subtractSignedDecimal left right
  | .multiplySignedDecimal left right => TradingDecimal.multiplySignedDecimal left right
  | .multiplyExactSignedDecimal left right => TradingDecimal.multiplyExactSignedDecimal left right
  | .allocateDecimalExact value numerator denominator =>
    TradingDecimal.allocateDecimalExact value numerator denominator
  | .signedDifference left right => TradingDecimal.signedDifference left right

theorem Operation.unscaled (operation : Operation) : Unscaled operation.run := by
  cases operation with
  | decimal value positive maximum => exact unscaled_decimal value positive maximum
  | addDecimal left right => exact unscaled_addDecimal
  | subtractDecimal left right => exact unscaled_subtractDecimal
  | multiplyDecimal left right => exact unscaled_multiplyDecimal
  | divideDecimal left right scale => exact unscaled_divideDecimal scale
  | sumDecimals values => exact unscaled_sumDecimals values
  | midpointDecimal min max => exact unscaled_midpointDecimal
  | quantizeDecimalDown value increment => exact unscaled_quantizeDecimalDown
  | signedDecimal value => exact unscaled_signedDecimal value
  | negateSignedDecimal value => exact unscaled_negateSignedDecimal value
  | addSignedDecimal left right => exact unscaled_addSignedDecimal
  | subtractSignedDecimal left right =>
    exact (unscaled_negateSignedDecimal right).bind fun _ _ => unscaled_addSignedDecimal
  | multiplySignedDecimal left right => exact unscaled_multiplySignedDecimal
  | multiplyExactSignedDecimal left right => exact unscaled_multiplyExactSignedDecimal
  | allocateDecimalExact value numerator denominator => exact unscaled_allocateDecimalExact
  | signedDifference left right => exact unscaled_signedDifference

theorem divideDecimal_scale {k : ℕ} (h : divideDecimal l r k = .ok s) : k ≤ 18 := by
  simp only [divideDecimal, bind_eq_ok, throwIf_eq_ok, not_lt] at h
  obtain ⟨-, -, -, -, -, -, -, hk, -⟩ := h
  exact hk

theorem canonical_divideDecimal {k : ℕ} (h : divideDecimal l r k = .ok s) : Canonical s := by
  obtain ⟨u, v, -, -, -, rfl⟩ := (divideDecimal_ok_iff (divideDecimal_scale h)).mp h
  exact canonical_text _

theorem canonical_negateSignedDecimal (h : negateSignedDecimal l = .ok s) : Canonical s := by
  obtain ⟨i, -, rfl⟩ := negateSignedDecimal_ok_iff.mp h
  exact canonical_signedText _

theorem canonical_addSignedDecimal (h : addSignedDecimal l r = .ok s) : Canonical s := by
  obtain ⟨i, j, -, -, rfl⟩ := addSignedDecimal_ok_iff.mp h
  exact canonical_signedText _

theorem canonical_multiplyDecimal (h : multiplyDecimal l r = .ok s) : Canonical s := by
  obtain ⟨u, v, -, -, rfl⟩ := multiplyDecimal_ok_iff.mp h
  exact canonical_text _

theorem canonical_multiplySignedDecimal (h : multiplySignedDecimal l r = .ok s) :
    Canonical s := by
  simp only [multiplySignedDecimal, bind_eq_ok] at h
  obtain ⟨_, -, _, -, product, hprod, h⟩ := h
  split_ifs at h
  · exact canonical_negateSignedDecimal h
  · obtain rfl := pure_eq_ok_iff.mp h
    exact canonical_multiplyDecimal hprod

theorem Operation.canonical {operation : Operation} (h : operation.run = .ok s) : Canonical s := by
  cases operation with
  | decimal value positive maximum =>
    obtain ⟨u, -, rfl, -⟩ := decimal_reads h
    exact canonical_text u
  | addDecimal left right =>
    obtain ⟨u, v, -, -, rfl⟩ := addDecimal_ok_iff.mp h
    exact canonical_text _
  | subtractDecimal left right =>
    obtain ⟨u, v, -, -, -, rfl⟩ := subtractDecimal_ok_iff.mp h
    exact canonical_text _
  | multiplyDecimal left right => exact canonical_multiplyDecimal h
  | divideDecimal left right scale => exact canonical_divideDecimal h
  | sumDecimals values =>
    obtain ⟨us, -, rfl⟩ := sumDecimals_ok h
    exact canonical_text _
  | midpointDecimal min max =>
    obtain ⟨_, -, h⟩ := bind_eq_ok.mp h
    obtain ⟨_, -, h⟩ := bind_eq_ok.mp h
    obtain ⟨_, -, h⟩ := bind_eq_ok.mp h
    exact canonical_divideDecimal h
  | quantizeDecimalDown value increment =>
    obtain ⟨u, v, -, -, -, -, rfl⟩ := quantizeDecimalDown_ok_iff.mp h
    exact canonical_text _
  | signedDecimal value =>
    obtain ⟨i, -, rfl⟩ := signedDecimal_ok_iff.mp h
    exact canonical_signedText i
  | negateSignedDecimal value => exact canonical_negateSignedDecimal h
  | addSignedDecimal left right => exact canonical_addSignedDecimal h
  | subtractSignedDecimal left right =>
    obtain ⟨_, -, h⟩ := bind_eq_ok.mp h
    exact canonical_addSignedDecimal h
  | multiplySignedDecimal left right => exact canonical_multiplySignedDecimal h
  | multiplyExactSignedDecimal left right =>
    obtain ⟨i, j, k, -, -, -, -, rfl⟩ := multiplyExactSignedDecimal_ok_iff.mp h
    exact canonical_signedText k
  | allocateDecimalExact value numerator denominator =>
    obtain ⟨a, b, c, -, -, -, -, -, -, rfl⟩ := allocateDecimalExact_ok_iff.mp h
    exact canonical_text _
  | signedDifference left right =>
    obtain ⟨u, v, -, -, rfl⟩ := signedDifference_ok_iff.mp h
    exact canonical_signedText _

end Operations

section Laws

/-- `DECIMAL_PATTERN` accepts the text. -/
def Grammatical (s : String) : Prop := decimalPattern s.toList = true

/-- What `decimal` accepts. -/
def Padded (s : String) : Prop := Grammatical (trim s)

/-- What `signedDecimal` accepts. -/
def SignedGrammatical (s : String) : Prop := Padded (magnitude s)

def WithinDigits (q : ℚ) : Prop := (∃ i : ℤ, q * 10 ^ 18 = i) ∧ |q| < 10 ^ 36

/-- The call returns exactly if `p` holds, and then a canonical text whose value is as described. -/
def Gives (call : Outcome String) (p : Prop) (described : ℚ → Prop) : Prop :=
  ((∃ s, call = .ok s) ↔ p) ∧ ∀ s, call = .ok s → Canonical s ∧ described (decimalValue s)

variable {call : Outcome String} {p : Prop} {described : ℚ → Prop} {u v : ℕ} {i j : ℤ}

theorem exists_denotes (h : Grammatical s) : ∃ u, Denotes s u := by
  have hparse : ∃ p, parse s = .ok p := by
    rw [parse, throwIf_of_not (by rw [h]; decide), ok_bind]
    exact ⟨_, rfl⟩
  obtain ⟨p, hp⟩ := hparse
  exact ⟨p.units, p, hp, rfl⟩

theorem exists_readsSigned (h : SignedGrammatical s) : ∃ i, ReadsSigned s i := by
  obtain ⟨u, hu⟩ := exists_denotes h
  exact ⟨_, u, hu, rfl⟩

theorem gives_signedText (hcall : ∀ s, call = .ok s ↔ p ∧ signedText i = s)
    (hvalue : p → described (unitValue i)) : Gives call p described := by
  refine ⟨⟨?_, fun hp => ⟨_, (hcall _).mpr ⟨hp, rfl⟩⟩⟩, ?_⟩
  · rintro ⟨s, hs⟩
    exact ((hcall s).mp hs).1
  · intro s hs
    obtain ⟨hp, rfl⟩ := (hcall s).mp hs
    rw [decimalValue_signedText]
    exact ⟨canonical_signedText i, hvalue hp⟩

theorem gives_text (hcall : ∀ s, call = .ok s ↔ p ∧ text u = s)
    (hvalue : p → described (unitValue u)) : Gives call p described := by
  apply gives_signedText (i := u) _ hvalue
  rw [signedText_natCast]
  exact hcall

theorem Denotes.exists_iff {q : ℕ → Prop} (h : Denotes l u) :
    (∃ v, Denotes l v ∧ q v) ↔ q u :=
  ⟨fun ⟨_, hv, hq⟩ => h.unique hv ▸ hq, fun hq => ⟨u, h, hq⟩⟩

theorem ReadsSigned.exists_iff {q : ℤ → Prop} (h : ReadsSigned l i) :
    (∃ j, ReadsSigned l j ∧ q j) ↔ q i :=
  ⟨fun ⟨_, hj, hq⟩ => h.unique hj ▸ hq, fun hq => ⟨i, h, hq⟩⟩

theorem isGreatest_div {a b : ℕ} {tick x : ℚ} (htick : 0 < tick) (h : x / tick = (a : ℚ) / b) :
    IsGreatest (multiplesBelow tick x) ((a / b : ℕ) * tick) := by
  have hgreatest := isGreatest_floor_mul (x := x) htick
  rw [h, Rat.floor_natCast_div_natCast] at hgreatest
  exact_mod_cast hgreatest

theorem unitValue_div_pow {k : ℕ} (hk : k ≤ 18) (n : ℕ) :
    unitValue (n * 10 ^ (18 - k) : ℕ) = n * (1 / 10 ^ k) := by
  rw [← numeral_value hk, mul_one_div]

theorem unitValue_div (hv : v ≠ 0) : unitValue u / unitValue v = (u : ℚ) / v := by
  have hvq : (v : ℚ) ≠ 0 := by exact_mod_cast hv
  rw [unitValue_natCast, unitValue_natCast]
  field_simp

section Unsigned

variable (hu : Denotes l u) (hv : Denotes r v)

include hu hv

theorem gives_addDecimal :
    Gives (addDecimal l r) True (· = decimalValue l + decimalValue r) := by
  apply gives_text (u := u + v)
  · intro s
    simp only [addDecimal_ok_iff, exists_and_left, hu.exists_iff, hv.exists_iff, true_and]
  · intro _
    rw [hu.decimalValue, hv.decimalValue, Nat.cast_add, unitValue_add]

theorem gives_subtractDecimal : Gives (subtractDecimal l r) (decimalValue r ≤ decimalValue l)
    (· = decimalValue l - decimalValue r) := by
  have hle : decimalValue r ≤ decimalValue l ↔ v ≤ u := by
    rw [hu.decimalValue, hv.decimalValue, unitValue_le_iff, Nat.cast_le]
  rw [hle]
  apply gives_text (u := u - v)
  · intro s
    simp only [subtractDecimal_ok_iff, exists_and_left, hu.exists_iff, hv.exists_iff]
  · intro h
    rw [hu.decimalValue, hv.decimalValue, Nat.cast_sub h, unitValue_sub]

theorem gives_signedDifference :
    Gives (signedDifference l r) True (· = decimalValue l - decimalValue r) := by
  apply gives_signedText (i := u - v)
  · intro s
    rw [signedDifference_of_denotes hu hv, Except.ok.injEq, true_and]
  · intro _
    rw [hu.decimalValue, hv.decimalValue, unitValue_sub]

theorem gives_multiplyDecimal : Gives (multiplyDecimal l r) True
    (IsGreatest (multiplesBelow (1 / 10 ^ 18) (decimalValue l * decimalValue r))) := by
  apply gives_text (u := u * v / 10 ^ 18)
  · intro s
    simp only [multiplyDecimal_ok_iff, exists_and_left, hu.exists_iff, hv.exists_iff, true_and]
  · intro _
    have hvalue : unitValue (u * v / 10 ^ 18 : ℕ) = (u * v / 10 ^ 18 : ℕ) * (1 / 10 ^ 18) := by
      rw [unitValue_natCast, mul_one_div]
    rw [hvalue]
    apply isGreatest_div (by positivity)
    rw [hu.decimalValue, hv.decimalValue, unitValue_natCast, unitValue_natCast]
    push_cast
    ring

theorem gives_divideDecimal (k : ℕ) : Gives (divideDecimal l r k) (decimalValue r ≠ 0 ∧ k ≤ 18)
    (IsGreatest (multiplesBelow (1 / 10 ^ k) (decimalValue l / decimalValue r))) := by
  have hzero : decimalValue r ≠ 0 ↔ 0 < v := by
    rw [hv.decimalValue, ne_eq, unitValue_eq_zero, Int.natCast_eq_zero, Nat.pos_iff_ne_zero]
  rw [hzero]
  apply gives_text (u := u * 10 ^ k / v * 10 ^ (18 - k))
  · intro s
    constructor
    · intro h
      have hk := divideDecimal_scale h
      simp only [divideDecimal_ok_iff hk, exists_and_left, hu.exists_iff, hv.exists_iff] at h
      exact ⟨⟨h.1, hk⟩, h.2⟩
    · rintro ⟨⟨hpos, hk⟩, h⟩
      exact (divideDecimal_ok_iff hk).mpr ⟨u, v, hu, hv, hpos, h⟩
  · rintro ⟨hpos, hk⟩
    rw [unitValue_div_pow hk]
    apply isGreatest_div (by positivity)
    rw [hu.decimalValue, hv.decimalValue, unitValue_div hpos.ne']
    push_cast
    field_simp

theorem gives_quantizeDecimalDown : Gives (quantizeDecimalDown l r)
    (decimalValue r ≠ 0 ∧ decimalValue l / decimalValue r < 10 ^ 36)
    (IsGreatest (multiplesBelow (decimalValue r) (decimalValue l))) := by
  have hcond : decimalValue r ≠ 0 ∧ decimalValue l / decimalValue r < 10 ^ 36 ↔
      0 < v ∧ u / v < 10 ^ 36 := by
    rw [hu.decimalValue, hv.decimalValue, ne_eq, unitValue_eq_zero, Int.natCast_eq_zero,
      ← ne_eq, ← Nat.pos_iff_ne_zero]
    apply and_congr_right
    intro hpos
    have hvq : (0 : ℚ) < v := by exact_mod_cast hpos
    rw [unitValue_div hpos.ne', div_lt_iff₀ hvq, Nat.div_lt_iff_lt_mul hpos]
    exact_mod_cast Iff.rfl
  rw [hcond]
  apply gives_text (u := u / v * v)
  · intro s
    simp only [quantizeDecimalDown_ok_iff, exists_and_left, hu.exists_iff, hv.exists_iff, and_assoc]
  · rintro ⟨hpos, -⟩
    have hvalue : unitValue (u / v * v : ℕ) = (u / v : ℕ) * unitValue v := by
      rw [unitValue_natCast, unitValue_natCast, Nat.cast_mul, mul_div_assoc]
    rw [hvalue, hu.decimalValue, hv.decimalValue]
    exact isGreatest_div (unitValue_pos hpos) (unitValue_div hpos.ne')

end Unsigned

section Signed

variable (hi : ReadsSigned l i) (hj : ReadsSigned r j)

include hi hj

theorem gives_addSignedDecimal :
    Gives (addSignedDecimal l r) True (· = decimalValue l + decimalValue r) := by
  apply gives_signedText (i := i + j)
  · intro s
    rw [addSignedDecimal_of_reads hi hj, Except.ok.injEq, true_and]
  · intro _
    rw [hi.decimalValue, hj.decimalValue, unitValue_add]

theorem gives_subtractSignedDecimal :
    Gives (subtractSignedDecimal l r) True (· = decimalValue l - decimalValue r) := by
  have hnegated : ReadsSigned (signedText (-j)) (-j) := by
    rw [readsSigned_signedText_iff, Int.natAbs_neg]
    exact ⟨rfl, hj.lt⟩
  apply gives_signedText (i := i - j)
  · intro s
    rw [subtractSignedDecimal, negateSignedDecimal_ok_iff.mpr ⟨j, hj, rfl⟩, ok_bind,
      addSignedDecimal_of_reads hi hnegated, Except.ok.injEq, true_and, sub_eq_add_neg]
  · intro _
    rw [hi.decimalValue, hj.decimalValue, unitValue_sub]

end Signed

theorem withinDigits_iff {q : ℚ} :
    WithinDigits q ↔ ∃ k : ℤ, unitValue k = q ∧ k.natAbs < unitLimit := by
  have hbound (k : ℤ) : |unitValue k| < 10 ^ 36 ↔ k.natAbs < unitLimit := by
    rw [unitValue, abs_div, abs_of_pos (show (0 : ℚ) < 10 ^ 18 by positivity),
      div_lt_iff₀ (by positivity), ← Int.cast_abs, Int.abs_eq_natAbs, unitLimit, ← pow_add]
    exact_mod_cast Iff.rfl
  constructor
  · rintro ⟨⟨k, hk⟩, hlt⟩
    have hq : unitValue k = q := by
      rw [unitValue, ← hk, mul_div_cancel_right₀ _ (by positivity)]
    rw [← hq, hbound] at hlt
    exact ⟨k, hq, hlt⟩
  · rintro ⟨k, rfl, hlt⟩
    refine ⟨⟨k, ?_⟩, (hbound k).mpr hlt⟩
    rw [unitValue, div_mul_cancel₀ _ (by positivity)]

theorem gives_withinDigits {q : ℚ} (hp : p → WithinDigits q)
    (hcall : ∀ s, call = .ok s ↔ p ∧ ∃ k, unitValue k = q ∧ k.natAbs < unitLimit ∧
      signedText k = s) :
    Gives call p (· = q) := by
  refine ⟨⟨?_, fun h => ?_⟩, ?_⟩
  · rintro ⟨s, hs⟩
    exact ((hcall s).mp hs).1
  · obtain ⟨k, hk, hlt⟩ := withinDigits_iff.mp (hp h)
    exact ⟨_, (hcall _).mpr ⟨h, k, hk, hlt, rfl⟩⟩
  · intro s hs
    obtain ⟨-, k, hk, -, rfl⟩ := (hcall s).mp hs
    rw [decimalValue_signedText]
    exact ⟨canonical_signedText k, hk⟩

theorem gives_multiplyExactSignedDecimal (hi : ReadsSigned l i) (hj : ReadsSigned r j) :
    Gives (multiplyExactSignedDecimal l r) (WithinDigits (decimalValue l * decimalValue r))
      (· = decimalValue l * decimalValue r) := by
  apply gives_withinDigits id
  intro s
  have hprod (k : ℤ) : unitValue k = unitValue i * unitValue j ↔ i * j = k * 10 ^ 18 := by
    rw [unitValue, unitValue, unitValue, div_mul_div_comm, div_eq_div_iff (by positivity)
      (by positivity), ← mul_assoc, mul_left_inj' (by positivity), eq_comm]
    exact_mod_cast Iff.rfl
  simp only [withinDigits_iff, multiplyExactSignedDecimal_ok_iff, hi.decimalValue,
    hj.decimalValue, hprod, exists_and_left, hi.exists_iff, hj.exists_iff]
  constructor
  · rintro ⟨k, hk, hlt, h⟩
    exact ⟨⟨k, hk, hlt⟩, k, hk, hlt, h⟩
  · exact And.right

theorem gives_allocateDecimalExact {value numerator denominator : String} {a b c : ℕ}
    (ha : Reads value a) (hb : Reads numerator b) (hc : Reads denominator c) :
    Gives (allocateDecimalExact value numerator denominator)
      (decimalValue denominator ≠ 0 ∧ WithinDigits
        (decimalValue value * decimalValue numerator / decimalValue denominator))
      (· = decimalValue value * decimalValue numerator / decimalValue denominator) := by
  have hzero : decimalValue denominator ≠ 0 ↔ 0 < c := by
    rw [hc.readsSigned.decimalValue, ne_eq, unitValue_eq_zero, Int.natCast_eq_zero,
      Nat.pos_iff_ne_zero]
  have hshare (hpos : 0 < c) (k : ℤ) :
      unitValue k = unitValue a * unitValue b / unitValue c ↔ a * b = k * c := by
    have hcq : unitValue c ≠ 0 := (unitValue_pos hpos).ne'
    rw [eq_div_iff hcq, unitValue, unitValue, unitValue, unitValue, div_mul_div_comm,
      div_mul_div_comm, div_left_inj' (by positivity), eq_comm]
    exact_mod_cast Iff.rfl
  rw [hzero, ha.readsSigned.decimalValue, hb.readsSigned.decimalValue,
    hc.readsSigned.decimalValue]
  apply gives_withinDigits And.right
  intro s
  rw [allocateDecimalExact_ok_iff, withinDigits_iff]
  constructor
  · rintro ⟨a', b', c', ha', hb', hc', hpos, hdvd, hlt, rfl⟩
    obtain rfl := Denotes.unique ha ha'
    obtain rfl := Denotes.unique hb hb'
    obtain rfl := Denotes.unique hc hc'
    have hvalue : unitValue (a * b / c : ℕ) = unitValue a * unitValue b / unitValue c := by
      rw [hshare hpos]
      exact_mod_cast (Nat.div_mul_cancel hdvd).symm
    rw [← signedText_natCast]
    exact ⟨⟨hpos, _, hvalue, hlt⟩, _, hvalue, hlt, rfl⟩
  · rintro ⟨⟨hpos, -⟩, k, hvalue, hlt, rfl⟩
    rw [hshare hpos] at hvalue
    have hnn : 0 ≤ k := by
      apply Int.le_of_not_gt
      intro hneg
      have hlt : k * c < 0 := Int.mul_neg_of_neg_of_pos hneg (by exact_mod_cast hpos)
      have hle : (0 : ℤ) ≤ a * b := by positivity
      omega
    obtain ⟨n, rfl⟩ := Int.eq_ofNat_of_zero_le hnn
    have hprod : a * b = n * c := by exact_mod_cast hvalue
    have hquot : a * b / c = n := by rw [hprod, Nat.mul_div_cancel _ hpos]
    refine ⟨a, b, c, ha, hb, hc, hpos, ⟨n, by rw [hprod, Nat.mul_comm]⟩, ?_, ?_⟩
    · rw [hquot]
      exact hlt
    · rw [hquot, signedText_natCast]

end Laws

/-- The laws of the module, for all texts of the decimal grammar. -/
theorem decimal_laws :
    (∀ (operation : Operation) s, operation.run = .ok s → Canonical s) ∧
    (∀ s t, Canonical s → Canonical t → (s = t ↔ decimalValue s = decimalValue t)) ∧
    (∀ first values s, minDecimal first values = .ok s →
      s ∈ first :: values ∧ ∀ x ∈ first :: values, decimalValue s ≤ decimalValue x) ∧
    (∀ l r, Grammatical l → Grammatical r →
      Gives (addDecimal l r) True (· = decimalValue l + decimalValue r) ∧
      Gives (subtractDecimal l r) (decimalValue r ≤ decimalValue l)
        (· = decimalValue l - decimalValue r) ∧
      Gives (signedDifference l r) True (· = decimalValue l - decimalValue r) ∧
      Gives (multiplyDecimal l r) True
        (IsGreatest (multiplesBelow (1 / 10 ^ 18) (decimalValue l * decimalValue r))) ∧
      (∀ k, Gives (divideDecimal l r k) (decimalValue r ≠ 0 ∧ k ≤ 18)
        (IsGreatest (multiplesBelow (1 / 10 ^ k) (decimalValue l / decimalValue r)))) ∧
      Gives (quantizeDecimalDown l r)
        (decimalValue r ≠ 0 ∧ decimalValue l / decimalValue r < 10 ^ 36)
        (IsGreatest (multiplesBelow (decimalValue r) (decimalValue l)))) ∧
    (∀ l r, SignedGrammatical l → SignedGrammatical r →
      Gives (addSignedDecimal l r) True (· = decimalValue l + decimalValue r) ∧
      Gives (subtractSignedDecimal l r) True (· = decimalValue l - decimalValue r) ∧
      Gives (multiplyExactSignedDecimal l r) (WithinDigits (decimalValue l * decimalValue r))
        (· = decimalValue l * decimalValue r)) ∧
    (∀ v n d, Padded v → Padded n → Padded d →
      Gives (allocateDecimalExact v n d) (decimalValue d ≠ 0 ∧
          WithinDigits (decimalValue v * decimalValue n / decimalValue d))
        (· = decimalValue v * decimalValue n / decimalValue d)) ∧
    (∀ operation : Operation, operation.run ≠ .error scaleError) ∧
    (∀ l r, compareDecimal l r ≠ .error scaleError) ∧
    ∀ first values, minDecimal first values ≠ .error scaleError := by
  refine ⟨fun operation s h => operation.canonical h, fun s t hs ht => hs.eq_iff ht,
    fun first values s h => ⟨minDecimal_mem h, minDecimal_le h⟩, ?_, ?_, ?_, ?_, ?_, ?_⟩
  · intro l r hl hr
    obtain ⟨u, hu⟩ := exists_denotes hl
    obtain ⟨v, hv⟩ := exists_denotes hr
    exact ⟨gives_addDecimal hu hv, gives_subtractDecimal hu hv, gives_signedDifference hu hv,
      gives_multiplyDecimal hu hv, gives_divideDecimal hu hv, gives_quantizeDecimalDown hu hv⟩
  · intro l r hl hr
    obtain ⟨i, hi⟩ := exists_readsSigned hl
    obtain ⟨j, hj⟩ := exists_readsSigned hr
    exact ⟨gives_addSignedDecimal hi hj, gives_subtractSignedDecimal hi hj,
      gives_multiplyExactSignedDecimal hi hj⟩
  · intro v n d hv hn hd
    obtain ⟨a, ha⟩ := exists_denotes hv
    obtain ⟨b, hb⟩ := exists_denotes hn
    obtain ⟨c, hc⟩ := exists_denotes hd
    exact gives_allocateDecimalExact ha hb hc
  · exact fun operation h => operation.unscaled _ h rfl
  · exact fun l r h => unscaled_compareDecimal _ h rfl
  · exact fun first values h => unscaled_minDecimal first values _ h rfl

/-- The least of some texts is returned as it is written. -/
theorem minDecimal_keeps_text :
    minDecimal "1.0" ["2"] = .ok "1.0" ∧ ¬ Canonical "1.0" ∧
      decimal "1.0" = .ok "1" ∧ decimalValue "1.0" = decimalValue "1" := by
  refine ⟨by decide +kernel, ?_, by decide +kernel, by decide +kernel⟩
  rintro ⟨c, k, hdigits, hzeros, -⟩
  have hwritten : (magnitude "1.0").toList = numeral 10 1 := by decide
  obtain ⟨rfl, rfl⟩ := numeral_injective (hwritten.symm.trans hdigits)
  exact hzeros one_ne_zero rfl

end TsxCore.TradingDecimal
