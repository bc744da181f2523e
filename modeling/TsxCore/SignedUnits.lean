import TsxCore.DecimalUnits

/-!
# Signed decimal texts as integers of quanta

A signed decimal is an optional minus sign before a decimal text. `ReadsSigned s i`
states that `signedDecimal` accepts `s` with `i` quanta and `signedText i` is its
canonical text, in which zero has no sign. Exact products and proportional
allocations succeed exactly when the mathematical result is a whole number of
quanta within the digit limit.
-/

namespace TsxCore.TradingDecimal

open Outcome Numeral

variable {i j : ℤ} {s : String}

def signedText (i : ℤ) : String := if i < 0 then "-" ++ text i.natAbs else text i.natAbs

def signedUnits (negative : Bool) (u : ℕ) : ℤ := if negative then -(u : ℤ) else u

def ReadsSigned (s : String) (i : ℤ) : Prop :=
  ∃ u, Reads (magnitude s) u ∧ signedUnits (isNegative s) u = i

@[simp] theorem natAbs_signedUnits (negative : Bool) (u : ℕ) :
    (signedUnits negative u).natAbs = u := by
  cases negative <;> simp [signedUnits]

theorem signedUnits_neg_iff (negative : Bool) (u : ℕ) :
    signedUnits negative u < 0 ↔ negative = true ∧ u ≠ 0 := by
  cases negative <;> simp [signedUnits, Nat.pos_iff_ne_zero]

theorem signedUnits_natAbs (i : ℤ) : signedUnits (decide (i < 0)) i.natAbs = i := by
  by_cases hi : i < 0
  · simp only [signedUnits, hi, decide_true, if_true]
    omega
  · simp only [signedUnits, hi, decide_false, Bool.false_eq_true, if_false]
    omega

theorem signedUnits_mul (negative : Bool) (u m : ℕ) :
    signedUnits negative (u * m) = signedUnits negative u * m := by
  cases negative <;> simp [signedUnits]

theorem isNegative_numeral (c k : ℕ) : isNegative (.ofList (numeral c k)) = false := by
  have hhead : (numeral c k).head? = (Nat.toDigits 10 (c / 10 ^ k)).head? := by
    unfold numeral
    split_ifs with hk
    · simp [hk]
    · rw [List.head?_append_of_ne_nil _ Nat.toDigits_ne_nil]
  rw [isNegative, String.toList_ofList, hhead, beq_eq_false_iff_ne]
  intro hminus
  have hdigit := Nat.isDigit_of_mem_toDigits (by omega) (by omega) (List.mem_of_head? hminus)
  exact absurd hdigit (by decide)

theorem isNegative_text (u : ℕ) : isNegative (text u) = false := by
  rw [text_eq_canonical, canonical, isNegative_numeral]

@[simp] theorem isNegative_minus (s : String) : isNegative ("-" ++ s) = true := by
  simp [isNegative]

@[simp] theorem tail_minus (s : String) : tail ("-" ++ s) = s := by
  simp [tail]

@[simp] theorem isNegative_signedText (i : ℤ) : isNegative (signedText i) = decide (i < 0) := by
  unfold signedText
  split_ifs with hi
  · simp [hi]
  · simp [hi, isNegative_text]

@[simp] theorem magnitude_signedText (i : ℤ) : magnitude (signedText i) = text i.natAbs := by
  rw [magnitude, isNegative_signedText]
  unfold signedText
  split_ifs with hi hneg
  · simp
  · simp_all
  · simp_all
  · rfl

theorem tail_signedText (hi : i < 0) : tail (signedText i) = text i.natAbs := by
  rw [signedText, if_pos hi, tail_minus]

@[simp] theorem signedText_eq_zero : signedText i = "0" ↔ i = 0 := by
  constructor
  · intro h
    have hmag := congrArg magnitude h
    rw [magnitude_signedText, show magnitude "0" = "0" by rfl, text_eq_zero] at hmag
    exact Int.natAbs_eq_zero.mp hmag
  · rintro rfl
    exact text_eq_zero.mpr rfl

theorem signedText_injective (h : signedText i = signedText j) : i = j := by
  have hneg := congrArg isNegative h
  have hmag := congrArg magnitude h
  rw [isNegative_signedText, isNegative_signedText] at hneg
  rw [magnitude_signedText, magnitude_signedText, text_inj] at hmag
  rw [← signedUnits_natAbs i, ← signedUnits_natAbs j, hneg, hmag]

@[simp] theorem signedText_inj : signedText i = signedText j ↔ i = j :=
  ⟨signedText_injective, fun h => h ▸ rfl⟩

theorem signedText_natCast (u : ℕ) : signedText u = text u := by
  simp [signedText]

theorem signedText_signedUnits (negative : Bool) (u : ℕ) :
    signedText (signedUnits negative u) =
      if negative = true ∧ text u ≠ "0" then "-" ++ text u else text u := by
  simp only [signedText, signedUnits_neg_iff, natAbs_signedUnits, ne_eq, text_eq_zero]

theorem signedText_parts (i : ℤ) : ∃ c k, k ≤ 18 ∧ c * 10 ^ (18 - k) = i.natAbs ∧
    integerPart (signedText i) = (if i < 0 then ['-'] else []) ++ Nat.toDigits 10 (c / 10 ^ k) ∧
    fractionPart (signedText i) = fixedDigits k c := by
  let c := (reduced i.natAbs 18).1
  let k := (reduced i.natAbs 18).2
  have htext : (signedText i).toList = (if i < 0 then ['-'] else []) ++ numeral c k := by
    have hmag : (text i.natAbs).toList = numeral c k := by
      rw [text_eq_canonical, String.toList_ofList, canonical]
    unfold signedText
    split_ifs with hi <;> simp [hmag]
  refine ⟨c, k, reduced_scale_le 18 _, reduced_mul 18 _, ?_, ?_⟩
  · rw [integerPart, htext]
    by_cases hi : i < 0 <;> simp [hi, takeWhile_numeral]
  · rw [fractionPart, htext, ← drop_point_numeral]
    by_cases hi : i < 0 <;> simp [hi]

theorem readsSigned_signedText_iff :
    ReadsSigned (signedText i) j ↔ i = j ∧ i.natAbs < unitLimit := by
  simp only [ReadsSigned, magnitude_signedText, isNegative_signedText, reads_text_iff]
  constructor
  · rintro ⟨_, ⟨rfl, hlt⟩, rfl⟩
    exact ⟨(signedUnits_natAbs i).symm, hlt⟩
  · rintro ⟨rfl, hlt⟩
    exact ⟨_, ⟨rfl, hlt⟩, signedUnits_natAbs i⟩

theorem ReadsSigned.unique (hi : ReadsSigned s i) (hj : ReadsSigned s j) : i = j := by
  obtain ⟨u, hu, rfl⟩ := hi
  obtain ⟨v, hv, rfl⟩ := hj
  rw [Denotes.unique hu hv]

theorem ReadsSigned.lt (hi : ReadsSigned s i) : i.natAbs < unitLimit := by
  obtain ⟨u, hu, rfl⟩ := hi
  rw [natAbs_signedUnits]
  exact Denotes.lt hu

theorem Denotes.isNegative {u : ℕ} (h : Denotes s u) : isNegative s = false := by
  obtain ⟨p, hp, -⟩ := h
  have hs := (numeral_of_parse hp).1
  rw [← String.ofList_toList (s := s), hs, isNegative_numeral]

theorem Denotes.readsSigned {u : ℕ} (h : Denotes s u) : ReadsSigned s u := by
  refine ⟨u, ?_, ?_⟩
  · rw [magnitude, h.isNegative]
    exact h.reads
  · simp [signedUnits, h.isNegative]

section Operations

variable {l r s : String} {u v : ℕ}

theorem signedDecimal_ok_iff :
    signedDecimal l = .ok s ↔ ∃ i, ReadsSigned l i ∧ signedText i = s := by
  simp only [signedDecimal, bind_eq_ok, pure_eq_ok_iff, decimal_ok_iff]
  constructor
  · rintro ⟨_, ⟨u, hu, rfl⟩, rfl⟩
    exact ⟨_, ⟨u, hu, rfl⟩, signedText_signedUnits _ u⟩
  · rintro ⟨_, ⟨u, hu, rfl⟩, rfl⟩
    exact ⟨_, ⟨u, hu, rfl⟩, (signedText_signedUnits _ u).symm⟩

theorem signedDecimal_error {e : Thrown} (h : signedDecimal l = .error e) :
    (∀ i, ¬ ReadsSigned l i) ∧ e = invalidDecimal (trim (magnitude l)) := by
  rw [signedDecimal, bind_eq_error] at h
  rcases h with h | ⟨_, -, h⟩
  · obtain ⟨hnot, he⟩ := decimal_error h
    exact ⟨fun i ⟨u, hu, _⟩ => hnot u hu, he⟩
  · cases h

/-- The error of a decimal whose integer part has more than 36 digits. -/
def Oversized (e : Thrown) : Prop :=
  ∃ c k, 10 ^ 36 ≤ c / 10 ^ k ∧ e = invalidDecimal (.ofList (numeral c k))

theorem oversized_of_signedDecimal {c k : ℕ} (hk : k ≤ 18)
    (hl : magnitude l = .ofList (numeral c k))
    {e : Thrown} (h : signedDecimal l = .error e) : Oversized e := by
  obtain ⟨hnot, rfl⟩ := signedDecimal_error h
  have hspace : hasSpace (.ofList (numeral c k)) = false := by
    rw [TsxCore.hasSpace, String.toList_ofList, numeral_any_isSpace]
  refine ⟨c, k, ?_, by rw [hl, trim_of_hasSpace_false hspace]⟩
  by_contra hlt
  refine hnot _ ⟨c * 10 ^ (18 - k), ?_, rfl⟩
  rw [hl, reads_numeral_iff hk]
  refine ⟨rfl, ?_⟩
  have hp := parse_numeral hk (not_le.mp hlt) (.ofList (numeral c k)) (String.toList_ofList ..)
  exact units_lt hp

theorem negateSignedDecimal_ok_iff :
    negateSignedDecimal l = .ok s ↔ ∃ i, ReadsSigned l i ∧ signedText (-i) = s := by
  have hneg : ∀ i : ℤ, (if signedText i = "0" then "0"
      else if isNegative (signedText i) = true then tail (signedText i)
      else "-" ++ signedText i) = signedText (-i) := by
    intro i
    rcases lt_trichotomy i 0 with hi | rfl | hi
    · rw [if_neg (by simp [hi.ne]), if_pos (by simp [hi]), tail_signedText hi, signedText,
        if_neg (by omega), Int.natAbs_neg]
    · rw [neg_zero, signedText_eq_zero.mpr rfl, if_pos rfl]
    · rw [if_neg (by simp [hi.ne']), if_neg (by simp [hi.le]), signedText, if_neg (by omega),
        signedText, if_pos (by omega), Int.natAbs_neg]
  simp only [negateSignedDecimal, bind_eq_ok, pure_eq_ok_iff, signedDecimal_ok_iff]
  constructor
  · rintro ⟨_, ⟨i, hi, rfl⟩, rfl⟩
    exact ⟨i, hi, (hneg i).symm⟩
  · rintro ⟨i, hi, rfl⟩
    exact ⟨_, ⟨i, hi, rfl⟩, hneg i⟩

theorem subtractDecimal_of_le (hu : Denotes l u) (hv : Denotes r v) (hle : v ≤ u) :
    subtractDecimal l r = .ok (text (u - v)) :=
  subtractDecimal_ok_iff.mpr ⟨u, v, hu, hv, hle, rfl⟩

theorem compareDecimal_of_denotes (hu : Denotes l u) (hv : Denotes r v) :
    compareDecimal l r = .ok (sign u v) :=
  compareDecimal_ok_iff.mpr ⟨u, v, hu, hv, rfl⟩

theorem signedText_sub_of_le (hle : v ≤ u) : signedText (u - v) = text (u - v) := by
  rw [← signedText_natCast, Int.ofNat_sub hle]

theorem signedText_sub_of_lt (hlt : u < v) : signedText (u - v) = "-" ++ text (v - u) := by
  rw [signedText, if_pos (by omega)]
  congr 2
  omega

theorem signedDifference_of_denotes (hu : Denotes l u) (hv : Denotes r v) :
    signedDifference l r = .ok (signedText (u - v)) := by
  rw [signedDifference, compareDecimal_of_denotes hu hv, ok_bind]
  simp only [sign_eq_zero_iff, sign_pos_iff]
  split_ifs with heq hlt
  · rw [heq, sub_self, signedText_eq_zero.mpr rfl]
    rfl
  · rw [subtractDecimal_of_le hu hv hlt.le, ok_bind, signedText_sub_of_le hlt.le]
    rfl
  · rw [subtractDecimal_of_le hv hu (by omega), ok_bind, signedText_sub_of_lt (by omega)]
    rfl

theorem signedDifference_ok_iff :
    signedDifference l r = .ok s ↔
      ∃ u v : ℕ, Denotes l u ∧ Denotes r v ∧ signedText (u - v) = s := by
  constructor
  · intro h
    have hcmp := h
    simp only [signedDifference, bind_eq_ok, compareDecimal_ok_iff] at hcmp
    obtain ⟨_, ⟨u, v, hu, hv, _⟩, _⟩ := hcmp
    rw [signedDifference_of_denotes hu hv] at h
    exact ⟨u, v, hu, hv, Except.ok.inj h⟩
  · rintro ⟨u, v, hu, hv, rfl⟩
    exact signedDifference_of_denotes hu hv

theorem addSignedDecimal_of_reads {i j : ℤ} (hi : ReadsSigned l i) (hj : ReadsSigned r j) :
    addSignedDecimal l r = .ok (signedText (i + j)) := by
  have hl := signedDecimal_ok_iff.mpr ⟨i, hi, rfl⟩
  have hr := signedDecimal_ok_iff.mpr ⟨j, hj, rfl⟩
  have hu := denotes_text hi.lt
  have hv := denotes_text hj.lt
  rw [addSignedDecimal, hl, ok_bind, hr, ok_bind]
  simp only [magnitude_signedText, isNegative_signedText]
  rw [addDecimal_ok_iff.mpr ⟨_, _, hu, hv, rfl⟩, compareDecimal_of_denotes hu hv]
  simp only [ok_bind, sign_eq_zero_iff, sign_pos_iff, decide_eq_decide, decide_eq_true_eq]
  by_cases hsame : i < 0 ↔ j < 0
  · rw [if_pos hsame, signedText, show (i + j).natAbs = i.natAbs + j.natAbs by omega]
    have hneg : (i < 0 ∧ text (i.natAbs + j.natAbs) ≠ "0") ↔ i + j < 0 := by
      rw [ne_eq, text_eq_zero]
      omega
    simp only [hneg]
    rfl
  · rw [if_neg hsame]
    by_cases heq : i.natAbs = j.natAbs
    · rw [if_pos heq, show i + j = 0 by omega, signedText_eq_zero.mpr rfl]
      rfl
    · rw [if_neg heq]
      by_cases hlt : j.natAbs < i.natAbs
      · simp only [if_pos hlt, subtractDecimal_of_le hu hv hlt.le, ok_bind, decide_eq_true_eq]
        rw [signedText, show (i + j).natAbs = i.natAbs - j.natAbs by omega]
        simp only [show i + j < 0 ↔ i < 0 by omega]
        rfl
      · simp only [if_neg hlt, subtractDecimal_of_le hv hu (Nat.le_of_not_lt hlt), ok_bind,
          decide_eq_true_eq]
        rw [signedText, show (i + j).natAbs = j.natAbs - i.natAbs by omega]
        simp only [show i + j < 0 ↔ j < 0 by omega]
        rfl

theorem addSignedDecimal_ok_iff :
    addSignedDecimal l r = .ok s ↔
      ∃ i j, ReadsSigned l i ∧ ReadsSigned r j ∧ signedText (i + j) = s := by
  constructor
  · intro h
    have hparts := h
    simp only [addSignedDecimal, bind_eq_ok, signedDecimal_ok_iff] at hparts
    obtain ⟨_, ⟨i, hi, _⟩, _, ⟨j, hj, _⟩, _⟩ := hparts
    rw [addSignedDecimal_of_reads hi hj] at h
    exact ⟨i, j, hi, hj, Except.ok.inj h⟩
  · rintro ⟨i, j, hi, hj, rfl⟩
    exact addSignedDecimal_of_reads hi hj

end Operations

section ExactProducts

variable {l r s : String}

theorem stripScale_eq (c k : ℕ) : stripScale c k = reduced c k := by
  induction k generalizing c with
  | zero => rfl
  | succ k ih => rw [stripScale, reduced, ih]

/-- Dividing out trailing zeros reaches 18 digits exactly when the product is a whole number of
quanta. -/
theorem reduced_scale_le_iff {c k : ℕ} (hk : k ≤ 36) :
    (reduced c k).2 ≤ 18 ↔ 10 ^ 18 ∣ c * 10 ^ (36 - k) := by
  have hmul := reduced_mul k c
  have hle := reduced_scale_le k c
  have hidem := reduced_idem k c
  generalize hc : (reduced c k).1 = c' at *
  generalize hk' : (reduced c k).2 = k' at *
  have hprod : c * 10 ^ (36 - k) = c' * 10 ^ (36 - k') := by
    rw [← hmul, mul_assoc, ← pow_add]
    congr 2
    omega
  rw [hprod]
  refine ⟨?_, ?_⟩
  · intro h18
    exact Dvd.dvd.mul_left (pow_dvd_pow 10 (by omega)) c'
  · intro hdvd
    by_contra hlt
    obtain ⟨m, rfl⟩ : ∃ m, k' = m + 1 := ⟨k' - 1, by omega⟩
    have hpow : (10 : ℕ) ^ 18 = 10 ^ (36 - (m + 1)) * 10 ^ (m + 1 - 18) := by
      rw [← pow_add]
      congr 1
      omega
    rw [hpow, mul_comm c'] at hdvd
    have hten : 10 ∣ c' :=
      (dvd_pow_self 10 (by omega)).trans (Nat.dvd_of_mul_dvd_mul_left (by positivity) hdvd)
    have hstop := congrArg Prod.snd hidem
    rw [reduced, if_pos (Nat.mod_eq_zero_of_dvd hten), hk'] at hstop
    have := reduced_scale_le m (c' / 10)
    omega

theorem stripped_units {p q : ParsedDecimal} (hp : p.scale ≤ 18) (hq : q.scale ≤ 18) :
    ((stripScale (p.coefficient * q.coefficient) (p.scale + q.scale)).2 ≤ 18 ↔
        10 ^ 18 ∣ p.units * q.units) ∧
      ((stripScale (p.coefficient * q.coefficient) (p.scale + q.scale)).2 ≤ 18 →
        (stripScale (p.coefficient * q.coefficient) (p.scale + q.scale)).1 *
          10 ^ (18 - (stripScale (p.coefficient * q.coefficient) (p.scale + q.scale)).2) * 10 ^ 18 =
          p.units * q.units) := by
  have hunits : p.coefficient * q.coefficient * 10 ^ (36 - (p.scale + q.scale)) =
      p.units * q.units := by
    rw [ParsedDecimal.units, ParsedDecimal.units,
      show 36 - (p.scale + q.scale) = (18 - p.scale) + (18 - q.scale) by omega, pow_add]
    ring
  have hmul := reduced_mul (p.scale + q.scale) (p.coefficient * q.coefficient)
  have hle := reduced_scale_le (p.scale + q.scale) (p.coefficient * q.coefficient)
  rw [stripScale_eq, reduced_scale_le_iff (by omega), hunits]
  refine ⟨Iff.rfl, ?_⟩
  intro hdvd
  rw [← hunits, ← reduced_scale_le_iff (by omega)] at hdvd
  rw [← hunits]
  generalize (reduced (p.coefficient * q.coefficient) (p.scale + q.scale)).1 = c at *
  generalize (reduced (p.coefficient * q.coefficient) (p.scale + q.scale)).2 = k at *
  rw [← hmul, mul_assoc, mul_assoc, ← pow_add, ← pow_add]
  congr 2
  omega

theorem signed_product {i j : ℤ} {m : ℕ} (hm : m * 10 ^ 18 = i.natAbs * j.natAbs) :
    i * j = signedUnits (decide (i < 0) != decide (j < 0)) m * 10 ^ 18 := by
  have hcast : (m : ℤ) * 10 ^ 18 = (i.natAbs : ℤ) * j.natAbs := by exact_mod_cast hm
  have habs : ∀ n : ℤ, n = if n < 0 then -(n.natAbs : ℤ) else n.natAbs := by
    intro n
    split_ifs <;> omega
  have hi := habs i
  have hj := habs j
  by_cases hneg : i < 0 <;> by_cases hneg' : j < 0 <;>
    simp only [hneg, hneg', if_true, if_false] at hi hj <;>
    simp only [signedUnits, hneg, hneg', decide_true, decide_false, bne_self_eq_false,
      Bool.true_bne, Bool.false_bne, Bool.not_false, Bool.false_eq_true, if_true,
      if_false]
  all_goals rw [hi, hj]; linarith

theorem signedProduct_text {negative : Bool} {m : ℕ} (hm : m < unitLimit) :
    (if negative = true then negateSignedDecimal (text m) else return text m) =
      Except.ok (ε := Thrown) (signedText (signedUnits negative m)) := by
  cases negative with
  | false =>
    rw [if_neg (by simp), signedUnits, if_neg (by simp), signedText_natCast]
    rfl
  | true =>
    rw [if_pos rfl, signedUnits, if_pos rfl]
    exact negateSignedDecimal_ok_iff.mpr ⟨m, (denotes_text hm).readsSigned, rfl⟩

/-- An exact product exists exactly when it is a whole number of quanta within the limit. -/
theorem multiplyExactSignedDecimal_ok_iff :
    multiplyExactSignedDecimal l r = .ok s ↔ ∃ i j k : ℤ, ReadsSigned l i ∧ ReadsSigned r j ∧
      i * j = k * 10 ^ 18 ∧ k.natAbs < unitLimit ∧ signedText k = s := by
  simp only [multiplyExactSignedDecimal, bind_eq_ok, throwIf_eq_ok, signedDecimal_ok_iff, not_lt]
  refine ⟨?_, ?_⟩
  · intro h
    obtain ⟨_, ⟨i, hi, rfl⟩, _, ⟨j, hj, rfl⟩, p, hp, q, hq, -, hscale, product, hproduct, h⟩ := h
    rw [magnitude_signedText] at hp hq
    obtain ⟨hpi, -⟩ := denotes_text_iff.mp ⟨p, hp, rfl⟩
    obtain ⟨hqj, -⟩ := denotes_text_iff.mp ⟨q, hq, rfl⟩
    have hvalue := (stripped_units (numeral_of_parse hp).2.1 (numeral_of_parse hq).2.1).2 hscale
    rw [← hpi, ← hqj] at hvalue
    rw [format_eq_text hscale] at hproduct
    obtain ⟨_, hread, rfl⟩ := decimal_ok_iff.mp hproduct
    obtain ⟨rfl, hlt⟩ := reads_text_iff.mp hread
    simp only [isNegative_signedText] at h
    have hsigned := @signedProduct_text (decide (i < 0) != decide (j < 0)) _ hlt
    simp only [bne_iff_ne] at hsigned
    rw [hsigned] at h
    refine ⟨i, j, _, hi, hj, signed_product hvalue, ?_, Except.ok.inj h⟩
    rw [natAbs_signedUnits]
    exact hlt
  · intro h
    obtain ⟨i, j, k, hi, hj, hk, hlt, rfl⟩ := h
    obtain ⟨p, hp, hpi⟩ := denotes_text hi.lt
    obtain ⟨q, hq, hqj⟩ := denotes_text hj.lt
    have habs : k.natAbs * 10 ^ 18 = p.units * q.units := by
      rw [hpi, hqj, ← Int.natAbs_mul, hk, Int.natAbs_mul, Int.natAbs_pow]
      rfl
    obtain ⟨hiff, hvalue⟩ := stripped_units (numeral_of_parse hp).2.1 (numeral_of_parse hq).2.1
    have hscale := hiff.mpr (habs ▸ Nat.dvd_mul_left _ _)
    have hunits := Nat.eq_of_mul_eq_mul_right (by positivity) ((hvalue hscale).trans habs.symm)
    have hproduct := decimal_ok_iff.mpr ⟨k.natAbs, (denotes_text hlt).reads, rfl⟩
    nth_rewrite 1 [← hunits, ← format_eq_text hscale] at hproduct
    refine ⟨_, ⟨i, hi, rfl⟩, _, ⟨j, hj, rfl⟩, p, by rw [magnitude_signedText, hp], q,
      by rw [magnitude_signedText, hq], (), hscale, _, hproduct, ?_⟩
    simp only [isNegative_signedText]
    have hsigned := @signedProduct_text (decide (i < 0) != decide (j < 0)) _ hlt
    simp only [bne_iff_ne] at hsigned
    rw [hsigned]
    have hsame := signed_product (i := i) (j := j) (m := k.natAbs) (by rw [habs, hpi, hqj])
    rw [hk] at hsame
    exact congrArg (Except.ok ∘ signedText) (mul_right_cancel₀ (by norm_num) hsame).symm

theorem allocation_cross {p q t : ParsedDecimal} (hp : p.scale ≤ 18) (hq : q.scale ≤ 18)
    (ht : t.scale ≤ 18) :
    (t.coefficient * 10 ^ (p.scale + q.scale) ∣
        p.coefficient * q.coefficient * 10 ^ t.scale * 10 ^ 18 ↔ t.units ∣ p.units * q.units) ∧
      p.coefficient * q.coefficient * 10 ^ t.scale * 10 ^ 18 /
        (t.coefficient * 10 ^ (p.scale + q.scale)) = p.units * q.units / t.units := by
  have htop : p.units * q.units * 10 ^ (t.scale + 18) =
      p.coefficient * q.coefficient * 10 ^ t.scale * 10 ^ 18 * 10 ^ (36 - (p.scale + q.scale)) := by
    rw [ParsedDecimal.units, ParsedDecimal.units,
      show 36 - (p.scale + q.scale) = (18 - p.scale) + (18 - q.scale) by omega, pow_add, pow_add]
    ring
  have hbottom : t.units * 10 ^ (t.scale + 18) =
      t.coefficient * 10 ^ (p.scale + q.scale) * 10 ^ (36 - (p.scale + q.scale)) := by
    rw [ParsedDecimal.units, mul_assoc, mul_assoc, ← pow_add, ← pow_add,
      show 18 - t.scale + (t.scale + 18) = 36 by omega,
      show p.scale + q.scale + (36 - (p.scale + q.scale)) = 36 by omega]
  have hpos : 0 < 10 ^ (t.scale + 18) := by positivity
  have hpos' : 0 < 10 ^ (36 - (p.scale + q.scale)) := by positivity
  refine ⟨?_, ?_⟩
  · rw [← Nat.mul_dvd_mul_iff_right hpos', ← htop, ← hbottom, Nat.mul_dvd_mul_iff_right hpos]
  · rw [← Nat.mul_div_mul_right _ _ hpos', ← htop, ← hbottom, Nat.mul_div_mul_right _ _ hpos]

/-- An exact allocation exists exactly when the share divides out to whole quanta. -/
theorem allocateDecimalExact_ok_iff {v n d : String} :
    allocateDecimalExact v n d = .ok s ↔ ∃ a b t : ℕ, Reads v a ∧ Reads n b ∧ Reads d t ∧ 0 < t ∧
      t ∣ a * b ∧ a * b / t < unitLimit ∧ text (a * b / t) = s := by
  simp only [allocateDecimalExact, bind_eq_ok, throwIf_eq_ok, decimal_ok_iff,
    decimal_positive_ok_iff, not_not]
  refine ⟨?_, ?_⟩
  · intro h
    obtain ⟨_, ⟨a, ha, rfl⟩, p, hp, _, ⟨b, hb, rfl⟩, q, hq, _, ⟨c, hc, hpos, rfl⟩, t, ht, _, hx, _,
      hy, _, hz, -, hmod, u, hread, rfl⟩ := h
    have hps := (numeral_of_parse hp).2.1
    have hqs := (numeral_of_parse hq).2.1
    have hts := (numeral_of_parse ht).2.1
    obtain ⟨hpa, -⟩ := denotes_text_iff.mp ⟨p, hp, rfl⟩
    obtain ⟨hqb, -⟩ := denotes_text_iff.mp ⟨q, hq, rfl⟩
    obtain ⟨htc, -⟩ := denotes_text_iff.mp ⟨t, ht, rfl⟩
    rw [powerOfTen_of_le (by omega)] at hx hy hz
    cases hx
    cases hy
    cases hz
    obtain ⟨hdvd, hquot⟩ := allocation_cross hps hqs hts
    rw [hquot, format_eq_text le_rfl, Nat.sub_self, pow_zero, mul_one] at hread
    obtain ⟨rfl, hlt⟩ := reads_text_iff.mp hread
    rw [← hpa, ← hqb, ← htc] at hdvd hlt ⊢
    exact ⟨a, b, c, ha, hb, hc, hpos, hdvd.mp (Nat.dvd_of_mod_eq_zero hmod), hlt, rfl⟩
  · intro h
    obtain ⟨a, b, c, ha, hb, hc, hpos, hdvd, hlt, rfl⟩ := h
    obtain ⟨p, hp, hpa⟩ := denotes_text (Denotes.lt ha)
    obtain ⟨q, hq, hqb⟩ := denotes_text (Denotes.lt hb)
    obtain ⟨t, ht, htc⟩ := denotes_text (Denotes.lt hc)
    have hps := (numeral_of_parse hp).2.1
    have hqs := (numeral_of_parse hq).2.1
    have hts := (numeral_of_parse ht).2.1
    obtain ⟨hdvd', hquot⟩ := allocation_cross hps hqs hts
    rw [hpa, hqb, htc] at hdvd' hquot
    refine ⟨_, ⟨a, ha, rfl⟩, p, hp, _, ⟨b, hb, rfl⟩, q, hq, _, ⟨c, hc, hpos, rfl⟩, t, ht, _,
      powerOfTen_of_le (by omega), _, powerOfTen_of_le (by omega), _, powerOfTen_of_le
        (by omega), (),
      Nat.mod_eq_zero_of_dvd (hdvd'.mpr hdvd), a * b / c, ?_, rfl⟩
    rw [hquot, format_eq_text le_rfl, Nat.sub_self, pow_zero, mul_one]
    exact (denotes_text hlt).reads

end ExactProducts

end TsxCore.TradingDecimal
