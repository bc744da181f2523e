import TsxCore.ExecutorEntryFences
import TsxCore.DecimalBounds

/-!
# Node and the executor decide the entry fences alike

Both sides read a canonical decimal text as the same number of quanta. On these the
comparisons of the two sides agree; in the boundary, the executor's quotient is
rounded to 180 digits before it is cut to a whole number of ticks.
-/

namespace TsxCore.Executor

open Outcome TradingDecimal TradingRational Numeral
open SignificantDigits (rounded)

section Texts

variable {s t : String} {u : ℕ}

theorem point_mem_numeral (c k : ℕ) : '.' ∈ numeral c k ↔ k ≠ 0 := by
  have hdigits : ∀ n, '.' ∉ Nat.toDigits 10 n := by
    intro n hmem
    simpa using toDigits_all_ne_point n '.' hmem
  by_cases hk : k = 0
  · simp [numeral, hk, hdigits]
  · simp [numeral, hk]

theorem rdropWhile_append_cons {p : Char → Bool} {c : Char} (hc : p c = false) (l r : List Char) :
    (l ++ c :: r).rdropWhile p = l ++ c :: r.rdropWhile p := by
  induction r using List.reverseRecOn with
  | nil =>
    have hkept : (l ++ [c]).rdropWhile p = l ++ [c] :=
      List.rdropWhile_concat_neg p l c (by simp [hc])
    simpa using hkept
  | append_singleton r d ih =>
    have hsplit : l ++ c :: (r ++ [d]) = (l ++ c :: r) ++ [d] := by simp
    by_cases hd : p d = true
    · rw [hsplit, List.rdropWhile_concat_pos p _ d hd, List.rdropWhile_concat_pos p _ d hd, ih]
    · rw [hsplit, List.rdropWhile_concat_neg p _ d hd, List.rdropWhile_concat_neg p _ d hd]
      simp

theorem rstrip_point_digits {l : List Char} (h : ∀ c ∈ l, c ≠ '.') : rstrip '.' l = l := by
  rw [rstrip, List.rdropWhile_eq_self_iff]
  intro hne hlast
  exact h _ (List.getLast_mem hne) (by simpa using hlast)

theorem ne_point_of_isDigit {c : Char} (h : c.isDigit = true) : c ≠ '.' := by
  rintro rfl
  simp at h

theorem rstrip_numeral {c k : ℕ} (hk : k ≠ 0) :
    rstrip '.' (rstrip '0' (numeral c k)) = canonical c k := by
  have hzeros : rstrip '0' (numeral c k) = Nat.toDigits 10 (c / 10 ^ k) ++
      '.' :: fixedDigits (reduced c k).2 (reduced c k).1 := by
    rw [rstrip, numeral, if_neg hk, rdropWhile_append_cons (by decide), rdropWhile_fixedDigits]
  have hwhole : ∀ d ∈ Nat.toDigits 10 (c / 10 ^ k), d ≠ '.' := fun d hd =>
    ne_point_of_isDigit (Nat.isDigit_of_mem_toDigits (by omega) (by omega) hd)
  rw [hzeros, canonical, numeral]
  cases hscale : (reduced c k).2 with
  | zero =>
    have hdiv := reduced_div k c
    rw [hscale, pow_zero, Nat.div_one] at hdiv
    rw [fixedDigits, rstrip, List.rdropWhile_concat_pos _ _ _ (by simp), if_pos rfl, hdiv]
    exact rstrip_point_digits hwhole
  | succ j =>
    have hdiv := reduced_div k c
    rw [hscale] at hdiv
    have hlast : (Nat.digitChar ((reduced c k).1 % 10) == '.') = false := by
      have hdigit : (Nat.digitChar ((reduced c k).1 % 10)).isDigit = true := by
        simp [Nat.mod_lt]
      exact beq_eq_false_iff_ne.mpr (ne_point_of_isDigit hdigit)
    rw [if_neg (Nat.succ_ne_zero j), hdiv, fixedDigits]
    have hsplit : ∀ l : List Char, Nat.toDigits 10 (c / 10 ^ k) ++ '.' :: (l ++
        [Nat.digitChar ((reduced c k).1 % 10)]) = (Nat.toDigits 10 (c / 10 ^ k) ++ '.' :: l) ++
        [Nat.digitChar ((reduced c k).1 % 10)] := by simp
    rw [hsplit, rstrip, List.rdropWhile_concat_neg _ _ _ (by simp [hlast])]

theorem parse_eq_ofText {p : ParsedDecimal} (h : parse s = .ok p) :
    Decimal.ofText s = ⟨p.coefficient, p.scale⟩ := by
  simp only [parse, bind_eq_ok, pure_eq_ok_iff] at h
  obtain ⟨-, -, rfl⟩ := h
  rfl

theorem value_ofText (h : Denotes s u) : (Decimal.ofText s).value = unitValue u := by
  obtain ⟨p, hp, rfl⟩ := h
  have hscale := (numeral_of_parse hp).2.1
  have hpow : (10 : ℚ) ^ 18 = 10 ^ p.scale * 10 ^ (18 - p.scale) := by
    rw [← pow_add, Nat.add_sub_cancel' hscale]
  rw [parse_eq_ofText hp, Decimal.value, unitValue_natCast, ParsedDecimal.units, hpow]
  push_cast
  rw [mul_div_mul_right _ _ (by positivity)]

theorem decimalString_ok_iff {label : String} {positive : Bool} :
    decimalString s label positive = .ok t ↔
      ∃ u, Denotes s u ∧ (positive = true → 0 < u) ∧ text u = t := by
  have hparse : ∀ p, parse s = .ok p → (decimalString s label positive = .ok t ↔
      (positive = true → 0 < p.units) ∧ text p.units = t) := by
    intro p hp
    have hvalue := value_ofText ⟨p, hp, rfl⟩
    obtain ⟨hs, hscale, -⟩ := numeral_of_parse hp
    have hpat : decimalPattern s.toList = true := by
      simp only [parse, bind_eq_ok, throwIf_eq_ok, Bool.not_eq_false] at hp
      exact hp.choose_spec.1
    have hnormal : (if '.' ∈ (Decimal.ofText s).fixed then
        rstrip '.' (rstrip '0' (Decimal.ofText s).fixed) else (Decimal.ofText s).fixed) =
        canonical p.coefficient p.scale := by
      rw [parse_eq_ofText hp, Decimal.fixed]
      by_cases hzero : p.scale = 0
      · rw [if_neg (by simp [point_mem_numeral, hzero]), hzero]
        rfl
      · rw [if_pos ((point_mem_numeral _ _).mpr hzero), rstrip_numeral hzero]
    have htext : String.ofList (canonical p.coefficient p.scale) = text p.units := by
      rw [← format_eq_canonical, format_eq_text hscale]
      rfl
    have hne : canonical p.coefficient p.scale ≠ [] := numeral_ne_nil _ _
    simp only [decimalString, bind_eq_ok, throwIf_eq_ok, pure_eq_ok_iff, hpat, hnormal,
      if_neg hne, htext, hvalue, Bool.true_eq_false, not_false_eq_true, true_and, exists_const,
      not_or, not_and, not_le, not_lt, unitValue_nonneg]
    have hpos : 0 < unitValue p.units ↔ 0 < p.units := by
      rw [unitValue_natCast]
      constructor
      · intro h
        by_contra hzero
        rw [Nat.eq_zero_of_not_pos hzero] at h
        simp at h
      · intro h
        positivity
    rw [hpos]
  refine ⟨?_, ?_⟩
  · intro h
    cases hp : parse s with
    | error e =>
      have hpat : decimalPattern s.toList = false := by
        rw [parse, bind_eq_error] at hp
        rcases hp with hp | ⟨_, -, hp⟩
        · exact (throwIf_eq_error.mp hp).1
        · cases hp
      simp only [decimalString, bind_eq_ok, throwIf_eq_ok, hpat, not_true_eq_false, false_and,
        exists_const] at h
    | ok p => exact ⟨p.units, ⟨p, hp, rfl⟩, (hparse p hp).mp h⟩
  · intro h
    obtain ⟨_, ⟨p, hp, rfl⟩, hrest⟩ := h
    exact (hparse p hp).mpr hrest

/-- A text that `decimal` returns unchanged. -/
def Canonical (s : String) : Prop := decimal s = .ok s

instance (s : String) : Decidable (Canonical s) := inferInstanceAs (Decidable (_ = _))

theorem canonical_iff : Canonical s ↔ ∃ u, u < unitLimit ∧ s = text u := by
  rw [Canonical, decimal_ok_iff]
  refine ⟨?_, ?_⟩
  · intro h
    obtain ⟨u, hu, rfl⟩ := h
    exact ⟨u, (reads_text_iff.mp hu).2, rfl⟩
  · intro h
    obtain ⟨u, hu, rfl⟩ := h
    exact ⟨u, reads_text_iff.mpr ⟨rfl, hu⟩, rfl⟩

end Texts

section Boundaries

open TradingRisk TradingTypes

variable {r m p l tick : ℕ} {s : String} {u : ℕ} {side : TradingSide}
  {boundary : TradingEntryPriceBoundary}

theorem unitValue_pos_iff : 0 < unitValue u ↔ 0 < u := by
  refine ⟨?_, unitValue_pos⟩
  intro h
  by_contra hzero
  rw [Nat.eq_zero_of_not_pos hzero] at h
  simp [unitValue] at h

theorem decimal_text (hu : u < unitLimit) : decimal (text u) true = .ok s ↔ 0 < u ∧ text u = s := by
  rw [decimal_positive_ok_iff]
  refine ⟨?_, ?_⟩
  · intro h
    obtain ⟨v, hv, hpos, rfl⟩ := h
    obtain ⟨rfl, -⟩ := reads_text_iff.mp hv
    exact ⟨hpos, rfl⟩
  · intro h
    exact ⟨u, reads_text_iff.mpr ⟨rfl, hu⟩, h⟩

theorem decimal_text_five (hu : u < unitLimit) :
    decimal (text u) true (some "5") = .ok s ↔ 0 < u ∧ u ≤ 5 * 10 ^ 18 ∧ text u = s := by
  have hfive : Denotes "5" (5 * 10 ^ 18) := ⟨⟨5, 0⟩, by decide, rfl⟩
  obtain ⟨q, hq, hunits⟩ : Reads (text u) u := reads_text_iff.mpr ⟨rfl, hu⟩
  have hformat : TradingDecimal.format q.coefficient q.scale = text u := by
    rw [format_eq_text (numeral_of_parse hq).2.1, ← hunits]
    rfl
  have horder : compareDecimal (text u) "5" = .ok (sign u (5 * 10 ^ 18)) :=
    compareDecimal_ok_iff.mpr ⟨u, 5 * 10 ^ 18, denotes_text hu, hfive, rfl⟩
  have hpos := q.units_pos_iff
  rw [hunits] at hpos
  simp only [decimal, hq, ok_bind, hformat, horder, bind_eq_ok, throwIf_eq_ok, pure_eq_ok_iff,
    true_and, ← hpos, sign_pos_iff, not_lt, exists_const]

theorem priceQuantum_text {v : ℕ} (hu : u < unitLimit) :
    priceQuantum (text u) = .ok v ↔ 0 < u ∧ u = v := by
  simp only [priceQuantum, bind_eq_ok, pure_eq_ok_iff, decimal_text hu]
  refine ⟨?_, ?_⟩
  · intro h
    obtain ⟨_, ⟨hpos, rfl⟩, hv⟩ := h
    rw [TradingLeverageTiers.ofDigitChars_text] at hv
    exact ⟨hpos, hv⟩
  · intro h
    exact ⟨_, ⟨h.1, rfl⟩, by rw [TradingLeverageTiers.ofDigitChars_text, h.2]⟩

theorem formatPriceQuantum_ok_iff {v : ℕ} :
    formatPriceQuantum v = .ok s ↔ 0 < v ∧ v < unitLimit ∧ text v = s := by
  have hlen : (Nat.toDigits 10 (v / 10 ^ 18) ++ fixedDigits 18 v).length - 18 =
      (Nat.toDigits 10 (v / 10 ^ 18)).length := by simp
  have hnumeral : Nat.toDigits 10 (v / 10 ^ 18) ++ '.' :: fixedDigits 18 v = numeral v 18 := rfl
  simp only [formatPriceQuantum, leftpad_toDigits, hlen, List.take_left, List.drop_left,
    hnumeral, decimal_positive_ok_iff, reads_numeral_iff le_rfl, Nat.sub_self, pow_zero, mul_one]
  refine ⟨?_, ?_⟩
  · intro h
    obtain ⟨_, ⟨rfl, hlt⟩, hpos, hs⟩ := h
    exact ⟨hpos, hlt, hs⟩
  · intro h
    obtain ⟨hpos, hlt, hs⟩ := h
    exact ⟨v, ⟨rfl, hlt⟩, hpos, hs⟩

def nodeTicks (side : TradingSide) (r m p : ℕ) : ℕ :=
  match side with
  | .long => r * (100 * 10 ^ 18 + m) / (100 * 10 ^ 18 * p)
  | .short => (r * (100 * 10 ^ 18 - m) + 100 * 10 ^ 18 * p - 1) / (100 * 10 ^ 18 * p)

theorem createEntryPriceBoundary_text (hr : r < unitLimit) (hm : m < unitLimit)
    (hp : p < unitLimit) :
    createEntryPriceBoundary side (text r) (text p) (text m) = .ok boundary ↔
      0 < r ∧ 0 < p ∧ 0 < m ∧ m ≤ 5 * 10 ^ 18 ∧ 0 < nodeTicks side r m p * p ∧
        nodeTicks side r m p * p < unitLimit ∧
        ⟨1, text r, text m, text p, text (nodeTicks side r m p * p)⟩ = boundary := by
  simp only [createEntryPriceBoundary, bind_eq_ok, pure_eq_ok_iff, decimal_text hr,
    decimal_text hp, decimal_text_five hm]
  refine ⟨?_, ?_⟩
  · intro h
    obtain ⟨_, ⟨hrpos, rfl⟩, _, ⟨hppos, rfl⟩, _, ⟨hmpos, hmle, rfl⟩, h⟩ := h
    simp only [priceQuantum_text hr, priceQuantum_text hp, priceQuantum_text hm,
      formatPriceQuantum_ok_iff] at h
    obtain ⟨_, ⟨-, rfl⟩, _, ⟨-, rfl⟩, _, ⟨-, rfl⟩, _, ⟨-, rfl⟩, _, ⟨hpos, hlt, rfl⟩, rfl⟩ := h
    cases side with
    | long => exact ⟨hrpos, hppos, hmpos, hmle, hpos, hlt, rfl⟩
    | short => exact ⟨hrpos, hppos, hmpos, hmle, hpos, hlt, rfl⟩
  · intro h
    obtain ⟨hrpos, hppos, hmpos, hmle, hpos, hlt, rfl⟩ := h
    refine ⟨_, ⟨hrpos, rfl⟩, _, ⟨hppos, rfl⟩, _, ⟨hmpos, hmle, rfl⟩, ?_⟩
    simp only [priceQuantum_text hr, priceQuantum_text hp, priceQuantum_text hm,
      formatPriceQuantum_ok_iff]
    refine ⟨m, ⟨hmpos, rfl⟩, r, ⟨hrpos, rfl⟩, p, ⟨hppos, rfl⟩, p, ⟨hppos, rfl⟩,
      text (nodeTicks side r m p * p), ?_, rfl⟩
    cases side with
    | long => exact ⟨hpos, hlt, rfl⟩
    | short => exact ⟨hpos, hlt, rfl⟩

/-- `'buy'` enters a long position. -/
def orderSide : TradingSide → String
  | .long => "buy"
  | .short => "sell"

def slippageFactor (side : TradingSide) (m : ℕ) : ℕ :=
  match side with
  | .long => 100 * 10 ^ 18 + m
  | .short => 100 * 10 ^ 18 - m

theorem rounded_unitValue {n : ℕ} (hn : n < 10 ^ 180) :
    rounded 10 precision (unitValue n) = unitValue n := by
  have hdigits : |(n : ℤ)| < 10 ^ precision := by
    rw [abs_of_nonneg (by positivity), precision]
    exact_mod_cast hn
  exact @SignificantDigits.rounded_of_digits 10 precision 18 n (by norm_num) hdigits

theorem unitValue_mul_eq (a b : ℕ) :
    unitValue a * unitValue b = ((a * b : ℕ) : ℤ) / 10 ^ 36 := by
  rw [unitValue_natCast, unitValue_natCast, div_mul_div_comm, ← pow_add]
  push_cast
  rfl

theorem rounded_product {a b : ℕ} (h : a * b < 10 ^ 180) :
    rounded 10 precision (unitValue a * unitValue b) = unitValue a * unitValue b := by
  have hdigits : |((a * b : ℕ) : ℤ)| < 10 ^ precision := by
    rw [abs_of_nonneg (by positivity), precision]
    exact_mod_cast h
  rw [unitValue_mul_eq]
  exact SignificantDigits.rounded_of_digits (by norm_num) hdigits

theorem floor_natCast_div (a b : ℕ) : ⌊(a : ℚ) / b⌋ = (a / b : ℕ) := by
  have h := Rat.floor_intCast_div_natCast a b
  push_cast at h ⊢
  exact h

theorem ceil_natCast_div (a : ℕ) {b : ℕ} (hb : 0 < b) :
    ⌈(a : ℚ) / b⌉ = ((a + b - 1) / b : ℕ) := by
  have hbq : (0 : ℚ) < b := by exact_mod_cast hb
  have hlow := Nat.div_mul_le_self (a + b - 1) b
  have hhigh := Nat.lt_div_mul_add hb (a := a + b - 1)
  generalize hk : (a + b - 1) / b = k at hlow hhigh
  have hleft : k * b < a + b := by omega
  have hright : a ≤ k * b := by omega
  rw [Int.ceil_eq_iff, lt_div_iff₀ hbq, div_le_iff₀ hbq]
  push_cast
  refine ⟨?_, by exact_mod_cast hright⟩
  have hcast : (k : ℚ) * b < a + b := by exact_mod_cast hleft
  linarith

theorem factor_eq (hm : m ≤ 5 * 10 ^ 18) :
    (if orderSide side = "buy" then rounded 10 precision (100 + unitValue m)
      else rounded 10 precision (100 - unitValue m)) =
      unitValue (slippageFactor side m : ℕ) := by
  have hhundred : (100 : ℚ) = unitValue (100 * 10 ^ 18 : ℕ) := by
    rw [unitValue_natCast]
    norm_num
  cases side with
  | long =>
    rw [if_pos (by decide), hhundred, ← unitValue_add, ← Nat.cast_add]
    apply rounded_unitValue
    omega
  | short =>
    rw [if_neg (by decide), hhundred, ← unitValue_sub, ← Nat.cast_sub (by omega)]
    apply rounded_unitValue
    omega

theorem ticks_eq (hrpos : 0 < r) (hr : r < unitLimit) (hppos : 0 < p) (hp : p < unitLimit)
    (hm : m ≤ 5 * 10 ^ 18) :
    (if orderSide side = "buy" then
        ⌊rounded 10 precision (rounded 10 precision
          (unitValue r * unitValue (slippageFactor side m : ℕ)) /
          rounded 10 precision (100 * unitValue p))⌋
      else
        ⌈rounded 10 precision (rounded 10 precision
          (unitValue r * unitValue (slippageFactor side m : ℕ)) /
          rounded 10 precision (100 * unitValue p))⌉) =
      (nodeTicks side r m p : ℤ) := by
  have hfactor : 0 < slippageFactor side m ∧ slippageFactor side m ≤ 105 * 10 ^ 18 := by
    cases side <;> simp only [slippageFactor] <;> omega
  have hpositive : 0 < r * slippageFactor side m := Nat.mul_pos hrpos hfactor.1
  have hprod : r * slippageFactor side m < 10 ^ 75 := by
    calc
      r * slippageFactor side m < unitLimit * (105 * 10 ^ 18 + 1) :=
        Nat.mul_lt_mul_of_lt_of_le hr (by omega) (by omega)
      _ < 10 ^ 75 := by rw [unitLimit]; norm_num
  have hnumerator : rounded 10 precision
      (unitValue r * unitValue (slippageFactor side m : ℕ)) =
        ((r * slippageFactor side m : ℕ) : ℤ) / 10 ^ 36 := by
    rw [rounded_product (hprod.trans (by norm_num)), unitValue_mul_eq]
  have hdenominator : rounded 10 precision (100 * unitValue p) =
      unitValue (100 * p : ℕ) := by
    have hvalue : 100 * unitValue p = unitValue (100 * p : ℕ) := by
      rw [unitValue_natCast, unitValue_natCast]
      push_cast
      ring
    rw [hvalue]
    apply rounded_unitValue
    rw [unitLimit] at hp
    omega
  have hquot : (((r * slippageFactor side m : ℕ) : ℤ) : ℚ) / 10 ^ 36 / unitValue (100 * p : ℕ) =
      ((r * slippageFactor side m : ℕ) : ℤ) / ((100 * 10 ^ 18 * p : ℕ) : ℤ) := by
    have hpq : (p : ℚ) ≠ 0 := by exact_mod_cast hppos.ne'
    rw [unitValue_natCast]
    push_cast
    field_simp
    ring
  have hdenominatorPos : 0 < 100 * 10 ^ 18 * p := by omega
  have hdigits : ((r * slippageFactor side m : ℕ) : ℤ) < 10 ^ (precision - 1) := by
    have hbig : (10 : ℤ) ^ 75 < 10 ^ (precision - 1) := by
      rw [precision]
      norm_num
    have hcast : ((r * slippageFactor side m : ℕ) : ℤ) < 10 ^ 75 := by exact_mod_cast hprod
    exact hcast.trans hbig
  have hprec : 1 ≤ precision := by decide
  rw [hnumerator, hdenominator, hquot,
    SignificantDigits.floor_rounded (by norm_num) hprec (by exact_mod_cast hpositive)
      (by exact_mod_cast hdenominatorPos) hdigits,
    SignificantDigits.ceil_rounded (by norm_num) hprec (by exact_mod_cast hpositive)
      (by exact_mod_cast hdenominatorPos) hdigits, Int.cast_natCast, Int.cast_natCast,
    floor_natCast_div, ceil_natCast_div _ hdenominatorPos]
  cases side with
  | long => rw [if_pos (by decide)]; rfl
  | short => rw [if_neg (by decide)]; rfl

theorem nodeTicks_mul_lt (hr : r < unitLimit) (hp : p < unitLimit) (hm : m ≤ 5 * 10 ^ 18) :
    nodeTicks side r m p * p < 10 ^ 180 := by
  have hhundred : p ≤ 100 * 10 ^ 18 * p := Nat.le_mul_of_pos_left p (by norm_num)
  have hbound : ∀ a, a / (100 * 10 ^ 18 * p) * p ≤ a := by
    intro a
    exact (Nat.mul_le_mul_left _ hhundred).trans (Nat.div_mul_le_self a (100 * 10 ^ 18 * p))
  have hprod : ∀ f, f ≤ 105 * 10 ^ 18 → r * f < 10 ^ 76 := by
    intro f hf
    calc
      r * f ≤ unitLimit * (105 * 10 ^ 18) := Nat.mul_le_mul hr.le hf
      _ < 10 ^ 76 := by rw [unitLimit]; norm_num
  have htick : 100 * 10 ^ 18 * p < 10 ^ 76 := by
    rw [unitLimit] at hp
    omega
  cases side with
  | long =>
    have hlong := hprod (100 * 10 ^ 18 + m) (by omega)
    have hle := hbound (r * (100 * 10 ^ 18 + m))
    rw [nodeTicks]
    omega
  | short =>
    have hshort := hprod (100 * 10 ^ 18 - m) (by omega)
    have hle := hbound (r * (100 * 10 ^ 18 - m) + 100 * 10 ^ 18 * p - 1)
    rw [nodeTicks]
    omega

theorem roundedBoundary_eq {limitPrice : ℚ} (hrpos : 0 < r) (hr : r < unitLimit) (hppos : 0 < p)
    (hp : p < unitLimit) (hm : m ≤ 5 * 10 ^ 18) :
    roundedBoundary ⟨unitValue r, unitValue m, unitValue p, limitPrice⟩ (orderSide side) =
      unitValue (nodeTicks side r m p * p : ℕ) := by
  have hprod : (nodeTicks side r m p : ℚ) * unitValue p =
      unitValue (nodeTicks side r m p * p : ℕ) := by
    rw [unitValue_natCast, unitValue_natCast]
    push_cast
    ring
  simp only [roundedBoundary, factor_eq hm, ticks_eq hrpos hr hppos hp hm, Int.cast_natCast, hprod]
  exact rounded_unitValue (nodeTicks_mul_lt hr hp hm)

theorem boundaryDecimal_text {key : String} {q : ℚ} (hu : u < unitLimit) :
    boundaryDecimal (text u) key = .ok q ↔ 0 < u ∧ unitValue u = q := by
  simp only [boundaryDecimal, bind_eq_ok, pure_eq_ok_iff, decimalString_ok_iff, denotes_text_iff]
  refine ⟨?_, ?_⟩
  · intro h
    obtain ⟨_, ⟨_, ⟨rfl, -⟩, hpos, rfl⟩, rfl⟩ := h
    exact ⟨hpos trivial, (value_ofText (denotes_text hu)).symm⟩
  · intro h
    obtain ⟨hpos, rfl⟩ := h
    exact ⟨_, ⟨u, ⟨rfl, hu⟩, fun _ => hpos, rfl⟩, value_ofText (denotes_text hu)⟩

theorem boundaryFence_text {version : ℕ} {market : ℕ} (hr : r < unitLimit) (hm : m < unitLimit)
    (hp : p < unitLimit) (hl : l < unitLimit) (hmkt : market < unitLimit) :
    (∃ limit, boundaryFence (some ⟨version, text r, text m, text p, text l⟩) (orderSide side)
      (text market) = .ok limit) ↔
      version = 1 ∧ 0 < r ∧ 0 < m ∧ 0 < p ∧ m ≤ 5 * 10 ^ 18 ∧ p = market ∧
        0 < nodeTicks side r m p * p ∧ l = nodeTicks side r m p * p := by
  have hside : ¬ (orderSide side ≠ "buy" ∧ orderSide side ≠ "sell") := by
    cases side <;> decide
  have hfive : 5 < unitValue m ↔ 5 * 10 ^ 18 < m := by
    have hvalue : (5 : ℚ) = unitValue (5 * 10 ^ 18 : ℕ) := by
      rw [unitValue_natCast]
      norm_num
    rw [hvalue, unitValue_lt_iff, Nat.cast_lt]
  have horig : ∀ boundary original : TradingEntryPriceBoundary,
      originalBoundary (some boundary) = .ok original ↔
        boundary.version = 1 ∧ boundary = original := by
    intro boundary original
    simp only [originalBoundary, bind_eq_ok, throwIf_eq_ok, pure_eq_ok_iff, not_not, exists_const]
  simp only [boundaryFence, boundaryValues, boundaryLimit, bind_eq_ok, pure_eq_ok_iff,
    throwIf_eq_ok, horig, and_assoc, exists_and_left, exists_eq_left', boundaryDecimal_text hr,
    boundaryDecimal_text hm, boundaryDecimal_text hp, boundaryDecimal_text hl,
    value_ofText (denotes_text hmkt), not_not, not_or, not_le, not_lt]
  refine ⟨?_, ?_⟩
  · intro h
    obtain ⟨rfl, hrpos, hmpos, hppos, -, hle, hmatch, -, _, _, ⟨_, _, rfl⟩, hpos, hlimit, -⟩ := h
    rw [← not_lt, hfive, not_lt] at hle
    rw [roundedBoundary_eq hrpos hr hppos hp hle] at hpos hlimit
    exact ⟨rfl, hrpos, hmpos, hppos, hle, by exact_mod_cast unitValue_injective hmatch,
      unitValue_pos_iff.mp hpos, by exact_mod_cast unitValue_injective hlimit⟩
  · intro h
    obtain ⟨rfl, hrpos, hmpos, hppos, hle, rfl, hpos, rfl⟩ := h
    refine ⟨rfl, hrpos, hmpos, hppos, hpos, ?_, rfl, hside, _, _, ⟨(), (), rfl⟩, ?_, ?_, (), rfl⟩
    · rw [← not_lt, hfive, not_lt]
      exact hle
    · rw [roundedBoundary_eq hrpos hr hppos hp hle]
      exact unitValue_pos_iff.mpr hpos
    · rw [roundedBoundary_eq hrpos hr hppos hp hle]

theorem boundary_agreement {priceTick : String} (href : Canonical boundary.referencePrice)
    (hslippage : Canonical boundary.maxSlippagePercent) (htick : Canonical boundary.priceTick)
    (hlimit : Canonical boundary.limitPrice) (hmkt : Canonical priceTick) :
    (∃ limit, boundaryFence (some boundary) (orderSide side) priceTick = .ok limit) ↔
      assertBoundaryContract boundary side boundary.maxSlippagePercent = .ok () ∧
        boundary.priceTick = priceTick := by
  obtain ⟨version, reference, slippage, tick, limit⟩ := boundary
  obtain ⟨r, hr, rfl⟩ := canonical_iff.mp href
  obtain ⟨m, hm, rfl⟩ := canonical_iff.mp hslippage
  obtain ⟨p, hp, rfl⟩ := canonical_iff.mp htick
  obtain ⟨l, hl, rfl⟩ := canonical_iff.mp hlimit
  obtain ⟨market, hmarketlt, rfl⟩ := canonical_iff.mp hmkt
  rw [boundaryFence_text hr hm hp hl hmarketlt]
  simp only [assertBoundaryContract, bind_eq_ok, throwIf_eq_ok, not_not,
    createEntryPriceBoundary_text hr hm hp]
  refine ⟨?_, ?_⟩
  · intro h
    obtain ⟨rfl, hrpos, hmpos, hppos, hle, rfl, hpos, rfl⟩ := h
    exact ⟨⟨_, ⟨hrpos, hppos, hmpos, hle, hpos, hl, rfl⟩, rfl⟩, rfl⟩
  · intro h
    obtain ⟨⟨_, ⟨hrpos, hppos, hmpos, hle, hpos, hlt, rfl⟩, hsame⟩, hequal⟩ := h
    simp only [TradingEntryPriceBoundary.mk.injEq, true_and, text_inj] at hsame
    exact ⟨hsame.1, hrpos, hmpos, hppos, hle, text_injective hequal, hpos, hsame.2⟩

end Boundaries

section Tiers

open TradingTypes

variable {tier : TradingLeverageTier} {tiers : List TradingLeverageTier} {s : String} {u : ℕ}

@[simp] theorem requireTier_eq_ok {condition : Prop} [Decidable condition] {reason : String}
    {x : Unit} : requireTier condition reason = .ok x ↔ condition := by
  rw [requireTier, throwIf_eq_ok, not_not]

structure CanonicalTier (tier : TradingLeverageTier) : Prop where
  lower : Canonical tier.lowerBound
  upper : ∀ upper, tier.upperBound = some upper → Canonical upper

theorem tierNumber_text {positive : Bool} (hu : u < unitLimit) :
    tierNumber (text u) positive = .ok s ↔ (positive = true → 0 < u) ∧ text u = s := by
  have hdec : tierNumber (text u) positive = .ok s ↔
      decimalString (text u) "tier value" positive = .ok s := by
    unfold tierNumber
    cases decimalString (text u) "tier value" positive <;> simp
  rw [hdec, decimalString_ok_iff]
  refine ⟨?_, ?_⟩
  · intro h
    obtain ⟨_, hdenotes, hrest⟩ := h
    obtain ⟨rfl, -⟩ := denotes_text_iff.mp hdenotes
    exact hrest
  · intro h
    exact ⟨u, denotes_text hu, h⟩

theorem decimal_false_text (hu : u < unitLimit) : decimal (text u) = .ok (text u) :=
  decimal_ok_iff.mpr ⟨u, reads_text_iff.mpr ⟨rfl, hu⟩, rfl⟩

theorem validateTierRows_iff {w : ℕ} {maximum : ℤ} (hw : w < unitLimit)
    (hmaximum : maximum ≤ 50) (htiers : ∀ tier ∈ tiers, CanonicalTier tier) :
    validateTierRows (some (text w)) maximum tiers = .ok () ↔
      TradingLeverageTiers.validateTiers (text w) maximum tiers = .ok () := by
  induction tiers generalizing w maximum with
  | nil => simp [validateTierRows, TradingLeverageTiers.validateTiers]
  | cons tier rest ih =>
    obtain ⟨lower, upper, leverage⟩ := tier
    obtain ⟨hlower, hupper⟩ := htiers _ List.mem_cons_self
    obtain ⟨v, hv, rfl⟩ := canonical_iff.mp hlower
    have hrest : ∀ tier ∈ rest, CanonicalTier tier :=
      fun tier htier => htiers tier (List.mem_cons_of_mem _ htier)
    have hsafe : leverage ≤ maximum → 1 ≤ leverage → isSafeInteger leverage := by
      intro hle hone
      rw [isSafeInteger, maxSafeInteger]
      omega
    cases upper with
    | none =>
      simp only [validateTierRows, TradingLeverageTiers.validateTiers, bind_eq_ok,
        pure_eq_ok_iff, tierNumber_text hv, decimal_false_text hv, Except.ok.injEq,
        requireTier_eq_ok, TradingLeverageTiers.requireTier_eq_ok, exists_const, exists_eq_left',
        and_assoc, Option.some.injEq, Bool.false_eq_true, false_implies, true_and, ne_eq,
        not_true_eq_false, false_or]
      refine ⟨?_, ?_⟩
      · intro h
        obtain ⟨hbound, hone, hle, rfl, -⟩ := h
        exact ⟨hbound, hsafe hle hone, hone, hle, rfl, rfl⟩
      · intro h
        obtain ⟨hbound, -, hone, hle, rfl, -⟩ := h
        exact ⟨hbound, hone, hle, rfl, trivial⟩
    | some upper =>
      obtain ⟨x, hx, rfl⟩ := canonical_iff.mp (hupper _ rfl)
      have horder : TradingDecimal.compareDecimal (text x) (text w) = .ok (sign x w) :=
        compareDecimal_ok_iff.mpr ⟨x, w, denotes_text hx, denotes_text hw, rfl⟩
      have hless : (Decimal.ofText (text w)).value < (Decimal.ofText (text x)).value ↔ w < x := by
        rw [value_ofText (denotes_text hw), value_ofText (denotes_text hx), unitValue_lt_iff,
          Nat.cast_lt]
      simp only [validateTierRows, TradingLeverageTiers.validateTiers, bind_eq_ok,
        tierNumber_text hv, tierNumber_text hx, decimal_false_text hv,
        decimal_text hx, Except.ok.injEq, requireTier_eq_ok, TradingLeverageTiers.requireTier_eq_ok,
        exists_const, exists_eq_left', and_assoc, exists_and_left, Option.some.injEq,
        Bool.false_eq_true, false_implies, true_and, ne_eq, reduceCtorEq, not_false_eq_true,
        true_or, Option.getD_some, horder, hless, sign_pos_iff, true_implies]
      refine ⟨?_, ?_⟩
      · intro h
        obtain ⟨hbound, hone, hle, hpos, hlt, htail⟩ := h
        exact ⟨hbound, hsafe hle hone, hone, hle, hpos, hlt,
          (ih hx (hle.trans hmaximum) hrest).mp htail⟩
      · intro h
        obtain ⟨hbound, -, hone, hle, hpos, hlt, htail⟩ := h
        exact ⟨hbound, hone, hle, hpos, hlt, (ih hx (hle.trans hmaximum) hrest).mpr htail⟩

theorem validateTiers_iff (htiers : ∀ tier ∈ tiers, CanonicalTier tier) :
    validateTiers tiers = .ok () ↔ TradingLeverageTiers.validateTierTable tiers = .ok () := by
  have hzero : text 0 = "0" := text_eq_zero.mpr rfl
  have hrows := validateTierRows_iff (w := 0) (by rw [unitLimit]; norm_num)
    (le_refl (50 : ℤ)) htiers
  rw [hzero] at hrows
  simp only [validateTiers, TradingLeverageTiers.validateTierTable, bind_eq_ok, requireTier_eq_ok,
    TradingLeverageTiers.requireTier_eq_ok, hrows]

theorem tierContains_iff {q m : ℕ} (htier : CanonicalTier tier) :
    TradingLeverageTiers.tierContains tier (q * m) = .ok (decide
      ((Decimal.ofText tier.lowerBound).value ≤ unitValue q * unitValue m ∧
        tier.upperBound.all (fun upper =>
          unitValue q * unitValue m < (Decimal.ofText upper).value) = true)) := by
  obtain ⟨lower, upper, leverage⟩ := tier
  obtain ⟨hlower, hupper⟩ := htier
  obtain ⟨v, hv, rfl⟩ := canonical_iff.mp hlower
  have hquantum : ∀ x, x < unitLimit → TradingLeverageTiers.quantum (text x) = .ok x :=
    fun x hx => TradingLeverageTiers.quantum_ok_iff.mpr (reads_text_iff.mpr ⟨rfl, hx⟩)
  have hprod : ∀ x : ℕ, unitValue x ≤ unitValue q * unitValue m ↔ x * 10 ^ 18 ≤ q * m := by
    intro x
    rw [unitValue_natCast, unitValue_natCast, unitValue_natCast, div_mul_div_comm,
      div_le_div_iff₀ (by positivity) (by positivity)]
    have hscale : (x : ℚ) * (10 ^ 18 * 10 ^ 18) ≤ q * m * 10 ^ 18 ↔
        (x : ℚ) * 10 ^ 18 ≤ q * m := by
      rw [← mul_assoc, mul_le_mul_iff_left₀ (by positivity)]
    rw [hscale]
    exact_mod_cast Iff.rfl
  rw [TradingLeverageTiers.tierContains, hquantum v hv, ok_bind, value_ofText (denotes_text hv)]
  simp only [hprod]
  by_cases hbelow : q * m < v * 10 ^ 18
  · simp only [if_pos hbelow, not_le.mpr hbelow, false_and, decide_false]
    rfl
  · simp only [if_neg hbelow, not_lt.mp hbelow, true_and]
    cases upper with
    | none => rfl
    | some upper =>
      obtain ⟨x, hx, rfl⟩ := canonical_iff.mp (hupper _ rfl)
      have hless : unitValue q * unitValue m < unitValue x ↔ q * m < x * 10 ^ 18 := by
        rw [← not_le, hprod, not_le]
      simp only [hquantum x hx, ok_bind, Option.all_some, value_ofText (denotes_text hx), hless,
        decide_eq_true_eq]
      rfl

theorem le_of_findTier {product index i : ℕ}
    (h : TradingLeverageTiers.findTier product index tiers = .ok (some i)) : index ≤ i := by
  induction tiers generalizing index with
  | nil => simp [TradingLeverageTiers.findTier] at h
  | cons tier rest ih =>
    simp only [TradingLeverageTiers.findTier, bind_eq_ok] at h
    obtain ⟨inside, -, h⟩ := h
    cases inside with
    | true =>
      simp only [if_true, pure_eq_ok_iff, Option.some.injEq] at h
      exact h.le
    | false =>
      have hle := ih (by simpa using h)
      omega

theorem quantityTier_iff {q m index i : ℕ} {leverage : ℤ}
    (htiers : ∀ tier ∈ tiers, CanonicalTier tier) :
    quantityTier (unitValue q * unitValue m) leverage index tiers = .ok i ↔
      TradingLeverageTiers.findTier (q * m) index tiers = .ok (some i) ∧
        ∃ k tier, i = index + k ∧ tiers[k]? = some tier ∧ leverage ≤ tier.maxLeverage := by
  induction tiers generalizing index with
  | nil => simp [quantityTier, TradingLeverageTiers.findTier]
  | cons tier rest ih =>
    have hcontains := tierContains_iff (q := q) (m := m) (htiers tier List.mem_cons_self)
    have hrest := @ih (index + 1)
      (fun other hother => htiers other (List.mem_cons_of_mem _ hother))
    rw [quantityTier, TradingLeverageTiers.findTier, hcontains, ok_bind]
    simp only [decide_eq_true_eq]
    split_ifs
    · simp only [bind_eq_ok, requireTier_eq_ok, pure_eq_ok_iff, exists_const, Option.some.injEq]
      refine ⟨?_, ?_⟩
      · intro h
        exact ⟨h.2, 0, tier, by omega, rfl, h.1⟩
      · intro h
        obtain ⟨rfl, k, found, hk, hfound, hle⟩ := h
        obtain rfl : k = 0 := by omega
        rw [List.getElem?_cons_zero, Option.some.injEq] at hfound
        exact ⟨hfound ▸ hle, rfl⟩
    · rw [hrest]
      refine ⟨?_, ?_⟩
      · intro h
        obtain ⟨hfind, k, found, hk, hfound, hle⟩ := h
        exact ⟨hfind, k + 1, found, by omega, hfound, hle⟩
      · intro h
        obtain ⟨hfind, k, found, hk, hfound, hle⟩ := h
        have hlater := le_of_findTier hfind
        obtain ⟨j, rfl⟩ : ∃ j, k = j + 1 := ⟨k - 1, by omega⟩
        exact ⟨hfind, j, found, by omega, hfound, hle⟩

theorem quantityTier_agreement {quantity mark : String} {leverage : ℤ} {i : ℕ}
    (htiers : ∀ tier ∈ tiers, CanonicalTier tier) (hqty : Canonical quantity)
    (hmark : Canonical mark) (hone : 1 ≤ leverage) (hfifty : leverage ≤ 50) :
    assertQuantityTier tiers quantity mark leverage = .ok i ↔
      TradingLeverageTiers.validateTierTable tiers = .ok () ∧
        TradingLeverageTiers.tierForQuantity tiers quantity mark = .ok i ∧
        ∃ tier, tiers[i]? = some tier ∧ leverage ≤ tier.maxLeverage := by
  obtain ⟨q, hq, rfl⟩ := canonical_iff.mp hqty
  obtain ⟨m, hm, rfl⟩ := canonical_iff.mp hmark
  have hexact : rounded 10 precision (unitValue q * unitValue m) =
      unitValue q * unitValue m := by
    apply rounded_product
    calc
      q * m < unitLimit * unitLimit := Nat.mul_lt_mul'' hq hm
      _ < 10 ^ 180 := by rw [unitLimit]; norm_num
  have hquantum : ∀ x, x < unitLimit → TradingLeverageTiers.quantum (text x) = .ok x :=
    fun x hx => TradingLeverageTiers.quantum_ok_iff.mpr (reads_text_iff.mpr ⟨rfl, hx⟩)
  have hfind : TradingLeverageTiers.tierForQuantity tiers (text q) (text m) = .ok i ↔
      0 < q ∧ 0 < m ∧ TradingLeverageTiers.findTier (q * m) 0 tiers = .ok (some i) := by
    simp only [TradingLeverageTiers.tierForQuantity, TradingLeverageTiers.findTierForQuantity,
      bind_eq_ok, decimal_text hq, decimal_text hm, and_assoc, exists_eq_left', hquantum q hq,
      hquantum m hm, Except.ok.injEq, exists_and_left]
    refine and_congr_right fun _ => and_congr_right fun _ => ⟨?_, ?_⟩
    · intro h
      obtain ⟨found, hfound, h⟩ := h
      cases found with
      | none => cases h
      | some index =>
        rw [pure_eq_ok_iff] at h
        rw [hfound, h]
    · intro h
      exact ⟨some i, h, rfl⟩
  rw [hfind]
  simp only [assertQuantityTier, bind_eq_ok, requireTier_eq_ok, hone, hfifty, true_and,
    exists_const,
    tierNumber_text hq, tierNumber_text hm, and_assoc, exists_eq_left',
    value_ofText (denotes_text hq), value_ofText (denotes_text hm), hexact,
    quantityTier_iff htiers, validateTiers_iff htiers, exists_and_left, zero_add, true_implies]

end Tiers

section Budgets

open TradingMoneyValue

variable {members : List (String × Json ℚ)} {keys : List String} {N M : Type}
  {exact : List (String × Json ℚ)} {value : Json ℚ} {n d : ℕ} {result : List (String × Json Number)}
  {decision : TradingTypes.TradingLeverageTierDecision}

theorem isSome_lookup_iff {members : List (String × Json N)} {key : String} :
    (Json.lookup key members).isSome = true ↔ key ∈ members.map (·.1) := by
  rw [Json.lookup, Option.isSome_map, List.find?_isSome, List.mem_map]
  simp

/-- With distinct keys, as many members as fields and every field present is the same set. -/
theorem dataRecord_iff {result : List (String × Json ℚ)} (hmems : (members.map (·.1)).Nodup)
    (hkeys : keys.Nodup) :
    dataRecord (.object members) keys = some result ↔
      (members.map (·.1)).toFinset = keys.toFinset ∧ members = result := by
  have hset : (members.length = keys.length ∧
      keys.all (fun key => (Json.lookup key members).isSome) = true) ↔
      (members.map (·.1)).toFinset = keys.toFinset := by
    have hcards : (members.map (·.1)).toFinset.card = members.length := by
      rw [List.toFinset_card_of_nodup hmems, List.length_map]
    have hflds : keys.toFinset.card = keys.length := List.toFinset_card_of_nodup hkeys
    refine ⟨?_, ?_⟩
    · intro h
      apply (Finset.eq_of_subset_of_card_le _ (by omega)).symm
      intro key hkey
      rw [List.mem_toFinset] at hkey ⊢
      exact isSome_lookup_iff.mp (List.all_eq_true.mp h.2 key hkey)
    · intro h
      refine ⟨by rw [← hcards, ← hflds, h], List.all_eq_true.mpr ?_⟩
      intro key hkey
      rw [isSome_lookup_iff, ← List.mem_toFinset, h, List.mem_toFinset]
      exact hkey
  rw [dataRecord]
  by_cases h : members.length = keys.length ∧
      keys.all (fun key => (Json.lookup key members).isSome) = true
  · rw [if_pos h, Option.some.injEq]
    exact ⟨fun heq => ⟨hset.mp h, heq⟩, fun heq => heq.2⟩
  · rw [if_neg h]
    refine ⟨?_, ?_⟩
    · intro heq
      cases heq
    · intro heq
      exact absurd (hset.mpr heq.1) h

theorem display_ok_iff {units : ℕ} {t : String} :
    display units = .ok t ↔ units < unitLimit ∧ text units = t := by
  have hlen : (Nat.toDigits 10 (units / 10 ^ 18) ++ fixedDigits 18 units).length - 18 =
      (Nat.toDigits 10 (units / 10 ^ 18)).length := by simp
  have hnumeral : Nat.toDigits 10 (units / 10 ^ 18) ++ '.' :: fixedDigits 18 units =
      numeral units 18 := rfl
  have hwhole : (Nat.toDigits 10 (units / 10 ^ 18)).length ≤ 36 ↔ units < unitLimit := by
    rw [Nat.length_toDigits_le_iff (by omega) (by omega), Nat.div_lt_iff_lt_mul (by positivity),
      unitLimit, ← pow_add]
  simp only [display, leftpad_toDigits, hlen, List.take_left, List.drop_left, hnumeral,
    bind_eq_ok, requireTier_eq_ok, hwhole, pure_eq_ok_iff, exists_const,
    rstrip_numeral (show (18 : ℕ) ≠ 0 by omega), ← text_eq_canonical]

@[simp] theorem text?_map (f : N → M) (value : Json N) : (value.map f).text? = value.text? := by
  cases value <;> rfl

@[simp] theorem nullableText?_map (f : N → M) (value : Json N) :
    (value.map f).nullableText? = value.nullableText? := by
  cases value <;> rfl

@[simp] theorem number?_map (f : N → M) (value : Json N) :
    (value.map f).number? = value.number?.map f := by
  cases value <;> rfl

/-- The members of a serialized value with an exact part. -/
structure Written (members exact : List (String × Json ℚ)) (money : MoneyValue)
    (fraction : ExactRational) : Prop where
  fields : (members.map (·.1)).toFinset =
    ["lower", "upper", "exact", "decimal", "precision", "terms"].toFinset
  lower : (Json.lookup "lower" members).bind Json.text? = some money.lower
  upper : (Json.lookup "upper" members).bind Json.text? = some money.upper
  exactPart : Json.lookup "exact" members = some (.object exact)
  exactFields : (exact.map (·.1)).toFinset = ["numerator", "denominator"].toFinset
  numerator : (Json.lookup "numerator" exact).bind Json.text? = some fraction.numerator
  denominator : (Json.lookup "denominator" exact).bind Json.text? = some fraction.denominator
  decimal : (Json.lookup "decimal" members).bind Json.nullableText? = some money.decimal
  precision : (Json.lookup "precision" members).bind Json.text? =
    some (precisionText money.precision)
  terms : (Json.lookup "terms" members).bind Json.number? = some (money.terms : ℚ)

theorem readPrecision_iff {s : String} {p : Precision} :
    readPrecision s = some p ↔ s = precisionText p := by
  refine ⟨?_, ?_⟩
  · intro h
    unfold readPrecision at h
    split at h <;> cases h <;> rfl
  · intro h
    subst h
    cases p <;> rfl

theorem readExact_object {fraction : Option ExactRational} (hexact : (exact.map (·.1)).Nodup) :
    readExact (.object exact) = some fraction ↔
      (exact.map (·.1)).toFinset = ["numerator", "denominator"].toFinset ∧
        ∃ numerator denominator,
          (Json.lookup "numerator" exact).bind Json.text? = some numerator ∧
          (Json.lookup "denominator" exact).bind Json.text? = some denominator ∧
          some ⟨numerator, denominator⟩ = fraction := by
  have hkeys : ["numerator", "denominator"].Nodup := by decide
  refine ⟨?_, ?_⟩
  · intro h
    obtain ⟨members, hmems, h⟩ := Option.bind_eq_some_iff.mp h
    obtain ⟨hflds, rfl⟩ := (dataRecord_iff hexact hkeys).mp hmems
    obtain ⟨numerator, hnumerator, h⟩ := Option.bind_eq_some_iff.mp h
    obtain ⟨denominator, hdenominator, h⟩ := Option.bind_eq_some_iff.mp h
    exact ⟨hflds, numerator, denominator, hnumerator, hdenominator, Option.some_inj.mp h⟩
  · intro h
    obtain ⟨hflds, numerator, denominator, hnumerator, hdenominator, rfl⟩ := h
    have hrecord := (dataRecord_iff hexact hkeys).mpr ⟨hflds, rfl⟩
    simp only [readExact, Option.bind_eq_bind, hrecord, Option.bind_some, hnumerator, hdenominator]
    rfl

/-- Node reads a value with an exact part exactly when it is written with these members. -/
theorem readMoneyValue_iff {money : MoneyValue} {fraction : ExactRational} (hvalue : value.Distinct)
    (hfrac : money.exact = some fraction) :
    readMoneyValue value = some money ↔
      ∃ members exact, value = .object members ∧ Written members exact money fraction := by
  have hnames : ["lower", "upper", "exact", "decimal", "precision", "terms"].Nodup := by decide
  refine ⟨?_, ?_⟩
  · intro h
    obtain ⟨members, hmems, h⟩ := Option.bind_eq_some_iff.mp h
    cases value with
    | object entries =>
      obtain ⟨hflds, rfl⟩ := (dataRecord_iff hvalue.1 hnames).mp hmems
      obtain ⟨lower, hlower, h⟩ := Option.bind_eq_some_iff.mp h
      obtain ⟨upper, hupper, h⟩ := Option.bind_eq_some_iff.mp h
      obtain ⟨exact, hexact, h⟩ := Option.bind_eq_some_iff.mp h
      obtain ⟨decimal, hdec, h⟩ := Option.bind_eq_some_iff.mp h
      obtain ⟨precision, hprec, h⟩ := Option.bind_eq_some_iff.mp h
      obtain ⟨terms, hterms, h⟩ := Option.bind_eq_some_iff.mp h
      by_cases hden : terms.den = 1
      · simp only [if_pos hden, Option.pure_def, Option.some.injEq] at h
        subst h
        obtain rfl : exact = some fraction := hfrac
        obtain ⟨part, hpart, hread⟩ := Option.bind_eq_some_iff.mp hexact
        obtain ⟨written, hwritten, hprecisionRead⟩ := Option.bind_eq_some_iff.mp hprec
        rw [readPrecision_iff.mp hprecisionRead] at hwritten
        cases part with
        | object inner =>
          obtain ⟨hinner, numerator, denominator, hnumerator, hdenominator, heq⟩ :=
            (readExact_object (hvalue.lookup hpart).1).mp hread
          obtain rfl : ⟨numerator, denominator⟩ = fraction := Option.some_inj.mp heq
          exact ⟨entries, inner, rfl, hflds, hlower, hupper, hpart, hinner, hnumerator,
            hdenominator, hdec, hwritten, by rw [hterms, Rat.coe_int_num_of_den_eq_one hden]⟩
        | null => cases hread
        | bool b => cases hread
        | number n => cases hread
        | string s => cases hread
        | array items => cases hread
      · simp only [if_neg hden] at h
        cases h
    | null => cases hmems
    | bool b => cases hmems
    | number n => cases hmems
    | string s => cases hmems
    | array items => cases hmems
  · intro h
    obtain ⟨members, exact, rfl, hwritten⟩ := h
    obtain ⟨lower, upper, part, decimal, precision, terms⟩ := money
    obtain rfl : part = some fraction := hfrac
    have hrecord := (dataRecord_iff hvalue.1 hnames).mpr ⟨hwritten.fields, rfl⟩
    have hexact : (Json.lookup "exact" members).bind readExact = some (some fraction) := by
      rw [hwritten.exactPart, Option.bind_some]
      exact (readExact_object (hvalue.lookup hwritten.exactPart).1).mpr ⟨hwritten.exactFields, _, _,
        hwritten.numerator, hwritten.denominator, rfl⟩
    have hprec : ((Json.lookup "precision" members).bind Json.text?).bind readPrecision =
        some precision := by
      rw [hwritten.precision, Option.bind_some]
      exact readPrecision_iff.mpr rfl
    simp only [readMoneyValue, Option.bind_eq_bind, hrecord, Option.bind_some, hwritten.lower,
      hwritten.upper, hexact, hwritten.decimal, hprec, hwritten.terms, Rat.den_intCast, if_true,
      Rat.num_intCast, Option.pure_def]

theorem positiveInteger_ok_iff {value : Option (Json Number)} :
    positiveInteger value = .ok n ↔
      0 < n ∧ n < digitLimit ∧ value.bind Json.text? = some (bigintText n) := by
  have htext : ∀ k : ℕ, bigintText k = .ofList (Nat.toDigits 10 k) := by
    intro k
    simp [bigintText]
  unfold positiveInteger
  cases hvalue : value.bind Json.text? with
  | none => simp
  | some digits =>
    simp only [bind_eq_ok, requireTier_eq_ok, positiveInteger_iff, pure_eq_ok_iff, exists_const,
      Option.some.injEq, htext]
    refine ⟨?_, ?_⟩
    · intro h
      obtain ⟨⟨k, hk, hpos, hlt⟩, hn⟩ := h
      rw [hk, Nat.ofDigitChars_ten_toDigits] at hn
      subst hn
      exact ⟨hpos, hlt, by rw [← hk, String.ofList_toList]⟩
    · intro h
      obtain ⟨hpos, hlt, rfl⟩ := h
      rw [String.toList_ofList]
      exact ⟨⟨n, rfl, hpos, hlt⟩, Nat.ofDigitChars_ten_toDigits⟩

theorem int?_received {q : ℚ} {i : ℤ} :
    (Number.received q).int? = some i ↔ q = i ∧ |i| < 10 ^ 21 := by
  unfold Number.received
  split_ifs with h
  · rw [Number.int?, Option.some.injEq]
    have hq := Rat.coe_int_num_of_den_eq_one h.1
    have hbound := h.2
    rw [← hq] at hbound
    refine ⟨?_, ?_⟩
    · intro hi
      subst hi
      exact ⟨hq.symm, by exact_mod_cast hbound⟩
    · intro hi
      rw [hi.1, Rat.num_intCast]
  · rw [Number.int?]
    refine ⟨?_, ?_⟩
    · intro hi
      cases hi
    · intro hi
      obtain ⟨rfl, hlt⟩ := hi
      exact absurd ⟨Rat.den_intCast i, by exact_mod_cast hlt⟩ h

theorem positiveTerms_ok_iff {value : Option (Json ℚ)} :
    positiveTerms (value.map (·.map Number.received)) = .ok () ↔
      ∃ t : ℕ, 0 < t ∧ t ≤ maxSafeInteger ∧ value.bind Json.number? = some (((t : ℕ) : ℤ) : ℚ) := by
  have hnumb : ((value.map (·.map Number.received)).bind Json.number?).bind Number.int? =
      (value.bind Json.number?).bind (fun q => (Number.received q).int?) := by
    cases value with
    | none => rfl
    | some v => simp only [Option.map_some, Option.bind_some, number?_map, Option.bind_map]; rfl
  unfold positiveTerms
  rw [hnumb]
  cases hterms : value.bind Json.number? with
  | none => simp
  | some q =>
    rw [Option.bind_some]
    cases hint : (Number.received q).int? with
    | none =>
      simp only [reduceCtorEq, Option.some.injEq, false_iff, not_exists]
      intro t h
      obtain ⟨-, hle, rfl⟩ := h
      have hlarge : |((t : ℕ) : ℤ)| < 10 ^ 21 := by
        rw [abs_of_nonneg (by positivity)]
        rw [maxSafeInteger] at hle
        omega
      rw [int?_received.mpr ⟨rfl, hlarge⟩] at hint
      cases hint
    | some i =>
      obtain ⟨rfl, -⟩ := int?_received.mp hint
      simp only [requireTier_eq_ok, Option.some.injEq, Int.cast_inj]
      refine ⟨?_, ?_⟩
      · intro h
        exact ⟨i.toNat, by omega, by omega, by omega⟩
      · intro h
        obtain ⟨t, hpos, hle, rfl⟩ := h
        exact ⟨by omega, by omega⟩

theorem shape_ok_iff {members : List (String × Json Number)} {fields : List String} :
    shape (.object members) fields = .ok result ↔
      (members.map (·.1)).toFinset = fields.toFinset ∧ members = result := by
  simp only [shape, bind_eq_ok, requireTier_eq_ok, pure_eq_ok_iff, exists_const]

theorem ceil_div_eq (a : ℕ) (hd : 0 < d) :
    (a + d - 1) / d = a / d + if a % d = 0 then 0 else 1 := by
  have hsplit := Nat.div_add_mod a d
  have hmod := Nat.mod_lt a hd
  generalize a / d = k at hsplit ⊢
  generalize a % d = r at hsplit hmod ⊢
  split_ifs with hr
  · have hsum : a + d - 1 = d * k + (d - 1) := by omega
    rw [hsum, Nat.mul_add_div hd, Nat.div_eq_of_lt (by omega)]
  · have hsum : a + d - 1 = d * (k + 1) + (r - 1) := by
      rw [Nat.mul_succ]
      omega
    rw [hsum, Nat.mul_add_div hd, Nat.div_eq_of_lt (by omega), Nat.add_zero]

theorem bounds_of_fraction (hd : 0 < d) :
    ⌊(n : ℚ) / d * 10 ^ 18⌋ = (n * 10 ^ 18 / d : ℕ) ∧
      ⌈(n : ℚ) / d * 10 ^ 18⌉ =
        ((n * 10 ^ 18 / d + if n * 10 ^ 18 % d = 0 then 0 else 1 : ℕ) : ℤ) := by
  have hvalue : (n : ℚ) / d * 10 ^ 18 = ((n * 10 ^ 18 : ℕ) : ℚ) / d := by
    push_cast
    ring
  rw [hvalue, floor_natCast_div, ceil_natCast_div _ hd, ceil_div_eq _ hd]
  exact ⟨rfl, rfl⟩

theorem text?_received (f : N → M) (key : String) (members : List (String × Json N)) :
    (Json.lookup key (Json.mapMembers f members)).bind Json.text? =
      (Json.lookup key members).bind Json.text? := by
  rw [Json.lookup_mapMembers]
  cases Json.lookup key members with
  | none => rfl
  | some value => exact text?_map f value

theorem nullableText?_received (f : N → M) (key : String) (members : List (String × Json N)) :
    (Json.lookup key (Json.mapMembers f members)).bind Json.nullableText? =
      (Json.lookup key members).bind Json.nullableText? := by
  rw [Json.lookup_mapMembers]
  cases Json.lookup key members with
  | none => rfl
  | some value => exact nullableText?_map f value

theorem shape_received_iff {fields : List String} :
    shape (received value) fields = .ok result ↔ ∃ members, value = .object members ∧
      (members.map (·.1)).toFinset = fields.toFinset ∧
      Json.mapMembers Number.received members = result := by
  cases value with
  | object members =>
    rw [received, Json.map, shape_ok_iff, Json.keys_mapMembers]
    simp
  | null => simp [received, Json.map, shape]
  | bool b => simp [received, Json.map, shape]
  | number n => simp [received, Json.map, shape]
  | string s => simp [received, Json.map, shape]
  | array items => simp [received, Json.map, shape]

theorem exactPart_received (members : List (String × Json ℚ)) :
    (Json.lookup "exact" (Json.mapMembers Number.received members)).getD .null =
      received ((Json.lookup "exact" members).getD .null) := by
  rw [Json.lookup_mapMembers]
  cases Json.lookup "exact" members with
  | none => rfl
  | some value => rfl

theorem getD_eq_object {value : Option (Json ℚ)} :
    value.getD .null = .object exact ↔ value = some (.object exact) := by
  cases value <;> simp

theorem rationalText_fraction (hd : 0 < d) (hgcd : n.gcd d = 1) :
    rationalText ((n : ℚ) / d) = ⟨bigintText n, bigintText d⟩ := by
  have hcoprime : Nat.Coprime (n : ℤ).natAbs (d : ℤ).natAbs := hgcd
  have hpos : (0 : ℤ) < d := by exact_mod_cast hd
  have hnum := Rat.num_div_eq_of_coprime hpos hcoprime
  have hden := Rat.den_div_eq_of_coprime hpos hcoprime
  rw [Int.cast_natCast, Int.cast_natCast] at hnum hden
  rw [rationalText, hnum, hden]

theorem money_fraction {t : ℕ} (hd : 0 < d) (hgcd : n.gcd d = 1) :
    (Amount.exact ((n : ℚ) / d) t).money =
      { lower := text (n * 10 ^ 18 / d)
        upper := text (n * 10 ^ 18 / d + if n * 10 ^ 18 % d = 0 then 0 else 1)
        exact := some ⟨bigintText n, bigintText d⟩
        decimal := if n * 10 ^ 18 % d = 0 then some (text (n * 10 ^ 18 / d)) else none
        precision := if n * 10 ^ 18 % d = 0 then .exactDecimal else .exactRational
        terms := t } := by
  obtain ⟨hfloor, hceil⟩ := bounds_of_fraction (n := n) hd
  simp only [Amount.money, hfloor, hceil, rationalText_fraction hd hgcd, signedText_natCast]
  simp

/-- The executor accepts exactly the written forms of valid positive exact amounts. -/
theorem exactPositiveMoneyValue_ok_iff {q : ℚ} :
    exactPositiveMoneyValue (received value) = .ok q ↔
      ∃ t : ℕ, (Amount.exact q t).Valid ∧ 0 < q ∧ 0 < t ∧ ∃ members exact,
        value = .object members ∧
          Written members exact (Amount.exact q t).money (rationalText q) := by
  refine ⟨?_, ?_⟩
  · intro h
    simp only [exactPositiveMoneyValue, bind_eq_ok, requireTier_eq_ok, pure_eq_ok_iff,
      display_ok_iff, positiveInteger_ok_iff, shape_received_iff, exists_const] at h
    obtain ⟨_, ⟨members, rfl, hflds, rfl⟩, h⟩ := h
    simp only [exactPart_received, shape_received_iff, getD_eq_object, text?_received,
      nullableText?_received, Json.lookup_mapMembers _ "terms"] at h
    obtain ⟨_, ⟨exact, hpart, hexactFields, rfl⟩, n, ⟨hn, hnlt, hnumerator⟩, d,
      ⟨hd, hdlt, hdenominator⟩, hgcd, _, hterms, _, ⟨hlowerlt, rfl⟩, _, ⟨hupperlt, rfl⟩,
      ⟨hlower, hupper, hdec, hprec⟩, rfl⟩ := h
    obtain ⟨t, ht, htle, hterms⟩ := positiveTerms_ok_iff.mp hterms
    rw [text?_received] at hnumerator hdenominator
    obtain ⟨hfloor, hceil⟩ := bounds_of_fraction (n := n) hd
    have hfits : Fits ((n : ℚ) / d) := by
      have hfit := fits_div (n := n) (d := d) (by exact_mod_cast hd) (by simpa using hnlt)
        (by simpa using hdlt)
      rwa [Int.cast_natCast, Int.cast_natCast] at hfit
    have hpositive : (0 : ℚ) < n / d := by positivity
    refine ⟨t, ⟨⟨htle, ?_, ?_⟩, hfits, ?_⟩, hpositive, ht, members, exact, rfl, ?_⟩
    · rw [Amount.lower, hfloor, Int.natAbs_natCast]
      exact hlowerlt
    · rw [Amount.upper, hceil, Int.natAbs_natCast]
      exact hupperlt
    · intro hzero
      omega
    · rw [money_fraction hd hgcd, rationalText_fraction hd hgcd]
      refine ⟨hflds, hlower, hupper, hpart, hexactFields, hnumerator, hdenominator, hdec, ?_,
        hterms⟩
      rw [hprec]
      split_ifs <;> rfl
  · intro h
    obtain ⟨t, hvalid, hpos, ht, members, exact, rfl, hwritten⟩ := h
    obtain ⟨n, d, hn, hnlt, hd, hdlt, hgcd, rfl⟩ : ∃ n d : ℕ, 0 < n ∧ n < digitLimit ∧ 0 < d ∧
        d < digitLimit ∧ n.gcd d = 1 ∧ q = (n : ℚ) / d := by
      obtain ⟨hnum, hden⟩ := hvalid.wellFormed.1
      have hpositive := Rat.num_pos.mpr hpos
      refine ⟨q.num.natAbs, q.den, by omega, hnum, q.den_pos, hden, q.reduced, ?_⟩
      have hself := Rat.num_div_den q
      rw [← Int.natAbs_of_nonneg hpositive.le, Int.cast_natCast] at hself
      exact hself.symm
    obtain ⟨hfloor, hceil⟩ := bounds_of_fraction (n := n) hd
    have hlowerlt : n * 10 ^ 18 / d < unitLimit := by
      have h := hvalid.lower_lt
      rwa [Amount.lower, hfloor, Int.natAbs_natCast] at h
    have hupperlt : (n * 10 ^ 18 / d + if n * 10 ^ 18 % d = 0 then 0 else 1) < unitLimit := by
      have h := hvalid.upper_lt
      rwa [Amount.upper, hceil, Int.natAbs_natCast] at h
    rw [money_fraction hd hgcd, rationalText_fraction hd hgcd] at hwritten
    have hprec : (Json.lookup "precision" members).bind Json.text? =
        some (if n * 10 ^ 18 % d = 0 then "exact_decimal" else "exact_rational") := by
      rw [hwritten.precision]
      split_ifs <;> rfl
    have hterms : positiveTerms ((Json.lookup "terms" members).map (·.map Number.received)) =
        .ok () := positiveTerms_ok_iff.mpr ⟨t, ht, hvalid.terms_le, hwritten.terms⟩
    simp only [exactPositiveMoneyValue, bind_eq_ok, requireTier_eq_ok, pure_eq_ok_iff,
      display_ok_iff, positiveInteger_ok_iff, shape_received_iff, exists_const]
    refine ⟨_, ⟨members, rfl, hwritten.fields, rfl⟩, Json.mapMembers Number.received exact, ?_, n,
      ⟨hn, hnlt, ?_⟩, d, ⟨hd, hdlt, ?_⟩, hgcd, (), ?_, _, ⟨hlowerlt, rfl⟩, _, ⟨hupperlt, rfl⟩,
      ⟨?_, ?_, ?_, ?_⟩, rfl⟩
    · rw [exactPart_received, shape_received_iff]
      exact ⟨exact, getD_eq_object.mpr hwritten.exactPart, hwritten.exactFields, rfl⟩
    · rw [text?_received]
      exact hwritten.numerator
    · rw [text?_received]
      exact hwritten.denominator
    · rw [Json.lookup_mapMembers]
      exact hterms
    · rw [text?_received]
      exact hwritten.lower
    · rw [text?_received]
      exact hwritten.upper
    · rw [nullableText?_received]
      exact hwritten.decimal
    · rw [text?_received]
      exact hprec

theorem money_agreement {q : ℚ} (hvalue : value.Distinct) :
    exactPositiveMoneyValue (received value) = .ok q ↔
      ∃ money fraction, validateMoneyJson value = .ok money ∧ money.exact = some fraction ∧
        Represents fraction q ∧ 0 < q ∧ 0 < money.terms := by
  rw [exactPositiveMoneyValue_ok_iff]
  refine ⟨?_, ?_⟩
  · intro h
    obtain ⟨t, hvalid, hpos, ht, hmems⟩ := h
    have hread := (readMoneyValue_iff hvalue
      (show (Amount.exact q t).money.exact = some (rationalText q) from rfl)).mpr hmems
    refine ⟨(Amount.exact q t).money, rationalText q, ?_, rfl,
      represents_rationalText hvalid.wellFormed.1, hpos, ?_⟩
    · rw [validateMoneyJson, hread]
      exact hvalid.validate
    · rw [Amount.money_terms]
      exact_mod_cast ht
  · intro h
    obtain ⟨money, fraction, hvalidate, hexact, hrepr, hpos, hterms⟩ := h
    unfold validateMoneyJson at hvalidate
    cases hread : readMoneyValue value with
    | none =>
      rw [hread] at hvalidate
      cases hvalidate
    | some read =>
      rw [hread] at hvalidate
      obtain ⟨amount, hvalid, rfl, rfl⟩ := validateMoneyValue_ok_iff.mp hvalidate
      cases amount with
      | bounded l u t => cases hexact
      | exact p t =>
        obtain rfl : rationalText p = fraction := Option.some_inj.mp hexact
        obtain ⟨rfl, -⟩ := represents_rationalText_iff.mp hrepr
        rw [Amount.money_terms] at hterms
        exact ⟨t, hvalid, hpos, by exact_mod_cast hterms,
          (readMoneyValue_iff hvalue hexact).mp hread⟩

theorem distinct_moneyJson (money : MoneyValue) : (moneyJson money).Distinct := by
  have hnames : ["lower", "upper", "exact", "decimal", "precision", "terms"].Nodup := by decide
  obtain ⟨lower, upper, exact, decimal, precision, terms⟩ := money
  refine ⟨hnames, ?_⟩
  cases exact <;> cases decimal <;> simp [Json.DistinctMembers, Json.Distinct]

theorem readMoneyValue_moneyJson (money : MoneyValue) :
    readMoneyValue (moneyJson money) = some money := by
  obtain ⟨lower, upper, exact, decimal, precision, terms⟩ := money
  have hprec : readPrecision (precisionText precision) = some precision :=
    readPrecision_iff.mpr rfl
  have hexact : readExact (exact.elim .null (fun exact => .object
      [("numerator", .string exact.numerator), ("denominator", .string exact.denominator)])) =
      some exact := by
    cases exact <;> rfl
  have hdec : (decimal.elim .null .string : Json ℚ).nullableText? = some decimal := by
    cases decimal <;> rfl
  simp [readMoneyValue, moneyJson, dataRecord, Json.lookup, Json.text?, Json.number?, hprec,
    hexact, hdec]

theorem validateMoneyJson_moneyJson (money : MoneyValue) :
    validateMoneyJson (moneyJson money) = validateMoneyValue money := by
  rw [validateMoneyJson, readMoneyValue_moneyJson]

theorem assertTierDecisionBudget_iff {currency : String} {money : MoneyValue} {q u v : ℕ}
    (hver : decision.version = 2) (hmoney : decision.maximumNotionalValue = some money)
    (hq : q < unitLimit) (hu : u < unitLimit) (hv : v < unitLimit) :
    TradingLeverageTiers.assertTierDecisionBudget decision currency (text q) (text u) (text v) =
        .ok () ↔
      decision.maximumNotionalCurrency = some currency ∧ decision.maximumNotional = money.decimal ∧
        ∃ fraction b, validateMoneyValue money = .ok money ∧ money.exact = some fraction ∧
          Represents fraction b ∧ 0 < b ∧ 0 < money.terms ∧ 0 < q ∧ 0 < max u v ∧
          unitValue q * unitValue (max u v : ℕ) ≤ b := by
  have hmax : max u v < unitLimit := max_lt hu hv
  have hprice : TradingLeverageTiers.valuationPrice (text u) (text v) = .ok (text (max u v)) := by
    rw [TradingLeverageTiers.valuationPrice_ok_iff]
    refine ⟨u, v, denotes_text hu, denotes_text hv, ?_⟩
    split_ifs with hless
    · rw [max_eq_left hless.le]
    · rw [max_eq_right (not_lt.mp hless)]
  have hprod := TradingLeverageTiers.multiplyRational_unitValue hq hmax
  simp only [TradingLeverageTiers.assertTierDecisionBudget, hver, OfNat.ofNat_ne_one, if_false,
    hmoney, bind_eq_ok, TradingLeverageTiers.requireTier_eq_ok, true_and, exists_const, hprice,
    Except.ok.injEq, exists_eq_left', decimal_text hq, decimal_text hmax, and_assoc,
    rationalFromDecimal_text hq, rationalFromDecimal_text hmax, hprod,
    TradingLeverageTiers.exactPositive_ok_iff, compareRational_ok_iff, exists_and_left]
  refine ⟨?_, ?_⟩
  · intro h
    obtain ⟨hccy, a, hvalid, hdec, x, hx, hterms, ⟨b, hb, hpos⟩, hqpos, hmaxpos, _,
      ⟨p, hp, c, hc, rfl⟩, horder⟩ := h
    obtain ⟨-, -, -, rfl⟩ := validateMoneyValue_ok_iff.mp hvalid
    obtain ⟨rfl, -⟩ := represents_rationalText_iff.mp hp
    obtain rfl := hc.unique hb
    refine ⟨hccy, hdec, hvalid, x, hx, c, hc, hpos, hterms, hqpos, hmaxpos, ?_⟩
    exact not_lt.mp fun hlt => absurd (order_pos_iff.mpr hlt) (not_lt.mpr horder)
  · intro h
    obtain ⟨hccy, hdec, hvalid, x, hx, b, hb, hpos, hterms, hqpos, hmaxpos, hle⟩ := h
    refine ⟨hccy, money, hvalid, hdec, x, hx, hterms, ⟨b, hb, hpos⟩, hqpos, hmaxpos, _,
      ⟨_, represents_rationalText (TradingLeverageTiers.fits_product hq hmax), b, hb, rfl⟩, ?_⟩
    exact not_lt.mp fun hlt => absurd (order_pos_iff.mp hlt) (not_lt.mpr hle)

theorem budget_agreement {currency quantity mark entry : String} (hver : decision.version = 2)
    (hqty : Canonical quantity) (hmark : Canonical mark) (hentry : Canonical entry)
    (hmarkPositive : mark ≠ "0") (hentryPositive : entry ≠ "0") :
    assertFxTierBudget decision currency quantity mark entry = .ok () ↔
      TradingLeverageTiers.assertTierDecisionBudget decision currency quantity mark entry =
        .ok () := by
  obtain ⟨q, hq, rfl⟩ := canonical_iff.mp hqty
  obtain ⟨u, hu, rfl⟩ := canonical_iff.mp hmark
  obtain ⟨v, hv, rfl⟩ := canonical_iff.mp hentry
  have hupos : 0 < u := Nat.pos_of_ne_zero fun hzero => hmarkPositive (text_eq_zero.mpr hzero)
  have hvpos : 0 < v := Nat.pos_of_ne_zero fun hzero => hentryPositive (text_eq_zero.mpr hzero)
  have hvaln : max (unitValue u) (unitValue v) = unitValue (max u v : ℕ) := by
    rcases le_total u v with h | h
    · rw [max_eq_right h, max_eq_right (unitValue_le_iff.mpr (by exact_mod_cast h))]
    · rw [max_eq_left h, max_eq_left (unitValue_le_iff.mpr (by exact_mod_cast h))]
  cases hmoney : decision.maximumNotionalValue with
  | none =>
    simp [assertFxTierBudget, TradingLeverageTiers.assertTierDecisionBudget, hver, hmoney,
      received, Json.map, exactPositiveMoneyValue, shape, bind_eq_ok]
  | some money =>
    rw [assertTierDecisionBudget_iff hver hmoney hq hu hv]
    simp only [assertFxTierBudget, hmoney, Option.elim_some, Option.bind_some, bind_eq_ok,
      requireTier_eq_ok, money_agreement (distinct_moneyJson money), validateMoneyJson_moneyJson,
      tierNumber_text hq, tierNumber_text hu, tierNumber_text hv, true_implies, and_assoc,
      exists_and_left, exists_eq_left', exists_const, value_ofText (denotes_text hq),
      value_ofText (denotes_text hu), value_ofText (denotes_text hv), hvaln]
    refine ⟨?_, ?_⟩
    · intro h
      obtain ⟨b, ⟨a, hvalid, x, hx, hb, hpos, hterms⟩, hccy, hdec, -, -, hqpos, hle⟩ := h
      obtain ⟨-, -, -, rfl⟩ := validateMoneyValue_ok_iff.mp hvalid
      exact ⟨hccy, hdec, hvalid, x, hx, b, hb, hpos, hterms, hqpos, by omega, hle⟩
    · intro h
      obtain ⟨hccy, hdec, hvalid, x, hx, b, hb, hpos, hterms, hqpos, -, hle⟩ := h
      exact ⟨b, ⟨money, hvalid, x, hx, hb, hpos, hterms⟩, hccy, hdec, hupos, hvpos, hqpos,
        hle⟩

end Budgets

open TradingTypes

structure CanonicalBoundary (boundary : TradingEntryPriceBoundary) : Prop where
  referencePrice : Canonical boundary.referencePrice
  maxSlippagePercent : Canonical boundary.maxSlippagePercent
  priceTick : Canonical boundary.priceTick
  limitPrice : Canonical boundary.limitPrice

/-- On canonical decimals the two sides decide boundaries, tiers, money values and, for
prices above zero, budgets alike. -/
theorem entry_fences_agree :
    (∀ (boundary : TradingEntryPriceBoundary) (side : TradingSide) (priceTick : String),
      CanonicalBoundary boundary → Canonical priceTick →
        ((∃ limit, boundaryFence (some boundary) (orderSide side) priceTick = .ok limit) ↔
          TradingRisk.assertBoundaryContract boundary side boundary.maxSlippagePercent = .ok () ∧
            boundary.priceTick = priceTick)) ∧
    (∀ (tiers : List TradingLeverageTier) (quantity mark : String) (leverage : ℤ) (i : ℕ),
      (∀ tier ∈ tiers, CanonicalTier tier) → Canonical quantity → Canonical mark →
      1 ≤ leverage → leverage ≤ 50 →
        (assertQuantityTier tiers quantity mark leverage = .ok i ↔
          TradingLeverageTiers.validateTierTable tiers = .ok () ∧
            TradingLeverageTiers.tierForQuantity tiers quantity mark = .ok i ∧
            ∃ tier, tiers[i]? = some tier ∧ leverage ≤ tier.maxLeverage)) ∧
    (∀ (value : Json ℚ) (q : ℚ), value.Distinct →
      (exactPositiveMoneyValue (received value) = .ok q ↔
        ∃ money fraction, validateMoneyJson value = .ok money ∧ money.exact = some fraction ∧
          TradingRational.Represents fraction q ∧ 0 < q ∧ 0 < money.terms)) ∧
    ∀ (decision : TradingLeverageTierDecision) (currency quantity mark entry : String),
      decision.version = 2 → Canonical quantity → Canonical mark → Canonical entry →
      mark ≠ "0" → entry ≠ "0" →
        (assertFxTierBudget decision currency quantity mark entry = .ok () ↔
          TradingLeverageTiers.assertTierDecisionBudget decision currency quantity mark entry =
            .ok ()) := by
  refine ⟨?_, ?_, ?_, ?_⟩
  · intro boundary side priceTick h hmkt
    exact boundary_agreement h.referencePrice h.maxSlippagePercent h.priceTick h.limitPrice hmkt
  · intro tiers quantity mark leverage i htiers hqty hmark hone hfifty
    exact quantityTier_agreement htiers hqty hmark hone hfifty
  · intro value q hvalue
    exact money_agreement hvalue
  · intro decision currency quantity mark entry hver hqty hmark hentry hmarkPos hentryPos
    exact budget_agreement hver hqty hmark hentry hmarkPos hentryPos

def unitDecision : TradingLeverageTierDecision where
  version := 2
  evidenceHash := ""
  providerSymbol := "BTC/USDT:USDT"
  contractSize := "1"
  tierIndex := 0
  quantity := "1"
  leverage := 1
  maximumNotional := some "1"
  maximumNotionalCurrency := some "USDT"
  maximumNotionalValue := some
    { lower := "1", upper := "1", exact := some ⟨"1", "1"⟩, decimal := some "1",
      precision := .exactDecimal, terms := 1 }

def thirdValue : TradingMoneyValue.MoneyValue where
  lower := "0.333333333333333333"
  upper := "0.333333333333333334"
  exact := some ⟨"1", "3"⟩
  decimal := none
  precision := .exactRational
  terms := 1

/-- All four parts at concrete values. -/
theorem entry_fences_agree_unit :
    (∃ limit, boundaryFence (some ⟨1, "100", "0.5", "0.01", "100.5"⟩) (orderSide .long) "0.01" =
        .ok limit) ∧
      assertQuantityTier [⟨"0", some "10", 20⟩, ⟨"10", none, 5⟩] "3" "4" 5 = .ok 1 ∧
      exactPositiveMoneyValue (received (moneyJson thirdValue)) = .ok (1 / 3) ∧
      assertFxTierBudget unitDecision "USDT" "0.5" "1.5" "2" = .ok () := by
  obtain ⟨hboundary, htier, hmoney, hbud⟩ := entry_fences_agree
  refine ⟨?_, ?_, ?_, ?_⟩
  · refine (hboundary _ .long _ ⟨?_, ?_, ?_, ?_⟩ ?_).mpr ⟨?_, rfl⟩ <;> decide +kernel
  · have htiers : ∀ tier ∈ [⟨"0", some "10", 20⟩, (⟨"10", none, 5⟩ : TradingLeverageTier)],
        CanonicalTier tier := by
      simp only [List.mem_cons, List.not_mem_nil, or_false, forall_eq_or_imp, forall_eq]
      refine ⟨⟨by decide +kernel, ?_⟩, ⟨by decide +kernel, by simp⟩⟩
      rintro _ ⟨rfl⟩
      decide +kernel
    refine (htier _ _ _ _ _ htiers ?_ ?_ (by decide) (by decide)).mpr
      ⟨?_, ?_, _, rfl, by decide⟩ <;> decide +kernel
  · refine (hmoney _ _ (distinct_moneyJson _)).mpr
      ⟨thirdValue, _, ?_, rfl, ?_, by norm_num, by decide⟩
    · rw [validateMoneyJson_moneyJson]
      decide +kernel
    · have hthird : rationalText (1 / 3) = ⟨"1", "3"⟩ := by decide +kernel
      rw [← hthird]
      exact represents_rationalText (by decide +kernel)
  · refine (hbud _ _ _ _ _ rfl ?_ ?_ ?_ (by decide) (by decide)).mpr ?_ <;> decide +kernel

/-- Node values a quantity at the dearer price, so it admits a zero entry price that the
executor refuses. -/
theorem zero_entry_price_splits_budget :
    ¬ ∀ (decision : TradingLeverageTierDecision) (currency quantity mark entry : String),
      decision.version = 2 → Canonical quantity → Canonical mark → Canonical entry →
        (assertFxTierBudget decision currency quantity mark entry = .ok () ↔
          TradingLeverageTiers.assertTierDecisionBudget decision currency quantity mark entry =
            .ok ()) := by
  intro h
  have hone : Canonical "1" := by decide +kernel
  have hzero : Canonical "0" := by decide +kernel
  have hnode : TradingLeverageTiers.assertTierDecisionBudget unitDecision "USDT" "1" "1" "0" =
      .ok () := by decide +kernel
  have hexecutor : assertFxTierBudget unitDecision "USDT" "1" "1" "0" ≠ .ok () := by decide +kernel
  exact hexecutor ((h unitDecision "USDT" "1" "1" "0" rfl hone hone hzero).mpr hnode)

end TsxCore.Executor
