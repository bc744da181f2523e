import TsxCore.NumeralValue
import TsxCore.TickRounding

/-!
# Truncating decimal operations as bounds on values

Products and quotients are truncated, never rounded up, so each is at most the
exact result; rounding down to an increment gives a whole multiple of it below the
value. A chain of such operations therefore bounds its result by the exact formula.
-/

namespace TsxCore.TradingDecimal

open Outcome Numeral TradingRational

variable {l r s : String} {u : ℕ} {maximum : Option String} {values : List String}

theorem unitValue_lt_iff {i j : ℤ} : unitValue i < unitValue j ↔ i < j := by
  rw [← not_le, unitValue_le_iff, not_le]

theorem unitValue_pos (h : 0 < u) : 0 < unitValue u := by
  have hlt := unitValue_lt_iff.mpr (show (0 : ℤ) < u by exact_mod_cast h)
  rwa [unitValue_zero] at hlt

theorem numeral_ne_nil (c k : ℕ) : numeral c k ≠ [] := by
  unfold numeral
  split_ifs
  · exact Nat.toDigits_ne_nil
  · simp

/-- An accepted text has no sign, even before it is trimmed. -/
theorem Reads.isNegative {s : String} (h : Reads s u) : isNegative s = false := by
  obtain ⟨p, hp, -⟩ := h
  have hs := (numeral_of_parse hp).1
  rw [Bool.eq_false_iff]
  intro hneg
  rw [TradingDecimal.isNegative, beq_iff_eq, List.head?_eq_some_iff] at hneg
  obtain ⟨cs, hcs⟩ := hneg
  have hspace : isSpace '-' = false := by decide
  rw [trim, hcs, List.dropWhile_cons_of_neg (by simp [hspace]), String.toList_ofList] at hs
  have hprefix := List.rdropWhile_prefix isSpace ('-' :: cs)
  rw [hs] at hprefix
  obtain ⟨rest, hrest⟩ := hprefix
  have hhead := congrArg List.head? hrest
  rw [List.head?_append_of_ne_nil _ (numeral_ne_nil _ _), List.head?_cons] at hhead
  have hnumeral := isNegative_numeral p.coefficient p.scale
  rw [TradingDecimal.isNegative, String.toList_ofList, hhead] at hnumeral
  cases hnumeral

theorem Reads.readsSigned {s : String} (h : Reads s u) : ReadsSigned s u := by
  refine ⟨u, ?_, ?_⟩
  · rwa [magnitude, h.isNegative]
  · rw [h.isNegative]
    rfl

theorem decimal_reads {positive : Bool} (h : decimal l positive maximum = .ok s) :
    ∃ u, Reads l u ∧ text u = s ∧ (positive = true → 0 < u) := by
  simp only [decimal, bind_eq_ok, throwIf_eq_ok, not_and] at h
  obtain ⟨p, hp, -, hpos, h⟩ := h
  refine ⟨p.units, ⟨p, hp, rfl⟩, ?_, fun hpositive => p.units_pos_iff.mpr (hpos hpositive)⟩
  rw [ParsedDecimal.units, ← format_eq_text (numeral_of_parse hp).2.1]
  cases maximum with
  | none => exact pure_eq_ok_iff.mp h
  | some bound =>
    simp only [bind_eq_ok, pure_eq_ok_iff] at h
    obtain ⟨_, -, -, -, h⟩ := h
    exact h

theorem decimal_value {positive : Bool} (h : decimal l positive maximum = .ok s) :
    decimalValue s = decimalValue l ∧ (positive = true → 0 < decimalValue l) := by
  obtain ⟨u, hu, rfl, hpos⟩ := decimal_reads h
  rw [decimalValue_text, hu.readsSigned.decimalValue]
  exact ⟨rfl, fun hpositive => unitValue_pos (hpos hpositive)⟩

theorem decimalValue_nonneg (h : Denotes s u) : 0 ≤ decimalValue s := by
  rw [h.decimalValue]
  exact unitValue_nonneg u

theorem unitValue_mul_le_iff {a b c : ℕ} :
    unitValue a * unitValue b ≤ unitValue c ↔ a * b ≤ c * 10 ^ 18 := by
  rw [unitValue_natCast, unitValue_natCast, unitValue_natCast, div_mul_div_comm,
    div_le_div_iff₀ (by positivity) (by positivity), ← mul_assoc,
    mul_le_mul_iff_left₀ (by positivity)]
  exact_mod_cast Iff.rfl

theorem compareDecimal_value {o : ℤ} (h : compareDecimal l r = .ok o) :
    (o < 0 ↔ decimalValue l < decimalValue r) ∧ (0 < o ↔ decimalValue r < decimalValue l) := by
  obtain ⟨u, v, hu, hv, rfl⟩ := compareDecimal_ok_iff.mp h
  rw [hu.decimalValue, hv.decimalValue, unitValue_lt_iff, unitValue_lt_iff, sign_neg_iff,
    sign_pos_iff]
  exact ⟨by exact_mod_cast Iff.rfl, by exact_mod_cast Iff.rfl⟩

theorem multiplyDecimal_le (h : multiplyDecimal l r = .ok s) :
    decimalValue s ≤ decimalValue l * decimalValue r := by
  obtain ⟨u, v, hu, hv, rfl⟩ := multiplyDecimal_ok_iff.mp h
  rw [decimalValue_text, hu.decimalValue, hv.decimalValue, unitValue_natCast, unitValue_natCast,
    unitValue_natCast, div_mul_div_comm, div_le_div_iff₀ (by positivity) (by positivity),
    ← mul_assoc]
  apply mul_le_mul_of_nonneg_right _ (by positivity)
  exact_mod_cast Nat.div_mul_le_self (u * v) (10 ^ 18)

theorem divideDecimal_le (h : divideDecimal l r = .ok s) :
    0 < decimalValue r ∧ decimalValue s ≤ decimalValue l / decimalValue r := by
  obtain ⟨u, v, hu, hv, hpos, rfl⟩ := (divideDecimal_ok_iff le_rfl).mp h
  have hvpos := unitValue_pos hpos
  rw [Nat.sub_self, pow_zero, mul_one, decimalValue_text, hu.decimalValue, hv.decimalValue]
  refine ⟨hvpos, ?_⟩
  rw [le_div_iff₀ hvpos, unitValue_mul_le_iff]
  exact Nat.div_mul_le_self _ _

theorem subtractDecimal_value (h : subtractDecimal l r = .ok s) :
    decimalValue s = decimalValue l - decimalValue r := by
  obtain ⟨u, v, hu, hv, hle, rfl⟩ := subtractDecimal_ok_iff.mp h
  rw [decimalValue_text, hu.decimalValue, hv.decimalValue, Nat.cast_sub hle, unitValue_sub]

theorem addDecimal_value (h : addDecimal l r = .ok s) :
    decimalValue s = decimalValue l + decimalValue r := by
  obtain ⟨u, v, hu, hv, rfl⟩ := addDecimal_ok_iff.mp h
  rw [decimalValue_text, hu.decimalValue, hv.decimalValue, Nat.cast_add, unitValue_add]

theorem addSignedDecimal_value (h : addSignedDecimal l r = .ok s) :
    decimalValue s = decimalValue l + decimalValue r := by
  obtain ⟨i, j, hi, hj, rfl⟩ := addSignedDecimal_ok_iff.mp h
  rw [decimalValue_signedText, hi.decimalValue, hj.decimalValue, unitValue_add]

theorem unitValue_eq_zero_iff {i : ℤ} : unitValue i = 0 ↔ i = 0 := by
  constructor
  · intro h
    exact unitValue_injective (h.trans unitValue_zero.symm)
  · rintro rfl
    exact unitValue_zero

@[simp] theorem decimalValue_zero : decimalValue "0" = 0 := by
  rw [← text_eq_zero.mpr rfl, decimalValue_text]
  exact unitValue_zero

theorem subtractDecimal_eq_zero (h : subtractDecimal l r = .ok s) :
    s = "0" ↔ decimalValue s = 0 := by
  obtain ⟨u, v, -, -, -, rfl⟩ := subtractDecimal_ok_iff.mp h
  rw [text_eq_zero, decimalValue_text, unitValue_eq_zero_iff]
  exact Int.natCast_eq_zero.symm

theorem compareDecimal_eq_zero {o : ℤ} (h : compareDecimal l r = .ok o) :
    o = 0 ↔ decimalValue l = decimalValue r := by
  obtain ⟨hneg, hpos⟩ := compareDecimal_value h
  constructor
  · intro ho
    apply le_antisymm
    · exact not_lt.mp (fun hlt => absurd (hpos.mpr hlt) (by omega))
    · exact not_lt.mp (fun hlt => absurd (hneg.mpr hlt) (by omega))
  · intro heq
    have h1 : ¬ o < 0 := fun ho => absurd (hneg.mp ho) (by rw [heq]; exact lt_irrefl _)
    have h2 : ¬ 0 < o := fun ho => absurd (hpos.mp ho) (by rw [heq]; exact lt_irrefl _)
    omega

theorem quantizeDecimalDown_le (h : quantizeDecimalDown l r = .ok s) :
    decimalValue s ≤ decimalValue l ∧ ∃ n : ℕ, decimalValue s = n * decimalValue r := by
  obtain ⟨u, v, hu, hv, hpos, -, rfl⟩ := quantizeDecimalDown_ok_iff.mp h
  rw [decimalValue_text, hu.decimalValue, hv.decimalValue, unitValue_le_iff]
  refine ⟨by exact_mod_cast Nat.div_mul_le_self u v, u / v, ?_⟩
  rw [unitValue_natCast, unitValue_natCast, Nat.cast_mul, mul_div_assoc]

theorem quantizeDecimalDown_value (h : quantizeDecimalDown l r = .ok s) :
    0 < decimalValue r ∧ decimalValue s = floorTo (decimalValue r) (decimalValue l) := by
  obtain ⟨u, v, hu, hv, hpos, -, rfl⟩ := quantizeDecimalDown_ok_iff.mp h
  have hvpos := unitValue_pos hpos
  have hmultiple : decimalValue (text (u / v * v)) = ((u / v : ℕ) : ℤ) * unitValue v := by
    rw [decimalValue_text, unitValue_natCast, unitValue_natCast, Nat.cast_mul, mul_div_assoc,
      Int.cast_natCast]
  rw [hv.decimalValue, hu.decimalValue]
  refine ⟨hvpos, ?_⟩
  rw [hmultiple, eq_comm, floorTo_eq_iff hvpos, ← hmultiple, decimalValue_text, ← unitValue_add,
    unitValue_le_iff, unitValue_lt_iff]
  constructor
  · exact_mod_cast Nat.div_mul_le_self u v
  · exact_mod_cast Nat.lt_div_mul_add hpos

theorem sumDecimals_value (h : sumDecimals values = .ok s) :
    decimalValue s = (values.map decimalValue).sum := by
  obtain ⟨us, hus, rfl⟩ := sumDecimals_ok h
  clear h
  rw [decimalValue_text]
  induction hus with
  | nil => exact unitValue_zero
  | cons hu _ ih => rw [List.sum_cons, List.map_cons, List.sum_cons, Nat.cast_add, unitValue_add,
      ih, hu.decimalValue]

theorem minDecimal_mem {first : String} (h : minDecimal first values = .ok s) :
    s ∈ first :: values := by
  induction values generalizing first with
  | nil =>
    cases h
    exact List.mem_singleton_self _
  | cons value values ih =>
    simp only [minDecimal, List.foldlM_cons, bind_eq_ok, pure_eq_ok_iff] at h
    obtain ⟨_, ⟨o, -, rfl⟩, h⟩ := h
    have hmem := ih h
    simp only [List.mem_cons] at hmem ⊢
    split_ifs at hmem <;> tauto

theorem minDecimal_le {first : String} (h : minDecimal first values = .ok s) :
    ∀ x ∈ first :: values, decimalValue s ≤ decimalValue x := by
  induction values generalizing first with
  | nil =>
    cases h
    intro x hx
    rw [List.mem_singleton.mp hx]
  | cons value values ih =>
    simp only [minDecimal, List.foldlM_cons, bind_eq_ok, pure_eq_ok_iff] at h
    obtain ⟨_, ⟨o, ho, rfl⟩, h⟩ := h
    have hrest := ih h
    obtain ⟨hlt, -⟩ := compareDecimal_value ho
    simp only [List.mem_cons, forall_eq_or_imp] at hrest ⊢
    split_ifs at hrest with hneg
    · exact ⟨hrest.1.trans (hlt.mp hneg).le, hrest⟩
    · exact ⟨hrest.1, hrest.1.trans (not_lt.mp (fun hv => hneg (hlt.mpr hv))), hrest.2⟩

theorem minDecimal_pair (h : minDecimal l [r] = .ok s) :
    decimalValue s = min (decimalValue l) (decimalValue r) := by
  have hle := minDecimal_le h
  apply le_antisymm
  · exact le_min (hle l (by simp)) (hle r (by simp))
  · have hmem := minDecimal_mem h
    simp only [List.mem_cons, List.not_mem_nil, or_false] at hmem
    rcases hmem with rfl | rfl
    · exact min_le_left _ _
    · exact min_le_right _ _

/-- Accepted, with an integer part of at most 15 digits. -/
def Short (s : String) (u : ℕ) : Prop := Denotes s u ∧ (integerPart s).length ≤ 15

theorem Short.lt (h : Short s u) : u < 10 ^ 33 := by
  obtain ⟨⟨p, hp, rfl⟩, hlen⟩ := h
  obtain ⟨hs, hk, -⟩ := numeral_of_parse hp
  rw [integerPart, hs, takeWhile_numeral, Nat.length_toDigits_le_iff (by omega) (by omega)] at hlen
  have hlt := (Nat.div_lt_iff_lt_mul (by positivity)).mp hlen
  calc
    p.units < 10 ^ 15 * 10 ^ p.scale * 10 ^ (18 - p.scale) :=
      Nat.mul_lt_mul_of_pos_right hlt (by positivity)
    _ = 10 ^ 15 * 10 ^ (p.scale + (18 - p.scale)) := by rw [pow_add, mul_assoc]
    _ = 10 ^ 33 := by rw [Nat.add_sub_cancel' hk]; norm_num

end TsxCore.TradingDecimal
