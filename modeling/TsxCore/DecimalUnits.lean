import TsxCore.TradingDecimal

/-!
# Decimal texts as whole numbers of quanta

Every accepted decimal is a whole number of quanta `10 ^ -18`. `Denotes s u`
states that `s` is accepted and worth `u` quanta, and `text u` is the canonical
text of `u` quanta. In these terms each operation of the decimal module is plain
integer arithmetic, so callers never look inside a text again.
-/

namespace TsxCore.TradingDecimal

open Outcome Numeral

variable {k u v : ℕ} {s : String}

/-- One more than the largest number of quanta a decimal text can hold. -/
def unitLimit : ℕ := 10 ^ 54

def ParsedDecimal.units (p : ParsedDecimal) : ℕ := p.coefficient * 10 ^ (18 - p.scale)

def Denotes (s : String) (u : ℕ) : Prop := ∃ p, parse s = .ok p ∧ p.units = u

/-- Accepted by `decimal`, which trims before it parses. -/
def Reads (s : String) (u : ℕ) : Prop := Denotes (trim s) u

def text (u : ℕ) : String := format u 18

theorem format_eq_canonical (c k : ℕ) : format c k = .ofList (canonical c k) := by
  unfold format canonical numeral
  rw [leftpad_toDigits]
  rcases Nat.eq_zero_or_pos k with rfl | hk
  · simp [reduced, fixedDigits]
  · have hlen : (Nat.toDigits 10 (c / 10 ^ k) ++ fixedDigits k c).length - k =
        (Nat.toDigits 10 (c / 10 ^ k)).length := by simp
    simp only [if_neg hk.ne', hlen, List.take_left, List.drop_left, rdropWhile_fixedDigits]
    have hdiv := reduced_div k c
    by_cases hz : (reduced c k).2 = 0
    · rw [hz] at hdiv ⊢
      rw [pow_zero, Nat.div_one] at hdiv
      simp [fixedDigits, hdiv]
    · have hne : fixedDigits (reduced c k).2 (reduced c k).1 ≠ [] := by
        intro he
        have := congrArg List.length he
        simp [hz] at this
      rw [if_neg hne, if_neg hz, hdiv]

theorem parse_numeral {c : ℕ} (hk : k ≤ 18) (hlt : c / 10 ^ k < 10 ^ 36) (s : String)
    (hs : s.toList = numeral c k) : parse s = .ok ⟨c, k⟩ := by
  have hpat : decimalPattern (numeral c k) = true := by
    rw [decimalPattern, takeWhile_numeral, dropWhile_numeral, isNatural_toDigits (by omega) hlt]
    split_ifs with hz
    · rfl
    · rw [Bool.true_and, isFraction_iff, length_fixedDigits]
      exact ⟨by omega, hk, fun _ h => isDigit_of_mem_fixedDigits h⟩
  rw [parse, hs, throwIf_of_not (by simp [hpat]), ok_bind, integerPart, fractionPart, hs,
    takeWhile_numeral, drop_point_numeral, ofDigitChars_split, length_fixedDigits]
  rfl

theorem numeral_of_parse {p : ParsedDecimal} (h : parse s = .ok p) :
    s.toList = numeral p.coefficient p.scale ∧ p.scale ≤ 18 ∧
      p.coefficient / 10 ^ p.scale < 10 ^ 36 := by
  simp only [parse, bind_eq_ok, throwIf_eq_ok, pure_eq_ok_iff, Bool.not_eq_false, integerPart,
    fractionPart] at h
  obtain ⟨-, hpat, rfl⟩ := h
  rw [decimalPattern, Bool.and_eq_true] at hpat
  obtain ⟨n, hn, hlt⟩ := (isNatural_iff (by omega) _).mp hpat.1
  cases hd : s.toList.dropWhile (· != '.') with
  | nil =>
    have hjoin := List.takeWhile_append_dropWhile (p := (· != '.')) (l := s.toList)
    rw [hd, hn, List.append_nil] at hjoin
    simp only [hn, List.drop_nil, List.append_nil, Nat.ofDigitChars_ten_toDigits, List.length_nil,
      pow_zero, Nat.div_one, numeral, if_pos]
    exact ⟨hjoin.symm, by omega, hlt⟩
  | cons point fraction =>
    have hpoint := head_of_dropWhile_point hd
    subst hpoint
    obtain ⟨hpos, hle, hdig⟩ := (isFraction_iff 18 fraction).mp (by simpa [hd] using hpat.2)
    simp only [hn, List.drop_succ_cons, List.drop_zero, Nat.ofDigitChars_append,
      Nat.ofDigitChars_ten_toDigits]
    refine ⟨eq_numeral_of_split hn hd hdig hpos, hle, ?_⟩
    rw [ofDigitChars_div fraction hdig]
    exact hlt

theorem units_lt {p : ParsedDecimal} (h : parse s = .ok p) : p.units < unitLimit := by
  obtain ⟨-, hk, hlt⟩ := numeral_of_parse h
  have hc : p.coefficient < 10 ^ 36 * 10 ^ p.scale := (Nat.div_lt_iff_lt_mul (by positivity)).mp hlt
  calc
    p.units < 10 ^ 36 * 10 ^ p.scale * 10 ^ (18 - p.scale) :=
      Nat.mul_lt_mul_of_pos_right hc (by positivity)
    _ = 10 ^ 36 * 10 ^ (p.scale + (18 - p.scale)) := by rw [pow_add, mul_assoc]
    _ = unitLimit := by rw [Nat.add_sub_cancel' hk, unitLimit, ← pow_add]

theorem ParsedDecimal.units_pos_iff (p : ParsedDecimal) : 0 < p.units ↔ ¬ p.coefficient = 0 := by
  rw [ParsedDecimal.units, Nat.pos_iff_ne_zero, ne_eq, Nat.mul_eq_zero]
  simp

theorem Denotes.lt (h : Denotes s u) : u < unitLimit := by
  obtain ⟨p, hp, rfl⟩ := h
  exact units_lt hp

theorem Denotes.unique (hu : Denotes s u) (hv : Denotes s v) : u = v := by
  obtain ⟨p, hp, rfl⟩ := hu
  obtain ⟨q, hq, rfl⟩ := hv
  rw [hp] at hq
  cases hq
  rfl

theorem numeral_any_isSpace (c k : ℕ) : (numeral c k).any isSpace = false := by
  rw [List.any_eq_false]
  intro d hd
  rw [Bool.not_eq_true]
  have hdigits : ∀ n, d ∈ Nat.toDigits 10 n → isSpace d = false := fun n hn =>
    isSpace_of_isDigit (Nat.isDigit_of_mem_toDigits (by omega) (by omega) hn)
  unfold numeral at hd
  split_ifs at hd
  · exact hdigits _ hd
  · rcases List.mem_append.mp hd with hd | hd
    · exact hdigits _ hd
    · rcases List.mem_cons.mp hd with rfl | hd
      · rfl
      · exact isSpace_of_isDigit (isDigit_of_mem_fixedDigits hd)

theorem Denotes.hasSpace (h : Denotes s u) : hasSpace s = false := by
  obtain ⟨p, hp, -⟩ := h
  rw [TsxCore.hasSpace, (numeral_of_parse hp).1, numeral_any_isSpace]

theorem Denotes.reads (h : Denotes s u) : Reads s u := by
  rwa [Reads, trim_of_hasSpace_false h.hasSpace]

theorem text_eq_canonical (u : ℕ) : text u = .ofList (canonical u 18) := format_eq_canonical u 18

theorem format_eq_text (hk : k ≤ 18) (c : ℕ) : format c k = text (c * 10 ^ (18 - k)) := by
  have h := canonical_shift k c (18 - k)
  rw [Nat.add_sub_cancel' hk] at h
  rw [text_eq_canonical, format_eq_canonical, h]

theorem text_injective (h : text u = text v) : u = v := by
  rw [text_eq_canonical, text_eq_canonical, String.ofList_inj] at h
  exact canonical_injective h

@[simp] theorem text_inj : text u = text v ↔ u = v :=
  ⟨text_injective, fun h => h ▸ rfl⟩

@[simp] theorem text_eq_zero : text u = "0" ↔ u = 0 := by
  have h : text 0 = "0" := by rw [text_eq_canonical, canonical_zero]
  rw [← h, text_inj]

theorem denotes_numeral_iff {c : ℕ} (hk : k ≤ 18) :
    Denotes (.ofList (numeral c k)) u ↔ c * 10 ^ (18 - k) = u ∧ u < unitLimit := by
  constructor
  · rintro ⟨p, hp, rfl⟩
    have hs := (numeral_of_parse hp).1
    rw [String.toList_ofList] at hs
    obtain ⟨hc, hk⟩ := numeral_injective hs
    exact ⟨by rw [hc, hk, ParsedDecimal.units], units_lt hp⟩
  · rintro ⟨rfl, hu⟩
    refine ⟨⟨c, k⟩, parse_numeral hk ?_ _ String.toList_ofList, rfl⟩
    have hlimit : unitLimit = 10 ^ 36 * 10 ^ k * 10 ^ (18 - k) := by
      rw [mul_assoc, ← pow_add, Nat.add_sub_cancel' hk, unitLimit, ← pow_add]
    rw [hlimit] at hu
    exact (Nat.div_lt_iff_lt_mul (by positivity)).mpr (Nat.lt_of_mul_lt_mul_right hu)

theorem denotes_text_iff : Denotes (text u) v ↔ u = v ∧ u < unitLimit := by
  rw [text_eq_canonical, canonical, denotes_numeral_iff (reduced_scale_le 18 u), reduced_mul]
  exact and_congr_right (fun h => by rw [h])

theorem denotes_text (hu : u < unitLimit) : Denotes (text u) u :=
  denotes_text_iff.mpr ⟨rfl, hu⟩

theorem denotes_zero : Denotes "0" 0 := by
  have h := denotes_text (u := 0) (by decide)
  rwa [text_eq_zero.mpr rfl] at h

theorem reads_numeral_iff {c : ℕ} (hk : k ≤ 18) :
    Reads (.ofList (numeral c k)) u ↔ c * 10 ^ (18 - k) = u ∧ u < unitLimit := by
  have hspace : hasSpace (.ofList (numeral c k)) = false := by
    rw [TsxCore.hasSpace, String.toList_ofList, numeral_any_isSpace]
  rw [Reads, trim_of_hasSpace_false hspace, denotes_numeral_iff hk]

theorem reads_text_iff : Reads (text u) v ↔ u = v ∧ u < unitLimit := by
  rw [text_eq_canonical, canonical, reads_numeral_iff (reduced_scale_le 18 u), reduced_mul]
  exact and_congr_right (fun h => by rw [h])

theorem trim_text (u : ℕ) : trim (text u) = text u := by
  apply trim_of_hasSpace_false
  rw [TsxCore.hasSpace, text_eq_canonical, String.toList_ofList, canonical, numeral_any_isSpace]

section Operations

variable {l r s : String}

@[simp] theorem powerOfTen_of_le {e : ℕ} (he : e ≤ 36) : powerOfTen e = .ok (10 ^ e) := by
  rw [powerOfTen, throwIf_of_not (by omega), ok_bind]
  rfl

/-- Alignment brings both coefficients to one scale without changing their quanta. -/
theorem align_parsed {p q : ParsedDecimal} (hl : parse l = .ok p) (hr : parse r = .ok q) :
    ∃ a, align p q = .ok a ∧ a.scale ≤ 18 ∧ a.left * 10 ^ (18 - a.scale) = p.units ∧
      a.right * 10 ^ (18 - a.scale) = q.units := by
  have hp := (numeral_of_parse hl).2.1
  have hq := (numeral_of_parse hr).2.1
  let m := max p.scale q.scale
  have hm : m ≤ 18 := max_le hp hq
  refine ⟨⟨p.coefficient * 10 ^ (m - p.scale), q.coefficient * 10 ^ (m - q.scale), m⟩, ?_,
    hm, ?_, ?_⟩
  · change (powerOfTen (m - p.scale) >>= fun x => powerOfTen (m - q.scale) >>= fun y => _) = _
    rw [powerOfTen_of_le (by omega), ok_bind, powerOfTen_of_le (by omega), ok_bind]
    rfl
  · have he : m - p.scale + (18 - m) = 18 - p.scale := by
      have : p.scale ≤ m := le_max_left _ _
      omega
    rw [mul_assoc, ← pow_add, he, ParsedDecimal.units]
  · have he : m - q.scale + (18 - m) = 18 - q.scale := by
      have : q.scale ≤ m := le_max_right _ _
      omega
    rw [mul_assoc, ← pow_add, he, ParsedDecimal.units]

/-- A binary operation that parses, aligns and continues depends on its quanta only. -/
theorem aligned_ok_iff {β : Type} (f : Aligned → Outcome β) (g : ℕ → ℕ → Outcome β)
    (hfg : ∀ a : Aligned, a.scale ≤ 18 →
      f a = g (a.left * 10 ^ (18 - a.scale)) (a.right * 10 ^ (18 - a.scale))) (b : β) :
    (do f (← align (← parse l) (← parse r))) = .ok b ↔
      ∃ u v, Denotes l u ∧ Denotes r v ∧ g u v = .ok b := by
  simp only [bind_eq_ok]
  constructor
  · rintro ⟨p, hp, q, hq, a, ha, hb⟩
    obtain ⟨a', ha', hk, hu, hv⟩ := align_parsed hp hq
    rw [ha] at ha'
    cases ha'
    rw [hfg a hk, hu, hv] at hb
    exact ⟨_, _, ⟨p, hp, rfl⟩, ⟨q, hq, rfl⟩, hb⟩
  · rintro ⟨_, _, ⟨p, hp, rfl⟩, ⟨q, hq, rfl⟩, hb⟩
    obtain ⟨a, ha, hk, hu, hv⟩ := align_parsed hp hq
    refine ⟨p, hp, q, hq, a, ha, ?_⟩
    rw [hfg a hk, hu, hv]
    exact hb

theorem sign_scale (a b : ℕ) {m : ℕ} (hm : 0 < m) : sign a b = sign (a * m) (b * m) := by
  simp only [sign, Nat.mul_lt_mul_right hm]

theorem compareDecimal_ok_iff {o : ℤ} :
    compareDecimal l r = .ok o ↔ ∃ u v, Denotes l u ∧ Denotes r v ∧ sign u v = o := by
  rw [compareDecimal, aligned_ok_iff _ (fun u v => .ok (sign u v))]
  · simp
  · intro a _
    rw [← sign_scale _ _ (by positivity)]
    rfl

theorem addDecimal_ok_iff :
    addDecimal l r = .ok s ↔ ∃ u v, Denotes l u ∧ Denotes r v ∧ text (u + v) = s := by
  rw [addDecimal, aligned_ok_iff _ (fun u v => .ok (text (u + v)))]
  · simp
  · intro a ha
    rw [← add_mul, ← format_eq_text ha]
    rfl

theorem subtractDecimal_ok_iff :
    subtractDecimal l r = .ok s ↔
      ∃ u v, Denotes l u ∧ Denotes r v ∧ v ≤ u ∧ text (u - v) = s := by
  rw [subtractDecimal, aligned_ok_iff _ (fun u v => do
    throwIf (u < v) (.error "Unsigned decimal subtraction would be negative.")
    return text (u - v))]
  · simp
  · intro a ha
    rw [← Nat.sub_mul, ← format_eq_text ha]
    simp only [Nat.mul_lt_mul_right (show 0 < 10 ^ (18 - a.scale) by positivity)]

theorem multiplyDecimal_ok_iff :
    multiplyDecimal l r = .ok s ↔
      ∃ u v, Denotes l u ∧ Denotes r v ∧ text (u * v / 10 ^ 18) = s := by
  have hcore : ∀ {p q : ParsedDecimal}, p.scale ≤ 18 → q.scale ≤ 18 →
      (if p.scale + q.scale ≤ 18 then
          (return format (p.coefficient * q.coefficient) (p.scale + q.scale) : Outcome String)
        else do return format (p.coefficient * q.coefficient /
          (← powerOfTen (p.scale + q.scale - 18))) 18) =
        .ok (text (p.units * q.units / 10 ^ 18)) := by
    intro p q hp hq
    have hunits : p.units * q.units = p.coefficient * q.coefficient *
        10 ^ (36 - (p.scale + q.scale)) := by
      have he : 36 - (p.scale + q.scale) = (18 - p.scale) + (18 - q.scale) := by omega
      rw [he, pow_add, ParsedDecimal.units, ParsedDecimal.units]
      ring
    rw [hunits]
    split_ifs with hk
    · have he : 36 - (p.scale + q.scale) = (18 - (p.scale + q.scale)) + 18 := by omega
      rw [he, pow_add, ← mul_assoc, Nat.mul_div_cancel _ (by positivity), ← format_eq_text hk]
      rfl
    · have he : (18 : ℕ) = (p.scale + q.scale - 18) + (36 - (p.scale + q.scale)) := by omega
      have hpow : 10 ^ 18 = 10 ^ (p.scale + q.scale - 18) * 10 ^ (36 - (p.scale + q.scale)) := by
        rw [← pow_add, ← he]
      rw [powerOfTen_of_le (by omega), ok_bind, hpow, Nat.mul_div_mul_right _ _ (by positivity)]
      rfl
  simp only [multiplyDecimal, bind_eq_ok]
  constructor
  · rintro ⟨p, hp, q, hq, h⟩
    rw [hcore (numeral_of_parse hp).2.1 (numeral_of_parse hq).2.1] at h
    exact ⟨_, _, ⟨p, hp, rfl⟩, ⟨q, hq, rfl⟩, Except.ok.inj h⟩
  · rintro ⟨_, _, ⟨p, hp, rfl⟩, ⟨q, hq, rfl⟩, rfl⟩
    exact ⟨p, hp, q, hq, hcore (numeral_of_parse hp).2.1 (numeral_of_parse hq).2.1⟩

theorem divideDecimal_ok_iff {k : ℕ} (hk : k ≤ 18) :
    divideDecimal l r k = .ok s ↔
      ∃ u v, Denotes l u ∧ Denotes r v ∧ 0 < v ∧ text (u * 10 ^ k / v * 10 ^ (18 - k)) = s := by
  have hcore : ∀ {p q : ParsedDecimal}, p.scale ≤ 18 → q.scale ≤ 18 →
      p.coefficient * 10 ^ (k + q.scale) / (q.coefficient * 10 ^ p.scale) =
        p.units * 10 ^ k / q.units := by
    intro p q hp hq
    have hnum : p.coefficient * 10 ^ (k + q.scale) * 10 ^ (18 - p.scale + (18 - q.scale)) =
        p.units * 10 ^ k * 10 ^ 18 := by
      have he : 10 ^ 18 = 10 ^ q.scale * 10 ^ (18 - q.scale) := by
        rw [← pow_add, Nat.add_sub_cancel' hq]
      rw [he, pow_add, pow_add, ParsedDecimal.units]
      ring
    have hden : q.coefficient * 10 ^ p.scale * 10 ^ (18 - p.scale + (18 - q.scale)) =
        q.units * 10 ^ 18 := by
      have he : 10 ^ 18 = 10 ^ p.scale * 10 ^ (18 - p.scale) := by
        rw [← pow_add, Nat.add_sub_cancel' hp]
      rw [he, pow_add, ParsedDecimal.units]
      ring
    rw [← Nat.mul_div_mul_right _ (q.coefficient * 10 ^ p.scale)
      (show 0 < 10 ^ (18 - p.scale + (18 - q.scale)) by positivity), hnum, hden,
      Nat.mul_div_mul_right _ _ (by positivity)]
  simp only [divideDecimal, bind_eq_ok, throwIf_eq_ok, pure_eq_ok_iff]
  constructor
  · rintro ⟨p, hp, q, hq, -, hz, -, -, x, hx, y, hy, rfl⟩
    rw [powerOfTen_of_le (by have := (numeral_of_parse hq).2.1; omega)] at hx
    rw [powerOfTen_of_le (by have := (numeral_of_parse hp).2.1; omega)] at hy
    cases hx
    cases hy
    refine ⟨_, _, ⟨p, hp, rfl⟩, ⟨q, hq, rfl⟩, q.units_pos_iff.mpr hz, ?_⟩
    rw [hcore (numeral_of_parse hp).2.1 (numeral_of_parse hq).2.1, format_eq_text hk]
  · rintro ⟨_, _, ⟨p, hp, rfl⟩, ⟨q, hq, rfl⟩, hpos, rfl⟩
    refine ⟨p, hp, q, hq, (), q.units_pos_iff.mp hpos, (), by omega, _,
      powerOfTen_of_le (by have := (numeral_of_parse hq).2.1; omega), _,
      powerOfTen_of_le (by have := (numeral_of_parse hp).2.1; omega), ?_⟩
    rw [hcore (numeral_of_parse hp).2.1 (numeral_of_parse hq).2.1, format_eq_text hk]

theorem decimal_ok_iff : decimal l = .ok s ↔ ∃ u, Reads l u ∧ text u = s := by
  simp only [decimal, bind_eq_ok, throwIf_eq_ok, pure_eq_ok_iff, Bool.false_eq_true, false_and,
    not_false_eq_true, true_and, exists_const]
  constructor
  · rintro ⟨p, hp, rfl⟩
    exact ⟨_, ⟨p, hp, rfl⟩, (format_eq_text (numeral_of_parse hp).2.1 _).symm⟩
  · rintro ⟨_, ⟨p, hp, rfl⟩, rfl⟩
    exact ⟨p, hp, format_eq_text (numeral_of_parse hp).2.1 _⟩

/-- What `parse` throws. -/
def invalidDecimal (value : String) : Thrown :=
  .error ("Invalid unsigned decimal '" ++ value ++ "'.")

theorem parse_error {e : Thrown} (h : parse l = .error e) :
    (∀ u, ¬ Denotes l u) ∧ e = invalidDecimal l := by
  have hnot : ∀ u, ¬ Denotes l u := by
    rintro u ⟨p, hp, -⟩
    rw [h] at hp
    cases hp
  refine ⟨hnot, ?_⟩
  rw [parse, bind_eq_error] at h
  rcases h with h | ⟨_, -, h⟩
  · exact (throwIf_eq_error.mp h).2.symm
  · cases h

theorem decimal_error {e : Thrown} (h : decimal l = .error e) :
    (∀ u, ¬ Reads l u) ∧ e = invalidDecimal (trim l) := by
  rw [decimal, bind_eq_error] at h
  rcases h with h | ⟨_, -, h⟩
  · exact parse_error h
  · simp only [Bool.false_eq_true, false_and, not_false_eq_true, throwIf_of_not, ok_bind] at h
    cases h

theorem decimal_positive_ok_iff :
    decimal l true = .ok s ↔ ∃ u, Reads l u ∧ 0 < u ∧ text u = s := by
  simp only [decimal, bind_eq_ok, throwIf_eq_ok, pure_eq_ok_iff, true_and,
    ← ParsedDecimal.units_pos_iff]
  constructor
  · rintro ⟨p, hp, -, hpos, rfl⟩
    exact ⟨_, ⟨p, hp, rfl⟩, hpos, (format_eq_text (numeral_of_parse hp).2.1 _).symm⟩
  · rintro ⟨_, ⟨p, hp, rfl⟩, hpos, rfl⟩
    exact ⟨p, hp, (), hpos, format_eq_text (numeral_of_parse hp).2.1 _⟩

/-- Rounding down to a multiple of the increment; the multiple must itself fit 36 digits. -/
theorem quantizeDecimalDown_ok_iff :
    quantizeDecimalDown l r = .ok s ↔
      ∃ u v, Denotes l u ∧ Denotes r v ∧ 0 < v ∧ u / v < 10 ^ 36 ∧ text (u / v * v) = s := by
  have hlimit : ∀ n : ℕ, n * 10 ^ 18 < unitLimit ↔ n < 10 ^ 36 := by
    intro n
    rw [unitLimit, show (54 : ℕ) = 36 + 18 by rfl, pow_add, Nat.mul_lt_mul_right (by positivity)]
  have hround : ∀ n v : ℕ, n * 10 ^ 18 * v / 10 ^ 18 = n * v := by
    intro n v
    rw [mul_right_comm, Nat.mul_div_cancel _ (by positivity)]
  simp only [quantizeDecimalDown, bind_eq_ok, decimal_ok_iff, decimal_positive_ok_iff,
    divideDecimal_ok_iff (show (0 : ℕ) ≤ 18 by omega), multiplyDecimal_ok_iff, pow_zero, mul_one,
    Nat.sub_zero]
  constructor
  · rintro ⟨-, -, -, -, q, ⟨u, v, hu, hv, hpos, rfl⟩, q', v', hq, hv', rfl⟩
    obtain ⟨rfl, hlt⟩ := denotes_text_iff.mp hq
    obtain rfl := hv.unique hv'
    exact ⟨u, v, hu, hv, hpos, (hlimit _).mp hlt, by rw [hround]⟩
  · rintro ⟨u, v, hu, hv, hpos, hlt, rfl⟩
    exact ⟨_, ⟨u, hu.reads, rfl⟩, _, ⟨v, hv.reads, hpos, rfl⟩, _, ⟨u, v, hu, hv, hpos, rfl⟩,
      _, v, denotes_text ((hlimit _).mpr hlt), hv, by rw [hround]⟩

theorem sign_neg_iff {u v : ℕ} : sign u v < 0 ↔ u < v := by
  unfold sign
  split_ifs <;> simp_all

theorem sign_pos_iff {u v : ℕ} : 0 < sign u v ↔ v < u := by
  unfold sign
  split_ifs <;> simp_all
  omega

theorem sign_eq_zero_iff {u v : ℕ} : sign u v = 0 ↔ u = v := by
  unfold sign
  split_ifs <;> simp_all <;> omega

end Operations

section Lists

variable {values : List String}

theorem sumDecimals_ok {s : String} (h : sumDecimals values = .ok s) :
    ∃ us, List.Forall₂ Denotes values us ∧ text us.sum = s := by
  have hfold : ∀ (values : List String) (u : ℕ), values.foldlM addDecimal (text u) = .ok s →
      ∃ us, List.Forall₂ Denotes values us ∧ text (u + us.sum) = s := by
    intro values
    induction values with
    | nil =>
      intro u hs
      simp only [List.foldlM_nil, pure_eq_ok_iff] at hs
      exact ⟨[], .nil, by simpa using hs⟩
    | cons value values ih =>
      intro u hs
      simp only [List.foldlM_cons, bind_eq_ok, addDecimal_ok_iff] at hs
      obtain ⟨_, ⟨u', v, hu, hv, rfl⟩, hs⟩ := hs
      obtain ⟨rfl, -⟩ := denotes_text_iff.mp hu
      obtain ⟨us, hus, hsum⟩ := ih _ hs
      exact ⟨v :: us, .cons hv hus, by rw [List.sum_cons, ← add_assoc, hsum]⟩
  have hzero : text 0 = "0" := text_eq_zero.mpr rfl
  rw [sumDecimals, ← hzero] at h
  simpa using hfold values 0 h

theorem sumDecimals_of_denotes {us : List ℕ} (h : List.Forall₂ Denotes values us)
    (hlt : us.sum < unitLimit) : sumDecimals values = .ok (text us.sum) := by
  have hfold : ∀ (values : List String) (us : List ℕ), List.Forall₂ Denotes values us →
      ∀ u, u + us.sum < unitLimit →
        values.foldlM addDecimal (text u) = .ok (text (u + us.sum)) := by
    intro values us h
    induction h with
    | nil => intro u _; rfl
    | @cons value v values us hv hus ih =>
      intro u hlt
      rw [List.sum_cons, ← add_assoc] at hlt ⊢
      rw [List.foldlM_cons, addDecimal_ok_iff.mpr ⟨u, v, denotes_text (by omega), hv, rfl⟩, ok_bind]
      exact ih (u + v) hlt
  have hzero : text 0 = "0" := text_eq_zero.mpr rfl
  rw [sumDecimals, ← hzero]
  simpa using hfold values us h 0 (by simpa using hlt)

theorem minDecimal_ok {first : String} {s : String} (h : minDecimal first values = .ok s)
    (hne : values ≠ []) :
    ∃ u us, Denotes s u ∧ List.Forall₂ Denotes (first :: values) us ∧ (∀ v ∈ us, u ≤ v) ∧
      u ∈ us := by
  have hfold : ∀ (values : List String) (first : String) (u : ℕ), Denotes first u →
      minDecimal first values = .ok s →
      ∃ w us, Denotes s w ∧ List.Forall₂ Denotes values us ∧ (∀ v ∈ u :: us, w ≤ v) ∧
        w ∈ u :: us := by
    intro values
    induction values with
    | nil =>
      intro first u hu hs
      simp only [minDecimal, List.foldlM_nil, pure_eq_ok_iff] at hs
      exact ⟨u, [], hs ▸ hu, .nil, by simp, by simp⟩
    | cons value values ih =>
      intro first u hu hs
      simp only [minDecimal, List.foldlM_cons, bind_eq_ok, pure_eq_ok_iff,
        compareDecimal_ok_iff] at hs
      obtain ⟨_, ⟨_, ⟨v, u', hv, hu', rfl⟩, rfl⟩, hs⟩ := hs
      obtain rfl := hu.unique hu'
      simp only [sign_neg_iff] at hs
      split_ifs at hs with hlt
      · obtain ⟨w, us, hw, hus, hle, hmem⟩ := ih value v hv hs
        refine ⟨w, v :: us, hw, .cons hv hus, ?_, by simp only [List.mem_cons] at hmem ⊢; tauto⟩
        simp only [List.mem_cons, forall_eq_or_imp] at hle ⊢
        exact ⟨by omega, hle⟩
      · obtain ⟨w, us, hw, hus, hle, hmem⟩ := ih first u hu hs
        refine ⟨w, v :: us, hw, .cons hv hus, ?_, by simp only [List.mem_cons] at hmem ⊢; tauto⟩
        simp only [List.mem_cons, forall_eq_or_imp] at hle ⊢
        exact ⟨hle.1, by omega, hle.2⟩
  cases values with
  | nil => exact absurd rfl hne
  | cons value values =>
    have hs := h
    simp only [minDecimal, List.foldlM_cons, bind_eq_ok, compareDecimal_ok_iff] at hs
    obtain ⟨_, ⟨_, ⟨_, u, _, hu, _⟩, _⟩, _⟩ := hs
    obtain ⟨w, us, hw, hus, hle, hmem⟩ := hfold _ first u hu h
    exact ⟨w, u :: us, hw, .cons hu hus, hle, hmem⟩

end Lists

attribute [irreducible] text

end TsxCore.TradingDecimal
