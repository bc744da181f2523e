import Mathlib.Data.List.DropRight
import Mathlib.Tactic

/-!
# Positional decimal numerals

`numeral c k` writes the number `c / 10 ^ k` with exactly `k` fractional digits,
and `canonical c k` drops the trailing fractional zeros first. A digit string
without leading zeros is determined by its value, so both directions between
texts and coefficients are exact. Nothing here bounds the number of digits.
-/

namespace TsxCore.Numeral

variable {n : ℕ}

/-- The `k` low-order decimal digits of `n`, padded with zeros on the left. -/
def fixedDigits : ℕ → ℕ → List Char
  | 0, _ => []
  | k + 1, n => fixedDigits k (n / 10) ++ [Nat.digitChar (n % 10)]

@[simp] theorem length_fixedDigits (k n : ℕ) : (fixedDigits k n).length = k := by
  induction k generalizing n with
  | zero => rfl
  | succ k ih => simp [fixedDigits, ih]

theorem isDigit_of_mem_fixedDigits {k : ℕ} {c : Char} (hc : c ∈ fixedDigits k n) :
    c.isDigit = true := by
  induction k generalizing n with
  | zero => simp [fixedDigits] at hc
  | succ k ih =>
    rcases List.mem_append.mp hc with hc | hc
    · exact ih hc
    · rw [List.mem_singleton.mp hc]
      simp [Nat.mod_lt]

theorem ofDigitChars_zeros (n init : ℕ) :
    Nat.ofDigitChars 10 (List.replicate n '0') init = init * 10 ^ n := by
  induction n generalizing init with
  | zero => simp
  | succ n ih =>
    rw [List.replicate_succ, Nat.ofDigitChars_cons, ih, pow_succ']
    simp only [show '0'.toNat - '0'.toNat = 0 by rfl]
    ring

theorem ofDigitChars_concat (cs : List Char) {d : ℕ} (hd : d < 10) (init : ℕ) :
    Nat.ofDigitChars 10 (cs ++ [d.digitChar]) init = 10 * Nat.ofDigitChars 10 cs init + d := by
  rw [Nat.ofDigitChars_append, Nat.ofDigitChars_cons_digitChar_of_lt_ten hd, Nat.ofDigitChars_nil]

theorem ofDigitChars_fixedDigits (k n init : ℕ) :
    Nat.ofDigitChars 10 (fixedDigits k n) init = 10 ^ k * init + n % 10 ^ k := by
  induction k generalizing n with
  | zero => simp [fixedDigits, Nat.mod_one]
  | succ k ih =>
    have hd : n % 10 < 10 := Nat.mod_lt _ (by omega)
    rw [fixedDigits, ofDigitChars_concat _ hd, ih, pow_succ', Nat.mod_mul]
    ring

/-- The coefficient read back from the integer digits followed by `k` fractional digits. -/
theorem ofDigitChars_split (c k : ℕ) :
    Nat.ofDigitChars 10 (Nat.toDigits 10 (c / 10 ^ k) ++ fixedDigits k c) 0 = c := by
  rw [Nat.ofDigitChars_append, Nat.ofDigitChars_ten_toDigits, ofDigitChars_fixedDigits]
  exact Nat.div_add_mod c (10 ^ k)

theorem digitChar_of_isDigit {c : Char} (hc : c.isDigit = true) :
    Nat.digitChar (c.toNat - 48) = c ∧ c.toNat - 48 < 10 := by
  have hb : 48 ≤ c.toNat ∧ c.toNat ≤ 57 := by
    simp only [Char.isDigit, Bool.and_eq_true, decide_eq_true_eq] at hc
    exact ⟨hc.1, hc.2⟩
  have hlt : c.toNat - 48 < 10 := by omega
  refine ⟨?_, hlt⟩
  apply Char.toNat_inj.mp
  rw [Nat.toNat_digitChar_of_lt_ten hlt]
  omega

/-- A run of digits is the fixed-width writing of its value, whatever digits precede it. -/
theorem fixedDigits_ofDigitChars (cs : List Char) (hcs : ∀ c ∈ cs, c.isDigit = true) (init : ℕ) :
    fixedDigits cs.length (Nat.ofDigitChars 10 cs init) = cs := by
  induction cs using List.reverseRecOn generalizing init with
  | nil => rfl
  | append_singleton cs c ih =>
    obtain ⟨hchar, hlt⟩ := digitChar_of_isDigit (hcs c (by simp))
    have hval := ofDigitChars_concat cs hlt init
    rw [hchar] at hval
    rw [hval, List.length_append, List.length_singleton, fixedDigits]
    have hdiv : (10 * Nat.ofDigitChars 10 cs init + (c.toNat - 48)) / 10 =
        Nat.ofDigitChars 10 cs init := by omega
    have hmod : (10 * Nat.ofDigitChars 10 cs init + (c.toNat - 48)) % 10 = c.toNat - 48 := by omega
    rw [hdiv, hmod, hchar, ih (fun d hd => hcs d (by simp [hd]))]

theorem toDigits_eq_cons_fixedDigits (cs : List Char) (c : Char) (hne : c ≠ '0')
    (hcs : ∀ d ∈ c :: cs, d.isDigit = true) :
    Nat.toDigits 10 (Nat.ofDigitChars 10 (c :: cs) 0) = c :: cs ∧
      0 < Nat.ofDigitChars 10 (c :: cs) 0 := by
  induction cs using List.reverseRecOn with
  | nil =>
    obtain ⟨hchar, hlt⟩ := digitChar_of_isDigit (hcs c (by simp))
    have hval : Nat.ofDigitChars 10 [c] 0 = c.toNat - 48 := by
      have := ofDigitChars_concat [] hlt 0
      simpa [hchar] using this
    rw [hval, Nat.toDigits_of_lt_base hlt, hchar]
    refine ⟨rfl, Nat.pos_of_ne_zero ?_⟩
    intro h0
    rw [h0] at hchar
    exact hne hchar.symm
  | append_singleton cs d ih =>
    obtain ⟨hchar, hlt⟩ := digitChar_of_isDigit (hcs d (by simp))
    obtain ⟨hdig, hpos⟩ := ih (fun e he => hcs e (by
      rcases List.mem_cons.mp he with rfl | he <;> simp [*]))
    have hval := ofDigitChars_concat (c :: cs) hlt 0
    rw [hchar, List.cons_append] at hval
    rw [hval]
    refine ⟨?_, by omega⟩
    rw [Nat.toDigits_of_base_le (by omega) (by omega)]
    have hdiv : (10 * Nat.ofDigitChars 10 (c :: cs) 0 + (d.toNat - 48)) / 10 =
        Nat.ofDigitChars 10 (c :: cs) 0 := by omega
    have hmod : (10 * Nat.ofDigitChars 10 (c :: cs) 0 + (d.toNat - 48)) % 10 = d.toNat - 48 := by
      omega
    rw [hdiv, hmod, hdig, hchar]
    rfl

theorem head_toDigits_ne_zero (hn : 0 < n) : (Nat.toDigits 10 n).head? ≠ some '0' := by
  induction n using Nat.strong_induction_on with
  | _ n ih =>
    rw [Nat.toDigits_eq_if (by omega)]
    split_ifs with h10
    · simpa using hn.ne'
    · rw [List.head?_append_of_ne_nil _ Nat.toDigits_ne_nil]
      exact ih (n / 10) (by omega) (by omega)

/-- Padding to one more digit than the scale splits the digits at the decimal point. -/
theorem leftpad_toDigits (k c : ℕ) :
    (Nat.toDigits 10 c).leftpad (k + 1) '0' =
      Nat.toDigits 10 (c / 10 ^ k) ++ fixedDigits k c := by
  induction k generalizing c with
  | zero =>
    have hlen : 1 - (Nat.toDigits 10 c).length = 0 := by
      have := Nat.length_toDigits_pos (b := 10) (n := c)
      omega
    simp [List.leftpad, hlen, fixedDigits]
  | succ k ih =>
    have hstep : (Nat.toDigits 10 c).leftpad (k + 2) '0' =
        (Nat.toDigits 10 (c / 10)).leftpad (k + 1) '0' ++ [Nat.digitChar (c % 10)] := by
      rw [Nat.toDigits_eq_if (by omega)]
      split_ifs with h10
      · rw [Nat.div_eq_of_lt h10, Nat.mod_eq_of_lt h10]
        simp [List.leftpad, ← List.replicate_succ']
      · simp [List.leftpad, List.append_assoc]
    rw [hstep, ih, Nat.div_div_eq_div_mul, ← pow_succ', fixedDigits, List.append_assoc]

/-- The coefficient and scale that remain once trailing fractional zeros are dropped. -/
def reduced : ℕ → ℕ → ℕ × ℕ
  | c, 0 => (c, 0)
  | c, k + 1 => if c % 10 = 0 then reduced (c / 10) k else (c, k + 1)

theorem rdropWhile_fixedDigits (k c : ℕ) :
    (fixedDigits k c).rdropWhile (· == '0') = fixedDigits (reduced c k).2 (reduced c k).1 := by
  induction k generalizing c with
  | zero => rfl
  | succ k ih =>
    rw [fixedDigits, reduced]
    split_ifs with h0
    · rw [List.rdropWhile_concat_pos _ _ _ (by simp [h0]), ih]
    · rw [List.rdropWhile_concat_neg _ _ _ (by simpa using h0), fixedDigits]

theorem reduced_scale_le (k c : ℕ) : (reduced c k).2 ≤ k := by
  induction k generalizing c with
  | zero => rfl
  | succ k ih =>
    rw [reduced]
    split_ifs
    · exact (ih _).trans (Nat.le_succ k)
    · exact le_rfl

theorem reduced_mul (k c : ℕ) : (reduced c k).1 * 10 ^ (k - (reduced c k).2) = c := by
  induction k generalizing c with
  | zero => simp [reduced]
  | succ k ih =>
    rw [reduced]
    split_ifs with h0
    · have hle := reduced_scale_le k (c / 10)
      rw [Nat.succ_sub hle, pow_succ, ← mul_assoc, ih]
      omega
    · simp

theorem reduced_div (k c : ℕ) : (reduced c k).1 / 10 ^ (reduced c k).2 = c / 10 ^ k := by
  induction k generalizing c with
  | zero => rfl
  | succ k ih =>
    rw [reduced]
    split_ifs
    · rw [ih, Nat.div_div_eq_div_mul, ← pow_succ']
    · rfl

theorem reduced_shift (k c j : ℕ) : reduced (c * 10 ^ j) (k + j) = reduced c k := by
  induction j with
  | zero => simp
  | succ j ih =>
    rw [← Nat.add_assoc, reduced, pow_succ, ← mul_assoc, if_pos (by omega),
      Nat.mul_div_cancel _ (by omega), ih]

theorem reduced_idem (k c : ℕ) : reduced (reduced c k).1 (reduced c k).2 = reduced c k := by
  have h := reduced_shift (reduced c k).2 (reduced c k).1 (k - (reduced c k).2)
  rw [reduced_mul, Nat.add_sub_cancel' (reduced_scale_le k c)] at h
  exact h.symm

/-- The number `c / 10 ^ k` written with exactly `k` fractional digits. -/
def numeral (c k : ℕ) : List Char :=
  if k = 0 then Nat.toDigits 10 c
  else Nat.toDigits 10 (c / 10 ^ k) ++ '.' :: fixedDigits k c

/-- The same number without trailing fractional zeros. -/
def canonical (c k : ℕ) : List Char := numeral (reduced c k).1 (reduced c k).2

theorem toDigits_all_ne_point (n : ℕ) : ∀ c ∈ Nat.toDigits 10 n, (c != '.') = true := by
  intro c hc
  have hd := Nat.isDigit_of_mem_toDigits (by omega) (by omega) hc
  rw [bne_iff_ne]
  rintro rfl
  simp at hd

theorem takeWhile_numeral (c k : ℕ) :
    (numeral c k).takeWhile (· != '.') = Nat.toDigits 10 (c / 10 ^ k) := by
  unfold numeral
  split_ifs with hk
  · subst k
    rw [pow_zero, Nat.div_one, List.takeWhile_eq_self_iff.mpr (toDigits_all_ne_point c)]
  · rw [List.takeWhile_append_of_pos (toDigits_all_ne_point _)]
    simp

theorem dropWhile_numeral (c k : ℕ) :
    (numeral c k).dropWhile (· != '.') = if k = 0 then [] else '.' :: fixedDigits k c := by
  unfold numeral
  split_ifs with hk
  · exact List.dropWhile_eq_nil_iff.mpr (toDigits_all_ne_point c)
  · rw [List.dropWhile_append_of_pos (toDigits_all_ne_point _)]
    simp

theorem drop_point_numeral (c k : ℕ) :
    ((numeral c k).dropWhile (· != '.')).drop 1 = fixedDigits k c := by
  rw [dropWhile_numeral]
  split_ifs with hk
  · simp [hk, fixedDigits]
  · rfl

theorem ofDigitChars_div (cs : List Char) (hcs : ∀ c ∈ cs, c.isDigit = true) (n : ℕ) :
    Nat.ofDigitChars 10 cs n / 10 ^ cs.length = n := by
  have h0 := ofDigitChars_fixedDigits cs.length (Nat.ofDigitChars 10 cs 0) 0
  rw [fixedDigits_ofDigitChars cs hcs, Nat.mul_zero, Nat.zero_add] at h0
  have hlt : Nat.ofDigitChars 10 cs 0 < 10 ^ cs.length := by
    rw [h0]
    exact Nat.mod_lt _ (by positivity)
  rw [Nat.ofDigitChars_eq_ofDigitChars_zero, Nat.mul_add_div (by positivity),
    Nat.div_eq_of_lt hlt, Nat.add_zero]

theorem head_of_dropWhile_point {cs rest : List Char} {c : Char}
    (h : cs.dropWhile (· != '.') = c :: rest) : c = '.' := by
  have hne : cs.dropWhile (· != '.') ≠ [] := by simp [h]
  have hnot := List.head_dropWhile_not (· != '.') hne
  simpa [h] using hnot

theorem eq_numeral_of_split {cs fraction : List Char}
    (hint : cs.takeWhile (· != '.') = Nat.toDigits 10 n)
    (hfrac : cs.dropWhile (· != '.') = '.' :: fraction) (hdig : ∀ c ∈ fraction, c.isDigit = true)
    (hne : 0 < fraction.length) :
    cs = numeral (Nat.ofDigitChars 10 fraction n) fraction.length := by
  have hjoin := List.takeWhile_append_dropWhile (p := (· != '.')) (l := cs)
  rw [hint, hfrac] at hjoin
  rw [numeral, if_neg (by omega), ofDigitChars_div fraction hdig,
    fixedDigits_ofDigitChars fraction hdig, hjoin]

theorem numeral_injective {c k c' k' : ℕ} (h : numeral c k = numeral c' k') :
    c = c' ∧ k = k' := by
  have ht := congrArg (List.takeWhile (· != '.')) h
  have hd := congrArg (List.dropWhile (· != '.')) h
  simp only [takeWhile_numeral, dropWhile_numeral] at ht hd
  have htail : fixedDigits k c = fixedDigits k' c' := by
    by_cases hk : k = 0 <;> by_cases hk' : k' = 0 <;> simp_all [fixedDigits]
  have hscale : k = k' := by simpa using congrArg List.length htail
  subst hscale
  refine ⟨?_, rfl⟩
  rw [← ofDigitChars_split c k, ht, htail, ofDigitChars_split]

theorem canonical_injective {k c c' : ℕ} (h : canonical c k = canonical c' k) : c = c' := by
  obtain ⟨hc, hk⟩ := numeral_injective h
  rw [← reduced_mul k c, ← reduced_mul k c', hc, hk]

theorem canonical_shift (k c j : ℕ) : canonical (c * 10 ^ j) (k + j) = canonical c k := by
  rw [canonical, reduced_shift, canonical]

theorem canonical_zero (k : ℕ) : canonical 0 k = ['0'] := by
  have h := canonical_shift 0 0 k
  rw [Nat.zero_mul, Nat.zero_add] at h
  rw [h]
  rfl

/-- The pattern `0|[1-9]\d{0,limit-1}`. -/
def isNatural (limit : ℕ) (cs : List Char) : Bool :=
  cs == ['0'] || (cs.head?.any (· != '0') && cs.all Char.isDigit && decide (cs.length ≤ limit))

/-- The pattern `\d{1,limit}`. -/
def isFraction (limit : ℕ) (cs : List Char) : Bool :=
  decide (0 < cs.length) && cs.all Char.isDigit && decide (cs.length ≤ limit)

theorem isNatural_toDigits {limit : ℕ} (hl : 0 < limit) (hn : n < 10 ^ limit) :
    isNatural limit (Nat.toDigits 10 n) = true := by
  rcases Nat.eq_zero_or_pos n with rfl | hpos
  · simp [isNatural]
  · have hhead := head_toDigits_ne_zero hpos
    have hlen := (Nat.length_toDigits_le_iff (n := n) (by omega) hl).mpr hn
    have hall : (Nat.toDigits 10 n).all Char.isDigit = true :=
      List.all_eq_true.mpr (fun c hc => Nat.isDigit_of_mem_toDigits (by omega) (by omega) hc)
    cases hd : Nat.toDigits 10 n with
    | nil => exact absurd hd Nat.toDigits_ne_nil
    | cons c cs =>
      rw [hd] at hhead hlen hall
      have hc : c ≠ '0' := by simpa using hhead
      simpa [isNatural, hc, hall] using hlen

theorem isNatural_iff {limit : ℕ} (hl : 0 < limit) (cs : List Char) :
    isNatural limit cs = true ↔ ∃ n, cs = Nat.toDigits 10 n ∧ n < 10 ^ limit := by
  constructor
  · intro h
    simp only [isNatural, Bool.or_eq_true, Bool.and_eq_true, beq_iff_eq, decide_eq_true_eq,
      List.all_eq_true] at h
    rcases h with rfl | ⟨⟨hhead, hall⟩, hlen⟩
    · exact ⟨0, by simp, by positivity⟩
    · cases cs with
      | nil => simp at hhead
      | cons c cs =>
        have hc : c ≠ '0' := by simpa using hhead
        have hdig := (toDigits_eq_cons_fixedDigits cs c hc hall).1
        refine ⟨_, hdig.symm, ?_⟩
        apply (Nat.length_toDigits_le_iff (by omega) hl).mp
        rw [hdig]
        exact hlen
  · rintro ⟨n, rfl, hn⟩
    exact isNatural_toDigits hl hn

theorem isFraction_iff (limit : ℕ) (cs : List Char) :
    isFraction limit cs = true ↔
      0 < cs.length ∧ cs.length ≤ limit ∧ ∀ c ∈ cs, c.isDigit = true := by
  simp only [isFraction, Bool.and_eq_true, decide_eq_true_eq, List.all_eq_true]
  tauto

end TsxCore.Numeral
