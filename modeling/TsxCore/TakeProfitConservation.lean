import TsxCore.DecimalBounds
import TsxCore.TakeProfitBudgets

/-!
# Conservation in a resize of the take-profit targets

Whatever a resize returns accounts for the whole net quantity. The rounding of the
shares never makes one of its unsigned subtractions negative, so on decimals of at
most 15 integer digits it can only fail because every target is exhausted.
-/

namespace TsxCore.TradingTakeProfit

open Outcome TradingDecimal Apportionment

section Shares

variable {A W σ w r : ℕ} {ws ps fs : List ℕ}

theorem roomUnits_le (hA : A ≤ W) : roomUnits A W σ w r ≤ w - r := by
  rw [roomUnits, if_pos hA]
  exact Nat.div_mul_le_self _ _

theorem budgets_le (hA : A ≤ ws.sum) : List.Forall₂ (· ≤ ·) (budgets A σ ws) ws := by
  have hshare : ∀ w ∈ ws, shareUnits A ws.sum σ w ≤ w := by
    intro w hw
    rcases Nat.eq_zero_or_pos ws.sum with hzero | hpos
    · simp [hzero]
    · exact shareUnits_le_budget hpos hA
  have hplaces : ∀ vs extras : List ℕ, (∀ v ∈ vs, v ∈ ws) →
      List.Forall₂ (· ≤ ·) extras
        (List.zipWith (roomUnits A ws.sum σ) vs (vs.map (shareUnits A ws.sum σ))) →
      List.Forall₂ (· ≤ ·) (List.zipWith (· + ·) (vs.map (shareUnits A ws.sum σ)) extras) vs := by
    intro vs
    induction vs with
    | nil =>
      intro extras _ h
      cases h
      exact .nil
    | cons v vs ih =>
      intro extras hvs h
      cases h with
      | cons hextra hrest =>
        have hroom : roomUnits A ws.sum σ v (shareUnits A ws.sum σ v) ≤
          v - shareUnits A ws.sum σ v :=
          roomUnits_le hA
        have hv := hshare v (hvs v List.mem_cons_self)
        apply List.Forall₂.cons
        · dsimp only
          omega
        · exact ih _ (fun u hu => hvs u (List.mem_cons_of_mem _ hu)) hrest
  exact hplaces ws _ (fun _ h => h) handOut_le

theorem unconsumed_of_filled {i p f : ℕ} (hp : ps[i]? = some p) (hf : fs[i]? = some f)
    (hle : p ≤ f) :
    (unconsumed ps fs)[i]? = some 0 := by
  rw [unconsumed, List.getElem?_zipWith, hp, hf]
  exact congrArg some (Nat.sub_eq_zero_of_le hle)

theorem sum_unconsumed_le {b : ℕ} (hps : ∀ p ∈ ps, p ≤ b) :
    (unconsumed ps fs).sum ≤ ps.length * b := by
  induction ps generalizing fs with
  | nil => simp [unconsumed]
  | cons p ps ih =>
    cases fs with
    | nil => simp [unconsumed]
    | cons f fs =>
      have hp := hps p List.mem_cons_self
      have hrest := @ih fs (fun q hq => hps q (List.mem_cons_of_mem _ hq))
      simp only [unconsumed, List.zipWith_cons_cons, List.sum_cons, List.length_cons, Nat.add_mul]
        at hrest ⊢
      omega

theorem mem_unconsumed (hw : w ∈ unconsumed ps fs) : ∃ p ∈ ps, w ≤ p := by
  rw [unconsumed, ← List.map_uncurry_zip_eq_zipWith] at hw
  obtain ⟨⟨p, f⟩, hmem, rfl⟩ := List.mem_map.mp hw
  exact ⟨p, (List.of_mem_zip hmem).1, Nat.sub_le p f⟩

end Shares

/-- The net quantity `n`, shared out as `rs` over the budgets `ps` with fills `fs`. -/
structure Allocates (a : Allocation) (ps fs : List ℕ) (n σ : ℕ) (rs : List ℕ)
    (rest : ℕ) : Prop where
  remaining : a.remaining = rs.map text
  totals : a.totals = (List.zipWith (· + ·) rs fs).map text
  unallocated : a.unallocatedQuantity = text rest
  length_eq : rs.length = ps.length
  conserved : rs.sum + rest = n
  steps : ∀ r ∈ rs, σ ∣ r
  consumed : ∀ i p f : ℕ, ps[i]? = some p → fs[i]? = some f → p ≤ f → rs[i]? = some 0
  /-- No old cap is exceeded on shrink. -/
  capped : availableUnits n σ ≤ (unconsumed ps fs).sum → List.Forall₂ (· ≤ ·) rs (unconsumed ps fs)
  complete : (∀ w ∈ unconsumed ps fs, σ ∣ w) ∨ (unconsumed ps fs).sum < availableUnits n σ →
    rest < σ

section Resize

variable {previous filled : List String} {net step : String} {a : Allocation}

theorem allocates_of_resize (h : resizeTargetTotals previous filled net step = .ok a) :
    ∃ ps fs n σ rs rest, Quantities previous filled net step ps fs n σ ∧
      Allocates a ps fs n σ rs rest := by
  obtain ⟨ps, fs, n, σ, hq, -, -, hexh, -, hrem, htotals, hle, hunallocated⟩ :=
    resizeTargetTotals_ok h
  refine ⟨ps, fs, n, σ, _, _, hq, hrem, htotals, hunallocated, ?_, ?_, ?_, ?_, ?_, ?_⟩
  · rw [length_budgets, unconsumed, List.length_zipWith, ← hq.length_eq, min_self]
  · omega
  · exact dvd_budgets (Nat.dvd_mul_left _ _)
  · intro i p f hp hf hfilled
    exact budgets_of_consumed (unconsumed_of_filled hp hf hfilled)
  · exact fun hA => budgets_le hA
  · intro hcomp
    have hsum : (budgets (availableUnits n σ) σ (unconsumed ps fs)).sum = availableUnits n σ := by
      apply sum_budgets hexh
      intro hA
      rcases hcomp with hsteps | hgrowth
      · exact hsteps
      · omega
    rw [hsum, availableUnits, Nat.mul_comm, ← Nat.mod_eq_sub_mul_div]
    exact Nat.mod_lt n hq.step_pos

theorem resizeTargetTotals_exhausted {ps fs : List ℕ} {n σ : ℕ}
    (hq : Quantities previous filled net step ps fs n σ) (hne : previous ≠ [])
    (hcount : n / σ < 10 ^ 36) (hzero : (unconsumed ps fs).sum = 0)
    (hnet : availableUnits n σ ≠ 0) :
    resizeTargetTotals previous filled net step =
      .error (.error "TP_TARGETS_EXHAUSTED_WITH_EXPOSURE") := by
  have hlimit : (unconsumed ps fs).sum < unitLimit := by
    rw [hzero, unitLimit]
    positivity
  rw [resizeTargetTotals_shares hq hne hcount hlimit, throwIf, if_pos ⟨hzero, hnet⟩, error_bind]

/-- On decimals of at most 15 integer digits a resize returns unless the targets are exhausted. -/
theorem resizeTargetTotals_of_short {ps fs : List ℕ} {n σ : ℕ}
    (hprev : List.Forall₂ Short previous ps)
    (hfilled : List.Forall₂ Short filled fs) (hnet : Short net n) (hstep : Short step σ)
    (hpos : 0 < σ)
    (hne : previous ≠ []) (hlen : previous.length = filled.length)
    (harray : previous.length < 2 ^ 32) :
    (∃ a, resizeTargetTotals previous filled net step = .ok a) ∨
      resizeTargetTotals previous filled net step =
        .error (.error "TP_TARGETS_EXHAUSTED_WITH_EXPOSURE") := by
  have hq : Quantities previous filled net step ps fs n σ := by
    refine ⟨hprev.imp fun _ _ h => h.1.reads, hfilled.imp fun _ _ h => h.1, ?_, hnet.1,
      hstep.1.reads, hpos⟩
    rw [← hprev.length_eq, ← hfilled.length_eq, hlen]
  have hps : ∀ p ∈ ps, p < 10 ^ 33 := by
    intro p hp
    obtain ⟨i, hi, rfl⟩ := List.getElem_of_mem hp
    exact ((List.forall₂_iff_get.mp hprev).2 i (hprev.length_eq ▸ hi) hi).lt
  have hcount : n / σ < 10 ^ 36 := by
    have hn := hnet.lt
    have hdiv := Nat.div_le_self n σ
    omega
  by_cases hexh : (unconsumed ps fs).sum = 0 → availableUnits n σ = 0
  · left
    refine ⟨_, resizeTargetTotals_of_denotes hq hne hexh hcount ?_ ?_ (fun _ => hstep.1) ?_⟩
    · have hsum : (unconsumed ps fs).sum ≤ _ := sum_unconsumed_le (fun p hp => (hps p hp).le)
      rw [← hprev.length_eq] at hsum
      calc
        (unconsumed ps fs).sum ≤ previous.length * 10 ^ 33 := hsum
        _ ≤ 2 ^ 32 * 10 ^ 33 := Nat.mul_le_mul_right _ harray.le
        _ < unitLimit := by rw [unitLimit]; norm_num
    · intro w hw
      obtain ⟨p, hp, hle⟩ := mem_unconsumed hw
      have hlt := hps p hp
      have hdiv := Nat.div_le_self w σ
      omega
    · intro w hw
      obtain ⟨p, hp, hle⟩ := mem_unconsumed hw
      have hA : availableUnits n σ ≤ 10 ^ 33 := (Nat.div_mul_le_self n σ).trans hnet.lt.le
      have hprod : availableUnits n σ * w ≤ 10 ^ 33 * 10 ^ 33 :=
        Nat.mul_le_mul hA (hle.trans (hps p hp).le)
      calc
        availableUnits n σ * w / 10 ^ 18 ≤ 10 ^ 33 * 10 ^ 33 / 10 ^ 18 := Nat.div_le_div_right hprod
        _ < unitLimit := by rw [unitLimit]; norm_num
  · right
    push Not at hexh
    exact resizeTargetTotals_exhausted hq hne hcount hexh.1 hexh.2

/-- A resize accounts for the whole net quantity, and on valid decimals it only ever refuses
because every target is exhausted. An array has fewer than `2 ^ 32` elements. -/
theorem take_profit_resize_conserves (previous filled : List String) (net step : String) :
    (∀ a, resizeTargetTotals previous filled net step = .ok a →
      ∃ ps fs n σ rs rest, Quantities previous filled net step ps fs n σ ∧
        Allocates a ps fs n σ rs rest) ∧
    ∀ ps fs n σ, List.Forall₂ Short previous ps → List.Forall₂ Short filled fs → Short net n →
      Short step σ → 0 < σ → previous ≠ [] → previous.length = filled.length →
        previous.length < 2 ^ 32 → ∀ thrown, resizeTargetTotals previous filled net step =
          .error thrown →
          thrown = .error "TP_TARGETS_EXHAUSTED_WITH_EXPOSURE" := by
  constructor
  · intro a h
    exact allocates_of_resize h
  · intro ps fs n σ hprev hfilled hnet hstep hpos hne hlen harray thrown hthrown
    rcases resizeTargetTotals_of_short hprev hfilled hnet hstep hpos hne hlen harray with
      ⟨a, hok⟩ | hexh
    · rw [hok] at hthrown
      cases hthrown
    · rw [hexh] at hthrown
      exact (Except.error.inj hthrown).symm

end Resize

/-- Growth leaves less than a step, and the exhausted target stays empty. -/
theorem take_profit_resize_conserves_growth :
    ∃ rs rest, Allocates ⟨["6", "3"], ["5", "0"], "0.5"⟩ [2 * 10 ^ 18, 3 * 10 ^ 18]
      [10 ^ 18, 3 * 10 ^ 18] (55 * 10 ^ 17) (10 ^ 18) rs rest := by
  have hresize : resizeTargetTotals ["2", "3"] ["1", "3"] "5.5" "1" =
      .ok ⟨["6", "3"], ["5", "0"], "0.5"⟩ := by decide +kernel
  obtain ⟨ps, fs, n, σ, rs, rest, hq, h⟩ :=
    (take_profit_resize_conserves ["2", "3"] ["1", "3"] "5.5" "1").1 _ hresize
  have hunits : ∀ {s : String} {c k u : ℕ}, parse s = .ok ⟨c, k⟩ → c * 10 ^ (18 - k) = u →
    Denotes s u :=
    fun hs hu => ⟨_, hs, hu⟩
  have h1 : Denotes "1" (10 ^ 18) :=
    hunits (by decide +kernel : parse "1" = .ok ⟨1, 0⟩) (by norm_num)
  have h2 : Denotes "2" (2 * 10 ^ 18) :=
    hunits (by decide +kernel : parse "2" = .ok ⟨2, 0⟩) (by norm_num)
  have h3 : Denotes "3" (3 * 10 ^ 18) :=
    hunits (by decide +kernel : parse "3" = .ok ⟨3, 0⟩) (by norm_num)
  have hnet : Denotes "5.5" (55 * 10 ^ 17) :=
    hunits (by decide +kernel : parse "5.5" = .ok ⟨55, 1⟩) (by norm_num)
  obtain rfl := forall₂_reads_unique hq.previous (.cons h2.reads (.cons h3.reads .nil))
  obtain rfl := forall₂_reads_unique (hq.filled.imp fun _ _ h => h.reads)
    (.cons h1.reads (.cons h3.reads .nil))
  obtain rfl := Denotes.unique hq.net hnet
  obtain rfl := Denotes.unique hq.step h1.reads
  exact ⟨rs, rest, h⟩

end TsxCore.TradingTakeProfit
