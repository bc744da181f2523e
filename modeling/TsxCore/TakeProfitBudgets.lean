import TsxCore.TradingTakeProfit
import TsxCore.DecimalUnits
import TsxCore.Apportionment

/-!
# Take-profit budgets in quanta

Resizing shares the available quantity out over the unconsumed budgets and hands
the rounding remainder out from the last target on. When the unconsumed budgets
are whole steps, everything available is shared out; when they already sum to
the available quantity, the caps of the rounding loop give every target its
budget back. Fills of the targets therefore leave the totals as they are.
-/

namespace TsxCore.TradingTakeProfit

open Outcome TradingDecimal Apportionment

/-- The truncated proportional share of a budget `w` out of `W`, in whole steps. -/
def shareUnits (A W σ w : ℕ) : ℕ := A * w / 10 ^ 18 * 10 ^ 18 / W / σ * σ

/-- What the rounding loop may add to a target with budget `w` and share `r`. -/
def roomUnits (A W σ w r : ℕ) : ℕ := if A ≤ W then (w - r) / σ * σ else if w = 0 then 0 else A

def unconsumed (ps fs : List ℕ) : List ℕ := List.zipWith (· - ·) ps fs

def shares (A σ : ℕ) (ws : List ℕ) : List ℕ := ws.map (shareUnits A ws.sum σ)

def rooms (A σ : ℕ) (ws : List ℕ) : List ℕ :=
  List.zipWith (roomUnits A ws.sum σ) ws (shares A σ ws)

/-- The remaining budgets after a resize to `A` available quanta. -/
def budgets (A σ : ℕ) (ws : List ℕ) : List ℕ :=
  List.zipWith (· + ·) (shares A σ ws) (handOut (rooms A σ ws) (A - (shares A σ ws).sum)).1

section Shares

variable {A W σ w : ℕ}

theorem shareUnits_mul_le : shareUnits A W σ w * W ≤ A * w := by
  unfold shareUnits
  calc
    A * w / 10 ^ 18 * 10 ^ 18 / W / σ * σ * W ≤ A * w / 10 ^ 18 * 10 ^ 18 / W * W :=
      Nat.mul_le_mul_right _ (Nat.div_mul_le_self _ _)
    _ ≤ A * w / 10 ^ 18 * 10 ^ 18 := Nat.div_mul_le_self _ _
    _ ≤ A * w := Nat.div_mul_le_self _ _

theorem shareUnits_le_budget (hW : 0 < W) (hA : A ≤ W) : shareUnits A W σ w ≤ w := by
  apply Nat.le_of_mul_le_mul_right _ hW
  calc
    shareUnits A W σ w * W ≤ A * w := shareUnits_mul_le
    _ ≤ W * w := Nat.mul_le_mul_right _ hA
    _ = w * W := Nat.mul_comm _ _

theorem shareUnits_le_available (hW : 0 < W) (hw : w ≤ W) : shareUnits A W σ w ≤ A := by
  apply Nat.le_of_mul_le_mul_right _ hW
  calc
    shareUnits A W σ w * W ≤ A * w := shareUnits_mul_le
    _ ≤ A * W := Nat.mul_le_mul_left _ hw

theorem dvd_shareUnits : σ ∣ shareUnits A W σ w := Nat.dvd_mul_left _ _

@[simp] theorem shareUnits_zero_budget : shareUnits A W σ 0 = 0 := by
  simp [shareUnits]

@[simp] theorem shareUnits_zero_total : shareUnits A 0 σ w = 0 := by
  simp [shareUnits]

variable {ws : List ℕ}

theorem sum_shares_le : (shares A σ ws).sum ≤ A := by
  rcases Nat.eq_zero_or_pos ws.sum with hzero | hpos
  · have hall : shares A σ ws = ws.map (fun _ => 0) := by
      rw [shares, hzero]
      exact List.map_congr_left (fun w _ => shareUnits_zero_total)
    rw [hall]
    simp
  · apply Nat.le_of_mul_le_mul_right _ hpos
    have hmul : ∀ vs : List ℕ, (vs.map (shareUnits A ws.sum σ)).sum * ws.sum ≤ A * vs.sum := by
      intro vs
      induction vs with
      | nil => simp
      | cons v vs ih =>
        have hv := shareUnits_mul_le (A := A) (W := ws.sum) (σ := σ) (w := v)
        simp only [List.map_cons, List.sum_cons, Nat.add_mul, Nat.mul_add]
        omega
    exact hmul ws

@[simp] theorem length_shares : (shares A σ ws).length = ws.length := by simp [shares]

@[simp] theorem length_rooms : (rooms A σ ws).length = ws.length := by simp [rooms]

@[simp] theorem length_budgets : (budgets A σ ws).length = ws.length := by simp [budgets]

/-- On shrink the room of a whole-step budget is exactly what its share left open. -/
theorem shares_add_rooms (hA : A ≤ ws.sum) (hsteps : ∀ w ∈ ws, σ ∣ w) :
    List.zipWith (· + ·) (shares A σ ws) (rooms A σ ws) = ws := by
  have hplace : ∀ w ∈ ws, shareUnits A ws.sum σ w + roomUnits A ws.sum σ w
    (shareUnits A ws.sum σ w) =
      w := by
    intro w hw
    have hle : shareUnits A ws.sum σ w ≤ w := by
      rcases Nat.eq_zero_or_pos ws.sum with hzero | hpos
      · simp [hzero]
      · exact shareUnits_le_budget hpos hA
    have hdvd : σ ∣ w - shareUnits A ws.sum σ w := Nat.dvd_sub (hsteps w hw) dvd_shareUnits
    rw [roomUnits, if_pos hA, Nat.div_mul_cancel hdvd]
    omega
  rw [rooms, shares]
  have hmap : ∀ vs : List ℕ, (∀ v ∈ vs, v ∈ ws) →
      List.zipWith (· + ·) (vs.map (shareUnits A ws.sum σ))
        (List.zipWith (roomUnits A ws.sum σ) vs (vs.map (shareUnits A ws.sum σ))) = vs := by
    intro vs hvs
    induction vs with
    | nil => rfl
    | cons v vs ih =>
      simp only [List.map_cons, List.zipWith_cons_cons, hplace v (hvs v List.mem_cons_self)]
      rw [ih (fun w hw => hvs w (List.mem_cons_of_mem _ hw))]
  exact hmap ws (fun _ h => h)

theorem sum_rooms (hA : A ≤ ws.sum) (hsteps : ∀ w ∈ ws, σ ∣ w) :
    (shares A σ ws).sum + (rooms A σ ws).sum = ws.sum := by
  rw [List.sum_add_sum_eq_sum_zipWith_of_length_eq _ _ (by simp), shares_add_rooms hA hsteps]

/-- The remainder never exceeds the rooms, so all of it is handed out. -/
theorem remainder_le_rooms (hexh : ws.sum = 0 → A = 0)
    (hsteps : A ≤ ws.sum → ∀ w ∈ ws, σ ∣ w) : A - (shares A σ ws).sum ≤ (rooms A σ ws).sum := by
  by_cases hA : A ≤ ws.sum
  · have hsum := sum_rooms hA (hsteps hA)
    omega
  · have hpos : ws.sum ≠ 0 := fun hzero => hA (by rw [hexh hzero]; omega)
    have hexists : ∃ w ∈ ws, w ≠ 0 := by
      by_contra hnone
      push Not at hnone
      exact hpos (List.sum_eq_zero hnone)
    obtain ⟨w, hw, hne⟩ := hexists
    have hmem : A ∈ rooms A σ ws := by
      rw [rooms, shares, List.zipWith_map_right, List.zipWith_self]
      refine List.mem_map.mpr ⟨w, hw, ?_⟩
      rw [roomUnits, if_neg hA, if_neg hne]
    have hle := List.single_le_sum (by simp) _ hmem
    omega

theorem sum_budgets (hexh : ws.sum = 0 → A = 0) (hsteps : A ≤ ws.sum → ∀ w ∈ ws, σ ∣ w) :
    (budgets A σ ws).sum = A := by
  have hle := @sum_shares_le A σ ws
  rw [budgets, ← List.sum_add_sum_eq_sum_zipWith_of_length_eq _ _ (by simp),
    handOut_sum_of_le (remainder_le_rooms hexh hsteps)]
  omega

theorem sum_budgets_le : (budgets A σ ws).sum ≤ A := by
  have hle := @sum_shares_le A σ ws
  have hsum := @handOut_sum (rooms A σ ws) (A - (shares A σ ws).sum)
  rw [budgets, ← List.sum_add_sum_eq_sum_zipWith_of_length_eq _ _ (by simp)]
  omega

theorem budgets_balanced (hsteps : ∀ w ∈ ws, σ ∣ w) : budgets ws.sum σ ws = ws := by
  have hsum := sum_rooms (σ := σ) (le_refl ws.sum) hsteps
  rw [budgets, handOut_full (by omega), shares_add_rooms le_rfl hsteps]

theorem dvd_budgets (hA : σ ∣ A) : ∀ b ∈ budgets A σ ws, σ ∣ b := by
  have hrooms : ∀ room ∈ rooms A σ ws, σ ∣ room := by
    intro room hroom
    rw [rooms, shares, List.zipWith_map_right, List.zipWith_self] at hroom
    obtain ⟨w, -, rfl⟩ := List.mem_map.mp hroom
    unfold roomUnits
    split_ifs
    · exact Nat.dvd_mul_left _ _
    · exact Nat.dvd_zero σ
    · exact hA
  have hshares : ∀ r ∈ shares A σ ws, σ ∣ r := by
    intro r hr
    obtain ⟨w, -, rfl⟩ := List.mem_map.mp hr
    exact dvd_shareUnits
  have hextras := (handOut_dvd hrooms (Nat.dvd_sub hA (List.dvd_sum hshares))).1
  intro b hb
  rw [budgets, ← List.map_uncurry_zip_eq_zipWith] at hb
  obtain ⟨⟨r, e⟩, hmem, rfl⟩ := List.mem_map.mp hb
  exact Nat.dvd_add (hshares r (List.of_mem_zip hmem).1) (hextras e (List.of_mem_zip hmem).2)

/-- A consumed budget gets nothing back, whatever is available. -/
theorem budgets_of_consumed {i : ℕ} (hi : ws[i]? = some 0) : (budgets A σ ws)[i]? = some 0 := by
  have hroom : (rooms A σ ws)[i]? = some 0 := by
    simp only [rooms, shares, List.getElem?_zipWith, List.getElem?_map, hi, Option.map_some,
      roomUnits, shareUnits_zero_budget]
    split_ifs <;> simp
  have hextra : (handOut (rooms A σ ws) (A - (shares A σ ws).sum)).1[i]? = some 0 := by
    have hle := @handOut_le (rooms A σ ws) (A - (shares A σ ws).sum)
    obtain ⟨hlen, hget⟩ := List.forall₂_iff_get.mp hle
    obtain ⟨hlt, hval⟩ := List.getElem?_eq_some_iff.mp hroom
    have h := hget i (hlen ▸ hlt) hlt
    simp only [List.get_eq_getElem, hval, Nat.le_zero] at h
    exact List.getElem?_eq_some_iff.mpr ⟨hlen ▸ hlt, h⟩
  have hshare : (shares A σ ws)[i]? = some 0 := by
    simp only [shares, List.getElem?_map, hi, Option.map_some, shareUnits_zero_budget]
  simp only [budgets, List.getElem?_zipWith, hextra, hshare]

end Shares

section Texts

variable {A W R σ w r : ℕ} {step s : String} {us : List ℕ}

theorem assertTargetQuantities_ok_iff {values : List String} {x : Unit} :
    assertTargetQuantities values = .ok x ↔ ∃ us, List.Forall₂ Reads values us := by
  simp only [assertTargetQuantities, bind_eq_ok, pure_eq_ok_iff, mapM_eq_ok, decimal_ok_iff]
  refine ⟨?_, ?_⟩
  · intro h
    obtain ⟨texts, htexts, -⟩ := h
    induction htexts with
    | nil => exact ⟨[], .nil⟩
    | cons hread _ ih =>
      obtain ⟨u, hu, -⟩ := hread
      obtain ⟨us, hus⟩ := ih
      exact ⟨u :: us, .cons hu hus⟩
  · intro h
    obtain ⟨us, hus⟩ := h
    refine ⟨us.map text, ?_, trivial⟩
    induction hus with
    | nil => exact .nil
    | cons hu _ ih => exact .cons ⟨_, hu, rfl⟩ ih

theorem targetWeight_of_reads {value filled : String} {p f : ℕ} (hp : Reads value p)
    (hf : Reads filled f) : targetWeight value filled = .ok (text (p - f)) := by
  have htotal := denotes_text (Denotes.lt hp)
  have hexec := denotes_text (Denotes.lt hf)
  rw [targetWeight, decimal_ok_iff.mpr ⟨f, hf, rfl⟩, ok_bind, decimal_ok_iff.mpr ⟨p, hp, rfl⟩,
    ok_bind, compareDecimal_ok_iff.mpr ⟨p, f, htotal, hexec, rfl⟩, ok_bind]
  by_cases hlt : f < p
  · rw [if_pos (sign_pos_iff.mpr hlt)]
    exact subtractDecimal_ok_iff.mpr ⟨p, f, htotal, hexec, hlt.le, rfl⟩
  · rw [if_neg (fun h => hlt (sign_pos_iff.mp h)), Nat.sub_eq_zero_of_le (not_lt.mp hlt),
      text_eq_zero.mpr rfl]
    rfl

theorem weights_of_reads {previous filled : List String} {ps fs : List ℕ}
    (hp : List.Forall₂ Reads previous ps) (hf : List.Forall₂ Reads filled fs) :
    (previous.zip filled).mapM (fun target => targetWeight target.1 target.2) =
      .ok ((unconsumed ps fs).map text) := by
  rw [mapM_eq_ok]
  induction hp generalizing filled fs with
  | nil => exact .nil
  | cons hread _ ih =>
    cases hf with
    | nil => exact .nil
    | cons hfilled hrest => exact .cons (targetWeight_of_reads hread hfilled) (ih hrest)

theorem denotes_map_text {vs : List ℕ} (h : List.Forall₂ Denotes (us.map text) vs) :
    vs = us ∧ ∀ u ∈ us, u < unitLimit := by
  induction us generalizing vs with
  | nil =>
    cases h
    exact ⟨rfl, by simp⟩
  | cons u us ih =>
    cases h with
    | cons hu hrest =>
      obtain ⟨rfl, hlt⟩ := denotes_text_iff.mp hu
      obtain ⟨rfl, hall⟩ := ih hrest
      exact ⟨rfl, by simpa using ⟨hlt, hall⟩⟩

theorem sumDecimals_map_text_ok (h : sumDecimals (us.map text) = .ok s) :
    s = text us.sum ∧ ∀ u ∈ us, u < unitLimit := by
  obtain ⟨vs, hvs, rfl⟩ := sumDecimals_ok h
  obtain ⟨rfl, hlt⟩ := denotes_map_text hvs
  exact ⟨rfl, hlt⟩

theorem sumDecimals_map_text (hlt : us.sum < unitLimit) :
    sumDecimals (us.map text) = .ok (text us.sum) := by
  apply sumDecimals_of_denotes _ hlt
  induction us with
  | nil => exact .nil
  | cons u us ih =>
    rw [List.sum_cons] at hlt
    exact .cons (denotes_text (by omega)) (ih (by omega))

theorem proportionalShare_ok (hstep : Reads step σ)
    (h : proportionalShare (text A) (text w) (text W) step = .ok s) :
    s = text (shareUnits A W σ w) ∧
      (W ≠ 0 → W < unitLimit ∧ Denotes step σ ∧ A * w / 10 ^ 18 < unitLimit) := by
  unfold proportionalShare at h
  by_cases hW : W = 0
  · rw [if_pos (text_eq_zero.mpr hW), pure_eq_ok_iff] at h
    refine ⟨?_, fun hne => absurd hW hne⟩
    rw [← h, hW, shareUnits_zero_total, text_eq_zero.mpr rfl]
  · rw [if_neg (fun hz => hW (text_eq_zero.mp hz))] at h
    simp only [bind_eq_ok, multiplyDecimal_ok_iff, divideDecimal_ok_iff (le_refl 18),
      quantizeDecimalDown_ok_iff, Nat.sub_self, pow_zero, mul_one, denotes_text_iff] at h
    obtain ⟨_, ⟨_, _, ⟨rfl, -⟩, ⟨rfl, -⟩, rfl⟩, _, ⟨x, _, hx, ⟨rfl, hWlt⟩, -, rfl⟩, y, σ', hy,
      hσ, -, -, rfl⟩ := h
    obtain ⟨rfl, hlt⟩ := denotes_text_iff.mp hx
    obtain ⟨rfl, -⟩ := denotes_text_iff.mp hy
    obtain rfl := Denotes.unique hσ.reads hstep
    exact ⟨rfl, fun _ => ⟨hWlt, hσ, hlt⟩⟩

theorem proportionalShare_of_denotes (hW : 0 < W) (hWlt : W < unitLimit) (hw : w ≤ W)
    (hA : A < unitLimit) (hstep : Denotes step σ) (hσ : 0 < σ) (hcount : A / σ < 10 ^ 36)
    (hprod : A * w / 10 ^ 18 < unitLimit) :
    proportionalShare (text A) (text w) (text W) step = .ok (text (shareUnits A W σ w)) := by
  have hquot : A * w / 10 ^ 18 * 10 ^ 18 / W ≤ A := by
    apply Nat.div_le_of_le_mul
    calc
      A * w / 10 ^ 18 * 10 ^ 18 ≤ A * w := Nat.div_mul_le_self _ _
      _ ≤ W * A := by
        rw [Nat.mul_comm W A]
        exact Nat.mul_le_mul_left _ hw
  have hproductText := multiplyDecimal_ok_iff.mpr
    ⟨A, w, denotes_text hA, denotes_text (hw.trans_lt hWlt), rfl⟩
  have hdivide := (divideDecimal_ok_iff (le_refl 18)).mpr
    ⟨_, W, denotes_text hprod, denotes_text hWlt, hW, rfl⟩
  rw [Nat.sub_self, pow_zero, mul_one] at hdivide
  rw [proportionalShare, if_neg (fun hz => hW.ne' (text_eq_zero.mp hz)), hproductText, ok_bind,
    hdivide, ok_bind]
  exact quantizeDecimalDown_ok_iff.mpr ⟨_, σ, denotes_text (by omega), hstep, hσ,
    (Nat.div_le_div_right hquot).trans_lt hcount, rfl⟩

theorem proportionalShare_error {e : Thrown} (hW : 0 < W) (hWlt : W < unitLimit) (hw : w ≤ W)
    (hA : A < unitLimit) (hstep : Denotes step σ) (hσ : 0 < σ) (hcount : A / σ < 10 ^ 36)
    (h : proportionalShare (text A) (text w) (text W) step = .error e) :
    unitLimit ≤ A * w / 10 ^ 18 ∧ e = invalidDecimal (text (A * w / 10 ^ 18)) := by
  by_cases hprod : A * w / 10 ^ 18 < unitLimit
  · rw [proportionalShare_of_denotes hW hWlt hw hA hstep hσ hcount hprod] at h
    cases h
  refine ⟨not_lt.mp hprod, ?_⟩
  have hproductText := multiplyDecimal_ok_iff.mpr
    ⟨A, w, denotes_text hA, denotes_text (hw.trans_lt hWlt), rfl⟩
  rw [proportionalShare, if_neg (fun hz => hW.ne' (text_eq_zero.mp hz)), hproductText, ok_bind,
    divideDecimal] at h
  cases hparse : parse (text (A * w / 10 ^ 18)) with
  | ok p => exact absurd (denotes_text_iff.mp ⟨p, hparse, rfl⟩).2 hprod
  | error e' =>
    rw [hparse] at h
    rw [← (parse_error hparse).2]
    exact (Except.error.inj h).symm

theorem minDecimal_text_ok {u v : ℕ} (h : minDecimal (text u) [text v] = .ok s) :
    s = text (min u v) := by
  simp only [minDecimal, List.foldlM_cons, List.foldlM_nil, bind_eq_ok, pure_eq_ok_iff,
    compareDecimal_ok_iff, denotes_text_iff] at h
  obtain ⟨_, ⟨_, ⟨_, _, ⟨rfl, -⟩, ⟨rfl, -⟩, rfl⟩, rfl⟩, rfl⟩ := h
  simp only [sign_neg_iff]
  split_ifs with hlt
  · rw [min_eq_right hlt.le]
  · rw [min_eq_left (not_lt.mp hlt)]

theorem minDecimal_text {u v : ℕ} (hu : u < unitLimit) (hv : v < unitLimit) :
    minDecimal (text u) [text v] = .ok (text (min u v)) := by
  have hcmp := compareDecimal_ok_iff.mpr ⟨v, u, denotes_text hv, denotes_text hu, rfl⟩
  rw [minDecimal, List.foldlM_cons, hcmp, ok_bind]
  simp only [sign_neg_iff]
  split_ifs with hlt
  · rw [min_eq_right hlt.le]
    rfl
  · rw [min_eq_left (not_lt.mp hlt)]
    rfl

@[simp] theorem roomUnits_zero : roomUnits A W σ 0 r = 0 := by
  by_cases hA : A ≤ W <;> simp [roomUnits, hA]

theorem roundTarget_ok (hstep : Reads step σ) (hR : R ≤ A) {target : String × String}
    (h : roundTarget (text A) (text W) step (text w) (text r) (text R) = .ok target) :
    target = (text (r + min (roomUnits A W σ w r) R), text (R - min (roomUnits A W σ w r) R)) := by
  unfold roundTarget at h
  by_cases hskip : text R = "0" ∨ text w = "0"
  · rw [if_pos hskip, pure_eq_ok_iff] at h
    rw [text_eq_zero, text_eq_zero] at hskip
    rw [← h]
    rcases hskip with rfl | rfl <;> simp
  · rw [if_neg hskip] at h
    rw [text_eq_zero, text_eq_zero, not_or] at hskip
    simp only [bind_eq_ok, pure_eq_ok_iff] at h
    obtain ⟨room, hroom, extra, hextra, _, hadd, _, hsub, rfl⟩ := h
    have hmin : extra = text (min (roomUnits A W σ w r) R) := by
      simp only [roundingRoom, bind_eq_ok, compareDecimal_ok_iff, denotes_text_iff] at hroom
      obtain ⟨_, ⟨_, _, ⟨rfl, -⟩, ⟨rfl, -⟩, rfl⟩, hroom⟩ := hroom
      by_cases hle : A ≤ W
      · rw [if_pos (by rw [← not_lt, sign_pos_iff]; omega)] at hroom
        simp only [bind_eq_ok, subtractDecimal_ok_iff, quantizeDecimalDown_ok_iff,
          denotes_text_iff] at hroom
        obtain ⟨_, ⟨_, _, ⟨rfl, -⟩, ⟨rfl, -⟩, -, rfl⟩, x, σ', hx, hσ, -, -, rfl⟩ := hroom
        obtain ⟨rfl, -⟩ := denotes_text_iff.mp hx
        obtain rfl := Denotes.unique hσ.reads hstep
        rw [minDecimal_text_ok hextra, roomUnits, if_pos hle]
      · rw [if_neg (by rw [← not_lt, sign_pos_iff]; omega), pure_eq_ok_iff] at hroom
        rw [← hroom] at hextra
        rw [minDecimal_text_ok hextra, roomUnits, if_neg hle, if_neg hskip.2, min_self,
          min_eq_right hR]
    rw [hmin] at hadd hsub
    simp only [addDecimal_ok_iff, subtractDecimal_ok_iff, denotes_text_iff] at hadd hsub
    obtain ⟨_, _, ⟨rfl, -⟩, ⟨rfl, -⟩, rfl⟩ := hadd
    obtain ⟨_, _, ⟨rfl, -⟩, ⟨rfl, -⟩, -, rfl⟩ := hsub
    rfl

theorem roundTarget_of_denotes (hstep : R ≠ 0 → Denotes step σ) (hσ : 0 < σ) (hA : A < unitLimit)
    (hW : W < unitLimit) (hw : w ≤ W) (hr : r ≤ A) (hrw : A ≤ W → r ≤ w) (hR : R ≤ A)
    (hcount : w / σ < 10 ^ 36) :
    ∃ target, roundTarget (text A) (text W) step (text w) (text r) (text R) = .ok target := by
  have hround : ∀ room, room < unitLimit →
      roundingRoom (text w) (text r) (text R) (text A) (text W) step = .ok (text room) →
        ∃ target, roundTarget (text A) (text W) step (text w) (text r) (text R) = .ok target := by
    intro room hlt hroom
    unfold roundTarget
    split_ifs
    · exact ⟨_, rfl⟩
    · have hmin := minDecimal_text (u := room) (v := R) hlt (hR.trans_lt hA)
      have hadd := addDecimal_ok_iff.mpr ⟨r, min room R, denotes_text (hr.trans_lt hA),
        denotes_text (by omega), rfl⟩
      have hsub := subtractDecimal_ok_iff.mpr ⟨R, min room R, denotes_text (hR.trans_lt hA),
        denotes_text (by omega), min_le_right _ _, rfl⟩
      rw [hroom, ok_bind, hmin, ok_bind, hadd, ok_bind, hsub, ok_bind]
      exact ⟨_, rfl⟩
  by_cases hzero : R = 0
  · exact ⟨_, by rw [roundTarget, if_pos (.inl (text_eq_zero.mpr hzero))]; rfl⟩
  have hcmp := compareDecimal_ok_iff.mpr ⟨A, W, denotes_text hA, denotes_text hW, rfl⟩
  by_cases hle : A ≤ W
  · have hdiff := subtractDecimal_ok_iff.mpr ⟨w, r, denotes_text (hw.trans_lt hW),
      denotes_text (hr.trans_lt hA), hrw hle, rfl⟩
    have hquantize := quantizeDecimalDown_ok_iff.mpr
      ⟨w - r, σ, denotes_text (by omega), hstep hzero, hσ,
      (Nat.div_le_div_right (Nat.sub_le w r)).trans_lt hcount, rfl⟩
    have hfloor : (w - r) / σ * σ ≤ w - r := Nat.div_mul_le_self _ _
    apply hround ((w - r) / σ * σ) (by omega)
    rw [roundingRoom, hcmp, ok_bind, if_pos (by rw [← not_lt, sign_pos_iff]; omega), hdiff, ok_bind,
      hquantize]
  · apply hround R (hR.trans_lt hA)
    rw [roundingRoom, hcmp, ok_bind, if_neg (by rw [← not_lt, sign_pos_iff]; omega)]
    rfl

theorem allocateLoop_ok (hstep : Reads step σ) (hR : R ≤ A) {ws rs : List ℕ}
    {out : List String × String}
    (h : allocateLoop (text A) (text W) step ((ws.map text).zip (rs.map text)) (text R) = .ok out) :
    let extras := handOut (List.zipWith (roomUnits A W σ) ws rs) R
    out = ((List.zipWith (· + ·) rs extras.1).map text, text extras.2) := by
  induction ws generalizing rs out with
  | nil =>
    simp only [List.map_nil, List.zip_nil_left, allocateLoop, pure_eq_ok_iff] at h
    simp [handOut, ← h]
  | cons w ws ih =>
    cases rs with
    | nil =>
      simp only [List.map_nil, List.zip_nil_right, allocateLoop, pure_eq_ok_iff] at h
      simp [handOut, ← h]
    | cons r rs =>
      simp only [List.map_cons, List.zip_cons_cons, allocateLoop, bind_eq_ok, pure_eq_ok_iff] at h
      obtain ⟨rest, hrest, target, htgt, rfl⟩ := h
      have hleft := ih hrest
      dsimp only at hleft
      rw [hleft] at htgt ⊢
      have hle : (handOut (List.zipWith (roomUnits A W σ) ws rs) R).2 ≤ A := by
        rw [handOut_left]
        omega
      rw [roundTarget_ok hstep hle htgt]
      rfl

theorem allocateLoop_of_denotes (hread : Reads step σ) (hstep : R ≠ 0 → Denotes step σ) (hσ : 0 < σ)
    (hA : A < unitLimit) (hW : W < unitLimit) (hR : R ≤ A) {ws rs : List ℕ}
    (hws : ∀ w ∈ ws, w ≤ W ∧ w / σ < 10 ^ 36)
    (hrs : List.Forall₂ (fun r w => r ≤ A ∧ (A ≤ W → r ≤ w)) rs ws) :
    ∃ out, allocateLoop (text A) (text W) step ((ws.map text).zip (rs.map text)) (text R) =
      .ok out := by
  induction hrs with
  | nil => exact ⟨_, rfl⟩
  | @cons r w rs ws hle _ ih =>
    obtain ⟨rest, hrest⟩ := ih (fun v hv => hws v (List.mem_cons_of_mem _ hv))
    have hleft := allocateLoop_ok hread hR hrest
    dsimp only at hleft
    have hbound : (handOut (List.zipWith (roomUnits A W σ) ws rs) R).2 ≤ R := by
      rw [handOut_left]
      omega
    obtain ⟨hw, hcount⟩ := hws w List.mem_cons_self
    obtain ⟨target, htgt⟩ := roundTarget_of_denotes (fun hne => hstep (by omega)) hσ hA hW hw hle.1
      hle.2 (hbound.trans hR) hcount
    refine ⟨(target.1 :: rest.1, target.2), ?_⟩
    simp only [List.map_cons, List.zip_cons_cons, allocateLoop]
    rw [hrest, ok_bind, hleft, htgt, ok_bind]
    rfl

end Texts

theorem forall₂_reads_unique {values : List String} {us vs : List ℕ}
    (hu : List.Forall₂ Reads values us) (hv : List.Forall₂ Reads values vs) : us = vs := by
  induction hu generalizing vs with
  | nil =>
    cases hv
    rfl
  | cons h _ ih =>
    cases hv with
    | cons h' hrest => rw [Denotes.unique h h', ih hrest]

section Resize

variable {previous filled : List String} {net step : String} {ps fs : List ℕ} {n σ : ℕ}

structure Quantities (previous filled : List String) (net step : String) (ps fs : List ℕ)
    (n σ : ℕ) : Prop where
  previous : List.Forall₂ Reads previous ps
  filled : List.Forall₂ Denotes filled fs
  length_eq : ps.length = fs.length
  net : Denotes net n
  step : Reads step σ
  step_pos : 0 < σ

def availableUnits (n σ : ℕ) : ℕ := n / σ * σ

theorem addDecimal_map_text_ok {us fs : List ℕ} {filled totals : List String}
    (hlen : us.length = filled.length) (hf : List.Forall₂ Reads filled fs)
    (h : ((us.map text).zip filled).mapM (fun target => addDecimal target.1 target.2) =
      .ok totals) :
    totals = (List.zipWith (· + ·) us fs).map text ∧ List.Forall₂ Denotes filled fs := by
  rw [mapM_eq_ok] at h
  induction us generalizing filled fs totals with
  | nil =>
    cases hf with
    | nil =>
      cases h
      exact ⟨rfl, .nil⟩
    | cons _ _ => simp at hlen
  | cons u us ih =>
    cases hf with
    | nil => simp at hlen
    | cons hread hrest =>
      cases h with
      | cons hadd htail =>
        obtain ⟨_, f', hu, hf', rfl⟩ := addDecimal_ok_iff.mp hadd
        obtain ⟨rfl, -⟩ := denotes_text_iff.mp hu
        obtain rfl := Denotes.unique hf'.reads hread
        obtain ⟨rfl, hrest⟩ := ih (by simpa using hlen) hrest htail
        exact ⟨rfl, .cons hf' hrest⟩

theorem addDecimal_map_text {us fs : List ℕ} {filled : List String} (hus : ∀ u ∈ us, u < unitLimit)
    (hlen : us.length = fs.length) (hf : List.Forall₂ Denotes filled fs) :
    ((us.map text).zip filled).mapM (fun target => addDecimal target.1 target.2) =
      .ok ((List.zipWith (· + ·) us fs).map text) := by
  rw [mapM_eq_ok]
  induction hf generalizing us with
  | nil =>
    cases us with
    | nil => exact .nil
    | cons _ _ => simp at hlen
  | cons hdenotes _ ih =>
    cases us with
    | nil => simp at hlen
    | cons u us =>
      refine .cons ?_ (ih (fun v hv => hus v (List.mem_cons_of_mem _ hv)) (by simpa using hlen))
      exact addDecimal_ok_iff.mpr ⟨u, _, denotes_text (hus u List.mem_cons_self), hdenotes, rfl⟩

theorem proportionalShares_ok {A W : ℕ} {ws : List ℕ} {texts : List String}
    (hstep : Reads step σ)
    (h : (ws.map text).mapM (fun value => proportionalShare (text A) value (text W) step) =
      .ok texts) : texts = (ws.map (shareUnits A W σ)).map text ∧
        ∀ w ∈ ws, W ≠ 0 → Denotes step σ ∧ A * w / 10 ^ 18 < unitLimit := by
  rw [mapM_eq_ok] at h
  induction ws generalizing texts with
  | nil =>
    cases h
    exact ⟨rfl, by simp⟩
  | cons w ws ih =>
    cases h with
    | cons hshare hrest =>
      obtain ⟨hvalue, hlimits⟩ := proportionalShare_ok hstep hshare
      obtain ⟨hvals, hrestLimits⟩ := ih hrest
      refine ⟨by rw [List.map_cons, List.map_cons, ← hvals, hvalue], ?_⟩
      intro v hv hW
      rcases List.mem_cons.mp hv with rfl | hv
      · exact (hlimits hW).2
      · exact hrestLimits v hv hW

theorem resizeTargetTotals_ok {a : Allocation}
    (h : resizeTargetTotals previous filled net step = .ok a) :
    ∃ ps fs n σ, Quantities previous filled net step ps fs n σ ∧ previous ≠ [] ∧
      n / σ < 10 ^ 36 ∧ ((unconsumed ps fs).sum = 0 → availableUnits n σ = 0) ∧
      ((unconsumed ps fs).sum ≠ 0 → Denotes step σ ∧
        ∀ w ∈ unconsumed ps fs, availableUnits n σ * w / 10 ^ 18 < unitLimit) ∧
      a.remaining = (budgets (availableUnits n σ) σ (unconsumed ps fs)).map text ∧
      a.totals =
        (List.zipWith (· + ·) (budgets (availableUnits n σ) σ (unconsumed ps fs)) fs).map text ∧
      (budgets (availableUnits n σ) σ (unconsumed ps fs)).sum ≤ n ∧
      a.unallocatedQuantity =
        text (n - (budgets (availableUnits n σ) σ (unconsumed ps fs)).sum) := by
  simp only [resizeTargetTotals, bind_eq_ok, throwIf_eq_ok, pure_eq_ok_iff, not_or, not_not,
    assertTargetQuantities_ok_iff] at h
  obtain ⟨-, ⟨hne, hlen⟩, -, ⟨ps, hps⟩, -, ⟨fs, hfs⟩, weights, hweights, weight, hweight, _,
    hnet, _,
    hstep, available, havail, -, hexh, texts, htexts, remaining, hrem, totals,
    htotals, _, hsum, _, hunallocated, rfl⟩ := h
  rw [weights_of_reads hps hfs] at hweights
  cases hweights
  obtain ⟨rfl, -⟩ := sumDecimals_map_text_ok hweight
  obtain ⟨n, hn, rfl⟩ := decimal_ok_iff.mp hnet
  obtain ⟨σ, hσ, hpos, rfl⟩ := decimal_positive_ok_iff.mp hstep
  obtain ⟨_, _, hn', hσ', -, hcount, rfl⟩ := quantizeDecimalDown_ok_iff.mp havail
  obtain ⟨rfl, -⟩ := denotes_text_iff.mp hn'
  obtain ⟨rfl, -⟩ := denotes_text_iff.mp hσ'
  generalize hws : unconsumed ps fs = ws at *
  obtain ⟨rfl, hlimits⟩ := proportionalShares_ok hσ htexts
  have hstepDenotes : ws.sum ≠ 0 → Denotes step σ ∧
      ∀ w ∈ ws, availableUnits n σ * w / 10 ^ 18 < unitLimit := by
    intro hne
    refine ⟨?_, fun w hw => (hlimits w hw hne).2⟩
    cases ws with
    | nil => simp at hne
    | cons w ws => exact (hlimits w List.mem_cons_self hne).1
  simp only [allocateRoundingRemainder, bind_eq_ok, pure_eq_ok_iff, subtractDecimal_ok_iff] at hrem
  obtain ⟨_, hshares, _, ⟨_, _, hA, hS, -, rfl⟩, out, hout, rfl⟩ := hrem
  obtain ⟨rfl, -⟩ := sumDecimals_map_text_ok hshares
  obtain ⟨rfl, -⟩ := denotes_text_iff.mp hA
  obtain ⟨rfl, -⟩ := denotes_text_iff.mp hS
  have houtEq := allocateLoop_ok hσ (Nat.sub_le _ _) hout
  dsimp only at houtEq
  have hbudgets : out.1 = (budgets (availableUnits n σ) σ ws).map text := by
    rw [houtEq]
    rfl
  rw [hbudgets] at htotals hsum ⊢
  obtain ⟨rfl, -⟩ := sumDecimals_map_text_ok hsum
  have hlength : ps.length = fs.length := by
    rw [← hps.length_eq, ← hfs.length_eq, hlen]
  obtain ⟨rfl, hdenotes⟩ := addDecimal_map_text_ok
    (by simp [← hws, unconsumed, ← hps.length_eq, ← hfs.length_eq, hlen]) hfs htotals
  obtain ⟨_, _, hnetDenotes, hbudgetSum, hle, rfl⟩ := subtractDecimal_ok_iff.mp hunallocated
  obtain ⟨rfl, -⟩ := denotes_text_iff.mp hbudgetSum
  obtain rfl := Denotes.unique hnetDenotes.reads hn
  refine ⟨ps, fs, _, σ, ⟨hps, hdenotes, hlength, hnetDenotes, hσ, hpos⟩, ?_, hcount, ?_, ?_, ?_, ?_,
    ?_, ?_⟩
  · rintro rfl
    simp at hne
  · intro hzero
    rw [hws] at hzero
    by_contra hA
    exact hexh ⟨text_eq_zero.mpr hzero, fun hz => hA (text_eq_zero.mp hz)⟩
  · rw [hws]
    exact hstepDenotes
  · rw [hws]
  · rw [hws]
  · rw [hws]
    exact hle
  · rw [hws]

theorem proportionalShares_of_denotes {A : ℕ} {ws : List ℕ} (hA : A < unitLimit)
    (hW : ws.sum < unitLimit) (hstep : ws.sum ≠ 0 → Denotes step σ) (hσ : 0 < σ)
    (hcount : A / σ < 10 ^ 36) (hprod : ∀ w ∈ ws, A * w / 10 ^ 18 < unitLimit) :
    (ws.map text).mapM (fun value => proportionalShare (text A) value (text ws.sum) step) =
      .ok ((shares A σ ws).map text) := by
  have hplace : ∀ w ∈ ws, proportionalShare (text A) (text w) (text ws.sum) step =
      .ok (text (shareUnits A ws.sum σ w)) := by
    intro w hw
    rcases Nat.eq_zero_or_pos ws.sum with hzero | hpos
    · rw [proportionalShare, if_pos (text_eq_zero.mpr hzero), hzero, shareUnits_zero_total,
        text_eq_zero.mpr rfl]
      rfl
    · exact proportionalShare_of_denotes hpos hW (List.single_le_sum (by simp) _ hw) hA
        (hstep hpos.ne') hσ hcount (hprod w hw)
  rw [mapM_eq_ok, shares, List.forall₂_map_left_iff, List.forall₂_map_right_iff,
    List.forall₂_map_right_iff, List.forall₂_same]
  exact hplace

/-- Up to the proportional shares only exhausted targets can fail. -/
theorem resizeTargetTotals_shares (hq : Quantities previous filled net step ps fs n σ)
    (hne : previous ≠ []) (hcount : n / σ < 10 ^ 36) (hsum : (unconsumed ps fs).sum < unitLimit) :
    resizeTargetTotals previous filled net step = (do
      throwIf ((unconsumed ps fs).sum = 0 ∧ availableUnits n σ ≠ 0)
        (.error "TP_TARGETS_EXHAUSTED_WITH_EXPOSURE")
      let shares ← ((unconsumed ps fs).map text).mapM (fun value =>
        proportionalShare (text (availableUnits n σ)) value (text (unconsumed ps fs).sum) step)
      let remaining ← allocateRoundingRemainder ((unconsumed ps fs).map text) shares
        (text (availableUnits n σ)) (text (unconsumed ps fs).sum) step
      let totals ← (remaining.zip filled).mapM (fun target => addDecimal target.1 target.2)
      let unallocatedQuantity ← subtractDecimal net (← sumDecimals remaining)
      return { totals, remaining, unallocatedQuantity }) := by
  have hreads : List.Forall₂ Reads filled fs := hq.filled.imp (fun _ _ h => h.reads)
  have hlength : previous.length = filled.length := by
    rw [hq.previous.length_eq, hq.filled.length_eq, hq.length_eq]
  have hquantize := quantizeDecimalDown_ok_iff.mpr ⟨n, σ, denotes_text hq.net.lt,
    denotes_text (Denotes.lt hq.step), hq.step_pos, hcount, rfl⟩
  rw [← availableUnits] at hquantize
  rw [resizeTargetTotals, throwIf_of_not (by simp [← hlength, hne]), ok_bind,
    (assertTargetQuantities_ok_iff (x := ())).mpr ⟨ps, hq.previous⟩, ok_bind,
    (assertTargetQuantities_ok_iff (x := ())).mpr ⟨fs, hreads⟩, ok_bind,
    weights_of_reads hq.previous hreads, ok_bind, sumDecimals_map_text hsum, ok_bind,
    decimal_ok_iff.mpr ⟨n, hq.net.reads, rfl⟩, ok_bind,
    decimal_positive_ok_iff.mpr ⟨σ, hq.step, hq.step_pos, rfl⟩, ok_bind, hquantize, ok_bind]
  simp only [text_eq_zero, ne_eq]

theorem resizeTargetTotals_of_denotes (hq : Quantities previous filled net step ps fs n σ)
    (hne : previous ≠ [])
    (hexh : (unconsumed ps fs).sum = 0 → availableUnits n σ = 0) (hcount : n / σ < 10 ^ 36)
    (hsum : (unconsumed ps fs).sum < unitLimit) (hcounts : ∀ w ∈ unconsumed ps fs, w / σ < 10 ^ 36)
    (hstep : (unconsumed ps fs).sum ≠ 0 → Denotes step σ)
    (hprod : ∀ w ∈ unconsumed ps fs, availableUnits n σ * w / 10 ^ 18 < unitLimit) :
    resizeTargetTotals previous filled net step = .ok
      ⟨(List.zipWith (· + ·) (budgets (availableUnits n σ) σ (unconsumed ps fs)) fs).map text,
        (budgets (availableUnits n σ) σ (unconsumed ps fs)).map text,
        text (n - (budgets (availableUnits n σ) σ (unconsumed ps fs)).sum)⟩ := by
  have hpre := resizeTargetTotals_shares hq hne hcount hsum
  rw [throwIf_of_not (fun h => h.2 (hexh h.1)), ok_bind] at hpre
  have hAn : availableUnits n σ ≤ n := Nat.div_mul_le_self n σ
  have hAlt : availableUnits n σ < unitLimit := hAn.trans_lt hq.net.lt
  have hAcount : availableUnits n σ / σ < 10 ^ 36 := (Nat.div_le_div_right hAn).trans_lt hcount
  generalize hA : availableUnits n σ = A at *
  generalize hws : unconsumed ps fs = ws at *
  have hwslen : ws.length = fs.length := by
    rw [← hws, unconsumed, List.length_zipWith, hq.length_eq, min_self]
  have hws_le : ∀ w ∈ ws, w ≤ ws.sum := fun w hw => List.single_le_sum (by simp) _ hw
  have hshares := proportionalShares_of_denotes (A := A) hAlt hsum hstep hq.step_pos hAcount hprod
  have hsharesLe : List.Forall₂ (fun r w => r ≤ A ∧ (A ≤ ws.sum → r ≤ w)) (shares A σ ws) ws := by
    rw [shares, List.forall₂_map_left_iff, List.forall₂_same]
    intro w hw
    rcases Nat.eq_zero_or_pos ws.sum with hzero | hpos
    · simp [hzero]
    · exact ⟨shareUnits_le_available hpos (hws_le w hw), fun hle => shareUnits_le_budget hpos hle⟩
  have hremainder := @sum_shares_le A σ ws
  have hsub := subtractDecimal_ok_iff.mpr ⟨A, (shares A σ ws).sum, denotes_text hAlt,
    denotes_text (by omega), hremainder, rfl⟩
  obtain ⟨out, hout⟩ := allocateLoop_of_denotes (R := A - (shares A σ ws).sum) hq.step
    (fun hrest => hstep (fun hzero => hrest (by rw [hexh hzero, Nat.zero_sub]))) hq.step_pos hAlt
    hsum (Nat.sub_le _ _) (fun w hw => ⟨hws_le w hw, hcounts w hw⟩) hsharesLe
  have houtEq := allocateLoop_ok hq.step (Nat.sub_le _ _) hout
  dsimp only at houtEq
  have hbudgets : out.1 = (budgets A σ ws).map text := by
    rw [houtEq]
    rfl
  have hbudgetsLe := @sum_budgets_le A σ ws
  have hunallocated := subtractDecimal_ok_iff.mpr ⟨n, (budgets A σ ws).sum, hq.net,
    denotes_text (by omega), hbudgetsLe.trans hAn, rfl⟩
  have hbud : ∀ b ∈ budgets A σ ws, b < unitLimit := fun b hb =>
    ((List.single_le_sum (by simp) b hb).trans hbudgetsLe).trans_lt hAlt
  rw [hpre, hshares, ok_bind, allocateRoundingRemainder, sumDecimals_map_text (by omega),
    ok_bind, hsub, ok_bind, hout, ok_bind]
  change (do
    let totals ← (out.1.zip filled).mapM
      (fun target : String × String => addDecimal target.1 target.2)
    let unallocatedQuantity ← subtractDecimal net (← sumDecimals out.1)
    return (⟨totals, out.1, unallocatedQuantity⟩ : Allocation)) = _
  rw [hbudgets, addDecimal_map_text hbud (by rw [length_budgets, hwslen]) hq.filled, ok_bind,
    sumDecimals_map_text (by omega), ok_bind, hunallocated, ok_bind]
  rfl

theorem resizeTargetTotals_balanced (hq : Quantities previous filled net step ps fs n σ)
    (hne : previous ≠ []) (hsteps : ∀ w ∈ unconsumed ps fs, σ ∣ w)
    (hbalance : (unconsumed ps fs).sum = availableUnits n σ) (hcount : n / σ < 10 ^ 36)
    (hstep : (unconsumed ps fs).sum ≠ 0 → Denotes step σ)
    (hprod : ∀ w ∈ unconsumed ps fs, (unconsumed ps fs).sum * w / 10 ^ 18 < unitLimit) :
    resizeTargetTotals previous filled net step = .ok
      ⟨(List.zipWith (· + ·) (unconsumed ps fs) fs).map text, (unconsumed ps fs).map text,
        text (n - (unconsumed ps fs).sum)⟩ := by
  have hle : (unconsumed ps fs).sum ≤ n := by
    rw [hbalance]
    exact Nat.div_mul_le_self n σ
  have hcounts : ∀ w ∈ unconsumed ps fs, w / σ < 10 ^ 36 := fun w hw =>
    (Nat.div_le_div_right ((List.single_le_sum (by simp) w hw).trans hle)).trans_lt hcount
  have hresize := resizeTargetTotals_of_denotes hq hne
    (fun hzero => by rw [← hbalance, hzero]) hcount
    (hle.trans_lt hq.net.lt) hcounts hstep (by rwa [← hbalance])
  rwa [← hbalance, budgets_balanced hsteps] at hresize

end Resize

end TsxCore.TradingTakeProfit
