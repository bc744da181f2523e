import TsxCore.TakeProfitBudgets

/-!
# Fills leave the take-profit budgets as they are

After a resize the remaining budgets sum to the available quantity, and a fill
takes the same amount from both. The next resize therefore finds balanced
budgets and keeps every total, as long as the totals and the products of the
proportional shares are still decimals of at most 36 integer digits.
-/

namespace TsxCore.TradingTakeProfit

open Outcome TradingDecimal Apportionment

variable {filled : List String} {net step : String} {a : Allocation} {fs : List ℕ}

/-- The remaining budgets `rs` over the fills `fs` that an allocation stands for. -/
structure Settled (a : Allocation) (step : String) (rs fs : List ℕ) (n σ : ℕ) : Prop where
  nonempty : rs ≠ []
  length_eq : rs.length = fs.length
  totals : a.totals = (List.zipWith (· + ·) rs fs).map text
  remaining : a.remaining = rs.map text
  unallocated : a.unallocatedQuantity = text (n - rs.sum)
  sum_eq : rs.sum = availableUnits n σ
  steps : ∀ r ∈ rs, σ ∣ r
  step_reads : Reads step σ
  step_denotes : rs.sum ≠ 0 → Denotes step σ
  step_pos : 0 < σ
  net_lt : n < unitLimit
  count_lt : n / σ < 10 ^ 36

/-- The totals and the products of the proportional shares are decimals again. -/
def Representable (rs fs : List ℕ) : Prop :=
  (∀ t ∈ List.zipWith (· + ·) rs fs, t < unitLimit) ∧ ∀ r ∈ rs, rs.sum * r / 10 ^ 18 < unitLimit

theorem settled_of_resize {previous : List String} {ps : List ℕ} {n σ : ℕ}
    (h : resizeTargetTotals previous filled net step = .ok a)
    (hq : Quantities previous filled net step ps fs n σ) (hsteps : ∀ w ∈ unconsumed ps fs, σ ∣ w) :
    Settled a step (budgets (availableUnits n σ) σ (unconsumed ps fs)) fs n σ := by
  obtain ⟨ps', fs', n', σ', hq', hne, hcount, hexh, hdenotes, hrem, htotals, -,
    hunallocated⟩ := resizeTargetTotals_ok h
  obtain rfl := forall₂_reads_unique hq.previous hq'.previous
  obtain rfl := forall₂_reads_unique (hq.filled.imp fun _ _ h => h.reads)
    (hq'.filled.imp fun _ _ h => h.reads)
  obtain rfl := Denotes.unique hq.net hq'.net
  obtain rfl := Denotes.unique hq.step hq'.step
  have hlen : (unconsumed ps fs).length = fs.length := by
    rw [unconsumed, List.length_zipWith, hq.length_eq, min_self]
  have hsum := sum_budgets hexh (fun _ => hsteps)
  refine ⟨?_, by simp [hlen], htotals, hrem, hunallocated, hsum, ?_, hq.step, ?_, hq.step_pos,
    hq.net.lt, hcount⟩
  · intro hempty
    have hzero : fs.length = 0 := by
      rw [← hlen, ← length_budgets (A := availableUnits n σ) (σ := σ), hempty, List.length_nil]
    rw [← hq.length_eq, ← hq.previous.length_eq, List.length_eq_zero_iff] at hzero
    exact hne hzero
  · exact dvd_budgets (Nat.dvd_mul_left _ _)
  · intro hpos
    apply And.left (hdenotes _)
    intro hzero
    rw [hsum, hexh hzero] at hpos
    exact hpos rfl

section Fills

variable {rs fs ds : List ℕ}

theorem unconsumed_after_fills (hlen : rs.length = fs.length) :
    unconsumed (List.zipWith (· + ·) rs fs) (List.zipWith (· + ·) fs ds) =
      List.zipWith (· - ·) rs ds := by
  induction rs generalizing fs ds with
  | nil => simp [unconsumed]
  | cons r rs ih =>
    cases fs with
    | nil => simp at hlen
    | cons f fs =>
      cases ds with
      | nil => simp [unconsumed]
      | cons d ds =>
        have hrest := @ih fs ds (by simpa using hlen)
        simp only [unconsumed, List.zipWith_cons_cons] at hrest ⊢
        rw [hrest]
        congr 1
        omega

theorem totals_after_fills (hle : List.Forall₂ (· ≤ ·) ds rs) (hlen : rs.length = fs.length) :
    List.zipWith (· + ·) (List.zipWith (· - ·) rs ds) (List.zipWith (· + ·) fs ds) =
      List.zipWith (· + ·) rs fs := by
  induction hle generalizing fs with
  | nil => rfl
  | cons h _ ih =>
    cases fs with
    | nil => simp at hlen
    | cons f fs =>
      simp only [List.zipWith_cons_cons]
      rw [ih (by simpa using hlen)]
      congr 1
      omega

theorem sum_after_fills (hle : List.Forall₂ (· ≤ ·) ds rs) :
    (List.zipWith (· - ·) rs ds).sum + ds.sum = rs.sum := by
  induction hle with
  | nil => rfl
  | cons h _ ih =>
    simp only [List.zipWith_cons_cons, List.sum_cons]
    omega

theorem fills_mono {cs cs' : List ℕ} (h : List.Forall₂ (· ≤ ·) cs cs') (fs : List ℕ) :
    List.Forall₂ (· ≤ ·) (List.zipWith (· + ·) fs cs) (List.zipWith (· + ·) fs cs') := by
  induction h generalizing fs with
  | nil => simp
  | cons h _ ih =>
    cases fs with
    | nil => exact .nil
    | cons f fs => exact .cons (Nat.add_le_add_left h f) (ih fs)

theorem mem_after_fills {x : ℕ} (hx : x ∈ List.zipWith (· - ·) rs ds) :
    ∃ r ∈ rs, ∃ d ∈ ds, x = r - d := by
  rw [← List.map_uncurry_zip_eq_zipWith] at hx
  obtain ⟨⟨r, d⟩, hmem, rfl⟩ := List.mem_map.mp hx
  exact ⟨r, (List.of_mem_zip hmem).1, d, (List.of_mem_zip hmem).2, rfl⟩

theorem availableUnits_after_fills {n σ D : ℕ} (hD : σ ∣ D) :
    availableUnits (n - D) σ = availableUnits n σ - D := by
  obtain ⟨k, rfl⟩ := hD
  have hsub : (n - σ * k) / σ = n / σ - k := Nat.sub_mul_div n σ k
  rw [availableUnits, availableUnits, hsub, Nat.sub_mul, Nat.mul_comm k σ]

end Fills

/-- After fills the next resize returns the same totals and the same unallocated quantity. -/
theorem resize_after_fills {rs ds : List ℕ} {n σ : ℕ} (hs : Settled a step rs fs n σ)
    (hfit : Representable rs fs) (hle : List.Forall₂ (· ≤ ·) ds rs) (hds : ∀ d ∈ ds, σ ∣ d)
    (hfilled : List.Forall₂ Denotes filled (List.zipWith (· + ·) fs ds))
    (hnet : Denotes net (n - ds.sum)) :
    resizeTargetTotals a.totals filled net step =
      .ok ⟨a.totals, (List.zipWith (· - ·) rs ds).map text, a.unallocatedQuantity⟩ := by
  have hdlen : ds.length = rs.length := hle.length_eq
  have hsum := sum_after_fills hle
  have hdsum : σ ∣ ds.sum := List.dvd_sum hds
  have hreads : List.Forall₂ Reads a.totals (List.zipWith (· + ·) rs fs) := by
    rw [hs.totals, List.forall₂_map_left_iff, List.forall₂_same]
    intro t ht
    exact (denotes_text (hfit.1 t ht)).reads
  have hq : Quantities a.totals filled net step (List.zipWith (· + ·) rs fs)
      (List.zipWith (· + ·) fs ds) (n - ds.sum) σ := by
    refine ⟨hreads, hfilled, ?_, hnet, hs.step_reads, hs.step_pos⟩
    simp only [List.length_zipWith, hs.length_eq, hdlen, min_self]
  have hunconsumed := @unconsumed_after_fills _ _ ds hs.length_eq
  have havail : availableUnits (n - ds.sum) σ = (List.zipWith (· - ·) rs ds).sum := by
    rw [availableUnits_after_fills hdsum, ← hs.sum_eq]
    omega
  have hresize := resizeTargetTotals_balanced hq ?nonempty ?steps ?balance ?count ?denotes ?product
  case nonempty =>
    intro hempty
    rw [hs.totals, List.map_eq_nil_iff] at hempty
    have hzero := congrArg List.length hempty
    rw [List.length_zipWith, hs.length_eq, min_self, ← hs.length_eq, List.length_nil,
      List.length_eq_zero_iff] at hzero
    exact hs.nonempty hzero
  case steps =>
    rw [hunconsumed]
    intro w hw
    obtain ⟨r, hr, d, hd, rfl⟩ := mem_after_fills hw
    exact Nat.dvd_sub (hs.steps r hr) (hds d hd)
  case balance => rw [hunconsumed, havail]
  case count => exact (Nat.div_le_div_right (Nat.sub_le _ _)).trans_lt hs.count_lt
  case denotes =>
    rw [hunconsumed]
    exact fun hne => hs.step_denotes (by omega)
  case product =>
    rw [hunconsumed]
    intro w hw
    obtain ⟨r, hr, d, -, rfl⟩ := mem_after_fills hw
    refine lt_of_le_of_lt (Nat.div_le_div_right ?_) (hfit.2 r hr)
    exact Nat.mul_le_mul (by omega) (Nat.sub_le _ _)
  rw [hresize, hunconsumed, totals_after_fills hle hs.length_eq, ← hs.totals, hs.unallocated]
  congr 3
  omega

section Repeated

variable {rs : List ℕ} {n σ : ℕ}

theorem unconsumed_totals (hlen : rs.length = fs.length) :
    unconsumed (List.zipWith (· + ·) rs fs) fs = rs := by
  induction rs generalizing fs with
  | nil => rfl
  | cons r rs ih =>
    cases fs with
    | nil => simp at hlen
    | cons f fs =>
      have htail := @ih fs (by simpa using hlen)
      simp only [unconsumed, List.zipWith_cons_cons] at htail ⊢
      rw [htail, Nat.add_sub_cancel]

theorem Settled.total_lt {ps : List ℕ} (hs : Settled a step rs fs n σ)
    (h : List.Forall₂ Reads a.totals ps) : ∀ t ∈ List.zipWith (· + ·) rs fs, t < unitLimit := by
  rw [hs.totals] at h
  apply And.right (@denotes_map_text _ ps _)
  rw [List.forall₂_map_left_iff] at h ⊢
  refine h.imp ?_
  intro t p hp
  obtain ⟨rfl, hlt⟩ := reads_text_iff.mp hp
  exact denotes_text hlt

/-- Repeating a resize fails at the first total or product that is no decimal any more. -/
theorem repeated_resize_error (hs : Settled a step rs fs n σ)
    (hfilled : List.Forall₂ Denotes filled fs) (hnet : Denotes net n)
    (hnot : ¬ Representable rs fs) :
    ∃ u ∈ List.zipWith (· + ·) rs fs ++ rs.map (rs.sum * · / 10 ^ 18), unitLimit ≤ u ∧
      resizeTargetTotals a.totals filled net step = .error (invalidDecimal (text u)) := by
  have hlength : a.totals.length = filled.length := by
    rw [hs.totals, List.length_map, List.length_zipWith, hs.length_eq, min_self,
      hfilled.length_eq]
  have hne : a.totals.length ≠ 0 := by
    rw [hlength, hfilled.length_eq, ← hs.length_eq, ne_eq, List.length_eq_zero_iff]
    exact hs.nonempty
  cases hread : assertTargetQuantities a.totals with
  | error e =>
    have hmap := hread
    rw [assertTargetQuantities, hs.totals] at hmap
    obtain hmap | ⟨_, -, hmap⟩ := bind_eq_error.mp hmap
    · obtain ⟨_, hvalue, herror⟩ := exists_of_mapM_error hmap
      obtain ⟨u, hu, rfl⟩ := List.mem_map.mp hvalue
      obtain ⟨hnone, rfl⟩ := decimal_error herror
      refine ⟨u, List.mem_append_left _ hu, ?_, ?_⟩
      · rw [← not_lt]
        exact fun hlt => hnone u (denotes_text hlt).reads
      · rw [resizeTargetTotals, throwIf_of_not (by simp [← hlength, hne]), ok_bind,
          hread, trim_text]
        rfl
    · cases hmap
  | ok x =>
    obtain ⟨ps, hps⟩ := assertTargetQuantities_ok_iff.mp hread
    have htotals := hs.total_lt hps
    have hq : Quantities a.totals filled net step (List.zipWith (· + ·) rs fs) fs n σ := by
      refine ⟨?_, hfilled, ?_, hnet, hs.step_reads, hs.step_pos⟩
      · rw [hs.totals, List.forall₂_map_left_iff, List.forall₂_same]
        exact fun t ht => (denotes_text (htotals t ht)).reads
      · rw [List.length_zipWith, hs.length_eq, min_self]
    have hpre := resizeTargetTotals_shares hq (fun h => hne (by rw [h, List.length_nil]))
      hs.count_lt (by
        rw [unconsumed_totals hs.length_eq, hs.sum_eq]
        exact (Nat.div_mul_le_self n σ).trans_lt hs.net_lt)
    rw [unconsumed_totals hs.length_eq, ← hs.sum_eq, throwIf_of_not (fun h => h.2 h.1),
      ok_bind] at hpre
    have hlt : rs.sum < unitLimit := by
      rw [hs.sum_eq]
      exact (Nat.div_mul_le_self n σ).trans_lt hs.net_lt
    cases hmap : (rs.map text).mapM (fun value =>
        proportionalShare (text rs.sum) value (text rs.sum) step) with
    | ok shares =>
      refine absurd ⟨htotals, ?_⟩ hnot
      intro r hr
      by_cases hzero : rs.sum = 0
      · rw [hzero, Nat.zero_mul, Nat.zero_div, unitLimit]
        positivity
      · exact ((proportionalShares_ok hs.step_reads hmap).2 r hr hzero).2
    | error e =>
      obtain ⟨_, hvalue, herror⟩ := exists_of_mapM_error hmap
      obtain ⟨r, hr, rfl⟩ := List.mem_map.mp hvalue
      have hpos : 0 < rs.sum := by
        by_contra hzero
        rw [proportionalShare, if_pos (text_eq_zero.mpr (by omega))] at herror
        cases herror
      have hcount : rs.sum / σ < 10 ^ 36 := by
        rw [hs.sum_eq]
        exact (Nat.div_le_div_right (Nat.div_mul_le_self n σ)).trans_lt hs.count_lt
      obtain ⟨hlimit, rfl⟩ := proportionalShare_error hpos hlt (List.single_le_sum (by simp) r hr)
        hlt (hs.step_denotes hpos.ne') hs.step_pos hcount herror
      refine ⟨_, List.mem_append_right _ (List.mem_map_of_mem hr), hlimit, ?_⟩
      rw [hpre, hmap]
      rfl

end Repeated

section Runs

variable {cs : List ℕ}

/-- What one reconciliation reads: the fills of the targets and the net quantity. -/
structure Observation where
  filled : List String
  netQuantity : String

/-- The allocation row after a series of reconciliations. -/
def replay (hash : String) (targetCount : ℕ) (step : String) (row : AllocationRow)
    (observations : List Observation) : Outcome AllocationRow :=
  observations.foldlM (fun row o =>
    Prod.fst <$> loadTakeProfitAllocation row hash targetCount o.filled o.netQuantity step) row

/-- Observations of ever larger fills `cs` of the remaining budgets `rs`. -/
inductive Fills (rs fs : List ℕ) (n σ : ℕ) : List ℕ → List Observation → Prop
  | done (cs : List ℕ) : Fills rs fs n σ cs []
  | next {cs cs' : List ℕ} {o : Observation} {os : List Observation}
    (grow : List.Forall₂ (· ≤ ·) cs cs') (within : List.Forall₂ (· ≤ ·) cs' rs)
    (steps : ∀ c ∈ cs', σ ∣ c)
    (filled : List.Forall₂ Denotes o.filled (List.zipWith (· + ·) fs cs'))
    (net : Denotes o.netQuantity (n - cs'.sum)) (rest : Fills rs fs n σ cs' os) :
    Fills rs fs n σ cs (o :: os)

/-- The row that keeps the allocation `a` with fills `cs` of its budgets. -/
structure Keeps (row : AllocationRow) (hash : String) (a : Allocation) (fs cs : List ℕ) : Prop where
  planHash : row.planHash = hash
  totals : row.targetTotals = a.totals
  unallocated : row.unallocatedQuantity = a.unallocatedQuantity
  observed : List.Forall₂ Denotes row.observedFills (List.zipWith (· + ·) fs cs)
  completed : row.completedTargets.length = fs.length

theorem targetCompleted_of_denotes {total before current : String} {t b c : ℕ}
    (ht : Denotes total t)
    (hb : Denotes before b) (hc : Denotes current c) (hle : b ≤ c) (completed : Bool) :
    ∃ completed', targetCompleted total before completed current = .ok completed' ∧
      (completed = true → completed' = true) := by
  rw [targetCompleted, compareDecimal_ok_iff.mpr ⟨c, b, hc, hb, rfl⟩, ok_bind,
    throwIf_of_not (by rw [sign_neg_iff]; omega), ok_bind]
  cases completed with
  | true => exact ⟨true, rfl, fun _ => rfl⟩
  | false =>
    rw [compareDecimal_ok_iff.mpr ⟨t, b, ht, hb, rfl⟩,
      compareDecimal_ok_iff.mpr ⟨c, t, hc, ht, rfl⟩]
    simp only [Bool.false_eq_true, if_false, ok_bind, false_implies, and_true]
    split_ifs
    · exact ⟨_, rfl⟩
    · exact ⟨_, rfl⟩
    · exact ⟨_, rfl⟩

def FlagsGrow (before after : List Bool) : Prop :=
  List.Forall₂ (fun b b' => b = true → b' = true) before after

theorem completedTargetEvidence_of_denotes {totals before current : List String} {ts bs : List ℕ}
    (ht : List.Forall₂ Denotes totals ts) (hb : List.Forall₂ Denotes before bs)
    (hc : List.Forall₂ Denotes current cs) (hle : List.Forall₂ (· ≤ ·) bs cs)
    (hlen : ts.length = bs.length) (completed : List Bool)
    (hdone : completed.length = ts.length) :
    ∃ completed', completedTargetEvidence totals before completed current = .ok completed' ∧
      FlagsGrow completed completed' := by
  have hreads : ∀ {values : List String} {us : List ℕ}, List.Forall₂ Denotes values us →
      assertTargetQuantities values = .ok () := by
    intro values us h
    exact assertTargetQuantities_ok_iff.mpr ⟨us, h.imp fun _ _ h => h.reads⟩
  have htgts : ∃ completed',
      (((totals.zip before).zip completed).zip current).mapM
        (fun target => targetCompleted target.1.1.1 target.1.1.2 target.1.2 target.2) =
        .ok completed' ∧ FlagsGrow completed completed' := by
    simp only [mapM_eq_ok]
    induction hle generalizing totals before current ts completed with
    | nil =>
      cases hb
      cases hc
      cases ts with
      | cons _ _ => simp at hlen
      | nil =>
        cases ht
        cases completed with
        | cons _ _ => simp at hdone
        | nil => exact ⟨[], .nil, .nil⟩
    | cons h _ ih =>
      cases hb with
      | cons hb hbrest =>
        cases hc with
        | cons hc hcrest =>
          cases ht with
          | nil => simp at hlen
          | cons ht htrest =>
            cases completed with
            | nil => simp at hdone
            | cons flag flags =>
              obtain ⟨flags', hflags, hgrow⟩ := ih htrest hbrest hcrest (by simpa using hlen)
                flags (by simpa using hdone)
              obtain ⟨flag', hflag, hon⟩ := targetCompleted_of_denotes ht hb hc h flag
              exact ⟨flag' :: flags', .cons hflag hflags, .cons hon hgrow⟩
  obtain ⟨completed', hok, hgrow⟩ := htgts
  refine ⟨completed', ?_, hgrow⟩
  have hlengths : ¬ (before.length ≠ totals.length ∨ completed.length ≠ totals.length ∨
      current.length ≠ totals.length) := by
    have h1 := ht.length_eq
    have h2 := hb.length_eq
    have h3 := hc.length_eq
    have h4 := hle.length_eq
    omega
  rw [completedTargetEvidence, throwIf_of_not hlengths, ok_bind, hreads ht, ok_bind, hreads hb,
    ok_bind, hreads hc, ok_bind, hok]

theorem FlagsGrow.refl (flags : List Bool) : FlagsGrow flags flags :=
  List.forall₂_same.mpr (fun _ _ h => h)

theorem FlagsGrow.trans {as bs cs : List Bool} (h : FlagsGrow as bs) (h' : FlagsGrow bs cs) :
    FlagsGrow as cs := by
  induction h generalizing cs with
  | nil => exact h'
  | cons hab _ ih =>
    cases h' with
    | cons hbc hrest => exact .cons (fun ha => hbc (hab ha)) (ih hrest)

theorem load_after_fills {a : Allocation} {step hash : String} {rs fs cs' : List ℕ} {n σ : ℕ}
    (hs : Settled a step rs fs n σ) (hfit : Representable rs fs) {row : AllocationRow}
    (hrow : Keeps row hash a fs cs) (hgrow : List.Forall₂ (· ≤ ·) cs cs')
    (hwithin : List.Forall₂ (· ≤ ·) cs' rs) (hsteps : ∀ c ∈ cs', σ ∣ c) {o : Observation}
    (hfilled : List.Forall₂ Denotes o.filled (List.zipWith (· + ·) fs cs'))
    (hnet : Denotes o.netQuantity (n - cs'.sum)) :
    ∃ row', loadTakeProfitAllocation row hash rs.length o.filled o.netQuantity step =
        .ok (row', ⟨a.totals, (List.zipWith (· - ·) rs cs').map text, a.unallocatedQuantity⟩) ∧
      Keeps row' hash a fs cs' ∧ row'.observedFills = o.filled ∧
      FlagsGrow row.completedTargets row'.completedTargets := by
  have hcslen : cs'.length = rs.length := hwithin.length_eq
  have htotals : List.Forall₂ Denotes a.totals (List.zipWith (· + ·) rs fs) := by
    rw [hs.totals, List.forall₂_map_left_iff, List.forall₂_same]
    exact fun t ht => denotes_text (hfit.1 t ht)
  have hprev : previousTotals row hash rs.length = .ok a.totals := by
    have hmap : a.totals.mapM (fun value => decimal value) = .ok a.totals := by
      rw [mapM_eq_ok, hs.totals, List.forall₂_map_left_iff, List.forall₂_map_right_iff,
        List.forall₂_same]
      intro t ht
      exact decimal_ok_iff.mpr ⟨t, (denotes_text (hfit.1 t ht)).reads, rfl⟩
    have hcount : row.targetTotals.length = rs.length := by
      rw [hrow.totals, hs.totals, List.length_map, List.length_zipWith, hs.length_eq, min_self]
    rw [previousTotals, throwIf_of_not (by simp [hrow.planHash]), ok_bind,
      throwIf_of_not (by simp [hcount]), ok_bind, hrow.totals, hmap]
  obtain ⟨completed', hdone, hflags⟩ := completedTargetEvidence_of_denotes htotals hrow.observed
    hfilled (fills_mono hgrow fs)
    (by simp only [List.length_zipWith, hgrow.length_eq, hcslen, hs.length_eq, min_self])
    row.completedTargets
    (by simp only [List.length_zipWith, hrow.completed, hs.length_eq, min_self])
  have hresize := resize_after_fills hs hfit hwithin hsteps hfilled hnet
  refine ⟨persistAllocation row ⟨a.totals, (List.zipWith (· - ·) rs cs').map text,
    a.unallocatedQuantity⟩ o.filled completed', ?_, ?_⟩
  · rw [loadTakeProfitAllocation, hprev, ok_bind, hdone, ok_bind, hresize, ok_bind]
    rfl
  · have hlen : completed'.length = fs.length := by
      rw [← hflags.length_eq, hrow.completed]
    unfold persistAllocation
    split_ifs with hsame
    · obtain ⟨-, -, hobs, -⟩ := hsame
      refine ⟨⟨hrow.planHash, hrow.totals, hrow.unallocated, ?_, hrow.completed⟩, hobs, ?_⟩
      · rw [hobs]
        exact hfilled
      · exact FlagsGrow.refl _
    · exact ⟨⟨hrow.planHash, rfl, rfl, hfilled, hlen⟩, rfl, hflags⟩

theorem replay_fills {a : Allocation} {step hash : String} {rs fs : List ℕ} {n σ : ℕ}
    (hs : Settled a step rs fs n σ) (hfit : Representable rs fs) {os : List Observation}
    (hrun : Fills rs fs n σ cs os) {row : AllocationRow} (hrow : Keeps row hash a fs cs) :
    ∃ row', replay hash rs.length step row os = .ok row' ∧ row'.planHash = row.planHash ∧
      row'.targetTotals = a.totals ∧ row'.unallocatedQuantity = a.unallocatedQuantity ∧
      row'.observedFills = (os.getLast?.elim row.observedFills Observation.filled) ∧
      FlagsGrow row.completedTargets row'.completedTargets := by
  induction hrun generalizing row with
  | done cs =>
    exact ⟨row, rfl, rfl, hrow.totals, hrow.unallocated, rfl, FlagsGrow.refl _⟩
  | @next cs cs' o os hgrow hwithin hsteps hfilled hnet _ ih =>
    obtain ⟨row', hload, hkeeps, hobs, hflags⟩ :=
      load_after_fills hs hfit hrow hgrow hwithin hsteps hfilled hnet
    obtain ⟨row'', hreplay, hhash, htotals, hunallocated, hlast, hflags'⟩ := ih hkeeps
    refine ⟨row'', ?_, ?_, htotals, hunallocated, ?_, hflags.trans hflags'⟩
    · rw [replay, List.foldlM_cons, hload]
      exact hreplay
    · rw [hhash, hkeeps.planHash, hrow.planHash]
    · rw [hlast, hobs, List.getLast?_cons]
      cases os.getLast? <;> rfl

end Runs

section Consumed

/-- Successive resizes, each starting from the totals of the one before. -/
def resizeRun (step : String) : List String → List Observation → Outcome (List Allocation)
  | _, [] => return []
  | totals, o :: os => do
    let a ← resizeTargetTotals totals o.filled o.netQuantity step
    return a :: (← resizeRun step a.totals os)

/-- The fill of target `i` never falls below `y` and never decreases; net quantities are free. -/
inductive FillsAt (i : ℕ) : ℕ → List Observation → Prop
  | done (y : ℕ) : FillsAt i y []
  | next {y y' : ℕ} {s : String} {o : Observation} {os : List Observation} (grow : y ≤ y')
    (filled : o.filled[i]? = some s) (value : Denotes s y') (rest : FillsAt i y' os) :
    FillsAt i y (o :: os)

theorem forall₂_getElem? {α β : Type} {R : α → β → Prop} {as : List α} {bs : List β}
    (h : List.Forall₂ R as bs) {i : ℕ} {a : α} (ha : as[i]? = some a) :
    ∃ b, bs[i]? = some b ∧ R a b := by
  induction h generalizing i with
  | nil => simp at ha
  | cons hab _ ih =>
    cases i with
    | zero =>
      simp only [List.getElem?_cons_zero, Option.some.injEq] at ha
      exact ⟨_, rfl, ha ▸ hab⟩
    | succ i => exact ih (by simpa using ha)

theorem resize_consumed {previous filled : List String} {net step : String} {a : Allocation}
    (h : resizeTargetTotals previous filled net step = .ok a) {i x y : ℕ} {p f : String}
    (hp : previous[i]? = some p) (hx : Reads p x) (hf : filled[i]? = some f) (hy : Denotes f y)
    (hle : x ≤ y) : a.remaining[i]? = some "0" ∧ a.totals[i]? = some (text y) := by
  obtain ⟨ps, fs, n, σ, hq, -, -, -, -, hrem, htotals, -⟩ := resizeTargetTotals_ok h
  obtain ⟨x', hpi, hx'⟩ := forall₂_getElem? hq.previous hp
  obtain ⟨y', hfi, hy'⟩ := forall₂_getElem? hq.filled hf
  obtain rfl := Denotes.unique hx hx'
  obtain rfl := Denotes.unique hy hy'
  have hw : (unconsumed ps fs)[i]? = some 0 := by
    simp only [unconsumed, List.getElem?_zipWith, hpi, hfi, Option.some.injEq]
    omega
  have hbud := budgets_of_consumed (A := availableUnits n σ) (σ := σ) hw
  refine ⟨?_, ?_⟩
  · rw [hrem, List.getElem?_map, hbud, Option.map_some, text_eq_zero.mpr rfl]
  · simp only [htotals, List.getElem?_map, List.getElem?_zipWith, hbud, hfi, Option.map_some,
      Nat.zero_add]

theorem resizeRun_consumed {step : String} {i y : ℕ} {os : List Observation}
    (hos : FillsAt i y os) {totals : List String} {t : String} {x : ℕ}
    (ht : totals[i]? = some t) (hx : Reads t x) (hle : x ≤ y) {as : List Allocation}
    (h : resizeRun step totals os = .ok as) : ∀ a ∈ as, a.remaining[i]? = some "0" := by
  induction hos generalizing totals t x as with
  | done y =>
    simp only [resizeRun, pure_eq_ok_iff] at h
    simp [← h]
  | @next y y' s o os hgrow hfilled hvalue _ ih =>
    simp only [resizeRun, bind_eq_ok, pure_eq_ok_iff] at h
    obtain ⟨a, ha, rest, hrest, rfl⟩ := h
    obtain ⟨hzero, htotal⟩ := resize_consumed ha ht hx hfilled hvalue (hle.trans hgrow)
    have hnext := ih htotal (denotes_text hvalue.lt).reads le_rfl hrest
    intro b hb
    rcases List.mem_cons.mp hb with rfl | hb
    · exact hzero
    · exact hnext b hb

end Consumed

/-- Take-profit fills leave the totals and the unallocated quantity of a resize unchanged exactly
when these are still decimals, and a consumed target stays consumed for every net quantity. -/
theorem take_profit_budgets_stable_under_fills {previous filled : List String} {net step : String}
    {a : Allocation} (h : resizeTargetTotals previous filled net step = .ok a) :
    ∃ ps fs n σ, Quantities previous filled net step ps fs n σ ∧
      ((∀ w ∈ unconsumed ps fs, σ ∣ w) → ∃ rs : List ℕ,
        a.remaining = rs.map text ∧ rs.length = fs.length ∧ rs.sum = availableUnits n σ ∧
        (Representable rs fs →
          (∀ ds filled' net', List.Forall₂ (· ≤ ·) ds rs → (∀ d ∈ ds, σ ∣ d) →
            List.Forall₂ Denotes filled' (List.zipWith (· + ·) fs ds) →
            Denotes net' (n - ds.sum) →
            resizeTargetTotals a.totals filled' net' step =
              .ok ⟨a.totals, (List.zipWith (· - ·) rs ds).map text, a.unallocatedQuantity⟩) ∧
          (∀ hash row cs os, Keeps row hash a fs cs → Fills rs fs n σ cs os →
            ∃ row', replay hash rs.length step row os = .ok row' ∧ row'.planHash = row.planHash ∧
              row'.targetTotals = a.totals ∧
              row'.unallocatedQuantity = a.unallocatedQuantity ∧
              row'.observedFills = os.getLast?.elim row.observedFills Observation.filled ∧
              FlagsGrow row.completedTargets row'.completedTargets)) ∧
        (¬ Representable rs fs → ∀ filled' net', List.Forall₂ Denotes filled' fs →
          Denotes net' n →
          ∃ u ∈ List.zipWith (· + ·) rs fs ++ rs.map (rs.sum * · / 10 ^ 18), unitLimit ≤ u ∧
            resizeTargetTotals a.totals filled' net' step = .error (invalidDecimal (text u))) ∧
        ∀ i y, a.remaining[i]? = some "0" → fs[i]? = some y → ∀ os, FillsAt i y os →
          ∀ as, resizeRun step a.totals os = .ok as → ∀ b ∈ as, b.remaining[i]? = some "0") := by
  obtain ⟨ps, fs, n, σ, hq, -⟩ := resizeTargetTotals_ok h
  refine ⟨ps, fs, n, σ, hq, ?_⟩
  intro hsteps
  have hs := settled_of_resize h hq hsteps
  refine ⟨_, hs.remaining, hs.length_eq, hs.sum_eq, ?_, ?_, ?_⟩
  · intro hfit
    refine ⟨?_, ?_⟩
    · intro ds filled' net' hle hds hfilled hnet
      exact resize_after_fills hs hfit hle hds hfilled hnet
    · intro hash row cs os hrow hrun
      exact replay_fills hs hfit hrun hrow
  · intro hnot filled' net' hfilled hnet
    exact repeated_resize_error hs hfilled hnet hnot
  · intro i y hzero hy os hos as hrun
    generalize budgets (availableUnits n σ) σ (unconsumed ps fs) = rs at hs
    have hr : rs[i]? = some 0 := by
      rw [hs.remaining, List.getElem?_map, Option.map_eq_some_iff] at hzero
      obtain ⟨r, hr, htext⟩ := hzero
      rw [hr, text_eq_zero.mp htext]
    have htotal : a.totals[i]? = some (text y) := by
      simp only [hs.totals, List.getElem?_map, List.getElem?_zipWith, hr, hy, Option.map_some,
        Nat.zero_add]
    have hylt : y < unitLimit := by
      obtain ⟨s, -, hs⟩ := forall₂_getElem? hq.filled.flip hy
      exact Denotes.lt hs
    exact resizeRun_consumed hos htotal (denotes_text hylt).reads le_rfl hrun

theorem take_profit_budgets_stable_two_targets :
    resizeTargetTotals ["2", "3"] ["0", "0"] "5" "1" = .ok ⟨["2", "3"], ["2", "3"], "0"⟩ ∧
      resizeTargetTotals ["2", "3"] ["1", "0"] "4" "1" = .ok ⟨["2", "3"], ["1", "3"], "0"⟩ := by
  have hfirst : resizeTargetTotals ["2", "3"] ["0", "0"] "5" "1" =
      .ok ⟨["2", "3"], ["2", "3"], "0"⟩ := by decide +kernel
  refine ⟨hfirst, ?_⟩
  obtain ⟨ps, fs, n, σ, hq, hstable⟩ := take_profit_budgets_stable_under_fills hfirst
  have hunits : ∀ {s : String} {c u : ℕ}, parse s = .ok ⟨c, 0⟩ → c * 10 ^ 18 = u → Denotes s u := by
    intro s c u hs hu
    exact ⟨⟨c, 0⟩, hs, hu⟩
  have h0 : Denotes "0" 0 := hunits (c := 0) (by decide +kernel) (by norm_num)
  have h1 : Denotes "1" (10 ^ 18) := hunits (c := 1) (by decide +kernel) (by norm_num)
  have h2 : Denotes "2" (2 * 10 ^ 18) := hunits (c := 2) (by decide +kernel) (by norm_num)
  have h3 : Denotes "3" (3 * 10 ^ 18) := hunits (c := 3) (by decide +kernel) (by norm_num)
  have h4 : Denotes "4" (5 * 10 ^ 18 - [10 ^ 18, 0].sum) :=
    hunits (c := 4) (by decide +kernel) (by norm_num)
  have h5 : Denotes "5" (5 * 10 ^ 18) := hunits (c := 5) (by decide +kernel) (by norm_num)
  obtain rfl := forall₂_reads_unique hq.previous (.cons h2.reads (.cons h3.reads .nil))
  obtain rfl := forall₂_reads_unique (hq.filled.imp fun _ _ h => h.reads)
    (.cons h0.reads (.cons h0.reads .nil))
  obtain rfl := Denotes.unique hq.net h5
  obtain rfl := Denotes.unique hq.step h1.reads
  obtain ⟨rs, hrem, -, -, hfills, -⟩ := hstable (by decide)
  have hrs : rs = [2 * 10 ^ 18, 3 * 10 ^ 18] := by
    have hdenotes : List.Forall₂ Denotes (rs.map text) [2 * 10 ^ 18, 3 * 10 ^ 18] := by
      rw [← hrem]
      exact .cons h2 (.cons h3 .nil)
    exact (denotes_map_text hdenotes).1.symm
  rw [hrs] at hfills
  obtain ⟨hresize, -⟩ := hfills ⟨by decide, by decide⟩
  have hstep := hresize [10 ^ 18, 0] ["1", "0"] "4" (by decide) (by decide)
    (.cons h1 (.cons h0 .nil)) h4
  have htexts : ([2 * 10 ^ 18 - 10 ^ 18, 3 * 10 ^ 18 - 0] : List ℕ).map text = ["1", "3"] := by
    simp only [List.map_cons, List.map_nil, text_eq_canonical]
    decide +kernel
  rw [← htexts]
  exact hstep

/-- Growth may leave a budget whose product with itself has too many digits for the next resize,
and a fill that completes a target is recorded in its flag as well. -/
theorem take_profit_budgets_not_always_stable :
    (resizeTargetTotals ["1"] ["0"] "1000000000000000000" "1" =
        .ok ⟨["1000000000000000000"], ["1000000000000000000"], "0"⟩ ∧
      resizeTargetTotals ["1000000000000000000"] ["0"] "1000000000000000000" "1" =
        .error (.error "Invalid unsigned decimal '1000000000000000000000000000000000000'.")) ∧
    loadTakeProfitAllocation ⟨"plan", ["2"], ["0"], [false], "0", 0⟩ "plan" 1 ["2"] "0" "1" =
      .ok (⟨"plan", ["2"], ["2"], [true], "0", 1⟩, ⟨["2"], ["0"], "0"⟩) := by
  decide +kernel

end TsxCore.TradingTakeProfit
