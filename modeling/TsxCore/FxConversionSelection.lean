import TsxCore.FxReceiptReads

/-!
# A conversion is derived again from its selected receipts

The observations kept by the derivation have distinct legs and response times, so the
selected receipts pass the loop unchanged, and they form the same first complete
window.
-/

namespace TsxCore.TradingFxQuotes

open Outcome TradingDecimal FirstWindow
open TradingFx (FxContext)

variable {sha256 : String → String} {now now' : ℤ} {context : FxContext} {values : List (Json ℚ)}
  {baseAsset quoteAsset : String} {asOf : ℤ} {conversion : FxConversionEvidence}
  {rows seen selected : List FxLegReceipt} {required : List String}

section Observations

theorem foldlM_observe_mem (h : rows.foldlM observe seen = .ok selected) :
    ∀ row ∈ selected, row ∈ seen ∨ row ∈ rows := by
  induction rows generalizing seen with
  | nil =>
    obtain rfl : seen = selected := by simpa using h
    exact fun row hrow => .inl hrow
  | cons row rows ih =>
    simp only [List.foldlM_cons, bind_eq_ok] at h
    obtain ⟨next, hnext, h⟩ := h
    have hstep : ∀ other ∈ next, other ∈ seen ∨ other = row := by
      unfold observe at hnext
      split at hnext
      · obtain rfl : seen ++ [row] = next := by simpa using hnext
        simp
      · simp only [bind_eq_ok, throwIf_eq_ok, pure_eq_ok_iff] at hnext
        obtain ⟨_, _, _, _, hnext⟩ := hnext
        intro other hother
        rw [← hnext] at hother
        split_ifs at hother
        · obtain ⟨prior, hprior, heq⟩ := List.mem_map.mp hother
          split_ifs at heq
          · exact .inr heq.symm
          · exact .inl (heq ▸ hprior)
        · exact .inl hother
    intro other hother
    rcases ih h other hother with hseen | hrest
    · rcases hstep other hseen with hold | hnew
      · exact .inl hold
      · exact .inr (by simp [hnew])
    · exact .inr (List.mem_cons_of_mem _ hrest)

theorem foldlM_observe_of_nodup (hnodup : ((seen ++ rows).map (·.observation)).Nodup) :
    rows.foldlM observe seen = .ok (seen ++ rows) := by
  induction rows generalizing seen with
  | nil =>
    rw [List.foldlM_nil, List.append_nil]
    rfl
  | cons row rows ih =>
    have hfresh : seen.find? (fun prior => prior.observation = row.observation) = none := by
      rw [List.find?_eq_none]
      intro prior hprior heq
      rw [List.map_append, List.nodup_append] at hnodup
      have hrow : row.observation ∈ (row :: rows).map (·.observation) := by simp
      exact hnodup.2.2 _ (List.mem_map_of_mem hprior) _ hrow (by simpa using heq)
    have hstep : observe seen row = .ok (seen ++ [row]) := by
      rw [observe, hfresh]
    rw [List.foldlM_cons, hstep, ok_bind, ih, List.append_assoc, List.singleton_append]
    rwa [List.append_assoc, List.singleton_append]

instance : Std.Total laterFirst where
  total a b := by
    rcases lt_trichotomy a.providerResponseAt b.providerResponseAt with h | h | h
    · exact .inr (.inl h)
    · rcases le_total a.receiptHash b.receiptHash with hle | hle
      · exact .inl (.inr ⟨h, hle⟩)
      · exact .inr (.inr ⟨h.symm, hle⟩)
    · exact .inl (.inl h)

instance : IsTrans FxLegReceipt laterFirst where
  trans a b c hab hbc := by
    rcases hab with hab | ⟨hab, hle⟩
    · rcases hbc with hbc | ⟨hbc, -⟩
      · exact .inl (hbc.trans hab)
      · exact .inl (hbc ▸ hab)
    · rcases hbc with hbc | ⟨hbc, hle'⟩
      · exact .inl (hab ▸ hbc)
      · exact .inr ⟨hab.trans hbc, hle.trans hle'⟩

theorem falling_insertionSort (rows : List FxLegReceipt) :
    (rows.insertionSort laterFirst).Pairwise
      (fun a b => b.providerResponseAt ≤ a.providerResponseAt) := by
  refine (List.pairwise_insertionSort laterFirst rows).imp ?_
  intro a b h
  rcases h with h | h
  · exact h.le
  · exact h.1.ge

end Observations

section Selection

theorem eligible_iff {row : FxLegReceipt} : eligible required asOf row = true ↔
    row.legId ∈ required ∧ row.providerResponseAt ≤ asOf ∧
      asOf - 10000 ≤ row.providerResponseAt := by
  simp [eligible, and_assoc]

theorem mem_eligibleReceipts
    (h : eligibleReceipts sha256 now values required asOf context = .ok rows) :
    ∀ row ∈ rows, row.json ∈ values ∧ Valid sha256 now context row ∧
      eligible required asOf row = true := by
  simp only [eligibleReceipts, bind_eq_ok, pure_eq_ok_iff] at h
  obtain ⟨valid, hvalid, observations, hobservations, rfl⟩ := h
  intro row hrow
  rw [List.mem_insertionSort] at hrow
  rcases foldlM_observe_mem hobservations row hrow with hnone | hmem
  · cases hnone
  · obtain ⟨hmem, heligible⟩ := List.mem_filter.mp hmem
    obtain ⟨value, hvalue, hread⟩ := exists_of_mem_mapM hvalid hmem
    obtain ⟨rfl, hrow⟩ := validReceipt_eq_ok.mp hread
    exact ⟨hvalue, hrow, heligible⟩

theorem coherentLegs_eq_ok : coherentLegs rows required = .ok selected ↔
    firstWindow FxLegReceipt.legId FxLegReceipt.providerResponseAt 1000 rows required =
      some selected := by
  unfold coherentLegs
  split <;> simp_all

theorem mapM_validReceipt (h : ∀ row ∈ rows, Valid sha256 now context row) :
    (rows.map FxLegReceipt.json).mapM (validReceipt sha256 now context) = .ok rows := by
  rw [mapM_eq_ok, List.forall₂_map_left_iff, List.forall₂_same]
  exact fun row hrow => (h row hrow).validReceipt

/-- Selected receipts of distinct legs are eligible in the order of falling times. -/
theorem eligibleReceipts_selected (hvalid : ∀ row ∈ selected, Valid sha256 now context row)
    (heligible : ∀ row ∈ selected, eligible required asOf row = true)
    (hnodup : (selected.map (·.legId)).Nodup) :
    eligibleReceipts sha256 now (selected.map FxLegReceipt.json) required asOf context =
      .ok (selected.insertionSort laterFirst) := by
  have hobserve : selected.foldlM observe [] = .ok selected := by
    refine foldlM_observe_of_nodup ?_
    have hfst : ((selected.map (·.observation)).map Prod.fst).Nodup := by
      rw [List.map_map]
      exact hnodup
    exact hfst.of_map _
  rw [eligibleReceipts, mapM_validReceipt hvalid, ok_bind, List.filter_eq_self.mpr heligible,
    hobserve]
  rfl

theorem legOrder_nodup : legOrder.Nodup := by decide

theorem requiredLegs_ok (h : requiredLegs baseAsset quoteAsset = .ok required) :
    required.Nodup ∧ required.length ≤ 3 := by
  simp only [requiredLegs, bind_eq_ok, pure_eq_ok_iff] at h
  obtain ⟨base, -, quote, -, rfl⟩ := h
  exact ⟨legOrder_nodup.filter _, List.length_filter_le _ _⟩

/-- The receipts a conversion was derived from, and the conversion they give on their own. -/
structure DerivedFrom (sha256 : String → String) (now : ℤ) (values : List (Json ℚ))
    (context : FxContext) (conversion : FxConversionEvidence) (selected : List FxLegReceipt) :
    Prop where
  hashes : selected.map (·.receiptHash) = conversion.receiptHashes
  legs : (selected.map (·.legId)).Nodup
  nonempty : selected ≠ []
  length : selected.length ≤ 3
  mem : ∀ row ∈ selected, row.json ∈ values
  valid : ∀ row ∈ selected, Valid sha256 now context row
  mode : conversion.mode = fxMode context.mode
  profileHash : conversion.profileHash = context.profileHash
  digest : conversionDigest sha256 conversion.toFxConversion = .ok conversion.evidenceHash
  again : ∀ now' ≥ now, deriveFxConversion sha256 now' (selected.map FxLegReceipt.json)
    conversion.baseAsset conversion.quoteAsset conversion.asOf context = .ok conversion

theorem deriveFxConversion_again
    (h : deriveFxConversion sha256 now values baseAsset quoteAsset asOf context = .ok conversion) :
    conversion.baseAsset = baseAsset ∧ conversion.quoteAsset = quoteAsset ∧
      conversion.asOf = asOf ∧ ∃ selected, DerivedFrom sha256 now values context conversion
        selected := by
  simp only [deriveFxConversion, bind_eq_ok, throwIf_eq_ok, pure_eq_ok_iff, exists_const,
    not_or] at h
  obtain ⟨⟨hlen, hrest⟩, required, hreq, rows, hrows, selected, hsel, original, horig,
    evidenceHash, hdig, rfl⟩ := h
  have hconv := horig
  simp only [selectedConversion, bind_eq_ok, pure_eq_ok_iff] at hconv
  obtain ⟨_, -, _, -, rate, -, rfl⟩ := hconv
  refine ⟨rfl, rfl, rfl, selected, ?_⟩
  obtain ⟨hnodup, hthree⟩ := requiredLegs_ok hreq
  obtain ⟨anchor, hanchor, hwin⟩ := exists_window (coherentLegs_eq_ok.mp hsel)
  have hmem := fun row hrow => mem_eligibleReceipts hrows row (hwin.mem row hrow)
  have hleg := (eligible_iff.mp (mem_eligibleReceipts hrows anchor hanchor).2.2).1
  have hnonempty : required ≠ [] := List.ne_nil_of_mem hleg
  have hcount : selected.length ≤ 3 := by
    rw [← hwin.keys, List.length_map] at hthree
    exact hthree
  have hlegs : (selected.map (·.legId)).Nodup := by
    rw [hwin.keys]
    exact hnodup
  refine ⟨rfl, hlegs, ?_, hcount, fun row hrow => (hmem row hrow).1,
    fun row hrow => (hmem row hrow).2.1, rfl, rfl, hdig, ?_⟩
  · intro hnil
    rw [hnil] at hwin
    exact hnonempty hwin.keys.symm
  · intro now' hle
    have hagain := eligibleReceipts_selected (fun row hrow => (hmem row hrow).2.1.later hle)
      (fun row hrow => (hmem row hrow).2.2) hlegs
    have hfirst := firstWindow_of_selected hnodup hnonempty (coherentLegs_eq_ok.mp hsel)
      (List.perm_insertionSort laterFirst selected) (falling_insertionSort selected)
    simp only [deriveFxConversion, bind_eq_ok, throwIf_eq_ok, pure_eq_ok_iff, exists_const, not_or]
    refine ⟨⟨?_, hrest⟩, required, hreq, _, hagain, selected, coherentLegs_eq_ok.mpr hfirst, _,
      horig, evidenceHash, hdig, rfl⟩
    rw [List.length_map]
    omega

end Selection

end TsxCore.TradingFxQuotes
