import TsxCore.FxConversionSelection
import TsxCore.LatestWindow

/-!
# What the loop over the observations keeps

Of the eligible receipts the loop keeps, for each leg and response time, one with the least hash,
or fails where two of them disagree in value. Which it keeps does not depend on their order or
on how often they occur, up to receipts of one leg, time and hash.
-/

namespace TsxCore.TradingFxQuotes

open Outcome TradingDecimal FirstWindow
open TradingFx (FxContext)

variable {sha256 : String → String} {now : ℤ} {context : FxContext}
  {values values' : List (Json ℚ)} {required : List String} {asOf : ℤ}
  {receipts : Set FxLegReceipt} {rows kept kept' : List FxLegReceipt} {row other : FxLegReceipt}

def conflict : Thrown := invalidFx "QUOTE_CONFLICT"

/-- Receipts of one leg and response time agree in value. -/
def Agree (receipts : Set FxLegReceipt) : Prop :=
  ∀ row ∈ receipts, ∀ other ∈ receipts, row.observation = other.observation →
    decimalValue row.value = decimalValue other.value

/-- One receipt for each observation, with the least hash of its observation. -/
structure Observed (receipts : Set FxLegReceipt) (kept : List FxLegReceipt) : Prop where
  mem : ∀ row ∈ kept, row ∈ receipts
  nodup : (kept.map (·.observation)).Nodup
  least : ∀ row ∈ receipts, ∃ first ∈ kept, first.observation = row.observation ∧
    first.receiptHash ≤ row.receiptHash ∧ decimalValue first.value = decimalValue row.value

theorem Observed.eq_of_observation (h : Observed receipts kept) (hrow : row ∈ kept)
    (hother : other ∈ kept) (heq : row.observation = other.observation) : row = other :=
  List.inj_on_of_nodup_map h.nodup hrow hother heq

theorem Observed.agree (h : Observed receipts kept) : Agree receipts := by
  intro row hrow other hother heq
  obtain ⟨first, hfirst, hobsn, -, hvalue⟩ := h.least row hrow
  obtain ⟨second, hsnd, hobsn', -, hvalue'⟩ := h.least other hother
  have hsame := h.eq_of_observation hfirst hsnd (by rw [hobsn, heq, hobsn'])
  rw [← hvalue, hsame, hvalue']

theorem Observed.perm (h : Observed receipts kept) (hperm : kept'.Perm kept) :
    Observed receipts kept' := by
  refine ⟨fun row hrow => h.mem row (hperm.mem_iff.mp hrow), ?_, ?_⟩
  · rw [(hperm.map _).nodup_iff]
    exact h.nodup
  · intro row hrow
    obtain ⟨first, hfirst, hleast⟩ := h.least row hrow
    exact ⟨first, hperm.mem_iff.mpr hfirst, hleast⟩

theorem Observed.insert_new (h : Observed receipts kept)
    (hnew : ∀ prior ∈ kept, prior.observation ≠ row.observation) :
    Observed (insert row receipts) (kept ++ [row]) := by
  refine ⟨?_, ?_, ?_⟩
  · intro prior hprior
    rcases List.mem_append.mp hprior with hmem | hmem
    · exact .inr (h.mem prior hmem)
    · exact .inl (List.mem_singleton.mp hmem)
  · rw [List.map_append, List.map_singleton, List.nodup_append]
    refine ⟨h.nodup, List.nodup_singleton _, ?_⟩
    rintro _ hmem _ hrow rfl
    obtain ⟨prior, hprior, heq⟩ := List.mem_map.mp hmem
    exact hnew prior hprior (heq.trans (List.mem_singleton.mp hrow))
  · rintro other (rfl | hother)
    · exact ⟨other, by simp, rfl, le_rfl, rfl⟩
    · obtain ⟨first, hfirst, hleast⟩ := h.least other hother
      exact ⟨first, List.mem_append_left _ hfirst, hleast⟩

theorem Observed.insert_kept (h : Observed receipts kept) {prior : FxLegReceipt}
    (hprior : prior ∈ kept) (hobsn : prior.observation = row.observation)
    (hle : prior.receiptHash ≤ row.receiptHash)
    (hvalue : decimalValue prior.value = decimalValue row.value) :
    Observed (insert row receipts) kept := by
  refine ⟨fun other hother => .inr (h.mem other hother), h.nodup, ?_⟩
  rintro other (rfl | hother)
  · exact ⟨prior, hprior, hobsn, hle, hvalue⟩
  · exact h.least other hother

theorem Observed.insert_replaced (h : Observed receipts kept) {prior : FxLegReceipt}
    (hprior : prior ∈ kept) (hobsn : prior.observation = row.observation)
    (hlt : row.receiptHash < prior.receiptHash)
    (hvalue : decimalValue prior.value = decimalValue row.value) :
    Observed (insert row receipts)
      (kept.map (fun other => if other.observation = row.observation then row else other)) := by
  have hplaced : row ∈
      kept.map (fun other => if other.observation = row.observation then row else other) :=
    List.mem_map.mpr ⟨prior, hprior, if_pos hobsn⟩
  refine ⟨?_, ?_, ?_⟩
  · intro other hother
    obtain ⟨old, hold, heq⟩ := List.mem_map.mp hother
    split_ifs at heq
    · exact .inl heq.symm
    · exact .inr (heq ▸ h.mem old hold)
  · have hmap : (kept.map (fun other =>
        if other.observation = row.observation then row else other)).map (·.observation) =
          kept.map (·.observation) := by
      rw [List.map_map]
      apply List.map_congr_left
      intro other _
      by_cases heq : other.observation = row.observation
      · simp [heq]
      · simp [heq]
    rw [hmap]
    exact h.nodup
  · rintro other (rfl | hother)
    · exact ⟨other, hplaced, rfl, le_rfl, rfl⟩
    · obtain ⟨first, hfirst, hsame, hle, hequal⟩ := h.least other hother
      by_cases heq : first.observation = row.observation
      · obtain rfl := h.eq_of_observation hfirst hprior (heq.trans hobsn.symm)
        exact ⟨row, hplaced, heq.symm.trans hsame, hlt.le.trans hle, hvalue.symm.trans hequal⟩
      · exact ⟨first, List.mem_map.mpr ⟨first, hfirst, if_neg heq⟩, hsame, hle, hequal⟩

theorem observe_cases (h : Observed receipts kept)
    (hdenotes : ∀ row ∈ receipts, ∃ u, Denotes row.value u) (hrow : ∃ u, Denotes row.value u) :
    (∃ next, observe kept row = .ok next ∧ Observed (insert row receipts) next) ∨
      (observe kept row = .error conflict ∧ ¬ Agree (insert row receipts)) := by
  cases hfind : kept.find? (fun prior => prior.observation = row.observation) with
  | none =>
    left
    have hnew : ∀ prior ∈ kept, prior.observation ≠ row.observation := by
      simpa using List.find?_eq_none.mp hfind
    exact ⟨kept ++ [row], by rw [observe, hfind], h.insert_new hnew⟩
  | some prior =>
    have hprior := List.mem_of_find?_eq_some hfind
    have hobsn : prior.observation = row.observation := by
      simpa using List.find?_some hfind
    obtain ⟨u, hu⟩ := hdenotes prior (h.mem prior hprior)
    obtain ⟨v, hv⟩ := hrow
    obtain ⟨order, horder⟩ : ∃ order, compareDecimal prior.value row.value = .ok order :=
      ⟨_, compareDecimal_ok_iff.mpr ⟨u, v, hu, hv, rfl⟩⟩
    by_cases hzero : order = 0
    · left
      have hvalue := (compareDecimal_eq_zero horder).mp hzero
      have hcase : observe kept row = .ok (if row.receiptHash < prior.receiptHash then
          kept.map (fun other => if other.observation = row.observation then row else other)
          else kept) := by
        simp only [observe, hfind, horder, ok_bind]
        rw [throwIf_of_not (not_not.mpr hzero), ok_bind]
        rfl
      refine ⟨_, hcase, ?_⟩
      by_cases hlt : row.receiptHash < prior.receiptHash
      · rw [if_pos hlt]
        exact h.insert_replaced hprior hobsn hlt hvalue
      · rw [if_neg hlt]
        exact h.insert_kept hprior hobsn (not_lt.mp hlt) hvalue
    · right
      constructor
      · simp only [observe, hfind, horder, ok_bind, throwIf, if_pos hzero]
        rfl
      · intro hagree
        apply hzero
        rw [compareDecimal_eq_zero horder]
        exact hagree prior (.inr (h.mem prior hprior)) row (.inl rfl) hobsn

theorem not_agree_of_subset {larger : Set FxLegReceipt} (hsub : receipts ⊆ larger)
    (h : ¬ Agree receipts) : ¬ Agree larger :=
  fun hagree => h (fun row hrow other hother => hagree row (hsub hrow) other (hsub hother))

theorem foldlM_observe_cases (h : Observed receipts kept)
    (hdenotes : ∀ row ∈ receipts ∪ {row | row ∈ rows}, ∃ u, Denotes row.value u) :
    (∃ next, rows.foldlM observe kept = .ok next ∧
        Observed (receipts ∪ {row | row ∈ rows}) next) ∨
      (rows.foldlM observe kept = .error conflict ∧ ¬ Agree (receipts ∪ {row | row ∈ rows})) := by
  induction rows generalizing receipts kept with
  | nil =>
    left
    refine ⟨kept, rfl, ?_⟩
    simpa using h
  | cons row rows ih =>
    have hunion : receipts ∪ {other | other ∈ row :: rows} =
        insert row receipts ∪ {other | other ∈ rows} := by
      ext other
      simp only [Set.mem_union, Set.mem_insert_iff, Set.mem_ofPred_eq, List.mem_cons]
      tauto
    rw [hunion] at hdenotes ⊢
    rw [List.foldlM_cons]
    have hstep := observe_cases h (fun other hother => hdenotes other (.inl (.inr hother)))
      (hdenotes row (.inl (.inl rfl)))
    rcases hstep with ⟨next, hnext, hobs⟩ | ⟨herror, hconf⟩
    · rw [hnext, ok_bind]
      exact ih hobs hdenotes
    · right
      rw [herror]
      exact ⟨rfl, not_agree_of_subset Set.subset_union_left hconf⟩

section Eligible

/-- Every value is accepted by `validateFxLegReceipt`. -/
def Accepted (sha256 : String → String) (now : ℤ) (context : FxContext) (values : List (Json ℚ)) :
    Prop :=
  ∀ value ∈ values, ∃ row, validReceipt sha256 now context value = .ok row

theorem FxLegReceipt.json_inj {row other : FxLegReceipt} : row.json = other.json ↔ row = other := by
  cases row
  cases other
  simp [FxLegReceipt.json]

/-- The receipts of the required legs that are at most ten seconds old. -/
def eligibleSet (values : List (Json ℚ)) (required : List String) (asOf : ℤ) : Set FxLegReceipt :=
  {row | row.json ∈ values ∧ eligible required asOf row = true}

theorem Accepted.valid (h : Accepted sha256 now context values) (hrow : row.json ∈ values) :
    Valid sha256 now context row := by
  obtain ⟨other, hother⟩ := h _ hrow
  obtain ⟨hjson, hvalid⟩ := validReceipt_eq_ok.mp hother
  rwa [FxLegReceipt.json_inj.mp hjson]

theorem Accepted.exists_rows (h : Accepted sha256 now context values) :
    ∃ rows, values.mapM (validReceipt sha256 now context) = .ok rows ∧
      ∀ row, row ∈ rows ↔ row.json ∈ values := by
  induction values with
  | nil => exact ⟨[], rfl, by simp⟩
  | cons value values ih =>
    obtain ⟨row, hrow⟩ := h value List.mem_cons_self
    obtain ⟨rows, hrows, hmem⟩ := ih (fun value hvalue => h value (List.mem_cons_of_mem _ hvalue))
    obtain ⟨rfl, -⟩ := validReceipt_eq_ok.mp hrow
    refine ⟨row :: rows, ?_, ?_⟩
    · rw [List.mapM_cons, hrow, ok_bind, hrows, ok_bind]
      rfl
    · intro other
      rw [List.mem_cons, List.mem_cons, hmem, FxLegReceipt.json_inj]

/-- What the derivation selects from, in the order of falling times, or its conflict. -/
theorem eligibleReceipts_cases (h : Accepted sha256 now context values) :
    (∃ kept, eligibleReceipts sha256 now values required asOf context = .ok kept ∧
        Observed (eligibleSet values required asOf) kept ∧
        kept.Pairwise (fun a b => b.providerResponseAt ≤ a.providerResponseAt)) ∨
      (eligibleReceipts sha256 now values required asOf context = .error conflict ∧
        ¬ Agree (eligibleSet values required asOf)) := by
  obtain ⟨rows, hrows, hmem⟩ := h.exists_rows
  have hset : ∅ ∪ {row | row ∈ rows.filter (eligible required asOf)} =
      eligibleSet values required asOf := by
    ext row
    simp only [Set.empty_union, Set.mem_ofPred_eq, List.mem_filter, hmem, eligibleSet]
  have hempty : Observed ∅ [] := ⟨by simp, List.nodup_nil, by simp⟩
  have hdenotes : ∀ row ∈ ∅ ∪ {row | row ∈ rows.filter (eligible required asOf)},
      ∃ u, Denotes row.value u := by
    rw [hset]
    intro row hrow
    exact (h.valid hrow.1).denotes
  rw [eligibleReceipts, hrows, ok_bind]
  rcases foldlM_observe_cases hempty hdenotes with ⟨next, hnext, hobs⟩ | ⟨herror, hconf⟩
  · left
    rw [hset] at hobs
    refine ⟨next.insertionSort laterFirst, ?_, hobs.perm (List.perm_insertionSort _ _),
      falling_insertionSort next⟩
    rw [hnext, ok_bind]
    rfl
  · right
    rw [hset] at hconf
    rw [herror]
    exact ⟨rfl, hconf⟩

end Eligible

section Arrival

/-- Receipts that the derivation does not tell apart. -/
structure Twin (row other : FxLegReceipt) : Prop where
  observation : row.observation = other.observation
  receiptHash : row.receiptHash = other.receiptHash
  value : decimalValue row.value = decimalValue other.value

theorem Observed.receiptHash_le (h : Observed receipts kept) (h' : Observed receipts kept')
    (hrow : row ∈ kept) (hother : other ∈ kept') (heq : row.observation = other.observation) :
    row.receiptHash ≤ other.receiptHash := by
  obtain ⟨first, hfirst, hobsn, hle, -⟩ := h.least other (h'.mem other hother)
  rwa [h.eq_of_observation hfirst hrow (hobsn.trans heq.symm)] at hle

theorem Observed.twin (h : Observed receipts kept) (h' : Observed receipts kept')
    (hrow : row ∈ kept) (hother : other ∈ kept') (heq : row.observation = other.observation) :
    Twin row other where
  observation := heq
  receiptHash := le_antisymm (h.receiptHash_le h' hrow hother heq)
    (h'.receiptHash_le h hother hrow heq.symm)
  value := h.agree row (h.mem row hrow) other (h'.mem other hother) heq

theorem Observed.exists_iff (h : Observed receipts kept) (leg : String) (time : ℤ) :
    (∃ row ∈ kept, row.legId = leg ∧ row.providerResponseAt = time) ↔
      ∃ row ∈ receipts, row.legId = leg ∧ row.providerResponseAt = time := by
  constructor
  · rintro ⟨row, hrow, hflds⟩
    exact ⟨row, h.mem row hrow, hflds⟩
  · rintro ⟨row, hrow, rfl, rfl⟩
    obtain ⟨first, hfirst, hobsn, -⟩ := h.least row hrow
    exact ⟨first, hfirst, congrArg Prod.fst hobsn, congrArg Prod.snd hobsn⟩

theorem forall₂_of_map_eq {A B : Type} {f : A → B} {R : A → A → Prop} {as bs : List A}
    (hmap : as.map f = bs.map f) (h : ∀ a ∈ as, ∀ b ∈ bs, f a = f b → R a b) :
    List.Forall₂ R as bs := by
  induction as generalizing bs with
  | nil =>
    rw [List.map_nil, eq_comm, List.map_eq_nil_iff] at hmap
    rw [hmap]
    exact .nil
  | cons a as ih =>
    cases bs with
    | nil => cases hmap
    | cons b bs =>
      rw [List.map_cons, List.map_cons, List.cons.injEq] at hmap
      refine .cons (h a List.mem_cons_self b List.mem_cons_self hmap.1) (ih hmap.2 ?_)
      intro x hx y hy
      exact h x (List.mem_cons_of_mem _ hx) y (List.mem_cons_of_mem _ hy)

end Arrival

end TsxCore.TradingFxQuotes
