import TsxCore.EntryFenceAgreement
import TsxCore.TradingStateTransitions

/-!
# Order evidence of the executor (`order_evidence.py`)

The executor merges the acknowledgements of an order as Node does
(`trading_state_transitions.ts`), over decimals and with its own chain of cases. On
canonical texts both return the same row, and either raises when the other throws.
-/

namespace TsxCore.Executor

open Outcome TradingDecimal TradingRational TradingStateTransitions

section Merge

/-- The row of an order on the side of the executor. -/
structure OrderRow where
  status : LocalOrderStatus
  quantity : String
  filledQuantity : Option String
  averagePrice : Option String

structure MergedOrder where
  status : LocalOrderStatus
  filledQuantity : Option String
  averagePrice : Option String

/-- `decimal_text` of a decimal. -/
def decimalText (number : Decimal) : String :=
  let rendered :=
    if '.' ∈ number.fixed then rstrip '.' (rstrip '0' number.fixed) else number.fixed
  if rendered = [] ∨ rendered = ['-', '0'] then "0" else .ofList rendered

/-- `max(known) if known else None`: the first of the largest ones. -/
def largest : List Decimal → Option Decimal
  | [] => none
  | first :: rest =>
    some (rest.foldl (fun best number => if best.value < number.value then number else best) first)

/-- `filled or Decimal(0)`: zero is replaced by zero. -/
def orZero : Option Decimal → Decimal
  | none => ⟨0, 0⟩
  | some number => if number.value = 0 then ⟨0, 0⟩ else number

/-- `left or right` of texts. -/
def orText (left right : Option String) : Option String :=
  match left with
  | some value => if value = "" then right else some value
  | none => right

def filledDecimal : Option String → Outcome (Option Decimal)
  | none => return none
  | some value => do
    return some (Decimal.ofText (← decimalString value "filledQuantity" false))

def averagePrice : Option String → Outcome (Option String)
  | none => return none
  | some value => do
    return some (← decimalString value "averagePrice" true)

def mergedStatus (current incoming : LocalOrderStatus) (filled quantity : Decimal) :
    Outcome LocalOrderStatus := do
  throwIf ((current = .rejected ∨ incoming = .rejected) ∧ 0 < filled.value)
    (contractError "Rejected order has conflicting execution evidence.")
  if current = .filled ∨ current = .rejected then return current
  else if current = .cancelled then
    return if incoming = .filled ∧ filled.value = quantity.value then .filled else current
  else if incoming = .filled ∨ incoming = .cancelled ∨ incoming = .rejected then return incoming
  else if current = .cancelPending then return current
  else if incoming = .unknown ∨ incoming = .cancelPending then return incoming
  else if 0 < filled.value then return .partiallyFilled
  else if (incoming = .created ∨ incoming = .submitting) ∧ current ≠ .created then return current
  else return incoming

/-- `reported >= previous`, or nothing was known before. -/
def usesNew : Option Decimal → Option Decimal → Bool
  | none, _ => true
  | some _, none => false
  | some previous, some reported => previous.value ≤ reported.value

def mergeOrderEvidence (current : OrderRow) (incoming : OrderEvidence) : Outcome MergedOrder := do
  let quantity := Decimal.ofText (← decimalString current.quantity "quantity" true)
  let previous ← filledDecimal current.filledQuantity
  let reported ← filledDecimal incoming.filledQuantity
  let filled := largest (previous.toList ++ reported.toList)
  throwIf (filled.any (fun number => quantity.value < number.value) = true)
    (contractError "Executed quantity exceeds order quantity.")
  let oldAverage ← averagePrice current.averagePrice
  let newAverage ← averagePrice incoming.averagePrice
  let status ← mergedStatus current.status incoming.status (orZero filled) quantity
  return {
    status
    filledQuantity := filled.map decimalText
    averagePrice := if usesNew previous reported then orText newAverage oldAverage else oldAverage }

/-- What the executor keeps of a row once the merge is stored. -/
def storeMerged (row : OrderRow) : Outcome MergedOrder → OrderRow
  | .ok merged => { row with
      status := merged.status
      filledQuantity := merged.filledQuantity
      averagePrice := merged.averagePrice }
  | .error _ => row

def applyAll (row : OrderRow) (evidence : List OrderEvidence) : OrderRow :=
  evidence.foldl (fun row incoming => storeMerged row (mergeOrderEvidence row incoming)) row

end Merge

section Values

variable {u v : ℕ} {label : String}

theorem decimalString_text {positive : Bool} {t : String} (hu : u < unitLimit) :
    decimalString (text u) label positive = .ok t ↔ (positive = true → 0 < u) ∧ t = text u := by
  rw [decimalString_ok_iff]
  refine ⟨?_, ?_⟩
  · rintro ⟨w, hw, hpos, rfl⟩
    obtain ⟨rfl, -⟩ := denotes_text_iff.mp hw
    exact ⟨hpos, rfl⟩
  · rintro ⟨hpos, rfl⟩
    exact ⟨u, denotes_text hu, hpos, rfl⟩

theorem value_text (hu : u < unitLimit) : (Decimal.ofText (text u)).value = unitValue u :=
  value_ofText (denotes_text hu)

theorem value_lt_iff (hu : u < unitLimit) (hv : v < unitLimit) :
    (Decimal.ofText (text u)).value < (Decimal.ofText (text v)).value ↔ u < v := by
  rw [value_text hu, value_text hv, unitValue_lt_iff, Nat.cast_lt]

theorem value_le_iff (hu : u < unitLimit) (hv : v < unitLimit) :
    (Decimal.ofText (text u)).value ≤ (Decimal.ofText (text v)).value ↔ u ≤ v := by
  rw [value_text hu, value_text hv, unitValue_le_iff, Nat.cast_le]

theorem value_pos_iff (hu : u < unitLimit) : 0 < (Decimal.ofText (text u)).value ↔ 0 < u := by
  rw [value_text hu, unitValue_pos_iff]

theorem value_eq_iff (hu : u < unitLimit) (hv : v < unitLimit) :
    (Decimal.ofText (text u)).value = (Decimal.ofText (text v)).value ↔ u = v := by
  rw [value_text hu, value_text hv]
  refine ⟨?_, ?_⟩
  · intro h
    exact_mod_cast unitValue_injective h
  · rintro rfl
    rfl

theorem decimalText_text (hu : u < unitLimit) : decimalText (Decimal.ofText (text u)) = text u := by
  have hplain := (@decimalString_text u "" false (text u) hu).mpr ⟨by simp, rfl⟩
  simp only [decimalString, bind_eq_ok, pure_eq_ok_iff] at hplain
  obtain ⟨-, -, -, -, hnormal⟩ := hplain
  have hsigned : text u ≠ "-0" := by
    intro h
    have hbad : (parse "-0").toOption = none := by decide
    obtain ⟨p, hp, -⟩ := h ▸ denotes_text hu
    rw [hp] at hbad
    cases hbad
  rw [decimalText]
  by_cases hempty : (if '.' ∈ (Decimal.ofText (text u)).fixed then
      rstrip '.' (rstrip '0' (Decimal.ofText (text u)).fixed)
      else (Decimal.ofText (text u)).fixed) = []
  · rw [if_pos hempty] at hnormal
    rw [if_pos (.inl hempty), hnormal]
  · rw [if_neg hempty] at hnormal
    rw [if_neg, hnormal]
    rintro (h | h)
    · exact hempty h
    · rw [h] at hnormal
      exact hsigned hnormal.symm

theorem text_ne_empty (u : ℕ) : text u ≠ "" := by
  intro h
  have hchars := congrArg String.toList h
  rw [text_eq_canonical, String.toList_ofList] at hchars
  exact TradingDecimal.numeral_ne_nil _ _ hchars

end Values

section Agreement

variable {price normalized : Option String} {r : Option ℕ}

def ofNode (row : LocalOrderEvidence) : OrderRow :=
  ⟨row.status, row.quantity, some row.filledQuantity, row.averagePrice⟩

def ofMerged (merged : MergedEvidence) : MergedOrder :=
  ⟨merged.status, some merged.filledQuantity, merged.averagePrice⟩

/-- A row whose texts are canonical decimals and whose quantity is positive. -/
structure CanonicalRow (row : LocalOrderEvidence) : Prop where
  quantity : Canonical row.quantity
  positive : row.quantity ≠ "0"
  filledQuantity : Canonical row.filledQuantity
  averagePrice : ∀ price ∈ row.averagePrice, Canonical price

structure CanonicalEvidence (incoming : OrderEvidence) : Prop where
  filledQuantity : ∀ filled ∈ incoming.filledQuantity, Canonical filled
  averagePrice : ∀ price ∈ incoming.averagePrice, Canonical price

variable {row : LocalOrderEvidence} {incoming : OrderEvidence}

theorem averagePrice_eq (h : ∀ value ∈ price, Canonical value) :
    averagePrice price = .ok normalized ↔ optionalPrice price = .ok normalized := by
  cases price with
  | none => rfl
  | some value =>
    obtain ⟨u, hu, rfl⟩ := canonical_iff.mp (h value rfl)
    simp only [averagePrice, optionalPrice, bind_eq_ok, pure_eq_ok_iff, decimalString_text hu,
      decimal_text hu, forall_const]
    refine exists_congr (fun s => ?_)
    rw [and_congr_left_iff]
    rintro -
    rw [eq_comm]

theorem orText_eq {old : Option String} (h : optionalPrice price = .ok normalized) :
    orText normalized old = normalized.or old := by
  cases price with
  | none =>
    obtain rfl := pure_eq_ok_iff.mp h
    rfl
  | some value =>
    simp only [optionalPrice, bind_eq_ok, pure_eq_ok_iff, decimal_positive_ok_iff] at h
    obtain ⟨_, ⟨u, -, -, rfl⟩, rfl⟩ := h
    rw [orText, if_neg (text_ne_empty u)]
    rfl

theorem filledDecimal_text {u : ℕ} (hu : u < unitLimit) :
    filledDecimal (some (text u)) = .ok (some (Decimal.ofText (text u))) := by
  rw [filledDecimal, (decimalString_text hu).mpr ⟨by simp, rfl⟩]
  rfl

theorem mergedStatus_iff {current incoming status : LocalOrderStatus} {f q : ℕ}
    (hf : f < unitLimit) (hq : q < unitLimit) :
    mergedStatus current incoming (orZero (some (Decimal.ofText (text f))))
        (Decimal.ofText (text q)) = .ok status ↔
      ¬ ((current = .rejected ∨ incoming = .rejected) ∧ 0 < f) ∧
        nextStatus current incoming (0 < f) (f = q) = status := by
  have hvalue : (orZero (some (Decimal.ofText (text f)))).value =
    (Decimal.ofText (text f)).value := by
    rw [orZero]
    split_ifs with hzero
    · rw [hzero]
      simp [Decimal.value]
    · rfl
  simp only [mergedStatus, hvalue, value_pos_iff hf, value_eq_iff hf hq, bind_eq_ok, throwIf_eq_ok,
    exists_const]
  apply and_congr_right
  intro _
  -- both chains end in the same row of the table
  by_cases hexec : 0 < f
  · cases current <;> cases incoming <;> simp [nextStatus, hexec]
  · cases current <;> cases incoming <;> simp [nextStatus, hexec]

theorem filledDecimal_map (hr : ∀ x ∈ r, x < unitLimit) :
    filledDecimal (r.map text) = .ok (r.map (fun x => Decimal.ofText (text x))) := by
  cases r with
  | none => rfl
  | some x => exact filledDecimal_text (hr x rfl)

theorem largest_text {f : ℕ} (hf : f < unitLimit) (hr : ∀ x ∈ r, x < unitLimit) :
    largest ((some (Decimal.ofText (text f))).toList ++
      (r.map (fun x => Decimal.ofText (text x))).toList) =
        some (Decimal.ofText (text (executedUnits f r))) := by
  cases r with
  | none => rfl
  | some x =>
    have hlt := value_lt_iff hf (hr x rfl)
    by_cases hgrown : f < x
    · simp [largest, executedUnits, hlt, hgrown, max_eq_right hgrown.le]
    · simp [largest, executedUnits, hlt, hgrown, max_eq_left (not_lt.mp hgrown)]

theorem usesNew_text {f : ℕ} (hf : f < unitLimit) (hr : ∀ x ∈ r, x < unitLimit) :
    usesNew (some (Decimal.ofText (text f))) (r.map (fun x => Decimal.ofText (text x))) =
      decide (∃ x ∈ r, f ≤ x) := by
  cases r with
  | none => simp [usesNew]
  | some x => simp [usesNew, value_le_iff hf (hr x rfl)]

theorem rel_reads_text {r' : Option ℕ} (hr : ∀ x ∈ r, x < unitLimit) :
    Option.Rel Reads (r.map text) r' ↔ r = r' := by
  refine ⟨?_, ?_⟩
  · intro h
    cases r with
    | none =>
      cases h
      rfl
    | some x =>
      cases h with
      | some hx => rw [(reads_text_iff.mp hx).1]
  · rintro rfl
    cases r with
    | none => exact .none
    | some x => exact .some (reads_text_iff.mpr ⟨rfl, hr x rfl⟩)

theorem exists_reports (h : ∀ filled ∈ incoming.filledQuantity, Canonical filled) :
    ∃ r : Option ℕ, (∀ x ∈ r, x < unitLimit) ∧ incoming.filledQuantity = r.map text := by
  cases hfilled : incoming.filledQuantity with
  | none => exact ⟨none, by simp, rfl⟩
  | some filled =>
    obtain ⟨x, hx, rfl⟩ := canonical_iff.mp (h filled hfilled)
    exact ⟨some x, by simpa using hx, rfl⟩

theorem mergeOrderEvidence_iff {result : MergedOrder} (hrow : CanonicalRow row)
    (hincoming : CanonicalEvidence incoming) :
    mergeOrderEvidence (ofNode row) incoming = .ok result ↔
      ∃ merged, TradingStateTransitions.mergeOrderEvidence row incoming = .ok merged ∧
        result = ofMerged merged := by
  obtain ⟨q, hq, hqty⟩ := canonical_iff.mp hrow.quantity
  obtain ⟨f, hf, hfilled⟩ := canonical_iff.mp hrow.filledQuantity
  obtain ⟨r, hr, hrep⟩ := exists_reports hincoming.filledQuantity
  have helt : executedUnits f r < unitLimit := by
    cases r with
    | none => exact hf
    | some x => exact max_lt hf (hr x rfl)
  have hpositive : 0 < q := by
    refine Nat.pos_of_ne_zero (fun hzero => hrow.positive ?_)
    rw [hqty, hzero]
    exact text_eq_zero.mpr rfl
  -- What the executor computes from the quanta behind the texts.
  have hexecutor : mergeOrderEvidence (ofNode row) incoming = .ok result ↔
      ∃ old new, optionalPrice row.averagePrice = .ok old ∧
        optionalPrice incoming.averagePrice = .ok new ∧ executedUnits f r ≤ q ∧
        ¬ ((row.status = .rejected ∨ incoming.status = .rejected) ∧ 0 < executedUnits f r) ∧
        result = ⟨nextStatus row.status incoming.status (0 < executedUnits f r)
          (executedUnits f r = q), some (text (executedUnits f r)),
          if ∃ x ∈ r, f ≤ x then new.or old else old⟩ := by
    have hdec : decimalString (text q) "quantity" true = .ok (text q) :=
      (decimalString_text hq).mpr ⟨fun _ => hpositive, rfl⟩
    simp only [mergeOrderEvidence, ofNode, hqty, hfilled, hrep, hdec, ok_bind,
      filledDecimal_text hf, filledDecimal_map hr, largest_text hf hr, bind_eq_ok, throwIf_eq_ok,
      averagePrice_eq hrow.averagePrice, averagePrice_eq hincoming.averagePrice,
      mergedStatus_iff helt hq, usesNew_text hf hr, pure_eq_ok_iff, Option.any_some,
      decide_eq_true_eq, value_lt_iff hq helt, not_lt, Option.map_some, decimalText_text helt]
    refine ⟨?_, ?_⟩
    · rintro ⟨-, hle, old, hold, new, hnew, status, ⟨hreject, rfl⟩, rfl⟩
      refine ⟨old, new, hold, hnew, hle, hreject, ?_⟩
      rw [orText_eq hnew]
    · rintro ⟨old, new, hold, hnew, hle, hreject, rfl⟩
      refine ⟨(), hle, old, hold, new, hnew, _, ⟨hreject, rfl⟩, ?_⟩
      rw [orText_eq hnew]
  rw [hexecutor]
  simp only [mergeOrderEvidence_ok_iff]
  refine ⟨?_, ?_⟩
  · rintro ⟨old, new, hold, hnew, hle, hreject, rfl⟩
    refine ⟨⟨nextStatus row.status incoming.status (0 < executedUnits f r) (executedUnits f r = q),
      text (executedUnits f r), if ∃ x ∈ r, f ≤ x then new.or old else old⟩,
      ⟨q, f, r, old, new, ?_⟩, rfl⟩
    exact {
      quantity := by rw [hqty]; exact reads_text_iff.mpr ⟨rfl, hq⟩
      quantity_pos := hpositive
      filled := by rw [hfilled]; exact reads_text_iff.mpr ⟨rfl, hf⟩
      reported := by rw [hrep]; exact (rel_reads_text hr).mpr rfl
      oldAverage := hold
      newAverage := hnew
      executed_le := hle
      not_rejected := hreject
      status := rfl
      filledQuantity := rfl
      averagePrice := rfl }
  · rintro ⟨merged, ⟨q', f', r', old, new, h⟩, rfl⟩
    obtain ⟨rfl, -⟩ := reads_text_iff.mp (hqty ▸ h.quantity)
    obtain ⟨rfl, -⟩ := reads_text_iff.mp (hfilled ▸ h.filled)
    obtain rfl := (rel_reads_text hr).mp (hrep ▸ h.reported)
    refine ⟨old, new, h.oldAverage, h.newAverage, h.executed_le, h.not_rejected, ?_⟩
    rw [ofMerged, h.status, h.filledQuantity, h.averagePrice]

theorem mergeOrderEvidence_ofMerged {merged : MergedEvidence} (hrow : CanonicalRow row)
    (hincoming : CanonicalEvidence incoming)
    (h : TradingStateTransitions.mergeOrderEvidence row incoming = .ok merged) :
    mergeOrderEvidence (ofNode row) incoming = .ok (ofMerged merged) :=
  (mergeOrderEvidence_iff hrow hincoming).mpr ⟨merged, h, rfl⟩

theorem mergeOrderEvidence_error_iff (hrow : CanonicalRow row)
    (hincoming : CanonicalEvidence incoming) :
    (∃ e, mergeOrderEvidence (ofNode row) incoming = .error e) ↔
      ∃ e, TradingStateTransitions.mergeOrderEvidence row incoming = .error e := by
  cases hnode : TradingStateTransitions.mergeOrderEvidence row incoming with
  | ok merged => simp [mergeOrderEvidence_ofMerged hrow hincoming hnode]
  | error e =>
    cases hexecutor : mergeOrderEvidence (ofNode row) incoming with
    | error e' => simp
    | ok result =>
      obtain ⟨merged, hmerged, -⟩ := (mergeOrderEvidence_iff hrow hincoming).mp hexecutor
      rw [hnode] at hmerged
      cases hmerged

theorem optionalPrice_canonical (h : optionalPrice price = .ok normalized) :
    ∀ value ∈ normalized, Canonical value := by
  intro value hvalue
  cases price with
  | none =>
    rw [← pure_eq_ok_iff.mp h] at hvalue
    cases hvalue
  | some original =>
    simp only [optionalPrice, bind_eq_ok, pure_eq_ok_iff, decimal_positive_ok_iff] at h
    obtain ⟨_, ⟨u, hu, -, rfl⟩, rfl⟩ := h
    obtain rfl := Option.mem_some_iff.mp hvalue
    exact canonical_iff.mpr ⟨u, Denotes.lt hu, rfl⟩

theorem applyEvidence_canonical (hrow : CanonicalRow row) :
    CanonicalRow (applyEvidence row incoming) := by
  rcases applyEvidence_cases row incoming with
    ⟨-, hsame⟩ | ⟨merged, q, f, r, old, new, -, h, hstored⟩
  · rw [hsame]
    exact hrow
  · rw [hstored]
    refine ⟨hrow.quantity, hrow.positive, ?_, ?_⟩
    · rw [TradingStateTransitions.storeMerged, h.filledQuantity]
      exact canonical_iff.mpr ⟨_, h.executed_le.trans_lt (Denotes.lt h.quantity), rfl⟩
    · rw [TradingStateTransitions.storeMerged, h.averagePrice]
      intro value hvalue
      split_ifs at hvalue
      · rcases Option.or_eq_some_iff.mp hvalue with hnew | ⟨-, hold⟩
        · exact optionalPrice_canonical h.newAverage value hnew
        · exact optionalPrice_canonical h.oldAverage value hold
      · exact optionalPrice_canonical h.oldAverage value hvalue

theorem storeMerged_ofNode (hrow : CanonicalRow row) (hincoming : CanonicalEvidence incoming) :
    storeMerged (ofNode row) (mergeOrderEvidence (ofNode row) incoming) =
      ofNode (applyEvidence row incoming) := by
  rw [applyEvidence]
  cases hnode : TradingStateTransitions.mergeOrderEvidence row incoming with
  | ok merged =>
    rw [mergeOrderEvidence_ofMerged hrow hincoming hnode]
    rfl
  | error e =>
    obtain ⟨e', herror⟩ := (mergeOrderEvidence_error_iff hrow hincoming).mpr ⟨e, hnode⟩
    rw [herror]
    rfl

theorem applyAll_ofNode {evidence : List OrderEvidence} (hrow : CanonicalRow row)
    (hev : ∀ incoming ∈ evidence, CanonicalEvidence incoming) :
    applyAll (ofNode row) evidence = ofNode (TradingStateTransitions.applyAll row evidence) := by
  induction evidence generalizing row with
  | nil => rfl
  | cons incoming evidence ih =>
    rw [List.forall_mem_cons] at hev
    rw [applyAll_cons, applyAll, List.foldl_cons, storeMerged_ofNode hrow hev.1]
    exact ih (applyEvidence_canonical hrow) hev.2

/-- Node and the executor merge order evidence alike, one acknowledgement or any series of them. -/
theorem order_evidence_agrees (row : LocalOrderEvidence) (hrow : CanonicalRow row) :
    (∀ incoming, CanonicalEvidence incoming →
      ((∃ e, mergeOrderEvidence (ofNode row) incoming = .error e) ↔
        ∃ e, TradingStateTransitions.mergeOrderEvidence row incoming = .error e) ∧
      ∀ merged, TradingStateTransitions.mergeOrderEvidence row incoming = .ok merged →
        mergeOrderEvidence (ofNode row) incoming = .ok (ofMerged merged)) ∧
    ∀ evidence, (∀ incoming ∈ evidence, CanonicalEvidence incoming) →
      applyAll (ofNode row) evidence = ofNode (TradingStateTransitions.applyAll row evidence) :=
  ⟨fun _ hincoming => ⟨mergeOrderEvidence_error_iff hrow hincoming,
      fun _ h => mergeOrderEvidence_ofMerged hrow hincoming h⟩,
    fun _ hev => applyAll_ofNode hrow hev⟩

/-- A complete report after a cancellation. -/
theorem order_evidence_agrees_late_fill :
    mergeOrderEvidence (ofNode ⟨.cancelled, "2", "0.5", some "100"⟩)
      ⟨.filled, some "2", some "101"⟩ =
      .ok (ofMerged ⟨.filled, "2", some "101"⟩) := by
  have hrow : CanonicalRow ⟨.cancelled, "2", "0.5", some "100"⟩ :=
    ⟨by decide +kernel, by decide, by decide +kernel, by
      intro price hprice
      obtain rfl := Option.mem_some_iff.mp hprice
      decide +kernel⟩
  have hincoming : CanonicalEvidence ⟨.filled, some "2", some "101"⟩ := by
    refine ⟨?_, ?_⟩
    · intro filled hfilled
      obtain rfl := Option.mem_some_iff.mp hfilled
      decide +kernel
    · intro price hprice
      obtain rfl := Option.mem_some_iff.mp hprice
      decide +kernel
  have hnode : TradingStateTransitions.mergeOrderEvidence ⟨.cancelled, "2", "0.5", some "100"⟩
      ⟨.filled, some "2", some "101"⟩ = .ok ⟨.filled, "2", some "101"⟩ := by decide +kernel
  exact ((order_evidence_agrees _ hrow).1 _ hincoming).2 _ hnode

end Agreement

end TsxCore.Executor
