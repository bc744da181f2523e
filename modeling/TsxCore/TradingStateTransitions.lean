import TsxCore.DecimalUnits

/-!
# Order evidence (`trading_state_transitions.ts`)

Acknowledgements of an order arrive delayed, duplicated and out of order. The
status and the cumulative execution are merged independently: the execution is
the largest one reported, and the status moves along the order lifecycle.
-/

namespace TsxCore.TradingStateTransitions

open Outcome TradingDecimal

variable {f : ℕ} {row : LocalOrderEvidence} {incoming : OrderEvidence} {r : Option ℕ}
  {merged : MergedEvidence}

inductive LocalOrderStatus
  | created
  | submitting
  | «open»
  | partiallyFilled
  | cancelPending
  | filled
  | cancelled
  | rejected
  | unknown
  deriving DecidableEq

structure OrderEvidence where
  status : LocalOrderStatus
  filledQuantity : Option String
  averagePrice : Option String

structure LocalOrderEvidence where
  status : LocalOrderStatus
  quantity : String
  filledQuantity : String
  averagePrice : Option String

structure MergedEvidence where
  status : LocalOrderStatus
  filledQuantity : String
  averagePrice : Option String
  deriving DecidableEq

def rejectedWithExecution (current incoming : LocalOrderStatus) (filled : String) :
    Outcome Bool := do
  if current = .rejected ∨ incoming = .rejected then
    return decide (0 < (← compareDecimal filled "0"))
  else return false

def settledThenCurrent (current : LocalOrderStatus) : Option LocalOrderStatus :=
  if current = .filled ∨ current = .rejected then some current else none

def cancelledKeepOrTakeFilled (current incoming : LocalOrderStatus) (filled quantity : String) :
    Outcome (Option LocalOrderStatus) := do
  if current ≠ .cancelled then return none
  else if incoming = .filled then
    return some (if (← compareDecimal filled quantity) = 0 then .filled else current)
  else return some current

def partialOrOpenFallback (current incoming : LocalOrderStatus) (filled : String) :
    Outcome LocalOrderStatus := do
  if 0 < (← compareDecimal filled "0") then return .partiallyFilled
  else if (incoming = .created ∨ incoming = .submitting) ∧ current ≠ .created then return current
  else return incoming

def heldTerminalStatus (current : LocalOrderStatus) : Option LocalOrderStatus :=
  if current = .cancelPending then some current else none

def incomingTerminalStatus (incoming : LocalOrderStatus) : Option LocalOrderStatus :=
  if incoming = .unknown ∨ incoming = .cancelPending then some incoming else none

def heldOrPartialStatus (current incoming : LocalOrderStatus) (filled : String) :
    Outcome LocalOrderStatus :=
  match heldTerminalStatus current with
  | some held => return held
  | none =>
    match incomingTerminalStatus incoming with
    | some terminal => return terminal
    | none => partialOrOpenFallback current incoming filled

def mergedIncomingStatus (current incoming : LocalOrderStatus) (filled : String) :
    Outcome LocalOrderStatus :=
  if incoming = .filled ∨ incoming = .cancelled ∨ incoming = .rejected then return incoming
  else heldOrPartialStatus current incoming filled

def mergedStatus (current incoming : LocalOrderStatus) (filled quantity : String) :
    Outcome LocalOrderStatus := do
  throwIf ((← rejectedWithExecution current incoming filled) = true)
    (.error "Rejected order has conflicting execution evidence.")
  match settledThenCurrent current with
  | some settled => return settled
  | none =>
    match ← cancelledKeepOrTakeFilled current incoming filled quantity with
    | some kept => return kept
    | none => mergedIncomingStatus current incoming filled

def selectedFilledQuantity (previous reported : String) : Outcome String := do
  return if 0 ≤ (← compareDecimal previous reported) then previous else reported

def incomingAverageWins (incomingFilledQuantity : Option String) (reported previous : String) :
    Outcome Bool := do
  if incomingFilledQuantity = none then return false
  else return decide (0 ≤ (← compareDecimal reported previous))

/-- `decimal(price, { positive: true })` of a price that may be absent. -/
def optionalPrice (price : Option String) : Outcome (Option String) :=
  match price with
  | none => return none
  | some value => return some (← decimal value true)

structure SelectedAverages where
  previous : String
  reported : String
  oldAverage : Option String
  newAverage : Option String

def selectedAverages (current : LocalOrderEvidence) (incoming : OrderEvidence) :
    Outcome SelectedAverages := do
  let previous ← decimal current.filledQuantity
  let reported ← match incoming.filledQuantity with
    | none => pure previous
    | some value => decimal value
  let oldAverage ← optionalPrice current.averagePrice
  let newAverage ← optionalPrice incoming.averagePrice
  return { previous, reported, oldAverage, newAverage }

def mergeOrderEvidence (current : LocalOrderEvidence) (incoming : OrderEvidence) :
    Outcome MergedEvidence := do
  let quantity ← decimal current.quantity true
  let selected ← selectedAverages current incoming
  let filledQuantity ← selectedFilledQuantity selected.previous selected.reported
  throwIf (0 < (← compareDecimal filledQuantity quantity))
    (.error "Executed quantity exceeds order quantity.")
  let status ← mergedStatus current.status incoming.status filledQuantity quantity
  let wins ← incomingAverageWins incoming.filledQuantity selected.reported selected.previous
  return {
    status
    filledQuantity
    averagePrice := if wins then selected.newAverage.or selected.oldAverage
      else selected.oldAverage }

/-- What is stored of a merge; one that throws leaves the row as it is. -/
def storeMerged (row : LocalOrderEvidence) : Outcome MergedEvidence → LocalOrderEvidence
  | .ok merged => { row with
      status := merged.status
      filledQuantity := merged.filledQuantity
      averagePrice := merged.averagePrice }
  | .error _ => row

def applyEvidence (row : LocalOrderEvidence) (incoming : OrderEvidence) : LocalOrderEvidence :=
  storeMerged row (mergeOrderEvidence row incoming)

def applyAll (row : LocalOrderEvidence) (evidence : List OrderEvidence) : LocalOrderEvidence :=
  evidence.foldl applyEvidence row

def reportOf (incoming : OrderEvidence) : Outcome MergedEvidence → List String
  | .ok _ => incoming.filledQuantity.toList
  | .error _ => []

/-- The non-null executions that accepted acknowledgements reported. -/
def acceptedReports : LocalOrderEvidence → List OrderEvidence → List String
  | _, [] => []
  | row, incoming :: rest =>
    reportOf incoming (mergeOrderEvidence row incoming) ++
      acceptedReports (applyEvidence row incoming) rest

/-- The status that follows, given whether anything and whether everything has executed. -/
def nextStatus (current incoming : LocalOrderStatus) (executed complete : Prop)
    [Decidable executed] [Decidable complete] : LocalOrderStatus :=
  match current with
  | .filled => .filled
  | .rejected => .rejected
  | .cancelled => if incoming = .filled ∧ complete then .filled else .cancelled
  | _ =>
    if incoming = .filled ∨ incoming = .cancelled ∨ incoming = .rejected then incoming
    else if current = .cancelPending then current
    else if incoming = .unknown ∨ incoming = .cancelPending then incoming
    else if executed then .partiallyFilled
    else if (incoming = .created ∨ incoming = .submitting) ∧ current ≠ .created then current
    else incoming

/-- A rejected order has nothing executed; otherwise the status follows the table. -/
theorem mergedStatus_ok_iff {current incoming status : LocalOrderStatus} {q : ℕ}
    (hf : f < unitLimit) (hq : q < unitLimit) :
    mergedStatus current incoming (text f) (text q) = .ok status ↔
      ¬ ((current = .rejected ∨ incoming = .rejected) ∧ 0 < f) ∧
        nextStatus current incoming (0 < f) (f = q) = status := by
  have hzero := compareDecimal_ok_iff.mpr ⟨f, 0, denotes_text hf, denotes_zero, rfl⟩
  have hfull := compareDecimal_ok_iff.mpr ⟨f, q, denotes_text hf, denotes_text hq, rfl⟩
  have hrejected : rejectedWithExecution current incoming (text f) =
      .ok (decide ((current = .rejected ∨ incoming = .rejected) ∧ 0 < f)) := by
    rw [rejectedWithExecution, hzero]
    by_cases hr : current = .rejected ∨ incoming = .rejected
    · simp only [hr, true_and, ok_bind, sign_pos_iff]
      rfl
    · simp only [hr, false_and, decide_false]
      rfl
  rw [mergedStatus, hrejected, ok_bind]
  simp only [bind_eq_ok, throwIf_eq_ok, decide_eq_true_eq, exists_const]
  apply and_congr_right
  intro hnone
  have hcancelled : cancelledKeepOrTakeFilled current incoming (text f) (text q) =
      .ok (if current ≠ .cancelled then none
        else some (if incoming = .filled ∧ f = q then .filled else current)) := by
    rw [cancelledKeepOrTakeFilled, hfull]
    simp only [ok_bind, sign_eq_zero_iff]
    split_ifs <;> simp_all
  have hpartial : partialOrOpenFallback current incoming (text f) =
      .ok (if 0 < f then .partiallyFilled
        else if (incoming = .created ∨ incoming = .submitting) ∧ current ≠ .created then current
        else incoming) := by
    rw [partialOrOpenFallback, hzero]
    simp only [ok_bind, sign_pos_iff]
    split_ifs <;> rfl
  simp only [hcancelled, ok_bind, mergedIncomingStatus, heldOrPartialStatus, hpartial]
  cases current <;> cases incoming <;>
    simp [settledThenCurrent, heldTerminalStatus, incomingTerminalStatus, nextStatus]

section Table

variable {current incoming : LocalOrderStatus} {executed complete : Prop} [Decidable executed]
  [Decidable complete]

theorem nextStatus_settled (h : current = .filled ∨ current = .rejected) :
    nextStatus current incoming executed complete = current := by
  rcases h with rfl | rfl <;> rfl

theorem nextStatus_cancelled :
    nextStatus .cancelled incoming executed complete = .cancelled ∨
      nextStatus .cancelled incoming executed complete = .filled ∧ complete := by
  by_cases h : incoming = .filled ∧ complete
  · exact .inr ⟨if_pos h, h.2⟩
  · exact .inl (if_neg h)

theorem nextStatus_cancelPending :
    nextStatus .cancelPending incoming executed complete = .cancelPending ∨
      nextStatus .cancelPending incoming executed complete = .filled ∨
      nextStatus .cancelPending incoming executed complete = .cancelled ∨
      nextStatus .cancelPending incoming executed complete = .rejected := by
  cases incoming <;> simp [nextStatus]

theorem nextStatus_eq_rejected (h : nextStatus current incoming executed complete = .rejected) :
    current = .rejected ∨ incoming = .rejected := by
  by_cases hexec : executed <;> by_cases hcomp : complete <;>
    cases current <;> cases incoming <;> simp_all [nextStatus]

theorem nextStatus_idem :
    nextStatus (nextStatus current incoming executed complete) incoming executed complete =
      nextStatus current incoming executed complete := by
  by_cases hexec : executed <;> by_cases hcomp : complete <;>
    cases current <;> cases incoming <;> simp [nextStatus, hexec, hcomp]

end Table

def executedUnits (filled : ℕ) (reported : Option ℕ) : ℕ := reported.elim filled (max filled)

/-- An accepted acknowledgement: the quanta behind the texts and the merged row. -/
structure Accepts (row : LocalOrderEvidence) (incoming : OrderEvidence) (merged : MergedEvidence)
    (q f : ℕ) (r : Option ℕ) (old new : Option String) : Prop where
  quantity : Reads row.quantity q
  quantity_pos : 0 < q
  filled : Reads row.filledQuantity f
  reported : Option.Rel Reads incoming.filledQuantity r
  oldAverage : optionalPrice row.averagePrice = .ok old
  newAverage : optionalPrice incoming.averagePrice = .ok new
  executed_le : executedUnits f r ≤ q
  not_rejected : ¬ ((row.status = .rejected ∨ incoming.status = .rejected) ∧ 0 < executedUnits f r)
  status : merged.status = nextStatus row.status incoming.status (0 < executedUnits f r)
    (executedUnits f r = q)
  filledQuantity : merged.filledQuantity = text (executedUnits f r)
  averagePrice : merged.averagePrice = if ∃ x ∈ r, f ≤ x then new.or old else old

theorem sign_nonneg_iff {u v : ℕ} : 0 ≤ sign u v ↔ v ≤ u := by
  rw [← not_lt, sign_neg_iff, not_lt]

theorem selectedAverages_ok_iff {selected : SelectedAverages} :
    selectedAverages row incoming = .ok selected ↔ ∃ f r old new, Reads row.filledQuantity f ∧
      Option.Rel Reads incoming.filledQuantity r ∧ optionalPrice row.averagePrice = .ok old ∧
      optionalPrice incoming.averagePrice = .ok new ∧
      selected = ⟨text f, text (r.getD f), old, new⟩ := by
  rw [selectedAverages]
  cases hreport : incoming.filledQuantity with
  | none =>
    simp only [bind_eq_ok, pure_eq_ok_iff, decimal_ok_iff]
    refine ⟨?_, ?_⟩
    · intro h
      obtain ⟨_, ⟨f, hf, rfl⟩, _, rfl, old, hold, new, hnew, rfl⟩ := h
      exact ⟨f, none, old, new, hf, .none, hold, hnew, rfl⟩
    · intro h
      obtain ⟨f, r, old, new, hf, hr, hold, hnew, rfl⟩ := h
      cases hr
      exact ⟨_, ⟨f, hf, rfl⟩, _, rfl, old, hold, new, hnew, rfl⟩
  | some report =>
    simp only [bind_eq_ok, pure_eq_ok_iff, decimal_ok_iff]
    refine ⟨?_, ?_⟩
    · intro h
      obtain ⟨_, ⟨f, hf, rfl⟩, _, ⟨x, hx, rfl⟩, old, hold, new, hnew, rfl⟩ := h
      exact ⟨f, some x, old, new, hf, .some hx, hold, hnew, rfl⟩
    · intro h
      obtain ⟨f, r, old, new, hf, hr, hold, hnew, rfl⟩ := h
      cases hr with
      | some hx => exact ⟨_, ⟨f, hf, rfl⟩, _, ⟨_, hx, rfl⟩, old, hold, new, hnew, rfl⟩

theorem executedUnits_eq (f : ℕ) (r : Option ℕ) : executedUnits f r = max f (r.getD f) := by
  cases r <;> simp [executedUnits]

theorem reported_lt {s : Option String} (h : Option.Rel Reads s r) (hf : f < unitLimit) :
    r.getD f < unitLimit := by
  cases h with
  | none => exact hf
  | some hx => exact Denotes.lt hx

theorem selectedFilledQuantity_text {x : ℕ} (hf : f < unitLimit) (hx : x < unitLimit) :
    selectedFilledQuantity (text f) (text x) = .ok (text (max f x)) := by
  rw [selectedFilledQuantity,
    compareDecimal_ok_iff.mpr ⟨f, x, denotes_text hf, denotes_text hx, rfl⟩,
    ok_bind]
  simp only [sign_nonneg_iff]
  by_cases hle : x ≤ f
  · rw [if_pos hle, max_eq_left hle]
    rfl
  · rw [if_neg hle, max_eq_right (by omega)]
    rfl

theorem incomingAverageWins_text {s : Option String} (h : Option.Rel Reads s r)
    (hf : f < unitLimit) :
    incomingAverageWins s (text (r.getD f)) (text f) = .ok (decide (∃ x ∈ r, f ≤ x)) := by
  cases h with
  | none => rfl
  | some hx =>
    rw [incomingAverageWins, if_neg (by simp), Option.getD_some,
      compareDecimal_ok_iff.mpr ⟨_, f, denotes_text (Denotes.lt hx), denotes_text hf, rfl⟩, ok_bind]
    simp only [sign_nonneg_iff, Option.mem_def, Option.some.injEq, exists_eq_left']
    rfl

theorem mergeOrderEvidence_ok_iff :
    mergeOrderEvidence row incoming = .ok merged ↔
      ∃ q f r old new, Accepts row incoming merged q f r old new := by
  simp only [mergeOrderEvidence, bind_eq_ok, decimal_positive_ok_iff, selectedAverages_ok_iff,
    throwIf_eq_ok, pure_eq_ok_iff]
  refine ⟨?_, ?_⟩
  · intro h
    obtain ⟨_, ⟨q, hq, hpos, rfl⟩, _, ⟨f, r, old, new, hf, hr, hold, hnew, rfl⟩, filled, hfilled,
      order, horder, -, hle, status, hstatus, wins, hwins, rfl⟩ := h
    have hflt := Denotes.lt hf
    rw [selectedFilledQuantity_text hflt (reported_lt hr hflt), ← executedUnits_eq] at hfilled
    cases hfilled
    have helt : executedUnits f r < unitLimit := by
      rw [executedUnits_eq]
      exact max_lt hflt (reported_lt hr hflt)
    rw [compareDecimal_ok_iff.mpr ⟨_, q, denotes_text helt, denotes_text (Denotes.lt hq), rfl⟩]
      at horder
    cases horder
    rw [sign_pos_iff, not_lt] at hle
    obtain ⟨hreject, rfl⟩ := (mergedStatus_ok_iff helt (Denotes.lt hq)).mp hstatus
    rw [incomingAverageWins_text hr hflt] at hwins
    cases hwins
    refine ⟨q, f, r, old, new, hq, hpos, hf, hr, hold, hnew, hle, hreject, rfl, rfl, ?_⟩
    simp only [decide_eq_true_eq]
  · intro h
    obtain ⟨q, f, r, old, new, h⟩ := h
    have hflt := Denotes.lt h.filled
    have helt : executedUnits f r < unitLimit := by
      rw [executedUnits_eq]
      exact max_lt hflt (reported_lt h.reported hflt)
    have hsel := selectedFilledQuantity_text hflt (reported_lt h.reported hflt)
    rw [← executedUnits_eq] at hsel
    have hcmp := compareDecimal_ok_iff.mpr
      ⟨_, q, denotes_text helt, denotes_text (Denotes.lt h.quantity), rfl⟩
    have hlimit : ¬ 0 < sign (executedUnits f r) q := by
      rw [sign_pos_iff, not_lt]
      exact h.executed_le
    have hstatus := (mergedStatus_ok_iff helt (Denotes.lt h.quantity)).mpr ⟨h.not_rejected, rfl⟩
    have hwins := incomingAverageWins_text h.reported hflt
    refine ⟨_, ⟨q, h.quantity, h.quantity_pos, rfl⟩, _, ⟨f, r, old, new, h.filled, h.reported,
      h.oldAverage, h.newAverage, rfl⟩, _, hsel, _, hcmp, (), hlimit, _, hstatus, _, hwins, ?_⟩
    obtain ⟨status, filledQuantity, averagePrice⟩ := merged
    have hs := h.status
    have hfilled := h.filledQuantity
    have haverage := h.averagePrice
    dsimp only at hs hfilled haverage
    simp only [decide_eq_true_eq, hs, hfilled, haverage]

attribute [irreducible] mergeOrderEvidence

theorem optionalPrice_idem {price normalized : Option String}
    (h : optionalPrice price = .ok normalized) : optionalPrice normalized = .ok normalized := by
  cases price with
  | none =>
    simp only [optionalPrice, pure_eq_ok_iff] at h
    rw [← h]
    rfl
  | some value =>
    simp only [optionalPrice, bind_eq_ok, pure_eq_ok_iff, decimal_positive_ok_iff] at h
    obtain ⟨_, ⟨u, hu, hpos, rfl⟩, rfl⟩ := h
    simp only [optionalPrice, bind_eq_ok, pure_eq_ok_iff, decimal_positive_ok_iff]
    exact ⟨_, ⟨u, (denotes_text (Denotes.lt hu)).reads, hpos, rfl⟩, rfl⟩

theorem Accepts.again {q : ℕ} {old new : Option String}
    (h : Accepts row incoming merged q f r old new) :
    Accepts (storeMerged row (.ok merged)) incoming merged q (executedUnits f r) r
      merged.averagePrice new := by
  have helt : executedUnits f r < unitLimit := h.executed_le.trans_lt (Denotes.lt h.quantity)
  have hsame : executedUnits (executedUnits f r) r = executedUnits f r := by
    cases r <;> simp [executedUnits]
  refine ⟨h.quantity, h.quantity_pos, ?_, h.reported, ?_, h.newAverage, ?_, ?_, ?_, ?_, ?_⟩
  · rw [storeMerged, h.filledQuantity]
    exact (denotes_text helt).reads
  · rw [storeMerged, h.averagePrice]
    split_ifs with hwins
    · cases new with
      | none => exact optionalPrice_idem h.oldAverage
      | some value => exact optionalPrice_idem h.newAverage
    · exact optionalPrice_idem h.oldAverage
  · rw [hsame]
    exact h.executed_le
  · rw [hsame]
    intro hbad
    refine h.not_rejected ⟨?_, hbad.2⟩
    rcases hbad.1 with hrejected | hrejected
    · exact nextStatus_eq_rejected (h.status.symm.trans hrejected)
    · exact .inr hrejected
  · rw [storeMerged, h.status, hsame, nextStatus_idem]
  · rw [hsame, h.filledQuantity]
  · rw [h.averagePrice]
    cases r with
    | none => simp
    | some x =>
      by_cases hle : f ≤ x
      · simp [executedUnits, hle]
        cases new <;> rfl
      · simp [executedUnits, hle]

theorem applyEvidence_cases (row : LocalOrderEvidence) (incoming : OrderEvidence) :
    ((∃ e, mergeOrderEvidence row incoming = .error e) ∧ applyEvidence row incoming = row) ∨
      ∃ merged q f r old new, mergeOrderEvidence row incoming = .ok merged ∧
        Accepts row incoming merged q f r old new ∧
        applyEvidence row incoming = storeMerged row (.ok merged) := by
  cases h : mergeOrderEvidence row incoming with
  | error e => exact .inl ⟨⟨e, rfl⟩, by rw [applyEvidence, h, storeMerged]⟩
  | ok merged =>
    obtain ⟨q, f, r, old, new, hacpts⟩ := mergeOrderEvidence_ok_iff.mp h
    exact .inr ⟨merged, q, f, r, old, new, rfl, hacpts, by rw [applyEvidence, h]⟩

theorem applyEvidence_idem (row : LocalOrderEvidence) (incoming : OrderEvidence) :
    applyEvidence (applyEvidence row incoming) incoming = applyEvidence row incoming := by
  rcases applyEvidence_cases row incoming with
    ⟨-, hrow⟩ | ⟨merged, q, f, r, old, new, -, hacpts, hrow⟩
  · rw [hrow, hrow]
  · have hagain := mergeOrderEvidence_ok_iff.mpr ⟨_, _, _, _, _, hacpts.again⟩
    rw [hrow, applyEvidence, hagain]
    rfl

section Runs

variable {row : LocalOrderEvidence} {incoming : OrderEvidence} {evidence : List OrderEvidence}

@[simp] theorem applyEvidence_quantity : (applyEvidence row incoming).quantity = row.quantity := by
  unfold applyEvidence storeMerged
  split <;> rfl

@[simp] theorem applyAll_cons :
    applyAll row (incoming :: evidence) = applyAll (applyEvidence row incoming) evidence := rfl

/-- A property of rows that one acknowledgement keeps is kept by any series of them. -/
theorem applyAll_induction {P : LocalOrderEvidence → Prop}
    (hstep : ∀ row incoming, P row → P (applyEvidence row incoming)) (hrow : P row) :
    P (applyAll row evidence) := by
  induction evidence generalizing row with
  | nil => exact hrow
  | cons incoming evidence ih =>
    rw [applyAll_cons]
    exact ih (hstep row incoming hrow)

theorem applyAll_append (earlier later : List OrderEvidence) :
    applyAll row (earlier ++ later) = applyAll (applyAll row earlier) later :=
  List.foldl_append

/-- The execution of a row is the largest one that an accepted acknowledgement reported. -/
theorem applyAll_filled {f : ℕ} (hf : Reads row.filledQuantity f) :
    ∃ us, List.Forall₂ Reads (acceptedReports row evidence) us ∧
      Reads (applyAll row evidence).filledQuantity (us.foldl max f) := by
  induction evidence generalizing row f with
  | nil => exact ⟨[], .nil, hf⟩
  | cons incoming evidence ih =>
    rcases applyEvidence_cases row incoming with
      ⟨⟨e, herror⟩, hrow⟩ | ⟨merged, q, f', r, old, new, hok, hacpts, hrow⟩
    · obtain ⟨us, hus, hreads⟩ := ih hf
      refine ⟨us, ?_, ?_⟩
      · rw [acceptedReports, herror, hrow]
        exact hus
      · rw [applyAll_cons, hrow]
        exact hreads
    · obtain rfl := Denotes.unique hf hacpts.filled
      have helt : executedUnits f r < unitLimit :=
        hacpts.executed_le.trans_lt (Denotes.lt hacpts.quantity)
      have hnext : Reads (applyEvidence row incoming).filledQuantity (executedUnits f r) := by
        rw [hrow, storeMerged, hacpts.filledQuantity]
        exact (denotes_text helt).reads
      obtain ⟨us, hus, hreads⟩ := ih hnext
      rw [acceptedReports, hok, reportOf]
      have hrep := hacpts.reported
      generalize incoming.filledQuantity = report at hrep ⊢
      cases hrep with
      | none =>
        refine ⟨us, hus, ?_⟩
        rw [applyAll_cons]
        exact hreads
      | @some _ x hx =>
        refine ⟨x :: us, .cons hx hus, ?_⟩
        rw [applyAll_cons, List.foldl_cons]
        exact hreads

theorem le_foldl_max (us : List ℕ) (f : ℕ) : f ≤ us.foldl max f := by
  induction us generalizing f with
  | nil => exact le_rfl
  | cons u us ih => exact (le_max_left f u).trans (ih (max f u))

theorem applyAll_within_quantity :
    applyAll row evidence = row ∨ ∃ f q, Reads (applyAll row evidence).filledQuantity f ∧
      Reads row.quantity q ∧ f ≤ q := by
  induction evidence generalizing row with
  | nil => exact .inl rfl
  | cons incoming evidence ih =>
    rcases applyEvidence_cases row incoming with
      ⟨-, hrow⟩ | ⟨merged, q, f, r, old, new, -, hacpts, hrow⟩
    · rw [applyAll_cons, hrow]
      exact ih
    · refine .inr ?_
      have helt : executedUnits f r < unitLimit :=
        hacpts.executed_le.trans_lt (Denotes.lt hacpts.quantity)
      rcases @ih (applyEvidence row incoming) with hsame | ⟨f', q', hf', hq', hle⟩
      · refine ⟨executedUnits f r, q, ?_, hacpts.quantity, hacpts.executed_le⟩
        rw [applyAll_cons, hsame, hrow, storeMerged, hacpts.filledQuantity]
        exact (denotes_text helt).reads
      · rw [applyEvidence_quantity] at hq'
        exact ⟨f', q', hf', hq', hle⟩

theorem applyAll_filled_le {f f' q : ℕ} (hf : Reads row.filledQuantity f)
    (hq : Reads row.quantity q)
    (hle : f ≤ q) (hf' : Reads (applyAll row evidence).filledQuantity f') : f' ≤ q := by
  rcases @applyAll_within_quantity row evidence with
    hsame | ⟨f₀, q₀, hf₀, hq₀, hle₀⟩
  · rw [hsame] at hf'
    rw [← Denotes.unique hf hf']
    exact hle
  · rw [Denotes.unique hf' hf₀, Denotes.unique hq hq₀]
    exact hle₀

theorem applyEvidence_settled (h : row.status = .filled ∨ row.status = .rejected) :
    (applyEvidence row incoming).status = row.status := by
  rcases applyEvidence_cases row incoming with
    ⟨-, hrow⟩ | ⟨merged, q, f, r, old, new, -, hacpts, hrow⟩
  · rw [hrow]
  · rw [hrow, storeMerged, hacpts.status, nextStatus_settled h]

theorem applyAll_settled (h : row.status = .filled ∨ row.status = .rejected) :
    (applyAll row evidence).status = row.status := by
  have hinv : (applyAll row evidence).status = row.status := by
    refine applyAll_induction (P := fun next => next.status = row.status) ?_ rfl
    intro next incoming hnext
    rw [applyEvidence_settled (by rw [hnext]; exact h), hnext]
  exact hinv

/-- The row is full: its execution equals its quantity. -/
def Complete (row : LocalOrderEvidence) : Prop :=
  ∃ q, Reads row.quantity q ∧ Reads row.filledQuantity q

theorem applyEvidence_complete (h : Complete row) : Complete (applyEvidence row incoming) := by
  rcases applyEvidence_cases row incoming with
    ⟨-, hrow⟩ | ⟨merged, q, f, r, old, new, -, hacpts, hrow⟩
  · rw [hrow]
    exact h
  · obtain ⟨q', hq', hf'⟩ := h
    obtain rfl := Denotes.unique hq' hacpts.quantity
    obtain rfl := Denotes.unique hf' hacpts.filled
    have hfull : executedUnits q' r = q' := by
      have hle := hacpts.executed_le
      rw [executedUnits_eq] at hle ⊢
      exact le_antisymm hle (le_max_left _ _)
    refine ⟨q', by rw [applyEvidence_quantity]; exact hq', ?_⟩
    rw [hrow, storeMerged, hacpts.filledQuantity, hfull]
    exact (denotes_text (Denotes.lt hq')).reads

theorem applyEvidence_cancelled (h : row.status = .cancelled) :
    (applyEvidence row incoming).status = .cancelled ∨
      (applyEvidence row incoming).status = .filled ∧ Complete (applyEvidence row incoming) := by
  rcases applyEvidence_cases row incoming with
    ⟨-, hrow⟩ | ⟨merged, q, f, r, old, new, -, hacpts, hrow⟩
  · rw [hrow]
    exact .inl h
  · rw [hrow, storeMerged]
    dsimp only
    rw [hacpts.status, h]
    rcases @nextStatus_cancelled incoming.status (0 < executedUnits f r)
      (executedUnits f r = q) _ _ with hkeep | ⟨hfilled, hfull⟩
    · exact .inl hkeep
    · refine .inr ⟨hfilled, q, hacpts.quantity, ?_⟩
      dsimp only
      rw [hacpts.filledQuantity, hfull]
      exact (denotes_text (Denotes.lt hacpts.quantity)).reads

theorem applyAll_cancelled (h : row.status = .cancelled) :
    (applyAll row evidence).status = .cancelled ∨
      (applyAll row evidence).status = .filled ∧ Complete (applyAll row evidence) := by
  refine applyAll_induction (P := fun next => next.status = .cancelled ∨
    next.status = .filled ∧ Complete next) ?_ (.inl h)
  intro next incoming hnext
  rcases hnext with hcancelled | ⟨hfilled, hfull⟩
  · exact applyEvidence_cancelled hcancelled
  · refine .inr ⟨?_, applyEvidence_complete hfull⟩
    rw [applyEvidence_settled (.inl hfilled), hfilled]

theorem applyEvidence_cancelPending (h : row.status = .cancelPending) :
    (applyEvidence row incoming).status = .cancelPending ∨
      (applyEvidence row incoming).status = .filled ∨
      (applyEvidence row incoming).status = .cancelled ∨
      (applyEvidence row incoming).status = .rejected := by
  rcases applyEvidence_cases row incoming with
    ⟨-, hrow⟩ | ⟨merged, q, f, r, old, new, -, hacpts, hrow⟩
  · rw [hrow]
    exact .inl h
  · rw [hrow, storeMerged]
    dsimp only
    rw [hacpts.status, h]
    exact nextStatus_cancelPending

theorem applyAll_cancelPending (h : row.status = .cancelPending) :
    (applyAll row evidence).status = .cancelPending ∨ (applyAll row evidence).status = .filled ∨
      (applyAll row evidence).status = .cancelled ∨ (applyAll row evidence).status = .rejected := by
  refine applyAll_induction (P := fun next => next.status = .cancelPending ∨
    next.status = .filled ∨ next.status = .cancelled ∨ next.status = .rejected) ?_ (.inl h)
  intro next incoming hnext
  rcases hnext with hpend | hfilled | hcancelled | hrejected
  · exact applyEvidence_cancelPending hpend
  · exact .inr (.inl (by rw [applyEvidence_settled (.inl hfilled), hfilled]))
  · rcases @applyEvidence_cancelled _ incoming hcancelled with hkeep | ⟨hfull, -⟩
    · exact .inr (.inr (.inl hkeep))
    · exact .inr (.inl hfull)
  · exact .inr (.inr (.inr (by rw [applyEvidence_settled (.inr hrejected), hrejected])))

def RejectedIdle (row : LocalOrderEvidence) : Prop :=
  row.status = .rejected → Reads row.filledQuantity 0

theorem applyEvidence_rejectedIdle (h : RejectedIdle row) :
    RejectedIdle (applyEvidence row incoming) := by
  rcases applyEvidence_cases row incoming with
    ⟨-, hrow⟩ | ⟨merged, q, f, r, old, new, -, hacpts, hrow⟩
  · rw [hrow]
    exact h
  · rw [hrow, storeMerged]
    intro hrejected
    have hparty := nextStatus_eq_rejected (hacpts.status.symm.trans hrejected)
    have hzero : executedUnits f r = 0 := by
      by_contra hpos
      exact hacpts.not_rejected ⟨hparty, Nat.pos_of_ne_zero hpos⟩
    dsimp only
    rw [hacpts.filledQuantity, hzero]
    exact (denotes_text (by decide)).reads

end Runs

/-- Order rows under any series of acknowledgements, at any point of the series and later. -/
theorem order_evidence_runs (row : LocalOrderEvidence) (earlier later : List OrderEvidence) :
    (∀ f, Reads row.filledQuantity f → ∃ us,
      List.Forall₂ Reads (acceptedReports row earlier) us ∧
        Reads (applyAll row earlier).filledQuantity (us.foldl max f)) ∧
    (∀ f f', Reads (applyAll row earlier).filledQuantity f →
      Reads (applyAll row (earlier ++ later)).filledQuantity f' → f ≤ f') ∧
    (applyAll row earlier = row ∨ ∃ f q, Reads (applyAll row earlier).filledQuantity f ∧
      Reads row.quantity q ∧ f ≤ q) ∧
    (∀ f q f', Reads row.filledQuantity f → Reads row.quantity q → f ≤ q →
      Reads (applyAll row earlier).filledQuantity f' → f' ≤ q) ∧
    ((applyAll row earlier).status = .filled ∨ (applyAll row earlier).status = .rejected →
      (applyAll row (earlier ++ later)).status = (applyAll row earlier).status) ∧
    ((applyAll row earlier).status = .cancelled →
      (applyAll row (earlier ++ later)).status = .cancelled ∨
        (applyAll row (earlier ++ later)).status = .filled ∧
          Complete (applyAll row (earlier ++ later))) ∧
    ((applyAll row earlier).status = .cancelPending →
      (applyAll row (earlier ++ later)).status = .cancelPending ∨
        (applyAll row (earlier ++ later)).status = .filled ∨
        (applyAll row (earlier ++ later)).status = .cancelled ∨
        (applyAll row (earlier ++ later)).status = .rejected) ∧
    (RejectedIdle row → RejectedIdle (applyAll row earlier)) ∧
    ∀ incoming, applyAll row (earlier ++ [incoming, incoming]) =
      applyAll row (earlier ++ [incoming]) := by
  rw [applyAll_append]
  refine ⟨fun f hf => applyAll_filled hf, ?_, applyAll_within_quantity,
    fun f q f' => applyAll_filled_le, applyAll_settled, applyAll_cancelled, applyAll_cancelPending,
    ?_, ?_⟩
  · intro f f' hf hf'
    obtain ⟨us, -, hreads⟩ := @applyAll_filled _ later _ hf
    rw [← Denotes.unique hreads hf']
    exact le_foldl_max us f
  · intro hrow
    exact applyAll_induction (fun _ _ h => applyEvidence_rejectedIdle h) hrow
  · intro incoming
    rw [applyAll_append, applyAll_append]
    simp only [applyAll, List.foldl_cons, List.foldl_nil, applyEvidence_idem]

/-- A late partial report after the complete one. -/
theorem order_evidence_runs_late_report :
    (applyAll ⟨.open, "2", "0", none⟩ [⟨.filled, some "2", some "10"⟩]).status = .filled ∧
      (applyAll ⟨.open, "2", "0", none⟩
        ([⟨.filled, some "2", some "10"⟩] ++ [⟨.partiallyFilled, some "1", none⟩])).status =
        (applyAll ⟨.open, "2", "0", none⟩ [⟨.filled, some "2", some "10"⟩]).status := by
  have hfilled : (applyAll ⟨.open, "2", "0", none⟩ [⟨.filled, some "2", some "10"⟩]).status =
      .filled := by decide +kernel
  obtain ⟨-, -, -, -, hset, -⟩ := order_evidence_runs ⟨.open, "2", "0", none⟩
    [⟨.filled, some "2", some "10"⟩] [⟨.partiallyFilled, some "1", none⟩]
  exact ⟨hfilled, hset (.inl hfilled)⟩

end TsxCore.TradingStateTransitions
