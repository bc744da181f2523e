import TsxCore.SignalGeometry
import TsxCore.TradingFillAccounting

/-!
# Risk reservations (`trading_risk_reservations.ts`)

A reservation adds what the owned quantity can lose from the mark price to the stop and what the
open entries can still lose between their price and the stop. Sums and products are exact here:
a product that is no whole number of quanta is refused.
-/

namespace TsxCore.TradingRiskReservations

open Outcome TradingDecimal TradingRational TradingTypes TradingFillAccounting TradingMoneyValue
  SignalSchema

structure RiskEntryRemainder where
  status : String
  quantity : String
  filledQuantity : Option String
  price : Option String
  operationUnresolved : Bool

structure RiskReservationInput where
  side : String
  ownedQuantity : String
  averageEntryPrice : Option String
  markPrice : Option String
  stopPrice : String
  reportingCurrency : String
  market : Option FillAccountingRow
  entries : List RiskEntryRemainder
  protectionProven : Bool

inductive ReservationStatus
  | complete
  | unresolved
  deriving DecidableEq

structure RiskReservationAmounts where
  status : ReservationStatus
  reason : Option String
  reportingCurrency : String
  ownedQuantity : Option String
  pendingQuantity : Option String
  markToStopRisk : Option String
  pendingEntryRisk : Option String
  actualFillToStopRisk : Option String
  additionalRisk : Option String
  markToStopRiskValue : Option MoneyValue
  pendingEntryRiskValue : Option MoneyValue
  actualFillToStopRiskValue : Option MoneyValue
  additionalRiskValue : Option MoneyValue

def adversePriceMovement (side price stop : String) : Outcome Bool :=
  if side = "LONG" then do return decide (0 < (← compareDecimal price stop))
  else do return decide (0 < (← compareDecimal stop price))

def stopDistance (side price stop quantity : String) : Outcome String := do
  let distance ←
    (if side = "LONG" then subtractDecimal price stop else subtractDecimal stop price)
  multiplyExactSignedDecimal distance quantity

def lossToStop (side : String) (reference : Option String) (stop quantity : String) :
    Outcome String :=
  if quantity = "0" then return "0"
  else match reference with
    | none => .error (.error "Risk price is unproven.")
    | some reference => do
      let price ← decimal reference true
      if (← adversePriceMovement side price stop) = true then stopDistance side price stop quantity
      else return "0"

def remainingQuantity (entry : RiskEntryRemainder) : Outcome String := do
  throwIf (entry.operationUnresolved = true) (.error "Entry operation remains unresolved.")
  match entry.filledQuantity with
  | none => .error (.error "Entry executed quantity remains unproven.")
  | some filledQuantity =>
    let remaining ← subtractDecimal (← decimal entry.quantity true) (← decimal filledQuantity)
    throwIf (entry.status = "filled" ∧ remaining ≠ "0")
      (.error "Filled entry still has an unexplained residual.")
    return remaining

def terminalStatuses : List String := ["filled", "cancelled", "rejected"]

def openStatuses : List String :=
  ["created", "submitting", "open", "partially_filled", "cancel_pending", "unknown"]

def assertEntryLifecycle (entry : RiskEntryRemainder) : Outcome Unit :=
  if entry.status ∈ terminalStatuses then return ()
  else throwIf (entry.status ∉ openStatuses) (.error "Entry lifecycle is unproven.")

def remainingEntry (entry : RiskEntryRemainder) : Outcome String := do
  let remaining ← remainingQuantity entry
  assertEntryLifecycle entry
  if entry.status ∈ terminalStatuses then return "0" else return remaining

structure Pending where
  pendingQuantity : String
  pendingEntryRisk : String

def reserveEntry (side stop : String) (pending : Pending) (entry : RiskEntryRemainder) :
    Outcome Pending := do
  let quantity ← remainingEntry entry
  let pendingQuantity ← addDecimal pending.pendingQuantity quantity
  let loss ← lossToStop side entry.price stop quantity
  let pendingEntryRisk ← addDecimal pending.pendingEntryRisk loss
  return ⟨pendingQuantity, pendingEntryRisk⟩

/-- `validateFillAccounting(input.market)`: without a provider symbol the market is not compared
with one, which is to compare it with its own. -/
def riskMarket : Option FillAccountingRow → Outcome ExchangeFillAccounting
  | none => .error (.error "Invalid accounting evidence object.")
  | some row => validateFillAccounting row row.providerSymbol

def provedReservation (input : RiskReservationInput) : Outcome RiskReservationAmounts := do
  throwIf (input.side ∉ ["LONG", "SHORT"]) (.error "Risk side is invalid.")
  let market ← riskMarket input.market
  throwIf (market.settlementAsset ≠ input.reportingCurrency)
    (.error "Risk settlement conversion is unproven.")
  throwIf (input.protectionProven = false) (.error "Risk stop coverage is unproven.")
  let ownedQuantity ← decimal input.ownedQuantity
  let stop ← decimal input.stopPrice true
  let pending ← input.entries.foldlM (reserveEntry input.side stop) ⟨"0", "0"⟩
  let markToStopRisk ← lossToStop input.side input.markPrice stop ownedQuantity
  let actualFillToStopRisk ← lossToStop input.side input.averageEntryPrice stop ownedQuantity
  let additionalRisk ← addDecimal markToStopRisk pending.pendingEntryRisk
  return {
    status := .complete
    reason := none
    reportingCurrency := input.reportingCurrency
    ownedQuantity := some ownedQuantity
    pendingQuantity := some pending.pendingQuantity
    markToStopRisk := some markToStopRisk
    pendingEntryRisk := some pending.pendingEntryRisk
    actualFillToStopRisk := some actualFillToStopRisk
    additionalRisk := some additionalRisk
    markToStopRiskValue := some (← moneyValueFromDecimal markToStopRisk)
    pendingEntryRiskValue := some (← moneyValueFromDecimal pending.pendingEntryRisk)
    actualFillToStopRiskValue := some (← moneyValueFromDecimal actualFillToStopRisk)
    additionalRiskValue := some (← moneyValueFromDecimal additionalRisk) }

def unresolvedRiskAmounts (reportingCurrency : String) (error : Thrown) : RiskReservationAmounts :=
  { status := .unresolved
    reason := some error.message
    reportingCurrency
    ownedQuantity := none
    pendingQuantity := none
    markToStopRisk := none
    pendingEntryRisk := none
    actualFillToStopRisk := none
    additionalRisk := none
    markToStopRiskValue := none
    pendingEntryRiskValue := none
    actualFillToStopRiskValue := none
    additionalRiskValue := none }

def calculateRiskReservation (input : RiskReservationInput) : RiskReservationAmounts :=
  match provedReservation input with
  | .ok amounts => amounts
  | .error error => unresolvedRiskAmounts input.reportingCurrency error

def sideOf (side : String) : TradingSide := if side = "LONG" then .long else .short

def openRemainder (entry : RiskEntryRemainder) : ℚ :=
  if entry.status ∈ terminalStatuses then 0
  else decimalValue entry.quantity - decimalValue (entry.filledQuantity.getD "0")

variable {side stop : String} {input : RiskReservationInput} {amounts : RiskReservationAmounts}
  {entry : RiskEntryRemainder} {entries reordered : List RiskEntryRemainder}

theorem adversePriceMovement_ok {price : String} {adverse : Bool}
    (h : adversePriceMovement side price stop = .ok adverse) :
    adverse = true ↔ directed (sideOf side) (decimalValue stop) <
      directed (sideOf side) (decimalValue price) := by
  unfold adversePriceMovement at h
  split_ifs at h with hlong
  · simp only [bind_eq_ok, pure_eq_ok_iff] at h
    obtain ⟨order, horder, rfl⟩ := h
    rw [decide_eq_true_iff, sideOf, if_pos hlong]
    exact (compareDecimal_value horder).2
  · simp only [bind_eq_ok, pure_eq_ok_iff] at h
    obtain ⟨order, horder, rfl⟩ := h
    rw [decide_eq_true_iff, sideOf, if_neg hlong, directed, directed, neg_lt_neg_iff]
    exact (compareDecimal_value horder).2

theorem stopDistance_ok {price loss : String} {q : ℕ}
    (h : stopDistance side price stop (text q) = .ok loss) :
    ∃ l : ℕ, loss = text l ∧ unitValue l = (directed (sideOf side) (decimalValue price) -
      directed (sideOf side) (decimalValue stop)) * unitValue q := by
  rw [stopDistance, bind_eq_ok] at h
  obtain ⟨distance, hdst, h⟩ := h
  have hexact : ∃ d : ℕ, distance = text d ∧ unitValue d =
      directed (sideOf side) (decimalValue price) - directed (sideOf side) (decimalValue stop) := by
    have hvalue {left right : String} (hsubtract : subtractDecimal left right = .ok distance) :
        ∃ d : ℕ, distance = text d ∧ unitValue d = decimalValue left - decimalValue right := by
      obtain ⟨u, v, -, -, -, htext⟩ := subtractDecimal_ok_iff.mp hsubtract
      refine ⟨u - v, htext.symm, ?_⟩
      rw [← TradingDecimal.subtractDecimal_value hsubtract, ← htext, decimalValue_text]
    split_ifs at hdst with hlong
    · rw [sideOf, if_pos hlong]
      exact hvalue hdst
    · rw [sideOf, if_neg hlong, directed, directed, neg_sub_neg]
      exact hvalue hdst
  obtain ⟨d, rfl, hd⟩ := hexact
  obtain ⟨i, j, k, hi, hj, hprod, hk, rfl⟩ := multiplyExactSignedDecimal_ok_iff.mp h
  rw [← signedText_natCast, readsSigned_signedText_iff] at hi hj
  obtain ⟨rfl, -⟩ := hi
  obtain ⟨rfl, -⟩ := hj
  have hnn : 0 ≤ k := by
    by_contra hneg
    have hlt : k * 10 ^ 18 < 0 := mul_neg_of_neg_of_pos (not_le.mp hneg) (by positivity)
    rw [← hprod] at hlt
    exact absurd hlt (not_lt.mpr (by positivity))
  obtain ⟨l, rfl⟩ := Int.eq_ofNat_of_zero_le hnn
  refine ⟨l, signedText_natCast l, ?_⟩
  rw [← hd, unitValue_natCast, unitValue_natCast, unitValue_natCast]
  have hcast : (d : ℚ) * q = l * 10 ^ 18 := by exact_mod_cast hprod
  rw [div_mul_div_comm, hcast]
  field_simp

/-- A loss is a whole number of quanta: what the quantity loses when the price falls back to the
stop, and nothing when the price is beyond the stop. -/
theorem lossToStop_ok {reference : Option String} {loss : String} {q : ℕ}
    (h : lossToStop side reference stop (text q) = .ok loss) :
    ∃ l : ℕ, loss = text l ∧ (reference = none → q = 0) ∧
      ∀ price, (q ≠ 0 → reference = some price) → unitValue l =
        max 0 (directed (sideOf side) (decimalValue price) -
          directed (sideOf side) (decimalValue stop)) * unitValue q := by
  unfold lossToStop at h
  split_ifs at h with hzero
  · obtain rfl := pure_eq_ok_iff.mp h
    rw [text_eq_zero] at hzero
    subst hzero
    exact ⟨0, (text_eq_zero.mpr rfl).symm, fun _ => rfl, fun price _ => by simp⟩
  · rw [text_eq_zero] at hzero
    cases reference with
    | none => cases h
    | some reference =>
      simp only [bind_eq_ok] at h
      obtain ⟨price, hprice, adverse, hadverse, h⟩ := h
      have hsame := (decimal_value hprice).1
      have hiff := adversePriceMovement_ok hadverse
      rw [hsame] at hiff
      cases adverse with
      | true =>
        obtain ⟨l, rfl, hl⟩ := stopDistance_ok h
        refine ⟨l, rfl, fun hnone => (Option.some_ne_none _ hnone).elim, ?_⟩
        intro given hgiven
        obtain rfl := Option.some.inj (hgiven hzero)
        rw [hl, hsame, max_eq_right (sub_nonneg.mpr (hiff.mp rfl).le)]
      | false =>
        obtain rfl := pure_eq_ok_iff.mp h
        refine ⟨0, (text_eq_zero.mpr rfl).symm, fun hnone => (Option.some_ne_none _ hnone).elim, ?_⟩
        intro given hgiven
        obtain rfl := Option.some.inj (hgiven hzero)
        have hle := not_lt.mp (fun hlt => Bool.false_ne_true (hiff.mpr hlt))
        rw [max_eq_left (sub_nonpos.mpr hle)]
        simp

/-- An entry that can still execute `held.1` quanta, which can lose `held.2` quanta. -/
def Reserves (side stop : String) (entry : RiskEntryRemainder) (held : ℕ × ℕ) : Prop :=
  remainingEntry entry = .ok (text held.1) ∧
    lossToStop side entry.price stop (text held.1) = .ok (text held.2)

theorem Reserves.unique {held held' : ℕ × ℕ} (h : Reserves side stop entry held)
    (h' : Reserves side stop entry held') : held = held' := by
  obtain ⟨r, l⟩ := held
  obtain ⟨r', l'⟩ := held'
  obtain ⟨hrem, hloss⟩ := h
  obtain ⟨hrem', hloss'⟩ := h'
  obtain rfl := text_inj.mp (Except.ok.inj (hrem.symm.trans hrem'))
  obtain rfl := text_inj.mp (Except.ok.inj (hloss.symm.trans hloss'))
  rfl

theorem remainingEntry_ok {remaining : String} (h : remainingEntry entry = .ok remaining) :
    entry.operationUnresolved = false ∧ entry.filledQuantity ≠ none ∧
      entry.status ∈ terminalStatuses ++ openStatuses ∧
      ∃ r : ℕ, remaining = text r ∧ unitValue r = openRemainder entry := by
  rw [remainingEntry, bind_eq_ok] at h
  obtain ⟨whole, hwhole, h⟩ := h
  rw [bind_eq_ok] at h
  obtain ⟨_, hlifecycle, h⟩ := h
  have hstatus : entry.status ∈ terminalStatuses ++ openStatuses := by
    rw [List.mem_append]
    unfold assertEntryLifecycle at hlifecycle
    split_ifs at hlifecycle with hterminal
    · exact Or.inl hterminal
    · exact Or.inr (not_not.mp (throwIf_eq_ok.mp hlifecycle))
  simp only [remainingQuantity, bind_eq_ok, throwIf_eq_ok, Bool.not_eq_true] at hwhole
  obtain ⟨-, hop, hwhole⟩ := hwhole
  cases hfilled : entry.filledQuantity with
  | none =>
    rw [hfilled] at hwhole
    cases hwhole
  | some filled =>
    simp only [hfilled, bind_eq_ok, throwIf_eq_ok, pure_eq_ok_iff] at hwhole
    obtain ⟨total, htotal, executed, hexec, difference, hdifference, -, -, rfl⟩ := hwhole
    refine ⟨hop, Option.some_ne_none _, hstatus, ?_⟩
    unfold openRemainder
    split_ifs at h ⊢ with hterminal
    · obtain rfl := pure_eq_ok_iff.mp h
      exact ⟨0, (text_eq_zero.mpr rfl).symm, unitValue_zero⟩
    · obtain rfl := pure_eq_ok_iff.mp h
      obtain ⟨u, v, -, -, -, htext⟩ := subtractDecimal_ok_iff.mp hdifference
      refine ⟨u - v, htext.symm, ?_⟩
      rw [hfilled, Option.getD_some, ← (decimal_value htotal).1, ← (decimal_value hexec).1,
        ← TradingDecimal.subtractDecimal_value hdifference, ← htext, decimalValue_text]

section Sum

variable {pending : Pending} {held : List (ℕ × ℕ)} {a b : ℕ}

theorem reserveEntry_ok (h : reserveEntry side stop ⟨text a, text b⟩ entry = .ok pending) :
    ∃ held, Reserves side stop entry held ∧
      pending = ⟨text (a + held.1), text (b + held.2)⟩ := by
  simp only [reserveEntry, bind_eq_ok, pure_eq_ok_iff] at h
  obtain ⟨quantity, hqty, total, htotal, loss, hloss, risk, hrisk, rfl⟩ := h
  obtain ⟨-, -, -, r, rfl, -⟩ := remainingEntry_ok hqty
  obtain ⟨l, rfl, -⟩ := lossToStop_ok hloss
  have hsum {x y : ℕ} {s : String} (hadd : addDecimal (text x) (text y) = .ok s) :
      s = text (x + y) := by
    obtain ⟨u, v, hu, hv, rfl⟩ := addDecimal_ok_iff.mp hadd
    obtain ⟨rfl, -⟩ := denotes_text_iff.mp hu
    obtain ⟨rfl, -⟩ := denotes_text_iff.mp hv
    rfl
  exact ⟨(r, l), ⟨hqty, hloss⟩, by rw [hsum htotal, hsum hrisk]⟩

theorem reserveEntry_of_reserves {held : ℕ × ℕ} (h : Reserves side stop entry held)
    (ha : a + held.1 < unitLimit) (hb : b + held.2 < unitLimit) :
    reserveEntry side stop ⟨text a, text b⟩ entry =
      .ok ⟨text (a + held.1), text (b + held.2)⟩ := by
  have hsum {x y : ℕ} (hlt : x + y < unitLimit) :
      addDecimal (text x) (text y) = .ok (text (x + y)) :=
    addDecimal_ok_iff.mpr ⟨x, y, denotes_text (by omega), denotes_text (by omega), rfl⟩
  simp only [reserveEntry, bind_eq_ok, pure_eq_ok_iff]
  exact ⟨_, h.1, _, hsum ha, _, h.2, _, hsum hb, rfl⟩

theorem reserveEntries_ok
    (h : entries.foldlM (reserveEntry side stop) ⟨text a, text b⟩ = .ok pending) :
    ∃ held, List.Forall₂ (Reserves side stop) entries held ∧
      pending = ⟨text (a + (held.map Prod.fst).sum), text (b + (held.map Prod.snd).sum)⟩ := by
  induction entries generalizing a b with
  | nil =>
    rw [List.foldlM_nil, pure_eq_ok_iff] at h
    exact ⟨[], .nil, h.symm⟩
  | cons entry entries ih =>
    rw [List.foldlM_cons, bind_eq_ok] at h
    obtain ⟨next, hnext, h⟩ := h
    obtain ⟨first, hfirst, rfl⟩ := reserveEntry_ok hnext
    obtain ⟨rest, hrest, rfl⟩ := ih h
    refine ⟨first :: rest, .cons hfirst hrest, ?_⟩
    simp only [List.map_cons, List.sum_cons, add_assoc]

theorem reserveEntries_of_reserves (h : List.Forall₂ (Reserves side stop) entries held)
    (ha : a + (held.map Prod.fst).sum < unitLimit) (hb : b + (held.map Prod.snd).sum < unitLimit) :
    entries.foldlM (reserveEntry side stop) ⟨text a, text b⟩ =
      .ok ⟨text (a + (held.map Prod.fst).sum), text (b + (held.map Prod.snd).sum)⟩ := by
  induction h generalizing a b with
  | nil => rfl
  | cons hfirst hrest ih =>
    simp only [List.map_cons, List.sum_cons, ← add_assoc] at ha hb ⊢
    rw [List.foldlM_cons, reserveEntry_of_reserves hfirst (by omega) (by omega)]
    exact ih ha hb

end Sum

/-- What a complete reservation has read: the owned quanta, what they lose from the mark price to
the stop, and what each entry holds. -/
structure Proved (input : RiskReservationInput) (amounts : RiskReservationAmounts) (stop : String)
    (owned markRisk : ℕ) (held : List (ℕ × ℕ)) : Prop where
  stopReads : decimal input.stopPrice true = .ok stop
  ownedReads : Reads input.ownedQuantity owned
  reserves : List.Forall₂ (Reserves input.side stop) input.entries held
  sums : input.entries.foldlM (reserveEntry input.side stop) ⟨"0", "0"⟩ =
    .ok ⟨text (held.map Prod.fst).sum, text (held.map Prod.snd).sum⟩
  markLoss : lossToStop input.side input.markPrice stop (text owned) = .ok (text markRisk)
  fits : (held.map Prod.snd).sum < unitLimit
  pendingQuantity : amounts.pendingQuantity = some (text (held.map Prod.fst).sum)
  additionalRisk : amounts.additionalRisk = some (text (markRisk + (held.map Prod.snd).sum))

theorem text_zero : text 0 = "0" := text_eq_zero.mpr rfl

theorem provedReservation_ok (h : provedReservation input = .ok amounts) :
    amounts.status = .complete ∧
      ∃ stop owned markRisk held, Proved input amounts stop owned markRisk held := by
  simp only [provedReservation, bind_eq_ok, throwIf_eq_ok, pure_eq_ok_iff] at h
  obtain ⟨_, _, _, _, _, _, _, _, ownedQuantity, howned, stop, hstop, pending, hpend, mark, hmark,
    actual, _, additional, hadditional, _, _, _, _, _, _, _, _, rfl⟩ := h
  obtain ⟨owned, hreads, rfl⟩ := decimal_ok_iff.mp howned
  have hsums := hpend
  rw [← text_zero] at hpend
  obtain ⟨held, hheld, rfl⟩ := reserveEntries_ok hpend
  obtain ⟨markRisk, rfl, -⟩ := lossToStop_ok hmark
  simp only [zero_add] at hsums hadditional ⊢
  obtain ⟨u, v, hu, hv, rfl⟩ := addDecimal_ok_iff.mp hadditional
  obtain ⟨rfl, -⟩ := denotes_text_iff.mp hu
  obtain ⟨rfl, hlt⟩ := denotes_text_iff.mp hv
  exact ⟨trivial, stop, owned, markRisk, held, hstop, hreads, hheld, hsums, hmark, hlt, rfl, rfl⟩

theorem provedReservation_of_complete
    (h : (calculateRiskReservation input).status = .complete) :
    provedReservation input = .ok (calculateRiskReservation input) := by
  rw [calculateRiskReservation] at h ⊢
  cases hrun : provedReservation input with
  | ok amounts => rfl
  | error error =>
    rw [hrun] at h
    cases h

theorem provedReservation_congr (h : provedReservation input = .ok amounts)
    (hsame : ∀ stop pending, decimal input.stopPrice true = .ok stop →
      input.entries.foldlM (reserveEntry input.side stop) ⟨"0", "0"⟩ = .ok pending →
      reordered.foldlM (reserveEntry input.side stop) ⟨"0", "0"⟩ = .ok pending) :
    provedReservation { input with entries := reordered } = .ok amounts := by
  simp only [provedReservation, bind_eq_ok] at h ⊢
  obtain ⟨u₁, h₁, market, h₂, u₃, h₃, u₄, h₄, owned, h₅, stop, hstop, pending, hpend, h⟩ := h
  exact ⟨u₁, h₁, market, h₂, u₃, h₃, u₄, h₄, owned, h₅, stop, hstop, pending,
    hsame stop pending hstop hpend, h⟩

section Order

variable {owned markRisk : ℕ} {held : List (ℕ × ℕ)}

theorem reserves_perm (h : List.Forall₂ (Reserves side stop) entries held)
    (hperm : reordered.Perm entries) :
    ∃ held', List.Forall₂ (Reserves side stop) reordered held' ∧
      (held'.map Prod.fst).sum = (held.map Prod.fst).sum ∧
      (held'.map Prod.snd).sum = (held.map Prod.snd).sum := by
  obtain ⟨held', hheld, hsame⟩ := List.perm_comp_forall₂ hperm h
  exact ⟨held', hheld, (hsame.map _).sum_eq, (hsame.map _).sum_eq⟩

theorem provedReservation_reordered (h : provedReservation input = .ok amounts)
    (hperm : reordered.Perm input.entries) {amounts' : RiskReservationAmounts}
    (h' : provedReservation { input with entries := reordered } = .ok amounts') :
    amounts' = amounts := by
  have hcongr := provedReservation_congr h (by
    intro stop pending hstop hpend
    obtain ⟨-, stop', owned', markRisk', held', hproved⟩ := provedReservation_ok h'
    obtain rfl := Except.ok.inj (hproved.stopReads.symm.trans hstop)
    rw [← text_zero] at hpend
    obtain ⟨held, hheld, rfl⟩ := reserveEntries_ok hpend
    obtain ⟨heldAgain, hagain, hqty, hrisk⟩ := reserves_perm hheld hperm
    have hunique : Relator.RightUnique (Reserves input.side stop') :=
      fun _ _ _ => Reserves.unique
    obtain rfl := List.right_unique_forall₂' hunique hagain hproved.reserves
    rw [zero_add, zero_add, ← hqty, ← hrisk]
    exact hproved.sums)
  exact Except.ok.inj (h'.symm.trans hcongr)

theorem provedReservation_of_fits (h : provedReservation input = .ok amounts)
    (hperm : reordered.Perm input.entries)
    (hproved : Proved input amounts stop owned markRisk held)
    (hfits : (held.map Prod.fst).sum < unitLimit) :
    provedReservation { input with entries := reordered } = .ok amounts := by
  apply provedReservation_congr h
  intro stop' pending hstop hpend
  obtain rfl := Except.ok.inj (hproved.stopReads.symm.trans hstop)
  obtain rfl := Except.ok.inj (hproved.sums.symm.trans hpend)
  obtain ⟨heldAgain, hagain, hqty, hrisk⟩ := reserves_perm hproved.reserves hperm
  have hrun := reserveEntries_of_reserves (a := 0) (b := 0) hagain
    (by rwa [zero_add, hqty]) (by rw [zero_add, hrisk]; exact hproved.fits)
  rwa [zero_add, zero_add, hqty, hrisk, text_zero] at hrun

end Order

section Bound

/-- A part of an entry that was executed, at its average price. -/
structure ExecutedPart where
  quantity : ℚ
  price : ℚ

/-- The part stays within the remainder, at a price no worse than that of the entry. -/
def Executes (side : TradingSide) (entry : RiskEntryRemainder) (part : ExecutedPart) : Prop :=
  0 ≤ part.quantity ∧ part.quantity ≤ openRemainder entry ∧
    ∀ price, entry.price = some price →
      directed side part.price ≤ directed side (decimalValue price)

def profit (side : TradingSide) (entryPrice exitPrice quantity : ℚ) : ℚ :=
  (directed side exitPrice - directed side entryPrice) * quantity

/-- Realized plus unrealized PnL while the owned quantity is valued at the mark price. -/
def pnlAtMark (side : TradingSide) (realized average mark owned : ℚ) : ℚ :=
  realized + profit side average mark owned

/-- The same once the owned quantity and every executed part are closed at the stop. -/
def pnlAtStop (side : TradingSide) (realized average stop owned : ℚ) (parts : List ExecutedPart) :
    ℚ :=
  realized + profit side average stop owned +
    (parts.map (fun part => profit side part.price stop part.quantity)).sum

variable {part : ExecutedPart} {parts : List ExecutedPart} {held : List (ℕ × ℕ)}
  {owned markRisk : ℕ}

theorem Reserves.remainder {held : ℕ × ℕ} (h : Reserves side stop entry held) :
    unitValue held.1 = openRemainder entry := by
  obtain ⟨-, -, -, r', hr, hvalue⟩ := remainingEntry_ok h.1
  rwa [text_inj.mp hr]

theorem Reserves.covers {held : ℕ × ℕ} (h : Reserves side stop entry held)
    (hpart : Executes (sideOf side) entry part) :
    -unitValue held.2 ≤ profit (sideOf side) part.price (decimalValue stop) part.quantity := by
  have hremainder := h.remainder
  obtain ⟨hnn, hle, hprice⟩ := hpart
  rw [← hremainder] at hle
  obtain ⟨l', hl, hnone, hvalue⟩ := lossToStop_ok h.2
  rw [← text_inj.mp hl] at hvalue
  cases hgiven : entry.price with
  | none =>
    rw [hnone hgiven] at hle hvalue
    have hzero : part.quantity = 0 := le_antisymm (hle.trans_eq unitValue_zero) hnn
    rw [hvalue "" (fun hne => absurd rfl hne), profit, hzero]
    simp
  | some price =>
    rw [hvalue price (fun _ => hgiven), profit]
    have hworse := hprice price hgiven
    have hdst : directed (sideOf side) part.price - directed (sideOf side) (decimalValue stop) ≤
        max 0 (directed (sideOf side) (decimalValue price) -
          directed (sideOf side) (decimalValue stop)) :=
      (sub_le_sub_right hworse _).trans (le_max_right _ _)
    have hloss := (mul_le_mul_of_nonneg_right hdst hnn).trans
      (mul_le_mul_of_nonneg_left hle (le_max_left _ _))
    linarith

theorem reserves_covers (h : List.Forall₂ (Reserves side stop) entries held)
    (hparts : List.Forall₂ (Executes (sideOf side)) entries parts) :
    -unitValue ((held.map Prod.snd).sum : ℕ) ≤ (parts.map (fun part =>
      profit (sideOf side) part.price (decimalValue stop) part.quantity)).sum := by
  induction h generalizing parts with
  | nil =>
    cases hparts
    simp
  | cons hfirst hrest ih =>
    cases hparts with
    | cons hpart hparts =>
      simp only [List.map_cons, List.sum_cons, Nat.cast_add, unitValue_add]
      have hhead := hfirst.covers hpart
      have htail := ih hparts
      linarith

theorem reserves_remainders (h : List.Forall₂ (Reserves side stop) entries held) :
    unitValue ((held.map Prod.fst).sum : ℕ) = (entries.map openRemainder).sum := by
  induction h with
  | nil => simp
  | cons hfirst hrest ih =>
    simp only [List.map_cons, List.sum_cons, Nat.cast_add, unitValue_add, ih, hfirst.remainder]

theorem Proved.covers {stop : String} (h : Proved input amounts stop owned markRisk held)
    (hparts : List.Forall₂ (Executes (sideOf input.side)) input.entries parts) {mark : ℚ}
    (hmark : ∀ price, input.markPrice = some price → mark = decimalValue price)
    (realized average : ℚ) :
    -unitValue (markRisk + (held.map Prod.snd).sum : ℕ) ≤
      pnlAtStop (sideOf input.side) realized average (decimalValue input.stopPrice)
          (decimalValue input.ownedQuantity) parts -
        pnlAtMark (sideOf input.side) realized average mark (decimalValue input.ownedQuantity) := by
  have hentries := reserves_covers h.reserves hparts
  rw [(decimal_value h.stopReads).1] at hentries
  have howned : decimalValue input.ownedQuantity = unitValue owned :=
    h.ownedReads.readsSigned.decimalValue
  obtain ⟨m, hm, hnone, hvalue⟩ := lossToStop_ok h.markLoss
  obtain rfl := text_inj.mp hm
  rw [(decimal_value h.stopReads).1] at hvalue
  have hheld : -unitValue markRisk ≤ profit (sideOf input.side) mark
      (decimalValue input.stopPrice) (unitValue owned) := by
    cases hgiven : input.markPrice with
    | none =>
      rw [hnone hgiven] at hvalue ⊢
      rw [hvalue "" (fun hne => absurd rfl hne), profit]
      simp
    | some price =>
      rw [hvalue price (fun _ => hgiven), hmark price hgiven, profit, ← neg_mul]
      apply mul_le_mul_of_nonneg_right _ (unitValue_nonneg owned)
      have hdst := le_max_right 0 (directed (sideOf input.side) (decimalValue price) -
        directed (sideOf input.side) (decimalValue input.stopPrice))
      linarith
  have hsplit (average : ℚ) : profit (sideOf input.side) average (decimalValue input.stopPrice)
      (unitValue owned) - profit (sideOf input.side) average mark (unitValue owned) =
        profit (sideOf input.side) mark (decimalValue input.stopPrice) (unitValue owned) := by
    unfold profit
    ring
  rw [Nat.cast_add, unitValue_add, howned, pnlAtStop, pnlAtMark]
  linarith [hsplit average]

end Bound

def Unproven (entry : RiskEntryRemainder) : Prop :=
  entry.operationUnresolved = true ∨ entry.filledQuantity = none ∨
    entry.status ∉ terminalStatuses ++ openStatuses ∨
      (entry.price = none ∧ 0 < openRemainder entry)

theorem Reserves.not_unproven {held : ℕ × ℕ} (h : Reserves side stop entry held) :
    ¬ Unproven entry := by
  obtain ⟨hop, hfilled, hstatus, -⟩ := remainingEntry_ok h.1
  rintro (hunres | hunknown | hlifecycle | ⟨hprice, hpos⟩)
  · rw [hop] at hunres
    cases hunres
  · exact hfilled hunknown
  · exact hlifecycle hstatus
  · obtain ⟨-, -, hnone, -⟩ := lossToStop_ok h.2
    rw [← h.remainder, hnone hprice, Nat.cast_zero, unitValue_zero] at hpos
    exact lt_irrefl _ hpos

/-- A complete reservation covers what the owned quantity and any executed parts lose down to the
stop. Its amounts are the same in every order of the entries that is complete, and every order is
complete while the pending quantity is below the limit of a decimal. -/
theorem riskReservation_covers (input : RiskReservationInput) :
    ((calculateRiskReservation input).status = .complete →
      ∃ pendingQuantity additionalRisk,
        (calculateRiskReservation input).pendingQuantity = some pendingQuantity ∧
        (calculateRiskReservation input).additionalRisk = some additionalRisk ∧
        (∀ parts, List.Forall₂ (Executes (sideOf input.side)) input.entries parts →
          ∀ mark, (∀ price, input.markPrice = some price → mark = decimalValue price) →
            ∀ realized average, -decimalValue additionalRisk ≤
              pnlAtStop (sideOf input.side) realized average (decimalValue input.stopPrice)
                  (decimalValue input.ownedQuantity) parts -
                pnlAtMark (sideOf input.side) realized average mark
                  (decimalValue input.ownedQuantity)) ∧
        decimalValue pendingQuantity = (input.entries.map openRemainder).sum ∧
        ∀ reordered, reordered.Perm input.entries →
          (calculateRiskReservation { input with entries := reordered }).status = .complete ∨
              decimalValue pendingQuantity < 10 ^ 36 →
            calculateRiskReservation { input with entries := reordered } =
              calculateRiskReservation input) ∧
      ∀ entry ∈ input.entries, Unproven entry →
        (calculateRiskReservation input).status = .unresolved := by
  have hrun (h : (calculateRiskReservation input).status = .complete) :=
    provedReservation_ok (provedReservation_of_complete h)
  refine ⟨?_, ?_⟩
  · intro hcomp
    obtain ⟨-, stop, owned, markRisk, held, hproved⟩ := hrun hcomp
    refine ⟨_, _, hproved.pendingQuantity, hproved.additionalRisk, ?_, ?_, ?_⟩
    · intro parts hparts mark hmark realized average
      rw [decimalValue_text]
      exact hproved.covers hparts hmark realized average
    · rw [decimalValue_text]
      exact reserves_remainders hproved.reserves
    · intro reordered hperm hfits
      have hbase := provedReservation_of_complete hcomp
      rcases hfits with hagain | hlimit
      · exact provedReservation_reordered hbase hperm (provedReservation_of_complete hagain)
      · rw [decimalValue_text, unitValue_natCast, div_lt_iff₀ (by positivity), ← pow_add] at hlimit
        have hlt : (held.map Prod.fst).sum < unitLimit := by
          rw [unitLimit]
          exact_mod_cast hlimit
        have hreordered := provedReservation_of_fits hbase hperm hproved hlt
        conv_lhs => rw [calculateRiskReservation, hreordered]
  · intro entry hentry hunproven
    cases hstatus : (calculateRiskReservation input).status with
    | unresolved => rfl
    | complete =>
      obtain ⟨-, stop, owned, markRisk, held, hproved⟩ := hrun hstatus
      obtain ⟨i, hi, rfl⟩ := List.getElem_of_mem hentry
      have hreserves := hproved.reserves.get hi (hproved.reserves.length_eq ▸ hi)
      exact absurd hunproven hreserves.not_unproven

/-- An entry of which nothing is executed. -/
def restingEntry (status quantity price : String) : RiskEntryRemainder :=
  { status, quantity, filledQuantity := some "0", price := some price,
    operationUnresolved := false }

def restingInput (entries : List RiskEntryRemainder) : RiskReservationInput :=
  { side := "LONG"
    ownedQuantity := "2"
    averageEntryPrice := some "120"
    markPrice := some "110"
    stopPrice := "100"
    reportingCurrency := "USDT"
    market := some ⟨1, "paper-contract-v1", "BTC/USDT:USDT", "USDT", true, "base"⟩
    entries
    protectionProven := true }

def vastEntry : RiskEntryRemainder :=
  restingEntry "open" "600000000000000000000000000000000000" "100"

/-- Two entries priced beyond the stop, one of them partly filled before. -/
def restingEntries : List RiskEntryRemainder :=
  [restingEntry "open" "1" "105",
    { restingEntry "partially_filled" "2" "108" with filledQuantity := some "0.5" }]

theorem riskReservation_covers_resting :
    (calculateRiskReservation (restingInput restingEntries)).status = .complete ∧
      ∃ additionalRisk,
        (calculateRiskReservation (restingInput restingEntries)).additionalRisk =
          some additionalRisk ∧
        -decimalValue additionalRisk ≤ pnlAtStop .long 0 120 (decimalValue "100") (decimalValue "2")
            [⟨1, 104⟩, ⟨3 / 2, 107⟩] -
          pnlAtMark .long 0 120 (decimalValue "110") (decimalValue "2") := by
  have hcomp : (calculateRiskReservation (restingInput restingEntries)).status = .complete := by
    decide +kernel
  have hpart : ∀ {entry : RiskEntryRemainder} {price : String}
      {part : ExecutedPart},
      entry.price = some price → 0 ≤ part.quantity → part.quantity ≤ openRemainder entry →
        part.price ≤ decimalValue price → Executes .long entry part := by
    intro entry price part hentry hpos hle hbetter
    refine ⟨hpos, hle, ?_⟩
    intro price' hprice
    obtain rfl := Option.some.inj (hentry.symm.trans hprice)
    rw [directed, directed]
    linarith
  have hparts : List.Forall₂ (Executes .long) restingEntries [⟨1, 104⟩, ⟨3 / 2, 107⟩] := by
    refine .cons (hpart rfl ?_ ?_ ?_) (.cons (hpart rfl ?_ ?_ ?_) .nil)
    all_goals decide +kernel
  obtain ⟨hcovers, -⟩ := riskReservation_covers (restingInput restingEntries)
  obtain ⟨-, additionalRisk, -, hrisk, hbound, -⟩ := hcovers hcomp
  refine ⟨hcomp, additionalRisk, hrisk, ?_⟩
  exact hbound [⟨1, 104⟩, ⟨3 / 2, 107⟩] hparts (decimalValue "110")
    (fun price hprice => by rw [Option.some.inj hprice]) 0 120

/-- The last remainder is added to a sum that is no decimal any more, unless it comes first; and
`unknown` is one of the open states. -/
theorem riskReservation_of_vast_entries :
    (calculateRiskReservation (restingInput
        [restingEntry "cancelled" "1" "100", vastEntry, vastEntry])).status = .complete ∧
      (calculateRiskReservation (restingInput
        [vastEntry, vastEntry, restingEntry "cancelled" "1" "100"])).status = .unresolved ∧
      (calculateRiskReservation (restingInput [restingEntry "unknown" "1" "100"])).status =
        .complete := by
  decide +kernel

end TsxCore.TradingRiskReservations
