import TsxCore.DecimalBounds
import TsxCore.TradingTypes

/-!
# Protective stops (`trading_protection.ts`)

A stop protects a position when it is active, reduces the position, triggers no
later than required and still has enough quantity. The required quantity is what
is held together with everything the pending entries may still add.
-/

namespace TsxCore.TradingProtection

open Outcome TradingDecimal TradingTypes

structure ProtectionOrder where
  accountId : String
  intentId : String
  clientOrderId : Option String
  exchangeOrderId : Option String
  symbol : String
  role : String
  side : String
  status : String
  reduceOnly : Bool
  quantity : String
  filledQuantity : Option String
  triggerPrice : Option String

structure ProtectionNeed where
  accountId : String
  intentId : String
  symbol : String
  side : TradingSide
  quantity : String
  minimumTrigger : Option String

structure StopCoverage where
  isProtected : Bool
  remainingQuantity : Option String
  reason : Option String

/-- `TERMINAL_ORDER_STATES`. -/
def terminalOrderStates : List String := ["filled", "cancelled", "rejected"]

def notProtected (reason : String) (remaining : Option String := none) : StopCoverage :=
  ⟨false, remaining, some reason⟩

def closingSide : TradingSide → String
  | .long => "sell"
  | .short => "buy"

/-- Whether the trigger, compared with the required one, would fire too late. -/
def isLooser (side : TradingSide) (change : ℤ) : Prop :=
  (side = .long ∧ change < 0) ∨ (side = .short ∧ 0 < change)
  deriving Decidable

def triggerTooLoose (trigger : String) (side : TradingSide) : Option String → Outcome Bool
  | none => return false
  | some minimum => do
    let change ← compareDecimal trigger (← decimal minimum true)
    return decide (isLooser side change)

/-- The `try` block of `stopAmountsCoverage`. -/
def stopAmounts (order : ProtectionOrder) (filled : String) (need : ProtectionNeed) :
    Outcome StopCoverage := do
  let remaining ← subtractDecimal (← decimal order.quantity true) (← decimal filled)
  if (← compareDecimal remaining "0") ≤ 0 then return notProtected "STOP_EXHAUSTED" (some remaining)
  else match order.triggerPrice with
    | none => return notProtected "STOP_EVIDENCE_INVALID"
    | some price => do
      let trigger ← decimal price true
      if (← triggerTooLoose trigger need.side need.minimumTrigger) = true then
        return notProtected "STOP_TRIGGER_TOO_LOOSE" (some remaining)
      else if (← compareDecimal remaining (← decimal need.quantity)) < 0 then
        return notProtected "STOP_REMAINING_INSUFFICIENT" (some remaining)
      else return ⟨true, some remaining, none⟩

def stopAmountsCoverage (order : ProtectionOrder) (need : ProtectionNeed) : StopCoverage :=
  match order.filledQuantity with
  | none => notProtected "STOP_QUANTITY_UNKNOWN"
  | some filled =>
    match stopAmounts order filled need with
    | .ok coverage => coverage
    | .error _ => notProtected "STOP_EVIDENCE_INVALID"

def protectiveStopCoverage (order : ProtectionOrder) (need : ProtectionNeed) : StopCoverage :=
  if order.accountId ≠ need.accountId ∨ order.intentId ≠ need.intentId ∨
      order.symbol ≠ need.symbol ∨ order.clientOrderId.getD "" = "" ∨
      order.exchangeOrderId.getD "" = "" then notProtected "STOP_BINDING_MISMATCH"
  else if order.status ∉ ["open", "partially_filled"] then notProtected "STOP_NOT_ACTIVE"
  else if order.role ≠ "stop_loss" ∨ order.reduceOnly = false ∨
      order.side ≠ closingSide need.side then notProtected "STOP_SEMANTICS_INVALID"
  else stopAmountsCoverage order need

/-- One round of the `reduce` in `requiredStopQuantity`. -/
def addPendingEntry (quantity : String) (entry : ProtectionOrder) : Outcome String :=
  if entry.status ∈ terminalOrderStates then return quantity
  else match entry.filledQuantity with
    | none => .error (.error "Entry remaining quantity is not proved.")
    | some filled => do
      let remaining ← subtractDecimal (← decimal entry.quantity true) (← decimal filled)
      addDecimal quantity remaining

def requiredStopQuantity (positionQuantity : String) (entries : List ProtectionOrder) :
    Outcome String := do
  entries.foldlM addPendingEntry (← decimal positionQuantity)

/-- What is left of an order; an unreported execution counts as none. -/
def remainingQuantity (order : ProtectionOrder) : ℚ :=
  decimalValue order.quantity - decimalValue (order.filledQuantity.getD "0")

/-- The trigger of a stop is no looser than the minimum of the need. -/
def TriggerHolds (need : ProtectionNeed) (order : ProtectionOrder) : Prop :=
  ∃ trigger, order.triggerPrice = some trigger ∧
    ∀ minimum, need.minimumTrigger = some minimum →
      (need.side = .long → decimalValue minimum ≤ decimalValue trigger) ∧
      (need.side = .short → decimalValue trigger ≤ decimalValue minimum)

/-- An active reduce-only stop of the closing side, bound to the position. -/
structure StopFor (need : ProtectionNeed) (order : ProtectionOrder) : Prop where
  accountId : order.accountId = need.accountId
  intentId : order.intentId = need.intentId
  symbol : order.symbol = need.symbol
  active : order.status ∈ ["open", "partially_filled"]
  role : order.role = "stop_loss"
  reduceOnly : order.reduceOnly = true
  side : order.side = closingSide need.side
  trigger : TriggerHolds need order

section Coverage

variable {order : ProtectionOrder} {need : ProtectionNeed} {entries : List ProtectionOrder}

theorem triggerTooLoose_false {trigger : String} {side : TradingSide} {minimum : Option String}
    (h : triggerTooLoose trigger side minimum = .ok false) :
    ∀ m, minimum = some m → (side = .long → decimalValue m ≤ decimalValue trigger) ∧
      (side = .short → decimalValue trigger ≤ decimalValue m) := by
  intro m hm
  subst hm
  simp only [triggerTooLoose, bind_eq_ok, pure_eq_ok_iff, decide_eq_false_iff_not] at h
  obtain ⟨normalized, hnormalized, change, hchange, hloose⟩ := h
  obtain ⟨hlow, hhigh⟩ := compareDecimal_value hchange
  rw [(decimal_value hnormalized).1] at hlow hhigh
  rw [isLooser, not_or, not_and, not_and] at hloose
  refine ⟨?_, ?_⟩
  · intro hlong
    exact not_lt.mp (fun hlt => hloose.1 hlong (hlow.mpr hlt))
  · intro hshort
    exact not_lt.mp (fun hlt => hloose.2 hshort (hhigh.mpr hlt))

theorem stopAmounts_protected {filled : String} {coverage : StopCoverage}
    (h : stopAmounts order filled need = .ok coverage) (hprot : coverage.isProtected = true) :
    TriggerHolds need order ∧
      decimalValue need.quantity ≤ decimalValue order.quantity - decimalValue filled := by
  simp only [stopAmounts, bind_eq_ok] at h
  obtain ⟨quantity, hqty, executed, hexec, remaining, hrem, sign, -, h⟩ := h
  split_ifs at h with hsign
  · cases pure_eq_ok_iff.mp h
    exact absurd hprot (by simp [notProtected])
  · cases hprice : order.triggerPrice with
    | none =>
      simp only [hprice, pure_eq_ok_iff] at h
      subst h
      exact absurd hprot (by simp [notProtected])
    | some price =>
      simp only [hprice, bind_eq_ok] at h
      obtain ⟨trigger, htrig, loose, hloose, h⟩ := h
      split_ifs at h with hlooseTrue
      · cases pure_eq_ok_iff.mp h
        exact absurd hprot (by simp [notProtected])
      · simp only [bind_eq_ok] at h
        obtain ⟨needed, hneeded, enough, henough, h⟩ := h
        split_ifs at h with hless
        · cases pure_eq_ok_iff.mp h
          exact absurd hprot (by simp [notProtected])
        · rw [Bool.not_eq_true] at hlooseTrue
          subst hlooseTrue
          refine ⟨⟨price, hprice, ?_⟩, ?_⟩
          · rw [← (decimal_value htrig).1]
            exact triggerTooLoose_false hloose
          · have hle : decimalValue needed ≤ decimalValue remaining :=
              not_lt.mp (fun hlt => hless ((compareDecimal_value henough).1.mpr hlt))
            rwa [(decimal_value hneeded).1, subtractDecimal_value hrem,
              (decimal_value hqty).1, (decimal_value hexec).1] at hle

theorem protectiveStopCoverage_protected
    (h : (protectiveStopCoverage order need).isProtected = true) :
    StopFor need order ∧ decimalValue need.quantity ≤ remainingQuantity order := by
  unfold protectiveStopCoverage at h
  split_ifs at h with hbind hact hsemantics
  · exact absurd h (by simp [notProtected])
  · exact absurd h (by simp [notProtected])
  · simp only [not_or, not_not, Bool.not_eq_false] at hbind hsemantics
    unfold stopAmountsCoverage at h
    cases hfilled : order.filledQuantity with
    | none => exact absurd h (by simp [hfilled, notProtected])
    | some filled =>
      simp only [hfilled] at h
      cases hamounts : stopAmounts order filled need with
      | error e => exact absurd h (by simp [hamounts, notProtected])
      | ok coverage =>
        simp only [hamounts] at h
        obtain ⟨htrig, hqty⟩ := stopAmounts_protected hamounts h
        refine ⟨⟨hbind.1, hbind.2.1, hbind.2.2.1, hact, hsemantics.1,
          hsemantics.2.1, hsemantics.2.2, htrig⟩, ?_⟩
        rwa [remainingQuantity, hfilled, Option.getD_some]
  · exact absurd h (by simp [notProtected])

theorem addDecimal_value {l r s : String} (h : addDecimal l r = .ok s) :
    decimalValue s = decimalValue l + decimalValue r := by
  obtain ⟨u, v, hu, hv, rfl⟩ := addDecimal_ok_iff.mp h
  rw [decimalValue_text, hu.decimalValue, hv.decimalValue, Nat.cast_add, unitValue_add]

def isPending (order : ProtectionOrder) : Bool := order.status ∉ terminalOrderStates

/-- The required quantity is what is held and all that the pending entries may add. -/
theorem pendingEntries_value {start total : String}
    (h : entries.foldlM addPendingEntry start = .ok total) :
    decimalValue total =
      decimalValue start + ((entries.filter isPending).map remainingQuantity).sum := by
  induction entries generalizing start with
  | nil =>
    cases pure_eq_ok_iff.mp h
    simp
  | cons entry entries ih =>
    rw [List.foldlM_cons, bind_eq_ok] at h
    obtain ⟨next, hnext, hrest⟩ := h
    rw [ih hrest]
    by_cases hterminal : entry.status ∈ terminalOrderStates
    · rw [addPendingEntry, if_pos hterminal] at hnext
      cases pure_eq_ok_iff.mp hnext
      rw [List.filter_cons_of_neg (by simp [isPending, hterminal])]
    · rw [addPendingEntry, if_neg hterminal] at hnext
      cases hfilled : entry.filledQuantity with
      | none => exact absurd hnext (by simp [hfilled])
      | some filled =>
        simp only [hfilled, bind_eq_ok] at hnext
        obtain ⟨quantity, hqty, executed, hexec, remaining, hrem, hadd⟩ := hnext
        have hvalue : decimalValue remaining = remainingQuantity entry := by
          rw [subtractDecimal_value hrem, (decimal_value hqty).1,
            (decimal_value hexec).1, remainingQuantity, hfilled, Option.getD_some]
        rw [List.filter_cons_of_pos (by simp [isPending, hterminal]), List.map_cons,
          List.sum_cons, addDecimal_value hadd, hvalue]
        ring

theorem requiredStopQuantity_value {held total : String}
    (h : requiredStopQuantity held entries = .ok total) :
    decimalValue total =
      decimalValue held + ((entries.filter isPending).map remainingQuantity).sum := by
  simp only [requiredStopQuantity, bind_eq_ok] at h
  obtain ⟨start, hstart, hfold⟩ := h
  rw [pendingEntries_value hfold, (decimal_value hstart).1]

end Coverage

end TsxCore.TradingProtection
