import TsxCore.TradingAdaptiveStop
import TsxCore.TradingProtection

/-!
# The protective stop of an open position (`trading_engine.ts`)

`desiredProtectiveStop` chooses among the stop of the plan, the adaptive ladder, break-even,
the stop that stands and a trailing stop. A pass of `ensureProtectiveStop` stores the trigger
once a stop with it is active. Prices are compared on the axis of `directed`, which grows
towards the profit of the side, so that a tighter stop is a larger value.
-/

namespace TsxCore.TradingProtectiveStop

open Outcome TradingDecimal TradingTypes TradingRisk TradingProtection SignalSchema

/-- The `exits` of a strategy that the management of a stop reads. -/
structure ManagedExits where
  stopLossMode : Option String
  moveStopToBreakEvenAfterTarget : Option ℤ
  trailingStopPercent : Option String

/-- A plan read back from `plan_json`. Its mode is any text there and may be absent; the mode of
`plan` is not read. -/
structure StoredPlan where
  plan : TradingPlan
  stopLossMode : Option String

inductive StopReason
  | initial
  | breakEvenAfterTarget
  | targetLadderAfterTarget
  | finalTargetComplete
  | configuredBreakEven
  | existingSafer
  | trailingStop
  deriving DecidableEq

structure ProtectiveStopDecision where
  trigger : String
  reason : StopReason
  referenceTargetIndex : Option ℤ
  deriving DecidableEq

/-- `market` is what `adapter.marketSnapshot` answers; it is asked at most once. -/
structure ProtectiveStopInput where
  market : Outcome TradingMarketSnapshot
  side : TradingSide
  plan : StoredPlan
  exits : ManagedExits
  filledTargets : ℤ
  entryAveragePrice : String
  currentTrigger : Option String

def stopImproves (side : TradingSide) (candidate current : String) : Outcome Bool := do
  let order ← compareDecimal candidate current
  match side with
  | .long => return decide (0 < order)
  | .short => return decide (order < 0)

def breaksEven (exits : ManagedExits) (filledTargets : ℤ) : Bool :=
  exits.moveStopToBreakEvenAfterTarget.any (· ≤ filledTargets)

def configuredStopDecision (plan : TradingPlan) (exits : ManagedExits) (filledTargets : ℤ)
    (breakEvenPrice : String) : ProtectiveStopDecision :=
  if breaksEven exits filledTargets then ⟨breakEvenPrice, .configuredBreakEven, none⟩
  else ⟨plan.stopPrice, .initial, none⟩

def adaptiveReason : AdaptiveStopReason → StopReason
  | .initial => .initial
  | .breakEvenAfterTarget => .breakEvenAfterTarget
  | .targetLadderAfterTarget => .targetLadderAfterTarget
  | .finalTargetComplete => .finalTargetComplete

def stopLossMode (input : ProtectiveStopInput) : String :=
  (input.plan.stopLossMode.or input.exits.stopLossMode).getD "configured"

/-- The decision by the mode, before anything else is weighed against it. -/
def plannedStopDecision (input : ProtectiveStopInput) : Outcome ProtectiveStopDecision :=
  if stopLossMode input = "adaptive_targets" then do
    let decision ←
      adaptiveStopLossDecision input.plan.plan input.filledTargets input.entryAveragePrice
    return ⟨decision.trigger, adaptiveReason decision.reason, decision.referenceTargetIndex⟩
  else .ok (configuredStopDecision input.plan.plan input.exits input.filledTargets
    input.entryAveragePrice)

def decisionUsesBreakEven (input : ProtectiveStopInput) (decision : ProtectiveStopDecision) :
    Outcome Bool :=
  if decision.reason = .breakEvenAfterTarget ∨ decision.reason = .configuredBreakEven then .ok true
  else if decision.reason = .finalTargetComplete then do
    return decide ((← compareDecimal decision.trigger input.entryAveragePrice) = 0)
  else .ok false

def roundBreakEven (input : ProtectiveStopInput) (decision : ProtectiveStopDecision) :
    Outcome ProtectiveStopDecision := do
  if (← decisionUsesBreakEven input decision) = true then
    let market ← input.market
    let trigger ← breakEvenStopPrice input.side input.entryAveragePrice market.priceTick
    return { decision with trigger }
  else return decision

def keepSafer (input : ProtectiveStopInput) (decision : ProtectiveStopDecision) :
    Outcome ProtectiveStopDecision :=
  match input.currentTrigger.filter (· ≠ "") with
  | none => return decision
  | some current => do
    if (← stopImproves input.side current decision.trigger) = true then
      return ⟨current, .existingSafer, none⟩
    else return decision

def trailingCandidate (side : TradingSide) (market : TradingMarketSnapshot) (percent : String) :
    Outcome String := do
  let distance ← divideDecimal (← multiplyDecimal market.markPrice percent) "100"
  let stop ← match side with
    | .long => subtractDecimal market.markPrice distance
    | .short => addDecimal market.markPrice distance
  quantizeDecimalDown stop market.priceTick

def trailStop (input : ProtectiveStopInput) (percent : String) (decision : ProtectiveStopDecision) :
    Outcome ProtectiveStopDecision := do
  let market ← input.market
  let candidate ← trailingCandidate input.side market percent
  if (← stopImproves input.side candidate decision.trigger) = true then
    return ⟨candidate, .trailingStop, none⟩
  else return decision

def desiredProtectiveStop (input : ProtectiveStopInput) : Outcome ProtectiveStopDecision := do
  throwIf (stopLossMode input ∉ ["configured", "adaptive_targets"]) (tradingRiskError
    "INVALID_STOP_LOSS_MODE" "Unsupported stop-loss management mode.")
  let planned ← plannedStopDecision input
  let rounded ← roundBreakEven input planned
  let decision ← keepSafer input rounded
  if stopLossMode input = "adaptive_targets" then return decision
  else match input.exits.trailingStopPercent with
    | none => return decision
    | some percent => trailStop input percent decision

/-- The row of an open position, with the plan of its intent. -/
structure PositionRow where
  accountId : String
  intentId : String
  symbol : String
  side : TradingSide
  stopPrice : String
  plan : Option StoredPlan

/-- What a pass reads besides the row. `prepared` stands for the lookups and the recovery of
prepared exits before it, `submitted` for the order that the exchange accepted in place of a
missing stop; `entryFills` are pairs of price and quantity. -/
structure PassReads where
  prepared : Outcome Unit
  exits : ManagedExits
  intentOrders : List ProtectionOrder
  remoteOrders : List ProtectionOrder
  cancellingStops : List String
  filledTargets : Outcome ℤ
  entryFills : List (String × String)
  quantity : String
  market : Outcome TradingMarketSnapshot
  submitted : Outcome ProtectionOrder

def provedEntryAverage (fills : List (String × String)) : Outcome String := do
  let cost ← fills.foldlM (fun total (price, quantity) => do
    addDecimal total (← multiplyDecimal price quantity)) "0"
  let quantity ← fills.foldlM (fun total (_, quantity) => addDecimal total quantity) "0"
  divideDecimal cost quantity

/-- The entry average matters only once a target is filled. -/
def entryAverage (reads : PassReads) (plan : StoredPlan) (filledTargets : ℤ) : Outcome String :=
  if 0 < filledTargets then provedEntryAverage reads.entryFills else .ok plan.plan.entryPrice

/-- The active stops of the position among the orders that the exchange reports. -/
def matchingActiveStops (remote : List ProtectionOrder) (intentOrderIds : List String)
    (row : PositionRow) : List ProtectionOrder :=
  remote.filter (fun order => order.filledQuantity.isSome && order.triggerPrice.isSome &&
    order.clientOrderId.any (· ∈ intentOrderIds) &&
    (protectiveStopCoverage { order with accountId := row.accountId, intentId := row.intentId }
      { accountId := row.accountId
        intentId := row.intentId
        symbol := row.symbol
        side := row.side
        quantity := "0"
        minimumTrigger := none }).isProtected)

def triggerOf (stop : ProtectionOrder) : String := stop.triggerPrice.getD ""

/-- One round of the `reduce` in `safestActiveStop`. -/
def saferStop (side : TradingSide) (best : Option ProtectionOrder) (candidate : ProtectionOrder) :
    Outcome (Option ProtectionOrder) :=
  match best with
  | none => return some candidate
  | some best =>
    if triggerOf candidate = "" then return some best
    else if triggerOf best = "" then return some candidate
    else do
      let candidateIsSafer ← stopImproves side (triggerOf candidate) (triggerOf best)
      return some (if candidateIsSafer then candidate else best)

def safestActiveStop (activeStops : List ProtectionOrder) (side : TradingSide) :
    Outcome (Option ProtectionOrder) :=
  activeStops.foldlM (saferStop side) none

def protectiveReferenceTrigger (activeStop : Option ProtectionOrder) (row : PositionRow) :
    Outcome String :=
  match (activeStop.map triggerOf).filter (· ≠ "") with
  | none => return row.stopPrice
  | some trigger => do
    if (← stopImproves row.side trigger row.stopPrice) = true then return trigger
    else return row.stopPrice

/-- Whether the stop has the wanted remainder and trigger. -/
def isExactStop (protectiveQuantity trigger : String) (stop : ProtectionOrder) : Outcome Bool := do
  let remaining ← subtractDecimal stop.quantity (stop.filledQuantity.getD "")
  if (← compareDecimal remaining protectiveQuantity) = 0 then
    return decide ((← compareDecimal (triggerOf stop) trigger) = 0)
  else return false

def activateProtectiveStop (reads : PassReads) (existing : Option ProtectionOrder) :
    Outcome ProtectionOrder :=
  match existing with
  | some stop => return stop
  | none => reads.submitted

/-- A pass up to the `UPDATE` of `stop_price`; what follows no longer writes the position. -/
def ensureProtectiveStop (reads : PassReads) (row : PositionRow) : Outcome PositionRow := do
  match row.plan with
  | none => .error (.error "Open position has no recoverable intent and plan.")
  | some plan =>
    reads.prepared
    let intentOrderIds := reads.intentOrders.filterMap (·.clientOrderId)
    let filledTargets ← reads.filledTargets
    let entryAveragePrice ← entryAverage reads plan filledTargets
    let activeStops := matchingActiveStops reads.remoteOrders intentOrderIds row
    let durableStops := activeStops.filter (fun stop =>
      !stop.clientOrderId.any (· ∈ reads.cancellingStops))
    let activeStop ← safestActiveStop durableStops row.side
    let protectiveQuantity ← requiredStopQuantity reads.quantity
      (reads.intentOrders.filter (·.role = "entry"))
    let currentTrigger ← protectiveReferenceTrigger activeStop row
    let decision ← desiredProtectiveStop
      { market := reads.market
        side := row.side
        plan
        exits := reads.exits
        filledTargets
        entryAveragePrice
        currentTrigger := some currentTrigger }
    let exactStop ← durableStops.findM? (isExactStop protectiveQuantity decision.trigger)
    let _ ← activateProtectiveStop reads exactStop
    return { row with stopPrice := decision.trigger }

def afterPass (row : PositionRow) (reads : PassReads) : PositionRow :=
  (ensureProtectiveStop reads row).toOption.getD row

def afterPasses (row : PositionRow) (passes : List PassReads) : PositionRow :=
  passes.foldl afterPass row

/-- The row that `persistPlan` inserts. -/
def plannedPosition (accountId intentId symbol : String) (side : TradingSide) (plan : StoredPlan) :
    PositionRow :=
  ⟨accountId, intentId, symbol, side, plan.plan.stopPrice, some plan⟩

section Decision

variable {input : ProtectiveStopInput} {decision result : ProtectiveStopDecision}
  {side : TradingSide} {candidate current : String}

theorem stopImproves_ok {improves : Bool} (h : stopImproves side candidate current = .ok improves) :
    (∃ u, Denotes candidate u) ∧ (∃ u, Denotes current u) ∧
      (improves = true ↔
        directed side (decimalValue current) < directed side (decimalValue candidate)) := by
  rw [stopImproves, bind_eq_ok] at h
  obtain ⟨order, horder, h⟩ := h
  obtain ⟨hless, hgreater⟩ := compareDecimal_value horder
  obtain ⟨u, v, hu, hv, -⟩ := compareDecimal_ok_iff.mp horder
  refine ⟨⟨u, hu⟩, ⟨v, hv⟩, ?_⟩
  cases side with
  | long =>
    obtain rfl := pure_eq_ok_iff.mp h
    rw [decide_eq_true_iff]
    exact hgreater
  | short =>
    obtain rfl := pure_eq_ok_iff.mp h
    rw [decide_eq_true_iff, directed, directed, neg_lt_neg_iff]
    exact hless

theorem adaptiveStopLossDecision_breakEven {plan : TradingPlan} {filledTargets : ℤ}
    {breakEvenPrice : String} {adaptive : AdaptiveStopLossDecision}
    (h : adaptiveStopLossDecision plan filledTargets breakEvenPrice = .ok adaptive)
    (hrsn : adaptive.reason = .breakEvenAfterTarget) : adaptive.trigger = breakEvenPrice := by
  unfold adaptiveStopLossDecision at h
  dsimp only at h
  split at h <;> split at h <;> try split at h
  -- with every target filled the reason is another one
  · cases pure_eq_ok_iff.mp h
    cases hrsn
  · cases pure_eq_ok_iff.mp h
    cases hrsn
  · simp only [bind_eq_ok, pure_eq_ok_iff] at h
    obtain ⟨-, -, rfl⟩ := h
    cases hrsn
  · cases pure_eq_ok_iff.mp h
    cases hrsn
  · cases pure_eq_ok_iff.mp h
    rfl
  · simp only [bind_eq_ok, pure_eq_ok_iff] at h
    obtain ⟨-, -, rfl⟩ := h
    cases hrsn

/-- A break-even decision stands at the entry average until it is rounded. -/
theorem plannedStopDecision_breakEven (h : plannedStopDecision input = .ok decision)
    (huses : decisionUsesBreakEven input decision = .ok true) :
    decimalValue decision.trigger = decimalValue input.entryAveragePrice := by
  unfold decisionUsesBreakEven at huses
  split_ifs at huses with hrsn hfinal
  · unfold plannedStopDecision at h
    split_ifs at h with hmode
    · simp only [bind_eq_ok, pure_eq_ok_iff] at h
      obtain ⟨adaptive, hadaptive, rfl⟩ := h
      rw [adaptiveStopLossDecision_breakEven hadaptive ?_]
      cases hkind : adaptive.reason <;> simp [hkind, adaptiveReason] at hrsn ⊢
    · obtain rfl := Except.ok.inj h
      unfold configuredStopDecision at hrsn ⊢
      split_ifs at hrsn ⊢
      · rfl
      · simp at hrsn
  · simp only [bind_eq_ok, pure_eq_ok_iff, decide_eq_true_eq] at huses
    obtain ⟨order, horder, hzero⟩ := huses
    exact (compareDecimal_eq_zero horder).mp hzero
  · cases huses

/-- Rounding a break-even stop tightens it. -/
theorem roundBreakEven_tightens (hplanned : plannedStopDecision input = .ok decision)
    (h : roundBreakEven input decision = .ok result) :
    directed input.side (decimalValue decision.trigger) ≤
      directed input.side (decimalValue result.trigger) ∧ result.reason = decision.reason := by
  rw [roundBreakEven, bind_eq_ok] at h
  obtain ⟨uses, huses, h⟩ := h
  cases uses with
  | false =>
    obtain rfl := pure_eq_ok_iff.mp h
    exact ⟨le_rfl, rfl⟩
  | true =>
    simp only [if_true, bind_eq_ok, pure_eq_ok_iff] at h
    obtain ⟨market, -, trigger, htrig, rfl⟩ := h
    rw [plannedStopDecision_breakEven hplanned huses]
    exact ⟨breakEvenStopPrice_covers htrig, rfl⟩

/-- The stop that stands is kept unless the decision is at least as tight. -/
theorem keepSafer_ok (h : keepSafer input decision = .ok result) :
    directed input.side (decimalValue decision.trigger) ≤
        directed input.side (decimalValue result.trigger) ∧
      (∀ current, input.currentTrigger = some current → current ≠ "" →
        directed input.side (decimalValue current) ≤
          directed input.side (decimalValue result.trigger) ∧ ∃ u, Denotes result.trigger u) ∧
      (result = decision ∨ ∃ current, input.currentTrigger = some current ∧ current ≠ "" ∧
        result = ⟨current, .existingSafer, none⟩) := by
  unfold keepSafer at h
  cases hcur : input.currentTrigger.filter (· ≠ "") with
  | none =>
    rw [hcur] at h
    obtain rfl := pure_eq_ok_iff.mp h
    rw [Option.filter_eq_none_iff] at hcur
    refine ⟨le_rfl, ?_, Or.inl rfl⟩
    intro current hsome hne
    exact absurd (decide_eq_true hne) (hcur current hsome)
  | some current =>
    simp only [hcur, bind_eq_ok] at h
    obtain ⟨improves, himproves, h⟩ := h
    obtain ⟨hreads, hstands, hiff⟩ := stopImproves_ok himproves
    rw [Option.filter_eq_some_iff, decide_eq_true_iff] at hcur
    obtain ⟨hsome, hne⟩ := hcur
    cases improves with
    | true =>
      obtain rfl := pure_eq_ok_iff.mp h
      refine ⟨(hiff.mp rfl).le, ?_, Or.inr ⟨current, hsome, hne, rfl⟩⟩
      intro other hother _
      obtain rfl := Option.some.inj (hsome.symm.trans hother)
      exact ⟨le_rfl, hreads⟩
    | false =>
      obtain rfl := pure_eq_ok_iff.mp h
      refine ⟨le_rfl, ?_, Or.inl rfl⟩
      intro other hother _
      obtain rfl := Option.some.inj (hsome.symm.trans hother)
      exact ⟨not_lt.mp (fun hlt => Bool.false_ne_true (hiff.mpr hlt)), hstands⟩

theorem plannedStopDecision_reason (h : plannedStopDecision input = .ok decision) :
    decision.reason ≠ .trailingStop := by
  unfold plannedStopDecision at h
  split_ifs at h with hmode
  · simp only [bind_eq_ok, pure_eq_ok_iff] at h
    obtain ⟨adaptive, -, rfl⟩ := h
    cases adaptive.reason <;> simp [adaptiveReason]
  · obtain rfl := Except.ok.inj h
    unfold configuredStopDecision
    split_ifs <;> simp

end Decision

section Trailing

variable {input : ProtectiveStopInput} {decision result : ProtectiveStopDecision}
  {market : TradingMarketSnapshot} {percent candidate : String} {side : TradingSide}
  {planned rounded : ProtectiveStopDecision}

/-- The distance that the percentage leaves, cut to 18 digits. -/
def trailingDistance (mark percent : ℚ) : ℚ := floorTo (1 / 10 ^ 18) (mark * percent / 100)

/-- Where the trailing stop stands on the axis of the side. -/
def trailedStop (side : TradingSide) (mark percent tick : ℚ) : ℚ :=
  directed side (floorTo tick (mark - directed side (trailingDistance mark percent)))

theorem denotes_hundred : Denotes "100" (100 * 10 ^ 18) := ⟨⟨100, 0⟩, by decide +kernel, by decide⟩

theorem trailingDistance_value {product distance : String} {mark percent : String}
    (hprod : multiplyDecimal mark percent = .ok product)
    (hdst : divideDecimal product "100" = .ok distance) :
    decimalValue distance = trailingDistance (decimalValue mark) (decimalValue percent) ∧
      0 ≤ decimalValue distance := by
  obtain ⟨u, v, hu, hv, rfl⟩ := multiplyDecimal_ok_iff.mp hprod
  obtain ⟨p, q, hp, hq, -, rfl⟩ := (divideDecimal_ok_iff le_rfl).mp hdst
  obtain ⟨rfl, -⟩ := denotes_text_iff.mp hp
  obtain rfl := hq.unique denotes_hundred
  have hquanta : u * v / 10 ^ 18 * 10 ^ 18 / (100 * 10 ^ 18) * 10 ^ (18 - 18) =
    u * v / 10 ^ 20 := by
    rw [Nat.mul_div_mul_right _ _ (by positivity), Nat.div_div_eq_div_mul, Nat.sub_self, pow_zero,
      mul_one]
    norm_num
  rw [hquanta, decimalValue_text]
  refine ⟨?_, unitValue_nonneg _⟩
  have hexact : decimalValue mark * decimalValue percent / 100 = ((u * v : ℕ) : ℚ) / 10 ^ 38 := by
    rw [hu.decimalValue, hv.decimalValue, unitValue_natCast, unitValue_natCast]
    push_cast
    ring
  have hlow : u * v / 10 ^ 20 * 10 ^ 20 ≤ u * v := Nat.div_mul_le_self _ _
  have hhigh : u * v < u * v / 10 ^ 20 * 10 ^ 20 + 10 ^ 20 := Nat.lt_div_mul_add (by positivity)
  have hlow' : ((u * v / 10 ^ 20 : ℕ) : ℚ) * 10 ^ 20 ≤ (u * v : ℕ) := by exact_mod_cast hlow
  have hhigh' : ((u * v : ℕ) : ℚ) < (u * v / 10 ^ 20 : ℕ) * 10 ^ 20 + 10 ^ 20 := by
    exact_mod_cast hhigh
  have hfloor : floorTo (1 / 10 ^ 18) (((u * v : ℕ) : ℚ) / 10 ^ 38) =
      (((u * v / 10 ^ 20 : ℕ) : ℤ) : ℚ) * (1 / 10 ^ 18) := by
    rw [floorTo_eq_iff (by positivity), Int.cast_natCast]
    constructor
    · rw [le_div_iff₀ (by positivity)]
      linarith
    · rw [div_lt_iff₀ (by positivity)]
      linarith
  unfold trailingDistance
  rw [hexact, hfloor, unitValue_natCast, Int.cast_natCast, mul_one_div]

theorem trailingCandidate_ok (h : trailingCandidate side market percent = .ok candidate) :
    0 < decimalValue market.priceTick ∧
      0 ≤ trailingDistance (decimalValue market.markPrice) (decimalValue percent) ∧
      directed side (decimalValue candidate) = trailedStop side (decimalValue market.markPrice)
        (decimalValue percent) (decimalValue market.priceTick) := by
  unfold trailedStop
  cases side with
  | long =>
    simp only [trailingCandidate, bind_eq_ok] at h
    obtain ⟨product, hprod, distance, hdst, stop, hstop, hcand⟩ := h
    obtain ⟨hvalue, hnn⟩ := trailingDistance_value hprod hdst
    obtain ⟨htick, hfloor⟩ := quantizeDecimalDown_value hcand
    refine ⟨htick, hvalue ▸ hnn, ?_⟩
    rw [hfloor, ← hvalue, subtractDecimal_value hstop, directed, directed, directed]
  | short =>
    simp only [trailingCandidate, bind_eq_ok] at h
    obtain ⟨product, hprod, distance, hdst, stop, hstop, hcand⟩ := h
    obtain ⟨hvalue, hnn⟩ := trailingDistance_value hprod hdst
    obtain ⟨htick, hfloor⟩ := quantizeDecimalDown_value hcand
    refine ⟨htick, hvalue ▸ hnn, ?_⟩
    rw [hfloor, ← hvalue, TradingDecimal.addDecimal_value hstop, directed, directed, directed,
      sub_neg_eq_add]

/-- Some multiple of the tick lies beyond the mark price, no further away than the distance (for
LONG: where rounding down from the distance comes out below the mark). -/
def LeavesMark (side : TradingSide) (mark distance tick : ℚ) : Prop :=
  match side with
  | .long => 0 < distance ∨ ∀ n : ℤ, n * tick ≠ mark
  | .short => ∃ n : ℤ, mark < n * tick ∧ n * tick ≤ mark + distance

theorem leavesMark_iff {mark percent tick : ℚ} (htick : 0 < tick)
    (hdst : 0 ≤ trailingDistance mark percent) :
    LeavesMark side mark (trailingDistance mark percent) tick ↔
      trailedStop side mark percent tick < directed side mark := by
  unfold LeavesMark trailedStop
  generalize trailingDistance mark percent = distance at hdst
  cases side with
  | long =>
    simp only [directed]
    have hle : floorTo tick (mark - distance) ≤ mark - distance := floorTo_le htick
    constructor
    · rintro (hpos | hoff)
      · linarith
      · refine lt_of_le_of_ne (by linarith) ?_
        exact hoff ⌊(mark - distance) / tick⌋
    · intro hlt
      by_contra hnot
      rw [not_or, not_lt, not_forall_not] at hnot
      obtain ⟨hzero, n, hn⟩ := hnot
      have hexact : floorTo tick (mark - distance) = n * tick := by
        rw [floorTo_eq_iff htick]
        constructor <;> linarith
      rw [hexact, hn] at hlt
      exact lt_irrefl _ hlt
  | short =>
    simp only [directed, sub_neg_eq_add, neg_lt_neg_iff]
    constructor
    · rintro ⟨n, hbeyond, hwithin⟩
      exact hbeyond.trans_le ((multiple_le_floorTo_iff htick n).mpr hwithin)
    · intro hlt
      exact ⟨⌊(mark + distance) / tick⌋, hlt, floorTo_le htick⟩

/-- The tightest of what the plan, break-even and the current trigger ask for. -/
def standingStop (input : ProtectiveStopInput) (market : TradingMarketSnapshot) : ℚ :=
  let planned := if breaksEven input.exits input.filledTargets then
      -floorTo (decimalValue market.priceTick)
        (-directed input.side (decimalValue input.entryAveragePrice))
    else directed input.side (decimalValue input.plan.plan.stopPrice)
  match input.currentTrigger.filter (· ≠ "") with
  | none => planned
  | some current => max (directed input.side (decimalValue current)) planned

theorem directed_breakEvenStopPrice {average tick trigger : String}
    (h : breakEvenStopPrice side average tick = .ok trigger) :
    directed side (decimalValue trigger) =
      -floorTo (decimalValue tick) (-directed side (decimalValue average)) := by
  cases side with
  | long => exact (quantizeDecimalUp_value h).2
  | short => rw [directed, directed, neg_neg, (quantizeDecimalDown_value h).2]

theorem keptStop_value (hmode : stopLossMode input ≠ "adaptive_targets")
    (hmkt : input.market = .ok market) (hplanned : plannedStopDecision input = .ok planned)
    (hrounded : roundBreakEven input planned = .ok rounded)
    (h : keepSafer input rounded = .ok decision) :
    directed input.side (decimalValue decision.trigger) = standingStop input market := by
  have hvalue : directed input.side (decimalValue rounded.trigger) =
      if breaksEven input.exits input.filledTargets then
        -floorTo (decimalValue market.priceTick)
          (-directed input.side (decimalValue input.entryAveragePrice))
      else directed input.side (decimalValue input.plan.plan.stopPrice) := by
    rw [plannedStopDecision, if_neg hmode, Except.ok.injEq] at hplanned
    subst hplanned
    unfold configuredStopDecision roundBreakEven decisionUsesBreakEven at hrounded
    by_cases hbreak : breaksEven input.exits input.filledTargets = true
    · simp only [hbreak, if_true, or_true, ok_bind, hmkt, bind_eq_ok, pure_eq_ok_iff] at hrounded
      obtain ⟨trigger, htrig, rfl⟩ := hrounded
      rw [if_pos hbreak]
      exact directed_breakEvenStopPrice htrig
    · simp only [hbreak, if_false, reduceCtorEq, or_self, ok_bind, pure_eq_ok_iff,
        Bool.false_eq_true] at hrounded
      rw [if_neg hbreak, ← hrounded]
  obtain ⟨htight, hcur, hcases⟩ := keepSafer_ok h
  unfold standingStop
  rw [← hvalue]
  cases hfilt : input.currentTrigger.filter (· ≠ "") with
  | none =>
    rcases hcases with rfl | ⟨current, hsome, hne, -⟩
    · rfl
    · simp [hsome, hne] at hfilt
  | some current =>
    rw [Option.filter_eq_some_iff, decide_eq_true_iff] at hfilt
    obtain ⟨hsome, hne⟩ := hfilt
    apply le_antisymm
    · rcases hcases with rfl | ⟨other, hother, -, rfl⟩
      · exact le_max_right _ _
      · rw [hsome, Option.some.injEq] at hother
        rw [hother]
        exact le_max_left _ _
    · exact max_le (hcur current hsome hne).1 htight

/-- When the trailing stop clears the mark price: it leaves the mark by a tick, or the stop that
stands without it is at least as tight, so that it is not taken. -/
def TrailClears (input : ProtectiveStopInput) : Prop :=
  ∀ percent market, stopLossMode input ≠ "adaptive_targets" →
    input.exits.trailingStopPercent = some percent → input.market = .ok market →
    LeavesMark input.side (decimalValue market.markPrice)
        (trailingDistance (decimalValue market.markPrice) (decimalValue percent))
        (decimalValue market.priceTick) ∨
      trailedStop input.side (decimalValue market.markPrice) (decimalValue percent)
        (decimalValue market.priceTick) ≤ standingStop input market

/-- The trailing stop that a decision was weighed against. -/
structure Trailed (input : ProtectiveStopInput) (market : TradingMarketSnapshot)
    (percent candidate : String) : Prop where
  unladdered : stopLossMode input ≠ "adaptive_targets"
  configured : input.exits.trailingStopPercent = some percent
  observed : input.market = .ok market
  rounded : trailingCandidate input.side market percent = .ok candidate
  readable : ∃ u, Denotes candidate u

theorem desiredProtectiveStop_ok (h : desiredProtectiveStop input = .ok result) :
    ∃ planned rounded kept, plannedStopDecision input = .ok planned ∧
      roundBreakEven input planned = .ok rounded ∧ keepSafer input rounded = .ok kept ∧
      ((result = kept ∧
          (stopLossMode input = "adaptive_targets" ∨ input.exits.trailingStopPercent = none)) ∨
        ∃ percent market candidate, Trailed input market percent candidate ∧
          ((result = kept ∧ directed input.side (decimalValue candidate) ≤
              directed input.side (decimalValue kept.trigger)) ∨
            (result = ⟨candidate, .trailingStop, none⟩ ∧
              directed input.side (decimalValue kept.trigger) <
                directed input.side (decimalValue candidate)))) := by
  simp only [desiredProtectiveStop, bind_eq_ok] at h
  obtain ⟨-, -, planned, hplanned, rounded, hrounded, kept, hkept, h⟩ := h
  refine ⟨planned, rounded, kept, hplanned, hrounded, hkept, ?_⟩
  by_cases hmode : stopLossMode input = "adaptive_targets"
  · rw [if_pos hmode, pure_eq_ok_iff] at h
    exact Or.inl ⟨h.symm, Or.inl hmode⟩
  · rw [if_neg hmode] at h
    cases hpercent : input.exits.trailingStopPercent with
    | none =>
      rw [hpercent] at h
      exact Or.inl ⟨(pure_eq_ok_iff.mp h).symm, Or.inr rfl⟩
    | some percent =>
      simp only [hpercent, trailStop, bind_eq_ok] at h
      obtain ⟨market, hmkt, candidate, hcand, improves, himproves, h⟩ := h
      obtain ⟨hreadable, -, hiff⟩ := stopImproves_ok himproves
      refine Or.inr ⟨percent, market, candidate,
        ⟨hmode, hpercent, hmkt, hcand, hreadable⟩, ?_⟩
      cases improves with
      | true => exact Or.inr ⟨(pure_eq_ok_iff.mp h).symm, hiff.mp rfl⟩
      | false =>
        refine Or.inl ⟨(pure_eq_ok_iff.mp h).symm, ?_⟩
        exact not_lt.mp (fun hlt => Bool.false_ne_true (hiff.mpr hlt))

/-- The decision is no looser than the stop that stands and than what the mode asks for. -/
structure Tightens (input : ProtectiveStopInput) (result : ProtectiveStopDecision) : Prop where
  current : ∀ current, input.currentTrigger = some current → current ≠ "" →
    directed input.side (decimalValue current) ≤ directed input.side (decimalValue result.trigger)
  planned : ∀ planned, plannedStopDecision input = .ok planned →
    directed input.side (decimalValue planned.trigger) ≤
      directed input.side (decimalValue result.trigger)

theorem desiredProtectiveStop_tightens (h : desiredProtectiveStop input = .ok result) :
    Tightens input result := by
  obtain ⟨planned, rounded, kept, hplanned, hrounded, hkept, hcases⟩ := desiredProtectiveStop_ok h
  obtain ⟨hround, -⟩ := roundBreakEven_tightens hplanned hrounded
  obtain ⟨hkeep, hcur, -⟩ := keepSafer_ok hkept
  have hres : directed input.side (decimalValue kept.trigger) ≤
      directed input.side (decimalValue result.trigger) := by
    rcases hcases with ⟨rfl, -⟩ | ⟨percent, market, candidate, -, ⟨rfl, -⟩ | ⟨rfl, hlt⟩⟩
    · exact le_rfl
    · exact le_rfl
    · exact hlt.le
  refine ⟨?_, ?_⟩
  · intro current hsome hne
    exact (hcur current hsome hne).1.trans hres
  · intro other hother
    rw [hplanned, Except.ok.injEq] at hother
    subst hother
    exact (hround.trans hkeep).trans hres

theorem keptStop_reason {kept : ProtectiveStopDecision}
    (hplanned : plannedStopDecision input = .ok planned)
    (hrounded : roundBreakEven input planned = .ok rounded)
    (hkept : keepSafer input rounded = .ok kept) : kept.reason ≠ .trailingStop := by
  obtain ⟨-, hrsn⟩ := roundBreakEven_tightens hplanned hrounded
  obtain ⟨-, -, rfl | ⟨current, -, -, rfl⟩⟩ := keepSafer_ok hkept
  · rw [hrsn]
    exact plannedStopDecision_reason hplanned
  · simp

/-- The trigger is strictly on the loss side of the mark price. -/
def BehindMark (input : ProtectiveStopInput) (result : ProtectiveStopDecision) : Prop :=
  ∀ market, input.market = .ok market → directed input.side (decimalValue result.trigger) <
    directed input.side (decimalValue market.markPrice)

theorem trailing_behindMark_iff (h : desiredProtectiveStop input = .ok result) :
    (result.reason = .trailingStop → BehindMark input result) ↔ TrailClears input := by
  obtain ⟨planned, rounded, kept, hplanned, hrounded, hkept, hcases⟩ := desiredProtectiveStop_ok h
  have hrsn := keptStop_reason hplanned hrounded hkept
  rcases hcases with ⟨rfl, hnone⟩ | ⟨percent, market, candidate, htrailed, hcases⟩
  · refine iff_of_true (fun htrailing => absurd htrailing hrsn) ?_
    intro percent market hmode hpercent _
    rcases hnone with hadaptive | hnone
    · exact absurd hadaptive hmode
    · cases hnone.symm.trans hpercent
  · obtain ⟨htick, hdst, hcand⟩ := trailingCandidate_ok htrailed.rounded
    have hstanding := keptStop_value htrailed.unladdered htrailed.observed hplanned hrounded hkept
    have hclears : TrailClears input ↔
        directed input.side (decimalValue candidate) <
            directed input.side (decimalValue market.markPrice) ∨
          directed input.side (decimalValue candidate) ≤
            directed input.side (decimalValue kept.trigger) := by
      rw [hcand, hstanding, ← leavesMark_iff htick hdst]
      constructor
      · intro hclear
        exact hclear percent market htrailed.unladdered htrailed.configured htrailed.observed
      · intro hclear other snapshot _ hother hsnapshot
        obtain rfl := Option.some.inj (htrailed.configured.symm.trans hother)
        obtain rfl := Except.ok.inj (htrailed.observed.symm.trans hsnapshot)
        exact hclear
    rw [hclears]
    rcases hcases with ⟨rfl, hle⟩ | ⟨rfl, hlt⟩
    · exact iff_of_true (fun htrailing => absurd htrailing hrsn) (Or.inr hle)
    · rw [or_iff_left hlt.not_ge]
      constructor
      · intro hbehind
        exact hbehind rfl market htrailed.observed
      · intro hbehind _ snapshot hsnapshot
        obtain rfl := Except.ok.inj (htrailed.observed.symm.trans hsnapshot)
        exact hbehind

end Trailing

section Passes

variable {row : PositionRow} {reads : PassReads}

theorem denotes_ne_empty {s : String} {u : ℕ} (h : Denotes s u) : s ≠ "" := by
  rintro rfl
  obtain ⟨p, hp, -⟩ := h
  simp [parse, decimalPattern, Numeral.isNatural] at hp

theorem protectiveReferenceTrigger_ok {activeStop : Option ProtectionOrder} {trigger : String}
    (h : protectiveReferenceTrigger activeStop row = .ok trigger) :
    directed row.side (decimalValue row.stopPrice) ≤ directed row.side (decimalValue trigger) ∧
      (row.stopPrice ≠ "" → trigger ≠ "") := by
  unfold protectiveReferenceTrigger at h
  cases hact : (activeStop.map triggerOf).filter (· ≠ "") with
  | none =>
    rw [hact] at h
    obtain rfl := pure_eq_ok_iff.mp h
    exact ⟨le_rfl, id⟩
  | some active =>
    simp only [hact, bind_eq_ok] at h
    obtain ⟨improves, himproves, h⟩ := h
    obtain ⟨⟨u, hu⟩, -, hiff⟩ := stopImproves_ok himproves
    cases improves with
    | true =>
      obtain rfl := pure_eq_ok_iff.mp h
      exact ⟨(hiff.mp rfl).le, fun _ => denotes_ne_empty hu⟩
    | false =>
      obtain rfl := pure_eq_ok_iff.mp h
      exact ⟨le_rfl, id⟩

theorem desiredProtectiveStop_readable {input : ProtectiveStopInput}
    {result : ProtectiveStopDecision} {current : String}
    (hcur : input.currentTrigger = some current)
    (hne : current ≠ "") (h : desiredProtectiveStop input = .ok result) :
    ∃ u, Denotes result.trigger u := by
  obtain ⟨planned, rounded, kept, -, -, hkept, hcases⟩ := desiredProtectiveStop_ok h
  obtain ⟨-, hstands, -⟩ := keepSafer_ok hkept
  have hreads := (hstands current hcur hne).2
  rcases hcases with ⟨rfl, -⟩ | ⟨percent, market, candidate, htrailed, ⟨rfl, -⟩ | ⟨rfl, -⟩⟩
  · exact hreads
  · exact hreads
  · exact htrailed.readable

theorem ensureProtectiveStop_ok {after : PositionRow} (hne : row.stopPrice ≠ "")
    (h : ensureProtectiveStop reads row = .ok after) :
    after.side = row.side ∧ after.stopPrice ≠ "" ∧ directed row.side (decimalValue row.stopPrice) ≤
      directed row.side (decimalValue after.stopPrice) := by
  unfold ensureProtectiveStop at h
  cases hplan : row.plan with
  | none =>
    rw [hplan] at h
    cases h
  | some plan =>
    simp only [hplan, bind_eq_ok, pure_eq_ok_iff] at h
    obtain ⟨-, -, filledTargets, -, average, -, activeStop, -, quantity, -, current, hcur,
      decision, hdecn, -, -, -, -, rfl⟩ := h
    obtain ⟨href, hstands⟩ := protectiveReferenceTrigger_ok hcur
    obtain ⟨u, hu⟩ := desiredProtectiveStop_readable rfl (hstands hne) hdecn
    have htight := (desiredProtectiveStop_tightens hdecn).current current rfl (hstands hne)
    exact ⟨rfl, denotes_ne_empty hu, href.trans htight⟩

theorem afterPass_tightens (reads : PassReads) (hne : row.stopPrice ≠ "") :
    (afterPass row reads).side = row.side ∧ (afterPass row reads).stopPrice ≠ "" ∧
      directed row.side (decimalValue row.stopPrice) ≤
        directed row.side (decimalValue (afterPass row reads).stopPrice) := by
  unfold afterPass
  cases hpass : ensureProtectiveStop reads row with
  | error _ => exact ⟨rfl, hne, le_rfl⟩
  | ok after => exact ensureProtectiveStop_ok hne hpass

/-- Along passes the stored stop never loosens. -/
theorem afterPasses_tightens (passes : List PassReads) (hne : row.stopPrice ≠ "") :
    (afterPasses row passes).side = row.side ∧ (afterPasses row passes).stopPrice ≠ "" ∧
      directed row.side (decimalValue row.stopPrice) ≤
        directed row.side (decimalValue (afterPasses row passes).stopPrice) := by
  induction passes generalizing row with
  | nil => exact ⟨rfl, hne, le_rfl⟩
  | cons reads passes ih =>
    obtain ⟨hside, hnext, hle⟩ := afterPass_tightens reads hne
    obtain ⟨hsides, hlast, hrest⟩ := ih hnext
    rw [hside] at hsides hrest
    exact ⟨hsides, hlast, hle.trans hrest⟩

/-- What the runs of a position promise: no pass loosens the stop that an earlier one stored, and
none goes below the stop of the plan. -/
structure StopsTighten (plan : StoredPlan) (opened : PositionRow) : Prop where
  monotone : ∀ before after : List PassReads,
    directed opened.side (decimalValue (afterPasses opened before).stopPrice) ≤
      directed opened.side (decimalValue (afterPasses opened (before ++ after)).stopPrice)
  bounded : ∀ passes : List PassReads,
    directed opened.side (decimalValue plan.plan.stopPrice) ≤
      directed opened.side (decimalValue (afterPasses opened passes).stopPrice)

theorem plannedPosition_tightens (accountId intentId symbol : String) (side : TradingSide)
    (plan : StoredPlan) (hplan : plan.plan.stopPrice ≠ "") :
    StopsTighten plan (plannedPosition accountId intentId symbol side plan) := by
  have hopened : (plannedPosition accountId intentId symbol side plan).stopPrice ≠ "" := hplan
  have htightens := fun passes => afterPasses_tightens passes hopened
  refine ⟨?_, ?_⟩
  · intro before after
    obtain ⟨hside, hne, -⟩ := htightens before
    obtain ⟨-, -, hle⟩ := afterPasses_tightens after hne
    rw [hside] at hle
    rw [afterPasses, afterPasses, List.foldl_append]
    exact hle
  · intro passes
    exact (htightens passes).2.2

/-- The protective stop only tightens, in every call and along every run; a trailing stop is
behind the mark price exactly when it clears it. -/
theorem protective_stop_tightens (input : ProtectiveStopInput) :
    (∀ decision, desiredProtectiveStop input = .ok decision →
      Tightens input decision ∧
        ((decision.reason = .trailingStop → BehindMark input decision) ↔ TrailClears input)) ∧
    ∀ accountId intentId symbol side plan, plan.plan.stopPrice ≠ "" →
      StopsTighten plan (plannedPosition accountId intentId symbol side plan) := by
  refine ⟨?_, plannedPosition_tightens⟩
  intro decision h
  exact ⟨desiredProtectiveStop_tightens h, trailing_behindMark_iff h⟩

def tickMarket : TradingMarketSnapshot where
  markPrice := "100"
  priceTick := "1"
  quantityStep := "0.01"
  minimumQuantity := "0.01"
  minimumNotional := "5"
  maxLeverage := 50
  accounting := none
  leverageTiers := none

/-- A SHORT under a trailing stop of a given percentage, marked at `100` on a tick of `1`. -/
def trailingInput (percent : String) : ProtectiveStopInput where
  market := .ok tickMarket
  side := .short
  plan := ⟨ladderPlan, some "configured"⟩
  exits := ⟨some "configured", none, some percent⟩
  filledTargets := 0
  entryAveragePrice := "100"
  currentTrigger := some "110"

/-- Half a percent is less than the tick: the trailing stop lands on the mark price itself. -/
theorem trailing_stop_on_mark : ∃ decision,
    desiredProtectiveStop (trailingInput "0.5") = .ok decision ∧
      decision.reason = .trailingStop ∧ ¬ BehindMark (trailingInput "0.5") decision := by
  refine ⟨⟨"100", .trailingStop, none⟩, by decide +kernel, rfl, ?_⟩
  intro hbehind
  exact lt_irrefl _ (hbehind tickMarket rfl)

theorem protective_stop_tightens_trailing : ∃ decision,
    desiredProtectiveStop (trailingInput "2") = .ok decision ∧
      (decision.reason = .trailingStop ∧ BehindMark (trailingInput "2") decision) ∧
      StopsTighten ⟨ladderPlan, some "configured"⟩
        (plannedPosition "account" "intent" "BTCUSDT" .short ⟨ladderPlan, some "configured"⟩) := by
  obtain ⟨hcalls, hruns⟩ := protective_stop_tightens (trailingInput "2")
  have hdecn : desiredProtectiveStop (trailingInput "2") =
      .ok ⟨"102", .trailingStop, none⟩ := by decide +kernel
  obtain ⟨-, hiff⟩ := hcalls _ hdecn
  refine ⟨_, hdecn, ⟨rfl, hiff.mpr ?_ rfl⟩, hruns _ _ _ _ _ (by decide)⟩
  rintro _ _ - ⟨⟩ ⟨⟩
  exact Or.inl ⟨102, by decide +kernel⟩

end Passes

end TsxCore.TradingProtectiveStop
