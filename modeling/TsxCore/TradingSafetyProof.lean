import TsxCore.ExchangeHistoryCoverage
import TsxCore.TradingOwnership
import TsxCore.TradingProtection

/-!
# Safety proofs (`trading_safety_proof.ts`)

A verdict collects the reasons of several generators, each of which may depend
on the purpose and on the scope. The evidence is safe when no generator objects.
The digest of the evidence and the copied exemption are left out.
-/

namespace TsxCore.TradingSafety

open Outcome TradingDecimal TradingProtection TradingOwnership ExchangeHistory

inductive SafetyPurpose
  | entryAdmission
  | entriesDrained
  | positionProtected
  | tradeClosed
  | accountRelease
  deriving DecidableEq

structure SafetyBinding where
  accountId : String
  accountVersion : ℤ
  runtimeEpoch : String
  accountFingerprint : Option String
  credentialGeneration : Option String

structure SafetyOrder extends ProtectionOrder where
  remoteConfirmed : Bool

structure SafetyPosition where
  need : ProtectionNeed
  ownership : Option OwnershipProof
  remoteMatches : Bool
  projectionMatches : Option Bool

structure SafetyOperation where
  id : String
  intentId : String
  phase : String
  hasEntry : Bool

structure HistoricalTradeSafety where
  intentId : String
  accountId : String
  hasEntryHistory : Bool
  ownership : Option OwnershipProof
  closedProjectionQuantity : Option String

structure SafetyEvidence where
  binding : SafetyBinding
  identityVerified : Bool
  stateCurrent : Bool
  accountReady : Bool
  entryAllowed : Bool
  acquisition : Option AcquisitionEvidence
  minimumAcquisitionStart : ℤ
  requiredSince : ℤ
  now : ℤ
  orders : List SafetyOrder
  positions : List SafetyPosition
  operations : List SafetyOperation
  unresolvedEvidence : ℤ
  fillIdentityUnresolved : ℤ
  foreignOrders : ℤ
  foreignPositions : ℤ
  blockingIncidents : List String
  reviewRequiredIntents : List String
  balanceVerified : Bool
  historyExchange : Option String
  runtimeCurrent : Option Bool
  historicalTrades : Option (List HistoricalTradeSafety)

structure SafetyReason where
  code : String
  intentId : Option String := none
  orderId : Option String := none
  deriving DecidableEq

structure TradingSafetyProof where
  purpose : SafetyPurpose
  binding : SafetyBinding
  intentId : Option String
  safe : Bool
  reasons : List SafetyReason
  evaluatedAt : ℤ
  acquisitionStartedAt : Option ℤ
  acquisitionCompletedAt : Option ℤ

/-- `FRESHNESS_MS`. -/
def freshnessMs : ℤ := 30000

def terminal (status : String) : Bool := status ∈ terminalOrderStates

def pending (operation : SafetyOperation) : Bool := operation.phase ∉ ["resolved", "abandoned"]

/-- `if (bad) reasons.push(reason)`. -/
def reasonIf (bad : Prop) [Decidable bad] (reason : SafetyReason) : List SafetyReason :=
  if bad then [reason] else []

def historicalCoverageReasons (input : SafetyEvidence) : List SafetyReason :=
  match input.historyExchange, input.acquisition with
  | some exchange, some acquisition =>
    if exchange = "" then []
    else (fillCoverageReason exchange acquisition input.requiredSince).toList.map
      (fun reason => ⟨reason, none, none⟩)
  | _, _ => []

/-- The round of the loop in `acquisitionReasons` for one required source. -/
def sourceReasons (input : SafetyEvidence) (acquisition : AcquisitionEvidence)
    (source label : String) : List SafetyReason :=
  let sources := acquisition.sources.filter (·.source = source)
  reasonIf (sources.length = 0 ∨ sources.any (·.completeness ≠ .complete))
      ⟨"SOURCE_" ++ label ++ "_INCOMPLETE", none, none⟩ ++
    reasonIf (sources.any (fun item => item.startedAt < acquisition.startedAt ∨
        acquisition.completedAt < item.completedAt ∨ item.completedAt < item.startedAt))
      ⟨"SOURCE_WINDOW_INVALID", none, none⟩ ++
    reasonIf (source = "fills" ∧ sources.any (fun item => item.since = none ∨
        item.since.any (fun since => input.requiredSince < since)))
      ⟨"FILL_BASELINE_UNPROVED", none, none⟩

def acquisitionReasons (input : SafetyEvidence) : List SafetyReason :=
  match input.acquisition with
  | none => [⟨"ACQUISITION_MISSING", none, none⟩]
  | some acquisition =>
    reasonIf (acquisition.version ≠ 1 ∨ ¬ isSafeInteger acquisition.startedAt ∨
        ¬ isSafeInteger acquisition.completedAt ∨
        acquisition.startedAt < input.minimumAcquisitionStart ∨
        acquisition.completedAt < acquisition.startedAt ∨ input.now < acquisition.completedAt ∨
        freshnessMs < input.now - acquisition.startedAt)
        ⟨"ACQUISITION_NOT_FRESH", none, none⟩ ++
      sourceReasons input acquisition "orders" "ORDERS" ++
      sourceReasons input acquisition "positions" "POSITIONS" ++
      sourceReasons input acquisition "fills" "FILLS" ++
      historicalCoverageReasons input

/-- The `try` block of `orderQuantityValid`. -/
def executedWithin (order : SafetyOrder) (reported : String) : Outcome Bool := do
  let quantity ← decimal order.quantity true
  let filled ← decimal reported
  let change ← compareDecimal filled quantity
  return decide (change ≤ 0) && (decide (order.status ≠ "filled") || decide (change = 0))

def orderQuantityValid (order : SafetyOrder) : Bool :=
  match order.filledQuantity with
  | none => false
  | some reported =>
    match executedWithin order reported with
    | .ok valid => valid
    | .error _ => false

def nonTerminalEntryReason (status : String) : String :=
  if status = "created" then "ENTRY_DISPATCH_INTENT"
  else if status = "open" ∨ status = "partially_filled" then "ENTRY_CAN_FILL"
  else "ENTRY_OUTCOME_UNRESOLVED"

def entryCommitmentReason (status : String) (unresolvedOperation : Bool) : Option String :=
  if unresolvedOperation then some "ENTRY_OPERATION_UNRESOLVED"
  else if status ∈ terminalOrderStates then none
  else some (nonTerminalEntryReason status)

def commitmentReason (operations : List SafetyOperation) (allExits : Bool) (order : SafetyOrder) :
    Option String :=
  let uncertain := operations.any (fun operation =>
    operation.intentId = order.intentId ∧ operation.hasEntry ∧ pending operation)
  if order.role = "entry" then entryCommitmentReason order.status uncertain
  else if allExits ∧ terminal order.status = false then some "EXIT_SIBLING_NOT_TERMINAL"
  else none

def commitmentReasons (orders : List SafetyOrder) (operations : List SafetyOperation)
    (allExits : Bool) : List SafetyReason :=
  orders.flatMap (fun order => (commitmentReason operations allExits order).toList.map
    (fun code => ⟨code, some order.intentId, order.clientOrderId⟩))

/-- The `try` block of `positionReasons`: whether the position is covered. -/
def positionCovered (position : SafetyPosition) (ownership : OwnershipProof)
    (orders : List SafetyOrder) : Outcome Bool := do
  let own := orders.filter (·.intentId = position.need.intentId)
  let quantity ← requiredStopQuantity ownership.netQuantity
    ((own.filter (·.role = "entry")).map (·.toProtectionOrder))
  return decide (quantity = "0") || own.any (fun order => order.remoteConfirmed &&
    (protectiveStopCoverage order.toProtectionOrder
      { position.need with quantity := quantity }).isProtected)

def positionReasons (position : SafetyPosition) (orders : List SafetyOrder) (closed : Bool) :
    List SafetyReason :=
  let intentId := some position.need.intentId
  match position.ownership with
  | none => [⟨"OWNED_QUANTITY_UNPROVED", intentId, none⟩]
  | some ownership =>
    if position.remoteMatches = false then [⟨"REMOTE_OWNERSHIP_MISMATCH", intentId, none⟩]
    else if closed then
      if ownership.netQuantity = "0" then [] else [⟨"OWNED_POSITION_NOT_FLAT", intentId, none⟩]
    else if position.projectionMatches = some false then
      [⟨"POSITION_PROJECTION_MISMATCH", intentId, none⟩]
    else match positionCovered position ownership orders with
      | .ok true => []
      | .ok false => [⟨"POSITION_NOT_PROTECTED", intentId, none⟩]
      | .error _ => [⟨"PROTECTION_QUANTITY_UNPROVED", intentId, none⟩]

def ownedTradeReasons (intentId : Option String) : Option OwnershipProof → List SafetyReason
  | none => [⟨"HISTORICAL_OWNERSHIP_UNPROVED", intentId, none⟩]
  | some ownership =>
    reasonIf (ownership.netQuantity ≠ "0") ⟨"HISTORICAL_TRADE_NOT_FLAT", intentId, none⟩

def historicalTradeReasons (input : SafetyEvidence) : List SafetyReason :=
  (input.historicalTrades.getD []).flatMap (fun trade =>
    reasonIf (trade.accountId ≠ input.binding.accountId)
        ⟨"HISTORICAL_ACCOUNT_MISMATCH", some trade.intentId, none⟩ ++
      reasonIf (trade.hasEntryHistory = false)
        ⟨"HISTORICAL_ENTRY_MISSING", some trade.intentId, none⟩ ++
      ownedTradeReasons (some trade.intentId) trade.ownership ++
      reasonIf (trade.closedProjectionQuantity.any (fun quantity => quantity ≠ "0"))
        ⟨"CLOSED_POSITION_NOT_ZERO", some trade.intentId, none⟩)

def admissionReasons (input : SafetyEvidence) (purpose : SafetyPurpose) : List SafetyReason :=
  if purpose ∉ [.entryAdmission, .accountRelease] then []
  else
    reasonIf (input.accountReady = false) ⟨"ACCOUNT_NOT_VERIFIED_READY", none, none⟩ ++
      reasonIf (input.balanceVerified = false) ⟨"ACCOUNT_BALANCE_UNPROVED", none, none⟩ ++
      reasonIf (purpose = .entryAdmission ∧ input.entryAllowed = false)
        ⟨"ENTRY_ADMISSION_DISABLED", none, none⟩ ++
      input.blockingIncidents.map (fun _ => ⟨"BLOCKING_ACCOUNT_INCIDENT", none, none⟩) ++
      input.reviewRequiredIntents.map
        (fun intentId => ⟨"TRADE_REVIEW_REQUIRED", some intentId, none⟩) ++
      historicalTradeReasons input

structure Scope where
  orders : List SafetyOrder
  operations : List SafetyOperation
  positions : List SafetyPosition

def scopeEvidence (input : SafetyEvidence) : Option String → Scope
  | none => ⟨input.orders, input.operations, input.positions⟩
  | some intentId => ⟨input.orders.filter (·.intentId = intentId),
      input.operations.filter (·.intentId = intentId),
      input.positions.filter (·.need.intentId = intentId)⟩

def remoteReasons (input : SafetyEvidence) : List SafetyReason :=
  reasonIf (input.identityVerified = false) ⟨"ACCOUNT_IDENTITY_UNPROVED", none, none⟩ ++
    reasonIf (input.stateCurrent = false) ⟨"ACCOUNT_STATE_CHANGED", none, none⟩ ++
    reasonIf (input.runtimeCurrent = some false) ⟨"RUNTIME_GENERATION_CHANGED", none, none⟩ ++
    reasonIf (0 < input.unresolvedEvidence) ⟨"REMOTE_EVENTS_UNRESOLVED", none, none⟩ ++
    reasonIf (¬ isSafeInteger input.fillIdentityUnresolved ∨ input.fillIdentityUnresolved ≠ 0)
      ⟨"FILL_IDENTITY_UNPROVEN", none, none⟩ ++
    reasonIf (0 < input.foreignOrders) ⟨"FOREIGN_ORDER_PRESENT", none, none⟩ ++
    reasonIf (0 < input.foreignPositions) ⟨"FOREIGN_POSITION_PRESENT", none, none⟩

def localOrderReasons (order : SafetyOrder) (accountId : String) : List SafetyReason :=
  reasonIf (order.accountId ≠ accountId)
      ⟨"ORDER_ACCOUNT_MISMATCH", some order.intentId, order.clientOrderId⟩ ++
    reasonIf (orderQuantityValid order = false)
      ⟨"ORDER_QUANTITY_UNPROVED", some order.intentId, order.clientOrderId⟩ ++
    reasonIf (order.status ∈ ["submitting", "unknown", "cancel_pending"])
      ⟨"ORDER_OUTCOME_UNRESOLVED", some order.intentId, order.clientOrderId⟩ ++
    reasonIf (terminal order.status = false ∧ order.status ≠ "created" ∧
        order.remoteConfirmed = false)
      ⟨"ACTIVE_ORDER_NOT_OBSERVED", some order.intentId, order.clientOrderId⟩

def purposeReasons (input : SafetyEvidence) (scope : Scope) (purpose : SafetyPurpose)
    (intentId : Option String) : List SafetyReason :=
  reasonIf (purpose ∈ [.tradeClosed, .positionProtected] ∧
      (intentId.getD "" = "" ∨ scope.positions.length ≠ 1))
      ⟨"TRADE_SCOPE_UNPROVED", none, none⟩ ++
    reasonIf ((purpose = .tradeClosed ∨ (purpose = .entriesDrained ∧ intentId.getD "" ≠ "")) ∧
        ¬ scope.orders.any (·.role = "entry"))
      ⟨"ENTRY_HISTORY_MISSING", none, none⟩ ++
    scope.positions.flatMap (fun position =>
      reasonIf (position.need.accountId ≠ input.binding.accountId)
        ⟨"POSITION_ACCOUNT_MISMATCH", some position.need.intentId, none⟩) ++
    reasonIf (purpose ≠ .positionProtected ∧ scope.operations.any pending)
      ⟨"EXCHANGE_OPERATION_UNRESOLVED", none, none⟩ ++
    (if purpose ∈ [.entriesDrained, .accountRelease, .tradeClosed] then
      commitmentReasons scope.orders scope.operations (decide (purpose = .tradeClosed)) else []) ++
    (if purpose ≠ .entriesDrained then scope.positions.flatMap (fun position =>
      positionReasons position scope.orders (decide (purpose = .tradeClosed))) else [])

/-- The reasons of every generator, before repetitions are dropped. -/
def safetyReasons (input : SafetyEvidence) (purpose : SafetyPurpose) (intentId : Option String) :
    List SafetyReason :=
  let scope := scopeEvidence input intentId
  acquisitionReasons input ++ remoteReasons input ++ purposeReasons input scope purpose intentId ++
    scope.orders.flatMap (fun order => localOrderReasons order input.binding.accountId) ++
    admissionReasons input purpose

def evaluateTradingSafety (input : SafetyEvidence) (purpose : SafetyPurpose)
    (intentId : Option String := none) : TradingSafetyProof :=
  let unique := (safetyReasons input purpose intentId).eraseDups
  { purpose := purpose
    binding := input.binding
    intentId := intentId
    safe := decide (unique.length = 0)
    reasons := unique
    evaluatedAt := input.now
    acquisitionStartedAt := input.acquisition.map (·.startedAt)
    acquisitionCompletedAt := input.acquisition.map (·.completedAt) }

section Verdict

variable {input : SafetyEvidence} {purpose : SafetyPurpose} {intentId : String}
  {position : SafetyPosition} {ownership : OwnershipProof}

@[simp] theorem reasonIf_eq_nil {bad : Prop} {_ : Decidable bad} {reason : SafetyReason} :
    reasonIf bad reason = [] ↔ ¬ bad := by
  unfold reasonIf
  split_ifs with hbad
  · simp [hbad]
  · simp [hbad]

theorem safe_iff {scope : Option String} :
    (evaluateTradingSafety input purpose scope).safe = true ↔
      safetyReasons input purpose scope = [] := by
  simp only [evaluateTradingSafety, decide_eq_true_eq, List.length_eq_zero_iff]
  cases safetyReasons input purpose scope with
  | nil => simp
  | cons reason rest => simp [List.eraseDups_cons]

/-- What the generators leave of a verdict that is safe. -/
structure Safe (input : SafetyEvidence) (purpose : SafetyPurpose) (scope : Option String) :
    Prop where
  acquisition : acquisitionReasons input = []
  remote : remoteReasons input = []
  purposes : purposeReasons input (scopeEvidence input scope) purpose scope = []
  orders : ∀ order ∈ (scopeEvidence input scope).orders,
    localOrderReasons order input.binding.accountId = []
  admission : admissionReasons input purpose = []

theorem safe_iff_generators {scope : Option String} :
    (evaluateTradingSafety input purpose scope).safe = true ↔ Safe input purpose scope := by
  rw [safe_iff]
  simp only [safetyReasons, List.append_eq_nil_iff, List.flatMap_eq_nil_iff]
  refine ⟨?_, ?_⟩
  · intro h
    obtain ⟨⟨⟨⟨hacquisition, hremote⟩, hpurpose⟩, hords⟩, hadmn⟩ := h
    exact ⟨hacquisition, hremote, hpurpose, hords, hadmn⟩
  · intro h
    exact ⟨⟨⟨⟨h.acquisition, h.remote⟩, h.purposes⟩, h.orders⟩, h.admission⟩

/-- The checks that `purposeReasons` makes for the release of an account. -/
structure Released (input : SafetyEvidence) : Prop where
  accounts : ∀ position ∈ input.positions, position.need.accountId = input.binding.accountId
  operations : ¬ input.operations.any pending = true
  entries : commitmentReasons input.orders input.operations false = []
  positions : ∀ position ∈ input.positions, positionReasons position input.orders false = []

theorem released_of_safe (h : Safe input .accountRelease none) : Released input := by
  have hpurpose := h.purposes
  simp only [purposeReasons, List.append_eq_nil_iff, reasonIf_eq_nil, List.flatMap_eq_nil_iff]
    at hpurpose
  simp only [scopeEvidence] at hpurpose
  obtain ⟨⟨⟨⟨-, haccs⟩, hops⟩, hentries⟩, hposns⟩ := hpurpose
  refine ⟨?_, ?_, ?_, ?_⟩
  · intro position hposn
    exact not_not.mp (haccs position hposn)
  · intro hany
    exact hops ⟨by simp, hany⟩
  · simpa using hentries
  · intro position hposn
    rw [if_pos (by simp), List.flatMap_eq_nil_iff] at hposns
    exact hposns position hposn

theorem entriesDrained_of_release (h : Safe input .accountRelease none) :
    Safe input .entriesDrained none := by
  have hrel := released_of_safe h
  refine ⟨h.acquisition, h.remote, ?_, h.orders, ?_⟩
  · simp only [purposeReasons, List.append_eq_nil_iff, reasonIf_eq_nil, List.flatMap_eq_nil_iff]
    simp only [scopeEvidence]
    refine ⟨⟨⟨⟨⟨by simp, by simp⟩, ?_⟩, ?_⟩, ?_⟩, by simp⟩
    · intro position hposn
      exact not_not.mpr (hrel.accounts position hposn)
    · exact fun hany => hrel.operations hany.2
    · simpa using hrel.entries
  · simp [admissionReasons]

theorem entryAdmission_of_release (h : Safe input .accountRelease none)
    (hallowed : input.entryAllowed = true) : Safe input .entryAdmission none := by
  have hrel := released_of_safe h
  refine ⟨h.acquisition, h.remote, ?_, h.orders, ?_⟩
  · simp only [purposeReasons, List.append_eq_nil_iff, reasonIf_eq_nil, List.flatMap_eq_nil_iff]
    simp only [scopeEvidence]
    refine ⟨⟨⟨⟨⟨by simp, by simp⟩, ?_⟩, ?_⟩, by simp⟩, ?_⟩
    · intro position hposn
      exact not_not.mpr (hrel.accounts position hposn)
    · exact fun hany => hrel.operations hany.2
    · rw [if_pos (by simp), List.flatMap_eq_nil_iff]
      exact hrel.positions
  · have hadmn := h.admission
    simpa [admissionReasons, hallowed] using hadmn

/-- An open position gives no reason exactly when it is owned, observed and covered. -/
theorem positionReasons_open {orders : List SafetyOrder} :
    positionReasons position orders false = [] ↔
      ∃ ownership, position.ownership = some ownership ∧ position.remoteMatches = true ∧
        position.projectionMatches ≠ some false ∧
        positionCovered position ownership orders = .ok true := by
  unfold positionReasons
  cases position.ownership with
  | none => simp
  | some ownership =>
    cases position.remoteMatches with
    | false => simp
    | true =>
      by_cases hprojection : position.projectionMatches = some false
      · simp [hprojection]
      · rcases hcovered : positionCovered position ownership orders with e | covered
        · simp [hprojection, hcovered]
        · cases covered <;> simp [hprojection, hcovered]

theorem positionCovered_scoped (hint : position.need.intentId = intentId) :
    positionCovered position ownership (input.orders.filter (·.intentId = intentId)) =
      positionCovered position ownership input.orders := by
  have hfilt : (input.orders.filter (·.intentId = intentId)).filter
      (·.intentId = position.need.intentId) =
      input.orders.filter (·.intentId = position.need.intentId) := by
    rw [hint, List.filter_filter]
    simp
  rw [positionCovered, positionCovered, hfilt]

theorem positionProtected_of_release (h : Safe input .accountRelease none)
    (hnonempty : intentId ≠ "")
    (hone : (input.positions.filter (·.need.intentId = intentId)).length = 1) :
    Safe input .positionProtected (some intentId) := by
  have hrel := released_of_safe h
  refine ⟨h.acquisition, h.remote, ?_, ?_, ?_⟩
  · simp only [purposeReasons, List.append_eq_nil_iff, reasonIf_eq_nil, List.flatMap_eq_nil_iff]
    simp only [scopeEvidence]
    refine ⟨⟨⟨⟨⟨?_, by simp⟩, ?_⟩, by simp⟩, by simp⟩, ?_⟩
    · simp [hnonempty, hone]
    · intro position hposn
      exact not_not.mpr (hrel.accounts position (List.mem_of_mem_filter hposn))
    · rw [if_pos (by simp), List.flatMap_eq_nil_iff]
      intro position hposn
      rw [List.mem_filter, decide_eq_true_eq] at hposn
      obtain ⟨ownership, hownership, hremote, hprojection, hcovered⟩ :=
        positionReasons_open.mp (hrel.positions position hposn.1)
      refine positionReasons_open.mpr ⟨ownership, hownership, hremote, hprojection, ?_⟩
      rwa [positionCovered_scoped hposn.2]
  · intro order horder
    exact h.orders order (List.mem_of_mem_filter horder)
  · simp [admissionReasons]

/-- The position that a protected intent has, covered whatever its entries still execute. -/
theorem covered_of_positionProtected (h : Safe input .positionProtected (some intentId)) :
    ∃ position ownership, input.positions.filter (·.need.intentId = intentId) = [position] ∧
      position.ownership = some ownership ∧
      positionCovered position ownership input.orders = .ok true := by
  have hpurpose := h.purposes
  simp only [purposeReasons, List.append_eq_nil_iff, reasonIf_eq_nil, List.flatMap_eq_nil_iff]
    at hpurpose
  simp only [scopeEvidence] at hpurpose
  obtain ⟨⟨⟨⟨⟨hscope, -⟩, -⟩, -⟩, -⟩, hposns⟩ := hpurpose
  have hone : (input.positions.filter (·.need.intentId = intentId)).length = 1 := by
    by_contra hne
    exact hscope ⟨by simp, .inr hne⟩
  obtain ⟨position, hposn⟩ := List.length_eq_one_iff.mp hone
  have hmem : position ∈ input.positions.filter (·.need.intentId = intentId) := by
    rw [hposn]
    exact List.mem_singleton_self position
  have hint : position.need.intentId = intentId := by
    simpa using (List.mem_filter.mp hmem).2
  rw [if_pos (by simp), List.flatMap_eq_nil_iff] at hposns
  obtain ⟨ownership, hownership, -, -, hcovered⟩ :=
    positionReasons_open.mp (hposns position hmem)
  rw [positionCovered_scoped hint] at hcovered
  exact ⟨position, ownership, hposn, hownership, hcovered⟩

/-- The entries of an intent that may still execute. -/
def pendingEntries (input : SafetyEvidence) (intentId : String) : List ProtectionOrder :=
  ((input.orders.filter (fun order => order.intentId = intentId ∧ order.role = "entry")).map
    (·.toProtectionOrder)).filter isPending

/-- A position that further executions enlarge is flat or within one confirmed stop. -/
theorem executions_covered (hcovered : positionCovered position ownership input.orders = .ok true)
    {xs : List ℚ}
    (hxs : List.Forall₂ (fun order x => 0 ≤ x ∧ x ≤ remainingQuantity order)
      (pendingEntries input position.need.intentId) xs) :
    decimalValue ownership.netQuantity + xs.sum = 0 ∨
      ∃ stop ∈ input.orders, stop.remoteConfirmed = true ∧
        StopFor position.need stop.toProtectionOrder ∧
        decimalValue ownership.netQuantity + xs.sum ≤ remainingQuantity stop.toProtectionOrder := by
  have hbounds : 0 ≤ xs.sum ∧
      xs.sum ≤ ((pendingEntries input position.need.intentId).map remainingQuantity).sum := by
    generalize pendingEntries input position.need.intentId = entries at hxs
    induction hxs with
    | nil => simp
    | cons hx _ ih =>
      rw [List.sum_cons, List.map_cons, List.sum_cons]
      exact ⟨add_nonneg hx.1 ih.1, add_le_add hx.2 ih.2⟩
  simp only [positionCovered, bind_eq_ok, pure_eq_ok_iff] at hcovered
  obtain ⟨quantity, hqty, hcovered⟩ := hcovered
  have hheld : 0 ≤ decimalValue ownership.netQuantity := by
    simp only [requiredStopQuantity, bind_eq_ok] at hqty
    obtain ⟨start, hstart, -⟩ := hqty
    obtain ⟨u, hu, -, -⟩ := decimal_reads hstart
    rw [hu.readsSigned.decimalValue]
    exact unitValue_nonneg u
  have hvalue := requiredStopQuantity_value hqty
  have hentries : ((((input.orders.filter (·.intentId = position.need.intentId)).filter
      (·.role = "entry")).map (·.toProtectionOrder)).filter isPending) =
      pendingEntries input position.need.intentId := by
    rw [pendingEntries, List.filter_filter]
    congr 2
    apply List.filter_congr
    intro order _
    rw [Bool.decide_and, Bool.and_comm]
  rw [hentries] at hvalue
  rw [Bool.or_eq_true, decide_eq_true_eq, List.any_eq_true] at hcovered
  rcases hcovered with hzero | ⟨stop, hstop, hprot⟩
  · left
    have htotal : decimalValue quantity = 0 := by
      rw [hzero, show ("0" : String) = text 0 from (text_eq_zero.mpr rfl).symm, decimalValue_text]
      simp
    linarith [hbounds.1, hbounds.2]
  · right
    rw [Bool.and_eq_true] at hprot
    obtain ⟨hstopFor, hrem⟩ := protectiveStopCoverage_protected hprot.2
    refine ⟨stop, List.mem_of_mem_filter hstop, hprot.1, ?_, ?_⟩
    · exact ⟨hstopFor.accountId, hstopFor.intentId, hstopFor.symbol, hstopFor.active,
        hstopFor.role, hstopFor.reduceOnly, hstopFor.side, hstopFor.trigger⟩
    · have htotal : decimalValue quantity ≤ remainingQuantity stop.toProtectionOrder := hrem
      linarith [hbounds.2]

/-- A released account has its entries drained, admits entries where they are allowed and protects
every named intent with one position; and a protected position stays within one confirmed stop
whatever its pending entries still execute. -/
theorem release_implies_safety (input : SafetyEvidence) :
    ((evaluateTradingSafety input .accountRelease).safe = true →
      (evaluateTradingSafety input .entriesDrained).safe = true ∧
      (input.entryAllowed = true → (evaluateTradingSafety input .entryAdmission).safe = true) ∧
      ∀ intentId, intentId ≠ "" →
        (input.positions.filter (·.need.intentId = intentId)).length = 1 →
        (evaluateTradingSafety input .positionProtected (some intentId)).safe = true) ∧
    ∀ intentId, (evaluateTradingSafety input .positionProtected (some intentId)).safe = true →
      ∃ position ownership, input.positions.filter (·.need.intentId = intentId) = [position] ∧
        position.ownership = some ownership ∧
        ∀ xs : List ℚ, List.Forall₂ (fun order x => 0 ≤ x ∧ x ≤ remainingQuantity order)
            (pendingEntries input intentId) xs →
          decimalValue ownership.netQuantity + xs.sum = 0 ∨
            ∃ stop ∈ input.orders, stop.remoteConfirmed = true ∧
              StopFor position.need stop.toProtectionOrder ∧
              decimalValue ownership.netQuantity + xs.sum ≤
                remainingQuantity stop.toProtectionOrder := by
  refine ⟨?_, ?_⟩
  · intro hrelease
    rw [safe_iff_generators] at hrelease
    refine ⟨?_, ?_, ?_⟩
    · exact safe_iff_generators.mpr (entriesDrained_of_release hrelease)
    · intro hallowed
      exact safe_iff_generators.mpr (entryAdmission_of_release hrelease hallowed)
    · intro intentId hnonempty hone
      exact safe_iff_generators.mpr (positionProtected_of_release hrelease hnonempty hone)
  · intro intentId hprot
    obtain ⟨position, ownership, hposn, hownership, hcovered⟩ :=
      covered_of_positionProtected (safe_iff_generators.mp hprot)
    refine ⟨position, ownership, hposn, hownership, ?_⟩
    intro xs hxs
    have hmem : position ∈ input.positions.filter (·.need.intentId = intentId) := by
      rw [hposn]
      exact List.mem_singleton_self position
    have hint : position.need.intentId = intentId := by
      simpa using (List.mem_filter.mp hmem).2
    rw [← hint] at hxs
    exact executions_covered hcovered hxs

end Verdict

/-- Evidence of an account with these orders and positions and everything else in order. -/
def settledEvidence (orders : List SafetyOrder) (positions : List SafetyPosition) :
    SafetyEvidence where
  binding := ⟨"a", 1, "0:0", some "account", some "credentials"⟩
  identityVerified := true
  stateCurrent := true
  accountReady := true
  entryAllowed := true
  acquisition := some ⟨1, 50, 100, ["orders", "positions", "fills"].map
    (fun source => ⟨source, 50, 100, .complete, some 0⟩), none⟩
  minimumAcquisitionStart := 0
  requiredSince := 1
  now := 100
  orders := orders
  positions := positions
  operations := []
  unresolvedEvidence := 0
  fillIdentityUnresolved := 0
  foreignOrders := 0
  foreignPositions := 0
  blockingIncidents := []
  reviewRequiredIntents := []
  balanceVerified := true
  historyExchange := none
  runtimeCurrent := none
  historicalTrades := none

/-- A half-executed stop over the half of the position that is still held. -/
def protectedEvidence : SafetyEvidence :=
  settledEvidence
    [⟨⟨"a", "t", some "entry", some "entry-remote", "BTCUSDT", "entry", "buy", "filled", false, "1",
        some "1", none⟩, true⟩,
      ⟨⟨"a", "t", some "stop", some "stop-remote", "BTCUSDT", "stop_loss", "sell",
        "partially_filled", true, "1", some "0.5", some "90"⟩, true⟩]
    [⟨⟨"a", "t", "BTCUSDT", .long, "0.5", some "90"⟩, some ⟨"1", "0.5", "0.5"⟩, true, none⟩]

theorem release_implies_safety_partial_stop :
    (evaluateTradingSafety protectedEvidence .accountRelease).safe = true ∧
      (evaluateTradingSafety protectedEvidence .entriesDrained).safe = true ∧
      (evaluateTradingSafety protectedEvidence .positionProtected (some "t")).safe = true := by
  have hrelease : (evaluateTradingSafety protectedEvidence .accountRelease).safe = true := by
    decide +kernel
  have himplied := (release_implies_safety protectedEvidence).1 hrelease
  exact ⟨hrelease, himplied.1, himplied.2.2 "t" (by decide) (by decide)⟩

/-- The scope check refuses the empty identifier although the account is released. -/
theorem nameless_intent_not_protected :
    let input := settledEvidence []
      [⟨⟨"a", "", "BTCUSDT", .long, "0", none⟩, some ⟨"0", "0", "0"⟩, true, none⟩]
    (evaluateTradingSafety input .accountRelease).safe = true ∧
      (input.positions.filter (·.need.intentId = "")).length = 1 ∧
      (evaluateTradingSafety input .positionProtected (some "")).safe = false := by
  decide +kernel

end TsxCore.TradingSafety
