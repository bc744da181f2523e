import TsxCore.TradingRecoveryScheduleContract

/-!
# Recovery schedule planner (`trading_recovery_schedule.ts`)

Each phase of the schedule grants calls to some of the five lanes. The planner
turns a recovery query into a scheduled one, with the sources whose lane was
granted and nothing else.
-/

namespace TsxCore.TradingRecoverySchedule

open Outcome TradingRecoveryScheduleContract

structure ExchangeRecoveryReference where
  clientOrderId : String
  exchangeOrderId : Option String

structure ExchangeRecoveryQuery where
  since : ℤ
  orders : List ExchangeRecoveryReference
  readAccountMode : Option Bool
  accountLogs : Option AccountLogCheckpoint
  history : Option (List ExchangeHistoryCheckpoint)

structure ScheduledRecoveryQuery where
  since : ℤ
  orders : List ExchangeRecoveryReference
  readAccountMode : Option Bool
  accountLogs : Option AccountLogCheckpoint
  history : List ExchangeHistoryCheckpoint
  fxEvidence : Option FxEvidenceRequest
  recoverySchedule : RecoveryScheduleRequest

structure RecoveryScheduleState where
  id : String
  revision : ℤ
  phase : ℤ
  fxRotation : ℤ
  logsFirst : ℤ
  historyAfter : Option String
  nextDueAt : ℤ
  cooldownUntil : ℤ

/-- `LEG_ROTATIONS[rotation]`. -/
def legRotation : ℤ → Option (List FxLegId)
  | 0 => some [.btcUsd, .btcUsdt, .usdcUsd]
  | 1 => some [.usdcUsd, .btcUsd, .btcUsdt]
  | 2 => some [.btcUsdt, .btcUsd, .usdcUsd]
  | 3 => some [.usdcUsd, .btcUsdt, .btcUsd]
  | _ => none

def recoveryHistoryKey (row : ExchangeHistoryCheckpoint) : String :=
  .ofList (JsonText.array [JsonText.string row.source.text, JsonText.nullable row.providerSymbol])

def compareHistoryKeys (left right : String) : ℤ :=
  if left = right then 0 else if codeUnits left < codeUnits right then -1 else 1

/-- The checkpoints that are due, stably sorted by their keys. -/
def dueHistory (query : ExchangeRecoveryQuery) (now : ℤ) : List ExchangeHistoryCheckpoint :=
  ((query.history.getD []).filter (·.nextReadAt ≤ now)).insertionSort fun a b =>
    compareHistoryKeys (recoveryHistoryKey a) (recoveryHistoryKey b) ≤ 0

def nextHistory (query : ExchangeRecoveryQuery) (previous : Option String) (now : ℤ) :
    Option ExchangeHistoryCheckpoint :=
  let due := dueHistory query now
  (due.find? fun row => previous.all
    (fun key => codeUnits key < codeUnits (recoveryHistoryKey row)))
    <|> due.head?

def laneOrder (state : RecoveryScheduleState) : List RecoveryLane :=
  if state.phase = 0 then [.fx, .targeted, .history, .logs, .mode]
  else if state.phase = 1 then [.history, .logs, .targeted, .mode, .fx]
  else if state.phase = 2 then [.targeted, .fx, .history, .logs, .mode]
  else if state.logsFirst ≠ 0 then [.logs, .mode, .targeted, .history, .fx]
  else [.mode, .logs, .targeted, .history, .fx]

def maximums (phase : ℤ) (lane : RecoveryLane) : ℤ :=
  if phase = 0 ∨ phase = 2 then
    match lane with
    | .fx => 3
    | .targeted => 2
    | .history | .logs | .mode => 0
  else if phase = 1 then
    match lane with
    | .history => 4
    | .logs => 1
    | .targeted | .mode | .fx => 0
  else
    match lane with
    | .mode => 2
    | .logs => 1
    | .targeted => 2
    | .history | .fx => 0

def requiredAccountLogs (query : ExchangeRecoveryQuery) : Outcome AccountLogCheckpoint :=
  match query.accountLogs with
  | none => .error (.error "Recovery schedule logs grant without account logs.")
  | some logs => return logs

def rotationLegs (rotation : ℤ) : Outcome (List FxLegId) :=
  match legRotation rotation with
  | none => .error (.error "Recovery schedule rotation out of range.")
  | some legs => return legs

def neededLanes (query : ExchangeRecoveryQuery) (history : Option ExchangeHistoryCheckpoint) :
    RecoveryLane → Bool
  | .fx => true
  | .targeted => 0 < query.orders.length
  | .mode => query.readAccountMode = some true
  | .logs => query.accountLogs.isSome
  | .history => history.isSome

def scheduleDeferredReason (state : RecoveryScheduleState) (now : ℤ) (busy : Bool) :
    Option RecoveryDeferredReason :=
  if now < state.cooldownUntil then some .cooldown
  else if busy = true ∨ now < state.nextDueAt then some .notDue
  else none

def logsDeferredReason (query : ExchangeRecoveryQuery) (now : ℤ) : Option RecoveryDeferredReason :=
  match query.accountLogs with
  | none => some .notNeeded
  | some logs => if now < logs.nextReadAt then some .notDue else none

def laneDeferredReason (lane : RecoveryLane) (cap : ℤ) (needed : Bool)
    (query : ExchangeRecoveryQuery) (now : ℤ) : Option RecoveryDeferredReason :=
  if cap = 0 then some .phaseDeferred
  else if needed = false then some .notNeeded
  else if lane ≠ .logs then none
  else logsDeferredReason query now

/-- One entry of `laneGrants`. -/
def laneGrantRow (query : ExchangeRecoveryQuery) (cap : RecoveryLane → ℤ)
    (needed : RecoveryLane → Bool) (now : ℤ) (deferred : Option RecoveryDeferredReason)
    (lane : RecoveryLane) : RecoveryGrant :=
  let reason := deferred <|> laneDeferredReason lane (cap lane) (needed lane) query now
  ⟨lane, if reason = none then cap lane else 0, reason⟩

def laneGrants (state : RecoveryScheduleState) (cap : RecoveryLane → ℤ)
    (needed : RecoveryLane → Bool) (query : ExchangeRecoveryQuery) (now : ℤ)
    (deferred : Option RecoveryDeferredReason) : List RecoveryGrant :=
  (laneOrder state).map (laneGrantRow query cap needed now deferred)

def grantedLogs (query : ExchangeRecoveryQuery) (hasLogs : Bool) :
    Outcome (Option AccountLogCheckpoint) := do
  if hasLogs then return some (← requiredAccountLogs query) else return none

def grantedFx (state : RecoveryScheduleState) (hasFx : Bool) :
    Outcome (Option FxEvidenceRequest) := do
  if hasFx then return some ⟨1, ← rotationLegs state.fxRotation⟩ else return none

def planScheduledRecovery (query : ExchangeRecoveryQuery) (binding : RecoveryScheduleBinding)
    (state : RecoveryScheduleState) (attemptId : String) (now : ℤ) (busy : Bool) :
    Outcome ScheduledRecoveryQuery := do
  let history := nextHistory query state.historyAfter now
  let grants := laneGrants state (maximums state.phase) (neededLanes query history) query now
    (scheduleDeferredReason state now busy)
  let has (lane : RecoveryLane) := grants.any (fun grant => grant.lane = lane ∧ 0 < grant.maxCalls)
  return {
    since := query.since
    orders := query.orders
    readAccountMode := if query.readAccountMode = some true then some true else none
    accountLogs := ← grantedLogs query (has .logs)
    history := if has .history then history.toList else []
    fxEvidence := ← grantedFx state (has .fx)
    recoverySchedule := {
      version := 1
      profile := recoveryProfile
      attemptId := attemptId
      revision := state.revision
      phase := state.phase
      binding := binding
      cooldownUntil := state.cooldownUntil
      grants := grants } }

/-- The fields of a scheduled query that its validator reads. -/
def ScheduledRecoveryQuery.inputs (request : ScheduledRecoveryQuery) : RecoveryScheduleInputs :=
  ⟨some request.recoverySchedule, request.fxEvidence, request.readAccountMode, request.accountLogs,
    some request.history⟩

/-- A schedule row as its table constraints and the safe-integer range leave it. -/
structure RecoveryScheduleState.WellFormed (state : RecoveryScheduleState) : Prop where
  revision : 0 ≤ state.revision ∧ state.revision ≤ maxSafeInteger
  phase : 0 ≤ state.phase ∧ state.phase ≤ 3
  fxRotation : 0 ≤ state.fxRotation ∧ state.fxRotation ≤ 3
  nextDueAt : 0 ≤ state.nextDueAt ∧ state.nextDueAt ≤ maxSafeInteger
  cooldownUntil : 0 ≤ state.cooldownUntil ∧ state.cooldownUntil ≤ maxSafeInteger

def allLanes : List RecoveryLane := [.targeted, .mode, .logs, .history, .fx]

section Planning

variable {query : ExchangeRecoveryQuery} {state : RecoveryScheduleState}
  {needed : RecoveryLane → Bool} {now : ℤ} {deferred : Option RecoveryDeferredReason}

theorem laneOrder_perm (state : RecoveryScheduleState) : (laneOrder state).Perm allLanes := by
  unfold laneOrder
  split_ifs <;> decide

theorem mem_laneOrder (state : RecoveryScheduleState) (lane : RecoveryLane) :
    lane ∈ laneOrder state := by
  rw [(laneOrder_perm state).mem_iff]
  cases lane <;> decide

theorem maximums_mem_caps (phase : ℤ) (lane : RecoveryLane) : maximums phase lane ∈ caps lane := by
  unfold maximums
  split_ifs <;> cases lane <;> decide

theorem maximums_nonneg (phase : ℤ) (lane : RecoveryLane) : 0 ≤ maximums phase lane :=
  (caps_range (maximums_mem_caps phase lane)).1

/-- The lanes with a positive maximum are the lanes that the validator expects in the phase. -/
theorem mem_phaseLanes {phase : ℤ} (hphase : 0 ≤ phase ∧ phase ≤ 3) {lane : RecoveryLane}
    (h : 0 < maximums phase lane) : lane ∈ phaseLanes phase := by
  obtain ⟨hlow, hhigh⟩ := hphase
  interval_cases phase <;> cases lane <;> revert h <;> decide

theorem maximums_sum (state : RecoveryScheduleState) :
    ((laneOrder state).map (maximums state.phase)).sum = 5 := by
  rw [((laneOrder_perm state).map _).sum_eq]
  unfold maximums
  split_ifs <;> rfl

end Planning

def plannedRow (query : ExchangeRecoveryQuery) (state : RecoveryScheduleState) (now : ℤ)
    (busy : Bool) : RecoveryLane → RecoveryGrant :=
  laneGrantRow query (maximums state.phase)
    (neededLanes query (nextHistory query state.historyAfter now)) now
    (scheduleDeferredReason state now busy)

def plannedRows (query : ExchangeRecoveryQuery) (state : RecoveryScheduleState) (now : ℤ)
    (busy : Bool) : List RecoveryGrant :=
  (laneOrder state).map (plannedRow query state now busy)

section Rows

variable {query : ExchangeRecoveryQuery} {state : RecoveryScheduleState} {now : ℤ} {busy : Bool}
  {lane : RecoveryLane}

theorem plannedRow_lane : (plannedRow query state now busy lane).lane = lane := rfl

theorem plannedRows_lanes :
    (plannedRows query state now busy).map (·.lane) = laneOrder state := by
  rw [plannedRows, List.map_map]
  exact List.map_id _

theorem plannedRow_pos_iff : 0 < (plannedRow query state now busy lane).maxCalls ↔
    (plannedRow query state now busy lane).deferredReason = none := by
  simp only [plannedRow, laneGrantRow]
  split_ifs with hrsn
  · have hcap : maximums state.phase lane ≠ 0 := by
      intro hzero
      rw [Option.orElse_eq_none, laneDeferredReason, if_pos hzero] at hrsn
      exact absurd hrsn.2 (by simp)
    have hnn := maximums_nonneg state.phase lane
    refine iff_of_true ?_ hrsn
    omega
  · exact iff_of_false (lt_irrefl 0) hrsn

theorem plannedRow_of_pos (h : 0 < (plannedRow query state now busy lane).maxCalls) :
    (plannedRow query state now busy lane).maxCalls = maximums state.phase lane := by
  simp only [plannedRow, laneGrantRow] at h ⊢
  split_ifs at h ⊢
  · rfl
  · exact absurd h (lt_irrefl 0)

theorem plannedRow_le : (plannedRow query state now busy lane).maxCalls ≤
    maximums state.phase lane := by
  simp only [plannedRow, laneGrantRow]
  split_ifs
  · exact le_rfl
  · exact maximums_nonneg state.phase lane

theorem plannedRow_granted (hphase : 0 ≤ state.phase ∧ state.phase ≤ 3) :
    Granted state.phase (plannedRow query state now busy lane) := by
  refine ⟨?_, ?_, plannedRow_pos_iff⟩
  · simp only [plannedRow, laneGrantRow]
    split_ifs
    · exact maximums_mem_caps state.phase lane
    · cases lane <;> decide
  · intro hpos
    exact mem_phaseLanes hphase (hpos.trans_le plannedRow_le)

theorem plannedRows_granted (hphase : 0 ≤ state.phase ∧ state.phase ≤ 3) :
    ∀ row ∈ plannedRows query state now busy, Granted state.phase row := by
  intro row hrow
  obtain ⟨lane, -, rfl⟩ := List.mem_map.mp hrow
  exact plannedRow_granted hphase

theorem plannedRows_length : (plannedRows query state now busy).length = 5 := by
  rw [plannedRows, List.length_map, (laneOrder_perm state).length_eq]
  rfl

theorem plannedRows_nodup : ((plannedRows query state now busy).map (·.lane)).Nodup := by
  rw [plannedRows_lanes, (laneOrder_perm state).nodup_iff]
  decide

theorem plannedRows_total : ((plannedRows query state now busy).map (·.maxCalls)).sum ≤ 5 := by
  rw [← maximums_sum state, plannedRows, List.map_map]
  exact List.sum_le_sum (fun lane _ => plannedRow_le)

theorem plannedRows_any (lane : RecoveryLane) :
    (plannedRows query state now busy).any (fun grant => grant.lane = lane ∧ 0 < grant.maxCalls) =
      decide (0 < (plannedRow query state now busy lane).maxCalls) := by
  rw [Bool.eq_iff_iff, List.any_eq_true]
  simp only [decide_eq_true_eq]
  refine ⟨?_, ?_⟩
  · intro h
    obtain ⟨row, hrow, rfl, hpos⟩ := h
    obtain ⟨lane, -, rfl⟩ := List.mem_map.mp hrow
    exact hpos
  · intro h
    exact ⟨_, List.mem_map_of_mem (mem_laneOrder state lane), rfl, h⟩

theorem plannedRows_find (lane : RecoveryLane) :
    (plannedRows query state now busy).find? (·.lane = lane) =
      some (plannedRow query state now busy lane) := by
  have hfound : ((plannedRows query state now busy).find? (·.lane = lane)).isSome = true := by
    rw [List.find?_isSome]
    exact ⟨_, List.mem_map_of_mem (mem_laneOrder state lane), by simp [plannedRow_lane]⟩
  obtain ⟨row, hrow⟩ := Option.isSome_iff_exists.mp hfound
  have hlane := List.find?_some hrow
  obtain ⟨other, -, rfl⟩ := List.mem_map.mp (List.mem_of_find?_eq_some hrow)
  rw [decide_eq_true_eq, plannedRow_lane] at hlane
  rw [hrow, hlane]

/-- While the schedule is cooling down, not due or busy, no lane is granted anything. -/
theorem plannedRow_deferred (h : now < state.cooldownUntil ∨ now < state.nextDueAt ∨ busy = true) :
    (plannedRow query state now busy lane).maxCalls = 0 := by
  have hrsn : scheduleDeferredReason state now busy ≠ none := by
    unfold scheduleDeferredReason
    split_ifs with hcooldown hdue
    · simp
    · simp
    · rcases h with h | h | h
      · exact absurd h hcooldown
      · exact absurd (.inr h) hdue
      · exact absurd (.inl h) hdue
  obtain ⟨reason, hsome⟩ := Option.ne_none_iff_exists'.mp hrsn
  simp [plannedRow, laneGrantRow, hsome]

theorem needed_of_granted (h : 0 < (plannedRow query state now busy lane).maxCalls) :
    neededLanes query (nextHistory query state.historyAfter now) lane = true := by
  have hrsn := plannedRow_pos_iff.mp h
  simp only [plannedRow, laneGrantRow, Option.orElse_eq_none, laneDeferredReason] at hrsn
  by_contra hneeded
  rw [Bool.not_eq_true] at hneeded
  simp only [hneeded, if_true] at hrsn
  split_ifs at hrsn <;> exact absurd hrsn.2 (by simp)

theorem laneGrant_planned {request : RecoveryScheduleRequest}
    (h : request.grants = plannedRows query state now busy) (lane : RecoveryLane) :
    laneGrant request lane = .ok (plannedRow query state now busy lane).maxCalls := by
  rw [laneGrant, h, plannedRows_find]
  rfl

theorem rotationLegs_ok (h : 0 ≤ state.fxRotation ∧ state.fxRotation ≤ 3) :
    ∃ legs, rotationLegs state.fxRotation = .ok legs ∧ legs.length = 3 ∧ legs.Nodup := by
  obtain ⟨hlow, hhigh⟩ := h
  generalize state.fxRotation = rotation at *
  interval_cases rotation <;> exact ⟨_, rfl, rfl, by decide⟩

/-- The sources of a plan: each is present exactly when its lane was granted calls. -/
structure Sources (query : ExchangeRecoveryQuery) (state : RecoveryScheduleState) (now : ℤ)
    (busy : Bool) (request : ScheduledRecoveryQuery) : Prop where
  mode : 0 < (plannedRow query state now busy .mode).maxCalls → request.readAccountMode = some true
  logs : request.accountLogs =
    if 0 < (plannedRow query state now busy .logs).maxCalls then query.accountLogs else none
  logs_present : 0 < (plannedRow query state now busy .logs).maxCalls → query.accountLogs ≠ none
  history : request.history.length =
    if 0 < (plannedRow query state now busy .history).maxCalls then 1 else 0
  fx : if 0 < (plannedRow query state now busy .fx).maxCalls then
      ∃ legs : List FxLegId, request.fxEvidence = some ⟨1, legs⟩ ∧ legs.length = 3 ∧ legs.Nodup
    else request.fxEvidence = none

theorem grantedLogs_ok (hasLogs : Bool) (h : hasLogs = true → query.accountLogs ≠ none) :
    grantedLogs query hasLogs = .ok (if hasLogs then query.accountLogs else none) := by
  cases hasLogs with
  | false => rfl
  | true =>
    obtain ⟨logs, hlogs⟩ := Option.ne_none_iff_exists'.mp (h rfl)
    simp [grantedLogs, requiredAccountLogs, hlogs, pure, Except.pure]

theorem grantedFx_ok (hstate : state.WellFormed) (hasFx : Bool) :
    ∃ fx, grantedFx state hasFx = .ok fx ∧ if hasFx then
      ∃ legs : List FxLegId, fx = some ⟨1, legs⟩ ∧ legs.length = 3 ∧ legs.Nodup else fx = none := by
  cases hasFx with
  | false => exact ⟨none, rfl, rfl⟩
  | true =>
    obtain ⟨legs, hlegs, hlen, hnodup⟩ := rotationLegs_ok hstate.fxRotation
    refine ⟨some ⟨1, legs⟩, ?_, legs, rfl, hlen, hnodup⟩
    simp [grantedFx, hlegs, pure, Except.pure]

/-- The planner never fails on a well-formed row. -/
theorem plan_ok (hstate : state.WellFormed) (binding : RecoveryScheduleBinding)
    (attemptId : String) :
    ∃ request, planScheduledRecovery query binding state attemptId now busy = .ok request ∧
      request.recoverySchedule = ⟨1, recoveryProfile, attemptId, state.revision, state.phase,
        binding,
        state.cooldownUntil, plannedRows query state now busy⟩ ∧
      Sources query state now busy request := by
  have hlogs : 0 < (plannedRow query state now busy .logs).maxCalls → query.accountLogs ≠ none := by
    intro hpos
    exact Option.isSome_iff_ne_none.mp (needed_of_granted hpos)
  have hgrants : laneGrants state (maximums state.phase)
      (neededLanes query (nextHistory query state.historyAfter now)) query now
      (scheduleDeferredReason state now busy) = plannedRows query state now busy := rfl
  have hgranted := @grantedLogs_ok query
    (decide (0 < (plannedRow query state now busy .logs).maxCalls))
    (fun h => hlogs (of_decide_eq_true h))
  obtain ⟨fx, hfx, hfx_shape⟩ := grantedFx_ok hstate
    (decide (0 < (plannedRow query state now busy .fx).maxCalls))
  simp only [planScheduledRecovery, hgrants, plannedRows_any, hgranted, hfx, ok_bind]
  refine ⟨_, rfl, rfl, ?_, by simp, hlogs, ?_, by simpa using hfx_shape⟩
  · intro hpos
    have hmode := needed_of_granted hpos
    rw [neededLanes, decide_eq_true_eq] at hmode
    rw [if_pos hmode]
  · simp only [decide_eq_true_eq]
    split_ifs with hpos
    · have hhistory := needed_of_granted hpos
      obtain ⟨row, hrow⟩ := Option.isSome_iff_exists.mp hhistory
      rw [hrow]
      rfl
    · rfl

theorem requestedSourcePresence_ok {request : ScheduledRecoveryQuery}
    {binding : RecoveryScheduleBinding}
    (hgrants : request.recoverySchedule.grants = plannedRows query state now busy)
    (hsources : Sources query state now busy request)
    (hlogs : ∀ logs, query.accountLogs = some logs →
      logs.accountFingerprint = binding.accountFingerprint ∧
        logs.credentialGeneration = binding.credentialGeneration) :
    requestedSourcePresence request.inputs request.recoverySchedule binding = .ok () := by
  have hmode : ¬ (0 < (plannedRow query state now busy .mode).maxCalls ∧
      request.inputs.readAccountMode ≠ some true) := by
    intro h
    exact h.2 (hsources.mode h.1)
  have hpresent : ¬ ¬ (0 < (plannedRow query state now busy .logs).maxCalls ↔
      request.inputs.accountLogs ≠ none) := by
    rw [not_not, ScheduledRecoveryQuery.inputs, hsources.logs]
    split_ifs with hpos
    · exact iff_of_true hpos (hsources.logs_present hpos)
    · simp [hpos]
  have hbound : ¬ (request.inputs.accountLogs.any (fun checkpoint =>
      checkpoint.accountFingerprint ≠ binding.accountFingerprint ∨
        checkpoint.credentialGeneration ≠ binding.credentialGeneration)) = true := by
    rw [ScheduledRecoveryQuery.inputs, hsources.logs]
    split_ifs
    · cases hcase : query.accountLogs with
      | none => simp
      | some logs => simp [hlogs logs hcase]
    · simp
  have hhistory : (request.inputs.history.getD []).length =
      if 0 < (plannedRow query state now busy .history).maxCalls then 1 else 0 := hsources.history
  have hsingle : ¬ 1 < (request.inputs.history.getD []).length := by
    rw [hhistory]
    split_ifs <;> decide
  rw [requestedSourcePresence, laneGrant_planned hgrants, ok_bind, throwIf_of_not hmode, ok_bind,
    laneGrant_planned hgrants, ok_bind, throwIf_of_not hpresent, ok_bind, throwIf_of_not hbound,
    ok_bind]
  dsimp only
  rw [throwIf_of_not hsingle, ok_bind, laneGrant_planned hgrants, ok_bind,
    throwIf_of_not (not_not.mpr hhistory)]

end Rows

/-- Every planned query is accepted by the validator, names each lane once, and grants nothing
while the schedule is cooling down, not due or busy. -/
theorem planned_recovery_accepted (query : ExchangeRecoveryQuery)
    (binding : RecoveryScheduleBinding)
    (state : RecoveryScheduleState) (attemptId : String) (now : ℤ) (busy : Bool)
    (hlogs : ∀ logs, query.accountLogs = some logs →
      logs.accountFingerprint = binding.accountFingerprint ∧
        logs.credentialGeneration = binding.credentialGeneration)
    (hbinding : binding.Valid) (hstate : state.WellFormed)
    (hattempt : attemptIdPattern attemptId = true) :
    ∃ request, planScheduledRecovery query binding state attemptId now busy = .ok request ∧
      validateRecoveryScheduleInputs request.inputs binding =
        .ok (some (request.recoverySchedule, request.fxEvidence)) ∧
      (request.recoverySchedule.grants.map (·.lane)).Perm allLanes ∧
      (∀ grant ∈ request.recoverySchedule.grants, 0 ≤ grant.maxCalls) ∧
      (request.recoverySchedule.grants.map (·.maxCalls)).sum ≤ 5 ∧
      (now < state.cooldownUntil ∨ now < state.nextDueAt ∨ busy = true →
        ∀ grant ∈ request.recoverySchedule.grants, grant.maxCalls = 0) := by
  obtain ⟨request, hplan, hrequest, hsources⟩ :=
    @plan_ok query state now busy hstate binding attemptId
  have hgrants : request.recoverySchedule.grants = plannedRows query state now busy := by
    rw [hrequest]
  have hvalid : validateRecoveryScheduleRequest request.recoverySchedule binding =
      .ok request.recoverySchedule := by
    rw [hrequest]
    exact @validateRecoveryScheduleRequest_of_wellFormed ⟨1, recoveryProfile, attemptId,
      state.revision, state.phase, binding, state.cooldownUntil, plannedRows query state now busy⟩
      rfl rfl hattempt hstate.revision hstate.phase hbinding hstate.cooldownUntil
      (plannedRows_granted hstate.phase) plannedRows_length plannedRows_nodup plannedRows_total
  refine ⟨request, hplan, ?_, ?_, ?_, ?_, ?_⟩
  · have hpresence := requestedSourcePresence_ok hgrants hsources hlogs
    have hfx := hsources.fx
    have hsch : request.inputs.recoverySchedule = some request.recoverySchedule := rfl
    have hev : request.inputs.fxEvidence = request.fxEvidence := rfl
    simp only [validateRecoveryScheduleInputs, hsch, hev, hvalid, hpresence,
      laneGrant_planned hgrants, ok_bind]
    split_ifs at hfx with hpos
    · obtain ⟨legs, hlegs, hlen, hnodup⟩ := hfx
      have hthree : (plannedRow query state now busy .fx).maxCalls = 3 := by
        have hmax := plannedRow_of_pos hpos
        rw [hmax] at hpos ⊢
        unfold maximums at hpos ⊢
        split_ifs at hpos ⊢ <;> simp_all
      simp only [hlegs]
      rw [throwIf_of_not (not_not.mpr hpos), ok_bind, fxRequest, throwIf_of_not (by simp [hlen]),
        ok_bind, throwIf_of_not _, ok_bind]
      · rfl
      · rw [hthree]
        simp [hlen, hnodup, ← List.length_eq_zero_iff]
    · simp only [hfx]
      rw [throwIf_of_not hpos, ok_bind]
      rfl
  · rw [hgrants, plannedRows_lanes]
    exact laneOrder_perm state
  · rw [hgrants]
    intro grant hgrant
    exact (caps_range (plannedRows_granted hstate.phase grant hgrant).1).1
  · rw [hgrants]
    exact plannedRows_total
  · intro hdeferred
    rw [hgrants]
    intro grant hgrant
    obtain ⟨lane, -, rfl⟩ := List.mem_map.mp hgrant
    exact plannedRow_deferred hdeferred

def scheduleBinding : RecoveryScheduleBinding where
  accountId := "schedule"
  accountFingerprint := .ofList (List.replicate 64 'a')
  credentialGeneration := .ofList (List.replicate 64 'b')
  mode := .testnet
  executionProfileHash := .ofList (List.replicate 64 'c')

theorem scheduleBinding_valid : scheduleBinding.Valid where
  accountId := by decide
  accountFingerprint := by decide
  credentialGeneration := by decide
  executionProfileHash := by decide

/-- A query with one order, the account mode, an account log and two history sources. -/
def scheduleQuery : ExchangeRecoveryQuery where
  since := 1000
  orders := [⟨"client", some "remote"⟩]
  readAccountMode := some true
  accountLogs := some ⟨.ofList (List.replicate 64 'a'), .ofList (List.replicate 64 'b'), 0, 0⟩
  history := some [⟨.orders, none, 0, 0⟩, ⟨.fills, none, 0, 0⟩]

def scheduleState : RecoveryScheduleState := ⟨"scope", 5, 1, 3, 1, none, 2000, 0⟩

theorem planned_recovery_accepted_history : ∃ request,
    planScheduledRecovery scheduleQuery scheduleBinding scheduleState
      "12345678-1234-4123-8123-123456789abc" 3000 false = .ok request ∧
    validateRecoveryScheduleInputs request.inputs scheduleBinding =
      .ok (some (request.recoverySchedule, request.fxEvidence)) := by
  have hlogs : ∀ logs, scheduleQuery.accountLogs = some logs →
      logs.accountFingerprint = scheduleBinding.accountFingerprint ∧
        logs.credentialGeneration = scheduleBinding.credentialGeneration := by
    intro logs h
    obtain rfl := Option.some.inj h
    exact ⟨rfl, rfl⟩
  have hstate : scheduleState.WellFormed := ⟨by decide, by decide, by decide, by decide, by decide⟩
  obtain ⟨request, hplan, hvalid, -⟩ := planned_recovery_accepted scheduleQuery scheduleBinding
    scheduleState "12345678-1234-4123-8123-123456789abc" 3000 false hlogs scheduleBinding_valid
    hstate (by decide)
  exact ⟨request, hplan, hvalid⟩

end TsxCore.TradingRecoverySchedule
