import TsxCore.SqlTable
import TsxCore.TradingRecoverySchedule

/-!
# Durable recovery schedule (`trading_recovery_schedule_repository.ts`)

Each exported function is one transaction: it commits what it wrote or, when it
throws, leaves the tables as they were. Columns that no modelled function reads
are left out, and a stored request is the request itself. What the functions
take from their surroundings comes with each call: the clock, the account
context, a fresh identifier, the outcome of the constraints on the request text
and the account, the acquisition evidence and the validation of its progress.
-/

namespace TsxCore.TradingRecoveryScheduleRepository

open Outcome TradingRecoveryScheduleContract TradingRecoverySchedule SqlTable

inductive AttemptStatus
  | reserved
  | succeeded
  | failed
  deriving DecidableEq

inductive Failure
  | transportUnresolved
  | contractInvalid
  | readFailed
  | leaseExpired

structure Attempt where
  id : String
  scheduleId : String
  accountId : String
  baseRevision : ℤ
  phase : ℤ
  advancesPhase : Bool
  historySelection : Option String
  status : AttemptStatus
  request : ScheduledRecoveryQuery
  startedAt : ℤ
  leaseUntil : ℤ
  errorCode : Option Failure
  calls : Option ℤ
  completedAt : Option ℤ

/-- `trading_recovery_schedules` and `trading_recovery_schedule_attempts`. -/
structure Database where
  schedules : List RecoveryScheduleState
  attempts : List Attempt

structure FxAccount where
  id : String
  mode : String
  externalAccountId : Option String
  credentialGeneration : Option String
  executionProfileHash : Option String

structure FxContext where
  mode : ExchangeMode
  profileHash : String

/-- What `validateAcquisitionEvidence` leaves of the evidence. -/
structure AcquisitionEvidence where
  attemptId : Option String
  hasFxEvidence : Bool
  hasReadSkipped : Bool
  startedAt : ℤ
  completedAt : ℤ

structure RecoveryScheduleProgress where
  calls : ℤ
  cooldownUntil : ℤ

def scheduleError (reason : String) : Thrown := .error ("RECOVERY_SCHEDULE_" ++ reason)

def constraintFailed : Thrown := .error "SQLITE_CONSTRAINT"

def instant (now clock : ℤ) : Outcome Unit :=
  throwIf (now.natAbs > maxSafeInteger ∨ now < 0 ∨ clock + 1000 < now)
    (scheduleError "INVALID_TIME")

/-- `accountBinding`, given what `requireFxAccountContext` returns. -/
def accountBinding (account : FxAccount) (context : Outcome FxContext) :
    Outcome RecoveryScheduleBinding := do
  let context ← context
  match account.externalAccountId, account.credentialGeneration with
  | some fingerprint, some generation => do
    throwIf (fingerprint = "" ∨ generation = "") (scheduleError "ACCOUNT_BINDING_MISSING")
    return ⟨account.id, fingerprint, generation, context.mode, context.profileHash⟩
  | _, _ => .error (scheduleError "ACCOUNT_BINDING_MISSING")

def isActive (scheduleId : String) (attempt : Attempt) : Bool :=
  attempt.scheduleId = scheduleId ∧ attempt.status = .reserved ∧ attempt.advancesPhase = true

def activeAttempt (db : Database) (scheduleId : String) : Option Attempt :=
  db.attempts.find? (isActive scheduleId)

def newSchedule (id : String) : RecoveryScheduleState := ⟨id, 0, 0, 0, 0, none, 0, 0⟩

/-- `schedule`: insert the row if it is absent, then read it. -/
def schedule (db : Database) (id : String) : Database × RecoveryScheduleState :=
  match db.schedules.find? (·.id = id) with
  | some state => (db, state)
  | none => ({ db with schedules := db.schedules ++ [newSchedule id] }, newSchedule id)

def isHeldRow (attempt : Attempt) (state : RecoveryScheduleState) : Bool :=
  state.id = attempt.scheduleId ∧ state.revision = attempt.baseRevision ∧
    state.phase = attempt.phase

/-- The `SET` part of the statement in `advance`. -/
def advanceRow (attempt : Attempt) (now cooldown : ℤ) (state : RecoveryScheduleState) :
    RecoveryScheduleState :=
  { state with
    revision := state.revision + 1
    phase := (state.phase + 1) % 4
    fxRotation := if state.phase = 0 ∨ state.phase = 2 then (state.fxRotation + 1) % 4
      else state.fxRotation
    logsFirst := if state.phase = 3 then 1 - state.logsFirst else state.logsFirst
    historyAfter := attempt.historySelection <|> state.historyAfter
    nextDueAt := now + 2000
    cooldownUntil := max state.cooldownUntil cooldown }

def advance (db : Database) (attempt : Attempt) (now cooldown : ℤ) : Outcome Database := do
  if attempt.advancesPhase = false then return db
  else
    throwIf (0 < changes (isHeldRow attempt) db.schedules ∧ now + 2000 < 0) constraintFailed
    throwIf (changes (isHeldRow attempt) db.schedules ≠ 1) (scheduleError "REVISION_CHANGED")
    return { db with
      schedules := updateWhere (isHeldRow attempt) (advanceRow attempt now cooldown) db.schedules }

def isReservedRow (id : String) (attempt : Attempt) : Bool :=
  attempt.id = id ∧ attempt.status = .reserved

/-- The `SET` part of the statements that close an attempt. -/
def closeRow (status : AttemptStatus) (errorCode : Option Failure) (calls : Option ℤ) (now : ℤ)
    (attempt : Attempt) : Attempt :=
  { attempt with
    status := status
    errorCode := errorCode
    calls := calls
    completedAt := some now }

/-- `UPDATE … WHERE id=? AND status='reserved'`. -/
def closeAttempt (db : Database) (attempt : Attempt) (status : AttemptStatus)
    (errorCode : Option Failure) (calls : Option ℤ) (now : ℤ) : Database :=
  { db with
    attempts := updateWhere (isReservedRow attempt.id) (closeRow status errorCode calls now)
      db.attempts }

def closeFailure (db : Database) (attempt : Attempt) (reason : Failure) (now : ℤ) :
    Outcome Database := do
  throwIf (now < attempt.startedAt ∨ attempt.status ≠ .reserved) (scheduleError "ATTEMPT_NOT_OPEN")
  throwIf (changes (isReservedRow attempt.id) db.attempts ≠ 1) (scheduleError "ATTEMPT_CHANGED")
  advance (closeAttempt db attempt .failed (some reason) none now) attempt now 0

/-- The rows that are read at the start of a reservation: an expired lease is closed first. -/
def openSchedule (db : Database) (id : String) (now : ℤ) :
    Outcome (Database × RecoveryScheduleState × Bool) := do
  let (db, state) := schedule db id
  match activeAttempt db state.id with
  | none => return (db, state, false)
  | some active =>
    if active.leaseUntil ≤ now then
      let (db, state) := schedule (← closeFailure db active .leaseExpired now) id
      return (db, state, false)
    else return (db, state, true)

/-- `INSERT INTO trading_recovery_schedule_attempts` with its key and its active index. -/
def insertAttempt (db : Database) (attempt : Attempt) : Outcome Database := do
  throwIf (db.attempts.any (·.id = attempt.id)) constraintFailed
  throwIf (isActive attempt.scheduleId attempt ∧ db.attempts.any (isActive attempt.scheduleId))
    constraintFailed
  return { db with attempts := db.attempts ++ [attempt] }

structure ReserveCall where
  account : FxAccount
  query : ExchangeRecoveryQuery
  now : ℤ
  clock : ℤ
  context : Outcome FxContext
  attemptId : String
  rowConstraints : Outcome Unit

structure FailCall where
  account : FxAccount
  attemptId : String
  reason : Failure
  now : ℤ
  clock : ℤ

/-- `evidence` is absent when the acquisition was not persisted. -/
structure CompleteCall where
  account : FxAccount
  evidence : Option (Outcome AcquisitionEvidence)
  clock : ℤ
  context : Outcome FxContext
  progress : ScheduledRecoveryQuery → RecoveryScheduleBinding →
    Outcome (Option RecoveryScheduleProgress)

def newAttempt (call : ReserveCall) (state : RecoveryScheduleState)
    (request : ScheduledRecoveryQuery) : Attempt where
  id := call.attemptId
  scheduleId := state.id
  accountId := call.account.id
  baseRevision := state.revision
  phase := state.phase
  advancesPhase := request.recoverySchedule.grants.any (fun grant => 0 < grant.maxCalls)
  historySelection := request.history.head?.map recoveryHistoryKey
  status := .reserved
  request := request
  startedAt := call.now
  leaseUntil := call.now + 35000
  errorCode := none
  calls := none
  completedAt := none

section Transactions

variable (scheduleId : RecoveryScheduleBinding → String)

def reserveScheduledRecovery (db : Database) (call : ReserveCall) :
    Outcome (Database × ScheduledRecoveryQuery) := do
  instant call.now call.clock
  let binding ← accountBinding call.account call.context
  let (db, state, busy) ← openSchedule db (scheduleId binding) call.now
  let request ← planScheduledRecovery call.query binding state call.attemptId call.now busy
  let _ ← validateRecoveryScheduleInputs request.inputs binding
  call.rowConstraints
  return (← insertAttempt db (newAttempt call state request), request)

def assertAttemptBinding (account : FxAccount) (attempt : Attempt) : Outcome Unit :=
  let bound := attempt.request.recoverySchedule.binding
  throwIf (attempt.accountId ≠ account.id ∨ bound.accountId ≠ account.id ∨
      bound.mode.text ≠ account.mode ∨ some bound.accountFingerprint ≠ account.externalAccountId ∨
      some bound.credentialGeneration ≠ account.credentialGeneration ∨
      some bound.executionProfileHash ≠ account.executionProfileHash)
    (scheduleError "ATTEMPT_BINDING_CHANGED")

def findAttempt (db : Database) (id : String) : Option Attempt := db.attempts.find? (·.id = id)

def failScheduledRecovery (db : Database) (call : FailCall) : Outcome Database := do
  instant call.now call.clock
  match findAttempt db call.attemptId with
  | none => .error (scheduleError "ATTEMPT_MISSING")
  | some attempt => do
    assertAttemptBinding call.account attempt
    if attempt.status ≠ .reserved then return db
    else closeFailure db attempt call.reason call.now

/-- The held request of an acquisition that names one, with its validated progress. -/
def heldAcquisition (db : Database) (call : CompleteCall) (clean : AcquisitionEvidence) :
    Outcome (Option (Attempt × RecoveryScheduleProgress)) :=
  match clean.attemptId with
  | none => do
    throwIf (clean.hasFxEvidence = true ∨ clean.hasReadSkipped = true)
      (scheduleError "MISSING_REQUEST")
    return none
  | some attemptId => do
    let expected ← accountBinding call.account call.context
    match findAttempt db attemptId with
    | none => .error (scheduleError "ATTEMPT_NOT_OPEN")
    | some attempt => do
      throwIf (attempt.status ≠ .reserved) (scheduleError "ATTEMPT_NOT_OPEN")
      assertAttemptBinding call.account attempt
      throwIf (clean.startedAt < attempt.startedAt ∨ attempt.leaseUntil < clean.completedAt)
        (scheduleError "READ_LEASE_EXPIRED")
      match ← call.progress attempt.request expected with
      | none => .error (scheduleError "PROGRESS_MISSING")
      | some progress => return some (attempt, progress)

def completeAttempt (db : Database) (attempt : Attempt) (progress : RecoveryScheduleProgress)
    (now : ℤ) : Outcome Database := do
  throwIf (0 < changes (isReservedRow attempt.id) db.attempts ∧
    (progress.calls < 0 ∨ 5 < progress.calls ∨ now < attempt.startedAt)) constraintFailed
  throwIf (changes (isReservedRow attempt.id) db.attempts ≠ 1) (scheduleError "ATTEMPT_CHANGED")
  advance (closeAttempt db attempt .succeeded attempt.errorCode (some progress.calls) now) attempt
    now progress.cooldownUntil

def completeScheduledRecovery (db : Database) (call : CompleteCall) : Outcome Database :=
  match call.evidence with
  | none => .error (scheduleError "ACQUISITION_NOT_PERSISTED")
  | some evidence => do
    match ← heldAcquisition db call (← evidence) with
    | none => return db
    | some (attempt, progress) => completeAttempt db attempt progress call.clock

inductive Call
  | reserve (call : ReserveCall)
  | fail (call : FailCall)
  | complete (call : CompleteCall)

def perform (db : Database) : Call → Outcome Database
  | .reserve call => (·.1) <$> reserveScheduledRecovery scheduleId db call
  | .fail call => failScheduledRecovery db call
  | .complete call => completeScheduledRecovery db call

def commit (db : Database) (call : Call) : Database :=
  match perform scheduleId db call with
  | .ok next => next
  | .error _ => db

end Transactions

def empty : Database := ⟨[], []⟩

def isClosed (scheduleId : String) (attempt : Attempt) : Bool :=
  attempt.scheduleId = scheduleId ∧ attempt.status ≠ .reserved ∧ attempt.advancesPhase = true

def isRotated (scheduleId : String) (attempt : Attempt) : Bool :=
  isClosed scheduleId attempt ∧ (attempt.phase = 0 ∨ attempt.phase = 2)

/-- A schedule row agrees with the attempts made on it. -/
structure Current (attempts : List Attempt) (state : RecoveryScheduleState) : Prop where
  single : attempts.countP (isActive state.id) ≤ 1
  held : ∀ attempt ∈ attempts, isActive state.id attempt = true →
    attempt.baseRevision = state.revision ∧ attempt.phase = state.phase
  revision : state.revision = attempts.countP (isClosed state.id)
  phase : state.phase = state.revision % 4
  rotation : state.fxRotation = attempts.countP (isRotated state.id) % 4

structure Consistent (db : Database) : Prop where
  schedule_ids : (db.schedules.map (·.id)).Nodup
  attempt_ids : (db.attempts.map (·.id)).Nodup
  scheduled : ∀ attempt ∈ db.attempts, ∃ state ∈ db.schedules, state.id = attempt.scheduleId
  current : ∀ state ∈ db.schedules, Current db.attempts state

theorem consistent_empty : Consistent empty where
  schedule_ids := List.nodup_nil
  attempt_ids := List.nodup_nil
  scheduled := by simp [empty]
  current := by simp [empty]

/-- Everything that a transaction writes is a sequence of these changes. -/
inductive Change (db : Database) : Database → Prop
  | create {id : String} (habsent : ∀ state ∈ db.schedules, state.id ≠ id) :
    Change db { db with schedules := db.schedules ++ [newSchedule id] }
  | close {attempt : Attempt} {status : AttemptStatus} {errorCode : Option Failure}
    {calls : Option ℤ} {now cooldown : ℤ} {next : Database} (hmem : attempt ∈ db.attempts)
    (hresv : attempt.status = .reserved) (hclosed : status ≠ .reserved)
    (hone : changes (isReservedRow attempt.id) db.attempts = 1)
    (hadv : advance (closeAttempt db attempt status errorCode calls now) attempt now cooldown =
      .ok next) : Change db next
  | insert {attempt : Attempt} {state : RecoveryScheduleState}
    (hfresh : ∀ other ∈ db.attempts, other.id ≠ attempt.id) (hstate : state ∈ db.schedules)
    (hid : attempt.scheduleId = state.id) (hbase : attempt.baseRevision = state.revision)
    (hphase : attempt.phase = state.phase) (hresv : attempt.status = .reserved)
    (hidle : attempt.advancesPhase = true →
      ∀ other ∈ db.attempts, isActive state.id other = false) :
    Change db { db with attempts := db.attempts ++ [attempt] }

section Changes

variable {db next : Database} {attempt : Attempt} {state : RecoveryScheduleState}

theorem isActive_iff {id : String} : isActive id attempt = true ↔
    attempt.scheduleId = id ∧ attempt.status = .reserved ∧ attempt.advancesPhase = true := by
  simp [isActive]

theorem isHeldRow_iff : isHeldRow attempt state = true ↔ state.id = attempt.scheduleId ∧
    state.revision = attempt.baseRevision ∧ state.phase = attempt.phase := by
  simp [isHeldRow]

theorem Consistent.create (hdb : Consistent db) {id : String}
    (habsent : ∀ state ∈ db.schedules, state.id ≠ id) :
    Consistent { db with schedules := db.schedules ++ [newSchedule id] } := by
  have hnone : ∀ attempt ∈ db.attempts, attempt.scheduleId ≠ id := by
    intro attempt hatt heq
    obtain ⟨state, hstate, hid⟩ := hdb.scheduled attempt hatt
    exact habsent state hstate (hid.trans heq)
  refine ⟨?_, hdb.attempt_ids, ?_, ?_⟩
  · rw [List.map_append, List.nodup_append]
    refine ⟨hdb.schedule_ids, by simp, ?_⟩
    intro a ha b hb heq
    obtain ⟨state, hstate, rfl⟩ := List.mem_map.mp ha
    rw [List.map_singleton, List.mem_singleton] at hb
    exact habsent state hstate (heq.trans hb)
  · intro attempt hatt
    obtain ⟨state, hstate, hid⟩ := hdb.scheduled attempt hatt
    exact ⟨state, List.mem_append_left _ hstate, hid⟩
  · intro state hstate
    rcases List.mem_append.mp hstate with hold | hnew
    · exact hdb.current state hold
    · rw [List.mem_singleton] at hnew
      subst hnew
      have hact : db.attempts.countP (isActive id) = 0 := by
        rw [List.countP_eq_zero]
        intro a ha h
        exact hnone a ha (isActive_iff.mp h).1
      have hclosed : db.attempts.countP (isClosed id) = 0 := by
        rw [List.countP_eq_zero]
        intro a ha h
        simp only [isClosed, decide_eq_true_eq] at h
        exact hnone a ha h.1
      have hrotated : db.attempts.countP (isRotated id) = 0 := by
        rw [List.countP_eq_zero]
        intro a ha h
        simp only [isRotated, isClosed, decide_eq_true_eq] at h
        exact hnone a ha h.1.1
      refine ⟨?_, ?_, ?_, rfl, ?_⟩
      · exact hact.le.trans zero_le_one
      · intro a ha h
        exact absurd (isActive_iff.mp h).1 (hnone a ha)
      · exact (congrArg Int.ofNat hclosed).symm
      · rw [newSchedule, hrotated]
        rfl

theorem Current.of_counts {attempts attempts' : List Attempt} (hs : Current attempts state)
    (hact : attempts'.countP (isActive state.id) = attempts.countP (isActive state.id))
    (hclosed : attempts'.countP (isClosed state.id) = attempts.countP (isClosed state.id))
    (hrotated : attempts'.countP (isRotated state.id) = attempts.countP (isRotated state.id))
    (hheld : ∀ attempt ∈ attempts', isActive state.id attempt = true → attempt ∈ attempts) :
    Current attempts' state where
  single := hact ▸ hs.single
  held a ha h := hs.held a (hheld a ha h) h
  revision := hclosed ▸ hs.revision
  phase := hs.phase
  rotation := hrotated ▸ hs.rotation

theorem Consistent.insert (hdb : Consistent db)
    (hfresh : ∀ other ∈ db.attempts, other.id ≠ attempt.id) (hstate : state ∈ db.schedules)
    (hid : attempt.scheduleId = state.id) (hbase : attempt.baseRevision = state.revision)
    (hphase : attempt.phase = state.phase) (hresv : attempt.status = .reserved)
    (hidle : attempt.advancesPhase = true →
      ∀ other ∈ db.attempts, isActive state.id other = false) :
    Consistent { db with attempts := db.attempts ++ [attempt] } := by
  refine ⟨hdb.schedule_ids, ?_, ?_, ?_⟩
  · rw [List.map_append, List.nodup_append]
    refine ⟨hdb.attempt_ids, by simp, ?_⟩
    intro a ha b hb heq
    obtain ⟨other, hother, rfl⟩ := List.mem_map.mp ha
    rw [List.map_singleton, List.mem_singleton] at hb
    exact hfresh other hother (heq.trans hb)
  · intro a ha
    rcases List.mem_append.mp ha with hold | hnew
    · exact hdb.scheduled a hold
    · rw [List.mem_singleton] at hnew
      exact ⟨state, hstate, by rw [hnew, hid]⟩
  · intro row hrow
    have hcur := hdb.current row hrow
    have hclosed : isClosed row.id attempt = false := by
      simp [isClosed, hresv]
    have hrotated : isRotated row.id attempt = false := by
      simp [isRotated, hclosed]
    by_cases hact : isActive row.id attempt = true
    · have hrow_id : row.id = state.id := by
        rw [← hid]
        exact (isActive_iff.mp hact).1.symm
      obtain rfl := eq_of_key hdb.schedule_ids hrow hstate hrow_id
      have hnone := hidle (isActive_iff.mp hact).2.2
      refine ⟨?_, ?_, ?_, hcur.phase, ?_⟩
      · rw [List.countP_append, List.countP_eq_zero.mpr (by simpa using hnone)]
        simp [hact]
      · intro a ha h
        rcases List.mem_append.mp ha with hold | hnew
        · exact absurd h (by simp [hnone a hold])
        · rw [List.mem_singleton] at hnew
          rw [hnew]
          exact ⟨hbase, hphase⟩
      · simpa [List.countP_append, hclosed] using hcur.revision
      · simpa [List.countP_append, hrotated] using hcur.rotation
    · apply hcur.of_counts
      · simp [List.countP_append, hact]
      · simp [List.countP_append, hclosed]
      · simp [List.countP_append, hrotated]
      · intro a ha h
        rcases List.mem_append.mp ha with hold | hnew
        · exact hold
        · rw [List.mem_singleton] at hnew
          exact absurd (hnew ▸ h) hact

theorem advance_ok_iff {now cooldown : ℤ} : advance db attempt now cooldown = .ok next ↔
    (attempt.advancesPhase = false ∧ next = db) ∨
      (attempt.advancesPhase = true ∧
        ¬ (0 < changes (isHeldRow attempt) db.schedules ∧ now + 2000 < 0) ∧
        changes (isHeldRow attempt) db.schedules = 1 ∧ next = ⟨updateWhere (isHeldRow attempt)
          (advanceRow attempt now cooldown) db.schedules, db.attempts⟩) := by
  unfold advance
  cases hadvances : attempt.advancesPhase with
  | false =>
    rw [if_pos rfl, pure_eq_ok_iff]
    simp [eq_comm]
  | true =>
    rw [if_neg (by decide)]
    simp only [bind_eq_ok, throwIf_eq_ok, pure_eq_ok_iff, not_not, exists_const, reduceCtorEq,
      false_and, false_or, true_and, eq_comm (a := next), ne_eq]

section Closing

variable {status : AttemptStatus} {errorCode : Option Failure} {calls : Option ℤ} {now : ℤ}

theorem mem_of_active (hclosed : status ≠ .reserved) {id : String} {other : Attempt}
    (hother : other ∈ (closeAttempt db attempt status errorCode calls now).attempts)
    (hact : isActive id other = true) : other ∈ db.attempts := by
  rcases mem_updateWhere.mp hother with ⟨row, -, -, rfl⟩ | ⟨hmem, -⟩
  · exact absurd (isActive_iff.mp hact).2.1 hclosed
  · exact hmem

theorem closed_counts (hmem : attempt ∈ db.attempts) (hresv : attempt.status = .reserved)
    (hclosed : status ≠ .reserved) (hone : changes (isReservedRow attempt.id) db.attempts = 1)
    (id : String) :
    (closeAttempt db attempt status errorCode calls now).attempts.countP (isActive id) +
        (if attempt.scheduleId = id ∧ attempt.advancesPhase = true then 1 else 0) =
      db.attempts.countP (isActive id) ∧
    (closeAttempt db attempt status errorCode calls now).attempts.countP (isClosed id) =
      db.attempts.countP (isClosed id) +
        (if attempt.scheduleId = id ∧ attempt.advancesPhase = true then 1 else 0) ∧
    (closeAttempt db attempt status errorCode calls now).attempts.countP (isRotated id) =
      db.attempts.countP (isRotated id) +
        (if (attempt.scheduleId = id ∧ attempt.advancesPhase = true) ∧
          (attempt.phase = 0 ∨ attempt.phase = 2) then 1 else 0) := by
  have hrow : isReservedRow attempt.id attempt = true := by
    simp [isReservedRow, hresv]
  have hcount : ∀ q : Attempt → Bool, _ := fun q =>
    countP_updateWhere (q := q) (f := closeRow status errorCode calls now) hone hmem hrow
  refine ⟨?_, ?_, ?_⟩
  · have h := hcount (isActive id)
    simp only [isActive, closeRow, hresv, hclosed, true_and, false_and, and_false, decide_false,
      Bool.false_eq_true, if_false, add_zero, decide_eq_true_eq] at h
    exact h
  · have h := hcount (isClosed id)
    simp only [isClosed, closeRow, hresv, hclosed, ne_eq, not_true_eq_false, not_false_eq_true,
      true_and, false_and, and_false, decide_false, Bool.false_eq_true, if_false, add_zero,
      decide_eq_true_eq] at h
    exact h
  · have h := hcount (isRotated id)
    simp only [isRotated, isClosed, closeRow, hresv, hclosed, ne_eq, not_true_eq_false,
      not_false_eq_true, true_and, false_and, and_false, decide_false, Bool.false_eq_true, if_false,
      add_zero, decide_eq_true_eq] at h
    exact h

/-- The row of the attempt's schedule, once the attempt is closed and the row advanced. -/
theorem Current.advanceRow (hcur : Current db.attempts state) (hmem : attempt ∈ db.attempts)
    (hresv : attempt.status = .reserved) (hclosed : status ≠ .reserved)
    (hone : changes (isReservedRow attempt.id) db.attempts = 1)
    (hadvances : attempt.advancesPhase = true) (hid : state.id = attempt.scheduleId)
    (cooldown : ℤ) :
    Current (closeAttempt db attempt status errorCode calls now).attempts
      (advanceRow attempt now cooldown state) := by
  have hact : isActive state.id attempt = true :=
    isActive_iff.mpr ⟨hid.symm, hresv, hadvances⟩
  obtain ⟨-, hphase⟩ := hcur.held attempt hmem hact
  obtain ⟨hactive_count, hclosed_count, hrotated_count⟩ :=
    @closed_counts _ _ _ errorCode calls now hmem hresv hclosed hone
      state.id
  rw [if_pos ⟨hid.symm, hadvances⟩] at hactive_count hclosed_count
  have hsingle := hcur.single
  have hnone : (closeAttempt db attempt status errorCode calls now).attempts.countP
      (isActive state.id) = 0 := by omega
  refine ⟨?_, ?_, ?_, ?_, ?_⟩
  · exact hnone.le.trans zero_le_one
  · intro other hother h
    exact absurd h (List.countP_eq_zero.mp hnone other hother)
  · have hrev := hcur.revision
    simp only [TradingRecoveryScheduleRepository.advanceRow]
    omega
  · have hold := hcur.phase
    simp only [TradingRecoveryScheduleRepository.advanceRow]
    omega
  · have hold := hcur.rotation
    simp only [TradingRecoveryScheduleRepository.advanceRow]
    rw [hphase] at hrotated_count
    by_cases hrotates : state.phase = 0 ∨ state.phase = 2
    · rw [if_pos ⟨⟨hid.symm, hadvances⟩, hrotates⟩] at hrotated_count
      rw [if_pos hrotates]
      omega
    · rw [if_neg (fun h => hrotates h.2)] at hrotated_count
      rw [if_neg hrotates]
      omega

theorem Current.closeAttempt (hcur : Current db.attempts state) (hmem : attempt ∈ db.attempts)
    (hresv : attempt.status = .reserved) (hclosed : status ≠ .reserved)
    (hone : changes (isReservedRow attempt.id) db.attempts = 1)
    (hother : ¬ (attempt.scheduleId = state.id ∧ attempt.advancesPhase = true)) :
    Current (closeAttempt db attempt status errorCode calls now).attempts state := by
  obtain ⟨hactive_count, hclosed_count, hrotated_count⟩ :=
    @closed_counts _ _ _ errorCode calls now hmem hresv hclosed hone
      state.id
  rw [if_neg hother] at hactive_count hclosed_count
  rw [if_neg (fun h => hother h.1)] at hrotated_count
  exact hcur.of_counts hactive_count hclosed_count hrotated_count
    (fun other hmem' hact => mem_of_active hclosed hmem' hact)

theorem Consistent.changes_held (hdb : Consistent db) (hmem : attempt ∈ db.attempts)
    (hresv : attempt.status = .reserved) (hadvances : attempt.advancesPhase = true) :
    changes (isHeldRow attempt) db.schedules = 1 := by
  obtain ⟨state, hstate, hid⟩ := hdb.scheduled attempt hmem
  obtain ⟨hbase, hphase⟩ := (hdb.current state hstate).held attempt hmem
    (isActive_iff.mpr ⟨hid.symm, hresv, hadvances⟩)
  apply changes_eq_one hdb.schedule_ids hstate
  · exact isHeldRow_iff.mpr ⟨hid, hbase.symm, hphase.symm⟩
  · intro row _ h
    exact (isHeldRow_iff.mp h).1.trans hid.symm

theorem Consistent.close (hdb : Consistent db) {cooldown : ℤ} (hmem : attempt ∈ db.attempts)
    (hresv : attempt.status = .reserved) (hclosed : status ≠ .reserved)
    (hone : changes (isReservedRow attempt.id) db.attempts = 1)
    (hadv : advance (closeAttempt db attempt status errorCode calls now) attempt now cooldown =
      .ok next) : Consistent next := by
  have hids : ((closeAttempt db attempt status errorCode calls now).attempts.map (·.id)).Nodup := by
    have hsame : (updateWhere (isReservedRow attempt.id) (closeRow status errorCode calls now)
        db.attempts).map (·.id) = db.attempts.map (·.id) := map_updateWhere (fun _ _ _ => rfl)
    exact hsame ▸ hdb.attempt_ids
  have hscheduled : ∀ other ∈ (closeAttempt db attempt status errorCode calls now).attempts,
      ∃ state ∈ db.schedules, state.id = other.scheduleId := by
    intro other hother
    rcases mem_updateWhere.mp hother with ⟨row, hrow, -, rfl⟩ | ⟨hold, -⟩
    · exact hdb.scheduled row hrow
    · exact hdb.scheduled other hold
  rcases advance_ok_iff.mp hadv with ⟨hstays, rfl⟩ | ⟨hadvances, -, -, rfl⟩
  · refine ⟨hdb.schedule_ids, hids, hscheduled, ?_⟩
    intro state hstate
    exact (hdb.current state hstate).closeAttempt hmem hresv hclosed hone (by simp [hstays])
  · refine ⟨?_, hids, ?_, ?_⟩
    · have hsame : (updateWhere (isHeldRow attempt) (advanceRow attempt now cooldown)
          db.schedules).map (·.id) = db.schedules.map (·.id) := map_updateWhere (fun _ _ _ => rfl)
      exact hsame ▸ hdb.schedule_ids
    · intro other hother
      obtain ⟨state, hstate, hid⟩ := hscheduled other hother
      by_cases hheld : isHeldRow attempt state = true
      · exact ⟨_, mem_updateWhere.mpr (.inl ⟨state, hstate, hheld, rfl⟩), hid⟩
      · exact ⟨state, mem_updateWhere.mpr (.inr ⟨hstate, by simpa using hheld⟩), hid⟩
    · intro row hrow
      rcases mem_updateWhere.mp hrow with ⟨state, hstate, hheld, rfl⟩ | ⟨hstate, hnot⟩
      · exact (hdb.current state hstate).advanceRow hmem hresv hclosed hone hadvances
          (isHeldRow_iff.mp hheld).1 cooldown
      · apply (hdb.current row hstate).closeAttempt hmem hresv hclosed hone
        intro h
        obtain ⟨hbase, hphase⟩ := (hdb.current row hstate).held attempt hmem
          (isActive_iff.mpr ⟨h.1, hresv, h.2⟩)
        rw [isHeldRow_iff.mpr ⟨h.1.symm, hbase.symm, hphase.symm⟩] at hnot
        exact absurd hnot (by decide)

end Closing

theorem Consistent.change (hdb : Consistent db) (h : Change db next) : Consistent next := by
  cases h with
  | create habsent => exact hdb.create habsent
  | close hmem hresv hclosed hone hadv =>
    exact hdb.close hmem hresv hclosed hone hadv
  | insert hfresh hstate hid hbase hphase hresv hidle =>
    exact hdb.insert hfresh hstate hid hbase hphase hresv hidle

end Changes

def Quiet (db next : Database) : Prop :=
  Change db next ∧ next.attempts.length = db.attempts.length

open Relation

section Transactions

variable {db next : Database} {attempt : Attempt} {state : RecoveryScheduleState}
  {request : ScheduledRecoveryQuery}

theorem schedule_changes (db : Database) (id : String) :
    ReflTransGen Quiet db (schedule db id).1 ∧
      (schedule db id).2 ∈ (schedule db id).1.schedules := by
  unfold schedule
  cases hfind : db.schedules.find? (·.id = id) with
  | some state => exact ⟨.refl, List.mem_of_find?_eq_some hfind⟩
  | none =>
    refine ⟨.single ⟨.create ?_, rfl⟩, List.mem_append_right _ (List.mem_singleton_self _)⟩
    intro state hstate heq
    exact List.find?_eq_none.mp hfind state hstate (by simp [heq])

theorem quiet_changes (h : ReflTransGen Quiet db next) : ReflTransGen Change db next :=
  ReflTransGen.mono (fun _ _ hquiet => hquiet.1) _ _ h

theorem quiet_close {status : AttemptStatus} {errorCode : Option Failure} {calls : Option ℤ}
    {now cooldown : ℤ} (hmem : attempt ∈ db.attempts) (hresv : attempt.status = .reserved)
    (hclosed : status ≠ .reserved) (hone : changes (isReservedRow attempt.id) db.attempts = 1)
    (hadv : advance (closeAttempt db attempt status errorCode calls now) attempt now cooldown =
      .ok next) : Quiet db next := by
  refine ⟨.close hmem hresv hclosed hone hadv, ?_⟩
  rcases advance_ok_iff.mp hadv with ⟨-, rfl⟩ | ⟨-, -, -, rfl⟩
  · exact List.length_map _
  · exact List.length_map _

theorem closeFailure_changes {reason : Failure} {now : ℤ} (hmem : attempt ∈ db.attempts)
    (h : closeFailure db attempt reason now = .ok next) : Quiet db next := by
  simp only [closeFailure, bind_eq_ok, throwIf_eq_ok, not_or, not_not, ne_eq] at h
  obtain ⟨-, ⟨-, hresv⟩, -, hone, hadv⟩ := h
  exact quiet_close hmem hresv (by decide) hone hadv

theorem openSchedule_changes {id : String} {now : ℤ} {busy : Bool}
    (h : openSchedule db id now = .ok (next, state, busy)) :
    ReflTransGen Quiet db next ∧ state ∈ next.schedules := by
  obtain ⟨hcreated, hread⟩ := schedule_changes db id
  simp only [openSchedule] at h
  cases hact : activeAttempt (schedule db id).1 (schedule db id).2.id with
  | none =>
    simp only [hact, pure_eq_ok_iff, Prod.mk.injEq] at h
    obtain ⟨rfl, rfl, -⟩ := h
    exact ⟨hcreated, hread⟩
  | some active =>
    simp only [hact] at h
    split_ifs at h with hexpired
    · simp only [bind_eq_ok, pure_eq_ok_iff, Prod.mk.injEq] at h
      obtain ⟨closed, hclosed, rfl, rfl, -⟩ := h
      have hchange := closeFailure_changes (List.mem_of_find?_eq_some hact) hclosed
      obtain ⟨hagain, hstate⟩ := schedule_changes closed id
      exact ⟨(hcreated.tail hchange).trans hagain, hstate⟩
    · simp only [pure_eq_ok_iff, Prod.mk.injEq] at h
      obtain ⟨rfl, rfl, -⟩ := h
      exact ⟨hcreated, hread⟩

theorem insertAttempt_changes {call : ReserveCall} (hstate : state ∈ db.schedules)
    (h : insertAttempt db (newAttempt call state request) = .ok next) : Change db next := by
  simp only [insertAttempt, bind_eq_ok, throwIf_eq_ok, pure_eq_ok_iff, List.any_eq_true,
    decide_eq_true_eq, not_exists, not_and] at h
  obtain ⟨-, hfresh, -, hindex, rfl⟩ := h
  refine .insert hfresh hstate rfl rfl rfl rfl ?_
  intro hadvances other hother
  rw [← Bool.not_eq_true]
  exact hindex (isActive_iff.mpr ⟨rfl, rfl, hadvances⟩) other hother

theorem findAttempt_mem {id : String} (h : findAttempt db id = some attempt) :
    attempt ∈ db.attempts :=
  List.mem_of_find?_eq_some h

theorem reserve_changes {scheduleId : RecoveryScheduleBinding → String} {call : ReserveCall}
    (h : reserveScheduledRecovery scheduleId db call = .ok (next, request)) :
    ReflTransGen Change db next := by
  simp only [reserveScheduledRecovery, bind_eq_ok, pure_eq_ok_iff, Prod.mk.injEq] at h
  obtain ⟨-, -, binding, -, ⟨opened, state, busy⟩, hopen, planned, -, -, -, -, -, inserted, hinsert,
    rfl, -⟩ := h
  obtain ⟨hopened, hstate⟩ := openSchedule_changes hopen
  exact (quiet_changes hopened).tail (insertAttempt_changes hstate hinsert)

theorem fail_changes {call : FailCall} (h : failScheduledRecovery db call = .ok next) :
    ReflTransGen Quiet db next := by
  simp only [failScheduledRecovery, bind_eq_ok] at h
  obtain ⟨-, -, h⟩ := h
  cases hfind : findAttempt db call.attemptId with
  | none => simp [hfind] at h
  | some attempt =>
    simp only [hfind, bind_eq_ok] at h
    obtain ⟨-, -, h⟩ := h
    split_ifs at h with hstatus
    · rw [pure_eq_ok_iff] at h
      exact h ▸ .refl
    · exact .single (closeFailure_changes (findAttempt_mem hfind) h)

theorem heldAcquisition_reserved {call : CompleteCall} {clean : AcquisitionEvidence}
    {progress : RecoveryScheduleProgress}
    (h : heldAcquisition db call clean = .ok (some (attempt, progress))) :
    attempt ∈ db.attempts ∧ attempt.status = .reserved := by
  unfold heldAcquisition at h
  cases hid : clean.attemptId with
  | none =>
    simp only [hid, bind_eq_ok, pure_eq_ok_iff] at h
    obtain ⟨-, -, h⟩ := h
    exact absurd h (by simp)
  | some attemptId =>
    simp only [hid, bind_eq_ok] at h
    obtain ⟨expected, -, h⟩ := h
    cases hfind : findAttempt db attemptId with
    | none => simp [hfind] at h
    | some held =>
      simp only [hfind, bind_eq_ok, throwIf_eq_ok, not_not, ne_eq] at h
      obtain ⟨-, hstatus, -, -, -, -, outcome, -, h⟩ := h
      cases outcome with
      | none => exact absurd h (by simp)
      | some result =>
        simp only [pure_eq_ok_iff, Option.some.injEq, Prod.mk.injEq] at h
        obtain ⟨rfl, -⟩ := h
        exact ⟨findAttempt_mem hfind, hstatus⟩

theorem complete_changes {call : CompleteCall} (h : completeScheduledRecovery db call = .ok next) :
    ReflTransGen Quiet db next := by
  unfold completeScheduledRecovery at h
  cases hev : call.evidence with
  | none => simp [hev] at h
  | some evidence =>
    simp only [hev, bind_eq_ok] at h
    obtain ⟨clean, -, held, hheld, h⟩ := h
    cases held with
    | none =>
      rw [pure_eq_ok_iff] at h
      exact h ▸ .refl
    | some held =>
      obtain ⟨attempt, progress⟩ := held
      obtain ⟨hmem, hresv⟩ := heldAcquisition_reserved hheld
      simp only [completeAttempt, bind_eq_ok, throwIf_eq_ok, not_not, ne_eq] at h
      obtain ⟨-, -, -, hone, hadv⟩ := h
      exact .single (quiet_close hmem hresv (by decide) hone hadv)

theorem commit_changes (scheduleId : RecoveryScheduleBinding → String) (db : Database)
    (call : Call) : ReflTransGen Change db (commit scheduleId db call) := by
  unfold commit
  cases h : perform scheduleId db call with
  | error e => exact .refl
  | ok next =>
    cases call with
    | reserve call =>
      obtain ⟨⟨inserted, request⟩, hreserve, rfl⟩ := map_eq_ok.mp h
      exact reserve_changes hreserve
    | fail call => exact quiet_changes (fail_changes h)
    | complete call => exact quiet_changes (complete_changes h)

theorem run_changes (scheduleId : RecoveryScheduleBinding → String) (db : Database)
    (calls : List Call) : ReflTransGen Change db (calls.foldl (commit scheduleId) db) := by
  induction calls generalizing db with
  | nil => exact .refl
  | cons call calls ih => exact (commit_changes scheduleId db call).trans (ih _)

theorem Consistent.run (hdb : Consistent db) (h : ReflTransGen Change db next) :
    Consistent next := by
  induction h with
  | refl => exact hdb
  | tail _ hchange ih => exact ih.change hchange

theorem Change.closed_kept (h : Change db next) (hmem : attempt ∈ db.attempts)
    (hclosed : attempt.status ≠ .reserved) : attempt ∈ next.attempts := by
  cases h with
  | create => exact hmem
  | @close held status errorCode calls now cooldown _ _ _ _ _ hadv =>
    have hkept : attempt ∈ (closeAttempt db held status errorCode calls now).attempts :=
      mem_updateWhere.mpr (.inr ⟨hmem, by simp [isReservedRow, hclosed]⟩)
    rcases advance_ok_iff.mp hadv with ⟨-, rfl⟩ | ⟨-, -, -, rfl⟩
    · exact hkept
    · exact hkept
  | insert => exact List.mem_append_left _ hmem

theorem Change.cooldown_le (h : Change db next) (hstate : state ∈ db.schedules) :
    ∃ row ∈ next.schedules, row.id = state.id ∧ state.cooldownUntil ≤ row.cooldownUntil := by
  cases h with
  | create => exact ⟨state, List.mem_append_left _ hstate, rfl, le_rfl⟩
  | @close held _ _ _ now cooldown _ _ _ _ _ hadv =>
    rcases advance_ok_iff.mp hadv with ⟨-, rfl⟩ | ⟨-, -, -, rfl⟩
    · exact ⟨state, hstate, rfl, le_rfl⟩
    · by_cases hheld : isHeldRow held state = true
      · exact ⟨_, mem_updateWhere.mpr (.inl ⟨state, hstate, hheld, rfl⟩), rfl, le_max_left _ _⟩
      · exact ⟨state, mem_updateWhere.mpr (.inr ⟨hstate, by simpa using hheld⟩), rfl, le_rfl⟩
  | insert => exact ⟨state, hstate, rfl, le_rfl⟩

theorem closed_kept_run (h : ReflTransGen Change db next) (hmem : attempt ∈ db.attempts)
    (hclosed : attempt.status ≠ .reserved) : attempt ∈ next.attempts := by
  induction h with
  | refl => exact hmem
  | tail _ hchange ih => exact hchange.closed_kept ih hclosed

theorem cooldown_le_run (h : ReflTransGen Change db next) (hstate : state ∈ db.schedules) :
    ∃ row ∈ next.schedules, row.id = state.id ∧ state.cooldownUntil ≤ row.cooldownUntil := by
  induction h with
  | refl => exact ⟨state, hstate, rfl, le_rfl⟩
  | tail _ hchange ih =>
    obtain ⟨middle, hmid, hid, hle⟩ := ih
    obtain ⟨row, hrow, hrow_id, hrow_le⟩ := hchange.cooldown_le hmid
    exact ⟨row, hrow, hrow_id.trans hid, hle.trans hrow_le⟩

end Transactions

/-- Every run of reservations, failures and completions keeps the schedule and its attempts in
step, whatever happens later. -/
theorem recovery_schedule_runs (scheduleId : RecoveryScheduleBinding → String)
    (calls later : List Call) (db next : Database)
    (hdb : db = calls.foldl (commit scheduleId) empty)
    (hnext : next = later.foldl (commit scheduleId) db) :
    (db.schedules.map (·.id)).Nodup ∧ (db.attempts.map (·.id)).Nodup ∧
    (∀ attempt ∈ db.attempts, ∃ state ∈ db.schedules, state.id = attempt.scheduleId) ∧
    (∀ state ∈ db.schedules,
      db.attempts.countP (isActive state.id) ≤ 1 ∧
      (∀ attempt ∈ db.attempts, isActive state.id attempt = true →
        attempt.baseRevision = state.revision ∧ attempt.phase = state.phase) ∧
      state.revision = db.attempts.countP (isClosed state.id) ∧
      state.phase = state.revision % 4 ∧
      state.fxRotation = db.attempts.countP (isRotated state.id) % 4) ∧
    (∀ attempt ∈ db.attempts, attempt.status = .reserved → ∀ attempts now cooldown,
      advance ⟨db.schedules, attempts⟩ attempt now cooldown ≠
        .error (scheduleError "REVISION_CHANGED")) ∧
    (∀ attempt ∈ db.attempts, attempt.status ≠ .reserved → attempt ∈ next.attempts) ∧
    (∀ state ∈ db.schedules, ∃ row ∈ next.schedules,
      row.id = state.id ∧ state.cooldownUntil ≤ row.cooldownUntil) := by
  have hconsistent : Consistent db := by
    rw [hdb]
    exact consistent_empty.run (run_changes scheduleId empty calls)
  have hlater : ReflTransGen Change db next := by
    rw [hnext]
    exact run_changes scheduleId db later
  refine ⟨hconsistent.schedule_ids, hconsistent.attempt_ids, hconsistent.scheduled, ?_, ?_, ?_, ?_⟩
  · intro state hstate
    have hcur := hconsistent.current state hstate
    exact ⟨hcur.single, hcur.held, hcur.revision, hcur.phase, hcur.rotation⟩
  · intro attempt hmem hresv attempts now cooldown h
    unfold advance at h
    cases hadvances : attempt.advancesPhase with
    | false =>
      rw [if_pos hadvances] at h
      cases h
    | true =>
      have hone := hconsistent.changes_held hmem hresv hadvances
      rw [if_neg (by simp [hadvances])] at h
      simp only [hone, bind_eq_error, throwIf_eq_error] at h
      rcases h with ⟨-, h⟩ | ⟨-, -, h | ⟨-, -, h⟩⟩
      · exact absurd h (by decide)
      · exact absurd rfl h.1
      · cases h
  · intro attempt hmem hclosed
    exact closed_kept_run hlater hmem hclosed
  · intro state hstate
    exact cooldown_le_run hlater hstate

def scheduleAccount : FxAccount where
  id := "schedule"
  mode := "testnet"
  externalAccountId := some scheduleBinding.accountFingerprint
  credentialGeneration := some scheduleBinding.credentialGeneration
  executionProfileHash := some scheduleBinding.executionProfileHash

def scheduleScope (_ : RecoveryScheduleBinding) : String :=
  "fb71dad13c7467a5ed61519f2e46a16a647cc05fb7157edfcafeb88149f4f402"

def reserveCall (attemptId : String) (now : ℤ) : Call :=
  .reserve ⟨scheduleAccount, scheduleQuery, now, now,
    .ok ⟨.testnet, scheduleBinding.executionProfileHash⟩, attemptId, .ok ()⟩

/-- A reservation, its failure, and a repeated report of the failure. -/
def failedReservation : List Call :=
  [reserveCall "12345678-1234-4123-8123-123456789abc" 3000,
    .fail ⟨scheduleAccount, "12345678-1234-4123-8123-123456789abc", .readFailed, 3500, 3500⟩,
    .fail ⟨scheduleAccount, "12345678-1234-4123-8123-123456789abc", .readFailed, 3600, 3600⟩]

theorem recovery_schedule_runs_failed_reservation : ∃ db : Database,
    db = failedReservation.foldl (commit scheduleScope) empty ∧
      ∃ state ∈ db.schedules, state.revision = 1 ∧ state.phase = 1 ∧
        db.attempts.countP (isClosed state.id) = 1 := by
  have hrun : (failedReservation.foldl (commit scheduleScope) empty).schedules.map (·.revision) =
      [1] := by
    decide +kernel
  obtain ⟨db, hdb⟩ : ∃ db, db = failedReservation.foldl (commit scheduleScope) empty := ⟨_, rfl⟩
  rw [← hdb] at hrun
  obtain ⟨-, -, -, hcur, -⟩ :=
    recovery_schedule_runs scheduleScope failedReservation [] db db hdb rfl
  have hone : (1 : ℤ) ∈ db.schedules.map (·.revision) := by
    rw [hrun]
    exact List.mem_singleton_self 1
  obtain ⟨state, hstate, hrev⟩ := List.mem_map.mp hone
  obtain ⟨-, -, hclosed, hphase, -⟩ := hcur state hstate
  refine ⟨db, hdb, state, hstate, hrev, ?_, ?_⟩
  · rw [hphase, hrev]
    rfl
  · rw [hrev] at hclosed
    exact_mod_cast hclosed.symm

end TsxCore.TradingRecoveryScheduleRepository
