import TsxCore.KeyedTable
import TsxCore.TradingRecoveryScheduleContract

/-!
# Durable outbox tasks (`db.ts`)

Each function is one transaction on `pending_tasks`, except
`recoverInterruptedOutboxTasks`, whose two statements are two. A cell of a JSON
column holds any bytes. `JSON.parse` and `JSON.stringify` are parameters, and the
clock is read once for each call.
-/

namespace TsxCore.Outbox

open Outcome

inductive OutboxStatus
  | pending
  | preparing
  | sending
  | completed
  | failed
  | unknown
  | needsReview
  deriving DecidableEq

inductive TaskType
  | single
  | mediaGroup
  deriving DecidableEq

inductive OutboxPayloadField
  | messageIds
  | configJson
  | resultJson

def OutboxPayloadField.text : OutboxPayloadField → String
  | .messageIds => "message_ids"
  | .configJson => "config_json"
  | .resultJson => "result_json"

inductive Cell
  | null
  | text (value : String)
  | blob (value : List UInt8)

def Cell.ofText (value : Option String) : Cell := (value.map Cell.text).getD .null

/-- The columns that only an `INSERT` writes. -/
structure OutboxPayload where
  id : String
  type : TaskType
  chatId : String
  messageId : Option ℤ
  messageIds : Cell
  mediaGroupId : Option String
  addedAt : ℤ
  configJson : Cell
  workflowRevisionId : Option String
  ingressWorkId : Option String

structure OutboxStorageRow extends OutboxPayload where
  status : OutboxStatus
  attempts : ℤ
  claimedAt : Option ℤ
  updatedAt : ℤ
  completedAt : Option ℤ
  lastError : Option String
  resultJson : Cell

abbrev PendingTasks := Keyed (fun row : OutboxStorageRow => row.id)

structure OutboxTask (J : Type) where
  id : String
  type : TaskType
  chatId : String
  messageId : Option ℤ
  messageIds : Option J
  payloadErrors : List OutboxPayloadField
  mediaGroupId : Option String
  addedAt : ℤ
  status : OutboxStatus
  attempts : ℤ
  claimedAt : Option ℤ
  updatedAt : ℤ
  completedAt : Option ℤ
  lastError : Option String
  config : Option J
  result : Option J
  workflowRevisionId : Option String
  ingressWorkId : Option String

structure EnqueueOutboxTaskInput (J : Type) where
  id : String
  type : TaskType
  chatId : String
  messageId : Option ℤ
  messageIds : Option (List ℤ)
  mediaGroupId : Option String
  addedAt : ℤ
  config : Option J
  workflowRevisionId : Option String
  ingressWorkId : Option String
  needsReview : Bool

def nonempty (value : Option String) : Option String := value.filter (· ≠ "")

section Reading

variable {J : Type} (parse : String → Option J)

def parseOutboxJsonField (value : Cell) (field : OutboxPayloadField) :
    Option J × List OutboxPayloadField :=
  match value with
  | .null => (none, [])
  | .blob _ => (none, [field])
  | .text text =>
    if text = "" then (none, [])
    else match parse text with
      | some json => (some json, [])
      | none => (none, [field])

def mapOutboxRow (row : OutboxStorageRow) : OutboxTask J :=
  let (messageIds, idErrors) := parseOutboxJsonField parse row.messageIds .messageIds
  let (config, configErrors) := parseOutboxJsonField parse row.configJson .configJson
  let (result, resultErrors) := parseOutboxJsonField parse row.resultJson .resultJson
  { id := row.id
    type := row.type
    chatId := row.chatId
    messageId := row.messageId
    messageIds := messageIds
    payloadErrors := idErrors ++ configErrors ++ resultErrors
    mediaGroupId := nonempty row.mediaGroupId
    addedAt := row.addedAt
    status := row.status
    attempts := row.attempts
    claimedAt := row.claimedAt
    updatedAt := if row.updatedAt = 0 then row.addedAt else row.updatedAt
    completedAt := row.completedAt
    lastError := nonempty row.lastError
    config := config
    result := result
    workflowRevisionId := nonempty row.workflowRevisionId
    ingressWorkId := nonempty row.ingressWorkId }

def reviewedStatus : OutboxStatus → OutboxStatus
  | .sending => .unknown
  | .unknown => .unknown
  | .completed => .completed
  | _ => .needsReview

def reviewError (errors : List OutboxPayloadField) : String :=
  "Invalid persisted outbox JSON in " ++ String.intercalate ", " (errors.map (·.text)) ++
    "; explicit data review required."

def reviewOutboxRow (now : ℤ) (row : OutboxStorageRow) (db : PendingTasks) :
    OutboxTask J × PendingTasks :=
  let task := mapOutboxRow parse row
  if task.payloadErrors = [] then (task, db)
  else
    let status := reviewedStatus task.status
    let lastError := reviewError task.payloadErrors
    if task.status ≠ status ∨ task.lastError ≠ some lastError then
      ({ task with updatedAt := now, status := status, lastError := some lastError },
        db.update (·.id = task.id)
          (fun old => { old with status := status, updatedAt := now, lastError := some lastError })
          (fun _ => rfl))
    else ({ task with status := status, lastError := some lastError }, db)

def reviewRows (now : ℤ) : List OutboxStorageRow → PendingTasks → List (OutboxTask J) × PendingTasks
  | [], db => ([], db)
  | row :: rows, db =>
    let (task, db) := reviewOutboxRow parse now row db
    let (tasks, db) := reviewRows now rows db
    (task :: tasks, db)

end Reading

section Writing

variable {J : Type} (parse : String → Option J) (stringify : J → Option String)

def validateOutboxTask (task : EnqueueOutboxTaskInput J) : Outcome Unit := do
  throwIf (task.id = "") (.error "Outbox task id and type are required.")
  throwIf (task.type = .single ∧ task.messageId.any isSafeInteger = false)
    (.error ("Single outbox task " ++ task.id ++ " requires a safe messageId."))
  throwIf (task.type = .mediaGroup ∧
      (task.messageIds.getD [] = [] ∨ (task.messageIds.getD []).all isSafeInteger = false))
    (.error ("Media-group outbox task " ++ task.id ++ " requires safe messageIds."))

def enqueuedRow (now : ℤ) (task : EnqueueOutboxTaskInput J) : OutboxStorageRow where
  id := task.id
  type := task.type
  chatId := task.chatId
  messageId := task.messageId
  messageIds := .ofText (task.messageIds.map
    (fun ids => String.ofList (JsonText.array (ids.map JsonText.integer))))
  mediaGroupId := nonempty task.mediaGroupId
  addedAt := task.addedAt
  status := if task.needsReview then .needsReview else .pending
  attempts := 0
  claimedAt := none
  updatedAt := now
  completedAt := none
  lastError := none
  configJson := .ofText (task.config.bind stringify)
  resultJson := .null
  workflowRevisionId := task.workflowRevisionId
  ingressWorkId := task.ingressWorkId

def enqueueOutboxTask (now : ℤ) (task : EnqueueOutboxTaskInput J) (db : PendingTasks) :
    Outcome (Bool × PendingTasks) := do
  validateOutboxTask task
  return db.insert (enqueuedRow stringify now task)

/-- `WHERE id = ? AND status IN (…)`. -/
def inStatus (id : String) (statuses : List OutboxStatus) (row : OutboxStorageRow) : Bool :=
  row.id = id ∧ row.status ∈ statuses

def claimOutboxTask (now : ℤ) (id : String) (db : PendingTasks) :
    Option (OutboxTask J) × PendingTasks :=
  match db.find id with
  | none => (none, db)
  | some current =>
    let (task, db) := reviewOutboxRow parse now current db
    if task.payloadErrors ≠ [] ∨ task.status ∉ [.pending, .failed] then (none, db)
    else
      let claim := fun row : OutboxStorageRow => { row with
        status := .preparing
        attempts := row.attempts + 1
        claimedAt := some now
        updatedAt := now
        lastError := none
        completedAt := none
        resultJson := .null }
      ((db.rows.find? (inStatus id [.pending, .failed])).map
        (fun row => mapOutboxRow parse (claim row)),
        db.update (inStatus id [.pending, .failed]) claim (fun _ => rfl))

def markOutboxSending (now : ℤ) (id : String) (db : PendingTasks) : Outcome PendingTasks := do
  throwIf (db.changes (inStatus id [.preparing, .sending]) ≠ 1)
    (.error ("Outbox task " ++ id ++ " is not in a sendable state."))
  return db.update (inStatus id [.preparing, .sending])
    (fun row => { row with status := .sending, updatedAt := now }) (fun _ => rfl)

def completeOutboxTask (now : ℤ) (id : String) (result : Option J) (db : PendingTasks) :
    Outcome PendingTasks := do
  throwIf (db.changes (inStatus id [.preparing, .sending]) ≠ 1)
    (.error ("Outbox task " ++ id ++ " cannot be completed from its current state."))
  return db.update (inStatus id [.preparing, .sending])
    (fun row => { row with
      status := .completed
      updatedAt := now
      completedAt := some now
      lastError := none
      resultJson := .ofText (result.bind stringify) }) (fun _ => rfl)

/-- What `failOutboxTask` sees of an error: its message and whether it needs a review. -/
structure TaskFailure where
  message : String
  needsReview : Bool

def failedStatus (failure : TaskFailure) (status : OutboxStatus) : OutboxStatus :=
  if status = .sending then .unknown else if failure.needsReview then .needsReview else .failed

def failOutboxTask (now : ℤ) (id : String) (failure : TaskFailure) (db : PendingTasks) :
    Outcome (OutboxStatus × PendingTasks) :=
  match db.rows.find? (inStatus id [.preparing, .sending]) with
  | none => .error (.error ("Outbox task " ++ id ++ " cannot be failed from its current state."))
  | some row => .ok (failedStatus failure row.status,
      db.update (inStatus id [.preparing, .sending])
        (fun row => { row with
          status := failedStatus failure row.status
          updatedAt := now
          lastError := some (.ofList (slice 4000 failure.message.toList))
          completedAt := none
          resultJson := .null }) (fun _ => rfl))

/-- The first statement of `recoverInterruptedOutboxTasks`. -/
def recoverPreparing (now : ℤ) (db : PendingTasks) : ℕ × PendingTasks :=
  (db.changes (·.status = .preparing), db.update (·.status = .preparing)
    (fun row => { row with
      status := .pending
      updatedAt := now
      claimedAt := none
      lastError := some
        "Process stopped while preparing; task safely requeued before provider send." })
    (fun _ => rfl))

/-- The second statement of `recoverInterruptedOutboxTasks`. -/
def recoverSending (now : ℤ) (db : PendingTasks) : ℕ × PendingTasks :=
  (db.changes (·.status = .sending), db.update (·.status = .sending)
    (fun row => { row with
      status := .unknown
      updatedAt := now
      lastError := some ("Process stopped after provider send began; " ++
        "automatic retry blocked to prevent duplicates.") })
    (fun _ => rfl))

def getOutboxTask (now : ℤ) (id : String) (db : PendingTasks) :
    Option (OutboxTask J) × PendingTasks :=
  match db.find id with
  | none => (none, db)
  | some row =>
    let (task, db) := reviewOutboxRow parse now row db
    (some task, db)

/-- `limit` is `none` for a number that is not an integer. -/
def safeLimit (limit : Option ℤ) : ℕ :=
  match limit.filter isSafeInteger with
  | none => 100
  | some limit => (max 1 (min limit 1000)).toNat

def byAddedAt (a b : OutboxStorageRow) : Bool := a.addedAt ≤ b.addedAt

def listOutboxTasks (now : ℤ) (statuses : List OutboxStatus) (limit : Option ℤ)
    (db : PendingTasks) :
    List (OutboxTask J) × PendingTasks :=
  let rows := if statuses = [] then db.rows else db.rows.filter (·.status ∈ statuses)
  reviewRows parse now ((rows.insertionSort (fun a b => byAddedAt a b)).take (safeLimit limit)) db

/-- `ORDER BY added_at ASC, id ASC`; the texts are compared by their bytes. -/
def byAddedAtId (a b : OutboxStorageRow) : Bool :=
  a.addedAt < b.addedAt ∨ (a.addedAt = b.addedAt ∧ a.id ≤ b.id)

def pendingRows (excluded : List String) (db : PendingTasks) : List OutboxStorageRow :=
  db.rows.filter (fun row => row.status = .pending ∧ row.id ∉ excluded)

/-- The loop of `listPendingOutboxTasksForScheduling`; `fuel` bounds its rounds. -/
def schedulingLoop (now : ℤ) (excluded : List String) (limit : ℕ) :
    ℕ → ℕ → List (OutboxTask J) → PendingTasks → List (OutboxTask J) × PendingTasks
  | 0, _, tasks, db => (tasks, db)
  | fuel + 1, remaining, tasks, db =>
    if remaining = 0 ∨ limit ≤ tasks.length then (tasks, db)
    else
      let rows := ((pendingRows (excluded ++ tasks.map (·.id)) db).insertionSort
        (fun a b => byAddedAtId a b)).take (min remaining (limit - tasks.length))
      if rows = [] then (tasks, db)
      else
        let (reviewed, db) := reviewRows parse now rows db
        schedulingLoop now excluded limit fuel (remaining - rows.length)
          (tasks ++ reviewed.filter (·.payloadErrors = [])) db

/-- Every round takes a row, so there are at most as many rounds as rows. -/
def listPendingOutboxTasksForScheduling (now : ℤ) (excludedTaskIds : List String)
    (limit : Option ℤ) (db : PendingTasks) : List (OutboxTask J) × PendingTasks :=
  let excluded := ((excludedTaskIds.filter (· ≠ "")).eraseDups).take 1000
  let initial := (pendingRows excluded db).length
  schedulingLoop parse now excluded (safeLimit limit) initial initial [] db

def requeueOutboxTask (now : ℤ) (id : String) (db : PendingTasks) : Bool × PendingTasks :=
  match db.find id with
  | none => (false, db)
  | some row =>
    let (task, db) := reviewOutboxRow parse now row db
    if task.payloadErrors ≠ [] then (false, db)
    else (db.changes (inStatus id [.failed, .unknown]) = 1,
      db.update (inStatus id [.failed, .unknown])
        (fun row => { row with
          status := .pending
          updatedAt := now
          claimedAt := none
          completedAt := none
          lastError := some "Explicit operator retry requested."
          resultJson := .null }) (fun _ => rfl))

def acknowledgeOutboxTask (now : ℤ) (id reason : String) (db : PendingTasks) :
    Bool × PendingTasks :=
  let acknowledgement := JsonText.object [("acknowledged", "true".toList),
    ("reason", JsonText.string (.ofList (slice 500 reason.toList)))]
  (db.changes (inStatus id [.unknown]) = 1,
    db.update (inStatus id [.unknown])
      (fun row => { row with
        status := .completed
        updatedAt := now
        completedAt := some now
        lastError := none
        resultJson := .text (.ofList acknowledgement) }) (fun _ => rfl))

end Writing

end TsxCore.Outbox
