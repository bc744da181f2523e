import TsxCore.Json
import TsxCore.PythonJson
import TsxCore.TradingAccountLogContract

/-!
# Account-log pages of the executor

`account_log_reader.py`, `account_log_sources.py` and `read_account_logs` of
`account_log_scheduler.py`. An exception is a `Failure`; the `except` clauses of
`read_account_log_page` turn all but the last kind into a checkpoint. `clock` lists
what `now_ms()` returns, reading by reading. The provider's answer, the date
arithmetic of the retention bound, the parser of ISO dates and `str` of a value
that is no text are parameters. Provider texts are ASCII, so `int` reads ASCII
digits.
-/

namespace TsxCore.AccountLogReader

open Outcome AccountLog
open TradingRecoveryScheduleContract (digestPattern)

/-- What `retry_after_time` finds in the headers. -/
inductive RetryAfter
  | absent
  | seconds (value : ℕ)
  | date (time : ℤ)
  deriving DecidableEq

inductive Failure
  | retentionUnproven
  | exhausted
  /-- `NetworkError`, `RateLimitExceeded`, `TimeoutError`. -/
  | transient (rateLimited : Bool) (retryAfter : RetryAfter)
  /-- `NotSupported`, `NotImplementedError`, `AttributeError`. -/
  | unsupported
  /-- `ExchangeContractError` and the other errors of one clause. -/
  | invalid (message : String)
  /-- Any other exception. -/
  | raised
  deriving DecidableEq

/-- A finite `Decimal`. -/
structure DecimalNumber where
  negative : Bool
  coefficient : ℕ
  exponent : ℤ

/-- `format(value, 'f')`. -/
def DecimalNumber.fixed (value : DecimalNumber) : String :=
  let digits := if 0 ≤ value.exponent then
      Nat.toDigits 10 (value.coefficient * 10 ^ value.exponent.toNat)
    else Numeral.numeral value.coefficient (-value.exponent).toNat
  .ofList (if value.negative then '-' :: digits else digits)

inductive SourceNumber
  | int (value : ℤ)
  | decimal (value : DecimalNumber)
  | float (value : ℚ)

abbrev Document := Json SourceNumber

section Integers

/-- The digits of an integer literal, with single underscores between them. -/
def digitRun : List Char → Bool → ℕ → Option ℕ
  | [], previous, total => if previous then some total else none
  | c :: rest, previous, total =>
    if c.isDigit then digitRun rest true (10 * total + (c.toNat - 48))
    else if c = '_' ∧ previous = true then digitRun rest false total
    else none

/-- `int(text)`. -/
def pythonInt (text : String) : Option ℤ :=
  match (trim text).toList with
  | '-' :: digits => (digitRun digits false 0).map (fun value : ℕ => -(value : ℤ))
  | '+' :: digits => (digitRun digits false 0).map Int.ofNat
  | digits => (digitRun digits false 0).map Int.ofNat

end Integers

section Checkpoints

variable (digest : List Char → String)

/-- `source_spec(exchange)`; the filter has one JSON text on both sides. -/
def sourceSpec (exchange : String) : Option SourceSpec := specs.find? (·.exchange = exchange)

def invalidInteger : Failure := .invalid "Invalid account-log timestamp/revision."

def integer (value : ℤ) : Except Failure Unit :=
  throwIf (value < 0 ∨ 9007199254740991 < value) invalidInteger

/-- `_token(value)`. -/
def token (value : Option String) : Except Failure Unit :=
  throwIf (value.any (fun text => text = "" ∨ 4096 < text.toList.length ∨
      text.toList.any (fun c => c.toNat < 32) = true))
    (.invalid "Invalid account-log cursor/token.")

/-- `_window(value)`, with the two readings of its clock. -/
def window (requiredSince start : ℤ) (end_ : Option ℤ) (cursor : Option String) (first second : ℤ) :
    Except Failure Unit := do
  throwIf (start < requiredSince ∨ first < start)
    (.invalid "Invalid account-log baseline.")
  throwIf (end_.any (fun until_ => ¬ (start ≤ until_ ∧ until_ ≤ min (start + 7 * day) second)))
    (.invalid "Invalid pinned account-log window.")
  throwIf (cursor ≠ none ∧ end_ = none)
    (.invalid "Account-log cursor lost its original window.")

def auditCheck (requiredSince first second : ℤ) (audit : AccountLogAudit) : Except Failure Unit :=
  do
  integer audit.windowSince
  integer audit.completedAt
  audit.windowUntil.forM integer
  token audit.cursor
  window requiredSince audit.windowSince audit.windowUntil audit.cursor first second

def pythonAudit (audit : AccountLogAudit) : List Char :=
  PythonJson.object [("windowSince", JsonText.integer audit.windowSince),
    ("windowUntil", PythonJson.nullableNumber audit.windowUntil),
    ("cursor", PythonJson.nullable audit.cursor),
    ("completedAt", JsonText.integer audit.completedAt)]

/-- `json.dumps(value)`. -/
def pythonCheckpoint (row : AccountLogCheckpoint) : List Char :=
  PythonJson.object ([("version", JsonText.integer row.version),
    ("namespace", PythonJson.string row.sourceNamespace),
    ("filterHash", PythonJson.string row.filterHash),
    ("accountFingerprint", PythonJson.string row.accountFingerprint),
    ("credentialGeneration", PythonJson.string row.credentialGeneration),
    ("revision", JsonText.integer row.revision),
    ("requiredSince", JsonText.integer row.requiredSince),
    ("windowSince", JsonText.integer row.windowSince),
    ("windowUntil", PythonJson.nullableNumber row.windowUntil),
    ("cursor", PythonJson.nullable row.cursor),
    ("scannedThrough", PythonJson.nullableNumber row.scannedThrough),
    ("nextReadAt", JsonText.integer row.nextReadAt),
    ("lastServedAt", JsonText.integer row.lastServedAt),
    ("providerAccountUid", PythonJson.nullable row.providerAccountUid),
    ("reason", PythonJson.nullable row.reason)] ++
    (row.audit.map (fun audit => ("audit", pythonAudit audit))).toList)

def unverified : Failure := .invalid "Account-log binding is unverified."

/-- `validate_log_checkpoint(value, exchange)`, from the reading `clock 0` on. -/
def validateLogCheckpoint (exchange : String) (row : AccountLogCheckpoint) (clock : ℕ → ℤ) :
    Except Failure AccountLogCheckpoint :=
  match sourceSpec exchange with
  | none => .error .raised
  | some spec => do
    throwIf (row.version ≠ 1) (.invalid "Invalid account-log checkpoint contract.")
    throwIf (row.sourceNamespace ≠ spec.sourceNamespace ∨ row.filterHash ≠ digest spec.filter)
      (.invalid "Account-log source/filter changed.")
    integer row.revision
    integer row.requiredSince
    integer row.windowSince
    integer row.nextReadAt
    integer row.lastServedAt
    row.windowUntil.forM integer
    row.scannedThrough.forM integer
    throwIf (digestPattern row.accountFingerprint = false) unverified
    throwIf (digestPattern row.credentialGeneration = false) unverified
    token row.cursor
    token row.providerAccountUid
    token row.reason
    window row.requiredSince row.windowSince row.windowUntil row.cursor (clock 0) (clock 1)
    row.audit.forM (auditCheck row.requiredSince (clock 2) (clock 3))
    throwIf (clock 4 < row.scannedThrough.getD 0)
      (.invalid "Account-log observation is in the future.")
    throwIf (8192 ≤ (pythonCheckpoint row).length)
      (.invalid "Account-log checkpoint exceeds its storage budget.")
    return row

end Checkpoints

section Budgets

structure Budget where
  remaining : ℤ
  resumeAt : ℤ
  calls : ℕ
  deriving DecidableEq

/-- `budget.call(operation)` at a reading of the clock. -/
def Budget.call {α : Type} (budget : Budget) (now : ℤ) (deadlineOpen : Bool)
    (answer : Except Failure α) : Except Failure α × Budget :=
  if budget.remaining ≤ 0 ∨ now < budget.resumeAt ∨ deadlineOpen = false then
    (.error .exhausted, budget)
  else (answer, { budget with remaining := budget.remaining - 1, calls := budget.calls + 1 })

def retryAfterTime (retryAfter : RetryAfter) (now : ℤ) : ℤ :=
  match retryAfter with
  | .absent => 0
  | .seconds value => now + min value 86400 * 1000
  | .date time => min time (now + day)

/-- `budget.suspend(rest, error)`, with its two readings. -/
def Budget.suspend (budget : Budget) (rateLimited : Bool) (retryAfter : RetryAfter)
    (first second : ℤ) : Budget :=
  let minimum := first + if rateLimited then 60000 else 15000
  { budget with
    remaining := 0
    resumeAt := max budget.resumeAt (max minimum (retryAfterTime retryAfter second)) }

end Budgets

section Pages

variable (str : Document → String) (isoTime : String → Option ℤ)

/-- What a page function returns; `extra` is the account of Kraken, else a reason. -/
structure Page where
  records : List AccountLogRecord
  cursor : Option String
  exhausted : Bool
  providerAt : Option ℤ
  extra : Option String

def economicText (value : Document) : Except Failure (Option String) :=
  let bounded := fun text : String => do
    throwIf (256 < text.toList.length ∨ text.toList.any (fun c => c.toNat < 32) = true)
      (Failure.invalid
        "Account log economic field is oversized or contains control characters.")
    return some text
  match value with
  | .null => .ok none
  | .string text => bounded text
  | .number (.int number) => bounded (bigintText number)
  | .number (.decimal number) => bounded number.fixed
  | _ => .error (.invalid "Account log money must retain exact original decimals.")

def economicFields (fields : List String) (row : List (String × Document)) :
    Except Failure AccountLogRecord :=
  (fields.filterMap (fun field => (Json.lookup field row).map (fun value => (field, value)))).mapM
    (fun entry => do return (entry.1, ← economicText entry.2))

/-- `_record(row, exchange)`. -/
def economicRecord (spec : SourceSpec) (row : List (String × Document)) :
    Except Failure AccountLogRecord :=
  if spec.exchange = "hyperliquid" then
    match Json.lookup "delta" row with
    | some (.object delta) =>
      economicFields spec.fields ([("hash", (Json.lookup "hash" row).getD .null),
        ("time", (Json.lookup "time" row).getD .null)] ++ delta)
    | _ => .ok [("hash", some (str ((Json.lookup "hash" row).getD (.string "")))),
      ("type", some "invalid_delta")]
  else economicFields spec.fields row

def unbounded : Failure := .invalid "Account log has no bounded record collection."

def rowMembers : Document → Except Failure (List (String × Document))
  | .object members => .ok members
  | _ => .error unbounded

/-- `_records(rows, exchange, maximum)`. -/
def economicRecords (spec : SourceSpec) (maximum : ℕ) (rows : Document) :
    Except Failure (List AccountLogRecord) :=
  match rows with
  | .array items => do
    throwIf (maximum < items.length) unbounded
    let members ← items.mapM rowMembers
    members.mapM (economicRecord str spec)
  | _ => .error unbounded

/-- `_object(value)`. -/
def envelope : Document → Except Failure (List (String × Document))
  | .object members => .ok members
  | _ => .error (.invalid "Account log omitted its source envelope.")

def member (key : String) (members : List (String × Document)) : Document :=
  (Json.lookup key members).getD .null

def intMember? (key : String) (members : List (String × Document)) : Option ℤ :=
  match Json.lookup key members with
  | some (.number (.int value)) => some value
  | _ => none

def bybitCursor (state : AccountLogCheckpoint) (value : Document) : Except Failure String :=
  match value with
  | .string cursor => do
    throwIf (4096 < cursor.toList.length ∨ (cursor ≠ "" ∧ some cursor = state.cursor))
      (.invalid "Account log cursor is missing or did not advance.")
    return cursor
  | _ => .error (.invalid "Account log cursor is missing or did not advance.")

def bybitPage (state : AccountLogCheckpoint) (response : Document) : Except Failure Page := do
  let response ← envelope response
  throwIf (intMember? "retCode" response ≠ some 0)
    (.invalid "Invalid Bybit account-log response code.")
  let result ← envelope (member "result" response)
  let cursor ← bybitCursor state (member "nextPageCursor" result)
  let records ← economicRecords str bybitSpec 50 (member "list" result)
  return ⟨records, if cursor = "" then none else some cursor, cursor = "",
    intMember? "time" response, none⟩

/-- `int(row[field])` of a record. -/
def recordInt (field : String) (record : AccountLogRecord) : Except Failure ℤ :=
  match ((record.find? (·.1 = field)).bind (·.2)).bind pythonInt with
  | none => .error (.invalid "")
  | some value => .ok value

/-- `0x[0-9a-fA-F]{40}`. -/
def isAddress (user : String) : Bool :=
  match user.toList with
  | '0' :: 'x' :: digits => digits.length == 40 &&
    digits.all (fun c => c.isDigit || ('a' ≤ c && c ≤ 'f') || ('A' ≤ c && c ≤ 'F'))
  | _ => false

def hyperliquidStart (user : Option String) (state : AccountLogCheckpoint) : Except Failure ℤ := do
  throwIf (user.any isAddress = false)
    (.invalid "Account log requires the verified user address.")
  match state.cursor with
  | none => return state.windowSince
  | some cursor => match pythonInt cursor with
    | none => .error (.invalid "")
    | some start => return start

def hyperliquidPage (state : AccountLogCheckpoint) (until_ start : ℤ) (response : Document) :
    Except Failure Page := do
  let records ← economicRecords str hyperliquidSpec 5000 response
  let times ← records.mapM (recordInt "time")
  throwIf (¬ times.Pairwise (· ≤ ·) ∨
    times.any (fun stamp => stamp < start ∨ until_ < stamp) = true)
    (.invalid "Account-log timestamp ordering/window is invalid.")
  match times.getLast? with
  | none => return ⟨records, none, true, none, none⟩
  | some last =>
    if start < last then return ⟨records, some (bigintText last), false, none, none⟩
    else if 500 ≤ records.length then
      return ⟨records, state.cursor, false, none, some "timestamp_saturated"⟩
    else return ⟨records, if last = until_ then none else some (bigintText (last + 1)),
      last = until_, none, none⟩

def krakenFrom (state : AccountLogCheckpoint) : Except Failure ℤ :=
  match state.cursor with
  | none => return 1
  | some cursor => match pythonInt cursor with
    | none => .error (.invalid "")
    | some start => return start

def krakenAccount (state : AccountLogCheckpoint) (value : Document) : Except Failure String :=
  match value with
  | .string uid => do
    throwIf (uid = "" ∨ (state.providerAccountUid ≠ none ∧ state.providerAccountUid ≠ some uid))
      (.invalid "Kraken account-log UID is missing or changed.")
    return uid
  | _ => .error (.invalid "Kraken account-log UID is missing or changed.")

def krakenDate (state : AccountLogCheckpoint) (until_ : ℤ) (record : AccountLogRecord) :
    Except Failure Unit :=
  match (record.find? (·.1 = "date")).map (·.2) with
  | none => .error (.invalid "")
  | some none => .error .unsupported
  | some (some date) => match isoTime date with
    | none => .error (.invalid "")
    | some stamp => throwIf (stamp < state.windowSince ∨ until_ < stamp)
      (.invalid "Kraken account-log event is outside the pinned window.")

def krakenPage (state : AccountLogCheckpoint) (until_ start : ℤ) (response : Document) :
    Except Failure Page :=
  match response with
  | .object response => do
    let uid ← krakenAccount state (member "accountUid" response)
    let records ← economicRecords str krakenSpec 500 (member "logs" response)
    let ids ← records.mapM (recordInt "id")
    throwIf (¬ ids.Pairwise (· < ·) ∨ ids.any (fun id => id < start) = true)
      (.invalid "Kraken account-log IDs did not advance.")
    records.forM (krakenDate isoTime state until_)
    return ⟨records, ids.getLast?.map (fun id => bigintText (id + 1)), records = [], none, some uid⟩
  | _ => .error .unsupported

end Pages

section Reader

variable (digest : List Char → String) (str : Document → String) (isoTime : String → Option ℤ)
variable (retained : ℤ → Option ℤ)

structure World where
  clock : ℕ → ℤ
  deadlineOpen : Bool
  answer : Except Failure Document
  user : Option String

def selectLane (state : AccountLogCheckpoint) (now : ℤ) : Lane × AccountLogCheckpoint :=
  let today := dayStart now
  if state.revision % 2 = 1 ∧ state.requiredSince < today ∧ today ≤ state.scannedThrough.getD 0 then
    let audit := state.audit.getD ⟨state.requiredSince, none, none, 0⟩
    (.audit, { state with
      windowSince := audit.windowSince
      windowUntil := some (audit.windowUntil.getD (min today (audit.windowSince + 7 * day)))
      cursor := audit.cursor })
  else (.forward, state)

/-- `_finish(state, until, now)`. -/
def finish (state : AccountLogCheckpoint) (until_ now : ℤ) : AccountLogCheckpoint :=
  let caughtUp := now - 1000 ≤ until_
  { state with
    cursor := none
    scannedThrough := some (max (state.scannedThrough.getD 0) until_)
    windowSince := if caughtUp then max state.requiredSince (dayStart until_ - day)
      else max state.requiredSince (until_ - 1000)
    windowUntil := none
    nextReadAt := if caughtUp then now + 15000 else 0 }

/-- The page of one exchange, with the call in the middle. -/
def sourcePage (exchange : String) (pinned : AccountLogCheckpoint) (until_ started : ℤ)
    (world : World) (budget : Budget) : Except Failure Page × Budget :=
  let call := budget.call (world.clock 7) world.deadlineOpen world.answer
  if exchange = "bybit" then
    match retained started with
    | none => (.error (.invalid ""), budget)
    | some bound =>
      if pinned.windowSince < bound then (.error .retentionUnproven, budget)
      else (call.1 >>= bybitPage str pinned, call.2)
  else if exchange = "hyperliquid" then
    match hyperliquidStart world.user pinned with
    | .error failure => (.error failure, budget)
    | .ok start => (call.1 >>= hyperliquidPage str pinned until_ start, call.2)
  else
    match krakenFrom pinned with
    | .error failure => (.error failure, budget)
    | .ok start => (call.1 >>= krakenPage str isoTime pinned until_ start, call.2)

/-- The rest of `_read_page`: the checkpoint after the page and its receipt. -/
def pageResult (exchange : String) (pinned selected : AccountLogCheckpoint) (until_ started
    completed : ℤ) (lane : Lane) (page : Page) : AccountLogPageReceipt × AccountLogCheckpoint :=
  let read : AccountLogCheckpoint :=
    { pinned with
      cursor := page.cursor, lastServedAt := completed, reason := none, nextReadAt := 0 }
  let state : AccountLogCheckpoint :=
    if exchange = "krakenfutures" then { read with providerAccountUid := page.extra }
    else match page.extra with
      | none => read
      | some reason => { read with reason := some reason, nextReadAt := completed + 60000 }
  let state := if page.exhausted then finish state until_ completed else state
  ({ version := 1
     sourceNamespace := pinned.sourceNamespace
     filterHash := pinned.filterHash
     accountFingerprint := pinned.accountFingerprint
     credentialGeneration := pinned.credentialGeneration
     since := pinned.windowSince
     until_ := until_
     cursor := selected.cursor
     nextCursor := page.cursor
     startedAt := started
     completedAt := completed
     providerResponseAt := page.providerAt
     providerAccountUid := state.providerAccountUid
     exhausted := page.exhausted
     records := page.records
     lane := some lane }, state)

/-- `_merge_audit(original, pinned, advanced, receipt)`. -/
def mergeAudit (original advanced : AccountLogCheckpoint) (receipt : AccountLogPageReceipt) :
    AccountLogCheckpoint :=
  let start := if receipt.exhausted then
      if dayStart receipt.completedAt ≤ receipt.until_ then original.requiredSince
      else max original.requiredSince (receipt.until_ - 1000)
    else receipt.since
  { original with
    audit := some
      { windowSince := start
        windowUntil := if receipt.exhausted then none else some receipt.until_
        cursor := receipt.nextCursor
        completedAt := if receipt.exhausted then receipt.completedAt
          else (original.audit.map (·.completedAt)).getD 0 }
    lastServedAt := receipt.completedAt
    providerAccountUid := advanced.providerAccountUid
    reason := advanced.reason
    nextReadAt := if advanced.reason = none then 0 else advanced.nextReadAt }

/-- The `except` clauses of `read_account_log_page`. -/
def failed (state : AccountLogCheckpoint) (started : ℤ) (world : World) (budget : Budget)
    (failure : Failure) : Except Failure (AccountLogCheckpoint × Budget) :=
  match failure with
  | .retentionUnproven => .ok ({ state with
      reason := some "source_retention_unproven"
      nextReadAt := started + 300000
      lastServedAt := started }, budget)
  | .exhausted => .ok ({ state with
      reason := some "budget_exhausted"
      nextReadAt := max state.nextReadAt budget.resumeAt }, budget)
  | .transient rateLimited retryAfter =>
    let suspended := budget.suspend rateLimited retryAfter (world.clock 8) (world.clock 9)
    .ok ({ state with
      reason := some "transient"
      nextReadAt := suspended.resumeAt
      lastServedAt := started }, suspended)
  | .unsupported => .ok ({ state with
      reason := some "source_unsupported"
      nextReadAt := started + 300000
      lastServedAt := started }, budget)
  | .invalid _ => .ok ({ state with
      reason := some "invalid_source_evidence"
      nextReadAt := started + 60000
      lastServedAt := started }, budget)
  | .raised => .error .raised

def readAccountLogPage (exchange : String) (checkpoint : AccountLogCheckpoint) (world : World)
    (budget : Budget) :
    Except Failure (Option AccountLogPageReceipt × AccountLogCheckpoint × Budget) := do
  let state ← validateLogCheckpoint digest exchange checkpoint world.clock
  if world.clock 5 < state.nextReadAt then return (none, state, budget)
  else
    let started := world.clock 6
    let (lane, selected) := selectLane state started
    let until_ := selected.windowUntil.getD (min started (selected.windowSince + 7 * day))
    let pinned := { selected with windowUntil := some until_ }
    let (result, budget) := sourcePage str isoTime retained exchange pinned until_ started
      world budget
    match result with
    | .error failure => do
      let (state, budget) ← failed state started world budget failure
      return (none, state, budget)
    | .ok page =>
      let (receipt, advanced) := pageResult exchange pinned selected until_ started (world.clock 8)
        lane page
      let advanced := if lane = .audit then mergeAudit state advanced receipt else advanced
      return (some receipt, advanced, budget)

def skippedLogReason (reason : Option String) : ReadSkipped :=
  if reason = some "source_unsupported" ∨ reason = some "source_retention_unproven"
    then .unsupported
  else if reason = some "invalid_source_evidence" then .invalidEvidence
  else if reason = some "transient" then .transient
  else .budgetExhausted

/-- `read_account_logs` of a query with a checkpoint. -/
def readAccountLogs (exchange : String) (checkpoint : AccountLogCheckpoint) (scheduled : Bool)
    (world : World) (budget : Budget) : Except Failure (AccountLogProgress × Budget) := do
  let (receipt, next, after) ←
    readAccountLogPage digest str isoTime retained exchange checkpoint world budget
  if scheduled = true ∧ after.calls = budget.calls ∧ receipt = none then
    return (⟨some (skippedLogReason next.reason), checkpoint.revision, 0, checkpoint, []⟩, after)
  else
    return (⟨none, checkpoint.revision, ((after.calls - budget.calls : ℕ) : ℤ),
      { next with revision := checkpoint.revision + 1 }, receipt.toList⟩, after)

end Reader

end TsxCore.AccountLogReader
