import TsxCore.SqlTable
import TsxCore.TradingAccountLogContract

/-!
# Durable account-log traversal (`trading_account_log_repository.ts`)

Each exported function is one transaction: it commits what it wrote or, when it
throws, leaves the tables as they were. Columns that no modelled function reads
are left out, and a stored payload is the value that was written. The accounts,
the trade intents and the results of the consumers are written by other modules,
at any time between two calls.
-/

namespace TsxCore.AccountLog

open Outcome SqlTable JsonText

structure TradingAccount where
  id : String
  exchange : String
  externalAccountId : Option String
  credentialGeneration : Option String

/-- A row of `trading_accounts`. -/
structure AccountRow where
  id : String
  externalAccountId : Option String
  credentialGeneration : Option String

/-- A row of `trading_trade_intents`. -/
structure IntentRow where
  accountId : String
  createdAt : ℤ

/-- The primary key of `trading_account_log_checkpoints`. -/
structure SourceKey where
  accountId : String
  accountFingerprint : String
  sourceNamespace : String
  deriving DecidableEq

structure CheckpointRow where
  key : SourceKey
  revision : ℤ
  payload : AccountLogCheckpoint

structure ReceiptRow where
  id : String
  key : SourceKey
  credentialGeneration : String
  baseRevision : ℤ
  payload : AccountLogPageReceipt

structure RecordRow where
  receiptId : String
  ordinal : ℕ
  payload : AccountLogRecord

inductive ConsumerStatus
  | pending
  | complete
  | unresolved

structure ConsumerRow where
  receiptId : String
  consumer : String
  status : ConsumerStatus

structure Database where
  accounts : List AccountRow
  intents : List IntentRow
  checkpoints : List CheckpointRow
  receipts : List ReceiptRow
  records : List RecordRow
  consumers : List ConsumerRow

def bindingChanged : Thrown := .error "Account-log identity/credential binding changed."

def constraintFailed : Thrown := .error "SQLITE_CONSTRAINT"

def assertBinding (db : Database) (account : TradingAccount) (row : SourceBinding) :
    Outcome Unit :=
  match db.accounts.find? (·.id = account.id) with
  | none => .error bindingChanged
  | some current =>
    throwIf (some row.accountFingerprint ≠ current.externalAccountId ∨
        some row.credentialGeneration ≠ current.credentialGeneration ∨
        some row.accountFingerprint ≠ account.externalAccountId ∨
        some row.credentialGeneration ≠ account.credentialGeneration)
      bindingChanged

/-- `requiredSince(accountId, today)`. -/
def obligationSince (db : Database) (accountId : String) (today : ℤ) : ℤ :=
  ((db.intents.filter (·.accountId = accountId)).map (·.createdAt)).foldl min today

def stored (db : Database) (key : SourceKey) : Option AccountLogCheckpoint :=
  (db.checkpoints.find? (·.key = key)).map (·.payload)

/-- `INSERT … ON CONFLICT DO UPDATE`. -/
def putCheckpoint (db : Database) (key : SourceKey) (checkpoint : AccountLogCheckpoint) :
    Database :=
  let row : CheckpointRow := ⟨key, checkpoint.revision, checkpoint⟩
  { db with
    checkpoints :=
      if db.checkpoints.any (·.key = key) then
        updateWhere (fun old => old.key = key) (fun _ => row) db.checkpoints
      else db.checkpoints ++ [row] }

def initialCheckpoint (sourceNamespace filterHash accountFingerprint credentialGeneration : String)
    (since : ℤ) : AccountLogCheckpoint where
  version := 1
  sourceNamespace := sourceNamespace
  filterHash := filterHash
  accountFingerprint := accountFingerprint
  credentialGeneration := credentialGeneration
  revision := 0
  requiredSince := since
  windowSince := since
  windowUntil := none
  cursor := none
  scannedThrough := none
  nextReadAt := 0
  lastServedAt := 0
  providerAccountUid := none
  reason := none
  audit := none

/-- The obligation is never dropped when a stored traversal is started again. -/
def restarted (initial previous : AccountLogCheckpoint) : AccountLogCheckpoint :=
  { initial with
    requiredSince := min initial.requiredSince previous.requiredSince
    windowSince := min initial.requiredSince previous.requiredSince
    revision := previous.revision + 1 }

def unreadPage : Thrown := .error "Account-log progress skipped an unread page."

def assertForwardContinuation (previous next : AccountLogCheckpoint)
    (receipt : AccountLogPageReceipt) : Outcome Unit := do
  let continuation :=
    if receipt.completedAt - 1000 ≤ receipt.until_ then dayStart receipt.until_ - day
    else receipt.until_ - 1000
  let since :=
    if receipt.exhausted then max previous.requiredSince continuation else receipt.since
  let through :=
    if receipt.exhausted then some (max (previous.scannedThrough.getD 0) receipt.until_)
    else previous.scannedThrough
  throwIf (next.windowSince ≠ since ∨
      next.windowUntil ≠ (if receipt.exhausted then none else some receipt.until_) ∨
      next.cursor ≠ receipt.nextCursor ∨ next.scannedThrough ≠ through)
    (.error "Account-log traversal advanced without its durable page/EOF.")
  throwIf (next.audit ≠ previous.audit) unreadPage

def assertAuditContinuation (previous next : AccountLogCheckpoint)
    (receipt : AccountLogPageReceipt) : Outcome Unit := do
  let today := dayStart receipt.completedAt
  throwIf (previous.revision % 2 ≠ 1 ∨ today ≤ previous.requiredSince ∨
      previous.scannedThrough.getD 0 < today)
    (.error "Historical audit was not eligible.")
  let since :=
    if receipt.exhausted then
      if today ≤ receipt.until_ then previous.requiredSince
      else max previous.requiredSince (receipt.until_ - 1000)
    else receipt.since
  let expected : AccountLogAudit :=
    { windowSince := since
      windowUntil := if receipt.exhausted then none else some receipt.until_
      cursor := receipt.nextCursor
      completedAt := if receipt.exhausted then receipt.completedAt
        else (previous.audit.map (·.completedAt)).getD 0 }
  throwIf (next.audit ≠ some expected)
    (.error "Historical audit lost its durable page/EOF.")
  throwIf (next.cursor ≠ previous.cursor ∨ next.windowSince ≠ previous.windowSince ∨
      next.windowUntil ≠ previous.windowUntil ∨ next.scannedThrough ≠ previous.scannedThrough)
    unreadPage

def pinnedRequest (previous : AccountLogCheckpoint) (lane : Option Lane) : AccountLogAudit :=
  if lane = some .audit then previous.audit.getD ⟨previous.requiredSince, none, none, 0⟩
  else ⟨previous.windowSince, previous.windowUntil, previous.cursor, 0⟩

def assertPage (previous next : AccountLogCheckpoint) (receipt : AccountLogPageReceipt) :
    Outcome Unit := do
  let current := pinnedRequest previous receipt.lane
  throwIf (receipt.cursor ≠ current.cursor ∨ receipt.since ≠ current.windowSince ∨
      (current.windowUntil ≠ none ∧ current.windowUntil ≠ some receipt.until_))
    (.error "Account-log receipt lost its pinned request.")
  throwIf (previous.providerAccountUid ≠ none ∧
      receipt.providerAccountUid ≠ previous.providerAccountUid)
    (.error "Account-log provider UID changed.")
  throwIf (next.providerAccountUid ≠ receipt.providerAccountUid)
    (.error "Account-log provider UID differs from its source.")
  if receipt.lane = some .audit then assertAuditContinuation previous next receipt
  else assertForwardContinuation previous next receipt

def assertReceiptChain (previous : AccountLogCheckpoint) (progress : AccountLogProgress) :
    Outcome Unit :=
  let next := progress.checkpoint
  match progress.receipts with
  | [] => throwIf (next.cursor ≠ previous.cursor ∨ next.windowSince ≠ previous.windowSince ∨
      next.windowUntil ≠ previous.windowUntil ∨ next.scannedThrough ≠ previous.scannedThrough ∨
      next.audit ≠ previous.audit ∨ next.providerAccountUid ≠ previous.providerAccountUid)
    unreadPage
  | [receipt] => assertPage previous next receipt
  | _ => .error (.error "Account-log producer returned more than one page per turn.")

def assertContinuation (previous : AccountLogCheckpoint) (progress : AccountLogProgress) :
    Outcome Unit := do
  let next := progress.checkpoint
  throwIf (previous.revision ≠ progress.baseRevision) (.error "Account-log revision is stale.")
  assertSkippedAccountLogUnchanged previous progress
  throwIf (next.requiredSince ≠ previous.requiredSince ∨
      next.sourceNamespace ≠ previous.sourceNamespace ∨ next.filterHash ≠ previous.filterHash ∨
      next.scannedThrough.getD 0 < previous.scannedThrough.getD 0)
    (.error "Account-log continuation changed its original source.")
  assertReceiptChain previous progress

def consumersOf (receipt : AccountLogPageReceipt) : List String :=
  if "bybit_".toList.isPrefixOf receipt.sourceNamespace.toList then ["money", "scope"]
  else ["money"]

/-- The rows that `insertReceipt` writes, with their keys. -/
def insertReceipt (digest : List Char → String) (db : Database) (accountId : String)
    (receipt : AccountLogPageReceipt) (revision : ℤ) : Outcome Database := do
  let id := digest (array [string accountId, integer revision, receipt.json])
  let records := receipt.records.zipIdx.map (fun (record, ordinal) => ⟨id, ordinal, record⟩)
  let consumers := (consumersOf receipt).map (fun consumer => ⟨id, consumer, .pending⟩)
  throwIf (db.receipts.any (·.id = id)) constraintFailed
  throwIf (db.records.any (fun old => old.receiptId = id ∧ old.ordinal < receipt.records.length))
    constraintFailed
  throwIf (db.consumers.any (fun old => old.receiptId = id ∧ old.consumer ∈ consumersOf receipt))
    constraintFailed
  return { db with
    receipts := db.receipts ++ [⟨id, ⟨accountId, receipt.accountFingerprint,
      receipt.sourceNamespace⟩, receipt.credentialGeneration, revision, receipt⟩]
    records := db.records ++ records
    consumers := db.consumers ++ consumers }

structure CheckpointCall where
  account : TradingAccount
  now : ℤ

/-- `clock` is read when the stored checkpoint is validated. -/
structure PersistCall where
  account : TradingAccount
  value : AccountLogProgress
  now : ℤ
  clock : ℤ

section Transactions

variable (digest : List Char → String)

def storedCheckpoint (db : Database) (key : SourceKey) (now : ℤ) :
    Outcome (Option AccountLogCheckpoint) :=
  match stored db key with
  | none => return none
  | some payload => some <$> validateAccountLogCheckpoint digest payload now

/-- The transaction of `accountLogCheckpoint`. -/
def requestCheckpoint (db : Database) (account : TradingAccount) (key : SourceKey)
    (initial : AccountLogCheckpoint) (now : ℤ) : Outcome (Database × AccountLogCheckpoint) := do
  let previous ← storedCheckpoint digest db key now
  assertBinding db account initial.toSourceBinding
  match previous with
  | none => return (putCheckpoint db key initial, initial)
  | some previous =>
    if previous.requiredSince ≤ initial.requiredSince ∧
        some previous.credentialGeneration = account.credentialGeneration then
      return (db, previous)
    else return (putCheckpoint db key (restarted initial previous), restarted initial previous)

def accountLogCheckpoint (db : Database) (call : CheckpointCall) :
    Outcome (Database × Option AccountLogCheckpoint) :=
  match accountLogSource digest call.account.exchange, call.account.externalAccountId,
    call.account.credentialGeneration with
  | some (sourceNamespace, filterHash), some fingerprint, some generation =>
    if fingerprint = "" ∨ generation = "" then return (db, none)
    else do
      let since := obligationSince db call.account.id (dayStart call.now)
      let (next, checkpoint) ← requestCheckpoint digest db call.account
        ⟨call.account.id, fingerprint, sourceNamespace⟩
        (initialCheckpoint sourceNamespace filterHash fingerprint generation since) call.now
      return (next, some checkpoint)
  | _, _, _ => return (db, none)

def isRequestedRow (key : SourceKey) (revision : ℤ) (row : CheckpointRow) : Bool :=
  row.key = key ∧ row.revision = revision

/-- What `persistAccountLogProgress` writes for an accepted continuation. -/
def writeProgress (db : Database) (account : TradingAccount) (key : SourceKey)
    (progress : AccountLogProgress) : Outcome Database := do
  let written ← progress.receipts.foldlM
    (fun db receipt => insertReceipt digest db account.id receipt progress.baseRevision) db
  throwIf (changes (isRequestedRow key progress.baseRevision) written.checkpoints ≠ 1)
    (.error "Account-log checkpoint revision changed.")
  return { written with
    checkpoints := updateWhere (isRequestedRow key progress.baseRevision)
      (fun row => { row with
        revision := progress.checkpoint.revision
        payload := progress.checkpoint })
      written.checkpoints }

def persistAccountLogProgress (db : Database) (call : PersistCall) : Outcome Database := do
  let progress ← validateAccountLogProgress digest call.value call.now
  let next := progress.checkpoint
  let key : SourceKey := ⟨call.account.id, next.accountFingerprint, next.sourceNamespace⟩
  assertBinding db call.account next.toSourceBinding
  match ← storedCheckpoint digest db key call.clock with
  | none => .error (.error "Account-log requested checkpoint is missing.")
  | some previous => do
    assertContinuation previous progress
    if progress.readSkipped ≠ none then return db
    else writeProgress digest db call.account key progress

end Transactions

end TsxCore.AccountLog
