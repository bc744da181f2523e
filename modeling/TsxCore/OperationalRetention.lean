import TsxCore.OldestRows
import TsxCore.OutboxTasks
import TsxCore.SignificantDigits
import TsxCore.WorkflowFallback

/-!
# Signals and the retention of operational data (`db.ts`)

`saveSignal` and `pruneOperationalData` are one transaction each, `findDuplicateSignal` is
one statement. A row has the columns that a statement here reads. The clock is read once
for each call. The hash of an unnamed parser attempt and the calendar day of a time are
parameters. A foreign key that refuses a deletion rolls `pruneOperationalData` back as a
whole, which leaves the tables as they were.
-/

namespace TsxCore.OperationalRetention

open Outcome OldestRows Outbox
open TradingTypes (TradingIntentStatus)
open Workflow (FallbackRunStatus)

structure SignalProvenance where
  templateName : String
  schemaName : String
  promptSha256 : String
  model : String
  providerRequestId : Option String
  promptTokens : ℤ
  completionTokens : ℤ
  parserVersion : String
  workflowRevisionId : Option String
  attemptId : Option String

structure SignalStorageRow where
  id : String
  chatId : String
  messageId : ℤ
  xmlContent : String
  normalizedContent : String
  createdAt : ℤ
  templateName : Option String
  schemaName : Option String
  promptSha256 : Option String
  model : Option String
  providerRequestId : Option String
  promptTokens : Option ℤ
  completionTokens : Option ℤ
  parserVersion : Option String
  workflowRevisionId : Option String

/-- A row of `signal_parser_attempts`. -/
structure ParserAttempt where
  id : String
  signalId : String
  provenance : SignalProvenance
  createdAt : ℤ

structure IncomingMessage where
  id : ℤ
  status : String
  createdAt : ℤ

structure AiUsageDay where
  usageDay : String
  reservedTokens : ℤ

structure AiUsageReservation where
  usageDay : String
  status : String

structure TradeIntent where
  id : String
  sourceSignalId : String
  signalRunId : Option String
  status : TradingIntentStatus
  updatedAt : ℤ
  deriving DecidableEq

structure RiskEvent where
  intentId : Option String
  severity : String
  acknowledgedAt : Option ℤ

structure TradingOperation where
  intentId : Option String
  phase : String

structure TradingOrder where
  id : String
  intentId : String
  accountId : String
  exchangeOrderId : Option String
  clientOrderId : String
  filledQuantity : String

structure FallbackRun where
  id : String
  signalRunId : String
  status : FallbackRunStatus

structure FallbackCandidate where
  fallbackRunId : String
  intentId : Option String
  deriving DecidableEq

structure ReconciliationRun where
  id : String
  status : String
  completedAt : Option ℤ

structure PaperOrder where
  exchangeOrderId : String
  accountId : String
  clientOrderId : String
  status : String
  filledQuantity : String
  updatedAt : ℤ

structure ExchangeEvent where
  id : String
  receivedAt : ℤ

/-- The tables of trading. A table of which only the reference is read is the list of its
references. -/
structure TradingTables where
  intents : List TradeIntent := []
  riskEvents : List RiskEvent := []
  journalIntents : List (Option String) := []
  operations : List TradingOperation := []
  accountingPending : List String := []
  accountingProjections : List String := []
  projectionEvidence : List String := []
  moneyEvents : List String := []
  riskContracts : List String := []
  orders : List TradingOrder := []
  identityBindings : List String := []
  fills : List String := []
  orderGenerations : List String := []
  positions : List String := []
  fallbackRuns : List FallbackRun := []
  fallbackCandidates : List FallbackCandidate := []
  workflowSignalRuns : List String := []
  reconciliationRuns : List ReconciliationRun := []
  paperOrders : List PaperOrder := []
  paperFills : List String := []
  exchangeEvents : List ExchangeEvent := []

abbrev Signals := Keyed (fun row : SignalStorageRow => row.id)

structure Database where
  signals : Signals
  parserAttempts : Keyed (fun row : ParserAttempt => row.id)
  pendingTasks : PendingTasks
  incomingMessages : List IncomingMessage := []
  aiUsageDaily : List AiUsageDay := []
  aiUsageReservations : List AiUsageReservation := []
  trading : TradingTables := {}

/-- `value || null` of a text. -/
def orNull (value : Option String) : Option String := value.filter (· ≠ "")

section Signals

def signalConflictError (id : String) : Thrown :=
  ⟨"SignalConflictError", none,
    s!"Signal {id} conflict: immutable source, content or workflow differs; review required."⟩

def signalRow (now : ℤ) (id chatId : String) (messageId : ℤ) (xmlContent normalizedContent : String)
    (provenance : Option SignalProvenance) : SignalStorageRow where
  id := id
  chatId := chatId
  messageId := messageId
  xmlContent := xmlContent
  normalizedContent := normalizedContent
  createdAt := now
  templateName := orNull (provenance.map (·.templateName))
  schemaName := orNull (provenance.map (·.schemaName))
  promptSha256 := orNull (provenance.map (·.promptSha256))
  model := orNull (provenance.map (·.model))
  providerRequestId := orNull (provenance.bind (·.providerRequestId))
  promptTokens := provenance.map (·.promptTokens)
  completionTokens := provenance.map (·.completionTokens)
  parserVersion := orNull (provenance.map (·.parserVersion))
  workflowRevisionId := provenance.bind (·.workflowRevisionId)

/-- `INSERT OR IGNORE INTO signal_parser_attempts …`. -/
def recordAttempt (attemptHash : String → SignalProvenance → String) (now : ℤ) (id : String)
    (provenance : Option SignalProvenance) (db : Database) : Database :=
  match provenance with
  | none => db
  | some value =>
    let attemptId := (orNull value.attemptId).getD (attemptHash id value)
    { db with parserAttempts := (db.parserAttempts.insert ⟨attemptId, id, value, now⟩).2 }

def saveSignal (attemptHash : String → SignalProvenance → String) (now : ℤ) (id chatId : String)
    (messageId : ℤ) (xmlContent normalizedContent : String) (provenance : Option SignalProvenance)
    (db : Database) : Outcome (SignalStorageRow × Database) := do
  let row := signalRow now id chatId messageId xmlContent normalizedContent provenance
  let existing := (db.signals.find id).getD row
  throwIf (existing.chatId ≠ chatId ∨ existing.messageId ≠ messageId ∨
    existing.normalizedContent ≠ normalizedContent ∨
    existing.workflowRevisionId ≠ provenance.bind (·.workflowRevisionId)) (signalConflictError id)
  return (existing, recordAttempt attemptHash now id provenance
    { db with signals := (db.signals.insert row).2 })

structure DuplicateMatch where
  isDupe : Bool
  matchFile : String
  ageHours : Option ℚ
  deriving DecidableEq

/-- `/^[a-f0-9]{64}$/`. -/
def scopePattern (scope : String) : Bool :=
  scope.toList.length = 64 && scope.toList.all (fun c => c.isDigit || ('a' ≤ c && c ≤ 'f'))

/-- `substr(id, -?) = ?` of a suffix and its length. -/
def hasSuffix (suffix id : String) : Bool :=
  id.toList.drop (id.toList.length - suffix.toList.length) = suffix.toList

def candidate (normalizedContent : String) (excludeSignalId scopeSuffix : Option String)
    (row : SignalStorageRow) : Bool :=
  row.normalizedContent = normalizedContent && some row.id ≠ orNull excludeSignalId &&
    scopeSuffix.all (fun suffix => hasSuffix suffix row.id)

/-- `ORDER BY created_at DESC LIMIT 1`. -/
def latest (rows : List SignalStorageRow) : Option SignalStorageRow :=
  (rows.insertionSort (fun a b => b.createdAt ≤ a.createdAt)).head?

/-- `Number(value.toFixed(1))`: of two numbers as near to a positive value the larger one. -/
def toFixed1 (value : ℚ) : ℚ :=
  if value < 0 then -(⌊-value * 10 + 1 / 2⌋ / 10) else ⌊value * 10 + 1 / 2⌋ / 10

/-- `Number((ageMs / (60 * 60 * 1000)).toFixed(1))`. -/
def ageHours (ageMs : ℤ) : ℚ :=
  toFixed1 (SignificantDigits.nearestDouble (ageMs / (60 * 60 * 1000)))

def findCooldownDuplicate (db : Database) (normalizedContent : String) (minTime : ℚ) (now : ℤ)
    (excludeSignalId scopeSuffix : Option String) : Option DuplicateMatch :=
  (latest (db.signals.rows.filter (fun row =>
    candidate normalizedContent excludeSignalId scopeSuffix row && minTime ≤ row.createdAt))).map
      (fun row => ⟨true, row.id, some (ageHours (now - row.createdAt))⟩)

def findPermanentDuplicate (db : Database) (normalizedContent : String)
    (excludeSignalId scopeSuffix : Option String) : Option DuplicateMatch :=
  (latest (db.signals.rows.filter (candidate normalizedContent excludeSignalId scopeSuffix))).map
    (fun row => ⟨true, row.id, none⟩)

def findDuplicateSignal (now : ℤ) (normalizedContent : String) (cooldownHours : ℚ)
    (excludeSignalId dedupeScope : Option String) (db : Database) :
    Outcome (Option DuplicateMatch) := do
  let cooldownMs := cooldownHours * 60 * 60 * 1000
  throwIf (dedupeScope.any (fun scope => !scopePattern scope) = true)
    (.error "Signal dedupe scope must be a SHA-256 identifier.")
  let scopeSuffix := dedupeScope.map (fun scope => "_" ++ scope)
  if cooldownHours > 0 then
    return findCooldownDuplicate db normalizedContent (now - cooldownMs) now excludeSignalId
      scopeSuffix
  return findPermanentDuplicate db normalizedContent excludeSignalId scopeSuffix

end Signals

section Trading

/-- The intents that `prepareTradingRetentionCandidates` may take. -/
def finishedIntent (cutoff : ℤ) (db : TradingTables) (intent : TradeIntent) : Bool :=
  (intent.status = .completed || intent.status = .blocked || intent.status = .failed) &&
    intent.updatedAt < cutoff &&
    !db.riskEvents.any (fun risk => risk.intentId = some intent.id && risk.severity = "critical" &&
      risk.acknowledgedAt = none) &&
    !db.journalIntents.any (· = some intent.id) &&
    !db.operations.any (fun operation => operation.intentId = some intent.id &&
      (operation.phase = "prepared" || operation.phase = "dispatching" ||
        operation.phase = "unresolved")) &&
    !db.accountingPending.any (· = intent.id) &&
    !db.accountingProjections.any (· = intent.id) &&
    !db.projectionEvidence.any (· = intent.id) &&
    !db.moneyEvents.any (· = intent.id) &&
    !db.riskContracts.any (· = intent.id) &&
    !db.identityBindings.any (fun orderId => db.orders.any (fun owned =>
      owned.id = orderId && owned.intentId = intent.id)) &&
    !db.orders.any (fun owned => owned.intentId = intent.id &&
      (owned.filledQuantity ≠ "0" || db.fills.any (· = owned.id)))

/-- An intent of a fallback run that is probing or has an intent outside the candidates. -/
def heldByFallback (db : TradingTables) (taken : List String) (intentId : String) : Bool :=
  db.fallbackCandidates.any (fun candidate => candidate.intentId = some intentId &&
    db.fallbackRuns.any (fun run => run.id = candidate.fallbackRunId && (run.status = .probing ||
      db.fallbackCandidates.any (fun sibling => sibling.fallbackRunId = candidate.fallbackRunId &&
        sibling.intentId.any (fun siblingIntent => !taken.contains siblingIntent)))))

def prepareTradingRetentionCandidates (db : TradingTables) (cutoff : ℤ) (batchSize : ℕ) :
    List String :=
  let taken := (oldest (finishedIntent cutoff db) (·.updatedAt) batchSize db.intents).map (·.id)
  taken.filter (fun intentId => !heldByFallback db taken intentId)

/-- The fallback runs that `deleteRetainedWorkflowState` deletes. -/
def settledRun (db : TradingTables) (taken : List String) (run : FallbackRun) : Bool :=
  (run.status = .selected || run.status = .exhausted || run.status = .stopped) &&
    db.fallbackCandidates.any (fun candidate => candidate.fallbackRunId = run.id &&
      candidate.intentId.any (taken.contains ·)) &&
    !db.fallbackCandidates.any (fun candidate => candidate.fallbackRunId = run.id &&
      candidate.intentId.any (fun intentId => !taken.contains intentId))

def deleteRetainedWorkflowState (db : TradingTables) (taken : List String) :
    List String × TradingTables :=
  let signalRuns := (db.intents.filter (fun intent => taken.contains intent.id)).filterMap
    (·.signalRunId)
  let settled := (db.fallbackRuns.filter (settledRun db taken)).map (·.id)
  (signalRuns, { db with
    fallbackRuns := db.fallbackRuns.filter (fun run => !settledRun db taken run)
    fallbackCandidates := db.fallbackCandidates.filter
      (fun candidate => !settled.contains candidate.fallbackRunId) })

/-- The rows of the retained intents and the signal runs that nothing refers to any more. -/
def deleteIntents (db : TradingTables) (taken signalRuns : List String) : ℕ × TradingTables :=
  let intents := db.intents.filter (fun intent => !taken.contains intent.id)
  (db.intents.countP (fun intent => taken.contains intent.id), { db with
    operations := db.operations.filter
      (fun operation => !(operation.intentId.any (taken.contains ·) &&
      (operation.phase = "acknowledged" || operation.phase = "resolved" ||
        operation.phase = "abandoned")))
    orderGenerations := db.orderGenerations.filter (fun intentId => !taken.contains intentId)
    riskEvents := db.riskEvents.filter (fun risk => !risk.intentId.any (taken.contains ·))
    orders := db.orders.filter (fun order => !taken.contains order.intentId)
    positions := db.positions.filter (fun intentId => !taken.contains intentId)
    intents := intents
    workflowSignalRuns := db.workflowSignalRuns.filter (fun run => !(signalRuns.contains run &&
      !intents.any (fun intent => intent.signalRunId = some run) &&
      !db.fallbackRuns.any (fun fallback => fallback.signalRunId = run))) })

/-- The paper orders without fills and without an order that owns them. -/
def unownedPaperOrder (cutoff : ℤ) (db : TradingTables) (order : PaperOrder) : Bool :=
  (order.status = "filled" || order.status = "cancelled" || order.status = "rejected") &&
    order.updatedAt < cutoff && order.filledQuantity = "0" &&
    !db.paperFills.any (· = order.exchangeOrderId) &&
    !db.orders.any (fun owned => owned.accountId = order.accountId &&
      (owned.exchangeOrderId = some order.exchangeOrderId || owned.clientOrderId =
        order.clientOrderId))

structure TradingChanges where
  intents : ℕ
  reconciliations : ℕ
  paperOrders : ℕ

def pruneTradingData (db : TradingTables) (cutoff : ℤ) (batchSize : ℕ) :
    TradingChanges × TradingTables :=
  let taken := prepareTradingRetentionCandidates db cutoff batchSize
  let (signalRuns, workflowed) := deleteRetainedWorkflowState db taken
  let (intents, next) := deleteIntents workflowed taken signalRuns
  let reconciliations := deleteOldest (·.id) (fun run : ReconciliationRun =>
    run.status = "succeeded" && run.completedAt.any (· < cutoff))
      (fun run => run.completedAt.getD 0)
    batchSize next.reconciliationRuns
  let paperOrders := deleteOldest (·.exchangeOrderId) (unownedPaperOrder cutoff next) (·.updatedAt)
    batchSize next.paperOrders
  let events := deleteOldest (·.id) (fun event : ExchangeEvent => event.receivedAt < cutoff)
    (·.receivedAt) batchSize next.exchangeEvents
  (⟨intents, reconciliations.1, paperOrders.1⟩, { next with
    reconciliationRuns := reconciliations.2
    paperOrders := paperOrders.2
    exchangeEvents := events.2 })

end Trading

section Retention

structure OperationalRetentionResult where
  completedOutbox : ℕ
  incomingMessages : ℕ
  signals : ℕ
  aiUsageDays : ℕ
  tradingIntents : ℕ
  tradingReconciliations : ℕ
  paperOrders : ℕ

/-- An outbox task of the message of the signal that is not completed. -/
def openTask (tasks : PendingTasks) (signal : SignalStorageRow) : Bool :=
  tasks.rows.any (fun task => task.chatId = signal.chatId &&
    task.messageId = some signal.messageId && task.status ≠ .completed)

def expiredSignal (cutoff : ℤ) (tasks : PendingTasks) (intents : List TradeIntent)
    (signal : SignalStorageRow) : Bool :=
  signal.createdAt < cutoff && !openTask tasks signal &&
    !intents.any (fun intent => intent.sourceSignalId = signal.id)

def completedTask (cutoff : ℤ) (task : OutboxStorageRow) : Bool :=
  task.status = .completed && task.completedAt.any (· < cutoff)

/-- The days without an open reservation, in the order of their names. -/
def deleteUsage (cutoffDay : String) (batchSize : ℕ) (db : Database) : ℕ × List AiUsageDay :=
  let days := ((db.aiUsageDaily.filter (fun day => day.usageDay < cutoffDay &&
    day.reservedTokens = 0 && !db.aiUsageReservations.any (fun reservation =>
      reservation.usageDay = day.usageDay && reservation.status = "reserved"))).insertionSort
        (fun a b => a.usageDay ≤ b.usageDay)).take batchSize
  let deleted := fun day : AiUsageDay => (days.map (·.usageDay)).contains day.usageDay
  (db.aiUsageDaily.countP deleted, db.aiUsageDaily.filter (fun day => !deleted day))

def retentionCutoff (retentionDays now : ℤ) : ℤ := now - retentionDays * 24 * 60 * 60 * 1000

/-- The signals that one call deletes, once the trading tables are pruned. -/
def prunedSignal (retentionDays : ℤ) (batchSize : ℕ) (now : ℤ) (db : Database)
    (signal : SignalStorageRow) : Bool :=
  let cutoff := retentionCutoff retentionDays now
  selected (·.id) (expiredSignal cutoff db.pendingTasks
    (pruneTradingData db.trading cutoff batchSize).2.intents) (·.createdAt) batchSize
      db.signals.rows
      signal

def pruneOperationalData (isoDay : ℤ → String) (retentionDays batchSize now : ℤ) (db : Database) :
    Outcome (OperationalRetentionResult × Database) := do
  throwIf (¬ isSafeInteger retentionDays ∨ retentionDays < 1 ∨ retentionDays > 3650)
    (.error "Operational data retention must be between 1 and 3650 days.")
  throwIf (¬ isSafeInteger batchSize ∨ batchSize < 100 ∨ batchSize > 10000)
    (.error "Operational data retention batch size must be between 100 and 10000.")
  throwIf (¬ isSafeInteger now ∨ now ≤ 0) (.error "Retention timestamp is invalid.")
  let cutoff := retentionCutoff retentionDays now
  let limit := batchSize.toNat
  let (trading, tables) := pruneTradingData db.trading cutoff limit
  let incoming := deleteOldest (·.id)
    (fun message : IncomingMessage => message.createdAt < cutoff &&
    (message.status = "processed" || message.status = "filtered")) (·.createdAt) limit
    db.incomingMessages
  let pruned := prunedSignal retentionDays limit now db
  let signals := db.signals.delete pruned
  let done := selected (·.id) (completedTask cutoff) (fun task => task.completedAt.getD 0) limit
    db.pendingTasks.rows
  let usage := deleteUsage (isoDay cutoff) limit db
  return (⟨db.pendingTasks.changes done, incoming.1, db.signals.changes pruned, usage.1,
    trading.intents, trading.reconciliations, trading.paperOrders⟩, { db with
      trading := tables
      incomingMessages := incoming.2
      signals := signals
      parserAttempts := db.parserAttempts.delete (fun attempt => (db.signals.rows.any
        (fun signal => pruned signal && signal.id = attempt.signalId)))
      pendingTasks := db.pendingTasks.delete done
      aiUsageDaily := usage.2 })

end Retention

end TsxCore.OperationalRetention
