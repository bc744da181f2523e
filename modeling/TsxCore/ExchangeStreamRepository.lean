import TsxCore.ExecutorStreams
import TsxCore.KeyedTable
import TsxCore.TradingRecoveryScheduleContract

/-!
# Stream batches of the program (`ccxt_exchange.ts`, `exchange_stream_repository.ts`)

The contract that a batch of the executor has to meet, and the transaction that
persists it: its events by their keys, the state of the account's stream, and the
retention of the events.
-/

namespace TsxCore.ExchangeStreams

open Outcome ExecutorStreams TradingRecoveryScheduleContract

variable {N : Type}

structure TradingAccount where
  id : String
  exchange : String
  mode : String

structure ExchangeEventRow where
  id : String
  accountId : String
  exchange : String
  mode : String
  eventKey : String
  eventType : String
  symbol : Option String
  sequence : Option ℤ
  occurredAt : ℤ
  receivedAt : ℤ
  payloadJson : String

structure StreamStateRow where
  accountId : String
  status : String
  cursor : ℕ
  gapCount : ℕ
  lastEventAt : Option ℤ
  lastPollAt : Option ℤ
  lastError : Option String
  updatedAt : ℤ

structure Tables where
  events : List ExchangeEventRow
  streamState : Keyed StreamStateRow.accountId

def isNullableTimestamp : Option ℤ → Bool
  | none => true
  | some value => 0 ≤ value ∧ isSafeInteger value

def streamEventTypes : List String :=
  ["order", "execution", "position", "market", "candle", "stream_status"]

def assertStreamHealth (health : StreamHealth) : Outcome Unit :=
  throwIf (health.status ∉ ["starting", "healthy", "degraded", "stopped"] ∨
      ¬ isNullableTimestamp health.startedAt ∨ ¬ isNullableTimestamp health.lastEventAt)
    (.error "Exchange executor returned invalid stream health.")

def assertStreamEvent (event : StreamEvent N) : Outcome Unit :=
  throwIf (event.cursor < 1 ∨ ¬ isSafeInteger event.cursor ∨ ¬ digestPattern event.eventKey ∨
      event.eventType ∉ streamEventTypes ∨
        (event.symbol.any (fun symbol => 40 < utf16Length symbol)) ∨
      (event.sequence.any (fun sequence => ¬ isSafeInteger sequence)) ∨
      ¬ isNullableTimestamp (some event.occurredAt) ∨ ¬ isNullableTimestamp (some event.receivedAt))
    (.error "Exchange executor returned an invalid stream event.")

def assertStreamBatch (batch : StreamBatch N) : Outcome (StreamBatch N) := do
  throwIf (¬ isSafeInteger batch.nextCursor)
    (.error "Exchange executor returned an invalid stream batch contract.")
  assertStreamHealth batch.health
  batch.events.forM assertStreamEvent
  return batch

/-- The loop of `validateBatch`, after `previousCursor`. -/
def validateCursors (nextCursor : ℕ) : ℕ → List (StreamEvent N) → Outcome Unit
  | _, [] => .ok ()
  | previousCursor, event :: rest => do
    throwIf (event.cursor ≤ previousCursor ∨ nextCursor < event.cursor)
      (.error "Exchange stream event cursors are not strictly ordered.")
    validateCursors nextCursor event.cursor rest

def validateBatch (batch : StreamBatch N) : Outcome Unit :=
  validateCursors batch.nextCursor 0 batch.events

def maximumEventJsonBytes : ℕ := 64 * 1024
def maximumRetainedEventsPerAccount : ℕ := 5000

def eventPayload (stringify : Json N → String) (event : StreamEvent N) : Outcome String := do
  let payload := stringify event.payload
  throwIf (maximumEventJsonBytes < byteLength payload.toList)
    (.error "Exchange stream event payload exceeds 64 KiB.")
  return payload

def isStateEvent (event : StreamEvent N) : Bool :=
  ["order", "execution", "position"].contains event.eventType

structure Inserted where
  events : List ExchangeEventRow
  inserted : ℕ
  stateChanges : ℕ

/-- One round of `insertExchangeEvents`; `id` is the round's `randomUUID()`. -/
def insertExchangeEvent (stringify : Json N → String) (account : TradingAccount) (t : Inserted)
    (round : StreamEvent N × String) : Outcome Inserted := do
  let (event, id) := round
  let payload ← eventPayload stringify event
  let row : ExchangeEventRow := ⟨id, account.id, account.exchange, account.mode, event.eventKey,
    event.eventType, event.symbol, event.sequence, event.occurredAt, event.receivedAt, payload⟩
  let conflict := t.events.any (fun other =>
    other.id = id || (other.accountId = account.id && other.eventKey = event.eventKey))
  return if conflict then t
    else ⟨t.events ++ [row], t.inserted + 1, t.stateChanges + if isStateEvent event then 1 else 0⟩

def insertExchangeEvents (stringify : Json N → String) (account : TradingAccount)
    (events : List ExchangeEventRow) (batch : List (StreamEvent N)) (ids : ℕ → String) :
    Outcome Inserted :=
  (batch.mapIdx (fun i event => (event, ids i))).foldlM (insertExchangeEvent stringify account)
    ⟨events, 0, 0⟩

def requiresStateUpdate (existing : Option StreamStateRow) (status : String) (error : Option String)
    (inserted : ℕ) (gap : Bool) (now : ℤ) : Bool :=
  match existing with
  | none => true
  | some row => 0 < inserted || gap || row.status ≠ status || row.lastError ≠ error ||
      5000 ≤ now - row.lastPollAt.getD 0

def mergedState (existing : Option StreamStateRow) (row : StreamStateRow) : StreamStateRow :=
  match existing with
  | none => row
  | some old => { row with
      gapCount := old.gapCount + row.gapCount
      lastEventAt := row.lastEventAt.or old.lastEventAt }

def upsertState (t : Keyed StreamStateRow.accountId) (row : StreamStateRow) :
    Keyed StreamStateRow.accountId :=
  ((t.delete (fun old => old.accountId = row.accountId)).insert
    (mergedState (t.find row.accountId) row)).2

def updateStreamState (t : Keyed StreamStateRow.accountId) (account : TradingAccount)
    (batch : StreamBatch N) (inserted : ℕ) (now : ℤ) : Keyed StreamStateRow.accountId :=
  let existing := t.find account.id
  let status := if batch.gap then "degraded" else batch.health.status
  let error := if batch.gap then
      some "WebSocket event cursor gap detected; REST reconciliation required."
    else batch.health.lastError
  if requiresStateUpdate existing status error inserted batch.gap now then
    upsertState t ⟨account.id, status, batch.nextCursor, if batch.gap then 1 else 0,
      batch.health.lastEventAt, some now, error, now⟩
  else t

def newer (a b : ExchangeEventRow) : Bool :=
  b.receivedAt < a.receivedAt || (b.receivedAt = a.receivedAt && b.id < a.id)

/-- The rows of the account that are not among its newest ones are deleted. -/
def pruneExchangeEvents (accountId : String) (events : List ExchangeEventRow) :
    List ExchangeEventRow :=
  events.filter (fun row => row.accountId ≠ accountId ||
    events.countP (fun other => other.accountId = accountId && newer other row) <
      maximumRetainedEventsPerAccount)

structure Persisted where
  inserted : ℕ
  stateChanges : ℕ
  gap : Bool

def persistExchangeStreamBatch (stringify : Json N → String) (t : Tables) (account : TradingAccount)
    (batch : StreamBatch N) (ids : ℕ → String) (now : ℤ) : Outcome (Persisted × Tables) := do
  throwIf (account.exchange = "paper" ∨ account.mode = "paper")
    (.error "Paper accounts do not accept external exchange stream events.")
  validateBatch batch
  let result ← insertExchangeEvents stringify account t.events batch.events ids
  let streamState := updateStreamState t.streamState account batch result.inserted now
  return (⟨result.inserted, result.stateChanges, batch.gap⟩,
    ⟨pruneExchangeEvents account.id result.events, streamState⟩)

/-- `recordExchangeStreamFailure`, with its bounded message. -/
def recordExchangeStreamFailure (t : Tables) (accountId message : String) (now : ℤ) : Tables :=
  let existing := t.streamState.find accountId
  if existing.any (fun row => row.status = "degraded" && row.lastError = some message &&
      now - row.lastPollAt.getD 0 < 5000) then t
  else
    let row : StreamStateRow := match existing with
      | none => ⟨accountId, "degraded", 0, 0, none, some now, some message, now⟩
      | some old => { old with
          status := "degraded", lastPollAt := some now,
          lastError := some message, updatedAt := now }
    { t with
      streamState := ((t.streamState.delete (fun old => old.accountId = accountId)).insert row).2 }

end TsxCore.ExchangeStreams
