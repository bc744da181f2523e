import TsxCore.ExchangeHistoryContract

/-!
# Account-log pages and checkpoints (`trading_account_log_contract.ts`)

The validators take typed rows, so the checks for objects, arrays and the members
of an enumeration have no counterpart. A record is the list of its entries. The
clock is read once for each validation, and `digest` is the hexadecimal SHA-256
hash of a text.
-/

namespace TsxCore.AccountLog

open Outcome JsonText
open ExchangeHistory (hasControl nullableNumber)
open TradingRecoveryScheduleContract (digestPattern)

def day : ℤ := 86400000

def dayStart (now : ℤ) : ℤ := now / day * day

/-- The fields that `binding` checks. -/
structure SourceBinding where
  version : ℤ
  sourceNamespace : String
  filterHash : String
  accountFingerprint : String
  credentialGeneration : String
  deriving DecidableEq

structure AccountLogAudit where
  windowSince : ℤ
  windowUntil : Option ℤ
  cursor : Option String
  completedAt : ℤ
  deriving DecidableEq

structure AccountLogCheckpoint extends SourceBinding where
  revision : ℤ
  requiredSince : ℤ
  windowSince : ℤ
  windowUntil : Option ℤ
  cursor : Option String
  scannedThrough : Option ℤ
  nextReadAt : ℤ
  lastServedAt : ℤ
  providerAccountUid : Option String
  reason : Option String
  audit : Option AccountLogAudit
  deriving DecidableEq

inductive Lane
  | forward
  | audit
  deriving DecidableEq

def Lane.text : Lane → String
  | .forward => "forward"
  | .audit => "audit"

abbrev AccountLogRecord := List (String × Option String)

structure AccountLogPageReceipt extends SourceBinding where
  since : ℤ
  until_ : ℤ
  cursor : Option String
  nextCursor : Option String
  startedAt : ℤ
  completedAt : ℤ
  providerResponseAt : Option ℤ
  providerAccountUid : Option String
  exhausted : Bool
  records : List AccountLogRecord
  lane : Option Lane
  deriving DecidableEq

inductive ReadSkipped
  | budgetExhausted
  | transient
  | unsupported
  | invalidEvidence
  deriving DecidableEq

structure AccountLogProgress where
  readSkipped : Option ReadSkipped
  baseRevision : ℤ
  calls : ℤ
  checkpoint : AccountLogCheckpoint
  receipts : List AccountLogPageReceipt
  deriving DecidableEq

/-- A row of `SPECS` with its row of `ACCOUNT_LOG_FIELDS`; the filter is its JSON text. -/
structure SourceSpec where
  exchange : String
  sourceNamespace : String
  filter : List Char
  fields : List String

def bybitSpec : SourceSpec where
  exchange := "bybit"
  sourceNamespace := "bybit_uta_transaction_log_scope_v1"
  filter := object [("accountType", string "UNIFIED")]
  fields := ["id", "transactionTime", "type", "subType", "transSubType", "category", "symbol",
    "side", "currency", "funding", "cashFlow", "change", "fee", "tradeId", "orderId", "orderLinkId",
    "qty", "size", "tradePrice", "feeRate", "bonusChange", "cashBalance"]

def hyperliquidSpec : SourceSpec where
  exchange := "hyperliquid"
  sourceNamespace := "hyperliquid_user_funding_v1"
  filter := object [("type", string "userFunding")]
  fields := ["hash", "time", "coin", "type", "usdc", "szi", "fundingRate", "nSamples"]

def krakenSpec : SourceSpec where
  exchange := "krakenfutures"
  sourceNamespace := "kraken_account_log_v3"
  filter := object [("version", string "v3"), ("sort", string "asc")]
  fields := ["id", "date", "asset", "collateral", "contract", "info", "booking_uid",
    "margin_account", "execution", "fee", "realized_funding", "realized_pnl", "old_balance",
    "new_balance", "funding_rate", "mark_price", "trade_price", "exchange_rate",
    "exchange_rate_from", "conversion_fee", "conversion_spread_percentage", "liquidation_fee"]

def specs : List SourceSpec := [bybitSpec, hyperliquidSpec, krakenSpec]

def AccountLogAudit.json (row : AccountLogAudit) : List Char :=
  object [("windowSince", integer row.windowSince), ("windowUntil", nullableNumber row.windowUntil),
    ("cursor", nullable row.cursor), ("completedAt", integer row.completedAt)]

def SourceBinding.members (row : SourceBinding) : List (String × List Char) :=
  [("version", integer row.version), ("namespace", string row.sourceNamespace),
    ("filterHash", string row.filterHash), ("accountFingerprint", string row.accountFingerprint),
    ("credentialGeneration", string row.credentialGeneration)]

def AccountLogCheckpoint.json (row : AccountLogCheckpoint) : List Char :=
  object (row.members ++
    [("revision", integer row.revision), ("requiredSince", integer row.requiredSince),
      ("windowSince", integer row.windowSince), ("windowUntil", nullableNumber row.windowUntil),
      ("cursor", nullable row.cursor), ("scannedThrough", nullableNumber row.scannedThrough),
      ("nextReadAt", integer row.nextReadAt), ("lastServedAt", integer row.lastServedAt),
      ("providerAccountUid", nullable row.providerAccountUid), ("reason", nullable row.reason)] ++
    (row.audit.map (fun audit => ("audit", audit.json))).toList)

def AccountLogPageReceipt.json (row : AccountLogPageReceipt) : List Char :=
  object (row.members ++
    [("since", integer row.since), ("until", integer row.until_), ("cursor", nullable row.cursor),
      ("nextCursor", nullable row.nextCursor), ("startedAt", integer row.startedAt),
      ("completedAt", integer row.completedAt),
      ("providerResponseAt", nullableNumber row.providerResponseAt),
      ("providerAccountUid", nullable row.providerAccountUid),
      ("exhausted", (toString row.exhausted).toList),
      ("records", array (row.records.map
        (fun record => object (record.map (fun entry => (entry.1, nullable entry.2))))))] ++
    (row.lane.map (fun lane => ("lane", string lane.text))).toList)

def logInteger (value : ℤ) : Outcome Unit :=
  throwIf (¬ isSafeInteger value ∨ value < 0) (.error "Invalid account-log timestamp/revision.")

/-- `token(value, true, maximum)`. -/
def logToken (value : Option String) (maximum : ℕ) : Outcome Unit :=
  throwIf (value.any (fun text => text = "" ∨ maximum < utf16Length text ∨ hasControl text))
    (.error "Invalid account-log token.")

def window (since until_ now : ℤ) : Outcome Unit :=
  throwIf (until_ < since ∨ 7 * day < until_ - since ∨ now + 1000 < until_)
    (.error "Invalid pinned account-log window.")

def validateAudit (row : AccountLogAudit) (requiredSince now : ℤ) : Outcome Unit := do
  logInteger row.windowSince
  row.windowUntil.forM logInteger
  logToken row.cursor 4096
  logInteger row.completedAt
  throwIf (row.windowSince < requiredSince ∨ now + 1000 < row.windowSince ∨
      (row.cursor ≠ none ∧ row.windowUntil = none))
    (.error "Historical audit lost its original obligation.")
  row.windowUntil.forM (window row.windowSince · now)

section Validators

variable (digest : List Char → String)

def accountLogSource (exchange : String) : Option (String × String) :=
  (specs.find? (·.exchange = exchange)).map (fun spec => (spec.sourceNamespace, digest spec.filter))

def binding (row : SourceBinding) : Outcome SourceSpec :=
  match specs.find? (·.sourceNamespace = row.sourceNamespace) with
  | none => .error (.error "Account-log source/filter is not allowlisted.")
  | some spec => do
    throwIf (row.version ≠ 1 ∨ row.filterHash ≠ digest spec.filter)
      (.error "Account-log source/filter is not allowlisted.")
    throwIf (digestPattern row.accountFingerprint = false)
      (.error "Account-log binding is unverified.")
    throwIf (digestPattern row.credentialGeneration = false)
      (.error "Account-log binding is unverified.")
    return spec

def validateAccountLogCheckpoint (row : AccountLogCheckpoint) (now : ℤ) :
    Outcome AccountLogCheckpoint := do
  let _ ← binding digest row.toSourceBinding
  logInteger row.revision
  logInteger row.requiredSince
  logInteger row.windowSince
  row.windowUntil.forM logInteger
  logToken row.cursor 4096
  row.scannedThrough.forM logInteger
  logInteger row.nextReadAt
  logInteger row.lastServedAt
  logToken row.providerAccountUid 256
  logToken row.reason 80
  throwIf (row.windowSince < row.requiredSince ∨ (row.cursor ≠ none ∧ row.windowUntil = none))
    (.error "Account-log checkpoint lost its window.")
  row.windowUntil.forM (window row.windowSince · now)
  throwIf (now + 1000 < row.windowSince ∨ now + 1000 < row.scannedThrough.getD 0)
    (.error "Account-log checkpoint is in the future.")
  row.audit.forM (validateAudit · row.requiredSince now)
  throwIf (8192 ≤ byteLength row.json)
    (.error "Account-log checkpoint exceeds its storage budget.")
  return row

/-- One entry of `record`. -/
def recordEntry (fields : List String) (entry : String × Option String) : Outcome Unit := do
  throwIf (entry.1 ∉ fields) (.error "Unallowlisted account-log economic field.")
  throwIf (entry.2.any (fun item => 256 < utf16Length item ∨ hasControl item))
    (.error "Invalid account-log economics.")

def validateAccountLogReceipt (row : AccountLogPageReceipt) (now : ℤ) :
    Outcome AccountLogPageReceipt := do
  let spec ← binding digest row.toSourceBinding
  throwIf (5000 < row.records.length) (.error "Invalid account-log collection/EOF.")
  logInteger row.since
  logInteger row.until_
  logToken row.cursor 4096
  logToken row.nextCursor 4096
  logInteger row.startedAt
  logInteger row.completedAt
  row.providerResponseAt.forM logInteger
  logToken row.providerAccountUid 256
  row.records.forM (fun record => record.forM (recordEntry spec.fields))
  window row.since row.until_ now
  throwIf (row.completedAt < row.startedAt ∨ row.completedAt + 1000 < row.until_ ∨
      (row.exhausted = true ∧ row.nextCursor ≠ none))
    (.error "Invalid account-log source observation.")
  return row

def skippedLogProgress (row : AccountLogProgress) : Outcome AccountLogProgress := do
  throwIf (row.checkpoint.revision ≠ row.baseRevision ∨ row.calls ≠ 0 ∨ row.receipts.length ≠ 0)
    (.error "Invalid skipped account-log read.")
  return row

def changesSource (checkpoint : AccountLogCheckpoint) (item : AccountLogPageReceipt) : Bool :=
  item.sourceNamespace ≠ checkpoint.sourceNamespace ∨ item.filterHash ≠ checkpoint.filterHash ∨
    item.accountFingerprint ≠ checkpoint.accountFingerprint ∨
    item.credentialGeneration ≠ checkpoint.credentialGeneration

def validateAccountLogProgress (row : AccountLogProgress) (now : ℤ) :
    Outcome AccountLogProgress := do
  let checkpoint ← validateAccountLogCheckpoint digest row.checkpoint now
  logInteger row.baseRevision
  logInteger row.calls
  if row.readSkipped ≠ none then skippedLogProgress row
  else do
    throwIf (checkpoint.revision ≠ row.baseRevision + 1 ∨ 5 < row.calls ∨
        row.calls < row.receipts.length)
      (.error "Invalid account-log progress revision/budget.")
    let receipts ← row.receipts.mapM (validateAccountLogReceipt digest · now)
    throwIf (receipts.any (changesSource checkpoint))
      (.error "Account-log progress changed its source binding.")
    return { row with checkpoint := checkpoint, receipts := receipts }

end Validators

def assertSkippedAccountLogUnchanged (previous : AccountLogCheckpoint)
    (progress : AccountLogProgress) : Outcome Unit :=
  throwIf (progress.readSkipped ≠ none ∧ previous ≠ progress.checkpoint)
    (.error "Skipped account-log read changed its original checkpoint.")

end TsxCore.AccountLog
