import TsxCore.TradingFxRepository
import TsxCore.TradingMoneyValue

/-!
# Valuing monetary events (`trading_fx_valuation.ts`)

A stable-asset event is valued once, at the conversion of its own time. The work of an account
is replayed in the order of the last attempts; each attempt is one transaction, so an attempt
that throws leaves the tables as they were. `now` stands for the readings of `Date.now()` in one
call. A JSON column is kept as the value its text stands for.
-/

namespace TsxCore.TradingFxValuation

open Outcome TradingRational TradingMoneyValue TradingFxQuotes TradingFxRepository
open TradingFx (fxEvidenceDigest textField numberField nullField)

/-- A row of `trading_money_events`. -/
structure OriginalEvent where
  id : String
  accountId : String
  accountFingerprint : String
  occurredAt : ℤ
  amount : String
  asset : Option String
  content : List (String × Json ℚ)

/-- A row of `trading_money_bindings`. -/
structure MoneyBindingRow where
  accountId : String
  accountFingerprint : String
  reportingCurrency : String
  content : List (String × Json ℚ)

/-- A row of `trading_fx_money_valuations`. -/
structure ValuationRow where
  eventId : String
  accountId : String
  conversionId : String
  reportingCurrency : String
  payload : Json ℚ
  contentHash : String

/-- A row of `trading_fx_valuation_work`. -/
structure WorkRow where
  eventId : String
  accountId : String
  lastAttemptAt : ℤ
  reason : Option String

/-- `conflicts` and `decimalValuations` are the events of `trading_money_conflicts` and of
`trading_money_valuations`. -/
structure Ledger where
  fx : Database
  events : Keyed OriginalEvent.id
  bindings : Keyed (fun row : MoneyBindingRow => (row.accountId, row.accountFingerprint))
  conflicts : List String
  decimalValuations : List String
  valuations : Keyed ValuationRow.eventId
  work : Keyed WorkRow.eventId

structure FxMoneyValuation where
  eventId : String
  accountId : String
  accountFingerprint : String
  eventHash : String
  conversionId : String
  reportingCurrency : String
  value : MoneyValue
  contentHash : String

def stableAssets : List String := ["USD", "USDT", "USDC"]

def hasText (key : String) (row : List (String × Json ℚ)) : Option String → Bool
  | none => nullField key row
  | some value => textField key row = some value

def parseOriginal (row : OriginalEvent) : Outcome (List (String × Json ℚ)) := do
  throwIf (textField "accountId" row.content ≠ some row.accountId ∨
    textField "accountFingerprint" row.content ≠ some row.accountFingerprint ∨
    textField "amount" row.content ≠ some row.amount ∨
    hasText "asset" row.content row.asset = false ∨
    numberField "occurredAt" row.content ≠ some (row.occurredAt : ℚ))
    (invalidFx "MONEY_ORIGINAL_CHANGED")
  return row.content

def originalEvent (eventId : String) (ledger : Ledger) : Outcome OriginalEvent :=
  match ledger.events.find eventId with
  | none => .error (invalidFx "MONEY_EVENT_UNAVAILABLE")
  | some row => do
    let _ ← parseOriginal row
    return row

def accountForOriginal (row : OriginalEvent) (ledger : Ledger) : Outcome FxAccount :=
  match ledger.fx.accounts.find row.accountId with
  | none => .error (invalidFx "ACCOUNT_BINDING_CHANGED")
  | some current => do
    throwIf (current.externalAccountId ≠ some row.accountFingerprint)
      (invalidFx "ACCOUNT_BINDING_CHANGED")
    return ⟨row.accountId, current.exchange, current.mode, current.externalAccountId,
      current.credentialGeneration, profileHashOf current.capabilities⟩

def checkedBinding (account : FxAccount) (row : OriginalEvent) (stored : MoneyBindingRow) :
    Outcome String := do
  throwIf (textField "accountId" stored.content ≠ some account.id ∨
    textField "accountFingerprint" stored.content ≠ some row.accountFingerprint ∨
    textField "profile" stored.content ≠ some "bybit" ∨
    textField "reportingCurrency" stored.content ≠ some stored.reportingCurrency ∨
    textField "source" stored.content ≠ some "bybit-wallet-balance-v1" ∨
    stored.reportingCurrency ∉ stableAssets ∨ row.asset.getD "" ∉ stableAssets ∨
    row.asset = some stored.reportingCurrency ∨ row.amount = "0")
    (invalidFx "MONEY_PAIR_UNSUPPORTED")
  return stored.reportingCurrency

/-- The reporting currency of the account; no other field of the binding is used. -/
def reportingBinding (now : ℤ) (account : FxAccount) (row : OriginalEvent) (ledger : Ledger) :
    Outcome String := do
  let _ ← requireFxAccountContext now account ledger.fx
  throwIf (account.id ≠ row.accountId ∨ account.externalAccountId ≠ some row.accountFingerprint)
    (invalidFx "MONEY_ACCOUNT_MISMATCH")
  match ledger.bindings.find (account.id, row.accountFingerprint) with
  | none => .error (invalidFx "REPORTING_BINDING_UNAVAILABLE")
  | some stored => checkedBinding account row stored

def assertUnconflicted (eventId : String) (ledger : Ledger) : Outcome Unit := do
  throwIf (eventId ∈ ledger.conflicts) (invalidFx "MONEY_EVENT_CONFLICT")
  throwIf (eventId ∈ ledger.decimalValuations) (invalidFx "NATIVE_OR_ALREADY_VALUED")

def precisionText : Precision → String
  | .exactDecimal => "exact_decimal"
  | .exactRational => "exact_rational"
  | .bounded => "bounded"

def nullableJson : Option String → Json ℚ
  | none => .null
  | some value => .string value

def rationalJson : Option ExactRational → Json ℚ
  | none => .null
  | some value =>
    .object [("numerator", .string value.numerator), ("denominator", .string value.denominator)]

def moneyValueJson (value : MoneyValue) : Json ℚ :=
  .object [("lower", .string value.lower), ("upper", .string value.upper),
    ("exact", rationalJson value.exact), ("decimal", nullableJson value.decimal),
    ("precision", .string (precisionText value.precision)), ("terms", .number value.terms)]

/-- The members of `body`. -/
def valuationBody (value : FxMoneyValuation) : List (String × Json ℚ) :=
  [("version", .number 1), ("eventId", .string value.eventId),
    ("accountId", .string value.accountId),
    ("accountFingerprint", .string value.accountFingerprint),
    ("eventHash", .string value.eventHash), ("conversionId", .string value.conversionId),
    ("reportingCurrency", .string value.reportingCurrency), ("value", moneyValueJson value.value),
    ("basis", .string "provider_snapshot_index_asof")]

def valuationJson (value : FxMoneyValuation) : Json ℚ :=
  .object (valuationBody value ++ [("contentHash", .string value.contentHash)])

section Attempts

variable (sha256 : String → String) (now : ℤ)

def convertedAmount (amount : String) (rate : ExactRational) : Outcome MoneyValue := do
  moneyValueFromRational (← multiplyRational (← rationalFromDecimal amount) rate)

def valuation (row : OriginalEvent) (conversionId reportingCurrency : String)
    (rate : ExactRational) : Outcome FxMoneyValuation := do
  let eventHash ← fxEvidenceDigest sha256 "tsx-fx-money-event-v1" (.object (← parseOriginal row))
  let value ← convertedAmount row.amount rate
  let body : FxMoneyValuation := ⟨row.id, row.accountId, row.accountFingerprint, eventHash,
    conversionId, reportingCurrency, value, ""⟩
  let contentHash ← fxEvidenceDigest sha256 "tsx-fx-money-valuation-v1"
    (.object (valuationBody body))
  return { body with contentHash }

/-- `Buffer.byteLength(payload_json)`; the order of the members does not matter for it. -/
def payloadSize (payload : Json ℚ) : ℕ :=
  byteLength (payload.dumps (fun number => JsonText.integer number.num))

def verifyValuation (account : FxAccount) (row : OriginalEvent) (stored : ValuationRow)
    (ledger : Ledger) : Outcome FxMoneyValuation := do
  assertUnconflicted row.id ledger
  let reportingCurrency ← reportingBinding now account row ledger
  let conversion ← readFxConversion sha256 now account stored.conversionId ledger.fx
  throwIf (some conversion.conversion.baseAsset ≠ row.asset ∨
    conversion.conversion.quoteAsset ≠ reportingCurrency ∨
      conversion.conversion.asOf ≠ row.occurredAt)
    (invalidFx "MONEY_CONVERSION_MISMATCH")
  let proof ← valuation sha256 row stored.conversionId reportingCurrency conversion.conversion.rate
  throwIf (16384 ≤ payloadSize stored.payload) (invalidFx "MONEY_PAYLOAD_INVALID")
  throwIf (stored.eventId ≠ row.id ∨ stored.accountId ≠ account.id ∨
    stored.reportingCurrency ≠ proof.reportingCurrency ∨ stored.contentHash ≠ proof.contentHash ∨
    (← fxEvidenceDigest sha256 "tsx-fx-money-valuation-v1" stored.payload) ≠
      (← fxEvidenceDigest sha256 "tsx-fx-money-valuation-v1" (valuationJson proof)))
    (invalidFx "MONEY_VALUATION_CHANGED")
  return proof

def readFxMoneyValuation (eventId : String) (ledger : Ledger) :
    Outcome (Option FxMoneyValuation) :=
  match ledger.valuations.find eventId with
  | none => return none
  | some stored => do
    let row ← originalEvent eventId ledger
    let account ← accountForOriginal row ledger
    return some (← verifyValuation sha256 now account row stored ledger)

/-- The `CHECK` of the column `payload_json`, as the driver reports it. -/
def payloadConstraint : Thrown :=
  ⟨"Error", some "SQLITE_CONSTRAINT",
    "SQLITE_CONSTRAINT: CHECK constraint failed: " ++ "json_valid(payload_json) AND " ++
      "length(CAST(payload_json AS BLOB))<16384 AND instr(payload_json,char(0))=0"⟩

def insertValuation (account : FxAccount) (proof : FxMoneyValuation) (ledger : Ledger) :
    Outcome Ledger := do
  throwIf (16384 ≤ payloadSize (valuationJson proof)) payloadConstraint
  return { ledger with valuations := (ledger.valuations.insert {
    eventId := proof.eventId
    accountId := account.id
    conversionId := proof.conversionId
    reportingCurrency := proof.reportingCurrency
    payload := valuationJson proof
    contentHash := proof.contentHash }).2 }

/-- `if (!row.asset) return invalidFx(…)`. -/
def presentAsset (row : OriginalEvent) : Outcome String :=
  match row.asset.filter (· ≠ "") with
  | none => .error (invalidFx "MONEY_PAIR_UNSUPPORTED")
  | some asset => return asset

def valueUnvalued (account : FxAccount) (row : OriginalEvent) (reportingCurrency : String)
    (ledger : Ledger) : Outcome (FxMoneyValuation × Ledger) := do
  assertUnconflicted row.id ledger
  let asset ← presentAsset row
  let (conversion, fx) ←
    persistFxConversion sha256 now account asset reportingCurrency row.occurredAt ledger.fx
  let proof ← valuation sha256 row conversion.id reportingCurrency conversion.conversion.rate
  let ledger ← insertValuation account proof { ledger with fx }
  match ← readFxMoneyValuation sha256 now row.id ledger with
  | none => .error (invalidFx "MONEY_EVENT_UNAVAILABLE")
  | some persisted => return (persisted, ledger)

def valueFxMoneyEvent (account : FxAccount) (eventId : String) (ledger : Ledger) :
    Outcome (FxMoneyValuation × Ledger) := do
  let row ← originalEvent eventId ledger
  let reportingCurrency ← reportingBinding now account row ledger
  match ledger.valuations.find eventId with
  | some existing => return (← verifyValuation sha256 now account row existing ledger, ledger)
  | none => valueUnvalued sha256 now account row reportingCurrency ledger

def unvalued (account : FxAccount) (ledger : Ledger) (row : OriginalEvent) : Bool :=
  row.accountId = account.id && some row.accountFingerprint = account.externalAccountId &&
    row.asset.any (· ∈ stableAssets) && row.id ∉ ledger.decimalValuations &&
    (ledger.valuations.find row.id).isNone && row.id ∉ ledger.conflicts

/-- `COALESCE(work.last_attempt_at,0)`. -/
def lastAttempt (ledger : Ledger) (eventId : String) : ℤ :=
  ((ledger.work.find eventId).map (·.lastAttemptAt)).getD 0

/-- `ORDER BY COALESCE(work.last_attempt_at,0),event.occurred_at,event.id`. -/
def dueFirst (ledger : Ledger) (a b : OriginalEvent) : Prop :=
  lastAttempt ledger a.id < lastAttempt ledger b.id ∨
    (lastAttempt ledger a.id = lastAttempt ledger b.id ∧
      (a.occurredAt < b.occurredAt ∨ (a.occurredAt = b.occurredAt ∧ a.id ≤ b.id)))

instance (ledger : Ledger) : DecidableRel (dueFirst ledger) :=
  fun _ _ => inferInstanceAs (Decidable (_ ∨ _))

def dueEvents (account : FxAccount) (limit : ℕ) (ledger : Ledger) : List String :=
  (((ledger.events.rows.filter (unvalued account ledger)).insertionSort (dueFirst ledger)).take
    limit).map (·.id)

/-- `error.message.startsWith('FX_')`. -/
def isFxError (error : Thrown) : Bool := "FX_".toList.isPrefixOf error.message.toList

/-- The `INSERT INTO trading_fx_valuation_work … ON CONFLICT(event_id) DO UPDATE`. -/
def recordAttempt (account : FxAccount) (eventId : String) (reason : Option String)
    (ledger : Ledger) : Ledger :=
  { ledger with work := ledger.work.upsert ⟨eventId, account.id, now, reason⟩ }

/-- What a call leaves: the events it tried, with the tables that each of them met. -/
structure Replay where
  ledger : Ledger
  attempts : List (String × Ledger)
  unresolved : ℕ
  error : Option Thrown

/-- The loop of the replay; an error that is not about the evidence ends it. -/
def replay (account : FxAccount) : List String → Ledger → Replay
  | [], ledger => ⟨ledger, [], 0, none⟩
  | eventId :: rest, ledger =>
    match valueFxMoneyEvent sha256 now account eventId ledger with
    | .ok (_, valued) =>
      let later := replay account rest (recordAttempt now account eventId none valued)
      { later with attempts := (eventId, ledger) :: later.attempts }
    | .error error =>
      if isFxError error then
        let later := replay account rest
          (recordAttempt now account eventId (some error.message) ledger)
        { later with
          attempts := (eventId, ledger) :: later.attempts
          unresolved := later.unresolved + 1 }
      else ⟨ledger, [(eventId, ledger)], 0, some error⟩

def valueFxAccountMoney (account : FxAccount) (limit : ℤ) (ledger : Ledger) : Replay :=
  if limit < 1 ∨ 1000 < limit then ⟨ledger, [], 0, some (invalidFx "MONEY_WORK_LIMIT")⟩
  else match requireFxAccountContext now account ledger.fx with
    | .error error => ⟨ledger, [], 0, some error⟩
    | .ok _ => replay sha256 now account (dueEvents account limit.toNat ledger) ledger

end Attempts

end TsxCore.TradingFxValuation
