import TsxCore.CanonicalJson
import TsxCore.TradingRecoveryScheduleContract
import TsxCore.Utf8Order

/-!
# FX leg receipts (`trading_fx_contract.ts`)

A receipt is a parsed JSON value; `validateFxLegReceipt` returns its members. The
canonical encoder spends one token of a shared budget for every value and every key
and writes the members of an object in the byte order of their keys. `sha256` stands
for the digest of a text, `now` for `Date.now()`.
-/

namespace TsxCore.TradingFx

open Outcome
open TradingRecoveryScheduleContract (FxLegId isControl digestPattern)

def invalidFx : Thrown := ⟨"FxEvidenceError", some "FX_EVIDENCE_INVALID", "FX_EVIDENCE_INVALID"⟩

section Canonical

/-- `budget.remaining -= 1` and the checks behind it. -/
def spend (depth : ℕ) (remaining : ℤ) : Outcome ℤ := do
  throwIf (12 < depth ∨ remaining - 1 < 0) invalidFx
  return remaining - 1

def canonicalText (value : String) (depth : ℕ) (remaining : ℤ) : Outcome (List Char × ℤ) := do
  let remaining ← spend depth remaining
  throwIf (32768 ≤ byteLength value.toList) invalidFx
  return (JsonText.string value, remaining)

/-- The members of an object in the given order, each with the encoder of its value. -/
def canonicalEntries (depth : ℕ) :
    List (String × (ℤ → Outcome (List Char × ℤ))) → ℤ → Outcome (List (List Char) × ℤ)
  | [], remaining => return ([], remaining)
  | (key, encode) :: rest, remaining => do
    throwIf (256 < key.toList.length ∨ key.toList.any isControl = true) invalidFx
    let (name, remaining) ← canonicalText key depth remaining
    let (text, remaining) ← encode remaining
    let (texts, remaining) ← canonicalEntries depth rest remaining
    return ((name ++ ':' :: text) :: texts, remaining)

/-- `Object.keys(row).sort((a, b) => Buffer.compare(Buffer.from(a), Buffer.from(b)))`. -/
def byBytes {α : Type} (members : List (String × α)) : List (String × α) :=
  members.insertionSort (fun a b => Utf8.bytes a.1 ≤ Utf8.bytes b.1)

mutual

def canonical : Json ℚ → ℕ → ℤ → Outcome (List Char × ℤ)
  | .null, depth, remaining => do
    return ("null".toList, ← spend depth remaining)
  | .bool value, depth, remaining => do
    return (if value then "true".toList else "false".toList, ← spend depth remaining)
  | .number value, depth, remaining => do
    let remaining ← spend depth remaining
    throwIf (¬ (value.den = 1 ∧ isSafeInteger value.num)) invalidFx
    return (JsonText.integer value.num, remaining)
  | .string value, depth, remaining => canonicalText value depth remaining
  | .array items, depth, remaining => do
    let remaining ← spend depth remaining
    throwIf (remaining < items.length) invalidFx
    let (texts, remaining) ← canonicalItems items (depth + 1) remaining
    return (JsonText.array texts, remaining)
  | .object members, depth, remaining => do
    let remaining ← spend depth remaining
    let (texts, remaining) ←
      canonicalEntries (depth + 1) (byBytes (canonicalMembers members (depth + 1))) remaining
    return ('\x7b' :: JsonText.joined texts ++ ['\x7d'], remaining)

def canonicalItems : List (Json ℚ) → ℕ → ℤ → Outcome (List (List Char) × ℤ)
  | [], _, remaining => return ([], remaining)
  | item :: rest, depth, remaining => do
    let (text, remaining) ← canonical item depth remaining
    let (texts, remaining) ← canonicalItems rest depth remaining
    return (text :: texts, remaining)

def canonicalMembers :
    List (String × Json ℚ) → ℕ → List (String × (ℤ → Outcome (List Char × ℤ)))
  | [], _ => []
  | (key, value) :: rest, depth =>
    (key, fun remaining => canonical value depth remaining) :: canonicalMembers rest depth

end

def fxEvidenceDigest (sha256 : String → String) (domain : String) (value : Json ℚ) :
    Outcome String := do
  let encoded ← canonical value 0 (if domain = "bybit-fx-envelope-v1" then 256 else 512)
  throwIf ((if domain = "bybit-fx-envelope-v1" then 65536 else 131072) ≤ byteLength encoded.1)
    invalidFx
  return sha256 (domain ++ "\n" ++ .ofList encoded.1)

end Canonical

section Receipts

structure FxContext where
  mode : String
  profileHash : String

structure FxDefinition where
  routeId : String
  category : String
  symbol : String
  field : String
  deriving DecidableEq

def legText : FxLegId → String
  | .btcUsd => "bybit:btc-usd-index:v1"
  | .btcUsdt => "bybit:btc-usdt-index:v1"
  | .usdcUsd => "bybit:usdc-usd-index:v1"

def definitions : FxLegId → FxDefinition
  | .btcUsd => ⟨"bybit:usdt-usd-index-ratio:v1", "inverse", "BTCUSD", "indexPrice"⟩
  | .btcUsdt => ⟨"bybit:usdt-usd-index-ratio:v1", "linear", "BTCUSDT", "indexPrice"⟩
  | .usdcUsd => ⟨"bybit:usdc-usd-index:v1", "spot", "USDCUSDT", "usdIndexPrice"⟩

/-- `DEFINITIONS[legId]`. -/
def definitionOf (legId : String) : Option FxDefinition :=
  ([FxLegId.btcUsd, .btcUsdt, .usdcUsd].find? (fun leg => legText leg = legId)).map definitions

/-- `keys.sort(codeUnitOrder).join(',')`. -/
def joinedKeys (keys : List String) : String :=
  ",".intercalate (keys.insertionSort (fun a b => codeUnits a ≤ codeUnits b))

/-- `SHAPE`. -/
def receiptShape : String :=
  joinedKeys ["version", "provider", "mode", "origin", "endpoint", "source", "legId", "routeId",
    "ccxtVersion", "profileVersion", "profileHash", "category", "symbol", "field", "value",
    "providerQuoteAt", "providerResponseAt", "timeBasis", "startedAt", "completedAt", "envelope",
    "envelopeHash", "receiptHash"]

def object : Json ℚ → Outcome (List (String × Json ℚ))
  | .object members => .ok members
  | _ => .error invalidFx

def field (key : String) (row : List (String × Json ℚ)) : Json ℚ :=
  (Json.lookup key row).getD .null

def textField (key : String) (row : List (String × Json ℚ)) : Option String :=
  (Json.lookup key row).bind Json.text?

def numberField (key : String) (row : List (String × Json ℚ)) : Option ℚ :=
  (Json.lookup key row).bind Json.number?

/-- The field is present and `null`. -/
def nullField (key : String) (row : List (String × Json ℚ)) : Bool :=
  match Json.lookup key row with
  | some .null => true
  | _ => false

/-- `timestamp(row[key])`. -/
def timestamp (key : String) (row : List (String × Json ℚ)) : Outcome ℤ :=
  match numberField key row with
  | none => .error invalidFx
  | some value => do
    throwIf (¬ (value.den = 1 ∧ isSafeInteger value.num) ∨ value < 0) invalidFx
    return value.num

def validateTimes (now : ℤ) (row : List (String × Json ℚ)) : Outcome Unit := do
  throwIf (nullField "providerQuoteAt" row = false ∨
    textField "timeBasis" row ≠ some "provider_snapshot_observation") invalidFx
  let startedAt ← timestamp "startedAt" row
  let completedAt ← timestamp "completedAt" row
  let providerResponseAt ← timestamp "providerResponseAt" row
  throwIf (completedAt < startedAt ∨ 10000 < completedAt - startedAt ∨ now + 1000 < completedAt ∨
    providerResponseAt < startedAt - 1000 ∨ completedAt + 1000 < providerResponseAt) invalidFx

def validateProfile (context : FxContext) (row : List (String × Json ℚ)) : Outcome Unit := do
  throwIf (numberField "version" row ≠ some 1 ∨ textField "provider" row ≠ some "bybit" ∨
    textField "source" row ≠ some "bybit-v5-rest-index-snapshot-v1" ∨
    textField "endpoint" row ≠ some "/v5/market/tickers" ∨
    textField "ccxtVersion" row ≠ some "4.5.75" ∨ numberField "profileVersion" row ≠ some 1)
    invalidFx
  let mode := textField "mode" row
  throwIf ((mode ≠ some "live" ∧ mode ≠ some "testnet") ∨ mode ≠ some context.mode ∨
    textField "profileHash" row ≠ some context.profileHash ∨
    (textField "profileHash" row).all digestPattern = false ∨
    textField "origin" row ≠
      some (if mode = some "live" then "https://api.bybit.com"
        else "https://api-testnet.bybit.com"))
    invalidFx

/-- `decimal(value, { positive: true })` does not throw. -/
def positiveDecimal (value : String) : Bool :=
  match TradingDecimal.decimal value true with
  | .ok _ => true
  | .error _ => false

def validateLeg (row : List (String × Json ℚ)) : Outcome Unit :=
  match (textField "legId" row).bind definitionOf, textField "value" row with
  | some definition, some value => do
    throwIf (textField "routeId" row ≠ some definition.routeId ∨
      textField "category" row ≠ some definition.category ∨
      textField "symbol" row ≠ some definition.symbol ∨
      textField "field" row ≠ some definition.field) invalidFx
    throwIf (hasSpace value = true ∨ positiveDecimal value = false) invalidFx
  | _, _ => .error invalidFx

/-- `result.list[0]` of a list with one row. -/
def onlyRow : Json ℚ → Outcome (List (String × Json ℚ))
  | .array [row] => object row
  | _ => .error invalidFx

def validateEnvelope (sha256 : String → String) (row : List (String × Json ℚ)) :
    Outcome Unit := do
  let envelope ← object (field "envelope" row)
  let result ← object (field "result" envelope)
  throwIf (numberField "retCode" envelope ≠ some 0 ∨
    numberField "time" envelope ≠ numberField "providerResponseAt" row ∨
    textField "category" result ≠ textField "category" row) invalidFx
  let ticker ← onlyRow (field "list" result)
  throwIf (textField "symbol" ticker ≠ textField "symbol" row ∨
    textField ((textField "field" row).getD "") ticker ≠ textField "value" row) invalidFx
  let digest ← fxEvidenceDigest sha256 "bybit-fx-envelope-v1" (.object envelope)
  throwIf (textField "envelopeHash" row ≠ some digest) invalidFx

/-- `const { receiptHash, ...original } = row`. -/
def original (row : List (String × Json ℚ)) : List (String × Json ℚ) :=
  row.filter (·.1 ≠ "receiptHash")

def validateFxLegReceipt (sha256 : String → String) (now : ℤ) (value : Json ℚ)
    (context : FxContext) : Outcome (List (String × Json ℚ)) := do
  let row ← object value
  throwIf (joinedKeys (row.map (·.1)) ≠ receiptShape) invalidFx
  validateProfile context row
  validateLeg row
  validateTimes now row
  validateEnvelope sha256 row
  let digest ← fxEvidenceDigest sha256 "bybit-fx-receipt-v1" (.object (original row))
  throwIf (textField "receiptHash" row ≠ some digest) invalidFx
  return row

end Receipts

end TsxCore.TradingFx
