import TsxCore.ExecutorEntryFences
import TsxCore.TradingFxContract

/-!
# FX receipts of the executor (`fx_evidence.py`)

A document is a parsed JSON value with integers told apart from floats. `_binding`
reads the SDK and its installed version, the route it would use and the reviewed
profile; `now_ms()` is read three times. `floatRepr` stands for `float.__repr__`,
which no accepted document reaches, and `sha256` for `hexdigest` of a text.
-/

namespace TsxCore.Executor

open Outcome
open TradingRecoveryScheduleContract (FxLegId isControl)

section Canonical

def fxEvidenceError : Thrown :=
  ⟨"FxEvidenceError", none,
    "FX source omitted or contradicted its bounded original evidence."⟩

/-- `_require(condition)`. -/
def requireFx (condition : Prop) [Decidable condition] : Outcome Unit :=
  throwIf (¬ condition) fxEvidenceError

/-- `remaining[0] -= 1` and the check behind it. -/
def spendToken (depth : ℕ) (remaining : ℤ) : Outcome ℤ := do
  requireFx (depth ≤ 12 ∧ 0 ≤ remaining - 1)
  return remaining - 1

/-- `_json_value(text, …)` of a text. -/
def jsonText (value : String) (depth : ℕ) (remaining : ℤ) : Outcome ℤ := do
  let remaining ← spendToken depth remaining
  requireFx (byteLength value.toList < 32768)
  return remaining

mutual

def jsonValue : Json Number → ℕ → ℤ → Outcome ℤ
  | .null, depth, remaining => spendToken depth remaining
  | .bool _, depth, remaining => spendToken depth remaining
  | .number (.int value), depth, remaining => do
    let remaining ← spendToken depth remaining
    requireFx (|value| ≤ 9007199254740991)
    return remaining
  | .number (.float _), depth, remaining => do
    -- A float is neither a scalar nor a list, and `type(value) is dict` fails.
    let _ ← spendToken depth remaining
    throw fxEvidenceError
  | .string value, depth, remaining => jsonText value depth remaining
  | .array items, depth, remaining => do
    jsonItems items (depth + 1) (← spendToken depth remaining)
  | .object members, depth, remaining => do
    jsonMembers members (depth + 1) (← spendToken depth remaining)

def jsonItems : List (Json Number) → ℕ → ℤ → Outcome ℤ
  | [], _, remaining => return remaining
  | item :: rest, depth, remaining => do
    jsonItems rest depth (← jsonValue item depth remaining)

def jsonMembers : List (String × Json Number) → ℕ → ℤ → Outcome ℤ
  | [], _, remaining => return remaining
  | (key, value) :: rest, depth, remaining => do
    requireFx (key.toList.length ≤ 256 ∧ key.toList.all (fun c => !isControl c) = true)
    let remaining ← jsonText key depth remaining
    jsonMembers rest depth (← jsonValue value depth remaining)

end

def numberText (floatRepr : ℚ → List Char) : Number → List Char
  | .int value => JsonText.integer value
  | .float value => floatRepr value

/-- `_canonical(value, tokens)`. -/
def canonicalText (floatRepr : ℚ → List Char) (value : Json Number) (tokens : ℕ) :
    Outcome (List Char) := do
  let _ ← jsonValue value 0 tokens
  return value.dumps (numberText floatRepr)

def fxHash (sha256 : String → String) (floatRepr : ℚ → List Char) (domain : String)
    (value : Json Number) : Outcome String := do
  return sha256 (domain ++ "\n" ++ .ofList (← canonicalText floatRepr value 512))

end Canonical

section Receipts

def unsupportedFx (message : String) : Thrown := ⟨"UnsupportedFxEvidence", none, message⟩

structure Profile where
  profileVersion : ℤ
  /-- `profile_hash(profile)`. -/
  hash : String

/-- What `_binding` reads of the SDK. -/
structure Sdk where
  id : Option String
  /-- `package_version('ccxt')`. -/
  version : String
  /-- The expanded public route, when the SDK has one. -/
  route : Option String
  /-- `profile_for('bybit')`. -/
  profile : Option Profile

/-- `ORIGINS`. -/
def origins : String → Option String
  | "live" => some "https://api.bybit.com"
  | "testnet" => some "https://api-testnet.bybit.com"
  | _ => none

structure Binding where
  mode : String
  origin : String
  profileVersion : ℤ
  profileHash : String
  deriving DecidableEq

def binding (sdk : Sdk) (mode : String) : Outcome Binding := do
  throwIf (sdk.id ≠ some "bybit" ∨ origins mode = none ∨ sdk.version ≠ "4.5.75")
    (unsupportedFx "FX provider, environment, or SDK is unreviewed.")
  match sdk.route, sdk.profile with
  | none, _ => .error (unsupportedFx "FX SDK public route is unavailable.")
  | some _, none => .error (unsupportedFx "FX origin does not match the actual SDK route.")
  | some origin, some profile => do
    throwIf (some origin ≠ origins mode ∨ profile.profileVersion ≠ 1)
      (unsupportedFx "FX origin does not match the actual SDK route.")
    return ⟨mode, origin, profile.profileVersion, profile.hash⟩

def Binding.members (binding : Binding) : List (String × Json Number) :=
  [("version", .number (.int 1)), ("provider", .string "bybit"), ("mode", .string binding.mode),
    ("origin", .string binding.origin), ("endpoint", .string "/v5/market/tickers"),
    ("source", .string "bybit-v5-rest-index-snapshot-v1"), ("ccxtVersion", .string "4.5.75"),
    ("profileVersion", .number (.int binding.profileVersion)),
    ("profileHash", .string binding.profileHash)]

structure Leg where
  category : String
  symbol : String
  field : String
  routeId : String

/-- `LEGS`. -/
def legs : FxLegId → Leg
  | .btcUsd => ⟨"inverse", "BTCUSD", "indexPrice", "bybit:usdt-usd-index-ratio:v1"⟩
  | .btcUsdt => ⟨"linear", "BTCUSDT", "indexPrice", "bybit:usdt-usd-index-ratio:v1"⟩
  | .usdcUsd => ⟨"spot", "USDCUSDT", "usdIndexPrice", "bybit:usdc-usd-index:v1"⟩

/-- The clock readings around a provider call and in its validation. -/
structure Readings where
  started : ℤ
  completed : ℤ
  now : ℤ

def safeTime (value : ℤ) : Prop := 0 ≤ value ∧ value ≤ 9007199254740991
  deriving Decidable

def record : Json Number → Outcome (List (String × Json Number))
  | .object members => .ok members
  | _ => .error fxEvidenceError

def onlyRecord : Json Number → Outcome (List (String × Json Number))
  | .array [row] => record row
  | _ => .error fxEvidenceError

/-- `members.get(key)` of an integer. -/
def intMember (key : String) (members : List (String × Json Number)) : Outcome ℤ :=
  match ((Json.lookup key members).bind Json.number?).bind Number.int? with
  | none => .error fxEvidenceError
  | some value => .ok value

def textMember (key : String) (members : List (String × Json Number)) : Outcome String :=
  match (Json.lookup key members).bind Json.text? with
  | none => .error fxEvidenceError
  | some value => .ok value

def member (key : String) (members : List (String × Json Number)) : Json Number :=
  (Json.lookup key members).getD .null

/-- `_validate_times`, with `raw['time']` as its result. -/
def validateFxTimes (members : List (String × Json Number)) (readings : Readings) :
    Outcome ℤ := do
  requireFx (safeTime readings.started ∧ safeTime readings.completed ∧
    0 ≤ readings.completed - readings.started ∧ readings.completed - readings.started ≤ 10000)
  let stamp ← intMember "time" members
  requireFx (safeTime stamp ∧ readings.started - 1000 ≤ stamp ∧ stamp ≤ readings.completed + 1000)
  requireFx (readings.completed ≤ readings.now + 1000)
  return stamp

/-- `_validate_envelope`: the provider time and the quoted value. -/
def validateFxEnvelope (floatRepr : ℚ → List Char) (raw : Json Number) (leg : FxLegId)
    (readings : Readings) : Outcome (ℤ × String) := do
  let members ← record raw
  requireFx (byteLength (← canonicalText floatRepr raw 256) < 65536)
  requireFx ((← intMember "retCode" members) = 0)
  let stamp ← validateFxTimes members readings
  let result ← record (member "result" members)
  requireFx ((← textMember "category" result) = (legs leg).category)
  let row ← onlyRecord (member "list" result)
  requireFx ((← textMember "symbol" row) = (legs leg).symbol)
  let value ← textMember (legs leg).field row
  requireFx (TradingDecimal.decimalPattern value.toList = true)
  requireFx (value.toList.any (fun c => c ≠ '0' ∧ c ≠ '.') = true)
  return (stamp, value)

/-- One leg: the SDK before and after the call, and what the call returned. -/
structure LegRead where
  before : Sdk
  after : Sdk
  readings : Readings
  response : Outcome (Json Number)

def receiptBody (binding : Binding) (leg : FxLegId) (readings : Readings) (stamp : ℤ)
    (value : String) (raw : Json Number) (envelopeHash : String) : List (String × Json Number) :=
  binding.members ++
    [("legId", .string (TradingFx.legText leg)), ("routeId", .string (legs leg).routeId),
      ("category", .string (legs leg).category), ("symbol", .string (legs leg).symbol),
      ("field", .string (legs leg).field), ("value", .string value), ("providerQuoteAt", .null),
      ("providerResponseAt", .number (.int stamp)),
      ("timeBasis", .string "provider_snapshot_observation"),
      ("startedAt", .number (.int readings.started)),
      ("completedAt", .number (.int readings.completed)), ("envelope", raw),
      ("envelopeHash", .string envelopeHash)]

def readLeg (sha256 : String → String) (floatRepr : ℚ → List Char) (mode : String)
    (leg : FxLegId) (read : LegRead) : Outcome (Json Number) := do
  let bound ← binding read.before mode
  let raw ← read.response
  throwIf ((← binding read.after mode) ≠ bound)
    (unsupportedFx "FX source binding changed during the read.")
  let (stamp, value) ← validateFxEnvelope floatRepr raw leg read.readings
  let envelopeHash ← fxHash sha256 floatRepr "bybit-fx-envelope-v1" raw
  let receipt := receiptBody bound leg read.readings stamp value raw envelopeHash
  let receiptHash ← fxHash sha256 floatRepr "bybit-fx-receipt-v1" (.object receipt)
  return .object (receipt ++ [("receiptHash", .string receiptHash)])

end Receipts

def Number.value : Number → ℚ
  | .int value => value
  | .float value => value

def sent (document : Json Number) : Json ℚ := document.map Number.value

end TsxCore.Executor
