import TsxCore.FirstWindow
import TsxCore.TradingFxContract
import TsxCore.TradingFxQuotes

/-!
# Deriving a conversion (`trading_fx_quotes.ts`)

`deriveFxConversion` validates the receipts again, keeps one observation for each leg
and response time, and selects the first complete one-second window of the required
legs. `now` stands for the reading of `Date.now()` behind `validateFxLegReceipt`.
-/

namespace TsxCore.TradingFxQuotes

open Outcome TradingDecimal TradingRational
open TradingFx (FxContext legText textField numberField fxEvidenceDigest validateFxLegReceipt)

/-- A receipt as `validateFxLegReceipt` returns it. -/
structure FxLegReceipt where
  members : List (String × Json ℚ)

namespace FxLegReceipt

variable (row : FxLegReceipt)

def json : Json ℚ := .object row.members

def text (key : String) : String := (textField key row.members).getD ""

def integer (key : String) : ℤ := ((numberField key row.members).getD 0).num

def legId : String := row.text "legId"

def value : String := row.text "value"

def receiptHash : String := row.text "receiptHash"

def providerResponseAt : ℤ := row.integer "providerResponseAt"

def startedAt : ℤ := row.integer "startedAt"

def completedAt : ℤ := row.integer "completedAt"

/-- The key `legId:providerResponseAt`. -/
def observation : String × ℤ := (row.legId, row.providerResponseAt)

end FxLegReceipt

def validReceipt (sha256 : String → String) (now : ℤ) (context : FxContext) (value : Json ℚ) :
    Outcome FxLegReceipt := do
  return ⟨← validateFxLegReceipt sha256 now value context⟩

/-- `LEG_ORDER`. -/
def legOrder : List String := [legText .btcUsd, legText .btcUsdt, legText .usdcUsd]

def assetLegs (asset : String) : Outcome (List String) :=
  if asset = "USD" then .ok []
  else if asset = "USDT" then .ok (legOrder.take 2)
  else if asset = "USDC" then .ok (legOrder.drop 2)
  else .error (invalidFx "ASSET_UNSUPPORTED")

/-- One round of the loop over `observations`. -/
def observe (observations : List FxLegReceipt) (row : FxLegReceipt) : Outcome (List FxLegReceipt) :=
  match observations.find? (fun prior => prior.observation = row.observation) with
  | none => .ok (observations ++ [row])
  | some prior => do
    throwIf ((← compareDecimal prior.value row.value) ≠ 0) (invalidFx "QUOTE_CONFLICT")
    return if row.receiptHash < prior.receiptHash then
      observations.map (fun other => if other.observation = row.observation then row else other)
    else observations

/-- The order of the observations; on hex digests `localeCompare` follows the code units. -/
def laterFirst (a b : FxLegReceipt) : Prop :=
  b.providerResponseAt < a.providerResponseAt ∨
    (a.providerResponseAt = b.providerResponseAt ∧ a.receiptHash ≤ b.receiptHash)

instance : DecidableRel laterFirst := fun _ _ => inferInstanceAs (Decidable (_ ∨ _))

def eligible (required : List String) (asOf : ℤ) (row : FxLegReceipt) : Bool :=
  row.legId ∈ required && row.providerResponseAt ≤ asOf && asOf - 10000 ≤ row.providerResponseAt

def eligibleReceipts (sha256 : String → String) (now : ℤ) (values : List (Json ℚ))
    (required : List String) (asOf : ℤ) (context : FxContext) : Outcome (List FxLegReceipt) := do
  let rows ← values.mapM (validReceipt sha256 now context)
  let observations ← (rows.filter (eligible required asOf)).foldlM observe []
  return observations.insertionSort laterFirst

def coherentLegs (rows : List FxLegReceipt) (required : List String) :
    Outcome (List FxLegReceipt) :=
  match FirstWindow.firstWindow FxLegReceipt.legId FxLegReceipt.providerResponseAt 1000 rows
      required with
  | some selected => .ok selected
  | none => .error (invalidFx "QUOTE_UNAVAILABLE")

def legRate (receipts : List FxLegReceipt) (id : String) : Outcome ExactRational :=
  match receipts.find? (·.legId = id) with
  | none => .error (invalidFx "QUOTE_UNAVAILABLE")
  | some row => rationalFromDecimal row.value

def usdRate (asset : String) (receipts : List FxLegReceipt) : Outcome ExactRational :=
  if asset = "USD" then rationalFromDecimal "1"
  else do
    match ← (← assetLegs asset).mapM (legRate receipts) with
    | [first] => if asset = "USDC" then .ok first else .error (invalidFx "QUOTE_UNAVAILABLE")
    | first :: second :: _ => if asset = "USDC" then .ok first else divideRational first second
    | [] => .error (invalidFx "QUOTE_UNAVAILABLE")

def modeText : FxMode → String
  | .live => "live"
  | .testnet => "testnet"

def fxMode (mode : String) : FxMode := if mode = "live" then .live else .testnet

def conversionMembers (value : FxConversion) : List (String × Json ℚ) :=
  [("version", .number value.version), ("valuationBasis", .string value.valuationBasis),
    ("policy", .string value.policy), ("mode", .string (modeText value.mode)),
    ("profileHash", .string value.profileHash), ("baseAsset", .string value.baseAsset),
    ("quoteAsset", .string value.quoteAsset), ("at", .number value.asOf),
    ("earliestAt", .number value.earliestAt), ("latestAt", .number value.latestAt),
    ("expiresAt", .number value.expiresAt),
    ("rate", .object [("numerator", .string value.rate.numerator),
      ("denominator", .string value.rate.denominator)]),
    ("receiptHashes", .array (value.receiptHashes.map .string))]

def conversionDigest (sha256 : String → String) (value : FxConversion) : Outcome String :=
  fxEvidenceDigest sha256 "tsx-fx-conversion-v1" (.object (conversionMembers value))

/-- The required legs in the order of `LEG_ORDER`. -/
def requiredLegs (baseAsset quoteAsset : String) : Outcome (List String) := do
  let base ← assetLegs baseAsset
  let quote ← assetLegs quoteAsset
  return legOrder.filter (fun id => id ∈ base ++ quote)

def selectedConversion (selected : List FxLegReceipt) (baseAsset quoteAsset : String) (asOf : ℤ)
    (context : FxContext) : Outcome FxConversion := do
  let times := selected.map (·.providerResponseAt)
  let earliest := times.min?.getD 0
  return {
    version := 1
    valuationBasis := "provider_snapshot_index_asof"
    policy := "stable-index-asof-10s-v1"
    mode := fxMode context.mode
    profileHash := context.profileHash
    baseAsset, quoteAsset, asOf
    earliestAt := earliest
    latestAt := times.max?.getD 0
    expiresAt := earliest + 10000
    rate := ← divideRational (← usdRate baseAsset selected) (← usdRate quoteAsset selected)
    receiptHashes := selected.map (·.receiptHash) }

def deriveFxConversion (sha256 : String → String) (now : ℤ) (values : List (Json ℚ))
    (baseAsset quoteAsset : String) (asOf : ℤ) (context : FxContext) :
    Outcome FxConversionEvidence := do
  throwIf (256 < values.length ∨ ¬ isSafeInteger asOf ∨ asOf < 0 ∨ baseAsset = quoteAsset)
    (invalidFx "EVIDENCE_INVALID")
  let required ← requiredLegs baseAsset quoteAsset
  let rows ← eligibleReceipts sha256 now values required asOf context
  let selected ← coherentLegs rows required
  let original ← selectedConversion selected baseAsset quoteAsset asOf context
  return { original with evidenceHash := ← conversionDigest sha256 original }

end TsxCore.TradingFxQuotes
