import TsxCore.TradingFillIdentity

/-!
# Observed quantity normalizations (`trading_fill_quantity_contract.ts`)

A normalization records how the provider's quantity became the quantity of a fill. It is
bound to the fill, to the market and, by a digest, to the retained original. `sha256` stands
for the digest of a text, `now` for `Date.now()`.
-/

namespace TsxCore.TradingFillQuantity

open Outcome TradingDecimal TradingFillIdentity
open TradingFx (textField numberField)

def invalid : Thrown := .error "FILL_QUANTITY_EVIDENCE_INVALID"

section Canonical

/-- `/[\x00-\x1f\x7f]/u`; a text has no lone surrogates. -/
def isControl (c : Char) : Bool := c.toNat < 32 || c.toNat == 127

def token (value : String) : Outcome Unit :=
  throwIf (value = "" ∨ 256 < utf16Length value ∨ trim value ≠ value ∨
    value.toList.any isControl = true) invalid

/-- The members of an object in the given order, each with the encoder of its value. -/
def canonicalEntries : List (String × Outcome (List Char)) → Outcome (List (List Char))
  | [] => return []
  | (key, encoded) :: rest => do
    token key
    let text ← encoded
    return (JsonText.string key ++ ':' :: text) :: (← canonicalEntries rest)

mutual

def canonical : Json ℚ → ℕ → Outcome (List Char)
  | .null, depth => do
    throwIf (12 < depth) invalid
    return "null".toList
  | .bool value, depth => do
    throwIf (12 < depth) invalid
    return if value then "true".toList else "false".toList
  | .number value, depth => do
    throwIf (12 < depth) invalid
    throwIf (¬ (value.den = 1 ∧ isSafeInteger value.num)) invalid
    return JsonText.integer value.num
  | .string value, depth => do
    throwIf (12 < depth) invalid
    throwIf (32768 ≤ utf16Length value) invalid
    return JsonText.string value
  | .array items, depth => do
    throwIf (12 < depth) invalid
    return JsonText.array (← canonicalItems items (depth + 1))
  | .object members, depth => do
    throwIf (12 < depth) invalid
    let texts ← canonicalEntries (TradingFx.byBytes (canonicalMembers members (depth + 1)))
    return '\x7b' :: JsonText.joined texts ++ ['\x7d']

def canonicalItems : List (Json ℚ) → ℕ → Outcome (List (List Char))
  | [], _ => return []
  | item :: rest, depth => do
    let text ← canonical item depth
    return text :: (← canonicalItems rest depth)

def canonicalMembers : List (String × Json ℚ) → ℕ → List (String × Outcome (List Char))
  | [], _ => []
  | (key, value) :: rest, depth => (key, canonical value depth) :: canonicalMembers rest depth

end

def fillQuantityDigest (sha256 : String → String) (domain : String) (value : Json ℚ) :
    Outcome String := do
  let encoded ← canonical value 0
  throwIf (32768 ≤ byteLength encoded) invalid
  return sha256 (domain ++ "\n" ++ .ofList encoded)

end Canonical

section Values

def nullableNumber : Option ℤ → Json ℚ
  | none => .null
  | some value => .number value

def nullableText : Option String → Json ℚ
  | none => .null
  | some value => .string value

def identityJson (identity : ExchangeFillIdentity) : Json ℚ :=
  .object [("version", .number identity.version), ("profile", .string identity.profile),
    ("marketNamespace", .string identity.marketNamespace),
    ("providerMarketId", .string identity.providerMarketId),
    ("providerSymbol", .string identity.providerSymbol),
    ("providerFillId", .string identity.providerFillId),
    ("scopeTimestamp", nullableNumber identity.scopeTimestamp)]

def arithmeticJson (arithmetic : FillQuantityArithmetic) : Json ℚ :=
  .object [("operation", .string arithmetic.operation),
    ("decimalPrecision", .number arithmetic.decimalPrecision),
    ("decimalRounding", .string arithmetic.decimalRounding),
    ("exactProduct", .bool arithmetic.exactProduct)]

/-- `const { sourceHash, ...original } = market`. -/
def originalMarket (market : FillQuantityMarket) : List (String × Json ℚ) :=
  [("providerMarketId", .string market.providerMarketId),
    ("providerSymbol", .string market.providerSymbol), ("base", .string market.base),
    ("quote", .string market.quote), ("settlementAsset", .string market.settlementAsset),
    ("contract", .bool market.contract), ("linear", .bool market.linear),
    ("inverse", .bool market.inverse), ("appliedContractSize", .string market.appliedContractSize),
    ("source", .string market.source), ("observedAt", nullableNumber market.observedAt),
    ("providerContractSize", nullableText market.providerContractSize),
    ("providerOriginalStatus", .string market.providerOriginalStatus)]

/-- `const { normalizedAt: _time, ...recipe } = normalization`. -/
def recipe (normalization : FillQuantityNormalization) : List (String × Json ℚ) :=
  [("version", .number normalization.version), ("source", .string normalization.source),
    ("inputField", .string normalization.inputField),
    ("inputQuantity", .string normalization.inputQuantity),
    ("inputUnit", .string normalization.inputUnit),
    ("appliedFactor", .string normalization.appliedFactor),
    ("outputQuantity", .string normalization.outputQuantity),
    ("outputUnit", .string normalization.outputUnit),
    ("arithmetic", arithmeticJson normalization.arithmetic),
    ("market", .object (originalMarket normalization.market ++
      [("sourceHash", .string normalization.market.sourceHash)])),
    ("nativeIdentity", identityJson normalization.nativeIdentity),
    ("originalExecutionHash", .string normalization.originalExecutionHash)]

end Values

section Checks

variable (sha256 : String → String)

def object : Json ℚ → Outcome (List (String × Json ℚ))
  | .object members => .ok members
  | _ => .error invalid

def positive (value : String) : Outcome String := do
  throwIf (trim value ≠ value) invalid
  decimal value true

def coefficient (value : String) : Outcome ParsedDecimal := do
  let normalized ← positive value
  return ⟨Nat.ofDigitChars 10 (integerPart normalized ++ fractionPart normalized) 0,
    (fractionPart normalized).length⟩

def exactProduct (input factor output : String) : Outcome Bool := do
  let inputCoefficient ← coefficient input
  let factorCoefficient ← coefficient factor
  let outputCoefficient ← coefficient output
  return inputCoefficient.coefficient * factorCoefficient.coefficient *
      10 ^ outputCoefficient.scale =
    outputCoefficient.coefficient * 10 ^ (inputCoefficient.scale + factorCoefficient.scale)

def roundings : List String :=
  ["ROUND_CEILING", "ROUND_DOWN", "ROUND_FLOOR", "ROUND_HALF_DOWN", "ROUND_HALF_EVEN",
    "ROUND_HALF_UP", "ROUND_UP", "ROUND_05UP"]

def arithmetic (row : FillQuantityNormalization) : Outcome Unit := do
  let value := row.arithmetic
  throwIf (value.operation ≠ "multiply" ∨ ¬ isSafeInteger value.decimalPrecision ∨
    value.decimalPrecision < 1 ∨ 10000 < value.decimalPrecision ∨
    value.decimalRounding ∉ roundings) invalid
  throwIf (value.exactProduct ≠
    (← exactProduct row.inputQuantity row.appliedFactor row.outputQuantity)) invalid

/-- `positive(row[key])`. -/
def positiveField (key : String) (row : List (String × Json ℚ)) : Outcome String :=
  match textField key row with
  | none => .error invalid
  | some value => positive value

/-- `token(row[key])`. -/
def tokenField (key : String) (row : List (String × Json ℚ)) : Outcome Unit :=
  match textField key row with
  | none => .error invalid
  | some value => token value

def originalBinding (row : FillQuantityNormalization) (fill : ExchangeFill) :
    Outcome ExchangeFillIdentity := do
  let identity ← validateFillIdentity row.nativeIdentity
  let raw ← object fill.raw
  let info ← object (TradingFx.field "info" raw)
  throwIf (identity.profile ≠ "kraken_history_execution_v3" ∨ some identity ≠ fill.identity) invalid
  throwIf (identity.providerFillId ≠ fill.exchangeFillId ∨
    some identity.providerSymbol ≠ fill.providerSymbol ∨
    textField "id" raw ≠ some fill.exchangeFillId ∨
    textField "order" raw ≠ some fill.exchangeOrderId ∨
    textField "symbol" raw ≠ fill.providerSymbol ∨
    numberField "timestamp" raw ≠ some (fill.filledAt : ℚ) ∨
    textField "amount" raw ≠ some row.inputQuantity ∨
    textField "identitySource" info ≠ some identity.profile ∨
    textField "executionUid" info ≠ some fill.exchangeFillId ∨
    textField "orderUid" info ≠ some fill.exchangeOrderId ∨
    textField "tradeable" info ≠ some identity.providerMarketId ∨
    numberField "executionTimestamp" info ≠ some (fill.filledAt : ℚ)) invalid
  tokenField "accountUid" info
  let order ← compareDecimal (← positiveField "price" raw) fill.price
  throwIf (order ≠ 0) invalid
  let original ← fillQuantityDigest sha256 "kraken-normalization-original-v1" (.object raw)
  throwIf (row.originalExecutionHash ≠ original) invalid
  return identity

def marketBinding (row : FillQuantityNormalization) (fill : ExchangeFill)
    (identity : ExchangeFillIdentity) : Outcome Unit := do
  let market := row.market
  token market.providerMarketId
  token market.providerSymbol
  token market.base
  token market.quote
  token market.settlementAsset
  throwIf (market.contract ≠ true ∨ market.linear ≠ true ∨ market.inverse ≠ false ∨
    market.source ≠ "ccxt-4.5.75-loaded-market" ∨ market.observedAt ≠ none ∨
    market.providerContractSize ≠ none ∨ market.providerOriginalStatus ≠ "not-retained") invalid
  throwIf (market.providerMarketId ≠ identity.providerMarketId ∨
    market.providerSymbol ≠ identity.providerSymbol ∨
    some market.settlementAsset ≠ fill.accounting.map (·.settlementAsset) ∨
    market.appliedContractSize ≠ row.appliedFactor) invalid
  let original ← fillQuantityDigest sha256 "kraken-normalization-market-v1"
    (.object (originalMarket market))
  throwIf (market.sourceHash ≠ original) invalid

def validateFillQuantityNormalization (now : ℤ) (row : FillQuantityNormalization)
    (fill : ExchangeFill) : Outcome FillQuantityNormalization := do
  throwIf (row.version ≠ 1 ∨ row.source ≠ "kraken-execution-normalization-v1" ∨
    row.inputField ≠ "execution.quantity" ∨ row.inputUnit ≠ "kraken_native_execution_quantity" ∨
    row.outputUnit ≠ "base") invalid
  let _ ← positive row.inputQuantity
  let _ ← positive row.appliedFactor
  let _ ← positive row.outputQuantity
  throwIf (row.outputQuantity ≠ fill.quantity ∨ ¬ isSafeInteger row.normalizedAt ∨
    row.normalizedAt < 0 ∨ now + 60000 < row.normalizedAt) invalid
  arithmetic row
  marketBinding sha256 row fill (← originalBinding sha256 row fill)
  return row

end Checks

section Hashes

variable {sha256 : String → String} {now : ℤ} {row : FillQuantityNormalization}
  {fill : ExchangeFill}

theorem object_ok {value : Json ℚ} {members : List (String × Json ℚ)}
    (h : object value = .ok members) : value = .object members := by
  cases value with
  | object found => rw [Except.ok.inj h]
  | null => cases h
  | bool value => cases h
  | number value => cases h
  | string value => cases h
  | array items => cases h

theorem fillQuantityDigest_ok {domain digest : String} {value : Json ℚ}
    (h : fillQuantityDigest sha256 domain value = .ok digest) : ∃ text, digest = sha256 text := by
  simp only [fillQuantityDigest, bind_eq_ok, pure_eq_ok_iff] at h
  obtain ⟨_, _, _, _, rfl⟩ := h
  exact ⟨_, rfl⟩

theorem originalBinding_hash {identity : ExchangeFillIdentity}
    (h : originalBinding sha256 row fill = .ok identity) :
    fillQuantityDigest sha256 "kraken-normalization-original-v1" fill.raw =
      .ok row.originalExecutionHash := by
  simp only [originalBinding, bind_eq_ok, throwIf_eq_ok, not_not] at h
  obtain ⟨_, _, raw, hraw, _, _, _, _, _, _, _, _, _, _, _, _, _, _, digest, hdig, _, hhash, _⟩ := h
  rw [object_ok hraw, hdig, hhash]

theorem originalHash_of_valid {result : FillQuantityNormalization}
    (h : validateFillQuantityNormalization sha256 now row fill = .ok result) :
    fillQuantityDigest sha256 "kraken-normalization-original-v1" fill.raw =
      .ok row.originalExecutionHash := by
  simp only [validateFillQuantityNormalization, bind_eq_ok] at h
  obtain ⟨_, _, _, _, _, _, _, _, _, _, _, _, identity, hident, _⟩ := h
  exact originalBinding_hash hident

end Hashes

end TsxCore.TradingFillQuantity
