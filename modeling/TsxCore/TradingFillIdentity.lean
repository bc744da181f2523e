import TsxCore.TradingFillAccounting
import TsxCore.TradingFxContract

/-!
# Native identities of fills (`trading_fill_identity.ts`)

A fill carries the identity its provider gave it and the provider's original record, a JSON
value. `provenFillIdentity` accepts an identity whose fields all reappear in the original
and returns the text under which the fill is stored.
-/

namespace TsxCore.TradingFillIdentity

open Outcome TradingTypes
open TradingFillAccounting (FillAccountingRow truthy)
open TradingFx (textField numberField)

structure ExchangeFillIdentity where
  version : ℤ
  profile : String
  marketNamespace : String
  providerMarketId : String
  providerSymbol : String
  providerFillId : String
  scopeTimestamp : Option ℤ
  deriving DecidableEq

structure FillQuantityArithmetic where
  operation : String
  decimalPrecision : ℤ
  decimalRounding : String
  exactProduct : Bool

structure FillQuantityMarket where
  providerMarketId : String
  providerSymbol : String
  base : String
  quote : String
  settlementAsset : String
  contract : Bool
  linear : Bool
  inverse : Bool
  appliedContractSize : String
  source : String
  sourceHash : String
  observedAt : Option ℤ
  providerContractSize : Option String
  providerOriginalStatus : String

structure FillQuantityNormalization where
  version : ℤ
  source : String
  inputField : String
  inputQuantity : String
  inputUnit : String
  appliedFactor : String
  outputQuantity : String
  outputUnit : String
  arithmetic : FillQuantityArithmetic
  market : FillQuantityMarket
  nativeIdentity : ExchangeFillIdentity
  originalExecutionHash : String
  normalizedAt : ℤ

structure ExchangeFill where
  identity : Option ExchangeFillIdentity
  quantityNormalization : Option FillQuantityNormalization
  exchangeFillId : String
  clientOrderId : Option String
  exchangeOrderId : String
  symbol : Option String
  providerSymbol : Option String
  price : String
  quantity : String
  fee : String
  feeAsset : Option String
  filledAt : ℤ
  accounting : Option FillAccountingRow
  raw : Json ℚ

structure TradingAccount where
  id : String
  exchange : String
  mode : TradingAccountMode
  externalAccountId : Option String
  credentialGeneration : Option String

/-- What `provenFillIdentity` returns. -/
structure FillProof where
  key : String
  identity : ExchangeFillIdentity

/-- `PROFILES[profile]`. -/
def profileNamespaces (profile : String) : Option (List String) :=
  if profile = "bybit_execution_v1" then some ["linear", "inverse", "spot", "option"]
  else if profile = "hyperliquid_user_fill_v1" then some ["perpetual"]
  else if profile = "kraken_history_execution_v3" then some ["futures"]
  else if profile = "paper_fill_v1" then some ["paper"]
  else none

def profileProvider (profile : String) : Option String :=
  if profile = "bybit_execution_v1" then some "bybit"
  else if profile = "hyperliquid_user_fill_v1" then some "hyperliquid"
  else if profile = "kraken_history_execution_v3" then some "krakenfutures"
  else if profile = "paper_fill_v1" then some "paper"
  else none

/-- A JSON object has its members, any other value none. -/
def object : Json ℚ → List (String × Json ℚ)
  | .object members => members
  | _ => []

/-- `object(row[key])`. -/
def objectField (key : String) (row : List (String × Json ℚ)) : List (String × Json ℚ) :=
  object (TradingFx.field key row)

def identifier (value : String) : Outcome Unit :=
  throwIf (value = "" ∨ trim value ≠ value ∨ 256 < utf16Length value ∨
      value.toList.any (fun c => c.toNat < 32) = true)
    (.error "FILL_IDENTITY_UNPROVEN: missing exact provider identifier.")

/-- The check of `scopeTimestamp`: only one profile includes a time. -/
def validateScope (row : ExchangeFillIdentity) : Outcome Unit :=
  if row.profile = "hyperliquid_user_fill_v1" then
    throwIf (row.scopeTimestamp.all (fun time => decide (isSafeInteger time ∧ 0 ≤ time)) = false ∨
        row.scopeTimestamp = none)
      (.error "Invalid Hyperliquid fill time identity.")
  else
    throwIf (row.scopeTimestamp ≠ none)
      (.error "Only the Hyperliquid native identity includes its timestamp.")

def validateFillIdentity (row : ExchangeFillIdentity) : Outcome ExchangeFillIdentity := do
  throwIf (row.version ≠ 1 ∨
      (profileNamespaces row.profile).any (fun names => row.marketNamespace ∈ names) = false)
    (.error "Invalid fill identity profile.")
  identifier row.providerMarketId
  identifier row.providerSymbol
  identifier row.providerFillId
  validateScope row
  return row

/-- The integers that are written without loss of spelling. -/
def nativeIntegerText : Option (Json ℚ) → Option String
  | some (.string value) =>
    if value.toList.all Char.isDigit ∧ 1 ≤ value.toList.length ∧ value.toList.length ≤ 256 then
      some value
    else none
  | some (.number value) =>
    if value.den = 1 ∧ isSafeInteger value.num ∧ 0 ≤ value.num then some (bigintText value.num)
    else none
  | _ => none

def matchesBybit (info : List (String × Json ℚ)) (fill : ExchangeFill)
    (identity : ExchangeFillIdentity) : Bool :=
  textField "execId" info = some fill.exchangeFillId &&
    textField "orderId" info = some fill.exchangeOrderId &&
    textField "symbol" info = some identity.providerMarketId &&
    nativeIntegerText (Json.lookup "execTime" info) = some (bigintText fill.filledAt) &&
    ((Json.lookup "category" info).isNone ||
      textField "category" info = some identity.marketNamespace)

def matchesHyperliquid (info : List (String × Json ℚ)) (fill : ExchangeFill)
    (identity : ExchangeFillIdentity) : Bool :=
  nativeIntegerText (Json.lookup "tid" info) = some fill.exchangeFillId &&
    nativeIntegerText (Json.lookup "oid" info) = some fill.exchangeOrderId &&
    textField "coin" info = some identity.providerMarketId &&
    numberField "time" info = some (fill.filledAt : ℚ) &&
    identity.scopeTimestamp = some fill.filledAt

def matchesKraken (info : List (String × Json ℚ)) (fill : ExchangeFill)
    (identity : ExchangeFillIdentity) : Bool :=
  textField "identitySource" info = some "kraken_history_execution_v3" &&
    textField "executionUid" info = some fill.exchangeFillId &&
    textField "orderUid" info = some fill.exchangeOrderId &&
    textField "tradeable" info = some identity.providerMarketId &&
    (truthy (textField "accountUid" info)).isSome &&
    numberField "executionTimestamp" info = some (fill.filledAt : ℚ)

def nativeMatches (fill : ExchangeFill) (identity : ExchangeFillIdentity) : Bool :=
  let raw := object fill.raw
  let info := objectField "info" raw
  textField "id" raw = some fill.exchangeFillId &&
    textField "order" raw = some fill.exchangeOrderId &&
    textField "symbol" raw = some identity.providerSymbol &&
    (if identity.profile = "bybit_execution_v1" then matchesBybit info fill identity
    else if identity.profile = "hyperliquid_user_fill_v1" then matchesHyperliquid info fill identity
    else if identity.profile = "kraken_history_execution_v3" then matchesKraken info fill identity
    else false)

/-- `account.exchange === 'paper' && account.mode === 'paper'`. -/
def TradingAccount.isPaper (account : TradingAccount) : Prop :=
  account.exchange = "paper" ∧ account.mode = .paper

instance (account : TradingAccount) : Decidable account.isPaper :=
  inferInstanceAs (Decidable (account.exchange = "paper" ∧ account.mode = .paper))

def fillAccountFingerprint (account : TradingAccount) : Option String :=
  if account.isPaper then some ("paper:" ++ account.id) else account.externalAccountId

def nullableInteger : Option ℤ → List Char
  | none => "null".toList
  | some value => JsonText.integer value

def fillKey (exchange fingerprint : String) (identity : ExchangeFillIdentity) : String :=
  .ofList (JsonText.array [JsonText.string "fill-v1", JsonText.string exchange,
    JsonText.string fingerprint, JsonText.string identity.profile,
    JsonText.string identity.marketNamespace, JsonText.string identity.providerMarketId,
    JsonText.string identity.providerFillId, nullableInteger identity.scopeTimestamp])

def paperIdentity (symbol : String) (fill : ExchangeFill) : ExchangeFillIdentity :=
  ⟨1, "paper_fill_v1", "paper", symbol, symbol, fill.exchangeFillId, none⟩

/-- `fill.providerSymbol ?? fill.symbol`. -/
def ExchangeFill.unifiedSymbol (fill : ExchangeFill) : Option String :=
  fill.providerSymbol.or fill.symbol

/-- The identity of a fill before it is compared with its account. -/
def candidateIdentity (account : TradingAccount) (fill : ExchangeFill) :
    Outcome (Option ExchangeFillIdentity) :=
  if account.isPaper then
    return (truthy fill.unifiedSymbol).map (fun symbol => paperIdentity symbol fill)
  else
    match fill.identity with
    | none => return none
    | some row => do
      let identity ← validateFillIdentity row
      return if profileProvider identity.profile ≠ some account.exchange ∨
          nativeMatches fill identity = false then none
        else some identity

def provenFillIdentity (account : TradingAccount) (fill : ExchangeFill) :
    Outcome (Option FillProof) := do
  let candidate ← candidateIdentity account fill
  return match candidate, truthy (fillAccountFingerprint account) with
    | some identity, some fingerprint =>
      if identity.providerFillId ≠ fill.exchangeFillId ∨
          some identity.providerSymbol ≠ fill.unifiedSymbol then none
      else some ⟨fillKey account.exchange fingerprint identity, identity⟩
    | _, _ => none

section Keys

theorem fillKey_account {exchange exchange' fingerprint fingerprint' : String}
    {identity identity' : ExchangeFillIdentity}
    (h : fillKey exchange fingerprint identity = fillKey exchange' fingerprint' identity') :
    exchange = exchange' ∧ fingerprint = fingerprint' := by
  have htext := String.ofList_injective h
  simp only [JsonText.array, JsonText.joined, List.cons_append, List.cons.injEq, true_and,
    List.append_assoc] at htext
  obtain ⟨-, hafterTag⟩ := Json.string_unique htext
  obtain ⟨hexch, hafterExchange⟩ := Json.string_unique (List.cons.inj hafterTag).2
  obtain ⟨hfp, -⟩ := Json.string_unique (List.cons.inj hafterExchange).2
  exact ⟨hexch, hfp⟩

end Keys

section Proofs

variable {account : TradingAccount} {fill : ExchangeFill} {proof : FillProof}
  {identity : ExchangeFillIdentity}

theorem validateFillIdentity_ok {row : ExchangeFillIdentity}
    (h : validateFillIdentity row = .ok identity) : identity = row := by
  simp only [validateFillIdentity, bind_eq_ok, pure_eq_ok_iff] at h
  obtain ⟨_, _, _, _, _, _, _, _, _, _, rfl⟩ := h
  rfl

theorem provenFillIdentity_key (h : provenFillIdentity account fill = .ok (some proof)) :
    ∃ fingerprint, fillAccountFingerprint account = some fingerprint ∧
      proof.key = fillKey account.exchange fingerprint proof.identity := by
  simp only [provenFillIdentity, bind_eq_ok, pure_eq_ok_iff] at h
  obtain ⟨candidate, -, hproof⟩ := h
  split at hproof
  · rename_i identity fingerprint htruthy
    split_ifs at hproof
    obtain rfl := Option.some.inj hproof
    exact ⟨fingerprint, (Option.filter_eq_some_iff.mp htruthy).1, rfl⟩
  · cases hproof

theorem candidateIdentity_ok (h : candidateIdentity account fill = .ok (some identity))
    (hlive : ¬ account.isPaper) : fill.identity = some identity := by
  unfold candidateIdentity at h
  rw [if_neg hlive] at h
  split at h
  · cases h
  · rename_i row hrow
    simp only [bind_eq_ok, pure_eq_ok_iff] at h
    obtain ⟨identity', hvalid, hsome⟩ := h
    split_ifs at hsome
    obtain rfl := Option.some.inj hsome
    rw [hrow, validateFillIdentity_ok hvalid]

theorem provenFillIdentity_candidate (h : provenFillIdentity account fill = .ok (some proof)) :
    candidateIdentity account fill = .ok (some proof.identity) := by
  simp only [provenFillIdentity, bind_eq_ok, pure_eq_ok_iff] at h
  obtain ⟨candidate, hcand, hproof⟩ := h
  split at hproof
  · split_ifs at hproof
    obtain rfl := Option.some.inj hproof
    exact hcand
  · cases hproof

/-- Outside paper trading the identity of the proof is the one that the fill carries. -/
theorem withIdentity_eq (h : provenFillIdentity account fill = .ok (some proof))
    (hlive : ¬ account.isPaper) : { fill with identity := some proof.identity } = fill := by
  rw [← candidateIdentity_ok (provenFillIdentity_candidate h) hlive]

end Proofs

end TsxCore.TradingFillIdentity
