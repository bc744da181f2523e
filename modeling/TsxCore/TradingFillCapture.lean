import TsxCore.TradingRemoteEvidence

/-!
# Accounting and quantity evidence of a fill

`captureFillAccounting` (`trading_fill_accounting.ts`) attaches the accounting contract to a
stored fill and marks a contradiction. `captureFillQuantityEvidence`
(`trading_fill_quantity_repository.ts`) keeps an observed normalization once the stored fill,
its original and the account still are what the normalization was made from. Validation of
the acquisition evidence is a parameter.
-/

namespace TsxCore.TradingFillCapture

open Outcome TradingDecimal TradingTypes TradingFillIdentity TradingFillTables TradingFillQuantity
open TradingFillAccounting (validateFillAccounting)
open TradingRecoveryScheduleContract (digestPattern)

/-- A history checkpoint, as far as a fill is bound to it. -/
structure HistoryCheckpoint where
  source : String
  providerAccountUid : Option String

/-- `text` is the JSON text of the whole evidence. -/
structure ExchangeAcquisitionEvidence where
  startedAt : ℤ
  completedAt : ℤ
  history : List HistoryCheckpoint
  text : String

structure Services where
  sha256 : String → String
  validateAcquisitionEvidence :
    ℤ → ExchangeAcquisitionEvidence → Outcome ExchangeAcquisitionEvidence

section Accounting

def sourceText : AccountingSource → String
  | .ccxtMarket => "ccxt-market-v1"
  | .paperContract => "paper-contract-v1"

/-- `JSON.stringify(accounting)`. -/
def accountingText (accounting : ExchangeFillAccounting) : String :=
  .ofList (JsonText.object [("version", JsonText.integer 1),
    ("source", JsonText.string (sourceText accounting.source)),
    ("providerSymbol", JsonText.string accounting.providerSymbol),
    ("settlementAsset", JsonText.string accounting.settlementAsset),
    ("linear", "true".toList), ("quantityUnit", JsonText.string "base")])

def validatedAccounting (fill : ExchangeFill) : Outcome (Option ExchangeFillAccounting) :=
  match fill.accounting with
  | none => return none
  | some row => do
    return some (← validateFillAccounting row (fill.providerSymbol.getD row.providerSymbol))

def accountingConflicts (row : FillRow) (identity : Option String)
    (accounting : Option ExchangeFillAccounting) : Bool :=
  (row.accountFingerprint ≠ none && row.accountFingerprint ≠ identity) ||
    (row.accounting ≠ none && accounting ≠ none && row.accounting ≠ accounting)

def receivedText (fillId : String) (identity : Option String)
    (accounting : Option ExchangeFillAccounting) : String :=
  .ofList (JsonText.object [("fillId", JsonText.string fillId),
    ("accountFingerprint", JsonText.nullable identity),
    ("accounting", JsonText.nullable (accounting.map accountingText))])

def recordAccountingConflict (sha256 : String → String) (now : ℤ) (account : TradingAccount)
    (row : FillRow) (identity : Option String) (accounting : Option ExchangeFillAccounting)
    (db : Database) : Outcome Database :=
  match db.orders.find row.orderId with
  | none => .error (.error "Fill accounting order is missing.")
  | some order =>
    let received := receivedText row.id identity accounting
    let evidence := db.projectionEvidence.insert
      ⟨sha256 (.ofList (JsonText.string received)), order.intentId, account.id, received, now⟩
    return markAccountingConflict { db with projectionEvidence := evidence.2 } row.id

def captureFillAccounting (sha256 : String → String) (now : ℤ) (account : TradingAccount)
    (fill : ExchangeFill) (fillId : String) (db : Database) : Outcome Database :=
  match db.fillOf account.id fillId with
  | none => .error (.error "Cannot attach accounting evidence to an unpersisted fill.")
  | some row => do
    let identity := fillAccountFingerprint account
    let accounting ← validatedAccounting fill
    if accountingConflicts row identity accounting then
      recordAccountingConflict sha256 now account row identity accounting db
    else if row.accountFingerprint = identity ∧ (row.accounting ≠ none ∨ accounting = none) then
      return db
    else return fillAccounting db row.id identity accounting

end Accounting

section Quantity

variable (services : Services)

def bindingChanged : Thrown := .error "FILL_QUANTITY_ACCOUNT_BINDING_CHANGED"

def bindingMismatch : Thrown := .error "FILL_QUANTITY_ORIGINAL_BINDING_MISMATCH"

/-- `assertBinding`; it leaves the fingerprint and the generation that were compared. -/
def assertBinding (account : TradingAccount) (db : Database) : Outcome (String × String) :=
  match db.accounts.find account.id with
  | none => .error bindingChanged
  | some current => do
    throwIf (current.exchange ≠ "krakenfutures" ∨ current.exchange ≠ account.exchange ∨
      current.mode ≠ account.mode) bindingChanged
    match current.externalAccountId, current.credentialGeneration with
    | some fingerprint, some generation => do
      throwIf (some fingerprint ≠ account.externalAccountId ∨
        some generation ≠ account.credentialGeneration ∨ digestPattern fingerprint = false ∨
        digestPattern generation = false) bindingChanged
      return (fingerprint, generation)
    | _, _ => .error bindingChanged

def readBinding (now : ℤ) (read : Option ExchangeAcquisitionEvidence) (normalizedAt : ℤ) :
    Outcome ExchangeAcquisitionEvidence :=
  match read with
  | none => .error (.error "FILL_QUANTITY_READ_MISSING")
  | some read => do
    let clean ← services.validateAcquisitionEvidence now read
    throwIf (normalizedAt < clean.startedAt ∨ clean.completedAt < normalizedAt)
      (.error "FILL_QUANTITY_READ_WINDOW_MISMATCH")
    return clean

def storedJournalStateMatches (stored : FillRow) (fill : ExchangeFill) : Outcome Bool :=
  if stored.identityStatus = .proven then do
    return decide ((← compareDecimal stored.quantity fill.quantity) = 0)
  else return false

def assertStoredJournalMatches (account : TradingAccount) (fill : ExchangeFill) (proof : FillProof)
    (stored : FillRow) (normalization : FillQuantityNormalization) : Outcome String := do
  throwIf (stored.accountFingerprint ≠ account.externalAccountId ∨
    stored.remoteFillKey ≠ some proof.key) bindingMismatch
  throwIf ((← storedJournalStateMatches stored fill) = false) bindingMismatch
  let originalHash ← fillQuantityDigest services.sha256 "kraken-normalization-original-v1"
    stored.raw
  throwIf (normalization.originalExecutionHash ≠ originalHash)
    (.error "FILL_QUANTITY_ORIGINAL_HASH_MISMATCH")
  return originalHash

/-- `fill.raw.info.accountUid`, when it is a text. -/
def providerUid (fill : ExchangeFill) : Option String :=
  TradingFx.textField "accountUid" (objectField "info" (TradingFillIdentity.object fill.raw))

def assertAcquisitionProviderBinding (acquisition : ExchangeAcquisitionEvidence)
    (providerUid : Option String) : Outcome Unit :=
  throwIf (acquisition.history.any (fun checkpoint => checkpoint.source = "fills" &&
      checkpoint.providerAccountUid ≠ none && checkpoint.providerAccountUid ≠ providerUid) = true)
    (.error "FILL_QUANTITY_READ_PROVIDER_BINDING_MISMATCH")

/-- The text of the column `normalization_json`. -/
def normalizationText (normalization : FillQuantityNormalization) : List Char :=
  Json.dumps (fun value : ℚ => JsonText.integer value.num)
    (.object (recipe normalization ++ [("normalizedAt", .number normalization.normalizedAt)]))

/-- `CHECK(length(normalization_json)<32768)`, `CHECK(length(acquisition_json)<262144)`. -/
def observationFits (normalization : FillQuantityNormalization)
    (acquisition : ExchangeAcquisitionEvidence) : Prop :=
  (normalizationText normalization).length < 32768 ∧ acquisition.text.toList.length < 262144
  deriving Decidable

/-- `accountId`, `fillId`, fingerprint, generation and recipe: what makes an observation new. -/
def observationId (accountId fillId fingerprint generation : String)
    (normalization : FillQuantityNormalization) : Outcome String :=
  fillQuantityDigest services.sha256 "tsx-fill-quantity-observation-v1"
    (.object [("accountId", .string accountId), ("fillId", .string fillId),
      ("accountFingerprint", .string fingerprint), ("credentialGeneration", .string generation),
      ("recipe", .object (recipe normalization))])

def insertObservation (row : QuantityEvidenceRow) (acquisition : ExchangeAcquisitionEvidence)
    (db : Database) : Outcome Database := do
  throwIf (¬ observationFits row.normalization acquisition ∨ row.id.toList.length ≠ 64 ∨
    row.originalRawHash.toList.length ≠ 64) constraint
  return { db with quantityEvidence := (db.quantityEvidence.insert row).2 }

/-- The body of `captureFillQuantityEvidence` for a fill that carries a normalization. -/
def captureNormalization (now : ℤ) (account : TradingAccount) (fill : ExchangeFill)
    (fillId : String) (initial : Bool) (read : Option ExchangeAcquisitionEvidence)
    (value : FillQuantityNormalization) (db : Database) : Outcome Database := do
  let normalization ← validateFillQuantityNormalization services.sha256 now value fill
  let acquisition ← readBinding services now read normalization.normalizedAt
  let (fingerprint, generation) ← assertBinding account db
  match ← provenFillIdentity account fill, db.fillOf account.id fillId with
  | some proof, some stored => do
    let originalHash ← assertStoredJournalMatches services account fill proof stored normalization
    assertAcquisitionProviderBinding acquisition (providerUid fill)
    let id ← observationId services account.id fillId fingerprint generation normalization
    insertObservation ⟨id, fillId, account.id, fingerprint, generation, proof.key,
      (providerUid fill).getD "", originalHash, normalization, acquisition.text,
      if initial then .initial else .laterObservation, now⟩ acquisition db
  | _, _ => .error bindingMismatch

def captureFillQuantityEvidence (now : ℤ) (account : TradingAccount) (fill : ExchangeFill)
    (fillId : String) (initial : Bool) (read : Option ExchangeAcquisitionEvidence)
    (db : Database) : Outcome Database :=
  match fill.quantityNormalization with
  | none => return db
  | some value => captureNormalization services now account fill fillId initial read value db

end Quantity

end TsxCore.TradingFillCapture
