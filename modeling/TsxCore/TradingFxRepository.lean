import TsxCore.FxConversions
import TsxCore.KeyedTable

/-!
# Stored receipts and conversions (`trading_fx_repository.ts`)

Three append-only tables: the receipts as captured, the conversions derived from them,
and the receipts each conversion refers to. A payload is kept as the value its JSON text
stands for. Each function is one transaction: its error leaves the tables as they were.
`now` stands for the reading of `Date.now()`.
-/

namespace TsxCore.TradingFxRepository

open Outcome TradingDecimal TradingFxQuotes
open TradingFx (FxContext fxEvidenceDigest)
open TradingRecoveryScheduleContract (digestPattern)

structure ReadWindow where
  startedAt : ℤ
  completedAt : ℤ

/-- A row of `trading_accounts`; `capabilities` is the parsed `capabilities_json`. -/
structure AccountRow where
  id : String
  exchange : String
  mode : String
  externalAccountId : Option String
  credentialGeneration : Option String
  lastVerifiedAt : Option ℤ
  capabilities : List (String × Json ℚ)

structure FxAccount where
  id : String
  exchange : String
  mode : String
  externalAccountId : Option String
  credentialGeneration : Option String
  executionProfileHash : Option String

structure ReceiptRow where
  id : String
  accountId : String
  accountFingerprint : String
  credentialGeneration : String
  mode : String
  profileHash : String
  receiptHash : String
  legId : String
  providerResponseAt : ℤ
  acquisitionStartedAt : ℤ
  acquisitionCompletedAt : ℤ
  payload : Json ℚ

structure ConversionRow where
  id : String
  accountId : String
  accountFingerprint : String
  credentialGeneration : String
  evidenceHash : String
  payload : FxConversionEvidence

/-- A row of `trading_fx_conversion_receipts`. -/
structure ReferenceRow where
  accountId : String
  conversionId : String
  receiptId : String
  ordinal : ℕ

structure Database where
  accounts : Keyed AccountRow.id
  receipts : Keyed ReceiptRow.id
  conversions : Keyed ConversionRow.id
  references : Keyed (fun row : ReferenceRow => (row.conversionId, row.ordinal))

section Account

def objectMembers : Json ℚ → List (String × Json ℚ)
  | .object members => members
  | _ => []

/-- `caps.executionProfileHash`, when it is a text. -/
def profileHashOf (capabilities : List (String × Json ℚ)) : Option String :=
  TradingFx.textField "executionProfileHash" capabilities

def profileContext (now : ℤ) (account : FxAccount) (current : AccountRow) : Outcome FxContext := do
  let caps := current.capabilities
  let verifiedAt := current.lastVerifiedAt.getD 0
  throwIf (TradingFx.numberField "profileVersion" caps ≠ some 1 ∨
    TradingFx.textField "provider_api_version"
      (objectMembers (TradingFx.field "executionCapabilities" caps)) ≠ some "bybit-v5" ∨
    (profileHashOf caps).any digestPattern = false ∨
    account.executionProfileHash ≠ profileHashOf caps ∨
    ¬ isSafeInteger verifiedAt ∨ verifiedAt ≤ 0 ∨ now + 1000 < verifiedAt)
    (invalidFx "ACCOUNT_PROFILE_UNVERIFIED")
  return ⟨current.mode, (profileHashOf caps).getD ""⟩

def requireFxAccountContext (now : ℤ) (account : FxAccount) (db : Database) : Outcome FxContext :=
  match db.accounts.find account.id with
  | none => .error (invalidFx "ACCOUNT_BINDING_CHANGED")
  | some current => do
    throwIf (current.exchange ≠ "bybit" ∨ account.exchange ≠ current.exchange ∨
      (current.mode ≠ "live" ∧ current.mode ≠ "testnet") ∨ account.mode ≠ current.mode ∨
      account.externalAccountId ≠ current.externalAccountId ∨
      account.credentialGeneration ≠ current.credentialGeneration ∨
      current.externalAccountId.any digestPattern = false ∨
      current.credentialGeneration.any digestPattern = false)
      (invalidFx "ACCOUNT_BINDING_CHANGED")
    profileContext now account current

def binding (account : FxAccount) : Outcome (List (String × Json ℚ)) :=
  match account.externalAccountId, account.credentialGeneration with
  | some fingerprint, some generation => do
    throwIf (fingerprint = "" ∨ generation = "") (invalidFx "ACCOUNT_BINDING_CHANGED")
    return [("accountId", .string account.id), ("accountFingerprint", .string fingerprint),
      ("credentialGeneration", .string generation)]
  | _, _ => .error (invalidFx "ACCOUNT_BINDING_CHANGED")

def receiptId (sha256 : String → String) (account : FxAccount) (receiptHash : String) :
    Outcome String := do
  fxEvidenceDigest sha256 "tsx-fx-observation-v1"
    (.object ((← binding account) ++ [("receiptHash", .string receiptHash)]))

def conversionId (sha256 : String → String) (account : FxAccount) (evidenceHash : String) :
    Outcome String := do
  fxEvidenceDigest sha256 "tsx-fx-account-conversion-v1"
    (.object ((← binding account) ++ [("evidenceHash", .string evidenceHash)]))

end Account

section Receipts

def assertWindow (receipt : FxLegReceipt) (read : ReadWindow) : Outcome Unit :=
  throwIf (¬ isSafeInteger read.startedAt ∨ ¬ isSafeInteger read.completedAt ∨ read.startedAt < 0 ∨
    read.completedAt < read.startedAt ∨ 35000 < read.completedAt - read.startedAt ∨
    receipt.startedAt < read.startedAt ∨ read.completedAt < receipt.completedAt)
    (invalidFx "READ_WINDOW_MISMATCH")

def ofAccount (account : FxAccount) (context : FxContext) (row : ReceiptRow) : Bool :=
  row.accountId = account.id && some row.accountFingerprint = account.externalAccountId &&
    some row.credentialGeneration = account.credentialGeneration && row.mode = context.mode &&
    row.profileHash = context.profileHash

def decodeReceipt (sha256 : String → String) (now : ℤ) (account : FxAccount) (context : FxContext)
    (row : ReceiptRow) : Outcome FxLegReceipt := do
  let receipt ← validReceipt sha256 now context row.payload
  throwIf (ofAccount account context row = false) (invalidFx "STORED_RECEIPT_CHANGED")
  let id ← receiptId sha256 account receipt.receiptHash
  throwIf (row.id ≠ id ∨ row.receiptHash ≠ receipt.receiptHash ∨ row.legId ≠ receipt.legId ∨
    row.providerResponseAt ≠ receipt.providerResponseAt) (invalidFx "STORED_RECEIPT_CHANGED")
  assertWindow receipt ⟨row.acquisitionStartedAt, row.acquisitionCompletedAt⟩
  return receipt

/-- `INSERT INTO trading_fx_receipts … ON CONFLICT(id) DO NOTHING`. -/
def storeReceipt (sha256 : String → String) (account : FxAccount) (context : FxContext)
    (read : ReadWindow) (db : Database) (receipt : FxLegReceipt) : Outcome Database := do
  assertWindow receipt read
  let id ← receiptId sha256 account receipt.receiptHash
  return { db with receipts := (db.receipts.insert {
    id
    accountId := account.id
    accountFingerprint := account.externalAccountId.getD ""
    credentialGeneration := account.credentialGeneration.getD ""
    mode := context.mode
    profileHash := context.profileHash
    receiptHash := receipt.receiptHash
    legId := receipt.legId
    providerResponseAt := receipt.providerResponseAt
    acquisitionStartedAt := read.startedAt
    acquisitionCompletedAt := read.completedAt
    payload := receipt.json }).2 }

def captureFxReceipts (sha256 : String → String) (now : ℤ) (account : FxAccount)
    (values : List (Json ℚ)) (read : ReadWindow) (db : Database) : Outcome Database := do
  let context ← requireFxAccountContext now account db
  throwIf (3 < values.length) (invalidFx "EVIDENCE_INVALID")
  let receipts ← values.mapM (validReceipt sha256 now context)
  throwIf (¬ (receipts.map (·.legId)).Nodup) (invalidFx "EVIDENCE_INVALID")
  receipts.foldlM (storeReceipt sha256 account context read) db

/-- `ORDER BY provider_response_at DESC,id`. -/
def latestFirst (a b : ReceiptRow) : Prop :=
  b.providerResponseAt < a.providerResponseAt ∨
    (a.providerResponseAt = b.providerResponseAt ∧ a.id ≤ b.id)

instance : DecidableRel latestFirst := fun _ _ => inferInstanceAs (Decidable (_ ∨ _))

def asOfReceipts (now : ℤ) (account : FxAccount) (context : FxContext) (asOf : ℤ) (db : Database) :
    Outcome (List ReceiptRow) := do
  throwIf (¬ isSafeInteger asOf ∨ asOf < 0 ∨ now + 1000 < asOf) (invalidFx "EVIDENCE_INVALID")
  let rows := ((db.receipts.rows.filter (fun row => ofAccount account context row &&
    max 0 (asOf - 10000) ≤ row.providerResponseAt && row.providerResponseAt ≤ asOf)).insertionSort
      latestFirst).take 257
  throwIf (256 < rows.length) (invalidFx "QUOTE_SET_UNBOUNDED")
  return rows

/-- The other receipts of the same leg and response time. -/
def peer (account : FxAccount) (context : FxContext) (receipt : FxLegReceipt) (row : ReceiptRow) :
    Bool :=
  ofAccount account context row && row.legId = receipt.legId &&
    row.providerResponseAt = receipt.providerResponseAt && row.receiptHash ≠ receipt.receiptHash

def assertPeer (sha256 : String → String) (now : ℤ) (account : FxAccount) (context : FxContext)
    (receipt : FxLegReceipt) (row : ReceiptRow) : Outcome Unit := do
  let original ← decodeReceipt sha256 now account context row
  throwIf ((← compareDecimal original.value receipt.value) ≠ 0) (invalidFx "QUOTE_CONFLICT")

def assertNoContradictedOriginal (sha256 : String → String) (now : ℤ) (account : FxAccount)
    (context : FxContext) (db : Database) (receipt : FxLegReceipt) : Outcome Unit := do
  let peers := ((db.receipts.rows.filter (peer account context receipt)).insertionSort
    (fun a b => a.id ≤ b.id)).take 257
  throwIf (256 < peers.length) (invalidFx "QUOTE_SET_UNBOUNDED")
  peers.forM (assertPeer sha256 now account context receipt)

end Receipts

section Conversions

/-- The receipts of a conversion in the order of their ordinals, at most four. -/
def referencedReceipts (accountId id : String) (db : Database) : List ReceiptRow :=
  (((db.references.rows.filter (fun row => row.conversionId = id && row.accountId = accountId)
    ).insertionSort (fun a b => a.ordinal ≤ b.ordinal)).filterMap (fun row =>
      db.receipts.rows.find? (fun receipt =>
        receipt.id = row.receiptId && receipt.accountId = row.accountId))).take 4

/-- The digest by which a stored conversion is compared with the derived one. -/
def evidenceDigest (sha256 : String → String) (value : FxConversionEvidence) : Outcome String :=
  fxEvidenceDigest sha256 "tsx-fx-account-conversion-v1"
    (.object (conversionMembers value.toFxConversion ++
      [("evidenceHash", .string value.evidenceHash)]))

def readFxConversion (sha256 : String → String) (now : ℤ) (account : FxAccount) (id : String)
    (db : Database) : Outcome StoredFxConversion := do
  let context ← requireFxAccountContext now account db
  match (db.conversions.find id).filter (fun row => row.accountId = account.id &&
      some row.accountFingerprint = account.externalAccountId &&
      some row.credentialGeneration = account.credentialGeneration) with
  | none => .error (invalidFx "CONVERSION_UNAVAILABLE")
  | some row => do
    let proof := row.payload
    let originals := referencedReceipts account.id id db
    throwIf (originals.length < 1 ∨ 3 < originals.length) (invalidFx "CONVERSION_ORIGINALS_MISSING")
    let receipts ← originals.mapM (decodeReceipt sha256 now account context)
    receipts.forM (assertNoContradictedOriginal sha256 now account context db)
    let conversion ← deriveFxConversion sha256 now (receipts.map FxLegReceipt.json) proof.baseAsset
      proof.quoteAsset proof.asOf context
    throwIf (row.evidenceHash ≠ conversion.evidenceHash) (invalidFx "CONVERSION_CHANGED")
    throwIf (id ≠ (← conversionId sha256 account conversion.evidenceHash))
      (invalidFx "CONVERSION_CHANGED")
    throwIf ((← evidenceDigest sha256 proof) ≠ (← evidenceDigest sha256 conversion))
      (invalidFx "CONVERSION_CHANGED")
    return ⟨id, conversion⟩

/-- `INSERT INTO trading_fx_conversion_receipts … ON CONFLICT(conversion_id,ordinal) DO NOTHING`. -/
def storeReference (sha256 : String → String) (account : FxAccount) (id : String) (db : Database)
    (entry : String × ℕ) : Outcome Database := do
  let receipt ← receiptId sha256 account entry.1
  return { db with references := (db.references.insert ⟨account.id, id, receipt, entry.2⟩).2 }

/-- `INSERT INTO trading_fx_conversions … ON CONFLICT(id) DO NOTHING`. -/
def storeConversion (account : FxAccount) (id : String) (conversion : FxConversionEvidence)
    (db : Database) : Database :=
  { db with conversions := (db.conversions.insert {
    id
    accountId := account.id
    accountFingerprint := account.externalAccountId.getD ""
    credentialGeneration := account.credentialGeneration.getD ""
    evidenceHash := conversion.evidenceHash
    payload := conversion }).2 }

def persistFxConversion (sha256 : String → String) (now : ℤ) (account : FxAccount)
    (baseAsset quoteAsset : String) (asOf : ℤ) (db : Database) :
    Outcome (StoredFxConversion × Database) := do
  let context ← requireFxAccountContext now account db
  let rows ← asOfReceipts now account context asOf db
  let receipts ← rows.mapM (decodeReceipt sha256 now account context)
  let conversion ← deriveFxConversion sha256 now (receipts.map FxLegReceipt.json) baseAsset
    quoteAsset
    asOf context
  let id ← conversionId sha256 account conversion.evidenceHash
  let db ← conversion.receiptHashes.zipIdx.foldlM (storeReference sha256 account id)
    (storeConversion account id conversion db)
  return (← readFxConversion sha256 now account id db, db)

end Conversions

end TsxCore.TradingFxRepository
