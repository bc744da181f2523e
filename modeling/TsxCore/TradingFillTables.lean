import TsxCore.IndexedTable
import TsxCore.TradingFillQuantityContract

/-!
# The tables behind a delivered fill

Rows of the fills, of the orders that own them and of the evidence kept about them. A fill
is stored under its id and, once its identity is proven, under its native key within its
account. A JSON column is kept as the value its text stands for.
-/

namespace TsxCore.TradingFillTables

open Outcome TradingFillIdentity

/-- `SQLITE_CONSTRAINT`. -/
def constraint : Thrown := .error "SQLITE_CONSTRAINT"

inductive IdentityStatus
  | legacyUnresolved
  | proven
  | conflict
  deriving DecidableEq

inductive EvidenceKind
  | fill
  | order
  deriving DecidableEq

inductive Classification
  | unresolved
  | conflict
  | managed
  | external
  deriving DecidableEq

inductive EvidenceValue
  | null
  | boolean (value : Bool)
  | number (value : ℤ)
  | text (value : String)
  deriving DecidableEq

abbrev Evidence := List (String × EvidenceValue)

structure AccountRow where
  id : String
  exchange : String
  mode : TradingTypes.TradingAccountMode
  externalAccountId : Option String
  credentialGeneration : Option String
  deriving DecidableEq

/-- A row of `trading_orders` with the symbol of its intent. -/
structure OrderRow where
  id : String
  accountId : String
  intentId : String
  role : TradingTypes.OrderRole
  clientOrderId : String
  exchangeOrderId : Option String
  providerSymbol : Option String
  symbol : String
  deriving DecidableEq

structure FillRow where
  id : String
  orderId : String
  accountId : String
  exchangeFillId : String
  price : String
  quantity : String
  fee : String
  feeAsset : Option String
  filledAt : ℤ
  raw : Json ℚ
  accountFingerprint : Option String
  accounting : Option TradingTypes.ExchangeFillAccounting
  accountingConflict : Bool
  providerSymbol : Option String
  remoteFillKey : Option String
  identityStatus : IdentityStatus
  identity : Option ExchangeFillIdentity

/-- The column pair of `uq_trading_fill_native_identity`. -/
def FillRow.native (row : FillRow) : Option (String × String) :=
  row.remoteFillKey.map (fun key => (row.accountId, key))

/-- `identity_status='conflict', accounting_conflict=1`. -/
def FillRow.conflicting (row : FillRow) : FillRow :=
  { row with identityStatus := .conflict, accountingConflict := true }

/-- `accounting_conflict = 1`. -/
def FillRow.contradicted (row : FillRow) : FillRow := { row with accountingConflict := true }

/-- `account_fingerprint = COALESCE(…), accounting_json = COALESCE(…)`. -/
def FillRow.completed (fingerprint : Option String)
    (accounting : Option TradingTypes.ExchangeFillAccounting) (row : FillRow) : FillRow :=
  { row with
    accountFingerprint := row.accountFingerprint.or fingerprint
    accounting := row.accounting.or accounting }

/-- `provider_symbol=?, remote_fill_key=?, identity_json=?, identity_status='proven'`. -/
def FillRow.identified (proof : FillProof) (row : FillRow) : FillRow :=
  { row with
    providerSymbol := some proof.identity.providerSymbol
    remoteFillKey := some proof.key
    identity := some proof.identity
    identityStatus := .proven }

structure RemoteEvidenceRow where
  accountId : String
  provider : String
  kind : EvidenceKind
  source : String
  providerId : Option String
  providerSymbol : Option String
  identityKey : String
  contentHash : String
  payload : Evidence
  reason : String
  classification : Classification
  firstSeenAt : ℤ
  lastSeenAt : ℤ
  accountFingerprint : Option String
  occurrenceCount : ℕ

/-- The columns of `UNIQUE(account_id, identity_key, content_hash)`. -/
def RemoteEvidenceRow.content (row : RemoteEvidenceRow) : String × String × String :=
  (row.accountId, row.identityKey, row.contentHash)

/-- A row of `trading_accounting_projection_evidence`. -/
structure ProjectionEvidenceRow where
  id : String
  intentId : String
  accountId : String
  evidenceJson : String
  createdAt : ℤ

inductive ObservationKind
  | initial
  | laterObservation

/-- A row of `trading_fill_quantity_evidence`. -/
structure QuantityEvidenceRow where
  id : String
  fillId : String
  accountId : String
  accountFingerprint : String
  credentialGeneration : String
  remoteFillKey : String
  providerAccountUid : String
  originalRawHash : String
  normalization : FillQuantityNormalization
  acquisitionJson : String
  observationKind : ObservationKind
  recordedAt : ℤ

/-- What the retained originals of other tables say: the journal of submitted operations and
the simulator's own fills. No function below writes them. -/
structure Originals where
  journalProves : TradingAccount → FillRow → OrderRow → Bool
  paperProves : FillRow → OrderRow → Bool

structure Database where
  accounts : Keyed AccountRow.id
  orders : Keyed OrderRow.id
  fills : Indexed FillRow.id FillRow.native
  remoteEvidence : Keyed RemoteEvidenceRow.content
  projectionEvidence : Keyed ProjectionEvidenceRow.id
  quantityEvidence : Keyed QuantityEvidenceRow.id
  originals : Originals

/-- `SELECT … FROM trading_fills WHERE account_id = ? AND id = ?`. -/
def Database.fillOf (db : Database) (accountId fillId : String) : Option FillRow :=
  (db.fills.find fillId).filter (·.accountId = accountId)

section Statements

variable (db : Database)

/-- `UPDATE trading_fills SET identity_status='conflict',accounting_conflict=1 WHERE id=?`. -/
def markFillConflict (fillId : String) : Database :=
  { db with
    fills := db.fills.set (fun row => row.id = fillId) FillRow.conflicting (fun _ => rfl)
      (fun _ => rfl) }

/-- `UPDATE trading_fills SET accounting_conflict = 1 WHERE id = ?`. -/
def markAccountingConflict (fillId : String) : Database :=
  { db with
    fills := db.fills.set (fun row => row.id = fillId) FillRow.contradicted (fun _ => rfl)
      (fun _ => rfl) }

/-- `UPDATE trading_fills SET account_fingerprint = …, accounting_json = … WHERE id = ?`. -/
def fillAccounting (fillId : String) (fingerprint : Option String)
    (accounting : Option TradingTypes.ExchangeFillAccounting) : Database :=
  { db with
    fills := db.fills.set (fun row => row.id = fillId) (FillRow.completed fingerprint accounting)
      (fun _ => rfl) (fun _ => rfl) }

/-- The text of the column `identity_json`. -/
def identityText (identity : ExchangeFillIdentity) : List Char :=
  JsonText.object [("version", JsonText.integer identity.version),
    ("profile", JsonText.string identity.profile),
    ("marketNamespace", JsonText.string identity.marketNamespace),
    ("providerMarketId", JsonText.string identity.providerMarketId),
    ("providerSymbol", JsonText.string identity.providerSymbol),
    ("providerFillId", JsonText.string identity.providerFillId),
    ("scopeTimestamp", nullableInteger identity.scopeTimestamp)]

/-- `UPDATE trading_fills SET … WHERE id=? AND remote_fill_key IS NULL`. -/
def bindIdentity (fillId : String) (proof : FillProof) : Outcome Database := do
  throwIf (8192 ≤ (identityText proof.identity).length) constraint
  match db.fills.update (fun row => row.id = fillId && row.remoteFillKey.isNone)
      (FillRow.identified proof) (fun _ => rfl) with
  | none => .error constraint
  | some fills => return { db with fills := fills }

/-- `INSERT INTO trading_fills`. -/
def insertFill (row : FillRow) : Outcome Database := do
  throwIf (row.identity.any (fun identity => 8192 ≤ (identityText identity).length) = true)
    constraint
  match db.fills.insert row with
  | none => .error constraint
  | some fills => return { db with fills := fills }

end Statements

end TsxCore.TradingFillTables
