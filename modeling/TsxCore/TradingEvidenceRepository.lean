import TsxCore.TradingFillCapture

/-!
# Persistence of correlated fills (`trading_evidence_repository.ts`)

`persistCorrelatedFill` stores a fill of a managed order once. A fill whose native key is
stored with other economics is recorded as a conflict; a row from before native keys existed
is bound to its identity when its retained originals prove one
(`trading_fill_identity_repository.ts`). Every call is one transaction: its error leaves the
database as it was.
-/

namespace TsxCore.TradingEvidenceRepository

open Outcome TradingDecimal TradingTypes TradingFillIdentity TradingFillTables TradingRemoteEvidence
open TradingFillCapture
open TradingFillAccounting (truthy)
open TradingFx (textField numberField)

structure FillResult where
  order : Option OrderRow
  inserted : Bool
  fillId : Option String
  remoteFillKey : Option String

/-- `{ order: null, inserted: false }`. -/
def notInserted : FillResult := ⟨none, false, none, none⟩

section Correlation

def matchesOrder (order : OrderRow) (fill : ExchangeFill) : Bool :=
  order.exchangeOrderId = some fill.exchangeOrderId &&
    (truthy fill.symbol = none || fill.symbol = some order.symbol) &&
    (truthy order.providerSymbol = none || fill.providerSymbol = order.providerSymbol)

/-- The order of a client id, with the symbol of its intent. -/
def correlatedOrder (account : TradingAccount) (fill : ExchangeFill) (db : Database) :
    Option OrderRow :=
  db.orders.rows.find? (fun order =>
    order.accountId = account.id && some order.clientOrderId = fill.clientOrderId)

def managedOrder (account : TradingAccount) (fill : ExchangeFill) (db : Database) :
    Option OrderRow :=
  (correlatedOrder account fill db).filter (matchesOrder · fill)

def sameAmounts (row : FillRow) (fill : ExchangeFill) : Outcome Bool := do
  if (← compareDecimal row.price fill.price) ≠ 0 then return false
  else if (← compareDecimal row.quantity fill.quantity) ≠ 0 then return false
  else return decide ((← signedDecimal row.fee) = (← signedDecimal fill.fee))

def sameFill (row : FillRow) (order : OrderRow) (fill : ExchangeFill) : Outcome Bool :=
  if row.orderId ≠ order.id then return false
  else do
    return (← sameAmounts row fill) && row.feeAsset = fill.feeAsset && row.filledAt =
      fill.filledAt &&
      (row.providerSymbol = none || row.providerSymbol = fill.providerSymbol)

def assertFillAccount (account : TradingAccount) (db : Database) : Outcome Unit :=
  match db.accounts.find account.id with
  | none => .error (.error "FILL_ACCOUNT_IDENTITY_CHANGED")
  | some current =>
    throwIf (current.exchange ≠ account.exchange ∨ current.mode ≠ account.mode ∨
        (account.exchange ≠ "paper" ∧ current.externalAccountId ≠ account.externalAccountId))
      (.error "FILL_ACCOUNT_IDENTITY_CHANGED")

end Correlation

section Legacy

/-- `/^([A-Z0-9]+)\/(USDT|USDC):(USDT|USDC)$/`, settled in its quote. -/
def bybitPerpetualSymbol (symbol settlementAsset : String) : Bool :=
  let base := symbol.toList.takeWhile (· ≠ '/')
  let quote := settlementAsset.toList
  (settlementAsset = "USDT" || settlementAsset = "USDC") && base ≠ [] &&
    base.all (fun c => c.isUpper || c.isDigit) &&
    symbol.toList = base ++ '/' :: quote ++ ':' :: quote

def bybitOriginalMetadata (row : FillRow) (symbol : String) : Bool :=
  row.accounting.any (fun metadata => metadata.source = .ccxtMarket &&
    metadata.providerSymbol = symbol && bybitPerpetualSymbol symbol metadata.settlementAsset)

/-- An identity with the fields that every profile shares. -/
def baseIdentity (row : FillRow) (symbol profile marketNamespace providerMarketId : String) :
    ExchangeFillIdentity :=
  ⟨1, profile, marketNamespace, providerMarketId, symbol, row.exchangeFillId, none⟩

def bybitIdentity (row : FillRow) (symbol : String) (info : List (String × Json ℚ)) :
    Option ExchangeFillIdentity :=
  if bybitOriginalMetadata row symbol then
    (textField "symbol" info).map (baseIdentity row symbol "bybit_execution_v1" "linear")
  else none

/-- A time that is no integer fails the validation of the identity. -/
def hyperliquidIdentity (row : FillRow) (symbol : String) (info : List (String × Json ℚ)) :
    Option ExchangeFillIdentity :=
  match textField "coin" info, numberField "time" info with
  | some coin, some time =>
    if time.den = 1 then
      some { baseIdentity row symbol "hyperliquid_user_fill_v1" "perpetual" coin with
        scopeTimestamp := some time.num }
    else none
  | _, _ => none

def krakenIdentity (row : FillRow) (symbol : String) (info : List (String × Json ℚ)) :
    Option ExchangeFillIdentity :=
  if textField "identitySource" info = some "kraken_history_execution_v3" then
    (textField "tradeable" info).map
      (baseIdentity row symbol "kraken_history_execution_v3" "futures")
  else none

def legacyIdentity (account : TradingAccount) (row : FillRow) (order : OrderRow) :
    Option ExchangeFillIdentity :=
  let raw := object row.raw
  let info := objectField "info" raw
  match truthy order.providerSymbol with
  | none => none
  | some symbol =>
    if textField "symbol" raw ≠ some symbol then none
    else if account.exchange = "bybit" then bybitIdentity row symbol info
    else if account.exchange = "hyperliquid" then hyperliquidIdentity row symbol info
    else if account.exchange = "krakenfutures" then krakenIdentity row symbol info
    else none

def snapshot (row : FillRow) (order : OrderRow) (identity : Option ExchangeFillIdentity) :
    Outcome ExchangeFill :=
  match truthy order.exchangeOrderId with
  | none => .error (.error "Fill has no original exchange order identity.")
  | some exchangeOrderId =>
    return {
      identity := identity
      quantityNormalization := none
      exchangeFillId := row.exchangeFillId
      clientOrderId := some order.clientOrderId
      exchangeOrderId := exchangeOrderId
      symbol := some order.symbol
      providerSymbol := order.providerSymbol
      price := row.price
      quantity := row.quantity
      fee := row.fee
      feeAsset := row.feeAsset
      filledAt := row.filledAt
      accounting := none
      raw := row.raw }

def originalAccountBound (account : TradingAccount) (row : FillRow) : Bool :=
  (truthy row.accountFingerprint).isSome && row.accountFingerprint = fillAccountFingerprint account

def originalLiveProof (account : TradingAccount) (row : FillRow) (order : OrderRow)
    (db : Database) : Outcome (Option FillProof) :=
  if originalAccountBound account row = false then return none
  else match legacyIdentity account row order with
    | none => return none
    | some identity => do
      let proof ← provenFillIdentity account (← snapshot row order (some identity))
      return if db.originals.journalProves account row order then proof else none

def legacyProof (account : TradingAccount) (row : FillRow) (order : OrderRow) (db : Database) :
    Outcome (Option FillProof) :=
  if account.isPaper then
    if db.originals.paperProves row order then do
      provenFillIdentity account (← snapshot row order none)
    else return none
  else originalLiveProof account row order db

def safeLegacyProof (account : TradingAccount) (row : FillRow) (order : OrderRow)
    (db : Database) : Option FillProof :=
  match legacyProof account row order db with
  | .ok proof => proof
  | .error _ => none

def isUnboundLegacyRow (row : FillRow) : Bool :=
  row.identityStatus = .legacyUnresolved && row.remoteFillKey.isNone

/-- `SELECT_FILLS WHERE fills.id=? AND fills.account_id=?`. -/
def ownedFill (account : TradingAccount) (fillId : String) (db : Database) :
    Option (FillRow × OrderRow) :=
  (db.fillOf account.id fillId).bind (fun row => (db.orders.find row.orderId).map (row, ·))

/-- The row as it was read in the same transaction still has its original and its account. -/
def bindLegacyFillIdentity (account : TradingAccount) (fillId : String) (db : Database) :
    Outcome (Bool × Database) :=
  match ownedFill account fillId db with
  | none => return (false, db)
  | some (row, order) =>
    if isUnboundLegacyRow row = false then return (false, db)
    else match safeLegacyProof account row order db with
      | none => return (false, db)
      | some proof =>
        if (db.fills.lookup (account.id, proof.key)).isSome then return (false, db)
        else do return (true, ← bindIdentity db row.id proof)

/-- The loop over the candidates: it stops at the first one that cannot be bound. -/
def bindCandidates (account : TradingAccount) :
    List FillRow → Database → Outcome (Bool × Database)
  | [], db => return (true, db)
  | candidate :: rest, db => do
    let (bound, db) ← bindLegacyFillIdentity account candidate.id db
    if bound then bindCandidates account rest db else return (false, db)

inductive LegacyResolution
  | blocked
  | resolved (existing : Option FillRow)

def legacyCandidates (account : TradingAccount) (order : OrderRow) (fill : ExchangeFill)
    (db : Database) : List FillRow :=
  db.fills.rows.filter (fun row => row.accountId = account.id && row.remoteFillKey.isNone &&
    (row.exchangeFillId = fill.exchangeFillId ||
      (account.exchange = "krakenfutures" && row.orderId = order.id)))

/-- The only candidate of a simulated account, when it is the same fill. -/
def paperCandidate (account : TradingAccount) (order : OrderRow) (fill : ExchangeFill) :
    List FillRow → Outcome (Option FillRow)
  | [candidate] =>
    if account.isPaper then do
      return if ← sameFill candidate order fill then some candidate else none
    else return none
  | _ => return none

variable (services : Services)

/-- The fill stays an observation as long as an old row may be the same. -/
def blockLegacy (now : ℤ) (account : TradingAccount) (fill : ExchangeFill) (db : Database) :
    Outcome (LegacyResolution × Database) := do
  let event ← fillEvidence fill "legacy_fill_identity_unproven"
  return (.blocked, ← recordRemoteEvidence services.sha256 now account event db)

def resolveLegacyFill (now : ℤ) (account : TradingAccount) (order : OrderRow) (fill : ExchangeFill)
    (proof : FillProof) (db : Database) : Outcome (LegacyResolution × Database) :=
  if legacyCandidates account order fill db = [] then return (.resolved none, db)
  else if account.exchange ≠ "paper" then do
    let (bound, db) ← bindCandidates account (legacyCandidates account order fill db) db
    if bound then return (.resolved (db.fills.lookup (account.id, proof.key)), db)
    else blockLegacy services now account fill db
  else do
    match ← paperCandidate account order fill (legacyCandidates account order fill db) with
    | some existing => return (.resolved (some existing), ← bindIdentity db existing.id proof)
    | none => blockLegacy services now account fill db

end Legacy

section Persistence

variable (services : Services)

/-- The two contents of a conflict: the stored one, told as the incoming fill of its own order,
and the incoming one. -/
def conflictEvidence (existing : FillRow) (incoming : ExchangeFill) (db : Database) :
    Outcome (ExchangeUnresolvedEvent × ExchangeUnresolvedEvent) :=
  match db.orders.find existing.orderId with
  | none => .error ⟨"TypeError", none, "Cannot read properties of undefined"⟩
  | some original => do
    let stored ← evidenceOfOrder original.exchangeOrderId { incoming with
      clientOrderId := some original.clientOrderId
      symbol := some original.symbol
      providerSymbol := original.providerSymbol
      price := existing.price
      quantity := existing.quantity
      fee := existing.fee
      feeAsset := existing.feeAsset
      filledAt := existing.filledAt
      raw := .object []
      identity := existing.identity } "conflicting_fill"
    return (stored, ← fillEvidence incoming "conflicting_fill")

def recordFillConflict (now : ℤ) (account : TradingAccount) (existing : FillRow)
    (incoming : ExchangeFill) (db : Database) : Outcome Database := do
  let (stored, received) ← conflictEvidence existing incoming db
  let db ← recordRemoteEvidence services.sha256 now account stored db
  let db ← recordRemoteEvidence services.sha256 now account received db
  return classify (fun row => row.accountId = account.id && row.kind = .fill &&
      some row.identityKey = existing.remoteFillKey) .conflict (markFillConflict db existing.id)

def newFillRow (account : TradingAccount) (order : OrderRow) (fill : ExchangeFill)
    (proof : FillProof) (fillId : String) : FillRow where
  id := fillId
  orderId := order.id
  accountId := account.id
  exchangeFillId := fill.exchangeFillId
  price := fill.price
  quantity := fill.quantity
  fee := fill.fee
  feeAsset := fill.feeAsset
  filledAt := fill.filledAt
  raw := fill.raw
  accountFingerprint := fillAccountFingerprint account
  accounting := none
  accountingConflict := false
  providerSymbol := some proof.identity.providerSymbol
  remoteFillKey := some proof.key
  identityStatus := .proven
  identity := some proof.identity

/-- A delivery of a fill: the account and the evidence it was read with, the time and the
random id of the call. -/
structure Delivery where
  account : TradingAccount
  fill : ExchangeFill
  read : Option ExchangeAcquisitionEvidence
  now : ℤ
  uuid : String

/-- The stored row, inserted unless it exists. -/
def ensureFill (existing : Option FillRow) (row : FillRow) (db : Database) : Outcome Database :=
  match existing with
  | none => insertFill db row
  | some _ => return db

/-- The part of the transaction behind the checks of the stored row. -/
def captureFill (d : Delivery) (fill : ExchangeFill) (order : OrderRow) (proof : FillProof)
    (existing : Option FillRow) (db : Database) : Outcome (FillResult × Database) := do
  let fillId := (existing.map (·.id)).getD d.uuid
  let db ← ensureFill existing (newFillRow d.account order fill proof fillId) db
  let db ← markProvenFill services.sha256 d.account fill db
  let db ← captureFillAccounting services.sha256 d.now d.account fill fillId db
  let db ← captureFillQuantityEvidence services d.now d.account fill fillId existing.isNone
    d.read db
  return (⟨some order, existing.isNone, some fillId, some proof.key⟩, db)

/-- The stored row is compared with the fill before anything is captured. -/
def settleFill (d : Delivery) (fill : ExchangeFill) (order : OrderRow) (proof : FillProof)
    (existing : Option FillRow) (db : Database) : Outcome (FillResult × Database) :=
  match existing with
  | none => captureFill services d fill order proof none db
  | some row => do
    if ← sameFill row order fill then captureFill services d fill order proof (some row) db
    else return (notInserted, ← recordFillConflict services d.now d.account row fill db)

def storeFill (d : Delivery) (fill : ExchangeFill) (order : OrderRow) (proof : FillProof)
    (db : Database) : Outcome (FillResult × Database) :=
  match db.fills.lookup (d.account.id, proof.key) with
  | some row => settleFill services d fill order proof (some row) db
  | none => do
    match ← resolveLegacyFill services d.now d.account order fill proof db with
    | (.blocked, db) => return (notInserted, db)
    | (.resolved existing, db) => settleFill services d fill order proof existing db

/-- A fill that belongs to no managed order, or proves no identity, stays an observation. -/
def observeFill (d : Delivery) (fill : ExchangeFill) (reason : String) (db : Database) :
    Outcome (FillResult × Database) := do
  let event ← fillEvidence fill reason
  return (notInserted, ← recordRemoteEvidence services.sha256 d.now d.account event db)

/-- `fill = { ...fill, identity: proof.identity }`, once an identity is proven. -/
def identifiedFill (fill : ExchangeFill) : Option FillProof → ExchangeFill
  | none => fill
  | some proof => { fill with identity := some proof.identity }

def persistCorrelatedFill (d : Delivery) (db : Database) : Outcome (FillResult × Database) := do
  let proof ← provenFillIdentity d.account d.fill
  let fill := identifiedFill d.fill proof
  assertFillAccount d.account db
  match managedOrder d.account fill db, proof with
  | none, _ => observeFill services d fill "unmapped_fill" db
  | some _, none => observeFill services d fill "fill_identity_unproven" db
  | some order, some proof => storeFill services d fill order proof db

end Persistence

section Runs

/-- What happens to the tables: a fill is delivered, an old row is bound to its identity, or
other code changes the accounts, the orders or the originals. -/
inductive Action
  | deliver (d : Delivery)
  | bindLegacy (account : TradingAccount) (fillId : String)
  | surroundings (accounts : Keyed AccountRow.id) (orders : Keyed OrderRow.id)
      (originals : Originals)

variable (services : Services)

def deliver (d : Delivery) (db : Database) : Database :=
  match persistCorrelatedFill services d db with
  | .ok (_, next) => next
  | .error _ => db

def bindLegacy (account : TradingAccount) (fillId : String) (db : Database) : Database :=
  match bindLegacyFillIdentity account fillId db with
  | .ok (_, next) => next
  | .error _ => db

def perform : Action → Database → Database
  | .deliver d, db => deliver services d db
  | .bindLegacy account fillId, db => bindLegacy account fillId db
  | .surroundings accounts orders originals, db =>
    { db with accounts := accounts, orders := orders, originals := originals }

def run (actions : List Action) (db : Database) : Database :=
  actions.foldl (fun db action => perform services action db) db

end Runs

end TsxCore.TradingEvidenceRepository
