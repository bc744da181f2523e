import TsxCore.TradingFillTables

/-!
# Remote economic evidence (`trading_evidence_repository.ts`)

What a provider reported and no managed order explains is kept under the identity of the
event, one row for each distinct content. Two contents of one fill are a conflict; a proven
fill later turns matching rows into managed ones.
-/

namespace TsxCore.TradingRemoteEvidence

open Outcome TradingFillIdentity TradingFillTables

def evidenceFields : List String :=
  ["exchangeFillId", "exchangeOrderId", "clientOrderId", "symbol", "providerSymbol", "side", "type",
    "price", "quantity", "cost", "fee", "feeAsset", "feeRate", "filledAt", "status",
    "filledQuantity", "triggerPrice", "reduceOnly", "averagePrice", "providerEventId",
    "providerTimestamp", "eventType", "eventOrderField", "providerReportedQuantity",
    "fillIdentityProfile", "fillMarketNamespace", "fillProviderMarketId", "fillScopeTimestamp",
    "providerParentOrderLinkId", "providerParentMarketId", "providerParentStopType"]

structure ExchangeUnresolvedEvent where
  kind : EvidenceKind
  source : String
  reason : String
  providerId : Option String
  providerSymbol : Option String
  evidence : Evidence

def lookup (field : String) (record : Evidence) : Option EvidenceValue :=
  (record.find? (·.1 = field)).map (·.2)

def nullableText : Option String → EvidenceValue
  | none => .null
  | some value => .text value

def nullableNumber : Option ℤ → EvidenceValue
  | none => .null
  | some value => .number value

def optionalText (field : String) : Option String → Evidence
  | none => []
  | some value => [(field, .text value)]

def boundedItem (item : String × EvidenceValue) : Outcome (String × EvidenceValue) := do
  match item.2 with
  | .text value =>
    throwIf (256 < utf16Length value)
      (.error "Remote economic evidence exceeds its safe field boundary.")
    return item
  | _ => return item

def economicEvidence (record : Evidence) : Outcome Evidence :=
  (evidenceFields.filterMap (fun field => (lookup field record).map (field, ·))).mapM boundedItem

/-- The fields of a fill of an order that `economicEvidence` may keep. -/
def fillRecord (exchangeOrderId : Option String) (fill : ExchangeFill) : Evidence :=
  [("exchangeFillId", .text fill.exchangeFillId), ("exchangeOrderId", nullableText exchangeOrderId),
      ("clientOrderId", nullableText fill.clientOrderId)] ++
    optionalText "symbol" fill.symbol ++ optionalText "providerSymbol" fill.providerSymbol ++
    [("price", .text fill.price), ("quantity", .text fill.quantity), ("fee", .text fill.fee),
      ("feeAsset", nullableText fill.feeAsset), ("filledAt", .number fill.filledAt)] ++
    match fill.identity with
    | none => []
    | some identity =>
      [("fillIdentityProfile", .text identity.profile),
        ("fillMarketNamespace", .text identity.marketNamespace),
        ("fillProviderMarketId", .text identity.providerMarketId),
        ("fillScopeTimestamp", nullableNumber identity.scopeTimestamp)]

/-- `fillEvidence` of a fill whose order may have no exchange id. -/
def evidenceOfOrder (exchangeOrderId : Option String) (fill : ExchangeFill) (reason : String) :
    Outcome ExchangeUnresolvedEvent := do
  return {
    kind := .fill
    source := "fetchMyTrades"
    reason := reason
    providerId := some fill.exchangeFillId
    providerSymbol := fill.unifiedSymbol
    evidence := ← economicEvidence (fillRecord exchangeOrderId fill) }

def fillEvidence (fill : ExchangeFill) (reason : String) : Outcome ExchangeUnresolvedEvent :=
  evidenceOfOrder (some fill.exchangeOrderId) fill reason

section Texts

def valueText : EvidenceValue → List Char
  | .null => "null".toList
  | .boolean value => if value then "true".toList else "false".toList
  | .number value => JsonText.integer value
  | .text value => JsonText.string value

/-- `JSON.stringify(evidence)`. -/
def payloadText (evidence : Evidence) : List Char :=
  JsonText.object (evidence.map (fun item => (item.1, valueText item.2)))

/-- An element of an array, where an absent value is written as `null`. -/
def elementText (value : Option EvidenceValue) : List Char := valueText (value.getD .null)

def kindText : EvidenceKind → String
  | .fill => "fill"
  | .order => "order"

/-- `event.evidence.fillIdentityProfile` is truthy. -/
def profiled (evidence : Evidence) : Bool :=
  match lookup "fillIdentityProfile" evidence with
  | some (.text value) => value ≠ ""
  | some (.boolean value) => value
  | some (.number value) => value ≠ 0
  | _ => false

def evidenceIdentity (account : TradingAccount) (event : ExchangeUnresolvedEvent) (hash : String) :
    String :=
  if event.kind = .fill ∧ profiled event.evidence = true then
    .ofList (JsonText.array [JsonText.string "fill-v1", JsonText.string account.exchange,
      JsonText.nullable (fillAccountFingerprint account),
      elementText (lookup "fillIdentityProfile" event.evidence),
      elementText (lookup "fillMarketNamespace" event.evidence),
      elementText (lookup "fillProviderMarketId" event.evidence),
      JsonText.nullable event.providerId,
      elementText (lookup "fillScopeTimestamp" event.evidence)])
  else
    .ofList (JsonText.array [JsonText.string "v2", JsonText.string account.exchange,
      JsonText.nullable account.externalAccountId, JsonText.string (kindText event.kind),
      JsonText.nullable event.providerSymbol,
      match TradingFillAccounting.truthy event.providerId with
      | some id => JsonText.string id
      | none => JsonText.array [JsonText.string "unidentified", JsonText.string event.source,
        JsonText.string hash]])

end Texts

section Repository

variable (sha256 : String → String)

/-- The row that an event inserts, before its classification is known. -/
def evidenceRow (now : ℤ) (account : TradingAccount) (event : ExchangeUnresolvedEvent) :
    Outcome RemoteEvidenceRow := do
  let payload ← economicEvidence event.evidence
  let hash := sha256 (.ofList (payloadText payload))
  throwIf (16384 < (payloadText payload).length ∨ hash.toList.length ≠ 64) constraint
  return {
    accountId := account.id
    provider := account.exchange
    kind := event.kind
    source := event.source
    providerId := event.providerId
    providerSymbol := event.providerSymbol
    identityKey := evidenceIdentity account event hash
    contentHash := hash
    payload := payload
    reason := .ofList (slice 256 event.reason.toList)
    classification := .unresolved
    firstSeenAt := now
    lastSeenAt := now
    accountFingerprint := account.externalAccountId
    occurrenceCount := 1 }

/-- Another content is stored under the identity of a fill. -/
def contentConflicts (row : RemoteEvidenceRow) (db : Database) : Bool :=
  row.kind = .fill && db.remoteEvidence.rows.any (fun stored =>
    stored.accountId = row.accountId && stored.identityKey = row.identityKey &&
      stored.contentHash ≠ row.contentHash)

/-- `INSERT … ON CONFLICT(account_id, identity_key, content_hash) DO UPDATE`. -/
def storeEvidence (row : RemoteEvidenceRow) (db : Database) : Database :=
  match db.remoteEvidence.find row.content with
  | none => { db with remoteEvidence := (db.remoteEvidence.insert row).2 }
  | some _ => { db with
      remoteEvidence := db.remoteEvidence.update (fun stored => stored.content = row.content)
        (fun stored => { stored with
          lastSeenAt := row.lastSeenAt
          occurrenceCount := stored.occurrenceCount + 1 }) (fun _ => rfl) }

/-- `UPDATE trading_remote_evidence SET classification = ? WHERE …`. -/
def classify (p : RemoteEvidenceRow → Bool) (classification : Classification) (db : Database) :
    Database :=
  { db with
    remoteEvidence := db.remoteEvidence.update p
      (fun stored => { stored with classification := classification }) (fun _ => rfl) }

def recordRemoteEvidence (now : ℤ) (account : TradingAccount) (event : ExchangeUnresolvedEvent)
    (db : Database) : Outcome Database := do
  let row ← evidenceRow sha256 now account event
  if contentConflicts row db then
    return classify (fun stored => stored.accountId = account.id &&
        stored.identityKey = row.identityKey) .conflict
      (storeEvidence { row with classification := .conflict } db)
  else return storeEvidence row db

def evidenceMatchesProvenFill (evidence : Evidence) (fill : ExchangeFill) : Bool :=
  lookup "exchangeFillId" evidence = some (.text fill.exchangeFillId) &&
    lookup "exchangeOrderId" evidence = some (.text fill.exchangeOrderId) &&
    lookup "price" evidence = some (.text fill.price) &&
    lookup "quantity" evidence = some (.text fill.quantity) &&
    lookup "fee" evidence = some (.text fill.fee) &&
    lookup "feeAsset" evidence = some (nullableText fill.feeAsset) &&
    lookup "filledAt" evidence = some (.number fill.filledAt) &&
    (lookup "clientOrderId" evidence = some .null ||
      lookup "clientOrderId" evidence = some (nullableText fill.clientOrderId))

def markProvenFill (account : TradingAccount) (fill : ExchangeFill) (db : Database) :
    Outcome Database := do
  let event ← fillEvidence fill "correlated_fill"
  let hash := sha256 (.ofList (payloadText event.evidence))
  return classify (fun stored => stored.accountId = account.id &&
    stored.identityKey = evidenceIdentity account event hash &&
    stored.classification = .unresolved && evidenceMatchesProvenFill stored.payload fill)
      .managed db

end Repository

end TsxCore.TradingRemoteEvidence
