import TsxCore.JsonText
import TsxCore.SqlTable
import TsxCore.Trace
import TsxCore.TradingStateTransitions

/-!
# The exchange-write journal (`trading_recovery.ts`)

Statements and transactions on the database are serialized by its single owner,
so each of them is one action. A call of `runJournaledExchangeWrite` is cut at
its suspension points; what happens in between is synchronous. The callbacks of
a call, the mutation of its input and the remote snapshot are arbitrary: their
outcomes come with the actions. Evidence is kept as its value instead of its
JSON text. Of the no-dispatch proof, the part that reads the journal is modelled;
its checks of intent, account, plan, position, orders and fills are the parameter
`planProof`.
-/

namespace TsxCore.TradingRecovery

open Outcome SqlTable TradingStateTransitions

inductive TradingOperationKind
  | submit
  | protectedEntry
  | cancel
  deriving DecidableEq

def TradingOperationKind.text : TradingOperationKind → String
  | .submit => "submit"
  | .protectedEntry => "protected_entry"
  | .cancel => "cancel"

inductive TradingOperationPhase
  | prepared
  | dispatching
  | acknowledged
  | unresolved
  | resolved
  | abandoned
  deriving DecidableEq

def TradingOperationPhase.text : TradingOperationPhase → String
  | .prepared => "prepared"
  | .dispatching => "dispatching"
  | .acknowledged => "acknowledged"
  | .unresolved => "unresolved"
  | .resolved => "resolved"
  | .abandoned => "abandoned"

structure OperationOrder where
  clientOrderId : String
  exchangeOrderId : Option String
  providerSymbol : Option String
  status : LocalOrderStatus

/-- What the journal reads of `trading_orders`. -/
structure OrderRow extends OperationOrder where
  intentId : String
  accountId : String

/-- The fields of an order result or snapshot that the journal reads. -/
structure ObservedOrder where
  clientOrderId : Option String
  exchangeOrderId : String
  providerSymbol : Option String
  status : LocalOrderStatus
  filledQuantity : Option String
  averagePrice : Option String

inductive Evidence
  | acknowledgement (orders : List ObservedOrder)
  | authoritativeOrderSnapshot (orders : List ObservedOrder)

/-- A row of `trading_operations`. -/
structure TradingOperation where
  id : String
  accountId : String
  intentId : String
  kind : TradingOperationKind
  logicalKey : String
  generation : ℕ
  accountFingerprint : Option String
  credentialGeneration : Option String
  requestHash : String
  requestJson : String
  expectedOrders : List OperationOrder
  phase : TradingOperationPhase
  evidence : Option Evidence
  lastError : Option String
  stateVersion : ℕ
  createdAt : ℕ

structure TradingAccount where
  id : String
  externalAccountId : Option String
  credentialGeneration : Option String

/-- `request` is the text `JSON.stringify(input.request)`. -/
structure TradingOperationInput where
  account : TradingAccount
  intentId : String
  kind : TradingOperationKind
  clientOrderIds : List String
  request : String

structure Database where
  operations : List TradingOperation
  orders : List OrderRow

def recoveryRequired (message : String) : Thrown :=
  ⟨"TradingRecoveryRequiredError", none, message⟩

def expectedOrders (db : Database) (input : TradingOperationInput) :
    Outcome (List OperationOrder) := do
  let ids := input.clientOrderIds.dedup
  throwIf (ids.length ≠ input.clientOrderIds.length ∨ ids.length < 1 ∨ 2 < ids.length)
    (.error "Invalid operation order identities.")
  let rows := (db.orders.filter (fun row => row.intentId = input.intentId ∧
    row.accountId = input.account.id ∧ row.clientOrderId ∈ ids)).mergeSort
      (fun left right => decide (left.clientOrderId ≤ right.clientOrderId))
  throwIf (rows.length ≠ ids.length) (.error "Operation does not have all expected local orders.")
  return rows.map (·.toOperationOrder)

def logicalKey (hash : String → String) (input : TradingOperationInput)
    (orders : List OperationOrder) : String :=
  hash (.ofList (JsonText.array [JsonText.string input.kind.text, JsonText.string input.intentId,
    JsonText.array (orders.map (fun order => JsonText.string order.clientOrderId))]))

def hasKey (accountId key : String) (operation : TradingOperation) : Bool :=
  operation.accountId = accountId ∧ operation.logicalKey = key

/-- `ORDER BY generation DESC LIMIT 1`. -/
def latestGeneration : List TradingOperation → Option TradingOperation
  | [] => none
  | operation :: rest =>
    match latestGeneration rest with
    | none => some operation
    | some later => some (if operation.generation < later.generation then later else operation)

def isInflight (phase : TradingOperationPhase) : Bool :=
  phase = .prepared ∨ phase = .dispatching ∨ phase = .unresolved

/-- The primary key, the unique generation and the index `uq_trading_operation_inflight`. -/
def insertOperation (db : Database) (operation : TradingOperation) : Outcome Database := do
  throwIf (db.operations.any (fun row => row.id = operation.id ∨
      (hasKey operation.accountId operation.logicalKey row ∧
        (row.generation = operation.generation ∨
          (isInflight row.phase ∧ isInflight operation.phase)))))
    (.error "SQLITE_CONSTRAINT")
  return { db with operations := db.operations ++ [operation] }

def newOperation (hash : String → String) (input : TradingOperationInput)
    (orders : List OperationOrder) (previous : Option TradingOperation) (id : String) (now : ℕ) :
    TradingOperation where
  id := id
  accountId := input.account.id
  intentId := input.intentId
  kind := input.kind
  logicalKey := logicalKey hash input orders
  generation := (previous.map (·.generation)).getD 0 + 1
  accountFingerprint := input.account.externalAccountId
  credentialGeneration := input.account.credentialGeneration
  requestHash := hash input.request
  requestJson := input.request
  expectedOrders := orders
  phase := .prepared
  evidence := none
  lastError := none
  stateVersion := 0
  createdAt := now

/-- A prepared row is handed out again only to the same request of the same identity. -/
def reusePrepared (hash : String → String) (db : Database) (input : TradingOperationInput)
    (previous : TradingOperation) : Outcome (Database × String) := do
  throwIf (previous.requestHash ≠ hash input.request ∨
      previous.accountFingerprint ≠ input.account.externalAccountId ∨
      previous.credentialGeneration ≠ input.account.credentialGeneration)
    (recoveryRequired "Prepared operation identity or request changed; recovery is required.")
  return (db, previous.id)

def insertPrepared (hash : String → String) (db : Database) (input : TradingOperationInput)
    (orders : List OperationOrder) (previous : Option TradingOperation) (id : String) (now : ℕ) :
    Outcome (Database × String) := do
  let db ← insertOperation db (newOperation hash input orders previous id now)
  return (db, id)

def prepareGeneration (hash : String → String) (db : Database) (input : TradingOperationInput)
    (orders : List OperationOrder) (id : String) (now : ℕ) :
    Option TradingOperation → Outcome (Database × String)
  | none => insertPrepared hash db input orders none id now
  | some previous =>
    if previous.phase = .prepared then reusePrepared hash db input previous
    else if previous.phase ∉ [.resolved, .abandoned] then .error (recoveryRequired
      ("Operation is " ++ previous.phase.text ++
        "; do not repeat the exchange write without recovery."))
    else insertPrepared hash db input orders (some previous) id now

/-- `prepareTradingOperation`, one transaction; `id` is the fresh `randomUUID()`. -/
def prepareTradingOperation (hash : String → String) (db : Database)
    (input : TradingOperationInput) (id : String) (now : ℕ) : Outcome (Database × String) := do
  let orders ← expectedOrders db input
  prepareGeneration hash db input orders id now
    (latestGeneration (db.operations.filter
      (hasKey input.account.id (logicalKey hash input orders))))

def operationTransitions : TradingOperationPhase → List TradingOperationPhase
  | .prepared => [.dispatching, .abandoned]
  | .dispatching => [.acknowledged, .unresolved, .abandoned, .resolved]
  | .acknowledged => [.resolved, .unresolved]
  | .unresolved => [.resolved]
  | .resolved => []
  | .abandoned => []

def isAt (id : String) (expected : TradingOperationPhase) (operation : TradingOperation) : Bool :=
  operation.id = id ∧ operation.phase = expected

def moveTo (next : TradingOperationPhase) (evidence : Option Evidence) (error : Option String)
    (operation : TradingOperation) : TradingOperation :=
  { operation with
    phase := next
    evidence := evidence <|> operation.evidence
    lastError := error
    stateVersion := operation.stateVersion + 1 }

def transitionTradingOperation (db : Database) (id : String)
    (expected next : TradingOperationPhase) (evidence : Option Evidence) (error : Option String) :
    Outcome Database := do
  throwIf (next ∉ operationTransitions expected)
    (.error "Invalid exchange operation phase transition.")
  throwIf (changes (isAt id expected) db.operations ≠ 1)
    (recoveryRequired "Exchange operation changed before its phase could commit.")
  return { db with
    operations := updateWhere (isAt id expected) (moveTo next evidence error) db.operations }

/-- The phase after `persist` returned these orders. -/
def persistedPhase (kind : TradingOperationKind) (orders : List ObservedOrder) :
    TradingOperationPhase :=
  let cancelIncomplete := kind = .cancel ∧
    orders.any (fun order => order.status ∉ [.cancelled, .filled, .rejected])
  if cancelIncomplete ∨ orders.any (fun order => order.status = .unknown) then .unresolved
  else .acknowledged

/-- The local `phase` of a write in which a failure is recorded. -/
inductive WritePhase
  | prepared
  | dispatching
  deriving DecidableEq

def WritePhase.operationPhase : WritePhase → TradingOperationPhase
  | .prepared => .prepared
  | .dispatching => .dispatching

def WritePhase.stateVersion : WritePhase → ℕ
  | .prepared => 0
  | .dispatching => 1

/-- `contradicted` in `recordWriteFailure`, from the row it reads. -/
def isContradicted (phase : WritePhase) (sent : Bool) : Option TradingOperation → Bool
  | none => !sent
  | some current =>
    !sent && (current.evidence.isSome || decide (current.stateVersion ≠ phase.stateVersion))

def contradictionMessage : String :=
  "NO_SEND_CONTRADICTED: journal contains acknowledgement or unexpected phase history."

/-- The transition at the end of `recordWriteFailure`. -/
def recordWriteFailure (db : Database) (id : String) (phase : WritePhase)
    (sent contradicted : Bool) (error : String) : Outcome Database :=
  transitionTradingOperation db id phase.operationPhase
    (if sent || contradicted then .unresolved else .abandoned) none
    (some (if contradicted then contradictionMessage else error))

/-- The candidate that `observedOperationEvidence` accepts for an expected order. -/
def observedOrder (remote : List ObservedOrder) (kind : TradingOperationKind)
    (order : OperationOrder) : Option ObservedOrder :=
  match remote.filter (fun candidate => candidate.clientOrderId = some order.clientOrderId) with
  | [candidate] =>
    if candidate.filledQuantity = none ∨ candidate.status = .unknown then none
    else if order.exchangeOrderId.any (fun id => id ≠ "" ∧ id ≠ candidate.exchangeOrderId) then none
    else if order.providerSymbol.any
        (fun symbol => symbol ≠ "" ∧ some symbol ≠ candidate.providerSymbol) then none
    else if kind = .cancel ∧ candidate.status ∉ [.cancelled, .filled, .rejected] then none
    else some candidate
  | _ => none

def observedOperationEvidence (expected : List OperationOrder) (remote : List ObservedOrder)
    (kind : TradingOperationKind) : Option (List ObservedOrder) :=
  if expected.length < 1 ∨ 2 < expected.length then none
  else expected.mapM (observedOrder remote kind)

/-- The rows that `resolveObservedOperations` reads before its loop. -/
def observableOperations (db : Database) (account : TradingAccount) : List TradingOperation :=
  (db.operations.filter (fun operation => operation.accountId = account.id ∧
    operation.phase ∈ [.dispatching, .unresolved, .acknowledged])).mergeSort
      (fun left right => decide (left.createdAt ≤ right.createdAt))

/-- One round of the loop in `resolveObservedOperations`. -/
def resolveObserved (db : Database) (account : TradingAccount) (remote : List ObservedOrder)
    (operation : TradingOperation) : Outcome Database :=
  if operation.accountFingerprint ≠ account.externalAccountId ∨
      operation.credentialGeneration ≠ account.credentialGeneration then .ok db
  else match observedOperationEvidence operation.expectedOrders remote operation.kind with
    | none => .ok db
    | some observed => transitionTradingOperation db operation.id operation.phase .resolved
        (some (.authoritativeOrderSnapshot observed)) none

/-- `unsentPlanOperation` without a dispatch witness. -/
def unsentPlanOperation (operation : TradingOperation) (allowAbandoned : Bool) : Bool :=
  if operation.kind ≠ .protectedEntry ∨ operation.evidence ≠ none then false
  else match operation.phase with
    | .prepared => operation.stateVersion = 0
    | .abandoned => allowAbandoned ∧ operation.stateVersion ∈ [1, 2]
    | _ => false

def hasUndispatchedPlanProof (planProof : Database → String → Bool → Bool) (db : Database)
    (intentId : String) (allowAbandoned : Bool) : Bool :=
  (db.operations.filter (·.intentId = intentId)).all
      (fun operation => unsentPlanOperation operation allowAbandoned) &&
    planProof db intentId allowAbandoned

def setStatus (intentId : String) (held : List LocalOrderStatus) (status : LocalOrderStatus)
    (orders : List OrderRow) : List OrderRow :=
  updateWhere (fun row => row.intentId = intentId ∧ row.status ∈ held)
    (fun row => { row with status := status }) orders

def recoverUndispatchedPlan (planProof : Database → String → Bool → Bool) (db : Database)
    (intentId : String) : Database :=
  if hasUndispatchedPlanProof planProof db intentId false then
    { db with orders := setStatus intentId [.submitting] .created db.orders }
  else db

def isPreparedFor (intentId : String) (operation : TradingOperation) : Bool :=
  operation.intentId = intentId ∧ operation.phase = .prepared

def abandonRow (operation : TradingOperation) : TradingOperation :=
  { operation with phase := .abandoned, stateVersion := operation.stateVersion + 1 }

def abandonUndispatchedPlan (planProof : Database → String → Bool → Bool) (db : Database)
    (intentId : String) : Database :=
  if hasUndispatchedPlanProof planProof db intentId true then
    { operations := updateWhere (isPreparedFor intentId) abandonRow db.operations
      orders := setStatus intentId [.created, .submitting] .cancelled db.orders }
  else db

/-- Where a call of `runJournaledExchangeWrite` is suspended. -/
inductive WriteStage
  | called
  | prepared (id : String)
  | ready (id : String)
  | dispatching (id : String)
  | fenced (id : String)
  | sent (id : String)
  | failed (id : String) (phase : WritePhase) (sent : Bool) (error : String)
  | recording (id : String) (phase : WritePhase) (sent contradicted : Bool) (error : String)
  | finished

structure Writer where
  input : TradingOperationInput
  stage : WriteStage

/-- A call of `resolveObservedOperations` with the rows its loop has not visited. -/
structure Resolver where
  account : TradingAccount
  remote : List ObservedOrder
  operations : List TradingOperation

/-- The database, the calls in progress and the operations whose `send` was invoked, in order. -/
structure System where
  db : Database
  writers : List Writer
  resolvers : List Resolver
  sends : List String

def initial (orders : List OrderRow) : System := ⟨⟨[], orders⟩, [], [], []⟩

/-- What `send` and the callback `persist` came to: the orders returned and the order table. -/
structure Persisted where
  orders : List ObservedOrder
  table : List OrderRow

inductive Action
  /-- `runJournaledExchangeWrite` is called. -/
  | call (input : TradingOperationInput)
  | prepare (writer : ℕ) (id : String) (now : ℕ)
  /-- `beforeDispatch` between its two checks of the input, or what one of them threw. -/
  | beforeDispatch (writer : ℕ) (thrown : Option String)
  | dispatch (writer : ℕ)
  /-- The early `guard` and `beforeSend`. -/
  | fence (writer : ℕ) (thrown : Option String)
  /-- The final `guard` and, if it passes, the call of `send`. -/
  | send (writer : ℕ) (thrown : Option String)
  /-- The result of `send`, and the transaction around `persist`. -/
  | persist (writer : ℕ) (result : Except String Persisted)
  | readFailure (writer : ℕ)
  | recordFailure (writer : ℕ)
  /-- A statement of the call fails and the call ends. -/
  | abort (writer : ℕ)
  /-- `resolveObservedOperations` is called. -/
  | observe (account : TradingAccount) (remote : List ObservedOrder)
  | resolve (resolver : ℕ)
  | recoverUndispatchedPlan (intentId : String)
  | abandonUndispatchedPlan (intentId : String)
  /-- Other code writes `trading_orders`. -/
  | writeOrders (orders : List OrderRow)
  | crash

namespace System

def setStage (s : System) (writer : ℕ) (w : Writer) (stage : WriteStage) : List Writer :=
  s.writers.set writer { w with stage := stage }

/-- A database operation of a writer: its effect and the stage after success or failure. -/
def commit (s : System) (writer : ℕ) (w : Writer) (result : Outcome Database)
    (success : WriteStage) (failure : String → WriteStage) : System :=
  match result with
  | .ok db => { s with db := db, writers := s.setStage writer w success }
  | .error e => { s with writers := s.setStage writer w (failure e.message) }

/-- A callback of a writer: the stage after it returned or threw. -/
def callback (s : System) (writer : ℕ) (w : Writer) (thrown : Option String)
    (success : WriteStage) (failure : String → WriteStage) : System :=
  { s with writers := s.setStage writer w (thrown.elim success failure) }

end System

/-- The transaction around `persist`. -/
def persistResult (db : Database) (id : String) (kind : TradingOperationKind) :
    Except String Persisted → Outcome Database
  | .error message => .error (.error message)
  | .ok result => transitionTradingOperation { db with orders := result.table } id .dispatching
      (persistedPhase kind result.orders) (some (.acknowledgement result.orders)) none

/-- The read at the start of `recordWriteFailure`. -/
def readFailure (db : Database) (id : String) (phase : WritePhase) (sent : Bool) (error : String) :
    WriteStage :=
  let contradicted := isContradicted phase sent (db.operations.find? (·.id = id))
  if contradicted ∧ phase = .prepared then .finished
  else .recording id phase sent contradicted error

section Steps

variable (hash : String → String) (planProof : Database → String → Bool → Bool)

/-- The step of one writer; `none` when it is not suspended there. -/
def writerStep (s : System) (writer : ℕ) (w : Writer) (action : Action) : Option System :=
  match action, w.stage with
  | .prepare _ id now, .called =>
    match prepareTradingOperation hash s.db w.input id now with
    | .ok (db, id) => some { s with db := db, writers := s.setStage writer w (.prepared id) }
    | .error _ => some { s with writers := s.setStage writer w .finished }
  | .beforeDispatch _ thrown, .prepared id =>
    some (s.callback writer w thrown (.ready id) (.failed id .prepared false))
  | .dispatch _, .ready id =>
    some (s.commit writer w (transitionTradingOperation s.db id .prepared .dispatching none none)
      (.dispatching id) (.failed id .prepared false))
  | .fence _ thrown, .dispatching id =>
    some (s.callback writer w thrown (.fenced id) (.failed id .dispatching false))
  | .send _ (some error), .fenced id =>
    some { s with writers := s.setStage writer w (.failed id .dispatching false error) }
  | .send _ none, .fenced id =>
    some { s with writers := s.setStage writer w (.sent id), sends := s.sends ++ [id] }
  | .persist _ result, .sent id =>
    some (s.commit writer w (persistResult s.db id w.input.kind result) .finished
      (.failed id .dispatching true))
  | .readFailure _, .failed id phase sent error =>
    some { s with writers := s.setStage writer w (readFailure s.db id phase sent error) }
  | .recordFailure _, .recording id phase sent contradicted error =>
    some (s.commit writer w (recordWriteFailure s.db id phase sent contradicted error) .finished
      (fun _ => .finished))
  | .abort _, _ => some { s with writers := s.setStage writer w .finished }
  | _, _ => none

/-- One round of a resolver; a round that throws ends the call. -/
def resolverStep (s : System) (resolver : ℕ) (r : Resolver) : Option System :=
  match r.operations with
  | [] => none
  | operation :: rest =>
    match resolveObserved s.db r.account r.remote operation with
    | .ok db => some { s with
        db := db
        resolvers := s.resolvers.set resolver { r with operations := rest } }
    | .error _ => some { s with
        resolvers := s.resolvers.set resolver { r with operations := [] } }

def Action.writer : Action → Option ℕ
  | .prepare writer _ _ | .beforeDispatch writer _ | .dispatch writer | .fence writer _
  | .send writer _ | .persist writer _ | .readFailure writer | .recordFailure writer
  | .abort writer => some writer
  | _ => none

def step (s : System) (action : Action) : Option System :=
  match action with
  | .call input => some { s with writers := s.writers ++ [⟨input, .called⟩] }
  | .observe account remote => some { s with
      resolvers := s.resolvers ++ [⟨account, remote, observableOperations s.db account⟩] }
  | .resolve resolver => do resolverStep s resolver (← s.resolvers[resolver]?)
  | .recoverUndispatchedPlan intentId => some { s with
      db := recoverUndispatchedPlan planProof s.db intentId }
  | .abandonUndispatchedPlan intentId => some { s with
      db := abandonUndispatchedPlan planProof s.db intentId }
  | .writeOrders orders => some { s with db := { s.db with orders := orders } }
  | .crash => some { s with writers := [], resolvers := [] }
  | action => do
    let writer ← action.writer
    writerStep hash s writer (← s.writers[writer]?) action

end Steps

end TsxCore.TradingRecovery
