import Mathlib.Data.Char
import Mathlib.Data.List.Lex
import TsxCore.KeyedTable
import TsxCore.WorkflowFilters

/-!
# Account fallback runs (`workflow_repository.ts`)

Each exported function is one transaction on the tables below; a transaction that
throws leaves them as they are. Rows of `workflow_execution_paths` are kept in
their revision. Of the foreign keys, those of a candidate to its account and of a
candidate to its intent are modelled. A call reads the clock once.
-/

namespace TsxCore.Workflow

open Outcome TradingTypes

inductive FallbackRunStatus
  | probing
  | selected
  | exhausted
  | stopped
  deriving DecidableEq

inductive FallbackCandidateStatus
  | waiting
  | pending
  | unavailable
  | selected
  | stopped
  deriving DecidableEq

structure TradingAccount where
  id : String
  exchange : String
  mode : TradingAccountMode
  status : AccountStatus
  enabled : Bool
  killSwitchActive : Bool

structure TradingRuntimeState where
  killSwitchActive : Bool
  executionEnabled : Bool
  liveTradingEnabled : Bool

structure TradingIntent where
  id : String
  sourceSignalId : String
  rootSourceSignalId : String
  signalRunId : Option String
  workflowRevisionId : Option String
  executionPathId : Option String
  channelId : String
  strategyVersionId : String
  accountId : String
  exchange : String
  mode : TradingAccountMode
  symbol : String
  side : TradingSide
  status : TradingIntentStatus
  signal : ExecutableSignal
  blockReason : Option String
  error : Option String
  createdAt : ℤ
  updatedAt : ℤ

structure FallbackRun where
  id : String
  sourceSignalId : String
  workflowRevisionId : String
  signalRunId : String
  routeGroupKey : String
  channelId : String
  status : FallbackRunStatus
  currentRank : ℕ
  selectedIntentId : Option String
  stopReason : Option String
  createdAt : ℤ
  updatedAt : ℤ
  completedAt : Option ℤ

/-- The members of `details_json`. -/
structure CandidateDetails where
  message : String
  symbol : String
  policy : Option (List WorkflowFallbackReason)

structure FallbackCandidate where
  fallbackRunId : String
  rank : ℕ
  executionPathId : String
  accountId : String
  intentId : Option String
  status : FallbackCandidateStatus
  errorCode : Option String
  details : Option CandidateDetails
  fallbackOn : List WorkflowFallbackReason
  createdAt : ℤ
  updatedAt : ℤ

/-- A member of `branches` in the result of a signal run; absent and null members are `none`. -/
structure Branch where
  routeGroupKey : Option String
  pathId : Option String
  intentId : Option String
  status : Option String
  reason : Option String
  blockReason : Option String
  candidateCount : Option ℕ
  mode : Option String

def Branch.none : Branch := ⟨.none, .none, .none, .none, .none, .none, .none, .none⟩

structure FallbackRunSummary where
  routeGroupKey : String
  status : FallbackRunStatus
  currentRank : ℕ
  stopReason : Option String

structure SignalRunResult where
  branches : List Branch
  fallbackRuns : List FallbackRunSummary

structure WorkflowSignalRun where
  id : String
  sourceSignalId : String
  workflowRevisionId : String
  channelId : String
  status : String
  inputSha256 : String
  result : Option SignalRunResult
  createdAt : ℤ
  completedAt : Option ℤ

structure Database where
  revisions : Keyed (fun revision : WorkflowRevision => revision.id)
  activeRevisionId : Option String
  accounts : Keyed (fun account : TradingAccount => account.id)
  runtime : TradingRuntimeState
  intents : Keyed (fun intent : TradingIntent => intent.id)
  signalRuns : Keyed (fun run : WorkflowSignalRun => run.id)
  runs : Keyed (fun run : FallbackRun => run.id)
  candidates : Keyed (fun candidate : FallbackCandidate =>
    (candidate.fallbackRunId, candidate.rank))

namespace Database

variable (db : Database)

def executionPaths : List WorkflowExecutionPath := db.revisions.rows.flatMap (·.paths)

def executionPath (id : String) : Option WorkflowExecutionPath :=
  db.executionPaths.find? (·.id = id)

def activeWorkflow : Option WorkflowRevision := db.activeRevisionId.bind db.revisions.find

/-- `UPDATE trading_fallback_runs SET f WHERE id = ?`. -/
def updateRun (id : String) (f : FallbackRun → FallbackRun) (hf : ∀ run, (f run).id = run.id) :
    Database :=
  { db with runs := db.runs.update (·.id = id) f hf }

/-- `UPDATE trading_fallback_candidates SET f WHERE p`. -/
def updateCandidates (p : FallbackCandidate → Bool) (f : FallbackCandidate → FallbackCandidate)
    (hf : ∀ c, ((f c).fallbackRunId, (f c).rank) = (c.fallbackRunId, c.rank)) : Database :=
  { db with candidates := db.candidates.update p f hf }

end Database

def atRank (runId : String) (rank : ℕ) (candidate : FallbackCandidate) : Bool :=
  candidate.fallbackRunId = runId && candidate.rank = rank

def waitingIn (runId : String) (candidate : FallbackCandidate) : Bool :=
  candidate.fallbackRunId = runId && candidate.status = .waiting

def isTerminal : TradingIntentStatus → Bool
  | .completed | .blocked | .failed => true
  | _ => false

/-- `INSERT INTO trading_trade_intents`, with its two unique keys. -/
def insertIntent (intent : TradingIntent) (db : Database) : Outcome Database := do
  throwIf (db.intents.rows.any (fun row => row.rootSourceSignalId = intent.rootSourceSignalId ∧
      intent.executionPathId.isSome ∧ row.executionPathId = intent.executionPathId))
    (.error "UNIQUE constraint failed")
  let (inserted, intents) := db.intents.insert intent
  throwIf (!inserted) (.error "UNIQUE constraint failed")
  pure { db with intents }

def isWorkflowExecutionAuthorized (executionPathId : String) (db : Database) : Bool :=
  match db.executionPath executionPathId, db.activeWorkflow with
  | some original, some active =>
    original.enabled && active.paths.any (fun candidate => candidate.enabled &&
      candidate.channelId = original.channelId && candidate.accountId = original.accountId &&
      candidate.nodeIds = original.nodeIds)
  | _, _ => false

def workflowIntentBlockReason (path : WorkflowExecutionPath) (account : Option TradingAccount)
    (runtime : TradingRuntimeState) : Option String :=
  match account with
  | none => some "ACCOUNT_NOT_READY"
  | some account =>
    if !path.enabled || account.status != .ready || !account.enabled then some "ACCOUNT_NOT_READY"
    else if account.killSwitchActive then some "ACCOUNT_KILL_SWITCH_ACTIVE"
    else if runtime.killSwitchActive then some "KILL_SWITCH_ACTIVE"
    else if !runtime.executionEnabled then some "EXECUTION_DISABLED"
    else if account.mode = .live && !runtime.liveTradingEnabled then some "LIVE_TRADING_DISABLED"
    else none

def executionBlockReason (path : WorkflowExecutionPath) (db : Database) : Option String :=
  if isWorkflowExecutionAuthorized path.id db then
    workflowIntentBlockReason path (db.accounts.find path.accountId) db.runtime
  else some "WORKFLOW_EXECUTION_REVOKED"

structure WorkflowIntentInput where
  sourceSignalId : String
  channelId : String
  sourceText : String
  signal : ExecutableSignal
  executionPathIds : Option (List String)
  contentType : Option String
  workflowRevisionId : String
  receivedAt : Option ℤ

inductive Draw
  | signalRun
  | fallbackRun (routeGroupKey : String)
  | intent (pathId : String)

structure Services where
  now : ℤ
  randomUUID : Draw → String
  sha256 : String → String
  lower : String → String
  safeRegexTest : String → String → Outcome Bool

section Creating

variable (services : Services)

def Services.pathAllowsInput (path : WorkflowExecutionPath) (request : WorkflowIntentInput) :
    Outcome FilterResult :=
  Workflow.pathAllowsInput services.lower services.safeRegexTest path request.sourceText
    (request.contentType.getD "text")

/-- `account.exchange` throws for a missing account. -/
def requiredAccount (id : String) (db : Database) : Outcome TradingAccount :=
  match db.accounts.find id with
  | some account => pure account
  | none => .error ⟨"TypeError", none, "Cannot read properties of undefined (reading 'exchange')"⟩

def processWorkflowIntentPath (request : WorkflowIntentInput) (workflow : WorkflowRevision)
    (path : WorkflowExecutionPath) (runId : String) (db : Database) :
    Outcome ((Option TradingIntent × Option Branch) × Database) := do
  match ← services.pathAllowsInput path request with
  | .filtered reason =>
    pure ((none, some { Branch.none with
      pathId := some path.id, status := some "filtered", reason := some reason }), db)
  | .allowed =>
    match db.intents.rows.find? (fun row => row.rootSourceSignalId = request.sourceSignalId ∧
        row.executionPathId = some path.id) with
    | some existing => pure ((some existing, none), db)
    | none => do
      let blockReason := executionBlockReason path db
      let status : TradingIntentStatus := if blockReason.isSome then .blocked else .pending
      let account ← requiredAccount path.accountId db
      let intent : TradingIntent :=
        { id := services.randomUUID (.intent path.id)
          sourceSignalId := request.sourceSignalId
          rootSourceSignalId := request.sourceSignalId
          signalRunId := some runId
          workflowRevisionId := some workflow.id
          executionPathId := some path.id
          channelId := request.channelId
          strategyVersionId := path.strategyVersionId
          accountId := path.accountId
          exchange := account.exchange
          mode := account.mode
          symbol := request.signal.symbol
          side := request.signal.action
          status
          signal := request.signal
          blockReason
          error := none
          createdAt := request.receivedAt.getD services.now
          updatedAt := services.now }
      let db ← insertIntent intent db
      pure ((some intent, some { Branch.none with
        pathId := some path.id
        intentId := some intent.id
        status := some (if blockReason.isSome then "blocked" else "pending")
        blockReason }), db)

/-- `INSERT OR IGNORE INTO trading_fallback_runs`. -/
def insertFallbackRun (run : FallbackRun) (db : Database) : Database :=
  if db.runs.rows.any (fun row => row.sourceSignalId = run.sourceSignalId ∧
      row.workflowRevisionId = run.workflowRevisionId ∧ row.routeGroupKey = run.routeGroupKey)
        then db
  else { db with runs := (db.runs.insert run).2 }

/-- `INSERT OR IGNORE INTO trading_fallback_candidates`. -/
def insertFallbackCandidate (candidate : FallbackCandidate) (db : Database) : Outcome Database :=
  if db.candidates.rows.any (fun row => row.fallbackRunId = candidate.fallbackRunId ∧
      row.executionPathId = candidate.executionPathId) then pure db
  else do
    let (inserted, candidates) := db.candidates.insert candidate
    throwIf (inserted ∧ db.accounts.find candidate.accountId = none)
      (.error "FOREIGN KEY constraint failed")
    pure { db with candidates }

def candidateIntents (runId : String) (db : Database) : List TradingIntent :=
  ((db.candidates.rows.filter (·.fallbackRunId = runId)).insertionSort (·.rank ≤ ·.rank)).filterMap
    (fun candidate => candidate.intentId.bind db.intents.find)

/-- The candidate at `rank` gets its intent. -/
def linkCandidate (runId : String) (rank : ℕ) (intent : TradingIntent) (db : Database) :
    Outcome Database := do
  -- `UNIQUE(intent_id)`
  throwIf (db.candidates.rows.any (fun row => row.intentId = some intent.id))
    (.error "UNIQUE constraint failed")
  pure (db.updateCandidates (atRank runId rank) (fun candidate => { candidate with
    intentId := some intent.id
    status := if intent.status = .pending then .pending else .stopped
    errorCode := intent.blockReason
    updatedAt := services.now }) (fun _ => rfl))

/-- The candidates of a group with their paths, by rank. -/
def orderedCandidates (workflow : WorkflowRevision) (group : WorkflowRouteGroup) :
    List (WorkflowRouteCandidate × WorkflowExecutionPath) :=
  (group.candidates.filterMap (fun candidate =>
    (workflow.paths.find? (·.id = candidate.pathId)).map
      (fun path => (candidate, path)))).insertionSort
      (fun left right => left.1.rank ≤ right.1.rank)

def newFallbackRun (request : WorkflowIntentInput) (workflow : WorkflowRevision)
    (group : WorkflowRouteGroup) (runId : String) : FallbackRun where
  id := services.randomUUID (.fallbackRun group.key)
  sourceSignalId := request.sourceSignalId
  workflowRevisionId := workflow.id
  signalRunId := runId
  routeGroupKey := group.key
  channelId := request.channelId
  status := .probing
  currentRank := 0
  selectedIntentId := none
  stopReason := none
  createdAt := request.receivedAt.getD services.now
  updatedAt := services.now
  completedAt := none

def waitingCandidate (runId : String) (item : WorkflowRouteCandidate × WorkflowExecutionPath) :
    FallbackCandidate where
  fallbackRunId := runId
  rank := item.1.rank
  executionPathId := item.2.id
  accountId := item.2.accountId
  intentId := none
  status := .waiting
  errorCode := none
  details := none
  fallbackOn := item.1.fallbackOn
  createdAt := services.now
  updatedAt := services.now

def persistFallbackRouteGroup (request : WorkflowIntentInput) (workflow : WorkflowRevision)
    (group : WorkflowRouteGroup) (runId : String) (db : Database) :
    Outcome ((List TradingIntent × List Branch) × Database) := do
  let now := services.now
  let ordered := orderedCandidates workflow group
  throwIf (ordered.length ≠ group.candidates.length ∨ ordered.length < 2)
    (.error "Compiled fallback route group is incomplete.")
  let db := insertFallbackRun (newFallbackRun services request workflow group runId) db
  match db.runs.rows.find? (fun row => row.sourceSignalId = request.sourceSignalId ∧
      row.workflowRevisionId = workflow.id ∧ row.routeGroupKey = group.key) with
  | none => .error (.error "Fallback run could not be persisted.")
  | some fallbackRun => do
    let db ← ordered.foldlM (fun db item =>
      insertFallbackCandidate (waitingCandidate services fallbackRun.id item) db) db
    let existing := candidateIntents fallbackRun.id db
    match existing, ordered with
    | [], (_, primary) :: _ => do
      let ((intent, branch), db) ← processWorkflowIntentPath services request workflow primary
        runId db
      match intent with
      | none => pure (([], branch.toList), db)
      | some intent => do
        let db ← linkCandidate services fallbackRun.id 0 intent db
        let db := if intent.status ≠ .pending then
            (db.updateRun fallbackRun.id (fun run => { run with
              status := .stopped
              stopReason := some (intent.blockReason.getD "PRIMARY_ROUTE_BLOCKED")
              updatedAt := now
              completedAt := some now }) (fun _ => rfl)).updateCandidates (waitingIn fallbackRun.id)
              (fun candidate => { candidate with
                status := .stopped
                errorCode := some "PRIMARY_ROUTE_BLOCKED"
                updatedAt := now }) (fun _ => rfl)
          else db
        pure (([intent], [{ branch.getD Branch.none with
          routeGroupKey := some group.key
          candidateCount := some ordered.length
          mode := some "ordered_account_fallback" }]), db)
    | existing, _ => pure ((existing, []), db)

def workflowRunStatus (results : List TradingIntent) (branches : List Branch) : String :=
  if !results.any (·.status = .pending) then "blocked"
  else if results.any (·.status = .blocked) || branches.any (·.status = some "filtered") then
    "partially_blocked"
  else "completed"

def fallbackRunStatus (probing blocked selected : Bool) : String :=
  if probing then "running"
  else if blocked && selected then "partially_blocked"
  else if blocked then "blocked" else "completed"

def refreshWorkflowSignalRunFromFallback (fallbackRunId : String) (db : Database) : Database :=
  match db.runs.find fallbackRunId with
  | none => db
  | some fallbackRun =>
    let runs := (db.runs.rows.filter (·.signalRunId = fallbackRun.signalRunId)).insertionSort
      (fun left right => left.routeGroupKey.toList ≤ right.routeGroupKey.toList)
    let branches := ((db.signalRuns.find fallbackRun.signalRunId).bind (·.result)).elim []
      SignalRunResult.branches
    let probing := runs.any (·.status = .probing)
    let blocked := runs.any (fun run => run.status = .exhausted || run.status = .stopped)
    let selected := runs.any (·.status = .selected)
    { db with
      signalRuns := db.signalRuns.update (·.id = fallbackRun.signalRunId) (fun row => { row with
        status := fallbackRunStatus probing blocked selected
        result := some ⟨branches, runs.map (fun run =>
          ⟨run.routeGroupKey, run.status, run.currentRank, run.stopReason⟩)⟩
        completedAt := if probing then none else some services.now }) (fun _ => rfl) }

def persistRouteGroup (request : WorkflowIntentInput) (workflow : WorkflowRevision) (runId : String)
    (state : (List TradingIntent × List Branch) × Database) (group : WorkflowRouteGroup) :
    Outcome ((List TradingIntent × List Branch) × Database) :=
  let ((results, branches), db) := state
  match workflow.paths.find? (·.id = group.primaryPathId) with
  | none => .error (.error "Compiled workflow route group references a missing primary path.")
  | some primary => do
    match ← services.pathAllowsInput primary request with
    | .filtered reason => pure ((results, branches ++ [{ Branch.none with
        routeGroupKey := some group.key
        pathId := some primary.id
        status := some "filtered"
        reason := some reason }]), db)
    | .allowed =>
      if 1 < group.candidates.length then do
        let ((intents, more), db) ← persistFallbackRouteGroup services request workflow group
          runId db
        pure ((results ++ intents, branches ++ more), db)
      else do
        let ((intent, branch), db) ← processWorkflowIntentPath services request workflow primary
          runId db
        pure ((results ++ intent.toList, branches ++ branch.toList), db)

/-- `INSERT OR IGNORE INTO workflow_signal_runs`. -/
def insertSignalRun (run : WorkflowSignalRun) (db : Database) : Database :=
  if db.signalRuns.rows.any (fun row => row.sourceSignalId = run.sourceSignalId ∧
      row.workflowRevisionId = run.workflowRevisionId) then db
  else { db with signalRuns := (db.signalRuns.insert run).2 }

def persistWorkflowTradingIntents (request : WorkflowIntentInput) (workflow : WorkflowRevision)
    (groups : List WorkflowRouteGroup) (db : Database) :
    Outcome (List TradingIntent × Database) := do
  let now := services.now
  let db := insertSignalRun
    { id := services.randomUUID .signalRun
      sourceSignalId := request.sourceSignalId
      workflowRevisionId := workflow.id
      channelId := request.channelId
      status := "running"
      inputSha256 := services.sha256 request.sourceText
      result := none
      createdAt := request.receivedAt.getD now
      completedAt := none } db
  match db.signalRuns.rows.find? (fun row => row.sourceSignalId = request.sourceSignalId ∧
      row.workflowRevisionId = workflow.id) with
  | none => .error (.error "Created workflow signal run is missing.")
  | some run => do
    let request := { request with receivedAt := some run.createdAt }
    let ((results, branches), db) ←
      groups.foldlM (persistRouteGroup services request workflow run.id) (([], []), db)
    let db := { db with signalRuns := db.signalRuns.update (·.id = run.id) (fun row => { row with
      status := workflowRunStatus results branches
      result := some ⟨branches, []⟩
      completedAt := some now }) (fun _ => rfl) }
    match db.runs.rows.find? (fun row => row.signalRunId = run.id ∧ row.status = .probing) with
    | some probing => pure (results, refreshWorkflowSignalRunFromFallback services probing.id db)
    | none => pure (results, db)

def createWorkflowTradingIntents (input : WorkflowIntentInput) (db : Database) :
    Outcome (List TradingIntent × Database) := do
  throwIf (input.workflowRevisionId = "")
    (.error "Pinned workflow revision is required; review required.")
  match db.revisions.find input.workflowRevisionId with
  | none => .error (.error "Pinned workflow revision is missing; review required.")
  | some workflow => do
    let requested := input.executionPathIds.map List.dedup
    let channelPaths := workflow.paths.filter (·.channelId = input.channelId)
    let selectedPaths := channelPaths.filter (fun path => requested.all (path.id ∈ ·))
    throwIf (requested.any (fun paths => selectedPaths.length ≠ paths.length))
      (.error "Workflow execution path selection is stale or invalid.")
    if selectedPaths.isEmpty then pure ([], db)
    else do
      let selectedPathIds := selectedPaths.map (·.id)
      let groups := workflow.routeGroups.filter (fun group => group.channelId = input.channelId ∧
        group.candidates.any (fun candidate => candidate.pathId ∈ selectedPathIds))
      throwIf (requested.any (fun paths => groups.any (fun group =>
          group.candidates.any (fun candidate => candidate.pathId ∉ paths))))
        (.error ("Workflow execution path selection is stale or invalid because a fallback " ++
          "chain is incomplete."))
      persistWorkflowTradingIntents services input workflow groups db

end Creating

structure WorkflowFallbackAdvanceResult where
  advanced : Bool
  runId : String
  fromAccountId : String
  toAccountId : Option String
  reason : WorkflowFallbackReason

structure FallbackCurrentRow where
  candidate : FallbackCandidate
  run : FallbackRun

/-- A later candidate joined with its path and its account. -/
structure FallbackNextRow where
  candidate : FallbackCandidate
  path : WorkflowExecutionPath

def fallbackAdvanceResult (current : FallbackCurrentRow) (nextAccountId : Option String)
    (reason : WorkflowFallbackReason) (advanced : Bool) : WorkflowFallbackAdvanceResult :=
  ⟨advanced, current.candidate.fallbackRunId, current.candidate.accountId, nextAccountId, reason⟩

/-- The candidate of an intent, joined with its run. -/
def fallbackCurrentRow (intentId : String) (db : Database) : Option FallbackCurrentRow :=
  (db.candidates.rows.find? (·.intentId = some intentId)).bind (fun candidate =>
    (db.runs.find candidate.fallbackRunId).map (fun run => ⟨candidate, run⟩))

/-- A candidate joined with its path and its account. -/
def joinCandidate (db : Database) (candidate : FallbackCandidate) : Option FallbackNextRow :=
  (db.executionPath candidate.executionPathId).bind (fun path =>
    (db.accounts.find candidate.accountId).map (fun _ => ⟨candidate, path⟩))

def fallbackNextRow (candidate : FallbackCandidate) (db : Database) : Option FallbackNextRow :=
  (((db.candidates.rows.filter (fun row =>
      row.fallbackRunId = candidate.fallbackRunId ∧ candidate.rank < row.rank)).insertionSort
        (·.rank ≤ ·.rank)).filterMap (joinCandidate db)).head?

def loadFallbackAdvanceRows (intentId : String) (db : Database) :
    Option (FallbackCurrentRow × Option FallbackNextRow) :=
  (fallbackCurrentRow intentId db).map (fun current =>
    (current, fallbackNextRow current.candidate db))

section Advancing

variable (services : Services) (current : FallbackCurrentRow) (intent : TradingIntent)
  (reason : WorkflowFallbackReason) (message : String)

/-- The candidate at the rank of `current` is done with. -/
def markCandidate (status : FallbackCandidateStatus) (policy : Option (List WorkflowFallbackReason))
    (db : Database) : Database :=
  db.updateCandidates (atRank current.candidate.fallbackRunId current.candidate.rank)
    (fun candidate => { candidate with
      status
      errorCode := some reason.text
      details := some ⟨message, intent.symbol, policy⟩
      updatedAt := services.now }) (fun _ => rfl)

def stopWaiting (runId : String) (errorCode : Option String) (db : Database) : Database :=
  db.updateCandidates (waitingIn runId) (fun candidate => { candidate with
    status := .stopped
    errorCode
    updatedAt := services.now }) (fun _ => rfl)

def completeRun (runId : String) (status : FallbackRunStatus) (stopReason : Option String)
    (db : Database) : Database :=
  db.updateRun runId (fun run => { run with
    status
    stopReason
    updatedAt := services.now
    completedAt := some services.now }) (fun _ => rfl)

def exhaustFallbackRun (db : Database) : WorkflowFallbackAdvanceResult × Database :=
  let runId := current.candidate.fallbackRunId
  let db := markCandidate services current intent reason message .unavailable none db
  let db := completeRun services runId .exhausted (some reason.text) db
  (fallbackAdvanceResult current none reason false,
    refreshWorkflowSignalRunFromFallback services runId db)

def stopDisallowedFallback (next : FallbackNextRow) (policy : List WorkflowFallbackReason)
    (db : Database) : WorkflowFallbackAdvanceResult × Database :=
  let runId := current.candidate.fallbackRunId
  let db := markCandidate services current intent reason message .stopped (some policy) db
  let db := stopWaiting services runId (some reason.text) db
  let db := completeRun services runId .stopped (some reason.text) db
  (fallbackAdvanceResult current (some next.candidate.accountId) reason false,
    refreshWorkflowSignalRunFromFallback services runId db)

def insertPromotedFallbackIntent (next : FallbackNextRow) (db : Database) :
    Outcome (TradingIntent × Database) := do
  let path := next.path
  let blockReason := executionBlockReason path db
  let account ← requiredAccount path.accountId db
  let promoted : TradingIntent :=
    { id := services.randomUUID (.intent path.id)
      sourceSignalId := intent.sourceSignalId
      rootSourceSignalId := intent.rootSourceSignalId
      signalRunId := intent.signalRunId
      workflowRevisionId := intent.workflowRevisionId
      executionPathId := some path.id
      channelId := intent.channelId
      strategyVersionId := path.strategyVersionId
      accountId := path.accountId
      exchange := account.exchange
      mode := account.mode
      symbol := intent.symbol
      side := intent.side
      status := if blockReason.isSome then .blocked else .pending
      signal := intent.signal
      blockReason
      error := none
      createdAt := current.run.createdAt
      updatedAt := services.now }
  let db ← insertIntent promoted db
  pure (promoted, db)

def promoteFallbackCandidate (next : FallbackNextRow) (db : Database) :
    Outcome (WorkflowFallbackAdvanceResult × Database) := do
  let runId := current.candidate.fallbackRunId
  let db := markCandidate services current intent reason message .unavailable none db
  let (promoted, db) ← insertPromotedFallbackIntent services current intent next db
  let db ← linkCandidate services runId next.candidate.rank promoted db
  if promoted.status = .pending then
    let db := db.updateRun runId (fun run => { run with
      currentRank := next.candidate.rank
      updatedAt := services.now }) (fun _ => rfl)
    pure (fallbackAdvanceResult current (some next.candidate.accountId) reason true,
      refreshWorkflowSignalRunFromFallback services runId db)
  else
    let db := db.updateRun runId (fun run => { run with
      status := .stopped
      currentRank := next.candidate.rank
      stopReason := promoted.blockReason
      updatedAt := services.now
      completedAt := some services.now }) (fun _ => rfl)
    let db := stopWaiting services runId promoted.blockReason db
    pure (fallbackAdvanceResult current (some next.candidate.accountId) reason false,
      refreshWorkflowSignalRunFromFallback services runId db)

/-- `UPDATE trading_trade_intents SET status = 'blocked'`, guarded by the final-state trigger. -/
def blockIntent (db : Database) : Outcome Database := do
  throwIf ((db.intents.find intent.id).any
    (fun row => isTerminal row.status && row.status ≠ .blocked))
    (.error "Terminal trading intent cannot change state")
  pure { db with intents := db.intents.update (·.id = intent.id) (fun row => { row with
    status := .blocked
    blockReason := some reason.text
    error := some message
    updatedAt := services.now }) (fun _ => rfl) }

def advanceWorkflowFallbackTransaction (db : Database) :
    Outcome (Option WorkflowFallbackAdvanceResult × Database) := do
  let db ← blockIntent services intent reason message db
  match loadFallbackAdvanceRows intent.id db with
  | none => pure (none, db)
  | some (current, next) =>
    if current.run.status = .probing ∧ current.run.currentRank = current.candidate.rank then
      match next with
      | none =>
        let (result, db) := exhaustFallbackRun services current intent reason message db
        pure (some result, db)
      | some next =>
        let policy := current.candidate.fallbackOn
        if reason ∈ policy then do
          let (result, db) ← promoteFallbackCandidate services current intent reason message next db
          pure (some result, db)
        else
          let (result, db) :=
            stopDisallowedFallback services current intent reason message next policy db
          pure (some result, db)
    else pure (none, db)

def advanceWorkflowFallbackOnEligibleFailure (db : Database) :
    Outcome (Option WorkflowFallbackAdvanceResult × Database) :=
  advanceWorkflowFallbackTransaction services intent reason message db

end Advancing

section Finishing

variable (services : Services) (intentId : String)

/-- The candidate of an intent at which its run is probing. -/
def probingCandidate (db : Database) : Option FallbackCandidate :=
  ((fallbackCurrentRow intentId db).filter (fun current => current.run.status = .probing &&
    current.run.currentRank = current.candidate.rank)).map (·.candidate)

def markWorkflowFallbackSelected (db : Database) : Database :=
  match probingCandidate intentId db with
  | none => db
  | some candidate =>
    let runId := candidate.fallbackRunId
    let db := db.updateCandidates (atRank runId candidate.rank) (fun row => { row with
      status := .selected
      updatedAt := services.now }) (fun _ => rfl)
    let db := stopWaiting services runId (some "NOT_NEEDED") db
    let db := db.updateRun runId (fun run => { run with
      status := .selected
      selectedIntentId := some intentId
      updatedAt := services.now
      completedAt := some services.now }) (fun _ => rfl)
    refreshWorkflowSignalRunFromFallback services runId db

def stopWorkflowFallback (reason : String) (db : Database) : Database :=
  match probingCandidate intentId db with
  | none => db
  | some candidate =>
    let runId := candidate.fallbackRunId
    let db := db.updateCandidates (fun row => row.fallbackRunId = runId &&
        (row.status = .pending || row.status = .waiting)) (fun row => { row with
      status := .stopped
      errorCode := some reason
      updatedAt := services.now }) (fun _ => rfl)
    let db := completeRun services runId .stopped (some reason) db
    refreshWorkflowSignalRunFromFallback services runId db

end Finishing

end TsxCore.Workflow
