import TsxCore.McpRepository
import TsxCore.Trace

/-!
# The worker of agents' changes (`mcp_control_bridge.ts`)

The worker of the bridge is cut at the calls that it awaits, and everything that reaches
its tables from elsewhere is an action of its own. What a call meets (the startup
authority, the database, the audit trail, preflight, the handler) comes with the action.
The history is remembered for the statements below.
-/

namespace TsxCore.Mcp

open Outcome

inductive Queue
  | request
  | proposal
  deriving DecidableEq

inductive Phase
  | authorize
  | agents
  | recordAuthorized
  | assertActive
  | preflight
  | handling
  | recordCompleted (result : Option String)
  | complete (result : Option String)
  | recordFailed (message : String)
  | completeFailed (message : String)
  deriving DecidableEq

structure Job where
  queue : Queue
  ticket : Ticket
  phase : Phase
  deriving DecidableEq

inductive Worker
  | idle
  | recoverRequests
  | recoverProposals
  | claimRequest
  | expireProposals
  | claimProposal
  | job (job : Job)
  deriving DecidableEq

inductive Event
  | created (queue : Queue) (ticket : Ticket)
  | approved (id : String)
  | claimed (queue : Queue) (id : String) (mode : McpRuntimeMode)
  | invoked (queue : Queue) (ticket : Ticket) (handler : String)
  | returned (queue : Queue) (id : String)
  /-- The deletion of its agent found the row unsettled. -/
  | swept (queue : Queue) (id : String)
  /-- The program stopped while the worker had the row. -/
  | crashed (queue : Queue) (id : String)
  deriving DecidableEq

structure State where
  tables : Tables
  worker : Worker
  recovered : Bool
  history : List Event

structure World where
  /-- `startup.canMutate()`. -/
  ready : Bool
  /-- The awaited statement or audit record does not fail. -/
  ok : Bool
  /-- The message of what failed. -/
  message : String
  now : ℤ
  blockers : List String
  outcome : Except String (Option String)

def actionPermission : String → String
  | "risk.update" | "risk.delete" => "risk.write"
  | "trading.reconcile" => "trading.reconcile"
  | "trading.cancel_entries" => "trading.cancel_entries"
  | "trading.kill_switch" => "trading.kill_switch"
  | "trading.flatten" => "trading.flatten"
  | _ => "contracts.write"

def proposalPermission (action : String) : String :=
  if startsWith "contracts." action || startsWith "schemas." action then "contracts.write"
  else if startsWith "strategies." action then "strategies.write"
  else if startsWith "routes." action then "routes.write"
  else if startsWith "risk." action then "risk.write"
  else if startsWith "workflow." action then "workflow.write"
  else "trading.kill_switch"

/-- The method that `executeAuthorized` calls. -/
def requestHandler : String → Option String
  | "contracts.create" => some "createSignalContract"
  | "contracts.update" => some "updateSignalContract"
  | "contracts.publish" => some "publishSignalContract"
  | "contracts.archive" => some "archiveSignalContract"
  | "contracts.delete_draft" => some "removeSignalContractDraft"
  | "risk.update" => some "setChannelRiskPolicy"
  | "risk.delete" => some "removeChannelRiskPolicy"
  | "trading.reconcile" => some "reconcile"
  | "trading.cancel_entries" => some "cancelEntries"
  | "trading.kill_switch" => some "setRuntime"
  | "trading.flatten" => some "emergencyFlatten"
  | _ => none

/-- The method that `executeAuthorizedProposal` calls. -/
def proposalHandler : String → Option String
  | "contracts.create_version" => some "createSignalContractVersion"
  | "contracts.duplicate" => some "duplicateSignalContract"
  | "contracts.publish" => some "publishSignalContract"
  | "contracts.archive" => some "archiveSignalContract"
  | "contracts.delete_draft" => some "removeSignalContractDraft"
  | "contracts.delete_version" => some "removeSignalContractVersion"
  | "schemas.create" => some "createSignalSchema"
  | "schemas.update" => some "updateSignalSchema"
  | "schemas.delete" => some "removeSignalSchema"
  | "strategies.create" => some "createStrategy"
  | "strategies.update" => some "updateStrategy"
  | "strategies.publish" => some "publishStrategy"
  | "strategies.archive" => some "archiveStrategy"
  | "strategies.delete" => some "removeStrategy"
  | "routes.set" => some "setRoute"
  | "routes.delete" => some "removeRoute"
  | "risk.update" => some "setChannelRiskPolicy"
  | "risk.delete" => some "removeChannelRiskPolicy"
  | "workflow.resource_create" => some "createWorkflowResource"
  | "workflow.resource_update" => some "updateWorkflowResource"
  | "workflow.resource_publish" => some "publishWorkflowResource"
  | "workflow.resource_archive" => some "archiveWorkflowResource"
  | "workflow.resource_delete_draft" => some "deleteWorkflowResourceDraft"
  | "workflow.activate" => some "activateWorkflow"
  | "trading.release_kill_switch" => some "setRuntime"
  | _ => none

namespace Job

def permission (job : Job) : String :=
  match job.queue with
  | .request => actionPermission job.ticket.action
  | .proposal => proposalPermission job.ticket.action

/-- The handler of the job's action, or what is thrown before one is called. -/
def handler (job : Job) : Except String String :=
  match job.queue with
  | .request =>
    if !isObject job.ticket.payload then .error "MCP control payload must be an object."
    else match requestHandler job.ticket.action with
      | some handler => .ok handler
      | none => .error ("MCP control action is not implemented: " ++ job.ticket.action)
  | .proposal => match proposalHandler job.ticket.action with
      | some handler => .ok handler
      | none => .error "handlers[proposal.action] is not a function"

def complete (job : Job) (t : Tables) (outcome : Except String (Option String)) (now : ℤ) :
    Outcome Tables :=
  match job.queue with
  | .request => completeMcpControlRequest t job.ticket.id outcome now
  | .proposal => completeMcpProposal t job.ticket.id outcome now

end Job

namespace State

def setPhase (s : State) (job : Job) (phase : Phase) : State :=
  { s with worker := .job { job with phase := phase } }

def log (s : State) (events : List Event) : State := { s with history := s.history ++ events }

def invoke (s : State) (job : Job) : State :=
  match job.handler with
  | .error message => s.setPhase job (.recordFailed message)
  | .ok handler => (s.setPhase job .handling).log [.invoked job.queue job.ticket handler]

/-- A step of `execute` or `executeProposal`. -/
def workJob (s : State) (job : Job) (w : World) : State :=
  match job.phase with
  | .authorize =>
    if !w.ready || !w.ok then s.setPhase job (.recordFailed w.message)
    else if s.tables.mode ≠ .active then s.setPhase job (.recordFailed inactive.message)
    else s.setPhase job .agents
  | .agents =>
    if !w.ok then s.setPhase job (.recordFailed w.message)
    else if ((listMcpAgents s.tables).find? (fun a => a.id = job.ticket.agentId)).any
        (fun a => agentHasPermission a job.permission) then s.setPhase job .recordAuthorized
    else s.setPhase job (.recordFailed (match job.queue with
      | .request => "MCP agent is disabled, missing, or no longer has the required permission."
      | .proposal =>
        "MCP agent is disabled, missing, or no longer has the required proposal permission."))
  | .recordAuthorized =>
    if !w.ok then s.setPhase job (.recordFailed w.message) else s.setPhase job .assertActive
  | .assertActive =>
    if !w.ok then s.setPhase job (.recordFailed w.message)
    else if s.tables.mode ≠ .active then s.setPhase job (.recordFailed inactive.message)
    else if !w.ready then s.setPhase job (.recordFailed w.message)
    else match job.queue with
      | .request => s.invoke job
      | .proposal => s.setPhase job .preflight
  | .preflight =>
    if w.blockers ≠ [] then
      s.setPhase job (.recordFailed
        ("MCP execution preflight blocked: " ++ " ".intercalate w.blockers))
    else s.invoke job
  | .handling =>
    match w.outcome with
    | .error message => s.setPhase job (.recordFailed message)
    | .ok result => (s.setPhase job (.recordCompleted result)).log
      [.returned job.queue job.ticket.id]
  | .recordCompleted result =>
    if !w.ok then s.setPhase job (.recordFailed w.message) else s.setPhase job (.complete result)
  | .complete result =>
    if !w.ok then s.setPhase job (.recordFailed w.message)
    else match job.complete s.tables (.ok result) w.now with
      | .error thrown => s.setPhase job (.recordFailed thrown.message)
      | .ok tables => { s with tables := tables, worker := .idle }
  | .recordFailed message => s.setPhase job (.completeFailed message)
  | .completeFailed message =>
    if !w.ok then { s with worker := .idle }
    else match job.complete s.tables (.error message) w.now with
      | .error _ => { s with worker := .idle }
      | .ok tables => { s with tables := tables, worker := .idle }

/-- A step of `pollOnce`. -/
def work (s : State) (w : World) : State :=
  match s.worker with
  | .idle =>
    if !w.ready || !w.ok || s.tables.mode ≠ .active then s
    else { s with worker := if s.recovered then .claimRequest else .recoverRequests }
  | .recoverRequests =>
    if !w.ready || !w.ok then { s with worker := .idle }
    else { s with
      tables := recoverInterruptedMcpControlRequests s.tables w.now
      worker := .recoverProposals }
  | .recoverProposals =>
    if !w.ready || !w.ok then { s with worker := .idle }
    else { s with
      tables := recoverInterruptedMcpProposals s.tables w.now
      worker := .claimRequest
      recovered := true }
  | .claimRequest =>
    if !w.ready || !w.ok then { s with worker := .idle }
    else match claimNextMcpControlRequest s.tables w.now with
      | (none, tables) => { s with tables := tables, worker := .expireProposals }
      | (some row, tables) =>
        { s with tables := tables, worker := .job ⟨.request, row.toTicket, .authorize⟩ }.log
          [.claimed .request row.id s.tables.mode]
  | .expireProposals =>
    if !w.ok then { s with worker := .idle }
    else { s with tables := expireMcpProposals s.tables w.now, worker := .claimProposal }
  | .claimProposal =>
    if !w.ok then { s with worker := .idle }
    else match claimNextApprovedMcpProposal s.tables with
      | (claimed, proposal, tables) =>
        { s with
          tables := tables
          worker := match proposal with
            | none => .idle
            | some row => .job ⟨.proposal, row.toTicket, .authorize⟩ }.log
          (claimed.toList.map (fun id => .claimed .proposal id s.tables.mode))
  | .job job => s.workJob job w

end State

inductive Action
  | setMode (mode : McpRuntimeMode) (now : ℤ)
  | enqueue (id agentId action : String) (payload : Option String) (now : ℤ)
  | propose (id agentId action : String) (payload : Option String) (autoApprove : Bool)
    (blockers : List String) (now : ℤ)
  | list (now : ℤ)
  | approve (reads : ApprovalReads) (id actor : String) (now : ℤ)
  | reject (id actor : String) (reason : Option String) (now : ℤ)
  | updateAgent (id : String) (permissions : List String) (enabled : Bool)
    (baseUpdatedAt : Option ℤ) (now : ℤ)
  | deleteAgent (id : String) (now : ℤ)
  | work (w : World)
  /-- `stop` and `start` of the bridge, whose worker ends its round first. -/
  | restart
  | crash

/-- The rows of an agent that its deletion finds unsettled. -/
def sweptRows (t : Tables) (agentId : String) : List Event :=
  (t.requests.rows.filter (fun r =>
      r.agentId = agentId && (r.status = .pending || r.status = .running))).map
        (.swept .request ·.id) ++
  (t.proposals.rows.filter (fun r => r.agentId = agentId &&
      (r.status = .pending || r.status = .approved || r.status = .executing))).map
        (.swept .proposal ·.id)

def State.commit (s : State) (result : Outcome Tables) (events : List Event) : State :=
  match result with
  | .error _ => s
  | .ok tables => { s with tables := tables }.log events

def step (s : State) : Action → Option State
  | .setMode mode now => some { s with tables := setMcpRuntimeMode s.tables mode now }
  | .enqueue id agentId action payload now =>
    some (s.commit (enqueueMcpControlRequest s.tables id agentId action payload now)
      [.created .request ⟨id, agentId, action, payload.getD ""⟩])
  | .propose id agentId action payload autoApprove blockers now =>
    some (s.commit (createMcpProposal s.tables id agentId action payload autoApprove blockers now)
      [.created .proposal ⟨id, agentId, action, payload.getD ""⟩])
  | .list now => some { s with tables := expireMcpProposals s.tables now }
  | .approve reads id actor now =>
    some (s.commit (approveMcpProposal s.tables reads id actor now) [.approved id])
  | .reject id actor reason now => some
    (s.commit (rejectMcpProposal s.tables id actor reason now) [])
  | .updateAgent id permissions enabled baseUpdatedAt now =>
    some (s.commit (updateMcpAgent s.tables id permissions enabled baseUpdatedAt now) [])
  | .deleteAgent id now => some (s.commit (deleteMcpAgent s.tables id now) (sweptRows s.tables id))
  | .work w => some (s.work w)
  | .restart => do
    guard (s.worker = .idle)
    return { s with recovered := false }
  | .crash => some ({ s with worker := .idle, recovered := false }.log
      (match s.worker with
      | .job job => [.crashed job.queue job.ticket.id]
      | _ => []))

end TsxCore.Mcp
