import TsxCore.JsRuntime
import TsxCore.KeyedTable

/-!
# Control requests and proposals of agents (`mcp_repository.ts`)

Each function is one transaction, or one statement that repeats the conditions of the
reads before it. Identifiers are as `identifier` returns them, a JSON value is the text
that `JSON.stringify` makes of it (`none` where that throws), and the clock is read once
for each call. What preflight finds is an argument.
-/

namespace TsxCore.Mcp

open Outcome

inductive McpRuntimeMode
  | active
  | standby
  | disabled
  deriving DecidableEq

inductive ControlStatus
  | pending
  | running
  | succeeded
  | failed
  deriving DecidableEq

inductive ProposalStatus
  | pending
  | approved
  | rejected
  | executing
  | completed
  | failed
  | expired
  deriving DecidableEq

structure McpAgent where
  id : String
  permissions : List String
  enabled : Bool
  updatedAt : ℤ
  deletedAt : Option ℤ

/-- The columns that only an `INSERT` writes. -/
structure Ticket where
  id : String
  agentId : String
  action : String
  payload : String
  deriving DecidableEq

structure McpControlRequest extends Ticket where
  status : ControlStatus
  result : Option String
  error : Option String
  createdAt : ℤ
  startedAt : Option ℤ
  completedAt : Option ℤ

structure McpAgentProposal extends Ticket where
  status : ProposalStatus
  requestedAt : ℤ
  expiresAt : ℤ
  decidedAt : Option ℤ
  decidedBy : Option String
  executedAt : Option ℤ
  result : Option String
  error : Option String

abbrev ControlRequests := Keyed (fun row : McpControlRequest => row.id)
abbrev AgentProposals := Keyed (fun row : McpAgentProposal => row.id)

structure Tables where
  mode : McpRuntimeMode
  agents : Keyed McpAgent.id
  requests : ControlRequests
  proposals : AgentProposals

def controlActions : List String :=
  ["contracts.create", "contracts.update", "contracts.publish", "contracts.archive",
    "contracts.delete_draft", "risk.update", "risk.delete", "trading.reconcile",
    "trading.cancel_entries", "trading.kill_switch", "trading.flatten"]

def proposalActions : List String :=
  ["contracts.create_version", "contracts.duplicate", "contracts.publish", "contracts.archive",
    "contracts.delete_draft", "contracts.delete_version", "schemas.create", "schemas.update",
    "schemas.delete", "strategies.create", "strategies.update", "strategies.publish",
    "strategies.archive", "strategies.delete", "routes.set", "routes.delete", "risk.update",
    "risk.delete", "workflow.resource_create", "workflow.resource_update",
    "workflow.resource_publish", "workflow.resource_archive", "workflow.resource_delete_draft",
    "workflow.activate", "trading.release_kill_switch"]

def approvalRequiredActions : List String :=
  ["contracts.publish", "contracts.archive", "contracts.delete_draft", "contracts.delete_version",
    "schemas.update", "schemas.delete", "strategies.publish", "strategies.archive",
    "strategies.delete", "routes.set", "routes.delete", "risk.update", "risk.delete",
    "workflow.resource_archive", "workflow.resource_delete_draft", "workflow.activate",
    "trading.release_kill_switch"]

def maximumJsonBytes : ℕ := 64 * 1024
def maximumWorkflowJsonBytes : ℕ := 2 * 1024 * 1024

def startsWith (head text : String) : Bool := head.toList.isPrefixOf text.toList

def isObject (text : String) : Bool := text.toList.head? = some '\x7b'

def json (serialized : Option String) (label : String) (maximumBytes : ℕ) : Outcome String :=
  match serialized with
  | none => .error (.error (label ++ " must be JSON-serializable."))
  | some text => do
    throwIf (maximumBytes < byteLength text.toList)
      (.error (label ++ " exceeds " ++ (if maximumBytes = maximumJsonBytes then "64 KiB"
        else "2 MiB") ++ "."))
    return text

def boundedError (message : String) : String := .ofList (slice 2000 message.toList)

/-- `SQLITE_CONSTRAINT` of a reference or of a key. -/
def constraintFailed (constraint : String) : Thrown :=
  .error ("SQLITE_CONSTRAINT: " ++ constraint ++ " constraint failed")

def inactive : Thrown :=
  .error "MCP runtime is not active. Enable it in the dashboard before using agents or actions."

def assertRuntimeActiveFrom (t : Tables) : Outcome Unit := throwIf (t.mode ≠ .active) inactive

/-- The row that comes first in an order, of those that satisfy a condition. -/
def firstRow {R : Type} (p : R → Bool) (before : R → R → Bool) (rows : List R) : Option R :=
  (rows.filter p).foldl (fun found row =>
    match found with
    | none => some row
    | some other => if before row other then some row else some other) none

section Requests

/-- `UPDATE mcp_control_requests SET … WHERE …`. -/
def updateRequests (t : Tables) (p : McpControlRequest → Bool) (status : ControlStatus)
    (f : McpControlRequest → McpControlRequest) (hf : ∀ r, (f r).toTicket = r.toTicket) : Tables :=
  { t with
    requests := t.requests.update p (fun r => { f r with status := status })
      (fun r => congrArg Ticket.id (hf r)) }

def enqueueMcpControlRequest (t : Tables) (id agentId action : String) (payload : Option String)
    (createdAt : ℤ) : Outcome Tables := do
  throwIf (action ∉ controlActions) (.error "MCP control action is invalid.")
  assertRuntimeActiveFrom t
  let payload ← json payload "MCP control payload" maximumJsonBytes
  throwIf ((t.agents.find agentId).isNone) (constraintFailed "FOREIGN KEY")
  throwIf ((t.requests.find id).isSome) (constraintFailed "UNIQUE")
  let row : McpControlRequest :=
    ⟨⟨id, agentId, action, payload⟩, .pending, none, none, createdAt, none, none⟩
  return { t with requests := (t.requests.insert row).2 }

def claimNextMcpControlRequest (t : Tables) (startedAt : ℤ) : Option McpControlRequest × Tables :=
  match firstRow (fun r => r.status = .pending && t.mode = .active)
      (fun a b => a.createdAt < b.createdAt || (a.createdAt = b.createdAt && a.id < b.id))
        t.requests.rows with
  | none => (none, t)
  | some row =>
    let p := fun r : McpControlRequest => decide
      (r.id = row.id ∧ r.status = .pending ∧ t.mode = .active)
    let next := updateRequests t p .running (fun r => { r with startedAt := some startedAt })
      (fun _ => rfl)
    if t.requests.changes p ≠ 1 then (none, next)
    else (some { row with status := .running, startedAt := some startedAt }, next)

def completeMcpControlRequest (t : Tables) (id : String) (outcome : Except String (Option String))
    (completedAt : ℤ) : Outcome Tables := do
  let p := fun r : McpControlRequest => decide (r.id = id ∧ r.status = .running)
  let next ← match outcome with
    | .ok result => do
      let result ← json result "MCP control result" maximumJsonBytes
      pure (updateRequests t p .succeeded
        (fun r => { r with result := some result, error := none, completedAt := some completedAt })
        (fun _ => rfl))
    | .error message => pure (updateRequests t p .failed
        (fun r => { r with
          result := none, error := some (boundedError message), completedAt := some completedAt })
        (fun _ => rfl))
  throwIf (t.requests.changes p ≠ 1) (.error "MCP control request is not running.")
  return next

/-- A statement that fails the requests of a status. -/
def failRequests (t : Tables) (p : McpControlRequest → Bool) (message : String) (now : ℤ) :
    Tables :=
  updateRequests t p .failed (fun r => { r with error := some message, completedAt := some now })
    (fun _ => rfl)

def recoverInterruptedMcpControlRequests (t : Tables) (now : ℤ) : Tables :=
  failRequests t (fun r => r.status = .running) "TSX Core restarted while the request was running."
    now

end Requests

section Proposals

/-- `UPDATE mcp_agent_proposals SET … WHERE …`. -/
def updateProposals (t : Tables) (p : McpAgentProposal → Bool)
    (f : McpAgentProposal → McpAgentProposal) (hf : ∀ r, (f r).toTicket = r.toTicket) : Tables :=
  { t with proposals := t.proposals.update p f (fun r => congrArg Ticket.id (hf r)) }

def createMcpProposal (t : Tables) (id agentId action : String) (payload : Option String)
    (autoApprove : Bool) (blockers : List String) (now : ℤ) : Outcome Tables := do
  throwIf (action ∉ proposalActions) (.error "MCP proposal action is invalid.")
  throwIf (payload.any (fun text => !isObject text))
    (.error "MCP proposal payload must be an object.")
  throwIf (blockers ≠ []) (.error
    ("MCP preflight blocked the action: " ++ " ".intercalate blockers))
  let autoApprove := autoApprove && !approvalRequiredActions.contains action
  assertRuntimeActiveFrom t
  let payload ← json payload "MCP proposal payload"
    (if startsWith "workflow." action then maximumWorkflowJsonBytes else maximumJsonBytes)
  throwIf ((t.agents.find agentId).isNone) (constraintFailed "FOREIGN KEY")
  throwIf ((t.proposals.find id).isSome) (constraintFailed "UNIQUE")
  let row : McpAgentProposal :=
    { id := id
      agentId := agentId
      action := action
      payload := payload
      status := if autoApprove then .approved else .pending
      requestedAt := now
      expiresAt := now + 24 * 60 * 60 * 1000
      decidedAt := if autoApprove then some now else none
      decidedBy := if autoApprove then some ("mcp:" ++ agentId) else none
      executedAt := none
      result := none
      error := none }
  return { t with proposals := (t.proposals.insert row).2 }

def expireMcpProposals (t : Tables) (now : ℤ) : Tables :=
  updateProposals t (fun r => (r.status = .pending || r.status = .approved) && r.expiresAt ≤ now)
    (fun r => { r with status := .expired, error := some "Approval window expired." })
      (fun _ => rfl)

/-- What `approveMcpProposal` read before its statement. -/
structure ApprovalReads where
  mode : McpRuntimeMode
  current : Option McpAgentProposal
  readAt : ℤ
  blockers : List String

def approveMcpProposal (t : Tables) (reads : ApprovalReads) (id actor : String) (now : ℤ) :
    Outcome Tables := do
  throwIf (reads.mode ≠ .active) inactive
  throwIf (¬ reads.current.any (fun r => r.status = .pending && reads.readAt < r.expiresAt))
    (.error "Only a non-expired pending MCP proposal can be approved.")
  throwIf (reads.blockers ≠ [])
    (.error ("MCP proposal is no longer safe: " ++ " ".intercalate reads.blockers))
  let p := fun r : McpAgentProposal =>
    decide (r.id = id ∧ r.status = .pending ∧ now < r.expiresAt ∧ t.mode = .active)
  throwIf (t.proposals.changes p ≠ 1)
    (.error "MCP proposal approval lost a concurrent decision race.")
  return updateProposals t p
    (fun r => { r with status := .approved, decidedAt := some now, decidedBy := some actor })
      (fun _ => rfl)

def rejectMcpProposal (t : Tables) (id actor : String) (reason : Option String) (now : ℤ) :
    Outcome Tables := do
  let p := fun r : McpAgentProposal => decide (r.id = id ∧ r.status = .pending)
  throwIf (t.proposals.changes p ≠ 1) (.error "Only a pending MCP proposal can be rejected.")
  return updateProposals t p
    (fun r => { r with
      status := .rejected
      decidedAt := some now
      decidedBy := some actor
      error := some (reason.getD "Rejected by operator.") }) (fun _ => rfl)

/-- `ORDER BY decided_at, requested_at, id`, with `NULL` first. -/
def decidedBefore (a b : McpAgentProposal) : Bool :=
  if a.decidedAt = b.decidedAt then
    a.requestedAt < b.requestedAt || (a.requestedAt = b.requestedAt && a.id < b.id)
  else match a.decidedAt, b.decidedAt with
    | none, _ => true
    | some _, none => false
    | some left, some right => left < right

/-- `getMcpProposal`, which joins the agent. -/
def getMcpProposal (t : Tables) (id : String) : Option McpAgentProposal :=
  (t.proposals.find id).filter (fun r => (t.agents.find r.agentId).isSome)

/-- The transaction of `claimNextApprovedMcpProposal`, with the identifier that it claimed. -/
def claimNextApprovedMcpProposal (t : Tables) : Option String × Option McpAgentProposal × Tables :=
  match firstRow (fun r => r.status = .approved && t.mode = .active) decidedBefore
    t.proposals.rows with
  | none => (none, none, t)
  | some row =>
    let p := fun r : McpAgentProposal => decide
      (r.id = row.id ∧ r.status = .approved ∧ t.mode = .active)
    let next := updateProposals t p (fun r => { r with status := .executing }) (fun _ => rfl)
    if t.proposals.changes p ≠ 1 then (none, none, next)
    else (some row.id, getMcpProposal next row.id, next)

def completeMcpProposal (t : Tables) (id : String) (outcome : Except String (Option String))
    (now : ℤ) :
    Outcome Tables := do
  let p := fun r : McpAgentProposal => decide (r.id = id ∧ r.status = .executing)
  let next ← match outcome with
    | .ok result => do
      let result ← json result "MCP proposal result" maximumWorkflowJsonBytes
      pure (updateProposals t p (fun r => { r with
        status := .completed, result := some result, error := none, executedAt := some now })
          (fun _ => rfl))
    | .error message => pure (updateProposals t p (fun r => { r with
        status := .failed, result := none, error := some (boundedError message),
        executedAt := some now })
        (fun _ => rfl))
  throwIf (t.proposals.changes p ≠ 1) (.error "MCP proposal is not executing.")
  return next

def recoverInterruptedMcpProposals (t : Tables) (now : ℤ) : Tables :=
  updateProposals t (fun r => r.status = .executing) (fun r => { r with
    status := .failed
    error := some "TSX Core restarted while the proposal was executing."
    executedAt := some now }) (fun _ => rfl)

end Proposals

section Administration

def setMcpRuntimeMode (t : Tables) (mode : McpRuntimeMode) (now : ℤ) : Tables :=
  if t.mode = mode then t
  else
    let switched := { t with mode := mode }
    if mode = .disabled then
      updateProposals
        (failRequests switched (fun r => r.status = .pending)
          "MCP runtime was disabled by an administrator." now)
        (fun r => r.status = .approved) (fun r => { r with
          status := .failed
          error := some "MCP runtime was disabled by an administrator."
          executedAt := some now }) (fun _ => rfl)
    else switched

def listMcpAgents (t : Tables) : List McpAgent := t.agents.rows.filter (fun a => a.deletedAt.isNone)

def agentHasPermission (agent : McpAgent) (permission : String) : Bool :=
  agent.enabled && agent.permissions.contains permission

def updateMcpAgent (t : Tables) (id : String) (permissions : List String) (enabled : Bool)
    (baseUpdatedAt : Option ℤ) (now : ℤ) : Outcome Tables := do
  let p := fun a : McpAgent =>
    decide (a.id = id ∧ a.deletedAt = none ∧ ∀ base ∈ baseUpdatedAt, a.updatedAt = base)
  throwIf (t.agents.changes p ≠ 1)
    (.error "MCP agent does not exist or changed. Reload and compare before saving.")
  let agents := t.agents.update p (fun a => { a with
    permissions := permissions, enabled := enabled, updatedAt := max (a.updatedAt + 1) now })
      (fun _ => rfl)
  return { t with agents := agents }

def deleteMcpAgent (t : Tables) (id : String) (now : ℤ) : Outcome Tables := do
  let p := fun a : McpAgent => decide (a.id = id ∧ a.deletedAt = none)
  throwIf (t.agents.changes p ≠ 1) (.error "MCP agent does not exist.")
  let agents := t.agents.update p (fun a => { a with
    permissions := [], enabled := false, updatedAt := now, deletedAt := some now }) (fun _ => rfl)
  let swept := failRequests { t with agents := agents }
    (fun r => r.agentId = id && (r.status = .pending || r.status = .running))
    "MCP agent was deleted by an administrator." now
  return updateProposals swept
    (fun r => r.agentId = id &&
      (r.status = .pending || r.status = .approved || r.status = .executing))
    (fun r => { r with
      status := if r.status = .executing then .failed else .rejected
      error := some "MCP agent was deleted by an administrator."
      decidedAt := some (r.decidedAt.getD now)
      decidedBy := some (r.decidedBy.getD "system:agent-deletion")
      executedAt := if r.status = .executing then some now else r.executedAt }) (fun _ => rfl)

end Administration

end TsxCore.Mcp
