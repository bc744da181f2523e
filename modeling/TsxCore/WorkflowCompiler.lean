import TsxCore.CanonicalJson
import TsxCore.WorkflowGraph

/-!
# The workflow compiler (`compileWorkflow` in `workflow_repository.ts`)

Each loop has a bound on its rounds, and `outOfFuel` says that the bound was
reached. `Map`s that are only read with a default are functions. The rows that the
compiler reads, the hash, the identifiers it draws and the validators of other
modules are parameters; an identifier is drawn for a rank of a route group.
-/

namespace TsxCore.Workflow

open Outcome TradingTypes

inductive Stop
  | thrown (error : Thrown)
  | outOfFuel
  deriving DecidableEq

abbrev Compiled (α : Type) := Except Stop α

def fail {α : Type} (message : String) : Compiled α := .error (.thrown (.error message))

def lift {α : Type} : Outcome α → Compiled α
  | .ok a => .ok a
  | .error e => .error (.thrown e)

/-- Runs a computation unless it throws. -/
def throwOn (bad : Prop) [Decidable bad] (message : String) : Compiled Unit :=
  throwIf bad (.thrown (.error message))

inductive ResourceStatus
  | draft
  | published
  | archived
  deriving DecidableEq

/-- `configurationJson` is `normalizedJson(configuration)`. -/
structure WorkflowResourceVersion where
  id : String
  resourceId : String
  name : String
  status : ResourceStatus
  configuration : ResourceConfiguration
  configurationJson : String

structure StrategyRow where
  published : Bool
  configuration : StrategyConfiguration

structure SignalSchemaRow where
  enabled : Bool
  definition : Json ℚ

structure ContractVersionRow where
  published : Bool
  definition : Json ℚ

structure AccountRow where
  enabled : Bool
  status : AccountStatus

structure Catalog where
  resources : List WorkflowResourceVersion
  account : String → Option AccountRow
  strategy : String → Option StrategyRow
  schema : String → Option SignalSchemaRow
  contract : String → Option ContractVersionRow

structure CompilerServices where
  randomUUID : String → ℕ → String
  sha256 : String → String
  composeSignalSchemaContract : Json ℚ → Json ℚ → Outcome Unit
  validateStrategyConfiguration : StrategyConfiguration → Outcome StrategyConfiguration
  validateSizingConfiguration : SizingConfiguration → Outcome SizingConfiguration

/-- `normalizedJson` of a value with integers. -/
def normalizedJson (value : Json ℤ) : String := .ofList (value.dumps JsonText.integer)

section Resources

variable (services : CompilerServices)

def behaviorKey (resource : WorkflowResourceVersion) : String :=
  resource.configuration.kind.text ++ ":" ++ services.sha256 resource.configurationJson

/-- One round of the loop over the nodes, with the nodes placed before. -/
def placeNode (resources : List WorkflowResourceVersion)
    (placed : List (WorkflowNode × WorkflowResourceVersion)) (node : WorkflowNode) :
    Compiled (List (WorkflowNode × WorkflowResourceVersion)) :=
  match resources.find? (·.id = node.resourceVersionId) with
  | none => fail ("Node " ++ node.id ++ " must reference a published resource version.")
  | some resource => do
    throwOn (resource.status ≠ .published)
      ("Node " ++ node.id ++ " must reference a published resource version.")
    throwOn (resource.configuration.kind ≠ node.kind)
      ("Node " ++ node.id ++ " kind does not match its resource.")
    match placed.find? (·.2.resourceId = resource.resourceId) with
    | some existing => fail ("Workflow resource '" ++ resource.name ++
        "' may only be placed once (nodes " ++ existing.1.id ++ " and " ++ node.id ++ ").")
    | none =>
      match placed.find? (fun other => behaviorKey services other.2 =
        behaviorKey services resource) with
      | some existing => fail ("Workflow resources '" ++ existing.2.name ++ "' and '" ++
          resource.name ++ "' have identical behavior and may only be placed once (nodes " ++
          existing.1.id ++ " and " ++ node.id ++ ").")
      | none => pure (placed ++ [(node, resource)])

/-- The published resources of the nodes, each placed once. -/
def loadWorkflowResources (catalog : Catalog) (graph : WorkflowGraph) :
    Compiled (List WorkflowResourceVersion) := do
  let placed ← graph.nodes.foldlM (placeNode services catalog.resources) []
  pure (placed.map (·.2))

end Resources

def requiredWorkflowNode (nodes : List WorkflowNode) (id : String) : Compiled WorkflowNode :=
  match nodeById nodes id with
  | some node => pure node
  | none => fail "Workflow references a missing node."

def requiredWorkflowResource (resources : List WorkflowResourceVersion) (id : String) :
    Compiled WorkflowResourceVersion :=
  match resources.find? (·.id = id) with
  | some resource => pure resource
  | none => fail "Workflow references a missing resource."

structure Topology where
  adjacency : String → List WorkflowEdge
  indegree : String → ℤ

def addEdge (nodes : List WorkflowNode) (topology : Topology) (edge : WorkflowEdge) :
    Compiled Topology :=
  if edge.kind = some .accountFallback then pure topology
  else do
    let source ← requiredWorkflowNode nodes edge.source
    let target ← requiredWorkflowNode nodes edge.target
    throwOn (target.kind.stage ≤ source.kind.stage) ("Connection " ++ edge.id ++
      " must move from an earlier processing column to a later one.")
    pure {
      adjacency := Function.update topology.adjacency edge.source
        (topology.adjacency edge.source ++ [edge])
      indegree := Function.update topology.indegree edge.target
        (topology.indegree edge.target + 1) }

def buildWorkflowTopology (graph : WorkflowGraph) : Compiled Topology :=
  graph.edges.foldlM (addEdge graph.nodes) ⟨fun _ => [], fun _ => 0⟩

def edgeAppliesToChannel (channelNodeId : String) (edge : WorkflowEdge) : Bool :=
  edge.channelNodeIds.all (channelNodeId ∈ ·)

section Traversals

variable (nodes : List WorkflowNode) (adjacency : String → List WorkflowEdge)

/-- The targets of the edges of a node that apply to a channel. -/
def targetsOf (channelNodeId nodeId : String) : List String :=
  ((adjacency nodeId).filter (edgeAppliesToChannel channelNodeId)).map (·.target)

def ordinaryAccountLoop (channelNodeId : String) :
    ℕ → List String → List String → List String → Compiled (List String)
  | 0, _, _, _ => .error .outOfFuel
  | _ + 1, [], _, accounts => pure accounts
  | fuel + 1, nodeId :: pending, visited, accounts =>
    if nodeId ∈ visited then ordinaryAccountLoop channelNodeId fuel pending visited accounts
    else if nodeKind nodes nodeId = some .account then
      ordinaryAccountLoop channelNodeId fuel pending (nodeId :: visited) (nodeId :: accounts)
    else ordinaryAccountLoop channelNodeId fuel
      ((targetsOf adjacency channelNodeId nodeId).reverse ++ pending) (nodeId :: visited) accounts

def ordinaryAccountNodesForChannel (fuel : ℕ) (channelNodeId : String) : Compiled (List String) :=
  ordinaryAccountLoop nodes adjacency channelNodeId fuel [channelNodeId] [] []

/-- One edge of the inner loop of `assertAcyclicWorkflow`. -/
def releaseEdge (state : List String × (String → ℤ)) (edge : WorkflowEdge) :
    List String × (String → ℤ) :=
  let next := state.2 edge.target - 1
  (if next = 0 then state.1 ++ [edge.target] else state.1, Function.update state.2 edge.target next)

def acyclicLoop : ℕ → List String → (String → ℤ) → ℕ → Compiled ℕ
  | 0, _, _, _ => .error .outOfFuel
  | _ + 1, [], _, visited => pure visited
  | fuel + 1, id :: queue, indegree, visited =>
    let (queue, indegree) := (adjacency id).foldl releaseEdge (queue, indegree)
    acyclicLoop fuel queue indegree (visited + 1)

def assertAcyclicWorkflow (fuel : ℕ) (indegree : String → ℤ) : Compiled Unit := do
  let queue := (nodes.filter (fun node => indegree node.id = 0)).map (·.id)
  let visited ← acyclicLoop adjacency fuel queue indegree 0
  throwOn (visited ≠ nodes.length) "Workflow graph must not contain cycles."

end Traversals

/-- An entry of the map from an account node to its successor. -/
structure Successor where
  source : String
  target : String
  fallbackOn : List WorkflowFallbackReason

def successorOf (successors : List Successor) (nodeId : String) : Option Successor :=
  successors.find? (·.source = nodeId)

def LEGACY_WORKFLOW_FALLBACK_POLICY : List WorkflowFallbackReason := [.symbolUnavailable]

def fallbackEdges (graph : WorkflowGraph) (channelNodeId : String) : List WorkflowEdge :=
  graph.edges.filter (fun edge => edge.kind = some .accountFallback ∧
    edge.channelNodeIds.any (channelNodeId ∈ ·))

def addSuccessor (channelNodeId : String) (successors : List Successor) (edge : WorkflowEdge) :
    Compiled (List Successor) := do
  throwOn (successors.any (·.source = edge.source)) ("Account fallback for channel " ++
    channelNodeId ++ " must be linear; " ++ edge.source ++ " has more than one successor.")
  throwOn (successors.any (·.target = edge.target)) ("Account fallback for channel " ++
    channelNodeId ++ " must be linear; " ++ edge.target ++ " has more than one predecessor.")
  pure (successors ++
    [⟨edge.source, edge.target, edge.fallbackOn.getD LEGACY_WORKFLOW_FALLBACK_POLICY⟩])

/-- The recursive `visit`; it returns the nodes visited so far. -/
def visitFallback (channelNodeId : String) (successors : List Successor) :
    ℕ → List String → List String → String → Compiled (List String)
  | 0, _, _, _ => .error .outOfFuel
  | fuel + 1, visiting, visited, nodeId =>
    if nodeId ∈ visiting then
      fail ("Account fallback chain for channel " ++ channelNodeId ++ " contains a cycle.")
    else if nodeId ∈ visited then pure visited
    else match successorOf successors nodeId with
      | none => pure (nodeId :: visited)
      | some successor => do
        let visited ← visitFallback channelNodeId successors fuel (nodeId :: visiting) visited
          successor.target
        pure (nodeId :: visited)

def checkFallbackEdge (channelNodeId : String) (ordinaryAccounts : List String)
    (successors : List Successor) (edge : WorkflowEdge) : Compiled Unit := do
  throwOn (edge.target ∈ ordinaryAccounts) ("Account " ++ edge.target ++
    " cannot be both a direct route and a fallback candidate for channel " ++ channelNodeId ++ ".")
  throwOn (edge.source ∉ ordinaryAccounts ∧ !successors.any (·.target = edge.source))
    ("Account fallback chain for channel " ++ channelNodeId ++
      " must start at a directly connected account.")

def fallbackSuccessorsForChannel (fuel : ℕ) (graph : WorkflowGraph) (channelNodeId : String)
    (ordinaryAccounts : List String) : Compiled (List Successor) := do
  let edges := fallbackEdges graph channelNodeId
  let successors ← edges.foldlM (addSuccessor channelNodeId) []
  let _ ← successors.foldlM (fun visited successor =>
    visitFallback channelNodeId successors fuel [] visited successor.source) []
  edges.forM (checkFallbackEdge channelNodeId ordinaryAccounts successors)
  pure successors

structure WorkflowCompileContext where
  nodes : List WorkflowNode
  adjacency : String → List WorkflowEdge
  resources : List WorkflowResourceVersion
  fallbackByChannel : List (String × List Successor)

structure CompileState where
  paths : List CompiledDraftPath
  routeGroups : List WorkflowRouteGroup
  warnings : List String
  deriving DecidableEq

/-- `Object.fromEntries` by kind: the last entry of a kind stays. -/
def fromEntries (configurations : List ResourceConfiguration) : CompiledResources :=
  configurations.foldr (fun configuration entries =>
    if entries.any (fun other => other.kind = configuration.kind) then entries
    else configuration :: entries) []

def required {α : Type} (value : Option α) (label : String) : Compiled α :=
  match value with
  | some value => pure value
  | none => .error (.thrown ⟨"TypeError", none, label ++ " must be a string."⟩)

section Paths

variable (services : CompilerServices) (catalog : Catalog)

def loadCompiledPathDependencies (configs : CompiledResources)
    (accountId strategyVersionId : String) :
    Compiled (AccountRow × StrategyConfiguration) := do
  let schemaId ← required (CompiledResources.schemaId configs) "Compiled schema ID"
  let contractVersionId ←
    required (CompiledResources.contractVersionId configs) "Compiled contract version ID"
  match catalog.account accountId with
  | none => fail ("Workflow account " ++ accountId ++ " does not exist.")
  | some account =>
    match (catalog.strategy strategyVersionId).filter (·.published) with
    | none => fail ("Workflow strategy " ++ strategyVersionId ++ " is not published.")
    | some strategy =>
      match (catalog.schema schemaId).filter (·.enabled) with
      | none => fail ("Workflow signal schema " ++ schemaId ++ " is unavailable.")
      | some schema =>
        match (catalog.contract contractVersionId).filter (·.published) with
        | none => fail "Workflow contract node must reference a published contract."
        | some contract => do
          lift (services.composeSignalSchemaContract schema.definition contract.definition)
          let baseStrategy ← lift (services.validateStrategyConfiguration strategy.configuration)
          throwOn (schemaId ∉ baseStrategy.allowedSignalSchemas)
            ("Workflow strategy does not allow the selected signal schema. Publish a compatible " ++
              "strategy version first.")
          pure (account, baseStrategy)

def withSizing (sizing : SizingConfiguration) : ResourceConfiguration → ResourceConfiguration
  | .sizing _ => .sizing sizing
  | other => other

def compiledEffectiveConfiguration (baseStrategy : StrategyConfiguration)
    (configs : CompiledResources) : Compiled (CompiledResources × StrategyConfiguration) := do
  let sizing ← required (CompiledResources.sizing configs) "Compiled sizing"
  let normalizedSizing ← lift (services.validateSizingConfiguration sizing)
  let strategyConfiguration ←
    lift (services.validateStrategyConfiguration { baseStrategy with sizing := normalizedSizing })
  pure (configs.map (withSizing normalizedSizing), strategyConfiguration)

def resourceVersionForKind (pathNodes : List WorkflowNode) (kind : WorkflowResourceKind) :
    Option String :=
  (pathNodes.reverse.find? (·.kind = kind)).map (·.resourceVersionId)

def successorChain (successors : List Successor) : ℕ → String → Compiled (List Successor)
  | 0, _ => .error .outOfFuel
  | fuel + 1, nodeId =>
    match successorOf successors nodeId with
    | none => pure []
    | some successor => do
      let rest ← successorChain successors fuel successor.target
      pure (successor :: rest)

def texts (values : List String) : Json ℤ := .array (values.map .string)

def routeGroupDefinition (channelNodeId : String) (terminalLineage accountNodeIds : List String)
    (fallbackPolicies : List (List WorkflowFallbackReason)) : Json ℤ :=
  .object [("channelNodeId", .string channelNodeId), ("terminalLineage", texts terminalLineage),
    ("accountNodeIds", texts accountNodeIds),
    ("fallbackPolicies", .array (fallbackPolicies.map (fun policy => texts (policy.map (·.text)))))]

def pathKeyDefinition (routeGroupKey : String) (rank : ℕ) (candidateNodeIds : List String)
    (channelId accountId strategyVersionId : String) : Json ℤ :=
  .object [("routeGroupKey", .string routeGroupKey), ("rank", .number rank),
    ("candidateNodeIds", texts candidateNodeIds), ("channelId", .string channelId),
    ("accountId", .string accountId), ("strategyVersionId", .string strategyVersionId)]

def configurationsOf (context : WorkflowCompileContext) (pathNodes : List WorkflowNode) :
    Compiled CompiledResources := do
  let versions ← pathNodes.mapM (fun node =>
    requiredWorkflowResource context.resources node.resourceVersionId)
  pure (fromEntries (versions.map (·.configuration)))

/-- A terminal lineage cut at its account, with the accounts and policies of its chain. -/
structure Lineage where
  channelNodeId : String
  before : List String
  after : List String
  accountNodeIds : List String
  fallbackPolicies : List (List WorkflowFallbackReason)

def Lineage.nodeIds (lineage : Lineage) (rank : ℕ) : List String :=
  lineage.before ++ lineage.accountNodeIds.take (rank + 1) ++ lineage.after

/-- The candidate of a rank: one round of the loop over the accounts of a chain. -/
def compileCandidate (context : WorkflowCompileContext) (lineage : Lineage)
    (channelId strategyVersionId routeGroupKey : String) (rank : ℕ) :
    Compiled (CompiledDraftPath × WorkflowRouteCandidate) := do
  let candidateNodeIds := lineage.nodeIds rank
  let pathNodes ← candidateNodeIds.mapM (requiredWorkflowNode context.nodes)
  let configs ← configurationsOf context pathNodes
  let accountId ← required (CompiledResources.accountId configs) "Compiled account ID"
  let (account, baseStrategy) ←
    loadCompiledPathDependencies services catalog configs accountId strategyVersionId
  let (resources, strategyConfiguration) ←
    compiledEffectiveConfiguration services baseStrategy configs
  let id := services.randomUUID routeGroupKey rank
  let fallbackOn := lineage.fallbackPolicies[rank]?.getD []
  let enabled := account.enabled && account.status = .ready
  pure (
    { id
      pathKey := services.sha256 (normalizedJson
        (pathKeyDefinition routeGroupKey rank candidateNodeIds channelId accountId
          strategyVersionId))
      channelId
      accountId
      strategyVersionId
      parserResourceVersionId := resourceVersionForKind pathNodes .parser
      schemaResourceVersionId := resourceVersionForKind pathNodes .schema
      contractResourceVersionId := resourceVersionForKind pathNodes .contract
      sizingResourceVersionId := resourceVersionForKind pathNodes .sizing
      adaptiveRiskResourceVersionId := resourceVersionForKind pathNodes .adaptiveRisk
      routeGroupKey
      fallbackRank := rank
      fallbackOn
      nodeIds := candidateNodeIds
      resources
      strategyConfiguration
      enabled },
    { pathId := id
      accountId
      accountNodeId := lineage.accountNodeIds[rank]?.getD ""
      rank
      enabled
      fallbackOn })

def missingKinds (nodes : List WorkflowNode) : List WorkflowResourceKind :=
  REQUIRED_EXECUTION_KINDS.filter (fun kind => nodes.all (·.kind ≠ kind))

def compileTerminalLineage (fuel : ℕ) (context : WorkflowCompileContext)
    (accountNodeId channelNodeId : String) (state : CompileState) (terminalLineage : List String) :
    Compiled CompileState := do
  let index := terminalLineage.idxOf accountNodeId
  let successors := (context.fallbackByChannel.lookup channelNodeId).getD []
  let chain ← successorChain successors fuel accountNodeId
  let lineage : Lineage :=
    { channelNodeId
      before := terminalLineage.take index
      after := terminalLineage.drop (index + 1)
      accountNodeIds := accountNodeId :: chain.map (·.target)
      fallbackPolicies := chain.map (·.fallbackOn) ++ [[]] }
  let primaryNodes ← terminalLineage.mapM (requiredWorkflowNode context.nodes)
  let missing := missingKinds primaryNodes
  if missing ≠ [] then
    pure { state with warnings := state.warnings ++ ["Path ending at " ++ accountNodeId ++
      " is inert; missing: " ++ ", ".intercalate (missing.map (·.text)) ++ "."] }
  else do
    let primaryConfigs ← configurationsOf context primaryNodes
    let channelId ← required (CompiledResources.channelId primaryConfigs) "Compiled channel ID"
    let strategyVersionId ←
      required (CompiledResources.strategyVersionId primaryConfigs) "Compiled strategy version ID"
    let routeGroupKey := services.sha256 (normalizedJson (routeGroupDefinition channelNodeId
      terminalLineage lineage.accountNodeIds lineage.fallbackPolicies))
    let compiled ← (List.range lineage.accountNodeIds.length).mapM
      (compileCandidate services catalog context lineage channelId strategyVersionId routeGroupKey)
    pure { state with
      paths := state.paths ++ compiled.map (·.1)
      routeGroups := state.routeGroups ++ [{
        key := routeGroupKey
        channelId
        channelNodeId
        primaryPathId := (compiled.map (fun item => item.2.pathId)).headD ""
        candidates := compiled.map (·.2) }] }

/-- The ends of a lineage at an account: its output nodes, or the account itself. -/
def terminalLineages (outputTargets nextLineage : List String) : List (List String) :=
  if outputTargets = [] then [nextLineage]
  else outputTargets.map (fun target => nextLineage ++ [target])

def outputTargetsOf (context : WorkflowCompileContext) (channelNodeId nodeId : String) :
    List String :=
  (targetsOf context.adjacency channelNodeId nodeId).filter
    (fun target => nodeKind context.nodes target = some .output)

def walkWorkflowPaths (context : WorkflowCompileContext) (channelNodeId : String) :
    ℕ → CompileState → String → List String → Compiled CompileState
  | 0, _, _, _ => .error .outOfFuel
  | fuel + 1, state, nodeId, lineage => do
    let node ← requiredWorkflowNode context.nodes nodeId
    let nextLineage := lineage ++ [nodeId]
    if node.kind = .account then do
      let outputTargets := outputTargetsOf context channelNodeId nodeId
      throwOn (1 < outputTargets.length) ("Exchange account node " ++ node.id ++
        " may connect to at most one output node.")
      (terminalLineages outputTargets nextLineage).foldlM
        (compileTerminalLineage services catalog fuel context nodeId channelNodeId) state
    else do
      let targets := targetsOf context.adjacency channelNodeId nodeId
      let state := if targets = [] then
          { state with warnings := state.warnings ++ ["Node " ++ nodeId ++
            " is not connected to an exchange account for channel " ++ channelNodeId ++
            " and is inert."] }
        else state
      targets.foldlM (fun state target =>
        walkWorkflowPaths context channelNodeId fuel state target nextLineage) state

def telegramMode (path : CompiledDraftPath) : Option OutputMode :=
  (CompiledResources.output path.resources).filter
    (fun mode => mode = .telegramXml || mode = .telegramOriginal)

def assertConsistentTelegramOutputs (paths : List CompiledDraftPath) : Compiled Unit :=
  match paths.find? (fun path => (telegramMode path).isSome && paths.any (fun other =>
      other.channelId = path.channelId && (telegramMode other).isSome &&
        telegramMode other ≠ telegramMode path)) with
  | none => pure ()
  | some path => fail ("Channel " ++ path.channelId ++
      " cannot forward both XML and original Telegram messages in one active workflow.")

def channelFallbacks (fuel : ℕ) (graph : WorkflowGraph) (adjacency : String → List WorkflowEdge)
    (channel : WorkflowNode) : Compiled (String × List Successor) := do
  let ordinaryAccounts ← ordinaryAccountNodesForChannel graph.nodes adjacency fuel channel.id
  let successors ← fallbackSuccessorsForChannel fuel graph channel.id ordinaryAccounts
  pure (channel.id, successors)

def compileWorkflow (fuel : ℕ) (graph : WorkflowGraph) : Compiled CompileState := do
  let resources ← loadWorkflowResources services catalog graph
  let topology ← buildWorkflowTopology graph
  assertAcyclicWorkflow graph.nodes topology.adjacency fuel topology.indegree
  let channelNodes := graph.nodes.filter (·.kind = .channel)
  let fallbackByChannel ← channelNodes.mapM (channelFallbacks fuel graph topology.adjacency)
  let context : WorkflowCompileContext :=
    { nodes := graph.nodes, adjacency := topology.adjacency, resources, fallbackByChannel }
  let state ← channelNodes.foldlM (fun state channel =>
    walkWorkflowPaths services catalog context channel.id fuel state channel.id []) ⟨[], [], []⟩
  let warnings := if channelNodes = [] ∧ graph.nodes ≠ [] then
      state.warnings ++ ["No channel node is present; the workflow is inert."]
    else state.warnings
  assertConsistentTelegramOutputs state.paths
  pure { state with warnings := warnings.eraseDups }

end Paths

end TsxCore.Workflow
