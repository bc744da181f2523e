import TsxCore.WorkflowFallback

/-!
# Signal plans (`getWorkflowSignalPlans` in `workflow_repository.ts`)

A plan joins the paths of a channel that ask the parser for the same thing.
`definitionSha256` is the hash of the normalized text of a definition.
-/

namespace TsxCore.Workflow

open Outcome

structure SignalPlanDefinition where
  parserResourceVersionId : Option String
  schemaResourceVersionId : Option String
  contractResourceVersionId : Option String
  templateName : String
  prompt : Option String
  timeoutMs : ℤ
  primaryModel : Option String
  fallbackModel : Option String
  schemaId : String
  contractVersionId : String
  dedupe : DedupeConfiguration

structure WorkflowSignalPlan where
  key : String
  workflowRevisionId : String
  executionPathIds : List String
  templateName : String
  prompt : Option String
  timeoutMs : ℤ
  primaryModel : Option String
  fallbackModel : Option String
  schemaId : String
  contractVersionId : String
  dedupe : DedupeConfiguration
  outputModes : List OutputMode

structure PlanServices where
  definitionSha256 : SignalPlanDefinition → String
  localeLe : String → String → Bool
  lower : String → String
  safeRegexTest : String → String → Outcome Bool

/-- `undefined`, `null` or an identifier; an empty text is read as `null`. -/
inductive PinnedRevision
  | active
  | none
  | revision (id : String)

structure SignalPlanInput where
  channelId : String
  text : String
  contentType : String
  workflowRevisionId : PinnedRevision

/-- A resource that the compiled configuration must have. -/
def compiledResource {α : Type} (resource : Option α) (label : String) : Outcome α :=
  match resource with
  | some value => pure value
  | none => .error (.error ("Compiled " ++ label ++ " resource must be an object."))

def nonEmpty (text : Option String) : Option String := text.filter (· ≠ "")

def signalPlanDefinition (path : WorkflowExecutionPath) : Outcome SignalPlanDefinition := do
  let resources := path.resources
  let parser ← compiledResource (CompiledResources.parser resources) "parser"
  let schemaId ← compiledResource (CompiledResources.schemaId resources) "schema"
  let contractVersionId ← compiledResource (CompiledResources.contractVersionId resources)
    "contract"
  pure {
    parserResourceVersionId := path.parserResourceVersionId
    schemaResourceVersionId := path.schemaResourceVersionId
    contractResourceVersionId := path.contractResourceVersionId
    templateName := parser.templateName
    prompt := nonEmpty parser.prompt
    timeoutMs := parser.timeoutMs
    primaryModel := nonEmpty parser.primaryModel
    fallbackModel := nonEmpty parser.fallbackModel
    schemaId
    contractVersionId
    dedupe := (CompiledResources.dedupe resources).getD ⟨false, 24⟩ }

section Plans

variable (services : PlanServices)

def signalPlanForPath (workflowRevisionId : String) (path : WorkflowExecutionPath) :
    Outcome WorkflowSignalPlan := do
  let definition ← signalPlanDefinition path
  pure {
    key := services.definitionSha256 definition
    workflowRevisionId
    executionPathIds := [path.id]
    templateName := definition.templateName
    prompt := definition.prompt
    timeoutMs := definition.timeoutMs
    primaryModel := definition.primaryModel
    fallbackModel := definition.fallbackModel
    schemaId := definition.schemaId
    contractVersionId := definition.contractVersionId
    dedupe := definition.dedupe
    outputModes := [(CompiledResources.output path.resources).getD .auditOnly] }

/-- The modes of a plan and those that a further path adds. -/
def addModes (modes more : List OutputMode) : List OutputMode :=
  more.foldl (fun modes mode => if mode ∈ modes then modes else modes ++ [mode]) modes

/-- The groups are listed in the order of their first path. -/
def mergeSignalPlan (groups : List WorkflowSignalPlan) (candidate : WorkflowSignalPlan) :
    List WorkflowSignalPlan :=
  if groups.any (·.key = candidate.key) then
    groups.map (fun existing => if existing.key = candidate.key then { existing with
      executionPathIds := existing.executionPathIds ++ candidate.executionPathIds
      outputModes := addModes existing.outputModes candidate.outputModes } else existing)
  else groups ++ [candidate]

/-- One round of the loop over the paths of a revision. -/
def planPath (input : SignalPlanInput) (workflowRevisionId : String)
    (groups : List WorkflowSignalPlan) (path : WorkflowExecutionPath) :
    Outcome (List WorkflowSignalPlan) :=
  if path.channelId ≠ input.channelId ∨ path.enabled = false then pure groups
  else do
    match ← pathAllowsInput services.lower services.safeRegexTest path input.text
      input.contentType with
    | .filtered _ => pure groups
    | .allowed => do
      let candidate ← signalPlanForPath services workflowRevisionId path
      pure (mergeSignalPlan groups candidate)

def sortPlan (plan : WorkflowSignalPlan) : WorkflowSignalPlan :=
  { plan with
    executionPathIds :=
      plan.executionPathIds.insertionSort (fun left right => services.localeLe left right)
    outputModes :=
      plan.outputModes.insertionSort (fun left right => services.localeLe left.text right.text) }

def workflowSignalPlans (input : SignalPlanInput) (workflow : WorkflowRevision) :
    Outcome (List WorkflowSignalPlan) := do
  let groups ← workflow.paths.foldlM (planPath services input workflow.id) []
  pure ((groups.map (sortPlan services)).insertionSort
    (fun left right => services.localeLe left.key right.key))

def getWorkflowSignalPlans (input : SignalPlanInput) (db : Database) :
    Outcome (List WorkflowSignalPlan) :=
  match input.workflowRevisionId with
  | .active => (db.activeWorkflow.map (workflowSignalPlans services input)).getD (pure [])
  | .none => pure []
  | .revision id =>
    match db.revisions.find id with
    | none => .error (.error "Pinned workflow revision is missing; review required.")
    | some workflow => workflowSignalPlans services input workflow

end Plans

end TsxCore.Workflow
