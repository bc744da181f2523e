import TsxCore.TradingTypes

/-!
# Workflow types (`trading_types.ts`)

A resource configuration has the members that compiled workflows read; its hash
is kept beside it and covers all members. The kind of a resource is that of its
configuration.
-/

namespace TsxCore.Workflow

open TradingTypes

inductive WorkflowResourceKind
  | channel
  | contentFilter
  | keywordFilter
  | regex
  | parser
  | schema
  | contract
  | dedupe
  | strategy
  | sizing
  | adaptiveRisk
  | account
  | output
  deriving DecidableEq

def WorkflowResourceKind.text : WorkflowResourceKind → String
  | .channel => "channel"
  | .contentFilter => "content_filter"
  | .keywordFilter => "keyword_filter"
  | .regex => "regex"
  | .parser => "parser"
  | .schema => "schema"
  | .contract => "contract"
  | .dedupe => "dedupe"
  | .strategy => "strategy"
  | .sizing => "sizing"
  | .adaptiveRisk => "adaptive_risk"
  | .account => "account"
  | .output => "output"

inductive WorkflowFallbackReason
  | symbolUnavailable
  | maxConcurrentPositions
  | symbolAlreadyOwned
  deriving DecidableEq

def WorkflowFallbackReason.text : WorkflowFallbackReason → String
  | .symbolUnavailable => "SYMBOL_UNAVAILABLE"
  | .maxConcurrentPositions => "MAX_CONCURRENT_POSITIONS"
  | .symbolAlreadyOwned => "SYMBOL_ALREADY_OWNED"

inductive OutputMode
  | auditOnly
  | telegramXml
  | telegramOriginal
  | none
  deriving DecidableEq

def OutputMode.text : OutputMode → String
  | .auditOnly => "audit_only"
  | .telegramXml => "telegram_xml"
  | .telegramOriginal => "telegram_original"
  | .none => "none"

inductive RegexMode
  | all
  | any
  deriving DecidableEq

structure KeywordFilter where
  allowedKeywords : List String
  blockedKeywords : List String
  deriving DecidableEq

structure RegexFilter where
  patterns : List String
  mode : RegexMode
  deriving DecidableEq

structure ParserConfiguration where
  templateName : String
  prompt : Option String
  timeoutMs : ℤ
  primaryModel : Option String
  fallbackModel : Option String
  deriving DecidableEq

structure DedupeConfiguration where
  enabled : Bool
  cooldownHours : ℚ
  deriving DecidableEq

inductive ResourceConfiguration
  | channel (channelId : String)
  | contentFilter (allowedTypes : List String)
  | keywordFilter (filter : KeywordFilter)
  | regex (filter : RegexFilter)
  | parser (parser : ParserConfiguration)
  | schema (schemaId : String)
  | contract (contractVersionId : String)
  | dedupe (dedupe : DedupeConfiguration)
  | strategy (strategyVersionId : String)
  | sizing (sizing : SizingConfiguration)
  | adaptiveRisk
  | account (accountId : String)
  | output (mode : OutputMode)
  deriving DecidableEq

def ResourceConfiguration.kind : ResourceConfiguration → WorkflowResourceKind
  | .channel _ => .channel
  | .contentFilter _ => .contentFilter
  | .keywordFilter _ => .keywordFilter
  | .regex _ => .regex
  | .parser _ => .parser
  | .schema _ => .schema
  | .contract _ => .contract
  | .dedupe _ => .dedupe
  | .strategy _ => .strategy
  | .sizing _ => .sizing
  | .adaptiveRisk => .adaptiveRisk
  | .account _ => .account
  | .output _ => .output

/-- The `resources` of an effective configuration, with at most one entry of each kind. -/
abbrev CompiledResources := List ResourceConfiguration

namespace CompiledResources

variable (resources : CompiledResources)

def channelId : Option String :=
  resources.findSome? fun | .channel channelId => some channelId | _ => none

def contentFilter : Option (List String) :=
  resources.findSome? fun | .contentFilter allowedTypes => some allowedTypes | _ => none

def keywordFilter : Option KeywordFilter :=
  resources.findSome? fun | .keywordFilter filter => some filter | _ => none

def regex : Option RegexFilter :=
  resources.findSome? fun | .regex filter => some filter | _ => none

def parser : Option ParserConfiguration :=
  resources.findSome? fun | .parser parser => some parser | _ => none

def schemaId : Option String :=
  resources.findSome? fun | .schema schemaId => some schemaId | _ => none

def contractVersionId : Option String :=
  resources.findSome? fun | .contract contractVersionId => some contractVersionId | _ => none

def dedupe : Option DedupeConfiguration :=
  resources.findSome? fun | .dedupe dedupe => some dedupe | _ => none

def strategyVersionId : Option String :=
  resources.findSome? fun | .strategy strategyVersionId => some strategyVersionId | _ => none

def sizing : Option SizingConfiguration :=
  resources.findSome? fun | .sizing sizing => some sizing | _ => none

def accountId : Option String :=
  resources.findSome? fun | .account accountId => some accountId | _ => none

def output : Option OutputMode :=
  resources.findSome? fun | .output mode => some mode | _ => none

end CompiledResources

inductive AccountStatus
  | unverified
  | ready
  | disabled
  | error
  | degraded
  deriving DecidableEq

structure CompiledDraftPath where
  id : String
  pathKey : String
  channelId : String
  accountId : String
  strategyVersionId : String
  parserResourceVersionId : Option String
  schemaResourceVersionId : Option String
  contractResourceVersionId : Option String
  sizingResourceVersionId : Option String
  adaptiveRiskResourceVersionId : Option String
  routeGroupKey : String
  fallbackRank : ℕ
  fallbackOn : List WorkflowFallbackReason
  nodeIds : List String
  resources : CompiledResources
  strategyConfiguration : StrategyConfiguration
  enabled : Bool
  deriving DecidableEq

structure WorkflowExecutionPath extends CompiledDraftPath where
  workflowRevisionId : String

structure WorkflowRouteCandidate where
  pathId : String
  accountId : String
  accountNodeId : String
  rank : ℕ
  enabled : Bool
  fallbackOn : List WorkflowFallbackReason
  deriving DecidableEq

structure WorkflowRouteGroup where
  key : String
  channelId : String
  channelNodeId : String
  primaryPathId : String
  candidates : List WorkflowRouteCandidate
  deriving DecidableEq

structure WorkflowRouteGroup.WellFormed (group : WorkflowRouteGroup) : Prop where
  ranks : group.candidates.map (·.rank) = List.range group.candidates.length
  paths : (group.candidates.map (·.pathId)).Nodup
  primary : (group.candidates.map (·.pathId)).head? = some group.primaryPathId

/-- A stored revision with its compiled paths and route groups. -/
structure WorkflowRevision where
  id : String
  paths : List WorkflowExecutionPath
  routeGroups : List WorkflowRouteGroup

structure WorkflowRevision.WellFormed (revision : WorkflowRevision) : Prop where
  groups : ∀ group ∈ revision.routeGroups, group.WellFormed
  keys : (revision.routeGroups.map (·.key)).Nodup

end TsxCore.Workflow
