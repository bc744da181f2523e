import TsxCore.WorkflowTypes

/-!
# Workflow graphs (`validateGraph` in `workflow_repository.ts`)

The graph of a request has texts where the source expects texts, and a coordinate that
is no finite number is `none`; other types, which the source refuses, are left out.
`localeCompare` is a parameter.
-/

namespace TsxCore.Workflow

open Outcome

def WORKFLOW_RESOURCE_KINDS : List WorkflowResourceKind :=
  [.channel, .contentFilter, .keywordFilter, .regex, .parser, .schema, .contract, .dedupe,
    .strategy, .sizing, .adaptiveRisk, .account, .output]

def WORKFLOW_FALLBACK_REASONS : List WorkflowFallbackReason :=
  [.symbolUnavailable, .maxConcurrentPositions, .symbolAlreadyOwned]

/-- The `STAGE` of a kind. -/
def WorkflowResourceKind.stage : WorkflowResourceKind → ℕ
  | .channel => 0
  | .contentFilter => 1
  | .keywordFilter => 2
  | .regex => 3
  | .parser => 4
  | .schema => 5
  | .contract => 6
  | .dedupe => 7
  | .strategy => 8
  | .sizing => 9
  | .adaptiveRisk => 10
  | .account => 11
  | .output => 12

def REQUIRED_EXECUTION_KINDS : List WorkflowResourceKind :=
  [.channel, .parser, .schema, .contract, .strategy, .sizing, .account]

inductive EdgeKind
  | flow
  | accountFallback
  deriving DecidableEq

structure WorkflowPosition where
  x : ℚ
  y : ℚ
  deriving DecidableEq

structure WorkflowNode where
  id : String
  kind : WorkflowResourceKind
  resourceVersionId : String
  position : WorkflowPosition
  deriving DecidableEq

structure WorkflowEdge where
  id : String
  source : String
  target : String
  kind : Option EdgeKind
  channelNodeIds : Option (List String)
  fallbackOn : Option (List WorkflowFallbackReason)
  deriving DecidableEq

structure WorkflowGraph where
  schemaVersion : ℤ
  nodes : List WorkflowNode
  edges : List WorkflowEdge
  deriving DecidableEq

structure NodeCandidate where
  id : String
  kind : String
  resourceVersionId : String
  x : Option ℚ
  y : Option ℚ

structure EdgeCandidate where
  id : String
  source : String
  target : String
  kind : Option String
  channelNodeIds : Option (List String)
  fallbackOn : Option (List String)

structure GraphCandidate where
  schemaVersion : ℤ
  nodes : List NodeCandidate
  edges : List EdgeCandidate

/-- `/^[a-zA-Z0-9][a-zA-Z0-9:_-]{0,127}$/`. -/
def isIdentifier (value : String) : Bool :=
  match value.toList with
  | [] => false
  | first :: rest => isAsciiAlphanumeric first && rest.length ≤ 127 &&
      rest.all (fun c => isAsciiAlphanumeric c || c == ':' || c == '_' || c == '-')
where
  isAsciiAlphanumeric (c : Char) : Bool :=
    ('a' ≤ c && c ≤ 'z') || ('A' ≤ c && c ≤ 'Z') || ('0' ≤ c && c ≤ '9')

def stringValue (value label : String) (maximum : ℕ) : Outcome String := do
  throwIf (trim value = "" ∨ maximum < utf16Length (trim value) ∨
    value.toList.any (fun c => c == '\r' || c == '\n' || c == Char.ofNat 0))
    (.error (label ++ " is invalid."))
  pure (trim value)

def stringArray (value : List String) (label : String) (maximum : ℕ) : Outcome (List String) := do
  throwIf (maximum < value.length) (.error (label ++ " must be a bounded string array."))
  let values := (value.map trim).filter (· ≠ "")
  throwIf (¬ values.Nodup) (.error (label ++ " must not contain duplicates."))
  pure values

def resourceKind (value : String) : Option WorkflowResourceKind :=
  WORKFLOW_RESOURCE_KINDS.find? (fun kind => kind.text = value)

def fallbackReason (value : String) : Option WorkflowFallbackReason :=
  WORKFLOW_FALLBACK_REASONS.find? (fun reason => reason.text = value)

def workflowEdgeKind (kind : Option String) (id : String) (schemaVersion : ℤ) :
    Outcome (Option EdgeKind) := do
  throwIf ((schemaVersion = 2 ∨ schemaVersion = 3) ∧ kind ≠ some "flow" ∧
    kind ≠ some "account_fallback")
    (.error ("Workflow edge " ++ id ++ " must declare flow or account_fallback kind."))
  throwIf (schemaVersion = 1 ∧ kind ≠ none ∧ kind ≠ some "flow")
    (.error ("Workflow edge " ++ id ++ " kind is unavailable in schema version 1."))
  if kind = some "flow" then pure (some .flow)
  else if kind = some "account_fallback" then pure (some .accountFallback)
  else pure none

def canonicalWorkflowFallbackPolicy (values : List WorkflowFallbackReason) :
    List WorkflowFallbackReason :=
  values.insertionSort (fun left right =>
    WORKFLOW_FALLBACK_REASONS.idxOf left ≤ WORKFLOW_FALLBACK_REASONS.idxOf right)

def workflowEdgeFallbackPolicy (fallbackOn : Option (List String)) (id : String)
    (kind : Option EdgeKind) (schemaVersion : ℤ) :
    Outcome (Option (List WorkflowFallbackReason)) :=
  if kind ≠ some .accountFallback then do
    throwIf (fallbackOn ≠ none)
      (.error ("Workflow flow edge " ++ id ++ " cannot declare a fallback policy."))
    pure none
  else if schemaVersion < 3 then do
    throwIf (fallbackOn ≠ none) (.error ("Account fallback edge " ++ id ++
      " requires workflow graph schema version 3 for a fallback policy."))
    pure none
  else do
    let values := fallbackOn.getD []
    throwIf (values.length < 1 ∨ 3 < values.length) (.error ("Account fallback edge " ++ id ++
      " fallback policy must contain between one and three reasons."))
    throwIf (values.any (fun value => fallbackReason value = none))
      (.error ("Account fallback edge " ++ id ++ " contains an unsupported fallback reason."))
    throwIf (¬ values.Nodup) (.error ("Account fallback edge " ++ id ++
      " fallback policy contains a duplicate reason."))
    pure (some (canonicalWorkflowFallbackPolicy (values.filterMap fallbackReason)))

def nodeById (nodes : List WorkflowNode) (id : String) : Option WorkflowNode :=
  nodes.find? (·.id = id)

def nodeKind (nodes : List WorkflowNode) (id : String) : Option WorkflowResourceKind :=
  (nodeById nodes id).map (·.kind)

section Edges

variable (localeLe : String → String → Bool)

def workflowEdgeChannelScope (channelNodeIds : Option (List String)) (id : String)
    (nodes : List WorkflowNode) (kind : Option EdgeKind) : Outcome (Option (List String)) :=
  match channelNodeIds with
  | none => do
    throwIf (kind = some .accountFallback) (.error ("Account fallback edge " ++ id ++
      " must be scoped to at least one origin channel."))
    pure none
  | some value => do
    let ids ← stringArray value ("Workflow edge " ++ id ++ " channel scope") 1000
    throwIf (ids = [] ∨ ids.any (fun id => !isIdentifier id)) (.error ("Workflow edge " ++ id ++
      " channel scope must contain at least one valid channel node identifier."))
    throwIf (ids.any (fun id => nodeKind nodes id ≠ some .channel))
      (.error ("Workflow edge " ++ id ++
      " channel scope must reference channel nodes in this graph."))
    pure (some (ids.insertionSort (fun left right => localeLe left right)))

/-- The edges before this one are those whose identifiers and pairs are taken. -/
def normalizeWorkflowEdge (schemaVersion : ℤ) (nodes : List WorkflowNode)
    (before : List WorkflowEdge)
    (candidate : EdgeCandidate) : Outcome WorkflowEdge := do
  let id ← stringValue candidate.id "Workflow edge identifier" 128
  let source ← stringValue candidate.source "Workflow edge source" 128
  let target ← stringValue candidate.target "Workflow edge target" 128
  let kind ← workflowEdgeKind candidate.kind id schemaVersion
  throwIf (isIdentifier id = false ∨ before.any (·.id = id) ∨
    before.any (fun edge => edge.source = source ∧ edge.target = target))
    (.error ("Workflow edge " ++ id ++ " is invalid or duplicated."))
  throwIf (nodeById nodes source = none ∨ nodeById nodes target = none ∨ source = target)
    (.error ("Workflow edge " ++ id ++ " references an invalid endpoint."))
  throwIf (kind = some .accountFallback ∧
    (nodeKind nodes source ≠ some .account ∨ nodeKind nodes target ≠ some .account))
    (.error ("Account fallback edge " ++ id ++ " must connect two exchange account nodes."))
  let channelNodeIds ← workflowEdgeChannelScope localeLe candidate.channelNodeIds id nodes kind
  let fallbackOn ← workflowEdgeFallbackPolicy candidate.fallbackOn id kind schemaVersion
  pure { id, source, target, kind, channelNodeIds, fallbackOn }

def normalizeWorkflowNode (before : List WorkflowNode) (candidate : NodeCandidate) :
    Outcome WorkflowNode := do
  let id ← stringValue candidate.id "Workflow node identifier" 128
  throwIf (isIdentifier id = false ∨ before.any (·.id = id))
    (.error ("Workflow node identifier '" ++ id ++ "' is invalid or duplicated."))
  match resourceKind candidate.kind with
  | none => .error (.error ("Workflow node " ++ id ++ " has an unsupported kind."))
  | some kind =>
    match candidate.x, candidate.y with
    | some x, some y => do
      let resourceVersionId ← stringValue candidate.resourceVersionId
        "Resource version identifier" 64
      pure { id, kind, resourceVersionId, position := ⟨x, y⟩ }
    | _, _ => .error (.error ("Workflow node " ++ id ++ " position is invalid."))

def WORKFLOW_COLUMN_GAP : ℚ := 316

def WORKFLOW_ROW_GAP : ℚ := 150

/-- `left.position.y - right.position.y || left.id.localeCompare(right.id)` is not positive. -/
def above (left right : WorkflowNode) : Bool :=
  left.position.y < right.position.y ||
    (left.position.y = right.position.y && localeLe left.id right.id)

def columnOf (nodes : List WorkflowNode) (kind : WorkflowResourceKind) : List WorkflowNode :=
  (nodes.filter (fun node => node.kind = kind)).insertionSort
    (fun left right => above localeLe left right = true)

/-- A node in the column of its kind, at its index there. -/
def WorkflowNode.placed (nodes : List WorkflowNode) (node : WorkflowNode) : WorkflowNode :=
  { node with position := ⟨node.kind.stage * WORKFLOW_COLUMN_GAP,
    ((columnOf localeLe nodes node.kind).map (·.id)).idxOf node.id * WORKFLOW_ROW_GAP⟩ }

def placedNodes (nodes : List WorkflowNode) : List WorkflowNode :=
  nodes.map (WorkflowNode.placed localeLe nodes)

def validateGraph (value : GraphCandidate) : Outcome WorkflowGraph := do
  throwIf (value.schemaVersion ≠ 1 ∧ value.schemaVersion ≠ 2 ∧ value.schemaVersion ≠ 3)
    (.error "Workflow graph contract is invalid.")
  throwIf (1000 < value.nodes.length ∨ 5000 < value.edges.length)
    (.error "Workflow graph exceeds its size limit.")
  let read ← value.nodes.foldlM (fun nodes candidate => do
    pure (nodes ++ [← normalizeWorkflowNode nodes candidate])) []
  let nodes := placedNodes localeLe read
  let edges ← value.edges.foldlM (fun edges candidate => do
    pure (edges ++ [← normalizeWorkflowEdge localeLe value.schemaVersion nodes edges candidate])) []
  pure { schemaVersion := value.schemaVersion, nodes, edges }

end Edges

structure WorkflowGraph.Valid (graph : WorkflowGraph) : Prop where
  nodes : (graph.nodes.map (·.id)).Nodup
  pairs : (graph.edges.map (fun edge => (edge.source, edge.target))).Nodup
  endpoints : ∀ edge ∈ graph.edges,
    (∃ node ∈ graph.nodes, node.id = edge.source) ∧ ∃ node ∈ graph.nodes, node.id = edge.target
  fallbacks : ∀ edge ∈ graph.edges, edge.kind = some .accountFallback →
    nodeKind graph.nodes edge.source = some .account ∧
      nodeKind graph.nodes edge.target = some .account

section Validation

variable {localeLe : String → String → Bool} {nodes : List WorkflowNode}

/-- A loop that appends one checked element a round keeps what each check promises. -/
theorem foldlM_append_ok {α β : Type} {f : List β → α → Outcome β} {as : List α}
    {start result : List β} {P : List β → Prop} (hstart : P start)
    (hstep : ∀ bs a b, P bs → f bs a = .ok b → P (bs ++ [b]))
    (hok : as.foldlM (fun bs a => do pure (bs ++ [← f bs a])) start = .ok result) : P result := by
  induction as generalizing start with
  | nil =>
    cases hok
    exact hstart
  | cons a as ih =>
    simp only [List.foldlM_cons, bind_eq_ok, pure_eq_ok_iff] at hok
    obtain ⟨_, ⟨b, hb, rfl⟩, hrest⟩ := hok
    exact ih (hstep start a b hstart hb) hrest

theorem normalizeWorkflowNode_fresh {before : List WorkflowNode} {candidate : NodeCandidate}
    {node : WorkflowNode} (h : normalizeWorkflowNode before candidate = .ok node) :
    ∀ other ∈ before, other.id ≠ node.id := by
  unfold normalizeWorkflowNode at h
  simp only [bind_eq_ok, throwIf_eq_ok, not_or] at h
  obtain ⟨id, -, -, ⟨-, hnew⟩, h⟩ := h
  split at h
  · cases h
  · split at h
    · simp only [bind_eq_ok, pure_eq_ok_iff] at h
      obtain ⟨_, -, rfl⟩ := h
      simpa using hnew
    · cases h

theorem map_id_placedNodes : (placedNodes localeLe nodes).map (·.id) = nodes.map (·.id) := by
  rw [placedNodes, List.map_map]
  rfl

theorem nodeById_mem {id : String} {node : WorkflowNode} (h : nodeById nodes id = some node) :
    node ∈ nodes ∧ node.id = id :=
  ⟨List.mem_of_find?_eq_some h, by simpa using List.find?_some h⟩

theorem normalizeWorkflowEdge_ok {schemaVersion : ℤ} {before : List WorkflowEdge}
    {candidate : EdgeCandidate} {edge : WorkflowEdge}
    (h : normalizeWorkflowEdge localeLe schemaVersion nodes before candidate = .ok edge) :
    (∀ other ∈ before, (other.source, other.target) ≠ (edge.source, edge.target)) ∧
      ((∃ node ∈ nodes, node.id = edge.source) ∧ ∃ node ∈ nodes, node.id = edge.target) ∧
      (edge.kind = some .accountFallback → nodeKind nodes edge.source = some .account ∧
        nodeKind nodes edge.target = some .account) := by
  unfold normalizeWorkflowEdge at h
  simp only [bind_eq_ok, throwIf_eq_ok, not_or, not_and, pure_eq_ok_iff] at h
  obtain ⟨id, -, source, -, target, -, kind, -, -, ⟨-, -, hpair⟩, -, ⟨hsrc, htgt, -⟩, -,
    haccs, scope, -, policy, -, rfl⟩ := h
  refine ⟨?_, ⟨?_, ?_⟩, ?_⟩
  · simpa using hpair
  · obtain ⟨node, hnode⟩ := Option.ne_none_iff_exists'.mp hsrc
    exact ⟨node, nodeById_mem hnode⟩
  · obtain ⟨node, hnode⟩ := Option.ne_none_iff_exists'.mp htgt
    exact ⟨node, nodeById_mem hnode⟩
  · intro hkind
    simpa using haccs hkind

theorem nodup_map_append {α β : Type} {f : α → β} {as : List α} {a : α} (h : (as.map f).Nodup)
    (ha : ∀ b ∈ as, f b ≠ f a) : ((as ++ [a]).map f).Nodup := by
  rw [List.map_append, List.map_singleton, List.nodup_append]
  refine ⟨h, List.nodup_singleton _, ?_⟩
  intro x hx y hy
  rw [List.mem_singleton] at hy
  obtain ⟨b, hb, rfl⟩ := List.mem_map.mp hx
  exact hy ▸ ha b hb

theorem validateGraph_valid {value : GraphCandidate} {graph : WorkflowGraph}
    (h : validateGraph localeLe value = .ok graph) : graph.Valid := by
  unfold validateGraph at h
  simp only [bind_eq_ok, throwIf_eq_ok, pure_eq_ok_iff] at h
  obtain ⟨-, -, -, -, read, hread, edges, hedges, rfl⟩ := h
  have hids : ((placedNodes localeLe read).map (·.id)).Nodup := by
    rw [map_id_placedNodes]
    refine foldlM_append_ok (P := fun nodes => (nodes.map WorkflowNode.id).Nodup) ?_ ?_ hread
    · exact List.nodup_nil
    · intro before candidate node hbefore hnode
      exact nodup_map_append hbefore (normalizeWorkflowNode_fresh hnode)
  refine foldlM_append_ok (P := fun edges =>
    WorkflowGraph.Valid ⟨value.schemaVersion, placedNodes localeLe read, edges⟩) ?_ ?_ hedges
  · exact ⟨hids, List.nodup_nil, by simp, by simp⟩
  · intro before candidate edge hbefore hedge
    obtain ⟨hpair, hends, haccs⟩ := normalizeWorkflowEdge_ok hedge
    refine ⟨hids, nodup_map_append hbefore.pairs hpair, ?_, ?_⟩
    · intro other hother
      rcases List.mem_append.mp hother with hold | hnew
      · exact hbefore.endpoints other hold
      · exact List.mem_singleton.mp hnew ▸ hends
    · intro other hother
      rcases List.mem_append.mp hother with hold | hnew
      · exact hbefore.fallbacks other hold
      · exact List.mem_singleton.mp hnew ▸ haccs

end Validation

end TsxCore.Workflow
