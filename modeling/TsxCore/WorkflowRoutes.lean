import TsxCore.WorkflowCompiler

/-!
# Executable routes of a workflow graph

A route of a channel is a sequence of flow edges to its first account node, with
the output node of that account and the chain of its fallback accounts. The
routes are stated over the graph alone; the lemmas below say what the topology
and the successor map of the compiler have of them.
-/

namespace TsxCore.Workflow

open Outcome

section Routes

variable (graph : WorkflowGraph) (channelNodeId : String)

/-- A flow edge whose scope is absent or contains the channel. -/
def FlowEdge (source target : String) : Prop :=
  ∃ edge ∈ graph.edges, edge.kind ≠ some .accountFallback ∧
    edgeAppliesToChannel channelNodeId edge = true ∧ edge.source = source ∧ edge.target = target

/-- A fallback edge scoped to the channel, with its policy. -/
def FallbackEdge (source target : String) (policy : List WorkflowFallbackReason) : Prop :=
  ∃ edge ∈ graph.edges, edge.kind = some .accountFallback ∧
    (∃ scope, edge.channelNodeIds = some scope ∧ channelNodeId ∈ scope) ∧
    edge.source = source ∧ edge.target = target ∧
    edge.fallbackOn.getD LEGACY_WORKFLOW_FALLBACK_POLICY = policy

/-- Flow edges lead from a node through the nodes `before` to a first account node. -/
inductive Leads : String → List String → String → Prop
  | arrive {accountNodeId : String} (account : nodeKind graph.nodes accountNodeId = some .account) :
      Leads accountNodeId [] accountNodeId
  | follow {nodeId next accountNodeId : String} {before : List String}
      (ordinary : nodeKind graph.nodes nodeId ≠ some .account)
      (edge : FlowEdge graph channelNodeId nodeId next) (rest : Leads next before accountNodeId) :
      Leads nodeId (nodeId :: before) accountNodeId

/-- The output node of an account is its end, where one is connected. -/
def OutputEnd (accountNodeId : String) (after : List String) : Prop :=
  (after = [] ∧ ∀ target, FlowEdge graph channelNodeId accountNodeId target →
    nodeKind graph.nodes target ≠ some .output) ∨
  ∃ target, after = [target] ∧ FlowEdge graph channelNodeId accountNodeId target ∧
    nodeKind graph.nodes target = some .output

/-- The fallback chain of an account, with the policy of each of its edges. -/
inductive FallbackChain : List String → List (List WorkflowFallbackReason) → Prop
  | last {accountNodeId : String}
      (terminal : ∀ target policy, ¬ FallbackEdge graph channelNodeId accountNodeId target policy) :
      FallbackChain [accountNodeId] [[]]
  | next {accountNodeId target : String} {policy : List WorkflowFallbackReason}
      {accountNodeIds : List String} {policies : List (List WorkflowFallbackReason)}
      (edge : FallbackEdge graph channelNodeId accountNodeId target policy)
      (rest : FallbackChain (target :: accountNodeIds) policies) :
      FallbackChain (accountNodeId :: target :: accountNodeIds) (policy :: policies)

end Routes

structure IsRoute (graph : WorkflowGraph) (route : Lineage) : Prop where
  channel : nodeKind graph.nodes route.channelNodeId = some .channel
  sequence : ∃ accountNodeId, route.accountNodeIds.head? = some accountNodeId ∧
    Leads graph route.channelNodeId route.channelNodeId route.before accountNodeId ∧
    OutputEnd graph route.channelNodeId accountNodeId route.after
  kinds : ∀ kind ∈ REQUIRED_EXECUTION_KINDS, ∃ id ∈ route.nodeIds 0,
    nodeKind graph.nodes id = some kind
  fallback : FallbackChain graph route.channelNodeId route.accountNodeIds route.fallbackPolicies

/-- The columns of two nodes, where the first is the earlier one. -/
def Earlier (graph : WorkflowGraph) (left right : String) : Prop :=
  ∃ leftKind rightKind, nodeKind graph.nodes left = some leftKind ∧
    nodeKind graph.nodes right = some rightKind ∧ leftKind.stage < rightKind.stage

def WorkflowGraph.Ascending (graph : WorkflowGraph) : Prop :=
  ∀ edge ∈ graph.edges, edge.kind ≠ some .accountFallback → Earlier graph edge.source edge.target

/-- The fallback edges of a channel leave and enter each account at most once. -/
structure WorkflowGraph.Linear (graph : WorkflowGraph) (channelNodeId : String) : Prop where
  sources : ((fallbackEdges graph channelNodeId).map (·.source)).Nodup
  targets : ((fallbackEdges graph channelNodeId).map (·.target)).Nodup

section Columns

variable {graph : WorkflowGraph} {channelNodeId nodeId accountNodeId : String}
  {before after : List String}

theorem Earlier.trans {left middle right : String} (h : Earlier graph left middle)
    (h' : Earlier graph middle right) : Earlier graph left right := by
  obtain ⟨leftKind, middleKind, hleft, hmid, hlt⟩ := h
  obtain ⟨middleKind', rightKind, hmid', hright, hlt'⟩ := h'
  obtain rfl : middleKind = middleKind' := by simpa [hmid] using hmid'
  exact ⟨leftKind, rightKind, hleft, hright, hlt.trans hlt'⟩

theorem FlowEdge.earlier (hgraph : graph.Ascending) {source target : String}
    (h : FlowEdge graph channelNodeId source target) : Earlier graph source target := by
  obtain ⟨edge, hedge, hkind, -, rfl, rfl⟩ := h
  exact hgraph edge hedge hkind

theorem Leads.account (h : Leads graph channelNodeId nodeId before accountNodeId) :
    nodeKind graph.nodes accountNodeId = some .account := by
  induction h with
  | arrive account => exact account
  | follow _ _ _ ih => exact ih

theorem Leads.ordinary (h : Leads graph channelNodeId nodeId before accountNodeId) :
    ∀ id ∈ before, nodeKind graph.nodes id ≠ some .account := by
  induction h with
  | arrive account => simp
  | follow hnode _ _ ih => simpa [hnode] using ih

theorem Leads.head (h : Leads graph channelNodeId nodeId before accountNodeId) :
    (before ++ [accountNodeId]).head? = some nodeId := by
  cases h with
  | arrive account => rfl
  | follow _ _ _ => rfl

theorem Leads.ascends (hgraph : graph.Ascending)
    (h : Leads graph channelNodeId nodeId before accountNodeId) :
    (before ++ [accountNodeId]).Pairwise (Earlier graph) := by
  induction h with
  | arrive account => simp
  | @follow nodeId next accountNodeId before _ hedge hrest ih =>
    have hhead := hrest.head
    obtain ⟨rest, hlist⟩ : ∃ rest, before ++ [accountNodeId] = next :: rest := by
      cases hlist : before ++ [accountNodeId] with
      | nil => simp [hlist] at hhead
      | cons first rest =>
        obtain rfl : first = next := by simpa [hlist] using hhead
        exact ⟨rest, rfl⟩
    rw [List.cons_append, List.pairwise_cons, hlist]
    rw [hlist] at ih
    refine ⟨?_, ih⟩
    intro id hid
    rcases List.mem_cons.mp hid with rfl | hid
    · exact hedge.earlier hgraph
    · exact (hedge.earlier hgraph).trans (List.rel_of_pairwise_cons ih hid)

theorem columns_append {target : String} (h : (before ++ [nodeId]).Pairwise (Earlier graph))
    (hedge : Earlier graph nodeId target) :
    ((before ++ [nodeId]) ++ [target]).Pairwise (Earlier graph) := by
  refine List.pairwise_append.mpr ⟨h, List.pairwise_singleton _ _, ?_⟩
  intro id hid other hother
  obtain rfl := List.mem_singleton.mp hother
  rcases List.mem_append.mp hid with hid | hid
  · exact ((List.pairwise_append.mp h).2.2 id hid nodeId (by simp)).trans hedge
  · obtain rfl := List.mem_singleton.mp hid
    exact hedge

theorem OutputEnd.columns (hgraph : graph.Ascending)
    (h : OutputEnd graph channelNodeId accountNodeId after)
    (hbefore : (before ++ [accountNodeId]).Pairwise (Earlier graph)) :
    (before ++ accountNodeId :: after).Pairwise (Earlier graph) := by
  obtain ⟨rfl, -⟩ | ⟨target, rfl, hedge, -⟩ := h
  · exact hbefore
  · simpa using columns_append hbefore (hedge.earlier hgraph)

theorem OutputEnd.ordinary (h : OutputEnd graph channelNodeId accountNodeId after) :
    ∀ id ∈ after, nodeKind graph.nodes id ≠ some .account := by
  obtain ⟨rfl, -⟩ | ⟨target, rfl, -, hkind⟩ := h
  · simp
  · simp [hkind]

theorem nodup_kinds {ids : List String} (h : ids.Pairwise (Earlier graph)) :
    (ids.map (nodeKind graph.nodes)).Nodup := by
  rw [List.Nodup, List.pairwise_map]
  refine h.imp ?_
  intro left right hearlier heq
  obtain ⟨leftKind, rightKind, hleft, hright, hlt⟩ := hearlier
  obtain rfl : leftKind = rightKind := by simpa [hleft, hright] using heq
  exact absurd hlt (lt_irrefl _)

end Columns

section Chains

variable {graph : WorkflowGraph} {channelNodeId : String} {policy : List WorkflowFallbackReason}
  {accountNodeIds : List String} {policies : List (List WorkflowFallbackReason)}

theorem fallbackEdge_iff {source target : String} :
    FallbackEdge graph channelNodeId source target policy ↔
      ∃ edge ∈ fallbackEdges graph channelNodeId, edge.source = source ∧ edge.target = target ∧
        edge.fallbackOn.getD LEGACY_WORKFLOW_FALLBACK_POLICY = policy := by
  have hscope : ∀ scope : Option (List String), scope.any (channelNodeId ∈ ·) = true ↔
      ∃ ids, scope = some ids ∧ channelNodeId ∈ ids := by
    intro scope
    cases scope <;> simp
  simp only [FallbackEdge, fallbackEdges, List.mem_filter, decide_eq_true_eq, hscope]
  grind

theorem FallbackEdge.unique (hlinear : graph.Linear channelNodeId) {source target target' : String}
    {policy' : List WorkflowFallbackReason}
    (h : FallbackEdge graph channelNodeId source target policy)
    (h' : FallbackEdge graph channelNodeId source target' policy') :
    target = target' ∧ policy = policy' := by
  obtain ⟨edge, hedge, hsrc, rfl, rfl⟩ := fallbackEdge_iff.mp h
  obtain ⟨edge', hedge', hsrc', rfl, rfl⟩ := fallbackEdge_iff.mp h'
  obtain rfl := List.inj_on_of_nodup_map hlinear.sources hedge hedge' (hsrc.trans hsrc'.symm)
  exact ⟨rfl, rfl⟩

theorem FallbackChain.unique (hlinear : graph.Linear channelNodeId) {accountNodeIds' : List String}
    {policies' : List (List WorkflowFallbackReason)}
    (h : FallbackChain graph channelNodeId accountNodeIds policies)
    (h' : FallbackChain graph channelNodeId accountNodeIds' policies')
    (hhead : accountNodeIds.head? = accountNodeIds'.head?) :
    accountNodeIds = accountNodeIds' ∧ policies = policies' := by
  induction h generalizing accountNodeIds' policies' with
  | last hlast =>
    cases h' with
    | last _ => simpa using hhead
    | next edge _ =>
      obtain rfl : _ = _ := by simpa using hhead
      exact absurd edge (hlast _ _)
  | next edge _ ih =>
    cases h' with
    | last hlast =>
      obtain rfl : _ = _ := by simpa using hhead
      exact absurd edge (hlast _ _)
    | next edge' hrest' =>
      obtain rfl : _ = _ := by simpa using hhead
      obtain ⟨rfl, rfl⟩ := edge.unique hlinear edge'
      obtain ⟨hids, rfl⟩ := ih hrest' rfl
      exact ⟨by rw [hids], rfl⟩

theorem FallbackChain.suffix {accountNodeId : String}
    (h : FallbackChain graph channelNodeId accountNodeIds policies)
    (hmem : accountNodeId ∈ accountNodeIds) :
    ∃ rest policies', FallbackChain graph channelNodeId (accountNodeId :: rest) policies' ∧
      rest.length < accountNodeIds.length := by
  induction h with
  | @last first hlast =>
    obtain rfl := List.mem_singleton.mp hmem
    exact ⟨[], [[]], .last hlast, by simp⟩
  | next edge hrest ih =>
    rcases List.mem_cons.mp hmem with rfl | hmem
    · exact ⟨_, _, .next edge hrest, by simp⟩
    · obtain ⟨rest, policies', hchain, hlen⟩ := ih hmem
      exact ⟨rest, policies', hchain, hlen.trans (by simp)⟩

/-- A chain that came back to an account would never end. -/
theorem FallbackChain.nodup (hlinear : graph.Linear channelNodeId)
    (h : FallbackChain graph channelNodeId accountNodeIds policies) : accountNodeIds.Nodup := by
  induction h with
  | last _ => exact List.nodup_singleton _
  | next edge hrest ih =>
    refine List.nodup_cons.mpr ⟨?_, ih⟩
    intro hmem
    obtain ⟨rest, policies', hchain, hlen⟩ := hrest.suffix hmem
    obtain ⟨hids, -⟩ := hchain.unique hlinear (.next edge hrest) rfl
    obtain rfl : rest = _ := by simpa using hids
    exact absurd hlen (lt_irrefl _)

theorem FallbackChain.length (h : FallbackChain graph channelNodeId accountNodeIds policies) :
    policies.length = accountNodeIds.length := by
  induction h with
  | last _ => rfl
  | next _ _ ih => simpa using ih

theorem FallbackChain.accounts (hgraph : graph.Valid)
    (h : FallbackChain graph channelNodeId accountNodeIds policies)
    (hhead : ∀ id ∈ accountNodeIds.head?, nodeKind graph.nodes id = some .account) :
    ∀ id ∈ accountNodeIds, nodeKind graph.nodes id = some .account := by
  induction h with
  | last _ => simpa using hhead
  | next edge _ ih =>
    obtain ⟨fallback, hmem, hkind, -, -, rfl, -⟩ := edge
    intro id hid
    rcases List.mem_cons.mp hid with rfl | hid
    · exact hhead id rfl
    · refine ih ?_ id hid
      intro id hid
      obtain rfl : fallback.target = id := by simpa using hid
      exact (hgraph.fallbacks fallback hmem hkind).2

end Chains

section Topology

variable {graph : WorkflowGraph} {channelNodeId : String} {nodes : List WorkflowNode}

theorem requiredWorkflowNode_eq_ok {id : String} {node : WorkflowNode} :
    requiredWorkflowNode nodes id = .ok node ↔ nodeById nodes id = some node := by
  unfold requiredWorkflowNode
  cases nodeById nodes id <;> simp [fail]

theorem nodeKind_of_find {id : String} {node : WorkflowNode} (h : nodeById nodes id = some node) :
    nodeKind nodes id = some node.kind := by
  rw [nodeKind, h, Option.map_some]

theorem addEdge_eq_ok {topology topology' : Topology} {edge : WorkflowEdge}
    (h : addEdge graph.nodes topology edge = .ok topology') :
    (edge.kind ≠ some .accountFallback → Earlier graph edge.source edge.target) ∧
      ∀ id, topology'.adjacency id = topology.adjacency id ++
        [edge].filter (fun edge => edge.kind ≠ some .accountFallback ∧ edge.source = id) := by
  unfold addEdge at h
  split_ifs at h with hkind
  · obtain rfl : topology = topology' := by simpa using h
    exact ⟨fun h => absurd hkind h, by simp [hkind]⟩
  · simp only [bind_eq_ok, throwOn, throwIf_eq_ok, not_le, pure_eq_ok_iff,
      requiredWorkflowNode_eq_ok] at h
    obtain ⟨source, hsrc, target, htgt, -, hstage, rfl⟩ := h
    refine ⟨fun _ => ⟨_, _, nodeKind_of_find hsrc, nodeKind_of_find htgt, hstage⟩, ?_⟩
    intro id
    by_cases hid : edge.source = id
    · subst hid
      simp [hkind]
    · simp [Function.update_of_ne (Ne.symm hid), hid]

theorem buildWorkflowTopology_ok {topology : Topology}
    (h : buildWorkflowTopology graph = .ok topology) :
    graph.Ascending ∧ ∀ id, topology.adjacency id =
      graph.edges.filter (fun edge => edge.kind ≠ some .accountFallback ∧ edge.source = id) := by
  have hloop : ∀ (edges : List WorkflowEdge) (start : Topology),
      edges.foldlM (addEdge graph.nodes) start = .ok topology →
      (∀ edge ∈ edges, edge.kind ≠ some .accountFallback → Earlier graph edge.source edge.target) ∧
        ∀ id, topology.adjacency id = start.adjacency id ++
          edges.filter (fun edge => edge.kind ≠ some .accountFallback ∧ edge.source = id) := by
    intro edges
    induction edges with
    | nil =>
      intro start hstart
      obtain rfl : start = topology := by simpa using hstart
      simp
    | cons edge edges ih =>
      intro start hstart
      rw [List.foldlM_cons, bind_eq_ok] at hstart
      obtain ⟨next, hnext, hrest⟩ := hstart
      obtain ⟨hearlier, hadjacency⟩ := addEdge_eq_ok hnext
      obtain ⟨hedges, hrest⟩ := ih next hrest
      refine ⟨by simpa using ⟨hearlier, hedges⟩, ?_⟩
      intro id
      rw [hrest id, hadjacency id, List.append_assoc, ← List.filter_append, List.singleton_append]
  obtain ⟨hedges, hadjacency⟩ := hloop graph.edges _ h
  exact ⟨hedges, by simpa using hadjacency⟩

variable {topology : Topology}

theorem mem_targetsOf (h : buildWorkflowTopology graph = .ok topology) {nodeId target : String} :
    target ∈ targetsOf topology.adjacency channelNodeId nodeId ↔
      FlowEdge graph channelNodeId nodeId target := by
  rw [targetsOf, (buildWorkflowTopology_ok h).2]
  simp only [List.mem_map, List.mem_filter, decide_eq_true_eq, FlowEdge]
  grind

theorem nodup_targetsOf (hgraph : graph.Valid) (h : buildWorkflowTopology graph = .ok topology)
    (nodeId : String) : (targetsOf topology.adjacency channelNodeId nodeId).Nodup := by
  rw [targetsOf, (buildWorkflowTopology_ok h).2, List.filter_filter]
  refine List.Nodup.map_on ?_ (hgraph.pairs.of_map.filter _)
  intro edge hedge edge' hedge' htgt
  simp only [List.mem_filter, Bool.and_eq_true, decide_eq_true_eq] at hedge hedge'
  refine List.inj_on_of_nodup_map hgraph.pairs hedge.1 hedge'.1 ?_
  rw [hedge.2.2.2, hedge'.2.2.2, htgt]

end Topology

def toSuccessor (edge : WorkflowEdge) : Successor :=
  ⟨edge.source, edge.target, edge.fallbackOn.getD LEGACY_WORKFLOW_FALLBACK_POLICY⟩

inductive Ends (successors : List Successor) : String → Prop
  | intro {nodeId : String} (next : ∀ successor, successorOf successors nodeId = some successor →
      Ends successors successor.target) : Ends successors nodeId

section Successors

variable {graph : WorkflowGraph} {channelNodeId nodeId : String} {successors : List Successor}
  {fuel : ℕ}

theorem addSuccessors_ok {edges : List WorkflowEdge} {start : List Successor}
    (h : edges.foldlM (addSuccessor channelNodeId) start = .ok successors)
    (hsources : (start.map (·.source)).Nodup) (htgts : (start.map (·.target)).Nodup) :
    successors = start ++ edges.map toSuccessor ∧ (successors.map (·.source)).Nodup ∧
      (successors.map (·.target)).Nodup := by
  induction edges generalizing start with
  | nil =>
    obtain rfl : start = successors := by simpa using h
    exact ⟨by simp, hsources, htgts⟩
  | cons edge edges ih =>
    rw [List.foldlM_cons, bind_eq_ok] at h
    obtain ⟨next, hnext, hrest⟩ := h
    simp only [addSuccessor, bind_eq_ok, throwOn, throwIf_eq_ok, pure_eq_ok_iff,
      List.any_eq_true, decide_eq_true_eq, not_exists, not_and] at hnext
    obtain ⟨-, hsrc, -, htgt, rfl⟩ := hnext
    obtain ⟨heq, hnodup⟩ := ih hrest (nodup_map_append hsources hsrc)
      (nodup_map_append htgts htgt)
    refine ⟨?_, hnodup⟩
    rw [heq, List.append_assoc, List.singleton_append, List.map_cons]
    rfl

theorem visitFallback_ok {visiting visited visited' : List String}
    (h : visitFallback channelNodeId successors fuel visiting visited nodeId = .ok visited')
    (hvisited : ∀ id ∈ visited, Ends successors id) :
    (∀ id ∈ visited', Ends successors id) ∧ nodeId ∈ visited' := by
  induction fuel generalizing visiting visited visited' nodeId with
  | zero => cases h
  | succ fuel ih =>
    unfold visitFallback at h
    split_ifs at h with hvisiting hmem
    · cases h
    · obtain rfl : visited = visited' := by simpa using h
      exact ⟨hvisited, hmem⟩
    · cases hnext : successorOf successors nodeId with
      | none =>
        obtain rfl : nodeId :: visited = visited' := by simpa [hnext] using h
        refine ⟨?_, List.mem_cons_self⟩
        have hend : Ends successors nodeId := .intro (by simp [hnext])
        simpa [hend] using hvisited
      | some successor =>
        simp only [hnext, bind_eq_ok, pure_eq_ok_iff] at h
        obtain ⟨visited₁, hvisit, rfl⟩ := h
        obtain ⟨hends, htgt⟩ := ih hvisit hvisited
        refine ⟨?_, List.mem_cons_self⟩
        have hend : Ends successors nodeId := .intro (by
          intro successor' hsucr'
          obtain rfl : successor = successor' := by simpa [hnext] using hsucr'
          exact hends _ htgt)
        simpa [hend] using hends

theorem visitFallbacks_ok {visited visited' : List String} {sources : List Successor}
    (h : sources.foldlM (fun visited successor => visitFallback channelNodeId successors fuel
      [] visited successor.source) visited = .ok visited')
    (hvisited : ∀ id ∈ visited, Ends successors id) :
    ∀ successor ∈ sources, Ends successors successor.source := by
  induction sources generalizing visited with
  | nil => simp
  | cons source sources ih =>
    rw [List.foldlM_cons, bind_eq_ok] at h
    obtain ⟨visited₁, hvisit, hrest⟩ := h
    obtain ⟨hends, hsrc⟩ := visitFallback_ok hvisit hvisited
    simpa using ⟨hends _ hsrc, ih hrest hends⟩

theorem fallbackSuccessorsForChannel_ok {ordinaryAccounts : List String}
    (h : fallbackSuccessorsForChannel fuel graph channelNodeId ordinaryAccounts = .ok successors) :
    graph.Linear channelNodeId ∧
      successors = (fallbackEdges graph channelNodeId).map toSuccessor ∧
      ∀ id, Ends successors id := by
  simp only [fallbackSuccessorsForChannel, bind_eq_ok, pure_eq_ok_iff] at h
  obtain ⟨_, hadd, visited, hvisit, -, -, rfl⟩ := h
  obtain ⟨heq, hsources, htgts⟩ := addSuccessors_ok hadd List.nodup_nil List.nodup_nil
  have hends := visitFallbacks_ok hvisit (by simp)
  rw [List.nil_append] at heq
  refine ⟨⟨?_, ?_⟩, heq, ?_⟩
  · simpa [heq, toSuccessor, Function.comp_def] using hsources
  · simpa [heq, toSuccessor, Function.comp_def] using htgts
  · intro id
    refine .intro ?_
    intro successor hsucr
    have hsrc : successor.source = id := by simpa using List.find?_some hsucr
    obtain ⟨hnext⟩ := hends successor (List.mem_of_find?_eq_some hsucr)
    exact hnext successor (hsrc ▸ hsucr)

theorem successorOf_eq_some (hlinear : graph.Linear channelNodeId) {successor : Successor} :
    successorOf ((fallbackEdges graph channelNodeId).map toSuccessor) nodeId = some successor ↔
      FallbackEdge graph channelNodeId nodeId successor.target successor.fallbackOn ∧
        successor.source = nodeId := by
  rw [fallbackEdge_iff]
  refine ⟨?_, ?_⟩
  · intro h
    have hsrc : successor.source = nodeId := by simpa using List.find?_some h
    obtain ⟨edge, hedge, rfl⟩ := List.mem_map.mp (List.mem_of_find?_eq_some h)
    exact ⟨⟨edge, hedge, hsrc, rfl, rfl⟩, hsrc⟩
  · intro h
    obtain ⟨⟨edge, hedge, hsrc, htgt, hpol⟩, hnode⟩ := h
    obtain rfl : toSuccessor edge = successor := by
      simp [toSuccessor, hsrc, htgt, hpol, ← hnode]
    cases hfind : successorOf ((fallbackEdges graph channelNodeId).map toSuccessor) nodeId with
    | none =>
      have hnone := List.find?_eq_none.mp hfind (toSuccessor edge) (List.mem_map_of_mem hedge)
      exact absurd hnode (by simpa using hnone)
    | some other =>
      have hother : other.source = nodeId := by simpa using List.find?_some hfind
      obtain ⟨edge', hedge', rfl⟩ := List.mem_map.mp (List.mem_of_find?_eq_some hfind)
      rw [List.inj_on_of_nodup_map hlinear.sources hedge' hedge (hother.trans hnode.symm)]

theorem successorChain_ok (hlinear : graph.Linear channelNodeId) {chain : List Successor}
    (h : successorChain ((fallbackEdges graph channelNodeId).map toSuccessor) fuel nodeId =
      .ok chain) :
    FallbackChain graph channelNodeId (nodeId :: chain.map (·.target))
      (chain.map (·.fallbackOn) ++ [[]]) := by
  induction fuel generalizing nodeId chain with
  | zero => cases h
  | succ fuel ih =>
    unfold successorChain at h
    cases hnext : successorOf ((fallbackEdges graph channelNodeId).map toSuccessor) nodeId with
    | none =>
      simp only [hnext, pure_eq_ok_iff] at h
      subst h
      refine .last ?_
      intro target policy hedge
      have hsome := (successorOf_eq_some hlinear).mpr
        (⟨hedge, rfl⟩ : FallbackEdge graph channelNodeId nodeId
          (Successor.mk nodeId target policy).target _ ∧ _)
      simp [hnext] at hsome
    | some successor =>
      simp only [hnext, bind_eq_ok, pure_eq_ok_iff] at h
      obtain ⟨rest, hrest, rfl⟩ := h
      exact .next ((successorOf_eq_some hlinear).mp hnext).1 (ih hrest)

end Successors

end TsxCore.Workflow
