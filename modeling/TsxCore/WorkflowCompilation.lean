import TsxCore.WorkflowCandidates
import TsxCore.WorkflowTermination

/-!
# The compiler enumerates the executable routes

Each step of the walk appends what a set of routes compiles to (`Enumerates`); the
sets of two targets of a node are disjoint, since a route tells where it went.
The keys are hashes of texts that the route or the rank can be read from.
-/

namespace TsxCore.Workflow

open Fuel Outcome

section Enumeration

variable (services : CompilerServices) (catalog : Catalog) (graph : WorkflowGraph)

/-- A step appends the paths and the groups of a set of routes, each route once. -/
def Enumerates (routes : Lineage → Prop) (state state' : CompileState) : Prop :=
  ∃ listed compiled, listed.Nodup ∧ (∀ route, route ∈ listed ↔ routes route) ∧
    List.Forall₂ (Lineage.CompilesTo services catalog graph) listed compiled ∧
    state'.paths = state.paths ++ compiled.flatMap (·.1) ∧
    state'.routeGroups = state.routeGroups ++ compiled.map (·.2)

variable {services catalog graph} {P Q : Lineage → Prop} {state state₁ state' : CompileState}

theorem enumerates_none (hpaths : state'.paths = state.paths)
    (hgrps : state'.routeGroups = state.routeGroups) (h : ∀ route, ¬ P route) :
    Enumerates services catalog graph P state state' :=
  ⟨[], [], List.nodup_nil, by simpa using h, .nil, by simpa using hpaths, by simpa using hgrps⟩

theorem Enumerates.congr (h : Enumerates services catalog graph P state state')
    (hiff : ∀ route, P route ↔ Q route) : Enumerates services catalog graph Q state state' := by
  obtain ⟨listed, compiled, hnodup, hmem, hrest⟩ := h
  exact ⟨listed, compiled, hnodup, fun route => (hmem route).trans (hiff route), hrest⟩

theorem Enumerates.append (h : Enumerates services catalog graph P state state₁)
    (h' : Enumerates services catalog graph Q state₁ state')
    (hdisjoint : ∀ route, P route → ¬ Q route) :
    Enumerates services catalog graph (fun route => P route ∨ Q route) state state' := by
  obtain ⟨listed, compiled, hnodup, hmem, hcompd, hpaths, hgrps⟩ := h
  obtain ⟨listed', compiled', hnodup', hmem', hcompd', hpaths', hgrps'⟩ := h'
  refine ⟨listed ++ listed', compiled ++ compiled', ?_, ?_, ?_, ?_, ?_⟩
  · refine List.nodup_append.mpr ⟨hnodup, hnodup', ?_⟩
    intro route hroute other hother heq
    exact hdisjoint route ((hmem route).mp hroute) ((hmem' route).mp (heq ▸ hother))
  · simp [hmem, hmem']
  · exact List.rel_append hcompd hcompd'
  · rw [hpaths', hpaths, List.flatMap_append, List.append_assoc]
  · rw [hgrps', hgrps, List.map_append, List.append_assoc]

theorem enumerates_foldlM {α : Type} {f : CompileState → α → Compiled CompileState} {as : List α}
    {P : α → Lineage → Prop} (hnodup : as.Nodup)
    (hstep : ∀ a ∈ as, ∀ s s', f s a = .ok s' → Enumerates services catalog graph (P a) s s')
    (hdisjoint : ∀ a ∈ as, ∀ b ∈ as, ∀ route, P a route → P b route → a = b)
    (h : as.foldlM f state = .ok state') :
    Enumerates services catalog graph (fun route => ∃ a ∈ as, P a route) state state' := by
  induction as generalizing state with
  | nil =>
    obtain rfl : state = state' := by simpa using h
    exact enumerates_none rfl rfl (by simp)
  | cons a as ih =>
    rw [List.foldlM_cons, bind_eq_ok] at h
    obtain ⟨state₁, hfirst, hrest⟩ := h
    rw [List.nodup_cons] at hnodup
    have hhead := hstep a List.mem_cons_self state state₁ hfirst
    have htail := ih hnodup.2 (fun b hb => hstep b (List.mem_cons_of_mem a hb))
      (fun b hb c hc => hdisjoint b (List.mem_cons_of_mem a hb) c (List.mem_cons_of_mem a hc)) hrest
    refine (hhead.append htail ?_).congr (by simp)
    intro route ha htail
    obtain ⟨b, hb, hroute⟩ := htail
    have heq := hdisjoint a List.mem_cons_self b (List.mem_cons_of_mem a hb) route ha hroute
    exact hnodup.1 (heq ▸ hb)

end Enumeration

/-- A route through a sequence that ends at an account and its output. -/
structure Lineage.Extends (graph : WorkflowGraph) (channelNodeId : String) (before : List String)
    (accountNodeId : String) (after : List String) (route : Lineage) : Prop where
  origin : route.channelNodeId = channelNodeId
  nodesBefore : route.before = before
  nodesAfter : route.after = after
  primary : route.accountNodeIds.head? = some accountNodeId
  kinds : ∀ kind ∈ REQUIRED_EXECUTION_KINDS, ∃ id ∈ route.nodeIds 0,
    nodeKind graph.nodes id = some kind
  fallback : FallbackChain graph channelNodeId route.accountNodeIds route.fallbackPolicies

structure Sequence (graph : WorkflowGraph) (channelNodeId : String) (before : List String)
    (accountNodeId : String) (after : List String) : Prop where
  columns : (before ++ accountNodeId :: after).Pairwise (Earlier graph)
  ordinary : ∀ id ∈ before ++ after, nodeKind graph.nodes id ≠ some .account
  account : nodeKind graph.nodes accountNodeId = some .account
  channel : nodeKind graph.nodes channelNodeId = some .channel
  start : channelNodeId ∈ before

section Sequences

variable {graph : WorkflowGraph} {channelNodeId accountNodeId : String} {before after : List String}
  {route : Lineage}

theorem Lineage.Extends.nodeIds_zero
    (h : route.Extends graph channelNodeId before accountNodeId after) :
    route.nodeIds 0 = before ++ accountNodeId :: after := by
  obtain ⟨rest, haccs⟩ := List.head?_eq_some_iff.mp h.primary
  rw [Lineage.nodeIds, h.nodesBefore, h.nodesAfter, haccs]
  simp

theorem Lineage.Extends.unique (hlinear : graph.Linear channelNodeId) {other : Lineage}
    (h : route.Extends graph channelNodeId before accountNodeId after)
    (h' : other.Extends graph channelNodeId before accountNodeId after) : route = other := by
  obtain ⟨haccs, hpolicies⟩ :=
    h.fallback.unique hlinear h'.fallback (h.primary.trans h'.primary.symm)
  have horigin : route.channelNodeId = other.channelNodeId := h.origin.trans h'.origin.symm
  have hbefore : route.before = other.before := h.nodesBefore.trans h'.nodesBefore.symm
  have hafter : route.after = other.after := h.nodesAfter.trans h'.nodesAfter.symm
  cases route
  cases other
  simp_all

theorem Sequence.kinds (h : Sequence graph channelNodeId before accountNodeId after) :
    ((before ++ accountNodeId :: after).map (nodeKind graph.nodes)).Nodup := nodup_kinds h.columns

theorem Sequence.shaped (hgraph : graph.Valid)
    (h : Sequence graph channelNodeId before accountNodeId after)
    (hroute : route.Extends graph channelNodeId before accountNodeId after) :
    route.Shaped graph := by
  refine ⟨?_, ?_, ?_, hroute.fallback.length⟩
  · rw [hroute.nodesBefore, hroute.nodesAfter]
    have hkinds := h.kinds
    rw [List.map_append, List.map_cons, List.nodup_middle, ← List.map_append] at hkinds
    exact (List.nodup_cons.mp hkinds).2
  · rw [hroute.nodesBefore, hroute.nodesAfter]
    exact h.ordinary
  · refine hroute.fallback.accounts hgraph ?_
    intro id hid
    obtain rfl : accountNodeId = id := by simpa [hroute.primary] using hid
    exact h.account

end Sequences

structure Reads (services : CompilerServices) (catalog : Catalog) (graph : WorkflowGraph)
    (context : WorkflowCompileContext) (channelNodeId : String) : Prop where
  valid : graph.Valid
  nodes : context.nodes = graph.nodes
  resources : loadWorkflowResources services catalog graph = .ok context.resources
  topology : ∃ topology, buildWorkflowTopology graph = .ok topology ∧
    context.adjacency = topology.adjacency
  linear : graph.Linear channelNodeId
  fallback : context.fallbackByChannel.lookup channelNodeId =
    some ((fallbackEdges graph channelNodeId).map toSuccessor)

section Terminal

variable {services : CompilerServices} {catalog : Catalog} {graph : WorkflowGraph}
  {context : WorkflowCompileContext} {channelNodeId accountNodeId : String}
  {before after : List String} {state state' : CompileState} {configs : CompiledResources}
  {strategyVersionId : String}

theorem missingKinds_eq_nil {ids : List String} {pathNodes : List WorkflowNode}
    (h : ids.mapM (requiredWorkflowNode graph.nodes) = .ok pathNodes) :
    missingKinds pathNodes = [] ↔
      ∀ kind ∈ REQUIRED_EXECUTION_KINDS, ∃ id ∈ ids, nodeKind graph.nodes id = some kind := by
  have hnodes : ∀ kind, (∃ node ∈ pathNodes, node.kind = kind) ↔
      ∃ id ∈ ids, nodeKind graph.nodes id = some kind := by
    intro kind
    rw [← filterMap_of_mapM h]
    refine ⟨?_, ?_⟩
    · intro hnode
      obtain ⟨node, hnode, hkind⟩ := hnode
      obtain ⟨id, hid, hfind⟩ := List.mem_filterMap.mp hnode
      exact ⟨id, hid, by rw [nodeKind_of_find hfind, hkind]⟩
    · intro hid
      obtain ⟨id, hid, hkind⟩ := hid
      obtain ⟨node, hfind, hnode⟩ := Option.map_eq_some_iff.mp hkind
      exact ⟨node, List.mem_filterMap.mpr ⟨id, hid, hfind⟩, hnode⟩
  rw [missingKinds, List.filter_eq_nil_iff]
  refine forall₂_congr ?_
  intro kind _
  rw [← hnodes kind]
  simp

theorem configurationOf_mem {ids : List String} {configurations : List ResourceConfiguration}
    (hkinds : (ids.map (nodeKind graph.nodes)).Nodup)
    (h : List.Forall₂ (ConfigurationOf catalog graph) ids configurations)
    {configuration : ResourceConfiguration} (hmem : configuration ∈ configurations) {id : String}
    (hid : id ∈ ids) (hkind : nodeKind graph.nodes id = some configuration.kind) :
    ConfigurationOf catalog graph id configuration := by
  obtain ⟨other, hother, hof⟩ := exists_left_of_forall₂ h hmem
  obtain rfl := List.inj_on_of_nodup_map hkinds hother hid (hof.kind.trans hkind.symm)
  exact hof

theorem channelId_mem {channelId : String}
    (h : CompiledResources.channelId configs = some channelId) : .channel channelId ∈ configs := by
  obtain ⟨config, hconfig, heq⟩ := List.exists_of_findSome?_eq_some h
  split at heq
  · obtain rfl := Option.some.inj heq
    exact hconfig
  · cases heq

theorem strategyVersionId_mem
    (h : CompiledResources.strategyVersionId configs = some strategyVersionId) :
    .strategy strategyVersionId ∈ configs := by
  obtain ⟨config, hconfig, heq⟩ := List.exists_of_findSome?_eq_some h
  split at heq
  · obtain rfl := Option.some.inj heq
    exact hconfig
  · cases heq

theorem compileCandidates_ok (hreads : Reads services catalog graph context channelNodeId)
    {route : Lineage} (hshape : route.Shaped graph) {channelId : String}
    (hchan : ConfigurationOf catalog graph route.channelNodeId (.channel channelId))
    (hstrategy : ∃ id ∈ route.before ++ route.after,
      ConfigurationOf catalog graph id (.strategy strategyVersionId))
    (hprim : route.accountNodeIds ≠ [])
    {compiled : List (CompiledDraftPath × WorkflowRouteCandidate)}
    (h : (List.range route.accountNodeIds.length).mapM
      (compileCandidate services catalog context route channelId strategyVersionId
        (route.groupKey services)) = .ok compiled) :
    route.CompilesTo services catalog graph (compiled.map (·.1),
      { key := route.groupKey services
        channelId
        channelNodeId := route.channelNodeId
        primaryPathId := (compiled.map (fun item => item.2.pathId)).headD ""
        candidates := compiled.map (·.2) }) := by
  rw [mapM_eq_ok] at h
  have hlen : compiled.length = route.accountNodeIds.length := by
    rw [← h.length_eq, List.length_range]
  have hround : ∀ rank (hrank : rank < route.accountNodeIds.length)
      (hcompd : rank < compiled.length),
      route.PathOf services catalog graph rank compiled[rank].1 ∧
        compiled[rank].1.channelId = channelId ∧
        compiled[rank].2 = Lineage.candidateOf route.accountNodeIds[rank] compiled[rank].1 := by
    intro rank hrank hcompd
    have hcand := h.get (by simpa using hrank) hcompd
    simp only [List.get_eq_getElem, List.getElem_range] at hcand
    exact compileCandidate_ok hreads.resources hreads.nodes hshape hchan hstrategy hrank hcand
  refine ⟨?_, rfl, rfl, ?_, ?_, ?_⟩
  · rw [List.forall₂_iff_get]
    refine ⟨by simp [hlen], ?_⟩
    intro rank hrange hpaths
    have hrank : rank < route.accountNodeIds.length := by simpa using hrange
    have hround := (hround rank hrank (by simpa using hpaths)).1
    simpa using hround
  · intro path hpath
    obtain ⟨item, hitem, rfl⟩ := List.mem_map.mp hpath
    obtain ⟨rank, hrank, rfl⟩ := List.getElem_of_mem hitem
    exact (hround rank (hlen ▸ hrank) hrank).2.1
  · have hpos : 0 < route.accountNodeIds.length := List.length_pos_iff.mpr hprim
    have hfirst := (hround 0 hpos (hlen ▸ hpos)).2.2
    cases compiled with
    | nil => simp only [List.length_nil] at hlen; omega
    | cons first rest =>
      have hid : first.2.pathId = first.1.id := by
        rw [List.getElem_cons_zero] at hfirst
        rw [hfirst]
        rfl
      simp [hid]
  · refine List.ext_getElem (by simp [hlen]) ?_
    intro rank hleft hright
    have hrank : rank < compiled.length := by simpa using hleft
    simpa using (hround rank (hlen ▸ hrank) hrank).2.2

theorem compileTerminalLineage_ok {fuel : ℕ}
    (hreads : Reads services catalog graph context channelNodeId)
    (hseq : Sequence graph channelNodeId before accountNodeId after)
    (h : compileTerminalLineage services catalog fuel context accountNodeId channelNodeId state
      (before ++ accountNodeId :: after) = .ok state') :
    Enumerates services catalog graph
      (Lineage.Extends graph channelNodeId before accountNodeId after) state state' := by
  have hnew : accountNodeId ∉ before :=
    fun hmem => hseq.ordinary _ (List.mem_append_left _ hmem) hseq.account
  have hindex : (before ++ accountNodeId :: after).idxOf accountNodeId = before.length := by
    rw [List.idxOf_append_of_notMem hnew, List.idxOf_cons_self, Nat.add_zero]
  have hdrop : (before ++ accountNodeId :: after).drop (before.length + 1) = after := by
    rw [List.drop_append, List.drop_eq_nil_of_le (Nat.le_succ _)]
    simp
  simp only [compileTerminalLineage, hreads.fallback, Option.getD_some, hindex, hdrop,
    List.take_left', hreads.nodes, bind_eq_ok] at h
  obtain ⟨chain, hchain, primaryNodes, hprim, h⟩ := h
  have hfb := successorChain_ok hreads.linear hchain
  let route : Lineage :=
    { channelNodeId
      before
      after
      accountNodeIds := accountNodeId :: chain.map (·.target)
      fallbackPolicies := chain.map (·.fallbackOn) ++ [[]] }
  have hids : route.nodeIds 0 = before ++ accountNodeId :: after := by simp [route, Lineage.nodeIds]
  have hkinds := missingKinds_eq_nil hprim
  by_cases hmiss : missingKinds primaryNodes = []
  · have hext : route.Extends graph channelNodeId before accountNodeId after :=
      ⟨rfl, rfl, rfl, rfl, hids ▸ hkinds.mp hmiss, hfb⟩
    have hshape := hseq.shaped hreads.valid hext
    rw [if_neg (not_not.mpr hmiss)] at h
    simp only [bind_eq_ok, required_eq_ok, pure_eq_ok_iff] at h
    obtain ⟨configs, hconfigs, channelId, hchannelId, strategyVersionId, hstrategyId, compiled,
      hcompd, rfl⟩ := h
    obtain ⟨configurations, hconfigurations, rfl⟩ :=
      configurationsOf_ok hreads.resources hprim hconfigs
    obtain ⟨kept, hkept, hentries⟩ := configurations_route hshape
      (rfl : route.accountNodeIds[0]? = some accountNodeId) (hids ▸ hconfigurations)
    rw [hentries] at hchannelId hstrategyId
    have hchan : ConfigurationOf catalog graph channelNodeId (.channel channelId) :=
      configurationOf_mem hseq.kinds hkept (channelId_mem hchannelId)
        (List.mem_append_left _ hseq.start) hseq.channel
    have hstrategy : ∃ id ∈ before ++ after,
        ConfigurationOf catalog graph id (.strategy strategyVersionId) := by
      obtain ⟨id, hid, hof⟩ := exists_left_of_forall₂ hkept (strategyVersionId_mem hstrategyId)
      refine ⟨id, ?_, hof⟩
      rcases List.mem_append.mp hid with hbefore | hafter
      · exact List.mem_append_left _ hbefore
      · rcases List.mem_cons.mp hafter with rfl | hafter
        · have hacc := hseq.account
          simp [hof.kind, ResourceConfiguration.kind] at hacc
        · exact List.mem_append_right _ hafter
    have hroute := compileCandidates_ok hreads hshape hchan hstrategy (by simp [route])
      (by simpa only [Lineage.groupKey, hids] using hcompd)
    refine ⟨[route], [_], List.nodup_singleton _, ?_, .cons hroute .nil, ?_, ?_⟩
    · intro other
      rw [List.mem_singleton]
      exact ⟨fun heq => heq ▸ hext, fun hother => hother.unique hreads.linear hext⟩
    · simp
    · simp [Lineage.groupKey, hids, route]
  · rw [if_pos hmiss] at h
    obtain rfl := pure_eq_ok_iff.mp h
    refine enumerates_none rfl rfl ?_
    intro other hother
    exact hmiss (hkinds.mpr (hother.nodeIds_zero ▸ hother.kinds))

end Terminal

def Lineage.Passes (graph : WorkflowGraph) (channelNodeId : String) (lineage : List String)
    (nodeId : String) (route : Lineage) : Prop :=
  ∃ before accountNodeId after, Leads graph channelNodeId nodeId before accountNodeId ∧
    OutputEnd graph channelNodeId accountNodeId after ∧
    route.Extends graph channelNodeId (lineage ++ before) accountNodeId after

section Walk

variable {services : CompilerServices} {catalog : Catalog} {graph : WorkflowGraph}
  {context : WorkflowCompileContext} {channelNodeId nodeId : String} {lineage : List String}
  {state state' : CompileState} {route : Lineage}

theorem Lineage.Passes.unique {nodeId' : String}
    (h : route.Passes graph channelNodeId lineage nodeId)
    (h' : route.Passes graph channelNodeId lineage nodeId') : nodeId = nodeId' := by
  obtain ⟨before, accountNodeId, after, hleads, -, hext⟩ := h
  obtain ⟨before', accountNodeId', after', hleads', -, hext'⟩ := h'
  obtain rfl : accountNodeId = accountNodeId' := by
    simpa [hext.primary] using hext'.primary
  obtain rfl : before = before' := by
    simpa [hext.nodesBefore] using hext'.nodesBefore
  simpa [hleads.head] using hleads'.head

theorem passes_of_account (hacc : nodeKind graph.nodes nodeId = some .account) :
    route.Passes graph channelNodeId lineage nodeId ↔
      ∃ after, OutputEnd graph channelNodeId nodeId after ∧
        route.Extends graph channelNodeId lineage nodeId after := by
  refine ⟨?_, ?_⟩
  · intro h
    obtain ⟨before, accountNodeId, after, hleads, hend, hext⟩ := h
    cases hleads with
    | arrive _ => exact ⟨after, hend, by simpa using hext⟩
    | follow ordinary _ _ => exact absurd hacc ordinary
  · intro h
    obtain ⟨after, hend, hext⟩ := h
    exact ⟨[], nodeId, after, .arrive hacc, hend, by simpa using hext⟩

theorem passes_of_ordinary (hnode : nodeKind graph.nodes nodeId ≠ some .account) :
    route.Passes graph channelNodeId lineage nodeId ↔
      ∃ target, FlowEdge graph channelNodeId nodeId target ∧
        route.Passes graph channelNodeId (lineage ++ [nodeId]) target := by
  refine ⟨?_, ?_⟩
  · intro h
    obtain ⟨before, accountNodeId, after, hleads, hend, hext⟩ := h
    cases hleads with
    | arrive account => exact absurd account hnode
    | follow _ edge rest =>
      exact ⟨_, edge, _, accountNodeId, after, rest, hend, by simpa using hext⟩
  · intro h
    obtain ⟨target, hedge, before, accountNodeId, after, hleads, hend, hext⟩ := h
    exact ⟨nodeId :: before, accountNodeId, after, .follow hnode hedge hleads, hend,
      by simpa using hext⟩

theorem terminalLineages_ok (hreads : Reads services catalog graph context channelNodeId)
    (houtputs : ¬ 1 < (outputTargetsOf context channelNodeId nodeId).length)
    (nextLineage : List String) :
    ∃ ends : List (List String), ends.Nodup ∧
      (∀ after, after ∈ ends ↔ OutputEnd graph channelNodeId nodeId after) ∧
      terminalLineages (outputTargetsOf context channelNodeId nodeId) nextLineage =
        ends.map (nextLineage ++ ·) := by
  obtain ⟨topology, htop, hadjacency⟩ := hreads.topology
  have hmem : ∀ target, target ∈ outputTargetsOf context channelNodeId nodeId ↔
      FlowEdge graph channelNodeId nodeId target ∧ nodeKind graph.nodes target = some .output := by
    intro target
    rw [outputTargetsOf, List.mem_filter, hadjacency, mem_targetsOf htop, hreads.nodes,
      decide_eq_true_eq]
  cases hlist : outputTargetsOf context channelNodeId nodeId with
  | nil =>
    refine ⟨[[]], List.nodup_singleton _, ?_, by simp [terminalLineages]⟩
    intro after
    have hnone : ∀ target, FlowEdge graph channelNodeId nodeId target →
        nodeKind graph.nodes target ≠ some .output := by
      intro target hedge hkind
      simpa [hlist] using (hmem target).mpr ⟨hedge, hkind⟩
    rw [List.mem_singleton]
    refine ⟨fun hafter => .inl ⟨hafter, hnone⟩, ?_⟩
    rintro (hend | hend)
    · exact hend.1
    · obtain ⟨target, -, hedge, hkind⟩ := hend
      exact absurd hkind (hnone target hedge)
  | cons target rest =>
    obtain rfl : rest = [] := by
      rw [hlist, List.length_cons] at houtputs
      exact List.length_eq_zero_iff.mp (by omega)
    refine ⟨[[target]], List.nodup_singleton _, ?_, by simp [terminalLineages]⟩
    intro after
    have honly : ∀ other, FlowEdge graph channelNodeId nodeId other ∧
        nodeKind graph.nodes other = some .output ↔ other = target := by
      intro other
      rw [← hmem other, hlist, List.mem_singleton]
    have htgt := (honly target).mpr rfl
    rw [List.mem_singleton]
    refine ⟨fun hafter => .inr ⟨target, hafter, htgt⟩, ?_⟩
    rintro (hend | hend)
    · exact absurd htgt.2 (hend.2 target htgt.1)
    · obtain ⟨other, rfl, hother⟩ := hend
      rw [(honly other).mp hother]

theorem compileTerminalLineages_ok {fuel : ℕ}
    (hreads : Reads services catalog graph context channelNodeId)
    (hchan : nodeKind graph.nodes channelNodeId = some .channel)
    (hordinary : ∀ id ∈ lineage, nodeKind graph.nodes id ≠ some .account)
    (hcols : (lineage ++ [nodeId]).Pairwise (Earlier graph))
    (hstart : channelNodeId ∈ lineage ++ [nodeId])
    (hacc : nodeKind graph.nodes nodeId = some .account)
    (houtputs : ¬ 1 < (outputTargetsOf context channelNodeId nodeId).length)
    (h : (terminalLineages (outputTargetsOf context channelNodeId nodeId)
      (lineage ++ [nodeId])).foldlM (compileTerminalLineage services catalog fuel context nodeId
        channelNodeId) state = .ok state') :
    Enumerates services catalog graph (Lineage.Passes graph channelNodeId lineage nodeId)
      state state' := by
  obtain ⟨topology, htop, -⟩ := hreads.topology
  have hasc := (buildWorkflowTopology_ok htop).1
  obtain ⟨ends, hnodup, hends, hlineages⟩ :=
    terminalLineages_ok hreads houtputs (lineage ++ [nodeId])
  have hbefore : channelNodeId ∈ lineage := by
    rcases List.mem_append.mp hstart with hmem | hmem
    · exact hmem
    · obtain rfl := List.mem_singleton.mp hmem
      simp [hchan] at hacc
  have hstep : ∀ after ∈ ends, ∀ state state', compileTerminalLineage services catalog fuel context
      nodeId channelNodeId state (lineage ++ [nodeId] ++ after) = .ok state' →
      Enumerates services catalog graph (Lineage.Extends graph channelNodeId lineage nodeId after)
        state state' := by
    intro after hafter state state' hcompile
    have hend := (hends after).mp hafter
    rw [List.append_assoc] at hcompile
    refine compileTerminalLineage_ok hreads
      ⟨hend.columns hasc hcols, ?_, hacc, hchan, hbefore⟩ hcompile
    intro id hid
    rcases List.mem_append.mp hid with hid | hid
    · exact hordinary id hid
    · exact hend.ordinary id hid
  rw [hlineages, List.foldlM_map] at h
  refine (enumerates_foldlM hnodup hstep ?_ h).congr ?_
  · intro after _ after' _ route hroute hroute'
    exact hroute.nodesAfter.symm.trans hroute'.nodesAfter
  · intro route
    simp only [passes_of_account hacc, hends]

theorem walkWorkflowPaths_ok {fuel : ℕ}
    (hreads : Reads services catalog graph context channelNodeId)
    (hchan : nodeKind graph.nodes channelNodeId = some .channel)
    (hordinary : ∀ id ∈ lineage, nodeKind graph.nodes id ≠ some .account)
    (hcols : (lineage ++ [nodeId]).Pairwise (Earlier graph))
    (hstart : channelNodeId ∈ lineage ++ [nodeId])
    (h : walkWorkflowPaths services catalog context channelNodeId fuel state nodeId lineage =
      .ok state') :
    Enumerates services catalog graph (Lineage.Passes graph channelNodeId lineage nodeId)
      state state' := by
  obtain ⟨topology, htop, hadjacency⟩ := hreads.topology
  have hasc := (buildWorkflowTopology_ok htop).1
  induction fuel generalizing state state' nodeId lineage with
  | zero => cases h
  | succ fuel ih =>
    simp only [walkWorkflowPaths, hreads.nodes, bind_eq_ok, requiredWorkflowNode_eq_ok] at h
    obtain ⟨node, hnode, h⟩ := h
    by_cases hkind : node.kind = .account
    · simp only [if_pos hkind, bind_eq_ok, throwOn, throwIf_eq_ok] at h
      obtain ⟨-, houtputs, h⟩ := h
      exact compileTerminalLineages_ok hreads hchan hordinary hcols hstart
        (by rw [nodeKind_of_find hnode, hkind]) houtputs h
    · have hnode : nodeKind graph.nodes nodeId ≠ some .account := by
        simpa [nodeKind_of_find hnode] using hkind
      have hstep : ∀ target ∈ targetsOf context.adjacency channelNodeId nodeId, ∀ state state',
          walkWorkflowPaths services catalog context channelNodeId fuel state target
            (lineage ++ [nodeId]) = .ok state' →
          Enumerates services catalog graph
            (Lineage.Passes graph channelNodeId (lineage ++ [nodeId]) target) state state' := by
        intro target htgt state state' hwalk
        rw [hadjacency, mem_targetsOf htop] at htgt
        refine ih ?_ (columns_append hcols (htgt.earlier hasc))
          (List.mem_append_left _ hstart) hwalk
        intro id hid
        rcases List.mem_append.mp hid with hid | hid
        · exact hordinary id hid
        · exact List.mem_singleton.mp hid ▸ hnode
      have hnodup : (targetsOf context.adjacency channelNodeId nodeId).Nodup :=
        hadjacency ▸ nodup_targetsOf hreads.valid htop nodeId
      rw [if_neg hkind] at h
      have hwalk := enumerates_foldlM hnodup hstep
        (fun _ _ _ _ _ hroute hroute' => hroute.unique hroute') h
      have hiff : ∀ route : Lineage, (∃ target ∈ targetsOf context.adjacency channelNodeId nodeId,
          route.Passes graph channelNodeId (lineage ++ [nodeId]) target) ↔
          route.Passes graph channelNodeId lineage nodeId := by
        intro route
        simp only [hadjacency, mem_targetsOf htop, passes_of_ordinary hnode]
      obtain ⟨listed, compiled, hlisted, hmem, hcompd, hpaths, hgrps⟩ := hwalk.congr hiff
      -- A warning changes neither the paths nor the groups.
      refine ⟨listed, compiled, hlisted, hmem, hcompd, hpaths.trans ?_, hgrps.trans ?_⟩
      · split_ifs <;> rfl
      · split_ifs <;> rfl

end Walk

end TsxCore.Workflow
