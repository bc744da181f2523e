import TsxCore.WorkflowRoutes

/-!
# What a route compiles to

`PathOf` says which path is the candidate of a rank and `CompilesTo` which paths
and which route group belong to a route. The nodes of a candidate hold several
accounts, of which the last stays in the configuration; the other nodes have
pairwise different kinds, so that nothing else is replaced.
-/

namespace TsxCore.Workflow

open Outcome TradingTypes

section Specification

variable (services : CompilerServices) (catalog : Catalog) (graph : WorkflowGraph)

/-- The configuration of the published resource of a node. -/
def ConfigurationOf (nodeId : String) (configuration : ResourceConfiguration) : Prop :=
  ∃ node resource, nodeById graph.nodes nodeId = some node ∧
    catalog.resources.find? (·.id = node.resourceVersionId) = some resource ∧
    resource.status = .published ∧ configuration = resource.configuration ∧
    configuration.kind = node.kind

namespace Lineage

variable (route : Lineage)

def version (kind : WorkflowResourceKind) : Option String :=
  (((route.before ++ route.after).filterMap (nodeById graph.nodes)).find? (·.kind = kind)).map
    (·.resourceVersionId)

def groupKey : String :=
  services.sha256 (normalizedJson (routeGroupDefinition route.channelNodeId (route.nodeIds 0)
    route.accountNodeIds route.fallbackPolicies))

/-- The resources of the sequence with the account of a rank, the sizing normalised. -/
structure ResourcesOf (rank : ℕ) (path : CompiledDraftPath) (accountNodeId : String)
    (configurations : List ResourceConfiguration) : Prop where
  node : route.accountNodeIds[rank]? = some accountNodeId
  nodes : List.Forall₂ (ConfigurationOf catalog graph)
    (route.before ++ accountNodeId :: route.after) configurations
  account : .account path.accountId ∈ configurations
  strategy : .strategy path.strategyVersionId ∈ configurations
  resources : ∃ base sizing, .sizing base ∈ configurations ∧
    services.validateSizingConfiguration base = .ok sizing ∧
    path.resources = configurations.map (withSizing sizing)

structure PathOf (rank : ℕ) (path : CompiledDraftPath) : Prop where
  id : path.id = services.randomUUID (route.groupKey services) rank
  nodeIds : path.nodeIds = route.nodeIds rank
  fallbackRank : path.fallbackRank = rank
  fallbackOn : route.fallbackPolicies[rank]? = some path.fallbackOn
  routeGroupKey : path.routeGroupKey = route.groupKey services
  pathKey : path.pathKey = services.sha256
    (normalizedJson (pathKeyDefinition path.routeGroupKey rank
    path.nodeIds path.channelId path.accountId path.strategyVersionId))
  channel : ConfigurationOf catalog graph route.channelNodeId (.channel path.channelId)
  resources : ∃ accountNodeId configurations,
    route.ResourcesOf services catalog graph rank path accountNodeId configurations
  parser : path.parserResourceVersionId = route.version graph .parser
  schema : path.schemaResourceVersionId = route.version graph .schema
  contract : path.contractResourceVersionId = route.version graph .contract
  sizing : path.sizingResourceVersionId = route.version graph .sizing
  adaptiveRisk : path.adaptiveRiskResourceVersionId = route.version graph .adaptiveRisk
  enabled : ∃ row, catalog.account path.accountId = some row ∧
    path.enabled = (row.enabled && row.status = .ready)

def candidateOf (accountNodeId : String) (path : CompiledDraftPath) : WorkflowRouteCandidate :=
  { pathId := path.id
    accountId := path.accountId
    accountNodeId
    rank := path.fallbackRank
    enabled := path.enabled
    fallbackOn := path.fallbackOn }

/-- One path for each rank, and the group that lists them in order. -/
structure CompilesTo (compiled : List CompiledDraftPath × WorkflowRouteGroup) : Prop where
  paths : List.Forall₂ (route.PathOf services catalog graph)
    (List.range route.accountNodeIds.length) compiled.1
  key : compiled.2.key = route.groupKey services
  channelNodeId : compiled.2.channelNodeId = route.channelNodeId
  channelId : ∀ path ∈ compiled.1, path.channelId = compiled.2.channelId
  primary : compiled.1.head?.map (·.id) = some compiled.2.primaryPathId
  candidates : compiled.2.candidates =
    List.zipWith candidateOf route.accountNodeIds compiled.1

end Lineage

end Specification

section Resources

variable {services : CompilerServices} {catalog : Catalog} {graph : WorkflowGraph}
  {placed placed' : List (WorkflowNode × WorkflowResourceVersion)}

def Placed (catalog : Catalog) (item : WorkflowNode × WorkflowResourceVersion) : Prop :=
  catalog.resources.find? (·.id = item.1.resourceVersionId) = some item.2 ∧
    item.2.status = .published ∧ item.2.configuration.kind = item.1.kind

theorem placeNode_ok {node : WorkflowNode}
    (h : placeNode services catalog.resources placed node = .ok placed') :
    ∃ resource, placed' = placed ++ [(node, resource)] ∧ Placed catalog (node, resource) := by
  unfold placeNode at h
  split at h
  · cases h
  · rename_i resource hresource
    simp only [bind_eq_ok, throwOn, throwIf_eq_ok, not_not] at h
    obtain ⟨-, hstatus, -, hkind, h⟩ := h
    split at h
    · cases h
    · split at h
      · cases h
      · obtain rfl := pure_eq_ok_iff.mp h
        exact ⟨resource, rfl, hresource, hstatus, hkind⟩

theorem placeNodes_ok {nodes : List WorkflowNode}
    (h : nodes.foldlM (placeNode services catalog.resources) placed = .ok placed')
    (hplaced : ∀ item ∈ placed, Placed catalog item) :
    (∀ item ∈ placed', Placed catalog item) ∧
      placed'.map (·.1) = placed.map (·.1) ++ nodes := by
  induction nodes generalizing placed with
  | nil =>
    obtain rfl : placed = placed' := by simpa using h
    exact ⟨hplaced, by simp⟩
  | cons node nodes ih =>
    rw [List.foldlM_cons, bind_eq_ok] at h
    obtain ⟨next, hnext, hrest⟩ := h
    obtain ⟨resource, rfl, hnode⟩ := placeNode_ok hnext
    obtain ⟨hall, hnodes⟩ := ih hrest (by
      intro item hitem
      rcases List.mem_append.mp hitem with hold | hnew
      · exact hplaced item hold
      · exact List.mem_singleton.mp hnew ▸ hnode)
    exact ⟨hall, by simpa using hnodes⟩

theorem configurationOf_resource {resources : List WorkflowResourceVersion}
    (h : loadWorkflowResources services catalog graph = .ok resources) {nodeId : String}
    {node : WorkflowNode} (hnode : nodeById graph.nodes nodeId = some node)
    {resource : WorkflowResourceVersion}
    (hresource : requiredWorkflowResource resources node.resourceVersionId = .ok resource) :
    ConfigurationOf catalog graph nodeId resource.configuration := by
  simp only [loadWorkflowResources, bind_eq_ok, pure_eq_ok_iff] at h
  obtain ⟨placed, hplaced, rfl⟩ := h
  obtain ⟨hall, hnodes⟩ := placeNodes_ok hplaced (by simp)
  obtain ⟨item, hitem, rfl⟩ : ∃ item ∈ placed, item.1 = node := by
    have hmem : node ∈ placed.map (·.1) := by
      simpa [hnodes] using (nodeById_mem hnode).1
    exact List.mem_map.mp hmem
  obtain ⟨hfind, hstatus, hkind⟩ := hall item hitem
  have hsame : resource = item.2 := by
    unfold requiredWorkflowResource at hresource
    split at hresource
    · rename_i found hfound
      obtain rfl := pure_eq_ok_iff.mp hresource
      have hid : found.id = item.1.resourceVersionId := by simpa using List.find?_some hfound
      obtain ⟨other, hother, rfl⟩ := List.mem_map.mp (List.mem_of_find?_eq_some hfound)
      have hotherfind := (hall other hother).1
      have hotherid : other.2.id = other.1.resourceVersionId := by
        simpa using List.find?_some hotherfind
      rw [← hotherid, hid, hfind] at hotherfind
      exact (Option.some.inj hotherfind).symm
    · cases hresource
  exact ⟨item.1, item.2, hnode, hfind, hstatus, by rw [hsame], by rw [hsame, hkind]⟩

variable {nodeId : String} {configuration configuration' : ResourceConfiguration}

theorem ConfigurationOf.unique (h : ConfigurationOf catalog graph nodeId configuration)
    (h' : ConfigurationOf catalog graph nodeId configuration') :
    configuration = configuration' := by
  obtain ⟨node, resource, hnode, hresource, -, rfl, -⟩ := h
  obtain ⟨node', resource', hnode', hresource', -, rfl, -⟩ := h'
  obtain rfl : node = node' := by simpa [hnode] using hnode'
  obtain rfl : resource = resource' := by simpa [hresource] using hresource'
  rfl

theorem ConfigurationOf.kind (h : ConfigurationOf catalog graph nodeId configuration) :
    nodeKind graph.nodes nodeId = some configuration.kind := by
  obtain ⟨node, resource, hnode, -, -, -, hkind⟩ := h
  rw [nodeKind_of_find hnode, hkind]

theorem configurationsOf_ok {context : WorkflowCompileContext} {ids : List String}
    {pathNodes : List WorkflowNode} {configs : CompiledResources}
    (hload : loadWorkflowResources services catalog graph = .ok context.resources)
    (hnodes : ids.mapM (requiredWorkflowNode graph.nodes) = .ok pathNodes)
    (h : configurationsOf context pathNodes = .ok configs) :
    ∃ configurations, List.Forall₂ (ConfigurationOf catalog graph) ids configurations ∧
      configs = fromEntries configurations := by
  simp only [configurationsOf, bind_eq_ok, pure_eq_ok_iff] at h
  obtain ⟨versions, hversions, rfl⟩ := h
  refine ⟨versions.map (·.configuration), ?_, rfl⟩
  rw [mapM_eq_ok] at hnodes hversions
  rw [List.forall₂_map_right_iff]
  induction hnodes generalizing versions with
  | nil =>
    cases hversions
    exact .nil
  | cons hnode _ ih =>
    cases hversions with
    | cons hver hrest =>
      refine .cons ?_ (ih _ hrest)
      exact configurationOf_resource hload (requiredWorkflowNode_eq_ok.mp hnode) hver

end Resources

section Entries

variable {before after accounts configs : List ResourceConfiguration}
  {configuration last : ResourceConfiguration}

theorem any_fromEntries (kind : WorkflowResourceKind) :
    (fromEntries configs).any (·.kind = kind) = configs.any (·.kind = kind) := by
  induction configs with
  | nil => rfl
  | cons first rest ih =>
    rw [fromEntries, List.foldr_cons]
    change List.any (if (fromEntries rest).any (·.kind = first.kind) then fromEntries rest
      else first :: fromEntries rest) _ = _
    split_ifs with hmem
    · rw [ih, List.any_cons]
      by_cases hkind : first.kind = kind
      · subst hkind
        rw [← ih, hmem, Bool.or_true]
      · simp [hkind]
    · rw [List.any_cons, List.any_cons, ih]

theorem fromEntries_cons : fromEntries (configuration :: configs) =
    if configs.any (·.kind = configuration.kind) then fromEntries configs
    else configuration :: fromEntries configs := by
  rw [← any_fromEntries]
  rfl

theorem fromEntries_of_nodup (h : (configs.map (·.kind)).Nodup) :
    fromEntries configs = configs := by
  induction configs with
  | nil => rfl
  | cons first rest ih =>
    rw [List.map_cons, List.nodup_cons] at h
    rw [fromEntries_cons, ih h.2, if_neg]
    simpa [List.any_eq_true] using h.1

theorem fromEntries_replace (hkind : ∀ other ∈ accounts, other.kind = last.kind)
    (hnodup : ((before ++ last :: after).map (·.kind)).Nodup) :
    fromEntries (before ++ (accounts ++ last :: after)) = before ++ last :: after := by
  induction before with
  | nil =>
    rw [List.nil_append] at hnodup ⊢
    induction accounts with
    | nil => exact fromEntries_of_nodup hnodup
    | cons first rest ih =>
      rw [List.nil_append] at ih
      rw [List.cons_append, fromEntries_cons, if_pos]
      · exact ih (fun other hother => hkind other (List.mem_cons_of_mem first hother))
      · simp [hkind first List.mem_cons_self]
  | cons first rest ih =>
    rw [List.cons_append, List.map_cons, List.nodup_cons] at hnodup
    rw [List.cons_append, fromEntries_cons, if_neg, ih hnodup.2, List.cons_append]
    have hfirst : ∀ other ∈ rest ++ last :: after, other.kind ≠ first.kind := by
      intro other hother heq
      exact hnodup.1 (heq ▸ List.mem_map_of_mem hother)
    simp only [List.any_eq_true, decide_eq_true_eq, not_exists, not_and]
    intro other hother
    rcases List.mem_append.mp hother with hrest | hother
    · exact hfirst other (List.mem_append_left _ hrest)
    · rcases List.mem_append.mp hother with hacc | hother
      · rw [hkind other hacc]
        exact hfirst last (by simp)
      · exact hfirst other (List.mem_append_right _ hother)

end Entries

section Lists

variable {α : Type}

theorem forall₂_append_left {β : Type} {R : α → β → Prop} {as as' : List α} {bs : List β}
    (h : List.Forall₂ R (as ++ as') bs) :
    ∃ left right, List.Forall₂ R as left ∧ List.Forall₂ R as' right ∧ bs = left ++ right := by
  induction as generalizing bs with
  | nil => exact ⟨[], bs, .nil, h, rfl⟩
  | cons a as ih =>
    cases h with
    | cons hab hrest =>
      obtain ⟨left, right, hleft, hright, rfl⟩ := ih hrest
      exact ⟨_ :: left, right, .cons hab hleft, hright, rfl⟩

theorem find?_reverse_of_unique {p : α → Bool} {as : List α}
    (h : ∀ a ∈ as, ∀ b ∈ as, p a = true → p b = true → a = b) :
    as.reverse.find? p = as.find? p := by
  cases hfind : as.find? p with
  | none => simpa [List.find?_eq_none] using hfind
  | some a =>
    have ha := List.mem_of_find?_eq_some hfind
    have hpa := List.find?_some hfind
    cases hreverse : as.reverse.find? p with
    | none =>
      have hnone := List.find?_eq_none.mp hreverse a (List.mem_reverse.mpr ha)
      exact absurd hpa hnone
    | some b =>
      have hb := List.mem_reverse.mp (List.mem_of_find?_eq_some hreverse)
      rw [h b hb a ha (List.find?_some hreverse) hpa]

end Lists

structure Lineage.Shaped (graph : WorkflowGraph) (route : Lineage) : Prop where
  kinds : ((route.before ++ route.after).map (nodeKind graph.nodes)).Nodup
  ordinary : ∀ id ∈ route.before ++ route.after, nodeKind graph.nodes id ≠ some .account
  accounts : ∀ id ∈ route.accountNodeIds, nodeKind graph.nodes id = some .account
  policies : route.fallbackPolicies.length = route.accountNodeIds.length

section Candidates

variable {services : CompilerServices} {catalog : Catalog} {graph : WorkflowGraph}
  {context : WorkflowCompileContext} {route : Lineage} {rank : ℕ} {pathNodes : List WorkflowNode}
  {configs : CompiledResources} {strategyVersionId : String}

theorem filterMap_of_mapM {ids : List String}
    (h : ids.mapM (requiredWorkflowNode graph.nodes) = .ok pathNodes) :
    ids.filterMap (nodeById graph.nodes) = pathNodes := by
  rw [mapM_eq_ok] at h
  induction h with
  | nil => rfl
  | cons hnode _ ih => rw [List.filterMap_cons, requiredWorkflowNode_eq_ok.mp hnode, ih]

theorem nodeIds_of_get {accountNodeId : String}
    (h : route.accountNodeIds[rank]? = some accountNodeId) :
    route.nodeIds rank = route.before ++ (route.accountNodeIds.take rank ++
      accountNodeId :: route.after) := by
  rw [Lineage.nodeIds, List.take_add_one, h]
  simp

theorem resourceVersionForKind_route (hshape : route.Shaped graph)
    (h : (route.nodeIds rank).mapM (requiredWorkflowNode graph.nodes) = .ok pathNodes)
    {kind : WorkflowResourceKind} (hkind : kind ≠ .account) :
    resourceVersionForKind pathNodes kind = route.version graph kind := by
  have haccs : (((route.accountNodeIds.take (rank + 1)).filterMap
      (nodeById graph.nodes)).reverse.find? (·.kind = kind)) = none := by
    rw [List.find?_eq_none]
    intro node hnode
    obtain ⟨id, hid, hfind⟩ := List.mem_filterMap.mp (List.mem_reverse.mp hnode)
    have hacc := hshape.accounts id (List.mem_of_mem_take hid)
    rw [nodeKind_of_find hfind, Option.some.injEq] at hacc
    simpa [hacc] using hkind.symm
  have hunique : ∀ node ∈ (route.before ++ route.after).filterMap (nodeById graph.nodes),
      ∀ other ∈ (route.before ++ route.after).filterMap (nodeById graph.nodes),
      decide (node.kind = kind) = true → decide (other.kind = kind) = true → node = other := by
    intro node hnode other hother hk hk'
    obtain ⟨id, hid, hfind⟩ := List.mem_filterMap.mp hnode
    obtain ⟨id', hid', hfind'⟩ := List.mem_filterMap.mp hother
    have hsame : nodeKind graph.nodes id = nodeKind graph.nodes id' := by
      rw [nodeKind_of_find hfind, nodeKind_of_find hfind', of_decide_eq_true hk,
        of_decide_eq_true hk']
    obtain rfl := List.inj_on_of_nodup_map hshape.kinds hid hid' hsame
    exact Option.some.inj (hfind.symm.trans hfind')
  rw [resourceVersionForKind, Lineage.version, ← filterMap_of_mapM h, Lineage.nodeIds,
    ← find?_reverse_of_unique hunique]
  simp only [List.filterMap_append, List.reverse_append, List.find?_append, haccs,
    Option.none_or]

theorem loadCompiledPathDependencies_ok {accountId : String}
    {loaded : AccountRow × StrategyConfiguration}
    (h : loadCompiledPathDependencies services catalog configs accountId strategyVersionId =
      .ok loaded) :
    catalog.account accountId = some loaded.1 := by
  simp only [loadCompiledPathDependencies, bind_eq_ok] at h
  obtain ⟨schemaId, -, contractVersionId, -, h⟩ := h
  split at h
  · cases h
  rename_i account hacc
  split at h
  · cases h
  split at h
  · cases h
  split at h
  · cases h
  simp only [bind_eq_ok, pure_eq_ok_iff] at h
  obtain ⟨-, -, -, -, -, -, rfl⟩ := h
  exact hacc

/-- The configuration of a candidate is that of the sequence with the account of its rank. -/
theorem configurations_route (hshape : route.Shaped graph) {accountNodeId : String}
    (hacc : route.accountNodeIds[rank]? = some accountNodeId)
    {configurations : List ResourceConfiguration}
    (h : List.Forall₂ (ConfigurationOf catalog graph) (route.nodeIds rank) configurations) :
    ∃ kept, List.Forall₂ (ConfigurationOf catalog graph)
      (route.before ++ accountNodeId :: route.after) kept ∧ fromEntries configurations = kept := by
  rw [nodeIds_of_get hacc] at h
  obtain ⟨before, rest, hbefore, hrest, rfl⟩ := forall₂_append_left h
  obtain ⟨accounts, after, haccs, hafter, rfl⟩ := forall₂_append_left hrest
  cases hafter with
  | @cons _ last _ after hlast hafter =>
    refine ⟨before ++ last :: after, ?_, ?_⟩
    · exact List.rel_append hbefore (.cons hlast hafter)
    · have hkind : ∀ {ids : List String} {configs : List ResourceConfiguration},
          List.Forall₂ (ConfigurationOf catalog graph) ids configs →
          configs.map (fun config => some config.kind) = ids.map (nodeKind graph.nodes) := by
        intro ids configs hconfigs
        induction hconfigs with
        | nil => rfl
        | cons hconfig _ ih => rw [List.map_cons, List.map_cons, ih, hconfig.kind]
      have hlastkind : last.kind = .account := by
        have hnode := hshape.accounts accountNodeId (List.mem_of_getElem? hacc)
        simpa [hlast.kind] using hnode
      refine fromEntries_replace ?_ ?_
      · intro other hother
        obtain ⟨id, hid, hconfig⟩ := exists_left_of_forall₂ haccs hother
        have hnode := hshape.accounts id (List.mem_of_mem_take hid)
        rw [hconfig.kind, Option.some.injEq] at hnode
        rw [hnode, hlastkind]
      · have hmid : ((before ++ after).map (fun config => some config.kind)).Nodup ∧
            ∀ config ∈ before ++ after, config.kind ≠ .account := by
          refine ⟨?_, ?_⟩
          · rw [hkind (List.rel_append hbefore hafter)]
            exact hshape.kinds
          · intro config hconfig heq
            obtain ⟨id, hid, hof⟩ := exists_left_of_forall₂ (List.rel_append hbefore hafter) hconfig
            exact hshape.ordinary id hid (by rw [hof.kind, heq])
        have hnodup : ((before ++ after).map (·.kind)).Nodup := by
          have hmap := hmid.1
          rw [show (fun config : ResourceConfiguration => some config.kind) =
            some ∘ ResourceConfiguration.kind from rfl, ← List.map_map] at hmap
          exact hmap.of_map
        rw [List.map_append, List.map_cons, List.nodup_middle, ← List.map_append,
          List.nodup_cons, hlastkind]
        refine ⟨?_, hnodup⟩
        intro hmem
        obtain ⟨config, hconfig, heq⟩ := List.mem_map.mp hmem
        exact hmid.2 config hconfig heq

theorem accountId_mem {accountId : String}
    (h : CompiledResources.accountId configs = some accountId) : .account accountId ∈ configs := by
  obtain ⟨config, hconfig, heq⟩ := List.exists_of_findSome?_eq_some h
  split at heq
  · obtain rfl := Option.some.inj heq
    exact hconfig
  · cases heq

theorem sizing_mem {sizing : SizingConfiguration}
    (h : CompiledResources.sizing configs = some sizing) : .sizing sizing ∈ configs := by
  obtain ⟨config, hconfig, heq⟩ := List.exists_of_findSome?_eq_some h
  split at heq
  · obtain rfl := Option.some.inj heq
    exact hconfig
  · cases heq

theorem required_eq_ok {α : Type} {value : Option α} {label : String} {a : α} :
    required value label = .ok a ↔ value = some a := by
  cases value <;> simp [required]

theorem lift_eq_ok {α : Type} {x : Outcome α} {a : α} : lift x = .ok a ↔ x = .ok a := by
  cases x <;> simp [lift]

theorem compileCandidate_ok
    (hload : loadWorkflowResources services catalog graph = .ok context.resources)
    (hnodes : context.nodes = graph.nodes) (hshape : route.Shaped graph) {channelId : String}
    (hchan : ConfigurationOf catalog graph route.channelNodeId (.channel channelId))
    (hstrategy : ∃ id ∈ route.before ++ route.after,
      ConfigurationOf catalog graph id (.strategy strategyVersionId))
    (hrank : rank < route.accountNodeIds.length)
    {compiled : CompiledDraftPath × WorkflowRouteCandidate}
    (h : compileCandidate services catalog context route channelId strategyVersionId
      (route.groupKey services) rank = .ok compiled) :
    route.PathOf services catalog graph rank compiled.1 ∧ compiled.1.channelId = channelId ∧
      compiled.2 = Lineage.candidateOf (route.accountNodeIds[rank]) compiled.1 := by
  simp only [compileCandidate, compiledEffectiveConfiguration, hnodes, bind_eq_ok, required_eq_ok,
    lift_eq_ok, pure_eq_ok_iff] at h
  obtain ⟨pathNodes, hpath, configs, hconfigs, accountId, haccountId, loaded, hloaded, _,
    ⟨base, hbase, sizing, hsizing, strategyConfiguration, -, rfl⟩, rfl⟩ := h
  obtain ⟨configurations, hconfigurations, rfl⟩ := configurationsOf_ok hload hpath hconfigs
  have hacc : route.accountNodeIds[rank]? = some route.accountNodeIds[rank] :=
    List.getElem?_eq_getElem hrank
  obtain ⟨kept, hkept, hentries⟩ := configurations_route hshape hacc hconfigurations
  rw [hentries] at haccountId hbase
  have hver : ∀ {kind : WorkflowResourceKind}, kind ≠ .account →
      resourceVersionForKind pathNodes kind = route.version graph kind :=
    fun hkind => resourceVersionForKind_route hshape hpath hkind
  have hpolicies : rank < route.fallbackPolicies.length := hshape.policies ▸ hrank
  have hpol : route.fallbackPolicies[rank]? = some route.fallbackPolicies[rank] :=
    List.getElem?_eq_getElem hpolicies
  refine ⟨?_, rfl, ?_⟩
  · refine ⟨rfl, rfl, rfl, ?_, rfl, rfl, hchan, ?_, hver (by decide), hver (by decide),
      hver (by decide), hver (by decide), hver (by decide), ?_⟩
    · rw [hpol, Option.getD_some]
    · refine ⟨_, kept, hacc, hkept, accountId_mem haccountId, ?_, base, sizing,
        sizing_mem hbase, hsizing, by rw [hentries]⟩
      obtain ⟨id, hid, hof⟩ := hstrategy
      have hmem : id ∈ route.before ++ route.accountNodeIds[rank] :: route.after := by
        rcases List.mem_append.mp hid with hbefore | hafter
        · exact List.mem_append_left _ hbefore
        · exact List.mem_append_right _ (List.mem_cons_of_mem _ hafter)
      obtain ⟨config, hconfig, hof'⟩ := exists_right_of_forall₂ hkept hmem
      exact hof.unique hof' ▸ hconfig
    · exact ⟨loaded.1, loadCompiledPathDependencies_ok hloaded, rfl⟩
  · simp [Lineage.candidateOf, hacc]

end Candidates

end TsxCore.Workflow
