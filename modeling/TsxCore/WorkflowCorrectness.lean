import TsxCore.DigestTable
import TsxCore.WorkflowCompilation

/-!
# Workflow compilation is correct

The compiled paths and route groups are those of the executable routes, each once.
Their keys are pairwise different, and no path has two nodes of one kind other
than accounts. The account nodes of a group are pairwise different; two account
resources may carry one account, where their configurations differ in other
members.
-/

namespace TsxCore.Workflow

open Fuel Outcome TradingTypes

section Compilation

variable {services : CompilerServices} {catalog : Catalog} {graph : WorkflowGraph} {route : Lineage}

theorem nodeById_of_mem (hgraph : graph.Valid) {node : WorkflowNode} (h : node ∈ graph.nodes) :
    nodeById graph.nodes node.id = some node := by
  cases hfind : nodeById graph.nodes node.id with
  | none =>
    have hnone := List.find?_eq_none.mp hfind node h
    simp at hnone
  | some other =>
    obtain ⟨hother, hid⟩ := nodeById_mem hfind
    rw [List.inj_on_of_nodup_map hgraph.nodes hother h hid]

theorem isRoute_iff (hgraph : graph.Valid) : IsRoute graph route ↔
    ∃ channel ∈ graph.nodes.filter (·.kind = .channel),
      route.Passes graph channel.id [] channel.id := by
  refine ⟨?_, ?_⟩
  · intro h
    obtain ⟨accountNodeId, hprim, hleads, hend⟩ := h.sequence
    obtain ⟨channel, hfind, hkind⟩ := Option.map_eq_some_iff.mp h.channel
    obtain ⟨hmem, hid⟩ := nodeById_mem hfind
    refine ⟨channel, by simpa using ⟨hmem, hkind⟩, ?_⟩
    rw [hid]
    exact ⟨route.before, accountNodeId, route.after, hleads, hend, rfl, rfl, rfl, hprim,
      h.kinds, h.fallback⟩
  · intro h
    obtain ⟨channel, hchan, before, accountNodeId, after, hleads, hend, hext⟩ := h
    rw [List.mem_filter, decide_eq_true_eq] at hchan
    obtain ⟨horigin, hbefore, hafter, hprim, hkinds, hfb⟩ := hext
    rw [List.nil_append] at hbefore
    rw [← horigin, ← hbefore] at hleads
    rw [← horigin, ← hafter] at hend
    rw [← horigin] at hfb
    refine ⟨?_, ⟨accountNodeId, hprim, hleads, hend⟩, hkinds, hfb⟩
    rw [horigin, nodeKind_of_find (nodeById_of_mem hgraph hchan.1), hchan.2]

theorem compileWorkflow_ok (hgraph : graph.Valid) {fuel : ℕ} {result : CompileState}
    (h : compileWorkflow services catalog fuel graph = .ok result) :
    graph.Ascending ∧
      (∀ route, IsRoute graph route → graph.Linear route.channelNodeId) ∧
      Enumerates services catalog graph (IsRoute graph) ⟨[], [], []⟩ result := by
  simp only [compileWorkflow, bind_eq_ok, pure_eq_ok_iff] at h
  obtain ⟨resources, hresources, topology, htop, -, -, fallbackByChannel, hfb, state,
    hwalk, -, -, rfl⟩ := h
  have hasc := (buildWorkflowTopology_ok htop).1
  have hkind : ∀ channel ∈ graph.nodes.filter (·.kind = .channel),
      nodeKind graph.nodes channel.id = some .channel := by
    intro channel hchan
    rw [List.mem_filter, decide_eq_true_eq] at hchan
    rw [nodeKind_of_find (nodeById_of_mem hgraph hchan.1), hchan.2]
  refine ⟨hasc, ?_, ?_⟩
  · intro route hroute
    obtain ⟨channel, hchan, _, _, _, -, -, hext⟩ := (isRoute_iff hgraph).mp hroute
    obtain ⟨-, -, hlinear, -⟩ := lookup_fallbackByChannel hfb hchan
    rw [hext.origin]
    exact hlinear
  · have hnodup : (graph.nodes.filter (·.kind = .channel)).Nodup := hgraph.nodes.of_map.filter _
    have hstep : ∀ channel ∈ graph.nodes.filter (·.kind = .channel), ∀ state state',
        walkWorkflowPaths services catalog ⟨graph.nodes, topology.adjacency, resources,
          fallbackByChannel⟩ channel.id fuel state channel.id [] = .ok state' →
        Enumerates services catalog graph (Lineage.Passes graph channel.id [] channel.id)
          state state' := by
      intro channel hchan state state' hstate
      obtain ⟨successors, hlook, hlinear, rfl, -⟩ := lookup_fallbackByChannel hfb hchan
      exact walkWorkflowPaths_ok ⟨hgraph, rfl, hresources, ⟨topology, htop, rfl⟩, hlinear,
        hlook⟩ (hkind channel hchan) (by simp) (by simp) (by simp) hstate
    refine (enumerates_foldlM hnodup hstep ?_ hwalk).congr (fun route => (isRoute_iff hgraph).symm)
    intro channel hchan channel' hchan' route hroute hroute'
    obtain ⟨_, _, _, -, -, hext⟩ := hroute
    obtain ⟨_, _, _, -, -, hext'⟩ := hroute'
    exact List.inj_on_of_nodup_map hgraph.nodes (List.mem_of_mem_filter hchan)
      (List.mem_of_mem_filter hchan') (hext.origin.symm.trans hext'.origin)

theorem IsRoute.exists_sequence (hasc : graph.Ascending) (h : IsRoute graph route) :
    ∃ accountNodeId, Sequence graph route.channelNodeId route.before accountNodeId route.after ∧
      route.Extends graph route.channelNodeId route.before accountNodeId route.after := by
  obtain ⟨accountNodeId, hprim, hleads, hend⟩ := h.sequence
  refine ⟨accountNodeId, ⟨hend.columns hasc (hleads.ascends hasc), ?_, hleads.account,
    h.channel, ?_⟩, rfl, rfl, rfl, hprim, h.kinds, h.fallback⟩
  · intro id hid
    rcases List.mem_append.mp hid with hid | hid
    · exact hleads.ordinary id hid
    · exact hend.ordinary id hid
  · have hmem := List.mem_of_mem_head? (hleads.head)
    rcases List.mem_append.mp hmem with hmem | hmem
    · exact hmem
    · have hacc := hleads.account
      rw [← List.mem_singleton.mp hmem, h.channel] at hacc
      cases hacc

theorem IsRoute.shaped (hgraph : graph.Valid) (hasc : graph.Ascending)
    (h : IsRoute graph route) : route.Shaped graph := by
  obtain ⟨accountNodeId, hseq, hext⟩ := h.exists_sequence hasc
  exact hseq.shaped hgraph hext

end Compilation

section Keys

variable {services : CompilerServices} {catalog : Catalog} {graph : WorkflowGraph}
  {route route' : Lineage} {path : CompiledDraftPath}

/-- Equal texts come from objects that are equal up to the order of their members. -/
theorem normalizedJson_object {members members' : List (String × Json ℤ)}
    (h : normalizedJson (.object members) = normalizedJson (.object members')) :
    ∀ member ∈ members, ∃ member' ∈ members', member'.1 = member.1 ∧
      member'.2.sorted = member.2.sorted := by
  have hsort := Json.sorted_eq_of_dumps (String.ofList_injective h)
  rw [Json.sorted_object, Json.sorted_object, Json.object.injEq] at hsort
  intro member hmemb
  have hmem : (member.1, member.2.sorted) ∈
      (Json.byKey members).map (fun member => (member.1, member.2.sorted)) :=
    List.mem_map_of_mem (Json.mem_byKey.mpr hmemb)
  rw [hsort] at hmem
  obtain ⟨member', hmemb', heq⟩ := List.mem_map.mp hmem
  exact ⟨member', Json.mem_byKey.mp hmemb', (Prod.mk.inj heq).1, (Prod.mk.inj heq).2⟩

theorem sorted_texts (values : List String) : (texts values).sorted = texts values := by
  rw [texts, Json.sorted, Json.sortedItems_eq, List.map_map]
  rfl

theorem texts_injective {values values' : List String} (h : texts values = texts values') :
    values = values' := by
  rw [texts, texts, Json.array.injEq] at h
  exact List.map_injective_iff.mpr (fun _ _ heq => by simpa using heq) h

theorem groupKey_injective (hsha : Function.Injective services.sha256)
    (hasc : graph.Ascending) (hlinear : graph.Linear route.channelNodeId)
    (hroute : IsRoute graph route) (hroute' : IsRoute graph route')
    (h : route.groupKey services = route'.groupKey services) : route = route' := by
  have hmems := normalizedJson_object (hsha h)
  have horigin : route'.channelNodeId = route.channelNodeId := by
    simpa [Json.sorted] using hmems ("channelNodeId", .string route.channelNodeId) (by simp)
  have hids : route'.nodeIds 0 = route.nodeIds 0 := texts_injective (by
    simpa [sorted_texts] using hmems ("terminalLineage", texts (route.nodeIds 0)) (by simp))
  have haccs : route'.accountNodeIds = route.accountNodeIds := texts_injective (by
    simpa [sorted_texts] using hmems ("accountNodeIds", texts route.accountNodeIds) (by simp))
  obtain ⟨accountNodeId, hseq, hext⟩ := hroute.exists_sequence hasc
  obtain ⟨accountNodeId', hseq', hext'⟩ := hroute'.exists_sequence hasc
  obtain rfl : accountNodeId = accountNodeId' := by
    simpa [haccs, hext.primary] using hext'.primary
  have hnew : accountNodeId ∉ route'.before ∧ accountNodeId ∉ route'.after := by
    rw [← not_or, ← List.mem_append]
    exact fun hmem => hseq'.ordinary accountNodeId hmem hseq'.account
  rw [hext.nodeIds_zero, hext'.nodeIds_zero,
    List.append_cons_inj_of_notMem hnew.1 hnew.2] at hids
  obtain ⟨hbefore, -, hafter⟩ := hids
  rw [horigin, hbefore, hafter] at hext'
  exact hext.unique hlinear hext'

theorem pathKey_injective (hsha : Function.Injective services.sha256) {rank rank' : ℕ}
    {path' : CompiledDraftPath} (hpath : route.PathOf services catalog graph rank path)
    (hpath' : route'.PathOf services catalog graph rank' path') (h : path.pathKey = path'.pathKey) :
    path.routeGroupKey = path'.routeGroupKey ∧ rank = rank' := by
  rw [hpath.pathKey, hpath'.pathKey] at h
  have hmems := normalizedJson_object (hsha h)
  refine ⟨?_, ?_⟩
  · simpa [Json.sorted, eq_comm] using
      hmems ("routeGroupKey", .string path.routeGroupKey) (by simp)
  · simpa [Json.sorted, eq_comm] using hmems ("rank", .number rank) (by simp)

theorem groupKey_ne_pathKey (hsha : Function.Injective services.sha256) {rank : ℕ}
    (hpath : route'.PathOf services catalog graph rank path) :
    route.groupKey services ≠ path.pathKey := by
  intro h
  rw [hpath.pathKey] at h
  have hmems := normalizedJson_object (hsha h)
  simpa using hmems ("terminalLineage", texts (route.nodeIds 0)) (by simp)

variable {routes : List Lineage} {compiled : List (List CompiledDraftPath × WorkflowRouteGroup)}

theorem exists_route_of_mem_paths
    (h : List.Forall₂ (Lineage.CompilesTo services catalog graph) routes compiled)
    (hpath : path ∈ compiled.flatMap (·.1)) :
    ∃ route ∈ routes, ∃ item ∈ compiled, route.CompilesTo services catalog graph item ∧
      ∃ rank < route.accountNodeIds.length, route.PathOf services catalog graph rank path := by
  obtain ⟨item, hitem, hmem⟩ := List.mem_flatMap.mp hpath
  obtain ⟨route, hroute, hcompiles⟩ := exists_left_of_forall₂ h hitem
  obtain ⟨rank, hrank, hof⟩ := exists_left_of_forall₂ hcompiles.paths hmem
  exact ⟨route, hroute, item, hitem, hcompiles, rank, List.mem_range.mp hrank, hof⟩

theorem map_key_groups
    (h : List.Forall₂ (Lineage.CompilesTo services catalog graph) routes compiled) :
    (compiled.map (·.2)).map (·.key) = routes.map (·.groupKey services) := by
  induction h with
  | nil => rfl
  | cons hcompiles _ ih =>
    simp only [List.map_cons, hcompiles.key]
    rw [ih]

theorem map_rank_candidates {ranks : List ℕ} {paths : List CompiledDraftPath}
    (h : List.Forall₂ (route.PathOf services catalog graph) ranks paths) :
    paths.map (fun path => (path.routeGroupKey, path.fallbackRank)) =
      ranks.map (Prod.mk (route.groupKey services)) := by
  induction h with
  | nil => rfl
  | cons hpath _ ih =>
    rw [List.map_cons, List.map_cons, ih, hpath.routeGroupKey, hpath.fallbackRank]

theorem map_rank_paths
    (h : List.Forall₂ (Lineage.CompilesTo services catalog graph) routes compiled) :
    (compiled.flatMap (·.1)).map (fun path => (path.routeGroupKey, path.fallbackRank)) =
      routes.flatMap (fun route =>
        (List.range route.accountNodeIds.length).map (Prod.mk (route.groupKey services))) := by
  induction h with
  | nil => rfl
  | @cons route item _ _ hcompiles _ ih =>
    rw [List.flatMap_cons, List.flatMap_cons, List.map_append, ih,
      map_rank_candidates hcompiles.paths]

theorem nodup_keys (hsha : Function.Injective services.sha256) (hnodup : routes.Nodup)
    (hinj : ∀ route ∈ routes, ∀ route' ∈ routes,
      route.groupKey services = route'.groupKey services → route = route')
    (h : List.Forall₂ (Lineage.CompilesTo services catalog graph) routes compiled) :
    ((compiled.map (·.2)).map (·.key) ++ (compiled.flatMap (·.1)).map (·.pathKey)).Nodup := by
  have hgrps : ((compiled.map (·.2)).map (·.key)).Nodup := by
    rw [map_key_groups h]
    exact hnodup.map_on (fun route hroute route' hroute' => hinj route hroute route' hroute')
  refine List.nodup_append.mpr ⟨hgrps, ?_, ?_⟩
  · have hranks : ((compiled.flatMap (·.1)).map
        (fun path => (path.routeGroupKey, path.fallbackRank))).Nodup := by
      rw [map_rank_paths h, List.nodup_flatMap]
      refine ⟨?_, ?_⟩
      · intro route _
        exact List.nodup_range.map (Prod.mk_right_injective _)
      · refine hnodup.imp_of_mem ?_
        intro route route' hroute hroute' hne pair hpair hpair'
        obtain ⟨_, -, rfl⟩ := List.mem_map.mp hpair
        obtain ⟨_, -, heq⟩ := List.mem_map.mp hpair'
        exact hne (hinj route hroute route' hroute' (Prod.mk.inj heq).1.symm)
    refine List.Nodup.map_on ?_ hranks.of_map
    intro path hpath path' hpath' hkey
    obtain ⟨route, -, -, -, -, rank, -, hof⟩ := exists_route_of_mem_paths h hpath
    obtain ⟨route', -, -, -, -, rank', -, hof'⟩ := exists_route_of_mem_paths h hpath'
    obtain ⟨hgroup, hrank⟩ := pathKey_injective hsha hof hof' hkey
    refine List.inj_on_of_nodup_map hranks hpath hpath' ?_
    rw [hgroup, hof.fallbackRank, hof'.fallbackRank, hrank]
  · intro key hkey pathKey hpathKey
    rw [map_key_groups h] at hkey
    obtain ⟨route, -, rfl⟩ := List.mem_map.mp hkey
    obtain ⟨path, hpath, rfl⟩ := List.mem_map.mp hpathKey
    obtain ⟨_, -, -, -, -, _, -, hof⟩ := exists_route_of_mem_paths h hpath
    exact groupKey_ne_pathKey hsha hof

end Keys

section Groups

variable {services : CompilerServices} {catalog : Catalog} {graph : WorkflowGraph} {route : Lineage}
  {compiled : List CompiledDraftPath × WorkflowRouteGroup}

theorem Lineage.CompilesTo.length (h : route.CompilesTo services catalog graph compiled) :
    compiled.1.length = route.accountNodeIds.length := by
  rw [← h.paths.length_eq, List.length_range]

theorem Lineage.CompilesTo.map_candidates (h : route.CompilesTo services catalog graph compiled)
    {α : Type} (f : WorkflowRouteCandidate → α) : compiled.2.candidates.map f =
      List.zipWith (fun accountNodeId path => f (candidateOf accountNodeId path))
        route.accountNodeIds compiled.1 := by
  rw [h.candidates, List.map_zipWith]

theorem Lineage.CompilesTo.accountNodeIds (h : route.CompilesTo services catalog graph compiled) :
    compiled.2.candidates.map (·.accountNodeId) = route.accountNodeIds := by
  rw [h.map_candidates]
  refine List.ext_getElem (by simp [h.length]) ?_
  intro rank _ _
  simp [candidateOf]

theorem Lineage.CompilesTo.candidatePaths {α : Type} {f : WorkflowRouteCandidate → α}
    {g : CompiledDraftPath → α} (h : route.CompilesTo services catalog graph compiled)
    (hf : ∀ accountNodeId path, f (candidateOf accountNodeId path) = g path) :
    compiled.2.candidates.map f = compiled.1.map g := by
  rw [h.map_candidates]
  refine List.ext_getElem (by simp [h.length]) ?_
  intro rank _ _
  simp [hf]

theorem Lineage.CompilesTo.exists_path (h : route.CompilesTo services catalog graph compiled)
    {candidate : WorkflowRouteCandidate} (hcand : candidate ∈ compiled.2.candidates) :
    ∃ accountNodeId, ∃ path ∈ compiled.1, candidate = candidateOf accountNodeId path := by
  rw [h.candidates] at hcand
  obtain ⟨rank, hrank, rfl⟩ := List.getElem_of_mem hcand
  rw [List.length_zipWith, lt_min_iff] at hrank
  exact ⟨_, _, List.getElem_mem hrank.2, List.getElem_zipWith⟩

theorem Lineage.CompilesTo.wellFormed (h : route.CompilesTo services catalog graph compiled)
    (hids : (compiled.1.map (·.id)).Nodup) : compiled.2.WellFormed := by
  have hranks : compiled.1.map (·.fallbackRank) = List.range route.accountNodeIds.length := by
    simpa [Function.comp_def] using congrArg (List.map Prod.snd) (map_rank_candidates h.paths)
  refine ⟨?_, ?_, ?_⟩
  · have hlen := congrArg List.length h.accountNodeIds
    rw [List.length_map] at hlen
    rw [h.candidatePaths (fun _ _ => rfl), hranks, hlen]
  · rw [h.candidatePaths (fun _ _ => rfl)]
    exact hids
  · rw [h.candidatePaths (fun _ _ => rfl), List.head?_map, h.primary]

/-- The nodes of a candidate other than its accounts have pairwise different kinds. -/
theorem nodup_kinds_path (hshape : route.Shaped graph) {rank : ℕ} {path : CompiledDraftPath}
    (h : route.PathOf services catalog graph rank path) :
    ((path.nodeIds.filter (fun id => nodeKind graph.nodes id ≠ some .account)).map
      (nodeKind graph.nodes)).Nodup := by
  have haccs : (route.accountNodeIds.take (rank + 1)).filter
      (fun id => nodeKind graph.nodes id ≠ some .account) = [] := by
    rw [List.filter_eq_nil_iff]
    intro id hid
    simp [hshape.accounts id (List.mem_of_mem_take hid)]
  have hothers : (route.before ++ route.after).filter
      (fun id => nodeKind graph.nodes id ≠ some .account) = route.before ++ route.after := by
    rw [List.filter_eq_self]
    intro id hid
    simpa using hshape.ordinary id hid
  rw [h.nodeIds, Lineage.nodeIds, List.filter_append, List.filter_append, haccs,
    List.append_nil, ← List.filter_append, hothers]
  exact hshape.kinds

end Groups

section Correctness

variable {localeLe : String → String → Bool} {value : GraphCandidate} {graph : WorkflowGraph}
  {services : CompilerServices} {catalog : Catalog}

/-- The compilation of an accepted graph ends; where it returns, it has compiled every
executable route once, under keys of its own. -/
theorem compileWorkflow_correct (hgraph : validateGraph localeLe value = .ok graph)
    (hsha : Function.Injective services.sha256) :
    Terminates .outOfFuel (fun fuel => compileWorkflow services catalog fuel graph) ∧
    ∀ fuel result, compileWorkflow services catalog fuel graph = .ok result →
      (∃ (routes : List Lineage) (compiled : List (List CompiledDraftPath × WorkflowRouteGroup)),
        routes.Nodup ∧ (∀ route, route ∈ routes ↔ IsRoute graph route) ∧
        List.Forall₂ (Lineage.CompilesTo services catalog graph) routes compiled ∧
        result.paths = compiled.flatMap (·.1) ∧ result.routeGroups = compiled.map (·.2)) ∧
      (∀ path ∈ result.paths, ((path.nodeIds.filter
        (fun id => nodeKind graph.nodes id ≠ some .account)).map (nodeKind graph.nodes)).Nodup) ∧
      (result.routeGroups.map (·.key) ++ result.paths.map (·.pathKey)).Nodup ∧
      ∀ group ∈ result.routeGroups, (group.candidates.map (·.accountNodeId)).Nodup := by
  have hvalid := validateGraph_valid hgraph
  refine ⟨terminates_compileWorkflow hvalid, ?_⟩
  intro fuel result h
  obtain ⟨hasc, hlinear, routes, compiled, hnodup, hmem, hcompd, hpaths, hgrps⟩ :=
    compileWorkflow_ok hvalid h
  rw [List.nil_append] at hpaths hgrps
  refine ⟨⟨routes, compiled, hnodup, hmem, hcompd, hpaths, hgrps⟩, ?_, ?_, ?_⟩
  · intro path hpath
    obtain ⟨route, hroute, -, -, -, rank, -, hof⟩ :=
      exists_route_of_mem_paths hcompd (hpaths ▸ hpath)
    exact nodup_kinds_path (((hmem route).mp hroute).shaped hvalid hasc) hof
  · rw [hpaths, hgrps]
    refine nodup_keys hsha hnodup ?_ hcompd
    intro route hroute route' hroute' heq
    have hisRoute := (hmem route).mp hroute
    exact groupKey_injective hsha hasc (hlinear route hisRoute) hisRoute
      ((hmem route').mp hroute') heq
  · intro group hgroup
    rw [hgrps] at hgroup
    obtain ⟨item, hitem, rfl⟩ := List.mem_map.mp hgroup
    obtain ⟨route, hroute, hcompiles⟩ := exists_left_of_forall₂ hcompd hitem
    have hisRoute := (hmem route).mp hroute
    rw [hcompiles.accountNodeIds]
    exact hisRoute.fallback.nodup (hlinear route hisRoute)

end Correctness

section SharedAccount

open DigestTable (digestOf unlisted)

def sharedSizing : SizingConfiguration := ⟨none, "1", none, "1000", none, 1⟩

def sharedResource (id : String) (configuration : ResourceConfiguration) (json : String) :
    WorkflowResourceVersion := ⟨id, id, id, .published, configuration, json⟩

/-- The second account resource carries the account of the first and a further member. -/
def sharedCatalog : Catalog where
  resources :=
    [sharedResource "channel" (.channel "channel") "\x7b\"channelId\":\"channel\"\x7d",
      sharedResource "parser" (.parser ⟨"parser", none, 1000, none, none⟩) "\x7b\x7d",
      sharedResource "schema" (.schema "schema") "\x7b\"schemaId\":\"schema\"\x7d",
      sharedResource "contract" (.contract "contract")
        "\x7b\"contractVersionId\":\"contract\"\x7d",
      sharedResource "strategy" (.strategy "strategy")
        "\x7b\"strategyVersionId\":\"strategy\"\x7d",
      sharedResource "sizing" (.sizing sharedSizing) "\x7b\"riskPerTradePercent\":\"1\"\x7d",
      sharedResource "first" (.account "account") "\x7b\"accountId\":\"account\"\x7d",
      sharedResource "second" (.account "account")
        "\x7b\"accountId\":\"account\",\"label\":\"copy\"\x7d"]
  account _ := some ⟨true, .ready⟩
  strategy _ := some ⟨true, ⟨["schema"], [], [.long], ⟨.market, .near, false, 60⟩, sharedSizing,
    ⟨none, ["100"], none⟩, ⟨"1", 60⟩⟩⟩
  schema _ := some ⟨true, .null⟩
  contract _ := some ⟨true, .null⟩

/-- The nodes of the route before its accounts. -/
def sharedNodes : List String := ["channel", "parser", "schema", "contract", "strategy", "sizing"]

def sharedGroupKey : String := "7d41a0e0ad7494cf2105a48b619a8e9827c8e26315d6cac38ad6f7ee83f42789"

def firstPathKey : String := "fb0eee51fc6490f4ca96adedab830d49953adc18aa7deb58cab178a57ba04a48"

def otherPathKey : String := "72742f35296bdb153fd1d0a57a428dcdfebd1b93b0213d0585dd502f4eb1f2da"

def sharedPathText (account : String) (accountNodes : List String) (rank : ℕ) : String :=
  normalizedJson (pathKeyDefinition sharedGroupKey rank (sharedNodes ++ accountNodes) "channel"
    account "strategy")

/-- The SHA-256 of the resources, of the route and of its paths; the account `other` may stand
for the copy. -/
def sharedDigests : List (String × String) :=
  (sharedCatalog.resources.map (·.configurationJson)).zip
    ["d10d9be747db944d6bc5eb3c52f34fe4e5c705d5d6c55ab3df6cc1fd50bbddc3",
      "44136fa355b3678a1146ad16f7e8649e94fb4fc21fe77e8310c060f61caaff8a",
      "2bfd30aa8b1cd5296fdde7726888206561965be4cafb7ed9077186b347554d8f",
      "f71763a24afd24661284f28052725c458333d3f6629f85ccb070786c7328bd25",
      "53249cb13dd4167b147c2c26f27c88e723a50478870331acbbc0baa0b3433f06",
      "7bb05ea83856ea82667c6b7f0980790b99c9db1890767c7ad6c7a03680de4d3f",
      "0f444a403b015d84d0836dd4740a1b57bec1454f22ed86d4fb74d150dd0937a3",
      "ccfa2d44a16a30af5e12d8ce696e9e13527113cce378096e6ebda70c194f6f1b"] ++
  [("\x7b\"accountId\":\"other\"\x7d",
      "e50cde24330d9d3933ce61e0d7d2bbbdb17ee529a84907de69f28020212181f8"),
    (normalizedJson (routeGroupDefinition "channel" (sharedNodes ++ ["first"]) ["first", "second"]
      [[.symbolUnavailable], []]), sharedGroupKey),
    (sharedPathText "account" ["first"] 0, firstPathKey),
    (sharedPathText "account" ["first", "second"] 1,
      "aa8279d59348e2ff848fbe853ba7bee1e7959ff004a27bf398cd2272af7dc66d"),
    (sharedPathText "other" ["first", "second"] 1, otherPathKey)]

def sharedServices : CompilerServices where
  randomUUID key rank := key ++ toString rank
  sha256 := digestOf id sharedDigests unlisted
  composeSignalSchemaContract _ _ := .ok ()
  validateStrategyConfiguration := .ok
  validateSizingConfiguration := .ok

theorem injective_sharedServices : Function.Injective sharedServices.sha256 :=
  DigestTable.digestOf_injective Function.injective_id (by decide +kernel) (by decide +kernel)

def sharedEdge (source target : String) : EdgeCandidate :=
  ⟨source ++ ":" ++ target, source, target, some "flow", none, none⟩

/-- The second account node is the fallback of the first. -/
def sharedGraph : GraphCandidate where
  schemaVersion := 3
  nodes := ["channel", "parser", "schema", "contract", "strategy", "sizing"].map
      (fun kind => ⟨kind, kind, kind, some 0, some 0⟩) ++
    [⟨"first", "account", "first", some 0, some 10⟩,
      ⟨"second", "account", "second", some 0, some 20⟩]
  edges := [sharedEdge "channel" "parser", sharedEdge "parser" "schema",
    sharedEdge "schema" "contract", sharedEdge "contract" "strategy",
    sharedEdge "strategy" "sizing",
    sharedEdge "sizing" "first",
    ⟨"fallback", "first", "second", some "account_fallback", some ["channel"],
      some ["SYMBOL_UNAVAILABLE"]⟩]

def sharedWorkflow : WorkflowGraph where
  schemaVersion := 3
  nodes := [⟨"channel", .channel, "channel", ⟨0, 0⟩⟩, ⟨"parser", .parser, "parser", ⟨1264, 0⟩⟩,
    ⟨"schema", .schema, "schema", ⟨1580, 0⟩⟩, ⟨"contract", .contract, "contract", ⟨1896, 0⟩⟩,
    ⟨"strategy", .strategy, "strategy", ⟨2528, 0⟩⟩, ⟨"sizing", .sizing, "sizing", ⟨2844, 0⟩⟩,
    ⟨"first", .account, "first", ⟨3476, 0⟩⟩, ⟨"second", .account, "second", ⟨3476, 150⟩⟩]
  edges := [("channel", "parser"), ("parser", "schema"), ("schema", "contract"),
      ("contract", "strategy"), ("strategy", "sizing"), ("sizing", "first")].map
      (fun (source, target) => ⟨source ++ ":" ++ target, source, target, some .flow, none, none⟩) ++
    [⟨"fallback", "first", "second", some .accountFallback, some ["channel"],
      some [.symbolUnavailable]⟩]

theorem sharedGraph_valid :
    validateGraph (fun left right => left ≤ right) sharedGraph = .ok sharedWorkflow := by
  decide +kernel

/-- The compilation of the graph returns a result with a property. -/
def sharedResult (p : CompileState → Bool) : Bool :=
  match compileWorkflow sharedServices sharedCatalog 20 sharedWorkflow with
  | .ok result => p result
  | .error _ => false

theorem exists_of_sharedResult {p : CompileState → Bool} (h : sharedResult p = true) :
    ∃ result, compileWorkflow sharedServices sharedCatalog 20 sharedWorkflow = .ok result ∧
      p result = true := by
  unfold sharedResult at h
  split at h
  · exact ⟨_, by assumption, h⟩
  · cases h

/-- The compiled route and its keys. -/
theorem sharedWorkflow_compiles :
    ∃ result, compileWorkflow sharedServices sharedCatalog 20 sharedWorkflow = .ok result ∧
      result.paths.length = 2 ∧
      (result.routeGroups.map (·.key) ++ result.paths.map (·.pathKey)).Nodup := by
  obtain ⟨result, hres, hlen⟩ := exists_of_sharedResult
    (show sharedResult (fun result => result.paths.length = 2) = true by decide +kernel)
  have hcorrect := (@compileWorkflow_correct _ _ _ sharedServices sharedCatalog sharedGraph_valid
    injective_sharedServices).2 20 result hres
  exact ⟨result, hres, of_decide_eq_true hlen, hcorrect.2.2.1⟩

/-- One account is both the first and the fallback candidate of a route. -/
theorem shared_account_compiles :
    ∃ value graph services catalog fuel result group,
      validateGraph (fun left right => left ≤ right) value = .ok graph ∧
      Function.Injective (CompilerServices.sha256 services) ∧
      compileWorkflow services catalog fuel graph = .ok result ∧
      group ∈ result.routeGroups ∧ ¬ (group.candidates.map (·.accountId)).Nodup := by
  obtain ⟨result, hres, hgroup⟩ := exists_of_sharedResult
    (show sharedResult (fun result => result.routeGroups.any
      (fun group => ¬ (group.candidates.map (·.accountId)).Nodup)) = true by decide +kernel)
  obtain ⟨group, hmem, hnodup⟩ := List.any_eq_true.mp hgroup
  exact ⟨sharedGraph, sharedWorkflow, sharedServices, sharedCatalog, 20, result, group,
    sharedGraph_valid, injective_sharedServices, hres, hmem, of_decide_eq_true hnodup⟩

end SharedAccount

end TsxCore.Workflow
