import TsxCore.Fuel
import TsxCore.WorkflowRoutes

/-!
# Every compilation of a workflow ends

The walk for the accounts of a channel ends because it visits each node once, the
topological order because each round takes a node from the queue and each edge is
released once, the visit of a fallback chain because it holds no node twice, and
the walk for the paths because every flow edge moves to a later column.
-/

namespace TsxCore.Workflow

open Fuel Outcome

section Steps

theorem terminates_throwOn {bad : Prop} [Decidable bad] {message : String} :
    Terminates .outOfFuel (fun _ => throwOn bad message) := by
  refine terminates_const ?_
  intro h
  cases (throwIf_eq_error.mp h).2

theorem terminates_fail {α : Type} {message : String} :
    Terminates .outOfFuel (fun _ => (fail message : Compiled α)) :=
      terminates_const (by simp [fail])

theorem terminates_lift {α : Type} (x : Outcome α) : Terminates .outOfFuel (fun _ => lift x) :=
  terminates_const (by cases x <;> simp [lift])

theorem terminates_required {α : Type} (value : Option α) (label : String) :
    Terminates .outOfFuel (fun _ => required value label) :=
  terminates_const (by cases value <;> simp [required, pure, Except.pure])

theorem terminates_requiredWorkflowNode (nodes : List WorkflowNode) (id : String) :
    Terminates .outOfFuel (fun _ => requiredWorkflowNode nodes id) := by
  unfold requiredWorkflowNode
  split
  · exact terminates_pure _
  · exact terminates_fail

theorem terminates_requiredWorkflowResource (resources : List WorkflowResourceVersion)
    (id : String) :
    Terminates .outOfFuel (fun _ => requiredWorkflowResource resources id) := by
  unfold requiredWorkflowResource
  split
  · exact terminates_pure _
  · exact terminates_fail

end Steps

section Traversals

variable {nodes : List WorkflowNode} {adjacency : String → List WorkflowEdge}
  {channelNodeId : String} {ids : Finset String} {state : List String × (String → ℤ)}

theorem terminates_ordinaryAccountLoop
    (hclosed : ∀ id, ∀ target ∈ targetsOf adjacency channelNodeId id, target ∈ ids)
    (pending visited accounts : List String) (hpend : ∀ id ∈ pending, id ∈ ids) :
    Terminates .outOfFuel (fun fuel =>
      ordinaryAccountLoop nodes adjacency channelNodeId fuel pending visited accounts) := by
  induction hsize : (ids \ visited.toFinset).card using Nat.strong_induction_on
    generalizing pending visited accounts with
  | _ size ih =>
    induction pending with
    | nil =>
      apply terminates_succ
      exact terminates_pure accounts
    | cons id pending ihpending =>
      apply terminates_succ
      have hrest : ∀ id ∈ pending, id ∈ ids :=
        fun other hother => hpend other (List.mem_cons_of_mem id hother)
      by_cases hmem : id ∈ visited
      · simp only [ordinaryAccountLoop, if_pos hmem]
        exact ihpending hrest
      · have hlt := hsize ▸ card_sdiff_cons_lt (hpend id List.mem_cons_self) hmem
        by_cases hacc : nodeKind nodes id = some .account
        · simp only [ordinaryAccountLoop, if_neg hmem, if_pos hacc]
          exact ih _ hlt pending (id :: visited) (id :: accounts) hrest rfl
        · simp only [ordinaryAccountLoop, if_neg hmem, if_neg hacc]
          refine ih _ hlt _ (id :: visited) accounts ?_ rfl
          intro other hother
          rcases List.mem_append.mp hother with htgt | hother
          · exact hclosed id other (List.mem_reverse.mp htgt)
          · exact hrest other hother

def remaining (ids : Finset String) (state : List String × (String → ℤ)) : ℕ :=
  state.1.length + ∑ id ∈ ids, (state.2 id).toNat

theorem remaining_releaseEdge {edge : WorkflowEdge} (hedge : edge.target ∈ ids) :
    remaining ids (releaseEdge state edge) ≤ remaining ids state := by
  obtain ⟨queue, indegree⟩ := state
  have hsum : ∀ degree : ℤ, ∑ id ∈ ids, (Function.update indegree edge.target degree id).toNat =
      degree.toNat + ∑ id ∈ ids \ {edge.target}, (indegree id).toNat := by
    intro degree
    rw [Finset.sum_eq_add_sum_sdiff_singleton_of_mem hedge, Function.update_self]
    congr 1
    refine Finset.sum_congr rfl ?_
    intro id hid
    rw [Function.update_of_ne (by simpa using (Finset.mem_sdiff.mp hid).2)]
  have hold := hsum (indegree edge.target)
  rw [Function.update_eq_self] at hold
  simp only [remaining, releaseEdge, hsum, hold]
  split_ifs with hlast
  · simp only [List.length_append, List.length_singleton]
    omega
  · omega

theorem remaining_foldl {edges : List WorkflowEdge} (hedges : ∀ edge ∈ edges, edge.target ∈ ids) :
    remaining ids (edges.foldl releaseEdge state) ≤ remaining ids state := by
  induction edges generalizing state with
  | nil => exact le_rfl
  | cons edge edges ih =>
    rw [List.foldl_cons]
    exact (ih (fun other hother => hedges other (List.mem_cons_of_mem edge hother))).trans
      (remaining_releaseEdge (hedges edge List.mem_cons_self))

theorem terminates_acyclicLoop (hedges : ∀ id, ∀ edge ∈ adjacency id, edge.target ∈ ids)
    (queue : List String) (indegree : String → ℤ) (visited : ℕ) :
    Terminates .outOfFuel (fun fuel => acyclicLoop adjacency fuel queue indegree visited) := by
  induction hsize : remaining ids (queue, indegree) using Nat.strong_induction_on
    generalizing queue indegree visited with
  | _ size ih =>
    apply terminates_succ
    cases queue with
    | nil => exact terminates_pure visited
    | cons id queue =>
      simp only [acyclicLoop]
      refine ih _ ?_ _ _ (visited + 1) rfl
      have hrelease : remaining ids ((adjacency id).foldl releaseEdge (queue, indegree)) ≤
          remaining ids (queue, indegree) := remaining_foldl (hedges id)
      simp only [remaining, List.length_cons] at hsize hrelease ⊢
      omega

end Traversals

section Fallback

variable {channelNodeId : String} {successors : List Successor}

theorem terminates_visitFallback (visiting visited : List String) (nodeId : String) :
    Terminates .outOfFuel (fun fuel =>
      visitFallback channelNodeId successors fuel visiting visited nodeId) := by
  induction hsize : ((successors.map (·.source)).toFinset \ visiting.toFinset).card
    using Nat.strong_induction_on generalizing visiting visited nodeId with
  | _ size ih =>
    apply terminates_succ
    simp only [visitFallback]
    split_ifs with hvisiting hvisited
    · exact terminates_fail
    · exact terminates_pure visited
    · cases hnext : successorOf successors nodeId with
      | none => exact terminates_pure _
      | some successor =>
        refine Terminates.bind ?_ ?_
        · refine ih _ ?_ (nodeId :: visiting) visited successor.target rfl
          have hsrc : nodeId ∈ (successors.map (·.source)).toFinset := by
            have hmem := List.mem_of_find?_eq_some hnext
            have hid : successor.source = nodeId := by simpa using List.find?_some hnext
            exact List.mem_toFinset.mpr (hid ▸ List.mem_map_of_mem hmem)
          exact hsize ▸ card_sdiff_cons_lt hsrc hvisiting
        · intro _ visited' _
          exact terminates_pure _

theorem terminates_successorChain {nodeId : String} (h : Ends successors nodeId) :
    Terminates .outOfFuel (fun fuel => successorChain successors fuel nodeId) := by
  induction h with
  | @intro nodeId _ ih =>
    apply terminates_succ
    simp only [successorChain]
    cases hnext : successorOf successors nodeId with
    | none => exact terminates_pure []
    | some successor =>
      refine (ih successor hnext).bind ?_
      intro _ rest _
      exact terminates_pure _

theorem terminates_fallbackSuccessorsForChannel (graph : WorkflowGraph)
    (ordinaryAccounts : List String) : Terminates .outOfFuel (fun fuel =>
      fallbackSuccessorsForChannel fuel graph channelNodeId ordinaryAccounts) := by
  unfold fallbackSuccessorsForChannel
  refine Terminates.bind (terminates_foldlM ?_ []) ?_
  · intro successors edge _
    refine Terminates.bind terminates_throwOn (fun _ _ _ => ?_)
    refine Terminates.bind terminates_throwOn (fun _ _ _ => ?_)
    exact terminates_pure _
  · intro _ successors _
    refine Terminates.bind (terminates_foldlM ?_ []) ?_
    · intro visited successor _
      exact terminates_visitFallback [] visited successor.source
    · intro _ _ _
      refine Terminates.bind (terminates_forM ?_) (fun _ _ _ => terminates_pure successors)
      intro edge _
      exact Terminates.bind terminates_throwOn (fun _ _ _ => terminates_throwOn)

end Fallback

section Compilation

variable {services : CompilerServices} {catalog : Catalog} {graph : WorkflowGraph}
  {context : WorkflowCompileContext} {topology : Topology} {channelNodeId : String}
  {channel : WorkflowNode}

theorem terminates_loadWorkflowResources :
    Terminates .outOfFuel (fun _ => loadWorkflowResources services catalog graph) := by
  refine Terminates.bind (terminates_foldlM ?_ []) (fun _ _ _ => terminates_pure _)
  intro placed node _
  unfold placeNode
  split
  · exact terminates_fail
  · refine Terminates.bind terminates_throwOn (fun _ _ _ => ?_)
    refine Terminates.bind terminates_throwOn (fun _ _ _ => ?_)
    split
    · exact terminates_fail
    · split
      · exact terminates_fail
      · exact terminates_pure _

theorem terminates_buildWorkflowTopology :
    Terminates .outOfFuel (fun _ => buildWorkflowTopology graph) := by
  refine terminates_foldlM ?_ _
  intro topology edge _
  unfold addEdge
  split_ifs
  · exact terminates_pure _
  · refine (terminates_requiredWorkflowNode _ _).bind (fun _ source _ => ?_)
    refine (terminates_requiredWorkflowNode _ _).bind (fun _ target _ => ?_)
    exact Terminates.bind terminates_throwOn (fun _ _ _ => terminates_pure _)

theorem terminates_loadCompiledPathDependencies (configs : CompiledResources)
    (accountId strategyVersionId : String) : Terminates .outOfFuel (fun _ =>
      loadCompiledPathDependencies services catalog configs accountId strategyVersionId) := by
  refine (terminates_required _ _).bind (fun _ schemaId _ => ?_)
  refine (terminates_required _ _).bind (fun _ contractVersionId _ => ?_)
  split
  · exact terminates_fail
  split
  · exact terminates_fail
  split
  · exact terminates_fail
  split
  · exact terminates_fail
  refine (terminates_lift _).bind (fun _ _ _ => ?_)
  refine (terminates_lift _).bind (fun _ baseStrategy _ => ?_)
  exact Terminates.bind terminates_throwOn (fun _ _ _ => terminates_pure _)

theorem terminates_configurationsOf (pathNodes : List WorkflowNode) :
    Terminates .outOfFuel (fun _ => configurationsOf context pathNodes) := by
  refine Terminates.bind (terminates_mapM ?_) (fun _ _ _ => terminates_pure _)
  intro node _
  exact terminates_requiredWorkflowResource _ _

theorem terminates_compileCandidate (lineage : Lineage)
    (channelId strategyVersionId routeGroupKey : String) (rank : ℕ) :
    Terminates .outOfFuel (fun _ => compileCandidate services catalog context lineage channelId
      strategyVersionId routeGroupKey rank) := by
  refine Terminates.bind (terminates_mapM ?_) (fun _ pathNodes _ => ?_)
  · intro id _
    exact terminates_requiredWorkflowNode _ _
  refine (terminates_configurationsOf pathNodes).bind (fun _ configs _ => ?_)
  refine (terminates_required _ _).bind (fun _ accountId _ => ?_)
  refine (terminates_loadCompiledPathDependencies _ _ _).bind (fun _ loaded _ => ?_)
  refine Terminates.bind ?_ (fun _ _ _ => terminates_pure _)
  refine (terminates_required _ _).bind (fun _ sizing _ => ?_)
  refine (terminates_lift _).bind (fun _ normalizedSizing _ => ?_)
  exact (terminates_lift _).bind (fun _ _ _ => terminates_pure _)

theorem terminates_compileTerminalLineage
    (hends : ∀ id, Ends ((context.fallbackByChannel.lookup channelNodeId).getD []) id)
    (accountNodeId : String) (state : CompileState) (terminalLineage : List String) :
    Terminates .outOfFuel (fun fuel => compileTerminalLineage services catalog fuel context
      accountNodeId channelNodeId state terminalLineage) := by
  refine (terminates_successorChain (hends accountNodeId)).bind (fun _ chain _ => ?_)
  refine Terminates.bind (terminates_mapM ?_) (fun _ primaryNodes _ => ?_)
  · intro id _
    exact terminates_requiredWorkflowNode _ _
  dsimp only
  split_ifs
  · exact terminates_pure _
  · refine (terminates_configurationsOf primaryNodes).bind (fun _ configs _ => ?_)
    refine (terminates_required _ _).bind (fun _ channelId _ => ?_)
    refine (terminates_required _ _).bind (fun _ strategyVersionId _ => ?_)
    refine Terminates.bind (terminates_mapM ?_) (fun _ _ _ => terminates_pure _)
    intro rank _
    exact terminates_compileCandidate _ _ _ _ rank

def columnsAfter (graph : WorkflowGraph) (nodeId : String) : ℕ :=
  13 - ((nodeKind graph.nodes nodeId).map (·.stage)).getD 0

theorem Earlier.columnsAfter_lt {left right : String} (h : Earlier graph left right) :
    columnsAfter graph right < columnsAfter graph left := by
  obtain ⟨leftKind, rightKind, hleft, hright, hlt⟩ := h
  have hlast : rightKind.stage ≤ 12 := by cases rightKind <;> decide
  simp only [columnsAfter, hleft, hright, Option.map_some, Option.getD_some]
  omega

theorem terminates_walkWorkflowPaths (htop : buildWorkflowTopology graph = .ok topology)
    (hadjacency : context.adjacency = topology.adjacency)
    (hends : ∀ id, Ends ((context.fallbackByChannel.lookup channelNodeId).getD []) id)
    (state : CompileState) (nodeId : String) (lineage : List String) :
    Terminates .outOfFuel (fun fuel =>
      walkWorkflowPaths services catalog context channelNodeId fuel state nodeId lineage) := by
  induction hsize : columnsAfter graph nodeId using Nat.strong_induction_on
    generalizing state nodeId lineage with
  | _ size ih =>
    apply terminates_succ
    simp only [walkWorkflowPaths]
    refine (terminates_requiredWorkflowNode _ _).bind (fun _ node _ => ?_)
    split_ifs
    · refine Terminates.bind terminates_throwOn (fun _ _ _ => terminates_foldlM ?_ state)
      intro state terminalLineage _
      exact terminates_compileTerminalLineage hends nodeId state terminalLineage
    all_goals
      refine terminates_foldlM ?_ _
      intro state target htgt
      rw [hadjacency, mem_targetsOf htop] at htgt
      have hlater := htgt.earlier (buildWorkflowTopology_ok htop).1
      exact ih _ (hsize ▸ hlater.columnsAfter_lt) state target _ rfl

theorem terminates_channelFallbacks (hgraph : graph.Valid)
    (htop : buildWorkflowTopology graph = .ok topology) (hchan : channel ∈ graph.nodes) :
    Terminates .outOfFuel (fun fuel => channelFallbacks fuel graph topology.adjacency channel) := by
  refine Terminates.bind ?_ (fun _ ordinaryAccounts _ => ?_)
  · refine @terminates_ordinaryAccountLoop _ _ _ (graph.nodes.map (·.id)).toFinset ?_ _ _ _ ?_
    · intro id target htgt
      obtain ⟨edge, hedge, -, -, -, rfl⟩ := (mem_targetsOf htop).mp htgt
      obtain ⟨node, hnode, hid⟩ := (hgraph.endpoints edge hedge).2
      simpa using ⟨node, hnode, hid⟩
    · simpa using ⟨channel, hchan, rfl⟩
  · refine (terminates_fallbackSuccessorsForChannel graph ordinaryAccounts).bind ?_
    intro _ successors _
    exact terminates_pure _

theorem channelFallbacks_ok {fuel : ℕ} {entry : String × List Successor}
    (h : channelFallbacks fuel graph topology.adjacency channel = .ok entry) :
    entry.1 = channel.id ∧ graph.Linear channel.id ∧
      entry.2 = (fallbackEdges graph channel.id).map toSuccessor ∧ ∀ id, Ends entry.2 id := by
  simp only [channelFallbacks, bind_eq_ok, pure_eq_ok_iff] at h
  obtain ⟨ordinaryAccounts, -, successors, hsucrs, rfl⟩ := h
  exact ⟨rfl, fallbackSuccessorsForChannel_ok hsucrs⟩

theorem lookup_fallbackByChannel {fuel : ℕ} {channels : List WorkflowNode}
    {fallbackByChannel : List (String × List Successor)}
    (h : channels.mapM (channelFallbacks fuel graph topology.adjacency) = .ok fallbackByChannel)
    (hchan : channel ∈ channels) :
    ∃ successors, fallbackByChannel.lookup channel.id = some successors ∧
      graph.Linear channel.id ∧ successors = (fallbackEdges graph channel.id).map toSuccessor ∧
      ∀ id, Ends successors id := by
  rw [mapM_eq_ok] at h
  induction h with
  | nil => simp at hchan
  | @cons first entry _ _ hfirst _ ih =>
    obtain ⟨hid, hlinear, hsucrs, hends⟩ := channelFallbacks_ok hfirst
    by_cases heq : channel.id = first.id
    · refine ⟨entry.2, ?_, heq ▸ hlinear, heq ▸ hsucrs, hends⟩
      rw [List.lookup_cons, hid, heq, beq_self_eq_true]
    · have hmem := (List.mem_cons.mp hchan).resolve_left (fun h => heq (h ▸ rfl))
      obtain ⟨successors, hlook, hrest⟩ := ih hmem
      refine ⟨successors, ?_, hrest⟩
      rw [List.lookup_cons, hid, beq_false_of_ne heq]
      exact hlook

theorem terminates_compileWorkflow (hgraph : graph.Valid) :
    Terminates .outOfFuel (fun fuel => compileWorkflow services catalog fuel graph) := by
  refine Terminates.bind terminates_loadWorkflowResources (fun _ resources _ => ?_)
  refine Terminates.bind terminates_buildWorkflowTopology (fun _ topology htop => ?_)
  have hedges : ∀ id, ∀ edge ∈ topology.adjacency id,
      edge.target ∈ (graph.nodes.map (·.id)).toFinset := by
    intro id edge hedge
    rw [(buildWorkflowTopology_ok htop).2] at hedge
    obtain ⟨node, hnode, hid⟩ := (hgraph.endpoints edge (List.mem_of_mem_filter hedge)).2
    simpa using ⟨node, hnode, hid⟩
  refine Terminates.bind ?_ (fun _ _ _ => ?_)
  · refine (terminates_acyclicLoop hedges _ _ 0).bind (fun _ _ _ => ?_)
    exact terminates_throwOn
  refine Terminates.bind (terminates_mapM ?_) (fun fuel fallbackByChannel hfb => ?_)
  · intro channel hchan
    exact terminates_channelFallbacks hgraph htop (List.mem_of_mem_filter hchan)
  refine Terminates.bind (terminates_foldlM ?_ _) (fun _ state _ => ?_)
  · intro state channel hchan
    obtain ⟨successors, hlook, -, -, hends⟩ := lookup_fallbackByChannel hfb hchan
    refine terminates_walkWorkflowPaths htop rfl ?_ state channel.id []
    simpa only [hlook, Option.getD_some] using hends
  · refine Terminates.bind ?_ (fun _ _ _ => terminates_pure _)
    unfold assertConsistentTelegramOutputs
    split
    · exact terminates_pure _
    · exact terminates_fail

end Compilation

end TsxCore.Workflow
