import Mathlib
import TsxCore.WorkflowRevisions
import TsxCore.WorkflowSignalPlans

/-!
# Signal plans and the execution of their paths

The plans of an input partition the enabled paths of its channel that accept it.
The paths of one route group ask for the same plan, but a plan leaves out the
disabled ones, while the execution refuses a plan that has not all of a group.
-/

namespace TsxCore.Workflow

open Outcome TradingTypes

section Merging

/-- The groups hold the accepted identifiers with their keys, each once. -/
structure Collects (accepted : List (String × String))
    (groups : List WorkflowSignalPlan) : Prop where
  keys : (groups.map (·.key)).Nodup
  partition : (groups.flatMap (·.executionPathIds)).Perm (accepted.map Prod.fst)
  sound : ∀ plan ∈ groups, ∀ id ∈ plan.executionPathIds, (id, plan.key) ∈ accepted

variable {accepted : List (String × String)} {groups : List WorkflowSignalPlan}
  {candidate : WorkflowSignalPlan} {id : String}

theorem flatMap_extend (hkeys : (groups.map (·.key)).Nodup)
    (hmem : ∃ plan ∈ groups, plan.key = candidate.key)
    {extend : WorkflowSignalPlan → WorkflowSignalPlan}
    (hextend : ∀ plan, (extend plan).executionPathIds =
      plan.executionPathIds ++ candidate.executionPathIds) :
    ((groups.map (fun plan => if plan.key = candidate.key then extend plan else plan)).flatMap
      (·.executionPathIds)).Perm
        (groups.flatMap (·.executionPathIds) ++ candidate.executionPathIds) := by
  induction groups with
  | nil => simp at hmem
  | cons first rest ih =>
    rw [List.map_cons, List.nodup_cons] at hkeys
    rw [List.map_cons, List.flatMap_cons, List.flatMap_cons, List.append_assoc]
    by_cases hfirst : first.key = candidate.key
    · have hrest : rest.map (fun plan => if plan.key = candidate.key then extend plan else plan) =
          rest := by
        refine List.map_congr_left (fun plan hplan => if_neg ?_) |>.trans (List.map_id _)
        intro heq
        exact hkeys.1 (hfirst.trans heq.symm ▸ List.mem_map_of_mem hplan)
      rw [if_pos hfirst, hextend, hrest, List.append_assoc]
      exact List.Perm.append_left _ List.perm_append_comm
    · rw [if_neg hfirst]
      refine List.Perm.append_left _ (ih hkeys.2 ?_)
      obtain ⟨plan, hplan, hkey⟩ := hmem
      rcases List.mem_cons.mp hplan with rfl | hplan
      · exact absurd hkey hfirst
      · exact ⟨plan, hplan, hkey⟩

theorem Collects.merge (h : Collects accepted groups) (hid : candidate.executionPathIds = [id]) :
    Collects (accepted ++ [(id, candidate.key)]) (mergeSignalPlan groups candidate) := by
  unfold mergeSignalPlan
  split_ifs with hold
  · obtain ⟨plan, hplan, hkey⟩ := List.any_eq_true.mp hold
    refine ⟨?_, ?_, ?_⟩
    · rw [List.map_map]
      have hsame : groups.map (WorkflowSignalPlan.key ∘ fun existing =>
          if existing.key = candidate.key then { existing with
            executionPathIds := existing.executionPathIds ++ candidate.executionPathIds
            outputModes := addModes existing.outputModes candidate.outputModes } else existing) =
          groups.map (·.key) := by
        refine List.map_congr_left ?_
        intro existing _
        by_cases heq : existing.key = candidate.key <;> simp [heq]
      rw [hsame]
      exact h.keys
    · refine (flatMap_extend h.keys ⟨plan, hplan, of_decide_eq_true hkey⟩ (fun _ => rfl)).trans ?_
      rw [hid, List.map_append]
      exact h.partition.append_right _
    · intro plan hplan id' hid'
      obtain ⟨existing, hex, rfl⟩ := List.mem_map.mp hplan
      split_ifs at hid' ⊢ with heq
      · rcases List.mem_append.mp hid' with hkept | hnew
        · exact List.mem_append_left _ (h.sound existing hex id' hkept)
        · rw [hid, List.mem_singleton] at hnew
          exact List.mem_append_right _ (by simp [hnew, heq])
      · exact List.mem_append_left _ (h.sound existing hex id' hid')
  · refine ⟨?_, ?_, ?_⟩
    · refine nodup_map_append h.keys ?_
      intro plan hplan heq
      exact hold (List.any_eq_true.mpr ⟨plan, hplan, decide_eq_true heq⟩)
    · rw [List.flatMap_append, List.map_append, List.flatMap_singleton, hid]
      exact h.partition.append_right _
    · intro plan hplan id' hid'
      rcases List.mem_append.mp hplan with hkept | hnew
      · exact List.mem_append_left _ (h.sound plan hkept id' hid')
      · obtain rfl := List.mem_singleton.mp hnew
        rw [hid, List.mem_singleton] at hid'
        exact List.mem_append_right _ (by simp [hid'])

end Merging

section Plans

variable {services : PlanServices} {input : SignalPlanInput} {revision : WorkflowRevision}
  {path : WorkflowExecutionPath} {plans groups groups' : List WorkflowSignalPlan}
  {workflowRevisionId : String}

/-- The enabled paths of the channel whose filters accept the input. -/
def accepts (services : PlanServices) (input : SignalPlanInput) (path : WorkflowExecutionPath) :
    Bool :=
  path.channelId = input.channelId && path.enabled &&
    pathAllowsInput services.lower services.safeRegexTest path input.text input.contentType =
      .ok .allowed

def AsksFor (services : PlanServices) (path : WorkflowExecutionPath) (key : String) : Prop :=
  ∃ definition, signalPlanDefinition path = .ok definition ∧
    services.definitionSha256 definition = key

theorem planPath_ok (h : planPath services input workflowRevisionId groups path = .ok groups') :
    (accepts services input path = false ∧ groups' = groups) ∨
      (accepts services input path = true ∧ ∃ candidate, candidate.executionPathIds = [path.id] ∧
        AsksFor services path candidate.key ∧ groups' = mergeSignalPlan groups candidate) := by
  unfold planPath at h
  by_cases hpath : path.channelId ≠ input.channelId ∨ path.enabled = false
  · rw [if_pos hpath, pure_eq_ok_iff] at h
    refine .inl ⟨?_, h.symm⟩
    rcases hpath with hchan | henabled
    · simp [accepts, hchan]
    · simp [accepts, henabled]
  · rw [if_neg hpath, bind_eq_ok] at h
    rw [not_or, not_not, Bool.not_eq_false] at hpath
    obtain ⟨result, hres, h⟩ := h
    cases result with
    | filtered reason => exact .inl ⟨by simp [accepts, hres], (pure_eq_ok_iff.mp h).symm⟩
    | allowed =>
      simp only [signalPlanForPath, bind_eq_ok, pure_eq_ok_iff] at h
      obtain ⟨_, ⟨definition, hdefinition, rfl⟩, rfl⟩ := h
      exact .inr ⟨by simp [accepts, hpath, hres], _, rfl, ⟨definition, hdefinition, rfl⟩, rfl⟩

theorem planPaths_ok {paths : List WorkflowExecutionPath} {accepted : List (String × String)}
    (h : paths.foldlM (planPath services input workflowRevisionId) groups = .ok groups')
    (hgrps : Collects accepted groups) :
    ∃ more, Collects (accepted ++ more) groups' ∧
      more.map Prod.fst = (paths.filter (accepts services input)).map (·.id) ∧
      ∀ item ∈ more, ∃ path ∈ paths, accepts services input path = true ∧ path.id = item.1 ∧
        AsksFor services path item.2 := by
  induction paths generalizing groups accepted with
  | nil =>
    obtain rfl : groups = groups' := by simpa using h
    exact ⟨[], by simpa using hgrps, rfl, by simp⟩
  | cons first rest ih =>
    rw [List.foldlM_cons, bind_eq_ok] at h
    obtain ⟨next, hnext, hrest⟩ := h
    rcases planPath_ok hnext with ⟨hskip, rfl⟩ | ⟨htake, candidate, hid, hasks, rfl⟩
    · obtain ⟨more, hcollects, hids, hmore⟩ := ih hrest hgrps
      refine ⟨more, hcollects, ?_, ?_⟩
      · rw [hids, List.filter_cons_of_neg (by simp [hskip])]
      · intro item hitem
        obtain ⟨path, hpath, hfacts⟩ := hmore item hitem
        exact ⟨path, List.mem_cons_of_mem first hpath, hfacts⟩
    · obtain ⟨more, hcollects, hids, hmore⟩ := ih hrest (hgrps.merge hid)
      refine ⟨(first.id, candidate.key) :: more, ?_, ?_, ?_⟩
      · simpa using hcollects
      · rw [List.map_cons, hids, List.filter_cons_of_pos htake, List.map_cons]
      · intro item hitem
        rcases List.mem_cons.mp hitem with rfl | hitem
        · exact ⟨first, List.mem_cons_self, htake, rfl, hasks⟩
        · obtain ⟨path, hpath, hfacts⟩ := hmore item hitem
          exact ⟨path, List.mem_cons_of_mem first hpath, hfacts⟩

structure PlansOf (services : PlanServices) (input : SignalPlanInput) (revision : WorkflowRevision)
    (plans : List WorkflowSignalPlan) : Prop where
  keys : (plans.map (·.key)).Nodup
  partition : (plans.flatMap (·.executionPathIds)).Perm
    ((revision.paths.filter (accepts services input)).map (·.id))
  sound : ∀ plan ∈ plans, ∀ id ∈ plan.executionPathIds, ∃ path ∈ revision.paths,
    accepts services input path = true ∧ path.id = id ∧ AsksFor services path plan.key

theorem flatMap_sortPlan (groups : List WorkflowSignalPlan) :
    ((groups.map (sortPlan services)).flatMap (·.executionPathIds)).Perm
      (groups.flatMap (·.executionPathIds)) := by
  rw [List.flatMap_map]
  induction groups with
  | nil => exact .nil
  | cons first rest ih =>
    rw [List.flatMap_cons, List.flatMap_cons]
    exact (List.perm_insertionSort _ _).append ih

theorem workflowSignalPlans_ok (h : workflowSignalPlans services input revision = .ok plans) :
    PlansOf services input revision plans := by
  simp only [workflowSignalPlans, bind_eq_ok, pure_eq_ok_iff] at h
  obtain ⟨groups, hgrps, rfl⟩ := h
  obtain ⟨more, hcollects, hids, hmore⟩ := planPaths_ok hgrps
    (⟨List.nodup_nil, .nil, by simp⟩ : Collects [] [])
  rw [List.nil_append] at hcollects
  have hsort := List.perm_insertionSort (fun left right : WorkflowSignalPlan =>
    services.localeLe left.key right.key = true) (groups.map (sortPlan services))
  refine ⟨?_, ?_, ?_⟩
  · rw [(hsort.map _).nodup_iff, List.map_map]
    exact hcollects.keys
  · rw [← hids]
    exact ((hsort.flatMap_right _).trans (flatMap_sortPlan groups)).trans hcollects.partition
  · intro plan hplan id hid
    obtain ⟨group, hgroup, rfl⟩ := List.mem_map.mp (hsort.mem_iff.mp hplan)
    have hmem : id ∈ group.executionPathIds := (List.perm_insertionSort _ _).mem_iff.mp hid
    exact hmore _ (hcollects.sound group hgroup id hmem)

end Plans

section Routes

variable {services : CompilerServices} {catalog : Catalog} {graph : WorkflowGraph} {route : Lineage}
  {rank rank' : ℕ} {path path' : CompiledDraftPath}

/-- An accessor of the resources other than the sizing and the account. -/
def ReadsShared {α : Type} (f : ResourceConfiguration → Option α) : Prop :=
  (∀ sizing configuration, f (withSizing sizing configuration) = f configuration) ∧
    ∀ accountId, f (.account accountId) = none

theorem findSome?_resources (hshape : route.Shaped graph)
    (h : route.PathOf services catalog graph rank path) :
    ∃ before after, List.Forall₂ (ConfigurationOf catalog graph) route.before before ∧
      List.Forall₂ (ConfigurationOf catalog graph) route.after after ∧
      ∀ {α : Type} {f : ResourceConfiguration → Option α}, ReadsShared f →
        path.resources.findSome? f = (before ++ after).findSome? f := by
  obtain ⟨accountNodeId, configurations, hresources⟩ := h.resources
  obtain ⟨before, rest, hbefore, hrest, rfl⟩ := forall₂_append_left hresources.nodes
  obtain ⟨-, sizing, -, -, hpath⟩ := hresources.resources
  cases hrest with
  | @cons _ account _ after hacc hafter =>
    refine ⟨before, after, hbefore, hafter, ?_⟩
    intro α f hf
    have hkind : account.kind = .account := by
      have hnode := hshape.accounts accountNodeId (List.mem_of_getElem? hresources.node)
      simpa [hacc.kind] using hnode
    have hnone : f account = none := by
      cases account with
      | account accountId => exact hf.2 accountId
      | _ => cases hkind
    have hmap : f ∘ withSizing sizing = f := funext (hf.1 sizing)
    rw [hpath, List.findSome?_map, hmap, List.findSome?_append, List.findSome?_append,
      List.findSome?_cons, hnone]

theorem forall₂_unique {ids : List String} {left right : List ResourceConfiguration}
    (hleft : List.Forall₂ (ConfigurationOf catalog graph) ids left)
    (hright : List.Forall₂ (ConfigurationOf catalog graph) ids right) : left = right := by
  induction hleft generalizing right with
  | nil =>
    cases hright
    rfl
  | cons hconfig _ ih =>
    cases hright with
    | cons hconfig' hrest => rw [hconfig.unique hconfig', ih hrest]

theorem findSome?_eq_of_route (hshape : route.Shaped graph)
    (h : route.PathOf services catalog graph rank path)
    (h' : route.PathOf services catalog graph rank' path') {α : Type}
    {f : ResourceConfiguration → Option α} (hf : ReadsShared f) :
    path.resources.findSome? f = path'.resources.findSome? f := by
  obtain ⟨before, after, hbefore, hafter, hread⟩ := findSome?_resources hshape h
  obtain ⟨before', after', hbefore', hafter', hread'⟩ := findSome?_resources hshape h'
  rw [hread hf, hread' hf, forall₂_unique hbefore hbefore', forall₂_unique hafter hafter']

variable {left right : WorkflowExecutionPath}

theorem pathAllowsInput_eq_of_route (hshape : route.Shaped graph)
    (h : route.PathOf services catalog graph rank left.toCompiledDraftPath)
    (h' : route.PathOf services catalog graph rank' right.toCompiledDraftPath)
    (lower : String → String) (safeRegexTest : String → String → Outcome Bool)
    (text contentType : String) :
    pathAllowsInput lower safeRegexTest left text contentType =
      pathAllowsInput lower safeRegexTest right text contentType := by
  have hshared := fun {α : Type} {f : ResourceConfiguration → Option α} (hf : ReadsShared f) =>
    findSome?_eq_of_route hshape h h' hf
  have hcontn : CompiledResources.contentFilter left.resources =
      CompiledResources.contentFilter right.resources :=
    hshared ⟨fun _ c => by cases c <;> rfl, fun _ => rfl⟩
  have hkeyword : CompiledResources.keywordFilter left.resources =
      CompiledResources.keywordFilter right.resources :=
    hshared ⟨fun _ c => by cases c <;> rfl, fun _ => rfl⟩
  have hregex : CompiledResources.regex left.resources = CompiledResources.regex right.resources :=
    hshared ⟨fun _ c => by cases c <;> rfl, fun _ => rfl⟩
  simp only [pathAllowsInput, hcontn, hkeyword, hregex]

theorem signalPlanDefinition_eq_of_route (hshape : route.Shaped graph)
    (h : route.PathOf services catalog graph rank left.toCompiledDraftPath)
    (h' : route.PathOf services catalog graph rank' right.toCompiledDraftPath) :
    signalPlanDefinition left = signalPlanDefinition right := by
  have hshared := fun {α : Type} {f : ResourceConfiguration → Option α} (hf : ReadsShared f) =>
    findSome?_eq_of_route hshape h h' hf
  have hparser : CompiledResources.parser left.resources =
      CompiledResources.parser right.resources :=
    hshared ⟨fun _ c => by cases c <;> rfl, fun _ => rfl⟩
  have hschm : CompiledResources.schemaId left.resources =
      CompiledResources.schemaId right.resources :=
    hshared ⟨fun _ c => by cases c <;> rfl, fun _ => rfl⟩
  have hcontract : CompiledResources.contractVersionId left.resources =
      CompiledResources.contractVersionId right.resources :=
    hshared ⟨fun _ c => by cases c <;> rfl, fun _ => rfl⟩
  have hdedupe : CompiledResources.dedupe left.resources =
      CompiledResources.dedupe right.resources :=
    hshared ⟨fun _ c => by cases c <;> rfl, fun _ => rfl⟩
  simp only [signalPlanDefinition, hparser, hschm, hcontract, hdedupe, h.parser, h'.parser,
    h.schema, h'.schema, h.contract, h'.contract]

end Routes

section Execution

/-- The two errors of a selection that does not match the revision. -/
def staleSelection : List Thrown :=
  [.error "Workflow execution path selection is stale or invalid.",
    .error ("Workflow execution path selection is stale or invalid because a fallback " ++
      "chain is incomplete.")]

/-- A computation that does not refuse its selection. -/
def Accepted {α : Type} (x : Outcome α) : Prop := ∀ e, x = .error e → e ∉ staleSelection

variable {α β σ : Type}

theorem accepted_ok (a : α) : Accepted (.ok a : Outcome α) := by
  intro e h
  cases h

theorem accepted_error {e : Thrown} (h : e ∉ staleSelection) : Accepted (.error e : Outcome α) := by
  intro e' heq
  cases heq
  exact h

theorem Accepted.bind {x : Outcome α} {f : α → Outcome β} (hx : Accepted x)
    (hf : ∀ a, x = .ok a → Accepted (f a)) : Accepted (x >>= f) := by
  intro e h
  rcases bind_eq_error.mp h with herror | ⟨a, ha, herror⟩
  · exact hx e herror
  · exact hf a ha e herror

theorem accepted_throwIf {bad : Prop} [Decidable bad] {e : Thrown} (h : e ∉ staleSelection) :
    Accepted (throwIf bad e) := by
  intro e' heq
  obtain ⟨-, rfl⟩ := throwIf_eq_error.mp heq
  exact h

theorem accepted_foldlM {f : σ → α → Outcome σ} {as : List α} (hf : ∀ s a, Accepted (f s a))
    (s : σ) :
    Accepted (as.foldlM f s) := by
  induction as generalizing s with
  | nil => exact accepted_ok s
  | cons a as ih => exact (hf s a).bind (fun s' _ => ih s')

theorem accepted_mapM {f : α → Outcome β} {as : List α} (hf : ∀ a, Accepted (f a)) :
    Accepted (as.mapM f) := by
  induction as with
  | nil => exact accepted_ok []
  | cons a as ih =>
    rw [List.mapM_cons]
    exact (hf a).bind (fun _ _ => ih.bind (fun _ _ => accepted_ok _))

variable {services : Services} {request : WorkflowIntentInput} {workflow : WorkflowRevision}

theorem accepted_pathAllowsInput
    (hregex : ∀ pattern text, Accepted (services.safeRegexTest pattern text))
    (path : WorkflowExecutionPath) : Accepted (services.pathAllowsInput path request) := by
  unfold Services.pathAllowsInput pathAllowsInput
  dsimp only
  split_ifs
  · exact accepted_ok _
  split
  · exact accepted_ok _
  refine Accepted.bind ?_ (fun _ _ => accepted_ok _)
  unfold regexAllowsInput
  split
  · exact accepted_ok _
  split_ifs
  · exact accepted_ok _
  all_goals
    refine (accepted_mapM (fun pattern => hregex pattern _)).bind ?_
    intro results _
    split <;> exact accepted_ok _

theorem accepted_insertIntent (intent : TradingIntent) (db : Database) :
    Accepted (insertIntent intent db) := by
  refine (accepted_throwIf (by decide)).bind (fun _ _ => ?_)
  exact (accepted_throwIf (by decide)).bind (fun _ _ => accepted_ok _)

theorem accepted_processWorkflowIntentPath
    (hregex : ∀ pattern text, Accepted (services.safeRegexTest pattern text))
    (path : WorkflowExecutionPath) (runId : String) (db : Database) :
    Accepted (processWorkflowIntentPath services request workflow path runId db) := by
  refine (accepted_pathAllowsInput hregex path).bind (fun result _ => ?_)
  cases result with
  | filtered reason => exact accepted_ok _
  | allowed =>
    dsimp only
    split
    · exact accepted_ok _
    refine Accepted.bind ?_ (fun account _ => ?_)
    · unfold requiredAccount
      split
      · exact accepted_ok _
      · exact accepted_error (by decide)
    exact (accepted_insertIntent _ _).bind (fun _ _ => accepted_ok _)

theorem accepted_persistFallbackRouteGroup
    (hregex : ∀ pattern text, Accepted (services.safeRegexTest pattern text))
    (group : WorkflowRouteGroup) (runId : String) (db : Database) :
    Accepted (persistFallbackRouteGroup services request workflow group runId db) := by
  refine (accepted_throwIf (by decide)).bind (fun _ _ => ?_)
  dsimp only
  split
  · exact accepted_error (by decide)
  refine (accepted_foldlM ?_ _).bind (fun db _ => ?_)
  · intro db item
    unfold insertFallbackCandidate
    split_ifs
    · exact accepted_ok _
    · exact (accepted_throwIf (by decide)).bind (fun _ _ => accepted_ok _)
  split
  · refine (accepted_processWorkflowIntentPath hregex _ _ _).bind (fun result _ => ?_)
    split
    · exact accepted_ok _
    refine Accepted.bind ?_ (fun _ _ => accepted_ok _)
    exact (accepted_throwIf (by decide)).bind (fun _ _ => accepted_ok _)
  · exact accepted_ok _

theorem accepted_persistWorkflowTradingIntents
    (hregex : ∀ pattern text, Accepted (services.safeRegexTest pattern text))
    (groups : List WorkflowRouteGroup) (db : Database) :
    Accepted (persistWorkflowTradingIntents services request workflow groups db) := by
  unfold persistWorkflowTradingIntents
  dsimp only
  split
  · exact accepted_error (by decide)
  refine (accepted_foldlM ?_ _).bind (fun result _ => ?_)
  · intro state group
    unfold persistRouteGroup
    dsimp only
    split
    · exact accepted_error (by decide)
    refine (accepted_pathAllowsInput hregex _).bind (fun filter _ => ?_)
    cases filter with
    | filtered reason => exact accepted_ok _
    | allowed =>
      dsimp only
      split_ifs
      · exact (accepted_persistFallbackRouteGroup hregex _ _ _).bind (fun _ _ => accepted_ok _)
      · exact (accepted_processWorkflowIntentPath hregex _ _ _).bind (fun _ _ => accepted_ok _)
  · split <;> exact accepted_ok _

end Execution

section Agreement

variable {services : CompilerServices} {catalog : Catalog} {graph : WorkflowGraph}
  {routes : List Lineage} {compiled : List (List CompiledDraftPath × WorkflowRouteGroup)}
  {revision : WorkflowRevision} {planServices : PlanServices} {input : SignalPlanInput}
  {plans : List WorkflowSignalPlan} {group : WorkflowRouteGroup} {plan : WorkflowSignalPlan}

def PathOfCandidate (revision : WorkflowRevision) (candidate : WorkflowRouteCandidate)
    (path : WorkflowExecutionPath) : Prop := path ∈ revision.paths ∧ path.id = candidate.pathId

/-- Every group of which a path accepts the input has all its candidates enabled. -/
def CompleteChains (planServices : PlanServices) (input : SignalPlanInput)
    (revision : WorkflowRevision) : Prop :=
  ∀ group ∈ revision.routeGroups,
    (∃ candidate ∈ group.candidates, ∃ path, PathOfCandidate revision candidate path ∧
      accepts planServices input path = true) →
    ∀ candidate ∈ group.candidates, candidate.enabled = true

theorem path_unique (hlists : revision.ListsRoutes services catalog graph routes compiled)
    {path path' : WorkflowExecutionPath} (hpath : path ∈ revision.paths)
    (hpath' : path' ∈ revision.paths) (h : path.id = path'.id) : path = path' :=
  List.inj_on_of_nodup_map hlists.ids hpath hpath' h

theorem exists_route_of_group (hlists : revision.ListsRoutes services catalog graph routes compiled)
    (hgroup : group ∈ revision.routeGroups) :
    ∃ route : Lineage, route.Shaped graph ∧ ∀ candidate ∈ group.candidates,
      ∃ path, PathOfCandidate revision candidate path ∧ candidate.enabled = path.enabled ∧
        path.channelId = group.channelId ∧
        ∃ rank, route.PathOf services catalog graph rank path.toCompiledDraftPath := by
  rw [hlists.routeGroups] at hgroup
  obtain ⟨item, hitem, rfl⟩ := List.mem_map.mp hgroup
  obtain ⟨route, hroute, hcompiles⟩ := exists_left_of_forall₂ hlists.routes hitem
  refine ⟨route, hlists.shaped route hroute, ?_⟩
  intro candidate hcand
  obtain ⟨accountNodeId, draft, hdraft, rfl⟩ := hcompiles.exists_path hcand
  have hlisted : draft ∈ compiled.flatMap (·.1) := List.mem_flatMap.mpr ⟨item, hitem, hdraft⟩
  obtain ⟨path, hpath, rfl⟩ := List.mem_map.mp (hlists.paths.mem_iff.mpr hlisted)
  obtain ⟨rank, -, hof⟩ := exists_left_of_forall₂ hcompiles.paths hdraft
  exact ⟨path, ⟨hpath, rfl⟩, rfl, hcompiles.channelId _ hdraft, rank, hof⟩

theorem mem_plan_of_group (hlists : revision.ListsRoutes services catalog graph routes compiled)
    (hplans : PlansOf planServices input revision plans) (hplan : plan ∈ plans)
    (hgroup : group ∈ revision.routeGroups) {candidate other : WorkflowRouteCandidate}
    (hcand : candidate ∈ group.candidates) (hother : other ∈ group.candidates)
    (hmem : candidate.pathId ∈ plan.executionPathIds) :
    other.pathId ∈ plan.executionPathIds ↔ other.enabled = true := by
  obtain ⟨route, hshape, hroute⟩ := exists_route_of_group hlists hgroup
  obtain ⟨left, ⟨hleft, hleftId⟩, -, hleftChannel, _, hleftOf⟩ := hroute candidate hcand
  obtain ⟨right, ⟨hright, hrightId⟩, henabled, hrightChannel, _, hrightOf⟩ := hroute other hother
  obtain ⟨path, hpath, hacpts, hid, definition, hdefinition, hkey⟩ :=
    hplans.sound plan hplan _ hmem
  obtain rfl := path_unique hlists hpath hleft (hid.trans hleftId.symm)
  rw [henabled]
  refine ⟨?_, ?_⟩
  · intro hlisted
    obtain ⟨path', hpath', hacpts', hid', -⟩ := hplans.sound plan hplan _ hlisted
    obtain rfl := path_unique hlists hpath' hright (hid'.trans hrightId.symm)
    simp only [accepts, Bool.and_eq_true] at hacpts'
    exact hacpts'.1.2
  · intro hon
    have hfilt := pathAllowsInput_eq_of_route hshape hleftOf hrightOf planServices.lower
      planServices.safeRegexTest input.text input.contentType
    have hacpts' : accepts planServices input right = true := by
      simp only [accepts, Bool.and_eq_true, decide_eq_true_eq] at hacpts ⊢
      exact ⟨⟨hrightChannel.trans (hleftChannel.symm.trans hacpts.1.1), hon⟩,
        hfilt ▸ hacpts.2⟩
    have hlisted : right.id ∈ plans.flatMap (·.executionPathIds) :=
      hplans.partition.mem_iff.mpr
        (List.mem_map_of_mem (List.mem_filter.mpr ⟨hright, hacpts'⟩))
    obtain ⟨plan', hplan', hmem'⟩ := List.mem_flatMap.mp hlisted
    obtain ⟨path', hpath', -, hid', definition', hdefinition', hkey'⟩ :=
      hplans.sound plan' hplan' _ hmem'
    obtain rfl := path_unique hlists hpath' hright hid'
    rw [← signalPlanDefinition_eq_of_route hshape hleftOf hrightOf, hdefinition] at hdefinition'
    obtain rfl := Except.ok.inj hdefinition'
    obtain rfl := List.inj_on_of_nodup_map hplans.keys hplan hplan' (hkey.symm.trans hkey')
    exact hrightId ▸ hmem'

def planRequest (input : SignalPlanInput) (revision : WorkflowRevision) (plan : WorkflowSignalPlan)
    (sourceSignalId : String) (signal : ExecutableSignal) (receivedAt : Option ℤ) :
    WorkflowIntentInput :=
  { sourceSignalId
    channelId := input.channelId
    sourceText := input.text
    signal
    executionPathIds := some plan.executionPathIds
    contentType := some input.contentType
    workflowRevisionId := revision.id
    receivedAt }

/-- The groups that a plan touches have all their candidates enabled. -/
def PlanComplete (revision : WorkflowRevision) (plan : WorkflowSignalPlan) : Prop :=
  ∀ group ∈ revision.routeGroups,
    (∃ candidate ∈ group.candidates, candidate.pathId ∈ plan.executionPathIds) →
    ∀ candidate ∈ group.candidates, candidate.pathId ∈ plan.executionPathIds

theorem completeChains_iff (hlists : revision.ListsRoutes services catalog graph routes compiled)
    (hplans : PlansOf planServices input revision plans) :
    CompleteChains planServices input revision ↔
      ∀ plan ∈ plans, PlanComplete revision plan := by
  refine ⟨?_, ?_⟩
  · intro hchains plan hplan group hgroup htouched other hother
    obtain ⟨candidate, hcand, hmem⟩ := htouched
    obtain ⟨path, hpath, hacpts, hid, -⟩ := hplans.sound plan hplan _ hmem
    rw [mem_plan_of_group hlists hplans hplan hgroup hcand hother hmem]
    exact hchains group hgroup ⟨candidate, hcand, path, ⟨hpath, hid⟩, hacpts⟩ other hother
  · intro hcomp group hgroup htouched other hother
    obtain ⟨candidate, hcand, path, ⟨hpath, hid⟩, hacpts⟩ := htouched
    have hlisted : path.id ∈ plans.flatMap (·.executionPathIds) :=
      hplans.partition.mem_iff.mpr (List.mem_map_of_mem (List.mem_filter.mpr ⟨hpath, hacpts⟩))
    obtain ⟨plan, hplan, hmem⟩ := List.mem_flatMap.mp hlisted
    rw [hid] at hmem
    rw [← mem_plan_of_group hlists hplans hplan hgroup hcand hother hmem]
    exact hcomp plan hplan group hgroup ⟨candidate, hcand, hmem⟩ other hother

def selectedPaths (workflow : WorkflowRevision) (channelId : String) (ids : List String) :
    List WorkflowExecutionPath :=
  (workflow.paths.filter (·.channelId = channelId)).filter (·.id ∈ ids)

def selectedGroups (workflow : WorkflowRevision) (channelId : String) (ids : List String) :
    List WorkflowRouteGroup :=
  workflow.routeGroups.filter (fun group => group.channelId = channelId ∧
    group.candidates.any (fun candidate =>
      candidate.pathId ∈ (selectedPaths workflow channelId ids).map (·.id)))

theorem mem_selectedPaths (hplans : PlansOf planServices input revision plans)
    {plan : WorkflowSignalPlan} (hplan : plan ∈ plans) {id : String} :
    id ∈ (selectedPaths revision input.channelId plan.executionPathIds.dedup).map (·.id) ↔
      id ∈ plan.executionPathIds := by
  refine ⟨?_, ?_⟩
  · intro hid
    obtain ⟨path, hpath, rfl⟩ := List.mem_map.mp hid
    simpa using (List.mem_filter.mp hpath).2
  · intro hid
    obtain ⟨path, hpath, hacpts, rfl, -⟩ := hplans.sound plan hplan id hid
    simp only [accepts, Bool.and_eq_true, decide_eq_true_eq] at hacpts
    refine List.mem_map_of_mem (List.mem_filter.mpr ⟨List.mem_filter.mpr ⟨hpath, ?_⟩, ?_⟩)
    · simpa using hacpts.1.1
    · simpa using hid

theorem selectedPaths_length (hlists : revision.ListsRoutes services catalog graph routes compiled)
    (hplans : PlansOf planServices input revision plans) (hplan : plan ∈ plans) :
    (selectedPaths revision input.channelId plan.executionPathIds.dedup).length =
      plan.executionPathIds.dedup.length := by
  rw [← List.length_map (·.id)]
  refine List.Perm.length_eq ((List.perm_ext_iff_of_nodup ?_ (List.nodup_dedup _)).mpr ?_)
  · exact hlists.ids.sublist ((List.filter_sublist.trans List.filter_sublist).map _)
  · intro id
    rw [mem_selectedPaths hplans hplan, List.mem_dedup]

theorem create_of_selection {execution : Services} {request : WorkflowIntentInput} {db : Database}
    {ids : List String} (hids : request.executionPathIds = some ids)
    (hid : request.workflowRevisionId ≠ "")
    (hstored : db.revisions.find request.workflowRevisionId = some revision)
    (hlen : (selectedPaths revision request.channelId ids.dedup).length = ids.dedup.length) :
    createWorkflowTradingIntents execution request db =
      if (selectedPaths revision request.channelId ids.dedup).isEmpty then .ok ([], db)
      else throwIf ((selectedGroups revision request.channelId ids.dedup).any (fun group =>
          group.candidates.any (fun candidate => candidate.pathId ∉ ids.dedup)))
          (.error ("Workflow execution path selection is stale or invalid because a fallback " ++
            "chain is incomplete.")) >>= fun _ =>
        persistWorkflowTradingIntents execution request revision
          (selectedGroups revision request.channelId ids.dedup) db := by
  unfold createWorkflowTradingIntents
  simp only [hids, hstored]
  rw [show throwIf (request.workflowRevisionId = "") _ = .ok () from throwIf_of_not hid _, ok_bind]
  rw [show throwIf _ _ = Except.ok () from throwIf_of_not _ _, ok_bind]
  · rfl
  · simpa [selectedPaths] using hlen

/-- The execution of a plan refuses its selection exactly when a group is incomplete. -/
theorem accepted_create_iff (hlists : revision.ListsRoutes services catalog graph routes compiled)
    (hplans : PlansOf planServices input revision plans) (hplan : plan ∈ plans)
    {execution : Services} {db : Database}
    (hregex : ∀ pattern text, Accepted (execution.safeRegexTest pattern text))
    (hid : revision.id ≠ "") (hstored : db.revisions.find revision.id = some revision)
    (sourceSignalId : String) (signal : ExecutableSignal) (receivedAt : Option ℤ) :
    Accepted (createWorkflowTradingIntents execution
      (planRequest input revision plan sourceSignalId signal receivedAt) db) ↔
      PlanComplete revision plan := by
  have hsel := fun {id} => @mem_selectedPaths _ _ _ _ hplans _ hplan id
  rw [@create_of_selection _ _
    (planRequest input revision plan sourceSignalId signal receivedAt) _ _
    rfl hid hstored (selectedPaths_length hlists hplans hplan)]
  split_ifs with hempty
  · refine iff_of_true (accepted_ok _) ?_
    intro group _ htouched
    obtain ⟨candidate, -, hmem⟩ := htouched
    have hnil : selectedPaths revision input.channelId plan.executionPathIds.dedup = [] :=
      List.isEmpty_iff.mp hempty
    simp [← hsel, hnil] at hmem
  · have hgrps : ∀ group, group ∈ selectedGroups revision input.channelId
        plan.executionPathIds.dedup ↔ group ∈ revision.routeGroups ∧
          ∃ candidate ∈ group.candidates, candidate.pathId ∈ plan.executionPathIds := by
      intro group
      simp only [selectedGroups, List.mem_filter, decide_eq_true_eq, List.any_eq_true, hsel]
      refine and_congr_right (fun hgroup => and_iff_right_of_imp ?_)
      intro htouched
      obtain ⟨candidate, hcand, hmem⟩ := htouched
      obtain ⟨route, -, hroute⟩ := exists_route_of_group hlists hgroup
      obtain ⟨path, ⟨hpath, hpathId⟩, -, hchan, -⟩ := hroute candidate hcand
      obtain ⟨path', hpath', hacpts, hpathId', -⟩ := hplans.sound plan hplan _ hmem
      obtain rfl := path_unique hlists hpath' hpath (hpathId'.trans hpathId.symm)
      simp only [accepts, Bool.and_eq_true, decide_eq_true_eq] at hacpts
      exact hchan.symm.trans hacpts.1.1
    have hincomplete : ((selectedGroups revision input.channelId plan.executionPathIds.dedup).any
        (fun group => group.candidates.any
          (fun candidate => candidate.pathId ∉ plan.executionPathIds.dedup))) = true ↔
        ¬ PlanComplete revision plan := by
      simp only [List.any_eq_true, hgrps, PlanComplete, decide_eq_true_eq, List.mem_dedup]
      push Not
      exact exists_congr (fun group => and_assoc)
    by_cases hcomp : PlanComplete revision plan
    · refine iff_of_true ?_ hcomp
      refine Accepted.bind ?_ (fun _ _ => accepted_persistWorkflowTradingIntents hregex _ db)
      intro e he
      exact absurd hcomp (hincomplete.mp (throwIf_eq_error.mp he).1)
    · refine iff_of_false ?_ hcomp
      intro hacpt
      refine hacpt _ (bind_eq_error.mpr (.inl (throwIf_eq_error.mpr
        ⟨hincomplete.mpr hcomp, rfl⟩))) (by decide)

end Agreement

section Executable

variable {revisionServices : RevisionServices} {catalog : Catalog} {fuel : ℕ}
  {saved : RevisionInput} {before after db : Database} {revision : WorkflowRevision}
  {planServices : PlanServices} {input : SignalPlanInput} {plans : List WorkflowSignalPlan}
  {execution : Services}

/-- The plans of a saved revision partition the accepting paths, and no plan is refused as a
selection, exactly when every touched chain is complete. -/
theorem signalPlans_executable_iff
    (hsave : saveWorkflowRevision revisionServices catalog fuel saved before =
      .ok (revision, after))
    (hid : revision.id ≠ "") (hstored : db.revisions.find revision.id = some revision)
    (hinput : input.workflowRevisionId = .revision revision.id)
    (hplans : getWorkflowSignalPlans planServices input db = .ok plans)
    (hregex : ∀ pattern text, Accepted (execution.safeRegexTest pattern text))
    (sourceSignalId : String) (signal : ExecutableSignal) (receivedAt : Option ℤ) :
    ((plans.flatMap (·.executionPathIds)).Perm
        ((revision.paths.filter (accepts planServices input)).map (·.id)) ∧
      (plans.flatMap (·.executionPathIds)).Nodup ∧
      ∀ plan ∈ plans, ∀ e, createWorkflowTradingIntents execution
        (planRequest input revision plan sourceSignalId signal receivedAt) db = .error e →
        e ∉ staleSelection) ↔
      CompleteChains planServices input revision := by
  obtain ⟨graph, routes, compiled, hlists⟩ := listsRoutes_of_save hsave
  have hof : PlansOf planServices input revision plans := by
    rw [getWorkflowSignalPlans, hinput] at hplans
    simp only [hstored] at hplans
    exact workflowSignalPlans_ok hplans
  have hnodup : (plans.flatMap (·.executionPathIds)).Nodup :=
    hof.partition.nodup_iff.mpr (hlists.ids.sublist (List.filter_sublist.map _))
  rw [completeChains_iff hlists hof, and_iff_right hof.partition, and_iff_right hnodup]
  refine forall₂_congr ?_
  intro plan hplan
  exact accepted_create_iff hlists hof hplan hregex hid hstored sourceSignalId signal receivedAt

end Executable

section DisabledAccount

/-- Two accounts, of which the second may be disabled. -/
def pairedCatalog (enabled : Bool) : Catalog :=
  { sharedCatalog with
    resources := sharedCatalog.resources.map (fun resource =>
      if resource.id = "second" then
        sharedResource "second" (.account "other") "\x7b\"accountId\":\"other\"\x7d"
      else resource)
    account := fun id => some ⟨id = "account" ∨ enabled, .ready⟩ }

def pairedServices : RevisionServices :=
  { sharedServices with
    localeLe := fun left right => left ≤ right
    revisionId := "revision"
    pathDefinition := fun _ => "" }

def disabledPlanServices : PlanServices where
  definitionSha256 definition := definition.templateName
  localeLe left right := left ≤ right
  lower := id
  safeRegexTest _ _ := .ok true

def disabledInput : SignalPlanInput := ⟨"channel", "BUY", "text", .revision "revision"⟩

def pairedPath (key account : String) (accountNodes : List String) (rank : ℕ)
    (reasons : List WorkflowFallbackReason) (enabled : Bool) : CompiledDraftPath where
  id := sharedGroupKey ++ toString rank
  pathKey := key
  channelId := "channel"
  accountId := account
  strategyVersionId := "strategy"
  parserResourceVersionId := some "parser"
  schemaResourceVersionId := some "schema"
  contractResourceVersionId := some "contract"
  sizingResourceVersionId := some "sizing"
  adaptiveRiskResourceVersionId := none
  routeGroupKey := sharedGroupKey
  fallbackRank := rank
  fallbackOn := reasons
  nodeIds := sharedNodes ++ accountNodes
  resources := [.channel "channel", .parser ⟨"parser", none, 1000, none, none⟩, .schema "schema",
    .contract "contract", .strategy "strategy", .sizing sharedSizing, .account account]
  strategyConfiguration := ⟨["schema"], [], [.long], ⟨.market, .near, false, 60⟩, sharedSizing,
    ⟨none, ["100"], none⟩, ⟨"1", 60⟩⟩
  enabled := enabled

def pairedCompiled (enabled : Bool) : CompileState where
  paths := [pairedPath firstPathKey "account" ["first"] 0 [.symbolUnavailable] true,
    pairedPath otherPathKey "other" ["first", "second"] 1 [] enabled]
  routeGroups := [⟨sharedGroupKey, "channel", "channel", sharedGroupKey ++ toString 0,
    [⟨sharedGroupKey ++ toString 0, "account", "first", 0, true, [.symbolUnavailable]⟩,
      ⟨sharedGroupKey ++ toString 1, "other", "second", 1, enabled, []⟩]⟩]
  warnings := []

set_option maxRecDepth 100000 in
theorem compileWorkflow_paired (enabled : Bool) :
    compileWorkflow sharedServices (pairedCatalog enabled) 20 sharedWorkflow =
      .ok (pairedCompiled enabled) := by
  cases enabled with
  | false => cbv
  | true => cbv

theorem activateCompiledWorkflowRevision_eq {services : RevisionServices} {compiled : CompileState}
    {db : Database} (hids : (compiled.paths.map (·.id)).Nodup)
    (hkeys : (compiled.paths.map (·.pathKey)).Nodup) (hempty : db.revisions.rows = []) :
    activateCompiledWorkflowRevision services compiled db =
      .ok (storedRevision services compiled, { db with
        revisions := (db.revisions.insert (storedRevision services compiled)).2,
        activeRevisionId := some services.revisionId }) := by
  have hpaths : ((storedRevision services compiled).paths.map (·.toCompiledDraftPath)).Perm
      compiled.paths := paths_storedRevision compiled
  have hnew : db.revisions.find (storedRevision services compiled).id = none := by
    rw [Keyed.find_eq_none, hempty]
    simp
  have hfresh : ∀ id, db.executionPath id = none := by
    intro id
    simp [Database.executionPath, Database.executionPaths, hempty]
  have hids' := (hpaths.map (·.id)).nodup_iff.mpr hids
  have hkeys' := (hpaths.map (·.pathKey)).nodup_iff.mpr hkeys
  rw [List.map_map] at hids' hkeys'
  rw [activateCompiledWorkflowRevision, throwOn, throwIf_of_not, ok_bind]
  · rfl
  · simp only [hnew, hfresh, not_or, not_not]
    exact ⟨by simp, hids', hkeys', by simp⟩

def pairedSave (enabled : Bool) (db : Database) : Compiled (WorkflowRevision × Database) :=
  saveWorkflowRevision pairedServices (pairedCatalog enabled) 20
    ⟨none, sharedGraph, some WORKFLOW_IMPACT_CONFIRMATION⟩ db

def pairedRevision (enabled : Bool) : WorkflowRevision :=
  storedRevision pairedServices (pairedCompiled enabled)

def savedDatabase (enabled : Bool) (db : Database) : Database :=
  { db with
    revisions := (db.revisions.insert (pairedRevision enabled)).2
    activeRevisionId := some "revision" }

theorem pairedSave_eq (enabled : Bool) {db : Database} (hempty : db.revisions.rows = [])
    (hactive : db.activeRevisionId = none) :
    pairedSave enabled db = .ok (pairedRevision enabled, savedDatabase enabled db) := by
  have hgraph : lift (validateGraph pairedServices.localeLe sharedGraph) = .ok sharedWorkflow := by
    rw [pairedServices, sharedGraph_valid]
    rfl
  have hactivate := @activateCompiledWorkflowRevision_eq pairedServices (pairedCompiled enabled) db
    (by cases enabled <;> decide +kernel) (by cases enabled <;> decide +kernel) hempty
  rw [pairedSave, saveWorkflowRevision, hgraph, ok_bind]
  change (compileWorkflow sharedServices (pairedCatalog enabled) 20 sharedWorkflow >>= _) = _
  rw [compileWorkflow_paired, ok_bind, throwOn, throwIf_of_not (by simp [hactive]), ok_bind]
  dsimp only
  rw [throwOn, throwIf_of_not (by simp), ok_bind]
  exact hactivate

def emptyDatabase : Database :=
  ⟨.empty, none, .empty, ⟨false, true, false⟩, .empty, .empty, .empty, .empty⟩

/-- The only plan of a channel is refused. -/
def refusesPlan (revision : WorkflowRevision) (db : Database) : Bool :=
  match getWorkflowSignalPlans disabledPlanServices disabledInput db with
  | .ok [plan] =>
    match createWorkflowTradingIntents exampleServices
        (planRequest disabledInput revision plan "signal" exampleSignal none) db with
    | .error e => e ∈ staleSelection
    | .ok _ => false
  | _ => false

theorem exists_of_refusesPlan {revision : WorkflowRevision} {db : Database}
    (h : refusesPlan revision db = true) : ∃ plan e,
    getWorkflowSignalPlans disabledPlanServices disabledInput db = .ok [plan] ∧
    createWorkflowTradingIntents exampleServices
      (planRequest disabledInput revision plan "signal" exampleSignal none) db = .error e ∧
    e ∈ staleSelection := by
  unfold refusesPlan at h
  split at h
  · rename_i plan hplans
    split at h
    · rename_i e herror
      exact ⟨plan, e, hplans, herror, of_decide_eq_true h⟩
    · cases h
  · cases h

theorem refusesPlan_disabled :
    refusesPlan (pairedRevision false) (savedDatabase false emptyDatabase) = true := by
  decide +kernel

/-- The disabled account leaves its chain incomplete. -/
theorem disabled_account_incomplete :
    pairedSave false emptyDatabase = .ok (pairedRevision false, savedDatabase false emptyDatabase) ∧
      ¬ CompleteChains disabledPlanServices disabledInput (pairedRevision false) := by
  obtain ⟨plan, e, hplans, herror, he⟩ := exists_of_refusesPlan refusesPlan_disabled
  have hsave := @pairedSave_eq false emptyDatabase rfl rfl
  refine ⟨hsave, ?_⟩
  intro hcomp
  have hacpts : ∀ pattern text, Accepted (exampleServices.safeRegexTest pattern text) := by
    intro pattern text
    exact accepted_ok true
  obtain ⟨-, -, hacpt⟩ := (signalPlans_executable_iff hsave (by decide) (by rfl) rfl
    hplans hacpts "signal" exampleSignal none).mpr hcomp
  exact hacpt plan List.mem_cons_self e herror he

/-- The only plan of the channel is refused, because the second account is disabled. -/
theorem disabled_account_refuses_plan :
    ∃ services catalog fuel saved before revision db planServices
    input plans plan execution e,
    saveWorkflowRevision services catalog fuel saved before = .ok (revision, db) ∧
      getWorkflowSignalPlans planServices input db = .ok plans ∧ plan ∈ plans ∧
      createWorkflowTradingIntents execution
        (planRequest input revision plan "signal" exampleSignal none) db = .error e ∧
      e ∈ staleSelection := by
  obtain ⟨plan, e, hplans, herror, he⟩ := exists_of_refusesPlan refusesPlan_disabled
  exact ⟨_, _, _, _, _, _, _, disabledPlanServices, disabledInput, [plan], plan,
    exampleServices, e, @pairedSave_eq false emptyDatabase rfl rfl, hplans,
    List.mem_cons_self, herror, he⟩

end DisabledAccount

end TsxCore.Workflow
