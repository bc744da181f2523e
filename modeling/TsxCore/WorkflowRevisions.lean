import TsxCore.WorkflowCorrectness
import TsxCore.WorkflowFallbackExposure

/-!
# Saving a workflow revision (`saveWorkflowRevision` in `workflow_repository.ts`)

Path keys are hexadecimal, so that the order in which the paths are stored is that
in which they are read back. The builder history is left out. What a saved
revision has is what the fallback runs expect of one.
-/

namespace TsxCore.Workflow

open Outcome

def WORKFLOW_IMPACT_CONFIRMATION : String := "ACTIVATE WORKFLOW IMPACT"

structure RevisionInput where
  baseRevisionId : Option String
  graph : GraphCandidate
  confirmation : Option String

/-- `pathDefinition` is the hash of the members of a path that decide about a change. -/
structure RevisionServices extends CompilerServices where
  localeLe : String → String → Bool
  revisionId : String
  pathDefinition : CompiledDraftPath → String

section Saving

variable (services : RevisionServices) (catalog : Catalog)

def pathIdentity (path : CompiledDraftPath) : String × String × List String :=
  (path.channelId, path.accountId, path.nodeIds)

def pathWith (paths : List CompiledDraftPath) (identity : String × String × List String) :
    Option CompiledDraftPath :=
  paths.reverse.find? (fun path => pathIdentity path = identity)

def destructive (current candidate : List CompiledDraftPath) : Bool :=
  candidate.any (fun path => (pathWith current (pathIdentity path)).map services.pathDefinition ≠
      (pathWith candidate (pathIdentity path)).map services.pathDefinition) ||
    current.any (fun path => (pathWith candidate (pathIdentity path)).isNone)

def storedRevision (compiled : CompileState) : WorkflowRevision where
  id := services.revisionId
  paths := (compiled.paths.map (fun path => WorkflowExecutionPath.mk path services.revisionId))
    |>.insertionSort (fun left right => services.localeLe left.pathKey right.pathKey)
  routeGroups := compiled.routeGroups

/-- The rows of the revision, with their unique keys. -/
def activateCompiledWorkflowRevision (compiled : CompileState) (db : Database) :
    Compiled (WorkflowRevision × Database) := do
  let revision := storedRevision services compiled
  throwOn ((db.revisions.find revision.id).isSome ∨ ¬ (revision.paths.map (·.id)).Nodup ∨
    ¬ (revision.paths.map (·.pathKey)).Nodup ∨
    revision.paths.any (fun path => (db.executionPath path.id).isSome)) "UNIQUE constraint failed"
  pure (revision, { db with
    revisions := (db.revisions.insert revision).2, activeRevisionId := some revision.id })

def saveWorkflowRevision (fuel : ℕ) (input : RevisionInput) (db : Database) :
    Compiled (WorkflowRevision × Database) := do
  let graph ← lift (validateGraph services.localeLe input.graph)
  let compiled ← compileWorkflow services.toCompilerServices catalog fuel graph
  throwOn (db.activeRevisionId ≠ input.baseRevisionId) "WORKFLOW_REVISION_CONFLICT"
  let activePaths := (db.activeWorkflow.elim [] WorkflowRevision.paths).map (·.toCompiledDraftPath)
  throwOn (destructive services activePaths compiled.paths = true ∧
    input.confirmation ≠ some WORKFLOW_IMPACT_CONFIRMATION) "WORKFLOW_IMPACT_CONFIRMATION_REQUIRED"
  activateCompiledWorkflowRevision services compiled db

end Saving

section Saved

variable {services : RevisionServices} {catalog : Catalog} {fuel : ℕ} {input : RevisionInput}
  {db db' : Database} {revision : WorkflowRevision}

theorem paths_storedRevision (compiled : CompileState) :
    ((storedRevision services compiled).paths.map (·.toCompiledDraftPath)).Perm compiled.paths := by
  refine ((List.perm_insertionSort _ _).map _).trans (List.Perm.of_eq ?_)
  rw [List.map_map]
  exact List.map_id _

theorem saveWorkflowRevision_ok
    (h : saveWorkflowRevision services catalog fuel input db = .ok (revision, db')) :
    ∃ graph compiled, validateGraph services.localeLe input.graph = .ok graph ∧
      compileWorkflow services.toCompilerServices catalog fuel graph = .ok compiled ∧
      revision = storedRevision services compiled ∧ (revision.paths.map (·.id)).Nodup ∧
      db.revisions.find revision.id = none ∧
      (∀ path ∈ revision.paths, db.executionPath path.id = none) ∧
      db' = { db with
        revisions := (db.revisions.insert revision).2, activeRevisionId := some revision.id } := by
  simp only [saveWorkflowRevision, activateCompiledWorkflowRevision, bind_eq_ok, lift_eq_ok,
    throwOn, throwIf_eq_ok, not_or, not_not, pure_eq_ok_iff, Prod.mk.injEq] at h
  obtain ⟨graph, hgraph, compiled, hcompd, -, -, -, -, -, ⟨hnew, hids, -, hpaths⟩, rfl, rfl⟩ := h
  refine ⟨graph, compiled, hgraph, hcompd, rfl, hids, by simpa using hnew, ?_, rfl⟩
  simpa using hpaths

/-- A saved revision lists the paths and the groups of the routes of its graph. -/
structure WorkflowRevision.ListsRoutes (services : CompilerServices) (catalog : Catalog)
    (graph : WorkflowGraph) (revision : WorkflowRevision) (routes : List Lineage)
    (compiled : List (List CompiledDraftPath × WorkflowRouteGroup)) : Prop where
  shaped : ∀ route ∈ routes, route.Shaped graph
  routes : List.Forall₂ (Lineage.CompilesTo services catalog graph) routes compiled
  paths : (revision.paths.map (·.toCompiledDraftPath)).Perm (compiled.flatMap (·.1))
  routeGroups : revision.routeGroups = compiled.map (·.2)
  ids : (revision.paths.map (·.id)).Nodup

theorem listsRoutes_of_save
    (h : saveWorkflowRevision services catalog fuel input db = .ok (revision, db')) :
    ∃ graph routes compiled, revision.ListsRoutes services.toCompilerServices catalog graph routes
      compiled := by
  obtain ⟨graph, result, hgraph, hres, rfl, hids, -⟩ := saveWorkflowRevision_ok h
  have hvalid := validateGraph_valid hgraph
  obtain ⟨hasc, -, routes, compiled, -, hmem, hcompd, hpaths, hgrps⟩ :=
    compileWorkflow_ok hvalid hres
  rw [List.nil_append] at hpaths hgrps
  refine ⟨graph, routes, compiled, ?_, hcompd, ?_, hgrps, hids⟩
  · exact fun route hroute => ((hmem route).mp hroute).shaped hvalid hasc
  · exact hpaths ▸ paths_storedRevision result

theorem wellFormed_of_save (hsha : Function.Injective services.sha256)
    (h : saveWorkflowRevision services catalog fuel input db = .ok (revision, db')) :
    revision.WellFormed := by
  obtain ⟨graph, routes, compiled, hlists⟩ := listsRoutes_of_save h
  obtain ⟨graph, result, hgraph, hres, rfl, -⟩ := saveWorkflowRevision_ok h
  have hkeys := ((compileWorkflow_correct hgraph hsha).2 fuel result hres).2.2.1
  refine ⟨?_, (List.nodup_append.mp hkeys).1⟩
  intro group hgroup
  rw [hlists.routeGroups] at hgroup
  obtain ⟨item, hitem, rfl⟩ := List.mem_map.mp hgroup
  obtain ⟨route, -, hcompiles⟩ := exists_left_of_forall₂ hlists.routes hitem
  refine hcompiles.wellFormed ?_
  have hids : ((compiled.flatMap (·.1)).map (·.id)).Nodup := by
    rw [← (hlists.paths.map (·.id)).nodup_iff, List.map_map]
    exact hlists.ids
  rw [List.map_flatMap] at hids
  exact (List.nodup_flatMap.mp hids).1 item hitem

theorem step_of_save (hsha : Function.Injective services.sha256)
    (h : saveWorkflowRevision services catalog fuel input db = .ok (revision, db')) :
    step db (.saveRevision revision (wellFormed_of_save hsha h)) = some db' := by
  obtain ⟨-, -, -, -, -, -, hnew, hpaths, rfl⟩ := saveWorkflowRevision_ok h
  have hold : revision.paths.any (fun path => (db.executionPath path.id).isSome) = false := by
    simpa using hpaths
  simp [step, hnew, hold]

end Saved

end TsxCore.Workflow
