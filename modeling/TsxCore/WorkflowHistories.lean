import TsxCore.SignalPlanAgreement

/-!
# Fallback runs of saved workflows

The histories of fallback runs take well-formed revisions for granted. A history whose
revisions are what `saveWorkflowRevision` compiles from its graphs is one of them.
-/

namespace TsxCore.Workflow

open Outcome

/-- A save of a graph, or any other event of the fallback runs. -/
inductive SystemEvent
  | saveWorkflowRevision (services : RevisionServices) (catalog : Catalog) (fuel : ℕ)
      (input : RevisionInput)
  | other (event : Event) (compiled : ∀ revision h, event ≠ .saveRevision revision h)

def systemStep (db : Database) : SystemEvent → Option Database
  | .saveWorkflowRevision services catalog fuel input =>
    match Workflow.saveWorkflowRevision services catalog fuel input db with
    | .ok (_, next) => some next
    | .error _ => some db
  | .other event _ => step db event

theorem systemStep_of_save {services : RevisionServices} {catalog : Catalog} {fuel : ℕ}
    {input : RevisionInput} {db next : Database} {revision : WorkflowRevision}
    (h : Workflow.saveWorkflowRevision services catalog fuel input db = .ok (revision, next)) :
    systemStep db (.saveWorkflowRevision services catalog fuel input) = some next := by
  simp only [systemStep, h]

theorem systemStep_simulates {db next : Database} {event : SystemEvent}
    (hsha : ∀ services catalog fuel input,
      event = .saveWorkflowRevision services catalog fuel input →
        Function.Injective services.sha256)
    (h : systemStep db event = some next) : ∃ trace, Trace.run step db trace = some next := by
  cases event with
  | saveWorkflowRevision services catalog fuel input =>
    simp only [systemStep] at h
    split at h
    · rename_i revision saved hsave
      obtain rfl := Option.some.inj h
      exact ⟨[_], Trace.run_singleton.mpr (step_of_save (hsha _ _ _ _ rfl) hsave)⟩
    · exact ⟨[], h⟩
  | other event => exact ⟨[event], Trace.run_singleton.mpr h⟩

/-- Whatever graphs are saved in between, a run of a saved workflow exposes one account at most. -/
theorem saved_workflows_expose_one_account {events : List SystemEvent} {db : Database}
    (hsha : ∀ services catalog fuel input,
      .saveWorkflowRevision services catalog fuel input ∈ events →
        Function.Injective services.sha256)
    (h : Trace.run systemStep .empty events = some db) :
    (∃ trace, Trace.run step .empty trace = some db) ∧
      (∀ revision ∈ db.revisions.rows, revision.WellFormed) ∧
      ∀ id run, db.runs.find id = some run → SingleExposure run (db.candidate id) := by
  have htrace : ∃ trace, Trace.run step .empty trace = some db := by
    refine Trace.run_preserves (P := fun middle => ∃ trace, Trace.run step .empty trace =
      some middle)
      ?_ ⟨[], rfl⟩ h
    rintro middle event next hevent ⟨trace, htrace⟩ hstep
    obtain ⟨last, hlast⟩ := systemStep_simulates
      (fun _ _ _ _ heq => hsha _ _ _ _ (heq ▸ hevent)) hstep
    exact ⟨trace ++ last, Trace.run_append.mpr ⟨middle, htrace, hlast⟩⟩
  obtain ⟨trace, hrun⟩ := htrace
  have hsound := (run_safe sound_empty hrun).sound
  exact ⟨⟨trace, hrun⟩, hsound.wellFormed,
    fun id run hfind => ((hsound.every id).run run hfind).singleExposure⟩

section Paired

open DigestTable (digestOf unlisted)

def pairedExecution : Services :=
  { exampleServices with
    sha256 := digestOf id
      [("text", "982d9e3eb996f559e633f4d194def3761d909f5a3b647d1a851fead67c32c9d1")] unlisted }

def pairedRequest : WorkflowIntentInput :=
  ⟨"signal", "channel", "text", exampleSignal, none, none, "revision", none⟩

/-- Both accounts are ready and entries are allowed. -/
def pairedStart : Database :=
  { emptyDatabase with
    accounts := ⟨[⟨"account", "paper", .paper, .ready, true, false⟩,
      ⟨"other", "paper", .paper, .ready, true, false⟩], by decide⟩ }

def pairedEnd : Database :=
  settle (savedDatabase true pairedStart)
    (createWorkflowTradingIntents pairedExecution pairedRequest
    (savedDatabase true pairedStart))

/-- The save of a channel with two accounts, and a signal of the channel. -/
def pairedEvents : List SystemEvent :=
  [.other (.accounts pairedStart.accounts) (by simp), .other (.runtime ⟨false, true, false⟩)
    (by simp),
    .saveWorkflowRevision pairedServices (pairedCatalog true) 20
      ⟨none, sharedGraph, some WORKFLOW_IMPACT_CONFIRMATION⟩,
    .other (.createWorkflowTradingIntents pairedExecution pairedRequest) (by simp)]

theorem run_pairedEvents : Trace.run systemStep .empty pairedEvents = some pairedEnd := by
  have hsave : pairedSave true pairedStart =
      .ok (pairedRevision true, savedDatabase true pairedStart) := pairedSave_eq true rfl rfl
  refine Trace.run_cons.mpr ⟨{ pairedStart with runtime := Database.empty.runtime }, rfl, ?_⟩
  refine Trace.run_cons.mpr ⟨pairedStart, rfl, ?_⟩
  refine Trace.run_cons.mpr ⟨savedDatabase true pairedStart, systemStep_of_save hsave, ?_⟩
  exact Trace.run_singleton.mpr rfl

/-- The first account of the signal's run is asked, and no other. -/
theorem saved_workflows_expose_one_account_paired :
    Trace.run systemStep .empty pairedEvents = some pairedEnd ∧
      (∃ trace, Trace.run step .empty trace = some pairedEnd) ∧
      (∀ revision ∈ pairedEnd.revisions.rows, revision.WellFormed) ∧
      ∃ run, pairedEnd.runs.find ("run-" ++ sharedGroupKey) = some run ∧ run.status = .probing ∧
        SingleExposure run (pairedEnd.candidate ("run-" ++ sharedGroupKey)) := by
  have hprobing : (pairedEnd.runs.find ("run-" ++ sharedGroupKey)).map (·.status) =
      some .probing := by
    decide +kernel
  obtain ⟨run, hrun, hstatus⟩ := Option.map_eq_some_iff.mp hprobing
  have hsha : ∀ services catalog fuel input,
      .saveWorkflowRevision services catalog fuel input ∈ pairedEvents →
        Function.Injective services.sha256 := by
    intro services catalog fuel input hmem
    simp only [pairedEvents, List.mem_cons, reduceCtorEq, SystemEvent.saveWorkflowRevision.injEq,
      List.not_mem_nil, or_false, false_or] at hmem
    obtain ⟨rfl, -⟩ := hmem
    exact injective_sharedServices
  obtain ⟨htrace, hformed, hexposed⟩ := saved_workflows_expose_one_account hsha run_pairedEvents
  exact ⟨run_pairedEvents, htrace, hformed, run, hrun, hstatus, hexposed _ run hrun⟩

end Paired

end TsxCore.Workflow
