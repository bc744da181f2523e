import TsxCore.WorkflowSignalRuns

/-!
# Replays and outcomes of a signal

After the first call for a signal its rows keep their identity, so a replay finds all of
them and adds none. The status is computed twice in the source: from the intents as they
are when a call comes, and from the fallback runs alone.
-/

namespace TsxCore.Workflow

open Outcome

structure Fresh (request : WorkflowIntentInput) (workflow : WorkflowRevision)
    (db : Database) : Prop where
  sound : Sound db
  signalRuns : ∀ row ∈ db.signalRuns.rows,
    ¬ (row.sourceSignalId = request.sourceSignalId ∧ row.workflowRevisionId = workflow.id)
  fallbackRuns : signalFallbackRuns request workflow db = []
  /-- The foreign key of a fallback run to its signal run. -/
  references : ∀ run ∈ db.runs.rows, (db.signalRuns.find run.signalRunId).isSome
  intents : ∀ path ∈ workflow.paths, pathIntent request path db = none

/-- The rows of the signal, found by what identifies them. -/
structure Booked (services : Services) (request : WorkflowIntentInput) (workflow : WorkflowRevision)
    (runId : String) (first db : Database) : Prop where
  sound : Sound db
  revision : db.revisions.find workflow.id = some workflow
  stored : (db.signalRuns.find runId).isSome
  row : ∀ row ∈ db.signalRuns.rows,
    (row.sourceSignalId = request.sourceSignalId ∧ row.workflowRevisionId = workflow.id) ↔
      row.id = runId
  runs : ∀ run ∈ db.runs.rows, run.signalRunId = runId ↔
    (run.sourceSignalId = request.sourceSignalId ∧ run.workflowRevisionId = workflow.id)
  keys : (signalFallbackRuns request workflow db).map (·.routeGroupKey) =
    ((requestGroups request workflow).filter (fun g =>
      admission services request workflow first g = .fallback)).map (·.key)
  judged : ∀ g ∈ requestGroups request workflow, ∃ primary verdict,
    workflow.paths.find? (·.id = g.primaryPathId) = some primary ∧
      services.pathAllowsInput primary request = .ok verdict
  intents : ∀ g ∈ requestGroups request workflow, ∀ primary,
    workflow.paths.find? (·.id = g.primaryPathId) = some primary →
      services.pathAllowsInput primary request = .ok .allowed →
        (pathIntent request primary db).isSome

def Shows (db : Database) (runId status : String) : Prop :=
  ∃ row, db.signalRuns.find runId = some row ∧ row.status = status

/-- The rows of signal runs keep their columns, the status and the result apart. -/
def WorkflowSignalRun.identity (row : WorkflowSignalRun) : String × String × String :=
  (row.id, row.sourceSignalId, row.workflowRevisionId)

/-- The columns of a fallback run that no statement changes. -/
def FallbackRun.identity (run : FallbackRun) : String × String × String × String × String :=
  (run.id, run.sourceSignalId, run.workflowRevisionId, run.signalRunId, run.routeGroupKey)

/-- Runs keep their identity, and no intent disappears. -/
structure Kept (db next : Database) : Prop where
  runs : next.runs.rows.map (·.identity) = db.runs.rows.map (·.identity)
  signalRuns : next.signalRuns.rows.map (·.identity) = db.signalRuns.rows.map (·.identity)
  intents : ∀ row ∈ db.intents.rows, ∃ row' ∈ next.intents.rows,
    row'.rootSourceSignalId = row.rootSourceSignalId ∧ row'.executionPathId = row.executionPathId

section Keeping

variable {services : Services} {request : WorkflowIntentInput} {workflow : WorkflowRevision}
variable {first db middle next : Database} {runId : String}

theorem Kept.refl (db : Database) : Kept db db := ⟨rfl, rfl, fun row hrow => ⟨row, hrow, rfl, rfl⟩⟩

theorem Kept.trans (h : Kept db middle) (hnext : Kept middle next) : Kept db next where
  runs := hnext.runs.trans h.runs
  signalRuns := hnext.signalRuns.trans h.signalRuns
  intents row hrow := by
    obtain ⟨row', hrow', hroot, hpath⟩ := h.intents row hrow
    obtain ⟨row'', hrow'', hroot', hpath'⟩ := hnext.intents row' hrow'
    exact ⟨row'', hrow'', hroot'.trans hroot, hpath'.trans hpath⟩

theorem Kept.pathIntent (h : Kept db next) {path : WorkflowExecutionPath}
    (hsome : (pathIntent request path db).isSome) :
    (Workflow.pathIntent request path next).isSome := by
  obtain ⟨row, hrow⟩ := Option.isSome_iff_exists.mp hsome
  obtain ⟨row', hrow', hroot, hpath⟩ := h.intents row (List.mem_of_find?_eq_some hrow)
  have hfound : row.rootSourceSignalId = request.sourceSignalId ∧
    row.executionPathId = some path.id := by
    simpa using List.find?_some hrow
  apply List.find?_isSome.mpr
  exact ⟨row', hrow', by simp [hroot, hpath, hfound]⟩

theorem Kept.keys (h : Kept db next) :
    (signalFallbackRuns request workflow next).map (·.routeGroupKey) =
      (signalFallbackRuns request workflow db).map (·.routeGroupKey) := by
  have hmap : ∀ d : Database, (signalFallbackRuns request workflow d).map (·.routeGroupKey) =
      ((d.runs.rows.map (·.identity)).filter (fun columns =>
        columns.2.1 = request.sourceSignalId ∧ columns.2.2.1 = workflow.id)).map (·.2.2.2.2) := by
    intro d
    rw [List.filter_map, List.map_map]
    rfl
  rw [hmap, hmap, h.runs]

theorem Booked.kept (h : Booked services request workflow runId first db) (hk : Kept db next)
    (hsafe : Safe db next) : Booked services request workflow runId first next where
  sound := hsafe.sound
  revision := hsafe.revisions _ _ h.revision
  stored := by
    obtain ⟨row, hrow⟩ := Option.isSome_iff_exists.mp h.stored
    have hmem : row.identity ∈ next.signalRuns.rows.map (·.identity) := by
      rw [hk.signalRuns]
      exact List.mem_map_of_mem (Keyed.mem_of_find hrow)
    obtain ⟨row', hrow', heq⟩ := List.mem_map.mp hmem
    have hid : row'.id = runId := by
      have hsame : row'.id = row.id := congrArg Prod.fst heq
      rw [hsame, Keyed.key_of_find hrow]
    rw [Keyed.find_eq_some.mpr ⟨hrow', hid⟩]
    rfl
  row row hrow := by
    have hmem : row.identity ∈ db.signalRuns.rows.map (·.identity) := by
      rw [← hk.signalRuns]
      exact List.mem_map_of_mem hrow
    obtain ⟨old, hold, heq⟩ := List.mem_map.mp hmem
    simp only [WorkflowSignalRun.identity, Prod.mk.injEq] at heq
    rw [← heq.1, ← heq.2.1, ← heq.2.2]
    exact h.row old hold
  runs run hrun := by
    have hmem : run.identity ∈ db.runs.rows.map (·.identity) := by
      rw [← hk.runs]
      exact List.mem_map_of_mem hrun
    obtain ⟨old, hold, heq⟩ := List.mem_map.mp hmem
    simp only [FallbackRun.identity, Prod.mk.injEq] at heq
    rw [← heq.2.1, ← heq.2.2.1, ← heq.2.2.2.1]
    exact h.runs old hold
  keys := hk.keys.trans h.keys
  judged := h.judged
  intents g hg primary hprim hallowed := hk.pathIntent (h.intents g hg primary hprim hallowed)

end Keeping

section Refreshing

variable {services : Services} {db next : Database} {id runId : String} {run : FallbackRun}

theorem refresh_same (services : Services) (id : String) (db : Database) :
    refreshWorkflowSignalRunFromFallback services id db =
      { db with
        signalRuns := (refreshWorkflowSignalRunFromFallback services id db).signalRuns } := by
  unfold refreshWorkflowSignalRunFromFallback
  split <;> rfl

theorem kept_refresh (services : Services) (id : String) (db : Database) :
    Kept db (refreshWorkflowSignalRunFromFallback services id db) := by
  unfold refreshWorkflowSignalRunFromFallback
  split
  · exact .refl db
  · exact ⟨rfl, SqlTable.map_updateWhere (fun _ _ _ => rfl), fun row hrow => ⟨row, hrow, rfl, rfl⟩⟩

theorem shows_refresh (hrun : db.runs.find id = some run) (hsig : run.signalRunId = runId)
    (hstored : (db.signalRuns.find runId).isSome) :
    Shows (refreshWorkflowSignalRunFromFallback services id db) runId (fallbackRunStatus
      ((db.runs.rows.filter (·.signalRunId = runId)).any (·.status = .probing))
      ((db.runs.rows.filter (·.signalRunId = runId)).any (fun run =>
        run.status = .exhausted || run.status = .stopped))
      ((db.runs.rows.filter (·.signalRunId = runId)).any (·.status = .selected))) := by
  obtain ⟨row, hrow⟩ := Option.isSome_iff_exists.mp hstored
  have hid := Keyed.key_of_find hrow
  have hany : ∀ p : FallbackRun → Bool,
      ((db.runs.rows.filter (·.signalRunId = runId)).insertionSort
        (fun left right => left.routeGroupKey.toList ≤ right.routeGroupKey.toList)).any p =
        (db.runs.rows.filter (·.signalRunId = runId)).any p :=
    fun p => (List.perm_insertionSort _ _).any_eq
  unfold refreshWorkflowSignalRunFromFallback Shows
  rw [hrun]
  simp only [hsig, Keyed.find_update, hrow, Option.map_some, hid, decide_true, if_true]
  refine ⟨_, rfl, ?_⟩
  simp only [hany]

theorem shows_refresh_other {status : String}
    (hrun : ∀ run, db.runs.find id = some run → run.signalRunId ≠ runId)
    (h : Shows db runId status) :
    Shows (refreshWorkflowSignalRunFromFallback services id db) runId status := by
  unfold refreshWorkflowSignalRunFromFallback
  split
  · exact h
  · rename_i run hfind
    obtain ⟨row, hrow, hstatus⟩ := h
    have hid := Keyed.key_of_find hrow
    refine ⟨row, ?_, hstatus⟩
    simp only [Keyed.find_update, hrow, Option.map_some]
    rw [if_neg]
    rw [hid]
    simpa using (hrun run hfind).symm

end Refreshing

section Outcomes

variable {services : Services} {request : WorkflowIntentInput} {workflow : WorkflowRevision}
variable {first db : Database} {runId : String}

theorem FallbackRunStatus.outcome_eq_none {status : FallbackRunStatus} :
    status.outcome = none ↔ status = .probing := by
  cases status <;> decide

theorem FallbackRunStatus.outcome_eq_true {status : FallbackRunStatus} :
    status.outcome = some true ↔ status = .selected := by
  cases status <;> decide

theorem FallbackRunStatus.outcome_eq_false {status : FallbackRunStatus} :
    status.outcome = some false ↔ status = .exhausted ∨ status = .stopped := by
  cases status <;> decide

theorem requestGroups_subset {group : WorkflowRouteGroup}
    (h : group ∈ requestGroups request workflow) :
    group ∈ workflow.routeGroups := List.mem_of_mem_filter h

theorem requestGroups_keys (h : Sound db) (hrev : db.revisions.find workflow.id = some workflow) :
    ((requestGroups request workflow).map (·.key)).Nodup :=
  (h.wellFormed workflow (Keyed.mem_of_find hrev)).keys.sublist (List.filter_sublist.map _)

theorem Booked.signal (h : Booked services request workflow runId first db) :
    db.runs.rows.filter (·.signalRunId = runId) = signalFallbackRuns request workflow db := by
  apply List.filter_congr
  intro run hrun
  simp only [h.runs run hrun]

theorem Booked.mem (h : Booked services request workflow runId first db) (o : Option Bool) :
    o ∈ routeOutcomes services request workflow first db ↔
      (∃ g ∈ requestGroups request workflow,
        (admission services request workflow first g = .filtered ∧ o = some false) ∨
          ∃ b, admission services request workflow first g = .plain b ∧ o = some b) ∨
        ∃ run ∈ signalFallbackRuns request workflow db, run.status.outcome = o :=
  mem_outcomes (requestGroups_keys h.sound h.revision) h.keys o

theorem Booked.open_iff (h : Booked services request workflow runId first db) :
    none ∈ routeOutcomes services request workflow first db ↔
      ∃ run ∈ signalFallbackRuns request workflow db, run.status = .probing := by
  rw [h.mem]
  simp [FallbackRunStatus.outcome_eq_none]

theorem Booked.admitted_iff (h : Booked services request workflow runId first db) :
    some true ∈ routeOutcomes services request workflow first db ↔
      (∃ g ∈ requestGroups request workflow, admission services request workflow first g =
        .plain true) ∨
        ∃ run ∈ signalFallbackRuns request workflow db, run.status = .selected := by
  rw [h.mem]
  simp [FallbackRunStatus.outcome_eq_true]

theorem Booked.refused_iff (h : Booked services request workflow runId first db) :
    some false ∈ routeOutcomes services request workflow first db ↔
      (∃ g ∈ requestGroups request workflow, admission services request workflow first g =
        .plain false ∨
        admission services request workflow first g = .filtered) ∨
        ∃ run ∈ signalFallbackRuns request workflow db, run.status = .exhausted ∨
          run.status = .stopped := by
  rw [h.mem]
  simp [FallbackRunStatus.outcome_eq_false, or_comm]

/-- The fallback runs speak for the other groups too. -/
structure Spoken (services : Services) (request : WorkflowIntentInput) (workflow : WorkflowRevision)
    (first db : Database) : Prop where
  admitted : (∃ g ∈ requestGroups request workflow,
    admission services request workflow first g = .plain true) →
      ∃ run ∈ signalFallbackRuns request workflow db, run.status = .selected
  refused : (∃ g ∈ requestGroups request workflow,
    admission services request workflow first g = .plain false ∨
      admission services request workflow first g = .filtered) →
    ∃ run ∈ signalFallbackRuns request workflow db, run.status = .exhausted ∨ run.status = .stopped

/-- A refresh is right while a fallback run is probing, and else if the fallback runs speak for
the other groups. -/
theorem Booked.refresh {id : String} {run : FallbackRun}
    (h : Booked services request workflow runId first db) (hrun : db.runs.find id = some run)
    (hsig : run.signalRunId = runId)
    (hspoken : (∀ run ∈ signalFallbackRuns request workflow db, run.status ≠ .probing) →
      Spoken services request workflow first db) (services' : Services) :
    Shows (refreshWorkflowSignalRunFromFallback services' id db) runId
      (routeStatus (routeOutcomes services request workflow first db)) := by
  have hmem : run ∈ signalFallbackRuns request workflow db := by
    have hrow := Keyed.mem_of_find hrun
    exact List.mem_filter.mpr ⟨hrow, by simpa using (h.runs run hrow).mp hsig⟩
  have hshows : Shows (refreshWorkflowSignalRunFromFallback services' id db) runId _ :=
    shows_refresh hrun hsig h.stored
  rw [h.signal] at hshows
  have hopen : none ∉ routeOutcomes services request workflow first db →
      ∀ run ∈ signalFallbackRuns request workflow db, run.status ≠ .probing := by
    intro hnone run hrun heq
    exact hnone (h.open_iff.mpr ⟨run, hrun, heq⟩)
  rwa [fallbackRunStatus_eq] at hshows
  · rw [h.open_iff]
    simp
  · simp only [List.any_eq_true, decide_eq_true_eq, Bool.or_eq_true]
    cases hstatus : run.status with
    | probing => exact .inl ⟨run, hmem, hstatus⟩
    | selected => exact .inr (.inr ⟨run, hmem, hstatus⟩)
    | exhausted => exact .inr (.inl ⟨run, hmem, .inl hstatus⟩)
    | stopped => exact .inr (.inl ⟨run, hmem, .inr hstatus⟩)
  · intro hnone
    rw [h.admitted_iff, or_iff_right_of_imp (hspoken (hopen hnone)).admitted]
    simp
  · intro hnone
    rw [h.refused_iff, or_iff_right_of_imp (hspoken (hopen hnone)).refused]
    simp

theorem routeOutcomes_congr {next : Database} (h : next.runs = db.runs) :
    routeOutcomes services request workflow first next =
      routeOutcomes services request workflow first db := by
  unfold routeOutcomes signalFallbackRuns
  rw [h]

/-- What the end of a call leaves of the rows that it stored. -/
structure Ended (db next : Database) : Prop where
  same : next = { db with signalRuns := next.signalRuns }
  kept : Kept db next
  safe : Safe db next

theorem Booked.ended {services' : Services} {next : Database}
    {results results' : List TradingIntent}
    (h : Booked services request workflow runId first db)
    (hok : (match db.runs.rows.find?
      (fun row => row.signalRunId = runId ∧ row.status = .probing) with
      | some probing => pure (results, refreshWorkflowSignalRunFromFallback services' probing.id db)
      | none => pure (results, db) : Outcome (List TradingIntent × Database)) =
        .ok (results', next)) :
    Ended db next ∧ (((∀ run ∈ signalFallbackRuns request workflow db, run.status ≠ .probing) →
      Shows db runId (routeStatus (routeOutcomes services request workflow first db))) →
        Shows next runId (routeStatus (routeOutcomes services request workflow first db))) := by
  split at hok
  · rename_i probing hfind
    rw [pure_eq_ok_iff, Prod.mk.injEq] at hok
    obtain ⟨-, rfl⟩ := hok
    have hfound : probing.signalRunId = runId ∧ probing.status = .probing := by
      simpa using List.find?_some hfind
    have hmem := List.mem_of_find?_eq_some hfind
    constructor
    · exact ⟨refresh_same services' probing.id db, kept_refresh services' probing.id db,
        refresh_safe h.sound probing.id⟩
    · intro _
      apply h.refresh (Keyed.find_eq_some.mpr ⟨hmem, rfl⟩) hfound.1
      intro hnone
      have hsig : probing ∈ signalFallbackRuns request workflow db :=
        List.mem_filter.mpr ⟨hmem, by simpa using (h.runs probing hmem).mp hfound.1⟩
      exact absurd hfound.2 (hnone probing hsig)
  · rename_i hfind
    rw [pure_eq_ok_iff, Prod.mk.injEq] at hok
    obtain ⟨-, rfl⟩ := hok
    refine ⟨⟨rfl, .refl db, .refl h.sound⟩, fun hshows => hshows ?_⟩
    intro run hrun hstatus
    obtain ⟨hmem, hsig⟩ := List.mem_filter.mp hrun
    have hid := (h.runs run hmem).mpr (by simpa using hsig)
    simpa [hid, hstatus] using List.find?_eq_none.mp hfind run hmem

end Outcomes

section First

variable {services : Services} {request : WorkflowIntentInput} {workflow : WorkflowRevision}
variable {db first : Database} {results : List TradingIntent} {runId : String}

theorem insertSignalRun_new {row found : WorkflowSignalRun} {source revision : String}
    (hfound : (insertSignalRun row db).signalRuns.rows.find? (fun other =>
      other.sourceSignalId = source ∧ other.workflowRevisionId = revision) = some found)
    (hnone : ∀ other ∈ db.signalRuns.rows,
      ¬ (other.sourceSignalId = source ∧ other.workflowRevisionId = revision))
    (hsrc : row.sourceSignalId = source) (hrev : row.workflowRevisionId = revision) :
    insertSignalRun row db = { db with signalRuns := (insertSignalRun row db).signalRuns } ∧
      found = row ∧
      db.signalRuns.find row.id = none ∧
        (insertSignalRun row db).signalRuns.rows = db.signalRuns.rows ++ [row] := by
  subst hsrc hrev
  have hmiss : db.signalRuns.rows.find? (fun other =>
      other.sourceSignalId = row.sourceSignalId ∧
        other.workflowRevisionId = row.workflowRevisionId) = none := by
    rw [List.find?_eq_none]
    intro other hother htrue
    exact hnone other hother (of_decide_eq_true htrue)
  have hinsert : insertSignalRun row db =
    { db with signalRuns := (db.signalRuns.insert row).2 } := by
    rw [insertSignalRun, if_neg]
    rw [Bool.not_eq_true, List.any_eq_false]
    exact fun other hother htrue => hnone other hother (of_decide_eq_true htrue)
  rw [hinsert] at hfound ⊢
  cases hold : db.signalRuns.find row.id with
  | some old =>
    rw [Keyed.insert_of_find (by rw [hold]; rfl), hmiss] at hfound
    cases hfound
  | none =>
    simp only [Keyed.rows_insert hold, List.find?_append, hmiss, Option.none_or] at hfound
    exact ⟨rfl, List.mem_singleton.mp (List.mem_of_find?_eq_some hfound), rfl,
      Keyed.rows_insert hold⟩

theorem admission_congr {next : Database} {g : WorkflowRouteGroup} (h : next.intents = db.intents) :
    admission services request workflow next g = admission services request workflow db g := by
  unfold admission
  simp only [pathIntent_congr h]

theorem Processed.start {start : Database} (hfresh : Fresh request workflow db)
    (hruns : start.runs = db.runs) (hints : start.intents = db.intents) :
    Processed services request workflow runId start start [] [] [] := by
  have hnone : signalFallbackRuns request workflow start = [] := by
    rw [signalFallbackRuns, hruns]
    exact hfresh.fallbackRuns
  constructor
  · rfl
  · exact fun _ => .inl
  · rw [hnone]
    intro run hrun
    cases hrun
  · rw [hnone]
    rfl
  · intro path hpath i hi
    rw [pathIntent_congr hints, hfresh.intents path hpath] at hi
    cases hi
  · intro intent hint
    cases hint
  · intro branch hbranch
    cases hbranch
  · simp [hnone]
  · simp [hnone]
  · simp

/-- The groups of the first call are done, and its signal run gets the status that the call
computes. -/
theorem Processed.booked {start last stored : Database} {row : WorkflowSignalRun}
    {intents : List TradingIntent}
    {branches : List Branch} (hfresh : Fresh request workflow db)
    (h : Processed services request workflow row.id start last (requestGroups request workflow)
      intents branches)
    (hruns : start.runs = db.runs) (hrows : start.signalRuns.rows = db.signalRuns.rows ++ [row])
    (hmiss : db.signalRuns.find row.id = none) (hsrc : row.sourceSignalId = request.sourceSignalId)
    (hrev : row.workflowRevisionId = workflow.id) (hsound : Sound stored)
    (hwf : stored.revisions.find workflow.id = some workflow)
    (hsame : stored = { last with signalRuns := stored.signalRuns })
    (hident : stored.signalRuns.rows.map (·.identity) = last.signalRuns.rows.map (·.identity)) :
    Booked services request workflow row.id stored stored := by
  have hcols : stored.signalRuns.rows.map (·.identity) =
      db.signalRuns.rows.map (·.identity) ++ [row.identity] := by
    rw [hident, h.signalRuns, hrows, List.map_append, List.map_singleton]
  have hstoredRuns : stored.runs = last.runs := by rw [hsame]
  have hstoredIntents : stored.intents = last.intents := by rw [hsame]
  have hsig : signalFallbackRuns request workflow stored =
    signalFallbackRuns request workflow last := by
    rw [signalFallbackRuns, hstoredRuns, signalFallbackRuns]
  constructor
  · exact hsound
  · exact hwf
  · have hmem : row.identity ∈ stored.signalRuns.rows.map (·.identity) := by
      rw [hcols]
      exact List.mem_append_right _ List.mem_cons_self
    obtain ⟨row', hrow', heq⟩ := List.mem_map.mp hmem
    have hid : row'.id = row.id := congrArg Prod.fst heq
    rw [Keyed.find_eq_some.mpr ⟨hrow', hid⟩]
    rfl
  · intro row' hrow'
    have hmem : row'.identity ∈ stored.signalRuns.rows.map (·.identity) := List.mem_map_of_mem hrow'
    rw [hcols, List.mem_append, List.mem_singleton] at hmem
    rcases hmem with hold | hnew
    · obtain ⟨old, hold, heq⟩ := List.mem_map.mp hold
      simp only [WorkflowSignalRun.identity, Prod.mk.injEq] at heq
      rw [← heq.1, ← heq.2.1, ← heq.2.2]
      have hno := hfresh.signalRuns old hold
      have hne := Keyed.find_eq_none.mp hmiss old hold
      simp only [hno, hne]
    · simp only [WorkflowSignalRun.identity, Prod.mk.injEq] at hnew
      rw [hnew.1, hnew.2.1, hnew.2.2]
      simp only [hsrc, hrev, and_self]
  · intro run hrun
    rw [hstoredRuns] at hrun
    rcases h.others run hrun with hold | hnew
    · rw [hruns] at hold
      have hno : ¬ (run.sourceSignalId = request.sourceSignalId ∧
        run.workflowRevisionId = workflow.id) := by
        intro hboth
        have hmem : run ∈ signalFallbackRuns request workflow db :=
          List.mem_filter.mpr ⟨hold, by simpa using hboth⟩
        rw [hfresh.fallbackRuns] at hmem
        cases hmem
      have hne : run.signalRunId ≠ row.id := by
        intro heq
        have hsome := hfresh.references run hold
        rw [heq, hmiss] at hsome
        cases hsome
      simp only [hno, hne]
    · have hboth := (List.mem_filter.mp hnew).2
      simp only [(h.runs run hnew).1, true_iff]
      simpa using hboth
  · rw [hsig, h.keys]
    congr 1
    apply List.filter_congr
    intro g _
    rw [admission_congr hstoredIntents]
  · exact h.judged
  · intro g hg primary hprim hallowed
    rw [pathIntent_congr hstoredIntents]
    exact h.stored g hg primary hprim hallowed

theorem Processed.status {start last stored : Database} {intents : List TradingIntent}
    {branches : List Branch}
    (h : Processed services request workflow runId start last (requestGroups request workflow)
      intents branches)
    (hb : Booked services request workflow runId stored stored) (hruns : stored.runs = last.runs)
    (hints : stored.intents = last.intents)
    (hnone : ∀ run ∈ signalFallbackRuns request workflow stored, run.status ≠ .probing) :
    workflowRunStatus intents branches =
      routeStatus (routeOutcomes services request workflow stored stored) := by
  have hsig : signalFallbackRuns request workflow stored =
    signalFallbackRuns request workflow last := by
    rw [signalFallbackRuns, hruns, signalFallbackRuns]
  have hstopped : ∀ run ∈ signalFallbackRuns request workflow last, run.status = .stopped := by
    intro run hrun
    exact (h.runs run hrun).2.resolve_left (hnone run (hsig ▸ hrun))
  apply workflowRunStatus_eq
  · rw [hb.open_iff]
    rintro ⟨run, hrun, hstatus⟩
    exact hnone run hrun hstatus
  · rw [hb.admitted_iff, h.pending]
    simp only [admission_congr hints, hsig]
    apply or_congr_right
    constructor
    · rintro ⟨run, hrun, hstatus⟩
      rw [hstopped run hrun] at hstatus
      cases hstatus
    · rintro ⟨run, hrun, hstatus⟩
      rw [hstopped run hrun] at hstatus
      cases hstatus
  · intro _
    rw [hb.refused_iff, h.blocked, h.filtered]
    simp only [admission_congr hints, hsig]
    constructor
    · rintro ((⟨g, hg, hplain⟩ | ⟨run, hrun, hstatus⟩) | ⟨g, hg, hfiltd⟩)
      · exact .inl ⟨g, hg, .inl hplain⟩
      · exact .inr ⟨run, hrun, .inr hstatus⟩
      · exact .inl ⟨g, hg, .inr hfiltd⟩
    · rintro (⟨g, hg, hplain | hfiltd⟩ | ⟨run, hrun, -⟩)
      · exact .inl (.inl ⟨g, hg, hplain⟩)
      · exact .inr ⟨g, hg, hfiltd⟩
      · exact .inl (.inr ⟨run, hrun, hstopped run hrun⟩)

theorem first_booked (hfresh : Fresh request workflow db)
    (hwf : db.revisions.find workflow.id = some workflow)
    (hok : persistWorkflowTradingIntents services request workflow
      (requestGroups request workflow) db =
      .ok (results, first)) :
    ∃ runId, Booked services request workflow runId first first ∧
      Shows first runId (routeStatus (routeOutcomes services request workflow first first)) := by
  unfold persistWorkflowTradingIntents at hok
  simp only at hok
  split at hok
  · cases hok
  rename_i found hfound
  obtain ⟨hinsert, hnew, hmiss, hrows⟩ := insertSignalRun_new hfound hfresh.signalRuns rfl rfl
  rw [bind_eq_ok] at hok
  obtain ⟨⟨⟨intents, branches⟩, last⟩, hfold, hok⟩ := hok
  generalize hstart : insertSignalRun _ db = start at hfold hinsert hrows
  have hstartSafe : Safe db start := hstart ▸ insertSignalRun_safe hfresh.sound _
  have hstartRuns : start.runs = db.runs := by rw [hinsert]
  have hstartIntents : start.intents = db.intents := by rw [hinsert]
  rw [← hnew] at hmiss hrows
  -- the groups do not depend on `receivedAt`
  have hbase : Processed services { request with receivedAt := some found.createdAt } workflow
    found.id start
      start [] [] [] :=
    .start ⟨hfresh.sound, hfresh.signalRuns, hfresh.fallbackRuns, hfresh.references, hfresh.intents⟩
      hstartRuns hstartIntents
  have hdone := processed_fold hstartSafe.sound (hstartSafe.revisions _ _ hwf)
    (fun g => requestGroups_subset) (requestGroups_keys hfresh.sound hwf) hbase hfold
  rw [List.nil_append] at hdone
  have hlast := persistRouteGroups_safe hstartSafe.sound (hstartSafe.revisions _ _ hwf)
    (fun g => requestGroups_subset) hfold
  have hlastFound : last.signalRuns.find found.id = some found := by
    rw [hdone.signalRuns]
    apply Keyed.find_eq_some.mpr
    rw [hrows]
    exact ⟨by simp, rfl⟩
  simp only at hok
  generalize hstored :
    ({ last with signalRuns := last.signalRuns.update (·.id = found.id) _ _ } : Database) =
    stored at hok
  have hstoredSafe : Safe last stored := by
    rw [← hstored]
    exact Touches.safe_elsewhere hlast.sound rfl rfl rfl rfl (fun _ h => h)
  have hprocessed : Processed services request workflow found.id start last
    (requestGroups request workflow)
      intents branches :=
    ⟨hdone.signalRuns, hdone.others, hdone.runs, hdone.keys, hdone.statuses, hdone.judged,
      hdone.stored,
      hdone.pending, hdone.blocked, hdone.filtered⟩
  have hruns : stored.runs = last.runs := by rw [← hstored]
  have hints : stored.intents = last.intents := by rw [← hstored]
  have hbooked : Booked services request workflow found.id stored stored := by
    apply hprocessed.booked hfresh hstartRuns hrows hmiss
    · rw [hnew]
    · rw [hnew]
    · exact hstoredSafe.sound
    · exact hstoredSafe.revisions _ _ (hlast.revisions _ _ (hstartSafe.revisions _ _ hwf))
    · rw [← hstored]
    · rw [← hstored]
      exact SqlTable.map_updateWhere (fun _ _ _ => rfl)
  have hstatus : Shows stored found.id (workflowRunStatus intents branches) := by
    rw [← hstored]
    simp only [Shows, Keyed.find_update, hlastFound, Option.map_some, decide_true, if_true]
    exact ⟨_, rfl, rfl⟩
  rw [← hruns] at hok
  obtain ⟨hended, hshown⟩ := hbooked.ended hok
  have hshows := hshown (fun hnone => by rwa [← hprocessed.status hbooked hruns hints hnone])
  have hfirstRuns : first.runs = stored.runs := by rw [hended.same]
  have hfirstIntents : first.intents = stored.intents := by rw [hended.same]
  have hfirst := hbooked.kept hended.kept hended.safe
  refine ⟨found.id, ⟨hfirst.sound, hfirst.revision, hfirst.stored, hfirst.row, hfirst.runs, ?_,
    hfirst.judged, hfirst.intents⟩, ?_⟩
  · simp only [admission_congr hfirstIntents]
    exact hfirst.keys
  · have houtcomes : routeOutcomes services request workflow first first =
        routeOutcomes services request workflow stored stored := by
      rw [routeOutcomes_congr hfirstRuns]
      unfold routeOutcomes
      simp only [admission_congr hfirstIntents]
    rwa [houtcomes]

end First

section Replaying

variable {services services' : Services} {request : WorkflowIntentInput}
  {workflow : WorkflowRevision}
variable {first db next : Database} {runId : String} {group : WorkflowRouteGroup}

/-- The filters answer as they did at the first call, when they answer. -/
def Agrees (services services' : Services) (request : WorkflowIntentInput)
    (workflow : WorkflowRevision) : Prop :=
  ∀ path ∈ workflow.paths, ∀ verdict verdict', services.pathAllowsInput path request = .ok verdict →
    services'.pathAllowsInput path request = .ok verdict' → verdict' = verdict

/-- The intents that a call finds for a group, as they are now. -/
def currentIntents (services : Services) (request : WorkflowIntentInput)
    (workflow : WorkflowRevision)
    (first db : Database) (group : WorkflowRouteGroup) : List TradingIntent :=
  match admission services request workflow first group with
  | .filtered => []
  | .plain _ => (workflow.paths.find? (·.id = group.primaryPathId)).elim []
      (fun primary => (pathIntent request primary db).toList)
  | .fallback => ((signalFallbackRuns request workflow db).find? (·.routeGroupKey = group.key)).elim
    []
      (fun run => candidateIntents run.id db)

theorem signalRun_find {key : String} : db.runs.rows.find? (fun row =>
      row.sourceSignalId = request.sourceSignalId ∧ row.workflowRevisionId = workflow.id ∧
        row.routeGroupKey = key) =
    (signalFallbackRuns request workflow db).find? (·.routeGroupKey = key) := by
  rw [signalFallbackRuns, List.find?_filter]
  congr 1
  funext row
  simp [and_assoc]

theorem Booked.round (h : Booked services request workflow runId first db)
    (hagrees : Agrees services services' request workflow)
    (hgroup : group ∈ requestGroups request workflow)
    {results results' : List TradingIntent} {branches branches' : List Branch}
    (hok : persistRouteGroup services' request workflow runId ((results, branches), db) group =
      .ok ((results', branches'), next)) :
    next = db ∧ results' = results ++ currentIntents services request workflow first db group ∧
      ∃ more, branches' = branches ++ more ∧ ((∃ b ∈ more, b.status = some "filtered") ↔
        admission services request workflow first group = .filtered) := by
  obtain ⟨primary, verdict, hprim, hverd⟩ := h.judged group hgroup
  unfold persistRouteGroup at hok
  simp only [hprim, bind_eq_ok] at hok
  obtain ⟨verdict', hverd', hok⟩ := hok
  obtain rfl := hagrees primary (List.mem_of_find?_eq_some hprim) verdict verdict' hverd hverd'
  cases verdict' with
  | filtered reason =>
    simp only [pure_eq_ok_iff, Prod.mk.injEq] at hok
    obtain ⟨⟨rfl, rfl⟩, rfl⟩ := hok
    have hfiltd : admission services request workflow first group = .filtered :=
      admission_filtered hprim hverd
    refine ⟨rfl, ?_, _, rfl, ?_⟩
    · rw [currentIntents, hfiltd, List.append_nil]
    · simp [hfiltd]
  | allowed =>
    have hadmn : admission services request workflow first group = _ :=
      admission_allowed hprim hverd
    simp only at hok
    split_ifs at hok with hlen
    · rw [if_pos hlen] at hadmn
      simp only [bind_eq_ok, pure_eq_ok_iff, Prod.mk.injEq] at hok
      obtain ⟨⟨⟨intents, more⟩, last⟩, hpers, ⟨rfl, rfl⟩, rfl⟩ := hok
      have hexists : db.runs.rows.any (fun row => row.sourceSignalId = request.sourceSignalId ∧
          row.workflowRevisionId = workflow.id ∧ row.routeGroupKey = group.key) = true := by
        have hkey : group.key ∈ (signalFallbackRuns request workflow db).map (·.routeGroupKey) := by
          rw [h.keys]
          exact List.mem_map_of_mem (List.mem_filter.mpr ⟨hgroup, by simp [hadmn]⟩)
        obtain ⟨run, hrun, hsame⟩ := List.mem_map.mp hkey
        obtain ⟨hmem, hsig⟩ := List.mem_filter.mp hrun
        rw [List.any_eq_true]
        exact ⟨run, hmem, by simpa [hsame] using hsig⟩
      obtain ⟨rfl, run, hfind, hres⟩ :=
        replay_safe h.sound h.revision (requestGroups_subset hgroup) hexists hpers
      obtain ⟨rfl, rfl⟩ := Prod.mk.inj hres
      refine ⟨rfl, ?_, [], rfl, by simp [hadmn]⟩
      rw [currentIntents, hadmn, ← signalRun_find, hfind]
      rfl
    · rw [if_neg hlen] at hadmn
      simp only [bind_eq_ok, pure_eq_ok_iff, Prod.mk.injEq] at hok
      obtain ⟨⟨⟨intent, branch⟩, last⟩, hprocess, ⟨rfl, rfl⟩, rfl⟩ := hok
      obtain ⟨i, hi⟩ := Option.isSome_iff_exists.mp (h.intents group hgroup primary hprim hverd)
      have hfound := hi
      rw [pathIntent] at hfound
      unfold processWorkflowIntentPath at hprocess
      rw [hverd', ok_bind] at hprocess
      simp only [hfound, pure_eq_ok_iff, Prod.mk.injEq] at hprocess
      obtain ⟨⟨rfl, rfl⟩, rfl⟩ := hprocess
      refine ⟨rfl, ?_, [], rfl, by simp [hadmn]⟩
      rw [currentIntents, hadmn]
      simp only [hprim, Option.elim_some, hi]

theorem Booked.rounds (h : Booked services request workflow runId first db)
    (hagrees : Agrees services services' request workflow) {groups : List WorkflowRouteGroup}
    (hgrps : ∀ g ∈ groups, g ∈ requestGroups request workflow)
    {results : List TradingIntent} {branches : List Branch}
    {result : (List TradingIntent × List Branch) × Database}
    (hok : groups.foldlM (persistRouteGroup services' request workflow runId)
      ((results, branches), db) =
      .ok result) :
    result.2 = db ∧
      result.1.1 = results ++ groups.flatMap (currentIntents services request workflow first db) ∧
        ((∃ b ∈ result.1.2, b.status = some "filtered") ↔
          (∃ b ∈ branches, b.status = some "filtered") ∨
          ∃ g ∈ groups, admission services request workflow first g = .filtered) := by
  induction groups generalizing results branches with
  | nil =>
    cases hok
    simp
  | cons group groups ih =>
    rw [List.foldlM_cons, bind_eq_ok] at hok
    obtain ⟨⟨⟨results', branches'⟩, next⟩, hround, hrest⟩ := hok
    obtain ⟨rfl, rfl, more, rfl, hmore⟩ := h.round hagrees (hgrps group List.mem_cons_self) hround
    obtain ⟨hsame, hresults, hbranches⟩ :=
      ih (fun g hg => hgrps g (List.mem_cons_of_mem _ hg)) hrest
    refine ⟨hsame, ?_, ?_⟩
    · rw [hresults, List.flatMap_cons, List.append_assoc]
    · rw [hbranches]
      simp only [List.mem_append, or_and_right, exists_or, hmore, List.exists_mem_cons_iff,
        or_assoc]

end Replaying

end TsxCore.Workflow
