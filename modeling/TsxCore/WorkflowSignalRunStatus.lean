import TsxCore.WorkflowSignalRunReplays

/-!
# The status over whole runs

The rows of a signal survive every event in between. The status stays what the outcomes of
the route groups make of it as long as no replay meets intents that went on, and as long as
the last fallback run to end speaks for the plain and filtered groups too.
-/

namespace TsxCore.Workflow

open Outcome

section Replays

variable {services services' : Services} {request : WorkflowIntentInput}
  {workflow : WorkflowRevision}
variable {first db next : Database} {runId : String} {results : List TradingIntent}

theorem create_cases (h : createWorkflowTradingIntents services request db = .ok (results, next)) :
    next = db ∨ ∃ workflow, db.revisions.find request.workflowRevisionId = some workflow ∧
      persistWorkflowTradingIntents services request workflow (requestGroups request workflow) db =
        .ok (results, next) := by
  unfold createWorkflowTradingIntents at h
  simp only [bind_eq_ok, throwIf_eq_ok] at h
  obtain ⟨-, -, h⟩ := h
  split at h
  · cases h
  · rename_i workflow hworkflow
    simp only [bind_eq_ok, throwIf_eq_ok] at h
    obtain ⟨-, -, h⟩ := h
    split_ifs at h
    · rw [pure_eq_ok_iff, Prod.mk.injEq] at h
      exact .inl h.2.symm
    · simp only [bind_eq_ok, throwIf_eq_ok] at h
      obtain ⟨-, -, h⟩ := h
      exact .inr ⟨workflow, hworkflow, h⟩

/-- The intents that a call finds still show what the first call admitted. -/
structure Current (services : Services) (request : WorkflowIntentInput)
    (workflow : WorkflowRevision)
    (first db : Database) : Prop where
  admitted : (∃ i ∈ (requestGroups request workflow).flatMap
    (currentIntents services request workflow first db),
    i.status = .pending) ↔ some true ∈ routeOutcomes services request workflow first db
  refused : some true ∈ routeOutcomes services request workflow first db →
    (((∃ i ∈ (requestGroups request workflow).flatMap
      (currentIntents services request workflow first db),
      i.status = .blocked) ∨
        ∃ g ∈ requestGroups request workflow, admission services request workflow first g =
          .filtered) ↔
      some false ∈ routeOutcomes services request workflow first db)

theorem Booked.replay (h : Booked services request workflow runId first db)
    (hid : workflow.id = request.workflowRevisionId)
    (hagrees : Agrees services services' request workflow)
    (hok : createWorkflowTradingIntents services' request db = .ok (results, next)) :
    next = db ∨ (Ended db next ∧
      (((∀ run ∈ signalFallbackRuns request workflow db, run.status ≠ .probing) →
      Current services request workflow first db) →
        Shows next runId (routeStatus (routeOutcomes services request workflow first db)))) := by
  rcases create_cases hok with hsame | ⟨found, hfound, hpers⟩
  · exact .inl hsame
  right
  have heq : found = workflow := by
    rw [← hid, h.revision] at hfound
    exact (Option.some.inj hfound).symm
  subst heq
  unfold persistWorkflowTradingIntents at hpers
  obtain ⟨row, hrow⟩ := Option.isSome_iff_exists.mp h.stored
  have hmem := Keyed.mem_of_find hrow
  have hsig := (h.row row hmem).mpr (Keyed.key_of_find hrow)
  have hinsert : ∀ other : WorkflowSignalRun, other.sourceSignalId = request.sourceSignalId →
      other.workflowRevisionId = found.id → insertSignalRun other db = db := by
    intro other hsrc hrev
    rw [insertSignalRun, if_pos]
    rw [List.any_eq_true]
    exact ⟨row, hmem, by simpa [hsrc, hrev] using hsig⟩
  simp only at hpers
  rw [hinsert _ rfl rfl] at hpers
  split at hpers
  · cases hpers
  rename_i run hrun
  have hrunSignal : run.sourceSignalId = request.sourceSignalId ∧
    run.workflowRevisionId = found.id := by
    simpa using List.find?_some hrun
  obtain rfl := (h.row run (List.mem_of_find?_eq_some hrun)).mp hrunSignal
  rw [bind_eq_ok] at hpers
  obtain ⟨⟨⟨intents, branches⟩, last⟩, hfold, hpers⟩ := hpers
  -- the groups do not depend on `receivedAt`
  have hbooked : Booked services { request with receivedAt := some run.createdAt } found run.id
    first db :=
    ⟨h.sound, h.revision, h.stored, h.row, h.runs, h.keys, h.judged, h.intents⟩
  obtain ⟨rfl, hresults, hfiltd⟩ := hbooked.rounds hagrees (fun g hg => hg) hfold
  have hints : intents =
      (requestGroups request found).flatMap (currentIntents services request found first last) :=
        hresults
  have hbranches : (∃ b ∈ branches, b.status = some "filtered") ↔
      ∃ g ∈ requestGroups request found, admission services request found first g = .filtered :=
    hfiltd.trans (or_iff_right (by simp))
  simp only at hpers
  generalize hstored :
    ({ last with signalRuns := last.signalRuns.update (·.id = run.id) _ _ } : Database) =
    stored at hpers
  have hsafe : Safe last stored := by
    rw [← hstored]
    exact Touches.safe_elsewhere h.sound rfl rfl rfl rfl (fun _ h => h)
  have hkept : Kept last stored := by
    rw [← hstored]
    exact ⟨rfl, SqlTable.map_updateWhere (fun _ _ _ => rfl), fun row hrow => ⟨row, hrow, rfl, rfl⟩⟩
  have hruns : stored.runs = last.runs := by rw [← hstored]
  rw [← hruns] at hpers
  obtain ⟨hended, hshown⟩ := (h.kept hkept hsafe).ended hpers
  have hstatus : Shows stored run.id (workflowRunStatus intents branches) := by
    rw [← hstored]
    simp only [Shows, Keyed.find_update, hrow, Option.map_some, Keyed.key_of_find hrow, decide_true,
      if_true]
    exact ⟨_, rfl, rfl⟩
  have houtcomes : routeOutcomes services request found first stored =
      routeOutcomes services request found first last := routeOutcomes_congr hruns
  have hsig : signalFallbackRuns request found stored = signalFallbackRuns request found last := by
    rw [signalFallbackRuns, hruns, signalFallbackRuns]
  constructor
  · refine ⟨?_, hkept.trans hended.kept, hsafe.trans hended.safe⟩
    rw [hended.same, ← hstored]
  · intro hcur
    rw [houtcomes] at hshown
    apply hshown
    intro hnone
    rw [hsig] at hnone
    have hnow := hcur hnone
    have hopen : none ∉ routeOutcomes services request found first last := by
      rw [h.open_iff]
      rintro ⟨other, hother, hprobe⟩
      exact hnone other hother hprobe
    have hcomputed : workflowRunStatus intents branches =
        routeStatus (routeOutcomes services request found first last) := by
      apply workflowRunStatus_eq hopen
      · rw [hints]
        exact hnow.admitted
      · rw [hints, hbranches]
        exact hnow.refused
    rwa [← hcomputed]

end Replays

section Reports

variable {services : Services} {db middle next : Database} {id : String} {intent : TradingIntent}
variable {reason : WorkflowFallbackReason} {message : String} {current : FallbackCurrentRow}

inductive Reports (db next : Database) : Prop
  | quiet (hruns : next.runs = db.runs) (hsignalRuns : next.signalRuns = db.signalRuns)
    (hkept : Kept db next)
  | refreshed {services : Services} {id : String} {middle : Database} {run : FallbackRun}
    (hrun : db.runs.find id = some run) (hprobe : run.status = .probing)
    (hnext : next = refreshWorkflowSignalRunFromFallback services id middle)
    (hsignalRuns : middle.signalRuns = db.signalRuns)
    (hruns : ∃ g, middle.runs.rows = SqlTable.updateWhere (·.id = id) g db.runs.rows)
    (hkept : Kept db middle)

theorem kept_updateRun {g : FallbackRun → FallbackRun} {hg : ∀ run, (g run).id = run.id}
    (h : ∀ run, (g run).identity = run.identity) : Kept db (db.updateRun id g hg) :=
  ⟨SqlTable.map_updateWhere (fun run _ _ => h run), rfl, fun row hrow => ⟨row, hrow, rfl, rfl⟩⟩

theorem kept_updateCandidates {p : FallbackCandidate → Bool}
    {f : FallbackCandidate → FallbackCandidate}
    {hf : ∀ c, ((f c).fallbackRunId, (f c).rank) = (c.fallbackRunId, c.rank)} :
    Kept db (db.updateCandidates p f hf) :=
  ⟨rfl, rfl, fun row hrow => ⟨row, hrow, rfl, rfl⟩⟩

theorem kept_insertIntent (h : insertIntent intent db = .ok next) :
    Kept db next ∧ next.signalRuns = db.signalRuns ∧ next.runs = db.runs := by
  unfold insertIntent at h
  simp only [bind_eq_ok, throwIf_eq_ok, pure_eq_ok_iff, Bool.not_eq_true, Bool.not_eq_false'] at h
  obtain ⟨-, -, -, hnew, rfl⟩ := h
  rw [Keyed.insert_fst, Option.isNone_iff_eq_none] at hnew
  refine ⟨⟨rfl, rfl, ?_⟩, rfl, rfl⟩
  intro row hrow
  refine ⟨row, ?_, rfl, rfl⟩
  simp only [Keyed.rows_insert hnew]
  exact List.mem_append_left _ hrow

theorem kept_blockIntent (h : blockIntent services intent reason message db = .ok next) :
    Kept db next ∧ next.signalRuns = db.signalRuns ∧ next.runs = db.runs := by
  unfold blockIntent at h
  simp only [bind_eq_ok, pure_eq_ok_iff] at h
  obtain ⟨-, -, rfl⟩ := h
  refine ⟨⟨rfl, rfl, ?_⟩, rfl, rfl⟩
  intro row hrow
  refine ⟨_, List.mem_map_of_mem hrow, ?_⟩
  dsimp only
  split_ifs
  · exact ⟨rfl, rfl⟩
  · exact ⟨rfl, rfl⟩

theorem kept_promote {row : FallbackNextRow} {result : WorkflowFallbackAdvanceResult}
    (h : promoteFallbackCandidate services current intent reason message row db =
      .ok (result, next)) :
    ∃ middle, Kept db middle ∧ middle.signalRuns = db.signalRuns ∧
      (∃ g, middle.runs.rows = SqlTable.updateWhere (·.id = current.candidate.fallbackRunId) g
        db.runs.rows) ∧ next =
        refreshWorkflowSignalRunFromFallback services current.candidate.fallbackRunId middle := by
  unfold promoteFallbackCandidate at h
  simp only [bind_eq_ok] at h
  obtain ⟨⟨promoted, inserted⟩, hinsert, linked, hlink, h⟩ := h
  have hlinked : Kept db linked ∧ linked.signalRuns = db.signalRuns ∧ linked.runs = db.runs := by
    unfold insertPromotedFallbackIntent at hinsert
    simp only [bind_eq_ok, pure_eq_ok_iff, Prod.mk.injEq] at hinsert
    obtain ⟨account, -, next', hstored, rfl, rfl⟩ := hinsert
    obtain ⟨hkept, hsignalRuns, hruns⟩ := kept_insertIntent hstored
    unfold linkCandidate at hlink
    simp only [bind_eq_ok, pure_eq_ok_iff] at hlink
    obtain ⟨-, -, rfl⟩ := hlink
    exact ⟨(kept_updateCandidates.trans hkept).trans kept_updateCandidates, hsignalRuns, hruns⟩
  split_ifs at h
  · rw [pure_eq_ok_iff, Prod.mk.injEq] at h
    obtain ⟨-, rfl⟩ := h
    refine ⟨_, ?_, ?_, ?_, rfl⟩
    · exact hlinked.1.trans (kept_updateRun (fun _ => rfl))
    · exact hlinked.2.1
    · rw [← hlinked.2.2]
      exact ⟨_, rfl⟩
  · rw [pure_eq_ok_iff, Prod.mk.injEq] at h
    obtain ⟨-, rfl⟩ := h
    refine ⟨_, ?_, ?_, ?_, rfl⟩
    · refine (hlinked.1.trans (kept_updateRun ?_)).trans kept_updateCandidates
      exact fun _ => rfl
    · exact hlinked.2.1
    · rw [← hlinked.2.2]
      exact ⟨_, rfl⟩

theorem advance_reports {result : Option WorkflowFallbackAdvanceResult}
    (h : advanceWorkflowFallbackOnEligibleFailure services intent reason message db =
      .ok (result, next)) :
    Reports db next := by
  unfold advanceWorkflowFallbackOnEligibleFailure advanceWorkflowFallbackTransaction at h
  simp only [bind_eq_ok] at h
  obtain ⟨blocked, hblock, h⟩ := h
  obtain ⟨hkept, hsignalRuns, hruns⟩ := kept_blockIntent hblock
  cases hcur : fallbackCurrentRow intent.id blocked with
  | none =>
    simp only [loadFallbackAdvanceRows, hcur, Option.map_none, pure_eq_ok_iff] at h
    cases h
    exact .quiet hruns hsignalRuns hkept
  | some current =>
    simp only [loadFallbackAdvanceRows, hcur, Option.map_some] at h
    obtain ⟨-, -, hrun⟩ := fallbackCurrentRow_eq_some hcur
    rw [hruns] at hrun
    by_cases hact : current.run.status = .probing ∧ current.run.currentRank = current.candidate.rank
    · rw [if_pos hact] at h
      cases hnext : fallbackNextRow current.candidate blocked with
      | none =>
        simp only [hnext, pure_eq_ok_iff, Prod.mk.injEq] at h
        obtain ⟨-, rfl⟩ := h
        exact .refreshed hrun hact.1 rfl hsignalRuns ⟨_, by rw [← hruns]; rfl⟩
          ((hkept.trans kept_updateCandidates).trans (kept_updateRun (fun _ => rfl)))
      | some row =>
        simp only [hnext] at h
        by_cases hpol : reason ∈ current.candidate.fallbackOn
        · simp only [if_pos hpol, bind_eq_ok, pure_eq_ok_iff, Prod.mk.injEq] at h
          obtain ⟨⟨_, last⟩, hpromote, -, rfl⟩ := h
          obtain ⟨middle, hmid, hsame, hupdate, rfl⟩ := kept_promote hpromote
          exact .refreshed hrun hact.1 rfl (hsame.trans hsignalRuns) (by rwa [hruns] at hupdate)
            (hkept.trans hmid)
        · simp only [if_neg hpol, pure_eq_ok_iff, Prod.mk.injEq] at h
          obtain ⟨-, rfl⟩ := h
          exact .refreshed hrun hact.1 rfl hsignalRuns ⟨_, by rw [← hruns]; rfl⟩
            (((hkept.trans kept_updateCandidates).trans kept_updateCandidates).trans
              (kept_updateRun (fun _ => rfl)))
    · simp only [if_neg hact, pure_eq_ok_iff, Prod.mk.injEq] at h
      obtain ⟨-, rfl⟩ := h
      exact .quiet hruns hsignalRuns hkept

theorem select_reports (services : Services) (intentId : String) (db : Database) :
    Reports db (markWorkflowFallbackSelected services intentId db) := by
  unfold markWorkflowFallbackSelected
  cases hc : probingCandidate intentId db with
  | none => exact .quiet rfl rfl (.refl db)
  | some c =>
    obtain ⟨run, hp, -⟩ := probingCandidate_eq_some hc
    exact .refreshed hp.run hp.status rfl rfl ⟨_, rfl⟩
      ((kept_updateCandidates.trans kept_updateCandidates).trans (kept_updateRun (fun _ => rfl)))

theorem stop_reports (services : Services) (intentId reason : String) (db : Database) :
    Reports db (stopWorkflowFallback services intentId reason db) := by
  unfold stopWorkflowFallback
  cases hc : probingCandidate intentId db with
  | none => exact .quiet rfl rfl (.refl db)
  | some c =>
    obtain ⟨run, hp, -⟩ := probingCandidate_eq_some hc
    exact .refreshed hp.run hp.status rfl rfl ⟨_, rfl⟩
      (kept_updateCandidates.trans (kept_updateRun (fun _ => rfl)))

theorem Reports.kept (h : Reports db next) : Kept db next := by
  cases h with
  | quiet _ _ hkept => exact hkept
  | refreshed _ _ hnext _ _ hkept =>
    rw [hnext]
    exact hkept.trans (kept_refresh _ _ _)

end Reports

section Events

variable {services : Services} {request : WorkflowIntentInput} {workflow : WorkflowRevision}
variable {first db next : Database} {runId : String} {event : Event}

/-- Calls for the signal repeat its request, and intents go on but do not disappear. -/
def Admissible (services : Services) (request : WorkflowIntentInput) (workflow : WorkflowRevision)
    (db : Database) : Event → Database → Prop
  | .createWorkflowTradingIntents services' input, _ =>
    input = request ∧ Agrees services services' request workflow
  | .intents intents, _ => ∀ row ∈ db.intents.rows, ∃ row' ∈ intents.rows,
    row'.rootSourceSignalId = row.rootSourceSignalId ∧ row'.executionPathId = row.executionPathId
  | _, _ => True

/-- The step shows what became of the groups: a call without a probing fallback run finds the
intents as they were admitted, and the last fallback run to end speaks for the other groups. -/
structure Reported (services : Services) (request : WorkflowIntentInput)
    (workflow : WorkflowRevision)
    (first db : Database) (event : Event) (next : Database) : Prop where
  replay : (∃ services' input, event = .createWorkflowTradingIntents services' input) →
    (∀ run ∈ signalFallbackRuns request workflow db, run.status ≠ .probing) →
      Current services request workflow first db
  ending : (∃ run ∈ signalFallbackRuns request workflow db, run.status = .probing) →
    (∀ run ∈ signalFallbackRuns request workflow next, run.status ≠ .probing) →
      Spoken services request workflow first next

theorem signalFallbackRuns_other {other : String} {g : FallbackRun → FallbackRun}
    {middle : Database}
    (hkept : Kept db middle)
    (hruns : middle.runs.rows = SqlTable.updateWhere (·.id = other) g db.runs.rows)
    (hother : ∀ run ∈ db.runs.rows, run.id = other →
      ¬ (run.sourceSignalId = request.sourceSignalId ∧ run.workflowRevisionId = workflow.id)) :
    signalFallbackRuns request workflow middle = signalFallbackRuns request workflow db := by
  have hident := hkept.runs
  rw [hruns, SqlTable.updateWhere, List.map_map, List.map_inj_left] at hident
  rw [signalFallbackRuns, signalFallbackRuns, hruns, SqlTable.updateWhere, List.filter_map]
  have hsame : db.runs.rows.filter ((fun run : FallbackRun => decide (run.sourceSignalId =
        request.sourceSignalId ∧ run.workflowRevisionId = workflow.id)) ∘
      (fun run => if decide (run.id = other) = true then g run else run)) =
      db.runs.rows.filter (fun run => run.sourceSignalId = request.sourceSignalId ∧
        run.workflowRevisionId = workflow.id) := by
    apply List.filter_congr
    intro run hrun
    have hcols := hident run hrun
    simp only [Function.comp_apply, FallbackRun.identity, Prod.mk.injEq] at hcols ⊢
    rw [hcols.2.1, hcols.2.2.1]
  rw [hsame, List.map_congr_left (g := id)]
  · exact List.map_id _
  · intro run hrun
    obtain ⟨hmem, hsig⟩ := List.mem_filter.mp hrun
    rw [if_neg]
    · rfl
    · intro heq
      exact hother run hmem (of_decide_eq_true heq) (by simpa using hsig)

theorem Booked.reports (h : Booked services request workflow runId first db)
    (hreports : Reports db next)
    (hsafe : Safe db next)
    (hshows : Shows db runId (routeStatus (routeOutcomes services request workflow first db)))
    (hrep : Reported services request workflow first db event next) :
    Shows next runId (routeStatus (routeOutcomes services request workflow first next)) := by
  have hnext := h.kept hreports.kept hsafe
  cases hreports with
  | quiet hruns hsignalRuns hkept =>
    rw [routeOutcomes_congr hruns]
    obtain ⟨row, hrow, hstatus⟩ := hshows
    exact ⟨row, by rw [hsignalRuns, hrow], hstatus⟩
  | @refreshed services' id middle run hrun hprobe heq hsignalRuns hruns hkept =>
    have hsame := refresh_same services' id middle
    rw [← heq] at hsame
    have hmid : Booked services request workflow runId first middle := by
      apply h.kept hkept
      refine hsafe.trans (Touches.safe_elsewhere hsafe.sound ?_ ?_ ?_ ?_ ?_)
      · rw [hsame]
      · rw [hsame]
      · rw [hsame]
      · rw [hsame]
      · rw [hsame]
        exact fun _ h => h
    have hnextRuns : next.runs = middle.runs := by rw [hsame]
    have hsig : signalFallbackRuns request workflow next =
      signalFallbackRuns request workflow middle := by
      rw [signalFallbackRuns, hnextRuns, signalFallbackRuns]
    have hmem := Keyed.mem_of_find hrun
    have hident : run.identity ∈ middle.runs.rows.map (·.identity) := by
      rw [hkept.runs]
      exact List.mem_map_of_mem hmem
    obtain ⟨run', hrun', hcols⟩ := List.mem_map.mp hident
    simp only [FallbackRun.identity, Prod.mk.injEq] at hcols
    have hfind : middle.runs.find id = some run' :=
      Keyed.find_eq_some.mpr ⟨hrun', hcols.1.trans (Keyed.key_of_find hrun)⟩
    rw [routeOutcomes_congr hnextRuns, heq]
    by_cases hours : run.signalRunId = runId
    · apply hmid.refresh hfind (hcols.2.2.2.1.trans hours)
      intro hnone
      have hspoken := hrep.ending
        ⟨run, List.mem_filter.mpr ⟨hmem, by simpa using (h.runs run hmem).mp hours⟩, hprobe⟩
        (by rwa [hsig])
      exact ⟨hsig ▸ hspoken.admitted, hsig ▸ hspoken.refused⟩
    · have hother : ∀ run ∈ db.runs.rows, run.id = id →
        ¬ (run.sourceSignalId = request.sourceSignalId ∧
          run.workflowRevisionId = workflow.id) := by
        intro other hother hid hboth
        have hsome := Keyed.find_eq_some.mpr ⟨hother, hid⟩
        rw [hrun] at hsome
        obtain rfl := Option.some.inj hsome
        exact hours ((h.runs run hmem).mpr hboth)
      obtain ⟨g, hg⟩ := hruns
      have houtcomes : routeOutcomes services request workflow first middle =
          routeOutcomes services request workflow first db := by
        unfold routeOutcomes
        rw [signalFallbackRuns_other hkept hg hother]
      rw [houtcomes]
      apply shows_refresh_other
      · intro other hsome
        rw [hfind] at hsome
        rw [← Option.some.inj hsome, hcols.2.2.2.1]
        exact hours
      · obtain ⟨row, hrow, hstatus⟩ := hshows
        exact ⟨row, by rw [hsignalRuns, hrow], hstatus⟩

theorem Shows.congr {status : String} (h : Shows db runId status)
    (hsame : next.signalRuns = db.signalRuns) :
    Shows next runId status := by
  obtain ⟨row, hrow, hstatus⟩ := h
  exact ⟨row, by rw [hsame, hrow], hstatus⟩

theorem Kept.elsewhere (hruns : next.runs = db.runs) (hsignalRuns : next.signalRuns = db.signalRuns)
    (hints : next.intents = db.intents) : Kept db next := by
  refine ⟨by rw [hruns], by rw [hsignalRuns], ?_⟩
  rw [hints]
  exact fun row hrow => ⟨row, hrow, rfl, rfl⟩

/-- The rows of the signal with the status that they deserve. -/
structure Faithful (services : Services) (request : WorkflowIntentInput)
    (workflow : WorkflowRevision)
    (runId : String) (first db : Database) : Prop where
  booked : Booked services request workflow runId first db
  shows : Shows db runId (routeStatus (routeOutcomes services request workflow first db))

theorem Booked.step (h : Booked services request workflow runId first db)
    (hid : workflow.id = request.workflowRevisionId)
    (hadmissible : Admissible services request workflow db event next)
    (hstep : step db event = some next) :
    Kept db next ∧ (Shows db runId
      (routeStatus (routeOutcomes services request workflow first db)) →
      Reported services request workflow first db event next →
        Shows next runId (routeStatus (routeOutcomes services request workflow first next))) := by
  have hsafe := step_safe h.sound hstep
  have helsewhere : next.runs = db.runs → next.signalRuns = db.signalRuns →
      Shows db runId (routeStatus (routeOutcomes services request workflow first db)) →
        Shows next runId (routeStatus (routeOutcomes services request workflow first next)) := by
    intro hruns hsignalRuns hshows
    rw [routeOutcomes_congr hruns]
    exact hshows.congr hsignalRuns
  cases event with
  | createWorkflowTradingIntents services' input =>
    obtain ⟨rfl, hagrees⟩ := hadmissible
    obtain rfl := Option.some.inj hstep
    cases houtcome : Workflow.createWorkflowTradingIntents services' input db with
    | error thrown => exact ⟨.refl db, fun hshows _ => hshows⟩
    | ok pair =>
      rcases h.replay hid hagrees houtcome with hsame | ⟨hended, hshown⟩
      · rw [settle, hsame]
        exact ⟨.refl db, fun hshows _ => hshows⟩
      · refine ⟨hended.kept, ?_⟩
        intro _ hrep
        have hruns : pair.2.runs = db.runs := by rw [hended.same]
        rw [settle, routeOutcomes_congr hruns]
        exact hshown (hrep.replay ⟨services', input, rfl⟩)
  | advanceWorkflowFallbackOnEligibleFailure services' intent reason message =>
    obtain rfl := Option.some.inj hstep
    have hreports : Reports db (settle db
        (Workflow.advanceWorkflowFallbackOnEligibleFailure services' intent reason message
          db)) := by
      cases houtcome : Workflow.advanceWorkflowFallbackOnEligibleFailure services' intent reason
        message db with
      | error thrown => exact .quiet rfl rfl (.refl db)
      | ok pair => exact advance_reports houtcome
    exact ⟨hreports.kept, h.reports hreports hsafe⟩
  | markWorkflowFallbackSelected services' intentId =>
    obtain rfl := Option.some.inj hstep
    have hreports := select_reports services' intentId db
    exact ⟨hreports.kept, h.reports hreports hsafe⟩
  | stopWorkflowFallback services' intentId reason =>
    obtain rfl := Option.some.inj hstep
    have hreports := stop_reports services' intentId reason db
    exact ⟨hreports.kept, h.reports hreports hsafe⟩
  | saveRevision revision wellFormed | accounts accounts =>
    simp only [step] at hstep
    split_ifs at hstep
    cases hstep
    exact ⟨.elsewhere rfl rfl rfl, fun hshows _ => helsewhere rfl rfl hshows⟩
  | activate revisionId | runtime runtime =>
    cases hstep
    exact ⟨.elsewhere rfl rfl rfl, fun hshows _ => helsewhere rfl rfl hshows⟩
  | intents intents =>
    simp only [step] at hstep
    split_ifs at hstep
    cases hstep
    exact ⟨⟨rfl, rfl, hadmissible⟩, fun hshows _ => helsewhere rfl rfl hshows⟩

theorem booked_run {later : List Event} (h : Booked services request workflow runId first first)
    (hid : workflow.id = request.workflowRevisionId)
    (hadmissible : Trace.Along step (Admissible services request workflow) first later)
    (hrun : Trace.run step first later = some db) :
    Booked services request workflow runId first db := by
  have hstep : ∀ m event n, Admissible services request workflow m event n →
      Booked services request workflow runId first m → step m event = some n →
        Booked services request workflow runId first n :=
    fun m event n hstepAdmissible hm hstep =>
      hm.kept (hm.step hid hstepAdmissible hstep).1 (step_safe hm.sound hstep)
  exact Trace.run_along h hstep hadmissible hrun

theorem faithful_run {later : List Event} (h : Booked services request workflow runId first first)
    (hshows : Shows first runId (routeStatus (routeOutcomes services request workflow first first)))
    (hid : workflow.id = request.workflowRevisionId)
    (hadmissible : Trace.Along step (Admissible services request workflow) first later)
    (hrep : Trace.Along step (Reported services request workflow first) first later)
    (hrun : Trace.run step first later = some db) :
    Shows db runId (routeStatus (routeOutcomes services request workflow first db)) := by
  have hboth : Trace.Along step (fun m event n => Admissible services request workflow m event n ∧
      Reported services request workflow first m event n) first later :=
    fun before event after m n hsplit hm hn => ⟨hadmissible before event after m n hsplit hm hn,
      hrep before event after m n hsplit hm hn⟩
  have hfirst : Faithful services request workflow runId first first := ⟨h, hshows⟩
  refine (Trace.run_along hfirst ?_ hboth hrun).shows
  intro m event n hstepBoth hm hstep
  obtain ⟨hkept, hstatus⟩ := hm.booked.step hid hstepBoth.1 hstep
  exact ⟨hm.booked.kept hkept (step_safe hm.booked.sound hstep), hstatus hm.shows hstepBoth.2⟩

end Events

/-- After the first call for a signal that stored anything, whatever follows: a replay adds no
intent and changes no fallback run or candidate, and the status is what became of the route groups,
as long as every step shows that. -/
theorem signal_run_bookkeeping {services : Services} {request : WorkflowIntentInput}
    {workflow : WorkflowRevision} {db first t : Database} {results : List TradingIntent}
    {later : List Event}
    (hfresh : Fresh request workflow db)
    (hworkflow : db.revisions.find request.workflowRevisionId = some workflow)
    (hcreate : createWorkflowTradingIntents services request db = .ok (results, first))
    (hstored : ∃ row ∈ first.signalRuns.rows,
      row.sourceSignalId = request.sourceSignalId ∧ row.workflowRevisionId = workflow.id)
    (hadmissible : Trace.Along step (Admissible services request workflow) first later)
    (hrun : Trace.run step first later = some t) :
    (∀ services', Agrees services services' request workflow → ∀ results' next,
      createWorkflowTradingIntents services' request t = .ok (results', next) →
        next = { t with signalRuns := next.signalRuns }) ∧
    (Trace.Along step (Reported services request workflow first) first later →
      ∀ row ∈ t.signalRuns.rows, row.sourceSignalId = request.sourceSignalId →
        row.workflowRevisionId = workflow.id →
          row.status = routeStatus (routeOutcomes services request workflow first t)) := by
  have hid := Keyed.key_of_find hworkflow
  rcases create_cases hcreate with rfl | ⟨found, hfound, hpers⟩
  · obtain ⟨row, hrow, hsig⟩ := hstored
    exact absurd hsig (hfresh.signalRuns row hrow)
  rw [hworkflow] at hfound
  obtain rfl := Option.some.inj hfound
  obtain ⟨runId, hbooked, hshows⟩ := first_booked hfresh (by rw [hid, hworkflow]) hpers
  have hlater := booked_run hbooked hid hadmissible hrun
  constructor
  · intro services' hagrees results' next hok
    rcases hlater.replay hid hagrees hok with rfl | ⟨hended, -⟩
    · rfl
    · exact hended.same
  · intro hrep row hrow hsrc hrev
    obtain ⟨stored, hfind, hstatus⟩ := faithful_run hbooked hshows hid hadmissible hrep hrun
    have hkey := (hlater.row row hrow).mp ⟨hsrc, hrev⟩
    rw [Keyed.find_eq_some.mpr ⟨hrow, hkey⟩] at hfind
    rw [Option.some.inj hfind, hstatus]

section Example

/-- A stored revision, two accounts that are ready, and no signal yet. -/
theorem readyAccounts_nodup : ([⟨"one", "paper", .paper, .ready, true, false⟩,
    ⟨"two", "paper", .paper, .ready, true, false⟩] : List TradingAccount).map (·.id) |>.Nodup := by
  decide

def readyDatabase (revision : WorkflowRevision) : Database :=
  { Database.empty with
    revisions := ⟨[revision], by simp⟩
    activeRevisionId := some revision.id
    accounts :=
      ⟨[⟨"one", "paper", .paper, .ready, true, false⟩,
        ⟨"two", "paper", .paper, .ready, true, false⟩],
      readyAccounts_nodup⟩
    runtime := ⟨false, true, false⟩ }

theorem fresh_readyDatabase {revision : WorkflowRevision} (h : revision.WellFormed)
    (request : WorkflowIntentInput) : Fresh request revision (readyDatabase revision) := by
  constructor
  · constructor
    · intro stored hmem
      obtain rfl := List.mem_singleton.mp hmem
      exact h
    · intro id
      constructor <;> intros <;> simp_all
        [readyDatabase, Database.empty, Database.candidate, Keyed.find, Keyed.empty]
  · simp [readyDatabase, Database.empty, Keyed.empty]
  · rfl
  · simp [readyDatabase, Database.empty, Keyed.empty]
  · simp [readyDatabase, Database.empty, Keyed.empty, pathIntent]

def exampleRequest : WorkflowIntentInput :=
  ⟨"signal", "channel", "text", exampleSignal, none, none, "revision", none⟩

/-- The fallback run of two accounts is selected at the first, which completes the signal run. -/
theorem signal_run_completed : ∃ results first t,
    createWorkflowTradingIntents exampleServices exampleRequest (readyDatabase exampleRevision) =
      .ok (results, first) ∧
    Trace.run step first [.markWorkflowFallbackSelected exampleServices "intent-first"] = some t ∧
    t.signalRuns.rows.map (·.status) = ["completed"] ∧
    ∀ row ∈ t.signalRuns.rows, row.sourceSignalId = "signal" → row.workflowRevisionId = "revision" →
      row.status = routeStatus (routeOutcomes exampleServices exampleRequest exampleRevision first
        t) := by
  have hend : (createWorkflowTradingIntents exampleServices exampleRequest
      (readyDatabase exampleRevision)).toOption.map (fun made =>
        (made.2.signalRuns.rows.map (·.identity),
          (markWorkflowFallbackSelected exampleServices "intent-first" made.2).signalRuns.rows.map
            (·.status))) =
      some ([("signal-run", "signal", "revision")], ["completed"]) := by
    decide +kernel
  obtain ⟨⟨results, first⟩, hcreate, heq⟩ := Option.map_eq_some_iff.mp hend
  obtain ⟨hrows, hdone⟩ := Prod.mk.inj heq
  have hcreated := eq_ok_of_toOption hcreate
  have hstored : ∃ row ∈ first.signalRuns.rows,
      row.sourceSignalId = exampleRequest.sourceSignalId ∧
        row.workflowRevisionId = exampleRevision.id := by
    have hmem : ("signal-run", "signal", "revision") ∈ first.signalRuns.rows.map (·.identity) := by
      rw [hrows]
      exact List.mem_cons_self
    obtain ⟨row, hrow, hident⟩ := List.mem_map.mp hmem
    simp only [WorkflowSignalRun.identity, Prod.mk.injEq] at hident
    exact ⟨row, hrow, hident.2.1, hident.2.2⟩
  have hfb : ∀ g ∈ requestGroups exampleRequest exampleRevision, ∀ first,
      admission exampleServices exampleRequest exampleRevision first g = .fallback := by
    intro g hg first
    obtain rfl := List.mem_singleton.mp (requestGroups_subset hg)
    rfl
  have hrep : Trace.Along step (Reported exampleServices exampleRequest exampleRevision first) first
      [.markWorkflowFallbackSelected exampleServices "intent-first"] := by
    apply Trace.along_singleton
    intro t _
    constructor
    · rintro ⟨services', input, hevent⟩
      cases hevent
    · intro _ _
      constructor
      · rintro ⟨g, hg, hplain⟩
        rw [hfb g hg] at hplain
        cases hplain
      · rintro ⟨g, hg, hplain | hfiltd⟩
        · rw [hfb g hg] at hplain
          cases hplain
        · rw [hfb g hg] at hfiltd
          cases hfiltd
  have hadmissible : Trace.Along step
    (Admissible exampleServices exampleRequest exampleRevision) first
      [.markWorkflowFallbackSelected exampleServices "intent-first"] :=
    Trace.along_singleton (fun _ _ => trivial)
  refine ⟨results, first, _, hcreated, rfl, hdone, ?_⟩
  intro row hrow hsrc hrev
  exact (signal_run_bookkeeping (fresh_readyDatabase exampleRevision_wellFormed exampleRequest) rfl
    hcreated
    hstored hadmissible rfl).2 hrep row hrow hsrc hrev

def plainRevision : WorkflowRevision :=
  ⟨"revision", [examplePath 0 "first" "one" []],
    [⟨"group", "channel", "channel-node", "first", [⟨"first", "one", "one", 0, true, []⟩]⟩]⟩

/-- The intent that the first call stored, after the engine planned it. -/
def plannedIntent : TradingIntent := { exampleIntent with status := .planned }

theorem plainRevision_wellFormed : plainRevision.WellFormed := by
  refine ⟨?_, by decide⟩
  intro group hgroup
  obtain rfl := List.mem_singleton.mp hgroup
  exact ⟨by decide, by decide, by decide⟩

def laterEvents : List Event :=
  [.intents ⟨[plannedIntent], by simp⟩, .createWorkflowTradingIntents exampleServices
    exampleRequest]

theorem replay_changes_status : ((createWorkflowTradingIntents exampleServices exampleRequest
    (readyDatabase plainRevision)).toOption.bind (fun made =>
      (Trace.run step made.2 laterEvents).map (fun t =>
        (made.2.intents.rows.map (fun row => (row.rootSourceSignalId, row.executionPathId)),
          t.signalRuns.rows.map (fun row =>
            (row.sourceSignalId, row.workflowRevisionId, row.status)),
          routeStatus (routeOutcomes exampleServices exampleRequest plainRevision made.2 t))))) =
    some ([("signal", some "first")], [("signal", "revision", "blocked")], "completed") := by
  decide +kernel

/-- A replay after the intent was planned stores that an admitted signal is blocked. -/
theorem replay_rewrites_status : ¬ ∀ (services : Services) (request : WorkflowIntentInput)
    (workflow : WorkflowRevision) (db first t : Database) (results : List TradingIntent)
    (later : List Event),
    Fresh request workflow db → db.revisions.find request.workflowRevisionId = some workflow →
      createWorkflowTradingIntents services request db = .ok (results, first) →
        Trace.Along step (Admissible services request workflow) first later →
          Trace.run step first later = some t → ∀ row ∈ t.signalRuns.rows,
            row.sourceSignalId = request.sourceSignalId → row.workflowRevisionId = workflow.id →
              row.status = routeStatus (routeOutcomes services request workflow first t) := by
  intro hclaim
  obtain ⟨⟨results, first⟩, hcreate, hrest⟩ := Option.bind_eq_some_iff.mp replay_changes_status
  obtain ⟨t, hrun, heq⟩ := Option.map_eq_some_iff.mp hrest
  simp only [Prod.mk.injEq] at heq
  obtain ⟨hints, hrows, hdone⟩ := heq
  have hcreated := eq_ok_of_toOption hcreate
  have hadmissible : Trace.Along step
    (Admissible exampleServices exampleRequest plainRevision) first
      laterEvents := by
    apply Trace.along_cons
    intro planned hplan
    constructor
    · intro row hrow
      have hmem : (row.rootSourceSignalId, row.executionPathId) ∈ [("signal", some "first")] :=
        hints ▸ List.mem_map_of_mem hrow
      obtain ⟨hroot, hpath⟩ := Prod.mk.inj (List.mem_singleton.mp hmem)
      exact ⟨plannedIntent, List.mem_singleton_self _, hroot.symm, hpath.symm⟩
    · apply Trace.along_singleton
      intro replayed _
      refine ⟨rfl, ?_⟩
      intro path _ verdict verdict' h h'
      exact Except.ok.inj (h'.symm.trans h)
  have hmem : ("signal", "revision", "blocked") ∈
      t.signalRuns.rows.map (fun row =>
        (row.sourceSignalId, row.workflowRevisionId, row.status)) := by
    rw [hrows]
    exact List.mem_singleton_self _
  obtain ⟨row, hrow, hcols⟩ := List.mem_map.mp hmem
  simp only [Prod.mk.injEq] at hcols
  obtain ⟨hsrc, hrev, hstatus⟩ := hcols
  have hshown := hclaim exampleServices exampleRequest plainRevision
    (readyDatabase plainRevision) first t
    results laterEvents (fresh_readyDatabase plainRevision_wellFormed exampleRequest) rfl hcreated
      hadmissible
    hrun row hrow hsrc hrev
  rw [hstatus, hdone] at hshown
  exact absurd hshown (by decide)

end Example

end TsxCore.Workflow
