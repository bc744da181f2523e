import TsxCore.WorkflowFallbackExposure

/-!
# The status of a signal run

What became of each route group of a signal decides its status: nothing is decided while
a fallback run is probing, and a group is admitted by its intent or by the selection of
its fallback run. The lemmas below are about the first call for a signal.
-/

namespace TsxCore.Workflow

open Outcome

/-- What the first call for a signal made of a route group. -/
inductive Admission
  | filtered
  | plain (admitted : Bool)
  | fallback
  deriving DecidableEq

/-- Whether a group is admitted, once that is decided. -/
def FallbackRunStatus.outcome : FallbackRunStatus → Option Bool
  | .probing => none
  | .selected => some true
  | .exhausted | .stopped => some false

def Admission.outcome (runs : List FallbackRun) (key : String) : Admission → Option Bool
  | .filtered => some false
  | .plain admitted => some admitted
  | .fallback => (runs.find? (·.routeGroupKey = key)).elim (some false) (·.status.outcome)

def routeStatus (outcomes : List (Option Bool)) : String :=
  if none ∈ outcomes then "running"
  else if some true ∉ outcomes then "blocked"
  else if some false ∈ outcomes then "partially_blocked"
  else "completed"

section Routes

variable (services : Services) (request : WorkflowIntentInput) (workflow : WorkflowRevision)

def requestGroups : List WorkflowRouteGroup :=
  let requested := request.executionPathIds.map List.dedup
  let selectedPathIds := ((workflow.paths.filter (·.channelId = request.channelId)).filter
    (fun path => requested.all (path.id ∈ ·))).map (·.id)
  workflow.routeGroups.filter (fun group => group.channelId = request.channelId ∧
    group.candidates.any (fun candidate => candidate.pathId ∈ selectedPathIds))

def signalFallbackRuns (db : Database) : List FallbackRun :=
  db.runs.rows.filter (fun run =>
    run.sourceSignalId = request.sourceSignalId ∧ run.workflowRevisionId = workflow.id)

def pathIntent (path : WorkflowExecutionPath) (db : Database) : Option TradingIntent :=
  db.intents.rows.find? (fun row =>
    row.rootSourceSignalId = request.sourceSignalId ∧ row.executionPathId = some path.id)

/-- The admission of a group, with the intents as the first call left them. -/
def admission (first : Database) (group : WorkflowRouteGroup) : Admission :=
  match workflow.paths.find? (·.id = group.primaryPathId) with
  | none => .filtered
  | some primary =>
    match services.pathAllowsInput primary request with
    | .ok .allowed =>
      if 1 < group.candidates.length then .fallback
      else .plain ((pathIntent request primary first).any (·.status = .pending))
    | _ => .filtered

def routeOutcomes (first db : Database) : List (Option Bool) :=
  (requestGroups request workflow).map (fun group =>
    (admission services request workflow first group).outcome
      (signalFallbackRuns request workflow db)
      group.key)

end Routes

section Outcomes

variable {outcomes : List (Option Bool)} {runs : List FallbackRun}
  {groups : List WorkflowRouteGroup}
variable {admitted : WorkflowRouteGroup → Admission}

/-- The outcomes of the groups, seen from their fallback runs and from the other groups. -/
theorem mem_outcomes (hgrps : (groups.map (·.key)).Nodup)
    (hkeys : runs.map (·.routeGroupKey) = (groups.filter (fun g => admitted g = .fallback)).map
      (·.key))
    (o : Option Bool) : o ∈ groups.map (fun g => (admitted g).outcome runs g.key) ↔
      (∃ g ∈ groups, (admitted g = .filtered ∧ o = some false) ∨
        ∃ b, admitted g = .plain b ∧ o = some b) ∨
        ∃ run ∈ runs, run.status.outcome = o := by
  have hnodup : (runs.map (·.routeGroupKey)).Nodup := by
    rw [hkeys]
    exact hgrps.sublist (List.filter_sublist.map _)
  rw [List.mem_map]
  constructor
  · rintro ⟨g, hg, heq⟩
    cases hadm : admitted g with
    | filtered =>
      rw [hadm] at heq
      exact .inl ⟨g, hg, .inl ⟨hadm, heq.symm⟩⟩
    | plain b =>
      rw [hadm] at heq
      exact .inl ⟨g, hg, .inr ⟨b, hadm, heq.symm⟩⟩
    | fallback =>
      rw [hadm] at heq
      have hkey : g.key ∈ runs.map (·.routeGroupKey) := by
        rw [hkeys]
        exact List.mem_map_of_mem (List.mem_filter.mpr ⟨hg, by simp [hadm]⟩)
      obtain ⟨run, hrun, hsame⟩ := List.mem_map.mp hkey
      cases hfind : runs.find? (·.routeGroupKey = g.key) with
      | none => simpa [hsame] using List.find?_eq_none.mp hfind run hrun
      | some found =>
        rw [Admission.outcome, hfind] at heq
        exact .inr ⟨found, List.mem_of_find?_eq_some hfind, heq⟩
  · rintro (⟨g, hg, ⟨hadm, rfl⟩ | ⟨b, hadm, rfl⟩⟩ | ⟨run, hrun, rfl⟩)
    · exact ⟨g, hg, by rw [hadm]; rfl⟩
    · exact ⟨g, hg, by rw [hadm]; rfl⟩
    · have hkey : run.routeGroupKey ∈ runs.map (·.routeGroupKey) := List.mem_map_of_mem hrun
      rw [hkeys] at hkey
      obtain ⟨g, hg, hsame⟩ := List.mem_map.mp hkey
      obtain ⟨hgroup, hadm⟩ := List.mem_filter.mp hg
      refine ⟨g, hgroup, ?_⟩
      rw [of_decide_eq_true hadm, Admission.outcome]
      cases hfind : runs.find? (·.routeGroupKey = g.key) with
      | none => exact absurd hsame.symm (by simpa using List.find?_eq_none.mp hfind run hrun)
      | some found =>
        have hfound := List.find?_some hfind
        rw [List.inj_on_of_nodup_map hnodup (List.mem_of_find?_eq_some hfind) hrun
          ((of_decide_eq_true hfound).trans hsame)]
        rfl

theorem workflowRunStatus_eq {results : List TradingIntent} {branches : List Branch}
    (hopen : none ∉ outcomes) (hpend : (∃ i ∈ results, i.status = .pending) ↔ some true ∈ outcomes)
    (hblocked : some true ∈ outcomes → (((∃ i ∈ results, i.status = .blocked) ∨
      ∃ b ∈ branches, b.status = some "filtered") ↔ some false ∈ outcomes)) :
    workflowRunStatus results branches = routeStatus outcomes := by
  unfold workflowRunStatus routeStatus
  rw [if_neg hopen]
  by_cases htrue : some true ∈ outcomes
  · rw [if_neg (not_not.mpr htrue)]
    have hany : results.any (·.status = .pending) = true := by simpa using hpend.mpr htrue
    rw [hany]
    by_cases hfalse : some false ∈ outcomes
    · have hsome := (hblocked htrue).mpr hfalse
      rw [if_pos hfalse, if_neg (by simp), if_pos]
      simpa using hsome
    · have hnone := mt (hblocked htrue).mp hfalse
      rw [if_neg hfalse, if_neg (by simp), if_neg]
      simpa using hnone
  · rw [if_pos htrue]
    have hany : results.any (·.status = .pending) = false := by
      rw [Bool.eq_false_iff]
      intro hsome
      exact htrue (hpend.mp (by simpa using hsome))
    rw [hany]
    rfl

theorem fallbackRunStatus_eq {probing blocked selected : Bool}
    (hprobe : probing = true ↔ none ∈ outcomes)
    (hsome : probing = true ∨ blocked = true ∨ selected = true)
    (hsel : none ∉ outcomes → (selected = true ↔ some true ∈ outcomes))
    (hblocked : none ∉ outcomes → (blocked = true ↔ some false ∈ outcomes)) :
    fallbackRunStatus probing blocked selected = routeStatus outcomes := by
  unfold fallbackRunStatus routeStatus
  by_cases hopen : none ∈ outcomes
  · rw [if_pos hopen, if_pos (hprobe.mpr hopen)]
  · have hsel := hsel hopen
    have hblocked := hblocked hopen
    rw [if_neg hopen, if_neg (mt hprobe.mp hopen)]
    cases hs : selected <;> cases hb : blocked <;> simp_all

end Outcomes

section Creating

variable {services : Services} {request : WorkflowIntentInput} {workflow : WorkflowRevision}
variable {group : WorkflowRouteGroup} {path primary : WorkflowExecutionPath}
  {db middle next : Database}
variable {runId : String} {intent : TradingIntent}

/-- An intent is found for its path, and those of other paths are found as before. -/
structure Created (request : WorkflowIntentInput) (path : WorkflowExecutionPath)
    (db next : Database)
    (intent : TradingIntent) : Prop where
  found : pathIntent request path next = some intent
  kept : ∀ other i, pathIntent request other db = some i → pathIntent request other next = some i
  new : ∀ other i, pathIntent request other next = some i →
    pathIntent request other db = some i ∨ i.status = .pending ∨ i.status = .blocked

theorem Created.append {i : TradingIntent} (hrows : next.intents.rows = db.intents.rows ++ [i])
    (hnone : pathIntent request path db = none)
    (hroot : i.rootSourceSignalId = request.sourceSignalId)
    (hpath : i.executionPathId = some path.id)
    (hstatus : i.status = .pending ∨ i.status = .blocked) :
    Created request path db next i where
  found := by
    rw [pathIntent] at hnone
    rw [pathIntent, hrows, List.find?_append, hnone, Option.none_or]
    simp [hroot, hpath]
  kept other j hj := by
    rw [pathIntent] at hj
    rw [pathIntent, hrows, List.find?_append, hj, Option.some_or]
  new other j hj := by
    rw [pathIntent, hrows, List.find?_append] at hj
    cases hold : pathIntent request other db with
    | some k =>
      rw [pathIntent] at hold
      rw [hold, Option.some_or] at hj
      exact .inl hj
    | none =>
      rw [pathIntent] at hold
      rw [hold, Option.none_or] at hj
      have hmem := List.mem_singleton.mp (List.mem_of_find?_eq_some hj)
      exact .inr (hmem ▸ hstatus)

theorem pathIntent_congr (h : next.intents = db.intents) :
    pathIntent request path next = pathIntent request path db := by
  rw [pathIntent, pathIntent, h]

theorem Created.congr {db' next' : Database} {i : TradingIntent}
    (h : Created request path db next i)
    (hdb : db'.intents = db.intents) (hnext : next'.intents = next.intents) :
    Created request path db' next' i where
  found := by
    rw [pathIntent_congr hnext]
    exact h.found
  kept other j hj := by
    rw [pathIntent_congr hnext]
    exact h.kept other j (by rwa [pathIntent_congr hdb] at hj)
  new other j hj := by
    rw [pathIntent_congr hdb]
    exact h.new other j (by rwa [pathIntent_congr hnext] at hj)

theorem process_created {result : Option TradingIntent} {branch : Option Branch}
    (hallowed : services.pathAllowsInput path request = .ok .allowed)
    (h : processWorkflowIntentPath services request workflow path runId db =
      .ok ((result, branch), next)) :
    ∃ i, result = some i ∧ Created request path db next i ∧
      (∀ b ∈ branch, b.status ≠ some "filtered") ∧
      next = { db with intents := next.intents } := by
  unfold processWorkflowIntentPath at h
  rw [hallowed, ok_bind] at h
  simp only at h
  split at h
  · rename_i existing hex
    simp only [pure_eq_ok_iff, Prod.mk.injEq] at h
    obtain ⟨⟨rfl, rfl⟩, rfl⟩ := h
    exact ⟨existing, rfl, ⟨hex, fun _ _ h => h, fun _ _ h => .inl h⟩, by simp, rfl⟩
  · rename_i hnone
    simp only [bind_eq_ok, pure_eq_ok_iff, Prod.mk.injEq] at h
    obtain ⟨account, -, inserted, hinsert, ⟨rfl, rfl⟩, rfl⟩ := h
    unfold insertIntent at hinsert
    simp only [bind_eq_ok, throwIf_eq_ok, pure_eq_ok_iff, Bool.not_eq_true, Bool.not_eq_false']
      at hinsert
    obtain ⟨-, -, -, hnew, rfl⟩ := hinsert
    refine ⟨_, rfl, ?_, ?_, rfl⟩
    · apply Created.append
      · apply Keyed.rows_insert
        rwa [Keyed.insert_fst, Option.isNone_iff_eq_none] at hnew
      · exact hnone
      · rfl
      · rfl
      · dsimp only
        split_ifs
        · exact .inr rfl
        · exact .inl rfl
    · intro b hb
      obtain rfl := Option.some.inj hb
      dsimp only
      split_ifs
      · decide
      · decide

theorem rows_updateRun {run : FallbackRun} {rows : List FallbackRun} {f : FallbackRun → FallbackRun}
    {hf : ∀ run, (f run).id = run.id} (hrows : db.runs.rows = rows ++ [run])
    (hnone : ∀ row ∈ rows, row.id ≠ run.id) :
    (db.updateRun run.id f hf).runs.rows = rows ++ [f run] := by
  have hmap : (db.updateRun run.id f hf).runs.rows =
      db.runs.rows.map (fun row => if row.id = run.id then f row else row) := by
    simp [Database.updateRun, Keyed.update, SqlTable.updateWhere]
  rw [hmap, hrows, List.map_append, List.map_singleton, if_pos rfl]
  congr 1
  rw [List.map_congr_left (g := id)]
  · exact List.map_id rows
  · intro row hrow
    exact if_neg (hnone row hrow)

/-- The first fallback run of a route group is stored behind the others. -/
structure Started (request : WorkflowIntentInput) (workflow : WorkflowRevision)
    (group : WorkflowRouteGroup) (runId : String) (intent : TradingIntent)
    (db next : Database) : Prop where
  signalRuns : next.signalRuns = db.signalRuns
  run : ∃ run, next.runs.rows = db.runs.rows ++ [run] ∧
    run.sourceSignalId = request.sourceSignalId ∧
    run.workflowRevisionId = workflow.id ∧ run.signalRunId = runId ∧ run.routeGroupKey = group.key ∧
      run.status = if intent.status = .pending then .probing else .stopped

theorem fallback_created {intents : List TradingIntent} {branches : List Branch} (h : Sound db)
    (hworkflow : db.revisions.find workflow.id = some workflow)
    (hgroup : group ∈ workflow.routeGroups)
    (hprim : workflow.paths.find? (·.id = group.primaryPathId) = some primary)
    (hallowed : services.pathAllowsInput primary request = .ok .allowed)
    (hnone : db.runs.rows.any (fun row => row.sourceSignalId = request.sourceSignalId ∧
      row.workflowRevisionId = workflow.id ∧ row.routeGroupKey = group.key) = false)
    (hok : persistFallbackRouteGroup services request workflow group runId db =
      .ok ((intents, branches), next)) :
    ∃ i, intents = [i] ∧ Created request primary db next i ∧
      (∀ b ∈ branches, b.status ≠ some "filtered") ∧
        Started request workflow group runId i db next := by
  obtain ⟨run, begun, intent, branch, inserted, linked, hnew, hsame, hb, -, hprocess, hlink,
    hres, hnext⟩ := persistFallbackRouteGroup_fresh h hworkflow hgroup hprim hallowed hnone hok
  obtain ⟨rfl, rfl⟩ := Prod.mk.inj hres
  obtain ⟨i, hi, hcreated, hbranch, honly⟩ := process_created hallowed hprocess
  obtain rfl := Option.some.inj hi
  have hlinked : linked = { inserted with candidates := linked.candidates } := by
    unfold linkCandidate at hlink
    simp only [bind_eq_ok, pure_eq_ok_iff] at hlink
    obtain ⟨-, -, rfl⟩ := hlink
    rfl
  have hrows : linked.runs.rows = db.runs.rows ++ [run] := by
    have hruns : linked.runs = (db.runs.insert run).2 := by
      rw [hlinked, honly, hsame]
    rw [hruns, Keyed.rows_insert hb.fresh]
  have hothers : ∀ row ∈ db.runs.rows, row.id ≠ run.id := Keyed.find_eq_none.mp hb.fresh
  have hints : next.intents = inserted.intents := by
    rw [hnext]
    split_ifs
    · rw [hlinked]
      rfl
    · rw [hlinked]
  have hsignalRuns : next.signalRuns = db.signalRuns := by
    have hbase : linked.signalRuns = db.signalRuns := by
      rw [hlinked, honly, hsame]
    rw [hnext, ← hbase]
    split_ifs
    · rfl
    · rfl
  refine ⟨intent, rfl, ?_, ?_, hsignalRuns, ?_⟩
  · apply hcreated.congr
    · rw [hsame]
    · exact hints
  · intro b hb
    obtain rfl := List.mem_singleton.mp hb
    cases branch with
    | none =>
      intro hfiltered
      cases hfiltered
    | some branch => exact hbranch branch rfl
  · by_cases hpend : intent.status = .pending
    · rw [if_neg (by simpa using hpend)] at hnext
      refine ⟨run, hnext ▸ hrows, ?_⟩
      rw [hnew, if_pos hpend]
      exact ⟨rfl, rfl, rfl, rfl, rfl⟩
    · rw [if_pos hpend] at hnext
      rw [hnext, runs_updateCandidates, rows_updateRun hrows hothers, hnew]
      exact ⟨_, rfl, rfl, rfl, rfl, rfl, (if_neg hpend).symm⟩

/-- One round of the first call, for a group that is not filtered. -/
structure Admitted (services : Services) (request : WorkflowIntentInput)
    (workflow : WorkflowRevision)
    (group : WorkflowRouteGroup) (runId : String) (db next : Database)
    (intent : TradingIntent) : Prop where
  primary : ∃ primary, workflow.paths.find? (·.id = group.primaryPathId) = some primary ∧
    services.pathAllowsInput primary request = .ok .allowed ∧ Created request primary db next intent
  runs : (¬ 1 < group.candidates.length ∧ next.runs = db.runs ∧ next.signalRuns = db.signalRuns) ∨
    (1 < group.candidates.length ∧ Started request workflow group runId intent db next)

theorem round_cases {results results' : List TradingIntent} {branches branches' : List Branch}
    (h : Sound db) (hworkflow : db.revisions.find workflow.id = some workflow)
    (hgroup : group ∈ workflow.routeGroups)
    (hnone : db.runs.rows.any (fun row => row.sourceSignalId = request.sourceSignalId ∧
      row.workflowRevisionId = workflow.id ∧ row.routeGroupKey = group.key) = false)
    (hok : persistRouteGroup services request workflow runId ((results, branches), db) group =
      .ok ((results', branches'), next)) :
    (∃ primary reason b, workflow.paths.find? (·.id = group.primaryPathId) = some primary ∧
      services.pathAllowsInput primary request = .ok (.filtered reason) ∧ next = db ∧
        results' = results ∧ branches' = branches ++ [b] ∧ b.status = some "filtered") ∨
    ∃ i more, Admitted services request workflow group runId db next i ∧ results' = results ++ [i] ∧
      branches' = branches ++ more ∧ ∀ b ∈ more, b.status ≠ some "filtered" := by
  unfold persistRouteGroup at hok
  simp only at hok
  split at hok
  · cases hok
  rename_i primary hprim
  rw [bind_eq_ok] at hok
  obtain ⟨verdict, hverd, hok⟩ := hok
  cases verdict with
  | filtered reason =>
    simp only [pure_eq_ok_iff, Prod.mk.injEq] at hok
    obtain ⟨⟨rfl, rfl⟩, rfl⟩ := hok
    exact .inl ⟨primary, reason, _, hprim, hverd, rfl, rfl, rfl, rfl⟩
  | allowed =>
    right
    simp only at hok
    split_ifs at hok with hlen
    · simp only [bind_eq_ok, pure_eq_ok_iff, Prod.mk.injEq] at hok
      obtain ⟨⟨⟨intents, more⟩, last⟩, hpers, ⟨rfl, rfl⟩, rfl⟩ := hok
      obtain ⟨i, rfl, hcreated, hbranches, hstart⟩ :=
        fallback_created h hworkflow hgroup hprim hverd hnone hpers
      exact ⟨i, more, ⟨⟨primary, hprim, hverd, hcreated⟩, .inr ⟨hlen, hstart⟩⟩, rfl, rfl,
        hbranches⟩
    · simp only [bind_eq_ok, pure_eq_ok_iff, Prod.mk.injEq] at hok
      obtain ⟨⟨⟨intent, branch⟩, last⟩, hprocess, ⟨rfl, rfl⟩, rfl⟩ := hok
      obtain ⟨i, rfl, hcreated, hbranch, honly⟩ := process_created hverd hprocess
      refine ⟨i, branch.toList, ⟨⟨primary, hprim, hverd, hcreated⟩, .inl ⟨hlen, ?_, ?_⟩⟩, rfl,
        rfl, ?_⟩
      · rw [honly]
      · rw [honly]
      · simpa using hbranch

/-- The outcomes of the groups that are done, seen from what the call has gathered. -/
structure Processed (services : Services) (request : WorkflowIntentInput)
    (workflow : WorkflowRevision)
    (runId : String) (start db : Database) (done : List WorkflowRouteGroup)
    (results : List TradingIntent)
    (branches : List Branch) : Prop where
  signalRuns : db.signalRuns = start.signalRuns
  others : ∀ run ∈ db.runs.rows, run ∈ start.runs.rows ∨
    run ∈ signalFallbackRuns request workflow db
  runs : ∀ run ∈ signalFallbackRuns request workflow db,
    run.signalRunId = runId ∧ (run.status = .probing ∨ run.status = .stopped)
  keys : (signalFallbackRuns request workflow db).map (·.routeGroupKey) =
    (done.filter (fun g => admission services request workflow db g = .fallback)).map (·.key)
  statuses : ∀ path ∈ workflow.paths, ∀ i, pathIntent request path db = some i →
    i.status = .pending ∨ i.status = .blocked
  judged : ∀ g ∈ done, ∃ primary verdict, workflow.paths.find? (·.id = g.primaryPathId) =
    some primary ∧
    services.pathAllowsInput primary request = .ok verdict
  stored : ∀ g ∈ done, ∀ primary, workflow.paths.find? (·.id = g.primaryPathId) = some primary →
    services.pathAllowsInput primary request = .ok .allowed → (pathIntent request primary db).isSome
  pending : (∃ i ∈ results, i.status = .pending) ↔
    (∃ g ∈ done, admission services request workflow db g = .plain true) ∨
      ∃ run ∈ signalFallbackRuns request workflow db, run.status = .probing
  blocked : (∃ i ∈ results, i.status = .blocked) ↔
    (∃ g ∈ done, admission services request workflow db g = .plain false) ∨
      ∃ run ∈ signalFallbackRuns request workflow db, run.status = .stopped
  filtered : (∃ b ∈ branches, b.status = some "filtered") ↔
    ∃ g ∈ done, admission services request workflow db g = .filtered

theorem admission_kept (hkept : ∀ other i, pathIntent request other db = some i →
      pathIntent request other next = some i)
    (hstored : ∀ primary, workflow.paths.find? (·.id = group.primaryPathId) = some primary →
      services.pathAllowsInput primary request = .ok .allowed →
        (pathIntent request primary db).isSome) :
    admission services request workflow next group =
      admission services request workflow db group := by
  unfold admission
  cases hprim : workflow.paths.find? (·.id = group.primaryPathId) with
  | none => rfl
  | some primary =>
    dsimp only
    cases hverd : services.pathAllowsInput primary request with
    | error thrown => rfl
    | ok verdict =>
      cases verdict with
      | filtered reason => rfl
      | allowed =>
        dsimp only
        obtain ⟨i, hi⟩ := Option.isSome_iff_exists.mp (hstored primary hprim hverd)
        rw [hi, hkept primary i hi]

theorem admission_filtered {reason : String}
    (hprim : workflow.paths.find? (·.id = group.primaryPathId) = some primary)
    (hverd : services.pathAllowsInput primary request = .ok (.filtered reason)) :
    admission services request workflow db group = .filtered := by
  rw [admission, hprim]
  dsimp only
  rw [hverd]

theorem admission_allowed
    (hprim : workflow.paths.find? (·.id = group.primaryPathId) = some primary)
    (hverd : services.pathAllowsInput primary request = .ok .allowed) :
    admission services request workflow db group = if 1 < group.candidates.length then .fallback
      else .plain ((pathIntent request primary db).any (·.status = .pending)) := by
  rw [admission, hprim]
  dsimp only
  rw [hverd]

variable {start : Database} {done : List WorkflowRouteGroup} {results : List TradingIntent}
variable {branches : List Branch}

theorem exists_mem_concat {α : Type} {P : α → Prop} {as : List α} {a : α} :
    (∃ x ∈ as ++ [a], P x) ↔ (∃ x ∈ as, P x) ∨ P a := by
  simp only [List.mem_append, List.mem_singleton, or_and_right, exists_or, exists_eq_left]

theorem Processed.skip {b : Branch} {reason : String}
    (h : Processed services request workflow runId start db done results branches)
    (hprim : workflow.paths.find? (·.id = group.primaryPathId) = some primary)
    (hverd : services.pathAllowsInput primary request = .ok (.filtered reason))
    (hb : b.status = some "filtered") :
    Processed services request workflow runId start db (done ++ [group]) results
      (branches ++ [b]) := by
  have hfiltd : admission services request workflow db group = .filtered :=
    admission_filtered hprim hverd
  refine ⟨h.signalRuns, h.others, h.runs, ?_, h.statuses, ?_, ?_, ?_, ?_, ?_⟩
  · simp [h.keys, List.filter_append, hfiltd]
  · intro g hg
    rcases List.mem_append.mp hg with hdone | hlast
    · exact h.judged g hdone
    · obtain rfl := List.mem_singleton.mp hlast
      exact ⟨primary, _, hprim, hverd⟩
  · intro g hg other hother hallowed
    rcases List.mem_append.mp hg with hdone | hlast
    · exact h.stored g hdone other hother hallowed
    · obtain rfl := List.mem_singleton.mp hlast
      rw [hprim] at hother
      rw [← Option.some.inj hother, hverd] at hallowed
      cases hallowed
  · rw [h.pending, exists_mem_concat]
    simp [hfiltd]
  · rw [h.blocked, exists_mem_concat]
    simp [hfiltd]
  · rw [exists_mem_concat, exists_mem_concat, h.filtered]
    simp [hfiltd, hb]

theorem Processed.admit {more : List Branch}
    (h : Processed services request workflow runId start db done results branches)
    (ha : Admitted services request workflow group runId db next intent)
    (hmore : ∀ b ∈ more, b.status ≠ some "filtered") :
    Processed services request workflow runId start next (done ++ [group]) (results ++ [intent])
      (branches ++ more) := by
  obtain ⟨primary, hprim, hallowed, hcreated⟩ := ha.primary
  have hmem : primary ∈ workflow.paths := List.mem_of_find?_eq_some hprim
  have hstatus : intent.status = .pending ∨ intent.status = .blocked := by
    rcases hcreated.new primary intent hcreated.found with hold | hnew
    · exact h.statuses primary hmem intent hold
    · exact hnew
  have hsame : ∀ g ∈ done, admission services request workflow next g =
      admission services request workflow db g :=
    fun g hg => admission_kept hcreated.kept (h.stored g hg)
  have hdone : ∀ a, (∃ g ∈ done, admission services request workflow next g = a) ↔
      ∃ g ∈ done, admission services request workflow db g = a := by
    intro a
    constructor
    · rintro ⟨g, hg, heq⟩
      exact ⟨g, hg, hsame g hg ▸ heq⟩
    · rintro ⟨g, hg, heq⟩
      exact ⟨g, hg, (hsame g hg).trans heq⟩
  have hfallbacks : done.filter (fun g => admission services request workflow next g = .fallback) =
      done.filter (fun g => admission services request workflow db g = .fallback) := by
    apply List.filter_congr
    intro g hg
    rw [hsame g hg]
  have hgroup : admission services request workflow next group = _ :=
    admission_allowed hprim hallowed
  rw [hcreated.found, Option.any_some] at hgroup
  have hstored : ∀ g ∈ done ++ [group], ∀ primary,
      workflow.paths.find? (·.id = g.primaryPathId) = some primary →
        services.pathAllowsInput primary request = .ok .allowed →
          (pathIntent request primary next).isSome := by
    intro g hg other hother hverd
    rcases List.mem_append.mp hg with hold | hlast
    · obtain ⟨i, hi⟩ := Option.isSome_iff_exists.mp (h.stored g hold other hother hverd)
      rw [hcreated.kept other i hi]
      rfl
    · obtain rfl := List.mem_singleton.mp hlast
      rw [hprim] at hother
      obtain rfl := Option.some.inj hother
      rw [hcreated.found]
      rfl
  have hjudged : ∀ g ∈ done ++ [group], ∃ primary verdict,
      workflow.paths.find? (·.id = g.primaryPathId) = some primary ∧
        services.pathAllowsInput primary request = .ok verdict := by
    intro g hg
    rcases List.mem_append.mp hg with hold | hlast
    · exact h.judged g hold
    · obtain rfl := List.mem_singleton.mp hlast
      exact ⟨primary, _, hprim, hallowed⟩
  have hstatuses : ∀ path ∈ workflow.paths, ∀ i, pathIntent request path next = some i →
      i.status = .pending ∨ i.status = .blocked := by
    intro path hpath i hi
    rcases hcreated.new path i hi with hold | hnew
    · exact h.statuses path hpath i hold
    · exact hnew
  have hfiltd : (∃ b ∈ branches ++ more, b.status = some "filtered") ↔
      ∃ b ∈ branches, b.status = some "filtered" := by
    constructor
    · rintro ⟨b, hb, heq⟩
      rcases List.mem_append.mp hb with hold | hnew
      · exact ⟨b, hold, heq⟩
      · exact absurd heq (hmore b hnew)
    · rintro ⟨b, hb, heq⟩
      exact ⟨b, List.mem_append_left _ hb, heq⟩
  rcases ha.runs with ⟨hlen, hruns, hsignalRuns⟩ | ⟨hlen, hsignalRuns, run, hrows, hsrc, hrev,
    hrun, hkey, hrunStatus⟩
  · have hsig : signalFallbackRuns request workflow next =
      signalFallbackRuns request workflow db := by
      rw [signalFallbackRuns, hruns, signalFallbackRuns]
    rw [if_neg hlen] at hgroup
    refine ⟨hsignalRuns.trans h.signalRuns, ?_, ?_, ?_, hstatuses, hjudged, hstored, ?_, ?_, ?_⟩
    · rw [hsig, hruns]
      exact h.others
    · rw [hsig]
      exact h.runs
    · rw [hsig, h.keys, List.filter_append, hfallbacks]
      simp [hgroup]
    · rw [exists_mem_concat, exists_mem_concat, h.pending, hdone, hsig, hgroup]
      rcases hstatus with hs | hs <;> simp [hs]
    · rw [exists_mem_concat, exists_mem_concat, h.blocked, hdone, hsig, hgroup]
      rcases hstatus with hs | hs <;> simp [hs]
    · rw [hfiltd, h.filtered, exists_mem_concat, hdone, hgroup]
      simp
  · have hsig : signalFallbackRuns request workflow next =
        signalFallbackRuns request workflow db ++ [run] := by
      rw [signalFallbackRuns, hrows, List.filter_append, signalFallbackRuns]
      simp [hsrc, hrev]
    rw [if_pos hlen] at hgroup
    refine ⟨hsignalRuns.trans h.signalRuns, ?_, ?_, ?_, hstatuses, hjudged, hstored, ?_, ?_, ?_⟩
    · intro other hother
      rw [hsig, List.mem_append]
      rw [hrows, List.mem_append] at hother
      rcases hother with hold | hnew
      · exact (h.others other hold).imp_right .inl
      · exact .inr (.inr hnew)
    · intro other hother
      rw [hsig, List.mem_append, List.mem_singleton] at hother
      rcases hother with hold | rfl
      · exact h.runs other hold
      · refine ⟨hrun, ?_⟩
        rw [hrunStatus]
        rcases hstatus with hs | hs <;> simp [hs]
    · rw [hsig, List.map_append, h.keys, List.filter_append, hfallbacks]
      simp [hgroup, hkey]
    · rw [exists_mem_concat, exists_mem_concat, h.pending, hdone, hsig, exists_mem_concat, hgroup,
        hrunStatus]
      rcases hstatus with hs | hs <;> simp [hs]
    · rw [exists_mem_concat, exists_mem_concat, h.blocked, hdone, hsig, exists_mem_concat, hgroup,
        hrunStatus]
      rcases hstatus with hs | hs <;> simp [hs]
    · rw [hfiltd, h.filtered, exists_mem_concat, hdone, hgroup]
      simp

theorem processed_fold {groups : List WorkflowRouteGroup}
    {state result : (List TradingIntent × List Branch) × Database} (hs : Sound state.2)
    (hworkflow : state.2.revisions.find workflow.id = some workflow)
    (hgrps : ∀ g ∈ groups, g ∈ workflow.routeGroups) (hkeys : ((done ++ groups).map (·.key)).Nodup)
    (h : Processed services request workflow runId start state.2 done state.1.1 state.1.2)
    (hok : groups.foldlM (persistRouteGroup services request workflow runId) state = .ok result) :
    Processed services request workflow runId start result.2 (done ++ groups) result.1.1
      result.1.2 := by
  induction groups generalizing done state with
  | nil =>
    cases hok
    rwa [List.append_nil]
  | cons group groups ih =>
    rw [List.foldlM_cons, bind_eq_ok] at hok
    obtain ⟨⟨⟨results', branches'⟩, next⟩, hround, hrest⟩ := hok
    have hgroup := hgrps group List.mem_cons_self
    have hsafe := persistRouteGroup_safe hs hworkflow hgroup hround
    have hnone : state.2.runs.rows.any (fun row => row.sourceSignalId = request.sourceSignalId ∧
        row.workflowRevisionId = workflow.id ∧ row.routeGroupKey = group.key) = false := by
      rw [List.any_eq_false]
      intro run hrun htrue
      obtain ⟨hsrc, hrev, hkey⟩ := of_decide_eq_true htrue
      have hmem : run.routeGroupKey ∈ (signalFallbackRuns request workflow state.2).map
        (·.routeGroupKey) :=
        List.mem_map_of_mem (List.mem_filter.mpr ⟨hrun, by simp [hsrc, hrev]⟩)
      rw [h.keys, hkey] at hmem
      obtain ⟨g, hg, hsame⟩ := List.mem_map.mp hmem
      rw [List.map_append, List.nodup_append] at hkeys
      exact hkeys.2.2 _ (List.mem_map_of_mem (List.mem_of_mem_filter hg)) _
        (List.mem_map_of_mem List.mem_cons_self) hsame
    rw [← List.singleton_append, ← List.append_assoc] at hkeys ⊢
    apply ih hsafe.sound (hsafe.revisions _ _ hworkflow)
      (fun g hg => hgrps g (List.mem_cons_of_mem _ hg))
      hkeys _ hrest
    rcases round_cases hs hworkflow hgroup hnone hround with
      ⟨primary, reason, b, hprim, hverd, rfl, rfl, rfl, hb⟩ | ⟨i, more, hadm, rfl, rfl, hmore⟩
    · exact h.skip hprim hverd hb
    · exact h.admit hadm hmore

end Creating

end TsxCore.Workflow
