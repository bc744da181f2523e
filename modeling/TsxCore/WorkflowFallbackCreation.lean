import TsxCore.WorkflowFallbackRuns

/-!
# Creating and replaying fallback runs

A replay finds the run of its signal, revision and route group with an intent, and
changes nothing. A new run gets all candidates of its group, of which the first
gets an intent.
-/

namespace TsxCore.Workflow

open Outcome

variable {services : Services} {request : WorkflowIntentInput} {workflow : WorkflowRevision}
variable {group : WorkflowRouteGroup} {db next : Database} {runId : String}

section Intents

variable {path : WorkflowExecutionPath} {intent : Option TradingIntent} {branch : Option Branch}

theorem processWorkflowIntentPath_ok
    (h : processWorkflowIntentPath services request workflow path runId db =
      .ok ((intent, branch), next)) :
    OnlyIntents db next ∧ (∀ i, intent = some i → (next.intents.find i.id).isSome) ∧
      (services.pathAllowsInput path request = .ok .allowed → intent.isSome) := by
  unfold processWorkflowIntentPath at h
  rw [bind_eq_ok] at h
  obtain ⟨verdict, hverd, h⟩ := h
  cases verdict with
  | filtered reason =>
    simp only [pure_eq_ok_iff, Prod.mk.injEq] at h
    obtain ⟨⟨rfl, -⟩, rfl⟩ := h
    refine ⟨⟨rfl, fun _ h => h⟩, ?_, ?_⟩
    · intro i hi
      cases hi
    · intro hallowed
      rw [hverd] at hallowed
      cases hallowed
  | allowed =>
    simp only at h
    split at h
    · rename_i existing hex
      simp only [pure_eq_ok_iff, Prod.mk.injEq] at h
      obtain ⟨⟨rfl, -⟩, rfl⟩ := h
      refine ⟨⟨rfl, fun _ h => h⟩, ?_, fun _ => rfl⟩
      intro i hi
      cases hi
      have hfind := Keyed.find_eq_some.mpr ⟨List.mem_of_find?_eq_some hex, rfl⟩
      rw [hfind]
      rfl
    · simp only [bind_eq_ok, pure_eq_ok_iff, Prod.mk.injEq] at h
      obtain ⟨account, -, inserted, hinsert, ⟨rfl, -⟩, rfl⟩ := h
      obtain ⟨hsame, hnew, hkept⟩ := insertIntent_ok hinsert
      refine ⟨⟨hsame, hkept⟩, ?_, fun _ => rfl⟩
      intro i hi
      cases hi
      exact hnew

end Intents

section Ordering

variable {item : WorkflowRouteCandidate × WorkflowExecutionPath}
  {items : List (WorkflowRouteCandidate × WorkflowExecutionPath)}

theorem map_fst_filterMap {α β : Type} {f : α → Option β} {as : List α}
    (h : (as.filterMap (fun a => (f a).map (fun b => (a, b)))).length = as.length) :
    (as.filterMap (fun a => (f a).map (fun b => (a, b)))).map Prod.fst = as := by
  induction as with
  | nil => rfl
  | cons a as ih =>
    have hle := List.length_filterMap_le (fun a => (f a).map (fun b => (a, b))) as
    cases hf : f a with
    | none =>
      simp only [List.filterMap_cons, hf, Option.map_none, List.length_cons] at h
      omega
    | some b =>
      simp only [List.filterMap_cons, hf, Option.map_some, List.length_cons,
        Nat.add_right_cancel_iff] at h
      simp only [List.filterMap_cons, hf, Option.map_some, List.map_cons, ih h]

theorem orderedCandidates_map (hgroup : group.WellFormed)
    (hlen : (orderedCandidates workflow group).length = group.candidates.length) :
    (orderedCandidates workflow group).map Prod.fst = group.candidates := by
  unfold orderedCandidates at hlen ⊢
  rw [List.length_insertionSort] at hlen
  have hmap := map_fst_filterMap hlen
  have hsort : (group.candidates.map (·.rank)).Pairwise (· ≤ ·) := by
    rw [hgroup.ranks]
    exact List.pairwise_lt_range.imp Nat.le_of_lt
  rw [← hmap, List.map_map, List.pairwise_map] at hsort
  simp only [Function.comp_apply] at hsort
  rwa [List.Pairwise.insertionSort_eq hsort]

theorem path_of_mem_ordered (h : item ∈ orderedCandidates workflow group) :
    item.1 ∈ group.candidates ∧ workflow.paths.find? (·.id = item.1.pathId) = some item.2 := by
  unfold orderedCandidates at h
  rw [List.mem_insertionSort, List.mem_filterMap] at h
  obtain ⟨candidate, hmem, hmap⟩ := h
  obtain ⟨path, hpath, rfl⟩ := Option.map_eq_some_iff.mp hmap
  exact ⟨hmem, hpath⟩

/-- A complete group has its candidates at the ranks below their number. -/
structure Complete (workflow : WorkflowRevision) (group : WorkflowRouteGroup)
    (items : List (WorkflowRouteCandidate × WorkflowExecutionPath)) : Prop where
  candidates : items.map Prod.fst = group.candidates
  ranks : items.map (·.1.rank) = List.range items.length
  paths : (items.map (·.2.id)).Nodup
  stored : ∀ item ∈ items, item.2 ∈ workflow.paths

theorem orderedCandidates_complete (hgroup : group.WellFormed)
    (hlen : (orderedCandidates workflow group).length = group.candidates.length) :
    Complete workflow group (orderedCandidates workflow group) := by
  have hmap := orderedCandidates_map hgroup hlen
  have hid : ∀ item ∈ orderedCandidates workflow group, item.2.id = item.1.pathId := by
    intro item hitem
    simpa using List.find?_some (path_of_mem_ordered hitem).2
  refine ⟨hmap, ?_, ?_, ?_⟩
  · rw [hlen, ← hgroup.ranks, ← hmap, List.map_map]
    rfl
  · rw [List.map_congr_left hid]
    have hpaths := hgroup.paths
    rwa [← hmap, List.map_map] at hpaths
  · exact fun item hitem => List.mem_of_find?_eq_some (path_of_mem_ordered hitem).2

theorem Complete.rank_lt (h : Complete workflow group items) (hitem : item ∈ items) :
    item.1.rank < items.length := by
  have hmem := List.mem_map_of_mem (f := fun item => item.1.rank) hitem
  rwa [h.ranks, List.mem_range] at hmem

theorem Complete.exists_rank (h : Complete workflow group items) {rank : ℕ}
    (hrank : rank < items.length) : ∃ item ∈ items, item.1.rank = rank := by
  rw [← List.mem_range, ← h.ranks] at hrank
  exact List.mem_map.mp hrank

end Ordering

section Inserting

variable {candidate c : FallbackCandidate} {id : String} {rank : ℕ}
  {items : List (WorkflowRouteCandidate × WorkflowExecutionPath)}

theorem insertFallbackCandidate_old
    (h : (db.candidate candidate.fallbackRunId candidate.rank).isSome) :
    insertFallbackCandidate candidate db = .ok db := by
  unfold insertFallbackCandidate
  split_ifs
  · rfl
  · rw [Keyed.insert_of_find h]
    rfl

theorem insertCandidates_old (h : ∀ item ∈ items, (db.candidate runId item.1.rank).isSome) :
    items.foldlM (fun db item =>
      insertFallbackCandidate (waitingCandidate services runId item) db) db = .ok db := by
  induction items with
  | nil => rfl
  | cons item items ih =>
    rw [List.foldlM_cons, insertFallbackCandidate_old (h item List.mem_cons_self), ok_bind]
    exact ih (fun other hother => h other (List.mem_cons_of_mem _ hother))

theorem insertFallbackCandidate_new
    (hnone : db.candidate candidate.fallbackRunId candidate.rank = none)
    (hpath : ∀ rank c, db.candidate candidate.fallbackRunId rank = some c →
      c.executionPathId ≠ candidate.executionPathId)
    (hok : insertFallbackCandidate candidate db = .ok next) :
    next = { db with candidates := next.candidates } ∧
      (db.accounts.find candidate.accountId).isSome ∧
      ∀ id rank, next.candidate id rank =
        if candidate.fallbackRunId = id ∧ candidate.rank = rank then some candidate
        else db.candidate id rank := by
  unfold insertFallbackCandidate at hok
  rw [if_neg] at hok
  · simp only [bind_eq_ok, throwIf_eq_ok, pure_eq_ok_iff] at hok
    obtain ⟨-, hacc, rfl⟩ := hok
    have hnew : (db.candidates.insert candidate).1 = true := by
      rw [Keyed.insert_fst]
      simpa [Database.candidate] using hnone
    refine ⟨rfl, ?_, ?_⟩
    · rw [Option.isSome_iff_ne_none]
      exact fun hmiss => hacc ⟨hnew, hmiss⟩
    · intro id rank
      rw [Database.candidate, Keyed.find_insert]
      simp only [Prod.mk.injEq]
      split_ifs with hkey
      · rw [← hkey.1, ← hkey.2]
        rw [Database.candidate] at hnone
        rw [hnone, Option.getD_none]
      · rfl
  · intro hany
    obtain ⟨row, hrow, hsame⟩ := List.any_eq_true.mp hany
    simp only [decide_eq_true_eq] at hsame
    exact hpath row.rank row (hsame.1 ▸ candidate_of_mem hrow) hsame.2

structure Inserted (services : Services) (runId : String)
    (items : List (WorkflowRouteCandidate × WorkflowExecutionPath))
    (db next : Database) : Prop where
  same : next = { db with candidates := next.candidates }
  others : ∀ other ≠ runId, next.candidate other = db.candidate other
  old : ∀ rank c, db.candidate runId rank = some c → next.candidate runId rank = some c
  new : ∀ item ∈ items, next.candidate runId item.1.rank =
    some (waitingCandidate services runId item)
  only : ∀ rank c, next.candidate runId rank = some c → db.candidate runId rank = some c ∨
    ∃ item ∈ items, item.1.rank = rank ∧ c = waitingCandidate services runId item
  accounts : ∀ item ∈ items, (db.accounts.find item.2.accountId).isSome

theorem insertCandidates_new (hranks : (items.map (·.1.rank)).Nodup)
    (hpaths : (items.map (·.2.id)).Nodup)
    (hfresh : ∀ item ∈ items, db.candidate runId item.1.rank = none ∧
      ∀ rank c, db.candidate runId rank = some c → c.executionPathId ≠ item.2.id)
    (hok : items.foldlM (fun db item => insertFallbackCandidate
      (waitingCandidate services runId item) db) db = .ok next) :
    Inserted services runId items db next := by
  induction items generalizing db with
  | nil =>
    cases hok
    exact ⟨rfl, fun _ _ => rfl, fun _ _ h => h, by simp, fun _ _ h => .inl h, by simp⟩
  | cons item items ih =>
    rw [List.foldlM_cons, bind_eq_ok] at hok
    obtain ⟨middle, hmid, hrest⟩ := hok
    rw [List.map_cons, List.nodup_cons] at hranks hpaths
    obtain ⟨hnone, hpath⟩ := hfresh item List.mem_cons_self
    obtain ⟨hsame, hacc, hfind⟩ := insertFallbackCandidate_new
      hnone hpath hmid
    have hrank : ∀ other ∈ items, item.1.rank ≠ other.1.rank := fun other hother heq =>
      hranks.1 (heq ▸ List.mem_map_of_mem hother)
    have hi := ih hranks.2 hpaths.2 (by
      intro other hother
      obtain ⟨hfree, hclear⟩ := hfresh other (List.mem_cons_of_mem _ hother)
      refine ⟨?_, ?_⟩
      · rw [hfind, if_neg (fun hkey => hrank other hother hkey.2), hfree]
      · intro rank c hc
        rw [hfind] at hc
        split_ifs at hc
        · cases hc
          exact fun heq : item.2.id = other.2.id =>
            hpaths.1 (heq ▸ List.mem_map_of_mem hother)
        · exact hclear rank c hc) hrest
    refine ⟨?_, ?_, ?_, ?_, ?_, ?_⟩
    · rw [hi.same, hsame]
    · intro other hne
      rw [hi.others other hne]
      funext rank
      rw [hfind, if_neg (fun hkey => hne hkey.1.symm)]
    · intro rank c hc
      apply hi.old
      rw [hfind, if_neg]
      · exact hc
      · rintro ⟨-, hkey⟩
        have hclash : item.1.rank = rank := hkey
        rw [← hclash, hnone] at hc
        cases hc
    · intro other hother
      rcases List.mem_cons.mp hother with rfl | hmem
      · apply hi.old
        rw [hfind, if_pos ⟨rfl, rfl⟩]
      · exact hi.new other hmem
    · intro rank c hc
      rcases hi.only rank c hc with hold | hnew
      · rw [hfind] at hold
        split_ifs at hold with hkey
        · cases hold
          exact .inr ⟨item, List.mem_cons_self, hkey.2, rfl⟩
        · exact .inl hold
      · obtain ⟨other, hother, hfacts⟩ := hnew
        exact .inr ⟨other, List.mem_cons_of_mem _ hother, hfacts⟩
    · intro other hother
      rcases List.mem_cons.mp hother with rfl | hmem
      · exact hacc
      · have haccs := hi.accounts other hmem
        rwa [hsame] at haccs

end Inserting

section Runs

variable {run : FallbackRun} {result : List TradingIntent × List Branch}
  {primary : WorkflowExecutionPath}
  {items : List (WorkflowRouteCandidate × WorkflowExecutionPath)}

theorem candidateIntents_ne_nil (h : Sound db) (hrun : db.runs.find run.id = some run) :
    candidateIntents run.id db ≠ [] := by
  obtain ⟨c, hc, hlink, -⟩ := ((h.every run.id).run run hrun).current
  obtain ⟨intentId, hintentId⟩ := Option.isSome_iff_exists.mp hlink
  obtain ⟨intent, hint⟩ := Option.isSome_iff_exists.mp
    ((h.every run.id).intent _ c intentId hc hintentId)
  apply List.ne_nil_of_mem (a := intent)
  rw [candidateIntents, List.mem_filterMap]
  refine ⟨c, ?_, by rw [hintentId, Option.bind_some, hint]⟩
  rw [List.mem_insertionSort, List.mem_filter]
  exact ⟨Keyed.mem_of_find hc, by simpa using (key_of_candidate hc).1⟩

theorem candidateIntents_eq_nil
    (h : ∀ rank c, db.candidate runId rank = some c → c.intentId = none) :
    candidateIntents runId db = [] := by
  rw [candidateIntents, List.filterMap_eq_nil_iff]
  intro c hc
  rw [List.mem_insertionSort, List.mem_filter, decide_eq_true_eq] at hc
  rw [h c.rank c (hc.2 ▸ candidate_of_mem hc.1), Option.bind_none]

theorem replay_safe (h : Sound db) (hworkflow : db.revisions.find workflow.id = some workflow)
    (hgroup : group ∈ workflow.routeGroups)
    (hexists : db.runs.rows.any
      (fun row => row.sourceSignalId = request.sourceSignalId ∧
        row.workflowRevisionId = workflow.id ∧ row.routeGroupKey = group.key) = true)
    (hok : persistFallbackRouteGroup services request workflow group runId db =
      .ok (result, next)) :
    next = db ∧ ∃ run, db.runs.rows.find? (fun row => row.sourceSignalId = request.sourceSignalId ∧
      row.workflowRevisionId = workflow.id ∧ row.routeGroupKey = group.key) = some run ∧
        result = (candidateIntents run.id db, []) := by
  unfold persistFallbackRouteGroup at hok
  simp only [bind_eq_ok, throwIf_eq_ok] at hok
  obtain ⟨-, -, hok⟩ := hok
  have hsame : insertFallbackRun (newFallbackRun services request workflow group runId) db =
    db := by
    rw [insertFallbackRun, if_pos]
    exact hexists
  rw [hsame] at hok
  split at hok
  · cases hok
  · rename_i run hfound
    have hkeys := List.find?_some hfound
    simp only [decide_eq_true_eq] at hkeys
    have hrun : db.runs.find run.id = some run :=
      Keyed.find_eq_some.mpr ⟨List.mem_of_find?_eq_some hfound, rfl⟩
    obtain ⟨revision, hrev, hcomp⟩ := (h.every run.id).complete run hrun
    rw [hkeys.2.1, hworkflow, Option.some.injEq] at hrev
    subst hrev
    rw [insertCandidates_old, ok_bind] at hok
    · have hne := candidateIntents_ne_nil h hrun
      cases hints : candidateIntents run.id db with
      | nil => exact absurd hints hne
      | cons intent intents =>
        simp only [hints, pure_eq_ok_iff, Prod.mk.injEq] at hok
        refine ⟨hok.2.symm, run, hfound, ?_⟩
        rw [hints, hok.1]
    · intro item hitem
      exact hcomp group hgroup hkeys.2.2.symm item.1 (path_of_mem_ordered hitem).1

theorem insertFallbackRun_new {run found : FallbackRun}
    (hnone : db.runs.rows.any (fun row => row.sourceSignalId = run.sourceSignalId ∧
      row.workflowRevisionId = run.workflowRevisionId ∧ row.routeGroupKey = run.routeGroupKey) =
        false)
    (hfound : (insertFallbackRun run db).runs.rows.find? (fun row =>
      row.sourceSignalId = run.sourceSignalId ∧ row.workflowRevisionId = run.workflowRevisionId ∧
        row.routeGroupKey = run.routeGroupKey) = some found) :
    insertFallbackRun run db = { db with runs := (db.runs.insert run).2 } ∧ found = run ∧
      db.runs.find run.id = none ∧
      ∀ other, (db.runs.insert run).2.find other =
        if run.id = other then some run else db.runs.find other := by
  have hinsert : insertFallbackRun run db = { db with runs := (db.runs.insert run).2 } := by
    rw [insertFallbackRun, if_neg (by rw [hnone]; exact Bool.false_ne_true)]
  have hmiss : db.runs.rows.find? (fun row => row.sourceSignalId = run.sourceSignalId ∧
      row.workflowRevisionId = run.workflowRevisionId ∧
        row.routeGroupKey = run.routeGroupKey) = none := by
    rw [List.find?_eq_none]
    exact List.any_eq_false.mp hnone
  rw [hinsert] at hfound
  cases hold : db.runs.find run.id with
  | some old =>
    rw [Keyed.insert_of_find (by rw [hold]; rfl), hmiss] at hfound
    cases hfound
  | none =>
    simp only [Keyed.rows_insert hold, List.find?_append, hmiss, Option.none_or] at hfound
    refine ⟨hinsert, ?_, rfl, ?_⟩
    · exact (List.mem_singleton.mp (List.mem_of_find?_eq_some hfound))
    · intro other
      rw [Keyed.find_insert]
      split_ifs with hid
      · rw [← hid, hold, Option.getD_none]
      · rfl

theorem executionPath_isSome {path : WorkflowExecutionPath}
    (hworkflow : db.revisions.find workflow.id = some workflow) (hpath : path ∈ workflow.paths) :
    (db.executionPath path.id).isSome := by
  rw [Database.executionPath, List.find?_isSome]
  exact ⟨path, List.mem_flatMap.mpr ⟨workflow, Keyed.mem_of_find hworkflow, hpath⟩, by simp⟩

/-- The rows of a new run before its first candidate gets an intent. -/
structure Begun (services : Services) (workflow : WorkflowRevision) (group : WorkflowRouteGroup)
    (run : FallbackRun) (items : List (WorkflowRouteCandidate × WorkflowExecutionPath))
    (db next : Database) : Prop where
  apart : Apart run.id db next
  fresh : db.runs.find run.id = none
  found : next.runs.find run.id = some run
  complete : Complete workflow group items
  rows : ∀ item ∈ items, next.candidate run.id item.1.rank =
    some (waitingCandidate services run.id item)
  only : ∀ rank c, next.candidate run.id rank = some c →
    ∃ item ∈ items, item.1.rank = rank ∧ c = waitingCandidate services run.id item
  accounts : ∀ item ∈ items, (next.accounts.find item.2.accountId).isSome

theorem Begun.ranks (h : Begun services workflow group run items db next) :
    ∀ rank c, next.candidate run.id rank = some c → ∀ lower < rank,
      (next.candidate run.id lower).isSome := by
  intro rank c hc lower hlt
  obtain ⟨item, hitem, hrank, -⟩ := h.only rank c hc
  have hbelow := h.complete.rank_lt hitem
  obtain ⟨other, hother, hlower⟩ := h.complete.exists_rank (show lower < _ by omega)
  rw [← hlower, h.rows other hother]
  rfl

theorem Begun.waiting (h : Begun services workflow group run items db next) {rank : ℕ}
    {c : FallbackCandidate} (hc : next.candidate run.id rank = some c) :
    c.intentId = none ∧ c.status = .waiting := by
  obtain ⟨item, -, -, rfl⟩ := h.only rank c hc
  exact ⟨rfl, rfl⟩

theorem Begun.safe {run' : FallbackRun} {last : Database} (h : Sound db)
    (hb : Begun services workflow group run items db next)
    (hworkflow : db.revisions.find workflow.id = some workflow)
    (hgroup : group ∈ workflow.routeGroups) (ht : Touches run.id next last)
    (hrev : run'.workflowRevisionId = workflow.id) (hkey : run'.routeGroupKey = group.key)
    (hrun : last.runs.find run.id = some run') (hsound : RunSound run' (last.candidate run.id)) :
    Safe db last := by
  have ha := hb.apart.trans ht.toApart
  refine ⟨h.of_apart ha ⟨?_, ?_, ?_, ?_, ?_, ?_⟩, ha.frozen ?_, ?_,
    by rw [ha.revisions]; exact fun _ _ h => h⟩
  · intro other hother
    rw [hrun] at hother
    cases hother
    exact hsound
  · intro other hother
    rw [hrun] at hother
    cases hother
    refine ⟨workflow, by rw [hrev, ha.revisions, hworkflow], ?_⟩
    intro other hmem hsame c hc
    have hwf := h.wellFormed workflow (Keyed.mem_of_find hworkflow)
    have heq : other = group :=
      List.inj_on_of_nodup_map hwf.keys hmem hgroup (hsame.trans hkey)
    rw [heq, ← hb.complete.candidates] at hc
    obtain ⟨item, hitem, rfl⟩ := List.mem_map.mp hc
    apply ht.isSome_candidate
    rw [hb.rows item hitem]
    rfl
  · intro rank c _
    rw [hrun]
    rfl
  · intro rank c hc
    obtain ⟨old, hold, hpath, -⟩ := ht.candidate rank c hc
    obtain ⟨item, hitem, -, rfl⟩ := hb.only rank old hold
    rw [hpath, Database.executionPath, Database.executionPaths, ha.revisions]
    exact executionPath_isSome hworkflow (hb.complete.stored item hitem)
  · intro rank c hc
    obtain ⟨old, hold, -, hacc, -⟩ := ht.candidate rank c hc
    obtain ⟨item, hitem, -, rfl⟩ := hb.only rank old hold
    rw [hacc, ht.accounts]
    exact hb.accounts item hitem
  · intro rank c intentId hc hlink
    obtain ⟨old, hold, -, -, hint⟩ := ht.candidate rank c hc
    rcases hint intentId hlink with hkept | hnew
    · rw [(hb.waiting hold).1] at hkept
      cases hkept
    · exact hnew
  · intro other hother
    rw [hb.fresh] at hother
    cases hother
  · intro other hsome
    by_cases hid : other = run.id
    · rw [hid, hrun]
      rfl
    · rwa [ha.otherRuns other hid]

theorem begin_ok (h : Sound db) (hworkflow : db.revisions.find workflow.id = some workflow)
    (hgroup : group ∈ workflow.routeGroups) {middle : Database} {found : FallbackRun}
    (hlen : (orderedCandidates workflow group).length = group.candidates.length)
    (hnone : db.runs.rows.any (fun row => row.sourceSignalId = request.sourceSignalId ∧
      row.workflowRevisionId = workflow.id ∧ row.routeGroupKey = group.key) = false)
    (hfound : (insertFallbackRun (newFallbackRun services request workflow group runId)
      db).runs.rows.find? (fun row => row.sourceSignalId = request.sourceSignalId ∧
        row.workflowRevisionId = workflow.id ∧ row.routeGroupKey = group.key) = some found)
    (hfold : (orderedCandidates workflow group).foldlM (fun db item =>
      insertFallbackCandidate (waitingCandidate services found.id item) db)
        (insertFallbackRun (newFallbackRun services request workflow group runId) db) =
          .ok middle) :
    found = newFallbackRun services request workflow group runId ∧
      middle = { db with runs := (db.runs.insert found).2, candidates := middle.candidates } ∧
      Begun services workflow group found (orderedCandidates workflow group) db middle := by
  obtain ⟨hinsert, hsame, hfresh, hruns⟩ := @insertFallbackRun_new db
    (newFallbackRun services request workflow group runId) found hnone hfound
  have hwf := h.wellFormed workflow (Keyed.mem_of_find hworkflow)
  have hcomp := orderedCandidates_complete (hwf.groups group hgroup) hlen
  rw [hinsert] at hfold
  have hempty : ∀ rank, db.candidate found.id rank = none := by
    intro rank
    cases hrow : db.candidate found.id rank with
    | none => rfl
    | some c =>
      have hparent := (h.every found.id).parent rank c hrow
      rw [hsame, hfresh] at hparent
      cases hparent
  have hi := insertCandidates_new (hcomp.ranks ▸ List.nodup_range) hcomp.paths (by
    intro item _
    refine ⟨hempty _, ?_⟩
    intro rank c hc
    have hno := hempty rank
    rw [Database.candidate] at hno hc
    rw [hno] at hc
    cases hc) hfold
  refine ⟨hsame, hsame ▸ hi.same, ?_, ?_, ?_, hcomp, hi.new, ?_, ?_⟩
  · refine ⟨by rw [hi.same], by rw [hi.same], ?_, ?_, ?_⟩
    · intro intentId hsome
      rwa [hi.same]
    · intro other hne
      rw [hi.same]
      exact (hruns other).trans (if_neg (by rw [← hsame]; exact hne.symm))
    · exact hi.others
  · rw [hsame]
    exact hfresh
  · rw [hi.same]
    exact (hruns _).trans (by rw [← hsame]; exact if_pos rfl)
  · intro rank c hc
    rcases hi.only rank c hc with hold | hnew
    · have hno := hempty rank
      rw [Database.candidate] at hno hold
      rw [hno] at hold
      cases hold
    · exact hnew
  · intro item hitem
    have hacc := hi.accounts item hitem
    rw [hi.same]
    exact hacc

/-- The first candidate of a new run gets its intent, and a blocked one stops the run. -/
theorem primary_safe (h : Sound db) (hworkflow : db.revisions.find workflow.id = some workflow)
    (hgroup : group ∈ workflow.routeGroups) {begun inserted linked : Database}
    {intent : TradingIntent} (hrun : run = newFallbackRun services request workflow group runId)
    (hb : Begun services workflow group run items db begun) (hitems : 0 < items.length)
    (honly : OnlyIntents begun inserted) (hint : (inserted.intents.find intent.id).isSome)
    (hlink : linkCandidate services run.id 0 intent inserted = .ok linked)
    (hnext : next = if intent.status ≠ .pending then
        (linked.updateRun run.id (fun run => { run with
          status := .stopped
          stopReason := some (intent.blockReason.getD "PRIMARY_ROUTE_BLOCKED")
          updatedAt := services.now
          completedAt := some services.now }) (fun _ => rfl)).updateCandidates (waitingIn run.id)
          (fun candidate => { candidate with
            status := .stopped
            errorCode := some "PRIMARY_ROUTE_BLOCKED"
            updatedAt := services.now }) (fun _ => rfl)
      else linked) : Safe db next := by
  obtain ⟨hlinked, hruns, -, hrows⟩ := linkCandidate_ok hlink hint
  rw [honly.candidate] at hrows
  have hbase : Touches run.id begun linked := (honly.touches _).trans hlinked
  have hfind : linked.runs.find run.id = some run := by
    rw [hruns, honly.runs]
    exact hb.found
  have hfacts : run.status = .probing ∧ run.currentRank = 0 ∧ run.selectedIntentId = none ∧
      run.workflowRevisionId = workflow.id ∧ run.routeGroupKey = group.key := by
    rw [hrun]
    exact ⟨rfl, rfl, rfl, rfl, rfl⟩
  obtain ⟨hstatus, hrank, hsel, hrev, hkey⟩ := hfacts
  obtain ⟨first, hfirst, hzero⟩ := hb.complete.exists_rank hitems
  have hcur : ∃ c, linked.candidate run.id 0 = some c ∧ c.intentId.isSome ∧
      c.status = if intent.status = .pending then .pending else .stopped := by
    rw [hrows 0 _ (hzero ▸ hb.rows first hfirst), if_pos rfl]
    exact ⟨_, rfl, rfl, rfl⟩
  have habove : ∀ rank c, 0 < rank → begun.candidate run.id rank = some c →
      linked.candidate run.id rank = some c := by
    intro rank c hlt hc
    rw [hrows rank c hc, if_neg (by omega)]
  by_cases hpend : intent.status = .pending
  · rw [if_neg (by simpa using hpend)] at hnext
    subst hnext
    refine hb.safe h hworkflow hgroup hbase hrev hkey hfind ?_
    apply RunSound.of_rows hb.ranks (fun rank => hbase.candidate_none)
    · rw [hrank, hstatus]
      simpa [hpend, FallbackRunStatus.current] using hcur
    · intro rank hlt
      omega
    · intro rank c hlt hc
      rw [hrank] at hlt
      exact ⟨c, habove rank c hlt hc, (hb.waiting hc).1, by rw [(hb.waiting hc).2, hstatus]; rfl⟩
    · intro hstop
      rw [hstatus] at hstop
      cases hstop
    · rw [hsel, hstatus]
      rfl
  · rw [if_pos hpend] at hnext
    subst hnext
    refine hb.safe h hworkflow hgroup ((hbase.trans (.updateRun _ ?_)).trans
      (.updateCandidates waitingIn_key ?_ ?_)) ?_ ?_ (by
        rw [runs_updateCandidates, find_updateRun, hfind, Option.map_some]) ?_
    · exact fun _ => ⟨rfl, rfl⟩
    · exact fun _ => ⟨rfl, rfl⟩
    · exact fun _ _ => .inl
    · exact hrev
    · exact hkey
    apply RunSound.of_rows hb.ranks
    · intro rank hrow
      simp [hbase.candidate_none hrow]
    · obtain ⟨c, hc, hsome, hc'⟩ := hcur
      rw [if_neg hpend] at hc'
      exact ⟨c, by simp [hrank, hc, waitingIn_of_candidate hc, hc'], hsome, hc'⟩
    · intro rank hlt
      simp only [hrank] at hlt
      omega
    · intro rank c hlt hc
      simp only [hrank] at hlt
      have hsame := habove rank c hlt hc
      simp [hsame, waitingIn_of_candidate hsame, (hb.waiting hc).1, (hb.waiting hc).2,
        FallbackRunStatus.higher]
    · intro hstop
      cases hstop
    · exact hsel

theorem persistFallbackRouteGroup_fresh (h : Sound db)
    (hworkflow : db.revisions.find workflow.id = some workflow)
    (hgroup : group ∈ workflow.routeGroups)
    (hprim : workflow.paths.find? (·.id = group.primaryPathId) = some primary)
    (hallowed : services.pathAllowsInput primary request = .ok .allowed)
    (hnone : db.runs.rows.any (fun row => row.sourceSignalId = request.sourceSignalId ∧
      row.workflowRevisionId = workflow.id ∧ row.routeGroupKey = group.key) = false)
    (hok : persistFallbackRouteGroup services request workflow group runId db =
      .ok (result, next)) :
    ∃ run begun intent branch inserted linked,
      run = newFallbackRun services request workflow group runId ∧
      begun = { db with runs := (db.runs.insert run).2, candidates := begun.candidates } ∧
      Begun services workflow group run (orderedCandidates workflow group) db begun ∧
      0 < (orderedCandidates workflow group).length ∧
      processWorkflowIntentPath services request workflow primary runId begun =
        .ok ((some intent, branch), inserted) ∧
      linkCandidate services run.id 0 intent inserted = .ok linked ∧
      result = ([intent], [{ branch.getD Branch.none with
        routeGroupKey := some group.key
        candidateCount := some (orderedCandidates workflow group).length
        mode := some "ordered_account_fallback" }]) ∧
      next = if intent.status ≠ .pending then
        (linked.updateRun run.id (fun run => { run with
          status := .stopped
          stopReason := some (intent.blockReason.getD "PRIMARY_ROUTE_BLOCKED")
          updatedAt := services.now
          completedAt := some services.now }) (fun _ => rfl)).updateCandidates (waitingIn run.id)
          (fun candidate => { candidate with
            status := .stopped
            errorCode := some "PRIMARY_ROUTE_BLOCKED"
            updatedAt := services.now }) (fun _ => rfl)
      else linked := by
  unfold persistFallbackRouteGroup at hok
  simp only [bind_eq_ok, throwIf_eq_ok, not_or, not_not, not_lt] at hok
  obtain ⟨-, ⟨hlen, htwo⟩, hok⟩ := hok
  split at hok
  · cases hok
  rename_i found hfound
  rw [bind_eq_ok] at hok
  obtain ⟨begun, hfold, hok⟩ := hok
  obtain ⟨hnew, hsame, hb⟩ := begin_ok h hworkflow hgroup hlen hnone hfound hfold
  have hempty : candidateIntents found.id begun = [] :=
    candidateIntents_eq_nil (fun rank c hc => (hb.waiting hc).1)
  have hhead := ((h.wellFormed workflow (Keyed.mem_of_find hworkflow)).groups group hgroup).primary
  have hpath := fun item => @path_of_mem_ordered workflow group item
  rw [← hb.complete.candidates] at hhead
  simp only [hempty] at hok
  generalize orderedCandidates workflow group = ordered at *
  cases ordered with
  | nil => simp at htwo
  | cons item items =>
    simp only [bind_eq_ok] at hok
    obtain ⟨⟨⟨intent, branch⟩, inserted⟩, hprocess, hok⟩ := hok
    have hid : item.1.pathId = group.primaryPathId := by simpa using hhead
    have hstored := (hpath item List.mem_cons_self).2
    rw [hid, hprim, Option.some.injEq] at hstored
    rw [← hstored] at hprocess
    obtain ⟨intent, rfl⟩ := Option.isSome_iff_exists.mp
      ((processWorkflowIntentPath_ok hprocess).2.2 hallowed)
    simp only [bind_eq_ok, pure_eq_ok_iff, Prod.mk.injEq] at hok
    obtain ⟨linked, hlink, hres, hnext⟩ := hok
    exact ⟨found, begun, intent, branch, inserted, linked, hnew, hsame, hb, by omega, hprocess,
      hlink, hres.symm, hnext.symm⟩

theorem persistFallbackRouteGroup_safe (h : Sound db)
    (hworkflow : db.revisions.find workflow.id = some workflow)
    (hgroup : group ∈ workflow.routeGroups)
    (hprim : workflow.paths.find? (·.id = group.primaryPathId) = some primary)
    (hallowed : services.pathAllowsInput primary request = .ok .allowed)
    (hok : persistFallbackRouteGroup services request workflow group runId db =
      .ok (result, next)) :
    Safe db next := by
  cases hexists : db.runs.rows.any (fun row => row.sourceSignalId = request.sourceSignalId ∧
      row.workflowRevisionId = workflow.id ∧ row.routeGroupKey = group.key) with
  | true =>
    rw [(replay_safe h hworkflow hgroup hexists hok).1]
    exact .refl h
  | false =>
    obtain ⟨_, _, intent, _, _, _, hnew, -, hb, hlen, hprocess, hlink, -, hnext⟩ :=
      persistFallbackRouteGroup_fresh h hworkflow hgroup hprim hallowed hexists hok
    obtain ⟨honly, hfind, -⟩ := processWorkflowIntentPath_ok hprocess
    exact primary_safe h hworkflow hgroup hnew hb hlen honly (hfind intent rfl) hlink hnext

end Runs

section Creating

variable {results : List TradingIntent} {result : (List TradingIntent × List Branch) × Database}
  {groups : List WorkflowRouteGroup}

theorem persistRouteGroup_safe {branches : List Branch} (h : Sound db)
    (hworkflow : db.revisions.find workflow.id = some workflow)
    (hgroup : group ∈ workflow.routeGroups)
    (hok : persistRouteGroup services request workflow runId ((results, branches), db) group =
      .ok result) :
    Safe db result.2 := by
  unfold persistRouteGroup at hok
  simp only at hok
  split at hok
  · cases hok
  · rename_i primary hprim
    rw [bind_eq_ok] at hok
    obtain ⟨verdict, hverd, hok⟩ := hok
    cases verdict with
    | filtered reason =>
      simp only [pure_eq_ok_iff] at hok
      subst hok
      exact .refl h
    | allowed =>
      simp only at hok
      split_ifs at hok
      · simp only [bind_eq_ok, pure_eq_ok_iff] at hok
        obtain ⟨⟨⟨intents, more⟩, last⟩, hpers, rfl⟩ := hok
        exact persistFallbackRouteGroup_safe h hworkflow hgroup hprim hverd hpers
      · simp only [bind_eq_ok, pure_eq_ok_iff] at hok
        obtain ⟨⟨⟨intent, branch⟩, last⟩, hprocess, rfl⟩ := hok
        exact (processWorkflowIntentPath_ok hprocess).1.safe h

theorem persistRouteGroups_safe {state : (List TradingIntent × List Branch) × Database}
    (h : Sound state.2) (hworkflow : state.2.revisions.find workflow.id = some workflow)
    (hgrps : ∀ group ∈ groups, group ∈ workflow.routeGroups)
    (hok : groups.foldlM (persistRouteGroup services request workflow runId) state = .ok result) :
    Safe state.2 result.2 := by
  induction groups generalizing state with
  | nil =>
    cases hok
    exact .refl h
  | cons group groups ih =>
    rw [List.foldlM_cons, bind_eq_ok] at hok
    obtain ⟨middle, hround, hrest⟩ := hok
    have hfirst := persistRouteGroup_safe h hworkflow (hgrps group List.mem_cons_self) hround
    refine hfirst.trans (ih hfirst.sound (hfirst.revisions _ _ hworkflow) ?_ hrest)
    exact fun other hother => hgrps other (List.mem_cons_of_mem _ hother)

theorem insertSignalRun_safe (h : Sound db) (run : WorkflowSignalRun) :
    Safe db (insertSignalRun run db) := by
  unfold insertSignalRun
  split_ifs
  · exact .refl h
  · exact Touches.safe_elsewhere h rfl rfl rfl rfl (fun _ h => h)

theorem refresh_safe (h : Sound db) (id : String) :
    Safe db (refreshWorkflowSignalRunFromFallback services id db) := by
  unfold refreshWorkflowSignalRunFromFallback
  split
  · exact .refl h
  · exact Touches.safe_elsewhere h rfl rfl rfl rfl (fun _ h => h)

theorem persistWorkflowTradingIntents_safe (h : Sound db)
    (hworkflow : db.revisions.find workflow.id = some workflow)
    (hgrps : ∀ group ∈ groups, group ∈ workflow.routeGroups)
    (hok : persistWorkflowTradingIntents services request workflow groups db =
      .ok (results, next)) :
    Safe db next := by
  unfold persistWorkflowTradingIntents at hok
  simp only at hok
  have hinsert := insertSignalRun_safe h
    { id := services.randomUUID .signalRun
      sourceSignalId := request.sourceSignalId
      workflowRevisionId := workflow.id
      channelId := request.channelId
      status := "running"
      inputSha256 := services.sha256 request.sourceText
      result := none
      createdAt := request.receivedAt.getD services.now
      completedAt := none }
  split at hok
  · cases hok
  · rename_i run hrun
    rw [bind_eq_ok] at hok
    obtain ⟨⟨⟨intents, branches⟩, last⟩, hfold, hok⟩ := hok
    have hgroupsSafe := persistRouteGroups_safe hinsert.sound (hinsert.revisions _ _ hworkflow)
      hgrps hfold
    have hstored : Safe last { last with
        signalRuns := last.signalRuns.update (·.id = run.id) (fun row => { row with
          status := workflowRunStatus intents branches
          result := some ⟨branches, []⟩
          completedAt := some services.now }) (fun _ => rfl) } :=
      Touches.safe_elsewhere hgroupsSafe.sound rfl rfl rfl rfl (fun _ h => h)
    have hall := (hinsert.trans hgroupsSafe).trans hstored
    simp only at hok
    split at hok
    · rw [pure_eq_ok_iff, Prod.mk.injEq] at hok
      obtain ⟨-, rfl⟩ := hok
      exact hall.trans (refresh_safe hall.sound _)
    · rw [pure_eq_ok_iff, Prod.mk.injEq] at hok
      obtain ⟨-, rfl⟩ := hok
      exact hall

theorem create_safe (h : Sound db)
    (hok : createWorkflowTradingIntents services request db = .ok (results, next)) :
    Safe db next := by
  unfold createWorkflowTradingIntents at hok
  simp only [bind_eq_ok, throwIf_eq_ok] at hok
  obtain ⟨-, -, hok⟩ := hok
  split at hok
  · cases hok
  · rename_i workflow hworkflow
    simp only [bind_eq_ok, throwIf_eq_ok] at hok
    obtain ⟨-, -, hok⟩ := hok
    split_ifs at hok
    · rw [pure_eq_ok_iff, Prod.mk.injEq] at hok
      obtain ⟨-, rfl⟩ := hok
      exact .refl h
    · simp only [bind_eq_ok, throwIf_eq_ok] at hok
      obtain ⟨-, -, hok⟩ := hok
      have hid := Keyed.key_of_find hworkflow
      refine persistWorkflowTradingIntents_safe h ?_ ?_ hok
      · exact hid.symm ▸ hworkflow
      · exact fun group hgroup => (List.mem_filter.mp hgroup).1

end Creating

end TsxCore.Workflow
