import TsxCore.OperationalRetention

/-!
# What the retention of trades deletes

The candidates are cut by a limit, after which one statement takes back the intents of a
fallback run that is not complete. An intent with one fallback candidate is then deleted
together with its family, and no row that survives refers to it.
-/

namespace TsxCore.OperationalRetention

open OldestRows
open TradingTypes (TradingIntentStatus)
open Workflow (FallbackRunStatus)

variable {db next : TradingTables} {cutoff : ℤ} {batchSize : ℕ} {taken : List String}
  {intent : TradeIntent} {run : FallbackRun} {intentId : String}

section Schema

/-- The primary keys, the `CHECK` on the phase and the foreign key of a fallback candidate. -/
structure Consistent (db : TradingTables) : Prop where
  intentIds : (db.intents.map (·.id)).Nodup
  runIds : (db.fallbackRuns.map (·.id)).Nodup
  phases : ∀ operation ∈ db.operations, operation.phase ∈
    ["prepared", "dispatching", "acknowledged", "unresolved", "resolved", "abandoned"]
  candidateRuns : ∀ candidate ∈ db.fallbackCandidates,
    ∃ run ∈ db.fallbackRuns, run.id = candidate.fallbackRunId

def OneCandidate (db : TradingTables) : Prop :=
  ∀ first ∈ db.fallbackCandidates, ∀ second ∈ db.fallbackCandidates, ∀ intentId,
    first.intentId = some intentId → second.intentId = some intentId → first = second

/-- The intents of the candidates of a fallback run. -/
def intentsOf (db : TradingTables) (run : FallbackRun) : List String :=
  (db.fallbackCandidates.filter (fun candidate => candidate.fallbackRunId = run.id)).filterMap
    (·.intentId)

/-- An old trade of which nothing is left to account for. -/
structure Expendable (cutoff : ℤ) (db : TradingTables) (intent : TradeIntent) : Prop where
  ended : intent.status = .completed ∨ intent.status = .blocked ∨ intent.status = .failed
  old : intent.updatedAt < cutoff
  risk : ∀ risk ∈ db.riskEvents, risk.intentId = some intent.id → risk.severity = "critical" →
    risk.acknowledgedAt ≠ none
  journal : some intent.id ∉ db.journalIntents
  operation : ∀ operation ∈ db.operations, operation.intentId = some intent.id →
    operation.phase ∉ ["prepared", "dispatching", "unresolved"]
  accounting : intent.id ∉ db.accountingPending ∧ intent.id ∉ db.accountingProjections ∧
    intent.id ∉ db.projectionEvidence
  money : intent.id ∉ db.moneyEvents
  contract : intent.id ∉ db.riskContracts
  identity : ∀ order ∈ db.orders, order.intentId = intent.id → order.id ∉ db.identityBindings
  order : ∀ order ∈ db.orders, order.intentId = intent.id →
    order.filledQuantity = "0" ∧ order.id ∉ db.fills

end Schema

section Candidates

/-- The intents that the limited `SELECT` returns. -/
def limited (db : TradingTables) (cutoff : ℤ) (batchSize : ℕ) : List String :=
  (oldest (finishedIntent cutoff db) (·.updatedAt) batchSize db.intents).map (·.id)

theorem mem_candidates : intentId ∈ prepareTradingRetentionCandidates db cutoff batchSize ↔
    intentId ∈ limited db cutoff batchSize ∧
      heldByFallback db (limited db cutoff batchSize) intentId = false := by
  rw [prepareTradingRetentionCandidates, List.mem_filter, Bool.not_eq_true', limited]

theorem not_any {R : Type} {p : R → Bool} {rows : List R} :
    (!rows.any p) = true ↔ ∀ row ∈ rows, ¬ p row = true := by
  rw [Bool.not_eq_true', List.any_eq_false]

theorem expendable_of_finished (h : finishedIntent cutoff db intent = true) :
    Expendable cutoff db intent := by
  simp only [finishedIntent, Bool.and_eq_true, Bool.or_eq_true, decide_eq_true_eq, not_any,
    List.any_eq_true, not_and, not_or, not_exists, or_assoc] at h
  obtain ⟨⟨⟨⟨⟨⟨⟨⟨⟨⟨⟨hended, hold⟩, hrisk⟩, hjournal⟩, hop⟩, hpend⟩, hprojection⟩,
    hev⟩, hmoney⟩, hcontract⟩, hident⟩, horder⟩ := h
  refine ⟨hended, hold, ?_, ?_, ?_, ⟨?_, ?_, ?_⟩, ?_, ?_, ?_, ?_⟩
  · intro risk hmem hint hsevere
    exact hrisk risk hmem ⟨hint, hsevere⟩
  · exact fun hmem => hjournal _ hmem rfl
  · intro operation hmem hint hphase
    have hnot := hop operation hmem hint
    simp only [List.mem_cons, List.not_mem_nil, or_false] at hphase
    obtain hprep | hdispatching | hunres := hphase
    · exact hnot.1 hprep
    · exact hnot.2.1 hdispatching
    · exact hnot.2.2 hunres
  · exact fun hmem => hpend _ hmem rfl
  · exact fun hmem => hprojection _ hmem rfl
  · exact fun hmem => hev _ hmem rfl
  · exact fun hmem => hmoney _ hmem rfl
  · exact fun hmem => hcontract _ hmem rfl
  · intro order hmem hint hbind
    exact hident order.id hbind order hmem rfl hint
  · intro order hmem hint
    have hnot := horder order hmem hint
    refine ⟨not_not.mp hnot.1, ?_⟩
    intro hfill
    exact hnot.2 order.id hfill rfl

theorem expendable_of_candidate (hdb : Consistent db) (hint : intent ∈ db.intents)
    (h : intent.id ∈ prepareTradingRetentionCandidates db cutoff batchSize) :
    Expendable cutoff db intent := by
  obtain ⟨hlimited, -⟩ := mem_candidates.mp h
  obtain ⟨other, hother, hid⟩ := List.mem_map.mp hlimited
  obtain ⟨hmem, hfin⟩ := mem_of_oldest hother
  obtain rfl := List.inj_on_of_nodup_map hdb.intentIds hmem hint hid
  exact expendable_of_finished hfin

theorem mem_intentsOf : intentId ∈ intentsOf db run ↔
    ∃ candidate ∈ db.fallbackCandidates, candidate.fallbackRunId = run.id ∧
      candidate.intentId = some intentId := by
  simp only [intentsOf, List.mem_filterMap, List.mem_filter, decide_eq_true_eq, and_assoc]

theorem heldByFallback_iff : heldByFallback db taken intentId = true ↔
    ∃ run ∈ db.fallbackRuns, intentId ∈ intentsOf db run ∧
      (run.status = .probing ∨ ∃ sibling ∈ intentsOf db run, sibling ∉ taken) := by
  simp only [heldByFallback, List.any_eq_true, Bool.and_eq_true, decide_eq_true_eq,
    Bool.or_eq_true, Option.any_eq_true, Bool.not_eq_true', List.contains_eq_mem,
    decide_eq_false_iff_not, mem_intentsOf]
  refine ⟨?_, ?_⟩
  · rintro ⟨candidate, hcand, hint, run, hrun, hid, hheld⟩
    refine ⟨run, hrun, ⟨candidate, hcand, hid.symm, hint⟩, ?_⟩
    obtain hprobe | ⟨sibling, hsibling, hfamily, other, hother, hnot⟩ := hheld
    · exact .inl hprobe
    · exact .inr ⟨other, ⟨sibling, hsibling, hfamily.trans hid.symm, hother⟩, hnot⟩
  · rintro ⟨run, hrun, ⟨candidate, hcand, hid, hint⟩, hheld⟩
    refine ⟨candidate, hcand, hint, run, hrun, hid.symm, ?_⟩
    obtain hprobe | ⟨other, ⟨sibling, hsibling, hfamily, hother⟩, hnot⟩ := hheld
    · exact .inl hprobe
    · exact .inr ⟨sibling, hsibling, hfamily.trans hid.symm, other, hother, hnot⟩

/-- With one of its intents a fallback run gives all of them up, and it is not probing. -/
theorem family_of_candidate (hdb : Consistent db) (hone : OneCandidate db)
    (hrun : run ∈ db.fallbackRuns) (hint : intentId ∈ intentsOf db run)
    (h : intentId ∈ prepareTradingRetentionCandidates db cutoff batchSize) :
    run.status ≠ .probing ∧ ∀ sibling ∈ intentsOf db run,
      sibling ∈ prepareTradingRetentionCandidates db cutoff batchSize := by
  obtain ⟨-, hheld⟩ := mem_candidates.mp h
  rw [← Bool.not_eq_true, heldByFallback_iff] at hheld
  have hfree : ¬ (run.status = .probing ∨
      ∃ sibling ∈ intentsOf db run, sibling ∉ limited db cutoff batchSize) :=
    fun hor => hheld ⟨run, hrun, hint, hor⟩
  refine ⟨fun hprobe => hfree (.inl hprobe), ?_⟩
  intro sibling hsibling
  rw [mem_candidates, ← Bool.not_eq_true, heldByFallback_iff]
  refine ⟨?_, ?_⟩
  · by_contra hnot
    exact hfree (.inr ⟨sibling, hsibling, hnot⟩)
  · rintro ⟨other, hother, hshared, hor⟩
    -- the one candidate of the sibling belongs to this run
    obtain ⟨first, hfirst, hfirstRun, hfirstIntent⟩ := mem_intentsOf.mp hsibling
    obtain ⟨second, hsnd, hsecondRun, hsecondIntent⟩ := mem_intentsOf.mp hshared
    obtain rfl := hone first hfirst second hsnd sibling hfirstIntent hsecondIntent
    obtain rfl := List.inj_on_of_nodup_map hdb.runIds hother hrun (hsecondRun.symm.trans hfirstRun)
    exact hfree hor

end Candidates

section Deletion

theorem settledRun_iff : settledRun db taken run = true ↔
    run.status ≠ .probing ∧ (∃ intentId ∈ intentsOf db run, intentId ∈ taken) ∧
      ∀ intentId ∈ intentsOf db run, intentId ∈ taken := by
  have hstatus : (run.status = .selected ∨ run.status = .exhausted) ∨ run.status = .stopped ↔
      run.status ≠ .probing := by
    cases run.status <;> simp
  simp only [settledRun, Bool.and_eq_true, Bool.or_eq_true, decide_eq_true_eq, hstatus, not_any,
    List.any_eq_true, Option.any_eq_true, List.contains_eq_mem, mem_intentsOf]
  refine ⟨?_, ?_⟩
  · rintro ⟨⟨hended, candidate, hcand, hid, intentId, hint, htaken⟩, hall⟩
    refine ⟨hended, ⟨intentId, ⟨candidate, hcand, hid, hint⟩, htaken⟩, ?_⟩
    rintro other ⟨sibling, hsibling, hfamily, hother⟩
    by_contra hnot
    exact hall sibling hsibling ⟨hfamily, other, hother, by simpa using hnot⟩
  · rintro ⟨hended, ⟨intentId, ⟨candidate, hcand, hid, hint⟩, htaken⟩, hall⟩
    refine ⟨⟨hended, candidate, hcand, hid, intentId, hint, htaken⟩, ?_⟩
    rintro sibling hsibling ⟨hfamily, other, hother, hnot⟩
    have htakenToo := hall other ⟨sibling, hsibling, hfamily, hother⟩
    simp [htakenToo] at hnot

/-- The tables in which `pruneTradingData` deletes by the candidates. -/
structure Pruned (db : TradingTables) (taken : List String) (next : TradingTables) : Prop where
  intents : next.intents = db.intents.filter (fun intent => !taken.contains intent.id)
  orders : next.orders = db.orders.filter (fun order => !taken.contains order.intentId)
  positions : next.positions = db.positions.filter (fun intentId => !taken.contains intentId)
  generations : next.orderGenerations =
    db.orderGenerations.filter (fun intentId => !taken.contains intentId)
  risks : next.riskEvents = db.riskEvents.filter (fun risk => !risk.intentId.any (taken.contains ·))
  operations : next.operations = db.operations.filter (fun operation =>
    !(operation.intentId.any (taken.contains ·) && (operation.phase = "acknowledged" ||
      operation.phase = "resolved" || operation.phase = "abandoned")))
  runs : next.fallbackRuns = db.fallbackRuns.filter (fun run => !settledRun db taken run)
  candidates : next.fallbackCandidates = db.fallbackCandidates.filter (fun candidate =>
    !((db.fallbackRuns.filter (settledRun db taken)).map (·.id)).contains candidate.fallbackRunId)
  signalRuns : ∃ started : List String, next.workflowSignalRuns =
    db.workflowSignalRuns.filter (fun signalRun => !(started.contains signalRun &&
      !next.intents.any (fun intent => intent.signalRunId = some signalRun) &&
      !next.fallbackRuns.any (fun fallback => fallback.signalRunId = signalRun)))

theorem pruneTradingData_pruned : Pruned db
    (prepareTradingRetentionCandidates db cutoff batchSize)
    (pruneTradingData db cutoff batchSize).2 :=
  ⟨rfl, rfl, rfl, rfl, rfl, rfl, rfl, rfl, _, rfl⟩

theorem taken_of_deleted (h : Pruned db taken next) (hint : intent ∈ db.intents)
    (hgone : intent ∉ next.intents) : intent.id ∈ taken := by
  by_contra hnot
  rw [h.intents, List.mem_filter] at hgone
  exact hgone ⟨hint, by simpa using hnot⟩

theorem taken_iff_deleted (h : Pruned db taken next) (hint : intent ∈ db.intents) :
    intent ∈ next.intents ↔ intent.id ∉ taken := by
  rw [h.intents, List.mem_filter, Bool.not_eq_true', List.contains_eq_mem,
    decide_eq_false_iff_not]
  exact and_iff_right hint

theorem family_deleted (hdb : Consistent db) (hone : OneCandidate db)
    (h : Pruned db (prepareTradingRetentionCandidates db cutoff batchSize) next)
    (hrun : run ∈ db.fallbackRuns) :
    (run ∉ next.fallbackRuns ∧ run.status ≠ .probing ∧ ∀ intent ∈ db.intents,
      intent.id ∈ intentsOf db run → intent ∉ next.intents) ∨
    (run ∈ next.fallbackRuns ∧ ∀ intent ∈ db.intents,
      intent.id ∈ intentsOf db run → intent ∈ next.intents) := by
  by_cases hsome : ∃ intentId ∈ intentsOf db run,
      intentId ∈ prepareTradingRetentionCandidates db cutoff batchSize
  · left
    obtain ⟨intentId, hint, htaken⟩ := hsome
    obtain ⟨hended, hall⟩ := family_of_candidate hdb hone hrun hint htaken
    have hset : settledRun db (prepareTradingRetentionCandidates db cutoff batchSize) run =
        true := settledRun_iff.mpr ⟨hended, ⟨intentId, hint, htaken⟩, hall⟩
    refine ⟨?_, hended, ?_⟩
    · rw [h.runs, List.mem_filter, hset]
      exact fun hkept => Bool.noConfusion hkept.2
    · intro intent hmem hfamily hkept
      exact (taken_iff_deleted h hmem).mp hkept (hall intent.id hfamily)
  · right
    refine ⟨?_, ?_⟩
    · rw [h.runs, List.mem_filter, Bool.not_eq_true', ← Bool.not_eq_true, settledRun_iff]
      exact ⟨hrun, fun hset => hsome hset.2.1⟩
    · intro intent hmem hfamily
      exact (taken_iff_deleted h hmem).mpr (fun htaken => hsome ⟨intent.id, hfamily, htaken⟩)

structure Unreferenced (db : TradingTables) (intentId : String) : Prop where
  order : ∀ order ∈ db.orders, order.intentId ≠ intentId
  position : intentId ∉ db.positions
  generation : intentId ∉ db.orderGenerations
  risk : ∀ risk ∈ db.riskEvents, risk.intentId ≠ some intentId
  operation : ∀ operation ∈ db.operations, operation.intentId ≠ some intentId
  candidate : ∀ candidate ∈ db.fallbackCandidates, candidate.intentId ≠ some intentId

theorem candidate_deleted (hdb : Consistent db) (hone : OneCandidate db)
    (h : Pruned db (prepareTradingRetentionCandidates db cutoff batchSize) next)
    (htaken : intentId ∈ prepareTradingRetentionCandidates db cutoff batchSize) :
    ∀ candidate ∈ next.fallbackCandidates, candidate.intentId ≠ some intentId := by
  intro candidate hcand hint
  rw [h.candidates, List.mem_filter, Bool.not_eq_true', List.contains_eq_mem,
    decide_eq_false_iff_not] at hcand
  obtain ⟨hmem, hkept⟩ := hcand
  obtain ⟨run, hrun, hid⟩ := hdb.candidateRuns candidate hmem
  have hfamily : intentId ∈ intentsOf db run :=
    mem_intentsOf.mpr ⟨candidate, hmem, hid.symm, hint⟩
  obtain ⟨hended, hall⟩ := family_of_candidate hdb hone hrun hfamily htaken
  apply hkept
  rw [← hid]
  apply List.mem_map_of_mem
  exact List.mem_filter.mpr ⟨hrun, settledRun_iff.mpr ⟨hended, ⟨intentId, hfamily, htaken⟩, hall⟩⟩

theorem unreferenced_of_candidate (hdb : Consistent db) (hone : OneCandidate db)
    (h : Pruned db (prepareTradingRetentionCandidates db cutoff batchSize) next)
    (hint : intent ∈ db.intents)
    (htaken : intent.id ∈ prepareTradingRetentionCandidates db cutoff batchSize) :
    Unreferenced next intent.id := by
  refine ⟨?_, ?_, ?_, ?_, ?_, candidate_deleted hdb hone h htaken⟩
  · intro order horder hid
    rw [h.orders, List.mem_filter, hid] at horder
    simp [htaken] at horder
  · intro hposn
    rw [h.positions, List.mem_filter] at hposn
    simp [htaken] at hposn
  · intro hgen
    rw [h.generations, List.mem_filter] at hgen
    simp [htaken] at hgen
  · intro risk hrisk hid
    rw [h.risks, List.mem_filter, hid] at hrisk
    simp [htaken] at hrisk
  · intro operation hop hid
    rw [h.operations, List.mem_filter, hid] at hop
    obtain ⟨hmem, hkept⟩ := hop
    -- the phases that the deletion leaves out are those that bar a candidate
    have hphase := hdb.phases operation hmem
    have hbarred := (expendable_of_candidate hdb hint htaken).operation operation hmem hid
    simp [htaken] at hkept hphase hbarred
    tauto

end Deletion

/-- Every deletion of the retention is complete: the deleted intents are expendable, families go
with their run or stay, and nothing that stays refers to what went. -/
theorem pruneTradingData_closed (hdb : Consistent db) (hone : OneCandidate db)
    (hnext : (pruneTradingData db cutoff batchSize).2 = next) :
    (∀ intent ∈ db.intents, intent ∉ next.intents → Expendable cutoff db intent) ∧
    (∀ run ∈ db.fallbackRuns,
      (run ∉ next.fallbackRuns ∧ run.status ≠ .probing ∧ ∀ intent ∈ db.intents,
        intent.id ∈ intentsOf db run → intent ∉ next.intents) ∨
      (run ∈ next.fallbackRuns ∧ ∀ intent ∈ db.intents,
        intent.id ∈ intentsOf db run → intent ∈ next.intents)) ∧
    (∀ signalRun ∈ db.workflowSignalRuns, signalRun ∉ next.workflowSignalRuns →
      (∀ intent ∈ next.intents, intent.signalRunId ≠ some signalRun) ∧
        ∀ run ∈ next.fallbackRuns, run.signalRunId ≠ signalRun) ∧
    (∀ intent ∈ db.intents, intent ∉ next.intents → Unreferenced next intent.id) := by
  have hpruned : Pruned db (prepareTradingRetentionCandidates db cutoff batchSize) next :=
    hnext ▸ pruneTradingData_pruned
  refine ⟨?_, ?_, ?_, ?_⟩
  · intro intent hint hgone
    exact expendable_of_candidate hdb hint (taken_of_deleted hpruned hint hgone)
  · intro run hrun
    exact family_deleted hdb hone hpruned hrun
  · intro signalRun hmem hgone
    obtain ⟨started, hruns⟩ := hpruned.signalRuns
    rw [hruns, List.mem_filter, not_and, Bool.not_eq_true', ← Bool.not_eq_true, not_not]
      at hgone
    have hfree := hgone hmem
    simp only [Bool.and_eq_true, not_any, decide_eq_true_eq] at hfree
    exact ⟨hfree.1.2, hfree.2⟩
  · intro intent hint hgone
    have htaken := taken_of_deleted hpruned hint hgone
    exact unreferenced_of_candidate hdb hone hpruned hint htaken

/-- A finished family, and one of which an intent is still monitored. -/
def twoFamilies : TradingTables where
  intents := [⟨"a", "s1", some "w1", .completed, 1⟩, ⟨"b", "s2", some "w1", .blocked, 2⟩,
    ⟨"c", "s3", some "w2", .failed, 3⟩, ⟨"d", "s4", some "w2", .monitoring, 4⟩]
  orders := [⟨"o1", "a", "acc", none, "k1", "0"⟩, ⟨"o2", "c", "acc", none, "k2", "0"⟩]
  operations := [⟨some "a", "resolved"⟩, ⟨some "c", "abandoned"⟩]
  fallbackRuns := [⟨"r1", "w1", .selected⟩, ⟨"r2", "w2", .exhausted⟩]
  fallbackCandidates := [⟨"r1", some "a"⟩, ⟨"r1", some "b"⟩, ⟨"r2", some "c"⟩, ⟨"r2", some "d"⟩]
  workflowSignalRuns := ["w1", "w2"]

theorem pruneTradingData_closed_two_families :
    (pruneTradingData twoFamilies 10 100).2.intents.map (·.id) = ["c", "d"] ∧
      (pruneTradingData twoFamilies 10 100).2.workflowSignalRuns = ["w2"] ∧
      Unreferenced (pruneTradingData twoFamilies 10 100).2 "a" := by
  have hdb : Consistent twoFamilies := ⟨by decide, by decide, by decide, by decide⟩
  have hone : OneCandidate twoFamilies := by
    intro first hfirst second hsnd intentId hint hshared
    have hpairs : ∀ x ∈ twoFamilies.fallbackCandidates, ∀ y ∈ twoFamilies.fallbackCandidates,
        x.intentId = y.intentId → x = y := by decide
    exact hpairs first hfirst second hsnd (hint.trans hshared.symm)
  have hints : (pruneTradingData twoFamilies 10 100).2.intents.map (·.id) = ["c", "d"] := by
    decide +kernel
  have hruns : (pruneTradingData twoFamilies 10 100).2.workflowSignalRuns = ["w2"] := by
    decide +kernel
  refine ⟨hints, hruns, ?_⟩
  obtain ⟨-, -, -, hfree⟩ := @pruneTradingData_closed twoFamilies _ 10 100 hdb hone rfl
  refine hfree ⟨"a", "s1", some "w1", .completed, 1⟩ (by decide) ?_
  intro hkept
  have hid := List.mem_map_of_mem (f := (·.id)) hkept
  rw [hints] at hid
  exact absurd hid (by decide)

end TsxCore.OperationalRetention
