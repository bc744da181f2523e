import TsxCore.WorkflowFallbackCreation

/-!
# Fallback runs in any order of calls

The events of a trace are the four transactions and what other parts of the system
do in between: saving and activating revisions, changing accounts and switches, and
changing intents in any way that the foreign keys of the candidates allow.
-/

namespace TsxCore.Workflow

open Outcome

def Database.empty : Database where
  revisions := .empty
  activeRevisionId := none
  accounts := .empty
  runtime := ⟨false, false, false⟩
  intents := .empty
  signalRuns := .empty
  runs := .empty
  candidates := .empty

inductive Event
  | createWorkflowTradingIntents (services : Services) (input : WorkflowIntentInput)
  | advanceWorkflowFallbackOnEligibleFailure (services : Services) (intent : TradingIntent)
      (reason : WorkflowFallbackReason) (message : String)
  | markWorkflowFallbackSelected (services : Services) (intentId : String)
  | stopWorkflowFallback (services : Services) (intentId reason : String)
  | saveRevision (revision : WorkflowRevision) (wellFormed : revision.WellFormed)
  | activate (revisionId : Option String)
  | accounts (accounts : Keyed (fun account : TradingAccount => account.id))
  | runtime (runtime : TradingRuntimeState)
  | intents (intents : Keyed (fun intent : TradingIntent => intent.id))

def settle {α : Type} (db : Database) : Outcome (α × Database) → Database
  | .ok (_, next) => next
  | .error _ => db

def step (db : Database) : Event → Option Database
  | .createWorkflowTradingIntents services input =>
    some (settle db (Workflow.createWorkflowTradingIntents services input db))
  | .advanceWorkflowFallbackOnEligibleFailure services intent reason message =>
    some (settle db
      (Workflow.advanceWorkflowFallbackOnEligibleFailure services intent reason message db))
  | .markWorkflowFallbackSelected services intentId =>
    some (Workflow.markWorkflowFallbackSelected services intentId db)
  | .stopWorkflowFallback services intentId reason =>
    some (Workflow.stopWorkflowFallback services intentId reason db)
  | .saveRevision revision _ =>
    if (db.revisions.find revision.id).isSome ||
        revision.paths.any (fun path => (db.executionPath path.id).isSome) then none
    else some { db with
      revisions := (db.revisions.insert revision).2, activeRevisionId := some revision.id }
  | .activate revisionId => some { db with activeRevisionId := revisionId }
  | .accounts accounts =>
    if db.candidates.rows.all (fun c => (accounts.find c.accountId).isSome) then
      some { db with accounts }
    else none
  | .runtime runtime => some { db with runtime }
  | .intents intents =>
    if db.candidates.rows.all (fun c => c.intentId.all (fun id => (intents.find id).isSome)) then
      some { db with intents }
    else none

section Steps

variable {db next : Database}

theorem settle_safe {α : Type} {outcome : Outcome (α × Database)} (h : Sound db)
    (hok : ∀ result next, outcome = .ok (result, next) → Safe db next) :
    Safe db (settle db outcome) := by
  cases outcome with
  | error e => exact .refl h
  | ok pair => exact hok pair.1 pair.2 rfl

theorem Sound.of_references (h : Sound db) (hruns : next.runs = db.runs)
    (hcands : next.candidates = db.candidates)
    (hwellFormed : ∀ revision ∈ next.revisions.rows, revision.WellFormed)
    (hrevisions : ∀ id revision, db.revisions.find id = some revision →
      next.revisions.find id = some revision)
    (hpath : ∀ id, (db.executionPath id).isSome → (next.executionPath id).isSome)
    (hacc : ∀ c ∈ db.candidates.rows, (next.accounts.find c.accountId).isSome)
    (hint : ∀ c ∈ db.candidates.rows, ∀ intentId, c.intentId = some intentId →
      (next.intents.find intentId).isSome) : Safe db next := by
  have hsame : next.candidate = db.candidate := by
    funext id rank
    rw [Database.candidate, hcands, Database.candidate]
  refine ⟨⟨hwellFormed, ?_⟩, ?_, ?_, hrevisions⟩
  · intro id
    have hid := h.every id
    refine ⟨?_, ?_, ?_, ?_, ?_, ?_⟩
    · rw [hruns, hsame]
      exact hid.run
    · rw [hruns, hsame]
      intro run hrun
      obtain ⟨revision, hrev, hcomp⟩ := hid.complete run hrun
      exact ⟨revision, hrevisions _ _ hrev, hcomp⟩
    · rw [hruns, hsame]
      exact hid.parent
    · rw [hsame]
      exact fun rank c hc => hpath _ (hid.path rank c hc)
    · rw [hsame]
      exact fun rank c hc => hacc c (Keyed.mem_of_find hc)
    · rw [hsame]
      exact fun rank c intentId hc => hint c (Keyed.mem_of_find hc) intentId
  · intro id run hrun _
    exact ⟨hruns ▸ hrun, by rw [hsame]⟩
  · intro id hsome
    rwa [hruns]

theorem executionPath_append {revision : WorkflowRevision} {id : String}
    (hnew : db.revisions.find revision.id = none) (hsome : (db.executionPath id).isSome) :
    (Database.executionPath { db with
      revisions := (db.revisions.insert revision).2, activeRevisionId := some revision.id }
        id).isSome := by
  rw [Database.executionPath, List.find?_isSome] at hsome ⊢
  obtain ⟨path, hpath, hid⟩ := hsome
  refine ⟨path, ?_, hid⟩
  rw [Database.executionPaths, List.mem_flatMap] at hpath ⊢
  obtain ⟨stored, hstored, hmem⟩ := hpath
  refine ⟨stored, ?_, hmem⟩
  simp only [Keyed.rows_insert hnew, List.mem_append]
  exact .inl hstored

theorem step_safe {event : Event} (h : Sound db) (hstep : step db event = some next) :
    Safe db next := by
  have haccs : ∀ c ∈ db.candidates.rows, (db.accounts.find c.accountId).isSome :=
    fun c hc => (h.every c.fallbackRunId).account c.rank c (candidate_of_mem hc)
  have hints : ∀ c ∈ db.candidates.rows, ∀ intentId, c.intentId = some intentId →
      (db.intents.find intentId).isSome :=
    fun c hc intentId => (h.every c.fallbackRunId).intent c.rank c intentId (candidate_of_mem hc)
  cases event with
  | createWorkflowTradingIntents services input =>
    cases hstep
    exact settle_safe h (fun _ _ => create_safe h)
  | advanceWorkflowFallbackOnEligibleFailure services intent reason message =>
    cases hstep
    exact settle_safe h (fun _ _ => advance_safe h)
  | markWorkflowFallbackSelected services intentId =>
    cases hstep
    exact select_safe h
  | stopWorkflowFallback services intentId reason =>
    cases hstep
    exact stop_safe h
  | saveRevision revision wellFormed =>
    simp only [step, Bool.or_eq_true] at hstep
    split_ifs at hstep with hold
    cases hstep
    rw [not_or, Option.not_isSome_iff_eq_none] at hold
    refine Sound.of_references h rfl rfl ?_ ?_ ?_ haccs hints
    · intro stored hstored
      simp only [Keyed.rows_insert hold.1, List.mem_append, List.mem_singleton] at hstored
      rcases hstored with hkept | rfl
      · exact h.wellFormed stored hkept
      · exact wellFormed
    · intro id stored hfind
      simp only [Keyed.find_insert]
      split_ifs with hid
      · rw [← hid, hold.1] at hfind
        cases hfind
      · exact hfind
    · exact fun id => executionPath_append hold.1
  | activate revisionId | runtime runtime =>
    cases hstep
    exact Sound.of_references h rfl rfl h.wellFormed (fun _ _ h => h) (fun _ h => h) haccs hints
  | accounts accounts =>
    simp only [step] at hstep
    split_ifs at hstep with hkept
    cases hstep
    refine Sound.of_references h rfl rfl h.wellFormed (fun _ _ h => h) (fun _ h => h) ?_ hints
    exact List.all_eq_true.mp hkept
  | intents intents =>
    simp only [step] at hstep
    split_ifs at hstep with hkept
    cases hstep
    refine Sound.of_references h rfl rfl h.wellFormed (fun _ _ h => h) (fun _ h => h) haccs ?_
    intro c hc intentId hlink
    have hall := List.all_eq_true.mp hkept c hc
    rwa [hlink] at hall

theorem sound_empty : Sound .empty := by
  refine ⟨?_, fun id => ⟨?_, ?_, ?_, ?_, ?_, ?_⟩⟩
  · intro revision hrev
    cases hrev
  · intro run hrun
    cases hrun
  · intro run hrun
    cases hrun
  · intro rank c hc
    cases hc
  · intro rank c hc
    cases hc
  · intro rank c hc
    cases hc
  · intro rank c intentId hc
    cases hc

theorem run_safe {events : List Event} (h : Sound db)
    (hrun : Trace.run step db events = some next) :
    Safe db next := by
  refine Trace.run_preserves (P := fun middle => Safe db middle) ?_ (.refl h) hrun
  intro middle event last _ hsafe hlast
  exact hsafe.trans (step_safe hsafe.sound hlast)

end Steps

structure SingleExposure (run : FallbackRun) (candidate : ℕ → Option FallbackCandidate) : Prop where
  exposed : ∀ rank other c d, candidate rank = some c → candidate other = some d →
    c.status ∈ [.pending, .selected] → d.status ∈ [.pending, .selected] → rank = other
  current : run.status = .probing → ∃ c, candidate run.currentRank = some c ∧ c.status = .pending
  lower : run.status = .probing → ∀ rank < run.currentRank,
    ∃ c, candidate rank = some c ∧ c.status = .unavailable
  higher : run.status = .probing → ∀ rank c, run.currentRank < rank → candidate rank = some c →
    c.status = .waiting ∧ c.intentId = none
  advanced : ∀ rank c, candidate (rank + 1) = some c → c.intentId.isSome →
    ∃ d, candidate rank = some d ∧ d.status = .unavailable ∧
      ∃ reason ∈ d.fallbackOn, d.errorCode = some reason.text
  selected : ∀ rank c, candidate rank = some c → c.status = .selected →
    run.status = .selected ∧ c.intentId = run.selectedIntentId
  selectedIntent : run.selectedIntentId.isSome → run.status = .selected

theorem RunSound.singleExposure {run : FallbackRun} {candidate : ℕ → Option FallbackCandidate}
    (h : RunSound run candidate) : SingleExposure run candidate := by
  obtain ⟨current, hcur, hlinked, hstatus⟩ := h.current
  have hlive : ∀ rank c, candidate rank = some c → c.status ∈ [.pending, .selected] →
      rank = run.currentRank := by
    intro rank c hc hmem
    obtain hlt | heq | hgt := lt_trichotomy rank run.currentRank
    · obtain ⟨d, hd, hadvd, -⟩ := h.lower rank hlt
      rw [hc, Option.some.injEq] at hd
      rw [hd, hadvd] at hmem
      simp at hmem
    · exact heq
    · rw [(h.higher rank c hgt hc).2] at hmem
      cases hrun : run.status <;> simp [hrun, FallbackRunStatus.higher] at hmem
  refine ⟨?_, ?_, ?_, ?_, ?_, ?_, ?_⟩
  · intro rank other c d hc hd hcmem hdmem
    rw [hlive rank c hc hcmem, hlive other d hd hdmem]
  · intro hprobe
    exact ⟨current, hcur, by rw [hstatus, hprobe]; rfl⟩
  · intro _ rank hlt
    obtain ⟨c, hc, hadvd⟩ := h.lower rank hlt
    exact ⟨c, hc, hadvd.1⟩
  · intro hprobe rank c hlt hc
    obtain ⟨hnone, hwaiting⟩ := h.higher rank c hlt hc
    exact ⟨by rw [hwaiting, hprobe]; rfl, hnone⟩
  · intro rank c hc hsome
    apply h.lower
    by_contra hle
    have hnone := (h.higher (rank + 1) c (by omega) hc).1
    rw [hnone] at hsome
    cases hsome
  · intro rank c hc hsel
    have hrank := hlive rank c hc (by simp [hsel])
    rw [hrank, hcur, Option.some.injEq] at hc
    rw [← hc, hstatus] at hsel
    have hrun : run.status = .selected := by
      cases hrun : run.status <;> simp [hrun, FallbackRunStatus.current] at hsel ⊢
    exact ⟨hrun, by rw [h.selected, if_pos hrun, hcur, Option.bind_some, ← hc]⟩
  · intro hsome
    by_contra hne
    rw [h.selected, if_neg hne] at hsome
    cases hsome

/-- In every state that any order of calls reaches, a run exposes one account at most, and a run
that has ended keeps its row and its candidates, with their intents, in everything that follows. -/
theorem fallback_run_exposes_one_account {events : List Event} {db : Database} {id : String}
    {run : FallbackRun} (h : Trace.run step .empty events = some db)
    (hrun : db.runs.find id = some run) :
    SingleExposure run (db.candidate id) ∧
      ∀ later next, Trace.run step db later = some next →
        ∃ run', next.runs.find id = some run' ∧ SingleExposure run' (next.candidate id) ∧
          (run.status ≠ .probing → run' = run ∧ next.candidate id = db.candidate id) := by
  have hsound := (run_safe sound_empty h).sound
  refine ⟨((hsound.every id).run run hrun).singleExposure, ?_⟩
  intro later next hlater
  have hsafe := run_safe hsound hlater
  obtain ⟨run', hrun'⟩ := Option.isSome_iff_exists.mp (hsafe.runs id (by rw [hrun]; rfl))
  refine ⟨run', hrun', ((hsafe.sound.every id).run run' hrun').singleExposure, ?_⟩
  intro hended
  obtain ⟨hkept, hsame⟩ := hsafe.frozen id run hrun hended
  rw [hkept, Option.some.injEq] at hrun'
  exact ⟨hrun'.symm, hsame⟩

section Example

def exampleServices : Services where
  now := 1
  randomUUID
    | .signalRun => "signal-run"
    | .fallbackRun key => "run-" ++ key
    | .intent pathId => "intent-" ++ pathId
  sha256 := id
  lower := id
  safeRegexTest := fun _ _ => pure true

def exampleStrategy : TradingTypes.StrategyConfiguration :=
  ⟨["schema"], [], [.long], ⟨.market, .near, false, 60⟩, ⟨none, "1", none, "1000", none, 1⟩,
    ⟨none, ["100"], none⟩, ⟨"1", 60⟩⟩

def examplePath (rank : ℕ) (id accountId : String) (fallbackOn : List WorkflowFallbackReason) :
    WorkflowExecutionPath :=
  ⟨⟨id, "key-" ++ id, "channel", accountId, "strategy", none, none, none, none, none, "group", rank,
    fallbackOn, ["channel-node", accountId], [], exampleStrategy, true⟩, "revision"⟩

/-- Two accounts, the second for symbols that the first lacks. -/
def exampleRevision : WorkflowRevision :=
  ⟨"revision", [examplePath 0 "first" "one" [.symbolUnavailable], examplePath 1 "second" "two" []],
    [⟨"group", "channel", "channel-node", "first",
      [⟨"first", "one", "one", 0, true, [.symbolUnavailable]⟩,
        ⟨"second", "two", "two", 1, true, []⟩]⟩]⟩

theorem exampleRevision_wellFormed : exampleRevision.WellFormed := by
  refine ⟨?_, by decide⟩
  intro group hgroup
  obtain rfl := List.mem_singleton.mp hgroup
  exact ⟨by decide, by decide, by decide⟩

def exampleSignal : TradingTypes.ExecutableSignal :=
  ⟨"schema", .long, "BTCUSDT", .market, [], "90", none, none⟩

def exampleIntent : TradingIntent :=
  ⟨"intent-first", "signal", "signal", some "signal-run", some "revision", some "first", "channel",
    "strategy", "one", "paper", .paper, "BTCUSDT", .long, .pending, exampleSignal, none, none, 1, 1⟩

/-- The first account lacks the symbol, the second is selected, and a late report follows. -/
def exampleEvents : List Event :=
  [.accounts ⟨[⟨"one", "paper", .paper, .ready, true, false⟩,
      ⟨"two", "paper", .paper, .ready, true, false⟩], by decide⟩,
    .runtime ⟨false, true, false⟩,
    .saveRevision exampleRevision exampleRevision_wellFormed,
    .createWorkflowTradingIntents exampleServices
      ⟨"signal", "channel", "text", exampleSignal, none, none, "revision", none⟩,
    .advanceWorkflowFallbackOnEligibleFailure exampleServices exampleIntent
      .symbolUnavailable "none",
    .markWorkflowFallbackSelected exampleServices "intent-second",
    .advanceWorkflowFallbackOnEligibleFailure exampleServices exampleIntent
      .symbolUnavailable "late"]

theorem second_account_selected : ∃ db run, Trace.run step .empty exampleEvents = some db ∧
    db.runs.find "run-group" = some run ∧ run.selectedIntentId = some "intent-second" ∧
    SingleExposure run (db.candidate "run-group") := by
  have hsel : ((Trace.run step .empty exampleEvents).bind (fun db =>
      (db.runs.find "run-group").bind (·.selectedIntentId))) = some "intent-second" := by
    decide +kernel
  obtain ⟨db, hdb, hrest⟩ := Option.bind_eq_some_iff.mp hsel
  obtain ⟨run, hrun, hint⟩ := Option.bind_eq_some_iff.mp hrest
  exact ⟨db, run, hdb, hrun, hint, (fallback_run_exposes_one_account hdb hrun).1⟩

end Example

end TsxCore.Workflow
