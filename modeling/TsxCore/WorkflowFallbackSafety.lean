import TsxCore.Trace
import TsxCore.WorkflowFallback

/-!
# A fallback run exposes at most one account

`RunSound` relates the row of a run to its candidates. Each transaction keeps it
for the run it works on, leaves the other runs alone, and changes no run that has
ended. Other parts of the system may change accounts, switches, revisions and
intents at any time, as far as the foreign keys of the candidates allow.
-/

namespace TsxCore.Workflow

open Outcome

variable {id : String} {db next : Database}

def Database.candidate (db : Database) (runId : String) (rank : ℕ) : Option FallbackCandidate :=
  db.candidates.find (runId, rank)

/-- The status of the candidate at the current rank. -/
def FallbackRunStatus.current : FallbackRunStatus → FallbackCandidateStatus
  | .probing => .pending
  | .selected => .selected
  | .exhausted => .unavailable
  | .stopped => .stopped

/-- The status of the candidates above the current rank. -/
def FallbackRunStatus.higher : FallbackRunStatus → FallbackCandidateStatus
  | .probing => .waiting
  | _ => .stopped

/-- The candidate was left for a reason that its policy allows. -/
def FallbackCandidate.Advanced (candidate : FallbackCandidate) : Prop :=
  candidate.status = .unavailable ∧
    ∃ reason ∈ candidate.fallbackOn, candidate.errorCode = some reason.text

structure RunSound (run : FallbackRun) (candidate : ℕ → Option FallbackCandidate) : Prop where
  current : ∃ c, candidate run.currentRank = some c ∧ c.intentId.isSome ∧
    c.status = run.status.current
  lower : ∀ rank < run.currentRank, ∃ c, candidate rank = some c ∧ c.Advanced
  higher : ∀ rank c, run.currentRank < rank → candidate rank = some c →
    c.intentId = none ∧ c.status = run.status.higher
  ranks : ∀ rank c, candidate rank = some c → ∀ lower < rank, (candidate lower).isSome
  exhausted : run.status = .exhausted → candidate (run.currentRank + 1) = none
  selected : run.selectedIntentId =
    if run.status = .selected then (candidate run.currentRank).bind (·.intentId) else none

namespace RunSound

variable {run next : FallbackRun} {candidate after : ℕ → Option FallbackCandidate}

theorem of_rows
    (hranks : ∀ rank c, candidate rank = some c → ∀ lower < rank, (candidate lower).isSome)
    (hnone : ∀ rank, candidate rank = none → after rank = none)
    (hcur : ∃ c, after next.currentRank = some c ∧ c.intentId.isSome ∧
      c.status = next.status.current)
    (hlower : ∀ rank < next.currentRank, ∃ c, after rank = some c ∧ c.Advanced)
    (hhigher : ∀ rank c, next.currentRank < rank → candidate rank = some c →
      ∃ d, after rank = some d ∧ d.intentId = none ∧ d.status = next.status.higher)
    (hexh : next.status = .exhausted → candidate (next.currentRank + 1) = none)
    (hsel : next.selectedIntentId =
      if next.status = .selected then (after next.currentRank).bind (·.intentId) else none) :
    RunSound next after := by
  have hkept : ∀ rank, (candidate rank).isSome → (after rank).isSome := by
    intro rank hsome
    obtain ⟨c, hc⟩ := Option.isSome_iff_exists.mp hsome
    obtain hlt | heq | hgt := lt_trichotomy rank next.currentRank
    · obtain ⟨d, hd, -⟩ := hlower rank hlt
      simp [hd]
    · obtain ⟨d, hd, -⟩ := hcur
      simp [heq, hd]
    · obtain ⟨d, hd, -⟩ := hhigher rank c hgt hc
      simp [hd]
  refine ⟨hcur, hlower, ?_, ?_, fun hstop => hnone _ (hexh hstop), hsel⟩
  · intro rank d hlt hd
    cases hold : candidate rank with
    | none => simp [hnone rank hold] at hd
    | some c =>
      obtain ⟨e, he, hfacts⟩ := hhigher rank c hlt hold
      rw [hd] at he
      cases he
      exact hfacts
  · intro rank d hd lower hlt
    cases hold : candidate rank with
    | none => simp [hnone rank hold] at hd
    | some c => exact hkept lower (hranks rank c hold lower hlt)

theorem finish (h : RunSound run candidate) (hrank : next.currentRank = run.currentRank)
    (hnone : ∀ rank, candidate rank = none → after rank = none)
    (hcur : ∀ c, candidate run.currentRank = some c → ∃ d, after run.currentRank = some d ∧
      d.intentId = c.intentId ∧ d.status = next.status.current)
    (hlower : ∀ rank c, rank < run.currentRank → candidate rank = some c → c.Advanced →
      after rank = some c)
    (hhigher : ∀ rank c, run.currentRank < rank → candidate rank = some c → c.intentId = none →
      ∃ d, after rank = some d ∧ d.intentId = none ∧ d.status = next.status.higher)
    (hexh : next.status = .exhausted → candidate (run.currentRank + 1) = none)
    (hsel : next.selectedIntentId =
      if next.status = .selected then (candidate run.currentRank).bind (·.intentId) else none) :
    RunSound next after := by
  obtain ⟨c, hc, hint, -⟩ := h.current
  obtain ⟨d, hd, hsame, hstatus⟩ := hcur c hc
  apply of_rows h.ranks hnone
  · exact ⟨d, hrank ▸ hd, hsame ▸ hint, hstatus⟩
  · intro rank hlt
    rw [hrank] at hlt
    obtain ⟨e, he, hadvd⟩ := h.lower rank hlt
    exact ⟨e, hlower rank e hlt he hadvd, hadvd⟩
  · intro rank e hlt he
    rw [hrank] at hlt
    exact hhigher rank e hlt he (h.higher rank e hlt he).1
  · rw [hrank]
    exact hexh
  · rw [hsel, hrank, hc, hd, Option.bind_some, Option.bind_some, hsame]

theorem promote (h : RunSound run candidate) (hrank : next.currentRank = run.currentRank + 1)
    (hlive : next.status ≠ .selected ∧ next.status ≠ .exhausted)
    (hsel : next.selectedIntentId = none)
    (hnone : ∀ rank, candidate rank = none → after rank = none)
    (hlower : ∀ rank c, rank < run.currentRank → candidate rank = some c → c.Advanced →
      after rank = some c)
    (hcur : ∀ c, candidate run.currentRank = some c → ∃ d, after run.currentRank = some d ∧
      d.Advanced)
    (hnext : ∃ d, after (run.currentRank + 1) = some d ∧ d.intentId.isSome ∧
      d.status = next.status.current)
    (hhigher : ∀ rank c, run.currentRank + 1 < rank → candidate rank = some c → c.intentId = none →
      ∃ d, after rank = some d ∧ d.intentId = none ∧ d.status = next.status.higher) :
    RunSound next after := by
  obtain ⟨c, hc, -, -⟩ := h.current
  apply of_rows h.ranks hnone
  · rw [hrank]
    exact hnext
  · intro rank hlt
    rw [hrank, Nat.lt_succ_iff_lt_or_eq] at hlt
    rcases hlt with hless | heq
    · obtain ⟨e, he, hadvd⟩ := h.lower rank hless
      exact ⟨e, hlower rank e hless he hadvd, hadvd⟩
    · rw [heq]
      exact hcur c hc
  · intro rank e hlt he
    rw [hrank] at hlt
    exact hhigher rank e hlt he (h.higher rank e (by omega) he).1
  · intro hstop
    exact absurd hstop hlive.2
  · rw [hsel, if_neg hlive.1]

end RunSound

/-- Only the run `id`, its candidates and the intents may differ. -/
structure Apart (id : String) (db next : Database) : Prop where
  revisions : next.revisions = db.revisions
  accounts : next.accounts = db.accounts
  intents : ∀ intentId, (db.intents.find intentId).isSome → (next.intents.find intentId).isSome
  otherRuns : ∀ other ≠ id, next.runs.find other = db.runs.find other
  otherCandidates : ∀ other ≠ id, next.candidate other = db.candidate other

theorem Apart.trans {middle : Database} (h : Apart id db middle) (hnext : Apart id middle next)
    : Apart id db next where
  revisions := hnext.revisions.trans h.revisions
  accounts := hnext.accounts.trans h.accounts
  intents := fun intentId hsome => hnext.intents intentId (h.intents intentId hsome)
  otherRuns := fun other hne => (hnext.otherRuns other hne).trans (h.otherRuns other hne)
  otherCandidates := fun other hne =>
    (hnext.otherCandidates other hne).trans (h.otherCandidates other hne)

/-- Everything that a transaction on an existing run `id` may change. -/
structure Touches (id : String) (db next : Database) : Prop extends Apart id db next where
  run : ∀ run', next.runs.find id = some run' → ∃ run, db.runs.find id = some run ∧
    run'.workflowRevisionId = run.workflowRevisionId ∧ run'.routeGroupKey = run.routeGroupKey
  isSome_run : (db.runs.find id).isSome → (next.runs.find id).isSome
  candidate : ∀ rank c', next.candidate id rank = some c' → ∃ c, db.candidate id rank = some c ∧
    c'.executionPathId = c.executionPathId ∧ c'.accountId = c.accountId ∧
    ∀ intentId, c'.intentId = some intentId →
      c.intentId = some intentId ∨ (next.intents.find intentId).isSome
  isSome_candidate : ∀ rank, (db.candidate id rank).isSome → (next.candidate id rank).isSome

namespace Touches

variable {id : String} {db middle next : Database}

theorem refl (id : String) (db : Database) : Touches id db db where
  revisions := rfl
  accounts := rfl
  intents := fun _ h => h
  otherRuns := fun _ _ => rfl
  otherCandidates := fun _ _ => rfl
  run := fun run h => ⟨run, h, rfl, rfl⟩
  isSome_run := fun h => h
  candidate := fun _ c h => ⟨c, h, rfl, rfl, fun _ => .inl⟩
  isSome_candidate := fun _ h => h

theorem trans (h : Touches id db middle) (hnext : Touches id middle next) : Touches id db next where
  toApart := h.toApart.trans hnext.toApart
  run := by
    intro run₂ h₂
    obtain ⟨run₁, h₁, hrev, hkey⟩ := hnext.run run₂ h₂
    obtain ⟨run, hrun, hrev₁, hkey₁⟩ := h.run run₁ h₁
    exact ⟨run, hrun, hrev.trans hrev₁, hkey.trans hkey₁⟩
  isSome_run := fun hsome => hnext.isSome_run (h.isSome_run hsome)
  candidate := by
    intro rank c₂ h₂
    obtain ⟨c₁, h₁, hpath, hacc, hint⟩ := hnext.candidate rank c₂ h₂
    obtain ⟨c, hc, hpath₁, hacc₁, hint₁⟩ := h.candidate rank c₁ h₁
    refine ⟨c, hc, hpath.trans hpath₁, hacc.trans hacc₁, ?_⟩
    intro intentId hlink
    rcases hint intentId hlink with hold | hnew
    · exact (hint₁ intentId hold).imp_right (hnext.intents intentId)
    · exact .inr hnew
  isSome_candidate := fun rank hsome => hnext.isSome_candidate rank (h.isSome_candidate rank hsome)

theorem of_elsewhere (id : String) (hrevisions : next.revisions = db.revisions)
    (haccs : next.accounts = db.accounts) (hruns : next.runs = db.runs)
    (hcands : next.candidates = db.candidates)
    (hints : ∀ intentId, (db.intents.find intentId).isSome → (next.intents.find intentId).isSome) :
    Touches id db next where
  revisions := hrevisions
  accounts := haccs
  intents := hints
  otherRuns := fun _ _ => by rw [hruns]
  otherCandidates := by
    intro other _
    funext rank
    rw [Database.candidate, hcands, Database.candidate]
  run := fun run h => ⟨run, hruns ▸ h, rfl, rfl⟩
  isSome_run := fun h => hruns ▸ h
  candidate := fun rank c h =>
    ⟨c, by rwa [Database.candidate, hcands] at h, rfl, rfl, fun _ => .inl⟩
  isSome_candidate := fun rank h => by rwa [Database.candidate, hcands]

theorem updateRun (id : String) {f : FallbackRun → FallbackRun} {hf : ∀ run, (f run).id = run.id}
    (hkept : ∀ run, (f run).workflowRevisionId = run.workflowRevisionId ∧
      (f run).routeGroupKey = run.routeGroupKey) : Touches id db (db.updateRun id f hf) := by
  refine { refl id db with otherRuns := ?_, run := ?_, isSome_run := ?_ }
  · intro other hne
    rw [Database.updateRun, Keyed.find_update]
    cases hrun : db.runs.find other with
    | none => rfl
    | some run =>
      rw [Option.map_some, if_neg]
      simpa [Keyed.key_of_find hrun] using hne
  · intro run' hrun'
    rw [Database.updateRun, Keyed.find_update] at hrun'
    obtain ⟨run, hrun, heq⟩ := Option.map_eq_some_iff.mp hrun'
    refine ⟨run, hrun, ?_⟩
    rw [← heq]
    split_ifs
    · exact hkept run
    · exact ⟨rfl, rfl⟩
  · intro hsome
    rw [Database.updateRun, Keyed.find_update]
    simpa using hsome

theorem updateCandidates {p : FallbackCandidate → Bool} {f : FallbackCandidate → FallbackCandidate}
    {hf : ∀ c, ((f c).fallbackRunId, (f c).rank) = (c.fallbackRunId, c.rank)}
    (hp : ∀ c, p c = true → c.fallbackRunId = id)
    (hkept : ∀ c, (f c).executionPathId = c.executionPathId ∧ (f c).accountId = c.accountId)
    (hint : ∀ c intentId, (f c).intentId = some intentId →
      c.intentId = some intentId ∨ (db.intents.find intentId).isSome) :
    Touches id db (db.updateCandidates p f hf) := by
  refine { refl id db with otherCandidates := ?_, candidate := ?_, isSome_candidate := ?_ }
  · intro other hne
    funext rank
    rw [Database.candidate, Database.updateCandidates, Keyed.find_update, Database.candidate]
    cases hrow : db.candidates.find (other, rank) with
    | none => rfl
    | some c =>
      rw [Option.map_some, if_neg]
      intro htrue
      have hkey := Keyed.key_of_find hrow
      exact hne ((congrArg Prod.fst hkey).symm.trans (hp c htrue))
  · intro rank c' hc'
    rw [Database.candidate, Database.updateCandidates, Keyed.find_update] at hc'
    obtain ⟨c, hc, heq⟩ := Option.map_eq_some_iff.mp hc'
    refine ⟨c, hc, ?_⟩
    rw [← heq]
    split_ifs
    · exact ⟨(hkept c).1, (hkept c).2, hint c⟩
    · exact ⟨rfl, rfl, fun _ => .inl⟩
  · intro rank hsome
    rw [Database.candidate, Database.updateCandidates, Keyed.find_update]
    simpa [Database.candidate] using hsome

end Touches

/-- What holds of the run `id` between transactions. -/
structure SoundAt (db : Database) (id : String) : Prop where
  run : ∀ run, db.runs.find id = some run → RunSound run (db.candidate id)
  complete : ∀ run, db.runs.find id = some run → ∃ revision,
    db.revisions.find run.workflowRevisionId = some revision ∧
    ∀ group ∈ revision.routeGroups, group.key = run.routeGroupKey →
      ∀ c ∈ group.candidates, (db.candidate id c.rank).isSome
  parent : ∀ rank c, db.candidate id rank = some c → (db.runs.find id).isSome
  path : ∀ rank c, db.candidate id rank = some c → (db.executionPath c.executionPathId).isSome
  account : ∀ rank c, db.candidate id rank = some c → (db.accounts.find c.accountId).isSome
  intent : ∀ rank c intentId, db.candidate id rank = some c → c.intentId = some intentId →
    (db.intents.find intentId).isSome

structure Sound (db : Database) : Prop where
  wellFormed : ∀ revision ∈ db.revisions.rows, revision.WellFormed
  every : ∀ id, SoundAt db id

theorem Sound.of_apart (h : Sound db) (ha : Apart id db next) (hat : SoundAt next id) :
    Sound next := by
  refine ⟨ha.revisions ▸ h.wellFormed, ?_⟩
  intro other
  by_cases hid : other = id
  · exact hid ▸ hat
  · have hother := h.every other
    have hruns := ha.otherRuns other hid
    have hcands := ha.otherCandidates other hid
    refine ⟨?_, ?_, ?_, ?_, ?_, ?_⟩
    · rw [hruns, hcands]
      exact hother.run
    · rw [hruns, hcands, ha.revisions]
      exact hother.complete
    · rw [hruns, hcands]
      exact hother.parent
    · intro rank c hc
      rw [Database.executionPath, Database.executionPaths, ha.revisions]
      exact hother.path rank c (hcands ▸ hc)
    · rw [hcands, ha.accounts]
      exact hother.account
    · intro rank c intentId hc hlink
      exact ha.intents intentId (hother.intent rank c intentId (hcands ▸ hc) hlink)

theorem Sound.of_touches (h : Sound db) (ht : Touches id db next)
    (hrun : ∀ run, next.runs.find id = some run → RunSound run (next.candidate id)) :
    Sound next := by
  refine h.of_apart ht.toApart ⟨hrun, ?_, ?_, ?_, ?_, ?_⟩
  · intro run hfind
    obtain ⟨old, hold, hrev, hkey⟩ := ht.run run hfind
    obtain ⟨revision, hfound, hall⟩ := (h.every id).complete old hold
    rw [hrev, hkey, ht.revisions]
    exact ⟨revision, hfound, fun group hgroup hsame c hc =>
      ht.isSome_candidate c.rank (hall group hgroup hsame c hc)⟩
  · intro rank c hc
    obtain ⟨old, hold, -⟩ := ht.candidate rank c hc
    exact ht.isSome_run ((h.every id).parent rank old hold)
  · intro rank c hc
    obtain ⟨old, hold, hpath, -⟩ := ht.candidate rank c hc
    rw [Database.executionPath, Database.executionPaths, ht.revisions, hpath]
    exact (h.every id).path rank old hold
  · intro rank c hc
    obtain ⟨old, hold, -, hacc, -⟩ := ht.candidate rank c hc
    rw [hacc, ht.accounts]
    exact (h.every id).account rank old hold
  · intro rank c intentId hc hlink
    obtain ⟨old, hold, -, -, hint⟩ := ht.candidate rank c hc
    rcases hint intentId hlink with hkept | hnew
    · exact ht.intents intentId ((h.every id).intent rank old intentId hold hkept)
    · exact hnew

/-- A run that has ended stays as it is, with its candidates. -/
def Frozen (db next : Database) : Prop :=
  ∀ id run, db.runs.find id = some run → run.status ≠ .probing →
    next.runs.find id = some run ∧ next.candidate id = db.candidate id

theorem Apart.frozen (ht : Apart id db next)
    (hprobe : ∀ run, db.runs.find id = some run → run.status = .probing) : Frozen db next := by
  intro other run hrun hended
  have hne : other ≠ id := by
    rintro rfl
    exact hended (hprobe run hrun)
  exact ⟨(ht.otherRuns other hne).trans hrun, ht.otherCandidates other hne⟩

structure Safe (db next : Database) : Prop where
  sound : Sound next
  frozen : Frozen db next
  runs : ∀ id, (db.runs.find id).isSome → (next.runs.find id).isSome
  revisions : ∀ id revision, db.revisions.find id = some revision →
    next.revisions.find id = some revision

theorem Safe.refl (h : Sound db) : Safe db db :=
  ⟨h, fun _ _ hrun _ => ⟨hrun, rfl⟩, fun _ h => h, fun _ _ h => h⟩

theorem Safe.trans {middle : Database} (h : Safe db middle) (hnext : Safe middle next) :
    Safe db next := by
  refine ⟨hnext.sound, ?_, fun id hsome => hnext.runs id (h.runs id hsome),
    fun id revision hfind => hnext.revisions id revision (h.revisions id revision hfind)⟩
  intro id run hrun hended
  obtain ⟨hmid, hsame⟩ := h.frozen id run hrun hended
  obtain ⟨hlast, hagain⟩ := hnext.frozen id run hmid hended
  exact ⟨hlast, hagain.trans hsame⟩

theorem Touches.safe {run run' : FallbackRun} (ht : Touches id db next) (h : Sound db)
    (hrun : db.runs.find id = some run) (hprobe : run.status = .probing)
    (hnext : next.runs.find id = some run') (hsound : RunSound run' (next.candidate id)) :
    Safe db next := by
  refine ⟨h.of_touches ht ?_, ht.frozen ?_, ?_, by rw [ht.revisions]; exact fun _ _ h => h⟩
  · intro other hother
    rw [hnext] at hother
    cases hother
    exact hsound
  · intro other hother
    rw [hrun] at hother
    cases hother
    exact hprobe
  · intro other hsome
    by_cases hid : other = id
    · exact hid ▸ ht.isSome_run (hid ▸ hsome)
    · rwa [ht.otherRuns other hid]

theorem Touches.safe_elsewhere (h : Sound db) (hrevisions : next.revisions = db.revisions)
    (haccs : next.accounts = db.accounts) (hruns : next.runs = db.runs)
    (hcands : next.candidates = db.candidates)
    (hints : ∀ intentId, (db.intents.find intentId).isSome → (next.intents.find intentId).isSome) :
    Safe db next := by
  have hsame : next.candidate = db.candidate := by
    funext id rank
    rw [Database.candidate, hcands, Database.candidate]
  refine ⟨h.of_touches (of_elsewhere "" hrevisions haccs hruns hcands hints) ?_, ?_, ?_,
    by rw [hrevisions]; exact fun _ _ h => h⟩
  · intro run hrun
    rw [hruns] at hrun
    exact hsame ▸ (h.every "").run run hrun
  · intro id run hrun _
    exact ⟨hruns ▸ hrun, by rw [hsame]⟩
  · intro id hsome
    rwa [hruns]

end TsxCore.Workflow
