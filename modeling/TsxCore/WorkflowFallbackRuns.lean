import TsxCore.WorkflowFallbackSafety

/-!
# The transactions on a fallback run

Every transaction is `Safe`: reports and selections that concern an earlier
candidate or a run that has ended change nothing but the intent, and the others
move the run as `RunSound.finish` or `RunSound.promote` describe.
-/

namespace TsxCore.Workflow

open Outcome

variable {db next : Database} {id intentId : String} {rank : ℕ} {run : FallbackRun}
variable {c : FallbackCandidate}

theorem key_of_candidate (h : db.candidate id rank = some c) :
    c.fallbackRunId = id ∧ c.rank = rank := by
  have hkey := Keyed.key_of_find h
  exact ⟨congrArg Prod.fst hkey, congrArg Prod.snd hkey⟩

theorem candidate_of_mem (h : c ∈ db.candidates.rows) :
    db.candidate c.fallbackRunId c.rank = some c := Keyed.find_eq_some.mpr ⟨h, rfl⟩

section Tables

variable {p : FallbackCandidate → Bool} {f : FallbackCandidate → FallbackCandidate}
variable {hf : ∀ c, ((f c).fallbackRunId, (f c).rank) = (c.fallbackRunId, c.rank)}
variable {g : FallbackRun → FallbackRun} {hg : ∀ run, (g run).id = run.id}

@[simp] theorem candidate_updateCandidates : (db.updateCandidates p f hf).candidate id rank =
    (db.candidate id rank).map (fun c => if p c then f c else c) := by
  rw [Database.candidate, Database.updateCandidates, Keyed.find_update, Database.candidate]

@[simp] theorem runs_updateCandidates : (db.updateCandidates p f hf).runs = db.runs := rfl

@[simp] theorem candidate_updateRun : (db.updateRun id g hg).candidate = db.candidate := rfl

@[simp] theorem find_updateRun :
    (db.updateRun id g hg).runs.find id = (db.runs.find id).map g := by
  rw [Database.updateRun, Keyed.find_update]
  cases hrun : db.runs.find id with
  | none => rfl
  | some run =>
    rw [Option.map_some, if_pos, Option.map_some]
    simpa using Keyed.key_of_find hrun

variable {services : Services}

@[simp] theorem runs_refresh :
    (refreshWorkflowSignalRunFromFallback services id db).runs = db.runs := by
  unfold refreshWorkflowSignalRunFromFallback
  split <;> rfl

@[simp] theorem candidate_refresh :
    (refreshWorkflowSignalRunFromFallback services id db).candidate = db.candidate := by
  unfold refreshWorkflowSignalRunFromFallback
  split <;> rfl

theorem Touches.refresh (id other : String) :
    Touches id db (refreshWorkflowSignalRunFromFallback services other db) := by
  unfold refreshWorkflowSignalRunFromFallback
  split
  · exact .refl id db
  · exact .of_elsewhere id rfl rfl rfl rfl (fun _ h => h)

theorem insertIntent_ok {intent : TradingIntent} (h : insertIntent intent db = .ok next) :
    next = { db with intents := next.intents } ∧ (next.intents.find intent.id).isSome ∧
      ∀ other, (db.intents.find other).isSome → (next.intents.find other).isSome := by
  unfold insertIntent at h
  simp only [bind_eq_ok, throwIf_eq_ok, pure_eq_ok_iff] at h
  obtain ⟨-, -, -, -, rfl⟩ := h
  refine ⟨rfl, ?_, ?_⟩
  · rw [Keyed.find_insert, if_pos rfl]
    rfl
  · intro other hsome
    rw [Keyed.find_insert]
    split_ifs
    · rfl
    · exact hsome

end Tables

section Reading

theorem fallbackCurrentRow_eq_some {current : FallbackCurrentRow}
    (h : fallbackCurrentRow intentId db = some current) :
    db.candidate current.candidate.fallbackRunId current.candidate.rank = some current.candidate ∧
      current.candidate.intentId = some intentId ∧
      db.runs.find current.candidate.fallbackRunId = some current.run := by
  unfold fallbackCurrentRow at h
  obtain ⟨row, hrow, hjoin⟩ := Option.bind_eq_some_iff.mp h
  obtain ⟨run, hrun, rfl⟩ := Option.map_eq_some_iff.mp hjoin
  have hint := List.find?_some hrow
  exact ⟨candidate_of_mem (List.mem_of_find?_eq_some hrow), by simpa using hint, hrun⟩

theorem Sound.joined (h : Sound db) (hc : db.candidate id rank = some c) :
    ∃ path, joinCandidate db c = some ⟨c, path⟩ := by
  obtain ⟨path, hpath⟩ := Option.isSome_iff_exists.mp ((h.every id).path rank c hc)
  obtain ⟨account, hacc⟩ := Option.isSome_iff_exists.mp ((h.every id).account rank c hc)
  exact ⟨path, by rw [joinCandidate, hpath, Option.bind_some, hacc, Option.map_some]⟩

theorem mem_higher {candidate : FallbackCandidate} :
    c ∈ (db.candidates.rows.filter (fun row => row.fallbackRunId = candidate.fallbackRunId ∧
      candidate.rank < row.rank)).insertionSort (·.rank ≤ ·.rank) ↔
      db.candidate candidate.fallbackRunId c.rank = some c ∧ candidate.rank < c.rank := by
  rw [List.mem_insertionSort, List.mem_filter, decide_eq_true_eq]
  refine ⟨?_, ?_⟩
  · intro hc
    obtain ⟨hmem, hid, hrank⟩ := hc
    exact ⟨hid ▸ candidate_of_mem hmem, hrank⟩
  · intro hc
    obtain ⟨hfind, hrank⟩ := hc
    exact ⟨Keyed.mem_of_find hfind, (key_of_candidate hfind).1, hrank⟩

theorem fallbackNextRow_eq_none (h : Sound db) (hnone : fallbackNextRow c db = none) :
    db.candidate c.fallbackRunId (c.rank + 1) = none := by
  by_contra hsome
  obtain ⟨d, hd⟩ := Option.ne_none_iff_exists'.mp hsome
  obtain ⟨path, hjoin⟩ := h.joined hd
  have hrank := (key_of_candidate hd).2
  have hmem := (@mem_higher db d c).mpr ⟨hrank ▸ hd, by omega⟩
  rw [fallbackNextRow, List.head?_eq_none_iff, List.filterMap_eq_nil_iff] at hnone
  rw [hnone d hmem] at hjoin
  cases hjoin

theorem fallbackNextRow_eq_some (h : Sound db) {row : FallbackNextRow}
    (hranks : ∀ rank d, db.candidate c.fallbackRunId rank = some d →
      ∀ lower < rank, (db.candidate c.fallbackRunId lower).isSome)
    (hsome : fallbackNextRow c db = some row) :
    db.candidate c.fallbackRunId (c.rank + 1) = some row.candidate ∧
      row.candidate.rank = c.rank + 1 := by
  have hsort := List.pairwise_insertionSort (fun a b : FallbackCandidate => a.rank ≤ b.rank)
    (db.candidates.rows.filter (fun row => row.fallbackRunId = c.fallbackRunId ∧
      c.rank < row.rank))
  have hmem : ∀ d, d ∈ _ ↔ _ := fun d => @mem_higher db d c
  unfold fallbackNextRow at hsome
  generalize (db.candidates.rows.filter (fun row => row.fallbackRunId = c.fallbackRunId ∧
      c.rank < row.rank)).insertionSort (·.rank ≤ ·.rank) = rows at hsort hmem hsome
  cases rows with
  | nil => simp at hsome
  | cons d rest =>
    obtain ⟨hd, hlt⟩ := (hmem d).mp List.mem_cons_self
    obtain ⟨path, hjoin⟩ := h.joined hd
    rw [List.filterMap_cons_some hjoin, List.head?_cons, Option.some.injEq] at hsome
    subst hsome
    have hnext : d.rank = c.rank + 1 := by
      by_contra hne
      obtain ⟨e, he⟩ := Option.isSome_iff_exists.mp
        (hranks d.rank d hd (c.rank + 1) (by omega))
      have herank := (key_of_candidate he).2
      have hemem := (hmem e).mpr ⟨herank ▸ he, by omega⟩
      rcases List.mem_cons.mp hemem with heq | hrest
      · subst heq
        exact hne herank
      · have hle := (List.pairwise_cons.mp hsort).1 e hrest
        omega
    exact ⟨hnext ▸ hd, hnext⟩

end Reading

structure Probing (db : Database) (current : FallbackCurrentRow) : Prop where
  candidate : db.candidate current.candidate.fallbackRunId current.candidate.rank =
    some current.candidate
  run : db.runs.find current.candidate.fallbackRunId = some current.run
  status : current.run.status = .probing
  rank : current.run.currentRank = current.candidate.rank

theorem Probing.unselected {current : FallbackCurrentRow} (hp : Probing db current) (h : Sound db) :
    current.run.selectedIntentId = none := by
  rw [((h.every _).run _ hp.run).selected, hp.status]
  rfl

section Advancing

variable {services : Services} {current : FallbackCurrentRow} {intent : TradingIntent}
variable {reason : WorkflowFallbackReason} {message : String} {status : FallbackCandidateStatus}
  {policy : Option (List WorkflowFallbackReason)} {errorCode : Option String}
  {row : FallbackNextRow}

theorem atRank_key : ∀ c, atRank id rank c = true → c.fallbackRunId = id := by
  intro c hc
  simp only [atRank, Bool.and_eq_true, decide_eq_true_eq] at hc
  exact hc.1

theorem waitingIn_key : ∀ c, waitingIn id c = true → c.fallbackRunId = id := by
  intro c hc
  simp only [waitingIn, Bool.and_eq_true, decide_eq_true_eq] at hc
  exact hc.1

theorem Touches.markCandidate :
    Touches current.candidate.fallbackRunId db
      (markCandidate services current intent reason message status policy db) :=
  .updateCandidates atRank_key (fun _ => ⟨rfl, rfl⟩) (fun _ _ => .inl)

theorem Touches.stopWaiting : Touches id db (stopWaiting services id errorCode db) :=
  .updateCandidates waitingIn_key (fun _ => ⟨rfl, rfl⟩) (fun _ _ => .inl)

theorem Touches.completeRun {status : FallbackRunStatus} {stopReason : Option String} :
    Touches id db (completeRun services id status stopReason db) :=
  .updateRun id (fun _ => ⟨rfl, rfl⟩)

@[simp] theorem runs_markCandidate :
    (markCandidate services current intent reason message status policy db).runs = db.runs := rfl

@[simp] theorem runs_stopWaiting : (stopWaiting services id errorCode db).runs = db.runs := rfl

theorem atRank_of_candidate {other : ℕ} (h : db.candidate id rank = some c) :
    atRank id other c = decide (rank = other) := by
  obtain ⟨hid, hrank⟩ := key_of_candidate h
  simp [atRank, hid, hrank]

@[simp] theorem atRank_self : atRank c.fallbackRunId c.rank c = true := by
  simp [atRank]

theorem waitingIn_of_candidate (h : db.candidate id rank = some c) :
    waitingIn id c = decide (c.status = .waiting) := by
  obtain ⟨hid, -⟩ := key_of_candidate h
  simp [waitingIn, hid]

theorem exhaust_safe (h : Sound db) (hp : Probing db current)
    (hnone : db.candidate current.candidate.fallbackRunId (current.candidate.rank + 1) = none) :
    Safe db (exhaustFallbackRun services current intent reason message db).2 := by
  have ht : Touches current.candidate.fallbackRunId db
      (exhaustFallbackRun services current intent reason message db).2 :=
    (Touches.markCandidate.trans .completeRun).trans (.refresh _ _)
  have hsound := (h.every _).run _ hp.run
  have hrun : (exhaustFallbackRun services current intent reason message db).2.runs.find
      current.candidate.fallbackRunId = some { current.run with
        status := .exhausted
        stopReason := some reason.text
        updatedAt := services.now
        completedAt := some services.now } := by
    simp [exhaustFallbackRun, completeRun, hp.run]
  refine ht.safe h hp.run hp.status hrun ?_
  simp only [exhaustFallbackRun, candidate_refresh, completeRun, candidate_updateRun]
  apply hsound.finish
  · rfl
  · intro rank hrow
    simp [markCandidate, hrow]
  · intro c hc
    rw [hp.rank, hp.candidate, Option.some.injEq] at hc
    simp [markCandidate, hp.rank, hp.candidate, ← hc, FallbackRunStatus.current]
  · intro rank c hlt hc _
    have hne : rank ≠ current.candidate.rank := hp.rank ▸ hlt.ne
    simp [markCandidate, hc, atRank_of_candidate hc, hne]
  · intro rank c hlt hc _
    rw [hp.rank] at hlt
    have hlast : rank = current.candidate.rank + 1 ∨ current.candidate.rank + 1 < rank := by omega
    rcases hlast with rfl | hbeyond
    · simp [hnone] at hc
    · have hbelow := hsound.ranks rank c hc _ hbeyond
      simp [hnone] at hbelow
  · intro _
    rw [hp.rank]
    exact hnone
  · exact hp.unselected h

theorem stopDisallowed_safe (h : Sound db) (hp : Probing db current)
    {policy : List WorkflowFallbackReason} :
    Safe db (stopDisallowedFallback services current intent reason message row policy db).2 := by
  have ht : Touches current.candidate.fallbackRunId db
      (stopDisallowedFallback services current intent reason message row policy db).2 :=
    ((Touches.markCandidate.trans .stopWaiting).trans .completeRun).trans (.refresh _ _)
  have hsound := (h.every _).run _ hp.run
  have hrun : (stopDisallowedFallback services current intent reason message row policy
      db).2.runs.find current.candidate.fallbackRunId = some { current.run with
        status := .stopped
        stopReason := some reason.text
        updatedAt := services.now
        completedAt := some services.now } := by
    simp [stopDisallowedFallback, completeRun, hp.run]
  refine ht.safe h hp.run hp.status hrun ?_
  simp only [stopDisallowedFallback, candidate_refresh, completeRun, candidate_updateRun]
  apply hsound.finish
  · rfl
  · intro rank hrow
    simp [stopWaiting, markCandidate, hrow]
  · intro c hc
    rw [hp.rank, hp.candidate, Option.some.injEq] at hc
    simp [stopWaiting, markCandidate, hp.rank, hp.candidate, ← hc, waitingIn,
      FallbackRunStatus.current]
  · intro rank c hlt hc hadvd
    have hne : rank ≠ current.candidate.rank := hp.rank ▸ hlt.ne
    simp [stopWaiting, markCandidate, hc, atRank_of_candidate hc, hne, waitingIn_of_candidate hc,
      hadvd.1]
  · intro rank c hlt hc _
    have hne : rank ≠ current.candidate.rank := hp.rank ▸ hlt.ne'
    obtain ⟨hint, hstatus⟩ := hsound.higher rank c hlt hc
    rw [hp.status] at hstatus
    simp [stopWaiting, markCandidate, hc, atRank_of_candidate hc, hne, waitingIn_of_candidate hc,
      hstatus, hint, FallbackRunStatus.higher]
  · intro hstop
    cases hstop
  · exact hp.unselected h

/-- A transaction that only adds or changes intents. -/
structure OnlyIntents (db next : Database) : Prop where
  same : next = { db with intents := next.intents }
  kept : ∀ other, (db.intents.find other).isSome → (next.intents.find other).isSome

theorem OnlyIntents.touches (h : OnlyIntents db next) (id : String) : Touches id db next := by
  refine .of_elsewhere id ?_ ?_ ?_ ?_ h.kept
  all_goals rw [h.same]

theorem OnlyIntents.runs (h : OnlyIntents db next) : next.runs = db.runs := by rw [h.same]

theorem OnlyIntents.candidate (h : OnlyIntents db next) : next.candidate = db.candidate := by
  rw [h.same]
  rfl

theorem insertPromoted_ok {promoted : TradingIntent}
    (h : insertPromotedFallbackIntent services current intent row db = .ok (promoted, next)) :
    OnlyIntents db next ∧ (next.intents.find promoted.id).isSome := by
  unfold insertPromotedFallbackIntent at h
  simp only [bind_eq_ok, pure_eq_ok_iff, Prod.mk.injEq] at h
  obtain ⟨account, -, next', hinsert, rfl, rfl⟩ := h
  obtain ⟨hsame, hnew, hkept⟩ := insertIntent_ok hinsert
  exact ⟨⟨hsame, hkept⟩, hnew⟩

theorem linkCandidate_ok {intent : TradingIntent}
    (h : linkCandidate services id rank intent db = .ok next)
    (hint : (db.intents.find intent.id).isSome) : Touches id db next ∧ next.runs = db.runs ∧
      next.intents = db.intents ∧
      ∀ other c, db.candidate id other = some c →
        next.candidate id other = some (if other = rank then
        { c with
          intentId := some intent.id
          status := if intent.status = .pending then .pending else .stopped
          errorCode := intent.blockReason
          updatedAt := services.now } else c) := by
  unfold linkCandidate at h
  simp only [bind_eq_ok, throwIf_eq_ok, pure_eq_ok_iff] at h
  obtain ⟨-, -, rfl⟩ := h
  refine ⟨?_, rfl, rfl, ?_⟩
  · exact .updateCandidates atRank_key (fun _ => ⟨rfl, rfl⟩)
      (fun _ _ hlink => .inr (Option.some.inj hlink ▸ hint))
  · intro other c hc
    simp [hc, atRank_of_candidate hc]

theorem Touches.candidate_none (h : Touches id db next) (hnone : db.candidate id rank = none) :
    next.candidate id rank = none := by
  cases hrow : next.candidate id rank with
  | none => rfl
  | some c =>
    obtain ⟨old, hold, -⟩ := h.candidate rank c hrow
    simp [hnone] at hold

theorem promote_safe (h : Sound db) (hp : Probing db current)
    (hpol : reason ∈ current.candidate.fallbackOn)
    (hrow : db.candidate current.candidate.fallbackRunId (current.candidate.rank + 1) =
      some row.candidate)
    (hrank : row.candidate.rank = current.candidate.rank + 1)
    {result : WorkflowFallbackAdvanceResult}
    (hok : promoteFallbackCandidate services current intent reason message row db =
      .ok (result, next)) :
    Safe db next := by
  unfold promoteFallbackCandidate at hok
  simp only [bind_eq_ok] at hok
  obtain ⟨⟨promoted, inserted⟩, hinsert, linked, hlink, hok⟩ := hok
  obtain ⟨honly, hnew⟩ := insertPromoted_ok hinsert
  obtain ⟨hlinked, hruns, -, hrows⟩ := linkCandidate_ok hlink hnew
  have hsound := (h.every _).run _ hp.run
  have hbase : Touches current.candidate.fallbackRunId db linked :=
    (Touches.markCandidate.trans (honly.touches _)).trans hlinked
  rw [honly.candidate] at hrows
  have hfind : linked.runs.find current.candidate.fallbackRunId = some current.run := by
    rw [hruns, honly.runs]
    exact hp.run
  have hbelow : ∀ rank c, rank < current.run.currentRank →
      db.candidate current.candidate.fallbackRunId rank = some c →
      linked.candidate current.candidate.fallbackRunId rank = some c := by
    intro rank c hlt hc
    rw [hp.rank] at hlt
    rw [hrows rank c, if_neg (by omega)]
    simp [markCandidate, hc, atRank_of_candidate hc, hlt.ne]
  have hleft : ∃ d, linked.candidate current.candidate.fallbackRunId current.run.currentRank =
      some d ∧ d.Advanced := by
    rw [hp.rank, hrows _ { current.candidate with
      status := .unavailable
      errorCode := some reason.text
      details := some ⟨message, intent.symbol, none⟩
      updatedAt := services.now } (by simp [markCandidate, hp.candidate]), if_neg (by omega)]
    exact ⟨_, rfl, rfl, reason, hpol, rfl⟩
  have hnext : ∃ d, linked.candidate current.candidate.fallbackRunId (current.run.currentRank + 1) =
      some d ∧ d.intentId.isSome ∧
      d.status = if promoted.status = .pending then .pending else .stopped := by
    rw [hp.rank, hrows _ row.candidate (by
      simp [markCandidate, hrow, atRank_of_candidate hrow]), if_pos hrank.symm]
    exact ⟨_, rfl, rfl, rfl⟩
  have habove : ∀ rank c, current.run.currentRank + 1 < rank →
      db.candidate current.candidate.fallbackRunId rank = some c →
      linked.candidate current.candidate.fallbackRunId rank = some c ∧ c.intentId = none ∧
        c.status = .waiting := by
    intro rank c hlt hc
    obtain ⟨hnone, hstatus⟩ := hsound.higher rank c (by omega) hc
    rw [hp.status] at hstatus
    rw [hp.rank] at hlt
    rw [hrows rank c, if_neg (by omega)]
    · exact ⟨rfl, hnone, hstatus⟩
    · have hne : rank ≠ current.candidate.rank := by omega
      simp [markCandidate, hc, atRank_of_candidate hc, hne]
  by_cases hpend : promoted.status = .pending
  · rw [if_pos hpend, pure_eq_ok_iff, Prod.mk.injEq] at hok
    obtain ⟨-, rfl⟩ := hok
    refine Touches.safe ((hbase.trans (.updateRun _ ?_)).trans (.refresh _ _)) h hp.run hp.status
      (by rw [runs_refresh, find_updateRun, hfind, Option.map_some]) ?_
    · exact fun _ => ⟨rfl, rfl⟩
    simp only [candidate_refresh, candidate_updateRun]
    apply hsound.promote
    · rw [hrank, hp.rank]
    · simp [hp.status]
    · exact hp.unselected h
    · exact fun rank => hbase.candidate_none
    · exact fun rank c hlt hc _ => hbelow rank c hlt hc
    · exact fun _ _ => hleft
    · simpa [hpend, hp.status, FallbackRunStatus.current] using hnext
    · intro rank c hlt hc _
      obtain ⟨hsame, hnone, hstatus⟩ := habove rank c hlt hc
      exact ⟨c, hsame, hnone, by rw [hstatus, hp.status]; rfl⟩
  · rw [if_neg hpend, pure_eq_ok_iff, Prod.mk.injEq] at hok
    obtain ⟨-, rfl⟩ := hok
    refine Touches.safe (((hbase.trans (.updateRun _ ?_)).trans .stopWaiting).trans (.refresh _ _))
      h hp.run hp.status
      (by rw [runs_refresh, runs_stopWaiting, find_updateRun, hfind, Option.map_some]) ?_
    · exact fun _ => ⟨rfl, rfl⟩
    have hnone : ∀ rank, db.candidate current.candidate.fallbackRunId rank = none →
        linked.candidate current.candidate.fallbackRunId rank = none :=
      fun rank => hbase.candidate_none
    simp only [candidate_refresh]
    apply hsound.promote
    · rw [hrank, hp.rank]
    · simp
    · exact hp.unselected h
    · intro rank hrow
      simp [stopWaiting, hnone rank hrow]
    · intro rank c hlt hc hadvd
      have hsame := hbelow rank c hlt hc
      simp [stopWaiting, hsame, waitingIn_of_candidate hsame, hadvd.1]
    · intro _ _
      obtain ⟨d, hd, hadvd⟩ := hleft
      exact ⟨d, by simp [stopWaiting, hd, waitingIn_of_candidate hd, hadvd.1], hadvd⟩
    · obtain ⟨d, hd, hlinked, hstatus⟩ := hnext
      rw [if_neg hpend] at hstatus
      exact ⟨d, by simp [stopWaiting, hd, waitingIn_of_candidate hd, hstatus], hlinked, hstatus⟩
    · intro rank c hlt hc _
      obtain ⟨hsame, hfree, hstatus⟩ := habove rank c hlt hc
      simp [stopWaiting, hsame, waitingIn_of_candidate hsame, hstatus, hfree,
        FallbackRunStatus.higher]

theorem blockIntent_ok (h : blockIntent services intent reason message db = .ok next) :
    OnlyIntents db next := by
  unfold blockIntent at h
  simp only [bind_eq_ok, pure_eq_ok_iff] at h
  obtain ⟨-, -, rfl⟩ := h
  refine ⟨rfl, ?_⟩
  intro other hsome
  rw [Keyed.find_update]
  simpa using hsome

theorem OnlyIntents.safe (h : Sound db) (honly : OnlyIntents db next) : Safe db next := by
  refine Touches.safe_elsewhere h ?_ ?_ ?_ ?_ honly.kept
  all_goals rw [honly.same]

theorem advance_safe (h : Sound db) {result : Option WorkflowFallbackAdvanceResult}
    (hok : advanceWorkflowFallbackOnEligibleFailure services intent reason message db =
      .ok (result, next)) : Safe db next := by
  unfold advanceWorkflowFallbackOnEligibleFailure advanceWorkflowFallbackTransaction at hok
  simp only [bind_eq_ok] at hok
  obtain ⟨blocked, hblock, hok⟩ := hok
  have hfirst := (blockIntent_ok hblock).safe h
  apply hfirst.trans
  have hs := hfirst.sound
  cases hcur : fallbackCurrentRow intent.id blocked with
  | none =>
    simp only [loadFallbackAdvanceRows, hcur, Option.map_none, pure_eq_ok_iff] at hok
    cases hok
    exact .refl hs
  | some current =>
    simp only [loadFallbackAdvanceRows, hcur, Option.map_some] at hok
    obtain ⟨hc, -, hrun⟩ := fallbackCurrentRow_eq_some hcur
    by_cases hact : current.run.status = .probing ∧ current.run.currentRank = current.candidate.rank
    · rw [if_pos hact] at hok
      have hp : Probing blocked current := ⟨hc, hrun, hact.1, hact.2⟩
      cases hnext : fallbackNextRow current.candidate blocked with
      | none =>
        simp only [hnext, pure_eq_ok_iff, Prod.mk.injEq] at hok
        obtain ⟨-, rfl⟩ := hok
        exact exhaust_safe hs hp (fallbackNextRow_eq_none hs hnext)
      | some row =>
        simp only [hnext] at hok
        by_cases hpol : reason ∈ current.candidate.fallbackOn
        · simp only [if_pos hpol, bind_eq_ok, pure_eq_ok_iff, Prod.mk.injEq] at hok
          obtain ⟨⟨_, last⟩, hpromote, -, rfl⟩ := hok
          obtain ⟨hrow, hrank⟩ := fallbackNextRow_eq_some hs (hs.every _ |>.run _ hrun).ranks hnext
          exact promote_safe hs hp hpol hrow hrank hpromote
        · simp only [if_neg hpol, pure_eq_ok_iff, Prod.mk.injEq] at hok
          obtain ⟨-, rfl⟩ := hok
          exact stopDisallowed_safe hs hp
    · simp only [if_neg hact, pure_eq_ok_iff, Prod.mk.injEq] at hok
      obtain ⟨-, rfl⟩ := hok
      exact .refl hs

end Advancing

section Finishing

variable {services : Services}

theorem probingCandidate_eq_some (h : probingCandidate intentId db = some c) :
    ∃ run, Probing db ⟨c, run⟩ ∧ c.intentId = some intentId := by
  unfold probingCandidate at h
  obtain ⟨current, hcur, rfl⟩ := Option.map_eq_some_iff.mp h
  obtain ⟨hfound, hact⟩ := Option.filter_eq_some_iff.mp hcur
  obtain ⟨hc, hlink, hrun⟩ := fallbackCurrentRow_eq_some hfound
  simp only [Bool.and_eq_true, decide_eq_true_eq] at hact
  exact ⟨current.run, ⟨hc, hrun, hact.1, hact.2⟩, hlink⟩

theorem select_safe (h : Sound db) :
    Safe db (markWorkflowFallbackSelected services intentId db) := by
  unfold markWorkflowFallbackSelected
  cases hc : probingCandidate intentId db with
  | none => exact .refl h
  | some c =>
    obtain ⟨run, hp, hlink⟩ := probingCandidate_eq_some hc
    have hsound := (h.every _).run _ hp.run
    simp only
    refine Touches.safe (((Touches.updateCandidates atRank_key ?_ ?_).trans .stopWaiting).trans
      (.updateRun _ ?_) |>.trans (.refresh _ _)) h hp.run hp.status
      (by rw [runs_refresh, find_updateRun, runs_stopWaiting, runs_updateCandidates, hp.run,
        Option.map_some]) ?_
    · exact fun _ => ⟨rfl, rfl⟩
    · exact fun _ _ => .inl
    · exact fun _ => ⟨rfl, rfl⟩
    simp only [candidate_refresh, candidate_updateRun]
    have hrank : run.currentRank = c.rank := hp.rank
    apply hsound.finish
    · rfl
    · intro rank hrow
      simp [stopWaiting, hrow]
    · intro d hd
      rw [hp.rank, hp.candidate, Option.some.injEq] at hd
      simp [stopWaiting, hrank, hp.candidate, ← hd, waitingIn, FallbackRunStatus.current]
    · intro rank d hlt hd hadvd
      have hne : rank ≠ c.rank := hrank ▸ hlt.ne
      simp [stopWaiting, hd, atRank_of_candidate hd, hne, waitingIn_of_candidate hd, hadvd.1]
    · intro rank d hlt hd _
      have hne : rank ≠ c.rank := hrank ▸ hlt.ne'
      obtain ⟨hfree, hstatus⟩ := hsound.higher rank d hlt hd
      rw [hp.status] at hstatus
      simp [stopWaiting, hd, atRank_of_candidate hd, hne, waitingIn_of_candidate hd, hstatus, hfree,
        FallbackRunStatus.higher]
    · intro hstop
      cases hstop
    · rw [if_pos rfl, hp.rank, hp.candidate, Option.bind_some, hlink]

theorem stop_safe (h : Sound db) {reason : String} :
    Safe db (stopWorkflowFallback services intentId reason db) := by
  unfold stopWorkflowFallback
  cases hc : probingCandidate intentId db with
  | none => exact .refl h
  | some c =>
    obtain ⟨run, hp, -⟩ := probingCandidate_eq_some hc
    have hsound := (h.every _).run _ hp.run
    have hkey : ∀ rank d, db.candidate c.fallbackRunId rank = some d →
        d.fallbackRunId = c.fallbackRunId := fun _ _ hd => (key_of_candidate hd).1
    simp only
    refine Touches.safe (((Touches.updateCandidates ?_ ?_ ?_).trans .completeRun).trans
      (.refresh _ _)) h hp.run hp.status
      (by rw [runs_refresh, completeRun, find_updateRun, runs_updateCandidates, hp.run,
        Option.map_some]) ?_
    · intro d hd
      simp only [Bool.and_eq_true, decide_eq_true_eq] at hd
      exact hd.1
    · exact fun _ => ⟨rfl, rfl⟩
    · exact fun _ _ => .inl
    simp only [candidate_refresh, completeRun, candidate_updateRun]
    apply hsound.finish
    · rfl
    · intro rank hrow
      simp [hrow]
    · intro d hd
      obtain ⟨e, he, -, hstatus⟩ := hsound.current
      rw [hd, Option.some.injEq] at he
      rw [← he, hp.status] at hstatus
      simp [hd, hkey _ d hd, hstatus, FallbackRunStatus.current]
    · intro rank d hlt hd hadvd
      simp [hd, hadvd.1]
    · intro rank d hlt hd _
      obtain ⟨hfree, hstatus⟩ := hsound.higher rank d hlt hd
      rw [hp.status] at hstatus
      simp [hd, hkey _ d hd, hstatus, hfree, FallbackRunStatus.higher]
    · intro hstop
      cases hstop
    · exact hp.unselected h

end Finishing

end TsxCore.Workflow
