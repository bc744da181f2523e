import TsxCore.ExchangeHistoryCoverage

/-!
# History checkpoints and their progress (`exchange_history_contract.ts`)

The validators take typed rows, so the checks for plain objects and their keys
have no counterpart. The clock is read once for each validation. `isDeepStrictEqual`
and `!==` on these values are equality.
-/

namespace TsxCore.ExchangeHistory

open Outcome TradingRecoveryScheduleContract

/-- `integer(value)`. -/
def historyInteger (value : ℤ) : Outcome Unit :=
  throwIf (¬ isSafeInteger value ∨ value < 0) (.error "Invalid history checkpoint number.")

def nullableInteger (value : Option ℤ) : Outcome Unit := value.forM historyInteger

/-- `/[\x00-\x1f]/u.test(value)`. -/
def hasControl (value : String) : Bool := value.toList.any (fun c => c.toNat < 32)

/-- `token(value, maximum)`. -/
def historyToken (value : Option String) (maximum : ℕ) : Outcome Unit :=
  throwIf (value.any (fun text => text = "" ∨ maximum < utf16Length text ∨ hasControl text))
    (.error "Invalid history checkpoint token.")

/-- `/^[a-z_]{1,80}$/`. -/
def reasonPattern (value : String) : Bool :=
  1 ≤ value.toList.length ∧ value.toList.length ≤ 80 ∧
    value.toList.all (fun c => ('a' ≤ c && c ≤ 'z') || c == '_')

def validateWindow (row : HistoryCheckpoint) (now : ℤ) : Outcome Unit :=
  let latest := now + 60000
  throwIf (row.windowSince < row.baselineSince ∨ latest < row.windowSince ∨
      row.windowUntil.any (fun finish => finish < row.windowSince ∨ latest < finish) ∨
      row.scannedThrough.any (fun scanned => scanned < row.baselineSince ∨ latest < scanned) ∨
      (row.cursor ≠ none ∧ row.windowUntil = none) ∨
      row.reason.any (fun reason => reasonPattern reason = false))
    (.error "Invalid history checkpoint window or reason.")

def retentionAnchor : Option RetentionAnchor → Outcome Unit
  | none => return ()
  | some row => do
    throwIf (digestPattern row.payloadHash = false) (.error "Invalid Hyperliquid retention anchor.")
    historyToken (some row.coin) 256
    historyToken (some row.tid) 256
    historyInteger row.time

def validateRetentionWindow (probe : HistoryRetention) (state : HistoryCheckpoint) (now : ℤ) :
    Outcome Unit := do
  throwIf (probe.originalSince < state.baselineSince ∨ probe.originalUntil < probe.originalSince ∨
      probe.startedAt < probe.originalUntil ∨ now + 60000 < probe.startedAt)
    (.error "Invalid Hyperliquid retention original window.")
  if probe.phase = .proved then
    throwIf (probe.fixedUntil = none ∨ state.scannedThrough = none ∨
        probe.fixedUntil.any (fun fixed => state.scannedThrough.any
          (fun scanned => scanned < min probe.originalUntil fixed)))
      (.error "Hyperliquid retention proof lacks traversal.")
  else
    throwIf (state.windowSince ≠ probe.originalSince ∨
        state.windowUntil ≠ some probe.originalUntil)
      (.error "Hyperliquid retention changed its original window.")

def validateRetentionCount (probe : HistoryRetention) : Outcome Unit :=
  if probe.phase = .witness then
    throwIf (probe.anchor ≠ none ∨ probe.fixedUntil ≠ none ∨ probe.count ≠ 0 ∨ probe.cursor ≠ 0)
      (.error "Invalid initial retention phase.")
  else
    throwIf (probe.anchor = none ∨ probe.count < 1 ∨ 10000 ≤ probe.count ∨
        probe.anchor.any (fun anchor => probe.cursor < anchor.time))
      (.error "Invalid counted retention anchor.")

def validateRetentionHorizon (probe : HistoryRetention) (now : ℤ) : Outcome Unit :=
  throwIf (probe.phase ∈ [.scan, .verify, .proved] ∧ (probe.fixedUntil = none ∨
      probe.fixedUntil.any (fun fixed => fixed < probe.startedAt ∨ now + 60000 < fixed ∨
        fixed + 1 < probe.cursor)))
    (.error "Invalid fixed retention horizon.")

def validateRetentionTime (probe : HistoryRetention) (now : ℤ) : Outcome Unit :=
  if probe.phase = .proved then
    throwIf (probe.validatedAt = none ∨ probe.validatedAt.any
        (fun validated => validated < probe.startedAt ∨ now + 60000 < validated))
      (.error "Invalid retention validation time.")
  else throwIf (probe.validatedAt ≠ none) (.error "Unverified retention has a validation time.")

def validateRetentionPhase (probe : HistoryRetention) (now : ℤ) : Outcome Unit := do
  validateRetentionCount probe
  throwIf (probe.phase = .horizon ∧ probe.fixedUntil ≠ none)
    (.error "Invalid unread retention horizon.")
  validateRetentionHorizon probe now
  validateRetentionTime probe now

def validateRetention (value : Option HistoryRetention) (state : HistoryCheckpoint) (now : ℤ) :
    Outcome (Option HistoryRetention) :=
  match value with
  | none => return none
  | some row => do
    throwIf (row.version ≠ 1 ∨ state.source ≠ .fills ∨ state.providerSymbol ≠ none)
      (.error "Invalid Hyperliquid retention checkpoint.")
    historyInteger row.originalSince
    historyInteger row.originalUntil
    historyInteger row.startedAt
    historyInteger row.cursor
    historyInteger row.count
    nullableInteger row.fixedUntil
    nullableInteger row.validatedAt
    retentionAnchor row.anchor
    validateRetentionWindow row state now
    validateRetentionPhase row now
    return some row

def nullableNumber : Option ℤ → List Char
  | none => "null".toList
  | some value => JsonText.integer value

def RetentionAnchor.json (row : RetentionAnchor) : List Char :=
  JsonText.object [("coin", JsonText.string row.coin), ("tid", JsonText.string row.tid),
    ("time", JsonText.integer row.time), ("payloadHash", JsonText.string row.payloadHash)]

def HistoryRetention.json (row : HistoryRetention) : List Char :=
  JsonText.object [("version", JsonText.integer row.version),
    ("phase", JsonText.string row.phase.text),
    ("originalSince", JsonText.integer row.originalSince),
    ("originalUntil", JsonText.integer row.originalUntil),
    ("startedAt", JsonText.integer row.startedAt), ("cursor", JsonText.integer row.cursor),
    ("count", JsonText.integer row.count), ("fixedUntil", nullableNumber row.fixedUntil),
    ("validatedAt", nullableNumber row.validatedAt),
    ("anchor", row.anchor.elim "null".toList (·.json))]

def HistoryCoverage.json (row : HistoryCoverage) : List Char :=
  JsonText.object [("version", JsonText.integer row.version),
    ("profile", JsonText.string row.profile), ("since", JsonText.integer row.since),
    ("through", JsonText.integer row.through)]

/-- A member that is written only when the field is present. -/
def optionalMember {α : Type} (name : String) (json : α → List Char) :
    Option (Option α) → List (String × List Char)
  | none => []
  | some value => [(name, value.elim "null".toList json)]

def HistoryCheckpoint.json (row : HistoryCheckpoint) : List Char :=
  JsonText.object ([("source", JsonText.string row.source.text),
    ("providerSymbol", JsonText.nullable row.providerSymbol),
    ("revision", JsonText.integer row.revision),
    ("baselineSince", JsonText.integer row.baselineSince),
    ("windowSince", JsonText.integer row.windowSince),
    ("windowUntil", nullableNumber row.windowUntil), ("cursor", JsonText.nullable row.cursor),
    ("scannedThrough", nullableNumber row.scannedThrough),
    ("nextReadAt", JsonText.integer row.nextReadAt),
    ("completeness", JsonText.string row.completeness.text),
    ("reason", JsonText.nullable row.reason)] ++
    optionalMember "providerAccountUid" JsonText.string row.providerAccountUid ++
    optionalMember "coverage" HistoryCoverage.json row.coverage ++
    optionalMember "retention" HistoryRetention.json row.retention)

def validateHistoryCheckpoint (row : HistoryCheckpoint) (now : ℤ) : Outcome HistoryCheckpoint := do
  historyToken row.providerSymbol 256
  historyInteger row.revision
  historyInteger row.baselineSince
  historyInteger row.windowSince
  nullableInteger row.windowUntil
  historyToken row.cursor 4096
  nullableInteger row.scannedThrough
  historyInteger row.nextReadAt
  historyToken row.reason 80
  validateWindow row now
  row.providerAccountUid.forM (fun uid => historyToken uid 256)
  row.coverage.forM (fun coverage => do
    let _ ← validateHistoryCoverage coverage row)
  row.retention.forM (fun retention => do
    let _ ← validateRetention retention row now)
  throwIf (8192 ≤ byteLength row.json) (.error "Oversized history checkpoint.")
  return row

/-- One row of `validateHistoryProgress`. -/
def validateProgressRow (now : ℤ) (row : HistoryProgress) : Outcome HistoryProgress := do
  historyInteger row.baseRevision
  historyInteger row.pages
  let checkpoint ← validateHistoryCheckpoint row.checkpoint now
  throwIf (checkpoint.revision ≠ row.baseRevision + 1)
    (.error "Invalid history checkpoint revision.")
  return { row with checkpoint := checkpoint }

/-- `historyScope(row)`: equal texts are equal pairs. -/
def historyScope (row : HistoryCheckpoint) : HistorySource × Option String :=
  (row.source, row.providerSymbol)

/-- The non-empty provider account identities of the rows. -/
def providerUids (rows : List HistoryProgress) : List String :=
  rows.filterMap (fun row => row.checkpoint.providerAccountUid.join.filter (· ≠ ""))

def validateHistoryProgress (value : List HistoryProgress) (now : ℤ) :
    Outcome (List HistoryProgress) := do
  throwIf (8 < value.length) (.error "Invalid bounded history progress.")
  let rows ← value.mapM (validateProgressRow now)
  throwIf (5 < (rows.map (·.pages)).sum ∨
      (rows.map (fun row => historyScope row.checkpoint)).dedup.length ≠ rows.length)
    (.error "Invalid history page budget or duplicate scope.")
  throwIf (1 < (providerUids rows).dedup.length)
    (.error "History sources disagree about provider account identity.")
  return rows

def boundProbeChanged : Thrown :=
  .error "History retention continuation changed its bound probe."

def assertBoundRetentionContinuation (old next : HistoryRetention) : Outcome Unit :=
  throwIf (old.originalSince ≠ next.originalSince ∨ old.originalUntil ≠ next.originalUntil ∨
      old.startedAt ≠ next.startedAt ∨ (old.anchor ≠ none ∧ old.anchor ≠ next.anchor) ∨
      (old.fixedUntil ≠ none ∧ old.fixedUntil ≠ next.fixedUntil) ∨ next.count < old.count ∨
      next.cursor < old.cursor ∨ next.phase.index < old.phase.index)
    boundProbeChanged

def assertRetentionContinuation (previous : HistoryCheckpoint) (progress : HistoryProgress) :
    Outcome Unit := do
  throwIf (progress.pages = 0 ∧ previous.retention.join ≠ progress.checkpoint.retention.join)
    (.error "History retention cannot skip an unread page.")
  match previous.retention.join, progress.checkpoint.retention.join with
  | some old, some next =>
    if old.phase = .proved then return ()
    else do
      throwIf (progress.pages < next.phase.index - old.phase.index)
        (.error "History retention cannot skip an unread phase.")
      assertBoundRetentionContinuation old next
  | _, _ => return ()

def assertHistoryContinuation (previous : HistoryCheckpoint) (progress : HistoryProgress) :
    Outcome Unit := do
  let next := progress.checkpoint
  throwIf (historyScope previous ≠ historyScope next ∨ progress.baseRevision ≠ previous.revision ∨
      next.baselineSince ≠ previous.baselineSince ∨
      next.scannedThrough.getD 0 < previous.scannedThrough.getD 0)
    (.error "History continuation contradicts its requested checkpoint.")
  throwIf (previous.providerAccountUid.join.getD "" ≠ "" ∧
      previous.providerAccountUid ≠ next.providerAccountUid)
    (.error "History provider account identity changed.")
  assertCoverageContinuation previous progress
  assertRetentionContinuation previous progress
  throwIf (progress.pages = 0 ∧ (previous.windowSince ≠ next.windowSince ∨
      previous.windowUntil ≠ next.windowUntil ∨ previous.cursor ≠ next.cursor ∨
      previous.scannedThrough ≠ next.scannedThrough ∨
      previous.providerAccountUid ≠ next.providerAccountUid))
    (.error "History progress cannot skip an unread page.")

/-- The row that `historyCheckpoints` inserts for a source. -/
def initialCheckpoint (source : HistorySource) (since : ℤ) : HistoryCheckpoint where
  source := source
  providerSymbol := none
  revision := 0
  baselineSince := since
  windowSince := since
  windowUntil := none
  cursor := none
  scannedThrough := none
  nextReadAt := 0
  completeness := .unknown
  reason := some "history_pending"
  providerAccountUid := none
  coverage := some none
  retention := some none

section Validation

variable {row : HistoryCheckpoint} {progress : HistoryProgress} {now : ℤ}

/-- What an accepted coverage says about its checkpoint. -/
structure HistoryCoverage.Within (coverage : HistoryCoverage)
    (state : HistoryCheckpoint) : Prop where
  source : state.source = .fills
  since : coverage.since = state.baselineSince
  start : coverage.since ≤ coverage.through
  scanned : ∃ scanned, state.scannedThrough = some scanned ∧ coverage.through ≤ scanned

theorem validateHistoryCoverage_ok {value result : Option HistoryCoverage}
    (h : validateHistoryCoverage value row = .ok result) :
    ∀ coverage, value = some coverage → coverage.Within row := by
  intro coverage hvalue
  subst hvalue
  simp only [validateHistoryCoverage, bind_eq_ok, throwIf_eq_ok, not_or, not_not, not_lt] at h
  obtain ⟨_, ⟨-, -, hsrc, -, -, hsince, hscan, hstart, hthrough⟩, -⟩ := h
  refine ⟨hsrc, hsince, hstart, ?_⟩
  cases hvalue : row.scannedThrough with
  | none => exact absurd hvalue hscan
  | some scanned => exact ⟨scanned, rfl, by simpa [hvalue] using hthrough⟩

theorem validateHistoryCheckpoint_ok {result : HistoryCheckpoint}
    (h : validateHistoryCheckpoint row now = .ok result) :
    result = row ∧ ∀ coverage, row.coverage.join = some coverage → coverage.Within row := by
  simp only [validateHistoryCheckpoint, bind_eq_ok, pure_eq_ok_iff] at h
  obtain ⟨_, -, _, -, _, -, _, -, _, -, _, -, _, -, _, -, _, -, _, -, _, -, _, hcoverage, _,
    -, _, -,
    rfl⟩ := h
  refine ⟨rfl, ?_⟩
  intro coverage hjoin
  rw [Option.join_eq_some_iff] at hjoin
  rw [hjoin] at hcoverage
  simp only [Option.forM_eq_forM, Option.forM_some, bind_eq_ok, pure_eq_ok_iff] at hcoverage
  obtain ⟨_, hvalid, -⟩ := hcoverage
  exact validateHistoryCoverage_ok hvalid coverage rfl

theorem validateProgressRow_ok {result : HistoryProgress}
    (h : validateProgressRow now progress = .ok result) :
    result = progress ∧ 0 ≤ progress.pages ∧
      progress.checkpoint.revision = progress.baseRevision + 1 ∧
      ∀ coverage, progress.checkpoint.coverage.join = some coverage →
        coverage.Within progress.checkpoint := by
  simp only [validateProgressRow, historyInteger, bind_eq_ok, throwIf_eq_ok, not_or, not_lt,
    not_not, pure_eq_ok_iff] at h
  obtain ⟨_, -, _, ⟨-, hpages⟩, checkpoint, hcheckpoint, _, hrev, rfl⟩ := h
  obtain ⟨rfl, hcoverage⟩ := validateHistoryCheckpoint_ok hcheckpoint
  exact ⟨rfl, hpages, hrev, hcoverage⟩

theorem mem_of_validateHistoryProgress {value rows : List HistoryProgress}
    (h : validateHistoryProgress value now = .ok rows) (hprog : progress ∈ rows) :
    validateProgressRow now progress = .ok progress := by
  simp only [validateHistoryProgress, bind_eq_ok, pure_eq_ok_iff] at h
  obtain ⟨_, -, validated, hrows, _, -, _, -, rfl⟩ := h
  obtain ⟨raw, -, hraw⟩ := exists_of_mem_mapM hrows hprog
  obtain ⟨rfl, -⟩ := validateProgressRow_ok hraw
  exact hraw

end Validation

/-- Progress that `validateHistoryProgress` and `assertHistoryContinuation` accept. -/
structure Accepted (previous : HistoryCheckpoint) (progress : HistoryProgress) : Prop where
  validated : ∃ value rows now, validateHistoryProgress value now = .ok rows ∧ progress ∈ rows
  continued : assertHistoryContinuation previous progress = .ok ()

/-- The checkpoints reached from the initial one by accepted progress. -/
inductive Chain (source : HistorySource) (since : ℤ) :
    List HistoryProgress → HistoryCheckpoint → Prop
  | start : Chain source since [] (initialCheckpoint source since)
  | extend {steps : List HistoryProgress} {last : HistoryCheckpoint} {progress : HistoryProgress}
    (hchain : Chain source since steps last) (hacpt : Accepted last progress) :
    Chain source since (steps ++ [progress]) progress.checkpoint

def pageTotal (steps : List HistoryProgress) : ℤ := (steps.map (·.pages)).sum

section Continuation

variable {previous : HistoryCheckpoint} {progress : HistoryProgress}

/-- A coverage after an accepted step: unchanged, or grown from the window the step started in. -/
theorem assertCoverageContinuation_ok
    (h : assertCoverageContinuation previous progress = .ok ()) :
    (∀ old, previous.coverage.join = some old → ∃ next,
        progress.checkpoint.coverage.join = some next ∧ next.profile = old.profile ∧
        next.since = old.since ∧ old.through ≤ next.through) ∧
      ∀ next, progress.checkpoint.coverage.join = some next →
        previous.coverage.join.any (fun old => next.through = old.through) = true ∨
        (previous.windowSince ≤
            (previous.coverage.join.map (·.through)).getD previous.baselineSince ∧
          next.through ≤ previous.windowSince + progress.pages * week) := by
  simp only [assertCoverageContinuation, bind_eq_ok] at h
  obtain ⟨_, hkept, h⟩ := h
  refine ⟨?_, ?_⟩
  · intro old hold
    cases hnext : progress.checkpoint.coverage.join with
    | none =>
      rw [hold, hnext] at hkept
      exact absurd hkept (by simp [assertCoverageKept])
    | some next =>
      rw [hold, hnext] at hkept
      simp only [assertCoverageKept, throwIf_eq_ok, not_or, not_not, not_lt] at hkept
      exact ⟨next, rfl, hkept⟩
  · intro next hnext
    rw [hnext] at h
    by_cases hsame : previous.coverage.join.any (fun old => next.through = old.through) = true
    · exact .inl hsame
    · right
      simp only [if_neg hsame, assertCoverageExtension, bind_eq_ok, throwIf_eq_ok, not_or,
        not_lt] at h
      obtain ⟨_, -, -, hwin, hthrough⟩ := h
      exact ⟨hwin, hthrough⟩

/-- Everything an accepted step keeps or moves in one direction only. -/
structure Continues (previous : HistoryCheckpoint) (progress : HistoryProgress) : Prop where
  baseline : progress.checkpoint.baselineSince = previous.baselineSince
  revision : progress.checkpoint.revision = previous.revision + 1
  scanned : previous.scannedThrough.getD 0 ≤ progress.checkpoint.scannedThrough.getD 0
  kept : ∀ old, previous.coverage.join = some old → ∃ next,
    progress.checkpoint.coverage.join = some next ∧ next.profile = old.profile ∧
      next.since = old.since ∧ old.through ≤ next.through
  idle : progress.pages = 0 → progress.checkpoint.windowSince = previous.windowSince ∧
    progress.checkpoint.windowUntil = previous.windowUntil ∧
    progress.checkpoint.cursor = previous.cursor ∧
    progress.checkpoint.scannedThrough = previous.scannedThrough ∧
    progress.checkpoint.providerAccountUid = previous.providerAccountUid ∧
    progress.checkpoint.retention.join = previous.retention.join

theorem Accepted.row (h : Accepted previous progress) :
    0 ≤ progress.pages ∧ progress.checkpoint.revision = progress.baseRevision + 1 ∧
      ∀ coverage, progress.checkpoint.coverage.join = some coverage →
        coverage.Within progress.checkpoint := by
  obtain ⟨value, rows, now, hvalue, hmem⟩ := h.validated
  exact (validateProgressRow_ok (mem_of_validateHistoryProgress hvalue hmem)).2

theorem Accepted.continues (h : Accepted previous progress) : Continues previous progress := by
  have hcont := h.continued
  simp only [assertHistoryContinuation, bind_eq_ok, throwIf_eq_ok, not_or, not_not, not_lt,
    not_and] at hcont
  obtain ⟨_, ⟨-, hrev, hbaseline, hscan⟩, _, -, _, hcoverage, _, hretention, hidle⟩ :=
    hcont
  simp only [assertRetentionContinuation, bind_eq_ok, throwIf_eq_ok, not_and, not_not]
    at hretention
  obtain ⟨_, hprobe, -⟩ := hretention
  refine ⟨hbaseline, ?_, hscan, (assertCoverageContinuation_ok hcoverage).1, ?_⟩
  · rw [h.row.2.1, hrev]
  · intro hpages
    obtain ⟨hsince, huntil, hcurs, hthrough, huid⟩ := hidle hpages
    exact ⟨hsince.symm, huntil.symm, hcurs.symm, hthrough.symm, huid.symm, (hprobe hpages).symm⟩

end Continuation

section Chains

variable {source : HistorySource} {since : ℤ} {steps : List HistoryProgress}
  {last : HistoryCheckpoint}

/-- The coverage of a chain starts at the baseline and is paid for by its pages. -/
structure Covered (since : ℤ) (steps : List HistoryProgress) (last : HistoryCheckpoint) : Prop where
  baseline : last.baselineSince = since
  revision : last.revision = steps.length
  pages : 0 ≤ pageTotal steps
  coverage : ∀ coverage, last.coverage.join = some coverage → coverage.since = since ∧
    (∃ scanned, last.scannedThrough = some scanned ∧ coverage.through ≤ scanned) ∧
    coverage.through ≤ since + week * pageTotal steps

theorem Chain.covered (h : Chain source since steps last) : Covered since steps last := by
  induction h with
  | start =>
    refine ⟨rfl, rfl, le_rfl, ?_⟩
    intro coverage hcoverage
    exact absurd hcoverage (by simp [initialCheckpoint])
  | @extend steps last progress _ hacpt ih =>
    have hstep := hacpt.continues
    obtain ⟨hpages, -, hwithin⟩ := hacpt.row
    have htotal : pageTotal (steps ++ [progress]) = pageTotal steps + progress.pages := by
      simp [pageTotal]
    have hweek : 0 ≤ week * progress.pages := mul_nonneg (by decide) hpages
    refine ⟨hstep.baseline.trans ih.baseline, ?_, ?_, ?_⟩
    · rw [hstep.revision, ih.revision]
      simp
    · rw [htotal]
      exact add_nonneg ih.pages hpages
    · intro coverage hcoverage
      have hvalid := hwithin coverage hcoverage
      refine ⟨?_, hvalid.scanned, ?_⟩
      · rw [hvalid.since, hstep.baseline, ih.baseline]
      · have hcont := hacpt.continued
        simp only [assertHistoryContinuation, bind_eq_ok] at hcont
        obtain ⟨_, -, _, -, _, hcoverageOk, -⟩ := hcont
        have hcases := (assertCoverageContinuation_ok hcoverageOk).2 coverage hcoverage
        rw [htotal, mul_add]
        cases hold : last.coverage.join with
        | none =>
          rw [hold] at hcases
          simp only [Option.any_none, Bool.false_eq_true, Option.map_none, Option.getD_none,
            false_or] at hcases
          have hpaid : 0 ≤ week * pageTotal steps := mul_nonneg (by decide) ih.pages
          rw [ih.baseline] at hcases
          linarith [hcases.1, hcases.2, mul_comm progress.pages week]
        | some old =>
          rw [hold] at hcases
          simp only [Option.any_some, decide_eq_true_eq, Option.map_some,
            Option.getD_some] at hcases
          have hbound := (ih.coverage old hold).2.2
          rcases hcases with heq | ⟨hwin, hthrough⟩
          · linarith
          · linarith [mul_comm progress.pages week]

/-- Along every chain the coverage stays behind the traversal and within seven days for each page
read, and no step moves it back, drops it or changes what it covers. -/
theorem coverage_behind_reading (h : Chain source since steps last) :
    Covered since steps last ∧ ∀ progress, Accepted last progress → Continues last progress :=
  ⟨h.covered, fun _ hacpt => hacpt.continues⟩

end Chains

/-- One page that covers a second of fills, then a deferred read. -/
def coveredSecond : HistoryProgress where
  baseRevision := 0
  pages := 1
  checkpoint := { initialCheckpoint .fills 5000 with
    revision := 1
    scannedThrough := some 6000
    providerAccountUid := some (some "account")
    completeness := .complete
    reason := none
    coverage := some (some ⟨1, krakenProfile, 5000, 6000⟩) }

def deferredRead : HistoryProgress where
  baseRevision := 1
  pages := 0
  checkpoint := { coveredSecond.checkpoint with
    revision := 2
    completeness := .partialPages
    reason := some "history_transient" }

theorem coverage_behind_reading_second :
    Covered 5000 [coveredSecond, deferredRead] deferredRead.checkpoint ∧
      deferredRead.checkpoint.coverage.join = some ⟨1, krakenProfile, 5000, 6000⟩ := by
  have hfirst : Accepted (initialCheckpoint .fills 5000) coveredSecond :=
    ⟨⟨[coveredSecond], [coveredSecond], 6000, by decide +kernel, by simp⟩, by decide +kernel⟩
  have hsnd : Accepted coveredSecond.checkpoint deferredRead :=
    ⟨⟨[deferredRead], [deferredRead], 6000, by decide +kernel, by simp⟩, by decide +kernel⟩
  have hchain : Chain .fills 5000 [coveredSecond, deferredRead] deferredRead.checkpoint :=
    .extend (.extend .start hfirst) hsnd
  exact ⟨(coverage_behind_reading hchain).1, rfl⟩

end TsxCore.ExchangeHistory
