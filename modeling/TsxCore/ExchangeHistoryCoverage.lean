import TsxCore.TradingRecoveryScheduleContract

/-!
# Historical fill coverage (`exchange_history_coverage.ts`)

Checkpoints of a historical traversal and the interval of fills they prove.
Times are integers. An optional field of a checkpoint is an `Option (Option α)`:
absent, `null` or a value.
-/

namespace TsxCore.ExchangeHistory

open Outcome TradingRecoveryScheduleContract

inductive Completeness
  | complete
  | partialPages
  | unknown
  deriving DecidableEq

def Completeness.text : Completeness → String
  | .complete => "complete"
  | .partialPages => "partial"
  | .unknown => "unknown"

structure HistoryCoverage where
  version : ℤ
  profile : String
  since : ℤ
  through : ℤ
  deriving DecidableEq

inductive RetentionPhase
  | witness
  | horizon
  | scan
  | verify
  | proved
  deriving DecidableEq

def RetentionPhase.text : RetentionPhase → String
  | .witness => "witness"
  | .horizon => "horizon"
  | .scan => "scan"
  | .verify => "verify"
  | .proved => "proved"

/-- `RETENTION_PHASES.indexOf(phase)`. -/
def RetentionPhase.index : RetentionPhase → ℤ
  | .witness => 0
  | .horizon => 1
  | .scan => 2
  | .verify => 3
  | .proved => 4

structure RetentionAnchor where
  coin : String
  tid : String
  time : ℤ
  payloadHash : String
  deriving DecidableEq

structure HistoryRetention where
  version : ℤ
  phase : RetentionPhase
  originalSince : ℤ
  originalUntil : ℤ
  startedAt : ℤ
  fixedUntil : Option ℤ
  cursor : ℤ
  count : ℤ
  anchor : Option RetentionAnchor
  validatedAt : Option ℤ
  deriving DecidableEq

structure HistoryCheckpoint where
  source : HistorySource
  providerSymbol : Option String
  revision : ℤ
  baselineSince : ℤ
  windowSince : ℤ
  windowUntil : Option ℤ
  cursor : Option String
  scannedThrough : Option ℤ
  nextReadAt : ℤ
  completeness : Completeness
  reason : Option String
  providerAccountUid : Option (Option String)
  coverage : Option (Option HistoryCoverage)
  retention : Option (Option HistoryRetention)
  deriving DecidableEq

structure HistoryProgress where
  baseRevision : ℤ
  pages : ℤ
  checkpoint : HistoryCheckpoint
  deriving DecidableEq

def bybitProfile : String := "bybit_v5_linear_endpoint_v1"

def krakenProfile : String := "kraken_v3_executions_v1"

def hyperliquidProfile : String := "hyperliquid_retained_fills_v1"

/-- `PROFILES[exchange]`. -/
def profiles : String → Option String
  | "bybit" => some bybitProfile
  | "krakenfutures" => some krakenProfile
  | "hyperliquid" => some hyperliquidProfile
  | _ => none

def week : ℤ := 7 * 86400000

def validateHistoryCoverage (value : Option HistoryCoverage) (state : HistoryCheckpoint) :
    Outcome (Option HistoryCoverage) :=
  match value with
  | none => return none
  | some row => do
    throwIf (row.version ≠ 1 ∨ row.profile ∉ [bybitProfile, krakenProfile, hyperliquidProfile] ∨
        state.source ≠ .fills ∨ ¬ isSafeInteger row.since ∨ ¬ isSafeInteger row.through ∨
        row.since ≠ state.baselineSince ∨ state.scannedThrough = none ∨ row.through < row.since ∨
        state.scannedThrough.any (fun scanned => scanned < row.through))
      (.error "Invalid historical coverage interval or profile.")
    return some row

def coverageRegressed : Thrown :=
  .error "Historical coverage cannot disappear, change profile or regress."

/-- A coverage that was proved before stays, with its profile and start, and does not shrink. -/
def assertCoverageKept : Option HistoryCoverage → Option HistoryCoverage → Outcome Unit
  | none, _ => return ()
  | some _, none => .error coverageRegressed
  | some old, some next =>
    throwIf (next.profile ≠ old.profile ∨ next.since ≠ old.since ∨ next.through < old.through)
      coverageRegressed

def assertRetentionCoverageBound (state : HistoryCheckpoint) : Outcome Unit :=
  match state.retention.join with
  | none => return ()
  | some retention =>
    throwIf (retention.phase ≠ .proved ∨ retention.fixedUntil = none ∨
        state.coverage.join.map (·.profile) ≠ some hyperliquidProfile ∨
        state.coverage.join.any (fun coverage => retention.fixedUntil.any
          (fun fixed => min retention.originalUntil fixed < coverage.through)))
      (.error "Historical coverage exceeds verified retention.")

/-- The part of `assertCoverageContinuation` for a coverage that appeared or grew. -/
def assertCoverageExtension (previous : HistoryCheckpoint) (update : HistoryProgress)
    (next : HistoryCoverage) : Outcome Unit := do
  assertRetentionCoverageBound update.checkpoint
  throwIf (update.pages = 0 ∨
      (previous.coverage.join.map (·.through)).getD previous.baselineSince < previous.windowSince ∨
      previous.windowSince + update.pages * week < next.through)
    (.error "Historical coverage cannot bridge an unread window.")

def assertCoverageContinuation (previous : HistoryCheckpoint) (update : HistoryProgress) :
    Outcome Unit := do
  assertCoverageKept previous.coverage.join update.checkpoint.coverage.join
  match update.checkpoint.coverage.join with
  | none => return ()
  | some next =>
    if previous.coverage.join.any (fun old => next.through = old.through) then return ()
    else assertCoverageExtension previous update next

/-- `ExchangeAcquisitionEvidence`, as far as coverage and safety read it. -/
structure AcquisitionSource where
  source : String
  startedAt : ℤ
  completedAt : ℤ
  completeness : Completeness
  since : Option ℤ

structure AcquisitionEvidence where
  version : ℤ
  startedAt : ℤ
  completedAt : ℤ
  sources : List AcquisitionSource
  history : Option (List HistoryProgress)

def checkpointProofReason (exchange : String) (checkpoint : HistoryCheckpoint) : Option String :=
  if exchange = "krakenfutures" ∧ checkpoint.providerAccountUid.join.getD "" = "" then
    some "FILL_PROVIDER_IDENTITY_UNPROVED"
  else match checkpoint.coverage.join with
    | none => some "FILL_COVERAGE_UNPROVED"
    | some coverage =>
      if some coverage.profile ≠ profiles exchange ∨ checkpoint.completeness ≠ .complete ∨
          checkpoint.cursor ≠ none then some "FILL_COVERAGE_UNPROVED"
      else if checkpoint.retention.join.any
          (fun retention => exchange ≠ "hyperliquid" ∨ retention.phase ≠ .proved) then
        some "FILL_COVERAGE_UNPROVED"
      else none

def retentionIsFresh (checkpoint : HistoryCheckpoint) (evidence : AcquisitionEvidence) : Bool :=
  match checkpoint.retention.join, checkpoint.coverage.join with
  | none, _ => true
  | some _, none => false
  | some retention, some coverage =>
    retention.fixedUntil.any (fun fixed => coverage.through ≤ min fixed retention.originalUntil) &&
      retention.validatedAt.any
        (fun validated => evidence.startedAt ≤ validated ∧ validated ≤ evidence.completedAt)

/-- The checks of `fillCoverageReason` on the one row that it found. -/
def progressCoverageReason (exchange : String) (evidence : AcquisitionEvidence) (since : ℤ)
    (row : HistoryProgress) : Option String :=
  match checkpointProofReason exchange row.checkpoint, row.checkpoint.coverage.join with
  | some reason, _ => some reason
  | none, none => some "FILL_COVERAGE_UNPROVED"
  | none, some coverage =>
    if since < coverage.since ∨ coverage.since ≠ row.checkpoint.baselineSince then
      some "FILL_BASELINE_UNPROVED"
    else if row.pages = 0 ∨ coverage.through < evidence.startedAt ∨
        evidence.completedAt < coverage.through then some "FILL_COVERAGE_NOT_FRESH"
    else if retentionIsFresh row.checkpoint evidence = false then some "FILL_COVERAGE_NOT_FRESH"
    else none

def fillCoverageReason (exchange : String) (evidence : AcquisitionEvidence) (since : ℤ) :
    Option String :=
  if exchange = "bybit" then some "FILL_OPTION_SCOPE_UNPROVED"
  else match profiles exchange, (evidence.history.getD []).filter
      (fun row => row.checkpoint.source = .fills ∧ row.checkpoint.providerSymbol = none) with
    | some _, [row] => progressCoverageReason exchange evidence since row
    | _, _ => some "FILL_COVERAGE_MISSING"

end TsxCore.ExchangeHistory
