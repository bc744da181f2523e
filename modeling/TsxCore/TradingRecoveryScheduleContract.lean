import TsxCore.JsonText

/-!
# Recovery schedule requests (`trading_recovery_schedule_contract.ts`)

The validator of a scheduled recovery query. Its values are typed rows, so the
checks that a value is a plain object with exactly the expected keys have no
counterpart; checks on the values of the fields are kept in their order.
-/

namespace TsxCore.TradingRecoveryScheduleContract

open Outcome

inductive RecoveryLane
  | targeted
  | mode
  | logs
  | history
  | fx
  deriving DecidableEq

def RecoveryLane.text : RecoveryLane → String
  | .targeted => "targeted"
  | .mode => "mode"
  | .logs => "logs"
  | .history => "history"
  | .fx => "fx"

inductive RecoveryDeferredReason
  | phaseDeferred
  | notDue
  | notNeeded
  | cooldown

def RecoveryDeferredReason.text : RecoveryDeferredReason → String
  | .phaseDeferred => "phase_deferred"
  | .notDue => "not_due"
  | .notNeeded => "not_needed"
  | .cooldown => "cooldown"

inductive ExchangeMode
  | live
  | testnet
  deriving DecidableEq

def ExchangeMode.text : ExchangeMode → String
  | .live => "live"
  | .testnet => "testnet"

inductive FxLegId
  | btcUsd
  | btcUsdt
  | usdcUsd
  deriving DecidableEq

structure RecoveryScheduleBinding where
  accountId : String
  accountFingerprint : String
  credentialGeneration : String
  mode : ExchangeMode
  executionProfileHash : String
  deriving DecidableEq

structure RecoveryGrant where
  lane : RecoveryLane
  maxCalls : ℤ
  deferredReason : Option RecoveryDeferredReason

structure RecoveryScheduleRequest where
  version : ℤ
  profile : String
  attemptId : String
  revision : ℤ
  phase : ℤ
  binding : RecoveryScheduleBinding
  cooldownUntil : ℤ
  grants : List RecoveryGrant

structure FxEvidenceRequest where
  version : ℤ
  legIds : List FxLegId

structure AccountLogCheckpoint where
  accountFingerprint : String
  credentialGeneration : String
  revision : ℤ
  nextReadAt : ℤ

inductive HistorySource
  | orders
  | fills
  deriving DecidableEq

def HistorySource.text : HistorySource → String
  | .orders => "orders"
  | .fills => "fills"

structure ExchangeHistoryCheckpoint where
  source : HistorySource
  providerSymbol : Option String
  revision : ℤ
  nextReadAt : ℤ
  deriving DecidableEq

structure RecoveryScheduleInputs where
  recoverySchedule : Option RecoveryScheduleRequest
  fxEvidence : Option FxEvidenceRequest
  readAccountMode : Option Bool
  accountLogs : Option AccountLogCheckpoint
  history : Option (List ExchangeHistoryCheckpoint)

def recoveryProfile : String := "bybit-usd-fx-recovery-v1"

/-- `CAPS`. -/
def caps : RecoveryLane → List ℤ
  | .targeted => [0, 2]
  | .mode => [0, 2]
  | .logs => [0, 1]
  | .history => [0, 4]
  | .fx => [0, 1, 2, 3]

/-- `PHASE_LANES[phase]`, for a phase that was checked to be at most 3. -/
def phaseLanes : ℤ → List RecoveryLane
  | 0 => [.fx, .targeted]
  | 1 => [.history, .logs]
  | 2 => [.fx, .targeted]
  | 3 => [.mode, .logs, .targeted]
  | _ => []

def scheduleInvalid : Thrown := .error "RECOVERY_SCHEDULE_INVALID"

/-- `integer(value, maximum)`. -/
def integer (value : ℤ) (maximum : ℤ := maxSafeInteger) : Outcome Unit :=
  throwIf (value.natAbs > maxSafeInteger ∨ value < 0 ∨ maximum < value) scheduleInvalid

/-- `[a-f0-9]`. -/
def isHex (c : Char) : Bool := c.isDigit || ('a' ≤ c && c ≤ 'f')

/-- `/^[a-f0-9]{64}$/`. -/
def digestPattern (value : String) : Bool :=
  value.toList.length == 64 && value.toList.all isHex

theorem digestPattern_of_eq {s : String} {cs : List Char} (h : s = .ofList cs)
    (hcs : (cs.length == 64 && cs.all isHex) = true) : digestPattern s = true := by
  rw [digestPattern, toList_of_eq h, hcs]

/-- `/^[a-f0-9]{8}(?:-[a-f0-9]{4}){3}-[a-f0-9]{12}$/`. -/
def attemptIdPattern (value : String) : Bool :=
  value.toList.length == 36 && value.toList.zipIdx.all (fun (c, i) =>
    if i = 8 ∨ i = 13 ∨ i = 18 ∨ i = 23 then c == '-' else isHex c)

/-- `/[\x00-\x1f\x7f-\x9f\uD800-\uDFFF]/u`; a text has no lone surrogates. -/
def isControl (c : Char) : Bool := c.toNat < 32 || (127 ≤ c.toNat && c.toNat ≤ 159)

def accountIdInvalid (value : String) : Prop :=
  256 < value.toList.length ∨ value = "" ∨ trim value ≠ value ∨ value.toList.any isControl = true
  deriving Decidable

def assertBinding (row expected : RecoveryScheduleBinding) : Outcome Unit := do
  throwIf (accountIdInvalid row.accountId) scheduleInvalid
  throwIf (digestPattern row.accountFingerprint = false) scheduleInvalid
  throwIf (digestPattern row.credentialGeneration = false) scheduleInvalid
  throwIf (digestPattern row.executionProfileHash = false) scheduleInvalid
  throwIf (row ≠ expected) scheduleInvalid

def RecoveryScheduleBinding.json (binding : RecoveryScheduleBinding) : List Char :=
  JsonText.object [("accountId", JsonText.string binding.accountId),
    ("accountFingerprint", JsonText.string binding.accountFingerprint),
    ("credentialGeneration", JsonText.string binding.credentialGeneration),
    ("mode", JsonText.string binding.mode.text),
    ("executionProfileHash", JsonText.string binding.executionProfileHash)]

def RecoveryGrant.json (grant : RecoveryGrant) : List Char :=
  JsonText.object [("lane", JsonText.string grant.lane.text),
    ("maxCalls", JsonText.integer grant.maxCalls),
    ("deferredReason", JsonText.nullable (grant.deferredReason.map (·.text)))]

def RecoveryScheduleRequest.json (row : RecoveryScheduleRequest) : List Char :=
  JsonText.object [("version", JsonText.integer row.version),
    ("profile", JsonText.string row.profile),
    ("attemptId", JsonText.string row.attemptId), ("revision", JsonText.integer row.revision),
    ("phase", JsonText.integer row.phase), ("binding", row.binding.json),
    ("cooldownUntil", JsonText.integer row.cooldownUntil),
    ("grants", JsonText.array (row.grants.map (·.json)))]

def header (row : RecoveryScheduleRequest) (expected : RecoveryScheduleBinding) : Outcome Unit := do
  throwIf (row.version ≠ 1 ∨ row.profile ≠ recoveryProfile ∨ attemptIdPattern row.attemptId = false)
    scheduleInvalid
  integer row.phase 3
  integer row.cooldownUntil
  assertBinding row.binding expected
  throwIf (8192 ≤ byteLength row.json) scheduleInvalid

/-- The loop of `grants`: the lanes seen so far and the calls granted so far. -/
def grantRows (phase : ℤ) (seen : List RecoveryLane) (total : ℤ) : List RecoveryGrant → Outcome ℤ
  | [] => return total
  | row :: rows => do
    throwIf (row.lane ∈ seen) scheduleInvalid
    integer row.maxCalls 5
    throwIf (row.maxCalls ∉ caps row.lane ∨ (0 < row.maxCalls ∧ row.lane ∉ phaseLanes phase))
      scheduleInvalid
    throwIf (if 0 < row.maxCalls then row.deferredReason ≠ none else row.deferredReason = none)
      scheduleInvalid
    grantRows phase (row.lane :: seen) (total + row.maxCalls) rows

def grants (rows : List RecoveryGrant) (phase : ℤ) : Outcome Unit := do
  throwIf (rows.length ≠ 5) scheduleInvalid
  let total ← grantRows phase [] 0 rows
  throwIf (5 < total) scheduleInvalid

def validateRecoveryScheduleRequest (row : RecoveryScheduleRequest)
    (expected : RecoveryScheduleBinding) : Outcome RecoveryScheduleRequest := do
  integer row.revision
  integer row.phase 3
  grants row.grants row.phase
  header row expected
  return row

def fxRequest (row : FxEvidenceRequest) (maximum : ℤ) : Outcome FxEvidenceRequest := do
  throwIf (3 < row.legIds.length) scheduleInvalid
  throwIf (row.version ≠ 1 ∨ (row.legIds.length : ℤ) ≠ maximum ∨ row.legIds = [] ∨
    ¬ row.legIds.Nodup) scheduleInvalid
  return row

def laneGrant (request : RecoveryScheduleRequest) (lane : RecoveryLane) : Outcome ℤ :=
  match request.grants.find? (·.lane = lane) with
  | none => .error scheduleInvalid
  | some grant => return grant.maxCalls

def requestedSourcePresence (recovery : RecoveryScheduleInputs) (request : RecoveryScheduleRequest)
    (expected : RecoveryScheduleBinding) : Outcome Unit := do
  throwIf (0 < (← laneGrant request .mode) ∧ recovery.readAccountMode ≠ some true) scheduleInvalid
  throwIf (¬ (0 < (← laneGrant request .logs) ↔ recovery.accountLogs ≠ none)) scheduleInvalid
  throwIf (recovery.accountLogs.any (fun checkpoint =>
    checkpoint.accountFingerprint ≠ expected.accountFingerprint ∨
      checkpoint.credentialGeneration ≠ expected.credentialGeneration)) scheduleInvalid
  let history := recovery.history.getD []
  throwIf (1 < history.length) scheduleInvalid
  throwIf (history.length ≠ if 0 < (← laneGrant request .history) then 1 else 0) scheduleInvalid

def validateRecoveryScheduleInputs (recovery : RecoveryScheduleInputs)
    (expected : RecoveryScheduleBinding) :
    Outcome (Option (RecoveryScheduleRequest × Option FxEvidenceRequest)) :=
  match recovery.recoverySchedule with
  | none => do
    throwIf (recovery.fxEvidence ≠ none) scheduleInvalid
    return none
  | some row => do
    let request ← validateRecoveryScheduleRequest row expected
    requestedSourcePresence recovery request expected
    let maximum ← laneGrant request .fx
    match recovery.fxEvidence with
    | none => do
      throwIf (0 < maximum) scheduleInvalid
      return some (request, none)
    | some fx => do
      throwIf (¬ 0 < maximum) scheduleInvalid
      return some (request, some (← fxRequest fx maximum))

section Acceptance

variable {row : RecoveryScheduleRequest} {binding : RecoveryScheduleBinding} {phase : ℤ}
  {rows : List RecoveryGrant} {value : String}

theorem integer_ok_iff {value maximum : ℤ} {u : Unit} :
    integer value maximum = .ok u ↔
      0 ≤ value ∧ value ≤ maxSafeInteger ∧ value ≤ maximum := by
  rw [integer, throwIf_eq_ok]
  omega

def Granted (phase : ℤ) (row : RecoveryGrant) : Prop :=
  row.maxCalls ∈ caps row.lane ∧ (0 < row.maxCalls → row.lane ∈ phaseLanes phase) ∧
    (0 < row.maxCalls ↔ row.deferredReason = none)

theorem caps_range {lane : RecoveryLane} {calls : ℤ} (h : calls ∈ caps lane) :
    0 ≤ calls ∧ calls ≤ 4 := by
  cases lane <;> simp [caps] at h <;> omega

theorem grantRows_of_granted {seen : List RecoveryLane} (total : ℤ)
    (hrows : ∀ row ∈ rows, Granted phase row) (hnodup : (rows.map (·.lane)).Nodup)
    (hseen : ∀ row ∈ rows, row.lane ∉ seen) :
    grantRows phase seen total rows = .ok (total + (rows.map (·.maxCalls)).sum) := by
  induction rows generalizing seen total with
  | nil => simp [grantRows, pure, Except.pure]
  | cons row rows ih =>
    obtain ⟨hcaps, hphase, hrsn⟩ := hrows row List.mem_cons_self
    obtain ⟨hnn, hle⟩ := caps_range hcaps
    have hsafe : (4 : ℤ) ≤ maxSafeInteger := by decide
    have hinteger : integer row.maxCalls 5 = .ok () :=
      integer_ok_iff.mpr ⟨hnn, hle.trans hsafe, by omega⟩
    have hdeferred : ¬ (if 0 < row.maxCalls then row.deferredReason ≠ none
        else row.deferredReason = none) := by
      split_ifs with hpos
      · exact not_not.mpr (hrsn.mp hpos)
      · exact fun hnone => hpos (hrsn.mpr hnone)
    rw [List.map_cons, List.nodup_cons] at hnodup
    have hrest := @ih (row.lane :: seen) (total + row.maxCalls)
      (fun r hr => hrows r (List.mem_cons_of_mem row hr)) hnodup.2 (by
        intro r hr hmem
        rcases List.mem_cons.mp hmem with heq | hold
        · exact hnodup.1 (heq ▸ List.mem_map_of_mem hr)
        · exact hseen r (List.mem_cons_of_mem row hr) hold)
    rw [grantRows, throwIf_of_not (hseen row List.mem_cons_self), ok_bind, hinteger, ok_bind,
      throwIf_of_not (by rw [not_or, not_not, not_and, not_not]; exact ⟨hcaps, hphase⟩), ok_bind,
      throwIf_of_not hdeferred, ok_bind, hrest, List.map_cons, List.sum_cons, add_assoc]

theorem grants_of_granted (hrows : ∀ row ∈ rows, Granted phase row)
    (hnodup : (rows.map (·.lane)).Nodup) (hlen : rows.length = 5)
    (htotal : (rows.map (·.maxCalls)).sum ≤ 5) : grants rows phase = .ok () := by
  rw [grants, throwIf_of_not (not_not.mpr hlen), ok_bind,
    grantRows_of_granted 0 hrows hnodup (by simp), ok_bind, throwIf_of_not (by omega)]

/-- A binding that the validator accepts as its own expectation. -/
structure RecoveryScheduleBinding.Valid (binding : RecoveryScheduleBinding) : Prop where
  accountId : ¬ accountIdInvalid binding.accountId
  accountFingerprint : digestPattern binding.accountFingerprint = true
  credentialGeneration : digestPattern binding.credentialGeneration = true
  executionProfileHash : digestPattern binding.executionProfileHash = true

theorem assertBinding_self (h : binding.Valid) : assertBinding binding binding = .ok () := by
  rw [assertBinding, throwIf_of_not h.accountId, ok_bind,
    throwIf_of_not (by simp [h.accountFingerprint]), ok_bind,
    throwIf_of_not (by simp [h.credentialGeneration]), ok_bind,
    throwIf_of_not (by simp [h.executionProfileHash]), ok_bind, throwIf_of_not (by simp)]

theorem isHex_ge {c : Char} (h : isHex c = true) : 32 ≤ c.toNat := by
  simp only [isHex, Char.isDigit, Bool.or_eq_true, Bool.and_eq_true, decide_eq_true_eq] at h
  rcases h with ⟨hlow, -⟩ | ⟨hlow, -⟩
  · have : (48 : ℕ) ≤ c.toNat := hlow
    omega
  · have : (97 : ℕ) ≤ c.toNat := hlow
    omega

theorem byteLength_digest_le (h : digestPattern value = true) :
    byteLength (JsonText.string value) ≤ 258 := by
  rw [digestPattern, Bool.and_eq_true, beq_iff_eq, List.all_eq_true] at h
  have hsize := JsonText.byteLength_string_le (fun c hc => isHex_ge (h.2 c hc))
  omega

theorem byteLength_attemptId_le (h : attemptIdPattern value = true) :
    byteLength (JsonText.string value) ≤ 146 := by
  rw [attemptIdPattern, Bool.and_eq_true, beq_iff_eq, List.all_eq_true] at h
  obtain ⟨hlen, hchars⟩ := h
  have hvisible : ∀ c ∈ value.toList, 32 ≤ c.toNat := by
    intro c hc
    obtain ⟨i, hi, hget⟩ := List.getElem_of_mem hc
    have hchar := hchars (c, i) (by
      rw [List.mem_zipIdx_iff_getElem?]
      exact List.getElem?_eq_some_iff.mpr ⟨hi, hget⟩)
    simp only at hchar
    split_ifs at hchar
    · rw [beq_iff_eq] at hchar
      rw [hchar]
      decide
    · exact isHex_ge hchar
  have hsize := JsonText.byteLength_string_le hvisible
  omega

theorem byteLength_accountId_le (h : ¬ accountIdInvalid value) :
    byteLength (JsonText.string value) ≤ 1026 := by
  simp only [accountIdInvalid, not_or, not_lt, Bool.not_eq_true, List.any_eq_false] at h
  obtain ⟨hlen, -, -, hcontrol⟩ := h
  have hsize := @JsonText.byteLength_string_le value (by
    intro c hc
    have hvisible := hcontrol c hc
    rw [isControl, Bool.or_eq_false_iff, decide_eq_false_iff_not, not_lt] at hvisible
    exact hvisible.1)
  omega

theorem byteLength_integer_le {value : ℤ} (hnn : 0 ≤ value) (h : value ≤ maxSafeInteger) :
    byteLength (JsonText.integer value) ≤ 16 := by
  have hdigits : ∀ c ∈ Nat.toDigits 10 value.natAbs, c.utf8Size = 1 := by
    intro c hc
    have hdigit := Nat.isDigit_of_mem_toDigits (by omega) (by omega) hc
    simp only [Char.isDigit, Bool.and_eq_true, decide_eq_true_eq] at hdigit
    have hle : c.toNat ≤ 57 := hdigit.2
    rw [Char.utf8Size_eq_one_iff, UInt32.le_iff_toNat_le]
    exact hle.trans (by decide)
  have hlen : (Nat.toDigits 10 value.natAbs).length ≤ 16 := by
    rw [Nat.length_toDigits_le_iff (by omega) (by omega)]
    have hsafe : maxSafeInteger < 10 ^ 16 := by decide
    omega
  rw [JsonText.integer, bigintText, if_neg (by omega), byteLength, String.toList_ofList,
    List.map_congr_left hdigits, List.map_const', List.sum_replicate, smul_eq_mul, mul_one]
  exact hlen

theorem byteLength_binding_le (h : binding.Valid) : byteLength binding.json ≤ 2000 := by
  have hsize := JsonText.byteLength_object_le
    [("accountId", JsonText.string binding.accountId),
      ("accountFingerprint", JsonText.string binding.accountFingerprint),
      ("credentialGeneration", JsonText.string binding.credentialGeneration),
      ("mode", JsonText.string binding.mode.text),
      ("executionProfileHash", JsonText.string binding.executionProfileHash)]
  have hacc := byteLength_accountId_le h.accountId
  have hfp := byteLength_digest_le h.accountFingerprint
  have hgen := byteLength_digest_le h.credentialGeneration
  have hprof := byteLength_digest_le h.executionProfileHash
  have hmode : byteLength (JsonText.string binding.mode.text) ≤ 9 := by
    cases binding.mode <;> decide
  have hkeys : byteLength (JsonText.string "accountId") = 11 ∧
      byteLength (JsonText.string "accountFingerprint") = 20 ∧
      byteLength (JsonText.string "credentialGeneration") = 22 ∧
      byteLength (JsonText.string "mode") = 6 ∧
      byteLength (JsonText.string "executionProfileHash") = 22 := by decide
  simp only [List.map_cons, List.map_nil, List.sum_cons, List.sum_nil] at hsize
  rw [RecoveryScheduleBinding.json]
  omega

theorem byteLength_grant_le {grant : RecoveryGrant} (hnn : 0 ≤ grant.maxCalls)
    (hle : grant.maxCalls ≤ 4) : byteLength grant.json ≤ 100 := by
  have hsize := JsonText.byteLength_object_le
    [("lane", JsonText.string grant.lane.text), ("maxCalls", JsonText.integer grant.maxCalls),
      ("deferredReason", JsonText.nullable (grant.deferredReason.map (·.text)))]
  have hlane : byteLength (JsonText.string grant.lane.text) ≤ 10 := by
    cases grant.lane <;> decide
  have hcalls := byteLength_integer_le hnn (hle.trans (by decide))
  have hrsn : byteLength (JsonText.nullable
      (grant.deferredReason.map (·.text))) ≤ 16 := by
    cases grant.deferredReason with
    | none => decide
    | some reason => cases reason <;> decide
  have hkeys : byteLength (JsonText.string "lane") = 6 ∧
      byteLength (JsonText.string "maxCalls") = 10 ∧
      byteLength (JsonText.string "deferredReason") = 16 := by decide
  simp only [List.map_cons, List.map_nil, List.sum_cons, List.sum_nil] at hsize
  rw [RecoveryGrant.json]
  omega

theorem byteLength_grants_le (hrows : ∀ row ∈ rows, Granted phase row) (hlen : rows.length = 5) :
    byteLength (JsonText.array (rows.map (·.json))) ≤ 510 := by
  have hsize := JsonText.byteLength_array_le (rows.map (·.json))
  have hsum : ((rows.map (·.json)).map (fun value => byteLength value + 1)).sum ≤
      rows.length • 101 := by
    rw [List.map_map]
    have hcard := List.sum_le_card_nsmul
      (rows.map ((fun value => byteLength value + 1) ∘ (·.json))) 101 (by
        intro n hn
        obtain ⟨row, hrow, rfl⟩ := List.mem_map.mp hn
        obtain ⟨hnn, hle⟩ := caps_range (hrows row hrow).1
        exact Nat.succ_le_succ (byteLength_grant_le hnn hle))
    rwa [List.length_map] at hcard
  rw [hlen] at hsum
  simp only [smul_eq_mul] at hsum
  omega

/-- A well-formed request is far below the storage limit, whatever its account identifier. -/
theorem byteLength_request_lt (hver : row.version = 1) (hprof : row.profile = recoveryProfile)
    (hatt : attemptIdPattern row.attemptId = true)
    (hrev : 0 ≤ row.revision ∧ row.revision ≤ maxSafeInteger)
    (hphase : 0 ≤ row.phase ∧ row.phase ≤ 3) (hbind : row.binding.Valid)
    (hcooldown : 0 ≤ row.cooldownUntil ∧ row.cooldownUntil ≤ maxSafeInteger)
    (hrows : ∀ grant ∈ row.grants, Granted row.phase grant) (hlen : row.grants.length = 5) :
    byteLength row.json < 8192 := by
  have hsize := JsonText.byteLength_object_le
    [("version", JsonText.integer row.version), ("profile", JsonText.string row.profile),
      ("attemptId", JsonText.string row.attemptId), ("revision", JsonText.integer row.revision),
      ("phase", JsonText.integer row.phase), ("binding", row.binding.json),
      ("cooldownUntil", JsonText.integer row.cooldownUntil),
      ("grants", JsonText.array (row.grants.map (·.json)))]
  have hversion_size : byteLength (JsonText.integer row.version) = 1 := by
    rw [hver]
    decide
  have hprofile_size : byteLength (JsonText.string row.profile) = 26 := by
    rw [hprof]
    decide
  have hattempt_size := byteLength_attemptId_le hatt
  have hrevision_size := byteLength_integer_le hrev.1 hrev.2
  have hphase_size := byteLength_integer_le hphase.1 (hphase.2.trans (by decide))
  have hbinding_size := byteLength_binding_le hbind
  have hcooldown_size := byteLength_integer_le hcooldown.1 hcooldown.2
  have hgrants_size := byteLength_grants_le hrows hlen
  have hkeys : byteLength (JsonText.string "version") = 9 ∧
      byteLength (JsonText.string "profile") = 9 ∧
      byteLength (JsonText.string "attemptId") = 11 ∧
      byteLength (JsonText.string "revision") = 10 ∧
      byteLength (JsonText.string "phase") = 7 ∧
      byteLength (JsonText.string "binding") = 9 ∧
      byteLength (JsonText.string "cooldownUntil") = 15 ∧
      byteLength (JsonText.string "grants") = 8 := by decide
  simp only [List.map_cons, List.map_nil, List.sum_cons, List.sum_nil] at hsize
  rw [RecoveryScheduleRequest.json]
  omega

theorem validateRecoveryScheduleRequest_of_wellFormed (hver : row.version = 1)
    (hprof : row.profile = recoveryProfile) (hatt : attemptIdPattern row.attemptId = true)
    (hrev : 0 ≤ row.revision ∧ row.revision ≤ maxSafeInteger)
    (hphase : 0 ≤ row.phase ∧ row.phase ≤ 3) (hbind : row.binding.Valid)
    (hcooldown : 0 ≤ row.cooldownUntil ∧ row.cooldownUntil ≤ maxSafeInteger)
    (hrows : ∀ grant ∈ row.grants, Granted row.phase grant) (hlen : row.grants.length = 5)
    (hnodup : (row.grants.map (·.lane)).Nodup) (htotal : (row.grants.map (·.maxCalls)).sum ≤ 5) :
    validateRecoveryScheduleRequest row row.binding = .ok row := by
  have hsafe : (3 : ℤ) ≤ maxSafeInteger := by decide
  have hphase_ok : integer row.phase 3 = .ok () :=
    integer_ok_iff.mpr ⟨hphase.1, hphase.2.trans hsafe, hphase.2⟩
  have hrevision_ok : integer row.revision = .ok () :=
    integer_ok_iff.mpr ⟨hrev.1, hrev.2, hrev.2⟩
  have hcooldown_ok : integer row.cooldownUntil = .ok () :=
    integer_ok_iff.mpr ⟨hcooldown.1, hcooldown.2, hcooldown.2⟩
  have hheader : header row row.binding = .ok () := by
    rw [header, throwIf_of_not (by simp [hver, hprof, hatt]), ok_bind, hphase_ok, ok_bind,
      hcooldown_ok, ok_bind, assertBinding_self hbind, ok_bind, throwIf_of_not
        (not_le.mpr (byteLength_request_lt hver
        hprof hatt hrev hphase hbind hcooldown hrows hlen))]
  rw [validateRecoveryScheduleRequest, hrevision_ok, ok_bind, hphase_ok, ok_bind,
    grants_of_granted hrows hnodup hlen htotal, ok_bind, hheader, ok_bind]
  rfl

end Acceptance

end TsxCore.TradingRecoveryScheduleContract
