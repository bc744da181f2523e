import TsxCore.CyclicSelection
import TsxCore.TradingRecoveryScheduleRepository

/-!
# Fairness of the history lane

The schedule remembers the last history checkpoint that it granted and grants the
next one in cyclic order of the keys. The row catches up with the grant only when
the attempt is closed; in between the attempt itself holds the position.
-/

namespace TsxCore.TradingRecoveryScheduleRepository

open Outcome TradingRecoveryScheduleContract TradingRecoverySchedule SqlTable Relation
  CyclicSelection

section Planner

variable {query : ExchangeRecoveryQuery} {previous : Option String} {now : ℤ}
variable {row : ExchangeHistoryCheckpoint} {left right : String} {binding : RecoveryScheduleBinding}
  {state : RecoveryScheduleState} {request : ScheduledRecoveryQuery}

end Planner

/-- The key that the next grant of the schedule starts after. -/
structure Cursor (db : Database) (id : String) (cursor : Option String) : Prop where
  absent : (∀ state ∈ db.schedules, state.id ≠ id) → cursor = none
  idle : ∀ state ∈ db.schedules, state.id = id →
    (∀ attempt ∈ db.attempts, isActive id attempt = false) → cursor = state.historyAfter
  active : ∀ state ∈ db.schedules, state.id = id → ∀ attempt ∈ db.attempts,
    isActive id attempt = true →
    cursor = (attempt.historySelection <|> state.historyAfter)

section Cursors

variable {db next : Database} {id : String} {cursor : Option String} {attempt : Attempt}
variable {state : RecoveryScheduleState}

theorem active_unique {other : Attempt} (hs : Current db.attempts state)
    (hatt : attempt ∈ db.attempts)
    (hact : isActive state.id attempt = true) (hother : other ∈ db.attempts)
    (hotherActive : isActive state.id other = true) : other = attempt := by
  have hsingle := hs.single
  rw [List.countP_eq_length_filter] at hsingle
  have hmem := List.mem_filter.mpr ⟨hatt, hact⟩
  have hotherMem := List.mem_filter.mpr ⟨hother, hotherActive⟩
  obtain ⟨only, honly⟩ := List.length_eq_one_iff.mp
    (le_antisymm hsingle (List.length_pos_of_mem hmem))
  rw [honly, List.mem_singleton] at hmem hotherMem
  rw [hmem, hotherMem]

theorem Cursor.close {status : AttemptStatus} {errorCode : Option Failure} {calls : Option ℤ}
    {now cooldown : ℤ} (hc : Cursor db id cursor) (hdb : Consistent db)
    (hmem : attempt ∈ db.attempts)
    (hresv : attempt.status = .reserved) (hclosed : status ≠ .reserved)
    (hadv : advance (closeAttempt db attempt status errorCode calls now) attempt now cooldown =
      .ok next) : Cursor next id cursor := by
  have hkept : ∀ other ∈ db.attempts, isActive id other = true → other ≠ attempt →
      other ∈ (closeAttempt db attempt status errorCode calls now).attempts := by
    intro other hother hact hne
    apply mem_updateWhere.mpr
    right
    refine ⟨hother, ?_⟩
    rw [isReservedRow, decide_eq_false_iff_not]
    exact fun h => hne (eq_of_key hdb.attempt_ids hother hmem h.1)
  have hother : ∀ other ∈ (closeAttempt db attempt status errorCode calls now).attempts,
      isActive id other = true → other ∈ db.attempts ∧ other ≠ attempt := by
    intro other hother hact
    refine ⟨mem_of_active hclosed hother hact, ?_⟩
    rintro rfl
    rcases mem_updateWhere.mp hother with ⟨row, -, -, hrow⟩ | ⟨-, hnot⟩
    · have hstatus := congrArg Attempt.status hrow
      exact hclosed (hstatus.trans hresv)
    · simp [isReservedRow, hresv] at hnot
  -- Unless the attempt held the position, the other attempts and the row still do.
  have hsame : isActive id attempt = false →
      ∀ state ∈ db.schedules, state.id = id →
        ((∀ other ∈ (closeAttempt db attempt status errorCode calls now).attempts,
          isActive id other = false) → cursor = state.historyAfter) ∧
        ∀ other ∈ (closeAttempt db attempt status errorCode calls now).attempts,
          isActive id other = true → cursor = (other.historySelection <|> state.historyAfter) := by
    intro hinactive state hstate hid
    constructor
    · intro hidle
      apply hc.idle state hstate hid
      intro other hmemOther
      rw [← Bool.not_eq_true]
      intro hact
      have hne : other ≠ attempt := by
        rintro rfl
        rw [hinactive] at hact
        cases hact
      rw [hidle other (hkept other hmemOther hact hne)] at hact
      cases hact
    · intro other hmemOther hact
      exact hc.active state hstate hid other (hother other hmemOther hact).1 hact
  rcases advance_ok_iff.mp hadv with ⟨hnot, rfl⟩ | ⟨hadvances, -, -, rfl⟩
  · have hinactive : isActive id attempt = false := by simp [isActive, hnot]
    refine ⟨hc.absent, ?_, ?_⟩
    · intro state hstate hid hidle
      exact (hsame hinactive state hstate hid).1 hidle
    · intro state hstate hid other hmemOther hact
      exact (hsame hinactive state hstate hid).2 other hmemOther hact
  · have hrows : ∀ row ∈ updateWhere (isHeldRow attempt) (advanceRow attempt now cooldown)
      db.schedules,
        row.id = id → (row ∈ db.schedules ∧ isActive id attempt = false) ∨
          (cursor = row.historyAfter ∧ isActive id attempt = true ∧
            ∃ state ∈ db.schedules, state.id = id) := by
      intro row hrow hid
      rcases mem_updateWhere.mp hrow with ⟨state, hstate, hheld, rfl⟩ | ⟨hstate, hnot⟩
      · right
        have hsch := (isHeldRow_iff.mp hheld).1
        have hstateId : state.id = id := hid
        have hact : isActive id attempt = true :=
          isActive_iff.mpr ⟨hsch.symm.trans hstateId, hresv, hadvances⟩
        exact ⟨hc.active state hstate hstateId attempt hmem hact, hact, state, hstate, hstateId⟩
      · left
        refine ⟨hstate, ?_⟩
        rw [← Bool.not_eq_true]
        intro hact
        rw [← hid] at hact
        obtain ⟨hbase, hphase⟩ := (hdb.current row hstate).held attempt hmem hact
        rw [isHeldRow_iff.mpr ⟨(isActive_iff.mp hact).1.symm, hbase.symm, hphase.symm⟩] at hnot
        cases hnot
    refine ⟨?_, ?_, ?_⟩
    · intro habsent
      apply hc.absent
      intro state hstate hid
      by_cases hheld : isHeldRow attempt state = true
      · exact habsent _ (mem_updateWhere.mpr (.inl ⟨state, hstate, hheld, rfl⟩)) hid
      · exact habsent state (mem_updateWhere.mpr (.inr ⟨hstate, by simpa using hheld⟩)) hid
    · intro row hrow hid hidle
      rcases hrows row hrow hid with ⟨hstate, hinactive⟩ | ⟨hcurs, -, -⟩
      · exact (hsame hinactive row hstate hid).1 hidle
      · exact hcurs
    · intro row hrow hid other hmemOther hact
      rcases hrows row hrow hid with ⟨hstate, hinactive⟩ | ⟨-, hheld, state, hstate, hstateId⟩
      · exact (hsame hinactive row hstate hid).2 other hmemOther hact
      · obtain ⟨hmemOld, hne⟩ := hother other hmemOther hact
        subst hstateId
        exact absurd (active_unique (hdb.current state hstate) hmem hheld hmemOld hact) hne

theorem Cursor.quiet (hc : Cursor db id cursor) (hdb : Consistent db) (h : Quiet db next) :
    Cursor next id cursor := by
  obtain ⟨hchange, hlen⟩ := h
  cases hchange with
  | @create created habsent =>
    refine ⟨?_, ?_, ?_⟩
    · intro hnone
      exact hc.absent (fun state hstate => hnone state (List.mem_append_left _ hstate))
    · intro state hstate hid hidle
      rcases List.mem_append.mp hstate with hold | hnew
      · exact hc.idle state hold hid hidle
      · obtain rfl := List.mem_singleton.mp hnew
        obtain rfl : created = id := hid
        exact hc.absent habsent
    · intro state hstate hid attempt hatt hact
      rcases List.mem_append.mp hstate with hold | hnew
      · exact hc.active state hold hid attempt hatt hact
      · obtain rfl := List.mem_singleton.mp hnew
        obtain rfl : created = id := hid
        obtain ⟨other, hother, hsch⟩ := hdb.scheduled attempt hatt
        exact absurd (hsch.trans (isActive_iff.mp hact).1) (habsent other hother)
  | close hmem hresv hclosed _ hadv => exact hc.close hdb hmem hresv hclosed hadv
  | insert =>
    rw [List.length_append, List.length_singleton] at hlen
    omega

end Cursors

section Runs

variable (scheduleId : RecoveryScheduleBinding → String) (id : String)

/-- The history key that a call grants on the schedule. -/
def selection (db : Database) : Call → Option String
  | .reserve call =>
    match reserveScheduledRecovery scheduleId db call with
    | .ok (_, request) =>
      if scheduleId request.recoverySchedule.binding = id then
        request.history.head?.map recoveryHistoryKey
      else none
    | .error _ => none
  | .fail _ => none
  | .complete _ => none

variable {scheduleId id} {db next : Database} {cursor : Option String} {call : ReserveCall}
variable {request : ScheduledRecoveryQuery} {state : RecoveryScheduleState} {busy : Bool} {now : ℤ}

end Runs

end TsxCore.TradingRecoveryScheduleRepository
