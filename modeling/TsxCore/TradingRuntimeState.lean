import TsxCore.JsRuntime

/-!
# The runtime row (`trading_repository.ts`)

`updateTradingRuntimeState` reads the single row with one statement, merges its input into
what it read, and writes every column with another statement. An update changes nothing
but what its input names exactly when the columns it does not name are still as it read them.
-/

namespace TsxCore.TradingRuntime

open Outcome

structure TradingRuntimeState where
  executionEnabled : Bool
  liveTradingEnabled : Bool
  killSwitchActive : Bool
  killSwitchReason : Option String
  updatedAt : ℤ
  deriving DecidableEq

/-- The input of an update; a key that the object does not have is `none`. -/
structure RuntimeInput where
  executionEnabled : Option Bool := none
  liveTradingEnabled : Option Bool := none
  killSwitchActive : Option Bool := none
  killSwitchReason : Option (Option String) := none

/-- `{ ...current, ...input, updatedAt: Date.now() }`. -/
def merged (input : RuntimeInput) (now : ℤ) (current : TradingRuntimeState) :
    TradingRuntimeState where
  executionEnabled := input.executionEnabled.getD current.executionEnabled
  liveTradingEnabled := input.liveTradingEnabled.getD current.liveTradingEnabled
  killSwitchActive := input.killSwitchActive.getD current.killSwitchActive
  killSwitchReason := input.killSwitchReason.getD current.killSwitchReason
  updatedAt := now

/-- What `updateTradingRuntimeState` writes once it has read `current`. -/
def nextRuntimeState (input : RuntimeInput) (now : ℤ) (current : TradingRuntimeState) :
    Outcome TradingRuntimeState := do
  let next := merged input now current
  throwIf (next.killSwitchActive = true ∧
    next.killSwitchReason.all (fun reason => trim reason = "") = true)
    (.error "Kill switch activation requires a reason.")
  return if next.killSwitchActive then { next with executionEnabled := false } else next

/-- Only the fields that the input names differ, and execution is off with the kill switch. -/
structure OnlyNamed (input : RuntimeInput) (before after : TradingRuntimeState) : Prop where
  live : input.liveTradingEnabled = none → after.liveTradingEnabled = before.liveTradingEnabled
  kill : input.killSwitchActive = none → after.killSwitchActive = before.killSwitchActive
  reason : input.killSwitchReason = none → after.killSwitchReason = before.killSwitchReason
  execution : input.executionEnabled = none → after.executionEnabled = before.executionEnabled ∨
    (after.killSwitchActive = true ∧ after.executionEnabled = false)

/-- What an update read still holds of the fields that it does not name. -/
structure Fresh (input : RuntimeInput) (current before : TradingRuntimeState) : Prop where
  live : input.liveTradingEnabled = none → current.liveTradingEnabled = before.liveTradingEnabled
  kill : input.killSwitchActive = none → current.killSwitchActive = before.killSwitchActive
  reason : input.killSwitchReason = none → current.killSwitchReason = before.killSwitchReason
  execution : input.executionEnabled = none → current.executionEnabled = before.executionEnabled ∨
    input.killSwitchActive.getD current.killSwitchActive = true

/-- The callers of `updateTradingRuntimeState` outside of a release. -/
inductive RuntimeUpdate
  | execution (enabled : Bool)
  | live (enabled : Bool)
  | activation (reason : String)
  | factoryReset
  deriving DecidableEq

def RuntimeUpdate.input : RuntimeUpdate → RuntimeInput
  | .execution enabled => { executionEnabled := some enabled }
  | .live enabled => { liveTradingEnabled := some enabled }
  | .activation reason =>
    { executionEnabled := some false, killSwitchActive := some true,
      killSwitchReason := some (some reason) }
  | .factoryReset => { executionEnabled := some false, liveTradingEnabled := some false }

/-- The update of `commitGlobalRelease`. -/
def releaseInput : RuntimeInput :=
  { executionEnabled := some false, killSwitchActive := some false, killSwitchReason := some none }

variable {input : RuntimeInput} {now : ℤ} {current before after : TradingRuntimeState}

theorem nextRuntimeState_ok (h : nextRuntimeState input now current = .ok after) :
    after.liveTradingEnabled = input.liveTradingEnabled.getD current.liveTradingEnabled ∧
      after.killSwitchActive = input.killSwitchActive.getD current.killSwitchActive ∧
      after.killSwitchReason = input.killSwitchReason.getD current.killSwitchReason ∧
      after.executionEnabled = (!after.killSwitchActive &&
        input.executionEnabled.getD current.executionEnabled) := by
  rw [nextRuntimeState, bind_eq_ok] at h
  obtain ⟨_, -, h⟩ := h
  rw [pure_eq_ok_iff] at h
  subst h
  by_cases hkill : (merged input now current).killSwitchActive = true
  · rw [if_pos hkill]
    exact ⟨rfl, rfl, rfl, by simp [hkill]⟩
  · rw [if_neg hkill]
    refine ⟨rfl, rfl, rfl, ?_⟩
    rw [Bool.not_eq_true] at hkill
    rw [hkill, Bool.not_false, Bool.true_and]
    rfl

theorem Fresh.refl (input : RuntimeInput) (row : TradingRuntimeState) : Fresh input row row :=
  ⟨fun _ => rfl, fun _ => rfl, fun _ => rfl, fun _ => .inl rfl⟩

/-- An update leaves the fields that it does not name alone exactly when it is not stale. -/
theorem onlyNamed_iff (h : nextRuntimeState input now current = .ok after) :
    OnlyNamed input before after ↔ Fresh input current before := by
  obtain ⟨hlive, hkill, hrsn, hexn⟩ := nextRuntimeState_ok h
  refine ⟨?_, ?_⟩
  · intro hnamed
    refine ⟨?_, ?_, ?_, ?_⟩
    · intro hnone
      rw [← hnamed.live hnone, hlive, hnone, Option.getD_none]
    · intro hnone
      rw [← hnamed.kill hnone, hkill, hnone, Option.getD_none]
    · intro hnone
      rw [← hnamed.reason hnone, hrsn, hnone, Option.getD_none]
    · intro hnone
      rw [← hkill]
      rcases hnamed.execution hnone with hsame | ⟨hact, -⟩
      · rw [hexn, hnone, Option.getD_none] at hsame
        cases hact : after.killSwitchActive with
        | true => exact .inr rfl
        | false => exact .inl (by simpa [hact] using hsame)
      · exact .inr hact
  · intro hfresh
    refine ⟨?_, ?_, ?_, ?_⟩
    · intro hnone
      rw [hlive, hnone, Option.getD_none, hfresh.live hnone]
    · intro hnone
      rw [hkill, hnone, Option.getD_none, hfresh.kill hnone]
    · intro hnone
      rw [hrsn, hnone, Option.getD_none, hfresh.reason hnone]
    · intro hnone
      rw [hexn, hnone, Option.getD_none]
      rcases hfresh.execution hnone with hsame | hact
      · cases hact : after.killSwitchActive with
        | true => exact .inr ⟨rfl, rfl⟩
        | false => exact .inl (by simpa using hsame)
      · rw [← hkill] at hact
        exact .inr ⟨hact, by simp [hact]⟩

theorem kill_kept {update : RuntimeUpdate}
    (h : nextRuntimeState update.input now current = .ok after)
    (hfresh : Fresh update.input current before) (hkill : before.killSwitchActive = true) :
    after.killSwitchActive = true ∧ after.executionEnabled = false := by
  obtain ⟨-, hafter, -, hexn⟩ := nextRuntimeState_ok h
  have hact : after.killSwitchActive = true := by
    rw [hafter]
    cases update with
    | activation reason => rfl
    | execution enabled => exact (hfresh.kill rfl).trans hkill
    | live enabled => exact (hfresh.kill rfl).trans hkill
    | factoryReset => exact (hfresh.kill rfl).trans hkill
  exact ⟨hact, by rw [hexn, hact, Bool.not_true, Bool.false_and]⟩

theorem activation_kills {reason : String}
    (h : nextRuntimeState (RuntimeUpdate.activation reason).input now current = .ok after) :
    after.killSwitchActive = true ∧ after.executionEnabled = false := by
  obtain ⟨-, hafter, -, hexn⟩ := nextRuntimeState_ok h
  have hact : after.killSwitchActive = true := hafter
  exact ⟨hact, by rw [hexn, hact, Bool.not_true, Bool.false_and]⟩

end TsxCore.TradingRuntime
