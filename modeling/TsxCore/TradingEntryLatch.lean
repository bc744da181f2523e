import TsxCore.TradingMutationCoordinator

/-!
# Entries of the runtime (`trading_runtime.ts`)

The latch `entriesEnabled` and the entry pause of `TradingRuntime`, with every synchronous
segment as one action. `enableEntries` is cut at its two suspension points: the clock
promise and the read of the runtime row. The other methods, `setRuntime` and
`emergencyFlatten` reach this state by `disableEntries`, by fences and holds of their own
and by statements that write the runtime row; entry executions only assert their epoch.
The number of calls of `disableEntries` is counted for the statements below.
-/

namespace TsxCore.TradingEntryLatch

open Outcome TradingMutationCoordinator

structure Runtime where
  stopped : Bool
  entriesEnabled : Bool
  /-- The token of the hold that the closure `releaseEntryPause` deletes. -/
  releaseEntryPause : Option ℕ
  protectionScanComplete : Bool
  deriving DecidableEq

/-- Where a call of `enableEntries` is. -/
inductive EnablePhase
  | clock
  | reading
  | read (executionEnabled killSwitchActive : Bool)
  | returned
  | threw
  deriving DecidableEq

/-- A call of `enableEntries`, with the number of stops before it. -/
structure EnableCall where
  begunAt : ℕ
  phase : EnablePhase
  deriving DecidableEq

structure State where
  runtime : Runtime
  mutations : Coordinator
  executionEnabled : Bool
  killSwitchActive : Bool
  /-- `startup?.assertEntryReady()` passes. -/
  entryReady : Bool
  calls : List EnableCall
  disables : ℕ
  pauses : List ℕ

inductive Action
  /-- A run, a fence or a hold of anyone; the closure of the entry pause is private. -/
  | coordinator (action : TradingMutationCoordinator.Action)
  /-- A statement that writes the runtime row. -/
  | writeRow (executionEnabled killSwitchActive : Bool)
  | startup (entryReady : Bool)
  | start
  | stop
  /-- The end of `runOnce`, up to the processing of the entries. -/
  | scanned (healthy : Bool)
  /-- `processPendingEntries`, once it has read the row. -/
  | processPending (executionEnabled killSwitchActive : Bool)
  | disable
  | enable (healthy : Bool)
  | resume (call : ℕ)
  | readRow (call : ℕ)
  | finish (call : ℕ)

namespace State

def disableEntries (s : State) : State :=
  let fenced := s.mutations.fenceEntries none
  match s.runtime.releaseEntryPause with
  | some _ => { s with
      mutations := fenced
      runtime := { s.runtime with entriesEnabled := false }
      disables := s.disables + 1 }
  | none => { s with
      mutations := fenced.holdEntries none
      runtime := { s.runtime with
        entriesEnabled := false, releaseEntryPause := some fenced.nextToken }
      disables := s.disables + 1
      pauses := fenced.nextToken :: s.pauses }

/-- `assertEntryClockHealthy` up to its first suspension. -/
def assertEntryClockHealthy (s : State) (healthy : Bool) : State :=
  if healthy then s else s.disableEntries

/-- `start` up to its first suspension. -/
def start (s : State) : State :=
  if s.runtime.stopped then
    let disabled := { s with runtime := { s.runtime with stopped := false } }.disableEntries
    { disabled with runtime := { disabled.runtime with protectionScanComplete := false } }
  else s

/-- `stop` up to its first suspension. -/
def stop (s : State) : State :=
  let disabled := s.disableEntries
  { disabled with runtime := { disabled.runtime with
      stopped := true, entriesEnabled := false, protectionScanComplete := false } }

def scanned (s : State) (healthy : Bool) : State :=
  let complete := { s with runtime := { s.runtime with protectionScanComplete := true } }
  let held := if s.entryReady then complete else complete.disableEntries
  if held.runtime.entriesEnabled then held.assertEntryClockHealthy healthy else held

/-- `enableEntries` up to its first suspension. -/
def enable (s : State) (healthy : Bool) : State :=
  if s.runtime.stopped || !s.entryReady || !s.runtime.protectionScanComplete then
    { s with calls := s.calls ++ [⟨s.disables, .threw⟩] }
  else if healthy then { s with calls := s.calls ++ [⟨s.disables, .clock⟩] }
  else { s.disableEntries with calls := s.calls ++ [⟨s.disables, .threw⟩] }

def setCall (s : State) (i : ℕ) (call : EnableCall) (phase : EnablePhase) : State :=
  { s with calls := s.calls.set i { call with phase := phase } }

/-- `enableEntries` with the row it read. -/
def finish (s : State) (i : ℕ) (call : EnableCall) (executionEnabled killSwitchActive : Bool) :
    State :=
  if !executionEnabled || killSwitchActive || !s.entryReady then s.setCall i call .threw
  else { s.setCall i call .returned with
    runtime := { s.runtime with entriesEnabled := true, releaseEntryPause := none }
    mutations := match s.runtime.releaseEntryPause with
      | some token => s.mutations.releaseHold token
      | none => s.mutations }

end State

/-- The state after a segment; `none` while it cannot run. -/
def step (s : State) : Action → Option State
  | .coordinator action => do
    guard (∀ token ∈ s.runtime.releaseEntryPause, action ≠ .release token)
    let mutations ← TradingMutationCoordinator.step s.mutations action
    return { s with mutations := mutations }
  | .writeRow executionEnabled killSwitchActive =>
    some { s with executionEnabled := executionEnabled, killSwitchActive := killSwitchActive }
  | .startup entryReady => some { s with entryReady := entryReady }
  | .start => some s.start
  | .stop => some s.stop
  | .scanned healthy => some (s.scanned healthy)
  | .processPending executionEnabled killSwitchActive =>
    some (if !executionEnabled || killSwitchActive then
      { s with runtime := { s.runtime with entriesEnabled := false } } else s)
  | .disable => some s.disableEntries
  | .enable healthy => some (s.enable healthy)
  | .resume i => do
    let call ← s.calls[i]?.filter (·.phase = .clock)
    return s.setCall i call .reading
  | .readRow i => do
    let call ← s.calls[i]?.filter (·.phase = .reading)
    return s.setCall i call (.read s.executionEnabled s.killSwitchActive)
  | .finish i => do
    let call ← s.calls[i]?
    let .read executionEnabled killSwitchActive := call.phase | none
    return s.finish i call executionEnabled killSwitchActive

section Steps

variable {s t : State} {action : Action} {i : ℕ} {call : EnableCall} {mutations : Coordinator}

def Kept (s t : State) : Prop :=
  ∀ (i : ℕ) call, s.calls[i]? = some call → call.phase = .returned → t.calls[i]? = some call

theorem Kept.of_eq (h : t.calls = s.calls) : Kept s t := fun _ _ hcall _ => h ▸ hcall

theorem Kept.append (h : t.calls = s.calls ++ [call]) : Kept s t := by
  intro i other hother _
  rw [h, List.getElem?_append_left (List.getElem?_eq_some_iff.mp hother).1]
  exact hother

theorem Kept.set {next : EnableCall} (hcall : s.calls[i]? = some call)
    (hphase : call.phase ≠ .returned)
    (h : t.calls = s.calls.set i next) : Kept s t := by
  intro j other hother hret
  have hne : i ≠ j := by
    rintro rfl
    rw [hcall, Option.some.injEq] at hother
    exact hphase (hother ▸ hret)
  rw [h, List.getElem?_set_ne hne]
  exact hother

theorem disableEntries_calls (s : State) : s.disableEntries.calls = s.calls := by
  unfold State.disableEntries
  cases s.runtime.releaseEntryPause <;> rfl

/-- The part of the state that the statements are about. -/
structure Latch where
  entriesEnabled : Bool
  releaseEntryPause : Option ℕ
  mutations : Coordinator
  disables : ℕ
  pauses : List ℕ

def State.latch (s : State) : Latch :=
  ⟨s.runtime.entriesEnabled, s.runtime.releaseEntryPause, s.mutations, s.disables, s.pauses⟩

/-- The latch after `disableEntries`. -/
def Latch.disabled (l : Latch) : Latch :=
  let fenced := l.mutations.fenceEntries none
  match l.releaseEntryPause with
  | some token => ⟨false, some token, fenced, l.disables + 1, l.pauses⟩
  | none => ⟨false, some fenced.nextToken, fenced.holdEntries none, l.disables + 1,
      fenced.nextToken :: l.pauses⟩

/-- The latch after the end of `enableEntries`. -/
def Latch.flipped (l : Latch) : Latch where
  entriesEnabled := true
  releaseEntryPause := none
  mutations := match l.releaseEntryPause with
    | some token => l.mutations.releaseHold token
    | none => l.mutations
  disables := l.disables
  pauses := l.pauses

theorem latch_disableEntries (s : State) : s.disableEntries.latch = s.latch.disabled := by
  unfold State.disableEntries Latch.disabled State.latch
  cases hpause : s.runtime.releaseEntryPause with
  | none => rfl
  | some token =>
    rw [Latch.mk.injEq]
    exact ⟨rfl, hpause, rfl, rfl, rfl⟩

theorem disableEntries_entriesEnabled (s : State) :
    s.disableEntries.runtime.entriesEnabled = false := by
  unfold State.disableEntries
  cases s.runtime.releaseEntryPause <;> rfl

inductive Change (s : State) : Action → Latch → Prop
  | same {action : Action} : Change s action s.latch
  | lowered {action : Action} : Change s action { s.latch with entriesEnabled := false }
  | coordinator {action : TradingMutationCoordinator.Action} {mutations : Coordinator}
    (hprivate : ∀ token ∈ s.runtime.releaseEntryPause, action ≠ .release token)
    (h : TradingMutationCoordinator.step s.mutations action = some mutations) :
    Change s (.coordinator action) { s.latch with mutations := mutations }
  | disabled {action : Action} : Change s action s.latch.disabled
  | flipped {i : ℕ} {call : EnableCall} (hcall : s.calls[i]? = some call)
    (hphase : call.phase = .read true false) (hready : s.entryReady = true) :
    Change s (.finish i) s.latch.flipped

theorem finish_cases {executionEnabled killSwitchActive : Bool}
    (h : s.finish i call executionEnabled killSwitchActive = t) :
    (t = s.setCall i call .threw ∧
      (executionEnabled = false ∨ killSwitchActive = true ∨ s.entryReady = false)) ∨
    (t.latch = s.latch.flipped ∧ t.calls = s.calls.set i { call with phase := .returned } ∧
      executionEnabled = true ∧ killSwitchActive = false ∧ s.entryReady = true) := by
  subst h
  unfold State.finish
  split_ifs with hrefd
  · refine .inl ⟨rfl, ?_⟩
    simpa [or_assoc] using hrefd
  · refine .inr ⟨rfl, rfl, ?_⟩
    simpa [and_assoc] using hrefd

theorem scanned_change (s : State) (healthy : Bool) :
    Change s (.scanned healthy) (s.scanned healthy).latch ∧ Kept s (s.scanned healthy) := by
  unfold State.scanned
  by_cases hready : s.entryReady = true
  · simp only [if_pos hready]
    split_ifs with henabled
    · unfold State.assertEntryClockHealthy
      split_ifs with hhealthy
      · exact ⟨.same, .of_eq rfl⟩
      · rw [latch_disableEntries]
        exact ⟨.disabled, .of_eq (disableEntries_calls _)⟩
    · exact ⟨.same, .of_eq rfl⟩
  · simp only [if_neg hready, disableEntries_entriesEnabled, Bool.false_eq_true, if_false]
    rw [latch_disableEntries]
    exact ⟨.disabled, .of_eq (disableEntries_calls _)⟩

theorem step_cases (h : step s action = some t) : Change s action t.latch ∧ Kept s t := by
  cases action with
  | coordinator action =>
    simp only [step, Option.bind_eq_bind, Option.bind_eq_some_iff, Option.guard_eq_some',
      Option.pure_def, Option.some.injEq] at h
    obtain ⟨_, hprivate, mutations, hmuts, rfl⟩ := h
    exact ⟨.coordinator hprivate hmuts, .of_eq rfl⟩
  | writeRow executionEnabled killSwitchActive =>
    cases h
    exact ⟨.same, .of_eq rfl⟩
  | startup entryReady =>
    cases h
    exact ⟨.same, .of_eq rfl⟩
  | start =>
    cases h
    unfold State.start
    split_ifs with hstopped
    · exact ⟨(latch_disableEntries { s with runtime := { s.runtime with stopped := false } }) ▸
        .disabled,
        .of_eq (disableEntries_calls _)⟩
    · exact ⟨.same, .of_eq rfl⟩
  | stop =>
    cases h
    have hlatch : s.stop.latch = s.latch.disabled := by
      rw [← latch_disableEntries, State.latch, State.latch, disableEntries_entriesEnabled]
      rfl
    exact ⟨hlatch ▸ .disabled, .of_eq (disableEntries_calls s)⟩
  | scanned healthy =>
    cases h
    exact scanned_change s healthy
  | processPending executionEnabled killSwitchActive =>
    cases h
    split_ifs with hrow
    · exact ⟨.lowered, .of_eq rfl⟩
    · exact ⟨.same, .of_eq rfl⟩
  | disable =>
    cases h
    exact ⟨latch_disableEntries s ▸ .disabled, .of_eq (disableEntries_calls s)⟩
  | enable healthy =>
    cases h
    unfold State.enable
    split_ifs with hrefd hhealthy
    · exact ⟨.same, .append rfl⟩
    · exact ⟨.same, .append rfl⟩
    · exact ⟨latch_disableEntries s ▸ .disabled, .append rfl⟩
  | resume i | readRow i =>
    simp only [step, Option.bind_eq_bind, Option.bind_eq_some_iff, Option.filter_eq_some_iff,
      decide_eq_true_eq, Option.pure_def, Option.some.injEq] at h
    obtain ⟨call, ⟨hcall, hphase⟩, rfl⟩ := h
    exact ⟨.same, .set hcall (by rw [hphase]; simp) rfl⟩
  | finish i =>
    simp only [step, Option.bind_eq_bind, Option.bind_eq_some_iff] at h
    obtain ⟨call, hcall, h⟩ := h
    split at h
    · rename_i executionEnabled killSwitchActive hphase
      have hkept : ∀ next, t.calls = s.calls.set i next → Kept s t :=
        fun next => .set hcall (by rw [hphase]; simp)
      rcases finish_cases (Option.some.inj h) with ⟨rfl, -⟩ | ⟨hlatch, hcalls, rfl, rfl, hready⟩
      · exact ⟨.same, hkept _ rfl⟩
      · exact ⟨hlatch ▸ .flipped hcall hphase hready, hkept _ hcalls⟩
    · cases h

end Steps

section Holds

variable {s t : Coordinator} {action : TradingMutationCoordinator.Action}

theorem step_holds (h : TradingMutationCoordinator.step s action = some t) :
    s.nextToken ≤ t.nextToken ∧ ∀ hold ∈ t.entryHolds, hold ∈ s.entryHolds ∨
      (s.nextToken ≤ hold.1 ∧ hold.1 < t.nextToken) := by
  have hfence : ∀ scope, (s.fenceEntries scope).nextToken = s.nextToken := by
    intro scope
    cases scope <;> rfl
  cases step_sound h with
  | fence scope =>
    rw [hfence, (fenceEntries_calls scope).2.2.2.2]
    exact ⟨le_rfl, fun _ => .inl⟩
  | hold scope =>
    refine ⟨Nat.le_succ _, ?_⟩
    intro hold hmem
    simp only [Coordinator.holdEntries, (fenceEntries_calls scope).2.2.2.2, List.mem_cons] at hmem
    rcases hmem with rfl | hmem
    · exact .inr ⟨le_rfl, Nat.lt_succ_self _⟩
    · exact .inl hmem
  | release token => exact ⟨le_rfl, fun _ hmem => .inl (List.mem_filter.mp hmem).1⟩
  | _ => exact ⟨le_rfl, fun _ => .inl⟩

theorem not_admitted {token : ℕ} (hheld : (token, none) ∈ s.entryHolds)
    (context : TradingMutationContext) (epoch : String) :
    s.assertEntryEpoch context epoch ≠ .ok () := by
  intro hok
  exact (assertEntryEpoch_ok_iff.mp hok).2.2 _ hheld (.inl rfl)

end Holds

section Invariants

variable {start s t : State} {l : Latch} {action : Action} {actions : List Action} {i : ℕ}
  {call : EnableCall} {mutations : Coordinator}

/-- The pause of the runtime is the hold that its closure deletes. -/
structure Sound (l : Latch) : Prop where
  enabled : l.entriesEnabled = true → l.releaseEntryPause = none
  held : ∀ token, l.releaseEntryPause = some token → (token, none) ∈ l.mutations.entryHolds
  holds : ∀ hold ∈ l.mutations.entryHolds, hold.1 < l.mutations.nextToken
  pauses : ∀ token ∈ l.pauses, token < l.mutations.nextToken
  owned : ∀ token ∈ l.pauses, ∀ hold ∈ l.mutations.entryHolds, hold.1 = token →
    l.releaseEntryPause = some token

theorem Sound.lowered (h : Sound l) : Sound { l with entriesEnabled := false } :=
  ⟨nofun, h.held, h.holds, h.pauses, h.owned⟩

theorem Sound.coordinator {action : TradingMutationCoordinator.Action} (h : Sound l)
    (hprivate : ∀ token ∈ l.releaseEntryPause, action ≠ .release token)
    (hstep : TradingMutationCoordinator.step l.mutations action = some mutations) :
    Sound { l with mutations := mutations } := by
  obtain ⟨hle, hmem⟩ := step_holds hstep
  refine ⟨h.enabled, ?_, ?_, ?_, ?_⟩
  · intro token htoken
    exact hold_kept (hprivate token htoken) (h.held token htoken) hstep
  · intro hold hhold
    rcases hmem hold hhold with hold' | ⟨-, hlt⟩
    · exact (h.holds hold hold').trans_le hle
    · exact hlt
  · intro token htoken
    exact (h.pauses token htoken).trans_le hle
  · intro token htoken hold hhold heq
    rcases hmem hold hhold with hold' | ⟨hge, -⟩
    · exact h.owned token htoken hold hold' heq
    · have hlt := h.pauses token htoken
      omega

theorem Sound.disabled (h : Sound l) : Sound l.disabled := by
  unfold Latch.disabled
  cases hpause : l.releaseEntryPause with
  | some token =>
    refine ⟨nofun, ?_, h.holds, h.pauses, ?_⟩
    · intro other hother
      exact h.held other (hpause.trans hother)
    · intro other hother hold hhold heq
      exact hpause.symm.trans (h.owned other hother hold hhold heq)
  | none =>
    refine ⟨nofun, ?_, ?_, ?_, ?_⟩
    · intro token htoken
      cases htoken
      exact List.mem_cons_self
    · intro hold hhold
      rcases List.mem_cons.mp hhold with rfl | hhold
      · exact Nat.lt_succ_self _
      · exact (h.holds hold hhold).trans (Nat.lt_succ_self _)
    · intro token htoken
      rcases List.mem_cons.mp htoken with rfl | htoken
      · exact Nat.lt_succ_self _
      · exact (h.pauses token htoken).trans (Nat.lt_succ_self _)
    · intro token htoken hold hhold heq
      rcases List.mem_cons.mp htoken with rfl | htoken
      · rfl
      rcases List.mem_cons.mp hhold with rfl | hhold
      · exact congrArg some heq
      · have howned := h.owned token htoken hold hhold heq
        rw [hpause] at howned
        cases howned

theorem Sound.flipped (h : Sound l) : Sound l.flipped := by
  unfold Latch.flipped
  cases hpause : l.releaseEntryPause with
  | none =>
    refine ⟨fun _ => rfl, nofun, h.holds, h.pauses, ?_⟩
    intro token htoken hold hhold heq
    rw [← hpause]
    exact h.owned token htoken hold hhold heq
  | some pause =>
    refine ⟨fun _ => rfl, nofun, ?_, h.pauses, ?_⟩
    · intro hold hhold
      exact h.holds hold (List.mem_filter.mp hhold).1
    · intro token htoken hold hhold heq
      obtain ⟨hhold, hne⟩ := List.mem_filter.mp hhold
      have howned := h.owned token htoken hold hhold heq
      rw [hpause, Option.some.injEq] at howned
      rw [decide_eq_true_eq] at hne
      exact absurd (heq.trans howned.symm) hne

theorem Change.sound (hs : Sound s.latch) (h : Change s action l) : Sound l := by
  cases h with
  | same => exact hs
  | lowered => exact hs.lowered
  | coordinator hprivate hstep => exact hs.coordinator hprivate hstep
  | disabled => exact hs.disabled
  | flipped => exact hs.flipped

structure Initial (s : State) : Prop where
  runtime : s.runtime = ⟨true, false, none, false⟩
  mutations : s.mutations = TradingMutationCoordinator.initial
  calls : s.calls = []
  disables : s.disables = 0
  pauses : s.pauses = []

theorem Initial.sound (h : Initial s) : Sound s.latch := by
  unfold State.latch
  rw [h.runtime, h.mutations, h.pauses]
  exact ⟨nofun, nofun, nofun, nofun, nofun⟩

theorem run_sound (hstart : Initial start) (hrun : Trace.run step start actions = some s) :
    Sound s.latch :=
  Trace.run_preserves (P := fun m => Sound m.latch)
    (fun _ _ _ _ hs hstep => (step_cases hstep).1.sound hs) hstart.sound hrun

end Invariants

section Overtaken

variable {start s t : State} {l : Latch} {action : Action} {actions : List Action} {i d : ℕ}
  {call : EnableCall}

/-- `disableEntries` was called since the call began. -/
def Overtaken (s : State) (call : EnableCall) : Prop := call.begunAt < s.disables
  deriving Decidable

/-- What the call read, or the startup authority at its second check, forbids entries. -/
def Refused (s : State) (call : EnableCall) : Prop :=
  ∀ executionEnabled killSwitchActive, call.phase = .read executionEnabled killSwitchActive →
    executionEnabled = false ∨ killSwitchActive = true ∨ s.entryReady = false

/-- A property of the end of every overtaken call of a run. -/
def EveryOvertaken (P : State → ℕ → EnableCall → State → Prop) (start : State)
    (actions : List Action) : Prop :=
  ∀ before i after m n call, actions = before ++ .finish i :: after →
    Trace.run step start before = some m → step m (.finish i) = some n →
      m.calls[i]? = some call → Overtaken m call → P m i call n

def AllRefused : State → List Action → Prop :=
  EveryOvertaken (fun m _ call _ => Refused m call)

def AllThrow : State → List Action → Prop :=
  EveryOvertaken (fun m i call n => n = m.setCall i call .threw)

theorem step_finish (h : step s (.finish i) = some t) : ∃ call executionEnabled killSwitchActive,
    s.calls[i]? = some call ∧ call.phase = .read executionEnabled killSwitchActive ∧
      t = s.finish i call executionEnabled killSwitchActive := by
  simp only [step, Option.bind_eq_bind, Option.bind_eq_some_iff] at h
  obtain ⟨call, hcall, h⟩ := h
  split at h
  · rename_i executionEnabled killSwitchActive hphase
    exact ⟨call, executionEnabled, killSwitchActive, hcall, hphase, (Option.some.inj h).symm⟩
  · cases h

theorem throws_iff_refused (h : step s (.finish i) = some t) (hcall : s.calls[i]? = some call) :
    t = s.setCall i call .threw ↔ Refused s call := by
  obtain ⟨call', executionEnabled, killSwitchActive, hcall', hphase, hfinish⟩ := step_finish h
  obtain rfl : call = call' := Option.some.inj (hcall.symm.trans hcall')
  refine ⟨?_, ?_⟩
  · intro hthrows e k hread
    rw [hphase, EnablePhase.read.injEq] at hread
    obtain ⟨rfl, rfl⟩ := hread
    rcases finish_cases hfinish.symm with ⟨-, hrefd⟩ | ⟨-, hcalls, -⟩
    · exact hrefd
    · have hthrew : t.calls[i]? = some { call with phase := .threw } := by
        rw [hthrows, State.setCall, List.getElem?_set_self (List.getElem?_eq_some_iff.mp hcall).1]
      rw [hcalls, List.getElem?_set_self (List.getElem?_eq_some_iff.mp hcall).1] at hthrew
      simp at hthrew
  · intro hrefd
    rcases finish_cases hfinish.symm with ⟨hthrows, -⟩ | ⟨-, -, rfl, rfl, hready⟩
    · exact hthrows
    · exact absurd (hrefd _ _ hphase) (by simp [hready])

theorem allRefused_iff : AllRefused start actions ↔ AllThrow start actions := by
  refine ⟨?_, ?_⟩
  · intro h before i after m n call hsplit hm hn hcall hovertaken
    exact (throws_iff_refused hn hcall).mpr
      (h before i after m n call hsplit hm hn hcall hovertaken)
  · intro h before i after m n call hsplit hm hn hcall hovertaken
    exact (throws_iff_refused hn hcall).mp (h before i after m n call hsplit hm hn hcall hovertaken)

theorem allRefused_concat : AllRefused start (actions ++ [action]) ↔ AllRefused start actions ∧
    ∀ i m n call, action = .finish i → Trace.run step start actions = some m →
      step m (.finish i) = some n → m.calls[i]? = some call → Overtaken m call →
        Refused m call := by
  refine ⟨?_, ?_⟩
  · intro h
    refine ⟨?_, ?_⟩
    · intro before i rest m n call hsplit
      exact h before i (rest ++ [action]) m n call (by rw [hsplit, List.append_assoc]; rfl)
    · rintro i m n call rfl
      exact h actions i [] m n call rfl
  · intro h before i rest m n call hsplit hm
    rcases rest.eq_nil_or_concat with rfl | ⟨rest, last, rfl⟩
    · obtain ⟨rfl, hlast⟩ := List.append_inj' hsplit rfl
      exact h.2 i m n call (List.singleton_inj.mp hlast) hm
    · rw [List.concat_eq_append, ← List.cons_append, ← List.append_assoc] at hsplit
      obtain ⟨hinit, -⟩ := List.append_inj' hsplit rfl
      exact h.1 before i rest m n call hinit hm

/-- A call of `enableEntries` that began after the `d`th stop has returned. -/
def EnabledSince (d : ℕ) (s : State) : Prop :=
  ∃ (i : ℕ) (call : EnableCall), s.calls[i]? = some call ∧ call.phase = .returned ∧ d ≤ call.begunAt

theorem EnabledSince.kept (h : EnabledSince d s) (hkept : Kept s t) : EnabledSince d t := by
  obtain ⟨i, call, hcall, hphase, hle⟩ := h
  exact ⟨i, call, hkept i call hcall hphase, hphase, hle⟩

/-- Until such a call returns, the runtime holds its pause. -/
def Paused (s : State) : Prop :=
  ∀ d, 0 < d → d ≤ s.disables → EnabledSince d s ∨ s.runtime.releaseEntryPause ≠ none

theorem disabled_releaseEntryPause (l : Latch) : l.disabled.releaseEntryPause ≠ none := by
  unfold Latch.disabled
  cases l.releaseEntryPause <;> exact Option.some_ne_none _

theorem Paused.step (hs : Paused s) (h : step s action = some t)
    (hrefd : ∀ i call, action = .finish i → s.calls[i]? = some call → Overtaken s call →
      Refused s call) : Paused t := by
  obtain ⟨hchange, hkept⟩ := step_cases h
  intro d hpos hd
  have hsame : t.latch.disables = s.disables →
      t.latch.releaseEntryPause = s.runtime.releaseEntryPause →
        EnabledSince d t ∨ t.runtime.releaseEntryPause ≠ none := by
    intro hdisables hpause
    rcases hs d hpos (hdisables ▸ hd) with hsince | hheld
    · exact .inl (hsince.kept hkept)
    · exact .inr (fun hnone => hheld (hpause.symm.trans hnone))
  generalize hlatch : t.latch = l at hchange
  cases hchange with
  | same => exact hsame (by rw [hlatch]; rfl) (by rw [hlatch]; rfl)
  | lowered => exact hsame (by rw [hlatch]; rfl) (by rw [hlatch]; rfl)
  | coordinator => exact hsame (by rw [hlatch]; rfl) (by rw [hlatch]; rfl)
  | disabled =>
    refine .inr ?_
    have hheld := disabled_releaseEntryPause s.latch
    rw [← hlatch] at hheld
    exact hheld
  | @flipped i call hcall hphase hready =>
    have hdisables : t.disables = s.disables := congrArg Latch.disables hlatch
    by_cases hovertaken : Overtaken s call
    · exact absurd (hrefd i call rfl hcall hovertaken _ _ hphase) (by simp [hready])
    · refine .inl ⟨i, { call with phase := .returned }, ?_, rfl, ?_⟩
      · obtain ⟨call', e, k, hcall', hphase', hfinish⟩ := step_finish h
        obtain rfl : call = call' := Option.some.inj (hcall.symm.trans hcall')
        rw [hphase, EnablePhase.read.injEq] at hphase'
        obtain ⟨rfl, rfl⟩ := hphase'
        rcases finish_cases hfinish.symm with ⟨-, hthrows⟩ | ⟨-, hcalls, -⟩
        · exact absurd hthrows (by simp [hready])
        · rw [hcalls, List.getElem?_set_self (List.getElem?_eq_some_iff.mp hcall).1]
      · rw [Overtaken, not_lt] at hovertaken
        exact (hdisables ▸ hd).trans hovertaken

theorem run_paused (hstart : Initial start)
    (hrun : Trace.run TradingEntryLatch.step start actions = some s)
    (h : AllRefused start actions) : Paused s := by
  induction actions using List.reverseRecOn generalizing s with
  | nil =>
    rw [Trace.run_nil] at hrun
    subst hrun
    intro d hpos hd
    rw [hstart.disables] at hd
    omega
  | append_singleton before action ih =>
    obtain ⟨m, hm, hlast⟩ := Trace.run_append.mp hrun
    obtain ⟨hbefore, hfinish⟩ := allRefused_concat.mp h
    rw [Trace.run_singleton] at hlast
    refine (ih hm hbefore).step hlast ?_
    rintro i call rfl hcall hovertaken
    exact hfinish i m s call rfl hm hlast hcall hovertaken

/-- A stop against the calls of `enableEntries` in flight, in every run. -/
theorem stop_overtakes_start (hstart : Initial start)
    (hrun : Trace.run TradingEntryLatch.step start actions = some s) :
    (AllRefused start actions ↔ AllThrow start actions) ∧
    (AllRefused start actions → ∀ d, 0 < d → d ≤ s.disables → EnabledSince d s ∨
      ∀ context epoch, s.mutations.assertEntryEpoch context epoch ≠ .ok ()) ∧
    (s.runtime.entriesEnabled = true →
      ∀ token ∈ s.pauses, ∀ hold ∈ s.mutations.entryHolds, hold.1 ≠ token) := by
  have hsound := run_sound hstart hrun
  refine ⟨allRefused_iff, ?_, ?_⟩
  · intro hrefd d hpos hd
    rcases run_paused hstart hrun hrefd d hpos hd with hsince | hpause
    · exact .inl hsince
    · obtain ⟨token, htoken⟩ := Option.ne_none_iff_exists'.mp hpause
      exact .inr (not_admitted (hsound.held token htoken))
  · intro henabled token htoken hold hhold heq
    have hpause := hsound.owned token htoken hold hhold heq
    rw [hsound.enabled henabled] at hpause
    cases hpause

/-- The runtime after its constructor, with execution enabled. -/
def constructed (executionEnabled : Bool) : State where
  runtime := ⟨true, false, none, false⟩
  mutations := TradingMutationCoordinator.initial
  executionEnabled := executionEnabled
  killSwitchActive := false
  entryReady := true
  calls := []
  disables := 0
  pauses := []

theorem initial_constructed (executionEnabled : Bool) : Initial (constructed executionEnabled) :=
  ⟨rfl, rfl, rfl, rfl, rfl⟩

/-- `stop` while `enableEntries` waits for the clock check, and a run of account `a` after it. -/
def overtakenRun : List Action :=
  [.start, .scanned true, .enable true, .stop, .coordinator (.call "a"), .coordinator (.resume 0),
    .resume 0, .readRow 0, .finish 0]

theorem stopped_runtime_enabled : (Trace.run step (constructed true) overtakenRun).map (fun s =>
    (s.runtime, s.calls, s.disables, s.mutations.assertEntryEpoch ⟨0, "a"⟩
      (s.mutations.entryEpoch "a"))) =
      some (⟨true, true, none, false⟩, [⟨1, .returned⟩], 2, .ok ()) := by
  decide +kernel

/-- The same stop, with the startup authority held before the second check. -/
def heldRun : List Action :=
  [.start, .scanned true, .enable true, .stop, .coordinator (.call "a"), .coordinator (.resume 0),
    .startup false, .resume 0, .readRow 0]

theorem stop_overtakes_start_held :
    ∃ s, Trace.run step (constructed true) (heldRun ++ [.finish 0]) =
    some s ∧ s.calls = [⟨1, .threw⟩] ∧ s.disables = 2 ∧
      s.mutations.assertEntryEpoch ⟨0, "a"⟩ (s.mutations.entryEpoch "a") ≠ .ok () := by
  have hsome : ((Trace.run step (constructed true) (heldRun ++ [.finish 0])).map (fun s =>
      (s.calls, s.disables))) = some ([⟨1, .threw⟩], 2) := by decide
  obtain ⟨s, hs, hvals⟩ := Option.map_eq_some_iff.mp hsome
  rw [Prod.mk.injEq] at hvals
  obtain ⟨hcalls, hdisables⟩ := hvals
  obtain ⟨-, hpaused, -⟩ := stop_overtakes_start (initial_constructed true) hs
  refine ⟨s, hs, hcalls, hdisables, ?_⟩
  have hheld : (Trace.run step (constructed true) heldRun).map (fun m => m.entryReady) =
    some false := by
    decide
  have hrefd : AllRefused (constructed true) (heldRun ++ [.finish 0]) := by
    refine allRefused_concat.mpr ⟨?_, ?_⟩
    · intro before i after m n call hsplit
      have hmem : .finish i ∈ heldRun := hsplit ▸ List.mem_append_right before List.mem_cons_self
      simp [heldRun] at hmem
    · rintro i m n call - hm - - - e k -
      rw [hm, Option.map_some, Option.some.injEq] at hheld
      exact .inr (.inr hheld)
  rcases hpaused hrefd 2 (by omega) (by omega) with hsince | hpaused
  · obtain ⟨i, call, hcall, hphase, -⟩ := hsince
    have hmem := List.mem_of_getElem? hcall
    rw [hcalls, List.mem_singleton] at hmem
    rw [hmem] at hphase
    cases hphase
  · exact hpaused ⟨0, "a"⟩ _

end Overtaken

end TsxCore.TradingEntryLatch
