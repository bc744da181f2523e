import TsxCore.JsRuntime
import TsxCore.Trace

/-!
# Account mutations (`trading_mutation_coordinator.ts`)

One synchronous segment of the program is one action. An un-nested `run` is cut
at its two suspension points: the call takes the account's tail and awaits it,
the resumption creates the owner context and starts the operation, and once the
operation has settled the `finally` block retires the context, resolves the tail
and removes it if it is still the last one. Tickets number the un-nested calls
and stand for the identity of their tail promise and of their owner object;
epochs are exact integers.
-/

namespace TsxCore.TradingMutationCoordinator

open Outcome Trace

@[ext]
structure TradingMutationContext where
  ticket : ℕ
  accountId : String
  deriving DecidableEq

/-- Where an un-nested `run` is suspended. -/
inductive Phase
  | waiting
  | running
  | settling
  | finished
  deriving DecidableEq

/-- A call of `run`; `previous` is the awaited tail, absent for `Promise.resolve()`. -/
structure Call where
  accountId : String
  previous : Option ℕ
  phase : Phase

structure Coordinator where
  tails : String → Option ℕ
  contexts : List TradingMutationContext
  accountEpochs : String → ℕ
  globalEpoch : ℕ
  entryHolds : List (ℕ × Option String)
  nextToken : ℕ
  activeBudgets : List TradingMutationContext
  resolved : List ℕ
  calls : List Call

def initial : Coordinator where
  tails := fun _ => none
  contexts := []
  accountEpochs := fun _ => 0
  globalEpoch := 0
  entryHolds := []
  nextToken := 0
  activeBudgets := []
  resolved := []
  calls := []

def entryAdmissionRevoked : Thrown :=
  ⟨"EntryAdmissionRevokedError", some "ENTRY_ADMISSION_REVOKED",
    "Entry admission invalidated by an operator fence."⟩

/-- Whether a fence or hold without an account, or for that account, concerns `accountId`. -/
def Covers (scope : Option String) (accountId : String) : Prop :=
  scope = none ∨ scope = some accountId
  deriving Decidable

namespace Coordinator

def entryEpoch (s : Coordinator) (accountId : String) : String :=
  bigintText s.globalEpoch ++ ":" ++ bigintText (s.accountEpochs accountId)

def fenceEntries (s : Coordinator) : Option String → Coordinator
  | none => { s with globalEpoch := s.globalEpoch + 1 }
  | some accountId => { s with
      accountEpochs := Function.update s.accountEpochs accountId (s.accountEpochs accountId + 1) }

/-- `holdEntries`: the returned closure releases the token `s.nextToken`. -/
def holdEntries (s : Coordinator) (scope : Option String) : Coordinator :=
  let fenced := s.fenceEntries scope
  { fenced with
    entryHolds := (s.nextToken, scope) :: fenced.entryHolds
    nextToken := s.nextToken + 1 }

def releaseHold (s : Coordinator) (token : ℕ) : Coordinator :=
  { s with entryHolds := s.entryHolds.filter (·.1 ≠ token) }

def assertContext (s : Coordinator) (context : TradingMutationContext) (accountId : String) :
    Outcome Unit :=
  throwIf (context ∉ s.contexts ∨ context.accountId ≠ accountId)
    (.error "Trading mutation context is invalid, expired or belongs to another account.")

def assertEpoch (s : Coordinator) (context : TradingMutationContext) (epoch : String) :
    Outcome Unit := do
  s.assertContext context context.accountId
  throwIf (s.entryEpoch context.accountId ≠ epoch) entryAdmissionRevoked

def assertEntryEpoch (s : Coordinator) (context : TradingMutationContext) (epoch : String) :
    Outcome Unit := do
  s.assertEpoch context epoch
  throwIf (s.entryHolds.any (fun hold => decide (Covers hold.2 context.accountId)))
    entryAdmissionRevoked

/-- `run` with a live context, up to the call of its operation. -/
def runNested (s : Coordinator) (accountId : String) (context : TradingMutationContext) :
    Outcome Unit := do
  throwIf (accountId = "") (.error "Trading mutation requires an account identifier.")
  s.assertContext context accountId
  throwIf (context ∉ s.activeBudgets) (.error "Cancel budget owner context expired.")

def runCall (s : Coordinator) (accountId : String) : Coordinator :=
  { s with
    tails := Function.update s.tails accountId (some s.calls.length)
    calls := s.calls ++ [⟨accountId, s.tails accountId, .waiting⟩] }

def setPhase (s : Coordinator) (ticket : ℕ) (call : Call) (phase : Phase) : List Call :=
  s.calls.set ticket { call with phase := phase }

def settledTail (s : Coordinator) : Option ℕ → Bool
  | none => true
  | some tail => decide (tail ∈ s.resolved)

def runResume (s : Coordinator) (ticket : ℕ) (call : Call) : Coordinator :=
  let owner : TradingMutationContext := ⟨ticket, call.accountId⟩
  { s with
    contexts := owner :: s.contexts
    activeBudgets := owner :: s.activeBudgets
    calls := s.setPhase ticket call .running }

/-- The operation returned or threw: its cancel budget expires. -/
def operationSettled (s : Coordinator) (ticket : ℕ) (call : Call) : Coordinator :=
  { s with
    activeBudgets := s.activeBudgets.filter (· ≠ ⟨ticket, call.accountId⟩)
    calls := s.setPhase ticket call .settling }

/-- The `finally` block of `run`. -/
def runFinally (s : Coordinator) (ticket : ℕ) (call : Call) : Coordinator :=
  { s with
    contexts := s.contexts.filter (· ≠ ⟨ticket, call.accountId⟩)
    resolved := ticket :: s.resolved
    tails := if s.tails call.accountId = some ticket then
      Function.update s.tails call.accountId none else s.tails
    calls := s.setPhase ticket call .finished }

end Coordinator

inductive Action
  | call (accountId : String)
  | nested (accountId : String) (context : TradingMutationContext)
  | resume (ticket : ℕ)
  | settle (ticket : ℕ) (threw : Bool)
  | finish (ticket : ℕ)
  | fence (scope : Option String)
  | hold (scope : Option String)
  | release (token : ℕ)
  deriving DecidableEq

open Coordinator

def callIn (s : Coordinator) (ticket : ℕ) (phase : Phase) : Option Call :=
  s.calls[ticket]?.filter (·.phase = phase)

/-- The state after a segment and whether a guard of it threw; `none` while it cannot run. -/
def perform (s : Coordinator) : Action → Option (Coordinator × Outcome Unit)
  | .call accountId =>
    if accountId = "" then
      some (s, .error (.error "Trading mutation requires an account identifier."))
    else some (s.runCall accountId, .ok ())
  | .nested accountId context => some (s, s.runNested accountId context)
  | .resume ticket => do
    let call ← callIn s ticket .waiting
    guard (s.settledTail call.previous)
    return (s.runResume ticket call, .ok ())
  | .settle ticket _ => do
    let call ← callIn s ticket .running
    return (s.operationSettled ticket call, .ok ())
  | .finish ticket => do
    let call ← callIn s ticket .settling
    return (s.runFinally ticket call, .ok ())
  | .fence scope => some (s.fenceEntries scope, .ok ())
  | .hold scope => some (s.holdEntries scope, .ok ())
  | .release token => some (s.releaseHold token, .ok ())

def step (s : Coordinator) (action : Action) : Option Coordinator :=
  (perform s action).map Prod.fst

/-- The accounts of the accepted un-nested calls; the position is the ticket. -/
def calledAccounts (actions : List Action) : List String :=
  actions.filterMap fun
    | .call accountId => if accountId = "" then none else some accountId
    | _ => none

/-- Everything that an action can do to the coordinator. -/
inductive Step (s : Coordinator) : Action → Coordinator → Prop
  | rejected : Step s (.call "") s
  | call {accountId : String} (h : accountId ≠ "") : Step s (.call accountId) (s.runCall accountId)
  | nested (accountId : String) (context : TradingMutationContext) :
    Step s (.nested accountId context) s
  | resume {ticket : ℕ} {call : Call} (hcall : s.calls[ticket]? = some call)
    (hphase : call.phase = .waiting) (htail : s.settledTail call.previous = true) :
    Step s (.resume ticket) (s.runResume ticket call)
  | settle {ticket : ℕ} {call : Call} (threw : Bool) (hcall : s.calls[ticket]? = some call)
    (hphase : call.phase = .running) :
    Step s (.settle ticket threw) (s.operationSettled ticket call)
  | finish {ticket : ℕ} {call : Call} (hcall : s.calls[ticket]? = some call)
    (hphase : call.phase = .settling) : Step s (.finish ticket) (s.runFinally ticket call)
  | fence (scope : Option String) : Step s (.fence scope) (s.fenceEntries scope)
  | hold (scope : Option String) : Step s (.hold scope) (s.holdEntries scope)
  | release (token : ℕ) : Step s (.release token) (s.releaseHold token)

theorem callIn_eq_some {s : Coordinator} {ticket : ℕ} {phase : Phase} {call : Call} :
    callIn s ticket phase = some call ↔ s.calls[ticket]? = some call ∧ call.phase = phase := by
  simp [callIn, Option.filter_eq_some_iff]

theorem step_sound {s t : Coordinator} {action : Action} (h : step s action = some t) :
    Step s action t := by
  obtain ⟨⟨_, outcome⟩, hperf, rfl⟩ := Option.map_eq_some_iff.mp h
  cases action with
  | call accountId =>
    by_cases hempty : accountId = ""
    · subst hempty
      simp only [perform, if_true, Option.some.injEq, Prod.mk.injEq] at hperf
      obtain ⟨rfl, -⟩ := hperf
      exact .rejected
    · simp only [perform, hempty, if_false, Option.some.injEq, Prod.mk.injEq] at hperf
      obtain ⟨rfl, -⟩ := hperf
      exact .call hempty
  | nested accountId context =>
    simp only [perform, Option.some.injEq, Prod.mk.injEq] at hperf
    obtain ⟨rfl, -⟩ := hperf
    exact .nested accountId context
  | resume ticket =>
    simp only [perform, Option.bind_eq_bind, Option.bind_eq_some_iff, callIn_eq_some,
      Option.guard_eq_some', Option.pure_def, Option.some.injEq, Prod.mk.injEq] at hperf
    obtain ⟨call, ⟨hcall, hphase⟩, _, htail, rfl, -⟩ := hperf
    exact .resume hcall hphase htail
  | settle ticket threw =>
    simp only [perform, Option.bind_eq_bind, Option.bind_eq_some_iff, callIn_eq_some,
      Option.pure_def, Option.some.injEq, Prod.mk.injEq] at hperf
    obtain ⟨call, ⟨hcall, hphase⟩, rfl, -⟩ := hperf
    exact .settle threw hcall hphase
  | finish ticket =>
    simp only [perform, Option.bind_eq_bind, Option.bind_eq_some_iff, callIn_eq_some,
      Option.pure_def, Option.some.injEq, Prod.mk.injEq] at hperf
    obtain ⟨call, ⟨hcall, hphase⟩, rfl, -⟩ := hperf
    exact .finish hcall hphase
  | fence scope =>
    simp only [perform, Option.some.injEq, Prod.mk.injEq] at hperf
    obtain ⟨rfl, -⟩ := hperf
    exact .fence scope
  | hold scope =>
    simp only [perform, Option.some.injEq, Prod.mk.injEq] at hperf
    obtain ⟨rfl, -⟩ := hperf
    exact .hold scope
  | release token =>
    simp only [perform, Option.some.injEq, Prod.mk.injEq] at hperf
    obtain ⟨rfl, -⟩ := hperf
    exact .release token

def accountOf (s : Coordinator) (ticket : ℕ) : Option String := s.calls[ticket]?.map (·.accountId)

def previousOf (s : Coordinator) (ticket : ℕ) : Option (Option ℕ) :=
  s.calls[ticket]?.map (·.previous)

def phaseOf (s : Coordinator) (ticket : ℕ) : Option Phase := s.calls[ticket]?.map (·.phase)

section Calls

variable {s t : Coordinator} {ticket : ℕ} {call : Call} {phase : Phase}

theorem moved (hcall : s.calls[ticket]? = some call)
    (ht : t.calls = s.setPhase ticket call phase) :
    accountOf t = accountOf s ∧ previousOf t = previousOf s ∧
      phaseOf t = Function.update (phaseOf s) ticket (some phase) := by
  have hlt : ticket < s.calls.length := (List.getElem?_eq_some_iff.mp hcall).1
  have hget : ∀ i, t.calls[i]? =
      if i = ticket then some { call with phase := phase } else s.calls[i]? := by
    intro i
    rw [ht, setPhase, List.getElem?_set]
    by_cases hi : ticket = i
    · simp [hi.symm, hlt]
    · simp [hi, Ne.symm hi]
  refine ⟨?_, ?_, ?_⟩
  · funext i
    rw [accountOf, accountOf, hget]
    split_ifs with hi
    · simp [hi, hcall]
    · rfl
  · funext i
    rw [previousOf, previousOf, hget]
    split_ifs with hi
    · simp [hi, hcall]
    · rfl
  · funext i
    rw [phaseOf, hget, Function.update_apply]
    split_ifs with hi
    · rfl
    · rfl

theorem called (accountId : String) :
    accountOf (s.runCall accountId) =
        Function.update (accountOf s) s.calls.length (some accountId) ∧
      previousOf (s.runCall accountId) =
        Function.update (previousOf s) s.calls.length (some (s.tails accountId)) ∧
      phaseOf (s.runCall accountId) =
        Function.update (phaseOf s) s.calls.length (some .waiting) := by
  have hget : ∀ i, (s.runCall accountId).calls[i]? =
      if i = s.calls.length then some ⟨accountId, s.tails accountId, .waiting⟩
      else s.calls[i]? := by
    intro i
    rw [runCall]
    by_cases hi : i = s.calls.length
    · simp [hi]
    · rw [if_neg hi]
      by_cases hlt : i < s.calls.length
      · rw [List.getElem?_append_left hlt]
      · rw [List.getElem?_eq_none (by simp; omega), List.getElem?_eq_none (by omega)]
  refine ⟨?_, ?_, ?_⟩
  · funext i
    rw [accountOf, hget, Function.update_apply]
    split_ifs with hi
    · rfl
    · rfl
  · funext i
    rw [previousOf, hget, Function.update_apply]
    split_ifs with hi
    · rfl
    · rfl
  · funext i
    rw [phaseOf, hget, Function.update_apply]
    split_ifs with hi
    · rfl
    · rfl

theorem runCall_tails (accountId : String) : (s.runCall accountId).tails =
    Function.update s.tails accountId (some s.calls.length) := rfl

theorem runCall_contexts (accountId : String) :
    (s.runCall accountId).contexts = s.contexts := rfl

theorem lt_of_accountOf {accountId : String} (h : accountOf s ticket = some accountId) :
    ticket < s.calls.length := by
  obtain ⟨call, hcall, -⟩ := Option.map_eq_some_iff.mp h
  exact (List.getElem?_eq_some_iff.mp hcall).1

end Calls

def Live (phase : Option Phase) : Prop := phase = some .running ∨ phase = some .settling

/-- The tail chain: a call awaits its predecessor on the account, a missing tail means that
every call of the account is finished, and so a started call has only finished ones before it. -/
structure Ordered (s : Coordinator) : Prop where
  awaited : ∀ i j a, accountOf s i = some a → previousOf s i = some (some j) →
    j < i ∧ accountOf s j = some a ∧ ∀ k, j < k → k < i → accountOf s k ≠ some a
  unchained : ∀ i j a, accountOf s i = some a → previousOf s i = some none → j < i →
    accountOf s j = some a → phaseOf s j = some .finished
  started : ∀ i j a, accountOf s i = some a → phaseOf s i ≠ some .waiting → j < i →
    accountOf s j = some a → phaseOf s j = some .finished
  tail : ∀ a j, s.tails a = some j → accountOf s j = some a ∧ ∀ k, j < k → accountOf s k ≠ some a
  idle : ∀ a j, s.tails a = none → accountOf s j = some a → phaseOf s j = some .finished
  resolved : ∀ i ∈ s.resolved, phaseOf s i = some .finished
  contexts : ∀ c, c ∈ s.contexts ↔
    accountOf s c.ticket = some c.accountId ∧ Live (phaseOf s c.ticket)

theorem ordered_initial : Ordered initial where
  awaited := by simp [accountOf, initial]
  unchained := by simp [accountOf, initial]
  started := by simp [accountOf, initial]
  tail := by simp [initial]
  idle := by simp [accountOf, initial]
  resolved := by simp [initial]
  contexts := by simp [accountOf, initial]

section Ordering

variable {s t : Coordinator} {ticket : ℕ} {call : Call} {p : Phase}

theorem accountOf_of_call (hcall : s.calls[ticket]? = some call) :
    accountOf s ticket = some call.accountId := by
  rw [accountOf, hcall, Option.map_some]

theorem phaseOf_of_call (hcall : s.calls[ticket]? = some call) :
    phaseOf s ticket = some call.phase := by
  rw [phaseOf, hcall, Option.map_some]

/-- A finished call is never the one that moves. -/
theorem finished_update (hold : phaseOf s ticket ≠ some .finished) {i : ℕ}
    (h : phaseOf s i = some .finished) :
    Function.update (phaseOf s) ticket (some p) i = some .finished := by
  have hne : i ≠ ticket := fun heq => hold (heq ▸ h)
  rw [Function.update_of_ne hne, h]

/-- The order of the calls is kept when one of them moves to a phase it may enter. -/
theorem Ordered.move (hs : Ordered s) (hcall : s.calls[ticket]? = some call)
    (hold : call.phase ≠ .finished) (ht : t.calls = s.setPhase ticket call p)
    (hbefore : ∀ j, j < ticket → accountOf s j = some call.accountId →
      phaseOf s j = some .finished)
    (htails : t.tails = s.tails ∨ p = .finished ∧ s.tails call.accountId = some ticket ∧
      t.tails = Function.update s.tails call.accountId none)
    (hresol : ∀ i ∈ t.resolved, i ∈ s.resolved ∨ i = ticket ∧ p = .finished)
    (hcontexts : ∀ c, c ∈ t.contexts ↔ accountOf s c.ticket = some c.accountId ∧
      Live (Function.update (phaseOf s) ticket (some p) c.ticket)) : Ordered t := by
  obtain ⟨hacc, hprevious, hphase⟩ := moved hcall ht
  have hnot : phaseOf s ticket ≠ some .finished := by
    rw [phaseOf_of_call hcall]
    exact fun h => hold (Option.some.inj h)
  have hticket := accountOf_of_call hcall
  refine ⟨?_, ?_, ?_, ?_, ?_, ?_, ?_⟩
  · intro i j a hi hj
    rw [hacc] at hi ⊢
    rw [hprevious] at hj
    exact hs.awaited i j a hi hj
  · intro i j a hi hprev hlt hj
    rw [hacc] at hi hj
    rw [hprevious] at hprev
    rw [hphase]
    exact finished_update hnot (hs.unchained i j a hi hprev hlt hj)
  · intro i j a hi hstarted hlt hj
    rw [hacc] at hi hj
    rw [hphase] at hstarted ⊢
    apply finished_update hnot
    by_cases heq : i = ticket
    · subst heq
      rw [hticket, Option.some.injEq] at hi
      exact hbefore j hlt (hi ▸ hj)
    · rw [Function.update_of_ne heq] at hstarted
      exact hs.started i j a hi hstarted hlt hj
  · intro a j hj
    rw [hacc]
    rcases htails with hsame | ⟨-, -, hremoved⟩
    · rw [hsame] at hj
      exact hs.tail a j hj
    · rw [hremoved, Function.update_apply] at hj
      split_ifs at hj
      exact hs.tail a j hj
  · intro a j ha hj
    rw [hacc] at hj
    rw [hphase]
    rcases htails with hsame | ⟨hfin, hlast, hremoved⟩
    · rw [hsame] at ha
      exact finished_update hnot (hs.idle a j ha hj)
    · rw [hremoved, Function.update_apply] at ha
      split_ifs at ha with heq
      · subst heq
        rcases lt_trichotomy j ticket with hlt | rfl | hgt
        · exact finished_update hnot (hbefore j hlt hj)
        · rw [Function.update_self, hfin]
        · exact absurd hj ((hs.tail _ _ hlast).2 j hgt)
      · exact finished_update hnot (hs.idle a j ha hj)
  · intro i hi
    rw [hphase]
    rcases hresol i hi with hmem | ⟨rfl, hfin⟩
    · exact finished_update hnot (hs.resolved i hmem)
    · rw [Function.update_self, hfin]
  · intro c
    rw [hacc, hphase]
    exact hcontexts c

theorem Ordered.before_resume (hs : Ordered s) (hcall : s.calls[ticket]? = some call)
    (htail : s.settledTail call.previous = true) {j : ℕ} (hlt : j < ticket)
    (hj : accountOf s j = some call.accountId) : phaseOf s j = some .finished := by
  have hticket := accountOf_of_call hcall
  have hprevious : previousOf s ticket = some call.previous := by
    rw [previousOf, hcall, Option.map_some]
  cases hprev : call.previous with
  | none => exact hs.unchained ticket j _ hticket (hprev ▸ hprevious) hlt hj
  | some k =>
    rw [hprev, settledTail, decide_eq_true_eq] at htail
    have hk := hs.resolved k htail
    obtain ⟨-, hacc, hbetween⟩ := hs.awaited ticket k _ hticket (hprev ▸ hprevious)
    rcases lt_trichotomy j k with hjk | rfl | hkj
    · exact hs.started k j _ hacc (by rw [hk]; decide) hjk hj
    · exact hk
    · exact absurd hj (hbetween j hkj hlt)

theorem Ordered.before_started (hs : Ordered s) (hcall : s.calls[ticket]? = some call)
    (hphase : call.phase ≠ .waiting) {j : ℕ} (hlt : j < ticket)
    (hj : accountOf s j = some call.accountId) : phaseOf s j = some .finished := by
  apply hs.started ticket j call.accountId (accountOf_of_call hcall) _ hlt hj
  rw [phaseOf_of_call hcall]
  exact fun h => hphase (Option.some.inj h)

theorem Ordered.runResume (hs : Ordered s) (hcall : s.calls[ticket]? = some call)
    (hphase : call.phase = .waiting) (htail : s.settledTail call.previous = true) :
    Ordered (s.runResume ticket call) := by
  apply Ordered.move (t := s.runResume ticket call) (p := .running) hs hcall
  · rw [hphase]
    decide
  · rfl
  · exact fun j => hs.before_resume hcall htail
  · exact .inl rfl
  · exact fun i => .inl
  intro c
  rw [Coordinator.runResume, List.mem_cons, hs.contexts]
  by_cases heq : c.ticket = ticket
  · rw [heq, Function.update_self, phaseOf_of_call hcall, hphase, accountOf_of_call hcall]
    simp [Live, TradingMutationContext.ext_iff, heq, eq_comm]
  · rw [Function.update_of_ne heq]
    simp [TradingMutationContext.ext_iff, heq]

theorem Ordered.operationSettled (hs : Ordered s) (hcall : s.calls[ticket]? = some call)
    (hphase : call.phase = .running) : Ordered (s.operationSettled ticket call) := by
  apply Ordered.move (t := s.operationSettled ticket call) (p := .settling) hs hcall
  · rw [hphase]
    decide
  · rfl
  · exact fun j => hs.before_started hcall (by rw [hphase]; decide)
  · exact .inl rfl
  · exact fun i => .inl
  intro c
  rw [Coordinator.operationSettled, hs.contexts]
  by_cases heq : c.ticket = ticket
  · rw [heq, Function.update_self, phaseOf_of_call hcall, hphase]
    simp [Live]
  · rw [Function.update_of_ne heq]

theorem Ordered.runFinally (hs : Ordered s) (hcall : s.calls[ticket]? = some call)
    (hphase : call.phase = .settling) : Ordered (s.runFinally ticket call) := by
  apply Ordered.move (t := s.runFinally ticket call) (p := .finished) hs hcall
  · rw [hphase]
    decide
  · rfl
  · exact fun j => hs.before_started hcall (by rw [hphase]; decide)
  · by_cases hlast : s.tails call.accountId = some ticket
    · exact .inr ⟨rfl, hlast, by rw [Coordinator.runFinally, if_pos hlast]⟩
    · exact .inl (by rw [Coordinator.runFinally, if_neg hlast])
  · intro i hi
    rcases List.mem_cons.mp hi with heq | hmem
    · exact .inr ⟨heq, rfl⟩
    · exact .inl hmem
  intro c
  rw [Coordinator.runFinally, List.mem_filter, hs.contexts]
  by_cases heq : c.ticket = ticket
  · rw [heq, Function.update_self, accountOf_of_call hcall]
    refine iff_of_false ?_ ?_
    · intro h
      obtain ⟨⟨hacc, -⟩, hne⟩ := h
      exact of_decide_eq_true hne (TradingMutationContext.ext heq (Option.some.inj hacc).symm)
    · simp [Live]
  · rw [Function.update_of_ne heq]
    simp [TradingMutationContext.ext_iff, heq]

theorem Ordered.runCall (hs : Ordered s) (accountId : String) : Ordered (s.runCall accountId) := by
  obtain ⟨hacc, hprevious, hphase⟩ := called (s := s) accountId
  have hfresh : ∀ {i a}, accountOf s i = some a → i ≠ s.calls.length := by
    intro i a hi
    exact (lt_of_accountOf hi).ne
  have hcases : ∀ {i a}, accountOf (s.runCall accountId) i = some a →
      (i = s.calls.length ∧ a = accountId) ∨ (i ≠ s.calls.length ∧ accountOf s i = some a) := by
    intro i a hi
    rw [hacc, Function.update_apply] at hi
    split_ifs at hi with heq
    · exact .inl ⟨heq, (Option.some.inj hi).symm⟩
    · exact .inr ⟨heq, hi⟩
  have hkept : ∀ {i a}, accountOf s i = some a → accountOf (s.runCall accountId) i = some a := by
    intro i a hi
    rw [hacc, Function.update_of_ne (hfresh hi), hi]
  have hbelow : ∀ {i j a}, i < j → accountOf (s.runCall accountId) j = some a →
      i ≠ s.calls.length := by
    intro i j a hlt hj
    rcases hcases hj with ⟨rfl, -⟩ | ⟨-, hold⟩
    · exact hlt.ne
    · exact (hlt.trans (lt_of_accountOf hold)).ne
  have hphase_kept : ∀ {i}, i ≠ s.calls.length → phaseOf (s.runCall accountId) i = phaseOf s i := by
    intro i hne
    rw [hphase, Function.update_of_ne hne]
  have hold_of_below : ∀ {i j a}, i < j → accountOf (s.runCall accountId) j = some a →
      ∀ {b}, accountOf (s.runCall accountId) i = some b → accountOf s i = some b := by
    intro i j a hlt hj b hi
    rwa [hacc, Function.update_of_ne (hbelow hlt hj)] at hi
  refine ⟨?_, ?_, ?_, ?_, ?_, ?_, ?_⟩
  · intro i j a hi hj
    rcases hcases hi with ⟨rfl, rfl⟩ | ⟨hne, hi'⟩
    · rw [hprevious, Function.update_self, Option.some.injEq] at hj
      obtain ⟨hlast, hafter⟩ := hs.tail a j hj
      refine ⟨lt_of_accountOf hlast, hkept hlast, ?_⟩
      intro k hjk hk hka
      exact hafter k hjk (hold_of_below hk hi hka)
    · rw [hprevious, Function.update_of_ne hne] at hj
      obtain ⟨hlt, hja, hbetween⟩ := hs.awaited i j a hi' hj
      refine ⟨hlt, hkept hja, ?_⟩
      intro k hjk hk hka
      exact hbetween k hjk hk (hold_of_below hk hi hka)
  · intro i j a hi hprev hlt hj
    rw [hphase_kept (hbelow hlt hi)]
    have hj' := hold_of_below hlt hi hj
    rcases hcases hi with ⟨rfl, rfl⟩ | ⟨hne, hi'⟩
    · rw [hprevious, Function.update_self, Option.some.injEq] at hprev
      exact hs.idle a j hprev hj'
    · rw [hprevious, Function.update_of_ne hne] at hprev
      exact hs.unchained i j a hi' hprev hlt hj'
  · intro i j a hi hstarted hlt hj
    rw [hphase_kept (hbelow hlt hi)]
    have hj' := hold_of_below hlt hi hj
    rcases hcases hi with ⟨rfl, rfl⟩ | ⟨hne, hi'⟩
    · rw [hphase, Function.update_self] at hstarted
      exact absurd rfl hstarted
    · rw [hphase_kept hne] at hstarted
      exact hs.started i j a hi' hstarted hlt hj'
  · intro a j hj
    rw [runCall_tails, Function.update_apply] at hj
    split_ifs at hj with heq
    · obtain rfl := Option.some.inj hj
      refine ⟨by rw [hacc, Function.update_self, heq], ?_⟩
      intro k hk hka
      rcases hcases hka with ⟨rfl, -⟩ | ⟨-, hka'⟩
      · exact absurd hk (lt_irrefl _)
      · exact absurd (lt_of_accountOf hka') hk.not_gt
    · obtain ⟨hlast, hafter⟩ := hs.tail a j hj
      refine ⟨hkept hlast, ?_⟩
      intro k hk hka
      rcases hcases hka with ⟨-, hka'⟩ | ⟨-, hka'⟩
      · exact heq hka'
      · exact hafter k hk hka'
  · intro a j ha hj
    rw [runCall_tails, Function.update_apply] at ha
    split_ifs at ha with heq
    rcases hcases hj with ⟨-, hja⟩ | ⟨hne, hja⟩
    · exact absurd hja heq
    · rw [hphase_kept hne]
      exact hs.idle a j ha hja
  · intro i hi
    have hfin := hs.resolved i hi
    have hne : i ≠ s.calls.length := by
      intro heq
      rw [heq, phaseOf, List.getElem?_eq_none le_rfl] at hfin
      exact absurd hfin (by simp)
    rw [hphase_kept hne, hfin]
  · intro c
    rw [runCall_contexts, hs.contexts, hacc, hphase]
    by_cases heq : c.ticket = s.calls.length
    · rw [heq, Function.update_self, Function.update_self, accountOf,
        List.getElem?_eq_none le_rfl]
      simp [Live]
    · rw [Function.update_of_ne heq, Function.update_of_ne heq]

theorem Ordered.of_same (hs : Ordered s) (hcalls : t.calls = s.calls) (htails : t.tails = s.tails)
    (hresol : t.resolved = s.resolved) (hcontexts : t.contexts = s.contexts) : Ordered t := by
  have hacc : accountOf t = accountOf s := by
    funext i
    rw [accountOf, accountOf, hcalls]
  have hprevious : previousOf t = previousOf s := by
    funext i
    rw [previousOf, previousOf, hcalls]
  have hphase : phaseOf t = phaseOf s := by
    funext i
    rw [phaseOf, phaseOf, hcalls]
  refine ⟨?_, ?_, ?_, ?_, ?_, ?_, ?_⟩
  · rw [hacc, hprevious]
    exact hs.awaited
  · rw [hacc, hprevious, hphase]
    exact hs.unchained
  · rw [hacc, hphase]
    exact hs.started
  · rw [hacc, htails]
    exact hs.tail
  · rw [hacc, hphase, htails]
    exact hs.idle
  · rw [hphase, hresol]
    exact hs.resolved
  · rw [hacc, hphase, hcontexts]
    exact hs.contexts

theorem fenceEntries_calls (scope : Option String) : (s.fenceEntries scope).calls = s.calls ∧
    (s.fenceEntries scope).tails = s.tails ∧ (s.fenceEntries scope).resolved = s.resolved ∧
    (s.fenceEntries scope).contexts = s.contexts ∧
    (s.fenceEntries scope).entryHolds = s.entryHolds := by
  cases scope <;> exact ⟨rfl, rfl, rfl, rfl, rfl⟩

theorem Ordered.step {action : Action} (hs : Ordered s) (h : Step s action t) : Ordered t := by
  cases h with
  | rejected => exact hs
  | call hne => exact hs.runCall _
  | nested => exact hs
  | resume hcall hphase htail => exact hs.runResume hcall hphase htail
  | settle _ hcall hphase => exact hs.operationSettled hcall hphase
  | finish hcall hphase => exact hs.runFinally hcall hphase
  | fence scope | hold scope =>
    obtain ⟨hcalls, htails, hresol, hcontexts, -⟩ := fenceEntries_calls (s := s) scope
    exact hs.of_same hcalls htails hresol hcontexts
  | release token => exact hs.of_same rfl rfl rfl rfl

theorem Ordered.owner_unique (hs : Ordered s) {c d : TradingMutationContext} (hc : c ∈ s.contexts)
    (hd : d ∈ s.contexts) (heq : c.accountId = d.accountId) : c = d := by
  have hexcluded : ∀ {c d : TradingMutationContext}, c ∈ s.contexts → d ∈ s.contexts →
      c.accountId = d.accountId → ¬ c.ticket < d.ticket := by
    intro c d hc hd heq hlt
    obtain ⟨hcaccount, hclive⟩ := (hs.contexts c).mp hc
    obtain ⟨hdaccount, hdlive⟩ := (hs.contexts d).mp hd
    have hstarted : phaseOf s d.ticket ≠ some .waiting := by
      rcases hdlive with h | h <;> rw [h] <;> decide
    have hfin := hs.started d.ticket c.ticket d.accountId hdaccount hstarted hlt
      (heq ▸ hcaccount)
    rcases hclive with h | h <;> rw [h] at hfin <;> exact absurd hfin (by decide)
  have hle := hexcluded hc hd heq
  have hge := hexcluded hd hc heq.symm
  exact TradingMutationContext.ext (by omega) heq

end Ordering

structure Recorded (actions : List Action) (s : Coordinator) : Prop where
  ordered : Ordered s
  accounts : s.calls.map (·.accountId) = calledAccounts actions
  resumed : ∀ i, .resume i ∈ actions ↔ ∃ phase, phaseOf s i = some phase ∧ phase ≠ .waiting
  finished : ∀ i, .finish i ∈ actions ↔ phaseOf s i = some .finished

section Recording

variable {s t : Coordinator} {actions : List Action} {action : Action} {accountId : String}

theorem Recorded.accountOf (hs : Recorded actions s) (i : ℕ) :
    accountOf s i = (calledAccounts actions)[i]? := by
  rw [TradingMutationCoordinator.accountOf, ← hs.accounts, List.getElem?_map]

theorem recorded_initial : Recorded [] initial where
  ordered := ordered_initial
  accounts := rfl
  resumed := by simp [phaseOf, initial]
  finished := by simp [phaseOf, initial]

theorem calledAccounts_concat (actions : List Action) (action : Action) :
    calledAccounts (actions ++ [action]) = calledAccounts actions ++ calledAccounts [action] := by
  rw [calledAccounts, List.filterMap_append]
  rfl

theorem Recorded.of_same (hs : Recorded actions s) (ht : Ordered t) (hcalls : t.calls = s.calls)
    (hcalled : calledAccounts [action] = []) (hresume : ∀ i, action ≠ .resume i)
    (hfinish : ∀ i, action ≠ .finish i) : Recorded (actions ++ [action]) t where
  ordered := ht
  accounts := by rw [calledAccounts_concat, hcalled, List.append_nil, hcalls, hs.accounts]
  resumed i := by
    simp [(hresume i).symm, hs.resumed, phaseOf, hcalls]
  finished i := by
    simp [(hfinish i).symm, hs.finished, phaseOf, hcalls]

theorem Recorded.move (hs : Recorded actions s) (ht : Ordered t) {ticket : ℕ} {call : Call}
    {p : Phase} (hcall : s.calls[ticket]? = some call)
    (hcalls : t.calls = s.setPhase ticket call p) (hp : p ≠ .waiting)
    (hold : call.phase ≠ .finished) (hcalled : calledAccounts [action] = [])
    (hresume : ∀ i, action = .resume i ↔ i = ticket ∧ call.phase = .waiting)
    (hfinish : ∀ i, action = .finish i ↔ i = ticket ∧ p = .finished) :
    Recorded (actions ++ [action]) t := by
  obtain ⟨hacc, -, hphase⟩ := moved hcall hcalls
  have hbefore := phaseOf_of_call hcall
  refine ⟨ht, ?_, ?_, ?_⟩
  · rw [calledAccounts_concat, hcalled, List.append_nil, ← hs.accounts]
    apply List.ext_getElem?
    intro i
    rw [List.getElem?_map, List.getElem?_map]
    exact congrFun hacc i
  · intro i
    rw [List.mem_append, List.mem_singleton, eq_comm, hresume, hs.resumed, hphase]
    by_cases heq : i = ticket
    · rw [heq, Function.update_self, hbefore]
      by_cases hwaiting : call.phase = .waiting <;> simp [hwaiting, hp]
    · rw [Function.update_of_ne heq]
      simp [heq]
  · intro i
    rw [List.mem_append, List.mem_singleton, eq_comm, hfinish, hs.finished, hphase]
    by_cases heq : i = ticket
    · rw [heq, Function.update_self, hbefore]
      simp [hold]
    · rw [Function.update_of_ne heq]
      simp [heq]

theorem Recorded.call (hs : Recorded actions s) (hne : accountId ≠ "") :
    Recorded (actions ++ [.call accountId]) (s.runCall accountId) := by
  obtain ⟨-, -, hphase⟩ := called (s := s) accountId
  have hfresh : phaseOf s s.calls.length = none := by
    rw [phaseOf, List.getElem?_eq_none le_rfl, Option.map_none]
  refine ⟨hs.ordered.runCall accountId, ?_, ?_, ?_⟩
  · rw [calledAccounts_concat, ← hs.accounts, runCall, List.map_append]
    simp [calledAccounts, hne]
  · intro i
    rw [hphase]
    by_cases heq : i = s.calls.length
    · rw [heq, Function.update_self]
      simp [hs.resumed, hfresh]
    · rw [Function.update_of_ne heq]
      simp [hs.resumed]
  · intro i
    rw [hphase]
    by_cases heq : i = s.calls.length
    · rw [heq, Function.update_self]
      simp [hs.finished, hfresh]
    · rw [Function.update_of_ne heq]
      simp [hs.finished]

theorem Recorded.step (hs : Recorded actions s) (h : Step s action t) :
    Recorded (actions ++ [action]) t := by
  have ht := hs.ordered.step h
  cases h with
  | rejected => exact hs.of_same ht rfl (by simp [calledAccounts]) (by simp) (by simp)
  | call hne => exact hs.call hne
  | nested => exact hs.of_same ht rfl rfl (by simp) (by simp)
  | resume hcall hphase htail =>
    apply hs.move ht hcall rfl (by decide) (by rw [hphase]; decide) rfl
    · intro i
      simp [hphase, eq_comm]
    · simp
  | settle threw hcall hphase =>
    exact hs.move ht hcall rfl (by decide) (by rw [hphase]; decide) rfl (by simp [hphase]) (by simp)
  | finish hcall hphase =>
    apply hs.move ht hcall rfl (by decide) (by rw [hphase]; decide) rfl
    · simp [hphase]
    · intro i
      simp [eq_comm]
  | fence scope => exact hs.of_same ht (fenceEntries_calls scope).1 rfl (by simp) (by simp)
  | hold scope => exact hs.of_same ht (fenceEntries_calls scope).1 rfl (by simp) (by simp)
  | release token => exact hs.of_same ht rfl rfl (by simp) (by simp)

theorem recorded (h : run step initial actions = some s) : Recorded actions s :=
  run_invariant recorded_initial (fun _ _ _ _ hs hstep => hs.step (step_sound hstep)) h

theorem assertContext_ok_iff {context : TradingMutationContext} {u : Unit} :
    s.assertContext context accountId = .ok u ↔
      context ∈ s.contexts ∧ context.accountId = accountId := by
  rw [assertContext, throwIf_eq_ok, not_or, not_not, not_not]

theorem Recorded.assertContext_iff (hs : Recorded actions s) (context : TradingMutationContext)
    (accountId : String) : s.assertContext context accountId = .ok () ↔
      context.accountId = accountId ∧ (calledAccounts actions)[context.ticket]? = some accountId ∧
        .resume context.ticket ∈ actions ∧ .finish context.ticket ∉ actions := by
  rw [assertContext_ok_iff, hs.ordered.contexts, hs.resumed, hs.finished, hs.accountOf]
  refine ⟨?_, ?_⟩
  · intro h
    obtain ⟨⟨hacc, hlive⟩, rfl⟩ := h
    refine ⟨rfl, hacc, ?_⟩
    rcases hlive with hlive | hlive <;> rw [hlive] <;> simp
  · intro h
    obtain ⟨rfl, hacc, ⟨phase, hphase, hwaiting⟩, hfin⟩ := h
    refine ⟨⟨hacc, ?_⟩, rfl⟩
    rw [hphase] at hfin ⊢
    cases phase <;> simp_all [Live]

theorem sequential {before after : List Action} {i j : ℕ} (h : run step initial actions = some s)
    (hsplit : actions = before ++ .resume j :: after) (hlt : i < j)
    (hi : (calledAccounts actions)[i]? = some accountId)
    (hj : (calledAccounts actions)[j]? = some accountId) :
    .resume i ∈ before ∧ .finish i ∈ before := by
  rw [hsplit, run_append] at h
  obtain ⟨m, hm, hrest⟩ := h
  obtain ⟨n, hn, -⟩ := run_cons.mp hrest
  have hrec := recorded hm
  have hindex : ∀ {k}, k < (calledAccounts before).length →
      (calledAccounts actions)[k]? = (calledAccounts before)[k]? := by
    intro k hk
    rw [hsplit, calledAccounts, List.filterMap_append]
    exact List.getElem?_append_left hk
  cases step_sound hn with
  | @resume _ call hcall hphase htail =>
    have hjlen : j < (calledAccounts before).length := by
      rw [← hrec.accounts, List.length_map]
      exact (List.getElem?_eq_some_iff.mp hcall).1
    rw [hindex hjlen, ← hrec.accountOf, accountOf_of_call hcall, Option.some.injEq] at hj
    rw [hindex (hlt.trans hjlen), ← hrec.accountOf, ← hj] at hi
    have hfin := hrec.ordered.before_resume hcall htail hlt hi
    exact ⟨(hrec.resumed i).mpr ⟨_, hfin, by decide⟩, (hrec.finished i).mpr hfin⟩

end Recording

section Fences

variable {s t : Coordinator} {actions : List Action} {action : Action} {accountId : String}

theorem bigintText_natCast (n : ℕ) : bigintText n = .ofList (Nat.toDigits 10 n) := by
  rw [bigintText, if_neg (by omega), Int.natAbs_natCast]

theorem colon_notin_digits (n : ℕ) : ∀ c ∈ Nat.toDigits 10 n, (c != ':') = true := by
  intro c hc
  have hdigit := Nat.isDigit_of_mem_toDigits (by omega) (by omega) hc
  rw [bne_iff_ne]
  intro heq
  rw [heq] at hdigit
  exact absurd hdigit (by decide)

theorem toDigits_injective {m n : ℕ} (h : Nat.toDigits 10 m = Nat.toDigits 10 n) : m = n := by
  have hvalue := congrArg (fun cs => Nat.ofDigitChars 10 cs 0) h
  simpa only [Nat.ofDigitChars_ten_toDigits] using hvalue

theorem entryEpoch_injective (h : s.entryEpoch accountId = t.entryEpoch accountId) :
    s.globalEpoch = t.globalEpoch ∧ s.accountEpochs accountId = t.accountEpochs accountId := by
  have hlist := congrArg String.toList h
  simp only [entryEpoch, bigintText_natCast, String.toList_append, String.toList_ofList,
    List.append_assoc] at hlist
  have hglobal := congrArg (List.takeWhile (· != ':')) hlist
  rw [List.takeWhile_append_of_pos (colon_notin_digits _),
    List.takeWhile_append_of_pos (colon_notin_digits _)] at hglobal
  have hdigits : Nat.toDigits 10 s.globalEpoch = Nat.toDigits 10 t.globalEpoch := by
    simpa using hglobal
  rw [hdigits] at hlist
  have hacc := List.append_cancel_left (List.append_cancel_left hlist)
  exact ⟨toDigits_injective hdigits, toDigits_injective hacc⟩

/-- Both counters only grow, so their sum tells epochs of one account apart. -/
def epochRank (accountId : String) (s : Coordinator) : ℕ :=
  s.globalEpoch + s.accountEpochs accountId

theorem fence_rank_le (scope : Option String) :
    epochRank accountId s ≤ epochRank accountId (s.fenceEntries scope) := by
  cases scope with
  | none => exact Nat.add_le_add_right (Nat.le_succ _) _
  | some account =>
    simp only [epochRank, fenceEntries, Function.update_apply]
    split_ifs with heq
    · rw [heq]
      omega
    · exact le_rfl

theorem fence_rank_lt {scope : Option String} (hcovers : Covers scope accountId) :
    epochRank accountId s < epochRank accountId (s.fenceEntries scope) := by
  rcases hcovers with rfl | rfl
  · simp only [epochRank, fenceEntries]
    omega
  · simp only [epochRank, fenceEntries, Function.update_self]
    omega

theorem rank_le_step (h : step s action = some t) :
    epochRank accountId s ≤ epochRank accountId t := by
  cases step_sound h with
  | fence scope => exact fence_rank_le scope
  | hold scope => exact fence_rank_le scope
  | _ => exact le_rfl

theorem rank_lt_fence {scope : Option String} (hcovers : Covers scope accountId)
    (hfenced : action = .fence scope ∨ action = .hold scope) (h : step s action = some t) :
    epochRank accountId s < epochRank accountId t := by
  rcases hfenced with rfl | rfl
  · cases step_sound h with
    | fence => exact fence_rank_lt hcovers
  · cases step_sound h with
    | hold => exact fence_rank_lt hcovers

theorem assertEntryEpoch_ok_iff {context : TradingMutationContext} {epoch : String} :
    s.assertEntryEpoch context epoch = .ok () ↔ context ∈ s.contexts ∧
      s.entryEpoch context.accountId = epoch ∧
        ∀ hold ∈ s.entryHolds, ¬ Covers hold.2 context.accountId := by
  simp only [assertEntryEpoch, assertEpoch, bind_eq_ok, throwIf_eq_ok, assertContext_ok_iff,
    List.any_eq_true, decide_eq_true_eq, not_exists, not_and, not_not, ne_eq, and_true,
    exists_const, and_assoc]

theorem hold_kept {hold : ℕ × Option String} (hne : action ≠ .release hold.1)
    (hmem : hold ∈ s.entryHolds) (h : step s action = some t) : hold ∈ t.entryHolds := by
  cases step_sound h with
  | fence scope =>
    rw [(fenceEntries_calls scope).2.2.2.2]
    exact hmem
  | hold scope =>
    rw [holdEntries]
    apply List.mem_cons_of_mem
    rw [(fenceEntries_calls scope).2.2.2.2]
    exact hmem
  | release token =>
    rw [releaseHold, List.mem_filter]
    refine ⟨hmem, ?_⟩
    rw [decide_eq_true_eq]
    intro heq
    exact hne (by rw [heq])
  | _ => exact hmem

end Fences

/-- Any interleaving of runs, nested runs, fences, holds and releases. -/
theorem coordinator_serializes_and_fences (actions : List Action) (s : Coordinator)
    (h : run step initial actions = some s) :
    (∀ c ∈ s.contexts, ∀ d ∈ s.contexts, c.accountId = d.accountId → c = d) ∧
    (∀ before after i j accountId, actions = before ++ .resume j :: after → i < j →
      (calledAccounts actions)[i]? = some accountId →
      (calledAccounts actions)[j]? = some accountId →
        .resume i ∈ before ∧ .finish i ∈ before) ∧
    (∀ context accountId, s.assertContext context accountId = .ok () ↔
      context.accountId = accountId ∧ (calledAccounts actions)[context.ticket]? = some accountId ∧
        .resume context.ticket ∈ actions ∧ .finish context.ticket ∉ actions) ∧
    (∀ before between fenced after scope captured,
      actions = before ++ between ++ fenced :: after →
      fenced = .fence scope ∨ fenced = .hold scope →
      run step initial before = some captured →
        ∀ context : TradingMutationContext, Covers scope context.accountId →
          s.assertEntryEpoch context (captured.entryEpoch context.accountId) ≠ .ok ()) ∧
    (∀ before after scope captured, actions = before ++ .hold scope :: after →
      run step initial before = some captured → .release captured.nextToken ∉ after →
        ∀ (context : TradingMutationContext) epoch, Covers scope context.accountId →
          s.assertEntryEpoch context epoch ≠ .ok ()) := by
  have hrec := recorded h
  refine ⟨?_, ?_, hrec.assertContext_iff, ?_, ?_⟩
  · intro c hc d hd heq
    exact hrec.ordered.owner_unique hc hd heq
  · intro before after i j accountId hsplit hlt hi hj
    exact sequential h hsplit hlt hi hj
  · intro before between fenced after scope captured hsplit hfenced hcapt context hcovers hok
    rw [hsplit, run_append] at h
    obtain ⟨m, hm, hrest⟩ := h
    obtain ⟨m₀, hm₀, hbetween⟩ := run_append.mp hm
    obtain rfl : captured = m₀ := Option.some.inj (hcapt.symm.trans hm₀)
    obtain ⟨n, hn, hafter⟩ := run_cons.mp hrest
    have hstart : epochRank context.accountId captured ≤ epochRank context.accountId m :=
      run_monotone (fun _ _ _ => rank_le_step) hbetween
    have hfence : epochRank context.accountId m < epochRank context.accountId n :=
      rank_lt_fence hcovers hfenced hn
    have hend : epochRank context.accountId n ≤ epochRank context.accountId s :=
      run_monotone (fun _ _ _ => rank_le_step) hafter
    obtain ⟨hglobal, hacc⟩ := entryEpoch_injective (assertEntryEpoch_ok_iff.mp hok).2.1
    simp only [epochRank] at hstart hfence hend
    omega
  · intro before after scope captured hsplit hcapt hunreleased context epoch hcovers hok
    rw [hsplit, run_append] at h
    obtain ⟨m, hm, hrest⟩ := h
    obtain rfl : captured = m := Option.some.inj (hcapt.symm.trans hm)
    obtain ⟨n, hn, hafter⟩ := run_cons.mp hrest
    have hheld : (captured.nextToken, scope) ∈ n.entryHolds := by
      cases step_sound hn with
      | hold => exact List.mem_cons_self
    have hkept : (captured.nextToken, scope) ∈ s.entryHolds := by
      apply run_preserves (P := fun m => (captured.nextToken, scope) ∈ m.entryHolds) _ hheld hafter
      intro m action m' haction hmem hm'
      apply hold_kept _ hmem hm'
      intro heq
      rw [heq] at haction
      exact hunreleased haction
    exact (assertEntryEpoch_ok_iff.mp hok).2.2 _ hkept hcovers

/-- Two runs of one account, a stop while the first one is active, and its early release. -/
def stoppedRun : List Action :=
  [.call "a", .call "a", .resume 0, .nested "a" ⟨0, "a"⟩, .hold (some "a"), .hold none, .release 0,
    .settle 0 true, .finish 0, .resume 1]

theorem coordinator_serializes_and_fences_stopped_run : ∃ s, run step initial stoppedRun = some s ∧
    s.assertContext ⟨1, "a"⟩ "a" = .ok () ∧
    s.assertContext ⟨0, "a"⟩ "a" ≠ .ok () ∧
    s.assertEntryEpoch ⟨1, "a"⟩ (initial.entryEpoch "a") ≠ .ok () ∧
    s.assertEntryEpoch ⟨1, "a"⟩ (s.entryEpoch "a") ≠ .ok () := by
  have hsome : (run step initial stoppedRun).isSome = true := by decide
  obtain ⟨s, hs⟩ := Option.isSome_iff_exists.mp hsome
  obtain ⟨captured, hcapt⟩ := Option.isSome_iff_exists.mp
    (show (run step initial (stoppedRun.take 5)).isSome = true by decide)
  have htoken : (run step initial (stoppedRun.take 5)).map (·.nextToken) = some 1 := by decide
  have hnext : captured.nextToken = 1 := by simpa [hcapt] using htoken
  obtain ⟨-, -, hctx, hfence, hhold⟩ := coordinator_serializes_and_fences stoppedRun s hs
  refine ⟨s, hs, (hctx ⟨1, "a"⟩ "a").mpr (by decide), ?_, ?_, ?_⟩
  · rw [ne_eq, hctx]
    decide
  · exact hfence [] (stoppedRun.take 4) (.hold (some "a")) (stoppedRun.drop 5)
      (some "a") initial rfl
      (.inr rfl) rfl ⟨1, "a"⟩ (.inr rfl)
  · exact hhold (stoppedRun.take 5) (stoppedRun.drop 6) none captured rfl hcapt
      (by rw [hnext]; decide) ⟨1, "a"⟩ _ (.inl rfl)

end TsxCore.TradingMutationCoordinator
