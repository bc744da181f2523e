import TsxCore.JsRuntime
import TsxCore.Trace

/-!
# Cancel budgets (`trading_cancel_budget.ts`)

Every owner has one budget of five cancel attempts, made by its outermost call of
`withCancelBudget` and live until that call settles. The budget travels with the
asynchronous context: whatever runs in a call, and whatever it leaves behind, sees the
budget of that call, so a context is the number of its call, or none outside every call.
A budget is made once for an owner and never replaced; the owner stands for its identity.
A permit stands for its place among the issued ones.
-/

namespace TsxCore.TradingCancelBudget

open Outcome Trace

def MAX_CANCEL_ATTEMPTS : ℕ := 5

structure Budget where
  accountId : String
  remaining : ℕ
  active : Bool

structure CancelAttemptPermit where
  accountId : String
  clientOrderId : String

/-- What the map `permits` holds of an issued permit. -/
structure PermitRecord (Owner : Type) where
  permit : CancelAttemptPermit
  budget : Owner
  used : Bool

/-- A call whose operation was started; `created` when it made the budget itself. -/
structure Call (Owner : Type) where
  owner : Owner
  created : Bool

structure State (Owner : Type) where
  budgets : Owner → Option Budget
  calls : List (Call Owner)
  permits : List (PermitRecord Owner)

variable {Owner : Type}

def initial : State Owner := ⟨fun _ => none, [], []⟩

/-- The owner whose budget the code of a context sees. -/
def State.storeOwner (s : State Owner) (context : Option ℕ) : Option Owner :=
  context.bind (fun call => (s.calls[call]?).map (·.owner))

/-- `current.getStore()`. -/
def State.getStore (s : State Owner) (context : Option ℕ) : Option (Owner × Budget) :=
  (s.storeOwner context).bind (fun owner => (s.budgets owner).map (fun budget => (owner, budget)))

/-- `budget.active` of the budget that a permit was claimed from. -/
def State.isActive (s : State Owner) (owner : Owner) : Bool :=
  (s.budgets owner).elim false (·.active)

section Operations

variable [DecidableEq Owner] (accountId : Owner → String)

def State.setBudget (s : State Owner) (owner : Owner) (budget : Budget) : State Owner :=
  { s with budgets := Function.update s.budgets owner (some budget) }

/-- `withCancelBudget` up to the start of the operation; the number of the call is its context. -/
def withCancelBudget (s : State Owner) (owner : Owner) : Outcome (State Owner × ℕ) :=
  match s.budgets owner with
  | some existing => do
    throwIf (existing.active = false) (.error "Cancel budget owner context expired.")
    return ({ s with calls := s.calls ++ [⟨owner, false⟩] }, s.calls.length)
  | none =>
    return ({ s.setBudget owner ⟨accountId owner, MAX_CANCEL_ATTEMPTS, true⟩ with
      calls := s.calls ++ [⟨owner, true⟩] }, s.calls.length)

/-- The `finally` block, once the operation returned or threw. -/
def settleCancelBudget (s : State Owner) (call : Call Owner) : State Owner :=
  match call.created, s.budgets call.owner with
  | true, some budget => s.setBudget call.owner { budget with active := false }
  | _, _ => s

def lacksContext : Thrown := .error "Cancellation lacks its live account context."

def budgetExhausted : Thrown :=
  ⟨"CancelBudgetExhaustedError", none, "Shared account cancellation budget exhausted."⟩

def invalidPermit : Thrown := .error "Cancel permit is invalid, consumed or expired."

def claimCancelAttempt (s : State Owner) (context : Option ℕ) (accountId clientOrderId : String) :
    Outcome (State Owner × ℕ) :=
  match s.getStore context with
  | none => throw lacksContext
  | some (owner, budget) => do
    throwIf (budget.active = false ∨ budget.accountId ≠ accountId) lacksContext
    throwIf (budget.remaining ≤ 0) budgetExhausted
    return ({ s.setBudget owner { budget with remaining := budget.remaining - 1 } with
      permits := s.permits ++ [⟨⟨accountId, clientOrderId⟩, owner, false⟩] }, s.permits.length)

def assertLiveCancelPermit (s : State Owner) (context : Option ℕ) (permit : ℕ) :
    Outcome (PermitRecord Owner) :=
  match s.permits[permit]? with
  | none => throw invalidPermit
  | some record => do
    throwIf (record.used = true ∨ s.isActive record.budget = false ∨
      s.storeOwner context ≠ some record.budget) invalidPermit
    return record

def assertMatchingCancelPermit (permit : CancelAttemptPermit) (accountId clientOrderId : String) :
    Outcome Unit :=
  throwIf (permit.accountId ≠ accountId ∨ permit.clientOrderId ≠ clientOrderId) invalidPermit

def consumeCancelAttempt (s : State Owner) (context : Option ℕ) (permit : ℕ)
    (accountId clientOrderId : String) : Outcome (State Owner) := do
  let record ← assertLiveCancelPermit s context permit
  assertMatchingCancelPermit record.permit accountId clientOrderId
  return { s with permits := s.permits.set permit { record with used := true } }

end Operations

section Steps

/-- A segment of the program that reaches the module; where a call is made from makes no
difference to it, since its operation gets a context of its own. -/
inductive Action (Owner : Type)
  | enter (owner : Owner)
  | settle (call : ℕ)
  | claim (context : Option ℕ) (accountId clientOrderId : String)
  | consume (context : Option ℕ) (permit : ℕ) (accountId clientOrderId : String)

inductive Answer
  | entered (call : ℕ)
  | settled
  | permit (permit : ℕ)
  | consumed
  | threw (thrown : Thrown)
  deriving DecidableEq

abbrev Event (Owner : Type) := Action Owner × Answer

variable [DecidableEq Owner] (accountId : Owner → String)

def answered (s : State Owner) {α : Type} (answer : α → State Owner × Answer) :
    Outcome α → State Owner × Answer
  | .ok result => answer result
  | .error thrown => (s, .threw thrown)

def perform (s : State Owner) : Action Owner → Option (State Owner × Answer)
  | .enter owner =>
    some (answered s (fun result => (result.1, .entered result.2))
      (withCancelBudget accountId s owner))
  | .settle call => (s.calls[call]?).map (fun call => (settleCancelBudget s call, .settled))
  | .claim context accountId clientOrderId =>
    some (answered s (fun result => (result.1, .permit result.2))
      (claimCancelAttempt s context accountId clientOrderId))
  | .consume context permit accountId clientOrderId =>
    some (answered s (fun result => (result, .consumed))
      (consumeCancelAttempt s context permit accountId clientOrderId))

/-- An event is an action together with the answer that it was given. -/
def step (s : State Owner) (event : Event Owner) : Option (State Owner) :=
  (perform accountId s event.1).bind (fun result =>
    if result.2 = event.2 then some result.1 else none)

variable {accountId} {s t : State Owner} {event : Event Owner} {owner : Owner} {context : Option ℕ}
  {account order : String} {call permit : ℕ}

theorem withCancelBudget_ok (h : withCancelBudget accountId s owner = .ok (t, call)) :
    call = s.calls.length ∧
      ((s.budgets owner = none ∧
          t = { s.setBudget owner ⟨accountId owner, MAX_CANCEL_ATTEMPTS, true⟩ with
            calls := s.calls ++ [⟨owner, true⟩] }) ∨
        ((s.budgets owner).isSome ∧ t = { s with calls := s.calls ++ [⟨owner, false⟩] })) := by
  unfold withCancelBudget at h
  cases hbud : s.budgets owner with
  | none =>
    rw [hbud, pure_eq_ok_iff, Prod.mk.injEq] at h
    obtain ⟨rfl, rfl⟩ := h
    exact ⟨rfl, .inl ⟨rfl, rfl⟩⟩
  | some existing =>
    simp only [hbud, bind_eq_ok, pure_eq_ok_iff, Prod.mk.injEq] at h
    obtain ⟨-, -, rfl, rfl⟩ := h
    exact ⟨rfl, .inr ⟨rfl, rfl⟩⟩

omit [DecidableEq Owner] in
theorem getStore_eq_some {budget : Budget} :
    s.getStore context = some (owner, budget) ↔
      s.storeOwner context = some owner ∧ s.budgets owner = some budget := by
  simp only [State.getStore, Option.bind_eq_some_iff, Option.map_eq_some_iff, Prod.mk.injEq]
  constructor
  · rintro ⟨_, hstore, _, hbud, rfl, rfl⟩
    exact ⟨hstore, hbud⟩
  · rintro ⟨hstore, hbud⟩
    exact ⟨_, hstore, _, hbud, rfl, rfl⟩

theorem claimCancelAttempt_ok (h : claimCancelAttempt s context account order = .ok (t, permit)) :
    permit = s.permits.length ∧ ∃ owner budget, s.storeOwner context = some owner ∧
      s.budgets owner = some budget ∧ budget.active = true ∧ budget.accountId = account ∧
      0 < budget.remaining ∧
      t = { s.setBudget owner { budget with remaining := budget.remaining - 1 } with
        permits := s.permits ++ [⟨⟨account, order⟩, owner, false⟩] } := by
  unfold claimCancelAttempt at h
  cases hstore : s.getStore context with
  | none =>
    rw [hstore] at h
    cases h
  | some found =>
    obtain ⟨owner, budget⟩ := found
    simp only [hstore, bind_eq_ok, throwIf_eq_ok, pure_eq_ok_iff, Prod.mk.injEq, not_or,
      Bool.not_eq_false, ne_eq, not_not, not_le] at h
    obtain ⟨-, ⟨hact, hacc⟩, -, hrem, rfl, rfl⟩ := h
    obtain ⟨howner, hbud⟩ := getStore_eq_some.mp hstore
    exact ⟨rfl, owner, budget, howner, hbud, hact, hacc, hrem, rfl⟩

theorem consumeCancelAttempt_ok
    (h : consumeCancelAttempt s context permit account order = .ok t) :
    ∃ owner, s.permits[permit]? = some ⟨⟨account, order⟩, owner, false⟩ ∧
      s.isActive owner = true ∧ s.storeOwner context = some owner ∧
      t = { s with permits := s.permits.set permit ⟨⟨account, order⟩, owner, true⟩ } := by
  simp only [consumeCancelAttempt, assertLiveCancelPermit, assertMatchingCancelPermit, bind_eq_ok,
    throwIf_eq_ok, pure_eq_ok_iff] at h
  obtain ⟨record, hlive, -, hmatching, rfl⟩ := h
  cases hpermit : s.permits[permit]? with
  | none =>
    rw [hpermit] at hlive
    cases hlive
  | some found =>
    simp only [hpermit, bind_eq_ok, throwIf_eq_ok, pure_eq_ok_iff, not_or, Bool.not_eq_true,
      Bool.not_eq_false, ne_eq, not_not] at hlive hmatching
    obtain ⟨-, ⟨hused, hact, hstore⟩, rfl⟩ := hlive
    obtain ⟨⟨account', order'⟩, owner, used⟩ := found
    obtain ⟨rfl, rfl⟩ := hmatching
    subst hused
    exact ⟨owner, rfl, hact, hstore, rfl⟩

theorem step_cases (h : step accountId s event = some t) :
    (∃ owner call, event = (.enter owner, .entered call) ∧
      withCancelBudget accountId s owner = .ok (t, call)) ∨
    (∃ number call, event = (.settle number, .settled) ∧ s.calls[number]? = some call ∧
      t = settleCancelBudget s call) ∨
    (∃ context account order permit, event = (.claim context account order, .permit permit) ∧
      claimCancelAttempt s context account order = .ok (t, permit)) ∨
    (∃ context permit account order, event = (.consume context permit account order, .consumed) ∧
      consumeCancelAttempt s context permit account order = .ok t) ∨
    ∃ action thrown, event = (action, .threw thrown) ∧ t = s := by
  obtain ⟨action, answer⟩ := event
  simp only [step, Option.bind_eq_some_iff, Option.ite_none_right_eq_some, Option.some.injEq] at h
  obtain ⟨⟨_, _⟩, hperf, rfl, rfl⟩ := h
  cases action with
  | enter owner =>
    simp only [perform, Option.some.injEq] at hperf
    cases hres : withCancelBudget accountId s owner with
    | ok result =>
      rw [hres] at hperf
      cases hperf
      exact .inl ⟨owner, result.2, rfl, hres⟩
    | error thrown =>
      rw [hres] at hperf
      cases hperf
      exact .inr (.inr (.inr (.inr ⟨_, thrown, rfl, rfl⟩)))
  | settle number =>
    simp only [perform, Option.map_eq_some_iff] at hperf
    obtain ⟨call, hcall, heq⟩ := hperf
    cases heq
    exact .inr (.inl ⟨number, call, rfl, hcall, rfl⟩)
  | claim context account order =>
    simp only [perform, Option.some.injEq] at hperf
    cases hres : claimCancelAttempt s context account order with
    | ok result =>
      rw [hres] at hperf
      cases hperf
      exact .inr (.inr (.inl ⟨context, account, order, result.2, rfl, hres⟩))
    | error thrown =>
      rw [hres] at hperf
      cases hperf
      exact .inr (.inr (.inr (.inr ⟨_, thrown, rfl, rfl⟩)))
  | consume context permit account order =>
    simp only [perform, Option.some.injEq] at hperf
    cases hres : consumeCancelAttempt s context permit account order with
    | ok result =>
      rw [hres] at hperf
      cases hperf
      exact .inr (.inr (.inr (.inl ⟨context, permit, account, order, rfl, hres⟩)))
    | error thrown =>
      rw [hres] at hperf
      cases hperf
      exact .inr (.inr (.inr (.inr ⟨_, thrown, rfl, rfl⟩)))

end Steps

end TsxCore.TradingCancelBudget
