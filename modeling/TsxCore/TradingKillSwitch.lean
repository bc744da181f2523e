import TsxCore.OutcomeErrors
import TsxCore.TradingMutationCoordinator
import TsxCore.TradingRuntimeState

/-!
# The global kill switch (`trading_web_control.ts`, `trading_runtime_release.ts`)

One statement of the database, or one synchronous segment, is one action. The statements of
`updateTradingRuntimeState` are two actions unless a transaction of a release surrounds
them; while a release holds its transaction no other statement runs. The accounts that a
release must cover are read with `tradingAccountTargetIds` and may change with any other
statement. A release may fail at any point, as the proofs of its accounts and its network
reads do. Positions number the actions; only the statements below read them.
-/

namespace TsxCore.TradingRuntime

open Outcome TradingMutationCoordinator

inductive UpdatePhase
  | called
  | read (current : TradingRuntimeState)
  | done
  | failed
  deriving DecidableEq

/-- A call of `updateTradingRuntimeState`; an activation began with its fence. -/
structure UpdateCall where
  update : RuntimeUpdate
  begunAt : ℕ
  phase : UpdatePhase

/-- Where `releaseGlobalTradingKillSwitch` is; `next` is the row that its transaction wrote. -/
inductive ReleasePhase
  | authorized
  | started
  | active
  | targeted
  | requested
  | begun
  | proving
  | proved
  | written (next : TradingRuntimeState)
  | reproving (next : TradingRuntimeState)
  | reproved (next : TradingRuntimeState)
  | scoped (next : TradingRuntimeState)
  | checked (next : TradingRuntimeState)
  | committed
  | failed
  deriving DecidableEq

structure ReleaseCall where
  context : TradingMutationContext
  authority : String
  ids : List String
  epochs : String → String
  owners : List TradingMutationContext
  phase : ReleasePhase
  authorizedAt : ℕ
  requestedAt : ℕ
  checkedAt : ℕ

structure State where
  row : TradingRuntimeState
  targets : List String
  mutations : Coordinator
  updates : List UpdateCall
  releases : List ReleaseCall
  /-- The release whose transaction is open. -/
  owner : Option ℕ
  fences : List (ℕ × Option String)
  position : ℕ

inductive Action
  /-- A segment of a run, a fence, a hold or a release of a hold. -/
  | coordinator (action : TradingMutationCoordinator.Action)
  | changeTargets (ids : List String)
  | call (update : RuntimeUpdate)
  /-- The call of an activation whose fence was at `begunAt`. -/
  | activate (reason : String) (begunAt : ℕ)
  | readRuntime (call : ℕ)
  | writeRuntime (call : ℕ) (now : ℤ)
  | authorize
  | start (release : ℕ) (context : TradingMutationContext)
  | readActive (release : ℕ)
  | readTargets (release : ℕ)
  | request (release : ℕ)
  | own (release : ℕ) (context : TradingMutationContext)
  | assertPrepared (release : ℕ) (prepared : ℕ)
  | beginTransaction (release : ℕ)
  | assertOwners (release : ℕ)
  | writeRelease (release : ℕ) (now : ℤ)
  | assertScope (release : ℕ)
  | commit (release : ℕ)
  | abort (release : ℕ)

/-- The scope of a fence, for the two actions that fence entries. -/
def fenceOf : TradingMutationCoordinator.Action → Option (Option String)
  | .fence scope => some scope
  | .hold scope => some scope
  | _ => none

namespace ReleaseCall

def assertAuthority (r : ReleaseCall) (mutations : Coordinator) : Outcome Unit :=
  mutations.assertEpoch r.context r.authority

/-- `assertOwners` for the first `prepared` owners. -/
def assertOwners (r : ReleaseCall) (prepared : ℕ) (mutations : Coordinator) : Outcome Unit := do
  r.assertAuthority mutations
  (r.owners.take prepared).forM
    (fun owner => mutations.assertEpoch owner (r.epochs owner.accountId))

end ReleaseCall

/-- What follows each `assertOwners` inside of the transaction. -/
def ReleasePhase.asserted : ReleasePhase → Option ReleasePhase
  | .begun => some .proving
  | .proving => some .proved
  | .written next => some (.reproving next)
  | .reproving next => some (.reproved next)
  | .scoped next => some (.checked next)
  | _ => none

def ReleasePhase.inTransaction : ReleasePhase → Bool
  | .begun | .proving | .proved | .written _ | .reproving _ | .reproved _ | .scoped _
  | .checked _ => true
  | _ => false

def ReleasePhase.ended : ReleasePhase → Bool
  | .committed | .failed => true
  | _ => false

namespace State

def setRelease (s : State) (i : ℕ) (r : ReleaseCall) (phase : ReleasePhase) : State :=
  { s with releases := s.releases.set i { r with phase := phase } }

def fail (s : State) (i : ℕ) (r : ReleaseCall) : State :=
  { s.setRelease i r .failed with owner := if s.owner = some i then none else s.owner }

/-- A guard of the release: it throws, or the release goes on. -/
def guarded (s : State) (i : ℕ) (r : ReleaseCall) (guard : Outcome Unit) (next : State) : State :=
  match guard with
  | .ok () => next
  | .error _ => s.fail i r

def setUpdate (s : State) (i : ℕ) (u : UpdateCall) (phase : UpdatePhase) : State :=
  { s with updates := s.updates.set i { u with phase := phase } }

end State

open State

def releaseIn (s : State) (i : ℕ) (phase : ReleasePhase) : Option ReleaseCall :=
  s.releases[i]?.filter (·.phase = phase)

/-- A segment or a statement; `none` while it cannot run. -/
def perform (s : State) : Action → Option State
  | .coordinator action => do
    let mutations ← TradingMutationCoordinator.step s.mutations action
    return { s with
      mutations := mutations
      fences := (fenceOf action).toList.map (fun scope => (s.position, scope)) ++ s.fences }
  | .changeTargets ids => do
    guard (s.owner = none)
    return { s with targets := ids }
  | .call (.activation _) => none
  | .call update => some { s with updates := s.updates ++ [⟨update, s.position, .called⟩] }
  | .activate reason begunAt => do
    guard ((begunAt, none) ∈ s.fences)
    return { s with updates := s.updates ++ [⟨.activation reason, begunAt, .called⟩] }
  | .readRuntime i => do
    guard (s.owner = none)
    let u ← s.updates[i]?.filter (·.phase = .called)
    return s.setUpdate i u (.read s.row)
  | .writeRuntime i now => do
    guard (s.owner = none)
    let u ← s.updates[i]?
    let .read current := u.phase | none
    match nextRuntimeState u.update.input now current with
    | .ok next => return { s.setUpdate i u .done with row := next }
    | .error _ => return s.setUpdate i u .failed
  | .authorize => some { s with releases := s.releases ++ [{
      context := ⟨0, ""⟩, authority := s.mutations.entryEpoch "@runtime", ids := [],
      epochs := fun _ => "", owners := [], phase := .authorized, authorizedAt := s.position,
      requestedAt := 0, checkedAt := 0 }] }
  | .start i context => do
    let r ← releaseIn s i .authorized
    guard (context.accountId = "@runtime")
    let started := { r with context := context }
    return s.guarded i started (started.assertAuthority s.mutations)
      (s.setRelease i started .started)
  | .readActive i => do
    guard (s.owner = none)
    let r ← releaseIn s i .started
    return s.guarded i r (throwIf (s.row.killSwitchActive = false)
      (.error "Global kill switch is not active.")) (s.setRelease i r .active)
  | .readTargets i => do
    guard (s.owner = none)
    let r ← releaseIn s i .active
    return s.guarded i r (throwIf (s.targets = [])
      (.error "No enabled, verified trading account is available."))
      (s.setRelease i { r with ids := s.targets } .targeted)
  | .request i => do
    let r ← releaseIn s i .targeted
    return s.setRelease i { r with epochs := s.mutations.entryEpoch, requestedAt := s.position }
      .requested
  | .own i context => do
    let r ← releaseIn s i .requested
    guard (r.ids[r.owners.length]? = some context.accountId)
    return s.guarded i r (s.mutations.assertEpoch context (r.epochs context.accountId))
      (s.setRelease i { r with owners := r.owners ++ [context] } .requested)
  | .assertPrepared i prepared => do
    let r ← releaseIn s i .requested
    return s.guarded i r (r.assertOwners prepared s.mutations) s
  | .beginTransaction i => do
    guard (s.owner = none)
    let r ← releaseIn s i .requested
    guard (r.owners.map (·.accountId) = r.ids)
    return s.guarded i r (do
      throwIf (s.targets ≠ r.ids)
        (.error "ACCOUNT_SCOPE_CHANGED: Trading accounts changed during global release.")
      throwIf (s.row.killSwitchActive = false) (.error "Global kill switch is no longer active."))
      { s.setRelease i r .begun with owner := some i }
  | .assertOwners i => do
    let r ← s.releases[i]?
    let phase ← r.phase.asserted
    return s.guarded i r (r.assertOwners r.owners.length s.mutations)
      (s.setRelease i { r with checkedAt := s.position } phase)
  | .writeRelease i now => do
    let r ← releaseIn s i .proved
    match nextRuntimeState releaseInput now s.row with
    | .ok next => return s.setRelease i r (.written next)
    | .error _ => return s.fail i r
  | .assertScope i => do
    let r ← s.releases[i]?
    let .reproved next := r.phase | none
    return s.guarded i r (throwIf (s.targets ≠ r.ids)
      (.error "ACCOUNT_SCOPE_CHANGED: Trading accounts changed during global release."))
      (s.setRelease i r (.scoped next))
  | .commit i => do
    let r ← s.releases[i]?
    let .checked next := r.phase | none
    return { s.setRelease i r .committed with row := next, owner := none }
  | .abort i => do
    let r ← s.releases[i]?
    guard (r.phase.ended = false)
    return s.fail i r

def step (s : State) (action : Action) : Option State :=
  (perform s action).map (fun t => { t with position := s.position + 1 })

section Invariant

variable {s t : State} {i j : ℕ} {r : ReleaseCall} {a : String} {c : Coordinator}
  {mutations : Coordinator} {r' : ReleaseCall} {next : State}
  {action : TradingMutationCoordinator.Action}

/-- The fences that concern an account, from a position on, are still visible in its epoch. -/
def Since (c : Coordinator) (position : ℕ) (s : State) : Prop :=
  ∀ a, epochRank a c ≤ epochRank a s.mutations ∧
    ∀ f ∈ s.fences, position ≤ f.1 → Covers f.2 a → epochRank a c < epochRank a s.mutations

/-- No fence stood between the request and the last assertion of the owners. -/
structure Clean (r : ReleaseCall) (s : State) : Prop where
  past : r.checkedAt < s.position
  runtime : ∀ f ∈ s.fences, r.authorizedAt ≤ f.1 → f.1 < r.checkedAt → f.2 ≠ none
  accounts : ∀ f ∈ s.fences, r.requestedAt ≤ f.1 → f.1 < r.checkedAt → ∀ id ∈ r.ids, ¬ Covers f.2 id

def ReleasePhase.hasEpochs : ReleasePhase → Bool
  | .requested | .committed => true
  | phase => phase.inTransaction

def ReleasePhase.isChecked : ReleasePhase → Bool
  | .checked _ => true
  | _ => false

/-- The row that a release wrote in its transaction. -/
def ReleasePhase.wrote : ReleasePhase → Option TradingRuntimeState
  | .written next | .reproving next | .reproved next | .scoped next | .checked next => some next
  | _ => none

theorem ReleasePhase.inTransaction_of_wrote {phase : ReleasePhase} {next : TradingRuntimeState}
    (h : phase.wrote = some next) : phase.inTransaction = true := by
  cases phase <;> first | rfl | cases h

structure Sound (s : State) (i : ℕ) (r : ReleaseCall) : Prop where
  opened : r.authorizedAt < s.position
  order : r.phase.hasEpochs = true → r.authorizedAt ≤ r.requestedAt
  context : r.phase ≠ .authorized → r.phase ≠ .failed → r.context.accountId = "@runtime"
  authority : ∃ c, r.authority = c.entryEpoch "@runtime" ∧ Since c r.authorizedAt s
  epochs : r.phase.hasEpochs = true →
    ∃ c, (∀ a, r.epochs a = c.entryEpoch a) ∧ Since c r.requestedAt s
  owner : r.phase.inTransaction = true → s.owner = some i
  scope : r.phase.inTransaction = true → s.targets = r.ids ∧ r.owners.map (·.accountId) = r.ids
  clean : r.phase.isChecked = true ∨ r.phase = .committed → Clean r s
  wrote : r.phase.wrote = none ∨
    ∃ next, r.phase.wrote = some next ∧ OnlyNamed releaseInput s.row next

def Begun (u : UpdateCall) : Prop :=
  (∃ reason, u.update = .activation reason) ∧
    ((∃ current, u.phase = .read current) ∨ u.phase = .done)

structure Invariant (s : State) : Prop where
  past : ∀ f ∈ s.fences, f.1 < s.position
  activations : ∀ u ∈ s.updates, ∀ reason, u.update = .activation reason →
    (u.begunAt, none) ∈ s.fences
  releases : ∀ i r, s.releases[i]? = some r → Sound s i r
  unchecked : ∀ u ∈ s.updates, Begun u → ∀ (i : ℕ) r, s.releases[i]? = some r →
    r.authorizedAt ≤ u.begunAt → r.phase.isChecked = false

theorem Since.now (s : State) (h : ∀ f ∈ s.fences, f.1 < s.position) :
    Since s.mutations s.position s := by
  intro a
  refine ⟨le_rfl, ?_⟩
  intro f hf hle
  exact absurd (h f hf) (by omega)

theorem Since.same {position : ℕ} (h : Since c position s) (hmuts : t.mutations = s.mutations)
    (hfences : t.fences = s.fences) : Since c position t := by
  intro a
  rw [hmuts, hfences]
  exact h a

theorem Sound.elsewhere (h : Sound s i r) (hmuts : t.mutations = s.mutations)
    (hfences : t.fences = s.fences) (hposn : s.position ≤ t.position)
    (howner : r.phase.inTransaction = true → t.owner = some i)
    (htgts : r.phase.inTransaction = true → t.targets = s.targets ∧ t.row = s.row) :
    Sound t i r := by
  obtain ⟨c, hc, hsince⟩ := h.authority
  refine ⟨h.opened.trans_le hposn, h.order, h.context,
    ⟨c, hc, hsince.same hmuts hfences⟩, ?_, howner, ?_, ?_, ?_⟩
  · intro hphase
    obtain ⟨d, hd, hsince'⟩ := h.epochs hphase
    exact ⟨d, hd, hsince'.same hmuts hfences⟩
  · intro hphase
    rw [(htgts hphase).1]
    exact h.scope hphase
  · intro hphase
    have hclean := h.clean hphase
    refine ⟨hclean.past.trans_le hposn, ?_, ?_⟩
    · rw [hfences]
      exact hclean.runtime
    · rw [hfences]
      exact hclean.accounts
  · obtain hnone | ⟨next, hnext, hnamed⟩ := h.wrote
    · exact .inl hnone
    · rw [(htgts (ReleasePhase.inTransaction_of_wrote hnext)).2]
      exact .inr ⟨next, hnext, hnamed⟩

theorem assertEpoch_ok {context : TradingMutationContext} {epoch : String}
    (h : mutations.assertEpoch context epoch = .ok ()) :
    mutations.entryEpoch context.accountId = epoch := by
  rw [Coordinator.assertEpoch, bind_eq_ok] at h
  obtain ⟨_, -, h⟩ := h
  rw [throwIf_eq_ok] at h
  exact not_not.mp h

theorem assertOwners_ok {prepared : ℕ} (h : r.assertOwners prepared mutations = .ok ()) :
    mutations.assertEpoch r.context r.authority = .ok () ∧
      ∀ owner ∈ r.owners.take prepared, mutations.entryEpoch owner.accountId =
        r.epochs owner.accountId := by
  rw [ReleaseCall.assertOwners, bind_eq_ok] at h
  obtain ⟨_, hauthy, hall⟩ := h
  refine ⟨hauthy, ?_⟩
  intro owner howner
  by_contra hne
  exact forM_ne_ok howner (fun hok => hne (assertEpoch_ok hok)) _ hall

theorem Sound.failed (h : Sound s i r) (hauthy : r'.authority = r.authority)
    (hauth : r'.authorizedAt = r.authorizedAt) (hphase : r'.phase = .failed)
    (hmuts : t.mutations = s.mutations) (hfences : t.fences = s.fences)
    (hposn : s.position ≤ t.position) : Sound t i r' := by
  obtain ⟨c, hc, hsince⟩ := h.authority
  refine ⟨hauth ▸ h.opened.trans_le hposn, ?_, fun _ hne => absurd hphase hne,
    ⟨c, hauthy.trans hc, hauth ▸ hsince.same hmuts hfences⟩, ?_, ?_, ?_, ?_, .inl (hphase ▸ rfl)⟩
  all_goals
    rw [hphase]
    intro hfalse
    simp [ReleasePhase.hasEpochs, ReleasePhase.inTransaction, ReleasePhase.isChecked] at hfalse

theorem getElem?_set_iff {α : Type} {l : List α} {x y z : α} (hx : l[i]? = some x) :
    (l.set i y)[j]? = some z ↔ (j = i ∧ z = y) ∨ (j ≠ i ∧ l[j]? = some z) := by
  have hlt : i < l.length := (List.getElem?_eq_some_iff.mp hx).1
  by_cases hj : i = j
  · subst hj
    rw [List.getElem?_set_self hlt]
    simp [eq_comm]
  · rw [List.getElem?_set_ne hj]
    simp [Ne.symm hj]

theorem Invariant.move (h : Invariant s) (hr : s.releases[i]? = some r)
    (hreleases : t.releases = s.releases.set i r') (hmuts : t.mutations = s.mutations)
    (hfences : t.fences = s.fences) (hupdates : t.updates = s.updates)
    (htgts : t.targets = s.targets) (hposn : t.position = s.position + 1)
    (howner : t.owner = s.owner ∨ (s.owner = none) ∨ (s.owner = some i))
    (hrow : t.row = s.row ∨ s.owner = some i) (hsound : Sound t i r')
    (hauth : r'.authorizedAt = r.authorizedAt)
    (hunchecked : r'.phase.isChecked = true → ∀ u ∈ s.updates, Begun u →
      u.begunAt < r.authorizedAt) :
    Invariant t := by
  refine ⟨?_, ?_, ?_, ?_⟩
  · rw [hfences, hposn]
    exact fun f hf => (h.past f hf).trans (Nat.lt_succ_self _)
  · rw [hupdates, hfences]
    exact h.activations
  · intro j q hq
    rw [hreleases, getElem?_set_iff hr] at hq
    rcases hq with ⟨rfl, rfl⟩ | ⟨hne, hq⟩
    · exact hsound
    · have hother := h.releases j q hq
      refine hother.elsewhere hmuts hfences (by omega) ?_ ?_
      · intro hphase
        have hj := hother.owner hphase
        rcases howner with hsame | hnone | hi
        · rw [hsame, hj]
        · rw [hnone] at hj
          cases hj
        · rw [hi, Option.some.injEq] at hj
          exact absurd hj.symm hne
      · intro hphase
        refine ⟨htgts, hrow.resolve_right ?_⟩
        intro hi
        rw [hother.owner hphase, Option.some.injEq] at hi
        exact hne hi
  · rw [hupdates]
    intro u hu hbegun j q hq hle
    rw [hreleases, getElem?_set_iff hr] at hq
    rcases hq with ⟨rfl, rfl⟩ | ⟨-, hq⟩
    · rw [hauth] at hle
      by_contra hchk
      rw [Bool.not_eq_false] at hchk
      exact absurd (hunchecked hchk u hu hbegun) (by omega)
    · exact h.unchecked u hu hbegun j q hq hle

/-- No fence without an account since the authorization of a release that may go on. -/
theorem authority_clean (h : Sound s i r) (hctx : r.context.accountId = "@runtime")
    (hauthy : s.mutations.assertEpoch r.context r.authority = .ok ()) :
    ∀ f ∈ s.fences, r.authorizedAt ≤ f.1 → f.2 ≠ none := by
  intro f hf hle hnone
  obtain ⟨c, hc, hsince⟩ := h.authority
  have hepoch := assertEpoch_ok hauthy
  rw [hctx, hc] at hepoch
  have hlt := (hsince "@runtime").2 f hf hle (.inl hnone)
  obtain ⟨hglobal, hacc⟩ := entryEpoch_injective hepoch
  rw [epochRank, epochRank, hglobal, hacc] at hlt
  exact absurd hlt (lt_irrefl _)

/-- No fence of an account since the request of a release that may still cover it. -/
theorem owner_clean (h : Sound s i r) (hphase : r.phase.hasEpochs = true)
    (howner : s.mutations.entryEpoch a = r.epochs a) :
    ∀ f ∈ s.fences, r.requestedAt ≤ f.1 → ¬ Covers f.2 a := by
  intro f hf hle hcovers
  obtain ⟨c, hc, hsince⟩ := h.epochs hphase
  rw [hc] at howner
  have hlt := (hsince a).2 f hf hle hcovers
  obtain ⟨hglobal, hacc⟩ := entryEpoch_injective howner
  rw [epochRank, epochRank, hglobal, hacc] at hlt
  exact absurd hlt (lt_irrefl _)

theorem guarded_cases {guard : Outcome Unit} (h : s.guarded i r guard next = t) :
    t = s.fail i r ∨ (guard = .ok () ∧ t = next) := by
  cases guard with
  | error e => exact .inl h.symm
  | ok u => exact .inr ⟨rfl, h.symm⟩

theorem releaseIn_eq_some {phase : ReleasePhase} : releaseIn s i phase = some r ↔
    s.releases[i]? = some r ∧ r.phase = phase := by
  rw [releaseIn, Option.filter_eq_some_iff, decide_eq_true_eq]

def ticked (s t : State) : State := { t with position := s.position + 1 }

theorem step_eq_some {action : Action} : step s action = some t ↔
    ∃ m, perform s action = some m ∧ ticked s m = t := Option.map_eq_some_iff

theorem Invariant.fail (h : Invariant s) (hr : s.releases[i]? = some r)
    (hauthy : r'.authority = r.authority) (hauth : r'.authorizedAt = r.authorizedAt) :
    Invariant (ticked s (s.fail i r')) := by
  refine h.move hr rfl rfl rfl rfl rfl rfl ?_ (.inl rfl) ?_ hauth ?_
  · by_cases howner : s.owner = some i
    · exact .inr (.inr howner)
    · exact .inl (if_neg howner)
  · exact (h.releases i r hr).failed hauthy hauth rfl rfl rfl (Nat.le_succ _)
  · intro hchk
    cases hchk

theorem Invariant.advance {owner : Option ℕ} {row : TradingRuntimeState} (h : Invariant s)
    (hr : s.releases[i]? = some r) (howner : owner = s.owner ∨ s.owner = none ∨ s.owner = some i)
    (hrow : row = s.row ∨ s.owner = some i)
    (hwrote : r'.phase.wrote = none ∨ ∃ w, r'.phase.wrote = some w ∧ OnlyNamed releaseInput row w)
    (hauthy : r'.authority = r.authority) (hauth : r'.authorizedAt = r.authorizedAt)
    (hctx : r'.context.accountId = "@runtime")
    (hepochs : r'.phase.hasEpochs = true → r.phase.hasEpochs = true ∧ r'.epochs = r.epochs ∧
      r'.requestedAt = r.requestedAt)
    (htx : r'.phase.inTransaction = true → owner = some i ∧ s.targets = r'.ids ∧
      r'.owners.map (·.accountId) = r'.ids)
    (hclean : r'.phase.isChecked = true ∨ r'.phase = .committed → Clean r' (ticked s s))
    (hcheckedAt : r'.phase.isChecked = true → r'.checkedAt = s.position) :
    Invariant (ticked s { s with releases := s.releases.set i r', owner, row }) := by
  have hsound := h.releases i r hr
  obtain ⟨c, hc, hsince⟩ := hsound.authority
  refine h.move hr rfl rfl rfl rfl rfl rfl howner hrow ?_ hauth ?_
  · refine ⟨hauth ▸ hsound.opened.trans (Nat.lt_succ_self _), ?_, fun _ _ => hctx,
      ⟨c, hauthy.trans hc, hauth ▸ hsince.same rfl rfl⟩, ?_, fun hphase => (htx hphase).1,
      fun hphase => (htx hphase).2, ?_, hwrote⟩
    · intro hphase
      obtain ⟨hold, -, hrequestedAt⟩ := hepochs hphase
      rw [hauth, hrequestedAt]
      exact hsound.order hold
    · intro hphase
      obtain ⟨hold, hsame, hrequestedAt⟩ := hepochs hphase
      obtain ⟨d, hd, hsince'⟩ := hsound.epochs hold
      rw [hsame, hrequestedAt]
      exact ⟨d, hd, hsince'.same rfl rfl⟩
    · intro hphase
      obtain ⟨hpast, hruntime, haccounts⟩ := hclean hphase
      exact ⟨hpast, hruntime, haccounts⟩
  · intro hchk u hu hbegun
    obtain ⟨⟨reason, hrsn⟩, -⟩ := hbegun
    have hfence := h.activations u hu reason hrsn
    have hpast := h.past _ hfence
    by_contra hle
    refine (hclean (.inl hchk)).runtime (u.begunAt, none) hfence ?_ ?_ rfl
    · rw [hauth]
      exact not_lt.mp hle
    · rw [hcheckedAt hchk]
      exact hpast

/-- A release whose epochs are not captured yet. -/
theorem Invariant.prepare (h : Invariant s) (hr : s.releases[i]? = some r)
    (hauthy : r'.authority = r.authority) (hauth : r'.authorizedAt = r.authorizedAt)
    (hctx : r'.context.accountId = "@runtime") (hphase : r'.phase = .started ∨ r'.phase = .active ∨
      r'.phase = .targeted) : Invariant (ticked s { s with releases := s.releases.set i r' }) := by
  refine h.advance hr (.inl rfl) (.inl rfl) (.inl ?_) hauthy hauth hctx ?_ ?_ ?_ ?_
  all_goals
    rcases hphase with hphase | hphase | hphase <;> rw [hphase]
  all_goals
    first | rfl | (intro hfalse; simp [ReleasePhase.hasEpochs, ReleasePhase.inTransaction,
      ReleasePhase.isChecked] at hfalse)

/-- A guard of a release keeps the invariant if what follows it does. -/
theorem Invariant.guarded {guard : Outcome Unit} {m : State} (h : Invariant s)
    (hr : s.releases[i]? = some r) (hauthy : r'.authority = r.authority)
    (hauth : r'.authorizedAt = r.authorizedAt) (hm : s.guarded i r' guard next = m)
    (hnext : guard = .ok () → Invariant (ticked s next)) : Invariant (ticked s m) := by
  rcases guarded_cases hm with rfl | ⟨hok, rfl⟩
  · exact h.fail hr hauthy hauth
  · exact hnext hok

/-- Fences of the coordinator are recorded, and every recorded one shows in the epochs. -/
theorem Since.coordinator {position : ℕ} (h : Since c position s)
    (hstep : TradingMutationCoordinator.step s.mutations action = some mutations)
    (hmuts : t.mutations = mutations)
    (hfences : t.fences = (fenceOf action).toList.map (fun scope => (s.position, scope)) ++
      s.fences) :
    Since c position t := by
  intro a
  have hle : epochRank a s.mutations ≤ epochRank a t.mutations := hmuts ▸ rank_le_step hstep
  refine ⟨(h a).1.trans hle, ?_⟩
  intro f hf hposn hcovers
  rw [hfences, List.mem_append, List.mem_map] at hf
  rcases hf with ⟨scope, hscope, rfl⟩ | hf
  · rw [Option.mem_toList] at hscope
    refine (h a).1.trans_lt ?_
    rw [hmuts]
    refine rank_lt_fence hcovers ?_ hstep
    cases action with
    | fence other =>
      cases hscope
      exact .inl rfl
    | hold other =>
      cases hscope
      exact .inr rfl
    | _ => cases hscope
  · exact ((h a).2 f hf hposn hcovers).trans_le hle

theorem Invariant.coordinator (h : Invariant s)
    (hstep : TradingMutationCoordinator.step s.mutations action = some mutations) :
    Invariant (ticked s { s with
      mutations := mutations
      fences := (fenceOf action).toList.map (fun scope => (s.position, scope)) ++ s.fences }) := by
  have hnew : ∀ f ∈ (fenceOf action).toList.map (fun scope => (s.position, scope)),
    f.1 = s.position := by
    intro f hf
    obtain ⟨scope, -, rfl⟩ := List.mem_map.mp hf
    rfl
  refine ⟨?_, ?_, ?_, h.unchecked⟩
  · intro f hf
    rcases List.mem_append.mp hf with hf | hf
    · rw [hnew f hf]
      exact Nat.lt_succ_self _
    · exact (h.past f hf).trans (Nat.lt_succ_self _)
  · intro u hu reason hrsn
    exact List.mem_append_right _ (h.activations u hu reason hrsn)
  · intro i r hr
    have hsound := h.releases i r hr
    obtain ⟨c, hc, hsince⟩ := hsound.authority
    refine ⟨hsound.opened.trans (Nat.lt_succ_self _), hsound.order, hsound.context,
      ⟨c, hc, hsince.coordinator hstep rfl rfl⟩, ?_, hsound.owner, hsound.scope, ?_, hsound.wrote⟩
    · intro hphase
      obtain ⟨d, hd, hsince'⟩ := hsound.epochs hphase
      exact ⟨d, hd, hsince'.coordinator hstep rfl rfl⟩
    · intro hphase
      have hclean := hsound.clean hphase
      refine ⟨hclean.past.trans (Nat.lt_succ_self _), ?_, ?_⟩
      · intro f hf hauthorized hchk
        rcases List.mem_append.mp hf with hf | hf
        · have := hclean.past
          rw [hnew f hf] at hchk
          omega
        · exact hclean.runtime f hf hauthorized hchk
      · intro f hf hrequested hchk
        rcases List.mem_append.mp hf with hf | hf
        · have := hclean.past
          rw [hnew f hf] at hchk
          omega
        · exact hclean.accounts f hf hrequested hchk

theorem Invariant.statement (h : Invariant s) (hmuts : next.mutations = s.mutations)
    (hfences : next.fences = s.fences) (hreleases : next.releases = s.releases)
    (howner : next.owner = s.owner)
    (htgts : s.owner = none ∨ (next.targets = s.targets ∧ next.row = s.row))
    (hupdates : ∀ u ∈ next.updates,
      (∀ reason, u.update = .activation reason → (u.begunAt, none) ∈ s.fences) ∧
        (Begun u → s.owner = none ∨ ∃ v ∈ s.updates, Begun v ∧ v.begunAt = u.begunAt)) :
    Invariant (ticked s next) := by
  refine ⟨?_, ?_, ?_, ?_⟩
  · intro f hf
    exact (h.past f (hfences ▸ hf)).trans (Nat.lt_succ_self _)
  · intro u hu reason hrsn
    exact hfences ▸ (hupdates u hu).1 reason hrsn
  · intro i r hr
    have hsound := h.releases i r (hreleases ▸ hr)
    refine hsound.elsewhere hmuts hfences (Nat.le_succ _) ?_ ?_
    · exact fun hphase => howner.trans (hsound.owner hphase)
    · intro hphase
      rcases htgts with hnone | hsame
      · have howner' := hsound.owner hphase
        rw [hnone] at howner'
        cases howner'
      · exact hsame
  · intro u hu hbegun i r hr hle
    have hsound := h.releases i r (hreleases ▸ hr)
    rcases (hupdates u hu).2 hbegun with hnone | ⟨v, hv, hbegun', hsame⟩
    · by_contra hchk
      rw [Bool.not_eq_false] at hchk
      have hphase : r.phase.inTransaction = true := by
        cases hr' : r.phase <;> rw [hr'] at hchk <;> first | rfl | cases hchk
      have howner' := hsound.owner hphase
      rw [hnone] at howner'
      cases howner'
    · exact h.unchecked v hv hbegun' i r (hreleases ▸ hr) (hsame ▸ hle)

theorem mem_setUpdate {u v : UpdateCall} {phase : UpdatePhase} (hu : s.updates[i]? = some u)
    (hv : v ∈ (s.setUpdate i u phase).updates) :
    v ∈ s.updates ∨ (v = { u with phase := phase } ∧ u ∈ s.updates) := by
  rcases List.mem_or_eq_of_mem_set hv with hv | rfl
  · exact .inl hv
  · exact .inr ⟨rfl, List.mem_of_getElem? hu⟩

theorem Invariant.setUpdate {u : UpdateCall} {phase : UpdatePhase} {row : TradingRuntimeState}
    (h : Invariant s) (hu : s.updates[i]? = some u) (howner : s.owner = none) :
    Invariant (ticked s { s.setUpdate i u phase with row := row }) := by
  refine h.statement rfl rfl rfl rfl (.inl howner) ?_
  intro v hv
  refine ⟨?_, fun _ => .inl howner⟩
  intro reason hrsn
  rcases mem_setUpdate hu hv with hv | ⟨rfl, hmem⟩
  · exact h.activations v hv reason hrsn
  · exact h.activations u hmem reason hrsn

theorem Invariant.append {update : RuntimeUpdate} {begunAt : ℕ} (h : Invariant s)
    (hfence : ∀ reason, update = .activation reason → (begunAt, none) ∈ s.fences) :
    Invariant (ticked s { s with updates := s.updates ++ [⟨update, begunAt, .called⟩] }) := by
  refine h.statement rfl rfl rfl rfl (.inr ⟨rfl, rfl⟩) ?_
  intro v hv
  rcases List.mem_append.mp hv with hv | hv
  · exact ⟨h.activations v hv, fun hbegun => .inr ⟨v, hv, hbegun, rfl⟩⟩
  · rw [List.mem_singleton] at hv
    subst hv
    refine ⟨hfence, ?_⟩
    rintro ⟨-, ⟨current, hphase⟩ | hphase⟩
    · cases hphase
    · cases hphase

theorem Invariant.authorize (h : Invariant s) (hphase : r.phase = .authorized)
    (hauthy : r.authority = s.mutations.entryEpoch "@runtime")
    (hauth : r.authorizedAt = s.position) :
    Invariant (ticked s { s with releases := s.releases ++ [r] }) := by
  have hget : ∀ (j : ℕ) q, (s.releases ++ [r])[j]? = some q → s.releases[j]? = some q ∨ q = r := by
    intro j q hq
    rcases List.mem_append.mp (List.mem_of_getElem? hq) with hmem | hmem
    · rw [List.getElem?_append] at hq
      split_ifs at hq with hlt
      · exact .inl hq
      · rw [List.getElem?_singleton] at hq
        split_ifs at hq
        exact .inr (Option.some.inj hq).symm
    · exact .inr (List.mem_singleton.mp hmem)
  refine ⟨?_, h.activations, ?_, ?_⟩
  · exact fun f hf => (h.past f hf).trans (Nat.lt_succ_self _)
  · intro j q hq
    rcases hget j q hq with hq | rfl
    · have hsound := h.releases j q hq
      exact hsound.elsewhere rfl rfl (Nat.le_succ _) hsound.owner (fun _ => ⟨rfl, rfl⟩)
    · refine ⟨hauth.trans_lt (Nat.lt_succ_self _), ?_, fun hne => absurd hphase hne,
        ⟨s.mutations, hauthy, hauth ▸ (Since.now s h.past).same rfl rfl⟩, ?_, ?_, ?_, ?_,
        .inl (hphase ▸ rfl)⟩
      all_goals
        rw [hphase]
        intro hfalse
        simp [ReleasePhase.hasEpochs, ReleasePhase.inTransaction, ReleasePhase.isChecked] at hfalse
  · intro u hu hbegun j q hq hle
    rcases hget j q hq with hq | rfl
    · exact h.unchecked u hu hbegun j q hq hle
    · rw [hphase]
      rfl

/-- The assertions inside of the transaction; the last one leaves no fence behind. -/
theorem Invariant.asserted {phase : ReleasePhase} (h : Invariant s) (hr : s.releases[i]? = some r)
    (hphase : r.phase.asserted = some phase)
    (hok : r.assertOwners r.owners.length s.mutations = .ok ()) :
    Invariant (ticked s (s.setRelease i { r with checkedAt := s.position } phase)) := by
  have hsound := h.releases i r hr
  have hopen : r.phase.inTransaction = true ∧ phase.inTransaction = true := by
    cases hr' : r.phase <;> rw [hr'] at hphase <;> cases hphase <;> exact ⟨rfl, rfl⟩
  have hepochs : r.phase.hasEpochs = true := by
    cases hr' : r.phase <;> rw [hr'] at hopen <;> first | rfl | cases hopen.1
  have hctx : r.context.accountId = "@runtime" := by
    refine hsound.context ?_ ?_
    · intro heq
      rw [heq] at hopen
      cases hopen.1
    · intro heq
      rw [heq] at hopen
      cases hopen.1
  obtain ⟨hauthy, howners⟩ := assertOwners_ok hok
  rw [List.take_length] at howners
  have hscope := hsound.scope hopen.1
  have hwrote : phase.wrote = r.phase.wrote := by
    cases hr' : r.phase <;> rw [hr'] at hphase <;> cases hphase <;> rfl
  refine h.advance hr (.inl rfl) (.inl rfl) (hwrote.symm ▸ hsound.wrote) rfl rfl
    hctx ?_ ?_ ?_ (fun _ => rfl)
  · exact fun _ => ⟨hepochs, rfl, rfl⟩
  · exact fun _ => ⟨hsound.owner hopen.1, hscope⟩
  · intro _
    refine ⟨Nat.lt_succ_self _, ?_, ?_⟩
    · intro f hf hle _
      exact authority_clean hsound hctx hauthy f hf hle
    · intro f hf hle _ id hid
      have hid' : id ∈ r.owners.map (·.accountId) := hscope.2 ▸ hid
      obtain ⟨owner, howner, rfl⟩ := List.mem_map.mp hid'
      exact owner_clean hsound hepochs (howners owner howner) f hf hle

theorem Invariant.step {action : Action} (h : Invariant s) (hstep : step s action = some t) :
    Invariant t := by
  obtain ⟨m, hm, rfl⟩ := step_eq_some.mp hstep
  cases action
  all_goals
    simp only [perform, Option.bind_eq_bind, Option.bind_eq_some_iff, Option.guard_eq_some',
      Option.filter_eq_some_iff, decide_eq_true_eq, releaseIn_eq_some, Option.pure_def,
      Option.some.injEq] at hm
  case coordinator action =>
    obtain ⟨mutations, hmuts, rfl⟩ := hm
    exact h.coordinator hmuts
  case changeTargets ids =>
    obtain ⟨_, howner, rfl⟩ := hm
    exact h.statement rfl rfl rfl rfl (.inl howner)
      (fun u hu => ⟨h.activations u hu, fun _ => .inl howner⟩)
  case call update =>
    cases update with
    | activation reason => cases hm
    | _ =>
      cases hm
      refine h.append ?_
      intro reason hrsn
      cases hrsn
  case activate reason begunAt =>
    obtain ⟨_, hfence, rfl⟩ := hm
    exact h.append (fun _ _ => hfence)
  case readRuntime i =>
    obtain ⟨_, howner, u, ⟨hu, -⟩, rfl⟩ := hm
    exact h.setUpdate hu howner
  case writeRuntime i now =>
    obtain ⟨_, howner, u, hu, hm⟩ := hm
    split at hm
    · split at hm
      · cases hm
        exact h.setUpdate hu howner
      · cases hm
        exact h.setUpdate hu howner
    · cases hm
  case authorize =>
    cases hm
    exact h.authorize rfl rfl rfl
  case start i context =>
    obtain ⟨r, ⟨hr, hphase⟩, _, hctx, hm⟩ := hm
    refine h.guarded hr ?_ ?_ hm ?_
    · rfl
    · rfl
    exact fun _ => h.prepare hr rfl rfl hctx (.inl rfl)
  case readActive i =>
    obtain ⟨_, -, r, ⟨hr, hphase⟩, hm⟩ := hm
    have hctx := (h.releases i r hr).context (by simp [hphase]) (by simp [hphase])
    refine h.guarded hr rfl rfl hm ?_
    exact fun _ => h.prepare hr rfl rfl hctx (.inr (.inl rfl))
  case readTargets i =>
    obtain ⟨_, -, r, ⟨hr, hphase⟩, hm⟩ := hm
    have hctx := (h.releases i r hr).context (by simp [hphase]) (by simp [hphase])
    refine h.guarded hr rfl rfl hm ?_
    exact fun _ => h.prepare hr rfl rfl hctx (.inr (.inr rfl))
  case request i =>
    obtain ⟨r, ⟨hr, hphase⟩, rfl⟩ := hm
    have hsound := h.releases i r hr
    have hctx := hsound.context (by simp [hphase]) (by simp [hphase])
    obtain ⟨c, hc, hsince⟩ := hsound.authority
    refine h.move hr rfl rfl rfl rfl rfl rfl (.inl rfl) (.inl rfl) ?_ rfl
      (fun hfalse => by cases hfalse)
    refine ⟨hsound.opened.trans (Nat.lt_succ_self _), fun _ => hsound.opened.le, fun _ _ => hctx,
      ⟨c, hc, hsince.same rfl rfl⟩, ?_, ?_, ?_, ?_, .inl rfl⟩
    · exact fun _ => ⟨s.mutations, fun _ => rfl, (Since.now s h.past).same rfl rfl⟩
    all_goals
      intro hfalse
      simp [ReleasePhase.inTransaction, ReleasePhase.isChecked] at hfalse
  case own i context =>
    obtain ⟨r, ⟨hr, hphase⟩, _, -, hm⟩ := hm
    have hctx := (h.releases i r hr).context (by simp [hphase]) (by simp [hphase])
    refine h.guarded hr rfl rfl hm ?_
    intro _
    refine h.advance hr (.inl rfl) (.inl rfl) (.inl rfl) rfl rfl hctx
      ?_ ?_ ?_ ?_
    · exact fun _ => ⟨by rw [hphase]; rfl, rfl, rfl⟩
    all_goals
      intro hfalse
      simp [ReleasePhase.inTransaction, ReleasePhase.isChecked] at hfalse
  case assertPrepared i prepared =>
    obtain ⟨r, ⟨hr, hphase⟩, hm⟩ := hm
    refine h.guarded hr rfl rfl hm ?_
    exact fun _ => h.statement rfl rfl rfl rfl (.inr ⟨rfl, rfl⟩) (fun u hu =>
      ⟨h.activations u hu, fun hbegun => .inr ⟨u, hu, hbegun, rfl⟩⟩)
  case beginTransaction i =>
    obtain ⟨_, howner, r, ⟨hr, hphase⟩, _, howners, hm⟩ := hm
    have hctx := (h.releases i r hr).context (by simp [hphase]) (by simp [hphase])
    refine h.guarded hr rfl rfl hm ?_
    intro hok
    rw [bind_eq_ok] at hok
    obtain ⟨_, htgts, -⟩ := hok
    rw [throwIf_eq_ok, not_not] at htgts
    refine h.advance hr (.inr (.inl howner)) (.inl rfl) (.inl rfl) rfl rfl hctx
      ?_ ?_ ?_ ?_
    · exact fun _ => ⟨by rw [hphase]; rfl, rfl, rfl⟩
    · exact fun _ => ⟨rfl, htgts, howners⟩
    all_goals
      intro hfalse
      simp [ReleasePhase.isChecked] at hfalse
  case assertOwners i =>
    obtain ⟨r, hr, phase, hphase, hm⟩ := hm
    exact h.guarded hr rfl rfl hm (h.asserted hr hphase)
  case writeRelease i now =>
    obtain ⟨r, ⟨hr, hphase⟩, hm⟩ := hm
    have hsound := h.releases i r hr
    have hopen : r.phase.inTransaction = true := by rw [hphase]; rfl
    split at hm
    · rename_i next hnext
      cases hm
      refine h.advance hr (.inl rfl) (.inl rfl)
        (.inr ⟨next, rfl, (onlyNamed_iff hnext).mpr (Fresh.refl releaseInput s.row)⟩) rfl rfl
        (hsound.context (by simp [hphase]) (by simp [hphase])) ?_ ?_ ?_ ?_
      · exact fun _ => ⟨by rw [hphase]; rfl, rfl, rfl⟩
      · exact fun _ => ⟨hsound.owner hopen, hsound.scope hopen⟩
      all_goals
        intro hfalse
        simp [ReleasePhase.isChecked] at hfalse
    · cases hm
      exact h.fail hr rfl rfl
  case assertScope i =>
    obtain ⟨r, hr, hm⟩ := hm
    have hsound := h.releases i r hr
    split at hm
    · rename_i next hphase
      rw [Option.some.injEq] at hm
      have hopen : r.phase.inTransaction = true := by rw [hphase]; rfl
      refine h.guarded hr rfl rfl hm ?_
      intro _
      have hwrote := hsound.wrote
      rw [hphase] at hwrote
      refine h.advance hr (.inl rfl) (.inl rfl) hwrote rfl rfl
        (hsound.context (by simp [hphase]) (by simp [hphase])) ?_ ?_ ?_ ?_
      · exact fun _ => ⟨by rw [hphase]; rfl, rfl, rfl⟩
      · exact fun _ => ⟨hsound.owner hopen, hsound.scope hopen⟩
      all_goals
        intro hfalse
        simp [ReleasePhase.isChecked] at hfalse
    · cases hm
  case commit i =>
    obtain ⟨r, hr, hm⟩ := hm
    have hsound := h.releases i r hr
    split at hm
    · rename_i next hphase
      cases hm
      have hopen : r.phase.inTransaction = true := by rw [hphase]; rfl
      have hclean := hsound.clean (.inl (by rw [hphase]; rfl))
      have howned := hsound.owner hopen
      refine h.advance hr (.inr (.inr howned)) (.inr howned) (.inl rfl) rfl rfl
        (hsound.context (by simp [hphase]) (by simp [hphase])) ?_ ?_ ?_ ?_
      · exact fun _ => ⟨by rw [hphase]; rfl, rfl, rfl⟩
      · intro hfalse
        cases hfalse
      · exact fun _ => ⟨hclean.past.trans (Nat.lt_succ_self _), hclean.runtime, hclean.accounts⟩
      · intro hfalse
        cases hfalse
    · cases hm
  case abort i =>
    obtain ⟨r, hr, _, -, rfl⟩ := hm
    exact h.fail hr rfl rfl

end Invariant

section Runs

variable {start s t : State} {actions : List Action} {action : Action}
  {P : RuntimeInput → TradingRuntimeState → TradingRuntimeState → TradingRuntimeState → Prop}
  {u : UpdateCall} {i : ℕ}

structure Initial (s : State) : Prop where
  updates : s.updates = []
  releases : s.releases = []
  owner : s.owner = none
  fences : s.fences = []

theorem Initial.invariant (h : Initial s) : Invariant s := by
  refine ⟨?_, ?_, ?_, ?_⟩
  · rw [h.fences]
    exact fun f hf => absurd hf List.not_mem_nil
  · rw [h.updates]
    exact fun u hu => absurd hu List.not_mem_nil
  · rw [h.releases]
    intro i r hr
    cases hr
  · rw [h.updates]
    exact fun u hu => absurd hu List.not_mem_nil

theorem run_invariant (h : Invariant s) (hrun : Trace.run step s actions = some t) : Invariant t :=
  Trace.run_preserves (fun _ _ _ _ hs hstep => hs.step hstep) h hrun

/-- The row that a write finds, beside what its call read and what it writes. -/
def AtWrite
    (P : RuntimeInput → TradingRuntimeState → TradingRuntimeState → TradingRuntimeState → Prop)
    (s : State) (i : ℕ) (now : ℤ) : Prop :=
  ∀ u current next, s.updates[i]? = some u → u.phase = .read current →
    nextRuntimeState u.update.input now current = .ok next → P u.update.input current s.row next

def EveryWrite
    (P : RuntimeInput → TradingRuntimeState → TradingRuntimeState → TradingRuntimeState → Prop)
    (start : State) (actions : List Action) : Prop :=
  ∀ before i now after m, actions = before ++ .writeRuntime i now :: after →
    Trace.run step start before = some m → AtWrite P m i now

def NoneStale : State → List Action → Prop :=
  EveryWrite (fun input current before _ => Fresh input current before)

def AllOnlyNamed : State → List Action → Prop :=
  EveryWrite (fun input _ before next => OnlyNamed input before next)

theorem noneStale_iff : NoneStale start actions ↔ AllOnlyNamed start actions := by
  refine ⟨?_, ?_⟩
  · intro h before i now after m hsplit hm u current next hu hphase hnext
    exact (onlyNamed_iff hnext).mpr
      (h before i now after m hsplit hm u current next hu hphase hnext)
  · intro h before i now after m hsplit hm u current next hu hphase hnext
    exact (onlyNamed_iff hnext).mp (h before i now after m hsplit hm u current next hu hphase hnext)

theorem EveryWrite.single {before after : List Action} {now : ℤ}
    (hbefore : ∀ j k, .writeRuntime j k ∉ before) (hafter : ∀ j k, .writeRuntime j k ∉ after)
    (h : ∀ m, Trace.run step s before = some m → AtWrite P m i now) :
    EveryWrite P s (before ++ .writeRuntime i now :: after) := by
  intro before' j k after' m hsplit hm
  obtain ⟨between, rfl, hrest⟩ | ⟨between, rfl, hrest⟩ := List.append_eq_append_iff.mp hsplit
  · cases between with
    | nil =>
      rw [List.nil_append, List.cons.injEq, Action.writeRuntime.injEq] at hrest
      obtain ⟨⟨rfl, rfl⟩, -⟩ := hrest
      rw [List.append_nil] at hm
      exact h m hm
    | cons action between =>
      refine absurd ?_ (hafter j k)
      rw [(List.cons.inj hrest).2]
      exact List.mem_append_right _ List.mem_cons_self
  · cases between with
    | nil =>
      rw [List.nil_append, List.cons.injEq, Action.writeRuntime.injEq] at hrest
      obtain ⟨⟨rfl, rfl⟩, -⟩ := hrest
      rw [List.append_nil] at h
      exact h m hm
    | cons action between =>
      refine absurd ?_ (hbefore j k)
      rw [(List.cons.inj hrest).1]
      exact List.mem_append_right _ List.mem_cons_self

theorem EveryWrite.tail (h : EveryWrite P s (action :: actions)) (hstep : step s action = some t) :
    EveryWrite P t actions := by
  intro before i now after m hsplit hm
  refine h (action :: before) i now after m (by rw [hsplit]; rfl) ?_
  exact Trace.run_cons.mpr ⟨t, hstep, hm⟩

theorem EveryWrite.drop {before : List Action} (h : EveryWrite P s (before ++ actions))
    (hrun : Trace.run step s before = some t) : EveryWrite P t actions := by
  induction before generalizing s with
  | nil =>
    rw [Trace.run_nil] at hrun
    exact hrun ▸ h
  | cons action before ih =>
    obtain ⟨m, hm, hrest⟩ := Trace.run_cons.mp hrun
    exact ih (h.tail hm) hrest

def Kept (s t : State) : Prop :=
  ∀ (i : ℕ) u, s.updates[i]? = some u → u.phase = .done → t.updates[i]? = some u

theorem Kept.of_eq (h : t.updates = s.updates) : Kept s t := fun _ _ hu _ => h ▸ hu

theorem Kept.append (h : t.updates = s.updates ++ [u]) : Kept s t := by
  intro i v hv _
  rw [h, List.getElem?_append_left (List.getElem?_eq_some_iff.mp hv).1]
  exact hv

theorem Kept.set {v : UpdateCall} (hu : s.updates[i]? = some u) (hphase : u.phase ≠ .done)
    (h : t.updates = s.updates.set i v) : Kept s t := by
  intro j w hw hdone
  rw [h, getElem?_set_iff hu]
  refine .inr ⟨?_, hw⟩
  rintro rfl
  rw [hu, Option.some.injEq] at hw
  exact hphase (hw ▸ hdone)

theorem guarded_row {r : ReleaseCall} {guard : Outcome Unit} {next m : State}
    (hm : s.guarded i r guard next = m) (hrow : next.row = s.row)
    (hupdates : next.updates = s.updates) : m.row = s.row ∧ Kept s m := by
  rcases guarded_cases hm with rfl | ⟨-, rfl⟩
  · exact ⟨rfl, .of_eq rfl⟩
  · exact ⟨hrow, .of_eq hupdates⟩

theorem perform_cases (hm : perform s action = some t) : (t.row = s.row ∧ Kept s t) ∨
    (∃ i now u current, action = .writeRuntime i now ∧ s.updates[i]? = some u ∧
      u.phase = .read current ∧ nextRuntimeState u.update.input now current = .ok t.row ∧
      t.updates = s.updates.set i { u with phase := .done }) ∨
    ∃ i r next, action = .commit i ∧ s.releases[i]? = some r ∧ r.phase = .checked next ∧
      Kept s t := by
  cases action
  all_goals
    simp only [perform, Option.bind_eq_bind, Option.bind_eq_some_iff, Option.filter_eq_some_iff,
      decide_eq_true_eq, Option.pure_def, Option.some.injEq] at hm
  case writeRuntime i now =>
    obtain ⟨_, -, u, hu, hm⟩ := hm
    split at hm
    · rename_i current hphase
      split at hm
      · rename_i next hnext
        cases hm
        exact .inr (.inl ⟨i, now, u, current, rfl, hu, hphase, hnext, rfl⟩)
      · cases hm
        exact .inl ⟨rfl, .set hu (by rw [hphase]; simp) rfl⟩
    · cases hm
  case readRuntime i =>
    obtain ⟨_, -, u, ⟨hu, hphase⟩, rfl⟩ := hm
    exact .inl ⟨rfl, .set hu (by rw [hphase]; simp) rfl⟩
  case call update =>
    cases update with
    | activation reason => cases hm
    | _ =>
      cases hm
      exact .inl ⟨rfl, .append rfl⟩
  case activate reason begunAt =>
    obtain ⟨_, -, rfl⟩ := hm
    exact .inl ⟨rfl, .append rfl⟩
  case commit i =>
    obtain ⟨r, hr, hm⟩ := hm
    split at hm
    · rename_i next hphase
      cases hm
      exact .inr (.inr ⟨i, r, next, rfl, hr, hphase, .of_eq rfl⟩)
    · cases hm
  case authorize =>
    cases hm
    exact .inl ⟨rfl, .of_eq rfl⟩
  case writeRelease i now =>
    obtain ⟨r, -, hm⟩ := hm
    split at hm
    · cases hm
      exact .inl ⟨rfl, .of_eq rfl⟩
    · cases hm
      exact .inl ⟨rfl, .of_eq rfl⟩
  case assertScope i =>
    obtain ⟨r, -, hm⟩ := hm
    split at hm
    · exact .inl (guarded_row (Option.some.inj hm) rfl rfl)
    · cases hm
  case abort i =>
    obtain ⟨r, -, _, -, rfl⟩ := hm
    exact .inl ⟨rfl, .of_eq rfl⟩
  case beginTransaction i =>
    obtain ⟨_, -, r, -, _, -, hm⟩ := hm
    exact .inl (guarded_row hm rfl rfl)
  case assertPrepared i prepared =>
    obtain ⟨r, -, hm⟩ := hm
    exact .inl (guarded_row hm rfl rfl)
  case coordinator action | changeTargets ids | request i =>
    obtain ⟨_, -, rfl⟩ := hm
    exact .inl ⟨rfl, .of_eq rfl⟩
  all_goals
    obtain ⟨_, -, _, -, hm⟩ := hm
    exact .inl (guarded_row hm rfl rfl)

theorem perform_write {now : ℤ} {current next : TradingRuntimeState} (hu : s.updates[i]? = some u)
    (hphase : u.phase = .read current)
    (hnext : nextRuntimeState u.update.input now current = .ok next)
    (hm : perform s (.writeRuntime i now) = some t) :
    t = { s.setUpdate i u .done with row := next } := by
  simp only [perform, Option.bind_eq_bind, Option.bind_eq_some_iff, hu, Option.some.injEq,
    Option.pure_def] at hm
  obtain ⟨_, -, _, rfl, hm⟩ := hm
  simp only [hphase, hnext, Option.some.injEq] at hm
  exact hm.symm

/-- A release that was requested after a position committed. -/
def ReleasedAfter (position : ℕ) (start : State) (actions : List Action) : Prop :=
  ∃ before i after m r, actions = before ++ .commit i :: after ∧
    Trace.run step start before = some m ∧
    m.releases[i]? = some r ∧ position < r.requestedAt

/-- Once an activation has written, the kill switch stays on until a later release commits. -/
theorem kill_stays (h : Invariant s) (hu : s.updates[i]? = some u)
    (hactivation : ∃ reason, u.update = .activation reason) (hdone : u.phase = .done)
    (hkill : s.row.killSwitchActive = true ∧ s.row.executionEnabled = false)
    (hfresh : NoneStale s actions) (hrun : Trace.run step s actions = some t) :
    (t.row.killSwitchActive = true ∧ t.row.executionEnabled = false) ∨
      ReleasedAfter u.begunAt s actions := by
  induction actions generalizing s with
  | nil =>
    rw [Trace.run_nil] at hrun
    exact .inl (hrun ▸ hkill)
  | cons action actions ih =>
    obtain ⟨m, hm, hrest⟩ := Trace.run_cons.mp hrun
    obtain ⟨n, hn, hticked⟩ := step_eq_some.mp hm
    have hlater : m.row.killSwitchActive = true ∧ m.row.executionEnabled = false →
        m.updates[i]? = some u → (t.row.killSwitchActive = true ∧ t.row.executionEnabled = false) ∨
          ReleasedAfter u.begunAt s (action :: actions) := by
      intro hkilled hkept
      rcases ih (h.step hm) hkept hkilled (hfresh.tail hm) hrest with hend | hrel
      · exact .inl hend
      · obtain ⟨before, j, after, k, r, hsplit, hbefore, hr, hlt⟩ := hrel
        exact .inr ⟨action :: before, j, after, k, r, by rw [hsplit]; rfl,
          Trace.run_cons.mpr ⟨m, hm, hbefore⟩, hr, hlt⟩
    rcases perform_cases hn with
      ⟨hrow, hkept⟩ | ⟨j, now, v, current, rfl, hv, hphase, hnext, hset⟩ |
      ⟨j, r, next, rfl, hr, hphase, hkept⟩
    · refine hlater ?_ ?_
      · rw [← hticked]
        exact hrow ▸ hkill
      · rw [← hticked]
        exact hkept i u hu hdone
    · refine hlater ?_ ?_
      · have hwrite := hfresh [] j now actions s rfl rfl v current n.row hv hphase hnext
        rw [← hticked]
        exact kill_kept hnext hwrite hkill.1
      · rw [← hticked]
        have hother : Kept s n := .set hv (by rw [hphase]; simp) hset
        exact hother i u hu hdone
    · by_cases hle : r.authorizedAt ≤ u.begunAt
      · have hunchecked := h.unchecked u (List.mem_of_getElem? hu) ⟨hactivation, .inr hdone⟩ j
          r hr hle
        rw [hphase] at hunchecked
        cases hunchecked
      · have horder := (h.releases j r hr).order (by rw [hphase]; rfl)
        exact .inr ⟨[], j, actions, s, r, rfl, rfl, hr, by omega⟩

/-- The kill switch, the fields of the row and the releases, in every run. -/
theorem global_kill_switch (hstart : Initial start) (hrun : Trace.run step start actions = some s) :
    (NoneStale start actions ↔ AllOnlyNamed start actions) ∧
    (NoneStale start actions → ∀ before i now after m u reason current next,
      actions = before ++ .writeRuntime i now :: after → Trace.run step start before = some m →
      m.updates[i]? = some u → u.update = .activation reason → u.phase = .read current →
      nextRuntimeState u.update.input now current = .ok next →
        ∃ n, step m (.writeRuntime i now) = some n ∧
          ((s.row.killSwitchActive = true ∧ s.row.executionEnabled = false) ∨
            ReleasedAfter u.begunAt n after)) ∧
    ∀ before i after m r, actions = before ++ .commit i :: after →
      Trace.run step start before = some m → m.releases[i]? = some r →
        Clean r m ∧ m.targets = r.ids ∧
          ∃ n, step m (.commit i) = some n ∧ OnlyNamed releaseInput m.row n.row := by
  refine ⟨noneStale_iff, ?_, ?_⟩
  · intro hfresh before i now after m u reason current next hsplit hm hu hrsn hphase hnext
    rw [hsplit] at hrun hfresh
    obtain ⟨m', hm', hrest⟩ := Trace.run_append.mp hrun
    obtain rfl : m = m' := Option.some.inj (hm.symm.trans hm')
    obtain ⟨n, hn, hafter⟩ := Trace.run_cons.mp hrest
    have hinv := run_invariant hstart.invariant hm
    have hwrites := hfresh.drop hm
    refine ⟨n, hn, ?_⟩
    obtain ⟨k, hk, rfl⟩ := step_eq_some.mp hn
    obtain rfl := perform_write hu hphase hnext hk
    have hwritten : (ticked m { m.setUpdate i u .done with row := next }).updates[i]? =
        some { u with phase := .done } := (getElem?_set_iff hu).mpr (.inl ⟨rfl, rfl⟩)
    refine kill_stays (u := { u with phase := .done }) (hinv.step hn) hwritten
      ⟨reason, hrsn⟩ rfl ?_ (hwrites.tail hn) hafter
    rw [hrsn] at hnext
    exact activation_kills hnext
  · intro before i after m r hsplit hm hr
    rw [hsplit] at hrun
    obtain ⟨m', hm', hrest⟩ := Trace.run_append.mp hrun
    obtain rfl : m = m' := Option.some.inj (hm.symm.trans hm')
    obtain ⟨n, hn, -⟩ := Trace.run_cons.mp hrest
    have hsound := (run_invariant hstart.invariant hm).releases i r hr
    obtain ⟨k, hk, rfl⟩ := step_eq_some.mp hn
    simp only [perform, Option.bind_eq_bind, Option.bind_eq_some_iff] at hk
    obtain ⟨r', hr', hk⟩ := hk
    rw [hr, Option.some.injEq] at hr'
    subst hr'
    split at hk
    · rename_i next hphase
      have hopen : r.phase.inTransaction = true := by rw [hphase]; rfl
      refine ⟨hsound.clean (.inl (by rw [hphase]; rfl)), (hsound.scope hopen).1, _, hn, ?_⟩
      obtain hnone | ⟨w, hw, hnamed⟩ := hsound.wrote
      · rw [hphase] at hnone
        cases hnone
      · rw [hphase] at hw
        cases hw
        cases hk
        exact hnamed
    · cases hk

/-- A flatten whose write another stop undoes: both read the row before either writes. -/
def lostRun : List Action :=
  [.coordinator (.fence none), .activate "Operator emergency flatten" 0, .call (.live false),
    .readRuntime 0, .readRuntime 1, .writeRuntime 0 1, .writeRuntime 1 2]

def tradingState (kill : Bool) : State where
  row := ⟨!kill, true, kill, if kill then some "stopped" else none, 0⟩
  targets := ["a"]
  mutations := TradingMutationCoordinator.initial
  updates := []
  releases := []
  owner := none
  fences := []
  position := 0

theorem initial_tradingState (kill : Bool) : Initial (tradingState kill) := ⟨rfl, rfl, rfl, rfl⟩

theorem kill_switch_lost :
    ((Trace.run step (tradingState false) (lostRun.take 6)).map (fun s => s.row)) =
        some ⟨false, true, true, some "Operator emergency flatten", 1⟩ ∧
      (Trace.run step (tradingState false) lostRun).map (fun s => (s.row, s.releases.length)) =
        some (⟨true, false, false, none, 2⟩, 0) := by
  refine ⟨?_, ?_⟩
  · decide +kernel
  · decide +kernel

/-- A release of one account, from the call of `setRuntime` to its commit. -/
def releaseRun : List Action :=
  [.authorize, .coordinator (.call "@runtime"), .coordinator (.resume 0), .start 0 ⟨0, "@runtime"⟩,
    .readActive 0, .readTargets 0, .request 0, .coordinator (.call "a"), .coordinator (.resume 1),
    .own 0 ⟨1, "a"⟩, .assertPrepared 0 1, .beginTransaction 0, .assertOwners 0, .assertOwners 0,
    .writeRelease 0 1, .assertOwners 0, .assertOwners 0, .assertScope 0, .assertOwners 0]

def stopRun : List Action :=
  [.coordinator (.fence none), .activate "Operator emergency flatten" 0, .readRuntime 0]

/-- An activation from its fence to its write, and the release that follows. -/
def stoppedRun : List Action := stopRun ++ .writeRuntime 0 1 :: (releaseRun ++ [.commit 0])

theorem noneStale_stoppedRun : NoneStale (tradingState false) stoppedRun := by
  refine EveryWrite.single ?_ ?_ ?_
  · simp [stopRun]
  · simp [releaseRun]
  · intro m hm u current next hu hphase _
    have hread : (Trace.run step (tradingState false) stopRun).map (fun m =>
        (m.updates[0]?.map (·.phase), m.row)) =
          some (some (.read (tradingState false).row), (tradingState false).row) := by
      decide +kernel
    rw [hm, Option.map_some, hu, Option.map_some, hphase] at hread
    simp only [Option.some.injEq, Prod.mk.injEq, UpdatePhase.read.injEq] at hread
    rw [hread.1, hread.2]
    exact Fresh.refl _ _

theorem global_kill_switch_release :
    ∃ m u n k r s, Trace.run step (tradingState false) stopRun = some m ∧
    m.updates[0]? = some u ∧ step m (.writeRuntime 0 1) = some n ∧
    Trace.run step n releaseRun = some k ∧ k.releases[0]? = some r ∧ step k (.commit 0) = some s ∧
    k.row.killSwitchActive = true ∧ s.row.killSwitchActive = false ∧
    AllOnlyNamed (tradingState false) stoppedRun ∧
    ((s.row.killSwitchActive = true ∧ s.row.executionEnabled = false) ∨
      ReleasedAfter u.begunAt n (releaseRun ++ [.commit 0])) ∧
    Clean r k ∧ k.targets = r.ids ∧
    ∃ n, step k (.commit 0) = some n ∧ OnlyNamed releaseInput k.row n.row := by
  have hsome : ((Trace.run step (tradingState false) stopRun).bind (fun m =>
      (m.updates[0]?).bind (fun u => (step m (.writeRuntime 0 1)).bind (fun n =>
        (Trace.run step n releaseRun).bind (fun k => (k.releases[0]?).bind (fun _ =>
          (step k (.commit 0)).map (fun s => (u.update, u.phase, k.row.killSwitchActive,
            s.row.killSwitchActive)))))))) =
      some (.activation "Operator emergency flatten", .read (tradingState false).row, true,
        false) := by
    decide +kernel
  simp only [Option.bind_eq_some_iff, Option.map_eq_some_iff, Prod.mk.injEq] at hsome
  obtain ⟨m, hm, u, hu, n, hn, k, hk, r, hr, s, hs, hstop, hphase, hactive, hreleased⟩ := hsome
  have hrun : Trace.run step (tradingState false) stoppedRun = some s :=
    Trace.run_append.mpr ⟨m, hm, Trace.run_cons.mpr ⟨n, hn, Trace.run_append.mpr
      ⟨k, hk, Trace.run_singleton.mpr hs⟩⟩⟩
  have hbefore : Trace.run step (tradingState false) (stopRun ++ .writeRuntime 0 1 :: releaseRun) =
      some k := Trace.run_append.mpr ⟨m, hm, Trace.run_cons.mpr ⟨n, hn, hk⟩⟩
  obtain ⟨hiff, hkill, hcommits⟩ := global_kill_switch (initial_tradingState false) hrun
  have hnext : ∃ next, nextRuntimeState u.update.input 1 (tradingState false).row = .ok next := by
    rw [hstop]
    exact ⟨⟨false, true, true, some "Operator emergency flatten", 1⟩, by decide +kernel⟩
  obtain ⟨next, hnext⟩ := hnext
  obtain ⟨n', hn', hstays⟩ := hkill noneStale_stoppedRun stopRun 0 1 _ m u _ _ next rfl hm hu hstop
    hphase hnext
  obtain rfl : n = n' := Option.some.inj (hn.symm.trans hn')
  exact ⟨m, u, n, k, r, s, hm, hu, hn, hk, hr, hs, hactive, hreleased,
    hiff.mp noneStale_stoppedRun, hstays,
    hcommits (stopRun ++ .writeRuntime 0 1 :: releaseRun) 0 [] k r (by simp [stoppedRun])
      hbefore hr⟩

end Runs

end TsxCore.TradingRuntime
