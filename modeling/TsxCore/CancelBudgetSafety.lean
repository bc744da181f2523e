import TsxCore.TradingCancelBudget

/-!
# Cancel budgets over whole runs

A run is a list of events in any interleaving: calls nested in each other or left
behind, claims and consumptions from any context. What the module keeps in three places
agrees with the history: the budget of an owner counts its permits, it is live until the
first call of the owner settles, and a permit is used once it was consumed.
-/

namespace TsxCore.TradingCancelBudget

open Outcome Trace

section History

variable {Owner : Type} [DecidableEq Owner]

def startedBy (event : Event Owner) (call : ℕ) : Option Owner :=
  match event with
  | (.enter owner, .entered number) => if number = call then some owner else none
  | _ => none

def contextOwner (events : List (Event Owner)) (context : Option ℕ) : Option Owner :=
  context.bind (fun call => events.findSome? (startedBy · call))

def opens (owner : Owner) (event : Event Owner) : Option ℕ :=
  match event with
  | (.enter entered, .entered call) => if entered = owner then some call else none
  | _ => none

/-- The first call of an owner, in which all its later calls are nested. -/
def outermost (events : List (Event Owner)) (owner : Owner) : Option ℕ :=
  events.findSome? (opens owner)

def Settled (events : List (Event Owner)) (owner : Owner) : Prop :=
  ∃ call, outermost events owner = some call ∧ (.settle call, .settled) ∈ events

/-- The outermost call of an owner was started and has not settled. -/
def Running (events : List (Event Owner)) (owner : Owner) : Prop :=
  ∃ call, outermost events owner = some call ∧ (.settle call, .settled) ∉ events

/-- The permit that an event issued in a context of the owner. -/
def permitOf (events : List (Event Owner)) (owner : Owner) (event : Event Owner) : Option ℕ :=
  match event with
  | (.claim context _ _, .permit permit) =>
    if contextOwner events context = some owner then some permit else none
  | _ => none

/-- The permits that were issued in contexts of an owner. -/
def permitsOf (events : List (Event Owner)) (owner : Owner) : List ℕ :=
  events.filterMap (permitOf events owner)

def Starts (event : Event Owner) : Prop := ∃ owner call, event = (.enter owner, .entered call)

variable {events : List (Event Owner)} {event : Event Owner} {owner : Owner} {context : Option ℕ}
  {call : ℕ}

omit [DecidableEq Owner] in
theorem startedBy_of_not (h : ¬ Starts event) : startedBy event call = none := by
  unfold startedBy
  split
  · exact absurd ⟨_, _, rfl⟩ h
  · rfl

theorem opens_of_not (h : ¬ Starts event) : opens owner event = none := by
  unfold opens
  split
  · exact absurd ⟨_, _, rfl⟩ h
  · rfl

omit [DecidableEq Owner] in
theorem contextOwner_concat : contextOwner (events ++ [event]) context =
    (contextOwner events context).or (context.bind (startedBy event)) := by
  cases context with
  | none => rfl
  | some call => simp [contextOwner, List.findSome?_append]

theorem outermost_concat :
    outermost (events ++ [event]) owner = (outermost events owner).or (opens owner event) := by
  simp [outermost, List.findSome?_append]

omit [DecidableEq Owner] in
theorem contextOwner_of_not (h : ¬ Starts event) :
    contextOwner (events ++ [event]) context = contextOwner events context := by
  rw [contextOwner_concat]
  cases context with
  | none => rfl
  | some call => rw [Option.bind_some, startedBy_of_not h, Option.or_none]

theorem outermost_of_not (h : ¬ Starts event) :
    outermost (events ++ [event]) owner = outermost events owner := by
  rw [outermost_concat, opens_of_not h, Option.or_none]

omit [DecidableEq Owner] in
theorem contextOwner_mono (h : contextOwner events context = some owner) :
    contextOwner (events ++ [event]) context = some owner := by
  rw [contextOwner_concat, h]
  rfl

theorem permitsOf_concat (hclaims : ∀ context account order permit,
      (.claim context account order, .permit permit) ∈ events →
        (contextOwner events context).isSome) :
    permitsOf (events ++ [event]) owner =
      permitsOf events owner ++ (permitOf (events ++ [event]) owner event).toList := by
  have hold : events.filterMap (permitOf (events ++ [event]) owner) = permitsOf events owner := by
    apply List.filterMap_congr
    intro earlier hearlier
    unfold permitOf
    split
    · obtain ⟨known, hknown⟩ := Option.isSome_iff_exists.mp (hclaims _ _ _ _ hearlier)
      rw [contextOwner_mono hknown, hknown]
    · rfl
  rw [permitsOf, List.filterMap_append, hold]
  cases hpermit : permitOf (events ++ [event]) owner event with
  | none => simp [hpermit]
  | some permit => simp [hpermit]

theorem permitOf_eq_none (h : ∀ context account order permit,
      event ≠ (.claim context account order, .permit permit)) :
        permitOf events owner event = none := by
  unfold permitOf
  split
  · exact absurd rfl (h _ _ _ _)
  · rfl

end History

section Soundness

variable {Owner : Type} [DecidableEq Owner]

/-- The calls of the state are those of the history. -/
structure Started (events : List (Event Owner)) (s : State Owner) : Prop where
  contexts : ∀ context, contextOwner events context = s.storeOwner context
  opened : ∀ owner, s.budgets owner = none ↔ outermost events owner = none
  created : ∀ call owner, s.calls[call]? = some ⟨owner, true⟩ ↔ outermost events owner = some call

/-- A budget is live until the call that made it settles. -/
structure Live (events : List (Event Owner)) (s : State Owner) : Prop where
  settles : ∀ call, (.settle call, .settled) ∈ events → call < s.calls.length
  live : ∀ owner budget call, s.budgets owner = some budget → outermost events owner = some call →
    (budget.active = true ↔ (.settle call, .settled) ∉ events)

/-- The permits of the state are those that were issued, and the used ones were consumed. -/
structure Permitted (events : List (Event Owner)) (s : State Owner) : Prop where
  claimed : ∀ context account order permit,
    (.claim context account order, .permit permit) ∈ events → ∃ owner used,
      contextOwner events context = some owner ∧
        s.permits[permit]? = some ⟨⟨account, order⟩, owner, used⟩
  issued : ∀ permit record, s.permits[permit]? = some record → ∃ context,
    (.claim context record.permit.accountId record.permit.clientOrderId, .permit permit) ∈ events ∧
      contextOwner events context = some record.budget
  used : ∀ context permit account order,
    (.consume context permit account order, .consumed) ∈ events →
      ∃ record, s.permits[permit]? = some record ∧ record.used = true

/-- A budget and the permits issued from it make up the five attempts. -/
structure Counted (events : List (Event Owner)) (s : State Owner) : Prop where
  spent : ∀ owner budget, s.budgets owner = some budget →
    (permitsOf events owner).length + budget.remaining = MAX_CANCEL_ATTEMPTS
  unspent : ∀ owner, s.budgets owner = none → permitsOf events owner = []

structure Sound (events : List (Event Owner)) (s : State Owner) : Prop extends
  Started events s, Live events s, Permitted events s, Counted events s

theorem sound_initial : Sound [] (initial : State Owner) where
  contexts := by
    rintro (_ | call)
    · rfl
    · rfl
  opened := by simp [initial, outermost]
  created := by simp [initial, outermost]
  settles := by simp
  live := by simp [initial]
  claimed := by simp
  issued := by simp [initial]
  used := by simp
  spent := by simp [initial]
  unspent := by simp [permitsOf]

variable {events : List (Event Owner)} {event : Event Owner} {s t : State Owner}
  {accountId : Owner → String} {owner : Owner} {call : ℕ}

def IsClaim (event : Event Owner) : Prop :=
  ∃ context account order permit, event = (.claim context account order, .permit permit)

def IsConsumption (event : Event Owner) : Prop :=
  ∃ context permit account order, event = (.consume context permit account order, .consumed)

def IsSettlement (event : Event Owner) : Prop := ∃ call, event = (.settle call, .settled)

omit [DecidableEq Owner] in
theorem mem_of_mem_concat {earlier : Event Owner} (hmem : earlier ∈ events ++ [event])
    (hne : earlier ≠ event) : earlier ∈ events := by
  rcases List.mem_append.mp hmem with hmem | hmem
  · exact hmem
  · exact absurd (List.mem_singleton.mp hmem) hne

theorem Started.of_not (h : Started events s) (hstarts : ¬ Starts event)
    (hcalls : t.calls = s.calls)
    (hbudgets : ∀ owner, t.budgets owner = none ↔ s.budgets owner = none) :
    Started (events ++ [event]) t := by
  constructor
  · intro context
    rw [contextOwner_of_not hstarts, h.contexts, State.storeOwner, State.storeOwner, hcalls]
  · intro owner
    rw [outermost_of_not hstarts, hbudgets, h.opened]
  · intro call owner
    rw [outermost_of_not hstarts, hcalls, h.created]

theorem Live.of_not (h : Live events s) (hstarts : ¬ Starts event) (hsettles : ¬ IsSettlement event)
    (hcalls : t.calls = s.calls) (hbudgets : ∀ owner budget, t.budgets owner = some budget →
      ∃ before, s.budgets owner = some before ∧ before.active = budget.active) :
    Live (events ++ [event]) t := by
  have hmem : ∀ call, (.settle call, .settled) ∈ events ++ [event] ↔
    (.settle call, .settled) ∈ events := by
    intro call
    constructor
    · intro hcall
      exact mem_of_mem_concat hcall (fun heq => hsettles ⟨call, heq.symm⟩)
    · exact List.mem_append_left _
  constructor
  · intro call hcall
    rw [hcalls]
    exact h.settles call ((hmem call).mp hcall)
  · intro owner budget call hbud
    obtain ⟨before, hbefore, hact⟩ := hbudgets owner budget hbud
    rw [outermost_of_not hstarts, ← hact, hmem]
    exact h.live owner before call hbefore

omit [DecidableEq Owner] in
theorem Permitted.of_not (h : Permitted events s) (hclaims : ¬ IsClaim event)
    (hconsumes : ¬ IsConsumption event) (hpermits : t.permits = s.permits) :
    Permitted (events ++ [event]) t := by
  constructor
  · intro context account order permit hmem
    rw [hpermits]
    have hold := mem_of_mem_concat hmem (fun heq => hclaims ⟨_, _, _, _, heq.symm⟩)
    obtain ⟨owner, used, howner, hrecord⟩ := h.claimed context account order permit hold
    exact ⟨owner, used, contextOwner_mono howner, hrecord⟩
  · intro permit record hrecord
    rw [hpermits] at hrecord
    obtain ⟨context, hmem, howner⟩ := h.issued permit record hrecord
    exact ⟨context, List.mem_append_left _ hmem, contextOwner_mono howner⟩
  · intro context permit account order hmem
    rw [hpermits]
    exact h.used context permit account order
      (mem_of_mem_concat hmem (fun heq => hconsumes ⟨_, _, _, _, heq.symm⟩))

theorem Permitted.permitsOf_concat (h : Permitted events s) (owner : Owner) :
    permitsOf (events ++ [event]) owner =
      permitsOf events owner ++ (permitOf (events ++ [event]) owner event).toList := by
  apply TradingCancelBudget.permitsOf_concat
  intro context account order permit hmem
  obtain ⟨known, -, hknown, -⟩ := h.claimed context account order permit hmem
  rw [hknown]
  rfl

theorem Counted.of_not (h : Counted events s) (hp : Permitted events s) (hclaims : ¬ IsClaim event)
    (hnone : ∀ owner, t.budgets owner = none → s.budgets owner = none)
    (hbudgets : ∀ owner budget, t.budgets owner = some budget →
      ∃ before, s.budgets owner = some before ∧ before.remaining = budget.remaining) :
    Counted (events ++ [event]) t := by
  have hsame : ∀ owner, permitsOf (events ++ [event]) owner = permitsOf events owner := by
    intro owner
    rw [hp.permitsOf_concat, permitOf_eq_none, Option.toList_none, List.append_nil]
    intro context account order permit heq
    exact hclaims ⟨_, _, _, _, heq⟩
  constructor
  · intro owner budget hbud
    obtain ⟨before, hbefore, hrem⟩ := hbudgets owner budget hbud
    rw [hsame, ← hrem]
    exact h.spent owner before hbefore
  · intro owner hbud
    rw [hsame]
    exact h.unspent owner (hnone owner hbud)

theorem Sound.threw (h : Sound events s) (action : Action Owner) (thrown : Thrown) :
    Sound (events ++ [(action, .threw thrown)]) s := by
  have hstarts : ¬ Starts (action, Answer.threw thrown) := by simp [Starts]
  have hclaims : ¬ IsClaim (action, Answer.threw thrown) := by simp [IsClaim]
  exact ⟨h.toStarted.of_not hstarts rfl (fun _ => Iff.rfl),
    h.toLive.of_not hstarts (by simp [IsSettlement]) rfl (fun _ budget hbud => ⟨budget, hbud, rfl⟩),
    h.toPermitted.of_not hclaims (by simp [IsConsumption]) rfl,
    h.toCounted.of_not h.toPermitted hclaims (fun _ => id)
      (fun _ budget hbud => ⟨budget, hbud, rfl⟩)⟩

section Enter

theorem opens_enter (entered : Owner) : opens owner (.enter entered, .entered call) =
    if entered = owner then some call else none := rfl

theorem Started.enter (h : Started events s) {created : Bool}
    (hcreated : created = true ↔ s.budgets owner = none)
    (hcalls : t.calls = s.calls ++ [⟨owner, created⟩])
    (howner : (t.budgets owner).isSome)
    (hbudgets : ∀ other, other ≠ owner → t.budgets other = s.budgets other) :
    Started (events ++ [(.enter owner, .entered s.calls.length)]) t := by
  constructor
  · rintro (_ | call)
    · rfl
    · have hold := h.contexts (some call)
      simp only [State.storeOwner, Option.bind_some] at hold ⊢
      rw [contextOwner_concat, hold, hcalls, Option.bind_some, startedBy]
      rcases Nat.lt_trichotomy call s.calls.length with hlt | heq | hgt
      · rw [if_neg (by omega), Option.or_none, List.getElem?_append_left hlt]
      · subst heq
        simp
      · rw [if_neg (by omega), Option.or_none, List.getElem?_eq_none hgt.le,
          List.getElem?_eq_none (by simp; omega)]
  · intro other
    rw [outermost_concat, opens_enter]
    by_cases hsame : owner = other
    · subst hsame
      rw [if_pos rfl]
      obtain ⟨budget, hbud⟩ := Option.isSome_iff_exists.mp howner
      simp [hbud]
    · rw [if_neg hsame, Option.or_none, hbudgets other (Ne.symm hsame), h.opened]
  · intro call other
    rw [outermost_concat, opens_enter, hcalls]
    have hlast : outermost events other ≠ some s.calls.length := by
      intro houter
      rw [← h.created, List.getElem?_eq_none le_rfl] at houter
      cases houter
    rcases Nat.lt_trichotomy call s.calls.length with hlt | heq | hgt
    · rw [List.getElem?_append_left hlt, h.created]
      cases houter : outermost events other with
      | some first => simp
      | none =>
        by_cases hsame : owner = other
        · simp [hsame]
          omega
        · simp [hsame]
    · subst heq
      rw [List.getElem?_concat_length, Option.some.injEq, Call.mk.injEq]
      cases houter : outermost events other with
      | some first =>
        have hne : first ≠ s.calls.length := fun heq => hlast (houter.trans (congrArg some heq))
        have hkept : ¬ (owner = other ∧ created = true) := by
          rintro ⟨rfl, htrue⟩
          rw [hcreated, h.opened, houter] at htrue
          cases htrue
        simp [hne, hkept]
      | none =>
        by_cases hsame : owner = other
        · subst hsame
          rw [← h.opened, ← hcreated] at houter
          simp [houter]
        · simp [hsame]
    · rw [List.getElem?_eq_none (by simp; omega)]
      have hold : outermost events other ≠ some call := by
        intro houter
        rw [← h.created, List.getElem?_eq_none hgt.le] at houter
        cases houter
      cases houter : outermost events other with
      | some first =>
        rw [houter] at hold
        simpa using hold
      | none =>
        by_cases hsame : owner = other
        · simp [hsame]
          omega
        · simp [hsame]

theorem State.setBudget_self (s : State Owner) (owner : Owner) (budget : Budget) :
    (s.setBudget owner budget).budgets owner = some budget :=
  Function.update_self ..

theorem State.setBudget_other (s : State Owner) {owner other : Owner} (budget : Budget)
    (h : other ≠ owner) : (s.setBudget owner budget).budgets other = s.budgets other :=
  Function.update_of_ne h _ _

theorem Live.enter (h : Live events s) (hs : Started events s) {created : Bool}
    (hcalls : t.calls = s.calls ++ [⟨owner, created⟩])
    (hbudgets : ∀ other budget, t.budgets other = some budget →
      (s.budgets other = none ∧ other = owner ∧ budget.active = true) ∨
        s.budgets other = some budget) :
    Live (events ++ [(.enter owner, .entered s.calls.length)]) t := by
  have hmem : ∀ call, (.settle call, .settled) ∈
    events ++ [(.enter owner, .entered s.calls.length)] ↔
      (.settle call, .settled) ∈ events := by simp
  constructor
  · intro call hcall
    have hlt := h.settles call ((hmem call).mp hcall)
    rw [hcalls, List.length_append]
    omega
  · intro other budget call hbud
    rw [hmem, outermost_concat, opens_enter]
    rcases hbudgets other budget hbud with ⟨hnone, rfl, hact⟩ | hbefore
    · rw [(hs.opened other).mp hnone, if_pos rfl, Option.none_or, Option.some.injEq]
      rintro rfl
      refine iff_of_true hact (fun hset => ?_)
      exact absurd (h.settles _ hset) (lt_irrefl _)
    · cases houter : outermost events other with
      | none =>
        rw [(hs.opened other).mpr houter] at hbefore
        cases hbefore
      | some first =>
        rw [Option.some_or]
        intro hfirst
        exact h.live other budget call hbefore (houter.trans hfirst)

theorem Sound.enter (h : Sound events s)
    (hcall : withCancelBudget accountId s owner = .ok (t, call)) :
    Sound (events ++ [(.enter owner, .entered call)]) t := by
  have hclaims : ¬ IsClaim (Action.enter owner, Answer.entered call) := by simp [IsClaim]
  have hconsumes : ¬ IsConsumption (Action.enter owner, Answer.entered call) := by
    simp [IsConsumption]
  obtain ⟨rfl, ⟨hnone, rfl⟩ | ⟨hsome, rfl⟩⟩ := withCancelBudget_ok hcall
  · have hbud := s.setBudget_self owner ⟨accountId owner, MAX_CANCEL_ATTEMPTS, true⟩
    refine ⟨h.toStarted.enter (by simp [hnone]) rfl ?_ ?_,
      h.toLive.enter h.toStarted rfl ?_, h.toPermitted.of_not hclaims hconsumes rfl, ?_, ?_⟩
    · exact hbud ▸ rfl
    · exact fun other hother => s.setBudget_other _ hother
    · intro other budget hfound
      by_cases hsame : other = owner
      · subst hsame
        rw [hbud] at hfound
        cases hfound
        exact .inl ⟨hnone, rfl, rfl⟩
      · exact .inr ((s.setBudget_other _ hsame).symm.trans hfound)
    · intro other budget hfound
      rw [h.permitsOf_concat, permitOf_eq_none (by simp), Option.toList_none, List.append_nil]
      by_cases hsame : other = owner
      · subst hsame
        rw [hbud] at hfound
        cases hfound
        simp [h.unspent other hnone]
      · exact h.spent other budget ((s.setBudget_other _ hsame).symm.trans hfound)
    · intro other hfound
      rw [h.permitsOf_concat, permitOf_eq_none (by simp), Option.toList_none, List.append_nil]
      by_cases hsame : other = owner
      · subst hsame
        rw [hbud] at hfound
        cases hfound
      · exact h.unspent other ((s.setBudget_other _ hsame).symm.trans hfound)
  · have hnot : s.budgets owner ≠ none := Option.isSome_iff_ne_none.mp hsome
    exact ⟨h.toStarted.enter (by simp [hnot]) rfl hsome (fun _ _ => rfl),
      h.toLive.enter h.toStarted rfl (fun _ _ hfound => .inr hfound),
      h.toPermitted.of_not hclaims hconsumes rfl,
      h.toCounted.of_not h.toPermitted hclaims (fun _ => id)
        (fun _ budget hbud => ⟨budget, hbud, rfl⟩)⟩

end Enter

theorem Sound.settle (h : Sound events s) {record : Call Owner}
    (hcall : s.calls[call]? = some record) :
    Sound (events ++ [(.settle call, .settled)]) (settleCancelBudget s record) := by
  have hstarts : ¬ Starts ((.settle call, .settled) : Event Owner) := by simp [Starts]
  have hclaims : ¬ IsClaim ((.settle call, .settled) : Event Owner) := by simp [IsClaim]
  have hconsumes : ¬ IsConsumption ((.settle call, .settled) : Event Owner) := by
    simp [IsConsumption]
  have hlt : call < s.calls.length := (List.getElem?_eq_some_iff.mp hcall).1
  have hmem : ∀ other : ℕ, (.settle other, .settled) ∈ events ++ [(.settle call, .settled)] ↔
      (.settle other, .settled) ∈ events ∨ other = call := by simp
  obtain ⟨owner, created⟩ := record
  have hsame : (created = true ∧ ∃ budget, s.budgets owner = some budget ∧
      settleCancelBudget s ⟨owner, created⟩ = s.setBudget owner { budget with active := false }) ∨
      (created = false ∧ settleCancelBudget s ⟨owner, created⟩ = s) := by
    cases created with
    | false => exact .inr ⟨rfl, rfl⟩
    | true =>
      cases hbud : s.budgets owner with
      | none =>
        have houter := (h.created call owner).mp hcall
        rw [(h.opened owner).mp hbud] at houter
        cases houter
      | some budget =>
        refine .inl ⟨rfl, budget, rfl, ?_⟩
        rw [settleCancelBudget, hbud]
  rcases hsame with ⟨rfl, budget, hbud, heq⟩ | ⟨rfl, heq⟩
  · rw [heq]
    have hnone : ∀ other, (s.setBudget owner { budget with active := false }).budgets other = none ↔
        s.budgets other = none := by
      intro other
      by_cases hother : other = owner
      · subst hother
        rw [State.setBudget_self, hbud]
        simp
      · rw [State.setBudget_other _ _ hother]
    refine ⟨h.toStarted.of_not hstarts rfl hnone, ⟨?_, ?_⟩, h.toPermitted.of_not hclaims
      hconsumes rfl,
      h.toCounted.of_not h.toPermitted hclaims (fun other => (hnone other).mp) ?_⟩
    · intro other hother
      rcases (hmem other).mp hother with hother | rfl
      · exact h.settles other hother
      · exact hlt
    · intro other found first hfound
      rw [outermost_of_not hstarts, hmem]
      intro hfirst
      by_cases hother : other = owner
      · subst hother
        rw [State.setBudget_self, Option.some.injEq] at hfound
        subst hfound
        have hcreated := (h.created call other).mp hcall
        rw [hfirst, Option.some.injEq] at hcreated
        simp [hcreated]
      · rw [State.setBudget_other _ _ hother] at hfound
        have hne : first ≠ call := by
          rintro rfl
          have hcreated := (h.created first other).mpr hfirst
          rw [hcall] at hcreated
          exact hother (by cases hcreated; rfl)
        simpa [hne] using h.live other found first hfound hfirst
    · intro other found hfound
      by_cases hother : other = owner
      · subst hother
        rw [State.setBudget_self, Option.some.injEq] at hfound
        subst hfound
        exact ⟨budget, hbud, rfl⟩
      · rw [State.setBudget_other _ _ hother] at hfound
        exact ⟨found, hfound, rfl⟩
  · rw [heq]
    refine ⟨h.toStarted.of_not hstarts rfl (fun _ => Iff.rfl), ⟨?_, ?_⟩,
      h.toPermitted.of_not hclaims hconsumes rfl, h.toCounted.of_not h.toPermitted hclaims
        (fun _ => id)
        (fun _ found hfound => ⟨found, hfound, rfl⟩)⟩
    · intro other hother
      rcases (hmem other).mp hother with hother | rfl
      · exact h.settles other hother
      · exact hlt
    · intro other found first hfound
      rw [outermost_of_not hstarts, hmem]
      intro hfirst
      have hne : first ≠ call := by
        rintro rfl
        have hcreated := (h.created first other).mpr hfirst
        rw [hcall] at hcreated
        cases hcreated
      simpa [hne] using h.live other found first hfound hfirst

theorem Sound.claim (h : Sound events s) {context : Option ℕ} {account order : String} {permit : ℕ}
    (hclaim : claimCancelAttempt s context account order = .ok (t, permit)) :
    Sound (events ++ [(.claim context account order, .permit permit)]) t := by
  obtain ⟨rfl, owner, budget, hstore, hbud, hact, -, hrem, rfl⟩ := claimCancelAttempt_ok hclaim
  let spent : Budget := { budget with remaining := budget.remaining - 1 }
  have hevent : ¬ Starts ((.claim context account order, .permit s.permits.length) : Event
    Owner) := by
    simp [Starts]
  have hnone : ∀ other, (s.setBudget owner spent).budgets other = none ↔
    s.budgets other = none := by
    intro other
    by_cases hother : other = owner
    · subst hother
      rw [State.setBudget_self, hbud]
      simp
    · rw [State.setBudget_other _ _ hother]
  have hctx : contextOwner (events ++ [(.claim context account order, .permit s.permits.length)])
      context = some owner := by
    rw [contextOwner_of_not hevent, h.contexts, hstore]
  have hpermits : ∀ other,
      permitsOf (events ++ [(.claim context account order, .permit s.permits.length)]) other =
        permitsOf events other ++ if other = owner then [s.permits.length] else [] := by
    intro other
    rw [h.permitsOf_concat]
    by_cases hother : other = owner
    · subst hother
      simp [permitOf, hctx]
    · simp [permitOf, hctx, hother, Ne.symm hother]
  refine ⟨h.toStarted.of_not hevent rfl hnone, h.toLive.of_not hevent
    (by simp [IsSettlement]) rfl ?_,
    ⟨?_, ?_, ?_⟩, ?_, ?_⟩
  · intro other found hfound
    by_cases hother : other = owner
    · subst hother
      rw [State.setBudget_self, Option.some.injEq] at hfound
      subst hfound
      exact ⟨budget, hbud, rfl⟩
    · rw [State.setBudget_other _ _ hother] at hfound
      exact ⟨found, hfound, rfl⟩
  · intro context' account' order' permit' hmem
    rcases List.mem_append.mp hmem with hmem | hmem
    · obtain ⟨known, used, hknown, hrecord⟩ := h.claimed context' account' order' permit' hmem
      have hlt := (List.getElem?_eq_some_iff.mp hrecord).1
      exact ⟨known, used, contextOwner_mono hknown, by rwa [List.getElem?_append_left hlt]⟩
    · rw [List.mem_singleton] at hmem
      cases hmem
      exact ⟨owner, false, hctx, List.getElem?_concat_length⟩
  · intro permit' record hrecord
    rcases Nat.lt_or_ge permit' s.permits.length with hlt | hge
    · rw [List.getElem?_append_left hlt] at hrecord
      obtain ⟨context', hmem, howner⟩ := h.issued permit' record hrecord
      exact ⟨context', List.mem_append_left _ hmem, contextOwner_mono howner⟩
    · obtain ⟨hlast, -⟩ := List.getElem?_eq_some_iff.mp hrecord
      rw [List.length_append, List.length_singleton] at hlast
      obtain rfl : permit' = s.permits.length := by omega
      rw [List.getElem?_concat_length, Option.some.injEq] at hrecord
      subst hrecord
      exact ⟨context, by simp, hctx⟩
  · intro context' permit' account' order' hmem
    obtain ⟨record, hrecord, hused⟩ := h.used context' permit' account' order' (by simpa using hmem)
    have hlt := (List.getElem?_eq_some_iff.mp hrecord).1
    exact ⟨record, by rwa [List.getElem?_append_left hlt], hused⟩
  · intro other found hfound
    rw [hpermits]
    by_cases hother : other = owner
    · subst hother
      rw [State.setBudget_self, Option.some.injEq] at hfound
      subst hfound
      have hcount := h.spent other budget hbud
      rw [if_pos rfl, List.length_append, List.length_singleton]
      change (permitsOf events other).length + 1 + (budget.remaining - 1) = MAX_CANCEL_ATTEMPTS
      omega
    · rw [State.setBudget_other _ _ hother] at hfound
      rw [if_neg hother, List.append_nil]
      exact h.spent other found hfound
  · intro other hfound
    have hbefore := (hnone other).mp hfound
    rw [hpermits, h.unspent other hbefore]
    by_cases hother : other = owner
    · subst hother
      rw [hbud] at hbefore
      cases hbefore
    · rw [if_neg hother]
      rfl

theorem Sound.consume (h : Sound events s) {context : Option ℕ} {account order : String}
    {permit : ℕ}
    (hcons : consumeCancelAttempt s context permit account order = .ok t) :
    Sound (events ++ [(.consume context permit account order, .consumed)]) t := by
  obtain ⟨owner, hpermit, -, -, rfl⟩ := consumeCancelAttempt_ok hcons
  have hevent : ¬ Starts ((.consume context permit account order, .consumed) : Event Owner) := by
    simp [Starts]
  have hlt := (List.getElem?_eq_some_iff.mp hpermit).1
  refine ⟨h.toStarted.of_not hevent rfl (fun _ => Iff.rfl),
    h.toLive.of_not hevent (by simp [IsSettlement]) rfl
      (fun _ found hfound => ⟨found, hfound, rfl⟩),
    ⟨?_, ?_, ?_⟩, h.toCounted.of_not h.toPermitted (by simp [IsClaim]) (fun _ => id)
      (fun _ found hfound => ⟨found, hfound, rfl⟩)⟩
  · intro context' account' order' permit' hmem
    obtain ⟨known, used, hknown, hrecord⟩ :=
      h.claimed context' account' order' permit' (by simpa using hmem)
    rw [contextOwner_of_not hevent]
    by_cases hsame : permit = permit'
    · subst hsame
      rw [hpermit, Option.some.injEq] at hrecord
      cases hrecord
      exact ⟨owner, true, hknown, List.getElem?_set_self hlt⟩
    · exact ⟨known, used, hknown, by rwa [List.getElem?_set_ne hsame]⟩
  · intro permit' record hrecord
    by_cases hsame : permit = permit'
    · subst hsame
      rw [List.getElem?_set_self hlt, Option.some.injEq] at hrecord
      subst hrecord
      obtain ⟨claimed, hmem, howner⟩ := h.issued permit _ hpermit
      exact ⟨claimed, List.mem_append_left _ hmem, contextOwner_mono howner⟩
    · rw [List.getElem?_set_ne hsame] at hrecord
      obtain ⟨claimed, hmem, howner⟩ := h.issued permit' record hrecord
      exact ⟨claimed, List.mem_append_left _ hmem, contextOwner_mono howner⟩
  · intro context' permit' account' order' hmem
    by_cases hsame : permit = permit'
    · subst hsame
      exact ⟨_, List.getElem?_set_self hlt, rfl⟩
    · have hold : (.consume context' permit' account' order', .consumed) ∈ events :=
        mem_of_mem_concat hmem (fun heq => hsame (by cases heq; rfl))
      obtain ⟨record, hrecord, hused⟩ := h.used context' permit' account' order' hold
      exact ⟨record, by rwa [List.getElem?_set_ne hsame], hused⟩

theorem Sound.step (h : Sound events s) (hstep : step accountId s event = some t) :
    Sound (events ++ [event]) t := by
  rcases step_cases hstep with ⟨owner, call, rfl, hcall⟩ | ⟨number, call, rfl, hcall, rfl⟩ |
    ⟨context, account, order, permit, rfl, hclaim⟩ | ⟨context, permit, account, order, rfl, hcons⟩ |
    ⟨action, thrown, rfl, rfl⟩
  · exact h.enter hcall
  · exact h.settle hcall
  · exact h.claim hclaim
  · exact h.consume hcons
  · exact h.threw action thrown

theorem sound_run (h : run (TradingCancelBudget.step accountId) initial events = some s) :
    Sound events s :=
  run_invariant sound_initial (fun _ _ _ _ hsound hstep => hsound.step hstep) h

theorem Sound.running (h : Sound events s) {budget : Budget} (hbud : s.budgets owner = some budget)
    (hact : budget.active = true) : Running events owner := by
  cases houter : outermost events owner with
  | none =>
    rw [(h.opened owner).mpr houter] at hbud
    cases hbud
  | some call => exact ⟨call, houter, (h.live owner budget call hbud houter).mp hact⟩

theorem not_settled_of_running (h : Running events owner) : ¬ Settled events owner := by
  rintro ⟨call, houter, hset⟩
  obtain ⟨first, hfirst, hnot⟩ := h
  rw [houter, Option.some.injEq] at hfirst
  exact hnot (hfirst ▸ hset)

end Soundness

section Runs

variable {Owner : Type} [DecidableEq Owner] {accountId : Owner → String}

theorem claimed_of_step {s t : State Owner} {context : Option ℕ} {account order : String}
    {permit : ℕ} (h : step accountId s (.claim context account order, .permit permit) = some t) :
    ∃ owner budget, s.storeOwner context = some owner ∧ s.budgets owner = some budget ∧
      budget.active = true := by
  rcases step_cases h with ⟨_, _, heq, -⟩ | ⟨_, _, heq, -⟩ | ⟨_, _, _, _, heq, hclaim⟩ |
    ⟨_, _, _, _, heq, -⟩ | ⟨_, _, heq, -⟩ <;> cases heq
  obtain ⟨-, owner, budget, hstore, hbud, hact, -⟩ := claimCancelAttempt_ok hclaim
  exact ⟨owner, budget, hstore, hbud, hact⟩

theorem consumed_of_step {s t : State Owner} {context : Option ℕ} {account order : String}
    {permit : ℕ}
    (h : step accountId s (.consume context permit account order, .consumed) = some t) :
    ∃ owner budget, s.permits[permit]? = some ⟨⟨account, order⟩, owner, false⟩ ∧
      s.budgets owner = some budget ∧ budget.active = true ∧ s.storeOwner context = some owner := by
  rcases step_cases h with ⟨_, _, heq, -⟩ | ⟨_, _, heq, -⟩ | ⟨_, _, _, _, heq, -⟩ |
    ⟨_, _, _, _, heq, hcons⟩ | ⟨_, _, heq, -⟩ <;> cases heq
  obtain ⟨owner, hpermit, hact, hstore, -⟩ := consumeCancelAttempt_ok hcons
  rw [State.isActive] at hact
  cases hbud : s.budgets owner with
  | none =>
    rw [hbud] at hact
    cases hact
  | some budget =>
    rw [hbud] at hact
    exact ⟨owner, budget, hpermit, hbud, hact, hstore⟩

/-- Over any run: five permits for an owner at most; each is consumed at most once, while the
outermost call of its owner runs, in a context of that owner and for what it was claimed for;
and once that call has settled, nothing of the owner is claimed or consumed. -/
theorem cancel_budget_bounds (accountId : Owner → String) (events : List (Event Owner))
    (s : State Owner) (h : run (step accountId) initial events = some s) :
    (∀ owner, (permitsOf events owner).length ≤ MAX_CANCEL_ATTEMPTS) ∧
    (∀ before context permit account order after,
      events = before ++ (.consume context permit account order, .consumed) :: after →
        (∀ context' account' order',
          (.consume context' permit account' order', .consumed) ∉ before) ∧
        ∃ owner claimed, (.claim claimed account order, .permit permit) ∈ before ∧
          contextOwner before claimed = some owner ∧ contextOwner before context = some owner ∧
          Running before owner) ∧
    ∀ before event after owner, events = before ++ event :: after → Settled before owner →
      (∀ context account order permit, contextOwner before context = some owner →
        event ≠ (.claim context account order, .permit permit)) ∧
      ∀ context permit account order, contextOwner before context = some owner ∨
          (∃ claimed account' order', (.claim claimed account' order', .permit permit) ∈ before ∧
            contextOwner before claimed = some owner) →
        event ≠ (.consume context permit account order, .consumed) := by
  have hprefix : ∀ before event after, events = before ++ event :: after →
      ∃ m n, Sound before m ∧ step accountId m event = some n := by
    rintro before event after rfl
    obtain ⟨m, hm, hrest⟩ := run_append.mp h
    obtain ⟨n, hn, -⟩ := run_cons.mp hrest
    exact ⟨m, n, sound_run hm, hn⟩
  refine ⟨?_, ?_, ?_⟩
  · intro owner
    have hsound := sound_run h
    cases hbud : s.budgets owner with
    | none =>
      rw [hsound.unspent owner hbud]
      exact Nat.zero_le _
    | some budget =>
      have hspent := hsound.spent owner budget hbud
      omega
  · intro before context permit account order after hsplit
    obtain ⟨m, n, hsound, hstep⟩ := hprefix before _ after hsplit
    obtain ⟨owner, budget, hpermit, hbud, hact, hstore⟩ := consumed_of_step hstep
    constructor
    · intro context' account' order' hmem
      obtain ⟨record, hrecord, hused⟩ := hsound.used context' permit account' order' hmem
      rw [hpermit, Option.some.injEq] at hrecord
      subst hrecord
      cases hused
    · obtain ⟨claimed, hmem, howner⟩ := hsound.issued permit _ hpermit
      exact ⟨owner, claimed, hmem, howner, (hsound.contexts context).trans hstore,
        hsound.running hbud hact⟩
  · intro before event after owner hsplit hset
    obtain ⟨m, n, hsound, hstep⟩ := hprefix before event after hsplit
    have hdead : ∀ budget, m.budgets owner = some budget → budget.active ≠ true :=
      fun budget hbud hact => not_settled_of_running (hsound.running hbud hact) hset
    constructor
    · rintro context account order permit howner rfl
      obtain ⟨found, budget, hstore, hbud, hact⟩ := claimed_of_step hstep
      rw [← hsound.contexts, howner, Option.some.injEq] at hstore
      exact hdead budget (hstore ▸ hbud) hact
    · rintro context permit account order howner rfl
      obtain ⟨found, budget, hpermit, hbud, hact, hstore⟩ := consumed_of_step hstep
      have hfound : found = owner := by
        rcases howner with howner | ⟨claimed, account', order', hmem, howner⟩
        · rw [← hsound.contexts, howner, Option.some.injEq] at hstore
          exact hstore.symm
        · obtain ⟨known, used, hknown, hrecord⟩ :=
            hsound.claimed claimed account' order' permit hmem
          rw [hpermit, Option.some.injEq] at hrecord
          cases hrecord
          rw [howner, Option.some.injEq] at hknown
          exact hknown.symm
      exact hdead budget (hfound ▸ hbud) hact

/-- A permit claimed in a call and consumed in a nested one; the claim that the nested call
leaves behind comes too late. -/
def nestedRun : List (Event ℕ) :=
  [(.enter 0, .entered 0), (.claim (some 0) "a" "order", .permit 0), (.enter 0, .entered 1),
    (.consume (some 1) 0 "a" "order", .consumed), (.settle 0, .settled),
    (.claim (some 1) "a" "late", .threw lacksContext)]

theorem cancel_budget_bounds_nested : ∃ owner claimed,
    (.claim claimed "a" "order", .permit 0) ∈ nestedRun.take 3 ∧
      contextOwner (nestedRun.take 3) claimed = some owner ∧
      contextOwner (nestedRun.take 3) (some 1) = some owner ∧ Running (nestedRun.take 3) owner := by
  have hrun : (run (step (fun _ => "a")) initial nestedRun).isSome = true := by decide
  obtain ⟨s, hs⟩ := Option.isSome_iff_exists.mp hrun
  obtain ⟨-, honce, -⟩ := cancel_budget_bounds _ _ s hs
  exact (honce (nestedRun.take 3) (some 1) 0 "a" "order" (nestedRun.drop 4) rfl).2

end Runs

end TsxCore.TradingCancelBudget
