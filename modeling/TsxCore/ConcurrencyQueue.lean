import TsxCore.Trace

/-!
# The concurrency queue (`queue.ts`)

An operation runs to its end before another one begins; what a task function does while it runs
is a later operation. The calls of `add` are numbered. A task function is called in a microtask
of its own, after `run` has taken its slot, and keeps the slot until its promise has settled.
The state remembers what was started, called, released, timed out, cleared and settled.
-/

namespace TsxCore.ConcurrencyQueue

section Code

/-- A number of JavaScript, as far as the limits look at it. -/
inductive Number
  | finite (value : ℚ)
  | infinite
  | negativeInfinite
  | nan

/-- `value > 0`. -/
def Number.positive : Number → Bool
  | .finite value => 0 < value
  | .infinite => true
  | .negativeInfinite => false
  | .nan => false

/-- `Number.isFinite(value) && value >= least ? Math.floor(value) : …`. -/
def Number.floorFrom (least : ℚ) : Number → Option ℤ
  | .finite value => if least ≤ value then some ⌊value⌋ else none
  | _ => none

/-- What a run keeps until its slot is released. -/
structure Slot where
  id : ℕ
  timer : Bool
  callerSettled : Bool

/-- A call of `run`, with the limits it met. -/
structure Start where
  id : ℕ
  running : ℤ
  maxConcurrency : ℤ

structure Queue where
  maxConcurrency : ℤ
  timeoutMs : Number
  maxPending : ℕ∞
  running : ℤ := 0
  queue : List ℕ := []
  paused : Bool := false
  slots : List Slot := []
  /-- The microtasks that will call a task function. -/
  callbacks : List ℕ := []
  added : ℕ := 0
  started : List Start := []
  called : List ℕ := []
  released : List ℕ := []
  timedOut : List ℕ := []
  cleared : List ℕ := []
  settled : List ℕ := []

variable (q : Queue)

def Queue.startedIds : List ℕ := q.started.map (·.id)

def isAtCapacity : Prop := q.maxPending ≤ q.queue.length
  deriving Decidable

/-- The promise of an `add` is resolved or rejected. -/
def settle (id : ℕ) : Queue := { q with settled := q.settled ++ [id] }

def run (id : ℕ) : Queue :=
  { q with
    running := q.running + 1
    slots := q.slots ++ [⟨id, q.timeoutMs.positive, false⟩]
    callbacks := q.callbacks ++ [id]
    started := q.started ++ [⟨id, q.running, q.maxConcurrency⟩] }

def next : Queue :=
  if q.paused then q
  else if q.running ≥ q.maxConcurrency then q
  else match q.queue with
    | [] => q
    | id :: rest => run { q with queue := rest } id

def add (isFunction : Bool) : Queue :=
  let added := { q with added := q.added + 1 }
  if isFunction = false then settle added q.added
  else if isAtCapacity q then settle added q.added
  else next { added with queue := q.queue ++ [q.added] }

def pause : Queue := { q with paused := true }

def resume : Queue :=
  if q.paused = false then q else next^[q.maxConcurrency.toNat] { q with paused := false }

def clear : Queue :=
  { q with
    queue := []
    cleared := q.cleared ++ q.queue
    settled := q.settled ++ q.queue }

/-- The signals that are aborted are no state of the queue. -/
def abortRunning : Queue := q

def updateSettings (maxConcurrency timeoutMs : Number) : Queue :=
  let updated := { q with
    maxConcurrency := (maxConcurrency.floorFrom 1).getD q.maxConcurrency
    timeoutMs := ((timeoutMs.floorFrom 0).map (fun value => .finite value)).getD q.timeoutMs }
  if updated.paused then updated
  else next^[(updated.maxConcurrency - updated.running).toNat] updated

def releaseSlot (id : ℕ) : Queue :=
  next { q with
    slots := q.slots.filter (fun slot => slot.id ≠ id)
    running := q.running - 1
    released := q.released ++ [id] }

/-- The callback of the promise of a task function, fulfilled or rejected. -/
def finish (slot : Slot) : Queue :=
  let released := releaseSlot q slot.id
  if slot.callerSettled then released else settle released slot.id

def fire (id : ℕ) (slot : Slot) : Slot :=
  if slot.id = id then { slot with timer := false, callerSettled := true } else slot

/-- The callback of `setTimeout`. -/
def expire (slot : Slot) : Queue :=
  let fired := { q with slots := q.slots.map (fire slot.id) }
  if slot.callerSettled then fired
  else settle { fired with timedOut := q.timedOut ++ [slot.id] } slot.id

end Code

section Runs

inductive Action
  | add (isFunction : Bool)
  | pause
  | resume
  | clear
  | abortRunning
  | updateSettings (maxConcurrency timeoutMs : Number)
  /-- The next microtask calls a task function. -/
  | call
  | finish (id : ℕ)
  | expire (id : ℕ)

def slotOf (q : Queue) (id : ℕ) : Option Slot := q.slots.find? (fun slot => slot.id = id)

def step (q : Queue) : Action → Option Queue
  | .add isFunction => some (add q isFunction)
  | .pause => some (pause q)
  | .resume => some (resume q)
  | .clear => some (clear q)
  | .abortRunning => some (abortRunning q)
  | .updateSettings maxConcurrency timeoutMs => some (updateSettings q maxConcurrency timeoutMs)
  | .call => match q.callbacks with
    | [] => none
    | id :: rest => some { q with callbacks := rest, called := q.called ++ [id] }
  | .finish id => if id ∈ q.called then (slotOf q id).map (finish q) else none
  | .expire id => ((slotOf q id).filter (·.timer)).map (expire q)

end Runs

section Invariant

variable {q : Queue}

def Awake (q : Queue) : Prop :=
  q.paused = true ∨ q.maxConcurrency ≤ q.running ∨ q.queue = []

theorem next_cases (q : Queue) : (next q = q ∧ Awake q) ∨
    ∃ id rest, q.queue = id :: rest ∧ q.running < q.maxConcurrency ∧
      next q = run { q with queue := rest } id := by
  unfold next
  split_ifs with hpaused hfull
  · exact .inl ⟨rfl, .inl hpaused⟩
  · exact .inl ⟨rfl, .inr (.inl hfull)⟩
  · cases hqueue : q.queue with
    | nil => exact .inl ⟨rfl, .inr (.inr hqueue)⟩
    | cons id rest => exact .inr ⟨id, rest, rfl, not_le.mp hfull, rfl⟩

theorem awake_iterate (n : ℕ) (hn : q.maxConcurrency ≤ q.running + n) : Awake (next^[n] q) := by
  induction n generalizing q with
  | zero => exact .inr (.inl (by simpa using hn))
  | succ n ih =>
    rw [Function.iterate_succ_apply]
    obtain ⟨hsame, hawake⟩ | ⟨id, rest, -, -, hrun⟩ := next_cases q
    · have hkept : next^[n] q = q := Function.iterate_fixed hsame n
      rw [hsame, hkept]
      exact hawake
    · apply ih
      rw [hrun]
      simp only [run]
      push_cast at hn
      omega

structure Valid (q : Queue) : Prop where
  positive : 1 ≤ q.maxConcurrency
  running : q.running = q.slots.length
  ordered : (q.startedIds ++ q.queue).Pairwise (· < ·)
  fresh : ∀ id ∈ q.startedIds ++ q.queue, id < q.added
  cleared : ∀ id ∈ q.cleared, id < q.added ∧ id ∉ q.startedIds ++ q.queue
  limits : ∀ start ∈ q.started, start.running < start.maxConcurrency
  capacity : (q.queue.length : ℕ∞) ≤ q.maxPending
  slots : q.slots.map (·.id) = q.startedIds.filter (fun id => id ∉ q.released)
  released : ∀ id ∈ q.released, id ∈ q.startedIds
  calls : q.startedIds = q.called ++ q.callbacks
  settledOnce : q.settled.Nodup
  settled : ∀ id, id ∈ q.settled ↔ id < q.added ∧ id ∉ q.queue ∧
    ∀ slot ∈ q.slots, slot.id = id → slot.callerSettled = true
  timedOut : ∀ slot ∈ q.slots, (slot.callerSettled = true ↔ slot.id ∈ q.timedOut)
  expired : ∀ id ∈ q.timedOut, id ∈ q.startedIds

namespace Valid

variable {id : ℕ} {slot : Slot}

theorem disjoint (h : Valid q) (hstarted : id ∈ q.startedIds) : id ∉ q.queue := by
  intro hqueue
  exact lt_irrefl id ((List.pairwise_append.mp h.ordered).2.2 id hstarted id hqueue)

theorem slot_started (h : Valid q) (hslot : slot ∈ q.slots) :
    slot.id ∈ q.startedIds ∧ slot.id ∉ q.released := by
  have hmem : slot.id ∈ q.slots.map (·.id) := List.mem_map_of_mem hslot
  rw [h.slots, List.mem_filter, decide_eq_true_eq] at hmem
  exact hmem

theorem run (h : Valid q) {rest : List ℕ} (hqueue : q.queue = id :: rest)
    (hfree : q.running < q.maxConcurrency) :
    Valid (ConcurrencyQueue.run { q with queue := rest } id) := by
  have hids : (ConcurrencyQueue.run { q with queue := rest } id).startedIds =
      q.startedIds ++ [id] := List.map_append
  have hlist : q.startedIds ++ q.queue = (q.startedIds ++ [id]) ++ rest := by
    rw [hqueue, List.append_assoc, List.singleton_append]
  have hnew : id ∉ q.startedIds := fun hstarted =>
    h.disjoint hstarted (hqueue ▸ List.mem_cons_self)
  have hmono {x : ℕ} (hx : x ∈ q.startedIds) : x ∈ q.startedIds ++ [id] :=
    List.mem_append_left _ hx
  refine ⟨h.positive, ?_, ?_, ?_, ?_, ?_, ?_, ?_, ?_, ?_, h.settledOnce, ?_, ?_, ?_⟩
  · change q.running + 1 = ((q.slots ++ [_]).length : ℤ)
    rw [h.running, List.length_append, List.length_singleton]
    push_cast
    rfl
  · rw [hids]
    exact hlist ▸ h.ordered
  · rw [hids]
    exact hlist ▸ h.fresh
  · rw [hids]
    exact hlist ▸ h.cleared
  · intro start hstart
    obtain hold | hlast := List.mem_append.mp hstart
    · exact h.limits start hold
    · obtain rfl := List.mem_singleton.mp hlast
      exact hfree
  · have hcapacity := h.capacity
    rw [hqueue] at hcapacity
    refine le_trans ?_ hcapacity
    exact_mod_cast Nat.le_succ rest.length
  · rw [hids]
    change (q.slots ++ [_]).map Slot.id = _
    have hkept : id ∉ q.released := fun hrel => hnew (h.released id hrel)
    rw [List.map_append, h.slots, List.filter_append]
    congr 1
    change [id] = [id].filter (fun x => x ∉ q.released)
    rw [List.filter_singleton, decide_eq_true hkept]
    rfl
  · intro x hx
    rw [hids]
    exact hmono (h.released x hx)
  · rw [hids, h.calls, List.append_assoc]
    rfl
  · intro x
    refine (h.settled x).trans ?_
    refine and_congr_right (fun _ => ?_)
    rw [hqueue, List.mem_cons, not_or, and_assoc]
    refine ⟨?_, ?_⟩
    · rintro ⟨hne, hrest, hslots⟩
      refine ⟨hrest, ?_⟩
      intro slot hslot hid
      obtain hold | hlast := List.mem_append.mp hslot
      · exact hslots slot hold hid
      · obtain rfl := List.mem_singleton.mp hlast
        exact absurd hid.symm hne
    · rintro ⟨hrest, hslots⟩
      refine ⟨?_, hrest, fun slot hslot => hslots slot (List.mem_append_left _ hslot)⟩
      rintro rfl
      have hfalse := hslots _ (List.mem_append_right _ (List.mem_singleton.mpr rfl)) rfl
      cases hfalse
  · intro slot hslot
    obtain hold | hlast := List.mem_append.mp hslot
    · exact h.timedOut slot hold
    · obtain rfl := List.mem_singleton.mp hlast
      refine ⟨fun hfalse => Bool.noConfusion hfalse, ?_⟩
      intro hexpired
      exact absurd (h.expired id hexpired) hnew
  · intro x hx
    rw [hids]
    exact hmono (h.expired x hx)

theorem next (h : Valid q) : Valid (next q) := by
  obtain ⟨hsame, -⟩ | ⟨id, rest, hqueue, hfree, hrun⟩ := next_cases q
  · rw [hsame]
    exact h
  · rw [hrun]
    exact h.run hqueue hfree

theorem iterate (h : Valid q) (n : ℕ) : Valid (ConcurrencyQueue.next^[n] q) := by
  induction n with
  | zero => exact h
  | succ n ih =>
    rw [Function.iterate_succ_apply']
    exact ih.next

theorem settle_nodup (h : Valid q) (hid : id ∉ q.settled) : (q.settled ++ [id]).Nodup := by
  rw [← List.concat_eq_append]
  exact h.settledOnce.concat hid

theorem push (h : Valid q) (hfree : ¬ isAtCapacity q) :
    Valid { q with added := q.added + 1, queue := q.queue ++ [q.added] } := by
  have hlist : q.startedIds ++ (q.queue ++ [q.added]) = (q.startedIds ++ q.queue) ++ [q.added] :=
    (List.append_assoc _ _ _).symm
  have hold {x : ℕ} (hx : x ∈ q.startedIds ++ q.queue) : x ≠ q.added := (h.fresh x hx).ne
  refine { h with ordered := ?_, fresh := ?_, cleared := ?_, capacity := ?_, settled := ?_ }
  · change (q.startedIds ++ (q.queue ++ [q.added])).Pairwise (· < ·)
    rw [hlist, List.pairwise_append]
    refine ⟨h.ordered, List.pairwise_singleton _ _, ?_⟩
    intro x hx y hy
    obtain rfl := List.mem_singleton.mp hy
    exact h.fresh x hx
  · intro x hx
    change x ∈ q.startedIds ++ (q.queue ++ [q.added]) at hx
    rw [hlist, List.mem_append, List.mem_singleton] at hx
    obtain hx | rfl := hx
    · exact Nat.lt_succ_of_lt (h.fresh x hx)
    · exact Nat.lt_succ_self _
  · intro x hx
    obtain ⟨hlt, hnot⟩ := h.cleared x hx
    refine ⟨Nat.lt_succ_of_lt hlt, ?_⟩
    change x ∉ q.startedIds ++ (q.queue ++ [q.added])
    rw [hlist, List.mem_append, List.mem_singleton, not_or]
    exact ⟨hnot, hlt.ne⟩
  · change ((q.queue ++ [q.added]).length : ℕ∞) ≤ q.maxPending
    rw [List.length_append, List.length_singleton]
    push_cast
    exact Order.add_one_le_of_lt (not_le.mp hfree)
  · intro x
    refine (h.settled x).trans ?_
    change _ ↔ x < q.added + 1 ∧ x ∉ q.queue ++ [q.added] ∧
      ∀ slot ∈ q.slots, slot.id = x → slot.callerSettled = true
    have hne : x < q.added → ¬ x = q.added := ne_of_lt
    rw [List.mem_append, List.mem_singleton, not_or, Nat.lt_succ_iff_lt_or_eq]
    tauto

theorem reject (h : Valid q) : Valid (settle { q with added := q.added + 1 } q.added) := by
  have hold {x : ℕ} (hx : x ∈ q.startedIds ++ q.queue) : x ≠ q.added := (h.fresh x hx).ne
  refine { h with fresh := ?_, cleared := ?_, settledOnce := ?_, settled := ?_ }
  · intro x hx
    exact Nat.lt_succ_of_lt (h.fresh x hx)
  · intro x hx
    obtain ⟨hlt, hnot⟩ := h.cleared x hx
    exact ⟨Nat.lt_succ_of_lt hlt, hnot⟩
  · exact h.settle_nodup (fun hmem => lt_irrefl q.added ((h.settled q.added).mp hmem).1)
  · intro x
    change x ∈ q.settled ++ [q.added] ↔ x < q.added + 1 ∧ x ∉ q.queue ∧ _
    rw [List.mem_append, List.mem_singleton, h.settled, Nat.lt_succ_iff_lt_or_eq]
    refine ⟨?_, ?_⟩
    · rintro (⟨hlt, hrest⟩ | rfl)
      · exact ⟨.inl hlt, hrest⟩
      · refine ⟨.inr rfl, fun hqueue => hold (List.mem_append_right _ hqueue) rfl, ?_⟩
        intro slot hslot hid
        exact absurd hid (hold (List.mem_append_left _ (h.slot_started hslot).1))
    · rintro ⟨hlt | rfl, hrest⟩
      · exact .inl ⟨hlt, hrest⟩
      · exact .inr rfl

theorem clear (h : Valid q) : Valid (clear q) := by
  have hqueue {x : ℕ} (hx : x ∈ q.queue) : x < q.added ∧ x ∉ q.startedIds :=
    ⟨h.fresh x (List.mem_append_right _ hx), fun hstarted => h.disjoint hstarted hx⟩
  have hids : (ConcurrencyQueue.clear q).startedIds ++ (ConcurrencyQueue.clear q).queue =
      q.startedIds := List.append_nil _
  obtain ⟨hstarted, hwaiting, -⟩ := List.pairwise_append.mp h.ordered
  refine { h with
    ordered := ?_, fresh := ?_, cleared := ?_, capacity := ?_, settledOnce := ?_, settled := ?_ }
  · rw [hids]
    exact hstarted
  · rw [hids]
    exact fun x hx => h.fresh x (List.mem_append_left _ hx)
  · rw [hids]
    intro x hx
    obtain hold | hnew := List.mem_append.mp hx
    · obtain ⟨hlt, hnot⟩ := h.cleared x hold
      exact ⟨hlt, fun hmem => hnot (List.mem_append_left _ hmem)⟩
    · exact hqueue hnew
  · exact zero_le
  · apply List.Nodup.append h.settledOnce (hwaiting.imp ne_of_lt)
    intro x hset hx
    exact ((h.settled x).mp hset).2.1 hx
  · intro x
    change x ∈ q.settled ++ q.queue ↔ x < q.added ∧ x ∉ [] ∧ _
    rw [List.mem_append, h.settled]
    refine ⟨?_, ?_⟩
    · rintro (⟨hlt, -, hslots⟩ | hx)
      · exact ⟨hlt, List.not_mem_nil, hslots⟩
      · refine ⟨(hqueue hx).1, List.not_mem_nil, ?_⟩
        intro slot hslot hid
        exact absurd (hid ▸ (h.slot_started hslot).1) (hqueue hx).2
    · rintro ⟨hlt, -, hslots⟩
      by_cases hx : x ∈ q.queue
      · exact .inr hx
      · exact .inl ⟨hlt, hx, hslots⟩

theorem slot_ids (h : Valid q) : (q.slots.map (·.id)).Nodup := by
  rw [h.slots]
  exact ((List.pairwise_append.mp h.ordered).1.imp ne_of_lt).filter _

theorem slot_eq (h : Valid q) {other : Slot} (hslot : slot ∈ q.slots) (hother : other ∈ q.slots)
    (hid : other.id = slot.id) : other = slot :=
  List.inj_on_of_nodup_map h.slot_ids hother hslot hid

theorem slot_fresh (h : Valid q) (hslot : slot ∈ q.slots) : slot.id < q.added ∧ slot.id ∉ q.queue :=
  ⟨h.fresh slot.id (List.mem_append_left _ (h.slot_started hslot).1),
    h.disjoint (h.slot_started hslot).1⟩

theorem settled_slot (h : Valid q) (hslot : slot ∈ q.slots) :
    slot.id ∈ q.settled ↔ slot.callerSettled = true := by
  rw [h.settled]
  obtain ⟨hlt, hqueue⟩ := h.slot_fresh hslot
  refine ⟨fun hall => hall.2.2 slot hslot rfl, ?_⟩
  intro hset
  refine ⟨hlt, hqueue, ?_⟩
  intro other hother hid
  rw [h.slot_eq hslot hother hid]
  exact hset

theorem mem_unless {log : List ℕ} {x : ℕ} {b : Bool} (h : b = true → id ∈ log) :
    x ∈ (if b then log else log ++ [id]) ↔ x ∈ log ∨ x = id := by
  split_ifs with hb
  · refine ⟨.inl, ?_⟩
    rintro (hx | rfl)
    · exact hx
    · exact h hb
  · rw [List.mem_append, List.mem_singleton]

/-- A slot that is given back, and the promise of its task settled if it was not before. -/
theorem release (h : Valid q) (hslot : slot ∈ q.slots) :
    Valid { q with
      slots := q.slots.filter (fun other => other.id ≠ slot.id)
      running := q.running - 1
      released := q.released ++ [slot.id]
      settled := if slot.callerSettled then q.settled else q.settled ++ [slot.id] } := by
  have hids : (q.slots.filter (fun other => other.id ≠ slot.id)).map (·.id) =
      (q.slots.map (·.id)).filter (fun id => id ≠ slot.id) := by
    rw [List.filter_map]
    rfl
  refine { h with
    running := ?_, slots := ?_, released := ?_, settledOnce := ?_, settled := ?_, timedOut := ?_ }
  · change q.running - 1 = ((q.slots.filter (fun other => other.id ≠ slot.id)).length : ℤ)
    have herase : (q.slots.map (·.id)).filter (fun id => id ≠ slot.id) =
        (q.slots.map (·.id)).erase slot.id := by
      rw [h.slot_ids.erase_eq_filter]
      apply List.filter_congr
      intro x _
      rw [bne, beq_eq_decide, decide_not]
    have hlen : (q.slots.filter (fun other => other.id ≠ slot.id)).length =
        q.slots.length - 1 := by
      rw [← List.length_map (·.id), hids, herase,
        List.length_erase_of_mem (List.mem_map_of_mem hslot), List.length_map]
    have hpos : 0 < q.slots.length := List.length_pos_of_mem hslot
    rw [hlen, h.running]
    omega
  · change (q.slots.filter (fun other => other.id ≠ slot.id)).map (·.id) =
      q.startedIds.filter (fun id => id ∉ q.released ++ [slot.id])
    rw [hids, h.slots, List.filter_filter]
    apply List.filter_congr
    intro x _
    simp only [List.mem_append, List.mem_singleton, not_or, ne_eq, Bool.decide_and]
    exact Bool.and_comm _ _
  · intro x hx
    obtain hold | hnew := List.mem_append.mp hx
    · exact h.released x hold
    · obtain rfl := List.mem_singleton.mp hnew
      exact (h.slot_started hslot).1
  · change (if slot.callerSettled then q.settled else q.settled ++ [slot.id]).Nodup
    split_ifs with hcase
    · exact h.settledOnce
    · exact h.settle_nodup (fun hmem => hcase ((h.settled_slot hslot).mp hmem))
  · intro x
    refine (mem_unless (h.settled_slot hslot).mpr).trans ?_
    rw [h.settled]
    refine ⟨?_, ?_⟩
    · rintro (⟨hlt, hqueue, hslots⟩ | rfl)
      · exact ⟨hlt, hqueue, fun other hother => hslots other (List.mem_filter.mp hother).1⟩
      · obtain ⟨hlt, hqueue⟩ := h.slot_fresh hslot
        refine ⟨hlt, hqueue, ?_⟩
        intro other hother hid
        have hne := (List.mem_filter.mp hother).2
        simp [hid] at hne
    · rintro ⟨hlt, hqueue, hslots⟩
      by_cases hx : x = slot.id
      · exact .inr hx
      · refine .inl ⟨hlt, hqueue, ?_⟩
        intro other hother hid
        refine hslots other (List.mem_filter.mpr ⟨hother, ?_⟩) hid
        rw [decide_eq_true_eq, hid]
        exact hx
  · intro other hother
    exact h.timedOut other (List.mem_filter.mp hother).1

theorem fire_id (id : ℕ) (slot : Slot) : (fire id slot).id = slot.id := by
  unfold fire
  split_ifs <;> rfl

theorem fire_settled (h : Valid q) {other : Slot} (hslot : slot ∈ q.slots)
    (hother : other ∈ q.slots) :
    (fire slot.id other).callerSettled = true ↔ other.callerSettled = true ∨ other = slot := by
  unfold fire
  split_ifs with hid
  · exact iff_of_true rfl (.inr (h.slot_eq hslot hother hid))
  · refine ⟨.inl, ?_⟩
    rintro (hset | rfl)
    · exact hset
    · exact absurd rfl hid

theorem settled_fire (h : Valid q) (hslot : slot ∈ q.slots) (x : ℕ) :
    (x ∈ q.settled ∨ x = slot.id) ↔ x < q.added ∧ x ∉ q.queue ∧
      ∀ other ∈ q.slots.map (fire slot.id), other.id = x → other.callerSettled = true := by
  rw [h.settled]
  refine ⟨?_, ?_⟩
  · rintro (⟨hlt, hqueue, hslots⟩ | rfl)
    · refine ⟨hlt, hqueue, ?_⟩
      intro _ hmem hid
      obtain ⟨other, hother, rfl⟩ := List.mem_map.mp hmem
      rw [fire_id] at hid
      exact (h.fire_settled hslot hother).mpr (.inl (hslots other hother hid))
    · obtain ⟨hlt, hqueue⟩ := h.slot_fresh hslot
      refine ⟨hlt, hqueue, ?_⟩
      intro _ hmem hid
      obtain ⟨other, hother, rfl⟩ := List.mem_map.mp hmem
      rw [fire_id] at hid
      exact (h.fire_settled hslot hother).mpr (.inr (h.slot_eq hslot hother hid))
  · rintro ⟨hlt, hqueue, hslots⟩
    by_cases hx : x = slot.id
    · exact .inr hx
    · refine .inl ⟨hlt, hqueue, ?_⟩
      intro other hother hid
      have hfired := hslots _ (List.mem_map_of_mem hother) ((fire_id slot.id other).trans hid)
      obtain hset | rfl := (h.fire_settled hslot hother).mp hfired
      · exact hset
      · exact absurd hid.symm hx

theorem expire_eq : ConcurrencyQueue.expire q slot = { q with
    slots := q.slots.map (fire slot.id)
    timedOut := if slot.callerSettled then q.timedOut else q.timedOut ++ [slot.id]
    settled := if slot.callerSettled then q.settled else q.settled ++ [slot.id] } := by
  unfold ConcurrencyQueue.expire
  split_ifs <;> rfl

theorem expire (h : Valid q) (hslot : slot ∈ q.slots) : Valid (ConcurrencyQueue.expire q slot) := by
  have hids : (q.slots.map (fire slot.id)).map (·.id) = q.slots.map (·.id) := by
    rw [List.map_map]
    exact List.map_congr_left (fun other _ => fire_id slot.id other)
  have hexpired {x : ℕ} : x ∈ (if slot.callerSettled then q.timedOut else
      q.timedOut ++ [slot.id]) ↔ x ∈ q.timedOut ∨ x = slot.id :=
    mem_unless (h.timedOut slot hslot).mp
  rw [expire_eq]
  refine { h with
    running := ?_, slots := ?_, settledOnce := ?_, settled := ?_, timedOut := ?_, expired := ?_ }
  · change q.running = ((q.slots.map (fire slot.id)).length : ℤ)
    rw [List.length_map]
    exact h.running
  · exact hids.trans h.slots
  · change (if slot.callerSettled then q.settled else q.settled ++ [slot.id]).Nodup
    split_ifs with hcase
    · exact h.settledOnce
    · exact h.settle_nodup (fun hmem => hcase ((h.settled_slot hslot).mp hmem))
  · intro x
    exact (mem_unless (h.settled_slot hslot).mpr).trans (h.settled_fire hslot x)
  · intro _ hmem
    obtain ⟨other, hother, rfl⟩ := List.mem_map.mp hmem
    rw [fire_id, h.fire_settled hslot hother, h.timedOut other hother]
    refine Iff.trans ?_ hexpired.symm
    refine or_congr_right ⟨fun heq => congrArg Slot.id heq, ?_⟩
    exact h.slot_eq hslot hother
  · intro x hx
    obtain hold | rfl := hexpired.mp hx
    · exact h.expired x hold
    · exact (h.slot_started hslot).1

end Valid

theorem next_settle (id : ℕ) : settle (next q) id = next (settle q id) := by
  unfold next
  change _ = if q.paused then _ else if q.running ≥ q.maxConcurrency then _ else
    match q.queue with
    | [] => settle q id
    | other :: rest => run { settle q id with queue := rest } other
  split_ifs
  · rfl
  · rfl
  · cases q.queue <;> rfl

theorem finish_eq {slot : Slot} : finish q slot = next { q with
    slots := q.slots.filter (fun other => other.id ≠ slot.id)
    running := q.running - 1
    released := q.released ++ [slot.id]
    settled := if slot.callerSettled then q.settled else q.settled ++ [slot.id] } := by
  unfold finish releaseSlot
  dsimp only
  split_ifs
  · rfl
  · rw [next_settle]
    rfl

theorem mem_of_slotOf {id : ℕ} {slot : Slot} (h : slotOf q id = some slot) :
    slot ∈ q.slots ∧ slot.id = id := by
  refine ⟨List.mem_of_find?_eq_some h, ?_⟩
  have hid := List.find?_some h
  rwa [decide_eq_true_eq] at hid

theorem floorFrom_le {least : ℚ} {value : Number} {floor : ℤ}
    (h : value.floorFrom least = some floor) : ⌊least⌋ ≤ floor := by
  cases value with
  | finite value =>
    simp only [Number.floorFrom] at h
    split_ifs at h with hle
    obtain rfl := Option.some.inj h
    exact Int.floor_le_floor hle
  | infinite => cases h
  | negativeInfinite => cases h
  | nan => cases h

theorem updated_positive {maxConcurrency : Number} (h : 1 ≤ q.maxConcurrency) :
    1 ≤ (maxConcurrency.floorFrom 1).getD q.maxConcurrency := by
  cases hfloor : maxConcurrency.floorFrom 1 with
  | none => exact h
  | some floor =>
    have hle := floorFrom_le hfloor
    rwa [Int.floor_one] at hle

theorem valid_step {next : Queue} {action : Action} (h : Valid q)
    (hstep : step q action = some next) : Valid next := by
  cases action
  all_goals
    simp only [step, Option.some.injEq] at hstep
  case add isFunction =>
    obtain rfl := hstep
    unfold add
    split_ifs with hfunction hfull
    · exact h.reject
    · exact h.reject
    · exact (h.push hfull).next
  case pause =>
    obtain rfl := hstep
    exact { h with }
  case resume =>
    obtain rfl := hstep
    unfold resume
    split_ifs
    · exact h
    · have hresumed : Valid { q with paused := false } := { h with }
      exact hresumed.iterate _
  case clear =>
    obtain rfl := hstep
    exact h.clear
  case abortRunning =>
    obtain rfl := hstep
    exact h
  case updateSettings maxConcurrency timeoutMs =>
    obtain rfl := hstep
    have hupdated : Valid { q with
        maxConcurrency := (maxConcurrency.floorFrom 1).getD q.maxConcurrency
        timeoutMs := ((timeoutMs.floorFrom 0).map (fun value => .finite value)).getD
          q.timeoutMs } :=
      { h with positive := updated_positive h.positive }
    unfold updateSettings
    dsimp only
    split_ifs
    · exact hupdated
    · exact hupdated.iterate _
  case call =>
    cases hcallbacks : q.callbacks with
    | nil =>
      rw [hcallbacks] at hstep
      cases hstep
    | cons id rest =>
      rw [hcallbacks] at hstep
      obtain rfl := Option.some.inj hstep
      refine { h with calls := ?_ }
      have hcalls := h.calls
      rw [hcallbacks] at hcalls
      rw [List.append_assoc, List.singleton_append]
      exact hcalls
  case finish id =>
    split_ifs at hstep
    obtain ⟨slot, hslot, rfl⟩ := Option.map_eq_some_iff.mp hstep
    rw [finish_eq]
    exact (h.release (mem_of_slotOf hslot).1).next
  case expire id =>
    obtain ⟨slot, hslot, rfl⟩ := Option.map_eq_some_iff.mp hstep
    exact h.expire (mem_of_slotOf (Option.filter_eq_some_iff.mp hslot).1).1

theorem awake_next (h : q.paused = true ∨ q.maxConcurrency ≤ q.running + 1 ∨ q.queue.length ≤ 1) :
    Awake (next q) := by
  obtain ⟨hsame, hawake⟩ | ⟨id, rest, hqueue, hfree, hrun⟩ := next_cases q
  · rw [hsame]
    exact hawake
  · rw [hrun]
    obtain hpaused | hfull | hone := h
    · exact .inl hpaused
    · exact .inr (.inl hfull)
    · rw [hqueue, List.length_cons] at hone
      have hrest : rest = [] := List.eq_nil_of_length_eq_zero (by omega)
      exact .inr (.inr hrest)

theorem awake_step {following : Queue} {action : Action} (hvalid : Valid q) (h : Awake q)
    (hstep : step q action = some following) : Awake following := by
  have hrunning : 0 ≤ q.running := by
    rw [hvalid.running]
    exact Int.natCast_nonneg _
  cases action
  all_goals
    simp only [step, Option.some.injEq] at hstep
  case add isFunction =>
    obtain rfl := hstep
    unfold add
    split_ifs with hfunction hfull
    · exact h
    · exact h
    · apply awake_next
      obtain hpaused | hbusy | hempty := h
      · exact .inl hpaused
      · exact .inr (.inl (by exact hbusy.trans (by dsimp only; omega)))
      · refine .inr (.inr ?_)
        rw [hempty]
        exact le_rfl
  case pause =>
    obtain rfl := hstep
    exact .inl rfl
  case resume =>
    obtain rfl := hstep
    unfold resume
    split_ifs
    · exact h
    · apply awake_iterate
      dsimp only
      omega
  case clear =>
    obtain rfl := hstep
    exact .inr (.inr rfl)
  case abortRunning =>
    obtain rfl := hstep
    exact h
  case updateSettings maxConcurrency timeoutMs =>
    obtain rfl := hstep
    unfold updateSettings
    dsimp only
    split_ifs with hpaused
    · exact .inl hpaused
    · apply awake_iterate
      dsimp only
      omega
  case call =>
    split at hstep
    · cases hstep
    · obtain rfl := Option.some.inj hstep
      exact h
  case finish id =>
    split_ifs at hstep
    obtain ⟨slot, -, rfl⟩ := Option.map_eq_some_iff.mp hstep
    rw [finish_eq]
    apply awake_next
    obtain hpaused | hbusy | hempty := h
    · exact .inl hpaused
    · refine .inr (.inl ?_)
      dsimp only
      omega
    · refine .inr (.inr ?_)
      rw [hempty]
      exact Nat.zero_le 1
  case expire id =>
    obtain ⟨slot, -, rfl⟩ := Option.map_eq_some_iff.mp hstep
    rw [Valid.expire_eq]
    exact h

end Invariant

section Runs

variable {q : Queue} {actions : List Action} {maxConcurrency : ℤ} {timeoutMs : Number}
  {maxPending : ℕ∞}

/-- `new ConcurrencyQueue(maxConcurrency, timeoutMs, maxPending)`. -/
def create (maxConcurrency : ℤ) (timeoutMs : Number) (maxPending : ℕ∞) : Queue where
  maxConcurrency := maxConcurrency
  timeoutMs := timeoutMs
  maxPending := maxPending

theorem valid_create (hmax : 1 ≤ maxConcurrency) :
    Valid (create maxConcurrency timeoutMs maxPending) where
  positive := hmax
  running := rfl
  ordered := List.Pairwise.nil
  fresh := by
    intro id hid
    cases hid
  cleared := by
    intro id hid
    cases hid
  limits := by
    intro start hstart
    cases hstart
  capacity := zero_le
  slots := rfl
  released := by
    intro id hid
    cases hid
  calls := rfl
  settledOnce := List.nodup_nil
  settled := by
    intro id
    refine iff_of_false List.not_mem_nil ?_
    rintro ⟨hlt, -⟩
    exact Nat.not_lt_zero id hlt
  timedOut := by
    intro slot hslot
    cases hslot
  expired := by
    intro id hid
    cases hid

theorem maxPending_next : (next q).maxPending = q.maxPending := by
  obtain ⟨hsame, -⟩ | ⟨id, rest, -, -, hrun⟩ := next_cases q
  · rw [hsame]
  · rw [hrun]
    rfl

theorem maxPending_iterate (n : ℕ) : (next^[n] q).maxPending = q.maxPending := by
  induction n with
  | zero => rfl
  | succ n ih => rw [Function.iterate_succ_apply', maxPending_next, ih]

theorem maxPending_step {following : Queue} {action : Action}
    (hstep : step q action = some following) : following.maxPending = q.maxPending := by
  cases action
  all_goals
    simp only [step, Option.some.injEq] at hstep
  case add isFunction =>
    obtain rfl := hstep
    unfold add
    split_ifs
    · rfl
    · rfl
    · exact maxPending_next
  case resume =>
    obtain rfl := hstep
    unfold resume
    split_ifs
    · rfl
    · exact maxPending_iterate _
  case updateSettings maxConcurrency timeoutMs =>
    obtain rfl := hstep
    unfold updateSettings
    dsimp only
    split_ifs
    · rfl
    · exact maxPending_iterate _
  case call =>
    split at hstep
    · cases hstep
    · obtain rfl := Option.some.inj hstep
      rfl
  case finish id =>
    split_ifs at hstep
    obtain ⟨slot, -, rfl⟩ := Option.map_eq_some_iff.mp hstep
    rw [finish_eq]
    exact maxPending_next
  case expire id =>
    obtain ⟨slot, -, rfl⟩ := Option.map_eq_some_iff.mp hstep
    rw [Valid.expire_eq]
  case pause | clear | abortRunning =>
    obtain rfl := hstep
    rfl

theorem run_valid (hmax : 1 ≤ maxConcurrency)
    (hrun : Trace.run step (create maxConcurrency timeoutMs maxPending) actions = some q) :
    Valid q ∧ Awake q := by
  refine @Trace.run_invariant _ _ _ _ q actions (fun _ q => Valid q ∧ Awake q)
    ⟨valid_create hmax, .inr (.inr rfl)⟩ ?_ hrun
  rintro _ q action following ⟨hvalid, hawake⟩ hstep
  exact ⟨valid_step hvalid hstep, awake_step hvalid hawake hstep⟩

theorem maxPending_run
    (hrun : Trace.run step (create maxConcurrency timeoutMs maxPending) actions = some q) :
    q.maxPending = maxPending := by
  refine @Trace.run_preserves _ _ _ _ q actions (fun q => q.maxPending = maxPending) ?_ rfl hrun
  intro q action following _ hkept hstep
  exact (maxPending_step hstep).trans hkept

theorem settled_iff (h : Valid q) {id : ℕ} (hid : id < q.added) : id ∈ q.settled ↔
    ¬ (id ∈ q.queue ∨ id ∈ q.startedIds ∧ id ∉ q.released ∧ id ∉ q.timedOut) := by
  have hslot : id ∈ q.startedIds ∧ id ∉ q.released ↔ ∃ slot ∈ q.slots, slot.id = id := by
    rw [← List.mem_map, h.slots, List.mem_filter, decide_eq_true_eq]
  rw [h.settled, not_or]
  refine ⟨?_, ?_⟩
  · rintro ⟨-, hqueue, hall⟩
    refine ⟨hqueue, ?_⟩
    rintro ⟨hstarted, hrel, hopen⟩
    obtain ⟨slot, hmem, rfl⟩ := hslot.mp ⟨hstarted, hrel⟩
    exact hopen ((h.timedOut slot hmem).mp (hall slot hmem rfl))
  · rintro ⟨hqueue, hopen⟩
    refine ⟨hid, hqueue, ?_⟩
    rintro slot hmem rfl
    rw [h.timedOut slot hmem]
    by_contra hnot
    obtain ⟨hstarted, hrel⟩ := hslot.mpr ⟨slot, hmem, rfl⟩
    exact hopen ⟨hstarted, hrel, hnot⟩

/-- In every state that operations, completions and timeouts lead to, tasks are started once, in
order and within the limits, promises are settled once, and no free slot is left to a waiting
task. -/
theorem queue_safe (hmax : 1 ≤ maxConcurrency)
    (hrun : Trace.run step (create maxConcurrency timeoutMs maxPending) actions = some q) :
    (q.startedIds.Pairwise (· < ·) ∧ q.startedIds = q.called ++ q.callbacks) ∧
    (∀ id ∈ q.cleared, id ∉ q.startedIds) ∧
    (∀ id < q.added, q.settled.count id = if id ∈ q.queue ∨
      id ∈ q.startedIds ∧ id ∉ q.released ∧ id ∉ q.timedOut then 0 else 1) ∧
    (q.startedIds.filter (fun id => id ∉ q.released)).length = q.running ∧
    (∀ start ∈ q.started, start.running < start.maxConcurrency) ∧
    (q.queue.length : ℕ∞) ≤ maxPending ∧
    (q.paused = true ∨ q.maxConcurrency ≤ q.running ∨ q.queue = []) := by
  obtain ⟨hvalid, hawake⟩ := run_valid hmax hrun
  refine ⟨⟨(List.pairwise_append.mp hvalid.ordered).1, hvalid.calls⟩, ?_, ?_, ?_, hvalid.limits, ?_,
    hawake⟩
  · intro id hid hstarted
    exact (hvalid.cleared id hid).2 (List.mem_append_left _ hstarted)
  · intro id hid
    rw [hvalid.settledOnce.count]
    simp only [settled_iff hvalid hid, ite_not]
  · rw [← hvalid.slots, List.length_map, hvalid.running]
  · rw [← maxPending_run hrun]
    exact hvalid.capacity

/-- Two tasks at once and one waiting; the first one times out and keeps its slot. -/
def crowded : List Action :=
  [.add true, .add true, .add true, .add true, .call, .expire 0, .pause, .clear, .finish 0]

theorem queue_safe_crowded : ∃ q, Trace.run step (create 2 (.finite 50) 1) crowded = some q ∧
    q.startedIds = [0, 1] ∧ q.cleared = [2] ∧ q.settled = [3, 0, 2] ∧ q.running = 1 := by
  obtain ⟨q, hrun⟩ := Option.isSome_iff_exists.mp
    (show (Trace.run step (create 2 (.finite 50) 1) crowded).isSome by decide +kernel)
  have hlogs : (Trace.run step (create 2 (.finite 50) 1) crowded).map
      (fun q => (q.startedIds, q.cleared, q.settled, q.released)) =
        some ([0, 1], [2], [3, 0, 2], [0]) := by decide +kernel
  rw [hrun] at hlogs
  obtain ⟨hstarted, hlogs⟩ := Prod.mk.inj (Option.some.inj hlogs)
  obtain ⟨hcleared, hlogs⟩ := Prod.mk.inj hlogs
  obtain ⟨hset, hrel⟩ := Prod.mk.inj hlogs
  obtain ⟨-, -, -, hrunning, -⟩ := queue_safe (by decide) hrun
  rw [hstarted, hrel] at hrunning
  exact ⟨q, hrun, hstarted, hcleared, hset, hrunning.symm⟩

end Runs

end TsxCore.ConcurrencyQueue
