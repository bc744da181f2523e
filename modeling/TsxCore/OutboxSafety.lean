import TsxCore.OutboxTasks
import TsxCore.Trace

/-!
# Outbox tasks are sent at most once

Runs of the outbox functions on one table, by any callers. A call is recorded with
whether it succeeded. A crash between two calls leaves the table as it is, and one
between the two statements of the recovery is a run that lacks the second.
-/

namespace TsxCore.Outbox

open Outcome

variable {J : Type}

inductive Call (J : Type)
  | enqueue (task : EnqueueOutboxTaskInput J)
  | claim (id : String)
  | markSending (id : String)
  | complete (id : String) (result : Option J)
  | fail (id : String) (failure : TaskFailure)
  | recoverPreparing
  | recoverSending
  | get (id : String)
  | list (statuses : List OutboxStatus) (limit : Option ℤ)
  | listPending (excluded : List String) (limit : Option ℤ)
  | requeue (id : String)
  | acknowledge (id reason : String)

/-- A call with its reading of the clock and whether it succeeded. -/
structure Event (J : Type) where
  now : ℤ
  call : Call J
  succeeded : Bool

section Runs

variable (parse : String → Option J) (stringify : J → Option String)

def settle (db : PendingTasks) : Outcome PendingTasks → Bool × PendingTasks
  | .ok next => (true, next)
  | .error _ => (false, db)

def perform (now : ℤ) (db : PendingTasks) : Call J → Bool × PendingTasks
  | .enqueue task => match enqueueOutboxTask stringify now task db with
    | .ok result => result
    | .error _ => (false, db)
  | .claim id =>
    let (task, next) := claimOutboxTask parse now id db
    (task.isSome, next)
  | .markSending id => settle db (markOutboxSending now id db)
  | .complete id result => settle db (completeOutboxTask stringify now id result db)
  | .fail id failure => settle db (Prod.snd <$> failOutboxTask now id failure db)
  | .recoverPreparing => (true, (recoverPreparing now db).2)
  | .recoverSending => (true, (recoverSending now db).2)
  | .get id => (true, (getOutboxTask parse now id db).2)
  | .list statuses limit => (true, (listOutboxTasks parse now statuses limit db).2)
  | .listPending excluded limit =>
    (true, (listPendingOutboxTasksForScheduling parse now excluded limit db).2)
  | .requeue id => requeueOutboxTask parse now id db
  | .acknowledge id reason => acknowledgeOutboxTask now id reason db

def step (db : PendingTasks) (event : Event J) : Option PendingTasks :=
  let (succeeded, next) := perform parse stringify event.now db event.call
  if succeeded = event.succeeded then some next else none

end Runs

def Call.target : Call J → Option String
  | .claim id | .markSending id | .complete id _ | .fail id _ | .requeue id | .acknowledge id _ =>
    some id
  | _ => none

/-- What one call does to the status of the task `id`. -/
inductive Move (id : String) : Call J → Bool → OutboxStatus → OutboxStatus → Prop
  | keep {call succeeded status} (h : succeeded = false ∨ call.target ≠ some id) :
    Move id call succeeded status status
  | review {call succeeded status} (h : succeeded = false ∨ call.target ≠ some id) :
    Move id call succeeded status (reviewedStatus status)
  | claim {status} (h : status ∈ [.pending, .failed]) : Move id (.claim id) true status .preparing
  | markSending {status} (h : status ∈ [.preparing, .sending]) :
    Move id (.markSending id) true status .sending
  | complete {status result} (h : status ∈ [.preparing, .sending]) :
    Move id (.complete id result) true status .completed
  | fail {status failure} (h : status ∈ [.preparing, .sending]) :
    Move id (.fail id failure) true status (failedStatus failure status)
  | recoverPreparing : Move id .recoverPreparing true .preparing .pending
  | recoverSending : Move id .recoverSending true .sending .unknown
  | requeue {status} (h : status ∈ [.failed, .unknown]) : Move id (.requeue id) true status .pending
  | acknowledge {reason} : Move id (.acknowledge id reason) true .unknown .completed

def Event.claims (id : String) (event : Event J) : Bool :=
  match event.call with
  | .claim other => event.succeeded && other = id
  | _ => false

def Event.marksSending (id : String) (event : Event J) : Bool :=
  match event.call with
  | .markSending other => event.succeeded && other = id
  | _ => false

def Event.requeues (id : String) (event : Event J) : Bool :=
  match event.call with
  | .requeue other => event.succeeded && other = id
  | _ => false

/-- A recovery, or a failure or retry of the task `id`. -/
def Event.resets (id : String) (event : Event J) : Bool :=
  match event.call with
  | .recoverPreparing | .recoverSending => true
  | .fail other _ | .requeue other => other = id
  | _ => false

/-- What one call does to the row of the task `id`. -/
structure RowStep (id : String) (event : Event J) (row next : OutboxStorageRow) : Prop where
  payload : next.toOutboxPayload = row.toOutboxPayload
  attempts : next.attempts = row.attempts + if event.claims id then 1 else 0
  move : Move id event.call event.succeeded row.status next.status

section Rows

variable (parse : String → Option J) (stringify : J → Option String) (now : ℤ)
variable {id : String} {db next : PendingTasks} {row : OutboxStorageRow}
variable {event : Event J} {last source current : OutboxStorageRow} {rows : List OutboxStorageRow}
  {p : OutboxStorageRow → Bool} {limit : ℕ} {statuses : List OutboxStatus}
  {tasks : List (OutboxTask J)} {other : String} {f : OutboxStorageRow → OutboxStorageRow}

structure Reviewed (row next : OutboxStorageRow) : Prop where
  payload : next.toOutboxPayload = row.toOutboxPayload
  attempts : next.attempts = row.attempts
  status : next.status = row.status ∨ next.status = reviewedStatus row.status

theorem Reviewed.refl (row : OutboxStorageRow) : Reviewed row row := ⟨rfl, rfl, .inl rfl⟩

theorem reviewedStatus_twice (status : OutboxStatus) :
    reviewedStatus (reviewedStatus status) = reviewedStatus status := by
  cases status <;> rfl

theorem Reviewed.trans {middle : OutboxStorageRow} (h : Reviewed row middle)
    (hlast : Reviewed middle last) : Reviewed row last where
  payload := hlast.payload.trans h.payload
  attempts := hlast.attempts.trans h.attempts
  status := by
    rcases h.status with hsame | hreview <;> rcases hlast.status with hkeep | hagain
    · exact .inl (hkeep.trans hsame)
    · exact .inr (hagain.trans (by rw [hsame]))
    · exact .inr (hkeep.trans hreview)
    · exact .inr (by rw [hagain, hreview, reviewedStatus_twice])

theorem reviewOutboxRow_find (hsrc : db.find source.id = some source)
    (hrow : db.find id = some row) :
    ∃ next, (reviewOutboxRow parse now source db).2.find id = some next ∧ Reviewed row next := by
  unfold reviewOutboxRow
  simp only
  split_ifs
  · exact ⟨row, hrow, .refl row⟩
  · rw [Keyed.find_update, hrow, Option.map_some]
    refine ⟨_, rfl, ?_⟩
    split_ifs with hid
    · have hsame : source = row := by
        have hkey := Keyed.key_of_find hrow
        have hrowId : row.id = source.id := by simpa [mapOutboxRow] using hid
        rw [← hkey, hrowId, hsrc] at hrow
        exact Option.some.inj hrow
      exact ⟨rfl, rfl, .inr (by rw [← hsame]; rfl)⟩
    · exact .refl row
  · exact ⟨row, hrow, .refl row⟩

theorem reviewOutboxRow_other (hid : id ≠ source.id) :
    (reviewOutboxRow parse now source db).2.find id = db.find id := by
  unfold reviewOutboxRow
  simp only
  split_ifs
  · rfl
  · rw [Keyed.find_update]
    cases hrow : db.find id with
    | none => rfl
    | some row =>
      have hkey := Keyed.key_of_find hrow
      rw [Option.map_some, if_neg]
      intro hsame
      have hrowId : row.id = source.id := by simpa [mapOutboxRow] using hsame
      exact hid (hkey.symm.trans hrowId)
  · rfl

theorem reviewRows_find (hnodup : (rows.map (·.id)).Nodup)
    (hrows : ∀ source ∈ rows, db.find source.id = some source) (hrow : db.find id = some row) :
    ∃ next, (reviewRows parse now rows db).2.find id = some next ∧ Reviewed row next := by
  induction rows generalizing db row with
  | nil => exact ⟨row, hrow, .refl row⟩
  | cons source rows ih =>
    rw [List.map_cons, List.nodup_cons] at hnodup
    obtain ⟨middle, hmid, hfirst⟩ :=
      reviewOutboxRow_find parse now (hrows source List.mem_cons_self) hrow
    have hothers : ∀ other ∈ rows,
        (reviewOutboxRow parse now source db).2.find other.id = some other := by
      intro other hother
      rw [reviewOutboxRow_other, hrows other (List.mem_cons_of_mem _ hother)]
      intro hsame
      exact hnodup.1 (hsame ▸ List.mem_map_of_mem hother)
    obtain ⟨next, hnext, hrest⟩ := ih hnodup.2 hothers hmid
    exact ⟨next, hnext, hfirst.trans hrest⟩

theorem reviewRows_query (order : OutboxStorageRow → OutboxStorageRow → Bool)
    (hquery : rows = ((db.rows.filter p).insertionSort (fun a b => order a b)).take limit)
    (hrow : db.find id = some row) :
    ∃ next, (reviewRows parse now rows db).2.find id = some next ∧ Reviewed row next := by
  have hperm := List.perm_insertionSort (fun a b => order a b = true) (db.rows.filter p)
  have hsub : rows.Sublist ((db.rows.filter p).insertionSort (fun a b => order a b)) := by
    rw [hquery]
    exact List.take_sublist _ _
  have hnodup : ((db.rows.filter p).map (·.id)).Nodup :=
    db.nodup.sublist (List.filter_sublist.map _)
  refine reviewRows_find parse now ?_ ?_ hrow
  · exact ((hperm.map _).nodup_iff.mpr hnodup).sublist (hsub.map _)
  · intro source hsrc
    have hmem := hperm.mem_iff.mp (hsub.subset hsrc)
    exact Keyed.find_eq_some.mpr ⟨(List.mem_filter.mp hmem).1, rfl⟩

theorem listOutboxTasks_find {limit : Option ℤ} (hrow : db.find id = some row) :
    ∃ next, (listOutboxTasks parse now statuses limit db).2.find id = some next ∧
      Reviewed row next := by
  unfold listOutboxTasks
  simp only
  split_ifs
  · exact reviewRows_query parse now (p := fun _ => true) byAddedAt (by rw [List.filter_true]) hrow
  · exact reviewRows_query parse now byAddedAt rfl hrow

theorem schedulingLoop_find {excluded : List String} {fuel remaining : ℕ}
    (hrow : db.find id = some row) :
    ∃ next, (schedulingLoop parse now excluded limit fuel remaining tasks db).2.find id =
        some next ∧ Reviewed row next := by
  induction fuel generalizing remaining tasks db row with
  | zero => exact ⟨row, hrow, .refl row⟩
  | succ fuel ih =>
    unfold schedulingLoop
    simp only
    split_ifs
    · exact ⟨row, hrow, .refl row⟩
    · exact ⟨row, hrow, .refl row⟩
    · obtain ⟨middle, hmid, hfirst⟩ := reviewRows_query parse now byAddedAtId rfl hrow
      obtain ⟨next, hnext, hrest⟩ := ih hmid
      exact ⟨next, hnext, hfirst.trans hrest⟩

theorem any_inStatus :
    (db.find id).any (inStatus id statuses) = true ↔
      ∃ row, db.find id = some row ∧ row.status ∈ statuses := by
  cases hrow : db.find id with
  | none => simp
  | some row => simp [inStatus, Keyed.key_of_find hrow]

theorem inStatus_key : ∀ row, inStatus id statuses row = true → row.id = id := by
  intro row hrow
  simp only [inStatus, decide_eq_true_eq] at hrow
  exact hrow.1

theorem changes_inStatus : db.changes (inStatus id statuses) = 1 ↔
    ∃ row, db.find id = some row ∧ row.status ∈ statuses := by
  rw [Keyed.changes_of_key inStatus_key, ← any_inStatus]
  split_ifs with h <;> simp [h]

theorem update_inStatus {hf : ∀ r, (f r).id = r.id} (hrow : db.find id = some row) :
    (db.update (inStatus other statuses) f hf).find id =
      some (if other = id ∧ row.status ∈ statuses then f row else row) := by
  rw [Keyed.find_update, hrow, Option.map_some, inStatus, Keyed.key_of_find hrow]
  simp only [decide_eq_true_eq, eq_comm (a := id)]

theorem RowStep.quiet (hquiet : event.succeeded = false ∨ event.call.target ≠ some id)
    (h : Reviewed row last) : RowStep id event row last where
  payload := h.payload
  attempts := by
    have hclaims : event.claims id = false := by
      obtain ⟨_, call, succeeded⟩ := event
      cases call <;> cases succeeded <;> simp_all [Event.claims, Call.target]
    rw [h.attempts, hclaims]
    simp
  move := by
    rcases h.status with hsame | hreview
    · rw [hsame]
      exact .keep hquiet
    · rw [hreview]
      exact .review hquiet

/-- A call that changes the one row it names. -/
theorem RowStep.target {hf : ∀ r, (f r).id = r.id} (htgt : event.call.target = some other)
    (hchg : db.changes (inStatus other statuses) = 1)
    (hstep : other = id → row.status ∈ statuses → RowStep id event row (f row))
    (hrow : db.find id = some row) :
    ∃ row', (db.update (inStatus other statuses) f hf).find id = some row' ∧
      RowStep id event row row' := by
  refine ⟨_, update_inStatus hrow, ?_⟩
  by_cases hid : other = id
  · subst hid
    obtain ⟨found, hfound, hstatus⟩ := changes_inStatus.mp hchg
    rw [hrow, Option.some.injEq] at hfound
    subst hfound
    rw [if_pos ⟨rfl, hstatus⟩]
    exact hstep rfl hstatus
  · rw [if_neg (fun h => hid h.1)]
    exact .quiet (.inr (by simpa [htgt] using hid)) (.refl row)

/-- A call that changes the row it names and reports whether it did. -/
theorem RowStep.counted {hf : ∀ r, (f r).id = r.id} (htgt : event.call.target = some other)
    (hsucc : decide (db.changes (inStatus other statuses) = 1) = event.succeeded)
    (hstep : event.succeeded = true → other = id → row.status ∈ statuses →
      RowStep id event row (f row)) (hrow : db.find id = some row) :
    ∃ row', (db.update (inStatus other statuses) f hf).find id = some row' ∧
      RowStep id event row row' := by
  by_cases hchg : db.changes (inStatus other statuses) = 1
  · exact RowStep.target htgt hchg (hstep (by simpa [hchg] using hsucc.symm)) hrow
  · refine ⟨row, ?_, .quiet (.inl (by simpa [hchg] using hsucc.symm)) (.refl row)⟩
    rw [update_inStatus hrow, if_neg]
    rintro ⟨rfl, hstatus⟩
    exact hchg (changes_inStatus.mpr ⟨row, hrow, hstatus⟩)

/-- A call that names no row and changes every row of one status. -/
theorem RowStep.every {status : OutboxStatus} (hf : ∀ r, (f r).id = r.id)
    (htgt : event.call.target = none)
    (hstep : row.status = status → RowStep id event row (f row)) (hrow : db.find id = some row) :
    ∃ row', (db.update (·.status = status) f hf).find id = some row' ∧
      RowStep id event row row' := by
  rw [Keyed.find_update, hrow, Option.map_some]
  by_cases hstatus : row.status = status
  · exact ⟨_, by rw [if_pos (by simpa using hstatus)], hstep hstatus⟩
  · exact ⟨row, by rw [if_neg (by simpa using hstatus)], .quiet (.inr (by simp [htgt])) (.refl row)⟩

theorem settle_eq {result : Outcome PendingTasks} {succeeded : Bool}
    (h : settle db result = (succeeded, next)) :
    (succeeded = false ∧ next = db) ∨ (succeeded = true ∧ result = .ok next) := by
  cases result with
  | error _ =>
    obtain ⟨rfl, rfl⟩ := Prod.mk.injEq .. ▸ h
    exact .inl ⟨rfl, rfl⟩
  | ok result =>
    obtain ⟨rfl, rfl⟩ := Prod.mk.injEq .. ▸ h
    exact .inr ⟨rfl, rfl⟩

theorem settled_step {hf : ∀ r, (f r).id = r.id} {e : Thrown}
    (htgt : event.call.target = some other)
    (h : settle db (do
      throwIf (db.changes (inStatus other statuses) ≠ 1) e
      return db.update (inStatus other statuses) f hf) = (event.succeeded, next))
    (hstep : ∀ row, event.succeeded = true → other = id → row.status ∈ statuses →
      RowStep id event row (f row))
    (hrow : db.find id = some row) :
    ∃ row', next.find id = some row' ∧ RowStep id event row row' := by
  rcases settle_eq h with ⟨hfailed, rfl⟩ | ⟨hsucc, hok⟩
  · exact ⟨row, hrow, .quiet (.inl hfailed) (.refl row)⟩
  · simp only [bind_eq_ok, throwIf_eq_ok, pure_eq_ok_iff] at hok
    obtain ⟨_, hchg, rfl⟩ := hok
    exact RowStep.target htgt (not_not.mp hchg) (hstep row hsucc) hrow

theorem review_target (hcur : db.find other = some current) (hrow : db.find id = some row) :
    ∃ next, (reviewOutboxRow parse now current db).2.find id = some next ∧ Reviewed row next := by
  refine reviewOutboxRow_find parse now ?_ hrow
  rw [Keyed.key_of_find hcur]
  exact hcur

theorem getOutboxTask_find (hrow : db.find id = some row) :
    ∃ next, (getOutboxTask parse now other db).2.find id = some next ∧ Reviewed row next := by
  unfold getOutboxTask
  cases hcur : db.find other with
  | none => exact ⟨row, hrow, .refl row⟩
  | some current => exact review_target parse now hcur hrow

theorem review_accepted (h : (reviewOutboxRow parse now current db).1.payloadErrors = []) :
    reviewOutboxRow parse now current db = (mapOutboxRow parse current, db) := by
  unfold reviewOutboxRow at h ⊢
  simp only at h ⊢
  split_ifs at h ⊢ with hnone
  · rfl
  · exact absurd h hnone
  · exact absurd h hnone

theorem claim_step (hcall : event.call = .claim other)
    (h : perform parse stringify event.now db event.call = (event.succeeded, next))
    (hrow : db.find id = some row) :
    ∃ row', next.find id = some row' ∧ RowStep id event row row' := by
  obtain ⟨now, call, succeeded⟩ := event
  subst hcall
  simp only [perform, claimOutboxTask] at h
  cases hcur : db.find other with
  | none =>
    simp only [hcur, Prod.mk.injEq] at h
    obtain ⟨rfl, rfl⟩ := h
    exact ⟨row, hrow, .quiet (.inl rfl) (.refl row)⟩
  | some current =>
    simp only [hcur] at h
    split_ifs at h with hrefd
    · obtain ⟨rfl, rfl⟩ := Prod.mk.injEq .. ▸ h
      obtain ⟨row', hnext, hreviewed⟩ := review_target parse now hcur hrow
      exact ⟨row', hnext, .quiet (.inl rfl) hreviewed⟩
    · rw [not_or, not_not, not_not] at hrefd
      have hacpt := review_accepted parse now hrefd.1
      rw [hacpt] at hrefd h
      have hstatus : current.status ∈ [.pending, .failed] := hrefd.2
      have hsome : (db.rows.find? (inStatus other [.pending, .failed])).isSome = true := by
        rw [List.find?_isSome]
        exact ⟨current, Keyed.mem_of_find hcur,
          by simpa [inStatus, Keyed.key_of_find hcur] using hstatus⟩
      simp only [Option.isSome_map, hsome, Prod.mk.injEq] at h
      obtain ⟨rfl, rfl⟩ := h
      refine RowStep.target rfl (changes_inStatus.mpr ⟨current, hcur, hstatus⟩) ?_ hrow
      rintro rfl hmine
      exact ⟨rfl, by simp [Event.claims], .claim hmine⟩

theorem requeue_step (hcall : event.call = .requeue other)
    (h : perform parse stringify event.now db event.call = (event.succeeded, next))
    (hrow : db.find id = some row) :
    ∃ row', next.find id = some row' ∧ RowStep id event row row' := by
  obtain ⟨now, call, succeeded⟩ := event
  subst hcall
  simp only [perform, requeueOutboxTask] at h
  cases hcur : db.find other with
  | none =>
    simp only [hcur, Prod.mk.injEq] at h
    obtain ⟨rfl, rfl⟩ := h
    exact ⟨row, hrow, .quiet (.inl rfl) (.refl row)⟩
  | some current =>
    simp only [hcur] at h
    split_ifs at h with hrefd
    · obtain ⟨rfl, rfl⟩ := Prod.mk.injEq .. ▸ h
      obtain ⟨row', hnext, hreviewed⟩ := review_target parse now hcur hrow
      exact ⟨row', hnext, .quiet (.inl rfl) hreviewed⟩
    · rw [not_not] at hrefd
      rw [review_accepted parse now hrefd] at h
      obtain ⟨rfl, rfl⟩ := Prod.mk.injEq .. ▸ h
      refine RowStep.counted rfl rfl ?_ hrow
      rintro hsucc rfl hmine
      refine ⟨rfl, by simp [Event.claims], ?_⟩
      rw [hsucc]
      exact .requeue hmine

theorem fail_step {failure : TaskFailure} (hcall : event.call = .fail other failure)
    (h : perform parse stringify event.now db event.call = (event.succeeded, next))
    (hrow : db.find id = some row) :
    ∃ row', next.find id = some row' ∧ RowStep id event row row' := by
  obtain ⟨now, call, succeeded⟩ := event
  subst hcall
  rcases settle_eq h with ⟨rfl, rfl⟩ | ⟨rfl, hok⟩
  · exact ⟨row, hrow, .quiet (.inl rfl) (.refl row)⟩
  simp only [map_eq_ok, Prod.exists] at hok
  obtain ⟨status, _, hok, rfl⟩ := hok
  unfold failOutboxTask at hok
  split at hok
  · exact absurd hok (by simp)
  · rename_i found hfound
    simp only [Except.ok.injEq, Prod.mk.injEq] at hok
    obtain ⟨-, rfl⟩ := hok
    have hmatch := List.find?_some hfound
    have hkey : db.find other = some found :=
      Keyed.find_eq_some.mpr ⟨List.mem_of_find?_eq_some hfound, inStatus_key _ hmatch⟩
    have hstatus : found.status ∈ [.preparing, .sending] := by
      rw [inStatus, decide_eq_true_eq] at hmatch
      exact hmatch.2
    refine RowStep.target rfl (changes_inStatus.mpr ⟨found, hkey, hstatus⟩) ?_ hrow
    rintro rfl hmine
    exact ⟨rfl, by simp [Event.claims], .fail hmine⟩

theorem step_row (h : step parse stringify db event = some next) (hrow : db.find id = some row) :
    ∃ row', next.find id = some row' ∧ RowStep id event row row' := by
  have hperf : perform parse stringify event.now db event.call = (event.succeeded, next) := by
    simp only [step, Option.ite_none_right_eq_some, Option.some.injEq] at h
    exact Prod.ext h.1 h.2
  have hquiet : event.call.target = none → ∀ row', next.find id = some row' → Reviewed row row' →
      ∃ row', next.find id = some row' ∧ RowStep id event row row' := by
    intro htgt row' hnext hreviewed
    exact ⟨row', hnext, .quiet (.inr (by simp [htgt])) hreviewed⟩
  cases hcall : event.call with
  | enqueue task =>
    rw [hcall] at hperf hquiet
    simp only [perform, enqueueOutboxTask] at hperf
    cases hvalid : validateOutboxTask task with
    | error _ =>
      simp only [hvalid, error_bind, Prod.mk.injEq] at hperf
      obtain ⟨-, rfl⟩ := hperf
      exact hquiet rfl row hrow (.refl row)
    | ok _ =>
      have hnext : next = (db.insert (enqueuedRow stringify event.now task)).2 := by
        rw [hvalid] at hperf
        exact (congrArg Prod.snd hperf).symm
      subst hnext
      refine hquiet rfl row ?_ (.refl row)
      rw [Keyed.find_insert, hrow]
      simp
  | claim other => exact claim_step parse stringify hcall hperf hrow
  | markSending other =>
    rw [hcall] at hperf
    refine settled_step (by rw [hcall]; rfl) hperf ?_ hrow
    intro row hsucc hid hmine
    refine ⟨rfl, by simp [Event.claims, hcall], ?_⟩
    rw [hcall, hsucc, hid]
    exact .markSending hmine
  | complete other result =>
    rw [hcall] at hperf
    refine settled_step (by rw [hcall]; rfl) hperf ?_ hrow
    intro row hsucc hid hmine
    refine ⟨rfl, by simp [Event.claims, hcall], ?_⟩
    rw [hcall, hsucc, hid]
    exact .complete hmine
  | fail other failure => exact fail_step parse stringify hcall hperf hrow
  | recoverPreparing =>
    rw [hcall] at hperf
    obtain ⟨hsucc, rfl⟩ := Prod.mk.injEq .. ▸ hperf
    refine RowStep.every (by intro _; rfl) (by rw [hcall]; rfl) ?_ hrow
    intro hstatus
    refine ⟨rfl, by simp [Event.claims, hcall], ?_⟩
    rw [hcall, ← hsucc, hstatus]
    exact .recoverPreparing
  | recoverSending =>
    rw [hcall] at hperf
    obtain ⟨hsucc, rfl⟩ := Prod.mk.injEq .. ▸ hperf
    refine RowStep.every (by intro _; rfl) (by rw [hcall]; rfl) ?_ hrow
    intro hstatus
    refine ⟨rfl, by simp [Event.claims, hcall], ?_⟩
    rw [hcall, ← hsucc, hstatus]
    exact .recoverSending
  | get other =>
    rw [hcall] at hperf hquiet
    obtain ⟨-, rfl⟩ := Prod.mk.injEq .. ▸ hperf
    obtain ⟨row', hnext, hreviewed⟩ := getOutboxTask_find parse event.now hrow
    exact hquiet rfl row' hnext hreviewed
  | list statuses limit =>
    rw [hcall] at hperf hquiet
    obtain ⟨-, rfl⟩ := Prod.mk.injEq .. ▸ hperf
    obtain ⟨row', hnext, hreviewed⟩ := listOutboxTasks_find parse event.now hrow
    exact hquiet rfl row' hnext hreviewed
  | listPending excluded limit =>
    rw [hcall] at hperf hquiet
    obtain ⟨-, rfl⟩ := Prod.mk.injEq .. ▸ hperf
    obtain ⟨row', hnext, hreviewed⟩ := schedulingLoop_find parse event.now hrow
    exact hquiet rfl row' hnext hreviewed
  | requeue other => exact requeue_step parse stringify hcall hperf hrow
  | acknowledge other reason =>
    rw [hcall] at hperf
    simp only [perform, acknowledgeOutboxTask, Prod.mk.injEq] at hperf
    obtain ⟨hsucc, rfl⟩ := hperf
    refine RowStep.counted (by rw [hcall]; rfl) hsucc ?_ hrow
    rintro htrue rfl hmine
    refine ⟨rfl, by simp [Event.claims, hcall], ?_⟩
    have hunknown : row.status = .unknown := by simpa using hmine
    rw [hcall, htrue, hunknown]
    exact .acknowledge

theorem update_fresh (hf : ∀ r, (f r).id = r.id) (hnone : db.find id = none) :
    (db.update p f hf).find id = none := by
  rw [Keyed.find_update, hnone, Option.map_none]

theorem review_fresh (hnone : db.find id = none) :
    (reviewOutboxRow parse now source db).2.find id = none := by
  unfold reviewOutboxRow
  simp only
  split_ifs
  · exact hnone
  · exact update_fresh (by intro _; rfl) hnone
  · exact hnone

theorem reviewRows_fresh (hnone : db.find id = none) :
    (reviewRows parse now rows db).2.find id = none := by
  induction rows generalizing db with
  | nil => exact hnone
  | cons source rows ih => exact ih (review_fresh parse now hnone)

theorem schedulingLoop_fresh {excluded : List String} {fuel remaining : ℕ}
    (hnone : db.find id = none) :
    (schedulingLoop parse now excluded limit fuel remaining tasks db).2.find id = none := by
  induction fuel generalizing remaining tasks db with
  | zero => exact hnone
  | succ fuel ih =>
    unfold schedulingLoop
    simp only
    split_ifs
    · exact hnone
    · exact hnone
    · exact ih (reviewRows_fresh parse now hnone)

theorem claim_fresh (hnone : db.find id = none) :
    (claimOutboxTask parse now other db).2.find id = none := by
  unfold claimOutboxTask
  cases db.find other with
  | none => exact hnone
  | some current =>
    simp only
    split_ifs
    · exact review_fresh parse now hnone
    · exact update_fresh (by intro _; rfl) (review_fresh parse now hnone)

theorem requeue_fresh (hnone : db.find id = none) :
    (requeueOutboxTask parse now other db).2.find id = none := by
  unfold requeueOutboxTask
  cases db.find other with
  | none => exact hnone
  | some current =>
    simp only
    split_ifs
    · exact review_fresh parse now hnone
    · exact update_fresh (by intro _; rfl) (review_fresh parse now hnone)

theorem settle_fresh {hf : ∀ r, (f r).id = r.id} {e : Thrown} (hnone : db.find id = none) :
    (settle db (do
        throwIf (db.changes (inStatus other statuses) ≠ 1) e
        return db.update (inStatus other statuses) f hf)).2.find id = none := by
  by_cases hchg : db.changes (inStatus other statuses) ≠ 1
  · simp only [throwIf, if_pos hchg]
    exact hnone
  · rw [throwIf_of_not hchg, ok_bind]
    exact update_fresh hf hnone

theorem perform_fresh {call : Call J} (hnone : db.find id = none)
    (hcall : ∀ task, call ≠ .enqueue task) :
    (perform parse stringify now db call).2.find id = none := by
  cases call with
  | enqueue task => exact absurd rfl (hcall task)
  | claim other => exact claim_fresh parse now hnone
  | markSending other => exact settle_fresh hnone
  | complete other result => exact settle_fresh hnone
  | fail other failure =>
    simp only [perform, failOutboxTask]
    split
    · exact hnone
    · exact update_fresh (by intro _; rfl) hnone
  | recoverPreparing => exact update_fresh (by intro _; rfl) hnone
  | recoverSending => exact update_fresh (by intro _; rfl) hnone
  | get other =>
    simp only [perform, getOutboxTask]
    cases db.find other with
    | none => exact hnone
    | some current => exact review_fresh parse now hnone
  | list statuses limit => exact reviewRows_fresh parse now hnone
  | listPending excluded limit => exact schedulingLoop_fresh parse now hnone
  | requeue other => exact requeue_fresh parse now hnone
  | acknowledge other reason => exact update_fresh (by intro _; rfl) hnone

theorem step_fresh (h : step parse stringify db event = some next) (hnone : db.find id = none) :
    event.claims id = false ∧ ∀ row, next.find id = some row → row.attempts = 0 := by
  have hperf : perform parse stringify event.now db event.call = (event.succeeded, next) := by
    simp only [step, Option.ite_none_right_eq_some, Option.some.injEq] at h
    exact Prod.ext h.1 h.2
  obtain ⟨now, call, succeeded⟩ := event
  refine ⟨?_, ?_⟩
  · unfold Event.claims
    cases call with
    | claim other =>
      by_cases hid : other = id
      · have hfailed : (perform parse stringify now db (.claim other)).1 = false := by
          simp only [perform, claimOutboxTask, hid, hnone]
          rfl
        rw [hperf] at hfailed
        have hsucc : succeeded = false := hfailed
        simp [hsucc]
      · simp [hid]
    | _ => rfl
  · intro row hrow
    have hnext : (perform parse stringify now db call).2 = next := congrArg Prod.snd hperf
    by_cases hcall : ∃ task, call = .enqueue task
    · obtain ⟨task, rfl⟩ := hcall
      simp only [perform, enqueueOutboxTask] at hnext
      cases hvalid : validateOutboxTask task with
      | error _ =>
        rw [hvalid] at hnext
        rw [← hnext] at hrow
        exact absurd (hnone.symm.trans hrow) (by simp)
      | ok _ =>
        rw [hvalid] at hnext
        have hinsert : next = (db.insert (enqueuedRow stringify now task)).2 := hnext.symm
        rw [hinsert, Keyed.find_insert, hnone] at hrow
        split_ifs at hrow
        rw [Option.getD_none, Option.some.injEq] at hrow
        rw [← hrow]
        rfl
    · have hfresh := perform_fresh parse stringify now hnone
        (fun task heq => hcall ⟨task, heq⟩)
      rw [hnext, hrow] at hfresh
      exact absurd hfresh (by simp)

end Rows

section Safety

variable {parse : String → Option J} {stringify : J → Option String} {id : String}
variable {start db next : PendingTasks} {events : List (Event J)} {event : Event J}
  {statuses : List OutboxStatus}

/-- The row of the task exists with a status of the list. -/
def InStatus (id : String) (statuses : List OutboxStatus) (db : PendingTasks) : Prop :=
  ∃ row, db.find id = some row ∧ row.status ∈ statuses

def Closed (id : String) (statuses : List OutboxStatus) (event : Event J) : Prop :=
  ∀ status ∈ statuses, ∀ next, Move id event.call event.succeeded status next → next ∈ statuses

theorem claim_status (h : step parse stringify db event = some next)
    (hclaims : event.claims id = true) :
    InStatus id [.pending, .failed] db ∧ InStatus id [.preparing] next := by
  cases hrow : db.find id with
  | none =>
    rw [(step_fresh parse stringify h hrow).1] at hclaims
    exact absurd hclaims (by decide)
  | some row =>
    obtain ⟨row', hnext, hstep⟩ := step_row parse stringify h hrow
    have hmove := hstep.move
    obtain ⟨_, call, succeeded⟩ := event
    cases call with
    | claim other =>
      simp only [Event.claims, Bool.and_eq_true, decide_eq_true_eq] at hclaims
      obtain ⟨rfl, rfl⟩ := hclaims
      generalize hstatus : row'.status = status at hmove
      generalize hold : row.status = old at hmove
      cases hmove with
      | keep hquiet => simp [Call.target] at hquiet
      | review hquiet => simp [Call.target] at hquiet
      | claim hmine => exact ⟨⟨row, hrow, hold ▸ hmine⟩, ⟨row', hnext, by simp [hstatus]⟩⟩
    | _ => simp [Event.claims] at hclaims

theorem markSending_status (h : step parse stringify db event = some next)
    (hmarks : event.marksSending id = true) (hrow : ∃ row, db.find id = some row) :
    InStatus id [.sending] next := by
  obtain ⟨row, hrow⟩ := hrow
  obtain ⟨row', hnext, hstep⟩ := step_row parse stringify h hrow
  have hmove := hstep.move
  obtain ⟨_, call, succeeded⟩ := event
  cases call with
  | markSending other =>
    simp only [Event.marksSending, Bool.and_eq_true, decide_eq_true_eq] at hmarks
    obtain ⟨rfl, rfl⟩ := hmarks
    generalize hstatus : row'.status = status at hmove
    generalize hold : row.status = old at hmove
    cases hmove with
    | keep hquiet => simp [Call.target] at hquiet
    | review hquiet => simp [Call.target] at hquiet
    | markSending hmine => exact ⟨row', hnext, by simp [hstatus]⟩
  | _ => simp [Event.marksSending] at hmarks

theorem step_inStatus (hclosed : Closed id statuses event)
    (h : step parse stringify db event = some next) (hdb : InStatus id statuses db) :
    InStatus id statuses next := by
  obtain ⟨row, hrow, hstatus⟩ := hdb
  obtain ⟨row', hnext, hstep⟩ := step_row parse stringify h hrow
  exact ⟨row', hnext, hclosed row.status hstatus row'.status hstep.move⟩

theorem run_inStatus (hclosed : ∀ event ∈ events, Closed id statuses event)
    (hrun : Trace.run (step parse stringify) start events = some db)
    (hstart : InStatus id statuses start) : InStatus id statuses db :=
  Trace.run_preserves (fun _ event _ hevent hdb h => step_inStatus (hclosed event hevent) h hdb)
    hstart hrun

theorem run_never_claimed (hclosed : ∀ event ∈ events, Closed id statuses event)
    (hunclaimable : ∀ status ∈ statuses, status ∉ [.pending, .failed])
    (hrun : Trace.run (step parse stringify) start events = some db)
    (hstart : InStatus id statuses start) : ∀ event ∈ events, event.claims id = false := by
  intro event hevent
  obtain ⟨before, after, rfl⟩ := List.append_of_mem hevent
  obtain ⟨middle, hbefore, hafter⟩ := Trace.run_append.mp hrun
  obtain ⟨next, hstep, -⟩ := Trace.run_cons.mp hafter
  obtain ⟨row, hrow, hstatus⟩ := run_inStatus
    (fun other hother => hclosed other (List.mem_append_left _ hother)) hbefore hstart
  by_contra hclaims
  rw [Bool.not_eq_false] at hclaims
  obtain ⟨⟨row', hrow', hclaimable⟩, -⟩ := claim_status hstep hclaims
  rw [hrow, Option.some.injEq] at hrow'
  subst hrow'
  exact hunclaimable row.status hstatus hclaimable

theorem closed_sent (h : event.requeues id = false) :
    Closed id [.sending, .unknown, .completed] event := by
  intro status hstatus next hmove
  obtain ⟨_, call, succeeded⟩ := event
  cases hmove with
  | keep => exact hstatus
  | review =>
    cases status <;> simp_all [reviewedStatus]
  | claim hmine => cases status <;> simp_all
  | markSending => simp
  | complete => simp
  | fail hmine => cases status <;> simp_all [failedStatus]
  | recoverPreparing => simp at hstatus
  | recoverSending => simp
  | requeue => simp [Event.requeues] at h
  | acknowledge => simp

theorem closed_claimed (h : event.resets id = false) :
    Closed id [.preparing, .sending, .completed, .unknown, .needsReview] event := by
  intro status hstatus next hmove
  obtain ⟨_, call, succeeded⟩ := event
  cases hmove with
  | keep => exact hstatus
  | review => cases status <;> simp_all [reviewedStatus]
  | claim => simp
  | markSending => simp
  | complete => simp
  | fail => simp [Event.resets] at h
  | recoverPreparing => simp [Event.resets] at h
  | recoverSending => simp [Event.resets] at h
  | requeue => simp [Event.resets] at h
  | acknowledge => simp

theorem closed_completed : Closed id [.completed] event := by
  intro status hstatus next hmove
  obtain rfl : status = .completed := by simpa using hstatus
  obtain ⟨_, call, succeeded⟩ := event
  cases hmove with
  | keep => simp
  | review => simp [reviewedStatus]
  | claim hmine => simp at hmine
  | markSending hmine => simp at hmine
  | complete hmine => simp at hmine
  | fail hmine => simp at hmine
  | requeue hmine => simp at hmine

theorem markSending_found (h : step parse stringify db event = some next)
    (hmarks : event.marksSending id = true) : ∃ row, db.find id = some row := by
  obtain ⟨now, call, succeeded⟩ := event
  cases call with
  | markSending other =>
    simp only [Event.marksSending, Bool.and_eq_true, decide_eq_true_eq] at hmarks
    obtain ⟨rfl, rfl⟩ := hmarks
    simp only [step, Option.ite_none_right_eq_some] at h
    rcases settle_eq (Prod.ext h.1 rfl) with ⟨hfailed, -⟩ | ⟨-, hok⟩
    · exact absurd hfailed (by decide)
    · simp only [markOutboxSending, bind_eq_ok, throwIf_eq_ok] at hok
      obtain ⟨_, hchg, -⟩ := hok
      obtain ⟨row, hrow, -⟩ := changes_inStatus.mp (not_not.mp hchg)
      exact ⟨row, hrow⟩
  | _ => simp [Event.marksSending] at hmarks

def attemptsOf (id : String) (db : PendingTasks) : ℤ := ((db.find id).map (·.attempts)).getD 0

theorem step_attempts (h : step parse stringify db event = some next) :
    attemptsOf id next = attemptsOf id db + if event.claims id then 1 else 0 := by
  unfold attemptsOf
  cases hrow : db.find id with
  | none =>
    obtain ⟨hclaims, hzero⟩ := step_fresh parse stringify h hrow
    rw [hclaims]
    cases hnext : next.find id with
    | none => rfl
    | some row => simp [hzero row hnext]
  | some row =>
    obtain ⟨row', hnext, hstep⟩ := step_row parse stringify h hrow
    simp [hnext, hstep.attempts]

theorem run_attempts (hrun : Trace.run (step parse stringify) start events = some db) :
    attemptsOf id db = attemptsOf id start + events.countP (·.claims id) := by
  induction events generalizing start with
  | nil =>
    rw [Trace.run_nil] at hrun
    simp [hrun]
  | cons event events ih =>
    obtain ⟨middle, hstep, hrest⟩ := Trace.run_cons.mp hrun
    rw [ih hrest, step_attempts hstep, List.countP_cons]
    push_cast
    split_ifs <;> omega

theorem run_payload {row : OutboxStorageRow}
    (hrun : Trace.run (step parse stringify) start events = some db)
    (hrow : start.find id = some row) :
    ∃ row', db.find id = some row' ∧ row'.toOutboxPayload = row.toOutboxPayload := by
  refine Trace.run_preserves (P := fun db => ∃ row', db.find id = some row' ∧
    row'.toOutboxPayload = row.toOutboxPayload) ?_ ⟨row, hrow, rfl⟩ hrun
  intro db event next _ hdb h
  obtain ⟨old, hold, hpay⟩ := hdb
  obtain ⟨row', hnext, hstep⟩ := step_row parse stringify h hold
  exact ⟨row', hnext, hstep.payload.trans hpay⟩

/-- In every run of the outbox functions: the attempts count the claims, a task that was sent is
not claimed again without a retry, a claimed task is not claimed twice, and neither the payload
nor a completion changes. -/
theorem outbox_sends_at_most_once (parse : String → Option J) (stringify : J → Option String)
    (id : String) (hrun : Trace.run (step parse stringify) start events = some db) :
    (∀ row, db.find id = some row →
      row.attempts = attemptsOf id start + events.countP (·.claims id)) ∧
    (∀ before event after, events = before ++ event :: after → event.marksSending id = true →
      (∀ later ∈ after, later.requeues id = false) →
        InStatus id [.sending, .unknown, .completed] db ∧
          ∀ later ∈ after, later.claims id = false) ∧
    (∀ before event between later after, events = before ++ event :: (between ++ later :: after) →
      event.claims id = true → (∀ middle ∈ between, middle.resets id = false) →
        later.claims id = false) ∧
    ∀ before after middle row, events = before ++ after →
      Trace.run (step parse stringify) start before = some middle → middle.find id = some row →
        ∃ row', db.find id = some row' ∧ row'.toOutboxPayload = row.toOutboxPayload ∧
          (row.status = .completed → row'.status = .completed) := by
  refine ⟨?_, ?_, ?_, ?_⟩
  · intro row hrow
    have hattempts : attemptsOf id db = attemptsOf id _ + _ := run_attempts hrun
    rwa [attemptsOf, hrow, Option.map_some, Option.getD_some] at hattempts
  · rintro before event after rfl hmarks hquiet
    obtain ⟨first, -, hrest⟩ := Trace.run_append.mp hrun
    obtain ⟨second, hstep, hafter⟩ := Trace.run_cons.mp hrest
    obtain ⟨row, hrow, hstatus⟩ := markSending_status hstep hmarks (markSending_found hstep hmarks)
    have hsent : InStatus id [.sending, .unknown, .completed] second :=
      ⟨row, hrow, List.mem_cons.mpr (.inl (List.mem_singleton.mp hstatus))⟩
    have hclosed := fun later hlater => closed_sent (hquiet later hlater)
    exact ⟨run_inStatus hclosed hafter hsent,
      run_never_claimed hclosed (by decide) hafter hsent⟩
  · rintro before event between later after rfl hclaims hquiet
    obtain ⟨first, -, hrest⟩ := Trace.run_append.mp hrun
    obtain ⟨second, hstep, hafter⟩ := Trace.run_cons.mp hrest
    obtain ⟨third, hbetween, hlast⟩ := Trace.run_append.mp hafter
    obtain ⟨fourth, hlater, -⟩ := Trace.run_cons.mp hlast
    obtain ⟨-, row, hrow, hstatus⟩ := claim_status hstep hclaims
    have hclosed := fun middle hmid => closed_claimed (hquiet middle hmid)
    obtain ⟨row', hrow', hlate⟩ := run_inStatus hclosed hbetween
      ⟨row, hrow, List.mem_cons.mpr (.inl (List.mem_singleton.mp hstatus))⟩
    by_contra hagain
    rw [Bool.not_eq_false] at hagain
    obtain ⟨⟨other, hother, hclaimable⟩, -⟩ := claim_status hlater hagain
    rw [hrow', Option.some.injEq] at hother
    subst hother
    generalize row'.status = status at *
    revert status
    decide
  · rintro before after middle row rfl hbefore hrow
    obtain ⟨reached, hreach, hafter⟩ := Trace.run_append.mp hrun
    obtain rfl : reached = middle := Option.some.inj (hreach.symm.trans hbefore)
    obtain ⟨row', hrow', hpay⟩ := run_payload hafter hrow
    refine ⟨row', hrow', hpay, ?_⟩
    intro hdone
    obtain ⟨other, hother, hstatus⟩ := run_inStatus (fun _ _ => closed_completed) hafter
      ⟨row, hrow, List.mem_singleton.mpr hdone⟩
    rw [hrow', Option.some.injEq] at hother
    rw [hother]
    exact List.mem_singleton.mp hstatus

/-- A task that is queued, claimed, sent and completed. -/
def deliveredEvents : List (Event Unit) :=
  [⟨1, .enqueue ⟨"task", .single, "chat", some 7, none, none, 1, none, none, none, false⟩, true⟩,
    ⟨2, .claim "task", true⟩, ⟨3, .markSending "task", true⟩, ⟨4, .claim "task", false⟩,
    ⟨5, .complete "task" none, true⟩]

theorem delivered_once : ∃ db,
    Trace.run (step (fun _ => some ()) (fun _ => none)) Keyed.empty deliveredEvents = some db ∧
      (∀ row, db.find "task" = some row → row.attempts = 1) ∧
      InStatus "task" [.sending, .unknown, .completed] db := by
  have hsome : (Trace.run (step (fun _ => some ()) (fun _ => none)) Keyed.empty
      deliveredEvents).isSome = true := by decide +kernel
  obtain ⟨db, hrun⟩ := Option.isSome_iff_exists.mp hsome
  obtain ⟨hattempts, hsent, -⟩ := outbox_sends_at_most_once _ _ "task" hrun
  refine ⟨db, hrun, hattempts, ?_⟩
  exact (hsent (deliveredEvents.take 2) _ (deliveredEvents.drop 3) rfl (by decide +kernel)
    (by decide +kernel)).1

end Safety

end TsxCore.Outbox
