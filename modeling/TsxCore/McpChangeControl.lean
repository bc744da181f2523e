import TsxCore.McpRows

/-!
# The steps of change control

Everything that agents, operators, mode switches, expiry, deletions, crashes and the
worker do is one of three things: a quiet step, which moves rows as listed in `Shift`, a
claim, or a step of the claimed job.
-/

namespace TsxCore.Mcp

open Outcome

def Restricted (q : Queue) (k : Ticket) : Prop := q = .proposal ∧ k.action ∈ approvalRequiredActions

def Authorized (history : List Event) (q : Queue) (k : Ticket) : Prop :=
  Restricted q k → .approved k.id ∈ history

/-- Neither a claim, nor a call or a return of a handler. -/
def Event.IsNote : Event → Prop
  | .claimed .. => False
  | .invoked .. => False
  | .returned .. => False
  | _ => True

/-- What a step of anyone but a job does to a row, short of a claim. -/
inductive Shift (s : State) (e : List Event) (q : Queue) (id : String) :
    Option (Ticket × Stage) → Option (Ticket × Stage) → Prop
  | same (v : Option (Ticket × Stage)) : Shift s e q id v v
  | created {k : Ticket} {stage : Stage} (hid : k.id = id) (hevent : .created q k ∈ e)
    (hstage : stage = .waiting ∨ (stage = .ready ∧ ¬ Restricted q k)) :
    Shift s e q id none (some (k, stage))
  | approved {k : Ticket} (hevent : .approved id ∈ e) :
    Shift s e q id (some (k, .waiting)) (some (k, .ready))
  | cancelled {k : Ticket} {stage : Stage} (hstage : stage = .waiting ∨ stage = .ready) :
    Shift s e q id (some (k, stage)) (some (k, .failed))
  | swept {k : Ticket} (hevent : .swept q id ∈ e) :
    Shift s e q id (some (k, .running)) (some (k, .failed))
  | recovered {k : Ticket} (hidle : ∀ job, s.worker ≠ .job job) :
    Shift s e q id (some (k, .running)) (some (k, .failed))

structure Quiet (s t : State) (e : List Event) : Prop where
  history : t.history = s.history ++ e
  notes : ∀ event ∈ e, event.IsNote
  made : ∀ q k, .created q k ∈ e → ∃ stage, t.tables.view q k.id = some (k, stage)
  rows : ∀ q id, Shift s e q id (s.tables.view q id) (t.tables.view q id)
  settled : Settled s.tables t.tables
  jobs : ∀ job, t.worker = .job job → s.worker = .job job
  crash : ∀ job, s.worker = .job job → t.worker = .job job ∨ .crashed job.queue job.ticket.id ∈ e

structure Claim (s t : State) (q : Queue) (k : Ticket) : Prop where
  history : t.history = s.history ++ [.claimed q k.id .active]
  moved : Moved s.tables t.tables q k .ready .running
  settled : Settled s.tables t.tables
  idle : ∀ job, s.worker ≠ .job job
  worker : ∀ job, t.worker = .job job → job = ⟨q, k, .authorize⟩

def Phase.Preparing : Phase → Prop
  | .authorize | .agents | .recordAuthorized | .assertActive | .preflight => True
  | _ => False

/-- What follows the return of a handler succeeds: its audit record, and storing its result. -/
def Recorded (job : Job) (w : World) : Prop :=
  (∀ result, job.phase = .recordCompleted result → w.ok = true) ∧
    ∀ result, job.phase = .complete result → w.ok = true ∧ Storable job.queue result

inductive JobStep (s : State) (job : Job) (w : World) : State → Prop
  | prepared {phase : Phase} (hold : job.phase.Preparing) (hnew : phase.Preparing) :
    JobStep s job w (s.setPhase job phase)
  | refused {message : String}
    (hrecd : Recorded job w → (∀ result, job.phase ≠ .recordCompleted result) ∧
      ∀ result, job.phase = .complete result →
        ∀ k, s.tables.view job.queue job.ticket.id ≠ some (k, .running)) :
    JobStep s job w (s.setPhase job (.recordFailed message))
  | invoked {handler : String} (hold : job.phase.Preparing) (hhandler : job.handler = .ok handler) :
    JobStep s job w ((s.setPhase job .handling).log [.invoked job.queue job.ticket handler])
  | returned {result : Option String} (hold : job.phase = .handling) :
    JobStep s job w ((s.setPhase job (.recordCompleted result)).log
      [.returned job.queue job.ticket.id])
  | recorded {result : Option String} (hold : job.phase = .recordCompleted result) :
    JobStep s job w (s.setPhase job (.complete result))
  | completed {result : Option String} {tables : Tables} (hold : job.phase = .complete result)
    (hcomp : job.complete s.tables (.ok result) w.now = .ok tables) :
    JobStep s job w { s with tables := tables, worker := .idle }
  | failing {message : String} (hold : job.phase = .recordFailed message) :
    JobStep s job w (s.setPhase job (.completeFailed message))
  | abandoned {message : String} (hold : job.phase = .completeFailed message) :
    JobStep s job w { s with worker := .idle }
  | failed {message : String} {tables : Tables} (hold : job.phase = .completeFailed message)
    (hcomp : job.complete s.tables (.error message) w.now = .ok tables) :
    JobStep s job w { s with tables := tables, worker := .idle }

section Cases

variable {s t : State} {job : Job} {w : World} {e : List Event}

theorem refused_preparing {message : String} (hold : job.phase.Preparing) :
    JobStep s job w (s.setPhase job (.recordFailed message)) := by
  apply JobStep.refused
  intro _
  constructor
  · intro result heq
    rw [heq] at hold
    exact hold
  · intro result heq
    rw [heq] at hold
    exact hold.elim

theorem invoke_cases (hold : job.phase.Preparing) : JobStep s job w (s.invoke job) := by
  unfold State.invoke
  cases hhandler : job.handler with
  | error message => exact refused_preparing hold
  | ok handler => exact .invoked hold hhandler

theorem workJob_cases (s : State) (job : Job) (w : World) : JobStep s job w (s.workJob job w) := by
  unfold State.workJob
  cases hphase : job.phase
  case authorize | agents | recordAuthorized =>
    have hold : job.phase.Preparing := by rw [hphase]; trivial
    dsimp only
    split_ifs
    all_goals first | exact refused_preparing hold | exact .prepared hold trivial
  case assertActive =>
    have hold : job.phase.Preparing := by rw [hphase]; trivial
    dsimp only
    split_ifs
    case neg =>
      cases job.queue with
      | request => exact invoke_cases hold
      | proposal => exact .prepared hold trivial
    all_goals exact refused_preparing hold
  case preflight =>
    have hold : job.phase.Preparing := by rw [hphase]; trivial
    dsimp only
    split_ifs
    · exact refused_preparing hold
    · exact invoke_cases hold
  case handling =>
    dsimp only
    cases w.outcome with
    | error message =>
      apply JobStep.refused
      intro _
      rw [hphase]
      exact ⟨nofun, nofun⟩
    | ok result => exact .returned hphase
  case recordCompleted result =>
    by_cases hok : w.ok = true
    · simp only [hok, Bool.not_true, Bool.false_eq_true, if_false]
      exact .recorded hphase
    · simp only [hok, Bool.not_false, if_true]
      apply JobStep.refused
      intro hrecd
      exact absurd (hrecd.1 result hphase) hok
  case complete result =>
    by_cases hok : w.ok = true
    · simp only [hok, Bool.not_true, Bool.false_eq_true, if_false]
      cases hcomp : job.complete s.tables (.ok result) w.now with
      | error thrown =>
        apply JobStep.refused
        intro hrecd
        constructor
        · rw [hphase]
          exact nofun
        · intro other heq k
          exact complete_error (hrecd.2 result hphase).2 hcomp k
      | ok tables => exact .completed hphase hcomp
    · simp only [hok, Bool.not_false, if_true]
      apply JobStep.refused
      intro hrecd
      exact absurd (hrecd.2 result hphase).1 hok
  case recordFailed message => exact .failing hphase
  case completeFailed message =>
    dsimp only
    split_ifs
    · exact .abandoned hphase
    · cases hcomp : job.complete s.tables (.error message) w.now with
      | error thrown => exact .abandoned hphase
      | ok tables => exact .failed hphase hcomp

theorem Quiet.of_tables {tables : Tables} (hnotes : ∀ event ∈ e, event.IsNote)
    (hmade : ∀ q k, .created q k ∈ e → ∃ stage, tables.view q k.id = some (k, stage))
    (hrows : ∀ q id, Shift s e q id (s.tables.view q id) (tables.view q id))
    (hset : Settled s.tables tables) : Quiet s ({ s with tables := tables }.log e) e where
  history := rfl
  notes := hnotes
  made := hmade
  rows := hrows
  settled := hset
  jobs _ h := h
  crash _ h := .inl h

theorem Quiet.tables {tables : Tables}
    (hrows : ∀ q id, Shift s [] q id (s.tables.view q id) (tables.view q id))
    (hset : Settled s.tables tables) : Quiet s { s with tables := tables } [] where
  history := (List.append_nil _).symm
  notes := nofun
  made := nofun
  rows := hrows
  settled := hset
  jobs _ h := h
  crash _ h := .inl h

theorem Quiet.refl (s : State) : Quiet s s [] := .tables (fun _ _ => .same _) (.refl _)

theorem Quiet.commit {result : Outcome Tables} (hnotes : ∀ event ∈ e, event.IsNote)
    (hmade : ∀ tables, result = .ok tables → ∀ q k, .created q k ∈ e →
      ∃ stage, tables.view q k.id = some (k, stage))
    (hrows : ∀ tables, result = .ok tables →
      ∀ q id, Shift s e q id (s.tables.view q id) (tables.view q id))
    (hset : ∀ tables, result = .ok tables → Settled s.tables tables) :
    ∃ e', Quiet s (s.commit result e) e' := by
  unfold State.commit
  cases hres : result with
  | error thrown => exact ⟨[], .refl s⟩
  | ok tables => exact ⟨e, .of_tables hnotes (hmade tables hres) (hrows tables hres)
      (hset tables hres)⟩

theorem Quiet.between {tables : Tables} {worker : Worker} {recovered : Bool}
    (hidle : ∀ job, s.worker ≠ .job job) (hworker : ∀ job, worker ≠ .job job)
    (hrows : ∀ q id, Shift s [] q id (s.tables.view q id) (tables.view q id))
    (hset : Settled s.tables tables) : Quiet s ⟨tables, worker, recovered, s.history⟩ [] where
  history := (List.append_nil _).symm
  notes := nofun
  made := nofun
  rows := hrows
  settled := hset
  jobs job h := absurd h (hworker job)
  crash job h := absurd h (hidle job)

theorem Quiet.pause {worker : Worker} {recovered : Bool} (hidle : ∀ job, s.worker ≠ .job job)
    (hworker : ∀ job, worker ≠ .job job) : Quiet s ⟨s.tables, worker, recovered, s.history⟩ [] :=
  .between hidle hworker (fun _ _ => .same _) (.refl _)

theorem expire_shift (s : State) (now : ℤ) (q : Queue) (id : String) :
    Shift s [] q id (s.tables.view q id) ((expireMcpProposals s.tables now).view q id) := by
  refine moves_updateProposals _ (P := Shift s []) (fun _ _ v => .same v) ?_ q id
  intro r _ hp
  simp only [Bool.and_eq_true, Bool.or_eq_true, decide_eq_true_eq] at hp
  apply Shift.cancelled
  rcases hp.1 with hstatus | hstatus
  · exact .inl (by rw [hstatus]; rfl)
  · exact .inr (by rw [hstatus]; rfl)

theorem expire_settled (t : Tables) (now : ℤ) : Settled t (expireMcpProposals t now) := by
  apply settled_updateProposals _
  intro r hp
  simp only [Bool.and_eq_true, Bool.or_eq_true, decide_eq_true_eq] at hp
  exact hp.1.imp_right .inl

theorem setMode_shift (s : State) (mode : McpRuntimeMode) (now : ℤ) :
    (∀ q id, Shift s [] q id (s.tables.view q id)
      ((setMcpRuntimeMode s.tables mode now).view q id)) ∧
      Settled s.tables (setMcpRuntimeMode s.tables mode now) := by
  unfold setMcpRuntimeMode
  split_ifs
  · exact ⟨fun _ _ => .same _, .refl _⟩
  · constructor
    · intro q id
      cases q with
      | request =>
        refine moves_failRequests (t := { s.tables with mode := mode }) (P := Shift s [])
          (p := fun r => decide (r.status = .pending)) (fun _ _ v => .same v) ?_ .request id
        intro r _ hp
        rw [of_decide_eq_true hp]
        exact .cancelled (.inr rfl)
      | proposal =>
        refine moves_updateProposals (t := s.tables) (P := Shift s [])
          (p := fun r => decide (r.status = .approved)) ?_ (fun _ _ v => .same v) ?_ .proposal id
        · exact fun _ => rfl
        · intro r _ hp
          rw [of_decide_eq_true hp]
          exact .cancelled (.inr rfl)
    · constructor
      · exact (settled_failRequests (t := { s.tables with mode := mode })
          (fun r hp => .inl (of_decide_eq_true hp))).requests
      · refine (settled_updateProposals (t := s.tables) ?_ ?_).proposals
        · exact fun _ => rfl
        · intro r hp
          exact .inr (.inl (of_decide_eq_true hp))
  · constructor
    · intro q id
      cases q <;> exact .same _
    · exact ⟨fun _ hr _ => hr, fun _ hr _ => hr⟩

theorem enqueue_shift {id agentId action : String} {payload : Option String} {now : ℤ} {u : Tables}
    (h : enqueueMcpControlRequest s.tables id agentId action payload now = .ok u) :
    (∀ q i, Shift s [.created .request ⟨id, agentId, action, payload.getD ""⟩] q i
      (s.tables.view q i)
      (u.view q i)) ∧ Settled s.tables u ∧
        u.view .request id = some (⟨id, agentId, action, payload.getD ""⟩, .ready) := by
  simp only [enqueueMcpControlRequest, bind_eq_ok, throwIf_eq_ok, pure_eq_ok_iff] at h
  obtain ⟨-, -, -, -, text, htext, -, -, -, hfresh, rfl⟩ := h
  rw [json_ok htext, Option.getD_some]
  rw [Option.not_isSome_iff_eq_none] at hfresh
  constructor
  · intro q i
    cases q with
    | proposal => exact .same _
    | request =>
      simp only [Tables.view, Keyed.find_insert]
      split_ifs with heq
      · subst heq
        rw [hfresh]
        exact .created rfl List.mem_cons_self (.inr ⟨rfl, by rintro ⟨⟨⟩, -⟩⟩)
      · exact .same _
  constructor
  · constructor
    · intro r hr _
      rw [Keyed.rows_insert hfresh]
      exact List.mem_append_left _ hr
    · exact fun _ hr _ => hr
  · simp only [Tables.view, Keyed.find_insert]
    rw [if_pos trivial, hfresh]
    rfl

theorem propose_shift {id agentId action : String} {payload : Option String} {autoApprove : Bool}
    {blockers : List String} {now : ℤ} {u : Tables}
    (h : createMcpProposal s.tables id agentId action payload autoApprove blockers now = .ok u) :
    (∀ q i, Shift s [.created .proposal ⟨id, agentId, action, payload.getD ""⟩] q i
      (s.tables.view q i)
      (u.view q i)) ∧ Settled s.tables u ∧
        ∃ stage, u.view .proposal id = some (⟨id, agentId, action, payload.getD ""⟩, stage) := by
  simp only [createMcpProposal, bind_eq_ok, throwIf_eq_ok, pure_eq_ok_iff] at h
  obtain ⟨-, -, -, -, -, -, -, -, text, htext, -, -, -, hfresh, rfl⟩ := h
  rw [json_ok htext, Option.getD_some]
  rw [Option.not_isSome_iff_eq_none] at hfresh
  constructor
  · intro q i
    cases q with
    | request => exact .same _
    | proposal =>
      simp only [Tables.view, Keyed.find_insert]
      split_ifs with heq hauto
      · subst heq
        rw [hfresh]
        refine .created rfl List.mem_cons_self (.inr ⟨rfl, ?_⟩)
        rintro ⟨-, hrestricted⟩
        simp_all
      · subst heq
        rw [hfresh]
        exact .created rfl List.mem_cons_self (.inl rfl)
      · exact .same _
  constructor
  · constructor
    · exact fun _ hr _ => hr
    · intro r hr _
      rw [Keyed.rows_insert hfresh]
      exact List.mem_append_left _ hr
  · simp only [Tables.view, Keyed.find_insert]
    rw [if_pos trivial, hfresh]
    exact ⟨_, rfl⟩

theorem delete_shift {agentId : String} {now : ℤ} {u : Tables}
    (h : deleteMcpAgent s.tables agentId now = .ok u) :
    (∀ q i, Shift s (sweptRows s.tables agentId) q i (s.tables.view q i) (u.view q i)) ∧
      Settled s.tables u := by
  simp only [deleteMcpAgent, bind_eq_ok, throwIf_eq_ok, pure_eq_ok_iff] at h
  obtain ⟨-, -, rfl⟩ := h
  constructor
  · intro q i
    cases q with
    | request =>
      refine moves_failRequests (t := s.tables) (P := Shift s (sweptRows s.tables agentId))
        (p := fun r => r.agentId = agentId && (r.status = .pending || r.status = .running))
        (fun _ _ v => .same v) ?_ .request i
      intro r hr hp
      have hswept : .swept .request r.id ∈ sweptRows s.tables agentId :=
        List.mem_append_left _ (List.mem_map.mpr ⟨r, List.mem_filter.mpr ⟨hr, hp⟩, rfl⟩)
      simp only [Bool.and_eq_true, Bool.or_eq_true, decide_eq_true_eq] at hp
      rcases hp.2 with hstatus | hstatus
      · rw [hstatus]
        exact .cancelled (.inr rfl)
      · rw [hstatus]
        exact .swept hswept
    | proposal =>
      refine moves_updateProposals (t := s.tables) (P := Shift s (sweptRows s.tables agentId))
        (p := fun r => r.agentId = agentId &&
          (r.status = .pending || r.status = .approved || r.status = .executing))
        ?_ (fun _ _ v => .same v) ?_ .proposal i
      · exact fun _ => rfl
      intro r hr hp
      have hswept : .swept .proposal r.id ∈ sweptRows s.tables agentId :=
        List.mem_append_right _ (List.mem_map.mpr ⟨r, List.mem_filter.mpr ⟨hr, hp⟩, rfl⟩)
      simp only [Bool.and_eq_true, Bool.or_eq_true, decide_eq_true_eq] at hp
      rcases hp.2 with (hstatus | hstatus) | hstatus
      · simp only [hstatus, reduceCtorEq, if_false]
        exact .cancelled (.inl rfl)
      · simp only [hstatus, reduceCtorEq, if_false]
        exact .cancelled (.inr rfl)
      · simp only [hstatus, if_true]
        exact .swept hswept
  · constructor
    · refine (settled_failRequests (t := s.tables) ?_).requests
      intro r hp
      simp only [Bool.and_eq_true, Bool.or_eq_true, decide_eq_true_eq] at hp
      exact hp.2
    · refine (settled_updateProposals (t := s.tables) ?_ ?_).proposals
      · exact fun _ => rfl
      · intro r hp
        simp only [Bool.and_eq_true, Bool.or_eq_true, decide_eq_true_eq] at hp
        exact or_assoc.mp hp.2

theorem work_cases (s : State) (w : World) : (∃ e, Quiet s (s.work w) e) ∨
    (∃ q k, Claim s (s.work w) q k) ∨
      ∃ job, s.worker = .job job ∧ JobStep s job w (s.work w) := by
  unfold State.work
  cases hworker : s.worker with
  | job job =>
    right; right
    exact ⟨job, rfl, workJob_cases s job w⟩
  | idle =>
    left
    dsimp only
    refine ⟨[], ?_⟩
    split_ifs
    · exact .refl s
    · exact .pause (by simp [hworker]) (by simp)
    · exact .pause (by simp [hworker]) (by simp)
  | recoverRequests =>
    left
    dsimp only
    refine ⟨[], ?_⟩
    split_ifs
    · exact .pause (by simp [hworker]) (by simp)
    · apply Quiet.between (by simp [hworker]) (by simp)
      · apply moves_failRequests (P := Shift s []) (fun _ _ v => .same v)
        intro r _ hp
        rw [of_decide_eq_true hp]
        exact .recovered (by simp [hworker])
      · exact settled_failRequests (fun r hp => .inr (of_decide_eq_true hp))
  | recoverProposals =>
    left
    dsimp only
    refine ⟨[], ?_⟩
    split_ifs
    · exact .pause (by simp [hworker]) (by simp)
    · apply Quiet.between (by simp [hworker]) (by simp)
      · refine moves_updateProposals _ (P := Shift s []) (fun _ _ v => .same v) ?_
        intro r _ hp
        rw [of_decide_eq_true hp]
        exact .recovered (by simp [hworker])
      · exact settled_updateProposals _ (fun r hp => .inr (.inr (of_decide_eq_true hp)))
  | claimRequest =>
    dsimp only
    split_ifs
    · exact .inl ⟨[], .pause (by simp [hworker]) (by simp)⟩
    · rcases claim_request_cases s.tables w.now with hnone | ⟨row, u, hsome, hmode, hmoved, hset⟩
      · rw [hnone]
        exact .inl ⟨[], .pause (by simp [hworker]) (by simp)⟩
      · right; left
        rw [hsome]
        refine ⟨.request, row.toTicket, ?_, hmoved, hset, by simp [hworker], ?_⟩
        · simp only [State.log, hmode]
        · intro job hjob
          exact (Worker.job.inj hjob).symm
  | expireProposals =>
    left
    dsimp only
    refine ⟨[], ?_⟩
    split_ifs
    · exact .pause (by simp [hworker]) (by simp)
    · exact .between (by simp [hworker]) (by simp) (expire_shift s w.now) (expire_settled _ _)
  | claimProposal =>
    dsimp only
    split_ifs
    · exact .inl ⟨[], .pause (by simp [hworker]) (by simp)⟩
    · rcases claim_proposal_cases s.tables with
        hnone | ⟨k, u, found, hsome, hmode, hmoved, hset, hfound⟩
      · rw [hnone]
        left
        have hpause : Quiet s ⟨s.tables, .idle, s.recovered, s.history⟩ [] :=
          .pause (by simp [hworker]) (by simp)
        exact ⟨[], by simpa [State.log] using hpause⟩
      · right; left
        rw [hsome]
        refine ⟨.proposal, k, ?_, hmoved, hset, by simp [hworker], ?_⟩
        · simp only [State.log, hmode, Option.toList_some, List.map_singleton]
        · intro job hjob
          cases found with
          | none => cases hjob
          | some row =>
            rw [← hfound row rfl]
            exact (Worker.job.inj hjob).symm

theorem step_cases {action : Action} (h : step s action = some t) : (∃ e, Quiet s t e) ∨
    (∃ q k, Claim s t q k) ∨
      ∃ job w, s.worker = .job job ∧ action = .work w ∧ JobStep s job w t := by
  cases action with
  | setMode mode now =>
    obtain rfl := Option.some.inj h
    left
    obtain ⟨hrows, hset⟩ := setMode_shift s mode now
    exact ⟨[], .tables hrows hset⟩
  | enqueue id agentId action payload now =>
    obtain rfl := Option.some.inj h
    left
    apply Quiet.commit (by simp [Event.IsNote])
    · intro tables htabs q k hcreated
      cases List.mem_singleton.mp hcreated
      exact ⟨_, (enqueue_shift htabs).2.2⟩
    · intro tables htabs
      exact (enqueue_shift htabs).1
    · intro tables htabs
      exact (enqueue_shift htabs).2.1
  | propose id agentId action payload autoApprove blockers now =>
    obtain rfl := Option.some.inj h
    left
    apply Quiet.commit (by simp [Event.IsNote])
    · intro tables htabs q k hcreated
      cases List.mem_singleton.mp hcreated
      exact (propose_shift htabs).2.2
    · intro tables htabs
      exact (propose_shift htabs).1
    · intro tables htabs
      exact (propose_shift htabs).2.1
  | list now =>
    obtain rfl := Option.some.inj h
    left
    exact ⟨[], .tables (expire_shift s now) (expire_settled _ _)⟩
  | approve reads id actor now =>
    obtain rfl := Option.some.inj h
    left
    apply Quiet.commit (by simp [Event.IsNote]) (by simp)
    · intro tables htabs
      simp only [approveMcpProposal, bind_eq_ok, throwIf_eq_ok, pure_eq_ok_iff] at htabs
      obtain ⟨-, -, -, -, -, -, -, -, rfl⟩ := htabs
      refine moves_updateProposals _ (P := Shift s [.approved id]) (fun _ _ v => .same v) ?_
      intro r _ hp
      obtain ⟨rfl, hstatus, -⟩ := of_decide_eq_true hp
      rw [hstatus]
      exact .approved List.mem_cons_self
    · intro tables htabs
      simp only [approveMcpProposal, bind_eq_ok, throwIf_eq_ok, pure_eq_ok_iff] at htabs
      obtain ⟨-, -, -, -, -, -, -, -, rfl⟩ := htabs
      exact settled_updateProposals _ (fun r hp => .inl (of_decide_eq_true hp).2.1)
  | reject id actor reason now =>
    obtain rfl := Option.some.inj h
    left
    apply Quiet.commit (by simp) (by simp)
    · intro tables htabs
      simp only [rejectMcpProposal, bind_eq_ok, throwIf_eq_ok, pure_eq_ok_iff] at htabs
      obtain ⟨-, -, rfl⟩ := htabs
      refine moves_updateProposals _ (P := Shift s []) (fun _ _ v => .same v) ?_
      intro r _ hp
      rw [(of_decide_eq_true hp).2]
      exact .cancelled (.inl rfl)
    · intro tables htabs
      simp only [rejectMcpProposal, bind_eq_ok, throwIf_eq_ok, pure_eq_ok_iff] at htabs
      obtain ⟨-, -, rfl⟩ := htabs
      exact settled_updateProposals _ (fun r hp => .inl (of_decide_eq_true hp).2)
  | updateAgent id permissions enabled baseUpdatedAt now =>
    obtain rfl := Option.some.inj h
    left
    apply Quiet.commit (by simp) (by simp)
    · intro tables htabs q i
      simp only [updateMcpAgent, bind_eq_ok, throwIf_eq_ok, pure_eq_ok_iff] at htabs
      obtain ⟨-, -, rfl⟩ := htabs
      cases q <;> exact .same _
    · intro tables htabs
      simp only [updateMcpAgent, bind_eq_ok, throwIf_eq_ok, pure_eq_ok_iff] at htabs
      obtain ⟨-, -, rfl⟩ := htabs
      exact ⟨fun _ hr _ => hr, fun _ hr _ => hr⟩
  | deleteAgent id now =>
    obtain rfl := Option.some.inj h
    left
    apply Quiet.commit
    · intro event hevent
      simp only [sweptRows, List.mem_append, List.mem_map] at hevent
      obtain ⟨r, -, rfl⟩ | ⟨r, -, rfl⟩ := hevent
      · trivial
      · trivial
    · simp [sweptRows]
    · intro tables htabs
      exact (delete_shift htabs).1
    · intro tables htabs
      exact (delete_shift htabs).2
  | work w =>
    obtain rfl := Option.some.inj h
    rcases work_cases s w with hquiet | hclaim | ⟨job, hjob, hstep⟩
    · exact .inl hquiet
    · exact .inr (.inl hclaim)
    · exact .inr (.inr ⟨job, w, hjob, rfl, hstep⟩)
  | restart =>
    simp only [step, Option.bind_eq_bind, Option.bind_eq_some_iff, Option.guard_eq_some',
      Option.pure_def, Option.some.injEq] at h
    obtain ⟨-, hidle, rfl⟩ := h
    left
    exact ⟨[], .pause (by simp [hidle]) (by simp [hidle])⟩
  | crash =>
    obtain rfl := Option.some.inj h
    left
    refine ⟨_, rfl, ?_, ?_, fun _ _ => .same _, .refl _, ?_, ?_⟩
    · intro event hevent
      cases hworker : s.worker <;> simp_all [Event.IsNote]
    · intro q k hcreated
      cases hworker : s.worker <;> simp_all
    · intro job hjob
      cases hjob
    · intro job hjob
      right
      rw [hjob]
      exact List.mem_cons_self

end Cases

end TsxCore.Mcp
