import TsxCore.McpControlBridge

/-!
# What the statements do to one row

The two queues seen alike: a row is its ticket and a stage. Each statement of the
repository moves rows from stage to stage, and no statement touches a settled row.
-/

namespace TsxCore.Mcp

open Outcome

inductive Stage
  | waiting
  | ready
  | running
  | succeeded
  | failed
  deriving DecidableEq

def ControlStatus.stage : ControlStatus → Stage
  | .pending => .ready
  | .running => .running
  | .succeeded => .succeeded
  | .failed => .failed

def ProposalStatus.stage : ProposalStatus → Stage
  | .pending => .waiting
  | .approved => .ready
  | .executing => .running
  | .completed => .succeeded
  | _ => .failed

def Tables.view (t : Tables) : Queue → String → Option (Ticket × Stage)
  | .request, id => (t.requests.find id).map (fun r => (r.toTicket, r.status.stage))
  | .proposal, id => (t.proposals.find id).map (fun r => (r.toTicket, r.status.stage))

structure Settled (t u : Tables) : Prop where
  requests : ∀ r ∈ t.requests.rows, r.status.stage = .succeeded ∨ r.status.stage = .failed →
    r ∈ u.requests.rows
  proposals : ∀ r ∈ t.proposals.rows, r.status.stage = .succeeded ∨ r.status.stage = .failed →
    r ∈ u.proposals.rows

section Updates

variable {t u : Tables} {q : Queue} {id : String} {k : Ticket} {stage : Stage}
  {p : McpControlRequest → Bool} {f : McpControlRequest → McpControlRequest}

theorem view_id (h : t.view q id = some (k, stage)) : k.id = id := by
  cases q with
  | request | proposal =>
    obtain ⟨r, hr, heq⟩ := Option.map_eq_some_iff.mp h
    have hid := Keyed.key_of_find hr
    rw [Prod.mk.injEq] at heq
    rw [← heq.1]
    exact hid

theorem view_request {r : McpControlRequest} (hr : r ∈ t.requests.rows) :
    t.view .request r.id = some (r.toTicket, r.status.stage) := by
  rw [Tables.view, Keyed.find_eq_some.mpr ⟨hr, rfl⟩]
  rfl

theorem view_proposal {r : McpAgentProposal} (hr : r ∈ t.proposals.rows) :
    t.view .proposal r.id = some (r.toTicket, r.status.stage) := by
  rw [Tables.view, Keyed.find_eq_some.mpr ⟨hr, rfl⟩]
  rfl

/-- What an update does to one row of either table. -/
theorem moves_update {R : Type} {key : R → String} {rows : Keyed key} {p : R → Bool} {f : R → R}
    (hf : ∀ r, key (f r) = key r) (view : R → Ticket × Stage)
    {P : Option (Ticket × Stage) → Option (Ticket × Stage) → Prop} (hsame : ∀ v, P v v)
    (hmoved : ∀ r ∈ rows.rows, key r = id → p r = true → P (some (view r)) (some (view (f r)))) :
    P ((rows.find id).map view) (((rows.update p f hf).find id).map view) := by
  rw [Keyed.find_update]
  cases hr : rows.find id with
  | none => exact hsame none
  | some r =>
    simp only [Option.map_some]
    by_cases hp : p r = true
    · rw [if_pos hp]
      exact hmoved r (Keyed.mem_of_find hr) (Keyed.key_of_find hr) hp
    · rw [if_neg hp]
      exact hsame _

variable {P : Queue → String → Option (Ticket × Stage) → Option (Ticket × Stage) → Prop}

/-- What holds of unchanged rows, and of the rows that an update of the requests moves. -/
theorem moves_updateRequests {status : ControlStatus} {hf : ∀ r, (f r).toTicket = r.toTicket}
    (hsame : ∀ q id v, P q id v v)
    (hmoved : ∀ r ∈ t.requests.rows, p r = true →
      P .request r.id (some (r.toTicket, r.status.stage)) (some (r.toTicket, status.stage)))
    (q : Queue) (id : String) :
    P q id (t.view q id) ((updateRequests t p status f hf).view q id) := by
  cases q with
  | proposal => exact hsame _ _ _
  | request =>
    refine moves_update (R := McpControlRequest) (fun r => congrArg Ticket.id (hf r))
      (fun r => (r.toTicket, r.status.stage)) (hsame _ _) ?_
    rintro r hr rfl hp
    simpa only [hf r] using hmoved r hr hp

theorem moves_updateProposals {p : McpAgentProposal → Bool}
    {f : McpAgentProposal → McpAgentProposal} (hf : ∀ r, (f r).toTicket = r.toTicket)
    (hsame : ∀ q id v, P q id v v)
    (hmoved : ∀ r ∈ t.proposals.rows, p r = true →
      P .proposal r.id (some (r.toTicket, r.status.stage)) (some (r.toTicket, (f r).status.stage)))
        (q : Queue)
    (id : String) : P q id (t.view q id) ((updateProposals t p f hf).view q id) := by
  cases q with
  | request => exact hsame _ _ _
  | proposal =>
    refine moves_update (R := McpAgentProposal) (fun r => congrArg Ticket.id (hf r))
      (fun r => (r.toTicket, r.status.stage)) (hsame _ _) ?_
    rintro r hr rfl hp
    simpa only [hf r] using hmoved r hr hp

theorem Settled.refl (t : Tables) : Settled t t := ⟨fun _ h _ => h, fun _ h _ => h⟩

theorem Settled.trans {v : Tables} (h : Settled t u) (h' : Settled u v) : Settled t v :=
  ⟨fun r hr hs => h'.requests r (h.requests r hr hs) hs, fun r hr hs => h'.proposals r
    (h.proposals r hr hs) hs⟩

theorem settled_updateRequests {status : ControlStatus} {hf : ∀ r, (f r).toTicket = r.toTicket}
    (hopen : ∀ r, p r = true → r.status = .pending ∨ r.status = .running) :
    Settled t (updateRequests t p status f hf) := by
  refine ⟨?_, fun _ hr _ => hr⟩
  intro r hr hset
  apply SqlTable.mem_updateWhere.mpr
  right
  refine ⟨hr, Bool.eq_false_iff.mpr ?_⟩
  intro hp
  rcases hopen r hp with hstatus | hstatus
  · simp [hstatus, ControlStatus.stage] at hset
  · simp [hstatus, ControlStatus.stage] at hset

theorem moves_failRequests {message : String} {now : ℤ} (hsame : ∀ q id v, P q id v v)
    (hmoved : ∀ r ∈ t.requests.rows, p r = true →
      P .request r.id (some (r.toTicket, r.status.stage)) (some (r.toTicket, .failed)))
    (q : Queue) (id : String) : P q id (t.view q id) ((failRequests t p message now).view q id) :=
  moves_updateRequests hsame hmoved q id

theorem settled_failRequests {message : String} {now : ℤ}
    (hopen : ∀ r, p r = true → r.status = .pending ∨ r.status = .running) :
    Settled t (failRequests t p message now) :=
  settled_updateRequests hopen

theorem settled_updateProposals {p : McpAgentProposal → Bool}
    {f : McpAgentProposal → McpAgentProposal} (hf : ∀ r, (f r).toTicket = r.toTicket)
    (hopen : ∀ r, p r = true → r.status = .pending ∨ r.status = .approved ∨ r.status = .executing) :
    Settled t (updateProposals t p f hf) := by
  refine ⟨fun _ hr _ => hr, ?_⟩
  intro r hr hset
  apply SqlTable.mem_updateWhere.mpr
  right
  refine ⟨hr, Bool.eq_false_iff.mpr ?_⟩
  intro hp
  rcases hopen r hp with hstatus | hstatus | hstatus
  · simp [hstatus, ProposalStatus.stage] at hset
  · simp [hstatus, ProposalStatus.stage] at hset
  · simp [hstatus, ProposalStatus.stage] at hset

end Updates

section Claims

variable {R : Type} {p : R → Bool} {before : R → R → Bool} {rows : List R} {row : R}
  {outcome : Except String (Option String)}

theorem mem_firstRow (h : firstRow p before rows = some row) : row ∈ rows ∧ p row = true := by
  have hfold : ∀ f : Option R → R → Option R,
      (∀ found r x, f found r = some x → x = r ∨ found = some x) →
      ∀ (rs : List R) (found : Option R), (∀ r, found = some r → r ∈ rows ∧ p r = true) →
      (∀ r ∈ rs, r ∈ rows ∧ p r = true) → ∀ r, rs.foldl f found = some r →
        r ∈ rows ∧ p r = true := by
    intro f hf rs
    induction rs with
    | nil => exact fun found hfound _ => hfound
    | cons r rest ih =>
      intro found hfound hrest
      apply ih
      · intro x hx
        obtain rfl | hx := hf found r x hx
        · exact hrest x List.mem_cons_self
        · exact hfound x hx
      · exact fun x hx => hrest x (List.mem_cons_of_mem r hx)
  refine hfold _ ?_ _ none ?_ (fun r hr => List.mem_filter.mp hr) row h
  · intro found r x hx
    cases found with
    | none => exact .inl (Option.some.inj hx).symm
    | some other =>
      simp only at hx
      split_ifs at hx
      · exact .inl (Option.some.inj hx).symm
      · exact .inr hx
  · intro r hr
    cases hr

variable {t u : Tables} {now : ℤ}

/-- A row moves from one stage to another, and all others stay. -/
structure Moved (t u : Tables) (q : Queue) (k : Ticket) (old new : Stage) : Prop where
  before : t.view q k.id = some (k, old)
  after : u.view q k.id = some (k, new)
  others : ∀ q' id, (q', id) ≠ (q, k.id) → u.view q' id = t.view q' id

theorem moved_updateRequests {p : McpControlRequest → Bool} (status : ControlStatus)
    (f : McpControlRequest → McpControlRequest) (hf : ∀ r, (f r).toTicket = r.toTicket)
    {r : McpControlRequest} (hr : r ∈ t.requests.rows) (hp : p r = true)
    (hone : ∀ x, p x = true → x.id = r.id) :
    Moved t (updateRequests t p status f hf) .request r.toTicket r.status.stage status.stage := by
  refine ⟨view_request hr, ?_, ?_⟩
  · simp only [Tables.view, updateRequests, Keyed.find_update, Keyed.find_eq_some.mpr ⟨hr, rfl⟩,
      Option.map_some, if_pos hp, hf r]
  · intro q' id hne
    refine moves_updateRequests
      (P := fun q id old new => (q, id) ≠ (Queue.request, r.id) → new = old)
      (fun _ _ _ _ => rfl) ?_ q' id hne
    intro x _ hx hne
    rw [hone x hx] at hne
    exact absurd rfl hne

theorem moved_updateProposals {p : McpAgentProposal → Bool}
    (f : McpAgentProposal → McpAgentProposal) (hf : ∀ r, (f r).toTicket = r.toTicket)
    {r : McpAgentProposal} (hr : r ∈ t.proposals.rows) (hp : p r = true)
    (hone : ∀ x, p x = true → x.id = r.id) :
    Moved t (updateProposals t p f hf) .proposal r.toTicket r.status.stage (f r).status.stage := by
  refine ⟨view_proposal hr, ?_, ?_⟩
  · simp only [Tables.view, updateProposals, Keyed.find_update, Keyed.find_eq_some.mpr ⟨hr, rfl⟩,
      Option.map_some, if_pos hp, hf r]
  · intro q' id hne
    refine moves_updateProposals
      (P := fun q id old new => (q, id) ≠ (Queue.proposal, r.id) → new = old)
      hf (fun _ _ _ _ => rfl) ?_ q' id hne
    intro x _ hx hne
    rw [hone x hx] at hne
    exact absurd rfl hne

theorem claim_request_cases (t : Tables) (now : ℤ) :
    claimNextMcpControlRequest t now = (none, t) ∨
      ∃ row u, claimNextMcpControlRequest t now = (some row, u) ∧
      t.mode = .active ∧ Moved t u .request row.toTicket .ready .running ∧ Settled t u := by
  unfold claimNextMcpControlRequest
  split
  · exact .inl rfl
  · rename_i row hrow
    right
    obtain ⟨hmem, hp⟩ := mem_firstRow hrow
    simp only [Bool.and_eq_true, decide_eq_true_eq] at hp
    have hchg : t.requests.changes
        (fun r => decide (r.id = row.id ∧ r.status = .pending ∧ t.mode = .active)) = 1 := by
      rw [Keyed.changes_of_key (k := row.id) (fun r hr => (of_decide_eq_true hr).1),
        Keyed.find_eq_some.mpr ⟨hmem, rfl⟩]
      simp [hp]
    simp only [hchg, ne_eq, not_true, if_false]
    refine ⟨_, _, rfl, hp.2, ?_, ?_⟩
    · have hmoved := moved_updateRequests .running (fun r => { r with startedAt := some now })
        (fun _ => rfl) hmem
        (p := fun r => decide (r.id = row.id ∧ r.status = .pending ∧ t.mode = .active))
          (by simp [hp])
        (fun x hx => (of_decide_eq_true hx).1)
      rw [hp.1] at hmoved
      exact hmoved
    · apply settled_updateRequests
      intro r hr
      simp only [decide_eq_true_eq] at hr
      exact .inl hr.2.1

theorem claim_proposal_cases (t : Tables) :
    claimNextApprovedMcpProposal t = (none, none, t) ∨ ∃ k u found, claimNextApprovedMcpProposal t =
      (some k.id, found, u) ∧ t.mode = .active ∧ Moved t u .proposal k .ready .running ∧
        Settled t u ∧
        ∀ row ∈ found, row.toTicket = k := by
  unfold claimNextApprovedMcpProposal
  split
  · exact .inl rfl
  · rename_i row hrow
    right
    obtain ⟨hmem, hp⟩ := mem_firstRow hrow
    simp only [Bool.and_eq_true, decide_eq_true_eq] at hp
    have hchg : t.proposals.changes
        (fun r => decide (r.id = row.id ∧ r.status = .approved ∧ t.mode = .active)) = 1 := by
      rw [Keyed.changes_of_key (k := row.id) (fun r hr => (of_decide_eq_true hr).1),
        Keyed.find_eq_some.mpr ⟨hmem, rfl⟩]
      simp [hp]
    have hmoved := moved_updateProposals (fun r => { r with status := .executing })
      (fun _ => rfl) hmem
      (p := fun r => decide (r.id = row.id ∧ r.status = .approved ∧ t.mode = .active))
        (by simp [hp])
      (fun x hx => (of_decide_eq_true hx).1)
    rw [hp.1] at hmoved
    simp only [hchg, ne_eq, not_true, if_false]
    refine ⟨row.toTicket, _, _, rfl, hp.2, hmoved, ?_, ?_⟩
    · refine settled_updateProposals _ ?_
      intro r hr
      exact .inr (.inl (of_decide_eq_true hr).2.1)
    · intro found hfound
      obtain ⟨hfind, -⟩ := Option.filter_eq_some_iff.mp hfound
      have hafter := hmoved.after
      rw [Tables.view, hfind, Option.map_some, Option.some.injEq, Prod.mk.injEq] at hafter
      exact hafter.1

def Storable (q : Queue) (result : Option String) : Prop :=
  ∃ text, result = some text ∧ byteLength text.toList ≤ (match q with
    | .request => maximumJsonBytes
    | .proposal => maximumWorkflowJsonBytes)

def settledStage : Except String (Option String) → Stage
  | .ok _ => .succeeded
  | .error _ => .failed

theorem exists_of_changes {R K : Type} [DecidableEq K] {key : R → K} {rows : Keyed key}
    {p : R → Bool}
    (h : rows.changes p = 1) : ∃ r ∈ rows.rows, p r = true := by
  apply List.countP_pos_iff.mp
  rw [Keyed.changes, SqlTable.changes] at h
  omega

theorem complete_request_ok {id : String} (h : completeMcpControlRequest t id outcome now = .ok u) :
    ∃ k : Ticket, k.id = id ∧ Moved t u .request k .running (settledStage outcome) ∧
      Settled t u := by
  have hupdate : ∀ (status : ControlStatus) (f : McpControlRequest → McpControlRequest)
      (hf : ∀ r, (f r).toTicket = r.toTicket),
      t.requests.changes (fun r => decide (r.id = id ∧ r.status = .running)) = 1 →
      u = updateRequests t (fun r => decide (r.id = id ∧ r.status = .running)) status f hf →
        ∃ k : Ticket, k.id = id ∧ Moved t u .request k .running status.stage ∧ Settled t u := by
    rintro status f hf hchg rfl
    obtain ⟨r, hr, hp⟩ := exists_of_changes hchg
    obtain ⟨rfl, hrunning⟩ := of_decide_eq_true hp
    have hmoved := moved_updateRequests (p := fun x => decide (x.id = r.id ∧ x.status = .running))
      status f hf hr hp (fun x hx => (of_decide_eq_true hx).1)
    rw [hrunning] at hmoved
    refine ⟨r.toTicket, rfl, hmoved, ?_⟩
    apply settled_updateRequests
    intro x hx
    exact .inr (of_decide_eq_true hx).2
  cases outcome with
  | ok result =>
    simp only [completeMcpControlRequest, bind_eq_ok, pure_eq_ok_iff, throwIf_eq_ok, not_not] at h
    obtain ⟨text, -, _, rfl, -, hchg, rfl⟩ := h
    exact hupdate _ _ _ hchg rfl
  | error message =>
    simp only [completeMcpControlRequest, bind_eq_ok, pure_eq_ok_iff, throwIf_eq_ok, not_not] at h
    obtain ⟨_, rfl, -, hchg, rfl⟩ := h
    exact hupdate _ _ _ hchg rfl

theorem complete_proposal_ok {id : String} (h : completeMcpProposal t id outcome now = .ok u) :
    ∃ k : Ticket, k.id = id ∧ Moved t u .proposal k .running (settledStage outcome) ∧
      Settled t u := by
  have hupdate : ∀ (f : McpAgentProposal → McpAgentProposal)
    (hf : ∀ r, (f r).toTicket = r.toTicket),
      t.proposals.changes (fun r => decide (r.id = id ∧ r.status = .executing)) = 1 →
      u = updateProposals t (fun r => decide (r.id = id ∧ r.status = .executing)) f hf →
        ∃ r : McpAgentProposal, r.id = id ∧
          Moved t u .proposal r.toTicket .running (f r).status.stage ∧
          Settled t u := by
    rintro f hf hchg rfl
    obtain ⟨r, hr, hp⟩ := exists_of_changes hchg
    obtain ⟨rfl, hrunning⟩ := of_decide_eq_true hp
    have hmoved := moved_updateProposals
      (p := fun x => decide (x.id = r.id ∧ x.status = .executing))
      f hf hr hp (fun x hx => (of_decide_eq_true hx).1)
    rw [hrunning] at hmoved
    refine ⟨r, rfl, hmoved, ?_⟩
    apply settled_updateProposals hf
    intro x hx
    exact .inr (.inr (of_decide_eq_true hx).2)
  cases outcome with
  | ok result =>
    simp only [completeMcpProposal, bind_eq_ok, pure_eq_ok_iff, throwIf_eq_ok, not_not] at h
    obtain ⟨text, -, _, rfl, -, hchg, rfl⟩ := h
    obtain ⟨r, hid, hmoved, hset⟩ := hupdate _ _ hchg rfl
    exact ⟨r.toTicket, hid, hmoved, hset⟩
  | error message =>
    simp only [completeMcpProposal, bind_eq_ok, pure_eq_ok_iff, throwIf_eq_ok, not_not] at h
    obtain ⟨_, rfl, -, hchg, rfl⟩ := h
    obtain ⟨r, hid, hmoved, hset⟩ := hupdate _ _ hchg rfl
    exact ⟨r.toTicket, hid, hmoved, hset⟩

theorem complete_ok {job : Job} (h : job.complete t outcome now = .ok u)
    : ∃ k : Ticket, k.id = job.ticket.id ∧
      Moved t u job.queue k .running (settledStage outcome) ∧ Settled t u := by
  unfold Job.complete at h
  cases hq : job.queue with
  | request =>
    rw [hq] at h
    exact complete_request_ok h
  | proposal =>
    rw [hq] at h
    exact complete_proposal_ok h

theorem json_ok {serialized : Option String} {label : String} {maximumBytes : ℕ} {text : String}
    (h : json serialized label maximumBytes = .ok text) : serialized = some text := by
  cases serialized with
  | none => cases h
  | some value =>
    simp only [json, bind_eq_ok, pure_eq_ok_iff] at h
    obtain ⟨-, -, rfl⟩ := h
    rfl

theorem json_storable {result : Option String} {label : String} {maximumBytes : ℕ} {text : String}
    (hres : result = some text) (hsize : byteLength text.toList ≤ maximumBytes) :
    json result label maximumBytes = .ok text := by
  rw [hres]
  simp [json, not_lt.mpr hsize]

theorem running_changes {R : Type} {key : R → String} {rows : Keyed key} {p : R → Bool}
    {id : String} {k : Ticket} {view : R → Ticket × Stage}
    (hrunning : (rows.find id).map view = some (k, .running))
    (hkey : ∀ r, p r = true → key r = id)
    (hp : ∀ r, key r = id → (view r).2 = .running → p r = true) : rows.changes p = 1 := by
  obtain ⟨r, hr, heq⟩ := Option.map_eq_some_iff.mp hrunning
  rw [Keyed.changes_of_key hkey, hr, Option.any_some,
    if_pos (hp r (Keyed.key_of_find hr) (by rw [heq]))]

theorem complete_error {job : Job} {result : Option String} {thrown : Thrown}
    (hstorable : Storable job.queue result) (h : job.complete t (.ok result) now = .error thrown)
    (k : Ticket) : t.view job.queue job.ticket.id ≠ some (k, .running) := by
  obtain ⟨text, hres, hsize⟩ := hstorable
  intro hrunning
  unfold Job.complete at h
  cases hq : job.queue with
  | request =>
    rw [hq] at h hsize hrunning
    have hchg : t.requests.changes
        (fun r => decide (r.id = job.ticket.id ∧ r.status = .running)) = 1 := by
      refine running_changes hrunning (fun r hr => (of_decide_eq_true hr).1) ?_
      intro r hid hstage
      cases hs : r.status <;> simp_all [ControlStatus.stage]
    simp only [completeMcpControlRequest, json_storable hres hsize, ok_bind, pure_bind, hchg] at h
    simp at h
  | proposal =>
    rw [hq] at h hsize hrunning
    have hchg : t.proposals.changes
        (fun r => decide (r.id = job.ticket.id ∧ r.status = .executing)) = 1 := by
      refine running_changes hrunning (fun r hr => (of_decide_eq_true hr).1) ?_
      intro r hid hstage
      cases hs : r.status <;> simp_all [ProposalStatus.stage]
    simp only [completeMcpProposal, json_storable hres hsize, ok_bind, pure_bind, hchg] at h
    simp at h

end Claims

end TsxCore.Mcp
