import TsxCore.McpChangeControl

/-!
# Change control of agents

Whatever agents, operators, mode switches, expiry, deletions, crashes and the worker do in
between: a row is handled once, by its claim and as it was stored, restricted actions
only after an approval, settled rows stay, and what a row says of its handler is true
exactly as long as the worker can record what a handler returned.
-/

namespace TsxCore.Mcp

open Outcome

variable {s t : State} {actions : List Action}

/-- Every call of a handler follows a claim in active mode of the row that was stored and the
approval that its action needs, and is the first for its row. -/
def Ordered (history : List Event) : Prop :=
  ∀ before q k handler after, history = before ++ .invoked q k handler :: after →
    Job.handler ⟨q, k, .handling⟩ = .ok handler ∧ .created q k ∈ before ∧
      .claimed q k.id .active ∈ before ∧ Authorized before q k ∧
        ∀ k' handler', .invoked q k' handler' ∈ before → k'.id ≠ k.id

structure RowsSound (t : Tables) (history : List Event) : Prop where
  created : ∀ q k, .created q k ∈ history ↔ ∃ stage, t.view q k.id = some (k, stage)
  unclaimed : ∀ q id k stage, t.view q id = some (k, stage) → stage = .waiting ∨ stage = .ready →
    ∀ mode, .claimed q id mode ∉ history
  ready : ∀ q id k, t.view q id = some (k, .ready) → Authorized history q k
  succeeded : ∀ q id k, t.view q id = some (k, .succeeded) → .returned q id ∈ history
  claimed : ∀ q id mode, .claimed q id mode ∈ history → ∃ k stage, t.view q id = some (k, stage)
  invoked : ∀ q k handler, .invoked q k handler ∈ history → .claimed q k.id .active ∈ history
  returned : ∀ q id, .returned q id ∈ history → .claimed q id .active ∈ history

structure JobSound (t : Tables) (history : List Event) (job : Job) : Prop where
  claimed : .claimed job.queue job.ticket.id .active ∈ history
  authorized : Authorized history job.queue job.ticket
  row : ∃ stage, t.view job.queue job.ticket.id = some (job.ticket, stage) ∧
    (stage = .running ∨ (stage = .failed ∧ .swept job.queue job.ticket.id ∈ history))
  preparing : job.phase.Preparing → ∀ k handler, .invoked job.queue k handler ∈ history →
    k.id ≠ job.ticket.id
  returned : (∃ result, job.phase = .recordCompleted result ∨ job.phase = .complete result) →
    .returned job.queue job.ticket.id ∈ history

structure Sound (s : State) : Prop where
  rows : RowsSound s.tables s.history
  ordered : Ordered s.history
  job : ∀ job, s.worker = .job job → JobSound s.tables s.history job

section Split

variable {history e : List Event} {q : Queue} {k : Ticket} {handler : String}

theorem split_append {x : Event} {before after : List Event}
    (h : history ++ e = before ++ x :: after) :
    (∃ after', history = before ++ x :: after') ∨ ∃ e', before = history ++ e' ∧
      e = e' ++ x :: after := by
  rcases List.append_eq_append_iff.mp h with ⟨e', hbefore, he⟩ | ⟨rest, hhistory, hrest⟩
  · exact .inr ⟨e', hbefore, he⟩
  · cases rest with
    | nil => exact .inr ⟨[], by simpa using hhistory.symm, by simpa using hrest.symm⟩
    | cons y rest =>
      obtain ⟨rfl, -⟩ := List.cons.inj hrest
      exact .inl ⟨rest, hhistory⟩

theorem Ordered.append (h : Ordered history) (he : ∀ q k handler, .invoked q k handler ∉ e) :
    Ordered (history ++ e) := by
  intro before q k handler after hsplit
  rcases split_append hsplit with ⟨after', hhistory⟩ | ⟨e', -, hlast⟩
  · exact h before q k handler after' hhistory
  · refine absurd ?_ (he q k handler)
    rw [hlast]
    exact List.mem_append_right _ List.mem_cons_self

theorem Ordered.invoked (h : Ordered history)
    (hhandler : Job.handler ⟨q, k, .handling⟩ = .ok handler)
    (hcreated : .created q k ∈ history) (hclaimed : .claimed q k.id .active ∈ history)
    (hauthorized : Authorized history q k)
    (hfirst : ∀ k' handler', .invoked q k' handler' ∈ history → k'.id ≠ k.id) :
    Ordered (history ++ [.invoked q k handler]) := by
  intro before q' k' handler' after hsplit
  rcases split_append hsplit with ⟨after', hhistory⟩ | ⟨e', rfl, hlast⟩
  · exact h before q' k' handler' after' hhistory
  · cases e' with
    | nil =>
      simp only [List.nil_append, List.cons.injEq, Event.invoked.injEq] at hlast
      obtain ⟨⟨rfl, rfl, rfl⟩, -⟩ := hlast
      rw [List.append_nil]
      exact ⟨hhandler, hcreated, hclaimed, hauthorized, hfirst⟩
    | cons y rest => simp at hlast

theorem Authorized.append (h : Authorized history q k) : Authorized (history ++ e) q k :=
  fun hrestricted => List.mem_append_left _ (h hrestricted)

end Split

section Rows

variable {s t : State} {e : List Event} {q : Queue} {id : String} {k : Ticket} {stage : Stage}
  {event : Event} {job : Job}

theorem Quiet.mem (h : Quiet s t e) (hmem : event ∈ s.history) : event ∈ t.history := by
  rw [h.history]
  exact List.mem_append_left _ hmem

theorem Quiet.mem_new (h : Quiet s t e) (hmem : event ∈ e) : event ∈ t.history := by
  rw [h.history]
  exact List.mem_append_right _ hmem

theorem Quiet.old (h : Quiet s t e) (hnote : ¬ event.IsNote) (hmem : event ∈ t.history) :
    event ∈ s.history := by
  rw [h.history, List.mem_append] at hmem
  exact hmem.resolve_right (fun hnew => hnote (h.notes event hnew))

theorem Shift.stays {v : Option (Ticket × Stage)} (h : Shift s e q id (some (k, stage)) v) :
    ∃ stage', v = some (k, stage') := by
  cases h with
  | same => exact ⟨_, rfl⟩
  | approved _ => exact ⟨_, rfl⟩
  | cancelled _ => exact ⟨_, rfl⟩
  | swept _ => exact ⟨_, rfl⟩
  | recovered _ => exact ⟨_, rfl⟩

theorem Quiet.stays (h : Quiet s t e) (hrow : s.tables.view q id = some (k, stage)) :
    ∃ stage', t.tables.view q id = some (k, stage') := by
  have hshift := h.rows q id
  rw [hrow] at hshift
  exact hshift.stays

theorem RowsSound.quiet (h : RowsSound s.tables s.history) (hq : Quiet s t e) :
    RowsSound t.tables t.history where
  created q k := by
    constructor
    · intro hmem
      rw [hq.history, List.mem_append] at hmem
      rcases hmem with hold | hnew
      · obtain ⟨stage, hrow⟩ := (h.created q k).mp hold
        exact hq.stays hrow
      · exact hq.made q k hnew
    · rintro ⟨stage, hrow⟩
      have hshift := hq.rows q k.id
      rw [hrow] at hshift
      cases hold : s.tables.view q k.id with
      | none =>
        rw [hold] at hshift
        cases hshift with
        | created _ hevent _ => exact hq.mem_new hevent
      | some row =>
        obtain ⟨k', stage'⟩ := row
        obtain ⟨stage'', heq⟩ := hq.stays hold
        rw [hrow, Option.some.injEq, Prod.mk.injEq] at heq
        refine hq.mem ((h.created q k).mpr ⟨stage', ?_⟩)
        rw [hold, heq.1]
  unclaimed q id k stage hrow hstage mode hmem := by
    have hold : .claimed q id mode ∈ s.history := hq.old (fun h => h) hmem
    have hshift := hq.rows q id
    rw [hrow] at hshift
    obtain ⟨k', stage', hview⟩ := h.claimed q id mode hold
    rw [hview] at hshift
    cases hshift with
    | same => exact h.unclaimed q id k stage hview hstage mode hold
    | approved _ => exact h.unclaimed q id k .waiting hview (.inl rfl) mode hold
    | cancelled _ => simp at hstage
    | swept _ => simp at hstage
    | recovered _ => simp at hstage
  ready q id k hrow := by
    have hshift := hq.rows q id
    rw [hrow] at hshift
    generalize hview : s.tables.view q id = old at hshift
    cases hshift with
    | same =>
      intro hrestricted
      exact hq.mem (h.ready q id k hview hrestricted)
    | created _ _ hstage =>
      intro hrestricted
      exact absurd hrestricted (by simpa using hstage)
    | approved hevent =>
      intro _
      rw [view_id hrow]
      exact hq.mem_new hevent
  succeeded q id k hrow := by
    have hshift := hq.rows q id
    rw [hrow] at hshift
    generalize hview : s.tables.view q id = old at hshift
    cases hshift with
    | same => exact hq.mem (h.succeeded q id k hview)
    | created _ _ hstage => simp at hstage
  claimed q id mode hmem := by
    obtain ⟨k, stage, hrow⟩ := h.claimed q id mode (hq.old (fun h => h) hmem)
    obtain ⟨stage', hnew⟩ := hq.stays hrow
    exact ⟨k, stage', hnew⟩
  invoked q k handler hmem := hq.mem (h.invoked q k handler (hq.old (fun h => h) hmem))
  returned q id hmem := hq.mem (h.returned q id (hq.old (fun h => h) hmem))

section Moves

variable {t u : Tables} {history : List Event} {old new : Stage} {k' : Ticket}

theorem Moved.row (h : Moved t u q k old new) {q' : Queue}
    (hrow : u.view q' id = some (k', stage)) :
    (q' = q ∧ id = k.id ∧ k' = k ∧ stage = new) ∨ t.view q' id = some (k', stage) := by
  by_cases hsame : (q', id) = (q, k.id)
  · obtain ⟨rfl, rfl⟩ := Prod.mk.inj hsame
    rw [h.after, Option.some.injEq, Prod.mk.injEq] at hrow
    exact .inl ⟨rfl, rfl, hrow.1.symm, hrow.2.symm⟩
  · right
    rw [← h.others q' id hsame]
    exact hrow

theorem Moved.stays (h : Moved t u q k old new) {q' : Queue}
    (hrow : t.view q' id = some (k', stage)) : ∃ stage', u.view q' id = some (k', stage') := by
  by_cases hsame : (q', id) = (q, k.id)
  · obtain ⟨rfl, rfl⟩ := Prod.mk.inj hsame
    rw [h.before, Option.some.injEq, Prod.mk.injEq] at hrow
    rw [← hrow.1]
    exact ⟨new, h.after⟩
  · rw [h.others q' id hsame]
    exact ⟨stage, hrow⟩

theorem Moved.created (h : Moved t u q k old new) {q' : Queue} :
    (∃ stage, t.view q' k'.id = some (k', stage)) ↔
      ∃ stage, u.view q' k'.id = some (k', stage) := by
  constructor
  · rintro ⟨stage, hrow⟩
    exact h.stays hrow
  · rintro ⟨stage, hrow⟩
    rcases h.row hrow with ⟨rfl, -, rfl, -⟩ | hold
    · exact ⟨old, h.before⟩
    · exact ⟨stage, hold⟩

theorem RowsSound.settle (h : RowsSound t history) (hmoved : Moved t u q k .running new)
    (hnew : new = .failed ∨ (new = .succeeded ∧ .returned q k.id ∈ history)) :
    RowsSound u history where
  created q' k' := (h.created q' k').trans hmoved.created
  unclaimed q' id k' stage hrow hstage := by
    rcases hmoved.row hrow with ⟨-, -, -, rfl⟩ | hold
    · rcases hnew with rfl | ⟨rfl, -⟩ <;> simp at hstage
    · exact h.unclaimed q' id k' stage hold hstage
  ready q' id k' hrow := by
    rcases hmoved.row hrow with ⟨-, -, -, rfl⟩ | hold
    · simp at hnew
    · exact h.ready q' id k' hold
  succeeded q' id k' hrow := by
    rcases hmoved.row hrow with ⟨rfl, rfl, -, rfl⟩ | hold
    · simpa using hnew
    · exact h.succeeded q' id k' hold
  claimed q' id mode hmem := by
    obtain ⟨k', stage, hrow⟩ := h.claimed q' id mode hmem
    obtain ⟨stage', hafter⟩ := hmoved.stays hrow
    exact ⟨k', stage', hafter⟩
  invoked := h.invoked
  returned := h.returned

theorem RowsSound.claim (h : RowsSound t history) (hmoved : Moved t u q k .ready .running) :
    RowsSound u (history ++ [.claimed q k.id .active]) where
  created q' k' := by
    rw [List.mem_append, ← hmoved.created, ← h.created]
    simp
  unclaimed q' id k' stage hrow hstage mode hmem := by
    rcases hmoved.row hrow with ⟨-, -, -, rfl⟩ | hold
    · simp at hstage
    · rw [List.mem_append, List.mem_singleton] at hmem
      rcases hmem with hmem | hmem
      · exact h.unclaimed q' id k' stage hold hstage mode hmem
      · cases hmem
        rw [hmoved.after, Option.some.injEq, Prod.mk.injEq] at hrow
        simp [← hrow.2] at hstage
  ready q' id k' hrow := by
    rcases hmoved.row hrow with ⟨-, -, -, hstage⟩ | hold
    · cases hstage
    · exact (h.ready q' id k' hold).append
  succeeded q' id k' hrow := by
    rcases hmoved.row hrow with ⟨-, -, -, hstage⟩ | hold
    · cases hstage
    · exact List.mem_append_left _ (h.succeeded q' id k' hold)
  claimed q' id mode hmem := by
    rw [List.mem_append, List.mem_singleton] at hmem
    rcases hmem with hmem | hmem
    · obtain ⟨k', stage, hrow⟩ := h.claimed q' id mode hmem
      obtain ⟨stage', hafter⟩ := hmoved.stays hrow
      exact ⟨k', stage', hafter⟩
    · cases hmem
      exact ⟨k, .running, hmoved.after⟩
  invoked q' k' handler hmem := by
    apply List.mem_append_left
    exact h.invoked q' k' handler (by simpa using hmem)
  returned q' id hmem := by
    apply List.mem_append_left
    exact h.returned q' id (by simpa using hmem)

theorem RowsSound.log (h : RowsSound t history) {event : Event}
    (hclaimed : .claimed q id .active ∈ history)
    (hevent : (∃ k handler, event = .invoked q k handler ∧ k.id = id) ∨ event = .returned q id) :
    RowsSound t (history ++ [event]) where
  created q' k' := by
    rw [← h.created]
    rcases hevent with ⟨k, handler, rfl, -⟩ | rfl <;> simp
  unclaimed q' id' k' stage hrow hstage mode hmem := by
    apply h.unclaimed q' id' k' stage hrow hstage mode
    rcases hevent with ⟨k, handler, rfl, -⟩ | rfl <;> simpa using hmem
  ready q' id' k' hrow := (h.ready q' id' k' hrow).append
  succeeded q' id' k' hrow := List.mem_append_left _ (h.succeeded q' id' k' hrow)
  claimed q' id' mode hmem := by
    apply h.claimed q' id' mode
    rcases hevent with ⟨k, handler, rfl, -⟩ | rfl <;> simpa using hmem
  invoked q' k' handler hmem := by
    apply List.mem_append_left
    rw [List.mem_append, List.mem_singleton] at hmem
    rcases hmem with hmem | rfl
    · exact h.invoked q' k' handler hmem
    · rcases hevent with ⟨k, handler', heq, rfl⟩ | heq
      · cases heq
        exact hclaimed
      · cases heq
  returned q' id' hmem := by
    apply List.mem_append_left
    rw [List.mem_append, List.mem_singleton] at hmem
    rcases hmem with hmem | rfl
    · exact h.returned q' id' hmem
    · rcases hevent with ⟨k, handler', heq, -⟩ | heq
      · cases heq
      · cases heq
        exact hclaimed

end Moves

theorem JobSound.quiet (h : JobSound s.tables s.history job) (hq : Quiet s t e)
    (hworker : s.worker = .job job) : JobSound t.tables t.history job where
  claimed := hq.mem h.claimed
  authorized hrestricted := hq.mem (h.authorized hrestricted)
  row := by
    obtain ⟨stage, hrow, hstage⟩ := h.row
    have hshift := hq.rows job.queue job.ticket.id
    rw [hrow] at hshift
    generalize hview : t.tables.view job.queue job.ticket.id = new at hshift
    cases hshift with
    | same => exact ⟨stage, rfl, hstage.imp_right (fun h => ⟨h.1, hq.mem h.2⟩)⟩
    | approved _ => simp at hstage
    | cancelled hcancelled =>
      rcases hstage with rfl | ⟨rfl, -⟩ <;> simp at hcancelled
    | swept hevent => exact ⟨.failed, rfl, .inr ⟨rfl, hq.mem_new hevent⟩⟩
    | recovered hidle => exact absurd hworker (hidle job)
  preparing hphase k handler hmem := h.preparing hphase k handler (hq.old (fun h => h) hmem)
  returned hphase := hq.mem (h.returned hphase)

theorem JobSound.phase {u : Tables} {history : List Event} {phase : Phase}
    (h : JobSound u history job) (hpreparing : phase.Preparing → job.phase.Preparing)
    (hret : (∃ result, phase = .recordCompleted result ∨ phase = .complete result) →
      .returned job.queue job.ticket.id ∈ history)
    : JobSound u history { job with phase := phase } where
  claimed := h.claimed
  authorized := h.authorized
  row := h.row
  preparing hphase := h.preparing (hpreparing hphase)
  returned := hret

theorem JobSound.log {u : Tables} {history : List Event} (h : JobSound u history job)
    (hphase : ¬ job.phase.Preparing) :
    JobSound u (history ++ [event]) job where
  claimed := List.mem_append_left _ h.claimed
  authorized := h.authorized.append
  row := by
    obtain ⟨stage, hrow, hstage⟩ := h.row
    exact ⟨stage, hrow, hstage.imp_right (fun h => ⟨h.1, List.mem_append_left _ h.2⟩)⟩
  preparing hpreparing := absurd hpreparing hphase
  returned hret := List.mem_append_left _ (h.returned hret)

theorem Sound.quiet (h : Sound s) (hq : Quiet s t e) : Sound t where
  rows := h.rows.quiet hq
  ordered := by
    rw [hq.history]
    apply h.ordered.append
    intro q k handler hmem
    exact hq.notes _ hmem
  job job hjob := (h.job job (hq.jobs job hjob)).quiet hq (hq.jobs job hjob)

theorem Sound.claim (h : Sound s) (hc : Claim s t q k) : Sound t where
  rows := by
    rw [hc.history]
    exact h.rows.claim hc.moved
  ordered := by
    rw [hc.history]
    apply h.ordered.append
    simp
  job job hjob := by
    obtain rfl := hc.worker job hjob
    have hmem : ∀ event ∈ s.history, event ∈ t.history := by
      intro event hevent
      rw [hc.history]
      exact List.mem_append_left _ hevent
    constructor
    · rw [hc.history]
      exact List.mem_append_right _ List.mem_cons_self
    · intro hrestricted
      exact hmem _ (h.rows.ready q k.id k hc.moved.before hrestricted)
    · exact ⟨.running, hc.moved.after, .inl rfl⟩
    · -- a row that was never claimed was never handled
      intro _ k' handler hinvoked hid
      have hold : .invoked q k' handler ∈ s.history := by
        rw [hc.history] at hinvoked
        simpa using hinvoked
      have hclaimed := h.rows.invoked q k' handler hold
      rw [hid] at hclaimed
      exact h.rows.unclaimed q k.id k .ready hc.moved.before (.inr rfl) .active hclaimed
    · rintro ⟨result, hphase | hphase⟩ <;> cases hphase

theorem Sound.setPhase {phase : Phase} (h : Sound s) (hworker : s.worker = .job job)
    (hpreparing : phase.Preparing → job.phase.Preparing)
    (hret : (∃ result, phase = .recordCompleted result ∨ phase = .complete result) →
      .returned job.queue job.ticket.id ∈ s.history)
    : Sound (s.setPhase job phase) where
  rows := h.rows
  ordered := h.ordered
  job job' hjob := by
    obtain rfl := Worker.job.inj hjob
    exact (h.job job hworker).phase hpreparing hret

theorem Sound.settle {tables : Tables} {new : Stage} (h : Sound s) {k : Ticket}
    (hmoved : Moved s.tables tables q k .running new)
    (hnew : new = .failed ∨ (new = .succeeded ∧ .returned q k.id ∈ s.history)) :
    Sound { s with tables := tables, worker := .idle } where
  rows := h.rows.settle hmoved hnew
  ordered := h.ordered
  job _ hjob := nomatch hjob

theorem Sound.start {s : State} (hrequests : s.tables.requests.rows = [])
    (hproposals : s.tables.proposals.rows = []) (hhistory : s.history = [])
    (hworker : s.worker = .idle) : Sound s := by
  have hview : ∀ q id, s.tables.view q id = none := by
    intro q id
    cases q with
    | request => rw [Tables.view, Keyed.find, hrequests]; rfl
    | proposal => rw [Tables.view, Keyed.find, hproposals]; rfl
  constructor
  · constructor <;> simp [hview, hhistory]
  · intro before q k handler after hsplit
    rw [hhistory] at hsplit
    simp at hsplit
  · intro job hjob
    rw [hworker] at hjob
    cases hjob

theorem Sound.job_step {w : World} (h : Sound s) (hworker : s.worker = .job job)
    (hstep : JobStep s job w t) : Sound t := by
  have hjob := h.job job hworker
  cases hstep with
  | prepared hold hnew =>
    apply h.setPhase hworker (fun _ => hold)
    rintro ⟨result, rfl | rfl⟩ <;> exact hnew.elim
  | refused _ | failing _ =>
    apply h.setPhase hworker
    · intro hphase
      exact hphase.elim
    · rintro ⟨result, hphase | hphase⟩ <;> cases hphase
  | invoked hold hhandler =>
    obtain ⟨stage, hrow, -⟩ := hjob.row
    constructor
    · exact h.rows.log hjob.claimed (.inl ⟨_, _, rfl, rfl⟩)
    · exact h.ordered.invoked hhandler ((h.rows.created _ _).mpr ⟨stage, hrow⟩) hjob.claimed
        hjob.authorized (hjob.preparing hold)
    · intro job' hjob'
      obtain rfl := Worker.job.inj hjob'
      have hhandling : JobSound s.tables s.history { job with phase := .handling } := by
        refine hjob.phase (fun hphase => hphase.elim) ?_
        rintro ⟨result, hphase | hphase⟩ <;> cases hphase
      exact hhandling.log (fun hphase => hphase)
  | returned hold =>
    constructor
    · exact h.rows.log hjob.claimed (.inr rfl)
    · exact h.ordered.append (by simp)
    · intro job' hjob'
      obtain rfl := Worker.job.inj hjob'
      have hhandled : JobSound s.tables (s.history ++ [.returned job.queue job.ticket.id]) job :=
        hjob.log (by rw [hold]; exact fun hphase => hphase)
      exact hhandled.phase (fun hphase => hphase.elim)
        (fun _ => List.mem_append_right _ List.mem_cons_self)
  | recorded hold =>
    apply h.setPhase hworker
    · intro hphase
      exact hphase.elim
    · intro _
      exact hjob.returned ⟨_, .inl hold⟩
  | completed hold hcomp =>
    obtain ⟨k, hid, hmoved, -⟩ := complete_ok hcomp
    apply h.settle hmoved
    right
    refine ⟨rfl, ?_⟩
    rw [hid]
    exact hjob.returned ⟨_, .inr hold⟩
  | abandoned _ => exact ⟨h.rows, h.ordered, fun _ hjob => nomatch hjob⟩
  | failed _ hcomp =>
    obtain ⟨k, -, hmoved, -⟩ := complete_ok hcomp
    exact h.settle hmoved (.inl rfl)

theorem Sound.step {action : Action} (h : Sound s) (hstep : step s action = some t) : Sound t := by
  rcases step_cases hstep with ⟨e, hquiet⟩ | ⟨q, k, hclaim⟩ | ⟨job, w, hworker, -, hjob⟩
  · exact h.quiet hquiet
  · exact h.claim hclaim
  · exact h.job_step hworker hjob

end Rows

section Truth

variable {s t : State} {e : List Event} {q : Queue} {id : String} {k : Ticket} {job : Job}
  {tables : Tables}

/-- The worker is about to record that the handler of the row returned. -/
def State.Recording (s : State) (q : Queue) (id : String) : Prop :=
  ∃ job result, s.worker = .job job ∧ job.queue = q ∧ job.ticket.id = id ∧
    (job.phase = .recordCompleted result ∨ job.phase = .complete result)

/-- The row whose handler returned is not said to have failed. -/
structure Truthful (s : State) : Prop where
  running : ∀ q id k, s.tables.view q id = some (k, .running) → .returned q id ∈ s.history →
    s.Recording q id ∨ .crashed q id ∈ s.history
  failed : ∀ q id k, s.tables.view q id = some (k, .failed) → .returned q id ∈ s.history →
    .swept q id ∈ s.history ∨ .crashed q id ∈ s.history

theorem Truthful.quiet (h : Truthful s) (hsound : Sound s) (hq : Quiet s t e) : Truthful t where
  running q id k hrow hret := by
    have hold : .returned q id ∈ s.history := hq.old (fun h => h) hret
    have hshift := hq.rows q id
    rw [hrow] at hshift
    generalize hview : s.tables.view q id = old at hshift
    cases hshift with
    | created _ _ hstage => simp at hstage
    | same =>
      rcases h.running q id k hview hold with ⟨job, result, hworker, rfl, rfl, hphase⟩ | hcrashed
      · rcases hq.crash job hworker with hsame | hcrashed
        · exact .inl ⟨job, result, hsame, rfl, rfl, hphase⟩
        · exact .inr (hq.mem_new hcrashed)
      · exact .inr (hq.mem hcrashed)
  failed q id k hrow hret := by
    have hold : .returned q id ∈ s.history := hq.old (fun h => h) hret
    have hshift := hq.rows q id
    rw [hrow] at hshift
    generalize hview : s.tables.view q id = old at hshift
    cases hshift with
    | same => exact (h.failed q id k hview hold).imp hq.mem hq.mem
    | created _ _ hstage => simp at hstage
    | cancelled hstage =>
      -- a row that may still be cancelled was never claimed, hence never handled
      exact absurd (hsound.rows.returned q id hold)
        (hsound.rows.unclaimed q id k _ hview hstage .active)
    | swept hevent => exact .inl (hq.mem_new hevent)
    | recovered hidle =>
      rcases h.running q id k hview hold with ⟨job, _, hworker, -⟩ | hcrashed
      · exact absurd hworker (hidle job)
      · exact .inr (hq.mem hcrashed)

theorem Truthful.claim (h : Truthful s) (hsound : Sound s) (hc : Claim s t q k) : Truthful t := by
  have hold : ∀ q' id, .returned q' id ∈ t.history → .returned q' id ∈ s.history := by
    intro q' id hmem
    rw [hc.history] at hmem
    simpa using hmem
  have hmem : ∀ event ∈ s.history, event ∈ t.history := by
    intro event hevent
    rw [hc.history]
    exact List.mem_append_left _ hevent
  constructor
  · intro q' id k' hrow hret
    have hret := hold q' id hret
    rcases hc.moved.row hrow with ⟨rfl, rfl, -, -⟩ | hview
    · exact absurd (hsound.rows.returned _ _ hret)
        (hsound.rows.unclaimed _ _ k .ready hc.moved.before (.inr rfl) .active)
    · rcases h.running q' id k' hview hret with ⟨job, _, hworker, -⟩ | hcrashed
      · exact absurd hworker (hc.idle job)
      · exact .inr (hmem _ hcrashed)
  · intro q' id k' hrow hret
    rcases hc.moved.row hrow with ⟨-, -, -, hstage⟩ | hview
    · cases hstage
    · exact (h.failed q' id k' hview (hold q' id hret)).imp (hmem _) (hmem _)

theorem Truthful.proceed {phase : Phase} (h : Truthful s) (hworker : s.worker = .job job)
    (htabs : t.tables = s.tables) (hnew : t.worker = .job { job with phase := phase })
    (hhistory : t.history = s.history ++ e) (hevs : ∀ q id, .returned q id ∉ e)
    (hrecording : (∃ result, job.phase = .recordCompleted result ∨ job.phase = .complete result) →
      (∃ k, s.tables.view job.queue job.ticket.id = some (k, .running)) →
        ∃ result, phase = .recordCompleted result ∨ phase = .complete result) :
    Truthful t := by
  have hold : ∀ q id, .returned q id ∈ t.history → .returned q id ∈ s.history := by
    intro q id hmem
    rw [hhistory] at hmem
    exact (List.mem_append.mp hmem).resolve_right (hevs q id)
  have hmem : ∀ event ∈ s.history, event ∈ t.history := by
    intro event hevent
    rw [hhistory]
    exact List.mem_append_left _ hevent
  constructor
  · intro q id k hrow hret
    rw [htabs] at hrow
    rcases h.running q id k hrow (hold q id hret) with
      ⟨other, result, hother, rfl, rfl, hphase⟩ | hcrashed
    · obtain rfl := Worker.job.inj (hworker.symm.trans hother)
      obtain ⟨result', hphase'⟩ := hrecording ⟨result, hphase⟩ ⟨k, hrow⟩
      exact .inl ⟨_, result', hnew, rfl, rfl, hphase'⟩
    · exact .inr (hmem _ hcrashed)
  · intro q id k hrow hret
    rw [htabs] at hrow
    exact (h.failed q id k hrow (hold q id hret)).imp (hmem _) (hmem _)

theorem Truthful.setPhase {phase : Phase} (h : Truthful s) (hworker : s.worker = .job job)
    (hrecording : (∃ result, job.phase = .recordCompleted result ∨ job.phase = .complete result) →
      (∃ k, s.tables.view job.queue job.ticket.id = some (k, .running)) →
        ∃ result, phase = .recordCompleted result ∨ phase = .complete result) :
    Truthful (s.setPhase job phase) :=
  h.proceed (t := s.setPhase job phase) hworker rfl rfl (List.append_nil _).symm
    (by simp) hrecording

theorem Truthful.release (h : Truthful s)
    (hrunning : ∀ q id k, tables.view q id = some (k, .running) →
      s.tables.view q id = some (k, .running) ∧ ¬ s.Recording q id)
    (hfailed : ∀ q id k, tables.view q id = some (k, .failed) →
      s.tables.view q id = some (k, .failed) ∨
        (s.tables.view q id = some (k, .running) ∧ ¬ s.Recording q id)) :
    Truthful { s with tables := tables, worker := .idle } where
  running q id k hrow hret := by
    obtain ⟨hview, hidle⟩ := hrunning q id k hrow
    exact .inr ((h.running q id k hview hret).resolve_left hidle)
  failed q id k hrow hret := by
    rcases hfailed q id k hrow with hview | ⟨hview, hidle⟩
    · exact h.failed q id k hview hret
    · exact .inr ((h.running q id k hview hret).resolve_left hidle)

theorem Truthful.fail (h : Truthful s) (hmoved : Moved s.tables tables q k .running .failed)
    (hrecording : ∀ q id, ¬ s.Recording q id) :
    Truthful { s with tables := tables, worker := .idle } := by
  apply h.release
  · intro q' id k' hrow
    rcases hmoved.row hrow with ⟨-, -, -, hstage⟩ | hview
    · cases hstage
    · exact ⟨hview, hrecording q' id⟩
  · intro q' id k' hrow
    rcases hmoved.row hrow with ⟨rfl, rfl, rfl, -⟩ | hview
    · exact .inr ⟨hmoved.before, hrecording _ _⟩
    · exact .inl hview

theorem Truthful.succeed (h : Truthful s) (hworker : s.worker = .job job)
    (hid : k.id = job.ticket.id) (hmoved : Moved s.tables tables job.queue k .running .succeeded) :
    Truthful { s with tables := tables, worker := .idle } := by
  apply h.release
  · intro q' id k' hrow
    rcases hmoved.row hrow with ⟨-, -, -, hstage⟩ | hview
    · cases hstage
    · refine ⟨hview, ?_⟩
      rintro ⟨other, result, hother, rfl, rfl, -⟩
      obtain rfl := Worker.job.inj (hworker.symm.trans hother)
      rw [← hid, hmoved.after] at hrow
      simp at hrow
  · intro q' id k' hrow
    rcases hmoved.row hrow with ⟨-, -, -, hstage⟩ | hview
    · cases hstage
    · exact .inl hview

theorem Truthful.job_step {w : World} (h : Truthful s) (hsound : Sound s)
    (hworker : s.worker = .job job) (hrecd : Recorded job w) (hstep : JobStep s job w t) :
    Truthful t := by
  have hnone : (∀ result, job.phase ≠ .recordCompleted result) →
    (∀ result, job.phase ≠ .complete result) →
      ¬ ∃ result, job.phase = .recordCompleted result ∨ job.phase = .complete result := by
    rintro hrecord hcomp ⟨result, hphase | hphase⟩
    · exact hrecord result hphase
    · exact hcomp result hphase
  have hrecording : (¬ ∃ result, job.phase = .recordCompleted result ∨
    job.phase = .complete result) →
      ∀ q id, ¬ s.Recording q id := by
    rintro hno q id ⟨other, result, hother, -, -, hphase⟩
    obtain rfl := Worker.job.inj (hworker.symm.trans hother)
    exact hno ⟨result, hphase⟩
  cases hstep with
  | prepared hold _ =>
    apply h.setPhase hworker
    rintro ⟨result, hphase | hphase⟩ <;> exact absurd hold (by simp [hphase, Phase.Preparing])
  | invoked hold _ =>
    refine h.proceed (t := (s.setPhase job .handling).log _) hworker rfl rfl rfl (by simp) ?_
    rintro ⟨result, hphase | hphase⟩ <;> exact absurd hold (by simp [hphase, Phase.Preparing])
  | refused hrefd =>
    apply h.setPhase hworker
    rintro ⟨result, hphase | hphase⟩ ⟨k, hrow⟩
    · exact absurd hphase ((hrefd hrecd).1 result)
    · exact absurd hrow ((hrefd hrecd).2 result hphase k)
  | returned hold =>
    constructor
    · intro q id k hrow hret
      rcases List.mem_append.mp hret with hret | hret
      · refine .inr (List.mem_append_left _ ((h.running q id k hrow hret).resolve_left ?_))
        exact hrecording (hnone (by simp [hold]) (by simp [hold])) q id
      · cases List.mem_singleton.mp hret
        exact .inl ⟨_, _, rfl, rfl, rfl, .inl rfl⟩
    · intro q id k hrow hret
      rcases List.mem_append.mp hret with hret | hret
      · exact (h.failed q id k hrow hret).imp (List.mem_append_left _) (List.mem_append_left _)
      · -- the row that the job holds fails under it only by the deletion of its agent
        cases List.mem_singleton.mp hret
        obtain ⟨stage, hview, hstage⟩ := (hsound.job job hworker).row
        have heq : some (k, Stage.failed) = some (job.ticket, stage) := hrow.symm.trans hview
        simp only [Option.some.injEq, Prod.mk.injEq] at heq
        rcases hstage with hstage | ⟨-, hswept⟩
        · rw [← heq.2] at hstage
          cases hstage
        · exact .inl (List.mem_append_left _ hswept)
  | recorded hold =>
    apply h.setPhase hworker
    intro _ _
    exact ⟨_, .inr rfl⟩
  | completed _ hcomp =>
    obtain ⟨k, hid, hmoved, -⟩ := complete_ok hcomp
    exact h.succeed hworker hid hmoved
  | failing hold =>
    apply h.setPhase hworker
    rintro ⟨result, hphase | hphase⟩ <;> simp [hold] at hphase
  | abandoned hold =>
    have hno := hrecording (hnone (by simp [hold]) (by simp [hold]))
    exact h.release (fun q id k hrow => ⟨hrow, hno q id⟩) (fun q id k hrow => .inl hrow)
  | failed hold hcomp =>
    obtain ⟨k, -, hmoved, -⟩ := complete_ok hcomp
    exact h.fail hmoved (hrecording (hnone (by simp [hold]) (by simp [hold])))

end Truth

structure Started (s : State) : Prop where
  requests : s.tables.requests.rows = []
  proposals : s.tables.proposals.rows = []
  history : s.history = []
  worker : s.worker = .idle

/-- Whenever a handler returned in the run, what follows its return succeeds. -/
def AllRecorded (s : State) (actions : List Action) : Prop :=
  ∀ before w after m job, actions = before ++ .work w :: after →
    Trace.run step s before = some m → m.worker = .job job → Recorded job w

section Computed

variable {s : State} {job : Job} {w : World} {q : Queue} {result : Option String}

instance : Decidable (Storable q result) :=
  match result with
  | none => isFalse (by rintro ⟨text, h, -⟩; cases h)
  | some text =>
    if h : byteLength text.toList ≤ (match q with
        | .request => maximumJsonBytes
        | .proposal => maximumWorkflowJsonBytes) then
      isTrue ⟨text, rfl, h⟩
    else isFalse (by rintro ⟨_, heq, hsize⟩; cases heq; exact h hsize)

instance : Decidable (Recorded job w) :=
  match hphase : job.phase with
  | .recordCompleted _ => decidable_of_iff (w.ok = true) (by simp [Recorded, hphase])
  | .complete result =>
    decidable_of_iff (w.ok = true ∧ Storable job.queue result) (by simp [Recorded, hphase])
  | .authorize | .agents | .recordAuthorized | .assertActive | .preflight | .handling
  | .recordFailed _ | .completeFailed _ => isTrue (by simp [Recorded, hphase])

/-- `AllRecorded`, along the run. -/
def recordsAll : State → List Action → Bool
  | _, [] => true
  | s, action :: actions =>
    (match action, s.worker with
      | .work w, .job job => decide (Recorded job w)
      | _, _ => true) && (step s action).all (fun t => recordsAll t actions)

theorem allRecorded_of_recordsAll {actions : List Action} (h : recordsAll s actions = true) :
    AllRecorded s actions := by
  induction actions generalizing s with
  | nil =>
    intro before w after m job hsplit
    simp at hsplit
  | cons action actions ih =>
    unfold recordsAll at h
    rw [Bool.and_eq_true] at h
    intro before w after m job hsplit hrun hworker
    cases before with
    | nil =>
      obtain ⟨rfl, -⟩ := List.cons.inj hsplit
      obtain rfl := Option.some.inj hrun
      have hnow := h.1
      rw [hworker] at hnow
      exact of_decide_eq_true hnow
    | cons first before =>
      obtain ⟨rfl, rfl⟩ := List.cons.inj hsplit
      obtain ⟨n, hn, hrest⟩ := Trace.run_cons.mp hrun
      rw [hn] at h
      exact ih h.2 before w after m job rfl hrest hworker

end Computed

theorem sound_run (hstart : Started s) (h : Trace.run step s actions = some t) : Sound t := by
  refine Trace.run_preserves (P := Sound) ?_ ?_ h
  · intro m action n _ hm hstep
    exact hm.step hstep
  · exact .start hstart.requests hstart.proposals hstart.history hstart.worker

theorem settled_step {action : Action} (h : step s action = some t) :
    Settled s.tables t.tables := by
  rcases step_cases h with ⟨e, hquiet⟩ | ⟨q, k, hclaim⟩ | ⟨job, w, -, -, hjob⟩
  · exact hquiet.settled
  · exact hclaim.settled
  · cases hjob with
    | completed _ hcomp => exact (complete_ok hcomp).choose_spec.2.2
    | failed _ hcomp => exact (complete_ok hcomp).choose_spec.2.2
    | _ => exact .refl _

theorem settled_run (h : Trace.run step s actions = some t) : Settled s.tables t.tables := by
  refine Trace.run_preserves (P := fun m => Settled s.tables m.tables) ?_ (.refl _) h
  intro m action n _ hm hstep
  exact hm.trans (settled_step hstep)

theorem truthful_run (hstart : Started s) (hrecd : AllRecorded s actions)
    (h : Trace.run step s actions = some t) : Truthful t := by
  have hrun : Trace.run step s actions = some t ∧
    (∀ rest, actions = actions ++ rest → Truthful t) := by
    let Inv : List Action → State → Prop := fun before m =>
      Trace.run step s before = some m ∧ ∀ rest, actions = before ++ rest → Truthful m
    refine (Trace.run_invariant ?_ ?_ h : Inv actions t)
    · refine ⟨rfl, fun _ _ => ⟨?_, ?_⟩⟩
      · simp [hstart.history]
      · simp [hstart.history]
    · rintro before m action n ⟨hm, htruthful⟩ hstep
      refine ⟨Trace.run_append.mpr ⟨m, hm, Trace.run_singleton.mpr hstep⟩, ?_⟩
      intro rest hsplit
      rw [List.append_assoc] at hsplit
      have hbefore := htruthful _ hsplit
      have hsound := sound_run hstart hm
      rcases step_cases hstep with ⟨e, hquiet⟩ | ⟨q, k, hclaim⟩ | ⟨job, w, hworker, rfl, hjob⟩
      · exact hbefore.quiet hsound hquiet
      · exact hbefore.claim hsound hclaim
      · exact hbefore.job_step hsound hworker (hrecd before w rest m job hsplit hm hworker) hjob
  exact hrun.2 [] (List.append_nil _).symm

/-- The change control over whole runs. Its last part asks that what follows the return of a
handler succeeds. -/
theorem mcp_change_control {s t : State} {actions : List Action} (hstart : Started s)
    (h : Trace.run step s actions = some t) :
    Ordered t.history ∧
    (∀ q k k', .created q k ∈ t.history → .created q k' ∈ t.history → k.id = k'.id → k = k') ∧
    (∀ before after m, actions = before ++ after → Trace.run step s before = some m →
      Settled m.tables t.tables) ∧
    (∀ q id k, t.tables.view q id = some (k, .succeeded) → .returned q id ∈ t.history) ∧
    (AllRecorded s actions → ∀ q id k, t.tables.view q id = some (k, .failed) →
      .returned q id ∈ t.history → .swept q id ∈ t.history ∨ .crashed q id ∈ t.history) := by
  have hsound := sound_run hstart h
  refine ⟨hsound.ordered, ?_, ?_, hsound.rows.succeeded, ?_⟩
  · intro q k k' hk hk' hid
    obtain ⟨stage, hrow⟩ := (hsound.rows.created q k).mp hk
    obtain ⟨stage', hrow'⟩ := (hsound.rows.created q k').mp hk'
    rw [hid, hrow', Option.some.injEq, Prod.mk.injEq] at hrow
    exact hrow.1.symm
  · rintro before after m rfl hm
    obtain ⟨m', hm', hafter⟩ := Trace.run_append.mp h
    obtain rfl := Option.some.inj (hm.symm.trans hm')
    exact settled_run hafter
  · intro hrecd
    exact (truthful_run hstart hrecd h).failed

section Runs

def idleState : State where
  tables := ⟨.active, ⟨[⟨"agent", ["trading.reconcile"], true, 0, none⟩], by simp⟩, .empty, .empty⟩
  worker := .idle
  recovered := false
  history := []

theorem idleState_started : Started idleState := ⟨rfl, rfl, rfl, rfl⟩

def calm : World := ⟨true, true, "", 1, [], .ok (some "null")⟩

/-- The agent asks, and the worker goes on until the handler was called. -/
def reconcile : List Action :=
  .enqueue "request" "agent" "trading.reconcile" (some "\x7b\x7d") 0 :: List.replicate 8
    (.work calm)

/-- The agent is deleted before its handler returns. -/
theorem mcp_change_control_deleted : ∃ t,
    Trace.run step idleState (reconcile ++ .deleteAgent "agent" 2 :: List.replicate 5
      (.work calm)) = some t ∧
      Ordered t.history ∧
        ∃ k, t.tables.view .request "request" = some (k, .failed) ∧
          .returned .request "request" ∈ t.history ∧
          (.swept .request "request" ∈ t.history ∨ .crashed .request "request" ∈ t.history) := by
  have hrecd : AllRecorded idleState
      (reconcile ++ .deleteAgent "agent" 2 :: List.replicate 5 (.work calm)) :=
    allRecorded_of_recordsAll (by decide +kernel)
  have hend : (Trace.run step idleState
      (reconcile ++ .deleteAgent "agent" 2 :: List.replicate 5 (.work calm))).map (fun t =>
        (t.tables.view .request "request", decide (.returned .request "request" ∈ t.history))) =
      some (some (⟨"request", "agent", "trading.reconcile", "\x7b\x7d"⟩, .failed), true) := by
    decide +kernel
  obtain ⟨t, ht, heq⟩ := Option.map_eq_some_iff.mp hend
  obtain ⟨hrow, hret⟩ := Prod.mk.inj heq
  obtain ⟨hordered, -, -, -, htruthful⟩ := mcp_change_control idleState_started ht
  exact ⟨t, ht, hordered, _, hrow, of_decide_eq_true hret,
    htruthful hrecd _ _ _ hrow (of_decide_eq_true hret)⟩

/-- The handler returned, its audit record is refused, and its row failed. -/
theorem returned_row_failed : ¬ ∀ (s t : State) (actions : List Action), Started s →
    Trace.run step s actions = some t → ∀ q id k, t.tables.view q id = some (k, .failed) →
      .returned q id ∈ t.history → .swept q id ∈ t.history ∨ .crashed q id ∈ t.history := by
  intro h
  have hend : (Trace.run step idleState (reconcile ++ [.work calm,
      .work { calm with ok := false, message := "database is locked" }, .work calm,
      .work calm])).map
        (fun t => (t.tables.view .request "request", decide
          (.returned .request "request" ∈ t.history),
          decide (.swept .request "request" ∈ t.history ∨
            .crashed .request "request" ∈ t.history))) =
      some (some (⟨"request", "agent", "trading.reconcile", "\x7b\x7d"⟩, .failed), true,
        false) := by
    decide +kernel
  obtain ⟨t, ht, heq⟩ := Option.map_eq_some_iff.mp hend
  simp only [Prod.mk.injEq, decide_eq_true_eq, decide_eq_false_iff_not] at heq
  exact heq.2.2 (h _ t _ idleState_started ht _ _ _ heq.1 heq.2.1)

end Runs

end TsxCore.Mcp
