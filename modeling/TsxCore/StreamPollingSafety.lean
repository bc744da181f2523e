import TsxCore.StreamPolling

/-!
# No event is silently skipped

An event is skipped once a persisted batch has passed it over: a batch of a later stream,
or one of its own stream beyond its number, with no gap persisted since. In every run that
happens exactly when the first batch persisted of a stream, without a gap, passes over
something that is still to be read.
-/

namespace TsxCore.StreamPolling

open Outcome ExecutorStreams ExchangeStreams

variable {N : Type}

section Skipped

variable {c : Setting N} {start s t : State N} {action : Action N} {actions : List (Action N)}
  {x : Ingested N} {i : ℕ}

/-- The event was persisted, or a gap was since, or no persisted batch has passed it over. -/
def Accounted (s : State N) (i : ℕ) (x : Ingested N) : Prop :=
  x ∈ s.persisted ∨ i < s.gapAt ∨ s.source < x.stream ∨
    (s.source = x.stream ∧ s.cursor < x.event.cursor)

/-- No order, execution or position event was silently skipped. -/
def NoneSkipped (s : State N) : Prop :=
  ∀ (i : ℕ) x, s.ingested[i]? = some x → isStateEvent x.event = true → Accounted s i x

/-- Where the answer is the first one persisted of its stream and has no gap, nothing that is
still to be read was ingested by an earlier stream, or by this one up to the polled cursor. -/
def PassesRead (s : State N) (cursor : ℕ) (a : Answer N) : Prop :=
  a.batch.gap = false → s.source < a.stream → ∀ (i : ℕ) x, s.ingested[i]? = some x →
    isStateEvent x.event = true → x ∉ s.persisted → s.gapAt ≤ i →
      a.stream < x.stream ∨ (x.stream = a.stream ∧ cursor < x.event.cursor)

/-- Every persisted batch of the run passes only what was read. -/
def AllRead (c : Setting N) (start : State N) (actions : List (Action N)) : Prop :=
  ∀ before i commit after m p a, actions = before ++ .persist i commit :: after →
    Trace.run (step c) start before = some m → m.polling = some p → p.answers[i]? = some a →
      Succeeds c m a commit → PassesRead m p.cursor a

def NeverSkipped (c : Setting N) (start : State N) (actions : List (Action N)) : Prop :=
  ∀ before after m, actions = before ++ after → Trace.run (step c) start before = some m →
    NoneSkipped m

theorem Accounted.same (h : Accounted s i x) (hsame : Same s t) : Accounted t i x := by
  unfold Accounted
  rwa [hsame.persisted, hsame.gapAt, hsame.source, hsame.cursor]

theorem NoneSkipped.same (h : NoneSkipped s) (hsame : Same s t) : NoneSkipped t := by
  intro i x hx hstate
  rw [hsame.ingested] at hx
  exact (h i x hx hstate).same hsame

theorem NoneSkipped.ingestRecord (h : NoneSkipped s) (hs : Invariant s) (channel : String)
    (receivedAt : ℤ) (record : List (String × Json N)) :
    NoneSkipped (s.ingestRecord c channel receivedAt record) := by
  cases hstream : s.stream with
  | none =>
    rw [State.ingestRecord, hstream]
    exact h
  | some stream =>
    rw [ingestRecord_of_some hstream]
    intro i x hx hstate
    by_cases hold : i < s.ingested.length
    · rw [List.getElem?_append_left hold] at hx
      exact h i x hx hstate
    · rw [List.getElem?_append_right (not_lt.mp hold)] at hx
      rw [List.mem_singleton.mp (List.mem_of_getElem? hx)]
      rcases hs.source.lt_or_eq with hlt | heq
      · exact .inr (.inr (.inl hlt))
      · refine .inr (.inr (.inr ⟨heq, ?_⟩))
        exact Nat.lt_succ_of_le (hs.cursor heq stream hstream)

theorem NoneSkipped.receive (h : NoneSkipped s) (channels : Channels) (k : ℕ)
    (symbols : List String) :
    NoneSkipped (s.receive channels k symbols).1 := by
  intro i x hx hstate
  exact h i x hx hstate

theorem Accounted.persists {a : Answer N} {k : ℕ} (h : Accounted s i x) (hx : x ∈ s.ingested)
    (hk : k = s.cursor) (ha : SoundAnswer s k a) (ht : Persists s a t) (hgap : a.batch.gap = false)
    (hread : s.source < a.stream → x ∉ s.persisted → s.gapAt ≤ i →
      a.stream < x.stream ∨ (x.stream = a.stream ∧ k < x.event.cursor)) : Accounted t i x := by
  have hpersd : x ∈ s.persisted → Accounted t i x := by
    intro hmem
    left
    rw [ht.persisted]
    exact List.mem_append_left _ hmem
  have hafter : i < s.gapAt → Accounted t i x := by
    intro hlt
    right; left
    rw [ht.gapAt, hgap]
    exact hlt
  have hlater : a.stream < x.stream → Accounted t i x := by
    intro hlt
    right; right; left
    rwa [ht.source]
  have hhere : x.stream = a.stream → k < x.event.cursor → Accounted t i x := by
    intro hfrom hlt
    by_cases hle : x.event.cursor ≤ a.batch.nextCursor
    · left
      rw [ht.persisted]
      apply List.mem_append_right
      apply List.mem_map.mpr
      exact ⟨x.event, ha.complete hgap x hx hfrom hlt hle, by rw [← hfrom]⟩
    · right; right; right
      rw [ht.source, ht.cursor]
      exact ⟨hfrom.symm, not_le.mp hle⟩
  by_cases hmem : x ∈ s.persisted
  · exact hpersd hmem
  by_cases hbefore : i < s.gapAt
  · exact hafter hbefore
  rcases ha.source.lt_or_eq with hlt | heq
  · rcases hread hlt hmem (not_lt.mp hbefore) with hlt | ⟨hfrom, hlt⟩
    · exact hlater hlt
    · exact hhere hfrom hlt
  · rcases h with hmem' | hbefore' | hlt | ⟨hfrom, hlt⟩
    · exact absurd hmem' hmem
    · exact absurd hbefore' hbefore
    · exact hlater (heq ▸ hlt)
    · exact hhere (hfrom.symm.trans heq) (hk ▸ hlt)

theorem NoneSkipped.step (h : NoneSkipped s) (hs : Invariant s) (hstep : step c s action = some t)
    (hread : ∀ i commit p a, action = .persist i commit → s.polling = some p →
      p.answers[i]? = some a →
      Succeeds c s a commit → PassesRead s p.cursor a) : NoneSkipped t := by
  cases action
  all_goals
    simp only [StreamPolling.step, Option.bind_eq_bind, Option.bind_eq_some_iff,
      Option.pure_def, Option.some.injEq] at hstep
  case ingest channel receivedAt value =>
    obtain ⟨-, -, rfl⟩ := hstep
    exact (ingest_preserves (P := fun m => Invariant m ∧ NoneSkipped m)
      (fun m record hm => ⟨hm.1.ingestRecord channel receivedAt record,
        hm.2.ingestRecord hm.1 channel receivedAt record⟩) ⟨hs, h⟩ value).2
  case begin symbols =>
    obtain ⟨-, -, rfl⟩ := hstep
    exact h.same ⟨rfl, rfl, rfl, rfl, rfl, rfl, rfl⟩
  case attempt channels =>
    obtain ⟨p, hp, rfl⟩ := hstep
    exact (h.receive channels p.cursor p.symbols).same ⟨rfl, rfl, rfl, rfl, rfl, rfl, rfl⟩
  case abandoned channels k symbols =>
    obtain rfl := hstep
    exact h.receive channels k symbols
  case persist i commit =>
    obtain ⟨p, hp, a, ha, rfl⟩ := hstep
    rcases persist_cases s a commit with ⟨-, hsame, -⟩ | ⟨hsucceeds, hpersists⟩
    · exact h.same hsame
    · intro j x hx hstate
      rw [hpersists.ingested] at hx
      cases hgap : a.batch.gap with
      | true =>
        right; left
        rw [hpersists.gapAt, hgap]
        exact (List.getElem?_eq_some_iff.mp hx).1
      | false =>
        have hsound := hs.answers p hp a (List.mem_of_getElem? ha)
        apply (h j x hx hstate).persists (List.mem_of_getElem? hx) (hs.polling p hp) hsound
          hpersists hgap
        intro hlt hmem hbefore
        exact hread i commit p a rfl hp ha hsucceeds hgap hlt j x hx hstate hmem hbefore
  case fail message now =>
    obtain ⟨-, -, rfl⟩ := hstep
    exact h.same ⟨rfl, rfl, rfl, rfl, rfl, rfl, rfl⟩
  case reconcile =>
    obtain rfl := hstep
    exact h.same ⟨rfl, rfl, rfl, rfl, rfl, rfl, rfl⟩
  case restartExecutor =>
    obtain rfl := hstep
    intro i x hx hstate
    exact h i x hx hstate
  case restart =>
    obtain rfl := hstep
    intro i x hx hstate
    rcases h i x hx hstate with hmem | hbefore | hlt | ⟨hfrom, hlt⟩
    · exact .inl hmem
    · exact .inr (.inl hbefore)
    · exact .inr (.inr (.inl hlt))
    · exact .inr (.inr (.inr ⟨hfrom, (Nat.zero_le _).trans_lt hlt⟩))

theorem allRead_concat : AllRead c start (actions ++ [action]) ↔ AllRead c start actions ∧
    ∀ i commit m p a, action = .persist i commit →
      Trace.run (StreamPolling.step c) start actions = some m →
      m.polling = some p → p.answers[i]? = some a → Succeeds c m a commit →
        PassesRead m p.cursor a := by
  constructor
  · intro h
    constructor
    · intro before i commit rest m p a hsplit
      exact h before i commit (rest ++ [action]) m p a (by rw [hsplit, List.append_assoc]; rfl)
    · rintro i commit m p a rfl
      exact h actions i commit [] m p a rfl
  · intro h before i commit rest m p a hsplit hm
    rcases rest.eq_nil_or_concat with rfl | ⟨rest, last, rfl⟩
    · obtain ⟨rfl, hlast⟩ := List.append_inj' hsplit rfl
      exact h.2 i commit m p a (List.singleton_inj.mp hlast) hm
    · rw [List.concat_eq_append, ← List.cons_append, ← List.append_assoc] at hsplit
      obtain ⟨hinit, -⟩ := List.append_inj' hsplit rfl
      exact h.1 before i commit rest m p a hinit hm

theorem Initial.noneSkipped (h : Initial s) : NoneSkipped s := by
  intro i x hx
  rw [h.ingested] at hx
  cases hx

theorem run_noneSkipped (hstart : Initial start) (hread : AllRead c start actions)
    (hrun : Trace.run (StreamPolling.step c) start actions = some s) : NoneSkipped s := by
  induction actions using List.reverseRecOn generalizing s with
  | nil =>
    rw [Trace.run_nil] at hrun
    exact hrun ▸ hstart.noneSkipped
  | append_singleton before action ih =>
    obtain ⟨m, hm, hlast⟩ := Trace.run_append.mp hrun
    obtain ⟨hbefore, hpers⟩ := allRead_concat.mp hread
    rw [Trace.run_singleton] at hlast
    apply (ih hbefore hm).step (run_invariant hstart hm) hlast
    intro i commit p a haction hp ha
    exact hpers i commit m p a haction hm hp ha

theorem AllRead.of_append {after : List (Action N)} (h : AllRead c start (actions ++ after)) :
    AllRead c start actions := by
  intro before i commit rest m p a hsplit
  exact h before i commit (rest ++ after) m p a (by rw [hsplit, List.append_assoc]; rfl)

theorem passesRead_of_noneSkipped {a : Answer N} {k : ℕ} (ha : SoundAnswer s k a)
    (ht : Persists s a t)
    (h : NoneSkipped t) : PassesRead s k a := by
  intro hgap hlt i x hx hstate hmem hbefore
  rw [← ht.ingested] at hx
  rcases h i x hx hstate with hmem' | hbefore' | hlt | ⟨hfrom, hlt⟩
  · rw [ht.persisted, List.mem_append, List.mem_map] at hmem'
    rcases hmem' with hmem' | ⟨e, he, rfl⟩
    · exact absurd hmem' hmem
    · exact .inr ⟨rfl, ha.above e he⟩
  · rw [ht.gapAt, hgap] at hbefore'
    exact absurd hbefore' (not_lt.mpr hbefore)
  · rw [ht.source] at hlt
    exact .inl hlt
  · rw [ht.source] at hfrom
    rw [ht.cursor] at hlt
    exact .inr ⟨hfrom.symm, (ha.advance hgap).trans_lt hlt⟩

theorem allRead_iff (hstart : Initial start)
    (hrun : Trace.run (StreamPolling.step c) start actions = some s) :
    AllRead c start actions ↔ NeverSkipped c start actions := by
  constructor
  · intro h before after m hsplit hm
    rw [hsplit] at h
    exact run_noneSkipped hstart h.of_append hm
  · intro h before i commit after m p a hsplit hm hp ha hsucceeds
    rw [hsplit] at hrun
    obtain ⟨m', hm', hrest⟩ := Trace.run_append.mp hrun
    obtain rfl : m = m' := Option.some.inj (hm.symm.trans hm')
    obtain ⟨n, hn, -⟩ := Trace.run_cons.mp hrest
    obtain ⟨p', a', hp', ha', rfl⟩ := step_persist hn
    obtain rfl : p = p' := Option.some.inj (hp.symm.trans hp')
    obtain rfl : a = a' := Option.some.inj (ha.symm.trans ha')
    have hsound := (run_invariant hstart hm).answers p hp a (List.mem_of_getElem? ha)
    have hafter : Trace.run (StreamPolling.step c) start (before ++ [.persist i commit]) =
        some (m.persist c a commit) := Trace.run_append.mpr ⟨m, hm, Trace.run_singleton.mpr hn⟩
    have hnone := h (before ++ [.persist i commit]) after _
      (by rw [hsplit, List.append_assoc]; rfl) hafter
    rcases persist_cases m a commit with ⟨hnot, -⟩ | ⟨-, hpersists⟩
    · exact absurd hsucceeds hnot
    · exact passesRead_of_noneSkipped hsound hpersists hnone

/-- What is above the cursor of the current stream is on its way: a poll reports a gap,
returns it, or returns a full page below it. -/
theorem poll_pending (hs : Invariant s) {stream : AccountStream N}
    (hstream : s.stream = some stream)
    (hx : x ∈ s.ingested) (hfrom : x.stream = s.streams) (hlt : s.cursor < x.event.cursor)
    (status : String) (lastError : Option String) :
    (stream.poll status lastError s.cursor).gap = true ∨
      x.event ∈ (stream.poll status lastError s.cursor).events ∨
      ((stream.poll status lastError s.cursor).nextCursor = s.cursor + maxEventsPerPoll ∧
        s.cursor + maxEventsPerPoll < x.event.cursor) := by
  cases hgap : (stream.poll status lastError s.cursor).gap with
  | true => exact .inl rfl
  | false =>
    right
    by_cases hle : x.event.cursor ≤ (stream.poll status lastError s.cursor).nextCursor
    · left
      have hsound : SoundAnswer s s.cursor ⟨s.streams, stream.poll status lastError s.cursor⟩ :=
        .fresh hs hstream
      exact hsound.complete hgap x hx hfrom hlt hle
    · right
      have hnumb := hs.numbered stream hstream x hx hfrom
      rw [poll_nextCursor hgap] at hle ⊢
      omega

/-- Events of one account's streams, in every run. -/
theorem stream_events_accounted (c : Setting N) (hstart : Initial start)
    (hrun : Trace.run (StreamPolling.step c) start actions = some s) :
    (AllRead c start actions ↔ NeverSkipped c start actions) ∧
    (AllRead c start actions → s.source = s.streams → ∀ (i : ℕ) x, s.ingested[i]? = some x →
      isStateEvent x.event = true →
        x ∈ s.persisted ∨ i < s.gapAt ∨ (x.stream = s.streams ∧ s.cursor < x.event.cursor)) ∧
    (∀ x ∈ s.ingested, x.stream = s.streams → s.cursor < x.event.cursor →
      ∀ stream ∈ s.stream, ∀ status lastError,
        (stream.poll status lastError s.cursor).gap = true ∨
        x.event ∈ (stream.poll status lastError s.cursor).events ∨
        ((stream.poll status lastError s.cursor).nextCursor = s.cursor + maxEventsPerPoll ∧
          s.cursor + maxEventsPerPoll < x.event.cursor)) ∧
    (∀ before i commit after m p a, actions = before ++ .persist i commit :: after →
      Trace.run (StreamPolling.step c) start before = some m → m.polling = some p →
        p.answers[i]? = some a → Succeeds c m a commit → a.batch.gap = true →
          (m.persist c a commit).dirty = true) := by
  have hs := run_invariant hstart hrun
  refine ⟨allRead_iff hstart hrun, ?_, ?_, ?_⟩
  · intro hread hcur i x hx hstate
    rcases run_noneSkipped hstart hread hrun i x hx hstate with hmem | hbefore | hlt | ⟨hfrom, hlt⟩
    · exact .inl hmem
    · exact .inr (.inl hbefore)
    · have hle := hs.streams x (List.mem_of_getElem? hx)
      omega
    · exact .inr (.inr ⟨hfrom.symm.trans hcur, hlt⟩)
  · intro x hx hfrom hlt stream hstream status lastError
    exact poll_pending hs hstream hx hfrom hlt status lastError
  · intro before i commit after m p a hsplit hm hp ha hsucceeds hgap
    rcases persist_cases m a commit with ⟨hnot, -⟩ | ⟨-, hpersists⟩
    · exact absurd hsucceeds hnot
    · exact hpersists.dirty hgap

end Skipped

section Examples

/-- The order `id` as its channel delivers it. -/
def order (id : String) : Json ℤ := .object [("id", .string id)]

def orderText (id : String) : String :=
  "\x7b\"channel\":\"orders\",\"record\":\x7b\"id\":\"" ++ id ++ "\"\x7d\x7d"

/-- The provider, on the orders of one bybit account. -/
def orders : Provider ℤ where
  dumps
    | .object [("channel", .string "orders"), ("record", .object [("id", .string id)])] =>
      orderText id
    | _ => "null"
  loads text :=
    if text = orderText "1" then .object [("channel", .string "orders"), ("record", order "1")]
    else if text = orderText "2" then .object [("channel", .string "orders"), ("record", order "2")]
    else .null
  sha256 text :=
    if text = orderText "1" then "fba9c1477b1b52602a71b12f14b71b87deeb7e31ec0737f25d172fcafee91911"
    else if text = orderText "2"
      then "5a6c3fb800602cb19490345aa6ae76c4b9ff437dbec0a0c3a72536ad8e94fd87"
    else if text = "ccxt-pro|bybit|account|order|" ++
        "fba9c1477b1b52602a71b12f14b71b87deeb7e31ec0737f25d172fcafee91911"
      then "b6c739c20a23b70d1d70a619ef4e82c49b463574311f146b445f8467d01ea31f"
    else "bbf302c6b766d13f93b79d9928ef1bbfd11cf92eaf91a52df55b9178ab6560dc"
  count n := n
  truthy n := n ≠ 0
  integer := some
  int
    | .number n => some n
    | _ => none
  canonicalSymbol _ := none

def bybit : Setting ℤ where
  provider := orders
  account := ⟨"account", "bybit", "live"⟩
  stringify
    | .object [_, ("record", .object [("id", .string id)])] => orderText id
    | _ => "null"

def unpolled : State ℤ where
  stream := none
  streams := 0
  cursor := 0
  polling := none
  dirty := false
  tables := ⟨[], .empty⟩
  ingested := []
  persisted := []
  gapAt := 0
  source := 0

theorem initial_unpolled : Initial unpolled := ⟨rfl, rfl, rfl, rfl, rfl, rfl, rfl, rfl⟩

def healthy : Channels := ⟨"credentials", 1700000000000, true, "healthy", none⟩

def commit : Commit := ⟨fun i => if i = 0 then "row" else "another row", 1700000000000, true⟩

/-- The executor restarts, and the answer that creates the next stream is lost. -/
def replacedRun : List (Action ℤ) :=
  [.begin [], .attempt healthy, .persist 0 commit, .ingest "orders" 1700000000000 (order "1"),
    .begin [], .attempt healthy, .persist 0 commit, .restartExecutor,
    .begin [], .attempt healthy, .fail "timeout" 1700000000000,
    .ingest "orders" 1700000001000 (order "2"), .begin [], .attempt healthy, .persist 0 commit]

/-- The order `2` is in no batch, below the cursor of its stream, and there was no gap. -/
theorem order_skipped :
    (Trace.run (step bybit) unpolled replacedRun).map
      (fun s => (s.streams, s.source, s.cursor, s.gapAt)) =
      some (2, 2, 1, 0) ∧
    (Trace.run (step bybit) unpolled replacedRun).map (fun s =>
      (s.ingested.map (fun x => (x.stream, x.event.cursor, x.event.eventType)),
        s.persisted.map (fun x => (x.stream, x.event.cursor)))) =
      some ([(1, 1, "order"), (2, 1, "order")], [(1, 1)]) ∧
    (Trace.run (step bybit) unpolled replacedRun).bind (fun s => s.stream.map (fun stream =>
      ((stream.poll "healthy" none s.cursor).gap,
        (stream.poll "healthy" none s.cursor).events.length))) =
      some (false, 0) := by
  refine ⟨?_, ?_, ?_⟩
  · decide +kernel
  · decide +kernel
  · decide +kernel

/-- An order that arrives between a lost answer and the next poll. -/
def lostAnswerRun : List (Action ℤ) :=
  [.begin [], .attempt healthy, .ingest "orders" 1700000000000 (order "1"),
    .fail "timeout" 1700000000000,
    .begin [], .attempt healthy]

theorem stream_events_accounted_lost_answer : ∃ s x,
    Trace.run (step bybit) unpolled (lostAnswerRun ++ [.persist 0 commit]) = some s ∧
      s.ingested = [x] ∧ x.event.eventType = "order" ∧ x ∈ s.persisted := by
  have hvals : (Trace.run (step bybit) unpolled (lostAnswerRun ++ [.persist 0 commit])).map
    (fun s =>
      (s.streams, s.source, s.cursor, s.gapAt)) = some (1, 1, 1, 0) := by decide +kernel
  have hevs : (Trace.run (step bybit) unpolled (lostAnswerRun ++ [.persist 0 commit])).map (fun s =>
      s.ingested.map (fun x => (x.event.cursor, x.event.eventType))) = some [(1, "order")] := by
    decide +kernel
  have hbefore : (Trace.run (step bybit) unpolled lostAnswerRun).map (fun m =>
      (m.ingested.map (fun x => (x.stream, x.event.cursor)), m.polling.map (fun p =>
        (p.cursor, p.answers.map (fun a => a.stream))))) = some ([(1, 1)], some (0, [1])) := by
    decide +kernel
  obtain ⟨s, hs, hstate⟩ := Option.map_eq_some_iff.mp hvals
  simp only [Prod.mk.injEq] at hstate
  obtain ⟨hstreams, hsrc, hcurs, hgap⟩ := hstate
  rw [hs, Option.map_some, Option.some.injEq] at hevs
  obtain ⟨x, hx, hevent⟩ := List.map_eq_singleton_iff.mp hevs
  rw [Prod.mk.injEq] at hevent
  obtain ⟨hnumb, htype⟩ := hevent
  refine ⟨s, x, hs, hx, htype, ?_⟩
  have hread : AllRead bybit unpolled (lostAnswerRun ++ [.persist 0 commit]) := by
    refine allRead_concat.mpr ⟨?_, ?_⟩
    · intro before i commit after m p a hsplit
      have hmem : .persist i commit ∈ lostAnswerRun :=
        hsplit ▸ List.mem_append_right before List.mem_cons_self
      simp [lostAnswerRun] at hmem
    · rintro i commit m p a haction hm hp ha - - - j y hy - - -
      right
      rw [hm, Option.map_some, hp, Option.map_some, Option.some.injEq, Prod.mk.injEq,
        Option.some.injEq, Prod.mk.injEq] at hbefore
      obtain ⟨hm, hk, hp⟩ := hbefore
      have hone : (y.stream, y.event.cursor) = (1, 1) := by
        rw [← List.mem_singleton, ← hm]
        exact List.mem_map_of_mem (List.mem_of_getElem? hy)
      have ha : a.stream = 1 := by
        rw [← List.mem_singleton, ← hp]
        exact List.mem_map_of_mem (List.mem_of_getElem? ha)
      rw [Prod.mk.injEq] at hone
      rw [ha, hk, hone.1, hone.2]
      exact ⟨rfl, Nat.zero_lt_one⟩
  obtain ⟨-, haccounted, -, -⟩ := stream_events_accounted bybit initial_unpolled hs
  rcases haccounted hread (hsrc.trans hstreams.symm) 0 x (by rw [hx]; rfl) (by
    rw [isStateEvent, htype]; rfl) with hmem | hbefore | ⟨-, hlt⟩
  · exact hmem
  · rw [hgap] at hbefore
    cases hbefore
  · omega

end Examples

end TsxCore.StreamPolling
