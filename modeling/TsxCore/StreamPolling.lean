import TsxCore.ExchangeStreamRepository
import TsxCore.Trace

/-!
# Polling the streams (`trading_runtime.ts`, `stream_hub.py`)

One account between the executor and the program. A provider's records are ingested by
the current stream; a poll of the program is in flight until it is persisted or fails,
and meanwhile the executor may answer any number of its attempts. Streams are numbered
in the order of their creation, and the ingested and persisted events are remembered
for the statements below.
-/

namespace TsxCore.StreamPolling

open Outcome ExecutorStreams ExchangeStreams

variable {N : Type}

structure Ingested (N : Type) where
  stream : ℕ
  event : StreamEvent N

structure Answer (N : Type) where
  stream : ℕ
  batch : StreamBatch N

structure Poll (N : Type) where
  cursor : ℕ
  symbols : List String
  answers : List (Answer N)

structure State (N : Type) where
  stream : Option (AccountStream N)
  streams : ℕ
  /-- `streamCursors.get(account.id) ?? 0`. -/
  cursor : ℕ
  polling : Option (Poll N)
  /-- The account is in `streamDirtyAccounts`. -/
  dirty : Bool
  tables : Tables
  ingested : List (Ingested N)
  persisted : List (Ingested N)
  /-- The number of the events ingested before the last persisted gap. -/
  gapAt : ℕ
  /-- The stream of the last persisted batch. -/
  source : ℕ

/-- What a persisting attempt meets: fresh identifiers, the clock and the database. -/
structure Commit where
  ids : ℕ → String
  now : ℤ
  committed : Bool

inductive Action (N : Type)
  | ingest (channel : String) (receivedAt : ℤ) (value : Json N)
  | begin (symbols : List String)
  /-- The executor answers an attempt of the poll in flight. -/
  | attempt (channels : Channels)
  /-- The executor answers a request that nobody waits for. -/
  | abandoned (channels : Channels) (cursor : ℕ) (symbols : List String)
  | persist (answer : ℕ) (commit : Commit)
  | fail (message : String) (now : ℤ)
  | reconcile
  | restartExecutor
  | restart

structure Setting (N : Type) where
  provider : Provider N
  account : TradingAccount
  stringify : Json N → String

namespace Setting

def executorAccount (c : Setting N) : Account := ⟨c.account.id, c.account.exchange⟩

end Setting

namespace State

def ingestRecord (c : Setting N) (channel : String) (receivedAt : ℤ) (s : State N)
    (record : List (String × Json N)) : State N :=
  match s.stream with
  | none => s
  | some stream => { s with
      stream := some (stream.ingestRecord c.provider c.executorAccount channel receivedAt record)
      ingested := s.ingested ++ [⟨s.streams,
        streamEvent c.provider c.executorAccount channel receivedAt record
          (stream.buffer.cursor + 1)⟩] }

def ingest (c : Setting N) (s : State N) (channel : String) (receivedAt : ℤ) (value : Json N) :
    State N :=
  (records value).foldl (ingestRecord c channel receivedAt) s

def receive (s : State N) (channels : Channels) (cursor : ℕ) (symbols : List String) :
    State N × Option (Answer N) :=
  let (stream, batch) := ExecutorStreams.poll s.stream channels cursor symbols
  let replaced := symbols.length ≤ 100 ∧
    (s.stream.filter (·.credentialFingerprint = channels.credentialFingerprint)).isNone
  let streams := if replaced then s.streams + 1 else s.streams
  ({ s with stream := stream, streams := streams }, batch.map (fun batch => ⟨streams, batch⟩))

/-- A failed poll of `pollExchangeStreams`. -/
def failed (c : Setting N) (s : State N) (message : String) (now : ℤ) : State N :=
  { s with
    polling := none
    tables := recordExchangeStreamFailure s.tables c.account.id message now }

/-- `streamEvents` and `persistExchangeStreamBatch` with a batch of the executor. -/
def persistence (c : Setting N) (s : State N) (batch : StreamBatch N) (commit : Commit) :
    Outcome (Persisted × Tables) := do
  let batch ← assertStreamBatch batch
  persistExchangeStreamBatch c.stringify s.tables c.account batch commit.ids commit.now

/-- The end of a poll of `pollExchangeStreams`, with the batch that it got. -/
def persist (c : Setting N) (s : State N) (answer : Answer N) (commit : Commit) : State N :=
  match s.persistence c answer.batch commit with
  | .error thrown => s.failed c thrown.message commit.now
  | .ok (result, tables) =>
    if commit.committed then { s with
      polling := none
      cursor := answer.batch.nextCursor
      dirty := s.dirty || 0 < result.stateChanges || result.gap
      tables := tables
      persisted := s.persisted ++ answer.batch.events.map (fun event => ⟨answer.stream, event⟩)
      gapAt := if answer.batch.gap then s.ingested.length else s.gapAt
      source := answer.stream }
    else s.failed c "transaction failed" commit.now

end State

def step (c : Setting N) (s : State N) : Action N → Option (State N)
  | .ingest channel receivedAt value => do
    guard s.stream.isSome
    return s.ingest c channel receivedAt value
  | .begin symbols => do
    guard s.polling.isNone
    return { s with polling := some ⟨s.cursor, symbols, []⟩ }
  | .attempt channels => do
    let poll ← s.polling
    let (next, answer) := s.receive channels poll.cursor poll.symbols
    return { next with polling := some { poll with answers := poll.answers ++ answer.toList } }
  | .abandoned channels cursor symbols => some (s.receive channels cursor symbols).1
  | .persist i commit => do
    let poll ← s.polling
    let answer ← poll.answers[i]?
    return s.persist c answer commit
  | .fail message now => do
    guard s.polling.isSome
    return s.failed c message now
  | .reconcile => some { s with dirty := false }
  | .restartExecutor => some { s with stream := none }
  | .restart => some { s with cursor := 0, polling := none, dirty := false }

section Ingest

variable {c : Setting N} {s : State N} {channel : String} {receivedAt : ℤ}

theorem ingest_preserves {P : State N → Prop}
    (hround : ∀ m record, P m → P (m.ingestRecord c channel receivedAt record)) (hs : P s)
    (value : Json N) : P (s.ingest c channel receivedAt value) := by
  unfold State.ingest
  generalize records value = rs
  induction rs generalizing s with
  | nil => exact hs
  | cons record rest ih =>
    apply ih
    exact hround s record hs

end Ingest

section Invariant

variable {c : Setting N} {start s t : State N} {action : Action N} {actions : List (Action N)}
  {x : Ingested N} {i : ℕ} {stream : AccountStream N}

/-- An answer to a poll of `cursor`. -/
structure SoundAnswer (s : State N) (cursor : ℕ) (a : Answer N) : Prop where
  source : s.source ≤ a.stream
  stream : a.stream ≤ s.streams
  next : a.stream = s.streams → ∀ stream ∈ s.stream, a.batch.nextCursor ≤ stream.buffer.cursor
  above : ∀ e ∈ a.batch.events, cursor < e.cursor
  advance : a.batch.gap = false → cursor ≤ a.batch.nextCursor
  complete : a.batch.gap = false → ∀ x ∈ s.ingested, x.stream = a.stream → cursor < x.event.cursor →
    x.event.cursor ≤ a.batch.nextCursor → x.event ∈ a.batch.events

structure Invariant (s : State N) : Prop where
  streams : ∀ x ∈ s.ingested, x.stream ≤ s.streams
  source : s.source ≤ s.streams
  numbered : ∀ stream ∈ s.stream, ∀ x ∈ s.ingested, x.stream = s.streams →
    x.event.cursor ≤ stream.buffer.cursor
  buffered : ∀ stream ∈ s.stream, ∀ x ∈ s.ingested, x.stream = s.streams →
    stream.buffer.cursor < x.event.cursor + maxBufferedEvents → x.event ∈ stream.buffer.items
  cursor : s.source = s.streams → ∀ stream ∈ s.stream, s.cursor ≤ stream.buffer.cursor
  polling : ∀ p ∈ s.polling, p.cursor = s.cursor
  answers : ∀ p ∈ s.polling, ∀ a ∈ p.answers, SoundAnswer s p.cursor a

theorem ingestRecord_of_some (h : s.stream = some stream) (channel : String) (receivedAt : ℤ)
    (record : List (String × Json N)) :
    s.ingestRecord c channel receivedAt record = { s with
      stream := some (stream.ingestRecord c.provider c.executorAccount channel receivedAt record)
      ingested := s.ingested ++ [⟨s.streams,
        streamEvent c.provider c.executorAccount channel receivedAt record
          (stream.buffer.cursor + 1)⟩] } := by
  rw [State.ingestRecord, h]

theorem Invariant.ingestRecord (h : Invariant s) (channel : String) (receivedAt : ℤ)
    (record : List (String × Json N)) : Invariant (s.ingestRecord c channel receivedAt record) := by
  cases hstream : s.stream with
  | none =>
    rw [State.ingestRecord, hstream]
    exact h
  | some stream =>
    have hmem : stream ∈ s.stream := hstream
    have hcurs : (stream.ingestRecord c.provider c.executorAccount channel receivedAt
        record).buffer.cursor = stream.buffer.cursor + 1 := rfl
    rw [ingestRecord_of_some hstream]
    constructor
    case streams =>
      intro x hx
      rcases List.mem_append.mp hx with hx | hx
      · exact h.streams x hx
      · rw [List.mem_singleton.mp hx]
    case source => exact h.source
    case numbered =>
      intro next hnext x hx hcur
      obtain rfl := Option.some.inj hnext
      rw [hcurs]
      rcases List.mem_append.mp hx with hx | hx
      · exact (h.numbered stream hmem x hx hcur).trans (Nat.le_succ _)
      · rw [List.mem_singleton.mp hx]
        exact le_rfl
    case buffered =>
      intro next hnext x hx hcur hwin
      obtain rfl := Option.some.inj hnext
      rw [hcurs] at hwin
      rcases List.mem_append.mp hx with hx | hx
      · have hin := h.buffered stream hmem x hx hcur (by omega)
        exact NumberedBuffer.mem_push_of_mem (streamEvent_cursor _) hin hwin
      · rw [List.mem_singleton.mp hx]
        exact NumberedBuffer.mem_push_self (b := stream.buffer) (streamEvent_cursor _) (by decide)
    case cursor =>
      intro hsrc next hnext
      obtain rfl := Option.some.inj hnext
      rw [hcurs]
      exact (h.cursor hsrc stream hmem).trans (Nat.le_succ _)
    case polling => exact h.polling
    case answers =>
      intro p hp a ha
      have hsound := h.answers p hp a ha
      constructor
      case source => exact hsound.source
      case stream => exact hsound.stream
      case next =>
        intro hcur next hnext
        obtain rfl := Option.some.inj hnext
        rw [hcurs]
        exact (hsound.next hcur stream hmem).trans (Nat.le_succ _)
      case above => exact hsound.above
      case advance => exact hsound.advance
      case complete =>
        intro hgap x hx hfrom hk hle
        rcases List.mem_append.mp hx with hx | hx
        · exact hsound.complete hgap x hx hfrom hk hle
        · rw [List.mem_singleton.mp hx] at hfrom hle
          have hnext := hsound.next hfrom.symm stream hmem
          change stream.buffer.cursor + 1 ≤ a.batch.nextCursor at hle
          omega

/-- A request either finds the stream of the hub or puts a fresh one in its place. -/
theorem receive_cases (s : State N) (channels : Channels) (k : ℕ) (symbols : List String) :
    ((s.receive channels k symbols).1 = s ∧ (s.receive channels k symbols).2 = none) ∨
    ∃ stream : AccountStream N, ∃ streams,
      (s.receive channels k symbols).1 = { s with stream := some stream, streams := streams } ∧
      ((streams = s.streams ∧ ∃ old ∈ s.stream, stream.buffer = old.buffer) ∨
        (streams = s.streams + 1 ∧ stream.buffer = .empty)) ∧
      ∀ a ∈ (s.receive channels k symbols).2,
        a = ⟨streams, stream.poll channels.status channels.lastError k⟩ := by
  unfold State.receive ExecutorStreams.poll
  by_cases hmany : 100 < symbols.length
  · left
    simp only [if_pos hmany, not_le.mpr hmany, false_and, if_false]
    exact ⟨trivial, rfl⟩
  · right
    simp only [if_neg hmany, not_lt.mp hmany, true_and]
    refine ⟨{ streamFor s.stream channels.credentialFingerprint with
      startedAt := (streamFor s.stream channels.credentialFingerprint).startedAt.or
        (some channels.now) },
      _, rfl, ?_, ?_⟩
    · cases hfound : s.stream.filter (·.credentialFingerprint = channels.credentialFingerprint) with
      | none =>
        right
        simp [streamFor, hfound, AccountStream.new]
      | some old =>
        left
        simp only [streamFor, hfound]
        exact ⟨rfl, old, (Option.filter_eq_some_iff.mp hfound).1, rfl⟩
    · intro a ha
      cases hstarted : channels.started <;> simp_all

theorem SoundAnswer.fresh {status : String} {lastError : Option String} {k : ℕ} (h : Invariant s)
    (hstream : s.stream = some stream) :
    SoundAnswer s k ⟨s.streams, stream.poll status lastError k⟩ := by
  have hmem : stream ∈ s.stream := hstream
  constructor
  case source => exact h.source
  case stream => exact le_rfl
  case next =>
    intro _ next hnext
    obtain rfl := Option.some.inj (hstream.symm.trans hnext)
    exact poll_nextCursor_le
  case above =>
    intro e he
    exact poll_events_above he
  case advance =>
    intro hgap
    rw [poll_nextCursor hgap]
    exact Nat.le_add_right _ _
  case complete =>
    intro hgap x hx hcur hk hle
    have hmissed := not_missed hgap
    rw [NumberedBuffer.Missed, not_or, not_lt, not_lt] at hmissed
    exact mem_poll_events hgap (h.buffered stream hmem x hx hcur (by omega)) hk hle

theorem Invariant.receive (h : Invariant s) (channels : Channels) (k : ℕ) (symbols : List String) :
    Invariant (s.receive channels k symbols).1 ∧
      ∀ a ∈ (s.receive channels k symbols).2, SoundAnswer (s.receive channels k symbols).1 k a := by
  rcases receive_cases s channels k symbols with
    ⟨hsame, hnone⟩ | ⟨stream, streams, hnext, hstream, hanswer⟩
  · rw [hsame, hnone]
    exact ⟨h, by simp⟩
  have hinv : Invariant { s with stream := some stream, streams := streams } := by
    rcases hstream with ⟨rfl, old, hold, hbuffer⟩ | ⟨rfl, hempty⟩
    · have hsame : ∀ P : AccountStream N → Prop, (∀ m, m.buffer = old.buffer → P m) →
          ∀ m ∈ some stream, P m := by
        intro P hP m hm
        exact hP m (Option.some.inj hm ▸ hbuffer)
      constructor
      case streams => exact h.streams
      case source => exact h.source
      case numbered =>
        apply hsame
        intro m hm
        rw [hm]
        exact h.numbered old hold
      case buffered =>
        apply hsame
        intro m hm
        rw [hm]
        exact h.buffered old hold
      case cursor =>
        intro hsrc
        apply hsame
        intro m hm
        rw [hm]
        exact h.cursor hsrc old hold
      case polling => exact h.polling
      case answers =>
        intro p hp a ha
        have hsound := h.answers p hp a ha
        refine ⟨hsound.source, hsound.stream, ?_, hsound.above, hsound.advance, hsound.complete⟩
        intro hcur
        apply hsame
        intro m hm
        rw [hm]
        exact hsound.next hcur old hold
    · have hold : ∀ x ∈ s.ingested, x.stream ≠ s.streams + 1 := by
        intro x hx heq
        have hle := h.streams x hx
        omega
      constructor
      case streams => exact fun x hx => (h.streams x hx).trans (Nat.le_succ _)
      case source => exact h.source.trans (Nat.le_succ _)
      case numbered => exact fun m _ x hx hcur => absurd hcur (hold x hx)
      case buffered => exact fun m _ x hx hcur => absurd hcur (hold x hx)
      case cursor =>
        intro hsrc
        have hle := h.source
        change s.source = s.streams + 1 at hsrc
        omega
      case polling => exact h.polling
      case answers =>
        intro p hp a ha
        have hsound := h.answers p hp a ha
        refine ⟨hsound.source, hsound.stream.trans (Nat.le_succ _), ?_, hsound.above,
          hsound.advance,
          hsound.complete⟩
        intro hcur
        have hle := hsound.stream
        change a.stream = s.streams + 1 at hcur
        omega
  rw [hnext]
  refine ⟨hinv, ?_⟩
  intro a ha
  rw [hanswer a ha]
  exact .fresh hinv rfl

/-- The same account, but for the poll in flight and what the statements do not read. -/
structure Same (s t : State N) : Prop where
  stream : t.stream = s.stream
  streams : t.streams = s.streams
  cursor : t.cursor = s.cursor
  ingested : t.ingested = s.ingested
  persisted : t.persisted = s.persisted
  gapAt : t.gapAt = s.gapAt
  source : t.source = s.source

theorem SoundAnswer.same {k : ℕ} {a : Answer N} (h : SoundAnswer s k a) (hsame : Same s t) :
    SoundAnswer t k a := by
  obtain ⟨hsrc, hstream, hnext, habove, hadv, hcomp⟩ := h
  refine ⟨?_, ?_, ?_, habove, hadv, ?_⟩
  · rwa [hsame.source]
  · rwa [hsame.streams]
  · rwa [hsame.streams, hsame.stream]
  · rwa [hsame.ingested]

theorem Invariant.same (h : Invariant s) (hsame : Same s t)
    (hpolling : ∀ p ∈ t.polling, p.cursor = s.cursor)
    (hanswers : ∀ p ∈ t.polling, ∀ a ∈ p.answers, SoundAnswer s p.cursor a) : Invariant t := by
  constructor
  case streams =>
    rw [hsame.ingested, hsame.streams]
    exact h.streams
  case source =>
    rw [hsame.source, hsame.streams]
    exact h.source
  case numbered =>
    rw [hsame.stream, hsame.ingested, hsame.streams]
    exact h.numbered
  case buffered =>
    rw [hsame.stream, hsame.ingested, hsame.streams]
    exact h.buffered
  case cursor =>
    rw [hsame.stream, hsame.source, hsame.streams, hsame.cursor]
    exact h.cursor
  case polling =>
    rw [hsame.cursor]
    exact hpolling
  case answers =>
    intro p hp a ha
    exact (hanswers p hp a ha).same hsame

def Succeeds (c : Setting N) (s : State N) (a : Answer N) (commit : Commit) : Prop :=
  commit.committed = true ∧ ∃ result, s.persistence c a.batch commit = .ok result

structure Persists (s : State N) (a : Answer N) (t : State N) : Prop where
  stream : t.stream = s.stream
  streams : t.streams = s.streams
  ingested : t.ingested = s.ingested
  polling : t.polling = none
  cursor : t.cursor = a.batch.nextCursor
  persisted : t.persisted = s.persisted ++ a.batch.events.map (fun event => ⟨a.stream, event⟩)
  gapAt : t.gapAt = if a.batch.gap then s.ingested.length else s.gapAt
  source : t.source = a.stream
  dirty : a.batch.gap = true → t.dirty = true

theorem persistence_gap {batch : StreamBatch N} {commit : Commit} {result : Persisted × Tables}
    (h : s.persistence c batch commit = .ok result) : result.1.gap = batch.gap := by
  simp only [State.persistence, assertStreamBatch, persistExchangeStreamBatch, bind_eq_ok,
    pure_eq_ok_iff]
    at h
  obtain ⟨checked, hchk, -, -, -, -, inserted, -, rfl⟩ := h
  obtain ⟨-, -, -, -, -, -, rfl⟩ := hchk
  rfl

theorem persist_cases (s : State N) (a : Answer N) (commit : Commit) :
    (¬ Succeeds c s a commit ∧ Same s (s.persist c a commit) ∧
      (s.persist c a commit).polling = none) ∨
    (Succeeds c s a commit ∧ Persists s a (s.persist c a commit)) := by
  unfold State.persist
  cases hres : s.persistence c a.batch commit with
  | error thrown =>
    left
    refine ⟨?_, ⟨rfl, rfl, rfl, rfl, rfl, rfl, rfl⟩, rfl⟩
    intro h
    obtain ⟨-, result, hok⟩ := h
    rw [hres] at hok
    cases hok
  | ok result =>
    by_cases hcommitted : commit.committed = true
    · right
      simp only [if_pos hcommitted]
      refine ⟨⟨hcommitted, result, hres⟩, rfl, rfl, rfl, rfl, rfl, rfl, rfl, rfl, ?_⟩
      intro hgap
      rw [persistence_gap hres, hgap, Bool.or_true]
    · left
      simp only [if_neg hcommitted]
      exact ⟨fun h => hcommitted h.1, ⟨rfl, rfl, rfl, rfl, rfl, rfl, rfl⟩, rfl⟩

theorem Invariant.idle (h : Invariant s) (hsame : Same s t) (hpolling : t.polling = none) :
    Invariant t := by
  apply h.same hsame
  · rw [hpolling]
    exact nofun
  · rw [hpolling]
    exact nofun

theorem Invariant.persists {a : Answer N} {k : ℕ} (h : Invariant s) (ha : SoundAnswer s k a)
    (ht : Persists s a t) : Invariant t := by
  constructor
  case streams =>
    rw [ht.ingested, ht.streams]
    exact h.streams
  case source =>
    rw [ht.source, ht.streams]
    exact ha.stream
  case numbered =>
    rw [ht.stream, ht.ingested, ht.streams]
    exact h.numbered
  case buffered =>
    rw [ht.stream, ht.ingested, ht.streams]
    exact h.buffered
  case cursor =>
    rw [ht.source, ht.streams, ht.stream, ht.cursor]
    exact ha.next
  case polling =>
    rw [ht.polling]
    exact nofun
  case answers =>
    rw [ht.polling]
    exact nofun

theorem step_persist {i : ℕ} {commit : Commit} (h : step c s (.persist i commit) = some t) :
    ∃ p a, s.polling = some p ∧ p.answers[i]? = some a ∧ t = s.persist c a commit := by
  simp only [step, Option.bind_eq_bind, Option.bind_eq_some_iff, Option.pure_def, Option.some.injEq]
    at h
  obtain ⟨p, hp, a, ha, rfl⟩ := h
  exact ⟨p, a, hp, ha, rfl⟩

theorem Invariant.step (h : Invariant s) (hstep : step c s action = some t) : Invariant t := by
  cases action
  all_goals
    simp only [StreamPolling.step, Option.bind_eq_bind, Option.bind_eq_some_iff,
      Option.pure_def, Option.some.injEq] at hstep
  case ingest channel receivedAt value =>
    obtain ⟨-, -, rfl⟩ := hstep
    exact ingest_preserves (fun m record hm => hm.ingestRecord channel receivedAt record) h value
  case begin symbols =>
    obtain ⟨-, -, rfl⟩ := hstep
    refine h.same ⟨rfl, rfl, rfl, rfl, rfl, rfl, rfl⟩ ?_ ?_
    · intro p hp
      rw [← Option.some.inj hp]
    · intro p hp a ha
      rw [← Option.some.inj hp] at ha
      cases ha
  case attempt channels =>
    obtain ⟨p, hp, rfl⟩ := hstep
    obtain ⟨hreceived, hanswer⟩ := h.receive channels p.cursor p.symbols
    refine hreceived.same ⟨rfl, rfl, rfl, rfl, rfl, rfl, rfl⟩ ?_ ?_
    · intro q hq
      rw [← Option.some.inj hq]
      exact hreceived.polling p hp
    · intro q hq a ha
      rw [← Option.some.inj hq] at ha ⊢
      rcases List.mem_append.mp ha with ha | ha
      · exact hreceived.answers p hp a ha
      · exact hanswer a (Option.mem_toList.mp ha)
  case abandoned channels k symbols =>
    obtain rfl := hstep
    exact (h.receive channels k symbols).1
  case persist i commit =>
    obtain ⟨p, hp, a, ha, rfl⟩ := hstep
    rcases persist_cases s a commit with ⟨-, hsame, hpolling⟩ | ⟨-, hpersists⟩
    · exact h.idle hsame hpolling
    · exact h.persists (h.answers p hp a (List.mem_of_getElem? ha)) hpersists
  case fail message now =>
    obtain ⟨-, -, rfl⟩ := hstep
    exact h.idle ⟨rfl, rfl, rfl, rfl, rfl, rfl, rfl⟩ rfl
  case reconcile =>
    obtain rfl := hstep
    exact h.same ⟨rfl, rfl, rfl, rfl, rfl, rfl, rfl⟩ h.polling h.answers
  case restartExecutor =>
    obtain rfl := hstep
    refine ⟨h.streams, h.source, nofun, nofun, fun _ => nofun, h.polling, ?_⟩
    intro p hp a ha
    have hsound := h.answers p hp a ha
    exact ⟨hsound.source, hsound.stream, fun _ => nofun, hsound.above, hsound.advance,
      hsound.complete⟩
  case restart =>
    obtain rfl := hstep
    exact ⟨h.streams, h.source, h.numbered, h.buffered, fun _ _ _ => Nat.zero_le _, nofun, nofun⟩

structure Initial (s : State N) : Prop where
  stream : s.stream = none
  streams : s.streams = 0
  cursor : s.cursor = 0
  polling : s.polling = none
  ingested : s.ingested = []
  persisted : s.persisted = []
  gapAt : s.gapAt = 0
  source : s.source = 0

theorem Initial.invariant (h : Initial s) : Invariant s := by
  constructor
  case streams =>
    rw [h.ingested]
    exact nofun
  case source => rw [h.source, h.streams]
  case numbered =>
    rw [h.stream]
    exact nofun
  case buffered =>
    rw [h.stream]
    exact nofun
  case cursor =>
    rw [h.stream]
    exact fun _ => nofun
  case polling =>
    rw [h.polling]
    exact nofun
  case answers =>
    rw [h.polling]
    exact nofun

theorem run_invariant (hstart : Initial start) (hrun : Trace.run (step c) start actions = some s) :
    Invariant s :=
  Trace.run_preserves (fun _ _ _ _ hs hstep => hs.step hstep) hstart.invariant hrun

end Invariant

end TsxCore.StreamPolling
