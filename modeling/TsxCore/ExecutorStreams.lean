import TsxCore.NumberedBuffer
import TsxCore.Json
import TsxCore.JsRuntime

/-!
# Streams of the executor (`stream_hub.py`)

One account's stream numbers the records that its channels deliver and keeps the last
of them for polls; the hub replaces it when the account's credentials change. The
serialiser, the hash, the markets and the number types of the provider's values are
parameters, and so is what `_health` reports of the channels.
-/

namespace TsxCore.ExecutorStreams

variable {N : Type}

def maxBufferedEvents : ℕ := 2000
def maxEventsPerPoll : ℕ := 500
def maxEventBytes : ℕ := 64 * 1024

structure Account where
  id : String
  exchange : String

/-- What `_ingest` calls of the language and of the provider. -/
structure Provider (N : Type) where
  /-- `json.dumps` with sorted keys and no blanks. -/
  dumps : Json N → String
  loads : String → Json N
  sha256 : String → String
  count : ℕ → N
  truthy : N → Bool
  /-- The value of a number that is an `int`. -/
  integer : N → Option ℤ
  /-- `int(value)`. -/
  int : Json N → Option ℤ
  /-- `_canonical_symbol(market(symbol))`. -/
  canonicalSymbol : String → Option String

structure StreamEvent (N : Type) where
  cursor : ℕ
  eventKey : String
  eventType : String
  symbol : Option String
  sequence : Option ℤ
  occurredAt : ℤ
  receivedAt : ℤ
  payload : Json N

structure StreamHealth where
  status : String
  startedAt : Option ℤ
  lastEventAt : Option ℤ
  lastError : Option String

structure StreamBatch (N : Type) where
  events : List (StreamEvent N)
  nextCursor : ℕ
  gap : Bool
  health : StreamHealth

/-- `AccountStream`; the buffer holds `_events` and `_cursor`. -/
structure AccountStream (N : Type) where
  credentialFingerprint : String
  buffer : NumberedBuffer (StreamEvent.cursor (N := N)) maxBufferedEvents
  startedAt : Option ℤ
  lastEventAt : Option ℤ

def truthy (p : Provider N) : Json N → Bool
  | .null => false
  | .bool value => value
  | .number value => p.truthy value
  | .string value => value ≠ ""
  | .array items => !items.isEmpty
  | .object members => !members.isEmpty

def canonicalPayload (p : Provider N) (value : Json N) : Json N × String :=
  let encoded := p.dumps value
  let digest := p.sha256 encoded
  let size := byteLength encoded.toList
  if size ≤ maxEventBytes then (p.loads encoded, digest)
  else (.object [("truncated", .bool true), ("sha256", .string digest),
    ("bytes", .number (p.count size))], digest)

def eventType : String → String
  | "orders" => "order"
  | "trades" => "execution"
  | "positions" => "position"
  | "tickers" => "market"
  | _ => "stream_status"

def dict? : Json N → Option (List (String × Json N))
  | .object members => some members
  | _ => none

def records : Json N → List (List (String × Json N))
  | .array items => items.filterMap dict?
  | .object members =>
    if members ≠ [] ∧ (members.all (fun m => (dict? m.2).isSome)) ∧
      (Json.lookup "symbol" members).isNone
    then members.filterMap (fun m => dict? m.2)
    else [members]
  | value => [[("value", value)]]

/-- The event of one record, numbered `cursor`. -/
def streamEvent (p : Provider N) (account : Account) (channel : String) (receivedAt : ℤ)
    (record : List (String × Json N)) (cursor : ℕ) : StreamEvent N :=
  let (payload, digest) := canonicalPayload p
    (.object [("channel", .string channel), ("record", .object record)])
  let value key := (Json.lookup key record).filter (truthy p)
  let sequenceValue := (value "nonce").or (Json.lookup "sequence" record)
  { cursor := cursor
    eventKey := p.sha256 ("ccxt-pro|" ++ account.exchange ++ "|" ++ account.id ++ "|" ++
      eventType channel ++ "|" ++ digest)
    eventType := eventType channel
    symbol := ((Json.lookup "symbol" record).bind Json.text?).bind p.canonicalSymbol
    sequence := (sequenceValue.bind Json.number?).bind p.integer
    occurredAt := match value "timestamp" with
      | some timestamp => (p.int timestamp).getD receivedAt
      | none => receivedAt
    receivedAt := receivedAt
    payload := payload }

theorem streamEvent_cursor {p : Provider N} {account : Account} {channel : String} {receivedAt : ℤ}
    {record : List (String × Json N)} (cursor : ℕ) :
    (streamEvent p account channel receivedAt record cursor).cursor = cursor := rfl

namespace AccountStream

def new (credentialFingerprint : String) : AccountStream N :=
  ⟨credentialFingerprint, .empty, none, none⟩

def ingestRecord (p : Provider N) (account : Account) (channel : String) (receivedAt : ℤ)
    (s : AccountStream N) (record : List (String × Json N)) : AccountStream N :=
  let event := streamEvent p account channel receivedAt record (s.buffer.cursor + 1)
  { s with buffer := s.buffer.push event (streamEvent_cursor _), lastEventAt := some receivedAt }

def poll (s : AccountStream N) (status : String) (lastError : Option String) (cursor : ℕ) :
    StreamBatch N :=
  let first := s.buffer.first
  let gap := decide (s.buffer.cursor < cursor ∨ cursor + 1 < first)
  let events := if gap then [] else s.buffer.above cursor maxEventsPerPoll
  let nextCursor :=
    if gap then s.buffer.cursor
    else match events.getLast? with
      | some event => event.cursor
      | none => cursor
  ⟨events, nextCursor, gap, ⟨status, s.startedAt, s.lastEventAt, lastError⟩⟩

end AccountStream

/-- What a poll of the hub meets: the account's credentials, and the channels. -/
structure Channels where
  credentialFingerprint : String
  now : ℤ
  /-- `ensure_started` reaches its end. -/
  started : Bool
  status : String
  lastError : Option String

/-- The stream of the account, replaced when its credentials have changed. -/
def streamFor (stream : Option (AccountStream N)) (credentialFingerprint : String) :
    AccountStream N :=
  match stream.filter (·.credentialFingerprint = credentialFingerprint) with
  | some stream => stream
  | none => .new credentialFingerprint

/-- `ExchangeStreamHub.poll`; there is no batch when it raises. -/
def poll (stream : Option (AccountStream N)) (channels : Channels) (cursor : ℕ)
    (symbols : List String) :
    Option (AccountStream N) × Option (StreamBatch N) :=
  if 100 < symbols.length then (stream, none)
  else
    let current := streamFor stream channels.credentialFingerprint
    let started := { current with startedAt := current.startedAt.or (some channels.now) }
    (some started,
      if channels.started then some (started.poll channels.status channels.lastError cursor)
        else none)

section Poll

variable {s : AccountStream N} {status : String} {lastError : Option String} {k : ℕ}

theorem poll_gap : (s.poll status lastError k).gap = true ↔ s.buffer.Missed k := by
  rw [NumberedBuffer.missed_iff]
  simp [AccountStream.poll]

theorem not_missed (h : (s.poll status lastError k).gap = false) : ¬ s.buffer.Missed k := by
  intro hmissed
  exact Bool.false_ne_true (h.symm.trans (poll_gap.mpr hmissed))

theorem poll_events (h : (s.poll status lastError k).gap = false) :
    (s.poll status lastError k).events = s.buffer.above k maxEventsPerPoll := by
  have hgap : decide (s.buffer.cursor < k ∨ k + 1 < s.buffer.first) = false := h
  simp [AccountStream.poll, hgap]

theorem poll_nextCursor_of_gap (h : (s.poll status lastError k).gap = true) :
    (s.poll status lastError k).nextCursor = s.buffer.cursor := by
  have hgap : decide (s.buffer.cursor < k ∨ k + 1 < s.buffer.first) = true := h
  simp only [AccountStream.poll, hgap, if_true]

theorem poll_nextCursor (h : (s.poll status lastError k).gap = false) :
    (s.poll status lastError k).nextCursor = k + min maxEventsPerPoll (s.buffer.cursor - k) := by
  have hgap : decide (s.buffer.cursor < k ∨ k + 1 < s.buffer.first) = false := h
  have hnumbers := NumberedBuffer.map_number_above (not_missed h) maxEventsPerPoll
  simp only [AccountStream.poll, hgap, Bool.false_eq_true, if_false]
  have hlast := congrArg List.getLast? hnumbers
  rw [List.getLast?_map, List.getLast?_range'] at hlast
  cases hevs : (s.buffer.above k maxEventsPerPoll).getLast? with
  | none =>
    rw [List.getLast?_eq_none_iff] at hevs
    rw [hevs, List.map_nil, eq_comm, List.range'_eq_nil_iff] at hnumbers
    rw [hnumbers, Nat.add_zero]
  | some e =>
    rw [hevs, Option.map_some] at hlast
    split_ifs at hlast with hzero
    rw [Option.some.injEq] at hlast
    simp only
    omega

/-- A poll never moves a cursor that it accepts past the stream, nor back. -/
theorem poll_nextCursor_le : (s.poll status lastError k).nextCursor ≤ s.buffer.cursor := by
  cases hgap : (s.poll status lastError k).gap with
  | true => exact (poll_nextCursor_of_gap hgap).le
  | false =>
    have hle := not_missed hgap
    rw [NumberedBuffer.Missed, not_or, not_lt] at hle
    rw [poll_nextCursor hgap]
    omega

/-- Without a gap, a poll returns the buffered events above the cursor up to the next one. -/
theorem mem_poll_events {e : StreamEvent N} (h : (s.poll status lastError k).gap = false)
    (he : e ∈ s.buffer.items) (hk : k < e.cursor)
    (hle : e.cursor ≤ (s.poll status lastError k).nextCursor) :
    e ∈ (s.poll status lastError k).events := by
  rw [poll_nextCursor h] at hle
  rw [poll_events h]
  exact NumberedBuffer.mem_above he hk (not_missed h) (by omega)

theorem poll_events_above {e : StreamEvent N} (he : e ∈ (s.poll status lastError k).events) :
    k < e.cursor := by
  cases hgap : (s.poll status lastError k).gap with
  | true =>
    have hgap : decide (s.buffer.cursor < k ∨ k + 1 < s.buffer.first) = true := hgap
    simp [AccountStream.poll, hgap] at he
  | false =>
    rw [poll_events hgap] at he
    simpa using (List.mem_filter.mp (List.mem_of_mem_take he)).2

end Poll

end TsxCore.ExecutorStreams
