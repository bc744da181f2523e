import TsxCore.FxValuationAttempts
import TsxCore.OldestAttemptFirst

/-!
# Every waiting event is tried

The replay stamps each event it tried, so a call whose attempts are all recorded takes the events
with the oldest attempts and puts them last. Calls that could have taken the whole queue have taken
every event of it.
-/

namespace TsxCore.TradingFxValuation

open Outcome OldestAttemptFirst TradingDecimal TradingRational TradingMoneyValue TradingFxQuotes
open TradingFxRepository FxReceipt
open TradingFx (fxEvidenceDigest)
open TradingRecoveryScheduleContract (digestPattern digestPattern_of_eq)

section Queue

variable {account : FxAccount} {ledger after : Ledger} {limit : ℕ} {eventId : String}
  {row other : OriginalEvent}

/-- The events of an account that the replay may still value. -/
def pending (account : FxAccount) (ledger : Ledger) : Finset String :=
  ((ledger.events.rows.filter (unvalued account ledger)).map (·.id)).toFinset

theorem mem_pending : eventId ∈ pending account ledger ↔
    ∃ row ∈ ledger.events.rows, unvalued account ledger row = true ∧ row.id = eventId := by
  simp only [pending, List.mem_toFinset, List.mem_map, List.mem_filter, and_assoc]

theorem dueFirst_iff : dueFirst ledger row other ↔
    toLex (lastAttempt ledger row.id, toLex (row.occurredAt, row.id)) ≤
      toLex (lastAttempt ledger other.id, toLex (other.occurredAt, other.id)) := by
  rw [dueFirst, Prod.Lex.toLex_le_toLex, Prod.Lex.toLex_le_toLex]

instance : Std.Total (dueFirst ledger) where
  total a b := by
    rw [dueFirst_iff, dueFirst_iff]
    exact le_total _ _

instance : IsTrans OriginalEvent (dueFirst ledger) where
  trans a b c hab hbc := by
    rw [dueFirst_iff] at hab hbc ⊢
    exact hab.trans hbc

theorem lastAttempt_le (h : dueFirst ledger row other) :
    lastAttempt ledger row.id ≤ lastAttempt ledger other.id := by
  rcases h with hlt | ⟨heq, -⟩
  · exact hlt.le
  · exact heq.le

theorem nodup_dueEvents : (dueEvents account limit ledger).Nodup := by
  have hsort := ((List.perm_insertionSort (dueFirst ledger) (ledger.events.rows.filter
    (unvalued account ledger))).map (·.id)).nodup_iff.mpr
      (ledger.events.nodup.sublist (List.filter_sublist.map _))
  exact hsort.sublist ((List.take_sublist _ _).map _)

theorem takes_dueEvents : Takes (pending account ledger) (lastAttempt ledger) limit
    (dueEvents account limit ledger).toFinset := by
  let rows := ledger.events.rows.filter (unvalued account ledger)
  let sorted := rows.insertionSort (dueFirst ledger)
  have hperm : sorted.Perm rows := List.perm_insertionSort _ _
  have hsplit : sorted.take limit ++ sorted.drop limit = sorted :=
    List.take_append_drop limit sorted
  have hmem : ∀ {id : String}, id ∈ pending account ledger ↔ ∃ row ∈ sorted, row.id = id := by
    intro id
    simp only [pending, List.mem_toFinset, List.mem_map]
    exact exists_congr (fun row => and_congr_left (fun _ => hperm.mem_iff.symm))
  refine ⟨?_, ?_, ?_⟩
  · intro id hid
    obtain ⟨row, hrow, rfl⟩ := List.mem_map.mp (List.mem_toFinset.mp hid)
    exact hmem.mpr ⟨row, List.mem_of_mem_take hrow, rfl⟩
  · by_cases hshort : sorted.length ≤ limit
    · refine .inl (Finset.ext (fun id => ?_))
      rw [hmem, List.mem_toFinset, dueEvents, List.take_of_length_le hshort, List.mem_map]
    · right
      rw [List.toFinset_card_of_nodup nodup_dueEvents, dueEvents, List.length_map,
        List.length_take]
      exact Nat.min_eq_left (not_le.mp hshort).le
  · intro a ha b hb hnot
    obtain ⟨first, hfirst, rfl⟩ := List.mem_map.mp (List.mem_toFinset.mp ha)
    obtain ⟨second, hsnd, rfl⟩ := hmem.mp hb
    have hlate : second ∈ sorted.drop limit := by
      rw [← hsplit, List.mem_append] at hsnd
      refine hsnd.resolve_left (fun htake => hnot ?_)
      exact List.mem_toFinset.mpr (List.mem_map_of_mem htake)
    have hpairwise : sorted.Pairwise (dueFirst ledger) := List.pairwise_insertionSort _ rows
    rw [← hsplit, List.pairwise_append] at hpairwise
    exact lastAttempt_le (hpairwise.2.2 first hfirst second hlate)

end Queue

section Attempts

variable {sha256 : String → String} {now : ℤ} {account : FxAccount} {ledger after : Ledger}
  {eventId : String} {row : OriginalEvent} {currency : String} {proof : FxMoneyValuation}
  {limit : ℕ}

/-- What an attempt at `eventId` leaves alone. -/
structure Framed (eventId : String) (ledger after : Ledger) : Prop where
  events : after.events = ledger.events
  conflicts : after.conflicts = ledger.conflicts
  decimalValuations : after.decimalValuations = ledger.decimalValuations
  work : after.work = ledger.work
  valuations : ∀ id ≠ eventId, after.valuations.find id = ledger.valuations.find id

theorem framed_refl : Framed eventId ledger ledger := ⟨rfl, rfl, rfl, rfl, fun _ _ => rfl⟩

theorem framed_valueUnvalued
    (h : valueUnvalued sha256 now account row currency ledger = .ok (proof, after)) :
    Framed row.id ledger after := by
  simp only [valueUnvalued, insertValuation, bind_eq_ok, pure_eq_ok_iff, Prod.exists] at h
  obtain ⟨_, -, asset, -, conversion, fx, -, derived, hderd, inserted, ⟨_, -, rfl⟩, found,
    -, h⟩ := h
  obtain ⟨-, -, -, hevent, -⟩ := valuation_ok hderd
  cases found with
  | none => cases h
  | some persisted =>
    obtain ⟨rfl, rfl⟩ := Prod.mk.inj (pure_eq_ok_iff.mp h)
    refine ⟨rfl, rfl, rfl, rfl, ?_⟩
    intro id hid
    rw [Keyed.find_insert, if_neg (fun heq => hid (heq.symm.trans hevent))]

theorem framed_valueFxMoneyEvent
    (h : valueFxMoneyEvent sha256 now account eventId ledger = .ok (proof, after)) :
    Framed eventId ledger after := by
  simp only [valueFxMoneyEvent, bind_eq_ok] at h
  obtain ⟨row, hrow, currency, -, h⟩ := h
  have hid : row.id = eventId := by
    unfold originalEvent at hrow
    split at hrow
    · cases hrow
    · next found hfind =>
      simp only [bind_eq_ok, pure_eq_ok_iff] at hrow
      obtain ⟨_, -, rfl⟩ := hrow
      exact Keyed.key_of_find hfind
  split at h
  · simp only [bind_eq_ok, pure_eq_ok_iff, Prod.mk.injEq] at h
    obtain ⟨_, -, -, rfl⟩ := h
    exact framed_refl
  · exact hid ▸ framed_valueUnvalued h

/-- The conversion of the event that the attempt is at stays within the decimals. -/
def AttemptConvertible (sha256 : String → String) (now : ℤ) (account : FxAccount)
    (attempt : String × Ledger) : Prop :=
  ∀ row currency, attempt.2.events.find attempt.1 = some row →
    reportingBinding now account row attempt.2 = .ok currency →
      Convertible sha256 now account row currency attempt.2

/-- What a replay without an unrecorded error leaves of the events `ids`. -/
structure Replayed (now : ℤ) (ids : List String) (ledger : Ledger) (result : Replay) : Prop where
  error : result.error = none
  attempts : result.attempts.map (·.1) = ids
  events : result.ledger.events = ledger.events
  conflicts : result.ledger.conflicts = ledger.conflicts
  decimalValuations : result.ledger.decimalValuations = ledger.decimalValuations
  valuations : ∀ id ∉ ids, result.ledger.valuations.find id = ledger.valuations.find id
  stamped : ∀ id ∈ ids, lastAttempt result.ledger id = now
  kept : ∀ id ∉ ids, lastAttempt result.ledger id = lastAttempt ledger id

theorem lastAttempt_recordAttempt {reason : Option String} (id : String) :
    lastAttempt (recordAttempt now account eventId reason ledger) id =
      if eventId = id then now else lastAttempt ledger id := by
  simp only [lastAttempt, recordAttempt, Keyed.find_upsert]
  split_ifs <;> rfl

theorem Replayed.cons {ids : List String} {result : Replay} {reason : Option String}
    {unresolved : ℕ} (hframed : Framed eventId ledger after) (hnew : eventId ∉ ids)
    (h : Replayed now ids (recordAttempt now account eventId reason after) result) :
    Replayed now (eventId :: ids) ledger
      ⟨result.ledger, (eventId, ledger) :: result.attempts, unresolved, result.error⟩ where
  error := h.error
  attempts := by rw [List.map_cons, h.attempts]
  events := h.events.trans hframed.events
  conflicts := h.conflicts.trans hframed.conflicts
  decimalValuations := h.decimalValuations.trans hframed.decimalValuations
  valuations id hid := by
    obtain ⟨hne, hrest⟩ := List.ne_and_not_mem_of_not_mem_cons hid
    exact (h.valuations id hrest).trans (hframed.valuations id hne)
  stamped id hid := by
    rcases List.mem_cons.mp hid with rfl | hrest
    · exact (h.kept id hnew).trans ((lastAttempt_recordAttempt id).trans (if_pos rfl))
    · exact h.stamped id hrest
  kept id hid := by
    obtain ⟨hne, hrest⟩ := List.ne_and_not_mem_of_not_mem_cons hid
    refine (h.kept id hrest).trans ((lastAttempt_recordAttempt id).trans ?_)
    rw [if_neg (Ne.symm hne), lastAttempt, lastAttempt, hframed.work]

theorem replayed (hsha256 : ∀ text, digestPattern (sha256 text) = true) {ids : List String}
    (hnodup : ids.Nodup)
    (hids : ∀ id ∈ ids, ledger.valuations.find id = none ∧
      ∃ row, ledger.events.find id = some row ∧ StoredEvent row)
    (hsafe : ∀ attempt ∈ (replay sha256 now account ids ledger).attempts,
      AttemptConvertible sha256 now account attempt) :
    Replayed now ids ledger (replay sha256 now account ids ledger) := by
  induction ids generalizing ledger with
  | nil => exact ⟨rfl, rfl, rfl, rfl, rfl, fun _ _ => rfl, by simp, fun _ _ => rfl⟩
  | cons eventId rest ih =>
    obtain ⟨hnew, hrest⟩ := List.nodup_cons.mp hnodup
    obtain ⟨hnone, row, hfind, hstored⟩ := hids eventId List.mem_cons_self
    have hlater {after : Ledger} {reason : Option String} (hframed : Framed eventId ledger after)
        (hsafe : ∀ attempt ∈ (replay sha256 now account rest
          (recordAttempt now account eventId reason after)).attempts,
            AttemptConvertible sha256 now account attempt) :
        Replayed now rest (recordAttempt now account eventId reason after)
          (replay sha256 now account rest (recordAttempt now account eventId reason after)) := by
      refine ih hrest ?_ hsafe
      intro id hid
      obtain ⟨hunv, hevent⟩ := hids id (List.mem_cons_of_mem _ hid)
      have hne : id ≠ eventId := fun heq => hnew (heq ▸ hid)
      refine ⟨(hframed.valuations id hne).trans hunv, ?_⟩
      rwa [recordAttempt, hframed.events]
    rw [replay] at hsafe ⊢
    cases hatt : valueFxMoneyEvent sha256 now account eventId ledger with
    | ok result =>
      obtain ⟨proof, after⟩ := result
      have hframed := framed_valueFxMoneyEvent hatt
      simp only [hatt, List.forall_mem_cons] at hsafe ⊢
      exact .cons hframed hnew (hlater hframed hsafe.2)
    | error e =>
      have hfirst : AttemptConvertible sha256 now account (eventId, ledger) := by
        simp only [hatt] at hsafe
        split_ifs at hsafe
        · exact hsafe _ List.mem_cons_self
        · exact hsafe _ List.mem_cons_self
      have hid := Keyed.key_of_find hfind
      have hrecd : isFxError e = true :=
        records_valueFxMoneyEvent hsha256 hstored (hid.symm ▸ hfind) (hid.symm ▸ hnone)
          (fun currency hccy => hfirst row currency hfind hccy) e (hid.symm ▸ hatt)
      simp only [hatt, if_pos hrecd, List.forall_mem_cons] at hsafe ⊢
      exact .cons framed_refl hnew (hlater framed_refl hsafe.2)

theorem dueEvents_unvalued (h : eventId ∈ dueEvents account limit ledger) :
    ∃ row ∈ ledger.events.rows, unvalued account ledger row = true ∧ row.id = eventId :=
  mem_pending.mp (takes_dueEvents.subset (List.mem_toFinset.mpr h))

theorem valuations_of_unvalued (h : unvalued account ledger row = true) :
    ledger.valuations.find row.id = none := by
  simp only [unvalued, Bool.and_eq_true, Option.isNone_iff_eq_none] at h
  exact h.1.2

theorem Replayed.mem_pending {result : Replay}
    (h : Replayed now (dueEvents account limit ledger) ledger result)
    (hnot : eventId ∉ dueEvents account limit ledger) (hmem : eventId ∈ pending account ledger) :
    eventId ∈ pending account result.ledger := by
  rw [TradingFxValuation.mem_pending, h.events]
  obtain ⟨row, hrow, hunv, rfl⟩ := TradingFxValuation.mem_pending.mp hmem
  refine ⟨row, hrow, ?_, rfl⟩
  rw [unvalued, h.conflicts, h.decimalValuations, h.valuations _ hnot]
  exact hunv

theorem Replayed.pending_subset {result : Replay}
    (h : Replayed now (dueEvents account limit ledger) ledger result) :
    pending account result.ledger ⊆ pending account ledger := by
  intro id hid
  by_cases htried : id ∈ dueEvents account limit ledger
  · exact takes_dueEvents.subset (List.mem_toFinset.mpr htried)
  · obtain ⟨row, hrow, hunv, rfl⟩ := TradingFxValuation.mem_pending.mp hid
    refine TradingFxValuation.mem_pending.mpr ⟨row, h.events ▸ hrow, ?_, rfl⟩
    rw [unvalued, h.conflicts, h.decimalValuations, h.valuations _ htried] at hunv
    exact hunv

end Attempts

section Runs

/-- A call of the replay: the reading of the clock, and the tables that it meets. -/
structure Call where
  now : ℤ
  before : Ledger

variable (sha256 : String → String) (account : FxAccount) (limit : ℕ)

def Call.result (call : Call) : Replay :=
  valueFxAccountMoney sha256 call.now account limit call.before

def Call.attempted (call : Call) : List String :=
  (call.result sha256 account limit).attempts.map (·.1)

/-- Between two calls quotes, conversions and bindings may change, but not the queue. -/
structure SameQueue (ledger before : Ledger) : Prop where
  pending : pending account before = pending account ledger
  attempts : ∀ id ∈ TradingFxValuation.pending account ledger,
    lastAttempt before id = lastAttempt ledger id
  stored : ∀ row ∈ before.events.rows, StoredEvent row

inductive Calls : ℤ → Ledger → List Call → Prop
  | nil {clock : ℤ} {ledger : Ledger} : Calls clock ledger []
  | cons {clock : ℤ} {ledger : Ledger} {call : Call} {calls : List Call} (hnow : clock < call.now)
    (hqueue : SameQueue account ledger call.before)
    (hrest : Calls call.now (call.result sha256 account limit).ledger calls) :
    Calls clock ledger (call :: calls)

def after (ledger : Ledger) : List Call → Ledger
  | [] => ledger
  | call :: calls => after (call.result sha256 account limit).ledger calls

/-- The account is verified, and every conversion that the call gets to stays within the
decimals. -/
structure Call.Safe (call : Call) : Prop where
  verified : ∃ context, requireFxAccountContext call.now account call.before.fx = .ok context
  convertible : ∀ attempt ∈ (call.result sha256 account limit).attempts,
    AttemptConvertible sha256 call.now account attempt

variable {sha256 account limit} {call : Call} {calls earlier window : List Call} {clock : ℤ}
  {ledger : Ledger} {eventId : String}

theorem Call.Safe.replayed (hsha256 : ∀ text, digestPattern (sha256 text) = true)
    (hlimit : 1 ≤ limit ∧ limit ≤ 1000) (hsafe : call.Safe sha256 account limit)
    (hstored : ∀ row ∈ call.before.events.rows, StoredEvent row) :
    Replayed call.now (dueEvents account limit call.before) call.before
      (call.result sha256 account limit) := by
  obtain ⟨context, hctx⟩ := hsafe.verified
  have hres : call.result sha256 account limit =
      replay sha256 call.now account (dueEvents account limit call.before) call.before := by
    rw [Call.result, valueFxAccountMoney, if_neg (by omega), hctx, Int.toNat_natCast]
  have hcvt := hsafe.convertible
  rw [hres] at hcvt ⊢
  refine TradingFxValuation.replayed hsha256 nodup_dueEvents ?_ hcvt
  intro id hid
  obtain ⟨row, hrow, hunv, rfl⟩ := dueEvents_unvalued hid
  exact ⟨valuations_of_unvalued hunv, row, Keyed.find_eq_some.mpr ⟨hrow, rfl⟩, hstored row hrow⟩

theorem Calls.rounds (hsha256 : ∀ text, digestPattern (sha256 text) = true)
    (hlimit : 1 ≤ limit ∧ limit ≤ 1000) (h : Calls sha256 account limit clock ledger calls)
    (hsafe : ∀ call ∈ calls, call.Safe sha256 account limit) (k : String) :
    Rounds limit k clock (pending account ledger) (lastAttempt ledger)
      (calls.map (fun call => (call.attempted sha256 account limit).toFinset)) := by
  induction h with
  | nil => exact .nil
  | @cons clock ledger call calls hnow hqueue hrest ih =>
    obtain ⟨hfirst, hlater⟩ := List.forall_mem_cons.mp hsafe
    have hrepl := hfirst.replayed hsha256 hlimit hqueue.stored
    have htaken : (call.attempted sha256 account limit).toFinset =
        (dueEvents account limit call.before).toFinset := by
      rw [Call.attempted, hrepl.attempts]
    have hmem {id : String} : id ∈ (call.attempted sha256 account limit).toFinset ↔
        id ∈ dueEvents account limit call.before := by
      rw [htaken, List.mem_toFinset]
    have hsub := hrepl.pending_subset
    rw [hqueue.pending] at hsub
    rw [List.map_cons]
    refine .cons ?_ ?_ hnow.le ?_ hsub ?_ (ih hlater)
    · have htakes := @takes_dueEvents account call.before limit
      rw [hqueue.pending, ← htaken] at htakes
      exact htakes.congr hqueue.attempts
    · intro id _ hid
      rw [hrepl.stamped id (hmem.mp hid)]
      exact hnow
    · intro id hid hnot
      rw [hrepl.kept id (fun htried => hnot (hmem.mpr htried)), hqueue.attempts id (hsub hid)]
    · intro hk hnot
      rw [← hqueue.pending] at hk
      exact hrepl.mem_pending (fun htried => hnot (hmem.mpr htried)) hk

/-- After safe calls the queue holds events of the old queue, last tried before the clock. -/
theorem Calls.after (hsha256 : ∀ text, digestPattern (sha256 text) = true)
    (hlimit : 1 ≤ limit ∧ limit ≤ 1000)
    (h : Calls sha256 account limit clock ledger (earlier ++ window))
    (hsafe : ∀ call ∈ earlier ++ window, call.Safe sha256 account limit)
    (hclock : ∀ id ∈ pending account ledger, lastAttempt ledger id ≤ clock) :
    ∃ later, Calls sha256 account limit later (after sha256 account limit ledger earlier) window ∧
      pending account (after sha256 account limit ledger earlier) ⊆ pending account ledger ∧
      ∀ id ∈ pending account (after sha256 account limit ledger earlier),
        lastAttempt (after sha256 account limit ledger earlier) id ≤ later := by
  induction earlier generalizing clock ledger with
  | nil => exact ⟨clock, h, Finset.Subset.refl _, hclock⟩
  | cons call earlier ih =>
    cases h with
    | cons hnow hqueue hrest =>
      obtain ⟨hfirst, hlater⟩ := List.forall_mem_cons.mp hsafe
      have hrepl := hfirst.replayed hsha256 hlimit hqueue.stored
      have hsub := hrepl.pending_subset
      have hstamped : ∀ id ∈ pending account (call.result sha256 account limit).ledger,
          lastAttempt (call.result sha256 account limit).ledger id ≤ call.now := by
        intro id hid
        by_cases htried : id ∈ dueEvents account limit call.before
        · exact (hrepl.stamped id htried).le
        · have hold := hsub hid
          rw [hqueue.pending] at hold
          rw [hrepl.kept id htried, hqueue.attempts id hold]
          exact (hclock id hold).trans hnow.le
      obtain ⟨later, hcalls, hpend, hlast⟩ := ih hrest hlater hstamped
      rw [hqueue.pending] at hsub
      exact ⟨later, hcalls, hpend.trans hsub, hlast⟩

/-- In any run of calls whose conversions stay within the decimals, every event that waits at the
start of a window is tried within it, once the window has a place for every event that waited at the
start of the run. -/
theorem every_event_attempted (hsha256 : ∀ text, digestPattern (sha256 text) = true)
    (hlimit : 1 ≤ limit ∧ limit ≤ 1000)
    (h : Calls sha256 account limit clock ledger (earlier ++ window))
    (hsafe : ∀ call ∈ earlier ++ window, call.Safe sha256 account limit)
    (hclock : ∀ id ∈ pending account ledger, lastAttempt ledger id ≤ clock)
    (hevent : eventId ∈ pending account (after sha256 account limit ledger earlier))
    (hlength : (pending account ledger).card ≤ window.length * limit) :
    ∃ call ∈ window, eventId ∈ call.attempted sha256 account limit := by
  obtain ⟨later, hcalls, hpend, hlast⟩ := h.after hsha256 hlimit hsafe hclock
  have hrounds := hcalls.rounds hsha256 hlimit
    (fun call hcall => hsafe call (List.mem_append_right earlier hcall)) eventId
  have hcard := (Finset.card_le_card hpend).trans hlength
  rw [← List.length_map (fun call : Call => (call.attempted sha256 account limit).toFinset)]
    at hcard
  obtain ⟨taken, htaken, hmem⟩ := hrounds.exists_taken hevent (hlast eventId hevent) hcard
  obtain ⟨call, hcall, rfl⟩ := List.mem_map.mp htaken
  exact ⟨call, hcall, List.mem_toFinset.mp hmem⟩

end Runs

section Coin

variable {amount : String} {ledger : Ledger} {now : ℤ}

def vastAmount : String := "600000000000000000000000000000000000"

def coinEvent (id amount : String) : OriginalEvent where
  id
  accountId := "account"
  accountFingerprint := hex64
  occurredAt := 1000
  amount
  asset := some "USDC"
  content := [("accountId", .string "account"), ("accountFingerprint", .string hex64),
    ("amount", .string amount), ("asset", .string "USDC"), ("occurredAt", .number 1000)]

def coinBinding : MoneyBindingRow :=
  ⟨"account", hex64, "USD", [("accountId", .string "account"),
    ("accountFingerprint", .string hex64), ("profile", .string "bybit"),
    ("reportingCurrency", .string "USD"), ("source", .string "bybit-wallet-balance-v1")]⟩

def firstEvent : String := "1111111111111111111111111111111111111111111111111111111111111111"

def secondEvent : String := "2222222222222222222222222222222222222222222222222222222222222222"

/-- Two events that wait, of which the first has the given amount. -/
def coinLedger (amount : String) : Ledger where
  fx := coinQuote.captured
  events := ⟨[coinEvent firstEvent amount, coinEvent secondEvent "-1"],
    show [firstEvent, secondEvent].Nodup by decide⟩
  bindings := ⟨[coinBinding], List.nodup_singleton _⟩
  conflicts := []
  decimalValuations := []
  valuations := .empty
  work := .empty

theorem parseOriginal_coin (id amount : String) :
    parseOriginal (coinEvent id amount) = .ok (coinEvent id amount).content := by
  simp [parseOriginal, coinEvent, TradingFx.textField, TradingFx.numberField, hasText,
    Json.lookup, Json.text?, Json.number?, throwIf, pure, Except.pure]

theorem originalEvent_coin {id : String} (h : ledger.events.find id = some (coinEvent id amount)) :
    originalEvent id ledger = .ok (coinEvent id amount) := by
  rw [originalEvent, h]
  simp only [parseOriginal_coin]
  rfl

theorem reportingBinding_coin {id : String} (hnow : 0 ≤ now)
    (haccs : ledger.fx.accounts = fxStart.db.accounts)
    (hbind : ledger.bindings.find ("account", hex64) = some coinBinding) :
    reportingBinding now fxAccount (coinEvent id amount) ledger =
      if amount = "0" then .error (invalidFx "MONEY_PAIR_UNSUPPORTED") else .ok "USD" := by
  have hctx : requireFxAccountContext now fxAccount ledger.fx = .ok usdcContext :=
    requireFxAccountContext_fxAccount hnow haccs
  have hfind : ledger.bindings.find (fxAccount.id, (coinEvent id amount).accountFingerprint) =
      some coinBinding := hbind
  rw [reportingBinding, hctx, ok_bind, throwIf_of_not (by simp [coinEvent, fxAccount]), ok_bind,
    hfind]
  by_cases h : amount = "0" <;>
    simp [checkedBinding, coinBinding, coinEvent, fxAccount, TradingFx.textField, Json.lookup,
      Json.text?, stableAssets, throwIf, pure, Except.pure, h]

/-- The price of the dollar coin takes the first amount beyond the decimals. -/
def coinError : Thrown := invalidDecimal "1200000000000000000000000000000000000.000000000000000000"

theorem attempt_vast : valueFxMoneyEvent quotedSha256 20000 fxAccount firstEvent
    (coinLedger vastAmount) = .error coinError := by
  have hfind : (coinLedger vastAmount).events.find firstEvent =
      some (coinEvent firstEvent vastAmount) := by rfl
  have hnone : (coinLedger vastAmount).valuations.find firstEvent = none := by rfl
  have hunconf : assertUnconflicted firstEvent (coinLedger vastAmount) = .ok () := by rfl
  have hasset : presentAsset (coinEvent firstEvent vastAmount) = .ok "USDC" := by rfl
  have hshort : Short (.object (coinEvent firstEvent vastAmount).content) := by decide +kernel
  have hconverted : convertedAmount vastAmount ⟨"2", "1"⟩ = .error coinError := by decide +kernel
  have hvaln : valuation quotedSha256 (coinEvent firstEvent vastAmount) coinQuote.storedId "USD"
      ⟨"2", "1"⟩ = .error coinError := by
    rw [valuation, parseOriginal_coin, ok_bind, hshort.digest, ok_bind]
    exact congrArg (fun x => x >>= _) hconverted
  have hpers := CoinQuote.persistFxConversion_eq (@converts_coinQuote (fun _ => hex64))
  rw [valueFxMoneyEvent, originalEvent_coin hfind, ok_bind,
    reportingBinding_coin (by omega) rfl rfl, if_neg (by decide), ok_bind]
  simp only [hnone]
  rw [valueUnvalued]
  exact (bind_of_ok hunconf _).trans ((bind_of_ok hasset _).trans
    ((bind_of_ok hpers _).trans (congrArg (fun x => x >>= _) hvaln)))

theorem stored_coinLedger (h : signedDecimal amount = .ok amount) :
    ∀ row ∈ (coinLedger amount).events.rows, StoredEvent row := by
  have hacc : utf16Length "account" ≤ 256 := by decide
  have hevent : ∀ {id amount : String}, digestPattern id = true →
      signedDecimal amount = .ok amount → StoredEvent (coinEvent id amount) :=
    fun hid hamount => ⟨hid, hacc, hamount⟩
  intro row hrow
  rcases List.mem_cons.mp hrow with rfl | hrow
  · exact hevent (by decide) h
  · rw [List.mem_singleton.mp hrow]
    exact hevent (by decide) (by rfl)

theorem dueEvents_coin :
    dueEvents fxAccount 2 (coinLedger vastAmount) = [firstEvent, secondEvent] := by
  rfl

theorem pending_coin : pending fxAccount (coinLedger vastAmount) = {firstEvent, secondEvent} := by
  rfl

theorem replay_vast (rest : List String) :
    replay quotedSha256 20000 fxAccount (firstEvent :: rest) (coinLedger vastAmount) =
      ⟨coinLedger vastAmount, [(firstEvent, coinLedger vastAmount)], 0, some coinError⟩ := by
  have herror : isFxError coinError = false := by decide
  rw [replay, attempt_vast]
  exact if_neg (by rw [herror]; exact Bool.false_ne_true)

theorem result_vast : (Call.mk 20000 (coinLedger vastAmount)).result quotedSha256 fxAccount 2 =
    ⟨coinLedger vastAmount, [(firstEvent, coinLedger vastAmount)], 0, some coinError⟩ := by
  have hctx : requireFxAccountContext 20000 fxAccount (coinLedger vastAmount).fx =
      .ok usdcContext := requireFxAccountContext_fxAccount (by omega) rfl
  have hlimit : ((2 : ℕ) : ℤ).toNat = 2 := rfl
  rw [Call.result, valueFxAccountMoney, if_neg (by omega), hctx, hlimit, dueEvents_coin]
  exact replay_vast _

/-- Two events wait and the call may take both, but it ends at the first one and leaves the tables
as they were. -/
theorem second_event_starved :
    Calls quotedSha256 fxAccount 2 0 (coinLedger vastAmount) [⟨20000, coinLedger vastAmount⟩] ∧
      (pending fxAccount (coinLedger vastAmount)).card ≤
        [Call.mk 20000 (coinLedger vastAmount)].length * 2 ∧
      secondEvent ∈ pending fxAccount (coinLedger vastAmount) ∧
      (∀ call ∈ [Call.mk 20000 (coinLedger vastAmount)],
        secondEvent ∉ call.attempted quotedSha256 fxAccount 2) ∧
      ((Call.mk 20000 (coinLedger vastAmount)).result quotedSha256 fxAccount 2).ledger =
        coinLedger vastAmount := by
  have hqueue : SameQueue fxAccount (coinLedger vastAmount) (coinLedger vastAmount) :=
    ⟨rfl, fun _ _ => rfl, stored_coinLedger (by rfl)⟩
  have hne : secondEvent ≠ firstEvent := by decide
  refine ⟨.cons (by norm_num) hqueue .nil, ?_, ?_, ?_, ?_⟩
  · rw [pending_coin]
    exact Finset.card_le_two
  · rw [pending_coin, Finset.mem_insert, Finset.mem_singleton]
    exact .inr rfl
  · intro call hcall
    rw [List.mem_singleton.mp hcall, Call.attempted, result_vast]
    exact fun hmem => hne (List.mem_singleton.mp hmem)
  · rw [result_vast]

/-- The tables after a call that could not value the first event. -/
def retriedLedger : Ledger :=
  recordAttempt 19999 fxAccount firstEvent (some "FX_MONEY_PAIR_UNSUPPORTED") (coinLedger "0")

theorem attempts_single {sha256 : String → String} {account : FxAccount} {eventId : String} :
    (replay sha256 now account [eventId] ledger).attempts = [(eventId, ledger)] := by
  rw [replay]
  split
  · rfl
  · split_ifs <;> rfl

theorem result_single {call : Call} {eventId : String} (hnow : 0 ≤ call.now)
    (haccs : call.before.fx.accounts = fxStart.db.accounts)
    (hdue : dueEvents fxAccount 1 call.before = [eventId]) :
    call.result quotedSha256 fxAccount 1 =
      replay quotedSha256 call.now fxAccount [eventId] call.before := by
  have hctx : requireFxAccountContext call.now fxAccount call.before.fx = .ok usdcContext :=
    requireFxAccountContext_fxAccount hnow haccs
  rw [Call.result, valueFxAccountMoney, if_neg (by omega), hctx]
  simp only [Int.toNat_natCast, hdue]

theorem safe_single {call : Call} {id amount : String} (hnow : 0 ≤ call.now)
    (haccs : call.before.fx.accounts = fxStart.db.accounts)
    (hdue : dueEvents fxAccount 1 call.before = [id])
    (hfind : call.before.events.find id = some (coinEvent id amount))
    (hconvertible : ∀ currency,
      reportingBinding call.now fxAccount (coinEvent id amount) call.before = .ok currency →
        Convertible quotedSha256 call.now fxAccount (coinEvent id amount) currency call.before) :
    Call.Safe quotedSha256 fxAccount 1 call where
  verified := ⟨usdcContext, requireFxAccountContext_fxAccount hnow haccs⟩
  convertible := by
    intro attempt hatt row currency hrow hccy
    rw [result_single hnow haccs hdue, attempts_single, List.mem_singleton] at hatt
    subst hatt
    obtain rfl := Option.some.inj (hfind.symm.trans hrow)
    exact hconvertible currency hccy

theorem result_refused : (Call.mk 19999 (coinLedger "0")).result quotedSha256 fxAccount 1 =
    ⟨retriedLedger, [(firstEvent, coinLedger "0")], 1, none⟩ := by
  have hatt : valueFxMoneyEvent quotedSha256 19999 fxAccount firstEvent (coinLedger "0") =
      .error (invalidFx "MONEY_PAIR_UNSUPPORTED") := by
    have hfind : (coinLedger "0").events.find firstEvent = some (coinEvent firstEvent "0") := by
      rfl
    rw [valueFxMoneyEvent, originalEvent_coin hfind, ok_bind,
      reportingBinding_coin (by omega) rfl rfl, if_pos rfl]
    rfl
  have hfx : isFxError (invalidFx "MONEY_PAIR_UNSUPPORTED") = true := by decide
  have hsingle : (Call.mk 19999 (coinLedger "0")).result quotedSha256 fxAccount 1 =
      replay quotedSha256 19999 fxAccount [firstEvent] (coinLedger "0") :=
    result_single (by decide) rfl (by rfl)
  rw [hsingle, replay, hatt]
  simp only [hfx, if_true]
  rfl

theorem safe_refused : Call.Safe quotedSha256 fxAccount 1 ⟨19999, coinLedger "0"⟩ := by
  refine @safe_single _ firstEvent "0" (by decide) rfl (by rfl) (by rfl) ?_
  intro currency hccy
  rw [reportingBinding_coin (by decide) rfl rfl, if_pos rfl] at hccy
  cases hccy

theorem safe_retried : Call.Safe quotedSha256 fxAccount 1 ⟨20000, retriedLedger⟩ := by
  refine @safe_single _ secondEvent "-1" (by decide) rfl (by rfl) (by rfl) ?_
  intro currency hccy
  rw [reportingBinding_coin (by decide) rfl rfl, if_neg (by decide)] at hccy
  obtain rfl := Except.ok.inj hccy
  intro stored fx hpers q hq
  have heq := CoinQuote.persistFxConversion_eq (@converts_coinQuote (fun _ => hex64))
  obtain ⟨rfl, rfl⟩ := Prod.mk.inj (Except.ok.inj (heq.symm.trans hpers))
  have htwo : coinQuote.evidence.rate = rationalText 2 := by rfl
  rw [htwo] at hq
  obtain ⟨rfl, -⟩ := represents_rationalText_iff.mp hq
  have hamount : decimalValue (coinEvent secondEvent "-1").amount = -1 := by decide +kernel
  rw [WithinDecimals, hamount, unitLimit]
  norm_num

/-- Two events wait and a call takes one: the first cannot be valued, the second is next. -/
theorem every_event_attempted_twice :
    ((Call.mk 19999 (coinLedger "0")).result quotedSha256 fxAccount 1).unresolved = 1 ∧
      ∀ eventId ∈ [firstEvent, secondEvent],
        ∃ call ∈ [Call.mk 19999 (coinLedger "0"), ⟨20000, retriedLedger⟩],
          eventId ∈ call.attempted quotedSha256 fxAccount 1 := by
  have hpend : pending fxAccount (coinLedger "0") = {firstEvent, secondEvent} := by rfl
  have hqueue : SameQueue fxAccount (coinLedger "0") (coinLedger "0") :=
    ⟨rfl, fun _ _ => rfl, stored_coinLedger (by rfl)⟩
  have hlater : SameQueue fxAccount ((Call.mk 19999 (coinLedger "0")).result quotedSha256
      fxAccount 1).ledger retriedLedger := by
    rw [result_refused]
    exact ⟨rfl, fun _ _ => rfl, stored_coinLedger (by rfl)⟩
  refine ⟨by rw [result_refused], ?_⟩
  intro eventId hevent
  refine @every_event_attempted quotedSha256 fxAccount 1 []
    [⟨19999, coinLedger "0"⟩, ⟨20000, retriedLedger⟩] 0 (coinLedger "0") eventId
    digestPattern_quoted ⟨le_refl 1, by decide⟩ (.cons (by decide) hqueue
      (.cons (by decide) hlater .nil)) ?_ ?_ ?_ ?_
  · intro call hcall
    simp only [List.nil_append, List.mem_cons, List.not_mem_nil, or_false] at hcall
    rcases hcall with rfl | rfl
    · exact safe_refused
    · exact safe_retried
  · rw [hpend]
    decide
  · rw [after, hpend]
    simpa using hevent
  · rw [hpend]
    decide

end Coin

end TsxCore.TradingFxValuation
