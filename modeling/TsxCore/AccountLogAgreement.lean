import TsxCore.AccountLogCheckpoint

/-!
# The executor's account-log progress is accepted by Node

One read either fails before or after its call, which keeps every window of the
checkpoint, or returns one page of the forward or the audit lane. In each case the
progress passes Node's validation and continues the checkpoint, and the returned
checkpoint passes the executor's own validation again.
-/

namespace TsxCore.AccountLogReader

open Outcome AccountLog
open ExchangeHistory (hasControl)
open TradingRecoveryScheduleContract (digestPattern)

section Pages

variable {row : List (String × Document)} {record : AccountLogRecord}
  {records : List AccountLogRecord} {field : String} {number : ℤ}

def ShortText (text : String) : Prop := Printable text ∧ text.toList.length ≤ 1000

def SoundRecord (spec : SourceSpec) (record : AccountLogRecord) : Prop :=
  ∀ entry ∈ record, entry.1 ∈ spec.fields ∧
    ∀ text, entry.2 = some text → Printable text ∧ text.toList.length ≤ 256

/-- What a page owes to the pinned checkpoint it was read for. -/
structure SoundPage (spec : SourceSpec) (pinned : AccountLogCheckpoint) (page : Page) : Prop where
  length : page.records.length ≤ 5000
  records : ∀ record ∈ page.records, SoundRecord spec record
  cursor : CursorOf page.cursor
  finished : page.exhausted = true → page.cursor = none
  providerAt : ∀ time, page.providerAt = some time → IsTime time
  account : spec.exchange = "krakenfutures" → ∃ uid, page.extra = some uid ∧ Token 256 uid ∧
    (pinned.providerAccountUid = none ∨ pinned.providerAccountUid = some uid)
  reason : spec.exchange ≠ "krakenfutures" →
    page.extra = none ∨ page.extra = some "timestamp_saturated"

variable {str : Document → String} {isoTime : String → Option ℤ}
variable {spec : SourceSpec} {pinned : AccountLogCheckpoint} {page : Page} {value : Document}

theorem economicText_ok {text : Option String} (hvalue : value.Texts ShortText)
    (h : economicText value = .ok text) :
    ∀ content, text = some content → Printable content ∧ content.toList.length ≤ 256 := by
  intro content hcontn
  unfold economicText at h
  split at h
  · simp only [Except.ok.injEq] at h
    rw [← h] at hcontn
    exact absurd hcontn (by simp)
  all_goals
    try simp only [bind_eq_ok, throwIf_eq_ok, exists_const, pure_eq_ok_iff, not_or, not_lt,
      reduceCtorEq] at h
  all_goals
    obtain ⟨⟨hlen, -⟩, rfl⟩ := h
    rw [Option.some.injEq] at hcontn
    subst hcontn
    refine ⟨?_, hlen⟩
  · exact hvalue.1
  · exact printable_bigintText _
  · exact printable_fixed _

theorem economicFields_ok (hrow : Json.TextsMembers ShortText row)
    (h : economicFields spec.fields row = .ok record) : SoundRecord spec record := by
  intro entry hentry
  obtain ⟨source, hsrc, hok⟩ := exists_of_mem_mapM h hentry
  obtain ⟨field, hfield, hlook⟩ := List.mem_filterMap.mp hsrc
  obtain ⟨value, hvalue, rfl⟩ := Option.map_eq_some_iff.mp hlook
  simp only [bind_eq_ok, pure_eq_ok_iff] at hok
  obtain ⟨text, htext, rfl⟩ := hok
  exact ⟨hfield, economicText_ok (hrow.lookup hvalue) htext⟩

theorem economicRecord_ok (hrow : Json.TextsMembers ShortText row)
    (h : economicRecord str spec row = .ok record) :
    SoundRecord spec record ∨
      (spec.exchange = "hyperliquid" ∧ record.find? (·.1 = "time") = none) := by
  unfold economicRecord at h
  split_ifs at h with hexch
  · split at h
    · rename_i delta hdelta
      refine .inl (economicFields_ok ?_ h)
      have hmems := hrow.lookup hdelta
      rw [List.cons_append, List.cons_append, List.nil_append]
      exact ⟨hrow.getD, hrow.getD, hmems⟩
    · simp only [Except.ok.injEq] at h
      rw [← h]
      exact .inr ⟨hexch, by simp⟩
  · exact .inl (economicFields_ok hrow h)

theorem economicRecords_ok {maximum : ℕ} {rows : Document} (hrows : rows.Texts ShortText)
    (h : economicRecords str spec maximum rows = .ok records) :
    records.length ≤ maximum ∧ ∀ record ∈ records, SoundRecord spec record ∨
      (spec.exchange = "hyperliquid" ∧ record.find? (·.1 = "time") = none) := by
  cases rows with
  | array items =>
    simp only [economicRecords, bind_eq_ok, throwIf_eq_ok, exists_const, not_lt] at h
    obtain ⟨hlen, members, hmems, hrecords⟩ := h
    have hcount : records.length = items.length :=
      (mapM_eq_ok.mp hrecords).length_eq.symm.trans (mapM_eq_ok.mp hmems).length_eq.symm
    refine ⟨hcount ▸ hlen, ?_⟩
    intro record hrecord
    obtain ⟨row, hrow, hok⟩ := exists_of_mem_mapM hrecords hrecord
    obtain ⟨item, hitem, hmemb⟩ := exists_of_mem_mapM hmems hrow
    have htexts := Json.textsItems_iff.mp hrows item hitem
    cases item with
    | object content =>
      simp only [rowMembers, Except.ok.injEq] at hmemb
      subst hmemb
      exact economicRecord_ok htexts hok
    | _ => simp [rowMembers] at hmemb
  | _ => simp [economicRecords] at h

theorem recordInt_lt (hrecord : SoundRecord spec record) (h : recordInt field record = .ok number) :
    number.natAbs < 10 ^ 256 := by
  unfold recordInt at h
  split at h
  · exact absurd h (by simp)
  · rename_i value hvalue
    simp only [Except.ok.injEq] at h
    subst h
    obtain ⟨text, htext, hnumb⟩ := Option.bind_eq_some_iff.mp hvalue
    obtain ⟨entry, hentry, hcontn⟩ := Option.bind_eq_some_iff.mp htext
    have hshort := (hrecord entry (List.mem_of_find?_eq_some hentry)).2 text hcontn
    exact (pythonInt_lt hnumb).trans_le (Nat.pow_le_pow_right (by omega) hshort.2)

theorem recordInt_find (h : recordInt field record = .ok number) :
    record.find? (·.1 = field) ≠ none := by
  intro hnone
  simp [recordInt, hnone] at h

structure SoundDocument (document : Document) : Prop where
  texts : document.Texts ShortText
  account : ∀ members uid, document = .object members →
    Json.lookup "accountUid" members = some (.string uid) → uid.toList.length ≤ 256
  time : ∀ members time, document = .object members → intMember? "time" members = some time →
    IsTime time

theorem bybitPage_ok (hdoc : SoundDocument value) (h : bybitPage str pinned value = .ok page) :
    SoundPage bybitSpec pinned page := by
  cases value with
  | object response =>
    simp only [bybitPage, envelope, ok_bind, bind_eq_ok, throwIf_eq_ok, exists_const,
      pure_eq_ok_iff] at h
    obtain ⟨-, result, hres, cursor, hcurs, records, hrecords, rfl⟩ := h
    have hmems : Json.TextsMembers ShortText response := hdoc.texts
    have htexts : Json.TextsMembers ShortText result := by
      have hvalue : ((Json.lookup "result" response).getD .null).Texts ShortText := hmems.getD
      unfold member at hres
      split at hres
      · rename_i members hobject
        simp only [Except.ok.injEq] at hres
        rw [hobject, hres] at hvalue
        exact hvalue
      · exact absurd hres (by simp)
    obtain ⟨hlen, hsound⟩ := economicRecords_ok htexts.getD hrecords
    refine ⟨by simp only; omega, ?_, ?_, ?_, ?_, ?_, fun _ => .inl rfl⟩
    · intro record hrecord
      rcases hsound record hrecord with hgood | ⟨hexch, -⟩
      · exact hgood
      · exact absurd hexch (by decide)
    · intro text htext
      have hvalue : ((Json.lookup "nextPageCursor" result).getD .null).Texts ShortText :=
        htexts.getD
      unfold bybitCursor member at hcurs
      split at hcurs
      · rename_i content hstring
        simp only [bind_eq_ok, throwIf_eq_ok, exists_const, pure_eq_ok_iff] at hcurs
        obtain ⟨-, rfl⟩ := hcurs
        rw [hstring] at hvalue
        simp only [Option.ite_none_left_eq_some, Option.some.injEq] at htext
        obtain ⟨hne, rfl⟩ := htext
        exact ⟨hne, hvalue.1, hvalue.2⟩
      · exact absurd hcurs (by simp)
    · intro hfin
      simp only [decide_eq_true_eq] at hfin
      simp [hfin]
    · exact fun time htime => hdoc.time response time rfl htime
    · exact fun hexch => absurd hexch (by decide)
  | _ => simp [bybitPage, envelope] at h

theorem recordInts_ok {numbers : List ℤ} (hrecords : ∀ record ∈ records, SoundRecord spec record)
    (h : records.mapM (recordInt field) = .ok numbers) :
    ∀ number ∈ numbers, number.natAbs < 10 ^ 256 := by
  intro number hnumb
  obtain ⟨record, hrecord, hok⟩ := exists_of_mem_mapM h hnumb
  exact recordInt_lt (hrecords record hrecord) hok

theorem cursor_of_short {width : ℕ} (hpos : 0 < width) (hwidth : width < 999)
    (h : number.natAbs < 10 ^ width) :
    Cursor (bigintText number) ∧ Cursor (bigintText (number + 1)) := by
  have hnext : (number + 1).natAbs < 10 ^ (width + 1) := by
    calc
      (number + 1).natAbs ≤ number.natAbs + 1 := Int.natAbs_add_le number 1
      _ ≤ 10 ^ width := h
      _ < 10 ^ (width + 1) := Nat.pow_lt_pow_succ (by omega)
  exact ⟨cursor_bigintText hpos hwidth.le h, cursor_bigintText (by omega) hwidth hnext⟩

theorem hyperliquidPage_ok {until_ start : ℤ} (hvalue : value.Texts ShortText)
    (hcurs : CursorOf pinned.cursor)
    (h : hyperliquidPage str pinned until_ start value = .ok page) :
    SoundPage hyperliquidSpec pinned page := by
  simp only [hyperliquidPage, bind_eq_ok, throwIf_eq_ok, exists_const] at h
  obtain ⟨records, hrecords, times, htimes, -, hpage⟩ := h
  obtain ⟨hlen, hsound⟩ := economicRecords_ok hvalue hrecords
  have hgood : ∀ record ∈ records, SoundRecord hyperliquidSpec record := by
    intro record hrecord
    rcases hsound record hrecord with hgood | ⟨-, hnone⟩
    · exact hgood
    · obtain ⟨time, -, htime⟩ := result_of_mem_mapM htimes hrecord
      exact absurd hnone (recordInt_find htime)
  have hshort := recordInts_ok hgood htimes
  have hpageOf : ∀ {cursor : Option String} {exhausted : Bool} {extra : Option String},
      CursorOf cursor → (exhausted = true → cursor = none) →
      (extra = none ∨ extra = some "timestamp_saturated") →
        SoundPage hyperliquidSpec pinned ⟨records, cursor, exhausted, none, extra⟩ := by
    intro cursor exhausted extra hnext hfin hrsn
    exact ⟨hlen, hgood, hnext, hfin, by simp, fun hexch => absurd hexch (by decide),
      fun _ => hrsn⟩
  split at hpage
  · simp only [pure_eq_ok_iff] at hpage
    rw [← hpage]
    exact hpageOf (by simp [CursorOf]) (fun _ => rfl) (.inl rfl)
  · rename_i last hlast
    have hcursors := cursor_of_short (by omega) (by omega)
      (hshort last (List.mem_of_getLast? hlast))
    split_ifs at hpage with hadv hsaturated hend
    all_goals
      simp only [pure_eq_ok_iff] at hpage
      rw [← hpage]
    · refine hpageOf ?_ (by simp) (.inl rfl)
      intro text htext
      rw [Option.some.injEq] at htext
      exact htext ▸ hcursors.1
    · exact hpageOf hcurs (by simp) (.inr rfl)
    · exact hpageOf (by simp [CursorOf]) (fun _ => rfl) (.inl rfl)
    · refine hpageOf ?_ (by simp [hend]) (.inl rfl)
      intro text htext
      rw [Option.some.injEq] at htext
      exact htext ▸ hcursors.2

theorem krakenPage_ok {until_ start : ℤ} (hdoc : SoundDocument value)
    (h : krakenPage str isoTime pinned until_ start value = .ok page) :
    SoundPage krakenSpec pinned page := by
  cases value with
  | object response =>
    simp only [krakenPage, bind_eq_ok, throwIf_eq_ok, exists_const, pure_eq_ok_iff] at h
    obtain ⟨uid, hacc, records, hrecords, ids, hids, -, _, -, rfl⟩ := h
    have hmems : Json.TextsMembers ShortText response := hdoc.texts
    obtain ⟨hlen, hsound⟩ := economicRecords_ok hmems.getD hrecords
    have hgood : ∀ record ∈ records, SoundRecord krakenSpec record := by
      intro record hrecord
      rcases hsound record hrecord with hgood | ⟨hexch, -⟩
      · exact hgood
      · exact absurd hexch (by decide)
    have hshort := recordInts_ok hgood hids
    refine ⟨by simp only; omega, hgood, ?_, ?_, by simp, ?_, fun hexch => absurd rfl hexch⟩
    · intro text htext
      obtain ⟨last, hlast, rfl⟩ := Option.map_eq_some_iff.mp htext
      exact (cursor_of_short (by omega) (by omega) (hshort last (List.mem_of_getLast? hlast))).2
    · intro hfin
      simp only [decide_eq_true_eq] at hfin
      subst hfin
      simp only [List.mapM_nil, pure_eq_ok_iff] at hids
      simp [← hids]
    · intro _
      unfold krakenAccount member at hacc
      cases hlook : Json.lookup "accountUid" response with
      | none => simp [hlook] at hacc
      | some account =>
        cases account with
        | string content =>
          simp only [hlook, Option.getD_some, bind_eq_ok, throwIf_eq_ok, exists_const,
            pure_eq_ok_iff, not_or, not_and_or, not_not] at hacc
          obtain ⟨⟨hne, hsame⟩, rfl⟩ := hacc
          have htext := hmems.lookup hlook
          refine ⟨content, rfl, ⟨hne, ?_, hasControl_printable htext.1⟩, hsame⟩
          rw [utf16Length_printable htext.1]
          exact hdoc.account response content rfl hlook
        | _ => simp [hlook] at hacc
  | _ => simp [krakenPage] at h

end Pages

section Reads

variable {digest : List Char → String} {str : Document → String} {isoTime : String → Option ℤ}
variable {retained : ℤ → Option ℤ} {exchange : String} {spec : SourceSpec}
variable {row pinned : AccountLogCheckpoint} {world : World} {budget after : Budget}
variable {until_ started : ℤ} {result : Except Failure Page}

/-- One page function makes at most one call, and one call for a page. -/
structure OneCall (budget after : Budget) (success : Prop) : Prop where
  resumeAt : after.resumeAt = budget.resumeAt
  calls : after.calls = budget.calls ∨ after.calls = budget.calls + 1
  success : success → after.calls = budget.calls + 1

theorem refused_spec {failure : Failure} (h : (.error failure, budget) = (result, after)) :
    OneCall budget after (∃ page, result = .ok page) ∧ ∀ page, result ≠ .ok page := by
  obtain ⟨rfl, rfl⟩ := Prod.mk.injEq .. ▸ h
  exact ⟨⟨rfl, .inl rfl, by simp⟩, by simp⟩

theorem called_spec {read : Document → Except Failure Page} {now : ℤ} {deadlineOpen : Bool}
    {answer : Except Failure Document} {P : Page → Prop}
    (hread : ∀ document page, answer = .ok document → read document = .ok page → P page)
    (h : ((budget.call now deadlineOpen answer).1 >>= read,
      (budget.call now deadlineOpen answer).2) = (result, after)) :
    OneCall budget after (∃ page, result = .ok page) ∧ ∀ page, result = .ok page → P page := by
  unfold Budget.call at h
  split_ifs at h
  · rw [error_bind] at h
    obtain ⟨hcall, hnone⟩ := refused_spec h
    exact ⟨hcall, fun page hpage => absurd hpage (hnone page)⟩
  · obtain ⟨rfl, rfl⟩ := Prod.mk.injEq .. ▸ h
    refine ⟨⟨rfl, .inr rfl, fun _ => rfl⟩, ?_⟩
    intro page hpage
    obtain ⟨document, hdoc, hok⟩ := bind_eq_ok.mp hpage
    exact hread document page hdoc hok

theorem sourcePage_spec (hspec : sourceSpec exchange = some spec)
    (hanswer : ∀ document, world.answer = .ok document → SoundDocument document)
    (h : sourcePage str isoTime retained exchange pinned until_ started world budget =
      (result, after)) (hcurs : CursorOf pinned.cursor) :
    OneCall budget after (∃ page, result = .ok page) ∧
      ∀ page, result = .ok page → SoundPage spec pinned page := by
  have hrefd : ∀ {failure : Failure}, (.error failure, budget) = (result, after) →
      OneCall budget after (∃ page, result = .ok page) ∧
        ∀ page, result = .ok page → SoundPage spec pinned page := by
    intro failure hfailure
    obtain ⟨hcall, hnone⟩ := refused_spec hfailure
    exact ⟨hcall, fun page hpage => absurd hpage (hnone page)⟩
  unfold sourcePage at h
  simp only at h
  split_ifs at h with hbybit hhyperliquid
  · subst hbybit
    have hsame : bybitSpec = spec := Option.some.inj hspec
    split at h
    · exact hrefd h
    · split_ifs at h
      · exact hrefd h
      · exact called_spec
          (fun document _ hdoc hok => hsame ▸ bybitPage_ok (hanswer document hdoc) hok) h
  · subst hhyperliquid
    have hsame : hyperliquidSpec = spec := Option.some.inj hspec
    split at h
    · exact hrefd h
    · exact called_spec (fun document _ hdoc hok =>
        hsame ▸ hyperliquidPage_ok (hanswer document hdoc).texts hcurs hok) h
  · have hsame : krakenSpec = spec := by
      have hmem := List.mem_of_find?_eq_some hspec
      have hexch : spec.exchange = exchange := by simpa using List.find?_some hspec
      rw [← hexch] at hbybit hhyperliquid
      simp only [specs, List.mem_cons, List.not_mem_nil, or_false] at hmem
      rcases hmem with rfl | rfl | rfl
      · exact absurd rfl hbybit
      · exact absurd rfl hhyperliquid
      · rfl
    split at h
    · exact hrefd h
    · exact called_spec
        (fun document _ hdoc hok => hsame ▸ krakenPage_ok (hanswer document hdoc) hok) h

structure Setting (row : AccountLogCheckpoint) (world : World) (budget : Budget) : Prop where
  clock : Monotone world.clock
  epoch : 0 ≤ world.clock 0
  dates : ∀ i, world.clock i ≤ 8640000000000000
  resumeAt : 0 ≤ budget.resumeAt ∧ budget.resumeAt ≤ world.clock 0 + day
  revision : row.revision < 9007199254740991
  cursor : CursorOf row.cursor
  auditCursor : ∀ audit, row.audit = some audit → CursorOf audit.cursor
  audited : ∀ audit, row.audit = some audit → audit.windowUntil = none →
    audit.windowSince ≤ dayStart (world.clock 6)
  answer : ∀ document, world.answer = .ok document → SoundDocument document

/-- The request of a lane, as the executor selects it and Node expects it. -/
structure Selected (row selected : AccountLogCheckpoint) (lane : Lane)
    (until_ started : ℤ) : Prop where
  kept : selected = { row with
    windowSince := selected.windowSince
    windowUntil := selected.windowUntil
    cursor := selected.cursor }
  within : WindowWithin selected.windowSince (some until_) started
  required : row.requiredSince ≤ selected.windowSince
  cursor : CursorOf selected.cursor
  request : pinnedRequest row (some lane) =
    ⟨selected.windowSince, (pinnedRequest row (some lane)).windowUntil, selected.cursor,
      (pinnedRequest row (some lane)).completedAt⟩
  pinned : (pinnedRequest row (some lane)).windowUntil = none ∨
    (pinnedRequest row (some lane)).windowUntil = some until_
  forward : lane = .forward → selected = row
  audit : lane = .audit → row.revision % 2 = 1 ∧ row.requiredSince < dayStart started ∧
    dayStart started ≤ row.scannedThrough.getD 0

theorem pinned_window {since bound now : ℤ} {end_ : Option ℤ} (h : WindowWithin since end_ now)
    (hsince : end_ = none → since ≤ bound) (hbound : bound ≤ now) :
    WindowWithin since (some (end_.getD (min bound (since + 7 * day)))) now := by
  refine ⟨h.begun, ?_⟩
  intro until_ huntil
  rw [Option.some.injEq] at huntil
  cases end_ with
  | none =>
    have hle := hsince rfl
    rw [Option.getD_none] at huntil
    unfold day at *
    omega
  | some end_ =>
    rw [Option.getD_some] at huntil
    exact huntil ▸ h.ended end_ rfl

theorem auditRequest_spec (hsetting : Setting row world budget) (hsound : Sound digest spec row)
    (hwithin : Within row (world.clock 6)) (hreq : row.requiredSince < dayStart (world.clock 6)) :
    let audit := row.audit.getD ⟨row.requiredSince, none, none, 0⟩
    WindowWithin audit.windowSince audit.windowUntil (world.clock 6) ∧
      row.requiredSince ≤ audit.windowSince ∧
      (audit.windowUntil = none → audit.windowSince ≤ dayStart (world.clock 6)) ∧
      CursorOf audit.cursor := by
  have htoday := dayStart_le (world.clock 6)
  cases haudit : row.audit with
  | none =>
    refine ⟨⟨?_, by simp⟩, le_rfl, fun _ => hreq.le, by simp [CursorOf]⟩
    exact hreq.le.trans htoday
  | some audit =>
    exact ⟨hwithin.audit audit haudit, (hsound.audit audit haudit).required,
      hsetting.audited audit haudit, hsetting.auditCursor audit haudit⟩

theorem selectLane_spec (hsetting : Setting row world budget) (hsound : Sound digest spec row)
    (hwithin : Within row (world.clock 4)) {lane : Lane} {selected : AccountLogCheckpoint}
    (h : selectLane row (world.clock 6) = (lane, selected)) :
    Selected row selected lane
      (selected.windowUntil.getD (min (world.clock 6) (selected.windowSince + 7 * day)))
      (world.clock 6) := by
  have hlate := hwithin.mono (hsetting.clock (show 4 ≤ 6 by omega))
  unfold selectLane at h
  simp only at h
  split_ifs at h with heligible
  · obtain ⟨rfl, rfl⟩ := Prod.mk.injEq .. ▸ h
    obtain ⟨hodd, hreq, hscan⟩ := heligible
    have htoday := dayStart_le (world.clock 6)
    have hrequest : pinnedRequest row (some .audit) =
        row.audit.getD ⟨row.requiredSince, none, none, 0⟩ := rfl
    obtain ⟨hwin, hstart, hnew, hcurs⟩ := auditRequest_spec hsetting hsound hlate hreq
    generalize row.audit.getD ⟨row.requiredSince, none, none, 0⟩ = audit at *
    refine ⟨rfl, ?_, hstart, hcurs, ?_, ?_, by simp, fun _ => ⟨hodd, hreq, hscan⟩⟩
    · have hpinned := pinned_window hwin hnew htoday
      exact hpinned
    · rw [hrequest]
    · rw [hrequest]
      cases audit.windowUntil with
      | none => exact .inl rfl
      | some end_ => exact .inr rfl
  · obtain ⟨rfl, rfl⟩ := Prod.mk.injEq .. ▸ h
    refine ⟨rfl, pinned_window hlate.window (fun _ => hlate.window.begun) le_rfl, hsound.required,
      hsetting.cursor, rfl, ?_, fun _ => rfl, by simp⟩
    rw [show (pinnedRequest row (some .forward)).windowUntil = row.windowUntil from rfl]
    cases row.windowUntil with
    | none => exact .inl rfl
    | some end_ => exact .inr rfl

variable {selected : AccountLogCheckpoint} {lane : Lane} {completed now : ℤ} {page : Page}

def pageAccount (exchange : String) (row : AccountLogCheckpoint) (page : Page) : Option String :=
  if exchange = "krakenfutures" then page.extra else row.providerAccountUid

theorem pageAccount_spec (hspec : sourceSpec exchange = some spec) (hsound : Sound digest spec row)
    (hpage : SoundPage spec pinned page)
    (hacc : pinned.providerAccountUid = row.providerAccountUid) :
    TokenOf 256 (pageAccount exchange row page) ∧
      (row.providerAccountUid = none ∨
        pageAccount exchange row page = row.providerAccountUid) := by
  have hexch : spec.exchange = exchange := by simpa using List.find?_some hspec
  unfold pageAccount
  split_ifs with hkraken
  · obtain ⟨uid, hextra, htoken, hsame⟩ := hpage.account (hexch.trans hkraken)
    rw [hacc] at hsame
    rw [hextra]
    refine ⟨?_, hsame.imp_right Eq.symm⟩
    intro text htext
    rw [Option.some.injEq] at htext
    exact htext ▸ htoken
  · exact ⟨hsound.account, .inr rfl⟩

def pageSince (row : AccountLogCheckpoint) (since until_ completed : ℤ) (exhausted : Bool) : ℤ :=
  if exhausted then
    if completed - 1000 ≤ until_ then max row.requiredSince (dayStart until_ - day)
    else max row.requiredSince (until_ - 1000)
  else since

theorem pageResult_state (started : ℤ) (lane : Lane) (hspec : sourceSpec exchange = some spec)
    (hpage : SoundPage spec { selected with windowUntil := some until_ } page)
    (hdone : 0 ≤ completed ∧ completed ≤ 8640000000000000) :
    ∃ nextReadAt reason, IsTime nextReadAt ∧ TokenOf 80 reason ∧
      (pageResult exchange { selected with windowUntil := some until_ } selected until_ started
        completed lane page).2 = { selected with
          windowSince := pageSince selected selected.windowSince until_ completed page.exhausted
          windowUntil := if page.exhausted then none else some until_
          cursor := page.cursor
          scannedThrough := if page.exhausted then
              some (max (selected.scannedThrough.getD 0) until_) else selected.scannedThrough
          nextReadAt := nextReadAt
          lastServedAt := completed
          providerAccountUid := pageAccount exchange selected page
          reason := reason } := by
  have hexch : spec.exchange = exchange := by simpa using List.find?_some hspec
  have hnone : TokenOf 80 none := by simp [TokenOf]
  have hsaturated : TokenOf 80 (some "timestamp_saturated") := by
    intro text htext
    rw [Option.some.injEq] at htext
    subst htext
    exact ⟨by decide, by decide, by decide⟩
  have hlater : ∀ delay : ℤ, 0 ≤ delay → delay ≤ 60000 → IsTime (completed + delay) := by
    intro delay hdelay hbound
    rw [IsTime]
    omega
  have hzero : IsTime 0 := by simp [IsTime]
  have hfinish : IsTime (if completed - 1000 ≤ until_ then completed + 15000 else 0) := by
    split_ifs
    · exact hlater 15000 (by omega) (by omega)
    · exact hzero
  by_cases hkraken : exchange = "krakenfutures"
  · cases hexh : page.exhausted with
    | false =>
      refine ⟨0, none, hzero, hnone, ?_⟩
      simp [pageResult, hkraken, hexh, pageSince, pageAccount]
    | true =>
      refine ⟨_, none, hfinish, hnone, ?_⟩
      simp [pageResult, hkraken, hexh, pageSince, pageAccount, finish, hpage.finished hexh]
  · have hrsn : ∃ reason : Option String, TokenOf 80 reason ∧ page.extra = reason := by
      rcases hpage.reason (hexch ▸ hkraken) with hextra | hextra
      · exact ⟨none, hnone, hextra⟩
      · exact ⟨_, hsaturated, hextra⟩
    obtain ⟨reason, htoken, hextra⟩ := hrsn
    cases hexh : page.exhausted with
    | false =>
      cases reason with
      | none =>
        refine ⟨0, none, hzero, hnone, ?_⟩
        simp [pageResult, hkraken, hextra, hexh, pageSince, pageAccount]
      | some reason =>
        refine ⟨completed + 60000, some reason, hlater 60000 (by omega) le_rfl, htoken, ?_⟩
        simp [pageResult, hkraken, hextra, hexh, pageSince, pageAccount]
    | true =>
      refine ⟨_, reason, hfinish, htoken, ?_⟩
      cases reason <;>
        simp [pageResult, hkraken, hextra, hexh, pageSince, pageAccount, finish,
          hpage.finished hexh]

theorem forM_list_ok {ε α : Type} {f : α → Except ε Unit} {values : List α} {u : Unit} :
    values.forM f = .ok u ↔ ∀ a ∈ values, f a = .ok () := by
  induction values with
  | nil => simp
  | cons a values ih =>
    have hcons : (a :: values).forM f = (f a >>= fun _ => values.forM f) := rfl
    rw [hcons, bind_eq_ok, List.forall_mem_cons, ← ih]
    refine ⟨?_, ?_⟩
    · rintro ⟨_, ha, hrest⟩
      exact ⟨ha, hrest⟩
    · rintro ⟨ha, hrest⟩
      exact ⟨(), ha, hrest⟩

theorem recordEntry_ok {record : AccountLogRecord} (h : SoundRecord spec record) :
    record.forM (recordEntry spec.fields) = .ok () := by
  rw [forM_list_ok]
  intro entry hentry
  obtain ⟨hfield, htext⟩ := h entry hentry
  simp only [recordEntry, bind_eq_ok, throwIf_eq_ok, exists_const, not_not]
  refine ⟨hfield, ?_⟩
  cases hvalue : entry.2 with
  | none => simp
  | some text =>
    obtain ⟨hprintable, hlen⟩ := htext text hvalue
    have hcontrol := hasControl_printable hprintable
    have hunits := utf16Length_printable hprintable
    simp only [Option.any_some, decide_eq_true_eq, hcontrol, Bool.false_eq_true, or_false]
    omega

/-- The receipt of a page, for the stored checkpoint. -/
def pageReceipt (exchange : String) (row selected : AccountLogCheckpoint)
    (until_ started completed : ℤ) (lane : Lane) (page : Page) : AccountLogPageReceipt where
  version := 1
  sourceNamespace := row.sourceNamespace
  filterHash := row.filterHash
  accountFingerprint := row.accountFingerprint
  credentialGeneration := row.credentialGeneration
  since := selected.windowSince
  until_ := until_
  cursor := selected.cursor
  nextCursor := page.cursor
  startedAt := started
  completedAt := completed
  providerResponseAt := page.providerAt
  providerAccountUid := pageAccount exchange row page
  exhausted := page.exhausted
  records := page.records
  lane := some lane

theorem pageResult_receipt (hsel : Selected row selected lane until_ started) :
    (pageResult exchange { selected with windowUntil := some until_ } selected until_ started
      completed lane page).1 =
      pageReceipt exchange row selected until_ started completed lane page := by
  have hacc : (pageResult exchange { selected with windowUntil := some until_ } selected until_
      started completed lane page).1.providerAccountUid = pageAccount exchange row page := by
    have huid : selected.providerAccountUid = row.providerAccountUid := by rw [hsel.kept]
    by_cases hkraken : exchange = "krakenfutures"
    · cases hexh : page.exhausted <;>
        simp [pageResult, pageAccount, hkraken, hexh, finish]
    · cases hexh : page.exhausted <;> cases hextra : page.extra <;>
        simp [pageResult, pageAccount, hkraken, hexh, hextra, finish, huid]
  have hsrc : selected.toSourceBinding = row.toSourceBinding := by rw [hsel.kept]
  unfold pageReceipt
  rw [← hacc, ← hsrc]
  rfl

theorem receipt_accepted (hspec : spec ∈ specs) (hsound : Sound digest spec row)
    (hpage : SoundPage spec pinned page) (hsel : Selected row selected lane until_ started)
    (hacc : TokenOf 256 (pageAccount exchange row page))
    (htimes : 0 ≤ started ∧ started ≤ completed ∧ completed ≤ 8640000000000000)
    (hnow : completed ≤ now) :
    validateAccountLogReceipt digest
        (pageReceipt exchange row selected until_ started completed lane page) now =
      .ok (pageReceipt exchange row selected until_ started completed lane page) := by
  obtain ⟨hstart, hspan, hpast⟩ := hsel.within.ended until_ rfl
  have hreq := hsel.required
  have hepoch := hsound.requiredSince.1
  have hbind : binding digest
      (pageReceipt exchange row selected until_ started completed lane page).toSourceBinding =
        .ok spec := by
    refine binding_ok hspec hsound ?_
    rw [pageReceipt, ← hsound.version]
  rw [validateAccountLogReceipt, hbind, ok_bind]
  simp only [bind_eq_ok, throwIf_eq_ok, exists_const, logInteger_ok_iff, logToken_ok_iff,
    forM_ok_iff, pure_eq_ok_iff, not_lt, IsTime]
  simp only [pageReceipt]
  refine ⟨hpage.length, by omega, by omega, hsel.cursor.token, hpage.cursor.token, by omega,
    by omega, ?_, hacc, (), ?_, (), ?_, ?_, trivial⟩
  · exact hpage.providerAt
  · rw [forM_list_ok]
    exact fun record hrecord => recordEntry_ok (hpage.records record hrecord)
  · exact logWindow_ok hsel.within (htimes.2.1.trans hnow)
  · have hfin := hpage.finished
    rw [not_or, not_or]
    refine ⟨by omega, by omega, ?_⟩
    rintro ⟨hexh, hnext⟩
    exact hnext (hfin hexh)

theorem validateLogCheckpoint_eq {clock : ℕ → ℤ} {state : AccountLogCheckpoint}
    (h : validateLogCheckpoint digest exchange row clock = .ok state) : state = row := by
  unfold validateLogCheckpoint at h
  split at h
  · exact absurd h (by simp)
  · simp only [bind_eq_ok, throwIf_eq_ok, exists_const, pure_eq_ok_iff] at h
    grind

variable {receipt : Option AccountLogPageReceipt} {next : AccountLogCheckpoint}

theorem readAccountLogPage_cases
    (h : readAccountLogPage digest str isoTime retained exchange row world budget =
      .ok (receipt, next, after)) :
    validateLogCheckpoint digest exchange row world.clock = .ok row ∧
      ((receipt = none ∧ next = row ∧ after = budget) ∨
        ∃ lane selected until_ result middle, selectLane row (world.clock 6) = (lane, selected) ∧
          until_ = selected.windowUntil.getD
            (min (world.clock 6) (selected.windowSince + 7 * day)) ∧
          sourcePage str isoTime retained exchange { selected with windowUntil := some until_ }
            until_ (world.clock 6) world budget = (result, middle) ∧
          ((∃ failure, result = .error failure ∧ receipt = none ∧
              failed row (world.clock 6) world middle failure = .ok (next, after)) ∨
            ∃ page, result = .ok page ∧ after = middle ∧
              receipt = some (pageResult exchange { selected with windowUntil := some until_ }
                selected until_ (world.clock 6) (world.clock 8) lane page).1 ∧
              next = if lane = .audit then
                  mergeAudit row (pageResult exchange { selected with windowUntil := some until_ }
                    selected until_ (world.clock 6) (world.clock 8) lane page).2
                    (pageResult exchange { selected with windowUntil := some until_ }
                      selected until_ (world.clock 6) (world.clock 8) lane page).1
                else (pageResult exchange { selected with windowUntil := some until_ }
                  selected until_ (world.clock 6) (world.clock 8) lane page).2)) := by
  unfold readAccountLogPage at h
  simp only [bind_eq_ok] at h
  obtain ⟨state, hstate, h⟩ := h
  obtain rfl := validateLogCheckpoint_eq hstate
  refine ⟨hstate, ?_⟩
  by_cases hwait : world.clock 5 < state.nextReadAt
  · rw [if_pos hwait, pure_eq_ok_iff, Prod.mk.injEq, Prod.mk.injEq] at h
    obtain ⟨rfl, rfl, rfl⟩ := h
    exact .inl ⟨rfl, rfl, rfl⟩
  rw [if_neg hwait] at h
  right
  rcases hlane : selectLane state (world.clock 6) with ⟨lane, selected⟩
  rw [hlane] at h
  refine ⟨lane, selected, _, _, _, rfl, rfl, rfl, ?_⟩
  simp only at h
  split at h
  · rename_i failure hfailure
    simp only [bind_eq_ok, pure_eq_ok_iff, Prod.mk.injEq, Prod.exists] at h
    obtain ⟨_, _, hfailed, rfl, rfl, rfl⟩ := h
    exact .inl ⟨failure, hfailure, rfl, hfailed⟩
  · rename_i page hpage
    simp only [pure_eq_ok_iff, Prod.mk.injEq] at h
    obtain ⟨rfl, rfl, rfl⟩ := h
    exact .inr ⟨page, hpage, rfl, rfl, rfl⟩

/-- A checkpoint that only learned why nothing was read. -/
structure Kept (row next : AccountLogCheckpoint) : Prop where
  kept : next = { row with
    reason := next.reason
    nextReadAt := next.nextReadAt
    lastServedAt := next.lastServedAt }
  reason : TokenOf 80 next.reason
  nextReadAt : IsTime next.nextReadAt
  lastServedAt : IsTime next.lastServedAt

theorem suspend_resumeAt {rateLimited : Bool} {retryAfter : RetryAfter} {first second : ℤ}
    (hbud : budget.resumeAt ≤ 8640000000000000 + day) (hfirst : 0 ≤ first)
    (hdates : first ≤ 8640000000000000 ∧ second ≤ 8640000000000000) :
    IsTime (budget.suspend rateLimited retryAfter first second).resumeAt := by
  have hretry : retryAfterTime retryAfter second ≤ max 0 (8640000000000000 + day) := by
    unfold retryAfterTime day
    cases retryAfter with
    | absent => simp only; omega
    | seconds value => simp only; omega
    | date time => simp only; omega
  unfold Budget.suspend
  simp only [IsTime]
  unfold day at *
  split_ifs <;> omega

theorem failed_spec (hsetting : Setting row world budget) (hsound : Sound digest spec row)
    {failure : Failure} (hbud : budget.resumeAt = after.resumeAt) {last : Budget}
    (h : failed row (world.clock 6) world after failure = .ok (next, last)) :
    Kept row next ∧ last.calls = after.calls := by
  have hmono : ∀ i, world.clock 0 ≤ world.clock i := fun i => hsetting.clock (Nat.zero_le i)
  have hepoch := hsetting.epoch
  have hstarted := hmono 6
  have hdate := hsetting.dates 6
  have hresume := hsetting.resumeAt
  have hfirst := hsetting.dates 0
  have hnow : IsTime (world.clock 6) := by
    rw [IsTime]
    omega
  have hdelay : ∀ delay : ℤ, 0 ≤ delay → delay ≤ 300000 → IsTime (world.clock 6 + delay) := by
    intro delay hpos hbound
    rw [IsTime]
    omega
  have htoken : ∀ text ∈ ["source_retention_unproven", "budget_exhausted", "transient",
      "source_unsupported", "invalid_source_evidence"], TokenOf 80 (some text) := by
    intro text htext other hother
    rw [Option.some.injEq] at hother
    subst hother
    fin_cases htext <;> exact ⟨by decide, by decide, by decide⟩
  cases failure with
  | retentionUnproven | unsupported =>
    simp only [failed, Except.ok.injEq, Prod.mk.injEq] at h
    obtain ⟨rfl, rfl⟩ := h
    exact ⟨⟨rfl, htoken _ (by simp), hdelay 300000 (by omega) le_rfl, hnow⟩, rfl⟩
  | exhausted =>
    simp only [failed, Except.ok.injEq, Prod.mk.injEq] at h
    obtain ⟨rfl, rfl⟩ := h
    have hnext := hsound.nextReadAt
    refine ⟨⟨rfl, htoken _ (by simp), ?_, hsound.lastServedAt⟩, rfl⟩
    simp only [IsTime] at hnext ⊢
    unfold day at hresume
    omega
  | transient rateLimited retryAfter =>
    simp only [failed, Except.ok.injEq, Prod.mk.injEq] at h
    obtain ⟨rfl, rfl⟩ := h
    refine ⟨⟨rfl, htoken _ (by simp), ?_, hnow⟩, rfl⟩
    exact suspend_resumeAt (by omega) (hepoch.trans (hmono 8))
      ⟨hsetting.dates 8, hsetting.dates 9⟩
  | invalid message =>
    simp only [failed, Except.ok.injEq, Prod.mk.injEq] at h
    obtain ⟨rfl, rfl⟩ := h
    exact ⟨⟨rfl, htoken _ (by simp), hdelay 60000 (by omega) (by omega), hnow⟩, rfl⟩
  | raised => exact absurd h (by simp [failed])

structure Accepted (digest : List Char → String) (exchange : String) (progress : AccountLogProgress)
    (seen : ℤ) : Prop where
  node : ∀ now, seen ≤ now → validateAccountLogProgress digest progress now = .ok progress
  executor : ∀ later : ℕ → ℤ, (∀ i, seen ≤ later i) →
    validateLogCheckpoint digest exchange progress.checkpoint later = .ok progress.checkpoint

theorem sourceSpec_mem (h : sourceSpec exchange = some spec) : spec ∈ specs :=
  List.mem_of_find?_eq_some h

variable {progress : AccountLogProgress} {seen : ℤ}

theorem progress_accepted (hspec : sourceSpec exchange = some spec)
    (hdigest : ∀ text, digestPattern (digest text) = true)
    (hsound : Sound digest spec progress.checkpoint) (hwithin : Within progress.checkpoint seen)
    (hcurs : CursorOf progress.checkpoint.cursor)
    (haudit : ∀ audit, progress.checkpoint.audit = some audit → CursorOf audit.cursor)
    (hbase : IsTime progress.baseRevision) (hskipped : progress.readSkipped = none)
    (hrev : progress.checkpoint.revision = progress.baseRevision + 1)
    (hcalls : (progress.receipts.length : ℤ) ≤ progress.calls ∧ progress.calls ≤ 5)
    (hrecs : ∀ receipt ∈ progress.receipts, (∀ now, seen ≤ now →
        validateAccountLogReceipt digest receipt now = .ok receipt) ∧
      changesSource progress.checkpoint receipt = false) :
    Accepted digest exchange progress seen := by
  obtain ⟨hnodeSize, hpythonSize⟩ :=
    checkpoint_fits (sourceSpec_mem hspec) hdigest hsound hcurs haudit
  refine ⟨?_, fun later hlater => python_accepts hspec hsound hwithin hlater hpythonSize⟩
  intro now hnow
  have hcheckpoint := node_accepts (sourceSpec_mem hspec) hsound hwithin hnow hnodeSize
  have hmap : progress.receipts.mapM (validateAccountLogReceipt digest · now) =
      .ok progress.receipts := by
    rw [mapM_eq_ok, List.forall₂_same]
    exact fun receipt hrec => (hrecs receipt hrec).1 now hnow
  have hsame : progress.receipts.any (changesSource progress.checkpoint) = false := by
    rw [List.any_eq_false]
    intro receipt hrec
    rw [(hrecs receipt hrec).2]
    exact Bool.false_ne_true
  have hcount : 0 ≤ progress.calls := by omega
  have hcallsTime : IsTime progress.calls := by
    rw [IsTime]
    omega
  simp only [validateAccountLogProgress, hcheckpoint, ok_bind, bind_eq_ok, logInteger_ok_iff,
    exists_const, hskipped, ne_eq, not_true_eq_false, if_false, throwIf_eq_ok, hmap, hsame,
    pure_eq_ok_iff]
  refine ⟨hbase, hcallsTime, by omega, by simp, ?_⟩
  rw [← hskipped]

theorem revision_time (hsetting : Setting row world budget) (hsound : Sound digest spec row) :
    IsTime (row.revision + 1) := by
  have hrev := hsound.revision
  have hlimit := hsetting.revision
  simp only [IsTime] at hrev ⊢
  omega

theorem kept_accepted (hspec : sourceSpec exchange = some spec)
    (hdigest : ∀ text, digestPattern (digest text) = true) (hsetting : Setting row world budget)
    (hsound : Sound digest spec row) (hwithin : Within row seen) (hkept : Kept row next) {calls : ℤ}
    (hcalls : 0 ≤ calls ∧ calls ≤ 5) (hprog : progress =
      ⟨none, row.revision, calls, { next with revision := row.revision + 1 }, []⟩) :
    Accepted digest exchange progress seen ∧ assertContinuation row progress = .ok () := by
  subst hprog
  obtain ⟨hnext, hrsn, hnextReadAt, hlastServedAt⟩ := hkept
  generalize next.reason = reason at *
  generalize next.nextReadAt = nextReadAt at *
  generalize next.lastServedAt = lastServedAt at *
  subst hnext
  refine ⟨?_, ?_⟩
  · refine progress_accepted hspec hdigest ?_ ?_ hsetting.cursor hsetting.auditCursor
      hsound.revision
      rfl rfl (by simpa using hcalls) (by simp)
    · exact { hsound with
        revision := revision_time hsetting hsound
        reason := hrsn
        nextReadAt := hnextReadAt
        lastServedAt := hlastServedAt }
    · exact ⟨hwithin.window, hwithin.scanned, hwithin.audit⟩
  · simp [assertContinuation, assertSkippedAccountLogUnchanged, assertReceiptChain]

theorem skipped_accepted (hspec : sourceSpec exchange = some spec)
    (hdigest : ∀ text, digestPattern (digest text) = true) (hsetting : Setting row world budget)
    (hsound : Sound digest spec row) (hwithin : Within row seen) {reason : ReadSkipped}
    (hprog : progress = ⟨some reason, row.revision, 0, row, []⟩) :
    Accepted digest exchange progress seen ∧ assertContinuation row progress = .ok () := by
  subst hprog
  obtain ⟨hnodeSize, hpythonSize⟩ :=
    checkpoint_fits (sourceSpec_mem hspec) hdigest hsound hsetting.cursor hsetting.auditCursor
  refine ⟨⟨?_, fun later hlater => python_accepts hspec hsound hwithin hlater hpythonSize⟩, ?_⟩
  · intro now hnow
    have hcheckpoint := node_accepts (sourceSpec_mem hspec) hsound hwithin hnow hnodeSize
    have hbase := (logInteger_ok_iff (u := ())).mpr hsound.revision
    have hzero : logInteger 0 = .ok () := by decide
    simp [validateAccountLogProgress, hcheckpoint, hbase, hzero, skippedLogProgress]
  · simp [assertContinuation, assertSkippedAccountLogUnchanged, assertReceiptChain]

theorem assertContinuation_page (hsel : Selected row selected lane until_ started)
    (hsame : row.providerAccountUid = none ∨ pageAccount exchange row page = row.providerAccountUid)
    (hsrc : next.toSourceBinding = row.toSourceBinding)
    (hreq : next.requiredSince = row.requiredSince)
    (hscan : row.scannedThrough.getD 0 ≤ next.scannedThrough.getD 0)
    (hacc : next.providerAccountUid = pageAccount exchange row page)
    (hprog : progress = ⟨none, row.revision, 1, next,
      [pageReceipt exchange row selected until_ started completed lane page]⟩) :
    assertContinuation row progress =
      if lane = .audit then assertAuditContinuation row next
        (pageReceipt exchange row selected until_ started completed lane page)
      else assertForwardContinuation row next
        (pageReceipt exchange row selected until_ started completed lane page) := by
  have hcurs := congrArg AccountLogAudit.cursor hsel.request
  have hsince := congrArg AccountLogAudit.windowSince hsel.request
  have hpinned : ¬ ((pinnedRequest row (some lane)).windowUntil ≠ none ∧
      (pinnedRequest row (some lane)).windowUntil ≠ some until_) := by
    rcases hsel.pinned with hnone | hsome
    · exact fun h => h.1 hnone
    · exact fun h => h.2 hsome
  have huid : ¬ (row.providerAccountUid ≠ none ∧
      pageAccount exchange row page ≠ row.providerAccountUid) := by
    rcases hsame with hnone | hsome
    · exact fun h => h.1 hnone
    · exact fun h => h.2 hsome
  subst hprog
  have hchain : assertReceiptChain row ⟨none, row.revision, 1, next,
      [pageReceipt exchange row selected until_ started completed lane page]⟩ =
      if lane = .audit then assertAuditContinuation row next
        (pageReceipt exchange row selected until_ started completed lane page)
      else assertForwardContinuation row next
        (pageReceipt exchange row selected until_ started completed lane page) := by
    simp only [assertReceiptChain, assertPage]
    rw [throwIf_of_not, ok_bind, throwIf_of_not, ok_bind, throwIf_of_not, ok_bind]
    · simp only [pageReceipt, Option.some.injEq]
    · simpa [pageReceipt] using hacc
    · exact huid
    · simp only [pageReceipt]
      rw [not_or, not_or]
      exact ⟨by simpa using hcurs.symm, by simpa using hsince.symm, hpinned⟩
  simp only [assertContinuation]
  rw [throwIf_of_not (by simp), ok_bind, hchain]
  have hskipped : assertSkippedAccountLogUnchanged row ⟨none, row.revision, 1, next,
      [pageReceipt exchange row selected until_ started completed lane page]⟩ = .ok () := by
    simp [assertSkippedAccountLogUnchanged]
  rw [hskipped, ok_bind, throwIf_of_not, ok_bind]
  simp only [hreq, hsrc, ne_eq, not_true_eq_false, false_or, not_lt]
  exact hscan

theorem forward_accepted (hspec : sourceSpec exchange = some spec)
    (hdigest : ∀ text, digestPattern (digest text) = true) (hsetting : Setting row world budget)
    (hsound : Sound digest spec row) (hwithin : Within row (world.clock 6))
    (hsel : Selected row row .forward until_ (world.clock 6))
    (hpage : SoundPage spec { row with windowUntil := some until_ } page)
    (hprog : progress = ⟨none, row.revision, 1,
      { (pageResult exchange { row with windowUntil := some until_ } row until_ (world.clock 6)
        (world.clock 8) .forward page).2 with revision := row.revision + 1 },
      [(pageResult exchange { row with windowUntil := some until_ } row until_ (world.clock 6)
        (world.clock 8) .forward page).1]⟩) :
    Accepted digest exchange progress (world.clock 8) ∧
      assertContinuation row progress = .ok () := by
  have hmono : ∀ i j, i ≤ j → world.clock i ≤ world.clock j := fun i j hle => hsetting.clock hle
  have hepoch := hsetting.epoch
  have hstarted := hmono 0 6 (by omega)
  have hdone := hmono 6 8 (by omega)
  have hdate := hsetting.dates 8
  obtain ⟨hacc, hsame⟩ := pageAccount_spec hspec hsound hpage rfl
  obtain ⟨nextReadAt, reason, hnextReadAt, hrsn, hstate⟩ :=
    pageResult_state (world.clock 6) .forward hspec hpage ⟨by omega, hdate⟩
  rw [hstate, pageResult_receipt hsel] at hprog
  subst hprog
  obtain ⟨hstart, hspan, hpast⟩ := hsel.within.ended until_ rfl
  have hreq := hsound.required
  have hrequiredTime := hsound.requiredSince
  have hsinceTime := hsound.windowSince
  have hscan := hwithin.scanned
  have htoday := dayStart_le until_
  have hsince : row.requiredSince ≤ pageSince row row.windowSince until_ (world.clock 8)
        page.exhausted ∧
      pageSince row row.windowSince until_ (world.clock 8) page.exhausted ≤ until_ := by
    unfold pageSince day
    split_ifs <;> omega
  refine ⟨?_, ?_⟩
  · refine progress_accepted hspec hdigest ?_ ?_ hpage.cursor hsetting.auditCursor hsound.revision
      rfl rfl (by simp) ?_
    · refine { hsound with
        revision := revision_time hsetting hsound
        windowSince := ?_
        windowUntil := ?_
        scannedThrough := ?_
        nextReadAt := hnextReadAt
        lastServedAt := ?_
        cursor := hpage.cursor.token
        account := hacc
        reason := hrsn
        required := hsince.1
        pinned := ?_ }
      · simp only [IsTime] at *
        omega
      · simp only [Option.ite_none_left_eq_some, Option.some.injEq]
        rintro _ ⟨-, rfl⟩
        simp only [IsTime] at *
        omega
      · intro through hthrough
        simp only at hthrough
        split_ifs at hthrough with hexh
        · rw [Option.some.injEq] at hthrough
          simp only [IsTime] at *
          omega
        · exact hsound.scannedThrough through hthrough
      · simp only [IsTime]
        omega
      · rintro ⟨hnext, hopen⟩
        simp only [ite_eq_left_iff, reduceCtorEq, imp_false, Bool.not_eq_true,
          Bool.not_eq_false] at hopen
        exact hnext (hpage.finished hopen)
    · refine ⟨⟨?_, ?_⟩, ?_, fun audit haudit => (hwithin.audit audit haudit).mono hdone⟩
      · exact hsince.2.trans (hpast.trans hdone)
      · simp only [Option.ite_none_left_eq_some, Option.some.injEq]
        rintro _ ⟨hopen, rfl⟩
        simp only [pageSince, hopen]
        exact ⟨hstart, hspan, by omega⟩
      · simp only
        split_ifs
        · rw [Option.getD_some]
          omega
        · exact hscan.trans hdone
    · intro receipt hrec
      rw [List.mem_singleton] at hrec
      subst hrec
      refine ⟨?_, by simp [changesSource, pageReceipt]⟩
      intro now hnow
      exact receipt_accepted (sourceSpec_mem hspec) hsound hpage hsel hacc
        ⟨by omega, hdone, hdate⟩ hnow
  · refine (assertContinuation_page hsel hsame ?_ ?_ ?_ ?_ rfl).trans ?_
    · rfl
    · rfl
    · simp only
      split_ifs
      · rw [Option.getD_some]
        exact le_max_left _ _
      · exact le_rfl
    · rfl
    · rw [if_neg (by simp)]
      simp only [assertForwardContinuation, bind_eq_ok, throwIf_eq_ok, exists_const]
      simp only [pageReceipt, pageSince]
      by_cases hexh : page.exhausted = true
      · simp [hexh, apply_ite (max row.requiredSince)]
      · simp [hexh]

theorem dayStart_mono {first second : ℤ} (h : first ≤ second) :
    dayStart first ≤ dayStart second := by
  unfold dayStart day
  omega

/-- The audit that `mergeAudit` stores after a page. -/
def mergedAudit (row selected : AccountLogCheckpoint) (until_ completed : ℤ) (page : Page) :
    AccountLogAudit where
  windowSince := if page.exhausted then
      if dayStart completed ≤ until_ then row.requiredSince
        else max row.requiredSince (until_ - 1000)
    else selected.windowSince
  windowUntil := if page.exhausted then none else some until_
  cursor := page.cursor
  completedAt := if page.exhausted then completed else (row.audit.map (·.completedAt)).getD 0

theorem mergedAudit_spec (hsound : Sound digest spec row) (hpage : SoundPage spec pinned page)
    (hsel : Selected row selected lane until_ started) (hdone : started ≤ completed)
    (htime : IsTime completed) :
    SoundAudit row.requiredSince (mergedAudit row selected until_ completed page) ∧
      WindowWithin (mergedAudit row selected until_ completed page).windowSince
        (mergedAudit row selected until_ completed page).windowUntil completed := by
  obtain ⟨hstart, hspan, hpast⟩ := hsel.within.ended until_ rfl
  have hreq := hsel.required
  have hrequiredTime := hsound.requiredSince
  have hold : IsTime ((row.audit.map (·.completedAt)).getD 0) := by
    cases haudit : row.audit with
    | none => simp [IsTime]
    | some audit => exact (hsound.audit audit haudit).completedAt
  have hcurs := hpage.cursor.token
  have hfin := hpage.finished
  simp only [IsTime] at hrequiredTime htime
  unfold mergedAudit
  cases hexh : page.exhausted with
  | false =>
    refine ⟨⟨?_, ?_, hold, hcurs, hreq, by simp⟩, ?_, ?_⟩
    · simp only [IsTime, Bool.false_eq_true, if_false]
      omega
    · simp only [Bool.false_eq_true, if_false, Option.some.injEq, IsTime]
      omega
    · simp only [Bool.false_eq_true, if_false]
      omega
    · simp only [Bool.false_eq_true, if_false, Option.some.injEq]
      rintro _ rfl
      exact ⟨hstart, hspan, by omega⟩
  | true =>
    have hsince : row.requiredSince ≤ (if dayStart completed ≤ until_ then row.requiredSince
          else max row.requiredSince (until_ - 1000)) ∧
        (if dayStart completed ≤ until_ then row.requiredSince
          else max row.requiredSince (until_ - 1000)) ≤ completed := by
      split_ifs <;> omega
    refine ⟨⟨?_, by simp, ?_, hcurs, hsince.1, ?_⟩, hsince.2, by simp⟩
    · simp only [IsTime, if_true]
      omega
    · simpa only [if_true, IsTime] using htime
    · simp [hfin hexh]

/-- A page of the audit lane; Node refuses it only when the day ended during the call. -/
theorem audit_accepted (hspec : sourceSpec exchange = some spec)
    (hdigest : ∀ text, digestPattern (digest text) = true) (hsetting : Setting row world budget)
    (hsound : Sound digest spec row) (hwithin : Within row (world.clock 6))
    (hsel : Selected row selected .audit until_ (world.clock 6))
    (hpage : SoundPage spec { selected with windowUntil := some until_ } page)
    (hprog : progress = ⟨none, row.revision, 1,
      { mergeAudit row (pageResult exchange { selected with windowUntil := some until_ } selected
          until_ (world.clock 6) (world.clock 8) .audit page).2
          (pageResult exchange { selected with windowUntil := some until_ } selected until_
            (world.clock 6) (world.clock 8) .audit page).1 with
        revision := row.revision + 1 },
      [(pageResult exchange { selected with windowUntil := some until_ } selected until_
        (world.clock 6) (world.clock 8) .audit page).1]⟩) :
    Accepted digest exchange progress (world.clock 8) ∧
      (dayStart (world.clock 6) = dayStart (world.clock 8) →
        assertContinuation row progress = .ok ()) := by
  have hmono : ∀ i j, i ≤ j → world.clock i ≤ world.clock j := fun i j hle => hsetting.clock hle
  have hepoch := hsetting.epoch
  have hstarted := hmono 0 6 (by omega)
  have hdone := hmono 6 8 (by omega)
  have hdate := hsetting.dates 8
  have huid : selected.providerAccountUid = row.providerAccountUid := by rw [hsel.kept]
  obtain ⟨hacc, hsame⟩ := pageAccount_spec hspec hsound hpage huid
  obtain ⟨nextReadAt, reason, hnextReadAt, hrsn, hstate⟩ :=
    pageResult_state (world.clock 6) .audit hspec hpage ⟨by omega, hdate⟩
  rw [hstate, pageResult_receipt hsel] at hprog
  have hsameAccount : pageAccount exchange selected page = pageAccount exchange row page := by
    rw [pageAccount, pageAccount, huid]
  subst hprog
  obtain ⟨hstart, hspan, hpast⟩ := hsel.within.ended until_ rfl
  have hmerged := mergedAudit_spec hsound hpage hsel hdone (by rw [IsTime]; omega)
  refine ⟨?_, ?_⟩
  · refine progress_accepted hspec hdigest ?_ ?_ hsetting.cursor ?_ hsound.revision rfl rfl
      (by simp) ?_
    · refine { hsound with
        revision := revision_time hsetting hsound
        nextReadAt := ?_
        lastServedAt := ?_
        account := ?_
        reason := hrsn
        audit := ?_ }
      · simp only [mergeAudit]
        split_ifs
        · simp [IsTime]
        · exact hnextReadAt
      · simp only [mergeAudit, pageReceipt, IsTime]
        omega
      · exact hsameAccount ▸ hacc
      · intro audit haudit
        rw [← Option.some.inj haudit]
        exact hmerged.1
    · refine ⟨hwithin.window.mono hdone, hwithin.scanned.trans hdone, ?_⟩
      intro audit haudit
      rw [← Option.some.inj haudit]
      exact hmerged.2
    · intro audit haudit
      rw [← Option.some.inj haudit]
      exact hpage.cursor
    · intro receipt hrec
      rw [List.mem_singleton] at hrec
      subst hrec
      refine ⟨?_, by simp [changesSource, pageReceipt, mergeAudit]⟩
      intro now hnow
      exact receipt_accepted (sourceSpec_mem hspec) hsound hpage hsel hacc
        ⟨by omega, hdone, hdate⟩ hnow
  · intro hday
    refine (assertContinuation_page hsel hsame ?_ ?_ ?_ ?_ rfl).trans ?_
    · rfl
    · rfl
    · exact le_rfl
    · exact hsameAccount
    · rw [if_pos rfl]
      obtain ⟨hodd, heligible, hcovered⟩ := hsel.audit rfl
      rw [hday] at heligible hcovered
      simp only [assertAuditContinuation, bind_eq_ok, throwIf_eq_ok, exists_const]
      refine ⟨?_, ?_, ?_⟩
      · simp only [pageReceipt]
        omega
      · simp [pageReceipt, mergeAudit]
      · simp [mergeAudit]

/-- The exception: the UTC day ended during a call of the audit lane. -/
structure DayEnded (row : AccountLogCheckpoint) (progress : AccountLogProgress)
    (receipt : AccountLogPageReceipt) : Prop where
  receipts : progress.receipts = [receipt]
  lane : receipt.lane = some .audit
  days : dayStart receipt.startedAt ≠ dayStart receipt.completedAt
  next : ∀ now, receipt.completedAt ≤ now → (selectLane row now).1 = .forward

theorem forward_next (hwithin : Within row started) (hdone : started ≤ completed)
    (hday : dayStart started ≠ dayStart completed) (hnow : completed ≤ now) :
    (selectLane row now).1 = .forward := by
  have hscan := hwithin.scanned
  have hlater := dayStart_mono hnow
  have hended : started < dayStart completed := by
    unfold dayStart day at *
    omega
  unfold selectLane
  simp only
  rw [if_neg (by omega)]

theorem readAccountLogPage_spec {before : ℤ}
    (hdigest : ∀ text, digestPattern (digest text) = true)
    (hrow : validateAccountLogCheckpoint digest row before = .ok row)
    (hsetting : Setting row world budget)
    (h : readAccountLogPage digest str isoTime retained exchange row world budget =
      .ok (receipt, next, after)) :
    ∃ spec, sourceSpec exchange = some spec ∧ Sound digest spec row ∧
      Within row (world.clock 8) ∧
      (after.calls = budget.calls ∨ after.calls = budget.calls + 1) ∧
      ((receipt = none ∧ Kept row next) ∨ ∃ page, receipt = some page ∧
        after.calls = budget.calls + 1 ∧
        ∀ progress, progress =
            ⟨none, row.revision, 1, { next with revision := row.revision + 1 }, [page]⟩ →
          Accepted digest exchange progress (world.clock 8) ∧
            (assertContinuation row progress = .ok () ∨ DayEnded row progress page)) := by
  obtain ⟨hvalid, hcases⟩ := readAccountLogPage_cases h
  obtain ⟨spec, hspec, hsound, hwithin⟩ := sound_of_accepted hrow hvalid hsetting.clock
  have hlate : ∀ i, 4 ≤ i → Within row (world.clock i) :=
    fun i hi => hwithin.mono (hsetting.clock hi)
  have hdone := hsetting.clock (show 6 ≤ 8 by omega)
  refine ⟨spec, hspec, hsound, hlate 8 (by omega), ?_⟩
  obtain ⟨rfl, rfl, rfl⟩ |
    ⟨lane, selected, until_, result, middle, hlane, rfl, hsrc, hres⟩ := hcases
  · exact ⟨.inl rfl, .inl ⟨rfl, rfl, hsound.reason, hsound.nextReadAt, hsound.lastServedAt⟩⟩
  have hsel := selectLane_spec hsetting hsound hwithin hlane
  obtain ⟨hcall, hpages⟩ := sourcePage_spec hspec hsetting.answer hsrc hsel.cursor
  obtain ⟨failure, rfl, rfl, hfailed⟩ | ⟨page, rfl, rfl, rfl, rfl⟩ := hres
  · obtain ⟨hkept, hcalls⟩ := failed_spec hsetting hsound hcall.resumeAt.symm hfailed
    rw [hcalls]
    exact ⟨hcall.calls, .inl ⟨rfl, hkept⟩⟩
  · have hpage := hpages page rfl
    refine ⟨hcall.calls, .inr ⟨_, rfl, hcall.success ⟨page, rfl⟩, ?_⟩⟩
    intro progress hprog
    cases lane with
    | forward =>
      obtain rfl := hsel.forward rfl
      obtain ⟨hacpt, hcontinues⟩ := forward_accepted hspec hdigest hsetting hsound
        (hlate 6 (by omega)) hsel hpage hprog
      exact ⟨hacpt, .inl hcontinues⟩
    | audit =>
      obtain ⟨hacpt, hcontinues⟩ := audit_accepted hspec hdigest hsetting hsound
        (hlate 6 (by omega)) hsel hpage hprog
      refine ⟨hacpt, ?_⟩
      by_cases hday : dayStart (world.clock 6) = dayStart (world.clock 8)
      · exact .inl (hcontinues hday)
      · refine .inr ⟨by rw [hprog], rfl, hday, ?_⟩
        exact fun now hnow => forward_next (hlate 6 (by omega)) hdone hday hnow

/-- The progress of every read is accepted, and the executor accepts its own checkpoint. -/
theorem account_log_progress_accepted {before : ℤ} {scheduled : Bool}
    (hdigest : ∀ text, digestPattern (digest text) = true)
    (hrow : validateAccountLogCheckpoint digest row before = .ok row)
    (hsetting : Setting row world budget)
    (h : readAccountLogs digest str isoTime retained exchange row scheduled world budget =
      .ok (progress, after)) :
    (∀ now, world.clock 8 ≤ now → validateAccountLogProgress digest progress now = .ok progress) ∧
      (assertContinuation row progress = .ok () ∨ ∃ receipt, DayEnded row progress receipt) ∧
      ∀ later : ℕ → ℤ, (∀ i, world.clock 8 ≤ later i) →
        validateLogCheckpoint digest exchange progress.checkpoint later =
          .ok progress.checkpoint := by
  simp only [readAccountLogs, bind_eq_ok, Prod.exists] at h
  obtain ⟨receipt, next, final, hread, h⟩ := h
  obtain ⟨spec, hspec, hsound, hwithin, hcalls, hres⟩ :=
    readAccountLogPage_spec hdigest hrow hsetting hread
  split_ifs at h with hskipped
  · simp only [pure_eq_ok_iff, Prod.mk.injEq] at h
    obtain ⟨hacpt, hcontinues⟩ := skipped_accepted hspec hdigest hsetting hsound hwithin h.1.symm
    exact ⟨hacpt.node, .inl hcontinues, hacpt.executor⟩
  · simp only [pure_eq_ok_iff, Prod.mk.injEq] at h
    obtain ⟨rfl, hkept⟩ | ⟨page, rfl, hcalled, hpage⟩ := hres
    · obtain ⟨hacpt, hcontinues⟩ := kept_accepted hspec hdigest hsetting hsound hwithin hkept
        (by omega) h.1.symm
      exact ⟨hacpt.node, .inl hcontinues, hacpt.executor⟩
    · have hone : final.calls - budget.calls = 1 := by omega
      rw [hone] at h
      obtain ⟨hacpt, hcontinues⟩ := hpage progress h.1.symm
      exact ⟨hacpt.node, hcontinues.imp_right (fun hday => ⟨page, hday⟩), hacpt.executor⟩

end Reads

section Fixed

/-- The hexadecimal SHA-256 of the allowlisted filter. -/
def fundingHash : String :=
  "bbe36df70ce341547a5a98958ed22adda3b8152f3d5db7297a5ef435e15b74ae"

def sampleIdentity : String := .ofList (List.replicate 64 'a')

/-- Only the filter is digested in these reads. -/
def sampleDigest (text : List Char) : String :=
  if text = hyperliquidSpec.filter then fundingHash else sampleIdentity

def sampleRow (audit : Option AccountLogAudit) : AccountLogCheckpoint where
  version := 1
  sourceNamespace := hyperliquidSpec.sourceNamespace
  filterHash := fundingHash
  accountFingerprint := sampleIdentity
  credentialGeneration := sampleIdentity
  revision := 1
  requiredSince := 0
  windowSince := 0
  windowUntil := none
  cursor := none
  scannedThrough := some 86400000
  nextReadAt := 0
  lastServedAt := 0
  providerAccountUid := none
  reason := none
  audit := audit

/-- A world that stands still just after midnight and has no payments. -/
def sampleWorld : World where
  clock := fun _ => 86402000
  deadlineOpen := true
  answer := .ok (.array [])
  user := some ("0x" ++ String.ofList (List.replicate 40 '0'))

def sampleRead (audit : Option AccountLogAudit) : Except Failure (AccountLogProgress × Budget) :=
  readAccountLogs sampleDigest (fun _ => "") (fun _ => none) (fun _ => none) "hyperliquid"
    (sampleRow audit) true sampleWorld ⟨5, 0, 0⟩

theorem sampleSetting : Setting (sampleRow none) sampleWorld ⟨5, 0, 0⟩ where
  clock := monotone_const
  epoch := by decide
  dates := fun _ => show (86402000 : ℤ) ≤ 8640000000000000 by decide
  resumeAt := by decide
  revision := by decide
  cursor := by simp [CursorOf, sampleRow]
  auditCursor := by simp [sampleRow]
  audited := by simp [sampleRow]
  answer := by
    intro document hdoc
    obtain rfl : document = .array [] := (Except.ok.inj hdoc).symm
    exact ⟨trivial, by simp, by simp⟩

def samplePage (since : ℤ) (start : ℤ) : AccountLogProgress where
  readSkipped := none
  baseRevision := 1
  calls := 1
  checkpoint := { sampleRow (some ⟨start, none, none, 86402000⟩) with
    revision := 2
    lastServedAt := 86402000 }
  receipts := [{
    (sampleRow none).toSourceBinding with
    since := since
    until_ := 86400000
    cursor := none
    nextCursor := none
    startedAt := 86402000
    completedAt := 86402000
    providerResponseAt := none
    providerAccountUid := none
    exhausted := true
    records := []
    lane := some .audit }]

/-- The first audit of a checkpoint reads the day before. -/
theorem account_log_progress_audit :
    sampleRead none = .ok (samplePage 0 0, ⟨4, 0, 1⟩) ∧
      validateAccountLogProgress sampleDigest (samplePage 0 0) 86402000 = .ok (samplePage 0 0) ∧
      (assertContinuation (sampleRow none) (samplePage 0 0) = .ok () ∨
        ∃ receipt, DayEnded (sampleRow none) (samplePage 0 0) receipt) := by
  have hdigest : ∀ text, digestPattern (sampleDigest text) = true := by
    intro text
    rw [sampleDigest]
    split_ifs <;> decide +kernel
  have hrow : validateAccountLogCheckpoint sampleDigest (sampleRow none) 86402000 =
      .ok (sampleRow none) := by decide +kernel
  have hread : sampleRead none = .ok (samplePage 0 0, ⟨4, 0, 1⟩) := by decide +kernel
  obtain ⟨hnode, hcontinues, -⟩ :=
    account_log_progress_accepted hdigest hrow sampleSetting hread
  exact ⟨hread, hnode 86402000 le_rfl, hcontinues⟩

/-- A stored audit that starts after today ends before it starts. -/
theorem late_audit_rejected :
    let row := sampleRow (some ⟨86401000, none, none, 0⟩)
    validateAccountLogCheckpoint sampleDigest row 86402000 = .ok row ∧
      sampleRead row.audit = .ok (samplePage 86401000 0, ⟨4, 0, 1⟩) ∧
      dayStart 86402000 = 86400000 ∧
      validateAccountLogProgress sampleDigest (samplePage 86401000 0) 86402000 =
        .error (.error "Invalid pinned account-log window.") := by
  decide +kernel

end Fixed

end TsxCore.AccountLogReader
