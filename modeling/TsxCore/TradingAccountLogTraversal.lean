import TsxCore.TradingAccountLogRepository

/-!
# Account-log traversal claims only what was read

Runs of the repository, with a mark in the receipt table for every checkpoint
that `accountLogCheckpoint` stores. A window was read when a chain of forward
receipts behind the last mark starts at no cursor, continues each page at the
cursor of the one before and ends at the end of the log.
-/

namespace TsxCore.AccountLog

open Outcome SqlTable

section Windows

/-- Pages of one pinned window, each continuing at the cursor of the one before. -/
structure Chain (receipts pages : List AccountLogPageReceipt) (since until_ : ℤ) : Prop where
  durable : pages.Sublist receipts
  pinned : ∀ page ∈ pages,
    page.lane ≠ some .audit ∧ page.since = since ∧ page.until_ = until_
  start : ∀ page, pages.head? = some page → page.cursor = none
  linked : pages.IsChain (fun page next => next.cursor = page.nextCursor)

structure ReadWindow (receipts pages : List AccountLogPageReceipt) (since until_ : ℤ) : Prop
    extends Chain receipts pages since until_ where
  finished : ∃ last, pages.getLast? = some last ∧ last.exhausted = true

/-- Every instant of the interval lies in a window that was read. -/
def Covered (receipts : List AccountLogPageReceipt) (since through : ℤ) : Prop :=
  ∀ instant : ℚ, since ≤ instant → instant ≤ through →
    ∃ pages start finish, ReadWindow receipts pages start finish ∧
      start ≤ instant ∧ instant ≤ finish

/-- The pages behind a window that is still open at a cursor. -/
def OpenWindow (receipts : List AccountLogPageReceipt) (since until_ : ℤ)
    (cursor : Option String) : Prop :=
  ∃ pages last, Chain receipts pages since until_ ∧ pages.getLast? = some last ∧
    last.nextCursor = cursor

variable {receipts later pages : List AccountLogPageReceipt} {since until_ through : ℤ}
  {page : AccountLogPageReceipt} {cursor : Option String}

theorem Chain.mono (h : Chain receipts pages since until_) (hsub : receipts.Sublist later) :
    Chain later pages since until_ :=
  { h with durable := h.durable.trans hsub }

theorem ReadWindow.mono (h : ReadWindow receipts pages since until_)
    (hsub : receipts.Sublist later) : ReadWindow later pages since until_ :=
  ⟨h.toChain.mono hsub, h.finished⟩

theorem Covered.mono (h : Covered receipts since through) (hsub : receipts.Sublist later) :
    Covered later since through := by
  intro instant hsince hthrough
  obtain ⟨pages, start, finish, hread, hwithin⟩ := h instant hsince hthrough
  exact ⟨pages, start, finish, hread.mono hsub, hwithin⟩

theorem OpenWindow.mono (h : OpenWindow receipts since until_ cursor)
    (hsub : receipts.Sublist later) : OpenWindow later since until_ cursor := by
  obtain ⟨pages, last, hchain, hlast⟩ := h
  exact ⟨pages, last, hchain.mono hsub, hlast⟩

theorem Chain.first (hlane : page.lane ≠ some .audit) (hcurs : page.cursor = none) :
    Chain (receipts ++ [page]) [page] page.since page.until_ where
  durable := List.sublist_append_right receipts [page]
  pinned := by simpa using hlane
  start := by simpa using hcurs
  linked := List.isChain_singleton page

theorem Chain.next {last : AccountLogPageReceipt} (h : Chain receipts pages since until_)
    (hlast : pages.getLast? = some last) (hlane : page.lane ≠ some .audit)
    (hsince : page.since = since) (huntil : page.until_ = until_)
    (hcurs : page.cursor = last.nextCursor) :
    Chain (receipts ++ [page]) (pages ++ [page]) since until_ where
  durable := h.durable.append (List.Sublist.refl [page])
  pinned := by
    intro other hother
    rcases List.mem_append.mp hother with hold | hnew
    · exact h.pinned other hold
    · rw [List.mem_singleton.mp hnew]
      exact ⟨hlane, hsince, huntil⟩
  start := by
    intro first hfirst
    cases pages with
    | nil => exact absurd hlast (by simp)
    | cons head rest => exact h.start first hfirst
  linked := by
    rw [List.isChain_append]
    refine ⟨h.linked, List.isChain_singleton page, ?_⟩
    intro a ha b hb
    rw [hlast, Option.mem_some_iff] at ha
    rw [List.head?_cons, Option.mem_some_iff] at hb
    rw [← ha, ← hb]
    exact hcurs

theorem Covered.extend {start finish : ℤ} (h : Covered receipts since through)
    (hread : ReadWindow receipts pages start finish) (hjoin : start ≤ through) :
    Covered receipts since (max through finish) := by
  intro instant hsince hthrough
  by_cases hold : instant ≤ through
  · exact h instant hsince hold
  · have hfinish : instant ≤ finish := by
      rcases max_choice through finish with hmax | hmax
      · rw [hmax] at hthrough
        exact absurd hthrough hold
      · rwa [hmax] at hthrough
    have hstart : (start : ℚ) ≤ instant := by
      have hcast : (start : ℚ) ≤ through := by exact_mod_cast hjoin
      linarith
    exact ⟨pages, start, finish, hread, hstart, hfinish⟩

theorem Covered.of_window (hread : ReadWindow receipts pages since through) :
    Covered receipts since through :=
  fun _ hsince hthrough => ⟨pages, since, through, hread, hsince, hthrough⟩

end Windows

/-- What a stored checkpoint owes to the receipts behind it. -/
structure Traversed (receipts : List AccountLogPageReceipt) (state : AccountLogCheckpoint) :
    Prop where
  unread : state.scannedThrough = none → state.windowSince = state.requiredSince
  joined : ∀ through, state.scannedThrough = some through → state.windowSince ≤ through
  covered : ∀ through, state.scannedThrough = some through →
    Covered receipts state.requiredSince through
  opened : ∀ until_, state.windowUntil = some until_ →
    OpenWindow receipts state.windowSince until_ state.cursor

section Continuation

variable {receipts later : List AccountLogPageReceipt} {previous next : AccountLogCheckpoint}
  {receipt : AccountLogPageReceipt}

theorem Traversed.mono (h : Traversed receipts previous) (hsub : receipts.Sublist later) :
    Traversed later previous where
  unread := h.unread
  joined := h.joined
  covered through hthrough := (h.covered through hthrough).mono hsub
  opened until_ huntil := (h.opened until_ huntil).mono hsub

theorem Traversed.congr (h : Traversed receipts previous)
    (hreq : next.requiredSince = previous.requiredSince)
    (hcurs : next.cursor = previous.cursor) (hsince : next.windowSince = previous.windowSince)
    (huntil : next.windowUntil = previous.windowUntil)
    (hscan : next.scannedThrough = previous.scannedThrough) : Traversed receipts next where
  unread := by
    rw [hscan, hsince, hreq]
    exact h.unread
  joined := by
    rw [hscan, hsince]
    exact h.joined
  covered := by
    rw [hscan, hreq]
    exact h.covered
  opened := by
    rw [huntil, hsince, hcurs]
    exact h.opened

theorem traversed_fresh {state : AccountLogCheckpoint}
    (hsince : state.windowSince = state.requiredSince) (huntil : state.windowUntil = none)
    (hscan : state.scannedThrough = none) : Traversed receipts state where
  unread _ := hsince
  joined := by simp [hscan]
  covered := by simp [hscan]
  opened := by simp [huntil]

/-- A page that was asked for with the pinned request of the forward lane. -/
structure PinnedPage (previous : AccountLogCheckpoint) (receipt : AccountLogPageReceipt) :
    Prop where
  lane : receipt.lane ≠ some .audit
  cursor : receipt.cursor = previous.cursor
  since : receipt.since = previous.windowSince
  until_ : previous.windowUntil = none ∨ previous.windowUntil = some receipt.until_
  ordered : receipt.since ≤ receipt.until_
  nonneg : 0 ≤ receipt.until_
  required : previous.requiredSince ≤ previous.windowSince
  idle : previous.windowUntil = none → previous.cursor = none

theorem Traversed.chain (h : Traversed receipts previous) (hpage : PinnedPage previous receipt) :
    ∃ pages, Chain (receipts ++ [receipt]) pages receipt.since receipt.until_ ∧
      pages.getLast? = some receipt := by
  rcases hpage.until_ with hnone | hsome
  · have hcurs : receipt.cursor = none := hpage.cursor.trans (hpage.idle hnone)
    exact ⟨[receipt], Chain.first hpage.lane hcurs, rfl⟩
  · obtain ⟨pages, last, hchain, hlast, hnext⟩ := h.opened receipt.until_ hsome
    rw [← hpage.since] at hchain
    exact ⟨pages ++ [receipt], hchain.next hlast hpage.lane rfl rfl (hpage.cursor.trans hnext.symm),
      by simp⟩

theorem Traversed.finished (h : Traversed receipts previous) (hpage : PinnedPage previous receipt)
    (hexh : receipt.exhausted = true) :
    Covered (receipts ++ [receipt]) previous.requiredSince
      (max (previous.scannedThrough.getD 0) receipt.until_) := by
  obtain ⟨pages, hchain, hlast⟩ := h.chain hpage
  have hread : ReadWindow (receipts ++ [receipt]) pages receipt.since receipt.until_ :=
    ⟨hchain, receipt, hlast, hexh⟩
  cases hscan : previous.scannedThrough with
  | none =>
    have hsince : receipt.since = previous.requiredSince := hpage.since.trans (h.unread hscan)
    rw [Option.getD_none, max_eq_right hpage.nonneg, ← hsince]
    exact Covered.of_window hread
  | some through =>
    have hold := (h.covered through hscan).mono (List.sublist_append_left receipts [receipt])
    have hjoin : receipt.since ≤ through := hpage.since ▸ h.joined through hscan
    exact hold.extend hread hjoin

theorem dayStart_le (now : ℤ) : dayStart now ≤ now := by
  have hmod := Int.emod_nonneg now (show day ≠ 0 by decide)
  have hdiv := Int.mul_ediv_add_emod now day
  rw [dayStart, mul_comm]
  omega

theorem Traversed.forward (h : Traversed receipts previous) (hpage : PinnedPage previous receipt)
    (hreq : next.requiredSince = previous.requiredSince)
    (hok : assertForwardContinuation previous next receipt = .ok ()) :
    Traversed (receipts ++ [receipt]) next := by
  simp only [assertForwardContinuation, bind_eq_ok, throwIf_eq_ok, not_or, not_not] at hok
  obtain ⟨-, ⟨hsince, huntil, hcurs, hthrough⟩, -⟩ := hok
  cases hexh : receipt.exhausted with
  | false =>
    simp only [hexh, Bool.false_eq_true, if_false] at hsince huntil hthrough
    have hsub := List.sublist_append_left receipts [receipt]
    refine ⟨?_, ?_, ?_, ?_⟩
    · intro hnone
      rw [hsince, hreq, hpage.since]
      exact h.unread (hthrough ▸ hnone)
    · intro through hsome
      rw [hsince, hpage.since]
      exact h.joined through (hthrough ▸ hsome)
    · intro through hsome
      rw [hreq]
      exact (h.covered through (hthrough ▸ hsome)).mono hsub
    · intro until_ hsome
      obtain ⟨pages, hchain, hlast⟩ := h.chain hpage
      rw [huntil, Option.some_inj] at hsome
      rw [hsince, ← hsome]
      exact ⟨pages, receipt, hchain, hlast, hcurs.symm⟩
  | true =>
    simp only [hexh, if_true] at hsince huntil hthrough
    have hcontinuation : next.windowSince ≤ receipt.until_ := by
      have hstart := dayStart_le receipt.until_
      have hfirst : previous.requiredSince ≤ receipt.until_ :=
        hpage.required.trans (hpage.since ▸ hpage.ordered)
      have hday : (0 : ℤ) < day := by decide
      rw [hsince]
      apply max_le hfirst
      split_ifs <;> omega
    refine ⟨?_, ?_, ?_, ?_⟩
    · intro hnone
      rw [hthrough] at hnone
      exact absurd hnone (by simp)
    · intro through hsome
      rw [hthrough, Option.some_inj] at hsome
      rw [← hsome]
      exact hcontinuation.trans (le_max_right _ _)
    · intro through hsome
      rw [hthrough, Option.some_inj] at hsome
      rw [← hsome, hreq]
      exact h.finished hpage hexh
    · intro until_ hsome
      rw [huntil] at hsome
      exact absurd hsome (by simp)

end Continuation

section Acceptance

variable {digest : List Char → String} {now : ℤ} {receipts : List AccountLogPageReceipt}
  {previous : AccountLogCheckpoint} {progress : AccountLogProgress}
  {receipt : AccountLogPageReceipt}

theorem validateAccountLogCheckpoint_ok {row result : AccountLogCheckpoint}
    (h : validateAccountLogCheckpoint digest row now = .ok result) :
    result = row ∧ row.requiredSince ≤ row.windowSince ∧
      (row.windowUntil = none → row.cursor = none) := by
  simp only [validateAccountLogCheckpoint, bind_eq_ok, throwIf_eq_ok, pure_eq_ok_iff, not_or,
    not_lt, not_and'] at h
  obtain ⟨_, -, _, -, _, -, _, -, _, -, _, -, _, -, _, -, _, -, _, -, _, -, _,
    ⟨hsince, hidle⟩, _, -,
    _, -, _, -, _, -, rfl⟩ := h
  exact ⟨rfl, hsince, fun hnone => not_not.mp (hidle hnone)⟩

theorem validateAccountLogReceipt_ok {row result : AccountLogPageReceipt}
    (h : validateAccountLogReceipt digest row now = .ok result) :
    result = row ∧ row.since ≤ row.until_ ∧ 0 ≤ row.until_ := by
  simp only [validateAccountLogReceipt, logInteger, window, bind_eq_ok, throwIf_eq_ok,
    pure_eq_ok_iff, not_or, not_lt] at h
  obtain ⟨_, -, _, -, _, -, _, ⟨-, hnn⟩, _, -, _, -, _, -, _, -, _, -, _, -, _, -, _,
    ⟨hordered, -⟩, _, -, rfl⟩ := h
  exact ⟨rfl, hordered, hnn⟩

/-- What validation says about the receipts of a progress. -/
structure ValidReceipt (checkpoint : AccountLogCheckpoint) (receipt : AccountLogPageReceipt) :
    Prop where
  ordered : receipt.since ≤ receipt.until_
  nonneg : 0 ≤ receipt.until_
  fingerprint : receipt.accountFingerprint = checkpoint.accountFingerprint
  source : receipt.sourceNamespace = checkpoint.sourceNamespace

theorem validateAccountLogProgress_ok {row result : AccountLogProgress}
    (h : validateAccountLogProgress digest row now = .ok result) :
    result = row ∧ ∀ receipt ∈ row.receipts, ValidReceipt row.checkpoint receipt := by
  simp only [validateAccountLogProgress, bind_eq_ok] at h
  obtain ⟨checkpoint, hcheckpoint, _, -, _, -, h⟩ := h
  obtain ⟨rfl, -⟩ := validateAccountLogCheckpoint_ok hcheckpoint
  by_cases hskipped : row.readSkipped ≠ none
  · simp only [if_pos hskipped, skippedLogProgress, bind_eq_ok, throwIf_eq_ok,
      pure_eq_ok_iff, not_or, not_not, List.length_eq_zero_iff] at h
    obtain ⟨_, ⟨-, -, hempty⟩, rfl⟩ := h
    exact ⟨rfl, by simp [hempty]⟩
  · simp only [if_neg hskipped, bind_eq_ok, throwIf_eq_ok, pure_eq_ok_iff] at h
    obtain ⟨_, -, validated, hvalidated, _, hsrc, rfl⟩ := h
    have heach : ∀ receipt ∈ validated,
        receipt.since ≤ receipt.until_ ∧ 0 ≤ receipt.until_ := by
      intro receipt hrec
      obtain ⟨raw, -, hraw⟩ := exists_of_mem_mapM hvalidated hrec
      obtain ⟨rfl, hbounds⟩ := validateAccountLogReceipt_ok hraw
      exact hbounds
    have hsame : validated = row.receipts :=
      eq_of_mapM hvalidated (fun _ _ hraw => (validateAccountLogReceipt_ok hraw).1)
    subst hsame
    refine ⟨rfl, ?_⟩
    intro receipt hrec
    obtain ⟨hordered, hnn⟩ := heach receipt hrec
    have hkept : changesSource row.checkpoint receipt = false := by
      cases hchanged : changesSource row.checkpoint receipt with
      | false => rfl
      | true => exact absurd (List.any_eq_true.mpr ⟨receipt, hrec, hchanged⟩) hsrc
    simp only [changesSource, decide_eq_false_iff_not, not_or, not_not] at hkept
    exact ⟨hordered, hnn, hkept.2.2.1, hkept.1⟩

theorem Traversed.page (h : Traversed receipts previous)
    (hvalid : validateAccountLogCheckpoint digest previous now = .ok previous)
    (hrec : ValidReceipt progress.checkpoint receipt)
    (hreq : progress.checkpoint.requiredSince = previous.requiredSince)
    (hok : assertPage previous progress.checkpoint receipt = .ok ()) :
    Traversed (receipts ++ [receipt]) progress.checkpoint := by
  obtain ⟨-, hwin, hidle⟩ := validateAccountLogCheckpoint_ok hvalid
  simp only [assertPage, bind_eq_ok, throwIf_eq_ok] at hok
  obtain ⟨_, hpinned, _, -, _, -, hcont⟩ := hok
  by_cases hlane : receipt.lane = some .audit
  · simp only [if_pos hlane, assertAuditContinuation, bind_eq_ok, throwIf_eq_ok, not_or,
      not_not] at hcont
    obtain ⟨_, -, _, -, hcurs, hsince, huntil, hscan⟩ := hcont
    have hkept := h.mono (List.sublist_append_left receipts [receipt])
    exact hkept.congr hreq hcurs hsince huntil hscan
  · rw [if_neg hlane] at hcont
    simp only [pinnedRequest, if_neg hlane, not_or, not_and_or, not_not] at hpinned
    obtain ⟨hcurs, hsince, huntil⟩ := hpinned
    exact h.forward ⟨hlane, hcurs, hsince, huntil, hrec.ordered, hrec.nonneg, hwin,
      hidle⟩ hreq hcont

theorem Traversed.continued (h : Traversed receipts previous)
    (hvalid : validateAccountLogCheckpoint digest previous now = .ok previous)
    (hrecs : ∀ receipt ∈ progress.receipts, ValidReceipt progress.checkpoint receipt)
    (hok : assertContinuation previous progress = .ok ()) :
    Traversed (receipts ++ progress.receipts) progress.checkpoint := by
  simp only [assertContinuation, bind_eq_ok, throwIf_eq_ok, not_or, not_not] at hok
  obtain ⟨_, -, _, -, _, ⟨hreq, -⟩, hchain⟩ := hok
  cases hpages : progress.receipts with
  | nil =>
    simp only [assertReceiptChain, hpages, throwIf_eq_ok, not_or, not_not] at hchain
    obtain ⟨hcurs, hsince, huntil, hscan, -⟩ := hchain
    rw [List.append_nil]
    exact h.congr hreq hcurs hsince huntil hscan
  | cons receipt rest =>
    cases rest with
    | nil =>
      simp only [assertReceiptChain, hpages] at hchain
      exact h.page hvalid (hrecs receipt (by simp [hpages])) hreq hchain
    | cons second rest =>
      rw [assertReceiptChain, hpages] at hchain
      exact absurd hchain (by simp)

theorem scannedThrough_of_page {next : AccountLogCheckpoint}
    (hok : assertPage previous next receipt = .ok ()) :
    next.scannedThrough = previous.scannedThrough ∨
      next.scannedThrough = some (max (previous.scannedThrough.getD 0) receipt.until_) := by
  simp only [assertPage, bind_eq_ok, throwIf_eq_ok] at hok
  obtain ⟨_, -, _, -, _, -, hcont⟩ := hok
  by_cases hlane : receipt.lane = some .audit
  · simp only [if_pos hlane, assertAuditContinuation, bind_eq_ok, throwIf_eq_ok, not_or,
      not_not] at hcont
    obtain ⟨_, -, _, -, -, -, -, hscan⟩ := hcont
    exact .inl hscan
  · simp only [if_neg hlane, assertForwardContinuation, bind_eq_ok, throwIf_eq_ok, not_or,
      not_not] at hcont
    obtain ⟨_, ⟨-, -, -, hscan⟩, -⟩ := hcont
    cases hexh : receipt.exhausted with
    | false =>
      rw [hexh] at hscan
      exact .inl hscan
    | true =>
      rw [hexh] at hscan
      exact .inr hscan

theorem scannedThrough_le_of_continuation {through : ℤ}
    (hok : assertContinuation previous progress = .ok ())
    (hthrough : previous.scannedThrough = some through) :
    ∃ next, progress.checkpoint.scannedThrough = some next ∧ through ≤ next := by
  simp only [assertContinuation, bind_eq_ok] at hok
  obtain ⟨_, -, _, -, _, -, hchain⟩ := hok
  cases hpages : progress.receipts with
  | nil =>
    simp only [assertReceiptChain, hpages, throwIf_eq_ok, not_or, not_not] at hchain
    obtain ⟨-, -, -, hscan, -⟩ := hchain
    exact ⟨through, hscan.trans hthrough, le_rfl⟩
  | cons receipt rest =>
    cases rest with
    | nil =>
      simp only [assertReceiptChain, hpages] at hchain
      rcases scannedThrough_of_page hchain with hscan | hscan
      · exact ⟨through, hscan.trans hthrough, le_rfl⟩
      · rw [hthrough] at hscan
        exact ⟨_, hscan, le_max_left _ _⟩
    | cons second rest =>
      rw [assertReceiptChain, hpages] at hchain
      exact absurd hchain (by simp)

end Acceptance

structure System where
  db : Database
  resets : SourceKey → List ℕ

inductive Action
  | request (call : CheckpointCall)
  | persist (call : PersistCall)
  | surroundings (accounts : List AccountRow) (intents : List IntentRow)
    (consumers : List ConsumerRow)

section Runs

variable (digest : List Char → String)

def perform (db : Database) : Action → Outcome Database
  | .request call => (·.1) <$> accountLogCheckpoint digest db call
  | .persist call => persistAccountLogProgress digest db call
  | .surroundings accounts intents consumers =>
    return { db with accounts := accounts, intents := intents, consumers := consumers }

def commit (db : Database) (action : Action) : Database :=
  match perform digest db action with
  | .ok next => next
  | .error _ => db

/-- A request that stores another checkpoint is a reset. It marks the receipts stored so far. -/
def marks (s : System) (next : Database) (action : Action) (key : SourceKey) : List ℕ :=
  match action with
  | .request _ =>
    if stored next key = stored s.db key then s.resets key
    else s.db.receipts.length :: s.resets key
  | _ => s.resets key

def step (s : System) (action : Action) : System :=
  let next := commit digest s.db action
  ⟨next, marks s next action⟩

def run (s : System) (actions : List Action) : System := actions.foldl (step digest) s

end Runs

/-- The pages of a source that were stored since its last reset. -/
def pagesSince (s : System) (key : SourceKey) : List AccountLogPageReceipt :=
  ((s.db.receipts.drop ((s.resets key).headD 0)).filter (·.key = key)).map (·.payload)

structure Faithful (s : System) : Prop where
  keys : (s.db.checkpoints.map (·.key)).Nodup
  marked : ∀ key, (s.resets key).headD 0 ≤ s.db.receipts.length
  traversed : ∀ row ∈ s.db.checkpoints, Traversed (pagesSince s row.key) row.payload

section Changes

variable {digest : List Char → String} {db next : Database} {s : System} {key : SourceKey}
  {result : Option AccountLogCheckpoint}

structure Restart (db : Database) (key : SourceKey) (checkpoint : AccountLogCheckpoint) : Prop where
  window : checkpoint.windowSince = checkpoint.requiredSince
  closed : checkpoint.windowUntil = none
  unread : checkpoint.scannedThrough = none
  newer : ∀ previous, stored db key = some previous → checkpoint.revision = previous.revision + 1

theorem storedCheckpoint_ok {now : ℤ} (h : storedCheckpoint digest db key now = .ok result) :
    result = stored db key ∧ ∀ previous, result = some previous →
      validateAccountLogCheckpoint digest previous now = .ok previous := by
  cases hstored : stored db key with
  | none =>
    simp only [storedCheckpoint, hstored, pure_eq_ok_iff] at h
    exact ⟨h.symm, by simp [← h]⟩
  | some payload =>
    simp only [storedCheckpoint, hstored, map_eq_ok] at h
    obtain ⟨previous, hvalid, rfl⟩ := h
    obtain ⟨rfl, -⟩ := validateAccountLogCheckpoint_ok hvalid
    refine ⟨rfl, ?_⟩
    intro other hother
    rw [← Option.some_inj.mp hother]
    exact hvalid

theorem requestCheckpoint_cases {account : TradingAccount} {initial result : AccountLogCheckpoint}
    {now : ℤ} (hwin : initial.windowSince = initial.requiredSince)
    (hclosed : initial.windowUntil = none) (hunread : initial.scannedThrough = none)
    (h : requestCheckpoint digest db account key initial now = .ok (next, result)) :
    next = db ∨ ∃ checkpoint, Restart db key checkpoint ∧
      next = putCheckpoint db key checkpoint := by
  simp only [requestCheckpoint, bind_eq_ok] at h
  obtain ⟨previous, hprev, _, -, h⟩ := h
  obtain ⟨hstored, -⟩ := storedCheckpoint_ok hprev
  cases previous with
  | none =>
    simp only [pure_eq_ok_iff, Prod.mk.injEq] at h
    refine .inr ⟨initial, ⟨hwin, hclosed, hunread, ?_⟩, h.1.symm⟩
    intro previous hsome
    rw [← hstored] at hsome
    exact absurd hsome (by simp)
  | some previous =>
    by_cases hkept : previous.requiredSince ≤ initial.requiredSince ∧
        some previous.credentialGeneration = account.credentialGeneration
    · simp only [if_pos hkept, pure_eq_ok_iff, Prod.mk.injEq] at h
      exact .inl h.1.symm
    · simp only [if_neg hkept, pure_eq_ok_iff, Prod.mk.injEq] at h
      refine .inr ⟨restarted initial previous, ⟨rfl, hclosed, hunread, ?_⟩, h.1.symm⟩
      intro other hother
      rw [← hstored, Option.some_inj] at hother
      rw [← hother]
      rfl

theorem accountLogCheckpoint_cases {call : CheckpointCall}
    (h : accountLogCheckpoint digest db call = .ok (next, result)) :
    next = db ∨ ∃ key checkpoint, Restart db key checkpoint ∧
      next = putCheckpoint db key checkpoint := by
  unfold accountLogCheckpoint at h
  split at h
  case h_1 sourceNamespace filterHash fingerprint generation _ _ _ =>
    by_cases hempty : fingerprint = "" ∨ generation = ""
    · simp only [if_pos hempty, pure_eq_ok_iff, Prod.mk.injEq] at h
      exact .inl h.1.symm
    · simp only [if_neg hempty, bind_eq_ok, pure_eq_ok_iff, Prod.mk.injEq] at h
      obtain ⟨⟨written, checkpoint⟩, hwritten, rfl, -⟩ := h
      rcases requestCheckpoint_cases rfl rfl rfl hwritten with hsame | ⟨restart, hrestart, hput⟩
      · exact .inl hsame
      · exact .inr ⟨_, restart, hrestart, hput⟩
  case h_2 =>
    simp only [pure_eq_ok_iff, Prod.mk.injEq] at h
    exact .inl h.1.symm

theorem insertReceipt_ok {accountId : String} {revision : ℤ} {receipt : AccountLogPageReceipt}
    (h : insertReceipt digest db accountId receipt revision = .ok next) :
    next.checkpoints = db.checkpoints ∧ ∃ row : ReceiptRow, next.receipts = db.receipts ++ [row] ∧
      row.payload = receipt ∧
      row.key = ⟨accountId, receipt.accountFingerprint, receipt.sourceNamespace⟩ := by
  simp only [insertReceipt, bind_eq_ok, pure_eq_ok_iff] at h
  obtain ⟨_, -, _, -, _, -, rfl⟩ := h
  exact ⟨rfl, _, rfl, rfl, rfl⟩

theorem insertReceipts_ok {accountId : String} {revision : ℤ}
    {receipts : List AccountLogPageReceipt}
    (h : receipts.foldlM (fun db receipt => insertReceipt digest db accountId receipt revision) db =
      .ok next) :
    next.checkpoints = db.checkpoints ∧ ∃ added, next.receipts = db.receipts ++ added ∧
      added.map (·.payload) = receipts ∧ ∀ row ∈ added, row.key =
        ⟨accountId, row.payload.accountFingerprint, row.payload.sourceNamespace⟩ := by
  induction receipts generalizing db with
  | nil =>
    rw [List.foldlM_nil, pure_eq_ok_iff] at h
    exact ⟨by rw [h], [], by simp [h], rfl, by simp⟩
  | cons receipt rest ih =>
    rw [List.foldlM_cons, bind_eq_ok] at h
    obtain ⟨written, hwritten, hrest⟩ := h
    obtain ⟨hfirst, row, hrow, hpay, hkey⟩ := insertReceipt_ok hwritten
    obtain ⟨hcheckpoints, added, hadded, hpayloads, hkeys⟩ := ih hrest
    refine ⟨hcheckpoints.trans hfirst, row :: added, ?_, ?_, ?_⟩
    · rw [hadded, hrow, List.append_assoc, List.singleton_append]
    · rw [List.map_cons, hpayloads, hpay]
    · intro other hother
      rcases List.mem_cons.mp hother with rfl | hold
      · rw [hkey, hpay]
      · exact hkeys other hold

/-- What an accepted progress writes for the row it continues. -/
structure Advance (digest : List Char → String) (db next : Database) (row : CheckpointRow)
    (progress : AccountLogProgress) : Prop where
  mem : row ∈ db.checkpoints
  valid : ∃ now, validateAccountLogCheckpoint digest row.payload now = .ok row.payload
  continued : assertContinuation row.payload progress = .ok ()
  receipts : ∀ receipt ∈ progress.receipts, ValidReceipt progress.checkpoint receipt
  checkpoints : next.checkpoints = updateWhere (isRequestedRow row.key progress.baseRevision)
    (fun old => { old with
      revision := progress.checkpoint.revision
      payload := progress.checkpoint }) db.checkpoints
  pages : ∃ added, next.receipts = db.receipts ++ added ∧
    added.map (·.payload) = progress.receipts ∧ ∀ page ∈ added, page.key = row.key

theorem persistAccountLogProgress_cases {call : PersistCall}
    (h : persistAccountLogProgress digest db call = .ok next) :
    next = db ∨ ∃ row progress, Advance digest db next row progress := by
  simp only [persistAccountLogProgress, bind_eq_ok] at h
  obtain ⟨progress, hprog, _, -, result, hres, h⟩ := h
  obtain ⟨rfl, hrecs⟩ := validateAccountLogProgress_ok hprog
  obtain ⟨hstored, hvalid⟩ := storedCheckpoint_ok hres
  cases result with
  | none => exact absurd h (by simp)
  | some previous =>
    simp only [bind_eq_ok] at h
    obtain ⟨_, hcont, h⟩ := h
    by_cases hskipped : call.value.readSkipped ≠ none
    · rw [if_pos hskipped, pure_eq_ok_iff] at h
      exact .inl h.symm
    · rw [if_neg hskipped] at h
      simp only [writeProgress, bind_eq_ok, pure_eq_ok_iff] at h
      obtain ⟨written, hwritten, _, -, rfl⟩ := h
      obtain ⟨hcheckpoints, added, hadded, hpayloads, hkeys⟩ := insertReceipts_ok hwritten
      obtain ⟨row, hfind, hpay⟩ := Option.map_eq_some_iff.mp hstored.symm
      have hkey : row.key = ⟨call.account.id, call.value.checkpoint.accountFingerprint,
          call.value.checkpoint.sourceNamespace⟩ := by
        simpa using List.find?_some hfind
      subst hpay
      refine .inr ⟨row, call.value, List.mem_of_find?_eq_some hfind, ⟨_, hvalid _ rfl⟩, hcont,
        hrecs, ?_, added, hadded, hpayloads, ?_⟩
      · rw [hcheckpoints, hkey]
      · intro page hpage
        have hmem : page.payload ∈ call.value.receipts :=
          hpayloads ▸ List.mem_map_of_mem hpage
        have hbound := hrecs page.payload hmem
        rw [hkeys page hpage, hkey, hbound.fingerprint, hbound.source]

end Changes

section Preservation

variable {digest : List Char → String} {db next : Database} {s : System} {key other : SourceKey}
  {checkpoint : AccountLogCheckpoint} {action : Action} {row : CheckpointRow}

theorem mem_putCheckpoint :
    row ∈ (putCheckpoint db key checkpoint).checkpoints ↔
      row = ⟨key, checkpoint.revision, checkpoint⟩ ∨ (row ∈ db.checkpoints ∧ row.key ≠ key) := by
  by_cases hany : db.checkpoints.any (·.key = key) = true
  · simp only [putCheckpoint, hany, if_true, mem_updateWhere, decide_eq_true_eq,
      decide_eq_false_iff_not]
    obtain ⟨old, hold, hkey⟩ := List.any_eq_true.mp hany
    refine ⟨?_, ?_⟩
    · intro h
      rcases h with ⟨_, -, -, rfl⟩ | hkept
      · exact .inl rfl
      · exact .inr hkept
    · intro h
      rcases h with rfl | hkept
      · exact .inl ⟨old, hold, of_decide_eq_true hkey, rfl⟩
      · exact .inr hkept
  · simp only [putCheckpoint, hany, Bool.false_eq_true, if_false, List.mem_append,
      List.mem_singleton]
    have habsent : ∀ old ∈ db.checkpoints, old.key ≠ key := by
      intro old hold hkey
      exact hany (List.any_eq_true.mpr ⟨old, hold, decide_eq_true hkey⟩)
    refine ⟨?_, ?_⟩
    · intro h
      rcases h with hold | rfl
      · exact .inr ⟨hold, habsent row hold⟩
      · exact .inl rfl
    · intro h
      rcases h with rfl | hold
      · exact .inr rfl
      · exact .inl hold.1

theorem keys_putCheckpoint (h : (db.checkpoints.map (·.key)).Nodup) :
    ((putCheckpoint db key checkpoint).checkpoints.map (·.key)).Nodup := by
  by_cases hany : db.checkpoints.any (·.key = key) = true
  · simp only [putCheckpoint, hany, if_true]
    rw [map_updateWhere]
    · exact h
    · intro row _ hrow
      exact (of_decide_eq_true hrow).symm
  · simp only [putCheckpoint, hany, Bool.false_eq_true, if_false]
    rw [List.map_append, List.map_singleton, List.nodup_append]
    refine ⟨h, List.nodup_singleton key, ?_⟩
    intro a ha b hb heq
    obtain ⟨row, hrow, rfl⟩ := List.mem_map.mp ha
    rw [List.mem_singleton.mp hb] at heq
    exact hany (List.any_eq_true.mpr ⟨row, hrow, decide_eq_true heq⟩)

theorem stored_eq_some (h : (db.checkpoints.map (·.key)).Nodup) :
    stored db key = some checkpoint ↔
      ∃ row ∈ db.checkpoints, row.key = key ∧ row.payload = checkpoint := by
  refine ⟨?_, ?_⟩
  · intro hstored
    obtain ⟨row, hfind, hpay⟩ := Option.map_eq_some_iff.mp hstored
    exact ⟨row, List.mem_of_find?_eq_some hfind, by simpa using List.find?_some hfind, hpay⟩
  · intro hrow
    obtain ⟨row, hmem, hkey, hpay⟩ := hrow
    cases hfind : db.checkpoints.find? (·.key = key) with
    | none =>
      have habsent := List.find?_eq_none.mp hfind row hmem
      exact absurd (decide_eq_true hkey) habsent
    | some found =>
      have hfound : found.key = key := by simpa using List.find?_some hfind
      have hsame := eq_of_key h (List.mem_of_find?_eq_some hfind) hmem (hfound.trans hkey.symm)
      rw [stored, hfind, Option.map_some, hsame, hpay]

theorem stored_putCheckpoint_self (h : (db.checkpoints.map (·.key)).Nodup) :
    stored (putCheckpoint db key checkpoint) key = some checkpoint := by
  rw [stored_eq_some (keys_putCheckpoint h)]
  exact ⟨_, mem_putCheckpoint.mpr (.inl rfl), rfl, rfl⟩

theorem stored_putCheckpoint_other (h : (db.checkpoints.map (·.key)).Nodup) (hkey : other ≠ key) :
    stored (putCheckpoint db key checkpoint) other = stored db other := by
  apply Option.ext
  intro payload
  rw [stored_eq_some (keys_putCheckpoint h), stored_eq_some h]
  refine ⟨?_, ?_⟩
  · intro hrow
    obtain ⟨row, hmem, hother, hpay⟩ := hrow
    rcases mem_putCheckpoint.mp hmem with rfl | hold
    · exact absurd hother.symm hkey
    · exact ⟨row, hold.1, hother, hpay⟩
  · intro hrow
    obtain ⟨row, hmem, hother, hpay⟩ := hrow
    exact ⟨row, mem_putCheckpoint.mpr (.inr ⟨hmem, hother ▸ hkey⟩), hother, hpay⟩

theorem marks_unchanged : marks s s.db action = s.resets := by
  funext key
  cases action <;> simp [marks]

theorem Restart.stored_ne (h : Restart db key checkpoint) : some checkpoint ≠ stored db key := by
  intro heq
  have hnewer := h.newer checkpoint heq.symm
  omega

theorem marks_restart {call : CheckpointCall} (hkeys : (s.db.checkpoints.map (·.key)).Nodup)
    (h : Restart s.db key checkpoint) :
    marks s (putCheckpoint s.db key checkpoint) (.request call) other =
      if other = key then s.db.receipts.length :: s.resets other else s.resets other := by
  by_cases hkey : other = key
  · subst hkey
    simp only [marks, stored_putCheckpoint_self hkeys, if_neg h.stored_ne, if_true]
  · simp only [marks, stored_putCheckpoint_other hkeys hkey, if_true, if_neg hkey]

theorem Faithful.restart {call : CheckpointCall} (hs : Faithful s)
    (h : Restart s.db key checkpoint) :
    Faithful ⟨putCheckpoint s.db key checkpoint,
      marks s (putCheckpoint s.db key checkpoint) (.request call)⟩ where
  keys := keys_putCheckpoint hs.keys
  marked := by
    intro other
    dsimp only
    rw [marks_restart hs.keys h]
    split_ifs
    · exact le_rfl
    · exact hs.marked other
  traversed := by
    intro row hrow
    rcases mem_putCheckpoint.mp hrow with rfl | ⟨hold, hkey⟩
    · exact traversed_fresh h.window h.closed h.unread
    · have hpages : pagesSince ⟨putCheckpoint s.db key checkpoint,
          marks s (putCheckpoint s.db key checkpoint) (.request call)⟩ row.key =
          pagesSince s row.key := by
        dsimp only [pagesSince]
        rw [marks_restart hs.keys h, if_neg hkey]
        rfl
      rw [hpages]
      exact hs.traversed row hold

theorem pagesSince_append {added : List ReceiptRow} (hs : Faithful s)
    (h : next.receipts = s.db.receipts ++ added) :
    pagesSince ⟨next, s.resets⟩ key =
      pagesSince s key ++ (added.filter (·.key = key)).map (·.payload) := by
  rw [pagesSince, h, List.drop_append_of_le_length (hs.marked key), List.filter_append,
    List.map_append]
  rfl

theorem Faithful.advance {progress : AccountLogProgress} (hs : Faithful s)
    (h : Advance digest s.db next row progress) : Faithful ⟨next, s.resets⟩ := by
  obtain ⟨added, hadded, hpayloads, hkeys⟩ := h.pages
  refine ⟨?_, ?_, ?_⟩
  · rw [h.checkpoints, map_updateWhere]
    · exact hs.keys
    · intro _ _ _
      rfl
  · intro other
    have hmark := hs.marked other
    dsimp only
    rw [hadded, List.length_append]
    omega
  · intro changed hchanged
    rw [pagesSince_append hs hadded]
    rw [h.checkpoints, mem_updateWhere] at hchanged
    rcases hchanged with ⟨old, hold, hrequested, rfl⟩ | ⟨hold, -⟩
    · have hkey : old.key = row.key := by
        simp only [isRequestedRow, decide_eq_true_eq] at hrequested
        exact hrequested.1
      have hrow : old = row := eq_of_key hs.keys hold h.mem hkey
      have hall : added.filter (·.key = row.key) = added := by
        rw [List.filter_eq_self]
        intro page hpage
        exact decide_eq_true (hkeys page hpage)
      obtain ⟨now, hvalid⟩ := h.valid
      subst hrow
      rw [hall, hpayloads]
      exact (hs.traversed old h.mem).continued hvalid h.receipts h.continued
    · exact (hs.traversed changed hold).mono (List.sublist_append_left _ _)

theorem Faithful.step (hs : Faithful s) : Faithful (step digest s action) := by
  cases hperf : perform digest s.db action with
  | error e =>
    simp only [AccountLog.step, commit, hperf, marks_unchanged]
    exact hs
  | ok next =>
    simp only [AccountLog.step, commit, hperf]
    cases action with
    | request call =>
      obtain ⟨⟨written, result⟩, hwritten, rfl⟩ := map_eq_ok.mp hperf
      rcases accountLogCheckpoint_cases hwritten with hsame | ⟨key, checkpoint, hrestart, hput⟩
      · simp only [hsame, marks_unchanged]
        exact hs
      · simp only [hput]
        exact hs.restart hrestart
    | persist call =>
      rcases persistAccountLogProgress_cases hperf with hsame | ⟨row, progress, hadv⟩
      · rw [hsame, marks_unchanged]
        exact hs
      · exact hs.advance hadv
    | surroundings accounts intents consumers =>
      rw [perform, pure_eq_ok_iff] at hperf
      subst hperf
      exact ⟨hs.keys, hs.marked, hs.traversed⟩

theorem Faithful.run (hs : Faithful s) (actions : List Action) :
    Faithful (run digest s actions) := by
  induction actions generalizing s with
  | nil => exact hs
  | cons action rest ih => exact ih hs.step

theorem resets_suffix_step : s.resets key <:+ (AccountLog.step digest s action).resets key := by
  dsimp only [AccountLog.step]
  cases action with
  | request call =>
    dsimp only [marks]
    split_ifs
    · exact List.suffix_rfl
    · exact List.suffix_cons _ _
  | persist call => exact List.suffix_rfl
  | surroundings accounts intents consumers => exact List.suffix_rfl

theorem resets_suffix_run (actions : List Action) :
    s.resets key <:+ (AccountLog.run digest s actions).resets key := by
  induction actions generalizing s with
  | nil => exact List.suffix_rfl
  | cons action rest ih => exact resets_suffix_step.trans ih

theorem scannedThrough_step (hs : Faithful s) {through : ℤ} (hrow : row ∈ s.db.checkpoints)
    (hthrough : row.payload.scannedThrough = some through)
    (hresets : (AccountLog.step digest s action).resets row.key = s.resets row.key) :
    ∃ later ∈ (AccountLog.step digest s action).db.checkpoints, later.key = row.key ∧
      ∃ next, later.payload.scannedThrough = some next ∧ through ≤ next := by
  have hkept : ∃ later ∈ s.db.checkpoints, later.key = row.key ∧
      ∃ next, later.payload.scannedThrough = some next ∧ through ≤ next :=
    ⟨row, hrow, rfl, through, hthrough, le_rfl⟩
  cases hperf : perform digest s.db action with
  | error e => simpa only [AccountLog.step, commit, hperf] using hkept
  | ok next =>
    simp only [AccountLog.step, commit, hperf] at hresets ⊢
    cases action with
    | request call =>
      obtain ⟨⟨written, result⟩, hwritten, rfl⟩ := map_eq_ok.mp hperf
      rcases accountLogCheckpoint_cases hwritten with hsame | ⟨key, checkpoint, hrestart, hput⟩
      · simpa only [hsame] using hkept
      · simp only [hput] at hresets ⊢
        have hkey : row.key ≠ key := by
          intro heq
          rw [marks_restart hs.keys hrestart, if_pos heq] at hresets
          exact absurd hresets (by simp)
        exact ⟨row, mem_putCheckpoint.mpr (.inr ⟨hrow, hkey⟩), rfl, through, hthrough, le_rfl⟩
    | persist call =>
      rcases persistAccountLogProgress_cases hperf with hsame | ⟨old, progress, hadv⟩
      · simpa only [hsame] using hkept
      · simp only [hadv.checkpoints, mem_updateWhere]
        by_cases hrequested : isRequestedRow old.key progress.baseRevision row = true
        · have hkey : row.key = old.key := by
            simp only [isRequestedRow, decide_eq_true_eq] at hrequested
            exact hrequested.1
          have hsame : row = old := eq_of_key hs.keys hrow hadv.mem hkey
          subst hsame
          obtain ⟨newer, hnewer, hle⟩ :=
            scannedThrough_le_of_continuation hadv.continued hthrough
          exact ⟨_, .inl ⟨row, hrow, hrequested, rfl⟩, rfl, newer, hnewer, hle⟩
        · exact ⟨row, .inr ⟨hrow, Bool.eq_false_iff.mpr hrequested⟩, rfl, through, hthrough, le_rfl⟩
    | surroundings accounts intents consumers =>
      rw [perform, pure_eq_ok_iff] at hperf
      subst hperf
      exact hkept

theorem scannedThrough_run (actions : List Action) (hs : Faithful s) {through : ℤ}
    (hrow : row ∈ s.db.checkpoints) (hthrough : row.payload.scannedThrough = some through)
    (hresets : (AccountLog.run digest s actions).resets row.key = s.resets row.key) :
    ∃ later ∈ (AccountLog.run digest s actions).db.checkpoints, later.key = row.key ∧
      ∃ next, later.payload.scannedThrough = some next ∧ through ≤ next := by
  induction actions generalizing s row through with
  | nil => exact ⟨row, hrow, rfl, through, hthrough, le_rfl⟩
  | cons action rest ih =>
    have hfirst : s.resets row.key <:+ (AccountLog.step digest s action).resets row.key :=
      resets_suffix_step
    have hrest : (AccountLog.step digest s action).resets row.key <:+
        (AccountLog.run digest s (action :: rest)).resets row.key :=
      resets_suffix_run (s := AccountLog.step digest s action) rest
    rw [hresets] at hrest
    have hstep := hfirst.eq_of_length_le hrest.length_le
    obtain ⟨middle, hmid, hkey, between, hbetween, hle⟩ :=
      scannedThrough_step hs hrow hthrough hstep.symm
    obtain ⟨later, hlater, hlast, next, hnext, hnextle⟩ := ih hs.step hmid hbetween
      (by rw [hkey, ← hstep]; exact hresets)
    exact ⟨later, hlater, hlast.trans hkey, next, hnext, hle.trans hnextle⟩

end Preservation

def started (db : Database) : System := ⟨{ db with checkpoints := [] }, fun _ => []⟩

theorem faithful_started (db : Database) : Faithful (started db) where
  keys := List.nodup_nil
  marked := by simp [started]
  traversed := by simp [started]

/-- Scanned time was read, it does not shrink between resets, and a call that throws changes no
table. -/
theorem scanned_time_was_read (digest : List Char → String) (db : Database)
    (actions : List Action) :
    let s := run digest (started db) actions
    (∀ row ∈ s.db.checkpoints, ∀ through, row.payload.scannedThrough = some through →
      Covered (pagesSince s row.key) row.payload.requiredSince through) ∧
    (∀ row ∈ s.db.checkpoints, ∀ through later, row.payload.scannedThrough = some through →
      (run digest s later).resets row.key = s.resets row.key →
      ∃ other ∈ (run digest s later).db.checkpoints, other.key = row.key ∧
        ∃ next, other.payload.scannedThrough = some next ∧ through ≤ next) ∧
    (∀ action e, perform digest s.db action = .error e → (step digest s action).db = s.db) := by
  intro s
  have hs : Faithful s := (faithful_started db).run actions
  refine ⟨?_, ?_, ?_⟩
  · intro row hrow through hthrough
    exact (hs.traversed row hrow).covered through hthrough
  · intro row hrow through later hthrough hresets
    exact scannedThrough_run later hs hrow hthrough hresets
  · intro action e herror
    simp only [step, commit, herror]

/-- A window of two pages is requested, read and stored. -/
def twoPageRun : List Action :=
  let fingerprint := String.ofList (List.replicate 64 'a')
  let generation := String.ofList (List.replicate 64 'b')
  let account : TradingAccount := ⟨"account", "hyperliquid", some fingerprint, some generation⟩
  let initial := initialCheckpoint hyperliquidSpec.sourceNamespace
    (String.ofList hyperliquidSpec.filter) fingerprint generation 0
  let opened := { initial with revision := 1, windowUntil := some 4000, cursor := some "7" }
  let finished := { initial with revision := 2, scannedThrough := some 4000 }
  let page : AccountLogPageReceipt :=
    { toSourceBinding := initial.toSourceBinding, since := 0, until_ := 4000, cursor := none,
      nextCursor := some "7", startedAt := 4000, completedAt := 4500, providerResponseAt := none,
      providerAccountUid := none, exhausted := false, records := [], lane := some .forward }
  let last := { page with cursor := some "7", nextCursor := none, exhausted := true }
  [.surroundings [⟨"account", some fingerprint, some generation⟩] [] [], .request ⟨account, 5000⟩,
    .persist ⟨account, ⟨none, 0, 1, opened, [page]⟩, 5000, 5000⟩,
    .persist ⟨account, ⟨none, 1, 1, finished, [last]⟩, 5000, 5000⟩]

theorem scanned_time_was_read_two_pages :
    ∃ row ∈ (run String.ofList (started ⟨[], [], [], [], [], []⟩) twoPageRun).db.checkpoints,
      row.payload.scannedThrough = some 4000 ∧
      Covered (pagesSince (run String.ofList (started ⟨[], [], [], [], [], []⟩) twoPageRun) row.key)
        row.payload.requiredSince 4000 := by
  have hrow :
    ((run String.ofList (started ⟨[], [], [], [], [], []⟩) twoPageRun).db.checkpoints.find?
      (fun row => row.payload.scannedThrough = some 4000)).isSome = true := by
    decide +kernel
  obtain ⟨row, hfind⟩ := Option.isSome_iff_exists.mp hrow
  have hmem := List.mem_of_find?_eq_some hfind
  have hthrough : row.payload.scannedThrough = some 4000 := by
    simpa using List.find?_some hfind
  exact ⟨row, hmem, hthrough,
    (scanned_time_was_read String.ofList ⟨[], [], [], [], [], []⟩ twoPageRun).1 row hmem 4000
      hthrough⟩

end TsxCore.AccountLog
