import TsxCore.OperationalRetention
import TsxCore.Trace

/-!
# Duplicate signals and retention

A stored signal is found again as a duplicate for as long as no retention run deletes it.
The lookup and the retention have horizons of their own, so a permanent cooldown, or one
that is longer than the retention, ends with the retention.
-/

namespace TsxCore.OperationalRetention

open Outcome OldestRows

variable {attemptHash : String → SignalProvenance → String} {isoDay : ℤ → String}
  {id chatId xmlContent normalizedContent : String} {messageId now retentionDays batchSize : ℤ}
  {provenance : Option SignalProvenance} {row : SignalStorageRow} {db after : Database}

section Runs

structure State where
  db : Database
  clock : ℤ

/-- A call that read the clock at `now`, or a change of the other tables. -/
inductive Event
  | save (now : ℤ) (id chatId : String) (messageId : ℤ) (xmlContent normalizedContent : String)
    (provenance : Option SignalProvenance)
  | find (now : ℤ) (normalizedContent : String) (cooldownHours : ℚ)
    (excludeSignalId dedupeScope : Option String)
  | prune (now retentionDays batchSize : ℤ)
  | elsewhere (other : Database)

/-- A transaction that throws leaves the tables as they were. -/
def committed {α : Type} (db : Database) : Outcome (α × Database) → Database
  | .ok (_, after) => after
  | .error _ => db

def step (attemptHash : String → SignalProvenance → String) (isoDay : ℤ → String) (s : State) :
    Event → Option State
  | .save now id chatId messageId xmlContent normalizedContent provenance =>
    if s.clock ≤ now then some ⟨committed s.db
      (saveSignal attemptHash now id chatId messageId xmlContent
      normalizedContent provenance s.db), now⟩ else none
  | .find now _ _ _ _ => if s.clock ≤ now then some ⟨s.db, now⟩ else none
  | .prune now retentionDays batchSize =>
    if s.clock ≤ now then
      some ⟨committed s.db (pruneOperationalData isoDay retentionDays batchSize now s.db), now⟩
        else none
  | .elsewhere other => some ⟨{ other with signals := s.db.signals }, s.clock⟩

/-- The call keeps the signal: it is recent, an open task or an intent protects it, or the
batch is full of older ones. -/
def Spared (retentionDays batchSize now : ℤ) (db : Database) (row : SignalStorageRow) : Prop :=
  let cutoff := retentionCutoff retentionDays now
  let intents := (pruneTradingData db.trading cutoff batchSize.toNat).2.intents
  cutoff ≤ row.createdAt ∨ openTask db.pendingTasks row = true ∨
    (∃ intent ∈ intents, intent.sourceSignalId = row.id) ∨
    row ∉ oldest (expiredSignal cutoff db.pendingTasks intents) (·.createdAt) batchSize.toNat
      db.signals.rows

/-- Every retention run of a trace keeps the signal. -/
def SparedAlong (attemptHash : String → SignalProvenance → String) (isoDay : ℤ → String)
    (row : SignalStorageRow) : State → List Event → Prop
  | _, [] => True
  | s, event :: events => (∀ now retentionDays batchSize,
    event = .prune now retentionDays batchSize →
      Spared retentionDays batchSize now s.db row) ∧
    ∀ t, step attemptHash isoDay s event = some t → SparedAlong attemptHash isoDay row t events

end Runs

section Steps

theorem saveSignal_keeps (h : saveSignal attemptHash now id chatId messageId xmlContent
    normalizedContent provenance db = .ok (row, after)) :
    after.signals = (db.signals.insert
      (signalRow now id chatId messageId xmlContent normalizedContent
      provenance)).2 ∧ row ∈ after.signals.rows ∧ row.id = id ∧
      row.normalizedContent = normalizedContent := by
  rw [saveSignal, bind_eq_ok] at h
  obtain ⟨_, hsame, h⟩ := h
  rw [throwIf_eq_ok] at hsame
  rw [pure_eq_ok_iff, Prod.mk.injEq] at h
  obtain ⟨rfl, rfl⟩ := h
  have hsignals : ∀ db : Database,
      (recordAttempt attemptHash now id provenance db).signals = db.signals := by
    intro db
    cases provenance <;> rfl
  push Not at hsame
  rw [hsignals]
  have hfind := Keyed.find_insert (t := db.signals) (k := id)
    (x := signalRow now id chatId messageId xmlContent normalizedContent provenance)
  rw [if_pos (show (signalRow now id chatId messageId xmlContent normalizedContent provenance).id =
    id
    from rfl), Keyed.find_eq_some] at hfind
  exact ⟨rfl, hfind.1, hfind.2, hsame.2.2.1⟩

theorem mem_insert {other : SignalStorageRow} (h : row ∈ db.signals.rows) :
    row ∈ (db.signals.insert other).2.rows := by
  by_cases hold : (db.signals.find other.id).isSome
  · rwa [Keyed.insert_of_find hold]
  · rw [Option.not_isSome_iff_eq_none] at hold
    rw [Keyed.rows_insert hold]
    exact List.mem_append_left _ h

theorem spared_iff (h : row ∈ db.signals.rows) : Spared retentionDays batchSize now db row ↔
    prunedSignal retentionDays batchSize.toNat now db row = false := by
  rw [← Bool.not_eq_true, prunedSignal, selected_iff db.signals.nodup h, Spared]
  refine ⟨?_, ?_⟩
  · rintro (hrecent | htask | ⟨intent, hint, hsrc⟩ | hrest) hpruned
    · have hexpired := (mem_of_oldest hpruned).2
      simp only [expiredSignal, Bool.and_eq_true, decide_eq_true_eq] at hexpired
      omega
    · have hexpired := (mem_of_oldest hpruned).2
      simp [expiredSignal, htask] at hexpired
    · have hexpired := (mem_of_oldest hpruned).2
      simp only [expiredSignal, Bool.and_eq_true, Bool.not_eq_true', List.any_eq_false,
        decide_eq_true_eq] at hexpired
      exact hexpired.2 intent hint hsrc
    · exact hrest hpruned
  · exact fun hkept => .inr (.inr (.inr hkept))

theorem prune_keeps {result : OperationalRetentionResult}
    (h : pruneOperationalData isoDay retentionDays batchSize now db = .ok (result, after))
    (hrow : row ∈ db.signals.rows) (hspared : Spared retentionDays batchSize now db row) :
    row ∈ after.signals.rows := by
  rw [spared_iff hrow] at hspared
  simp only [pruneOperationalData, bind_eq_ok, throwIf_eq_ok, pure_eq_ok_iff, Prod.mk.injEq] at h
  obtain ⟨_, -, _, -, _, -, -, rfl⟩ := h
  exact Keyed.mem_delete.mpr ⟨hrow, hspared⟩

theorem step_keeps {s t : State} {event : Event} (h : step attemptHash isoDay s event = some t)
    (hrow : row ∈ s.db.signals.rows)
    (hspared : ∀ now retentionDays batchSize, event = .prune now retentionDays batchSize →
      Spared retentionDays batchSize now s.db row) : row ∈ t.db.signals.rows := by
  cases event with
  | save now id chatId messageId xmlContent normalizedContent provenance =>
    rw [step, Option.ite_none_right_eq_some] at h
    cases h.2
    cases hsave : saveSignal attemptHash now id chatId messageId xmlContent normalizedContent
      provenance s.db with
    | error e => exact hrow
    | ok saved =>
      show row ∈ saved.2.signals.rows
      rw [(saveSignal_keeps hsave).1]
      exact mem_insert hrow
  | find now normalizedContent cooldownHours excludeSignalId dedupeScope =>
    rw [step, Option.ite_none_right_eq_some] at h
    cases h.2
    exact hrow
  | prune now retentionDays batchSize =>
    rw [step, Option.ite_none_right_eq_some] at h
    cases h.2
    cases hprune : pruneOperationalData isoDay retentionDays batchSize now s.db with
    | error e => exact hrow
    | ok pruned => exact prune_keeps hprune hrow (hspared now retentionDays batchSize rfl)
  | elsewhere other =>
    cases h
    exact hrow

theorem run_keeps {s t : State} {events : List Event}
    (h : Trace.run (step attemptHash isoDay) s events = some t) (hrow : row ∈ s.db.signals.rows)
    (hspared : SparedAlong attemptHash isoDay row s events) : row ∈ t.db.signals.rows := by
  induction events generalizing s with
  | nil =>
    rw [Trace.run_nil] at h
    exact h ▸ hrow
  | cons event events ih =>
    obtain ⟨m, hm, hrest⟩ := Trace.run_cons.mp h
    exact ih hrest (step_keeps hm hrow hspared.1) (hspared.2 m hm)

end Steps

section Lookup

variable {excludeSignalId scopeSuffix : Option String}

theorem latest_isSome {rows : List SignalStorageRow} (h : row ∈ rows) :
    ∃ found, latest rows = some found := by
  rw [latest]
  refine Option.isSome_iff_exists.mp (List.isSome_head?.mpr ?_)
  exact List.ne_nil_of_mem ((List.mem_insertionSort _).mpr h)

theorem findCooldownDuplicate_of_mem {minTime : ℚ} (hrow : row ∈ db.signals.rows)
    (hcand : candidate normalizedContent excludeSignalId scopeSuffix row = true)
    (hrecent : minTime ≤ row.createdAt) :
    ∃ found, findCooldownDuplicate db normalizedContent minTime now excludeSignalId scopeSuffix =
      some found ∧ found.isDupe = true := by
  have hmem : row ∈ db.signals.rows.filter (fun other =>
      candidate normalizedContent excludeSignalId scopeSuffix other && minTime ≤ other.createdAt) :=
    List.mem_filter.mpr ⟨hrow, by simp [hcand, hrecent]⟩
  obtain ⟨found, hfound⟩ := latest_isSome hmem
  rw [findCooldownDuplicate, hfound]
  exact ⟨_, rfl, rfl⟩

theorem findPermanentDuplicate_of_mem (hrow : row ∈ db.signals.rows)
    (hcand : candidate normalizedContent excludeSignalId scopeSuffix row = true) :
    ∃ found, findPermanentDuplicate db normalizedContent excludeSignalId scopeSuffix = some found ∧
      found.isDupe = true := by
  obtain ⟨found, hfound⟩ := latest_isSome (List.mem_filter.mpr ⟨hrow, hcand⟩)
  rw [findPermanentDuplicate, hfound]
  exact ⟨_, rfl, rfl⟩

/-- A stored signal of the content and the scope is reported, unless it is older than the
cooldown. -/
theorem findDuplicateSignal_of_mem {cooldownHours : ℚ} {dedupeScope : Option String}
    (hrow : row ∈ db.signals.rows) (hcontn : row.normalizedContent = normalizedContent)
    (hscope : ∀ scope ∈ dedupeScope, scopePattern scope = true ∧
      hasSuffix ("_" ++ scope) row.id = true)
    (hother : some row.id ≠ orNull excludeSignalId)
    (hcooldown : cooldownHours = 0 ∨ (now - row.createdAt : ℤ) ≤ cooldownHours * 60 * 60 * 1000) :
    ∃ found, findDuplicateSignal now normalizedContent cooldownHours excludeSignalId
      dedupeScope db =
      .ok (some found) ∧ found.isDupe = true := by
  have hcand : candidate normalizedContent excludeSignalId
      (dedupeScope.map (fun scope => "_" ++ scope)) row = true := by
    simp only [candidate, Bool.and_eq_true, decide_eq_true_eq, hcontn, true_and]
    refine ⟨hother, ?_⟩
    cases dedupeScope with
    | none => rfl
    | some scope => exact (hscope scope rfl).2
  have hvalid : ¬ dedupeScope.any (fun scope => !scopePattern scope) = true := by
    cases dedupeScope with
    | none => simp
    | some scope => simp [(hscope scope rfl).1]
  rw [findDuplicateSignal, throwIf_of_not hvalid, ok_bind]
  split_ifs with hpos
  · have hrecent : (now : ℚ) - cooldownHours * 60 * 60 * 1000 ≤ row.createdAt := by
      rcases hcooldown with hzero | hage
      · exact absurd hpos (by rw [hzero]; exact lt_irrefl 0)
      · push_cast at hage
        linarith
    have hdup : ∃ found, findCooldownDuplicate db _ _ now _ _ = some found ∧ found.isDupe = true :=
      findCooldownDuplicate_of_mem hrow hcand hrecent
    obtain ⟨found, hfound, hdupe⟩ := hdup
    exact ⟨found, congrArg Except.ok hfound, hdupe⟩
  · obtain ⟨found, hfound, hdupe⟩ := findPermanentDuplicate_of_mem hrow hcand
    exact ⟨found, congrArg Except.ok hfound, hdupe⟩

end Lookup

section Protection

variable {s t : State} {events : List Event} {cooldownHours : ℚ}
  {excludeSignalId dedupeScope : Option String}

theorem saveSignal_createdAt {start : Database} {savedAt : ℤ} (hnew : start.signals.find id = none)
    (hsave : saveSignal attemptHash savedAt id chatId messageId xmlContent normalizedContent
      provenance
      start = .ok (row, db)) : row.createdAt = savedAt := by
  obtain ⟨hsignals, hrow, hid, -⟩ := saveSignal_keeps hsave
  rw [hsignals, Keyed.rows_insert hnew, List.mem_append, List.mem_singleton] at hrow
  rcases hrow with hold | rfl
  · exact absurd hid (Keyed.find_eq_none.mp hnew row hold)
  · rfl

/-- A signal that every later retention run spares is reported as a duplicate. -/
theorem duplicate_reported {start : Database} {savedAt : ℤ}
    (hsave : saveSignal attemptHash savedAt id chatId messageId xmlContent normalizedContent
      provenance
      start = .ok (row, db))
    (hrun : Trace.run (step attemptHash isoDay) ⟨db, savedAt⟩ events = some t)
    (hspared : SparedAlong attemptHash isoDay row ⟨db, savedAt⟩ events)
    (hscope : ∀ scope ∈ dedupeScope, scopePattern scope = true ∧ hasSuffix ("_" ++ scope) id = true)
    (hother : some id ≠ orNull excludeSignalId)
    (hcooldown : cooldownHours = 0 ∨ (now - row.createdAt : ℤ) ≤ cooldownHours * 60 * 60 * 1000) :
    (start.signals.find id = none → row.createdAt = savedAt) ∧
      ∃ found, findDuplicateSignal now normalizedContent cooldownHours excludeSignalId dedupeScope
        t.db = .ok (some found) ∧ found.isDupe = true := by
  obtain ⟨-, hrow, hid, hcontn⟩ := saveSignal_keeps hsave
  have hlast := run_keeps hrun hrow hspared
  refine ⟨fun hnew => saveSignal_createdAt hnew hsave, findDuplicateSignal_of_mem hlast hcontn ?_ ?_
    hcooldown⟩
  · rwa [hid]
  · rwa [hid]

def emptyDatabase : Database := ⟨.empty, .empty, .empty, [], [], [], {}⟩

def savedSignal : SignalStorageRow := signalRow 1 "first" "-1001" 7 "<signal/>" "<signal/>" none

def savedDatabase : Database :=
  { emptyDatabase with signals := ⟨[savedSignal], List.nodup_singleton _⟩ }

/-- A retention of one day deletes the signal one day later, and the same content is not
reported: neither with the permanent cooldown nor with one of a week. -/
theorem pruned_signal_not_reported :
    saveSignal (fun id _ => id) 1 "first" "-1001" 7 "<signal/>" "<signal/>" none emptyDatabase =
      .ok (savedSignal, savedDatabase) ∧
    ∃ t, Trace.run (step (fun id _ => id) (fun _ => "")) ⟨savedDatabase, 1⟩
        [.prune 86400002 1 100] = some t ∧
      findDuplicateSignal 86400002 "<signal/>" 0 (some "second") none t.db = .ok none ∧
      findDuplicateSignal 86400002 "<signal/>" 168 (some "second") none t.db = .ok none := by
  refine ⟨rfl, _, rfl, ?_, ?_⟩
  · decide +kernel
  · decide +kernel

theorem duplicate_reported_recent : ∃ t, Trace.run (step (fun id _ => id) (fun _ => ""))
      ⟨savedDatabase, 1⟩ [.prune 86400001 1 100] = some t ∧
    ∃ found, findDuplicateSignal 86400001 "<signal/>" 0 (some "second") none t.db =
      .ok (some found) ∧ found.isDupe = true := by
  obtain ⟨t, hrun⟩ : ∃ t, Trace.run (step (fun id _ => id) (fun _ => "")) ⟨savedDatabase, 1⟩
      [.prune 86400001 1 100] = some t := ⟨_, rfl⟩
  have hsave : saveSignal (fun id _ => id) 1 "first" "-1001" 7 "<signal/>" "<signal/>" none
      emptyDatabase = .ok (savedSignal, savedDatabase) := rfl
  have hother : some "first" ≠ orNull (some "second") := by decide
  refine ⟨t, hrun, (duplicate_reported hsave hrun ⟨?_, fun _ _ => trivial⟩ ?_ hother (.inl rfl)).2⟩
  · intro now retentionDays batchSize heq
    cases heq
    exact .inl (by decide)
  · intro scope hscope
    cases hscope

end Protection

end TsxCore.OperationalRetention
