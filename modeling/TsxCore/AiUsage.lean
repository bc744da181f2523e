import TsxCore.KeyedTable
import TsxCore.OutcomeErrors
import TsxCore.JsRuntime
import TsxCore.SignificantDigits
import TsxCore.Trace

/-!
# The ledger of AI usage (`db.ts`)

A provider attempt reserves an allowance of tokens on its day and settles it with the tokens it
used, or with the allowance when these are unknown. The row of the day adds up what its
reservations say, the used tokens as long as the doubles of the database library carry them. A
statement that fails, or a crash before the commit, leaves the tables as they were.
-/

namespace TsxCore

section Totals

variable {R K M : Type} [DecidableEq K] [AddCommGroup M] {key : R → K} {t : Keyed key} {x : R}
  {w : R → M}

namespace Keyed

theorem total_insert (h : t.find (key x) = none) : (t.insert x).2.total w = t.total w + w x := by
  rw [total, rows_insert h, List.map_append, List.sum_append, List.map_singleton,
    List.sum_singleton, total]

theorem total_update_key {f : R → R} {hf : ∀ r, key (f r) = key r} {k : K}
    (h : t.find k = some x) :
    (t.update (fun r => key r = k) f hf).total w = t.total w - w x + w (f x) := by
  have hfind : (t.update (fun r => key r = k) f hf).find k = some (f x) := by
    rw [find_update, h, Option.map_some, if_pos (decide_eq_true (key_of_find h))]
  have hrest : (t.update (fun r => key r = k) f hf).rows.filter (fun r => !decide (key r = k)) =
      t.rows.filter (fun r => !decide (key r = k)) := by
    change (t.rows.map (fun r => if decide (key r = k) then f r else r)).filter _ = _
    rw [List.filter_map]
    have hkept : (fun r => !decide (key r = k)) ∘ (fun r => if decide (key r = k) then f r else r) =
        fun r => !decide (key r = k) := by
      funext r
      by_cases hr : key r = k <;> simp [hr, hf]
    rw [hkept]
    nth_rewrite 2 [← List.map_id (t.rows.filter _)]
    apply List.map_congr_left
    intro r hr
    have hne := (List.mem_filter.mp hr).2
    simp only [Bool.not_eq_true', decide_eq_false_iff_not] at hne
    simp [hne]
  have hnew := sum_split w (t.update (fun r => key r = k) f hf).nodup k
  have hold := sum_split w t.nodup k
  rw [find] at hfind h
  rw [hfind, hrest] at hnew
  rw [h] at hold
  rw [total, total, hnew, hold]
  simp only [Option.map_some, Option.getD_some]
  abel

end Keyed

theorem sum_map_filter {p : R → Bool} {rows : List R} :
    ((rows.filter p).map w).sum = (rows.map (fun r => if p r then w r else 0)).sum := by
  induction rows with
  | nil => rfl
  | cons r rows ih =>
    by_cases hr : p r = true
    · simp [hr, ih]
    · simp [hr, ih]

end Totals

namespace AiUsage

open Outcome

section Arithmetic

/-- The double nearest to an integer, which is an integer too. -/
def doubleOf (value : ℤ) : ℤ := ⌊SignificantDigits.nearestDouble value⌋

/-- A number of a statement, an INTEGER of 64 bits or a REAL. -/
structure SqlNumber where
  value : ℤ
  integer : Bool

def inInt64 (value : ℤ) : Prop := -9223372036854775808 ≤ value ∧ value < 9223372036854775808
  deriving Decidable

/-- A count read from its column, which keeps whole numbers as INTEGER while they fit. -/
def column (value : ℤ) : SqlNumber := ⟨value, decide (inInt64 value)⟩

/-- A bound parameter: the library binds what is no 32-bit integer as REAL. -/
def parameter (value : ℤ) : SqlNumber :=
  ⟨value, decide (-2147483648 ≤ value ∧ value ≤ 2147483647)⟩

/-- `a + b`: of two integers unless it overflows, else of their doubles. -/
def SqlNumber.add (a b : SqlNumber) : SqlNumber :=
  if a.integer ∧ b.integer ∧ inInt64 (a.value + b.value) then ⟨a.value + b.value, true⟩
  else ⟨doubleOf (doubleOf a.value + doubleOf b.value), false⟩

/-- `a - b`. -/
def SqlNumber.sub (a b : SqlNumber) : SqlNumber := a.add ⟨-b.value, b.integer⟩

variable {value : ℤ} {a b : SqlNumber}

theorem doubleOf_eq (h : |value| ≤ maxSafeInteger) : doubleOf value = value := by
  rw [maxSafeInteger] at h
  rw [doubleOf, SignificantDigits.nearestDouble_intCast (by omega), Int.floor_intCast]

theorem doubleOf_nonneg (h : 0 ≤ value) : 0 ≤ doubleOf value :=
  Int.floor_nonneg.mpr (SignificantDigits.nearestDouble_nonneg (by exact_mod_cast h))

theorem lt_doubleOf (h : maxSafeInteger < value) : maxSafeInteger < doubleOf value := by
  rw [maxSafeInteger] at h ⊢
  have hge : (9007199254740992 : ℚ) ≤ value := by exact_mod_cast h
  have hfloor : 9007199254740992 ≤ doubleOf value :=
    Int.le_floor.mpr (by exact_mod_cast SignificantDigits.le_nearestDouble hge)
  omega

theorem SqlNumber.add_of_safe (ha : |a.value| ≤ maxSafeInteger) (hb : |b.value| ≤ maxSafeInteger)
    (h : |a.value + b.value| ≤ maxSafeInteger) : (a.add b).value = a.value + b.value := by
  rw [SqlNumber.add]
  split_ifs
  · rfl
  · rw [doubleOf_eq ha, doubleOf_eq hb, doubleOf_eq h]

theorem SqlNumber.add_nonneg (ha : 0 ≤ a.value) (hb : 0 ≤ b.value) : 0 ≤ (a.add b).value := by
  rw [SqlNumber.add]
  split_ifs
  · exact Int.add_nonneg ha hb
  · exact doubleOf_nonneg (Int.add_nonneg (doubleOf_nonneg ha) (doubleOf_nonneg hb))

/-- A sum beyond the safe integers stays beyond them. -/
theorem SqlNumber.lt_add (ha : 0 ≤ a.value) (hb : 0 ≤ b.value)
    (h : maxSafeInteger < a.value + b.value) : maxSafeInteger < (a.add b).value := by
  rw [SqlNumber.add]
  split_ifs
  · exact h
  · have hrest := doubleOf_nonneg ha
    have hother := doubleOf_nonneg hb
    apply lt_doubleOf
    by_cases hlarge : maxSafeInteger < a.value
    · have := lt_doubleOf hlarge
      omega
    · by_cases hlargeOther : maxSafeInteger < b.value
      · have := lt_doubleOf hlargeOther
        omega
      · rw [doubleOf_eq (by rw [abs_of_nonneg ha]; omega),
          doubleOf_eq (by rw [abs_of_nonneg hb]; omega)]
        exact h

theorem SqlNumber.add_eq (ha : 0 ≤ a.value) (hb : 0 ≤ b.value)
    (h : a.value + b.value ≤ maxSafeInteger) : (a.add b).value = a.value + b.value :=
  SqlNumber.add_of_safe (by rw [abs_of_nonneg ha]; omega) (by rw [abs_of_nonneg hb]; omega)
    (by rw [abs_of_nonneg (Int.add_nonneg ha hb)]; exact h)

theorem SqlNumber.add_le (ha : 0 ≤ a.value) (hb : 0 ≤ b.value) {limit : ℤ}
    (hlimit : limit ≤ maxSafeInteger) (h : (a.add b).value ≤ limit) :
    a.value + b.value ≤ limit := by
  have hsafe : a.value + b.value ≤ maxSafeInteger := by
    by_contra hnot
    have := SqlNumber.lt_add ha hb (by omega)
    omega
  rwa [SqlNumber.add_eq ha hb hsafe] at h

theorem SqlNumber.sub_eq (hb : 0 ≤ b.value) (hle : b.value ≤ a.value)
    (ha : a.value ≤ maxSafeInteger) : (a.sub b).value = a.value - b.value := by
  have hother : |-b.value| ≤ maxSafeInteger := by
    rw [abs_neg, abs_of_nonneg hb]
    omega
  have hdiff : |a.value + -b.value| ≤ maxSafeInteger := by
    rw [abs_of_nonneg (by omega)]
    omega
  rw [SqlNumber.sub, SqlNumber.add_of_safe (by rw [abs_of_nonneg (hb.trans hle)]; exact ha) hother
    hdiff]
  exact (sub_eq_add_neg a.value b.value).symm

end Arithmetic

section Tables

inductive ReservationStatus
  | reserved
  | settledKnown
  | settledUnknown
  deriving DecidableEq

/-- A row of `ai_usage_daily`. -/
structure AiUsageDay where
  usageDay : String
  requestCount : ℤ
  usedTokens : ℤ
  reservedTokens : ℤ
  updatedAt : ℤ

structure AiUsageReservationRow where
  id : String
  usageDay : String
  allowance : ℤ
  status : ReservationStatus
  actualTokens : Option ℤ
  createdAt : ℤ
  settledAt : Option ℤ

structure Database where
  daily : Keyed AiUsageDay.usageDay
  reservations : Keyed AiUsageReservationRow.id

structure AiUsageReservation where
  id : String
  usageDay : String
  allowance : ℤ

/-- `request_count = request_count + 1, reserved_tokens = reserved_tokens + ?`. -/
def AiUsageDay.reserving (allowance now : ℤ) (row : AiUsageDay) : AiUsageDay :=
  { row with
    requestCount := row.requestCount + 1
    reservedTokens := ((column row.reservedTokens).add (parameter allowance)).value
    updatedAt := now }

/-- `reserved_tokens = reserved_tokens - ?, used_tokens = used_tokens + ?`. -/
def AiUsageDay.settling (allowance actual now : ℤ) (row : AiUsageDay) : AiUsageDay :=
  { row with
    reservedTokens := ((column row.reservedTokens).sub (parameter allowance)).value
    usedTokens := ((column row.usedTokens).add (parameter actual)).value
    updatedAt := now }

/-- `SET status = ?, actual_tokens = ?, settled_at = ?`. -/
def AiUsageReservationRow.settled (status : ReservationStatus) (actual now : ℤ)
    (row : AiUsageReservationRow) : AiUsageReservationRow :=
  { row with status := status, actualTokens := some actual, settledAt := some now }

end Tables

section Code

/-- `/^\d{4}-\d{2}-\d{2}$/`. -/
def usageDayPattern (usageDay : String) : Bool :=
  match usageDay.toList with
  | [y₁, y₂, y₃, y₄, '-', m₁, m₂, '-', d₁, d₂] => [y₁, y₂, y₃, y₄, m₁, m₂, d₁, d₂].all Char.isDigit
  | _ => false

/-- `Number.isSafeInteger(value) && value > 0`. -/
def positiveSafe (value : ℤ) : Prop := isSafeInteger value ∧ 0 < value
  deriving Decidable

/-- `used_tokens + reserved_tokens + ?`. -/
def AiUsageDay.tokensWith (tokenAllowance : ℤ) (row : AiUsageDay) : ℤ :=
  (((column row.usedTokens).add (column row.reservedTokens)).add (parameter tokenAllowance)).value

def admits (usageDay : String) (tokenAllowance dailyRequestLimit dailyTokenLimit : ℤ)
    (row : AiUsageDay) : Bool :=
  row.usageDay = usageDay && row.requestCount < dailyRequestLimit &&
    row.tokensWith tokenAllowance ≤ dailyTokenLimit

def constraint : Thrown := .error "SQLITE_CONSTRAINT"

/-- `INSERT OR IGNORE INTO ai_usage_daily VALUES (?, 0, 0, 0, ?)`. -/
def openDay (usageDay : String) (now : ℤ) (db : Database) : Database :=
  { db with daily := (db.daily.insert ⟨usageDay, 0, 0, 0, now⟩).2 }

def insertReservation (row : AiUsageReservationRow) (db : Database) : Outcome Database := do
  throwIf ((db.reservations.insert row).1 = false) constraint
  return { db with reservations := (db.reservations.insert row).2 }

/-- `none` is the refusal `false`; the row of the day stays behind. -/
def reserveAiUsage (uuid : String) (now : ℤ) (usageDay : String)
    (tokenAllowance dailyRequestLimit dailyTokenLimit : ℤ) (db : Database) :
    Outcome (Option AiUsageReservation × Database) := do
  throwIf (usageDayPattern usageDay = false) (.error "usageDay must use YYYY-MM-DD.")
  throwIf (¬ (positiveSafe tokenAllowance ∧ positiveSafe dailyRequestLimit ∧
    positiveSafe dailyTokenLimit)) (.error "AI usage limits must be positive safe integers.")
  let db := openDay usageDay now db
  let admitted := admits usageDay tokenAllowance dailyRequestLimit dailyTokenLimit
  if db.daily.changes admitted = 0 then return (none, db)
  else do
    let db := { db with
      daily := db.daily.update admitted (AiUsageDay.reserving tokenAllowance now) (fun _ => rfl) }
    let db ← insertReservation ⟨uuid, usageDay, tokenAllowance, .reserved, none, now, none⟩ db
    return (some ⟨uuid, usageDay, tokenAllowance⟩, db)

def inconsistent : Thrown :=
  .error "AI usage aggregate is inconsistent; reservation remains bound."

/-- `actualTokens !== null && Number.isSafeInteger(actualTokens) && actualTokens >= 0`. -/
def knownTokens (actualTokens : Option ℤ) : Option ℤ :=
  actualTokens.filter (fun actual => decide (isSafeInteger actual ∧ 0 ≤ actual))

def settlementStatus (actualTokens : Option ℤ) : ReservationStatus :=
  if (knownTokens actualTokens).isSome then .settledKnown else .settledUnknown

/-- The reservations that still hold their allowance in the row of the day. -/
def holds (usageDay : String) (allowance : ℤ) (row : AiUsageDay) : Bool :=
  row.usageDay = usageDay && allowance ≤ row.reservedTokens

def settle (now : ℤ) (row : AiUsageReservationRow) (status : ReservationStatus) (actual : ℤ)
    (db : Database) : Outcome Database := do
  throwIf (db.daily.changes (holds row.usageDay row.allowance) = 0) inconsistent
  return {
    daily := db.daily.update (holds row.usageDay row.allowance)
      (AiUsageDay.settling row.allowance actual now) (fun _ => rfl)
    reservations := db.reservations.update (fun other => other.id = row.id)
      (AiUsageReservationRow.settled status actual now) (fun _ => rfl) }

def commitAiUsage (now : ℤ) (reservationId : String) (allowance : ℤ) (actualTokens : Option ℤ)
    (db : Database) : Outcome Database :=
  let actual := (knownTokens actualTokens).getD allowance
  let status := settlementStatus actualTokens
  match db.reservations.find reservationId with
  | none => .error (.error ("No AI usage reservation exists for " ++ reservationId ++ "."))
  | some row => do
    throwIf (row.allowance ≠ allowance) (.error "AI settlement conflict: allowance differs.")
    if row.status ≠ .reserved then do
      throwIf (¬ (row.status = status ∧ row.actualTokens = some actual))
        (.error "AI settlement conflict: reservation already settled differently.")
      return db
    else settle now row status actual db

/-- The days that `pruneOperationalData` deletes. -/
def prunedDays (cutoffDay : String) (batchSize : ℕ) (db : Database) : List String :=
  (((db.daily.rows.filter (fun row => row.usageDay < cutoffDay && row.reservedTokens = 0 &&
      !db.reservations.rows.any (fun reservation => reservation.usageDay = row.usageDay &&
        reservation.status = .reserved))).insertionSort
    (fun a b => a.usageDay ≤ b.usageDay)).take batchSize).map (·.usageDay)

def pruneUsage (cutoffDay : String) (batchSize : ℕ) (db : Database) : Database :=
  { db with
    daily := db.daily.delete
      (fun row => (prunedDays cutoffDay batchSize db).contains row.usageDay) }

end Code

section Runs

inductive Action
  | reserve (uuid : String) (now : ℤ) (usageDay : String)
      (tokenAllowance dailyRequestLimit dailyTokenLimit : ℤ)
  | commit (now : ℤ) (reservationId : String) (allowance : ℤ) (actualTokens : Option ℤ)
  | prune (cutoffDay : String) (batchSize : ℕ)
  /-- The process ends before its transaction is committed. -/
  | crash

def reserve (uuid : String) (now : ℤ) (usageDay : String)
    (tokenAllowance dailyRequestLimit dailyTokenLimit : ℤ) (db : Database) : Database :=
  match reserveAiUsage uuid now usageDay tokenAllowance dailyRequestLimit dailyTokenLimit db with
  | .ok (_, next) => next
  | .error _ => db

def commit (now : ℤ) (reservationId : String) (allowance : ℤ) (actualTokens : Option ℤ)
    (db : Database) : Database :=
  match commitAiUsage now reservationId allowance actualTokens db with
  | .ok next => next
  | .error _ => db

/-- The runs in which the row of `day` is not pruned. -/
def step (day : String) (db : Database) : Action → Option Database
  | .reserve uuid now usageDay tokenAllowance dailyRequestLimit dailyTokenLimit =>
    some (reserve uuid now usageDay tokenAllowance dailyRequestLimit dailyTokenLimit db)
  | .commit now reservationId allowance actualTokens =>
    some (commit now reservationId allowance actualTokens db)
  | .prune cutoffDay batchSize =>
    if day ∈ prunedDays cutoffDay batchSize db then none
    else some (pruneUsage cutoffDay batchSize db)
  | .crash => some db

end Runs

section Changes

variable {day : String} {db next : Database} {action : Action} {t : Keyed AiUsageDay.usageDay}
  {p : AiUsageDay → Bool} {allowance now : ℤ}

/-- What an admitted reservation does to the reservations and to the row of one day. -/
structure Reserves (day uuid usageDay : String)
    (now tokenAllowance dailyRequestLimit dailyTokenLimit : ℤ) (db next : Database) : Prop where
  unused : db.reservations.find uuid = none
  positive : 0 < tokenAllowance
  safe : dailyTokenLimit ≤ maxSafeInteger
  reservations : next.reservations = (db.reservations.insert
    ⟨uuid, usageDay, tokenAllowance, .reserved, none, now, none⟩).2
  other : usageDay ≠ day → next.daily.find day = db.daily.find day
  day : usageDay = day → ∃ row, row = (db.daily.find day).getD ⟨day, 0, 0, 0, now⟩ ∧
    row.requestCount < dailyRequestLimit ∧ row.tokensWith tokenAllowance ≤ dailyTokenLimit ∧
    next.daily.find day = some (row.reserving tokenAllowance now)

/-- What a settlement does to them. -/
structure Settles (day : String) (row : AiUsageReservationRow) (now allowance : ℤ)
    (actualTokens : Option ℤ) (db next : Database) : Prop where
  find : db.reservations.find row.id = some row
  opened : row.status = .reserved
  same : row.allowance = allowance
  reservations : next.reservations = db.reservations.update (fun other => other.id = row.id)
    (AiUsageReservationRow.settled (settlementStatus actualTokens)
      ((knownTokens actualTokens).getD allowance) now) (fun _ => rfl)
  other : row.usageDay ≠ day → next.daily.find day = db.daily.find day
  day : row.usageDay = day → ∃ total, db.daily.find day = some total ∧
    allowance ≤ total.reservedTokens ∧ next.daily.find day =
      some (total.settling allowance ((knownTokens actualTokens).getD allowance) now)

/-- What one step does to them. -/
inductive Change (day : String) : Action → Database → Database → Prop
  | quiet {action : Action} {db next : Database} (hresvs : next.reservations = db.reservations)
      (hday : next.daily.find day = db.daily.find day ∨
        db.daily.find day = none ∧ ∃ now, next.daily.find day = some ⟨day, 0, 0, 0, now⟩) :
      Change day action db next
  | reserved {db next : Database} {uuid usageDay : String}
      {now tokenAllowance dailyRequestLimit dailyTokenLimit : ℤ}
      (h : Reserves day uuid usageDay now tokenAllowance dailyRequestLimit dailyTokenLimit
        db next) :
      Change day (.reserve uuid now usageDay tokenAllowance dailyRequestLimit dailyTokenLimit)
        db next
  | settled {db next : Database} {now allowance : ℤ} {actualTokens : Option ℤ}
      {row : AiUsageReservationRow} (h : Settles day row now allowance actualTokens db next) :
      Change day (.commit now row.id allowance actualTokens) db next

theorem find_openDay (usageDay : String) (now : ℤ) :
    (openDay usageDay now db).daily.find day = if usageDay = day then
      some ((db.daily.find day).getD ⟨usageDay, 0, 0, 0, now⟩) else db.daily.find day :=
  Keyed.find_insert

theorem openDay_day (usageDay : String) (now : ℤ) :
    (openDay usageDay now db).daily.find day = db.daily.find day ∨
      db.daily.find day = none ∧
        ∃ updatedAt, (openDay usageDay now db).daily.find day = some ⟨day, 0, 0, 0, updatedAt⟩ := by
  rw [find_openDay]
  split_ifs with hsame
  · subst hsame
    cases hfind : db.daily.find usageDay with
    | none =>
      exact .inr ⟨rfl, now, rfl⟩
    | some row => exact .inl rfl
  · exact .inl rfl

theorem find_reserving :
    (t.update p (AiUsageDay.reserving allowance now) (fun _ => rfl)).find day =
      (t.find day).map (fun row => if p row then row.reserving allowance now else row) :=
  Keyed.find_update

theorem find_settling {actual : ℤ} :
    (t.update p (AiUsageDay.settling allowance actual now) (fun _ => rfl)).find day =
      (t.find day).map (fun row => if p row then row.settling allowance actual now else row) :=
  Keyed.find_update

theorem reserve_change {uuid usageDay : String}
    {tokenAllowance dailyRequestLimit dailyTokenLimit : ℤ} :
    Change day (.reserve uuid now usageDay tokenAllowance dailyRequestLimit dailyTokenLimit) db
      (reserve uuid now usageDay tokenAllowance dailyRequestLimit dailyTokenLimit db) := by
  unfold reserve
  cases h : reserveAiUsage uuid now usageDay tokenAllowance dailyRequestLimit
    dailyTokenLimit db with
  | error e => exact .quiet rfl (.inl rfl)
  | ok pair =>
    obtain ⟨result, next⟩ := pair
    dsimp only
    simp only [reserveAiUsage, bind_eq_ok, throwIf_eq_ok, not_not] at h
    obtain ⟨-, -, -, ⟨⟨-, hpos⟩, -, hlimit, -⟩, h⟩ := h
    have hsafe : dailyTokenLimit ≤ maxSafeInteger := by
      rw [isSafeInteger] at hlimit
      omega
    split_ifs at h with hrefd
    · obtain ⟨-, rfl⟩ := Prod.mk.inj (pure_eq_ok_iff.mp h)
      exact .quiet rfl (openDay_day usageDay now)
    · simp only [bind_eq_ok, pure_eq_ok_iff, insertReservation, throwIf_eq_ok] at h
      obtain ⟨inserted, ⟨-, hnew, rfl⟩, hpair⟩ := h
      obtain ⟨-, rfl⟩ := Prod.mk.inj hpair
      rw [Bool.not_eq_false, Keyed.insert_fst, Option.isNone_iff_eq_none] at hnew
      refine .reserved ⟨hnew, hpos, hsafe, rfl, ?_, ?_⟩
      · intro hne
        refine find_reserving.trans ?_
        rw [find_openDay, if_neg hne]
        cases hfind : db.daily.find day with
        | none => rfl
        | some row =>
          have hday : row.usageDay = day := Keyed.key_of_find hfind
          rw [Option.map_some, if_neg]
          simp only [admits, Bool.and_eq_true, decide_eq_true_eq]
          intro hadm
          exact hne (hadm.1.1.symm.trans hday)
      · intro hday
        have hopened : (openDay usageDay now db).daily.find usageDay =
            some ((db.daily.find usageDay).getD ⟨usageDay, 0, 0, 0, now⟩) := by
          rw [find_openDay, if_pos rfl]
        rw [Keyed.changes_of_key (k := usageDay), hopened] at hrefd
        · subst hday
          have hadm : admits usageDay tokenAllowance dailyRequestLimit dailyTokenLimit
              ((db.daily.find usageDay).getD ⟨usageDay, 0, 0, 0, now⟩) = true := by
            by_contra hnot
            exact hrefd (if_neg hnot)
          have hlimits := hadm
          simp only [admits, Bool.and_eq_true, decide_eq_true_eq] at hlimits
          refine ⟨_, rfl, hlimits.1.2, hlimits.2, ?_⟩
          refine find_reserving.trans ?_
          rw [hopened, Option.map_some, if_pos hadm]
        · intro row hrow
          simp only [admits, Bool.and_eq_true, decide_eq_true_eq] at hrow
          exact hrow.1.1

theorem commit_change {reservationId : String} {actualTokens : Option ℤ} :
    Change day (.commit now reservationId allowance actualTokens) db
      (commit now reservationId allowance actualTokens db) := by
  unfold commit
  cases h : commitAiUsage now reservationId allowance actualTokens db with
  | error e => exact .quiet rfl (.inl rfl)
  | ok next =>
    dsimp only
    unfold commitAiUsage at h
    cases hfind : db.reservations.find reservationId with
    | none =>
      rw [hfind] at h
      cases h
    | some row =>
      obtain rfl : row.id = reservationId := Keyed.key_of_find hfind
      simp only [hfind, bind_eq_ok, throwIf_eq_ok, not_not] at h
      obtain ⟨-, hallowance, h⟩ := h
      split_ifs at h with hset
      · simp only [bind_eq_ok, pure_eq_ok_iff] at h
        obtain ⟨-, -, rfl⟩ := h
        exact .quiet rfl (.inl rfl)
      · simp only [settle, bind_eq_ok, throwIf_eq_ok, pure_eq_ok_iff] at h
        obtain ⟨-, hholds, rfl⟩ := h
        subst hallowance
        refine .settled ⟨hfind, not_not.mp hset, rfl, rfl, ?_, ?_⟩
        · intro hne
          refine find_settling.trans ?_
          cases htotal : db.daily.find day with
          | none => rfl
          | some total =>
            have hday : total.usageDay = day := Keyed.key_of_find htotal
            rw [Option.map_some, if_neg]
            simp only [holds, Bool.and_eq_true, decide_eq_true_eq]
            intro hheld
            exact hne (hheld.1.symm.trans hday)
        · intro hday
          rw [hday] at hholds ⊢
          rw [Keyed.changes_of_key (k := day)] at hholds
          · cases htotal : db.daily.find day with
            | none =>
              rw [htotal] at hholds
              exact absurd rfl hholds
            | some total =>
              rw [htotal] at hholds
              have hheld : holds day row.allowance total = true := by
                by_contra hnot
                exact hholds (if_neg hnot)
              have hresv := hheld
              simp only [holds, Bool.and_eq_true, decide_eq_true_eq] at hresv
              refine ⟨total, rfl, hresv.2, ?_⟩
              refine find_settling.trans ?_
              rw [htotal, Option.map_some, if_pos hheld]
          · intro total htotal
            simp only [holds, Bool.and_eq_true, decide_eq_true_eq] at htotal
            exact htotal.1

theorem find_pruneUsage {cutoffDay : String} {batchSize : ℕ}
    (h : day ∉ prunedDays cutoffDay batchSize db) :
    (pruneUsage cutoffDay batchSize db).daily.find day = db.daily.find day := by
  cases hfind : db.daily.find day with
  | none =>
    rw [Keyed.find_eq_none] at hfind ⊢
    intro row hrow
    exact hfind row (Keyed.mem_delete.mp hrow).1
  | some row =>
    obtain ⟨hrow, hday⟩ := Keyed.find_eq_some.mp hfind
    rw [Keyed.find_eq_some]
    refine ⟨Keyed.mem_delete.mpr ⟨hrow, ?_⟩, hday⟩
    rw [hday, Bool.eq_false_iff]
    intro hpruned
    exact h (List.contains_iff_mem.mp hpruned)

theorem step_change (h : step day db action = some next) : Change day action db next := by
  cases action with
  | reserve uuid now usageDay tokenAllowance dailyRequestLimit dailyTokenLimit =>
    obtain rfl := Option.some.inj h
    exact reserve_change
  | commit now reservationId allowance actualTokens =>
    obtain rfl := Option.some.inj h
    exact commit_change
  | prune cutoffDay batchSize =>
    simp only [step] at h
    split_ifs at h with hkept
    obtain rfl := Option.some.inj h
    exact .quiet rfl (.inl (find_pruneUsage hkept))
  | crash =>
    obtain rfl := Option.some.inj h
    exact .quiet rfl (.inl rfl)

end Changes

section Ledger

variable {day : String} {db next : Database} {action : Action} {row : AiUsageReservationRow}
  {status : ReservationStatus}

structure Usage where
  requestCount : ℤ
  usedTokens : ℤ
  reservedTokens : ℤ
  deriving DecidableEq

/-- `SELECT request_count, used_tokens, reserved_tokens`. -/
def dayUsage (usageDay : String) (db : Database) : Usage :=
  match db.daily.find usageDay with
  | some row => ⟨row.requestCount, row.usedTokens, row.reservedTokens⟩
  | none => ⟨0, 0, 0⟩

def reservationsOf (day : String) (db : Database) : List AiUsageReservationRow :=
  db.reservations.rows.filter (fun row => row.usageDay = day)

def counted (day : String) (row : AiUsageReservationRow) : ℤ :=
  if row.usageDay = day then 1 else 0

def held (day : String) (row : AiUsageReservationRow) : ℤ :=
  if row.usageDay = day then if row.status = .reserved then row.allowance else 0 else 0

def charged (day : String) (row : AiUsageReservationRow) : ℤ :=
  if row.usageDay = day then
    if row.status ≠ .reserved then row.actualTokens.getD 0 else 0
  else 0

/-- The row of the day says what its reservations add up to. -/
structure Ledger (day : String) (db : Database) : Prop where
  count : (dayUsage day db).requestCount = db.reservations.total (counted day)
  reserved : (dayUsage day db).reservedTokens = db.reservations.total (held day)
  bounded : (dayUsage day db).reservedTokens ≤ maxSafeInteger
  used : db.reservations.total (charged day) ≤ maxSafeInteger →
    (dayUsage day db).usedTokens = db.reservations.total (charged day)
  nonneg : 0 ≤ (dayUsage day db).usedTokens
  positive : ∀ row ∈ db.reservations.rows, row.usageDay = day → 0 < row.allowance

theorem dayUsage_congr (h : next.daily.find day = db.daily.find day) :
    dayUsage day next = dayUsage day db := by
  rw [dayUsage, dayUsage, h]

theorem dayUsage_of_find {total : AiUsageDay} (h : db.daily.find day = some total) :
    dayUsage day db = ⟨total.requestCount, total.usedTokens, total.reservedTokens⟩ := by
  rw [dayUsage, h]

theorem dayUsage_getD {now : ℤ} :
    dayUsage day db = ⟨((db.daily.find day).getD ⟨day, 0, 0, 0, now⟩).requestCount,
      ((db.daily.find day).getD ⟨day, 0, 0, 0, now⟩).usedTokens,
      ((db.daily.find day).getD ⟨day, 0, 0, 0, now⟩).reservedTokens⟩ := by
  unfold dayUsage
  cases db.daily.find day with
  | none => rfl
  | some total => rfl

theorem total_filter {w : AiUsageReservationRow → ℤ} : db.reservations.total
    (fun row => if row.usageDay = day then w row else 0) = ((reservationsOf day db).map w).sum := by
  rw [reservationsOf, sum_map_filter, Keyed.total]
  simp only [decide_eq_true_eq]

theorem total_counted :
    db.reservations.total (counted day) = (reservationsOf day db).length := by
  refine total_filter.trans ?_
  simp

theorem total_held : db.reservations.total (held day) =
    (((reservationsOf day db).filter (fun row => row.status = .reserved)).map
      (·.allowance)).sum := by
  refine total_filter.trans ?_
  rw [sum_map_filter]
  simp only [decide_eq_true_eq]

theorem total_charged : db.reservations.total (charged day) =
    (((reservationsOf day db).filter (fun row => row.status ≠ .reserved)).map
      (fun row => row.actualTokens.getD 0)).sum := by
  refine total_filter.trans ?_
  rw [sum_map_filter]
  simp only [decide_eq_true_eq]

theorem mem_reservationsOf :
    row ∈ reservationsOf day db ↔ row ∈ db.reservations.rows ∧ row.usageDay = day := by
  rw [reservationsOf, List.mem_filter, decide_eq_true_eq]

theorem Ledger.allowance_nonneg (h : Ledger day db) :
    ∀ allowance ∈ ((reservationsOf day db).filter (fun row => row.status = .reserved)).map
      (·.allowance), 0 ≤ allowance := by
  intro allowance hallowance
  obtain ⟨row, hrow, rfl⟩ := List.mem_map.mp hallowance
  obtain ⟨hmem, hday⟩ := mem_reservationsOf.mp (List.mem_filter.mp hrow).1
  exact (h.positive row hmem hday).le

theorem Ledger.reserved_nonneg (h : Ledger day db) : 0 ≤ (dayUsage day db).reservedTokens := by
  rw [h.reserved, total_held]
  exact List.sum_nonneg h.allowance_nonneg

theorem Ledger.congr (h : Ledger day db) (husage : dayUsage day next = dayUsage day db)
    (htotals : ∀ w ∈ [counted day, held day, charged day],
      next.reservations.total w = db.reservations.total w)
    (hpos : ∀ row ∈ next.reservations.rows, row.usageDay = day → 0 < row.allowance) :
    Ledger day next := by
  simp only [List.forall_mem_cons, List.not_mem_nil, false_implies, implies_true,
    and_true] at htotals
  obtain ⟨hcount, hheld, hcharged⟩ := htotals
  refine ⟨?_, ?_, ?_, ?_, ?_, hpos⟩
  · rw [husage, hcount, h.count]
  · rw [husage, hheld, h.reserved]
  · rw [husage]
    exact h.bounded
  · rw [husage, hcharged]
    exact h.used
  · rw [husage]
    exact h.nonneg

theorem ledger_quiet (h : Ledger day db) (hresvs : next.reservations = db.reservations)
    (hday : next.daily.find day = db.daily.find day ∨
      db.daily.find day = none ∧ ∃ now, next.daily.find day = some ⟨day, 0, 0, 0, now⟩) :
    Ledger day next := by
  have hsame : dayUsage day next = dayUsage day db := by
    obtain hkept | ⟨hnone, now, hopened⟩ := hday
    · exact dayUsage_congr hkept
    · rw [dayUsage_of_find hopened, dayUsage, hnone]
  refine h.congr hsame ?_ ?_
  · rw [hresvs]
    exact fun _ _ => rfl
  · rw [hresvs]
    exact h.positive

theorem charge_nonneg {allowance : ℤ} (h : 0 ≤ allowance) (actualTokens : Option ℤ) :
    0 ≤ (knownTokens actualTokens).getD allowance := by
  cases hknown : knownTokens actualTokens with
  | none => exact h
  | some actual =>
    have hactual := (Option.filter_eq_some_iff.mp hknown).2
    simp only [decide_eq_true_eq] at hactual
    exact hactual.2

/-- An admitted allowance fits under the limit without rounding. -/
theorem AiUsageDay.sum_le {total : AiUsageDay} {allowance limit : ℤ}
    (hused : 0 ≤ total.usedTokens) (hheld : 0 ≤ total.reservedTokens) (hallowance : 0 ≤ allowance)
    (hlimit : limit ≤ maxSafeInteger) (h : total.tokensWith allowance ≤ limit) :
    total.usedTokens + total.reservedTokens + allowance ≤ limit := by
  have houter := SqlNumber.add_le (a := (column total.usedTokens).add (column total.reservedTokens))
    (b := parameter allowance) (SqlNumber.add_nonneg hused hheld) hallowance hlimit h
  change _ + allowance ≤ limit at houter
  have hinner := @SqlNumber.add_le (column total.usedTokens) (column total.reservedTokens)
    hused hheld
    (limit - allowance) (by omega) (by omega)
  change total.usedTokens + total.reservedTokens ≤ limit - allowance at hinner
  omega

theorem AiUsageDay.reservedTokens_reserving {total : AiUsageDay} {allowance now : ℤ}
    (hheld : 0 ≤ total.reservedTokens) (hallowance : 0 ≤ allowance)
    (h : total.reservedTokens + allowance ≤ maxSafeInteger) :
    (total.reserving allowance now).reservedTokens = total.reservedTokens + allowance :=
  SqlNumber.add_eq (a := column total.reservedTokens) (b := parameter allowance) hheld hallowance h

theorem AiUsageDay.reservedTokens_settling {total : AiUsageDay} {allowance actual now : ℤ}
    (hallowance : 0 ≤ allowance) (hle : allowance ≤ total.reservedTokens)
    (h : total.reservedTokens ≤ maxSafeInteger) :
    (total.settling allowance actual now).reservedTokens = total.reservedTokens - allowance :=
  SqlNumber.sub_eq (a := column total.reservedTokens) (b := parameter allowance) hallowance hle h

theorem AiUsageDay.usedTokens_settling {total : AiUsageDay} {allowance actual now : ℤ}
    (hused : 0 ≤ total.usedTokens) (hactual : 0 ≤ actual)
    (h : total.usedTokens + actual ≤ maxSafeInteger) :
    (total.settling allowance actual now).usedTokens = total.usedTokens + actual :=
  SqlNumber.add_eq (a := column total.usedTokens) (b := parameter actual) hused hactual h

theorem ledger_reserved {uuid usageDay : String}
    {now tokenAllowance dailyRequestLimit dailyTokenLimit : ℤ} (h : Ledger day db)
    (hreserves : Reserves day uuid usageDay now tokenAllowance dailyRequestLimit dailyTokenLimit db
      next) : Ledger day next := by
  obtain ⟨hnew, hpos, hsafe, hresvs, hother, hday⟩ := hreserves
  have hw {w : AiUsageReservationRow → ℤ} : next.reservations.total w =
      db.reservations.total w +
        w ⟨uuid, usageDay, tokenAllowance, .reserved, none, now, none⟩ := by
    rw [hresvs]
    exact Keyed.total_insert hnew
  have hpositive : ∀ row ∈ next.reservations.rows, row.usageDay = day → 0 < row.allowance := by
    rw [hresvs, Keyed.rows_insert hnew]
    intro row hrow hrowday
    obtain hold | hfresh := List.mem_append.mp hrow
    · exact h.positive row hold hrowday
    · obtain rfl := List.mem_singleton.mp hfresh
      exact hpos
  by_cases hsame : usageDay = day
  · obtain ⟨row, hrow, -, htokens, hfind⟩ := hday hsame
    have husage : dayUsage day db = ⟨row.requestCount, row.usedTokens, row.reservedTokens⟩ := by
      rw [hrow]
      exact dayUsage_getD
    have hheld := h.reserved_nonneg
    obtain ⟨hcount, hreserved, -, hused, hnonneg, -⟩ := h
    rw [husage] at hcount hreserved hused hnonneg hheld
    dsimp only at hcount hreserved hused hnonneg hheld
    have hsum := AiUsageDay.sum_le hnonneg hheld hpos.le hsafe htokens
    have hnext := dayUsage_of_find hfind
    rw [AiUsageDay.reservedTokens_reserving hheld hpos.le (by omega)] at hnext
    have hcounted : counted day ⟨uuid, usageDay, tokenAllowance, .reserved, none, now, none⟩ = 1 :=
      if_pos hsame
    have hheldNew : held day ⟨uuid, usageDay, tokenAllowance, .reserved, none, now, none⟩ =
        tokenAllowance := if_pos hsame
    have hchargedNew : charged day ⟨uuid, usageDay, tokenAllowance, .reserved, none, now, none⟩ =
        0 := by
      simp [charged]
    refine ⟨?_, ?_, ?_, ?_, ?_, hpositive⟩
    · rw [hnext, hw, hcounted, ← hcount]
      rfl
    · rw [hnext, hw, hheldNew, ← hreserved]
    · rw [hnext]
      dsimp only
      omega
    · rw [hnext, hw, hchargedNew, add_zero]
      exact hused
    · rw [hnext]
      exact hnonneg
  · refine h.congr (dayUsage_congr (hother hsame)) ?_ hpositive
    intro w hmem
    rw [hw]
    simp only [List.mem_cons, List.not_mem_nil, or_false] at hmem
    rcases hmem with rfl | rfl | rfl <;> simp [counted, held, charged, hsame]

theorem ledger_settled {now allowance : ℤ} {actualTokens : Option ℤ} (h : Ledger day db)
    (hsettles : Settles day row now allowance actualTokens db next) : Ledger day next := by
  obtain ⟨hfind, hopen, hallowance, hresvs, hother, hday⟩ := hsettles
  have hw {w : AiUsageReservationRow → ℤ} : next.reservations.total w =
      db.reservations.total w - w row + w (row.settled (settlementStatus actualTokens)
        ((knownTokens actualTokens).getD allowance) now) := by
    rw [hresvs]
    exact Keyed.total_update_key hfind
  have hstatus : settlementStatus actualTokens ≠ .reserved := by
    unfold settlementStatus
    split_ifs <;> decide
  have hpositive : ∀ row ∈ next.reservations.rows, row.usageDay = day → 0 < row.allowance := by
    rw [hresvs]
    intro other hrow hrowday
    obtain ⟨old, hold, rfl⟩ := List.mem_map.mp hrow
    have hpos := h.positive old hold
    split_ifs at hrowday ⊢ with hkey
    · exact hpos hrowday
    · exact hpos hrowday
  by_cases hsame : row.usageDay = day
  · obtain ⟨total, htotal, hle, hnext⟩ := hday hsame
    have hpos : 0 < allowance := hallowance ▸ h.positive row (Keyed.mem_of_find hfind) hsame
    have hcharge := charge_nonneg hpos.le actualTokens
    obtain ⟨hcount, hreserved, hbounded, hused, hnonneg, -⟩ := h
    rw [dayUsage_of_find htotal] at hcount hreserved hbounded hused hnonneg
    dsimp only at hcount hreserved hbounded hused hnonneg
    have hnewUsage := dayUsage_of_find hnext
    rw [AiUsageDay.reservedTokens_settling hpos.le hle hbounded] at hnewUsage
    refine ⟨?_, ?_, ?_, ?_, ?_, hpositive⟩
    · rw [hnewUsage, hw]
      refine hcount.trans ?_
      simp only [counted, AiUsageReservationRow.settled]
      exact (sub_add_cancel _ _).symm
    · rw [hnewUsage, hw]
      simp [held, AiUsageReservationRow.settled, hsame, hopen, hstatus, hallowance, ← hreserved]
    · rw [hnewUsage]
      dsimp only
      omega
    · have hcharged : next.reservations.total (charged day) = db.reservations.total (charged day) +
          (knownTokens actualTokens).getD allowance := by
        rw [hw]
        simp [charged, AiUsageReservationRow.settled, hsame, hopen, hstatus]
      rw [hnewUsage, hcharged]
      intro hsafe
      have hold := hused (by omega)
      rw [← hold] at hsafe ⊢
      exact @AiUsageDay.usedTokens_settling total allowance _ now hnonneg hcharge hsafe
    · rw [hnewUsage]
      exact SqlNumber.add_nonneg (a := column total.usedTokens)
        (b := parameter ((knownTokens actualTokens).getD allowance)) hnonneg hcharge
  · refine h.congr (dayUsage_congr (hother hsame)) ?_ hpositive
    intro w hmem
    rw [hw]
    simp only [List.mem_cons, List.not_mem_nil, or_false] at hmem
    rcases hmem with rfl | rfl | rfl <;>
      simp [counted, held, charged, AiUsageReservationRow.settled, hsame]

theorem ledger_step (h : Ledger day db) (hchange : Change day action db next) :
    Ledger day next := by
  cases hchange with
  | quiet hresvs hday => exact ledger_quiet h hresvs hday
  | reserved hreserves => exact ledger_reserved h hreserves
  | settled hsettles => exact ledger_settled h hsettles

theorem ledger_start (hnew : db.daily.find day = none) (hnone : reservationsOf day db = []) :
    Ledger day db := by
  have husage : dayUsage day db = ⟨0, 0, 0⟩ := by rw [dayUsage, hnew]
  refine ⟨?_, ?_, ?_, ?_, ?_, ?_⟩
  · rw [total_counted, husage, hnone]
    rfl
  · rw [total_held, husage, hnone]
    rfl
  · rw [husage]
    exact Int.natCast_nonneg _
  · rw [total_charged, husage, hnone]
    exact fun _ => rfl
  · rw [husage]
  · intro row hrow hday
    have hmem : row ∈ reservationsOf day db := mem_reservationsOf.mpr ⟨hrow, hday⟩
    rw [hnone] at hmem
    cases hmem

theorem held_of_ledger (h : Ledger day db) (hrow : row ∈ reservationsOf day db)
    (hopen : row.status = .reserved) :
    ∃ total, db.daily.find day = some total ∧ row.allowance ≤ total.reservedTokens := by
  have hle : row.allowance ≤ (dayUsage day db).reservedTokens := by
    rw [h.reserved, total_held]
    exact List.single_le_sum h.allowance_nonneg _
      (List.mem_map_of_mem (List.mem_filter.mpr ⟨hrow, decide_eq_true hopen⟩))
  obtain ⟨hmem, hday⟩ := mem_reservationsOf.mp hrow
  have hpos : 0 < row.allowance := h.positive row hmem hday
  cases hfind : db.daily.find day with
  | none =>
    rw [dayUsage, hfind] at hle
    exact absurd hle (not_le.mpr hpos)
  | some total =>
    rw [dayUsage_of_find hfind] at hle
    exact ⟨total, rfl, hle⟩

theorem settle_consistent (h : Ledger day db) (hrow : row ∈ reservationsOf day db)
    (hopen : row.status = .reserved) {now actual : ℤ} :
    Throws (· ≠ inconsistent) (settle now row status actual db) := by
  have hday : row.usageDay = day := (mem_reservationsOf.mp hrow).2
  obtain ⟨total, htotal, hle⟩ := held_of_ledger h hrow hopen
  have hchg : db.daily.changes (holds row.usageDay row.allowance) = 1 := by
    rw [Keyed.changes_of_key (k := day), htotal]
    · apply if_pos
      simp [holds, hday, Keyed.key_of_find htotal, hle]
    · intro other hother
      simp only [holds, Bool.and_eq_true, decide_eq_true_eq] at hother
      exact hother.1.trans hday
  rw [settle, throwIf_of_not (by omega)]
  exact throws_pure _

theorem commitAiUsage_consistent (h : Ledger day db) (hrow : row ∈ reservationsOf day db)
    (now allowance : ℤ) (actualTokens : Option ℤ) :
    Throws (· ≠ inconsistent) (commitAiUsage now row.id allowance actualTokens db) := by
  have hfind : db.reservations.find row.id = some row :=
    Keyed.find_eq_some.mpr ⟨(mem_reservationsOf.mp hrow).1, rfl⟩
  rw [commitAiUsage, hfind]
  refine Throws.bind (throws_throwIf (by decide)) ?_
  intro _ _
  by_cases hopen : row.status = .reserved
  · rw [if_neg (not_not.mpr hopen)]
    exact settle_consistent h hrow hopen
  · rw [if_pos hopen]
    refine Throws.bind (throws_throwIf (by decide)) ?_
    intro _ _
    exact throws_pure _

theorem find_settled {t : Keyed AiUsageReservationRow.id} {id reservationId : String}
    {actual now : ℤ} :
    (t.update (fun other => other.id = id) (AiUsageReservationRow.settled status actual now)
      (fun _ => rfl)).find reservationId = (t.find reservationId).map
        (fun row => if row.id = id then row.settled status actual now else row) := by
  refine Keyed.find_update.trans ?_
  simp only [decide_eq_true_eq]

theorem settled_step (h : db.reservations.find row.id = some row) (hset : row.status ≠ .reserved)
    (hchange : Change day action db next) : next.reservations.find row.id = some row := by
  cases hchange with
  | quiet hresvs _ => rw [hresvs, h]
  | reserved hreserves =>
    rw [hreserves.reservations, Keyed.find_insert, h]
    split_ifs
    · rfl
    · rfl
  | @settled _ _ now allowance actualTokens other hsettles =>
    obtain ⟨hfind, hopen, -, hresvs, -, -⟩ := hsettles
    have hne : row.id ≠ other.id := by
      intro hsame
      rw [hsame, hfind] at h
      obtain rfl := Option.some.inj h
      exact hset hopen
    rw [hresvs]
    refine find_settled.trans ?_
    rw [h, Option.map_some, if_neg hne]

end Ledger

section Limits

variable {day : String} {start db db' next : Database} {action : Action}
  {actions earlier later : List Action}

def requestLimitOf (day : String) : Action → ℤ
  | .reserve _ _ usageDay _ dailyRequestLimit _ => if usageDay = day then dailyRequestLimit else 0
  | _ => 0

def tokenLimitOf (day : String) : Action → ℤ
  | .reserve _ _ usageDay _ _ dailyTokenLimit => if usageDay = day then dailyTokenLimit else 0
  | _ => 0

def largest (limit : Action → ℤ) (actions : List Action) : ℤ := (actions.map limit).foldr max 0

theorem le_largest_of_mem {limit : Action → ℤ} (h : action ∈ actions) :
    limit action ≤ largest limit actions := by
  induction actions with
  | nil => cases h
  | cons first actions ih =>
    change _ ≤ max (limit first) (largest limit actions)
    obtain rfl | hrest := List.mem_cons.mp h
    · exact le_max_left _ _
    · exact (ih hrest).trans (le_max_right _ _)

theorem largest_le_append {limit : Action → ℤ} :
    largest limit actions ≤ largest limit (actions ++ [action]) := by
  induction actions with
  | nil => exact le_max_right _ _
  | cons first actions ih => exact max_le_max_left _ ih

theorem le_largest_append {limit : Action → ℤ} :
    limit action ≤ largest limit (actions ++ [action]) :=
  le_largest_of_mem (List.mem_append_right _ List.mem_cons_self)

/-- Every known number of tokens is within the allowance of its reservation. -/
def Thrifty (day : String) (db : Database) : Prop :=
  ∀ row ∈ reservationsOf day db, row.status = .settledKnown →
    ∀ actual ∈ row.actualTokens, actual ≤ row.allowance

structure Within (day : String) (actions : List Action) (db : Database) : Prop where
  requests : (dayUsage day db).requestCount ≤ largest (requestLimitOf day) actions
  tokens : Thrifty day db → (dayUsage day db).usedTokens + (dayUsage day db).reservedTokens ≤
    largest (tokenLimitOf day) actions
  safe : Thrifty day db →
    (dayUsage day db).usedTokens + (dayUsage day db).reservedTokens ≤ maxSafeInteger

theorem thrifty_of_change (hchange : Change day action db next) (h : Thrifty day next) :
    Thrifty day db := by
  intro row hrow hknown
  obtain ⟨hmem, hday⟩ := mem_reservationsOf.mp hrow
  have hfind : db.reservations.find row.id = some row := Keyed.find_eq_some.mpr ⟨hmem, rfl⟩
  have hkept := settled_step hfind (by rw [hknown]; decide) hchange
  exact h row (mem_reservationsOf.mpr ⟨Keyed.mem_of_find hkept, hday⟩) hknown

theorem charge_le {row : AiUsageReservationRow} {now allowance : ℤ} {actualTokens : Option ℤ}
    (hsettles : Settles day row now allowance actualTokens db next) (hday : row.usageDay = day)
    (h : Thrifty day next) : (knownTokens actualTokens).getD allowance ≤ allowance := by
  obtain ⟨hfind, -, hallowance, hresvs, -, -⟩ := hsettles
  cases hknown : knownTokens actualTokens with
  | none => exact le_rfl
  | some actual =>
    have hnext : next.reservations.find row.id = some (row.settled (settlementStatus actualTokens)
        ((knownTokens actualTokens).getD allowance) now) := by
      rw [hresvs]
      refine find_settled.trans ?_
      rw [hfind, Option.map_some, if_pos rfl]
    have hmem := mem_reservationsOf.mpr ⟨Keyed.mem_of_find hnext, hday⟩
    have hstatus : settlementStatus actualTokens = .settledKnown := by
      rw [settlementStatus, hknown]
      rfl
    have hle := h _ hmem hstatus ((knownTokens actualTokens).getD allowance) rfl
    rw [hknown] at hle
    exact hle.trans_eq hallowance

theorem within_step (hledger : Ledger day db) (h : Within day actions db)
    (hchange : Change day action db next) : Within day (actions ++ [action]) next := by
  have hthrift : Thrifty day next → Thrifty day db := thrifty_of_change hchange
  have hsame (hkept : dayUsage day next = dayUsage day db) :
      Within day (actions ++ [action]) next := by
    refine ⟨?_, ?_, ?_⟩
    · rw [hkept]
      exact h.requests.trans largest_le_append
    · intro hnext
      rw [hkept]
      exact (h.tokens (hthrift hnext)).trans largest_le_append
    · intro hnext
      rw [hkept]
      exact h.safe (hthrift hnext)
  have hheld := hledger.reserved_nonneg
  cases hchange with
  | quiet hresvs hday =>
    apply hsame
    obtain hkept | ⟨hnone, now, hopened⟩ := hday
    · exact dayUsage_congr hkept
    · rw [dayUsage_of_find hopened, dayUsage, hnone]
  | @reserved _ _ uuid usageDay now tokenAllowance requestLimit tokenLimit hreserves =>
    obtain ⟨-, hpos, hsafe, -, hother, hday⟩ := hreserves
    by_cases hcase : usageDay = day
    · obtain ⟨row, hrow, hrequests, htokens, hfind⟩ := hday hcase
      have hold : dayUsage day db = ⟨row.requestCount, row.usedTokens, row.reservedTokens⟩ := by
        rw [hrow]
        exact dayUsage_getD
      have hused := hledger.nonneg
      rw [hold] at hheld hused
      dsimp only at hheld hused
      have hsum := AiUsageDay.sum_le hused hheld hpos.le hsafe htokens
      have hnew := dayUsage_of_find hfind
      rw [AiUsageDay.reservedTokens_reserving hheld hpos.le (by omega)] at hnew
      have hpassed {limit : Action → ℤ} := @le_largest_append
        (.reserve uuid now usageDay tokenAllowance requestLimit tokenLimit) actions limit
      rw [AiUsageDay.reserving] at hnew
      refine ⟨?_, fun _ => ?_, fun _ => ?_⟩
      · have hlimit := @hpassed (requestLimitOf day)
        rw [requestLimitOf, if_pos hcase] at hlimit
        rw [hnew]
        dsimp only
        omega
      · have hlimit := @hpassed (tokenLimitOf day)
        rw [tokenLimitOf, if_pos hcase] at hlimit
        rw [hnew]
        dsimp only
        omega
      · rw [hnew]
        dsimp only
        omega
    · exact hsame (dayUsage_congr (hother hcase))
  | @settled _ _ now allowance actualTokens row hsettles =>
    by_cases hcase : row.usageDay = day
    · obtain ⟨total, htotal, hle, hnext⟩ := hsettles.day hcase
      have hpos : 0 < allowance :=
        hsettles.same ▸ hledger.positive row (Keyed.mem_of_find hsettles.find) hcase
      have hcharge := charge_nonneg hpos.le actualTokens
      have hold := dayUsage_of_find htotal
      have hused := hledger.nonneg
      have hbounded := hledger.bounded
      rw [hold] at hused hbounded
      have hnew := dayUsage_of_find hnext
      rw [AiUsageDay.reservedTokens_settling hpos.le hle hbounded] at hnew
      have hthrifty (hnext : Thrifty day next) :
          (knownTokens actualTokens).getD allowance ≤ allowance ∧
            (dayUsage day next).usedTokens =
              total.usedTokens + (knownTokens actualTokens).getD allowance := by
        have hcheap := charge_le hsettles hcase hnext
        have hsafe := h.safe (hthrift hnext)
        rw [hold] at hsafe
        dsimp only at hsafe
        refine ⟨hcheap, ?_⟩
        rw [hnew]
        exact @AiUsageDay.usedTokens_settling total allowance _ now hused hcharge (by omega)
      have hreserved : (dayUsage day next).reservedTokens = total.reservedTokens - allowance := by
        rw [hnew]
      refine ⟨?_, fun hlater => ?_, fun hlater => ?_⟩
      · rw [hnew]
        have hrequests := h.requests
        rw [hold] at hrequests
        exact hrequests.trans largest_le_append
      · obtain ⟨hcheap, htokens⟩ := hthrifty hlater
        have hlimit := (h.tokens (hthrift hlater)).trans
          (@largest_le_append (.commit now row.id allowance actualTokens) actions _)
        rw [hold] at hlimit
        dsimp only at hlimit
        rw [htokens, hreserved]
        omega
      · obtain ⟨hcheap, htokens⟩ := hthrifty hlater
        have hlimit := h.safe (hthrift hlater)
        rw [hold] at hlimit
        dsimp only at hlimit
        rw [htokens, hreserved]
        omega
    · exact hsame (dayUsage_congr (hsettles.other hcase))

theorem ledger_run (hnew : start.daily.find day = none) (hnone : reservationsOf day start = [])
    (hrun : Trace.run (step day) start actions = some db) :
    Ledger day db ∧ Within day actions db := by
  have hstart : dayUsage day start = ⟨0, 0, 0⟩ := by rw [dayUsage, hnew]
  refine @Trace.run_invariant _ _ _ start db actions
    (fun actions db => Ledger day db ∧ Within day actions db) ⟨ledger_start hnew hnone, ?_⟩ ?_ hrun
  · refine ⟨?_, fun _ => ?_, fun _ => ?_⟩
    · rw [hstart]
      exact le_rfl
    · rw [hstart]
      exact le_rfl
    · rw [hstart]
      exact Int.natCast_nonneg _
  · rintro actions db action next ⟨hledger, hwithin⟩ hstep
    have hchange := step_change hstep
    exact ⟨ledger_step hledger hchange, within_step hledger hwithin hchange⟩

/-- What the settled reservations of a day used. -/
def settledTokens (day : String) (db : Database) : ℤ :=
  (((reservationsOf day db).filter (fun row => row.status ≠ .reserved)).map
    (fun row => row.actualTokens.getD 0)).sum

/-- The row of a day that is not pruned adds up the reservations of the day, whatever the order of
reservations, settlements and crashes; the used tokens while their sum is a safe integer. -/
theorem usage_agrees (hnew : start.daily.find day = none) (hnone : reservationsOf day start = [])
    (hrun : Trace.run (step day) start earlier = some db)
    (hlater : Trace.run (step day) db later = some db') :
    (dayUsage day db).requestCount = (reservationsOf day db).length ∧
    (dayUsage day db).reservedTokens = (((reservationsOf day db).filter
      (fun row => row.status = .reserved)).map (·.allowance)).sum ∧
    (settledTokens day db ≤ maxSafeInteger →
      (dayUsage day db).usedTokens = settledTokens day db) ∧
    (∀ row ∈ reservationsOf day db, ∀ now allowance actualTokens,
      commitAiUsage now row.id allowance actualTokens db ≠ .error inconsistent) ∧
    (∀ row ∈ reservationsOf day db, row.status ≠ .reserved →
      db'.reservations.find row.id = some row) ∧
    (Thrifty day db → (dayUsage day db).usedTokens + (dayUsage day db).reservedTokens ≤
      largest (tokenLimitOf day) earlier) ∧
    (dayUsage day db).requestCount ≤ largest (requestLimitOf day) earlier := by
  obtain ⟨hledger, hwithin⟩ := ledger_run hnew hnone hrun
  refine ⟨?_, ?_, ?_, ?_, ?_, hwithin.tokens, hwithin.requests⟩
  · rw [hledger.count, total_counted]
  · rw [hledger.reserved, total_held]
  · rw [settledTokens, ← total_charged]
    exact hledger.used
  · intro row hrow now allowance actualTokens herror
    exact commitAiUsage_consistent hledger hrow now allowance actualTokens _ herror rfl
  · intro row hrow hset
    have hfind : db.reservations.find row.id = some row :=
      Keyed.find_eq_some.mpr ⟨(mem_reservationsOf.mp hrow).1, rfl⟩
    refine @Trace.run_preserves _ _ _ db db' later
      (fun s => s.reservations.find row.id = some row) ?_ hfind hlater
    intro s action t _ hkept hstep
    exact settled_step hkept hset (step_change hstep)

def emptyDatabase : Database := ⟨.empty, .empty⟩

def reservingTwice : List Action :=
  [.reserve "a" 1 "2024-05-01" 10 5 100, .crash, .reserve "b" 2 "2024-05-01" 20 5 100,
    .commit 3 "a" 10 (some 7)]

theorem usage_agrees_reserving_twice :
    ∃ db, Trace.run (step "2024-05-01") emptyDatabase reservingTwice = some db ∧
      dayUsage "2024-05-01" db = ⟨2, 7, 20⟩ ∧
      (reservationsOf "2024-05-01" db).length = 2 ∧ settledTokens "2024-05-01" db = 7 := by
  obtain ⟨db, hrun⟩ := Option.isSome_iff_exists.mp
    (show (Trace.run (step "2024-05-01") emptyDatabase reservingTwice).isSome by decide +kernel)
  have hfacts : (Trace.run (step "2024-05-01") emptyDatabase reservingTwice).map
      (fun db => (dayUsage "2024-05-01" db, settledTokens "2024-05-01" db)) =
        some (⟨2, 7, 20⟩, 7) := by decide +kernel
  rw [hrun] at hfacts
  obtain ⟨husage, hsettled⟩ := Prod.mk.inj (Option.some.inj hfacts)
  obtain ⟨hcount, -, hused, -⟩ := usage_agrees rfl rfl hrun (Trace.run_nil.mpr rfl)
  rw [husage] at hcount hused
  dsimp only at hcount
  refine ⟨db, hrun, husage, ?_, (hused (hsettled ▸ by decide)).symm⟩
  exact_mod_cast hcount.symm

/-- Three reservations that are settled with the largest safe integer each. -/
def settlingVast : List Action :=
  [.reserve "a" 1 "2024-05-01" 1 5 9007199254740991,
    .reserve "b" 1 "2024-05-01" 1 5 9007199254740991,
    .reserve "c" 1 "2024-05-01" 1 5 9007199254740991,
    .commit 2 "a" 1 (some 9007199254740991), .commit 2 "b" 1 (some 9007199254740991),
    .commit 2 "c" 1 (some 9007199254740991)]

theorem vast_usage_rounded :
    ∃ db, Trace.run (step "2024-05-01") emptyDatabase settlingVast = some db ∧
      dayUsage "2024-05-01" db = ⟨3, 27021597764222972, 0⟩ ∧
      settledTokens "2024-05-01" db = 27021597764222973 := by
  obtain ⟨db, hrun⟩ := Option.isSome_iff_exists.mp
    (show (Trace.run (step "2024-05-01") emptyDatabase settlingVast).isSome by decide +kernel)
  have hfacts : (Trace.run (step "2024-05-01") emptyDatabase settlingVast).map
      (fun db => (dayUsage "2024-05-01" db, settledTokens "2024-05-01" db)) =
        some (⟨3, 27021597764222972, 0⟩, 27021597764222973) := by decide +kernel
  rw [hrun] at hfacts
  obtain ⟨husage, hsettled⟩ := Prod.mk.inj (Option.some.inj hfacts)
  exact ⟨db, hrun, husage, hsettled⟩

end Limits

end AiUsage

end TsxCore
