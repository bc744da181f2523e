import TsxCore.ExecutorAccountLog
import TsxCore.RationalValue
import TsxCore.TradingAccountLogTraversal

/-!
# Checkpoints that both account-log validators accept

Node and the executor validate the same checkpoint at different readings of the
clock. `Sound` is what both ask of it at every time, `Within` what depends on the
clock, and printable cursors keep both JSON texts within the storage budget.
-/

namespace TsxCore.AccountLogReader

open Outcome AccountLog
open ExchangeHistory (hasControl)
open TradingRecoveryScheduleContract (digestPattern)

section Texts

def IsTime (value : ℤ) : Prop := 0 ≤ value ∧ value ≤ 9007199254740991

def Printable (text : String) : Prop := ∀ c ∈ text.toList, 32 ≤ c.toNat ∧ c.toNat < 127

variable {text : String} {value : ℤ} {u : Unit}

theorem logInteger_ok_iff : logInteger value = .ok u ↔ IsTime value := by
  rw [logInteger, throwIf_eq_ok, isSafeInteger, maxSafeInteger, IsTime]
  omega

theorem integer_ok_iff : integer value = .ok u ↔ IsTime value := by
  rw [integer, throwIf_eq_ok, IsTime]
  omega

theorem utf16Length_printable (h : Printable text) : utf16Length text = text.toList.length := by
  have hunits : ∀ c ∈ text.toList, (if 0x10000 ≤ c.toNat then 2 else 1) = 1 := by
    intro c hc
    have := h c hc
    rw [if_neg (by omega)]
  rw [utf16Length, List.map_congr_left hunits, List.map_const', List.sum_replicate, smul_eq_mul,
    mul_one]

theorem hasControl_printable (h : Printable text) : hasControl text = false := by
  rw [hasControl, List.any_eq_false]
  intro c hc
  have := h c hc
  simp only [decide_eq_true_eq, not_lt]
  omega

/-- A text that both sides take for a token of at most `maximum` units. -/
structure Token (maximum : ℕ) (text : String) : Prop where
  nonempty : text ≠ ""
  units : utf16Length text ≤ maximum
  control : hasControl text = false

def TokenOf (maximum : ℕ) (value : Option String) : Prop :=
  ∀ text, value = some text → Token maximum text

theorem logToken_ok_iff {maximum : ℕ} {value : Option String} :
    logToken value maximum = .ok u ↔ TokenOf maximum value := by
  rw [logToken, throwIf_eq_ok, TokenOf]
  cases value with
  | none => simp
  | some text =>
    simp only [Option.any_some, decide_eq_true_eq, not_or, not_lt, Bool.not_eq_true,
      Option.some.injEq]
    refine ⟨?_, ?_⟩
    · rintro ⟨hne, hunits, hcontrol⟩ _ rfl
      exact ⟨hne, hunits, hcontrol⟩
    · intro h
      exact ⟨(h text rfl).nonempty, (h text rfl).units, (h text rfl).control⟩

theorem token_of_tokenOf {maximum : ℕ} {value : Option String} (hmax : maximum ≤ 4096)
    (h : TokenOf maximum value) : token value = .ok () := by
  rw [token, throwIf_eq_ok]
  cases value with
  | none => simp
  | some text =>
    obtain ⟨hne, hunits, hcontrol⟩ := h text rfl
    have hlen := length_le_utf16Length text
    rw [hasControl] at hcontrol
    simp only [Option.any_some, decide_eq_true_eq, not_or, not_lt, hcontrol, Bool.false_eq_true,
      not_false_eq_true, and_true]
    exact ⟨hne, by omega⟩

structure Cursor (text : String) : Prop where
  nonempty : text ≠ ""
  printable : Printable text
  short : text.toList.length ≤ 1000

def CursorOf (value : Option String) : Prop := ∀ text, value = some text → Cursor text

theorem CursorOf.token {value : Option String} (h : CursorOf value) : TokenOf 4096 value := by
  intro text htext
  obtain ⟨hne, hprintable, hshort⟩ := h text htext
  refine ⟨hne, ?_, hasControl_printable hprintable⟩
  rw [utf16Length_printable hprintable]
  omega

end Texts

section Checkpoints

structure SoundAudit (requiredSince : ℤ) (audit : AccountLogAudit) : Prop where
  windowSince : IsTime audit.windowSince
  windowUntil : ∀ until_, audit.windowUntil = some until_ → IsTime until_
  completedAt : IsTime audit.completedAt
  cursor : TokenOf 4096 audit.cursor
  required : requiredSince ≤ audit.windowSince
  pinned : ¬ (audit.cursor ≠ none ∧ audit.windowUntil = none)

/-- What both validators ask of a checkpoint at every time. -/
structure Sound (digest : List Char → String) (spec : SourceSpec) (row : AccountLogCheckpoint) :
    Prop where
  version : row.version = 1
  source : row.sourceNamespace = spec.sourceNamespace
  filter : row.filterHash = digest spec.filter
  fingerprint : digestPattern row.accountFingerprint = true
  generation : digestPattern row.credentialGeneration = true
  revision : IsTime row.revision
  requiredSince : IsTime row.requiredSince
  windowSince : IsTime row.windowSince
  windowUntil : ∀ until_, row.windowUntil = some until_ → IsTime until_
  scannedThrough : ∀ through, row.scannedThrough = some through → IsTime through
  nextReadAt : IsTime row.nextReadAt
  lastServedAt : IsTime row.lastServedAt
  cursor : TokenOf 4096 row.cursor
  account : TokenOf 256 row.providerAccountUid
  reason : TokenOf 80 row.reason
  required : row.requiredSince ≤ row.windowSince
  pinned : ¬ (row.cursor ≠ none ∧ row.windowUntil = none)
  audit : ∀ audit, row.audit = some audit → SoundAudit row.requiredSince audit

/-- A window that has begun, and ended if it has an end. -/
structure WindowWithin (since : ℤ) (until_ : Option ℤ) (now : ℤ) : Prop where
  begun : since ≤ now
  ended : ∀ end_, until_ = some end_ → since ≤ end_ ∧ end_ ≤ since + 7 * day ∧ end_ ≤ now

/-- The observations of a checkpoint lie in the past. -/
structure Within (row : AccountLogCheckpoint) (now : ℤ) : Prop where
  window : WindowWithin row.windowSince row.windowUntil now
  scanned : row.scannedThrough.getD 0 ≤ now
  audit : ∀ audit, row.audit = some audit → WindowWithin audit.windowSince audit.windowUntil now

variable {digest : List Char → String} {spec : SourceSpec} {row : AccountLogCheckpoint}
variable {exchange : String} {clock : ℕ → ℤ} {now later : ℤ}

theorem WindowWithin.mono {since : ℤ} {until_ : Option ℤ} (h : WindowWithin since until_ now)
    (hle : now ≤ later) : WindowWithin since until_ later where
  begun := h.begun.trans hle
  ended := by
    intro end_ hend
    obtain ⟨hstart, hspan, hpast⟩ := h.ended end_ hend
    exact ⟨hstart, hspan, hpast.trans hle⟩

theorem Within.mono (h : Within row now) (hle : now ≤ later) : Within row later where
  window := h.window.mono hle
  scanned := h.scanned.trans hle
  audit := fun audit haudit => (h.audit audit haudit).mono hle

theorem forM_ok_iff {ε α : Type} {f : α → Except ε Unit} {value : Option α} {u : Unit} :
    value.forM f = .ok u ↔ ∀ a, value = some a → f a = .ok () := by
  cases value with
  | none => simp [Option.forM]
  | some a => simp [Option.forM]

theorem logWindow_ok {since until_ : ℤ} (h : WindowWithin since (some until_) now)
    (hle : now ≤ later) :
    AccountLog.window since until_ later = .ok () := by
  obtain ⟨hstart, hspan, hpast⟩ := h.ended until_ rfl
  rw [AccountLog.window, throwIf_eq_ok]
  omega

theorem binding_ok {source : SourceBinding} (hspec : spec ∈ specs) (h : Sound digest spec row)
    (hsrc : source = row.toSourceBinding) : binding digest source = .ok spec := by
  have hfind : specs.find? (·.sourceNamespace = row.sourceNamespace) = some spec := by
    rw [h.source]
    fin_cases hspec <;> rfl
  rw [hsrc, binding, hfind]
  simp [h.version, h.filter, h.fingerprint, h.generation]

theorem node_accepts (hspec : spec ∈ specs) (h : Sound digest spec row) (hpast : Within row now)
    (hle : now ≤ later) (hsize : byteLength row.json < 8192) :
    validateAccountLogCheckpoint digest row later = .ok row := by
  have hbind := binding_ok hspec h rfl
  have haudit : row.audit.forM (validateAudit · row.requiredSince later) = .ok () := by
    rw [forM_ok_iff]
    intro audit haudit
    have hsound := h.audit audit haudit
    have hwithin := hpast.audit audit haudit
    have hbegun := hwithin.begun
    simp only [validateAudit, bind_eq_ok, logInteger_ok_iff, forM_ok_iff, logToken_ok_iff,
      throwIf_eq_ok, exists_const]
    refine ⟨hsound.windowSince, hsound.windowUntil, hsound.cursor, hsound.completedAt, ?_, ?_⟩
    · have hreq := hsound.required
      have hpinned := hsound.pinned
      rw [not_or, not_or]
      exact ⟨by omega, by omega, hpinned⟩
    · intro until_ huntil
      rw [huntil] at hwithin
      exact logWindow_ok hwithin hle
  have hwin := hpast.window
  have hbegun := hwin.begun
  have hscan := hpast.scanned
  have hreq := h.required
  simp only [validateAccountLogCheckpoint, bind_eq_ok, hbind, Except.ok.injEq, exists_eq_left',
    logInteger_ok_iff, forM_ok_iff, logToken_ok_iff, throwIf_eq_ok, exists_const, pure_eq_ok_iff]
  refine ⟨h.revision, h.requiredSince, h.windowSince, h.windowUntil, h.cursor, h.scannedThrough,
    h.nextReadAt, h.lastServedAt, h.account, h.reason, ?_, ?_, by omega, ?_, by omega, trivial⟩
  · rw [not_or]
    exact ⟨by omega, h.pinned⟩
  · intro until_ huntil
    rw [huntil] at hwin
    exact logWindow_ok hwin hle
  · exact forM_ok_iff.mp haudit

theorem window_ok_iff {requiredSince start first second : ℤ} {end_ : Option ℤ}
    {cursor : Option String} :
    window requiredSince start end_ cursor first second = .ok () ↔
      (requiredSince ≤ start ∧ start ≤ first) ∧
        (∀ until_, end_ = some until_ →
          start ≤ until_ ∧ until_ ≤ start + 7 * day ∧ until_ ≤ second) ∧
        ¬ (cursor ≠ none ∧ end_ = none) := by
  simp only [window, bind_eq_ok, throwIf_eq_ok, exists_const, not_or, not_lt]
  cases end_ with
  | none => simp
  | some until_ => simp

theorem python_accepts (hspec : sourceSpec exchange = some spec) (h : Sound digest spec row)
    (hpast : Within row now) (hclock : ∀ i, now ≤ clock i)
    (hsize : (pythonCheckpoint row).length < 8192) :
    validateLogCheckpoint digest exchange row clock = .ok row := by
  have hwindows : ∀ {requiredSince since : ℤ} {until_ : Option ℤ} {cursor : Option String}
    (i j : ℕ),
      requiredSince ≤ since → WindowWithin since until_ now → ¬ (cursor ≠ none ∧ until_ = none) →
        window requiredSince since until_ cursor (clock i) (clock j) = .ok () := by
    intro requiredSince since until_ cursor i j hreq hwithin hpinned
    have hi := hwithin.mono (hclock i)
    have hj := hwithin.mono (hclock j)
    exact window_ok_iff.mpr ⟨⟨hreq, hi.begun⟩, hj.ended, hpinned⟩
  have haudit : row.audit.forM (auditCheck row.requiredSince (clock 2) (clock 3)) = .ok () := by
    rw [forM_ok_iff]
    intro audit haudit
    have hsound := h.audit audit haudit
    simp only [auditCheck, bind_eq_ok, integer_ok_iff, forM_ok_iff, exists_const]
    exact ⟨hsound.windowSince, hsound.completedAt, hsound.windowUntil,
      (), token_of_tokenOf le_rfl hsound.cursor, hwindows 2 3 hsound.required
        (hpast.audit audit haudit) hsound.pinned⟩
  have hscan := hpast.scanned.trans (hclock 4)
  simp only [validateLogCheckpoint, hspec, bind_eq_ok, throwIf_eq_ok, integer_ok_iff, forM_ok_iff,
    exists_const, pure_eq_ok_iff]
  refine ⟨by simp [h.version], by simp [h.source, h.filter], h.revision, h.requiredSince,
    h.windowSince, h.nextReadAt, h.lastServedAt, h.windowUntil, h.scannedThrough,
    by simp [h.fingerprint], by simp [h.generation], (), token_of_tokenOf le_rfl h.cursor, (),
    token_of_tokenOf (by omega) h.account, (), token_of_tokenOf (by omega) h.reason, (),
    hwindows 0 1 h.required hpast.window h.pinned, ?_, by omega, by omega, trivial⟩
  exact forM_ok_iff.mp haudit

theorem sound_of_accepted (hnode : validateAccountLogCheckpoint digest row now = .ok row)
    (h : validateLogCheckpoint digest exchange row clock = .ok row) (hclock : Monotone clock) :
    ∃ spec, sourceSpec exchange = some spec ∧ Sound digest spec row ∧ Within row (clock 4) := by
  cases hspec : sourceSpec exchange with
  | none => simp [validateLogCheckpoint, hspec] at h
  | some spec =>
    simp only [validateLogCheckpoint, hspec, bind_eq_ok, throwIf_eq_ok, integer_ok_iff,
      forM_ok_iff, exists_const, pure_eq_ok_iff, not_or, not_not, not_lt, Bool.not_eq_false] at h
    obtain ⟨hver, ⟨hsrc, hfilt⟩, hrev, hrequiredSince, hwindowSince, hnextReadAt,
      hlastServedAt, hwindowUntil, hscannedThrough, hfp, hgen, -, -, -, -, -, -, _,
      hwin, haudit, hscan, -⟩ := h
    simp only [validateAccountLogCheckpoint, bind_eq_ok, logInteger_ok_iff, forM_ok_iff,
      logToken_ok_iff, throwIf_eq_ok, exists_const, pure_eq_ok_iff] at hnode
    obtain ⟨-, -, -, -, -, -, hcurs, -, -, -, hacc, hrsn, -, -, -, hnodeAudit, -⟩ := hnode
    obtain ⟨⟨hreq, hbegun⟩, hended, hpinned⟩ := window_ok_iff.mp hwin
    have hlate : ∀ i, i ≤ 4 → clock i ≤ clock 4 := fun i hi => hclock hi
    have haudits : ∀ audit, row.audit = some audit → SoundAudit row.requiredSince audit ∧
        WindowWithin audit.windowSince audit.windowUntil (clock 4) := by
      intro audit hsome
      have hpython := haudit audit hsome
      have hnode := hnodeAudit audit hsome
      simp only [auditCheck, bind_eq_ok, integer_ok_iff, forM_ok_iff, exists_const] at hpython
      simp only [validateAudit, bind_eq_ok, logInteger_ok_iff, logToken_ok_iff, exists_const]
        at hnode
      obtain ⟨hsince, hdone, huntil, -, -, hauditWindow⟩ := hpython
      obtain ⟨⟨hauditRequired, hauditBegun⟩, hauditEnded, hauditPinned⟩ :=
        window_ok_iff.mp hauditWindow
      refine ⟨⟨hsince, huntil, hdone, ?_, hauditRequired, hauditPinned⟩, ?_, ?_⟩
      · obtain ⟨-, -, -, htoken, -⟩ := hnode
        exact htoken
      · exact hauditBegun.trans (hlate 2 (by omega))
      · intro end_ hend
        obtain ⟨hstart, hspan, hpast⟩ := hauditEnded end_ hend
        exact ⟨hstart, hspan, hpast.trans (hlate 3 (by omega))⟩
    refine ⟨spec, rfl, ⟨hver, hsrc, hfilt, hfp, hgen, hrev,
      hrequiredSince, hwindowSince, hwindowUntil, hscannedThrough, hnextReadAt, hlastServedAt,
      hcurs, hacc, hrsn, hreq, hpinned, fun audit h => (haudits audit h).1⟩, ?_⟩
    refine ⟨⟨hbegun.trans (hlate 0 (by omega)), ?_⟩, hscan, fun audit h => (haudits audit h).2⟩
    intro end_ hend
    obtain ⟨hstart, hspan, hpast⟩ := hended end_ hend
    exact ⟨hstart, hspan, hpast.trans (hlate 1 (by omega))⟩

end Checkpoints

section Sizes

theorem byteLength_escape_printable {c : Char} (h : 32 ≤ c.toNat ∧ c.toNat < 127) :
    byteLength (JsonText.escape c) ≤ 2 := by
  have hone : c.utf8Size = 1 := by
    rw [Char.utf8Size_eq_one_iff, UInt32.le_iff_toNat_le]
    have hval : c.val.toNat = c.toNat := rfl
    rw [hval]
    exact (show c.toNat ≤ 127 by omega)
  unfold JsonText.escape
  split_ifs <;> first | omega | decide | simp [byteLength, hone]

theorem byteLength_string_printable {text : String} (h : Printable text) :
    byteLength (JsonText.string text) ≤ 2 + 2 * text.toList.length := by
  simpa [mul_comm] using
    JsonText.byteLength_string_of_escape (fun c hc => byteLength_escape_printable (h c hc))

/-- How long a value is in the two JSON texts of a checkpoint. -/
def Short (bound : ℕ) (node python : List Char) : Prop :=
  byteLength node ≤ bound ∧ python.length ≤ bound

theorem short_integer {value : ℤ} (h : IsTime value) :
    Short 16 (JsonText.integer value) (JsonText.integer value) := by
  have hnode := TradingRecoveryScheduleContract.byteLength_integer_le h.1 h.2
  refine ⟨hnode, ?_⟩
  have hlen : ∀ cs : List Char, cs.length ≤ byteLength cs := by
    intro cs
    induction cs with
    | nil => rfl
    | cons c cs ih =>
      have hpos := Char.utf8Size_pos c
      rw [List.length_cons, JsonText.byteLength_cons]
      omega
  exact (hlen _).trans hnode

theorem short_nullableNumber {value : Option ℤ}
    (h : ∀ number, value = some number → IsTime number) :
    Short 16 (ExchangeHistory.nullableNumber value) (PythonJson.nullableNumber value) := by
  cases value with
  | none => exact ⟨by decide, by decide⟩
  | some number => exact short_integer (h number rfl)

theorem short_cursor {value : Option String} (h : CursorOf value) :
    Short 2002 (JsonText.nullable value) (PythonJson.nullable value) := by
  cases value with
  | none => exact ⟨by decide, by decide⟩
  | some text =>
    obtain ⟨-, hprintable, hshort⟩ := h text rfl
    have hnode := byteLength_string_printable hprintable
    have hpython := PythonJson.length_string_printable hprintable
    rw [Short, JsonText.nullable, PythonJson.nullable]
    omega

theorem short_token {maximum : ℕ} {value : Option String} (h : TokenOf maximum value) :
    Short (4 + 6 * maximum) (JsonText.nullable value) (PythonJson.nullable value) := by
  cases value with
  | none =>
    rw [Short, JsonText.nullable, PythonJson.nullable]
    exact ⟨le_trans (by decide) (Nat.le_add_right 4 _), le_trans (by decide) (Nat.le_add_right 4 _)⟩
  | some text =>
    obtain ⟨-, hunits, hcontrol⟩ := h text rfl
    have hvisible : ∀ c ∈ text.toList, 32 ≤ c.toNat := by
      intro c hc
      rw [hasControl, List.any_eq_false] at hcontrol
      simpa using hcontrol c hc
    have hnode := JsonText.byteLength_string_le hvisible
    have hpython := PythonJson.length_string_le text
    have hlen := length_le_utf16Length text
    rw [Short, JsonText.nullable, PythonJson.nullable]
    omega

theorem short_digest {text : String} (h : digestPattern text = true) :
    Short 258 (JsonText.string text) (PythonJson.string text) := by
  have hnode := TradingRecoveryScheduleContract.byteLength_digest_le h
  rw [digestPattern, Bool.and_eq_true, beq_iff_eq, List.all_eq_true] at h
  have hprintable : Printable text := by
    intro c hc
    have hhex := h.2 c hc
    simp only [TradingRecoveryScheduleContract.isHex, Char.isDigit, Bool.or_eq_true,
      Bool.and_eq_true, decide_eq_true_eq] at hhex
    rcases hhex with ⟨hlow, hhigh⟩ | ⟨hlow, hhigh⟩
    · have h1 : (48 : ℕ) ≤ c.toNat := hlow
      have h2 : c.toNat ≤ 57 := hhigh
      omega
    · have h1 : (97 : ℕ) ≤ c.toNat := hlow
      have h2 : c.toNat ≤ 102 := hhigh
      omega
  have hpython := PythonJson.length_string_printable hprintable
  exact ⟨hnode, by omega⟩

variable {digest : List Char → String} {spec : SourceSpec} {row : AccountLogCheckpoint}

theorem short_audit {requiredSince : ℤ} {audit : AccountLogAudit}
    (h : SoundAudit requiredSince audit)
    (hcurs : CursorOf audit.cursor) : Short 2200 audit.json (pythonAudit audit) := by
  have hsince := short_integer h.windowSince
  have huntil := short_nullableNumber h.windowUntil
  have hcursorSize := short_cursor hcurs
  have hdone := short_integer h.completedAt
  have hnodeKeys : byteLength (JsonText.string "windowSince") +
      byteLength (JsonText.string "windowUntil") + byteLength (JsonText.string "cursor") +
      byteLength (JsonText.string "completedAt") = 47 := by decide
  have hpythonKeys : (PythonJson.string "windowSince").length +
      (PythonJson.string "windowUntil").length + (PythonJson.string "cursor").length +
      (PythonJson.string "completedAt").length = 47 := by decide
  have hnode := JsonText.byteLength_object_le [("windowSince", JsonText.integer audit.windowSince),
    ("windowUntil", ExchangeHistory.nullableNumber audit.windowUntil),
    ("cursor", JsonText.nullable audit.cursor), ("completedAt", JsonText.integer audit.completedAt)]
  have hpython := PythonJson.length_object_le [("windowSince", JsonText.integer audit.windowSince),
    ("windowUntil", PythonJson.nullableNumber audit.windowUntil),
    ("cursor", PythonJson.nullable audit.cursor),
    ("completedAt", JsonText.integer audit.completedAt)]
  simp only [List.map_cons, List.map_nil, List.sum_cons, List.sum_nil] at hnode hpython
  simp only [Short] at hsince huntil hcursorSize hdone
  rw [Short, AccountLogAudit.json, pythonAudit]
  omega

/-- With printable cursors a checkpoint stays within its storage budget on both sides. -/
theorem checkpoint_fits (hspec : spec ∈ specs) (hdig : ∀ text, digestPattern (digest text) = true)
    (h : Sound digest spec row) (hcurs : CursorOf row.cursor)
    (haudit : ∀ audit, row.audit = some audit → CursorOf audit.cursor) :
    byteLength row.json < 8192 ∧ (pythonCheckpoint row).length < 8192 := by
  have hver := short_integer (show IsTime row.version by rw [h.version, IsTime]; omega)
  have hsrc : Short 40 (JsonText.string row.sourceNamespace)
      (PythonJson.string row.sourceNamespace) := by
    rw [h.source]
    fin_cases hspec <;> exact ⟨by decide, by decide⟩
  have hfilt := short_digest (h.filter ▸ hdig spec.filter : digestPattern row.filterHash = true)
  have hfp := short_digest h.fingerprint
  have hgen := short_digest h.generation
  have hrev := short_integer h.revision
  have hrequiredSince := short_integer h.requiredSince
  have hwindowSince := short_integer h.windowSince
  have hwindowUntil := short_nullableNumber h.windowUntil
  have hcursorSize := short_cursor hcurs
  have hscannedThrough := short_nullableNumber h.scannedThrough
  have hnextReadAt := short_integer h.nextReadAt
  have hlastServedAt := short_integer h.lastServedAt
  have hacc := short_token h.account
  have hrsn := short_token h.reason
  have hauditSize : ∀ audit, row.audit = some audit → Short 2200 audit.json (pythonAudit audit) :=
    fun audit hsome => short_audit (h.audit audit hsome) (haudit audit hsome)
  have hnode : byteLength row.json ≤ _ := JsonText.byteLength_object_le _
  have hpython : (pythonCheckpoint row).length ≤ _ := PythonJson.length_object_le _
  have hkeys : ∀ key ∈ ["version", "namespace", "filterHash", "accountFingerprint",
      "credentialGeneration", "revision", "requiredSince", "windowSince", "windowUntil", "cursor",
      "scannedThrough", "nextReadAt", "lastServedAt", "providerAccountUid", "reason", "audit"],
      byteLength (JsonText.string key) ≤ 22 ∧ (PythonJson.string key).length ≤ 22 := by decide
  simp only [List.forall_mem_cons, List.not_mem_nil, false_implies, implies_true, and_true] at hkeys
  simp only [Short] at *
  cases hsome : row.audit with
  | none =>
    simp only [hsome, SourceBinding.members, Option.map_none, Option.toList_none, List.append_nil,
      List.cons_append, List.nil_append, List.map_cons, List.map_nil, List.sum_cons, List.sum_nil]
      at hnode hpython
    omega
  | some audit =>
    have haudit := hauditSize audit hsome
    simp only [hsome, SourceBinding.members, Option.map_some, Option.toList_some,
      List.cons_append, List.nil_append, List.map_cons, List.map_nil, List.sum_cons, List.sum_nil]
      at hnode hpython
    omega

end Sizes

section Numbers

theorem digitRun_lt {cs : List Char} {previous : Bool} {total n : ℕ}
    (h : digitRun cs previous total = some n) : n < (total + 1) * 10 ^ cs.length := by
  induction cs generalizing previous total with
  | nil =>
    simp only [digitRun, Option.ite_none_right_eq_some, Option.some.injEq] at h
    rw [List.length_nil, pow_zero]
    omega
  | cons c cs ih =>
    rw [digitRun] at h
    have hpow : 0 < 10 ^ cs.length := by positivity
    rw [List.length_cons, pow_succ]
    split_ifs at h with hdigit
    · have hlt := ih h
      have hvalue : c.toNat - 48 ≤ 9 := by
        simp only [Char.isDigit, Bool.and_eq_true, decide_eq_true_eq] at hdigit
        have hhigh : c.toNat ≤ 57 := hdigit.2
        omega
      calc
        n < (10 * total + (c.toNat - 48) + 1) * 10 ^ cs.length := hlt
        _ ≤ (total + 1) * 10 * 10 ^ cs.length := Nat.mul_le_mul_right _ (by omega)
        _ = (total + 1) * (10 ^ cs.length * 10) := by ring
    · have hlt := ih h
      nlinarith

theorem length_trim_le (text : String) : (trim text).toList.length ≤ text.toList.length := by
  rw [trim, String.toList_ofList]
  exact (List.rdropWhile_prefix _ _).length_le.trans (List.dropWhile_suffix _).length_le

theorem pythonInt_lt {text : String} {value : ℤ} (h : pythonInt text = some value) :
    value.natAbs < 10 ^ text.toList.length := by
  have hrun : ∀ (digits : List Char) (n : ℕ), digits.length ≤ (trim text).toList.length →
      digitRun digits false 0 = some n → n < 10 ^ text.toList.length := by
    intro digits n hlen hdigits
    calc
      n < (0 + 1) * 10 ^ digits.length := digitRun_lt hdigits
      _ ≤ 10 ^ text.toList.length := by
        rw [zero_add, one_mul]
        exact Nat.pow_le_pow_right (by omega) (hlen.trans (length_trim_le text))
  unfold pythonInt at h
  split at h
  · rename_i digits hdigits
    obtain ⟨n, hn, rfl⟩ := Option.map_eq_some_iff.mp h
    rw [Int.natAbs_neg, Int.natAbs_natCast]
    exact hrun digits n (by rw [hdigits]; simp) hn
  · rename_i digits hdigits
    obtain ⟨n, hn, rfl⟩ := Option.map_eq_some_iff.mp h
    exact hrun digits n (by rw [hdigits]; simp) hn
  · obtain ⟨n, hn, rfl⟩ := Option.map_eq_some_iff.mp h
    exact hrun _ n le_rfl hn

theorem printable_of_digits {cs : List Char}
    (h : ∀ c ∈ cs, c.isDigit = true ∨ c = '-' ∨ c = '.') : Printable (.ofList cs) := by
  intro c hc
  rw [String.toList_ofList] at hc
  rcases h c hc with hdigit | rfl | rfl
  · simp only [Char.isDigit, Bool.and_eq_true, decide_eq_true_eq] at hdigit
    have hlow : (48 : ℕ) ≤ c.toNat := hdigit.1
    have hhigh : c.toNat ≤ 57 := hdigit.2
    omega
  · decide
  · decide

theorem printable_bigintText (value : ℤ) : Printable (bigintText value) := by
  have hdigits : ∀ c ∈ Nat.toDigits 10 value.natAbs, c.isDigit = true :=
    fun c hc => Nat.isDigit_of_mem_toDigits (by omega) (by omega) hc
  have htext := TradingRational.toList_bigintText value
  have hmem : ∀ c ∈ (bigintText value).toList, c.isDigit = true ∨ c = '-' ∨ c = '.' := by
    intro c hc
    rw [htext] at hc
    split_ifs at hc
    · rcases List.mem_cons.mp hc with rfl | hc
      · exact .inr (.inl rfl)
      · exact .inl (hdigits c hc)
    · exact .inl (hdigits c hc)
  have hprintable := printable_of_digits hmem
  rwa [String.ofList_toList] at hprintable

theorem printable_fixed (value : DecimalNumber) : Printable value.fixed := by
  have htoDigits : ∀ n : ℕ, ∀ c ∈ Nat.toDigits 10 n, c.isDigit = true :=
    fun n c hc => Nat.isDigit_of_mem_toDigits (by omega) (by omega) hc
  have hnumeral : ∀ n k : ℕ, ∀ c ∈ Numeral.numeral n k, c.isDigit = true ∨ c = '.' := by
    intro n k c hc
    rw [Numeral.numeral] at hc
    split_ifs at hc
    · exact .inl (htoDigits n c hc)
    · rcases List.mem_append.mp hc with hc | hc
      · exact .inl (htoDigits _ c hc)
      · rcases List.mem_cons.mp hc with rfl | hc
        · exact .inr rfl
        · exact .inl (Numeral.isDigit_of_mem_fixedDigits hc)
  have hdigits : ∀ c ∈ (if 0 ≤ value.exponent then
      Nat.toDigits 10 (value.coefficient * 10 ^ value.exponent.toNat)
      else Numeral.numeral value.coefficient (-value.exponent).toNat),
      c.isDigit = true ∨ c = '-' ∨ c = '.' := by
    intro c hc
    split_ifs at hc
    · exact .inl (htoDigits _ c hc)
    · rcases hnumeral _ _ c hc with hdigit | hpoint
      · exact .inl hdigit
      · exact .inr (.inr hpoint)
  rw [DecimalNumber.fixed]
  apply printable_of_digits
  intro c hc
  by_cases hsign : value.negative = true
  · rw [if_pos hsign] at hc
    rcases List.mem_cons.mp hc with rfl | hc
    · exact .inr (.inl rfl)
    · exact hdigits c hc
  · rw [if_neg hsign] at hc
    exact hdigits c hc

theorem cursor_bigintText {value : ℤ} {width : ℕ} (hpositive : 0 < width) (hwidth : width ≤ 999)
    (h : value.natAbs < 10 ^ width) : Cursor (bigintText value) := by
  have hlen : (Nat.toDigits 10 value.natAbs).length ≤ width := by
    rwa [Nat.length_toDigits_le_iff (by omega) hpositive]
  have hpos : 0 < (Nat.toDigits 10 value.natAbs).length := Nat.length_toDigits_pos
  have htext := congrArg List.length (TradingRational.toList_bigintText value)
  refine ⟨?_, printable_bigintText value, ?_⟩
  · intro hempty
    rw [hempty] at htext
    split_ifs at htext
    · simp at htext
    · rw [← htext] at hpos
      simp at hpos
  · rw [htext]
    split_ifs
    · rw [List.length_cons]
      omega
    · omega

end Numbers

end TsxCore.AccountLogReader
