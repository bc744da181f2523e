import TsxCore.FxConversionPersistence
import TsxCore.OutcomeErrors

/-!
# Stored conversions are stable

A run captures receipts and persists conversions of any accounts whose identity does not
change, with a clock that does not go back. Every stored row stays sound, so a conversion
is read as it was persisted until a contradicting receipt is captured, or until more
receipts of one leg and response time are stored than a read is willing to check.
-/

namespace TsxCore.TradingFxRepository

open Outcome TradingDecimal TradingFxQuotes
open TradingFx (FxContext fxEvidenceDigest)

variable {sha256 : String → String} {now clock asOf : ℤ} {account : FxAccount}
  {context : FxContext} {db after : Database} {id baseAsset quoteAsset : String}
  {conversion : FxConversionEvidence} {originals rows : List ReceiptRow}

section Captures

variable {read : ReadWindow}

/-- The captured receipt is in the table, in a row of the account and the profile. -/
def Captured (account : FxAccount) (context : FxContext) (db : Database) (receipt : FxLegReceipt) :
    Prop :=
  ∃ row ∈ db.receipts.rows, ofAccount account context row = true ∧
    row.receiptHash = receipt.receiptHash ∧ row.receipt.legId = receipt.legId ∧
    row.receipt.providerResponseAt = receipt.providerResponseAt ∧ row.receipt.value = receipt.value

structure Stored (sha256 : String → String) (now : ℤ) (db after : Database) : Prop where
  sound : ∀ row ∈ after.receipts.rows, ReceiptSound sha256 now row
  kept : ∀ row ∈ db.receipts.rows, row ∈ after.receipts.rows
  accounts : after.accounts = db.accounts
  conversions : after.conversions = db.conversions
  references : after.references = db.references

theorem storeReceipt_stored {receipt : FxLegReceipt} {current : AccountRow}
    (hinj : Function.Injective sha256)
    (hsound : ∀ row ∈ db.receipts.rows, ReceiptSound sha256 now row)
    (hverified : Verified now account current context) (hdist : receipt.json.Distinct)
    (hvalid : Valid sha256 now context receipt)
    (h : storeReceipt sha256 account context read db receipt = .ok after) :
    Stored sha256 now db after ∧ Captured account context after receipt := by
  obtain ⟨fingerprint, generation, hfp, hgen⟩ := hverified.exists
  simp only [storeReceipt, bind_eq_ok, pure_eq_ok_iff] at h
  obtain ⟨_, hwin, id, hid, rfl⟩ := h
  generalize hrow : (⟨id, account.id, account.externalAccountId.getD "",
    account.credentialGeneration.getD "", context.mode, context.profileHash, receipt.receiptHash,
    receipt.legId, receipt.providerResponseAt, read.startedAt, read.completedAt, receipt.json⟩ :
      ReceiptRow) = row
  have hrec : row.receipt = receipt := by
    rw [← hrow]
    rfl
  have howner : SameBinding account row.owner := by
    rw [← hrow]
    exact ⟨rfl, by simp [ReceiptRow.owner, owner, hfp],
      by simp [ReceiptRow.owner, owner, hgen]⟩
  have hctx : row.context = context := by rw [← hrow]; rfl
  have hnew : ReceiptSound sha256 now row := by
    refine ⟨?_, ?_, ?_, ?_, ?_, ?_, ?_, ?_⟩
    · rw [hrec, ← hrow]
    · rw [← hrow]
      exact hdist
    · rw [hctx, hrec]
      exact hvalid
    · rw [← howner.receiptId, ← hrow]
      exact hid
    all_goals rw [hrec, ← hrow]
    exact hwin
  have hnewId : row.id = id := by rw [← hrow]
  cases hfind : db.receipts.find row.id with
  | none =>
    have hrows := Keyed.rows_insert hfind
    refine ⟨⟨?_, ?_, rfl, rfl, rfl⟩, row, ?_, ?_⟩
    · intro other hother
      simp only [hrows, List.mem_append, List.mem_singleton] at hother
      rcases hother with hold | rfl
      · exact hsound other hold
      · exact hnew
    · intro other hother
      simp only [hrows, List.mem_append]
      exact .inl hother
    · simp [hrows]
    · exact ⟨ofAccount_iff.mpr ⟨howner, hctx⟩, by rw [← hrow], by rw [hrec],
        by rw [hrec], by rw [hrec]⟩
  | some old =>
    obtain ⟨hmem, hsame⟩ := Keyed.find_eq_some.mp hfind
    rw [Keyed.insert_of_find (Option.isSome_of_eq_some hfind)]
    refine ⟨⟨hsound, fun _ hr => hr, rfl, rfl, rfl⟩, old, hmem, ?_⟩
    have hold := hsound old hmem
    obtain ⟨hbind, hhash⟩ := receiptId_injective hinj hid
      (by rw [← hnewId, ← hsame]; exact hold.id)
    rw [hold.receiptHash] at hhash
    have hjson := hold.distinct
    rw [hold.payload] at hjson
    obtain ⟨hleg, htime, hvalue⟩ := fields_of_receiptHash hinj hjson hdist hold.valid hvalid
      hhash.symm
    have hprof := profile_of_receiptHash hinj hjson hdist hold.valid hvalid hhash.symm
    exact ⟨ofAccount_iff.mpr ⟨hbind, hprof⟩, hold.receiptHash.trans hhash.symm, hleg, htime,
      hvalue⟩

theorem Captured.mono {receipt : FxLegReceipt} (h : Captured account context db receipt)
    (hkept : ∀ row ∈ db.receipts.rows, row ∈ after.receipts.rows) :
    Captured account context after receipt := by
  obtain ⟨row, hrow, hflds⟩ := h
  exact ⟨row, hkept row hrow, hflds⟩

theorem foldlM_storeReceipt {receipts : List FxLegReceipt} {current : AccountRow}
    (hinj : Function.Injective sha256)
    (hsound : ∀ row ∈ db.receipts.rows, ReceiptSound sha256 now row)
    (hverified : Verified now account current context)
    (hrecs : ∀ receipt ∈ receipts, receipt.json.Distinct ∧ Valid sha256 now context receipt)
    (h : receipts.foldlM (storeReceipt sha256 account context read) db = .ok after) :
    Stored sha256 now db after ∧ ∀ receipt ∈ receipts, Captured account context after receipt := by
  induction receipts generalizing db with
  | nil =>
    rw [List.foldlM_nil, pure_eq_ok_iff] at h
    subst h
    exact ⟨⟨hsound, fun _ hr => hr, rfl, rfl, rfl⟩, by simp⟩
  | cons receipt receipts ih =>
    rw [List.foldlM_cons, bind_eq_ok] at h
    obtain ⟨middle, hstore, hrest⟩ := h
    obtain ⟨hdist, hvalid⟩ := hrecs receipt List.mem_cons_self
    obtain ⟨hstored, hcapt⟩ :=
      storeReceipt_stored hinj hsound hverified hdist hvalid hstore
    obtain ⟨hlater, hall⟩ := ih hstored.sound
      (fun receipt hrec => hrecs receipt (List.mem_cons_of_mem _ hrec)) hrest
    refine ⟨⟨hlater.sound, fun row hrow => hlater.kept row (hstored.kept row hrow),
      hlater.accounts.trans hstored.accounts, hlater.conversions.trans hstored.conversions,
      hlater.references.trans hstored.references⟩, ?_⟩
    intro other hother
    rcases List.mem_cons.mp hother with rfl | hmem
    · exact hcapt.mono hlater.kept
    · exact hall other hmem

theorem captureFxReceipts_stored {values : List (Json ℚ)} (hinj : Function.Injective sha256)
    (hsound : ∀ row ∈ db.receipts.rows, ReceiptSound sha256 now row)
    (hdist : ∀ value ∈ values, value.Distinct)
    (h : captureFxReceipts sha256 now account values read db = .ok after) :
    Stored sha256 now db after ∧ ∃ context, requireFxAccountContext now account db = .ok context ∧
      ∀ value ∈ values, ∃ receipt : FxLegReceipt, value = receipt.json ∧
        Captured account context after receipt := by
  simp only [captureFxReceipts, bind_eq_ok, throwIf_eq_ok, exists_const] at h
  obtain ⟨context, hctx, -, receipts, hrecs, -, hstore⟩ := h
  obtain ⟨current, -, hverified⟩ := requireFxAccountContext_ok hctx
  have hvalid : ∀ receipt ∈ receipts,
      receipt.json ∈ values ∧ Valid sha256 now context receipt := by
    intro receipt hrec
    obtain ⟨value, hvalue, hread⟩ := exists_of_mem_mapM hrecs hrec
    obtain ⟨rfl, hvalid⟩ := validReceipt_eq_ok.mp hread
    exact ⟨hvalue, hvalid⟩
  obtain ⟨hstored, hall⟩ := foldlM_storeReceipt hinj hsound hverified
    (fun receipt hrec => ⟨hdist _ (hvalid receipt hrec).1, (hvalid receipt hrec).2⟩)
    hstore
  refine ⟨hstored, context, hctx, ?_⟩
  intro value hvalue
  obtain ⟨receipt, hrec, hread⟩ := result_of_mem_mapM hrecs hvalue
  exact ⟨receipt, (validReceipt_eq_ok.mp hread).1, hall receipt hrec⟩

theorem Stored.sound_of (hstored : Stored sha256 now db after) (hsound : Sound sha256 now db) :
    Sound sha256 now after where
  receipts := hstored.sound
  conversions row hrow := by
    rw [hstored.conversions] at hrow
    obtain ⟨originals, horigs⟩ := hsound.conversions row hrow
    exact ⟨originals, horigs.mono (le_refl _) hstored.kept (by rw [hstored.references])⟩
  references reference href := by
    rw [hstored.references] at href
    rw [hstored.conversions]
    exact hsound.references reference href

end Captures

section Persist

theorem mem_asOfReceipts (h : asOfReceipts now account context asOf db = .ok rows) :
    ∀ row ∈ rows, row ∈ db.receipts.rows ∧ ofAccount account context row = true := by
  simp only [asOfReceipts, bind_eq_ok, throwIf_eq_ok, pure_eq_ok_iff, exists_const] at h
  obtain ⟨-, -, rfl⟩ := h
  intro row hrow
  have hmem := (List.mem_insertionSort _).mp (List.mem_of_mem_take hrow)
  simp only [List.mem_filter, Bool.and_eq_true] at hmem
  exact ⟨hmem.1, hmem.2.1.1⟩

/-- Rows of the account are decoded; everything else is the derivation and the read-back. -/
theorem persistFxConversion_cases (hinj : Function.Injective sha256)
    (hsound : Sound sha256 now db) (hctx : requireFxAccountContext now account db = .ok context)
    (hrows : asOfReceipts now account context asOf db = .ok rows)
    (hderive : deriveFxConversion sha256 now ((rows.map ReceiptRow.receipt).map FxLegReceipt.json)
      baseAsset quoteAsset asOf context = .ok conversion)
    (hid : conversionId sha256 account conversion.evidenceHash = .ok id) :
    ∃ after row originals, Persisted sha256 now account db after id conversion ∧
      ConversionSound sha256 now after row originals ∧ row.payload = conversion ∧ row.id = id ∧
      contextOf conversion = context ∧
      persistFxConversion sha256 now account baseAsset quoteAsset asOf db =
        (finishRead sha256 now account context after row originals >>= fun stored =>
          .ok (stored, after)) := by
  obtain ⟨current, hcur, hverified⟩ := requireFxAccountContext_ok hctx
  have hchosenRows := mem_asOfReceipts hrows
  have hrecs := fun row hrow => hsound.receipts row (hchosenRows row hrow).1
  have hdecode : rows.mapM (decodeReceipt sha256 now account context) =
      .ok (rows.map ReceiptRow.receipt) :=
    mapM_decodeReceipt hrecs (fun row hrow => (hchosenRows row hrow).2)
  obtain ⟨originals, hchosen, hmode, hprof, hdig⟩ :=
    exists_chosen hrecs (fun row hrow => (hchosenRows row hrow).1)
      (fun row hrow => (hchosenRows row hrow).2) hderive
  have hsame : contextOf conversion = context := by
    have hknown : context.mode = "live" ∨ context.mode = "testnet" :=
      hverified.mode ▸ hverified.knownMode
    rw [contextOf, hmode, hprof, modeText_fxMode hknown]
  obtain ⟨after, hfold, hpersd⟩ : ∃ after,
      conversion.receiptHashes.zipIdx.foldlM (storeReference sha256 account id)
        (storeConversion account id conversion db) = .ok after ∧
      Persisted sha256 now account db after id conversion := by
    cases hfind : db.conversions.find id with
    | none => exact persisted_new hsound hchosen hsame hverified.exists hdig hid hfind
    | some row => exact persisted_present hinj hsound hchosen hdig hid hfind
  obtain ⟨row, hrow, hpay, hbind⟩ := hpersd.stored
  obtain ⟨hmem, rfl⟩ := Keyed.find_eq_some.mp hrow
  obtain ⟨stored, hstored⟩ := hpersd.sound.conversions row hmem
  have hagain : requireFxAccountContext now account after = .ok context := by
    rw [requireFxAccountContext, hpersd.accounts]
    exact hctx
  have hread := readFxConversion_sound hstored (le_refl now) hpersd.sound.receipts hrow hbind
    hagain (by rw [hpay, hsame])
  refine ⟨after, row, stored, hpersd, hstored, hpay, rfl, hsame, ?_⟩
  rw [persistFxConversion, hctx, ok_bind, hrows, ok_bind, hdecode, ok_bind, hderive, ok_bind, hid,
    ok_bind, hfold, ok_bind, hread]
  rfl

end Persist

section Errors

/-- The error of a read-back that derives another conversion. -/
def conversionChanged : Thrown := invalidFx "CONVERSION_CHANGED"

/-- The computation does not fail with a changed conversion. -/
abbrev Keeps {α : Type} (x : Outcome α) : Prop := Throws (· ≠ conversionChanged) x

theorem keeps_throwIf {bad : Prop} [Decidable bad] {message : String} :
    Keeps (throwIf bad (.error message)) := by
  refine throws_throwIf ?_
  simp [Thrown.error, conversionChanged, invalidFx]

theorem keeps_parse (text : String) : Keeps (parse text) :=
  keeps_throwIf.bind (fun _ _ => throws_pure _)

theorem keeps_compareDecimal (l r : String) : Keeps (compareDecimal l r) := by
  refine Throws.bind (keeps_parse l) (fun a _ => Throws.bind (keeps_parse r) (fun b _ => ?_))
  refine Throws.bind ?_ (fun _ _ => throws_pure _)
  refine Throws.bind (keeps_throwIf.bind (fun _ _ => throws_pure _)) (fun _ _ => ?_)
  exact Throws.bind (keeps_throwIf.bind (fun _ _ => throws_pure _)) (fun _ _ => throws_pure _)

theorem keeps_integers (value : TradingRational.ExactRational) :
    Keeps (TradingRational.integers value) := keeps_throwIf.bind (fun _ _ => throws_pure _)

theorem keeps_fraction (numerator denominator : ℤ) :
    Keeps (TradingRational.fraction numerator denominator) :=
  keeps_throwIf.bind (fun _ _ => (keeps_integers _).bind (fun _ _ => throws_pure _))

theorem keeps_divideRational (l r : TradingRational.ExactRational) :
    Keeps (TradingRational.divideRational l r) :=
  (keeps_integers l).bind (fun _ _ => (keeps_integers r).bind
    (fun _ _ => keeps_throwIf.bind (fun _ _ => keeps_fraction _ _)))

theorem keeps_rationalFromDecimal (text : String) :
    Keeps (TradingRational.rationalFromDecimal text) := by
  refine keeps_throwIf.bind (fun _ _ => Throws.bind ?_ (fun _ _ => keeps_fraction _ _))
  refine Throws.bind ?_ (fun _ _ => throws_pure _)
  exact (keeps_parse _).bind (fun _ _ => keeps_throwIf.bind (fun _ _ => throws_pure _))

section Canonical

/-! The canonical encoder has one error only. -/

variable {P : Thrown → Prop}

theorem throws_canonicalText (hP : P TradingFx.invalidFx) (value : String) (depth : ℕ)
    (remaining : ℤ) : Throws P (TradingFx.canonicalText value depth remaining) :=
  ((throws_throwIf hP).bind (fun _ _ => throws_pure _)).bind
    (fun _ _ => (throws_throwIf hP).bind (fun _ _ => throws_pure _))

theorem throws_canonicalEntries (hP : P TradingFx.invalidFx) {depth : ℕ}
    {entries : List (String × (ℤ → Outcome (List Char × ℤ)))}
    (h : ∀ entry ∈ entries, ∀ remaining, Throws P (entry.2 remaining)) (remaining : ℤ) :
    Throws P (TradingFx.canonicalEntries depth entries remaining) := by
  induction entries generalizing remaining with
  | nil => exact throws_pure _
  | cons entry entries ih =>
    refine (throws_throwIf hP).bind
      (fun _ _ => (throws_canonicalText hP _ _ _).bind (fun _ _ => ?_))
    refine (h entry List.mem_cons_self _).bind (fun _ _ => ?_)
    exact (ih (fun entry hentry => h entry (List.mem_cons_of_mem _ hentry)) _).bind
      (fun _ _ => throws_pure _)

theorem throws_canonical (hP : P TradingFx.invalidFx) (value : Json ℚ) (depth : ℕ)
    (remaining : ℤ) : Throws P (TradingFx.canonical value depth remaining) := by
  induction value using Json.induct generalizing depth remaining with
  | null | bool value =>
    exact ((throws_throwIf hP).bind (fun _ _ => throws_pure _)).bind (fun _ _ => throws_pure _)
  | number value =>
    exact ((throws_throwIf hP).bind (fun _ _ => throws_pure _)).bind
      (fun _ _ => (throws_throwIf hP).bind (fun _ _ => throws_pure _))
  | string value => exact throws_canonicalText hP value depth remaining
  | array items ih =>
    have hitems : ∀ items : List (Json ℚ), (∀ item ∈ items, ∀ depth remaining,
        Throws P (TradingFx.canonical item depth remaining)) → ∀ depth remaining,
        Throws P (TradingFx.canonicalItems items depth remaining) := by
      intro items hall depth
      induction items with
      | nil => exact fun _ => throws_pure _
      | cons item items ih =>
        intro remaining
        exact (hall item List.mem_cons_self _ _).bind (fun _ _ =>
          (ih (fun item hitem => hall item (List.mem_cons_of_mem _ hitem)) _).bind
            (fun _ _ => throws_pure _))
    exact ((throws_throwIf hP).bind (fun _ _ => throws_pure _)).bind (fun _ _ =>
      (throws_throwIf hP).bind (fun _ _ => (hitems items ih _ _).bind (fun _ _ => throws_pure _)))
  | object members ih =>
    refine ((throws_throwIf hP).bind (fun _ _ => throws_pure _)).bind (fun _ _ => ?_)
    refine (throws_canonicalEntries hP ?_ _).bind (fun _ _ => throws_pure _)
    intro entry hentry
    rw [TradingFx.byBytes, List.mem_insertionSort, FxReceipt.canonicalMembers_eq] at hentry
    obtain ⟨member, hmemb, rfl⟩ := List.mem_map.mp hentry
    exact fun _ => ih member hmemb _ _

theorem throws_fxEvidenceDigest (hP : P TradingFx.invalidFx) (domain : String) (value : Json ℚ) :
    Throws P (fxEvidenceDigest sha256 domain value) :=
  (throws_canonical hP _ _ _).bind
    (fun _ _ => (throws_throwIf hP).bind (fun _ _ => throws_pure _))

end Canonical

theorem keeps_fxEvidenceDigest (domain : String) (value : Json ℚ) :
    Keeps (fxEvidenceDigest sha256 domain value) := throws_fxEvidenceDigest (by decide) domain value

theorem keeps_assetLegs (asset : String) : Keeps (assetLegs asset) := by
  unfold assetLegs
  split_ifs
  · exact throws_ok _
  · exact throws_ok _
  · exact throws_ok _
  · exact throws_error (by decide)

theorem keeps_usdRate (asset : String) (receipts : List FxLegReceipt) :
    Keeps (usdRate asset receipts) := by
  rw [usdRate]
  by_cases husd : asset = "USD"
  · rw [if_pos husd]
    exact keeps_rationalFromDecimal _
  · rw [if_neg husd]
    refine (keeps_assetLegs asset).bind (fun legs _ => Throws.bind (throws_mapM ?_) (fun _ _ => ?_))
    · intro leg _
      unfold legRate
      split
      · exact throws_error (by decide)
      · exact keeps_rationalFromDecimal _
    · by_cases husdc : asset = "USDC"
      · split
        · rw [if_pos husdc]
          exact throws_ok _
        · rw [if_pos husdc]
          exact throws_ok _
        · exact throws_error (by decide)
      · split
        · rw [if_neg husdc]
          exact throws_error (by decide)
        · rw [if_neg husdc]
          exact keeps_divideRational _ _
        · exact throws_error (by decide)

theorem keeps_observe (observations : List FxLegReceipt) (row : FxLegReceipt) :
    Keeps (observe observations row) := by
  unfold observe
  split
  · exact throws_ok _
  · exact (keeps_compareDecimal _ _).bind
      (fun _ _ => (throws_throwIf (by decide)).bind (fun _ _ => throws_pure _))

theorem keeps_deriveFxConversion {receipts : List FxLegReceipt}
    (hvalid : ∀ receipt ∈ receipts, Valid sha256 now context receipt) :
    Keeps (deriveFxConversion sha256 now (receipts.map FxLegReceipt.json) baseAsset quoteAsset asOf
      context) := by
  refine (throws_throwIf (by decide)).bind (fun _ _ => Throws.bind ?_ (fun _ _ => ?_))
  · exact (keeps_assetLegs _).bind (fun _ _ => (keeps_assetLegs _).bind (fun _ _ => throws_pure _))
  · refine Throws.bind ?_ (fun rows _ => Throws.bind ?_ (fun _ _ => Throws.bind ?_ (fun _ _ => ?_)))
    · rw [eligibleReceipts, mapM_validReceipt hvalid]
      exact (throws_ok _).bind (fun _ _ => (throws_foldlM (fun observations row _ =>
        keeps_observe observations row) _).bind (fun _ _ => throws_pure _))
    · unfold coherentLegs
      split
      · exact throws_ok _
      · exact throws_error (by decide)
    · exact (keeps_usdRate _ _).bind (fun _ _ => (keeps_usdRate _ _).bind
        (fun _ _ => (keeps_divideRational _ _).bind (fun _ _ => throws_pure _)))
    · exact (keeps_fxEvidenceDigest _ _).bind (fun _ _ => throws_pure _)

theorem keeps_bound {domain key text : String} : Keeps (binding account >>= fun members =>
    fxEvidenceDigest sha256 domain (.object (members ++ [(key, .string text)]))) := by
  refine Throws.bind ?_ (fun _ _ => keeps_fxEvidenceDigest _ _)
  unfold binding
  split
  · exact (throws_throwIf (by decide)).bind (fun _ _ => throws_pure _)
  · exact throws_error (by decide)

theorem keeps_requireFxAccountContext : Keeps (requireFxAccountContext now account db) := by
  unfold requireFxAccountContext
  split
  · exact throws_error (by decide)
  · exact (throws_throwIf (by decide)).bind
      (fun _ _ => (throws_throwIf (by decide)).bind (fun _ _ => throws_pure _))

end Errors

section Reads

variable {receipt : FxLegReceipt} {row : ConversionRow}

/-- The stored receipts a read compares a receipt with. -/
def peers (account : FxAccount) (context : FxContext) (db : Database) (receipt : FxLegReceipt) :
    List ReceiptRow :=
  db.receipts.rows.filter (peer account context receipt)

/-- Another value was captured for the leg and the response time of the receipt. -/
def Contradicted (account : FxAccount) (context : FxContext) (db : Database)
    (receipt : FxLegReceipt) : Prop :=
  ∃ other ∈ db.receipts.rows, ofAccount account context other = true ∧
    other.receipt.legId = receipt.legId ∧
    other.receipt.providerResponseAt = receipt.providerResponseAt ∧
    decimalValue other.receipt.value ≠ decimalValue receipt.value

def quoteConflict : Thrown := invalidFx "QUOTE_CONFLICT"

def quoteSetUnbounded : Thrown := invalidFx "QUOTE_SET_UNBOUNDED"

theorem compare_eq_zero {l r : String} {order : ℤ} (h : compareDecimal l r = .ok order) :
    order = 0 ↔ decimalValue l = decimalValue r := by
  obtain ⟨hless, hmore⟩ := compareDecimal_value h
  refine ⟨?_, ?_⟩
  · rintro rfl
    exact le_antisymm (not_lt.mp (fun hlt => absurd (hmore.mpr hlt) (lt_irrefl 0)))
      (not_lt.mp (fun hlt => absurd (hless.mpr hlt) (lt_irrefl 0)))
  · intro heq
    rw [heq] at hless hmore
    exact le_antisymm (not_lt.mp (fun hpos => lt_irrefl _ (hmore.mp hpos)))
      (not_lt.mp (fun hneg => lt_irrefl _ (hless.mp hneg)))

theorem assertPeer_eq {other : ReceiptRow} (hsound : ReceiptSound sha256 now other)
    (hvalid : Valid sha256 now context receipt) (hacc : ofAccount account context other = true) :
    assertPeer sha256 now account context receipt other =
      if decimalValue other.receipt.value = decimalValue receipt.value then .ok ()
      else .error quoteConflict := by
  obtain ⟨order, horder⟩ := compare_valid hsound.valid hvalid
  rw [assertPeer, decodeReceipt_sound hsound hacc, ok_bind, horder, ok_bind, throwIf]
  simp only [ne_eq, compare_eq_zero horder, ite_not]
  rfl

structure CheckSpec (account : FxAccount) (context : FxContext) (db : Database)
    (receipt : FxLegReceipt) (check : Outcome Unit) : Prop where
  crowded : 256 < (peers account context db receipt).length → check = .error quoteSetUnbounded
  contradicted : (peers account context db receipt).length ≤ 256 →
    Contradicted account context db receipt → check = .error quoteConflict
  clear : (peers account context db receipt).length ≤ 256 →
    ¬ Contradicted account context db receipt → check = .ok ()

theorem CheckSpec.throws {check : Outcome Unit} (h : CheckSpec account context db receipt check) :
    Throws (fun e => e = quoteSetUnbounded ∨
      (e = quoteConflict ∧ Contradicted account context db receipt)) check := by
  intro e he
  by_cases hmany : 256 < (peers account context db receipt).length
  · rw [h.crowded hmany] at he
    exact .inl (Except.error.inj he).symm
  · by_cases hcontra : Contradicted account context db receipt
    · rw [h.contradicted (not_lt.mp hmany) hcontra] at he
      exact .inr ⟨(Except.error.inj he).symm, hcontra⟩
    · rw [h.clear (not_lt.mp hmany) hcontra] at he
      cases he

theorem assertNoContradictedOriginal_spec (hinj : Function.Injective sha256)
    (hsound : ∀ other ∈ db.receipts.rows, ReceiptSound sha256 now other)
    (hdist : receipt.json.Distinct) (hvalid : Valid sha256 now context receipt) :
    CheckSpec account context db receipt
      (assertNoContradictedOriginal sha256 now account context db receipt) := by
  have hlen : ((peers account context db receipt).insertionSort (fun a b => a.id ≤ b.id)).length =
      (peers account context db receipt).length := List.length_insertionSort _ _
  have hmem : ∀ other, other ∈ (peers account context db receipt).insertionSort
      (fun a b => a.id ≤ b.id) ↔ other ∈ db.receipts.rows ∧
        peer account context receipt other = true := by
    intro other
    rw [List.mem_insertionSort, peers, List.mem_filter]
  have heach : ∀ other ∈ (peers account context db receipt).insertionSort (fun a b => a.id ≤ b.id),
      assertPeer sha256 now account context receipt other =
        if decimalValue other.receipt.value = decimalValue receipt.value then .ok ()
        else .error quoteConflict := by
    intro other hother
    obtain ⟨hrow, hpeer⟩ := (hmem other).mp hother
    simp only [peer, Bool.and_eq_true] at hpeer
    exact assertPeer_eq (hsound other hrow) hvalid hpeer.1.1.1
  refine ⟨?_, ?_, ?_⟩
  · intro hmany
    rw [assertNoContradictedOriginal, show db.receipts.rows.filter (peer account context receipt) =
      peers account context db receipt
      from rfl, throwIf, if_pos (by rw [List.length_take, hlen]; omega)]
    rfl
  · intro hfew hcontra
    obtain ⟨other, hrow, hacc, hleg, htime, hvalue⟩ := hcontra
    have hotherSound := hsound other hrow
    have hne : other.receiptHash ≠ receipt.receiptHash := by
      intro heq
      rw [hotherSound.receiptHash] at heq
      have hjson := hotherSound.distinct
      rw [hotherSound.payload] at hjson
      have hsame := (fields_of_receiptHash hinj hjson hdist hotherSound.valid hvalid heq).2.2
      exact hvalue (by rw [hsame])
    have hpeer : peer account context receipt other = true := by
      simp [peer, hacc, hotherSound.legId, hleg, hotherSound.providerResponseAt, htime, hne]
    have hother := (hmem other).mpr ⟨hrow, hpeer⟩
    rw [assertNoContradictedOriginal, show db.receipts.rows.filter (peer account context receipt) =
      peers account context db receipt
      from rfl, List.take_of_length_le (by omega), throwIf_of_not (by omega), ok_bind]
    refine forM_eq_error hother ?_ ?_
    · rw [heach other hother, if_neg hvalue]
      exact fun h => by cases h
    · intro other hother e he
      rw [heach other hother] at he
      split_ifs at he
      exact (Except.error.inj he).symm
  · intro hfew hclear
    rw [assertNoContradictedOriginal, show db.receipts.rows.filter (peer account context receipt) =
      peers account context db receipt
      from rfl, List.take_of_length_le (by omega), throwIf_of_not (by omega), ok_bind]
    refine forM_of_ok ?_
    intro other hother
    obtain ⟨hrow, hpeer⟩ := (hmem other).mp hother
    simp only [peer, Bool.and_eq_true, decide_eq_true_eq] at hpeer
    obtain ⟨⟨⟨hacc, hleg⟩, htime⟩, -⟩ := hpeer
    rw [heach other hother, if_pos]
    by_contra hvalue
    have hotherSound := hsound other hrow
    exact hclear ⟨other, hrow, hacc, hotherSound.legId ▸ hleg,
      hotherSound.providerResponseAt ▸ htime, hvalue⟩

end Reads

section Runs

variable {stored : StoredFxConversion}

structure State where
  db : Database
  clock : ℤ

/-- What a conversion depends on in the row of its account. -/
structure SameIdentity (current next : AccountRow) : Prop where
  mode : next.mode = current.mode
  fingerprint : next.externalAccountId = current.externalAccountId
  generation : next.credentialGeneration = current.credentialGeneration
  profile : profileHashOf next.capabilities = profileHashOf current.capabilities

/-- A committed transaction; `account` is any other write to the accounts. -/
inductive Step (sha256 : String → String) : State → State → Prop
  | capture {s : State} {account : FxAccount} {values : List (Json ℚ)} {read : ReadWindow} {now : ℤ}
      {after : Database} (hclock : s.clock ≤ now) (hdist : ∀ value ∈ values, value.Distinct)
      (h : captureFxReceipts sha256 now account values read s.db = .ok after) :
      Step sha256 s ⟨after, now⟩
  | persist {s : State} {account : FxAccount} {baseAsset quoteAsset : String} {asOf now : ℤ}
      {stored : StoredFxConversion} {after : Database} (hclock : s.clock ≤ now)
      (h : persistFxConversion sha256 now account baseAsset quoteAsset asOf s.db =
        .ok (stored, after)) : Step sha256 s ⟨after, now⟩
  | account {s : State} {accounts : Keyed AccountRow.id}
      (h : ∀ id current, s.db.accounts.find id = some current →
        ∃ next, accounts.find id = some next ∧ SameIdentity current next) :
      Step sha256 s ⟨{ s.db with accounts }, s.clock⟩

def Run (sha256 : String → String) : State → State → Prop := Relation.ReflTransGen (Step sha256)

/-- The stored conversions have digests, beside what makes their rows sound. -/
structure Invariant (sha256 : String → String) (s : State) : Prop where
  sound : Sound sha256 s.clock s.db
  digests : ∀ row ∈ s.db.conversions.rows, ∃ digest, evidenceDigest sha256 row.payload = .ok digest

structure Kept (s t : State) : Prop where
  clock : s.clock ≤ t.clock
  receipts : ∀ row ∈ s.db.receipts.rows, row ∈ t.db.receipts.rows
  conversions : ∀ row ∈ s.db.conversions.rows, row ∈ t.db.conversions.rows
  accounts : ∀ id current, s.db.accounts.find id = some current →
    ∃ next, t.db.accounts.find id = some next ∧ SameIdentity current next

theorem SameIdentity.refl (current : AccountRow) : SameIdentity current current :=
  ⟨rfl, rfl, rfl, rfl⟩

theorem Kept.refl (s : State) : Kept s s :=
  ⟨le_refl _, fun _ h => h, fun _ h => h, fun _ current h => ⟨current, h, .refl current⟩⟩

theorem Kept.trans {s t u : State} (h : Kept s t) (h' : Kept t u) : Kept s u where
  clock := h.clock.trans h'.clock
  receipts row hrow := h'.receipts row (h.receipts row hrow)
  conversions row hrow := h'.conversions row (h.conversions row hrow)
  accounts id current hcur := by
    obtain ⟨middle, hmid, hfirst⟩ := h.accounts id current hcur
    obtain ⟨next, hnext, hsnd⟩ := h'.accounts id middle hmid
    exact ⟨next, hnext, hsnd.mode.trans hfirst.mode, hsnd.fingerprint.trans hfirst.fingerprint,
      hsnd.generation.trans hfirst.generation, hsnd.profile.trans hfirst.profile⟩

theorem persistFxConversion_ok (hinj : Function.Injective sha256)
    (hsound : Sound sha256 now db)
    (h : persistFxConversion sha256 now account baseAsset quoteAsset asOf db =
      .ok (stored, after)) :
    ∃ context, requireFxAccountContext now account db = .ok context ∧
      Persisted sha256 now account db after stored.id stored.conversion ∧
      contextOf stored.conversion = context ∧
      ∃ digest, evidenceDigest sha256 stored.conversion = .ok digest := by
  have hsteps := h
  simp only [persistFxConversion, bind_eq_ok] at hsteps
  obtain ⟨context, hctx, rows, hrows, receipts, hdecode, conversion, hderive, id, hid, -⟩ := hsteps
  have hchosenRows := mem_asOfReceipts hrows
  rw [mapM_decodeReceipt (fun row hrow => hsound.receipts row (hchosenRows row hrow).1)
    (fun row hrow => (hchosenRows row hrow).2), Except.ok.injEq] at hdecode
  subst hdecode
  obtain ⟨reached, row, originals, hpersd, -, rfl, rfl, hsame, heq⟩ :=
    persistFxConversion_cases hinj hsound hctx hrows hderive hid
  rw [heq] at h
  simp only [finishRead, bind_eq_ok, pure_eq_ok_iff, Except.ok.injEq, Prod.mk.injEq] at h
  obtain ⟨_, ⟨_, -, digest, hdig, rfl⟩, rfl, rfl⟩ := h
  exact ⟨context, hctx, hpersd, hsame, digest, hdig⟩

theorem Step.invariant {s t : State} (hinj : Function.Injective sha256)
    (hs : Invariant sha256 s) (h : Step sha256 s t) : Invariant sha256 t ∧ Kept s t := by
  cases h with
  | capture hclock hdist h =>
    have hsound := hs.sound.later hclock
    obtain ⟨hstored, -⟩ := captureFxReceipts_stored hinj hsound.receipts hdist h
    refine ⟨⟨hstored.sound_of hsound, ?_⟩, hclock, hstored.kept, ?_, ?_⟩
    · rw [hstored.conversions]
      exact hs.digests
    · rw [hstored.conversions]
      exact fun _ hrow => hrow
    · rw [hstored.accounts]
      exact fun _ current hcur => ⟨current, hcur, .refl current⟩
  | persist hclock h =>
    have hsound := hs.sound.later hclock
    obtain ⟨context, -, hpersd, -, digest, hdig⟩ := persistFxConversion_ok hinj hsound h
    refine ⟨⟨hpersd.sound, ?_⟩, hclock, ?_, hpersd.kept, ?_⟩
    · intro row hrow
      rcases hpersd.others row hrow with hold | hnew
      · exact hs.digests row hold
      · exact ⟨digest, hnew ▸ hdig⟩
    · rw [hpersd.receipts]
      exact fun _ hrow => hrow
    · rw [hpersd.accounts]
      exact fun _ current hcur => ⟨current, hcur, .refl current⟩
  | account h =>
    refine ⟨⟨⟨hs.sound.receipts, ?_, hs.sound.references⟩, hs.digests⟩, le_refl _,
      fun _ hrow => hrow, fun _ hrow => hrow, h⟩
    intro row hrow
    obtain ⟨originals, horigs⟩ := hs.sound.conversions row hrow
    exact ⟨originals, horigs.mono (le_refl _) (fun _ hr => hr) rfl⟩

theorem Run.invariant {s t : State} (hinj : Function.Injective sha256)
    (hs : Invariant sha256 s) (h : Run sha256 s t) : Invariant sha256 t ∧ Kept s t := by
  induction h with
  | refl => exact ⟨hs, .refl s⟩
  | tail _ hstep ih =>
    obtain ⟨hnext, hkept⟩ := hstep.invariant hinj ih.1
    exact ⟨hnext, ih.2.trans hkept⟩

def Origin (account : FxAccount) (context : FxContext) (db : Database) (stored : StoredFxConversion)
    (receipt : FxLegReceipt) : Prop :=
  ∃ row ∈ db.receipts.rows, ofAccount account context row = true ∧
    row.receiptHash ∈ stored.conversion.receiptHashes ∧ row.receipt = receipt

/-- The read of a stored conversion in a sound state. -/
structure ReadSpec (account : FxAccount) (context : FxContext) (db : Database)
    (stored : StoredFxConversion) (read : Outcome StoredFxConversion) : Prop where
  crowded : (∃ receipt, Origin account context db stored receipt ∧
    256 < (peers account context db receipt).length) →
      read = .error quoteSetUnbounded ∨ (read = .error quoteConflict ∧
        ∃ receipt, Origin account context db stored receipt ∧
          Contradicted account context db receipt)
  contradicted : (∀ receipt, Origin account context db stored receipt →
    (peers account context db receipt).length ≤ 256) →
    (∃ receipt, Origin account context db stored receipt ∧
      Contradicted account context db receipt) →
      read = .error quoteConflict
  stable : (∀ receipt, Origin account context db stored receipt →
    (peers account context db receipt).length ≤ 256) →
    (∀ receipt, Origin account context db stored receipt →
      ¬ Contradicted account context db receipt) →
      read = .ok stored

theorem readFxConversion_spec {row : ConversionRow} (hinj : Function.Injective sha256)
    (hsound : Sound sha256 now db)
    (hdig : ∃ digest, evidenceDigest sha256 row.payload = .ok digest)
    (hrow : db.conversions.find row.id = some row) (hstored : stored = ⟨row.id, row.payload⟩)
    (hbind : SameBinding account row.owner)
    (hctx : requireFxAccountContext now account db = .ok context)
    (hsame : context = contextOf row.payload) :
    ReadSpec account context db stored (readFxConversion sha256 now account row.id db) := by
  obtain ⟨originals, horigs⟩ := hsound.conversions row (Keyed.mem_of_find hrow)
  obtain ⟨digest, hdig⟩ := hdig
  have horigin : ∀ receipt, Origin account context db stored receipt ↔
      receipt ∈ originals.map ReceiptRow.receipt := by
    intro receipt
    rw [List.mem_map]
    refine ⟨?_, ?_⟩
    · intro h
      obtain ⟨other, hother, hacc, hhash, rfl⟩ := h
      rw [hstored, ← horigs.hashes, List.mem_map] at hhash
      obtain ⟨original, horig, heq⟩ := hhash
      have howner := (ofAccount_iff.mp hacc).1
      have hfirst := horigs.binding original horig
      have hid := (hsound.receipts original (horigs.mem original horig)).id
      have hid' := (hsound.receipts other hother).id
      rw [← hfirst.receiptId, heq, ← hbind.receiptId, howner.receiptId, hid', Except.ok.injEq]
        at hid
      exact ⟨original, horig, by
        rw [List.inj_on_of_nodup_map db.receipts.nodup (horigs.mem original horig) hother
          hid.symm]⟩
    · intro h
      obtain ⟨original, horig, rfl⟩ := h
      have hfirst := horigs.binding original horig
      refine ⟨original, horigs.mem original horig, ofAccount_iff.mpr
        ⟨⟨hbind.id.trans hfirst.id, hbind.fingerprint.trans hfirst.fingerprint,
          hbind.generation.trans hfirst.generation⟩,
          (horigs.context original horig).trans hsame.symm⟩, ?_, rfl⟩
      rw [hstored, ← horigs.hashes]
      exact List.mem_map_of_mem horig
  have hcheck : ∀ receipt ∈ originals.map ReceiptRow.receipt, CheckSpec account context db receipt
      (assertNoContradictedOriginal sha256 now account context db receipt) := by
    intro receipt hrec
    obtain ⟨original, horig, rfl⟩ := List.mem_map.mp hrec
    have hreceiptSound := hsound.receipts original (horigs.mem original horig)
    have hjson := hreceiptSound.distinct
    rw [hreceiptSound.payload] at hjson
    have hvalid := hreceiptSound.valid
    rw [horigs.context original horig, ← hsame] at hvalid
    exact assertNoContradictedOriginal_spec hinj hsound.receipts hjson hvalid
  rw [readFxConversion_sound horigs (le_refl now) hsound.receipts hrow hbind hctx hsame]
  refine ⟨?_, ?_, ?_⟩
  · intro h
    obtain ⟨receipt, hrec, hmany⟩ := h
    have hfails := (hcheck receipt ((horigin receipt).mp hrec)).crowded hmany
    have hthrows : Throws (fun e => e = quoteSetUnbounded ∨ (e = quoteConflict ∧
        ∃ receipt ∈ originals.map ReceiptRow.receipt, Contradicted account context db receipt))
        ((originals.map ReceiptRow.receipt).forM
          (assertNoContradictedOriginal sha256 now account context db)) := by
      refine throws_forM ?_
      intro other hother e he
      rcases (hcheck other hother).throws e he with rfl | ⟨rfl, hcontra⟩
      · exact .inl rfl
      · exact .inr ⟨rfl, other, hother, hcontra⟩
    cases hloop : (originals.map ReceiptRow.receipt).forM
        (assertNoContradictedOriginal sha256 now account context db) with
    | ok u =>
      exact absurd hloop (forM_ne_ok ((horigin receipt).mp hrec) (by rw [hfails]; simp) u)
    | error e =>
      rw [finishRead, hloop]
      rcases hthrows e hloop with rfl | ⟨rfl, other, hother, hcontra⟩
      · exact .inl rfl
      · exact .inr ⟨rfl, other, (horigin other).mpr hother, hcontra⟩
  · intro hfew h
    obtain ⟨receipt, hrec, hcontra⟩ := h
    have hmem := (horigin receipt).mp hrec
    have hfails := (hcheck receipt hmem).contradicted (hfew receipt hrec) hcontra
    rw [finishRead, forM_eq_error hmem (by rw [hfails]; simp)]
    · rfl
    · intro other hother e he
      rcases (hcheck other hother).throws e he with rfl | ⟨rfl, -⟩
      · have hlen := hfew other ((horigin other).mpr hother)
        by_cases hother' : Contradicted account context db other
        · rw [(hcheck other hother).contradicted hlen hother'] at he
          exact (Except.error.inj he).symm
        · rw [(hcheck other hother).clear hlen hother'] at he
          cases he
      · rfl
  · intro hfew hclear
    rw [finishRead, forM_of_ok, ok_bind, hdig, ok_bind, hstored]
    · rfl
    · intro other hother
      have hother' := (horigin other).mpr hother
      exact (hcheck other hother).clear (hfew other hother') (hclear other hother')

end Runs

end TsxCore.TradingFxRepository
