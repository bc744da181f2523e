import TsxCore.FxConversionSafety

/-!
# Reading a persisted conversion

From empty tables every run keeps the tables sound, so what was persisted is read back
unchanged: until a contradicting receipt is captured, or until one of its receipts has
more peers than a read checks.
-/

namespace TsxCore.TradingFxRepository

open Outcome TradingDecimal TradingRational TradingFxQuotes FxReceipt DigestTable
open TradingFx (FxContext fxEvidenceDigest textField numberField field validateEnvelope)
open TradingFx (legText positiveDecimal)
open TradingRecoveryScheduleContract (FxLegId digestPattern digestPattern_of_eq)

variable {sha256 : String → String} {now : ℤ} {account : FxAccount} {context : FxContext}
  {db after : Database}

section Stability

structure Empty (s : State) : Prop where
  receipts : s.db.receipts.rows = []
  conversions : s.db.conversions.rows = []
  references : s.db.references.rows = []

theorem Empty.invariant {s : State} (h : Empty s) : Invariant sha256 s := by
  refine ⟨⟨?_, ?_, ?_⟩, ?_⟩
  · rw [h.receipts]
    exact fun _ hrow => absurd hrow List.not_mem_nil
  · rw [h.conversions]
    exact fun _ hrow => absurd hrow List.not_mem_nil
  · rw [h.references]
    exact fun _ hrow => absurd hrow List.not_mem_nil
  · rw [h.conversions]
    exact fun _ hrow => absurd hrow List.not_mem_nil

theorem Verified.same {current next : AccountRow} {account' : FxAccount} {context' : FxContext}
    {now' : ℤ} (h : Verified now account current context)
    (h' : Verified now' account' next context')
    (hident : SameIdentity current next) (hid : account'.id = account.id) :
    SameBinding account' account ∧ context' = context := by
  refine ⟨⟨hid, ?_, ?_⟩, ?_⟩
  · rw [h'.fingerprint, hident.fingerprint, h.fingerprint]
  · rw [h'.generation, hident.generation, h.generation]
  · obtain ⟨mode, profileHash⟩ := context
    obtain ⟨mode', profileHash'⟩ := context'
    have hmode : mode' = mode := by
      rw [show mode' = next.mode from h'.mode, hident.mode, ← h.mode]
    have hprof : some profileHash' = some profileHash := by
      rw [show some profileHash' = profileHashOf next.capabilities from h'.profile,
        hident.profile, ← h.profile]
    exact congrArg₂ FxContext.mk hmode (Option.some.inj hprof)

theorem persistFxConversion_keeps {baseAsset quoteAsset : String} {asOf : ℤ}
    (hinjective : Function.Injective sha256) (hsound : Sound sha256 now db) :
    persistFxConversion sha256 now account baseAsset quoteAsset asOf db ≠
      .error conversionChanged := by
  intro h
  have herror := h
  rw [persistFxConversion] at h
  rcases bind_eq_error.mp h with h | ⟨context, hctx, h⟩
  · exact keeps_requireFxAccountContext _ h rfl
  rcases bind_eq_error.mp h with h | ⟨rows, hrows, h⟩
  · refine Throws.bind (P := (· ≠ conversionChanged)) (throws_throwIf (by decide))
      (fun _ _ => ?_) _ h rfl
    exact (throws_throwIf (by decide)).bind (fun _ _ => throws_pure _)
  have hmem := mem_asOfReceipts hrows
  have hrecs := fun row hrow => hsound.receipts row (hmem row hrow).1
  rw [mapM_decodeReceipt hrecs (fun row hrow => (hmem row hrow).2), ok_bind] at h
  have hvalid : ∀ receipt ∈ rows.map ReceiptRow.receipt, Valid sha256 now context receipt := by
    intro receipt hrec
    obtain ⟨row, hrow, rfl⟩ := List.mem_map.mp hrec
    rw [← (ofAccount_iff.mp (hmem row hrow).2).2]
    exact (hrecs row hrow).valid
  rcases bind_eq_error.mp h with h | ⟨conversion, hderive, h⟩
  · exact keeps_deriveFxConversion hvalid _ h rfl
  rcases bind_eq_error.mp h with h | ⟨id, hid, h⟩
  · exact keeps_bound _ h rfl
  obtain ⟨reached, row, originals, hpersd, hstored, hpay, rfl, hsame, heq⟩ :=
    persistFxConversion_cases hinjective hsound hctx hrows hderive hid
  rw [heq, finishRead] at herror
  refine Throws.bind (P := (· ≠ conversionChanged)) ?_ (fun _ _ => throws_ok _) _ herror rfl
  refine Throws.bind (throws_forM ?_)
    (fun _ _ => (keeps_fxEvidenceDigest _ _).bind (fun _ _ => throws_pure _))
  intro receipt hrec
  obtain ⟨original, horig, rfl⟩ := List.mem_map.mp hrec
  have hreceiptSound := hpersd.sound.receipts original (hstored.mem original horig)
  have hjson := hreceiptSound.distinct
  rw [hreceiptSound.payload] at hjson
  have horiginalValid := hreceiptSound.valid
  rw [hstored.context original horig, hpay, hsame] at horiginalValid
  have hcheck : CheckSpec account _ _ _ _ := assertNoContradictedOriginal_spec hinjective
    hpersd.sound.receipts hjson horiginalValid
  intro e he
  rcases hcheck.throws e he with rfl | ⟨rfl, -⟩
  · decide
  · decide

theorem persistFxConversion_read {s t : State} {account' : FxAccount}
    {baseAsset quoteAsset : String}
    {asOf now' : ℤ} {stored : StoredFxConversion} (hinjective : Function.Injective sha256)
    (hinv : Invariant sha256 s) (hclock : s.clock ≤ now)
    (h : persistFxConversion sha256 now account baseAsset quoteAsset asOf s.db =
      .ok (stored, after))
    (hlater : Run sha256 ⟨after, now⟩ t) (hid : account'.id = account.id) (hclock' : t.clock ≤ now')
    (hctx : requireFxAccountContext now' account' t.db = .ok context) :
    Invariant sha256 t ∧
      ReadSpec account' context t.db stored
        (readFxConversion sha256 now' account' stored.id t.db) := by
  have hstep := (Step.persist hclock h).invariant hinjective hinv
  obtain ⟨ht, hkept⟩ := hlater.invariant hinjective hstep.1
  obtain ⟨first, hfirst, hpersd, hsame, -⟩ :=
    persistFxConversion_ok hinjective (hinv.sound.later hclock) h
  obtain ⟨row, hrow, hpay, hbind⟩ := hpersd.stored
  obtain ⟨hmem, hrowId⟩ := Keyed.find_eq_some.mp hrow
  obtain ⟨current, hcur, hverified⟩ := requireFxAccountContext_ok hfirst
  obtain ⟨next, hnext, hverified'⟩ := requireFxAccountContext_ok hctx
  rw [← hpersd.accounts] at hcur
  obtain ⟨found, hfound, hident⟩ := hkept.accounts account.id current hcur
  rw [hid, hfound, Option.some.injEq] at hnext
  subst hnext
  obtain ⟨hsameBinding, rfl⟩ := hverified.same hverified' hident hid
  have hrowLater := hkept.conversions row hmem
  rw [← hrowId]
  refine ⟨ht, readFxConversion_spec hinjective (ht.sound.later hclock') (ht.digests row hrowLater)
    (Keyed.find_eq_some.mpr ⟨hrowLater, rfl⟩) ?_ ?_ hctx ?_⟩
  · rw [hrowId, hpay]
  · exact ⟨hsameBinding.id.trans hbind.id, hsameBinding.fingerprint.trans hbind.fingerprint,
      hsameBinding.generation.trans hbind.generation⟩
  · rw [hpay, hsame]

/-- Conversions are derived again from their receipts, and what was persisted is read back. -/
theorem fxConversions_stable {start s : State} (hinjective : Function.Injective sha256)
    (hstart : Empty start) (hrun : Run sha256 start s) :
    (∀ values baseAsset quoteAsset asOf context now conversion,
      deriveFxConversion sha256 now values baseAsset quoteAsset asOf context = .ok conversion →
        ∃ selected : List FxLegReceipt, selected.map (·.receiptHash) = conversion.receiptHashes ∧
          (∀ receipt ∈ selected, receipt.json ∈ values) ∧
          deriveFxConversion sha256 now (selected.map FxLegReceipt.json) baseAsset quoteAsset asOf
            context = .ok conversion) ∧
    (∀ account baseAsset quoteAsset asOf now, s.clock ≤ now →
      persistFxConversion sha256 now account baseAsset quoteAsset asOf s.db ≠
        .error conversionChanged) ∧
    (∀ account values read now after, s.clock ≤ now → (∀ value ∈ values, value.Distinct) →
      captureFxReceipts sha256 now account values read s.db = .ok after →
        ∃ context, requireFxAccountContext now account s.db = .ok context ∧
          ∀ value ∈ values, ∃ receipt : FxLegReceipt, value = receipt.json ∧
            Captured account context after receipt) ∧
    ∀ account baseAsset quoteAsset asOf now stored after, s.clock ≤ now →
      persistFxConversion sha256 now account baseAsset quoteAsset asOf s.db = .ok (stored, after) →
        ∀ t account' now' context, Run sha256 ⟨after, now⟩ t → account'.id = account.id →
          t.clock ≤ now' → requireFxAccountContext now' account' t.db = .ok context →
            ReadSpec account' context t.db stored
              (readFxConversion sha256 now' account' stored.id t.db) := by
  obtain ⟨hinv, -⟩ := hrun.invariant hinjective hstart.invariant
  refine ⟨?_, ?_, ?_, ?_⟩
  · intro values baseAsset quoteAsset asOf context now conversion h
    obtain ⟨rfl, rfl, rfl, selected, hsel⟩ := deriveFxConversion_again h
    exact ⟨selected, hsel.hashes, hsel.mem, hsel.again now (le_refl now)⟩
  · intro account baseAsset quoteAsset asOf now hclock
    exact persistFxConversion_keeps hinjective (hinv.sound.later hclock)
  · intro account values read now after hclock hdist h
    exact (captureFxReceipts_stored hinjective (hinv.sound.later hclock).receipts hdist h).2
  · intro account baseAsset quoteAsset asOf now stored after hclock h t account' now' context hlater
      hid hclock' hctx
    exact (persistFxConversion_read hinjective hinv hclock h hlater hid hclock' hctx).2

end Stability

section Quotes

/-- The envelope of a ticker that quotes the leg at `price`. -/
def quoteEnvelope (leg : FxLegId) (price : String) : List (String × Json ℚ) :=
  [("retCode", .number 0), ("time", .number 1000),
    ("result", .object [("category", .string (Executor.legs leg).category),
      ("list", .array [.object [("symbol", .string (Executor.legs leg).symbol),
        ((Executor.legs leg).field, .string price)]])])]

/-- A quote of a leg that the provider answered at time 1000, with its digests. -/
structure LegQuote where
  leg : FxLegId
  value : String
  completed : ℤ
  envelopeHash : String
  receiptHash : String

namespace LegQuote

def members (quote : LegQuote) : List (String × Json ℚ) :=
  nodeBody "live" "https://api.bybit.com" hex64 quote.leg ⟨500, quote.completed, quote.completed⟩
    1000 quote.value (.object (quoteEnvelope quote.leg quote.value)) quote.envelopeHash

def receipt (quote : LegQuote) : FxLegReceipt :=
  ⟨quote.members ++ [("receiptHash", .string quote.receiptHash)]⟩

structure Checked (sha256 : String → String) (quote : LegQuote) : Prop where
  plain : hasSpace quote.value = false
  positive : positiveDecimal quote.value = true
  after : 500 ≤ quote.completed
  before : quote.completed ≤ 10000
  envelope : fxEvidenceDigest sha256 "bybit-fx-envelope-v1"
    (.object (quoteEnvelope quote.leg quote.value)) = .ok quote.envelopeHash
  receipt : fxEvidenceDigest sha256 "bybit-fx-receipt-v1" (.object quote.members) =
    .ok quote.receiptHash

end LegQuote

def usdcContext : FxContext := ⟨"live", hex64⟩

variable {quote : LegQuote}

theorem validateEnvelope_quote (hdig : fxEvidenceDigest sha256 "bybit-fx-envelope-v1"
      (.object (quoteEnvelope quote.leg quote.value)) = .ok quote.envelopeHash) :
    validateEnvelope sha256 quote.receipt.members = .ok () := by
  obtain ⟨leg, value, completed, envelopeHash, receiptHash⟩ := quote
  generalize hbody : (LegQuote.receipt ⟨leg, value, completed, envelopeHash, receiptHash⟩).members =
    body
  have henv : field "envelope" body = .object (quoteEnvelope leg value) := by
    rw [← hbody]
    simp [field, LegQuote.receipt, LegQuote.members, nodeBody, Json.lookup]
  have hresponse : numberField "providerResponseAt" body = some 1000 := by
    rw [← hbody]
    simp [numberField, LegQuote.receipt, LegQuote.members, nodeBody, Json.lookup, Json.number?]
  have htexts : textField "category" body = some (Executor.legs leg).category ∧
      textField "symbol" body = some (Executor.legs leg).symbol ∧
      textField "field" body = some (Executor.legs leg).field ∧
      textField "value" body = some value ∧
      textField "envelopeHash" body = some envelopeHash := by
    rw [← hbody]
    simp [textField, LegQuote.receipt, LegQuote.members, nodeBody, Json.lookup, Json.text?]
  obtain ⟨hcategory, hsym, hfield, hvalue, hhash⟩ := htexts
  rw [validateEnvelope, henv]
  have hmems : numberField "retCode" (quoteEnvelope leg value) = some 0 ∧
      numberField "time" (quoteEnvelope leg value) = some 1000 := by
    simp [numberField, quoteEnvelope, Json.lookup, Json.number?]
  obtain ⟨result, hres, hcategoryOf, hlist⟩ : ∃ result,
      field "result" (quoteEnvelope leg value) = .object result ∧
      textField "category" result = some (Executor.legs leg).category ∧
      field "list" result = .array [.object [("symbol", .string (Executor.legs leg).symbol),
        ((Executor.legs leg).field, .string value)]] := by
    simp [field, textField, quoteEnvelope, Json.lookup, Json.text?]
  have hticker : textField "symbol" [("symbol", .string (Executor.legs leg).symbol),
        ((Executor.legs leg).field, .string value)] = some (Executor.legs leg).symbol ∧
      textField (Executor.legs leg).field [("symbol", .string (Executor.legs leg).symbol),
        ((Executor.legs leg).field, .string value)] = some value := by
    cases leg <;> simp [Executor.legs, textField, Json.lookup, Json.text?]
  simp only [TradingFx.object, ok_bind, hres, hmems, hresponse, hcategoryOf,
    hcategory, hlist, TradingFx.onlyRow, hticker, hsym, hfield, Option.getD_some, hvalue, hdig,
    hhash, ne_eq, not_true_eq_false, or_self, throwIf_of_not not_false]

theorem LegQuote.Checked.valid (h : quote.Checked sha256) (hnow : 10000 ≤ now) :
    Valid sha256 now usdcContext quote.receipt where
  shape := joinedKeys_receipt
  profile := validateProfile_body (by decide) (by decide)
  leg := validateLeg_body h.plain h.positive
  times := by
    have hafter := h.after
    have hbefore := h.before
    refine validateTimes_body ?_ ?_ ?_ ?_ ?_ ?_ ?_ ?_
    all_goals simp only [Executor.safeTime]
    all_goals omega
  envelope := validateEnvelope_quote h.envelope
  hash := ⟨quote.receiptHash, (congrArg (fun members => fxEvidenceDigest sha256
    "bybit-fx-receipt-v1" (.object members)) original_receipt).trans h.receipt, receiptHash_receipt⟩

@[simp] theorem LegQuote.receipt_receiptHash : quote.receipt.receiptHash = quote.receiptHash :=
  text_of_textField receiptHash_receipt

theorem LegQuote.receipt_fields : quote.receipt.legId = legText quote.leg ∧
    quote.receipt.providerResponseAt = 1000 ∧ quote.receipt.value = quote.value ∧
    quote.receipt.startedAt = 500 ∧ quote.receipt.completedAt = quote.completed := by
  simp [FxLegReceipt.legId, FxLegReceipt.providerResponseAt, FxLegReceipt.value,
    FxLegReceipt.startedAt, FxLegReceipt.completedAt, FxLegReceipt.text, FxLegReceipt.integer,
    textField, numberField, LegQuote.receipt, LegQuote.members, nodeBody, Json.lookup, Json.text?,
    Json.number?]

theorem LegQuote.distinct : quote.receipt.json.Distinct := by
  have henv : (Json.object (quoteEnvelope quote.leg quote.value)).Distinct := by
    cases quote.leg <;> simp [Executor.legs, quoteEnvelope, Json.Distinct, Json.DistinctMembers,
      Json.DistinctItems]
  refine ⟨?_, Json.distinctMembers_iff.mpr ?_⟩
  · simp only [LegQuote.receipt, LegQuote.members, nodeBody, List.cons_append, List.nil_append,
      List.map_cons, List.map_nil]
    decide
  · rw [Json.Distinct] at henv
    simp [LegQuote.receipt, LegQuote.members, nodeBody, Json.Distinct, henv]

end Quotes

section Account

def fxAccount : FxAccount := ⟨"account", "bybit", "live", some hex64, some hex64, some hex64⟩

def fxAccountRow : AccountRow where
  id := "account"
  exchange := "bybit"
  mode := "live"
  externalAccountId := some hex64
  credentialGeneration := some hex64
  lastVerifiedAt := some 1000
  capabilities := [("profileVersion", .number 1),
    ("executionCapabilities", .object [("provider_api_version", .string "bybit-v5")]),
    ("executionProfileHash", .string hex64)]

def fxStart : State := ⟨⟨⟨[fxAccountRow], List.nodup_singleton _⟩, .empty, .empty, .empty⟩, 20000⟩

theorem requireFxAccountContext_fxAccount (hnow : 0 ≤ now)
    (h : db.accounts = fxStart.db.accounts) :
    requireFxAccountContext now fxAccount db = .ok usdcContext := by
  have hfind : db.accounts.find fxAccount.id = some fxAccountRow := by
    rw [h]
    rfl
  have hpat : digestPattern hex64 = true := digestPattern_of_eq rfl rfl
  have hprof : profileHashOf fxAccountRow.capabilities = some hex64 := by
    simp [profileHashOf, fxAccountRow, textField, Json.lookup, Json.text?]
  have hver : numberField "profileVersion" fxAccountRow.capabilities = some 1 := by
    simp [fxAccountRow, numberField, Json.lookup, Json.number?]
  have hapi : textField "provider_api_version" (objectMembers
      (field "executionCapabilities" fxAccountRow.capabilities)) = some "bybit-v5" := by
    simp [fxAccountRow, field, textField, Json.lookup, Json.text?, objectMembers]
  rw [requireFxAccountContext, hfind]
  simp only [profileContext, hprof, hver, hapi]
  simp [fxAccountRow, fxAccount, hpat, throwIf, isSafeInteger, maxSafeInteger, usdcContext, hnow]

def boundMembers (key text : String) : List (String × Json ℚ) :=
  [("accountId", .string "account"), ("accountFingerprint", .string hex64),
    ("credentialGeneration", .string hex64), (key, .string text)]

theorem binding_fxAccount : binding fxAccount = .ok [("accountId", .string "account"),
    ("accountFingerprint", .string hex64), ("credentialGeneration", .string hex64)] := by
  have hne : hex64 ≠ "" := by decide
  simp [binding, fxAccount, throwIf, hne]

end Account

section Persisted

def LegQuote.row (quote : LegQuote) (id : String) : ReceiptRow :=
  ⟨id, "account", hex64, hex64, "live", hex64, quote.receiptHash, legText quote.leg, 1000, 500,
    10000, quote.receipt.json⟩

theorem ofAccount_row (quote : LegQuote) (id : String) :
    ofAccount fxAccount usdcContext (quote.row id) = true :=
  ofAccount_iff.mpr ⟨⟨rfl, rfl, rfl⟩, rfl⟩

theorem LegQuote.Checked.window {quote : LegQuote} (h : quote.Checked sha256) :
    assertWindow quote.receipt ⟨500, 10000⟩ = .ok () := by
  obtain ⟨-, -, -, hstarted, hdone⟩ := quote.receipt_fields
  have hafter := h.after
  have hbefore := h.before
  rw [assertWindow, hstarted, hdone]
  refine throwIf_of_not ?_ _
  simp only [isSafeInteger, maxSafeInteger]
  omega

theorem captureFxReceipts_quote {quote : LegQuote} {id : String} (hchecked : quote.Checked sha256)
    (hid : receiptId sha256 fxAccount quote.receiptHash = .ok id)
    (h : db.accounts = fxStart.db.accounts) :
    captureFxReceipts sha256 20000 fxAccount [quote.receipt.json] ⟨500, 10000⟩ db =
      .ok { db with receipts := (db.receipts.insert (quote.row id)).2 } := by
  obtain ⟨hleg, htime, -⟩ := quote.receipt_fields
  have hstore : storeReceipt sha256 fxAccount usdcContext ⟨500, 10000⟩ db quote.receipt =
      .ok { db with receipts := (db.receipts.insert (quote.row id)).2 } := by
    rw [storeReceipt, hchecked.window, ok_bind, LegQuote.receipt_receiptHash, hid, ok_bind, hleg,
      htime]
    rfl
  rw [captureFxReceipts, requireFxAccountContext_fxAccount (by omega) h, ok_bind,
    throwIf_of_not (by simp), ok_bind, List.mapM_cons,
    (hchecked.valid (by omega)).validReceipt, ok_bind, List.mapM_nil]
  simp only [pure_bind]
  rw [throwIf_of_not (by simp), ok_bind, List.foldlM_cons, hstore, ok_bind]
  rfl

def usdcConversion (hash : String) : FxConversion :=
  ⟨1, "provider_snapshot_index_asof", "stable-index-asof-10s-v1", .live, hex64, "USDC", "USD", 1000,
    1000, 1000, 11000, ⟨"1", "1"⟩, [hash]⟩

theorem derive_quote {row : FxLegReceipt} {rate : TradingRational.ExactRational}
    {evidenceHash : String} (hvalid : Valid sha256 now usdcContext row)
    (hleg : row.legId = "bybit:usdc-usd-index:v1") (htime : row.providerResponseAt = 1000)
    (hvalue : TradingRational.rationalFromDecimal row.value = .ok rate)
    (hrate : TradingRational.divideRational rate ⟨"1", "1"⟩ = .ok rate)
    (hdig : conversionDigest sha256 { usdcConversion row.receiptHash with rate } =
      .ok evidenceHash) :
    deriveFxConversion sha256 now [row.json] "USDC" "USD" 1000 usdcContext =
      .ok ⟨{ usdcConversion row.receiptHash with rate }, evidenceHash⟩ := by
  have hreq : requiredLegs "USDC" "USD" = .ok ["bybit:usdc-usd-index:v1"] := by rfl
  have heligible : eligibleReceipts sha256 now [row.json] ["bybit:usdc-usd-index:v1"] 1000
      usdcContext = .ok [row] := by
    rw [eligibleReceipts, List.mapM_cons, hvalid.validReceipt, ok_bind, List.mapM_nil]
    simp only [pure_bind]
    have hfilt : eligible ["bybit:usdc-usd-index:v1"] 1000 row = true := by
      simp [eligible, hleg, htime]
    rw [List.filter_cons_of_pos hfilt, List.filter_nil]
    rfl
  have hsel : coherentLegs [row] ["bybit:usdc-usd-index:v1"] = .ok [row] := by
    rw [coherentLegs_eq_ok]
    simp [FirstWindow.firstWindow, FirstWindow.window, FirstWindow.pick, FirstWindow.within, hleg,
      htime]
  have hone : TradingRational.rationalFromDecimal "1" = .ok ⟨"1", "1"⟩ := by decide +kernel
  have hbase : usdRate "USDC" [row] = .ok rate := by
    have hlegs : assetLegs "USDC" = .ok ["bybit:usdc-usd-index:v1"] := by rfl
    have hleg' : legRate [row] "bybit:usdc-usd-index:v1" = .ok rate := by
      simp [legRate, hleg, hvalue]
    rw [usdRate, if_neg (by decide), hlegs, ok_bind, List.mapM_cons, hleg', ok_bind, List.mapM_nil]
    rfl
  have hconv : selectedConversion [row] "USDC" "USD" 1000 usdcContext =
      .ok { usdcConversion row.receiptHash with rate } := by
    rw [selectedConversion, hbase, ok_bind, usdRate, if_pos rfl, hone, ok_bind, hrate, ok_bind]
    simp [htime, usdcConversion, fxMode, usdcContext, pure, Except.pure]
  rw [deriveFxConversion, throwIf_of_not (by simp [isSafeInteger, maxSafeInteger]), ok_bind, hreq,
    ok_bind, heligible, ok_bind, hsel, ok_bind, hconv, ok_bind, hdig, ok_bind]
  rfl

/-- A quote of the dollar coin, with the digests of its conversion to the dollar. -/
structure CoinQuote extends LegQuote where
  rate : ExactRational
  rowId : String
  evidenceHash : String
  storedId : String

namespace CoinQuote

def evidence (quote : CoinQuote) : FxConversionEvidence :=
  ⟨{ usdcConversion quote.receiptHash with rate := quote.rate }, quote.evidenceHash⟩

structure Converts (sha256 : String → String) (quote : CoinQuote) : Prop where
  checked : quote.Checked sha256
  leg : quote.leg = .usdcUsd
  price : rationalFromDecimal quote.value = .ok quote.rate
  unit : divideRational quote.rate ⟨"1", "1"⟩ = .ok quote.rate
  row : receiptId sha256 fxAccount quote.receiptHash = .ok quote.rowId
  digest : conversionDigest sha256 quote.evidence.toFxConversion = .ok quote.evidenceHash
  conversion : conversionId sha256 fxAccount quote.evidenceHash = .ok quote.storedId
  readable : ∃ digest, evidenceDigest sha256 quote.evidence = .ok digest

def captured (quote : CoinQuote) : Database :=
  { fxStart.db with receipts := ⟨[quote.row quote.rowId], List.nodup_singleton _⟩ }

def converted (quote : CoinQuote) : Database :=
  { quote.captured with
    conversions := ⟨[⟨quote.storedId, "account", hex64, hex64, quote.evidenceHash,
      quote.evidence⟩], List.nodup_singleton _⟩
    references := ⟨[⟨"account", quote.storedId, quote.rowId, 0⟩], List.nodup_singleton _⟩ }

variable {quote : CoinQuote}

theorem decodeReceipt_eq (h : quote.Converts sha256) :
    decodeReceipt sha256 20000 fxAccount usdcContext (quote.row quote.rowId) =
      .ok quote.receipt := by
  obtain ⟨hleg, htime, -⟩ := quote.receipt_fields
  have hvalid : validReceipt sha256 20000 usdcContext (quote.row quote.rowId).payload =
      .ok quote.receipt := (h.checked.valid (by omega)).validReceipt
  rw [decodeReceipt, hvalid, ok_bind, ofAccount_row, throwIf_of_not (by simp), ok_bind,
    LegQuote.receipt_receiptHash, h.row, ok_bind, hleg, htime,
    throwIf_of_not (by simp [LegQuote.row]), ok_bind]
  exact bind_of_ok h.checked.window _

theorem derive_eq (h : quote.Converts sha256) :
    deriveFxConversion sha256 20000 ([quote.receipt].map FxLegReceipt.json) "USDC" "USD" 1000
      usdcContext = .ok quote.evidence := by
  obtain ⟨hleg, htime, hvalue, -⟩ := quote.receipt_fields
  have hdig := h.digest
  rw [evidence, ← LegQuote.receipt_receiptHash] at hdig ⊢
  exact derive_quote (h.checked.valid (by omega)) (by rw [hleg, h.leg]; rfl) htime
    (hvalue.symm ▸ h.price) h.unit hdig

theorem captureFxReceipts_eq (h : quote.Converts sha256) :
    captureFxReceipts sha256 20000 fxAccount [quote.receipt.json] ⟨500, 10000⟩ fxStart.db =
      .ok quote.captured := captureFxReceipts_quote h.checked h.row rfl

theorem asOfReceipts_eq : asOfReceipts 20000 fxAccount usdcContext 1000 quote.captured =
    .ok [quote.row quote.rowId] := by
  have hfilt : [quote.row quote.rowId].filter (fun row => ofAccount fxAccount usdcContext row &&
      max 0 (1000 - 10000) ≤ row.providerResponseAt && row.providerResponseAt ≤ 1000) =
        [quote.row quote.rowId] := by
    rw [List.filter_cons_of_pos, List.filter_nil]
    rw [ofAccount_row]
    rfl
  rw [asOfReceipts, throwIf_of_not (by simp [isSafeInteger, maxSafeInteger]), ok_bind]
  simp only [captured, hfilt]
  rfl

theorem storeReferences_eq (h : quote.Converts sha256) :
    quote.evidence.receiptHashes.zipIdx.foldlM
      (storeReference sha256 fxAccount quote.storedId)
        (storeConversion fxAccount quote.storedId quote.evidence quote.captured) =
          .ok quote.converted := by
  have hhashes : quote.evidence.receiptHashes.zipIdx = [(quote.receiptHash, 0)] := rfl
  have hstored := @storeReference_eq sha256 fxAccount
    (storeConversion fxAccount quote.storedId quote.evidence quote.captured)
    quote.storedId (quote.receiptHash, 0) quote.rowId h.row
  rw [hhashes, List.foldlM_cons, hstored, ok_bind]
  rfl

theorem readFxConversion_eq (h : quote.Converts sha256) :
    readFxConversion sha256 20000 fxAccount quote.storedId quote.converted =
      .ok ⟨quote.storedId, quote.evidence⟩ := by
  have hctx : requireFxAccountContext 20000 fxAccount quote.converted = .ok usdcContext :=
    requireFxAccountContext_fxAccount (by omega) rfl
  have hfind : (quote.converted.conversions.find quote.storedId).filter (fun row =>
      row.accountId = fxAccount.id && some row.accountFingerprint = fxAccount.externalAccountId &&
      some row.credentialGeneration = fxAccount.credentialGeneration) =
      some ⟨quote.storedId, "account", hex64, hex64, quote.evidenceHash, quote.evidence⟩ := by
    simp [converted, Keyed.find, fxAccount, Option.filter]
  have horigs : referencedReceipts fxAccount.id quote.storedId quote.converted =
      [quote.row quote.rowId] := by
    simp [referencedReceipts, converted, captured, fxAccount, LegQuote.row]
  have hpeers : assertNoContradictedOriginal sha256 20000 fxAccount usdcContext quote.converted
      quote.receipt = .ok () := by
    have hnone : quote.converted.receipts.rows.filter
        (peer fxAccount usdcContext quote.receipt) = [] := by
      refine List.filter_eq_nil_iff.mpr ?_
      intro other hother
      rw [List.mem_singleton.mp hother]
      simp [peer, LegQuote.row]
    rw [assertNoContradictedOriginal]
    simp only [hnone]
    rfl
  obtain ⟨digest, hdig⟩ := h.readable
  have hderive : deriveFxConversion sha256 20000 ([quote.receipt].map FxLegReceipt.json)
      quote.evidence.baseAsset quote.evidence.quoteAsset quote.evidence.asOf usdcContext =
        .ok quote.evidence := derive_eq h
  have hconv : conversionId sha256 fxAccount quote.evidence.evidenceHash =
      .ok quote.storedId := h.conversion
  rw [readFxConversion, hctx, ok_bind, hfind]
  simp only [horigs]
  rw [throwIf_of_not (by simp), ok_bind, List.mapM_cons, decodeReceipt_eq h, ok_bind,
    List.mapM_nil]
  simp only [pure_bind]
  rw [List.forM_eq_forM, List.forM_cons, hpeers, ok_bind]
  simp only [List.forM_nil, pure_bind]
  rw [hderive, ok_bind, throwIf_of_not (by simp [evidence]), ok_bind, hconv, ok_bind,
    throwIf_of_not (by simp), ok_bind, hdig, ok_bind, ok_bind, throwIf_of_not (by simp), ok_bind]
  rfl

theorem persistFxConversion_eq (h : quote.Converts sha256) :
    persistFxConversion sha256 20000 fxAccount "USDC" "USD" 1000 quote.captured =
      .ok (⟨quote.storedId, quote.evidence⟩, quote.converted) := by
  have hctx : requireFxAccountContext 20000 fxAccount quote.captured = .ok usdcContext :=
    requireFxAccountContext_fxAccount (by omega) rfl
  have hconv : conversionId sha256 fxAccount quote.evidence.evidenceHash =
      .ok quote.storedId := h.conversion
  rw [persistFxConversion, hctx, ok_bind, asOfReceipts_eq, ok_bind, List.mapM_cons,
    decodeReceipt_eq h, ok_bind, List.mapM_nil]
  simp only [pure_bind]
  rw [derive_eq h, ok_bind, hconv, ok_bind, storeReferences_eq h, ok_bind, readFxConversion_eq h]
  rfl

end CoinQuote

theorem CoinQuote.Converts.run_captured {quote : CoinQuote} (h : quote.Converts sha256) :
    Run sha256 fxStart ⟨quote.captured, 20000⟩ := by
  refine .single (Step.capture (le_refl _) ?_ (CoinQuote.captureFxReceipts_eq h))
  intro value hvalue
  rw [List.mem_singleton] at hvalue
  exact hvalue ▸ LegQuote.distinct

end Persisted

section Digests

variable {other : String → String}

/-- A document that is short enough for every digest. -/
def Short (value : Json ℚ) : Prop := Admissible NumberAllowed value 0 ∧ tokens value ≤ 256 ∧
  byteLength (value.dumps nodeNumber) < 16384
  deriving Decidable

theorem Short.digest {value : Json ℚ} (h : Short value) (domain : String) :
    fxEvidenceDigest sha256 domain value =
      .ok (sha256 (domain ++ "\n" ++ .ofList (value.dumps nodeNumber))) := by
  obtain ⟨hadm, htokens, hsize⟩ := h
  have hcan {limit : ℤ} (h : 256 ≤ limit) : TradingFx.canonical value 0 limit =
      .ok (value.dumps nodeNumber, limit - tokens value) :=
    (nodeEncodes value 0 limit _ _).mpr ⟨hadm, by omega, rfl, rfl⟩
  rw [fxEvidenceDigest, hcan (by split_ifs <;> omega), ok_bind,
    throwIf_of_not (by dsimp only; split_ifs <;> omega), ok_bind]
  rfl

theorem Short.digest_of_mem {value : Json ℚ} {domain digest : String}
    {table : List (List Char × String)} (hnodup : (table.map (·.1)).Nodup) (h : Short value)
    (hmem : (hashedText domain value, digest) ∈ table) :
    fxEvidenceDigest (digestOf String.toList table other) domain value = .ok digest := by
  rw [h.digest, digestOf_of_mem hnodup]
  have hline : "\n".toList = ['\n'] := rfl
  rw [String.toList_append, String.toList_append, hline, String.toList_ofList, List.append_assoc]
  exact hmem

/-- What a member adds to the bytes of an object. -/
def memberSize (member : String × Json ℚ) : ℕ :=
  byteLength (JsonText.string member.1) + 2 + byteLength (member.2.dumps nodeNumber)

section Objects

variable {before rest : List (String × Json ℚ)} {member : String × Json ℚ}

theorem byteLength_object :
    byteLength (Json.dumps nodeNumber (.object (before ++ member :: rest))) ≤
    2 + ((before ++ rest).map memberSize).sum + memberSize member := by
  have hbound := byteLength_dumps_object_le nodeNumber (before ++ member :: rest)
  rw [add_assoc, ← List.sum_map_add] at hbound
  have hperm := ((@List.perm_middle _ member before rest).map memberSize).sum_eq
  rw [List.map_cons, List.sum_cons] at hperm
  have hsame :
    ((before ++ member :: rest).map (fun other => byteLength (JsonText.string other.1) + 2 +
      byteLength (other.2.dumps nodeNumber))).sum = _ := hperm
  omega

theorem short_object (hrest : (∀ other ∈ before ++ rest, KeyAllowed other.1 ∧
      Admissible NumberAllowed other.2 1) ∧ tokens (.object (before ++ rest)) ≤ 200 ∧
      ((before ++ rest).map memberSize).sum ≤ 1300)
    (hmember : KeyAllowed member.1 ∧ Admissible NumberAllowed member.2 1)
    (htokens : tokens member.2 ≤ 1) (hsize : memberSize member ≤ 15000) :
    Short (.object (before ++ member :: rest)) := by
  have hperm := @List.perm_middle _ member before rest
  obtain ⟨hall, hrestTokens, hrestSize⟩ := hrest
  refine ⟨⟨by omega, admissibleMembers_iff.mpr ?_⟩, ?_, ?_⟩
  · intro other hother
    rcases List.mem_cons.mp (hperm.mem_iff.mp hother) with rfl | hother
    · exact hmember
    · exact hall other hother
  · have hsum := (hperm.map (fun other => 1 + tokens other.2)).sum_eq
    rw [tokens, tokensMembers_eq] at hrestTokens ⊢
    rw [hsum, List.map_cons, List.sum_cons]
    omega
  · have hbound := @byteLength_object before rest member
    omega

end Objects

/-- The dollar coin at 2, as the first read of the run found it. -/
def coinQuote : CoinQuote where
  leg := .usdcUsd
  value := "2"
  completed := 1000
  envelopeHash := "89c70391057eab2dcd54199ea165def404e435ceda734ec29053fdd085c6b596"
  receiptHash := "d1778043dd52ccb387f1ef26773c84fc2cf4ddb644175bd9412f429778283048"
  rate := ⟨"2", "1"⟩
  rowId := "d3cb777c67c6c6badee38571539a99ef57dee9dc9752e27067082daf71c3cde2"
  evidenceHash := "42e0ff1f1b73eecf3dcec858ddf07160fbf40b55ff8182336b0d8ad6d03bd50e"
  storedId := "10c6d2d4a275ed340bac00750fae33309a909db4a5f9f6787bbc857865488082"

/-- The same answer, read for longer. -/
def laterQuote : LegQuote :=
  { coinQuote.toLegQuote with
    completed := 1200
    receiptHash := "dea6da7b38ce54c9310774dacd3a2cf5dd0691398752a1eadb380a7070159854" }

def laterRowId : String := "5f0c44dbaebb6de3aa35b8e1a48c3c10d9c58af4e80d541019fe020f216cbbcd"

def dollarQuote : LegQuote :=
  ⟨.btcUsd, "60000", 1000, "0223beae9b558b20517da9948e176fdbb86d7dc676a4cefafd9101d8e4d699bd",
    "4be51797cde83b4b2de27cc06af9b693ded29b408562ffae9e53b061ff607f3b"⟩

def tetherQuote : LegQuote :=
  ⟨.btcUsdt, "59970", 1000, "a0022aa2d9e61c8e5c314856b88896647d6c774ae775a5d97c624b2ed5fbd452",
    "79399555d045bd0cd9dada0f2c7410936b7a307bf417ec1e6ce825f06b9ba73e"⟩

def tetherConversion (baseAsset quoteAsset : String) (rate : ExactRational) : FxConversion :=
  { usdcConversion "" with
    baseAsset, quoteAsset, rate, receiptHashes :=
      [dollarQuote.receiptHash, tetherQuote.receiptHash] }

/-- The digests of the texts of these quotes and their conversions. -/
def quotedDigests : List (List Char × String) :=
  let envelope (quote : LegQuote) := (hashedText "bybit-fx-envelope-v1"
    (.object (quoteEnvelope quote.leg quote.value)), quote.envelopeHash)
  let receipt (quote : LegQuote) :=
    (hashedText "bybit-fx-receipt-v1" (.object quote.members), quote.receiptHash)
  let observation (quote : LegQuote) (id : String) := (hashedText "tsx-fx-observation-v1"
    (.object (boundMembers "receiptHash" quote.receiptHash)), id)
  let conversion (value : FxConversion) (digest : String) :=
    (hashedText "tsx-fx-conversion-v1" (.object (conversionMembers value)), digest)
  [envelope coinQuote.toLegQuote, receipt coinQuote.toLegQuote, receipt laterQuote,
    envelope dollarQuote, receipt dollarQuote, envelope tetherQuote, receipt tetherQuote,
    observation coinQuote.toLegQuote coinQuote.rowId, observation laterQuote laterRowId,
    conversion coinQuote.evidence.toFxConversion coinQuote.evidenceHash,
    conversion (tetherConversion "USDT" "USD" ⟨"2000", "1999"⟩)
      "840ac7d08f461539a2a2e464165a41fbed498cf320b3653c367cafc4a993c699",
    conversion (tetherConversion "USD" "USDT" ⟨"1999", "2000"⟩)
      "1c97043396adb0a4ef47973de9589d000ebce4ca7d9a41fdff22f33e66a0be48",
    (hashedText "tsx-fx-account-conversion-v1"
      (.object (boundMembers "evidenceHash" coinQuote.evidenceHash)), coinQuote.storedId),
    (hashedText "tsx-fx-account-conversion-v1"
      (.object (conversionMembers coinQuote.evidence.toFxConversion ++
        [("evidenceHash", .string coinQuote.evidenceHash)])),
      "50db4db1f0148489b329aa95fdeb0ec9b2b890b9580afc6028446a3edf781ee7")]

theorem nodup_quotedTexts : (quotedDigests.map (·.1)).Nodup := by
  decide +kernel

theorem digestPattern_listed : ∀ entry ∈ quotedDigests, digestPattern entry.2 = true := by
  simp only [quotedDigests, List.forall_mem_cons, List.not_mem_nil, false_implies, implies_true,
    and_true]
  and_intros <;> exact digestPattern_of_eq rfl rfl

/-- What a quote is checked for besides its digests. -/
def LegQuote.Plain (quote : LegQuote) : Prop :=
  (hasSpace quote.value = false ∧ positiveDecimal quote.value = true ∧ 500 ≤ quote.completed ∧
    quote.completed ≤ 10000) ∧
  Short (.object (quoteEnvelope quote.leg quote.value)) ∧ Short (.object quote.members)
  deriving Decidable

theorem LegQuote.Plain.checked {quote : LegQuote} (h : quote.Plain)
    (henvelope : (hashedText "bybit-fx-envelope-v1"
      (.object (quoteEnvelope quote.leg quote.value)), quote.envelopeHash) ∈ quotedDigests)
    (hreceipt : (hashedText "bybit-fx-receipt-v1" (.object quote.members), quote.receiptHash) ∈
      quotedDigests) : quote.Checked (digestOf String.toList quotedDigests other) := by
  obtain ⟨⟨hplain, hpositive, hafter, hbefore⟩, henv, hrec⟩ := h
  exact ⟨hplain, hpositive, hafter, hbefore, henv.digest_of_mem nodup_quotedTexts henvelope,
    hrec.digest_of_mem nodup_quotedTexts hreceipt⟩

theorem receiptId_listed {quote : LegQuote} {id : String}
    (hshort : Short (.object (boundMembers "receiptHash" quote.receiptHash)))
    (hmem : (hashedText "tsx-fx-observation-v1"
      (.object (boundMembers "receiptHash" quote.receiptHash)), id) ∈ quotedDigests) :
    receiptId (digestOf String.toList quotedDigests other) fxAccount quote.receiptHash =
      .ok id := by
  rw [receiptId, binding_fxAccount, ok_bind]
  exact hshort.digest_of_mem nodup_quotedTexts hmem

theorem converts_coinQuote : coinQuote.Converts (digestOf String.toList quotedDigests other) where
  checked := LegQuote.Plain.checked (by decide +kernel) (List.mem_of_getElem? (i := 0) rfl)
    (List.mem_of_getElem? (i := 1) rfl)
  leg := rfl
  price := by decide +kernel
  unit := by decide +kernel
  row := receiptId_listed (by decide +kernel) (List.mem_of_getElem? (i := 7) rfl)
  digest := Short.digest_of_mem nodup_quotedTexts (by decide +kernel)
    (List.mem_of_getElem? (i := 9) rfl)
  conversion := by
    rw [conversionId, binding_fxAccount, ok_bind]
    exact Short.digest_of_mem nodup_quotedTexts (by decide +kernel)
      (List.mem_of_getElem? (i := 12) rfl)
  readable := ⟨_, Short.digest (by decide +kernel) _⟩

/-- The digests of the quotes, and one for all other texts. -/
abbrev quotedSha256 : String → String := digestOf String.toList quotedDigests (fun _ => hex64)

theorem digestPattern_quoted (text : String) : digestPattern (quotedSha256 text) = true :=
  @digestOf_holds _ _ _ _ _ _ (fun digest => digestPattern digest = true) digestPattern_listed
    (fun _ => digestPattern_of_eq rfl rfl) text

end Digests

section Crowd

/-- The digests of the quotes, and a text of its own for every other one. -/
@[irreducible] def ownSha256 : String → String := digestOf String.toList quotedDigests unlisted

theorem injective_own : Function.Injective ownSha256 := by
  rw [ownSha256]
  refine digestOf_injective (fun _ _ => String.toList_injective) (by decide +kernel) ?_
  intro entry hentry hhead
  have hall := digestPattern_listed entry hentry
  rw [digestPattern, Bool.and_eq_true, List.all_eq_true] at hall
  exact absurd (hall.2 '?' (List.mem_of_mem_head? hhead)) (by decide)

theorem converts_own : coinQuote.Converts ownSha256 := by
  rw [ownSha256]
  exact converts_coinQuote

theorem byteLength_own (text : String) :
    byteLength (ownSha256 text).toList ≤ 64 + byteLength text.toList := by
  rw [ownSha256, digestOf]
  cases h : quotedDigests.lookup text.toList with
  | none =>
    have hmark : byteLength "?".toList = 1 := by decide
    rw [Option.getD_none, unlisted, String.toList_append, JsonText.byteLength_append, hmark]
    omega
  | some digest =>
    have hlisted : ∀ entry ∈ quotedDigests, byteLength entry.2.toList ≤ 64 := by
      simp only [quotedDigests, List.forall_mem_cons, List.not_mem_nil, false_implies,
        implies_true, and_true]
      and_intros <;> exact le_of_eq ((congrArg byteLength (toList_of_eq rfl)).trans rfl)
    exact (hlisted _ (mem_of_lookup h)).trans (Nat.le_add_right _ _)

variable {k : ℕ}

/-- The answer of the dollar coin, complete `k` milliseconds after the provider gave it. -/
def usdcMembers (k : ℕ) : List (String × Json ℚ) :=
  { coinQuote.toLegQuote with completed := 1000 + k }.members

def usdcHash (k : ℕ) : String := ownSha256 ("bybit-fx-receipt-v1" ++ "\n" ++
  .ofList (Json.dumps nodeNumber (.object (usdcMembers k))))

def usdcQuote (k : ℕ) : LegQuote :=
  { coinQuote.toLegQuote with completed := 1000 + k, receiptHash := usdcHash k }

theorem members_usdcQuote : (usdcQuote k).members = usdcMembers k := rfl

theorem usdcMembers_eq : usdcMembers k = coinQuote.members.take 19 ++
    ("completedAt", .number ((1000 + k : ℤ) : ℚ)) :: coinQuote.members.drop 20 := rfl

theorem fits_usdcMembers : (∀ other ∈ coinQuote.members.take 19 ++ coinQuote.members.drop 20,
      KeyAllowed other.1 ∧ Admissible NumberAllowed other.2 1) ∧
    tokens (.object (coinQuote.members.take 19 ++ coinQuote.members.drop 20)) ≤ 200 ∧
    ((coinQuote.members.take 19 ++ coinQuote.members.drop 20).map memberSize).sum ≤ 1300 := by
  decide +kernel

theorem memberSize_completed (hk : k ≤ 9000) :
    memberSize ("completedAt", .number ((1000 + k : ℤ) : ℚ)) ≤ 40 := by
  have hdone : byteLength (JsonText.integer (1000 + k)) ≤ 16 :=
    TradingRecoveryScheduleContract.byteLength_integer_le (by omega) (by
      rw [maxSafeInteger]
      omega)
  have hkey : byteLength (JsonText.string "completedAt") ≤ 20 := by decide
  simp only [memberSize, Json.dumps, nodeNumber, Rat.num_intCast]
  omega

theorem short_usdcMembers (hk : k ≤ 9000) : Short (.object (usdcMembers k)) := by
  have hnumb : NumberAllowed ((1000 + k : ℤ) : ℚ) := by
    rw [numberAllowed_intCast, abs_of_nonneg (by omega)]
    omega
  rw [usdcMembers_eq]
  exact short_object fits_usdcMembers ⟨show KeyAllowed "completedAt" by decide, by omega, hnumb⟩
    (le_refl _)
    ((memberSize_completed hk).trans (by omega))

theorem checked_usdcQuote (hk : k ≤ 9000) : (usdcQuote k).Checked ownSha256 where
  plain := converts_own.checked.plain
  positive := converts_own.checked.positive
  after := show 500 ≤ (1000 : ℤ) + k by omega
  before := show (1000 : ℤ) + k ≤ 10000 by omega
  envelope := converts_own.checked.envelope
  receipt := by
    rw [members_usdcQuote]
    exact (short_usdcMembers hk).digest _

theorem usdcQuote_zero : usdcQuote 0 = coinQuote.toLegQuote := by
  have hlisted := converts_own.checked.receipt
  have hmembers : coinQuote.members = usdcMembers 0 := rfl
  rw [hmembers, (short_usdcMembers (Nat.zero_le 9000)).digest] at hlisted
  have hhash : usdcHash 0 = coinQuote.receiptHash := Except.ok.inj hlisted
  rw [usdcQuote, hhash]
  rfl

theorem usdcHash_injective {j : ℕ} (hk : k ≤ 9000) (hj : j ≤ 9000)
    (h : usdcHash k = usdcHash j) : k = j := by
  have hflds := members_of_receiptHash injective_own LegQuote.distinct LegQuote.distinct
    (@LegQuote.Checked.valid _ 20000 _ (checked_usdcQuote hk) (by omega))
    (@LegQuote.Checked.valid _ 20000 _ (checked_usdcQuote hj) (by omega))
    (by rw [LegQuote.receipt_receiptHash, LegQuote.receipt_receiptHash]; exact h)
  have hdone := (hflds "completedAt" (by decide)).2
  simp [numberField, LegQuote.receipt, LegQuote.members, usdcQuote, nodeBody, Json.lookup,
    Json.number?] at hdone
  exact_mod_cast hdone

theorem byteLength_usdcHash (hk : k ≤ 9000) :
    byteLength (usdcHash k).toList ≤ 1500 := by
  have hsize := @byteLength_object (coinQuote.members.take 19) (coinQuote.members.drop 20)
    ("completedAt", .number ((1000 + k : ℤ) : ℚ))
  rw [← usdcMembers_eq] at hsize
  have hdone := memberSize_completed hk
  have hrest := fits_usdcMembers.2.2
  exact (byteLength_own _).trans (by
    have htext := @byteLength_hash_le "bybit-fx-receipt-v1" _ 19 _ (by decide) hsize
    omega)

theorem short_bound {text : String} (h : byteLength text.toList ≤ 1500) :
    Short (.object (boundMembers "receiptHash" text)) := by
  have hjson := JsonText.byteLength_text_le text
  have hkey : byteLength (JsonText.string "receiptHash") ≤ 20 := by decide
  refine @short_object ((boundMembers "" "").take 3) [] ("receiptHash", .string text)
    (by decide +kernel) ⟨show KeyAllowed "receiptHash" by decide, by omega, by omega⟩ (le_refl _) ?_
  simp only [memberSize, Json.dumps]
  omega

def usdcRowId (k : ℕ) : String := ownSha256 ("tsx-fx-observation-v1" ++ "\n" ++
  .ofList (Json.dumps nodeNumber (.object (boundMembers "receiptHash" (usdcHash k)))))

def usdcRow (k : ℕ) : ReceiptRow := (usdcQuote k).row (usdcRowId k)

theorem receiptId_usdc (hk : k ≤ 9000) :
    receiptId ownSha256 fxAccount (usdcHash k) = .ok (usdcRowId k) := by
  rw [receiptId, binding_fxAccount, ok_bind]
  exact (short_bound (byteLength_usdcHash hk)).digest _

theorem usdcRow_zero : usdcRow 0 = coinQuote.row coinQuote.rowId := by
  have hhash : usdcHash 0 = coinQuote.receiptHash := congrArg LegQuote.receiptHash usdcQuote_zero
  have hid := receiptId_usdc (Nat.zero_le 9000)
  rw [hhash, converts_own.row, Except.ok.injEq] at hid
  rw [usdcRow, usdcQuote_zero, hid]

theorem captureFxReceipts_usdc (hk : k ≤ 9000) (h : db.accounts = fxStart.db.accounts) :
    captureFxReceipts ownSha256 20000 fxAccount [(usdcQuote k).receipt.json] ⟨500, 10000⟩ db =
      .ok { db with receipts := (db.receipts.insert (usdcRow k)).2 } :=
  captureFxReceipts_quote (checked_usdcQuote hk) (receiptId_usdc hk) h

theorem usdcRow_id_injective {j k : ℕ} (hj : j ≤ 9000) (hk : k ≤ 9000)
    (h : (usdcRow j).id = (usdcRow k).id) : j = k := by
  have hsame : usdcRowId j = usdcRowId k := h
  have hid := receiptId_usdc hj
  rw [hsame] at hid
  exact usdcHash_injective hj hk (receiptId_injective injective_own hid (receiptId_usdc hk)).2

/-- Only receipts of the one leg and response time, all of one value. -/
def OnlyUsdc (s : State) : Prop :=
  s.clock = 20000 ∧ s.db.accounts = fxStart.db.accounts ∧
    ∀ row ∈ s.db.receipts.rows, ∃ k ≤ 9000, row = usdcRow k

theorem exists_crowd {s : State} (h : OnlyUsdc s) {n : ℕ} (hn : n ≤ 9000) :
    ∃ t, Run ownSha256 s t ∧ OnlyUsdc t ∧ ∀ k < n, usdcRow (k + 1) ∈ t.db.receipts.rows := by
  induction n with
  | zero => exact ⟨s, .refl, h, fun k hk => absurd hk (by omega)⟩
  | succ n ih =>
    obtain ⟨t, hrun, ⟨hclock, haccs, hvals⟩, hall⟩ := ih (by omega)
    have hcapture := captureFxReceipts_usdc hn haccs
    cases hfind : t.db.receipts.find (usdcRow (n + 1)).id with
    | some old =>
      obtain ⟨hmem, hid⟩ := Keyed.find_eq_some.mp hfind
      obtain ⟨k, hk, rfl⟩ := hvals old hmem
      obtain rfl := usdcRow_id_injective hk hn hid
      refine ⟨t, hrun, ⟨hclock, haccs, hvals⟩, ?_⟩
      intro j hj
      rcases Nat.lt_succ_iff_lt_or_eq.mp hj with hj | rfl
      · exact hall j hj
      · exact hmem
    | none =>
      refine ⟨_, hrun.tail (Step.capture (show t.clock ≤ 20000 by omega) ?_ hcapture),
        ⟨rfl, haccs, ?_⟩, ?_⟩
      · intro value hvalue
        rw [List.mem_singleton] at hvalue
        exact hvalue ▸ LegQuote.distinct
      · intro row hrow
        rw [Keyed.rows_insert hfind, List.mem_append, List.mem_singleton] at hrow
        rcases hrow with hrow | rfl
        · exact hvals row hrow
        · exact ⟨n + 1, hn, rfl⟩
      · intro j hj
        rw [Keyed.rows_insert hfind, List.mem_append, List.mem_singleton]
        rcases Nat.lt_succ_iff_lt_or_eq.mp hj with hj | rfl
        · exact .inl (hall j hj)
        · exact .inr rfl

theorem crowded_usdc {s : State} (h : ∀ k < 300, usdcRow (k + 1) ∈ s.db.receipts.rows) :
    256 < (peers fxAccount usdcContext s.db (usdcQuote 0).receipt).length := by
  have hnodup : ((List.range 300).map (fun k => usdcRow (k + 1))).Nodup := by
    refine (List.nodup_map_iff_inj_on List.nodup_range).mpr ?_
    intro j hj k hk heq
    rw [List.mem_range] at hj hk
    have := usdcRow_id_injective (j := j + 1) (k := k + 1) (by omega) (by omega)
      (congrArg ReceiptRow.id heq)
    omega
  have hsub : (List.range 300).map (fun k => usdcRow (k + 1)) ⊆
      peers fxAccount usdcContext s.db (usdcQuote 0).receipt := by
    intro row hrow
    obtain ⟨k, hk, rfl⟩ := List.mem_map.mp hrow
    rw [List.mem_range] at hk
    obtain ⟨hleg, htime, -⟩ := (usdcQuote 0).receipt_fields
    have hhash : usdcHash (k + 1) ≠ usdcHash 0 := by
      intro heq
      exact absurd (usdcHash_injective (by omega) (by omega) heq) (by omega)
    refine List.mem_filter.mpr ⟨h k hk, ?_⟩
    rw [peer, usdcRow, ofAccount_row, hleg, htime, LegQuote.receipt_receiptHash]
    simp [LegQuote.row, usdcQuote, hhash, coinQuote]
  have hlen := (hnodup.subperm hsub).length_le
  rw [List.length_map, List.length_range] at hlen
  omega

theorem not_contradicted_usdc {s : State} (h : OnlyUsdc s) {receipt : FxLegReceipt}
    {stored : StoredFxConversion} (horigin : Origin fxAccount usdcContext s.db stored receipt) :
    ¬ Contradicted fxAccount usdcContext s.db receipt := by
  obtain ⟨-, -, hvals⟩ := h
  obtain ⟨row, hrow, -, -, rfl⟩ := horigin
  intro hcontra
  obtain ⟨other, hother, -, -, -, hne⟩ := hcontra
  obtain ⟨j, -, rfl⟩ := hvals row hrow
  obtain ⟨k, -, rfl⟩ := hvals other hother
  have hvalue : ∀ k, (usdcRow k).receipt.value = "2" :=
    fun k => (usdcQuote k).receipt_fields.2.2.1
  rw [hvalue, hvalue] at hne
  exact hne rfl

/-- With more than 256 equal quotes of the leg the persisted conversion is not read back. -/
theorem crowded_conversion_unreadable : ∃ s stored after t,
    Run ownSha256 fxStart s ∧ persistFxConversion ownSha256 20000 fxAccount "USDC" "USD" 1000 s.db =
      .ok (stored, after) ∧ Run ownSha256 ⟨after, 20000⟩ t ∧
    (∀ receipt, Origin fxAccount usdcContext t.db stored receipt →
      ¬ Contradicted fxAccount usdcContext t.db receipt) ∧
    readFxConversion ownSha256 20000 fxAccount stored.id t.db = .error quoteSetUnbounded := by
  have hrun := converts_own.run_captured
  obtain ⟨hinv, -⟩ := hrun.invariant injective_own (Empty.invariant ⟨rfl, rfl, rfl⟩)
  have hpers := CoinQuote.persistFxConversion_eq converts_own
  have honly : OnlyUsdc ⟨coinQuote.converted, 20000⟩ := by
    refine ⟨rfl, rfl, ?_⟩
    intro row hmem
    exact ⟨0, by omega, (List.mem_singleton.mp hmem).trans usdcRow_zero.symm⟩
  obtain ⟨t, hlater, hmany, hcrowd⟩ := exists_crowd honly (n := 300) (by omega)
  have hctx : requireFxAccountContext 20000 fxAccount t.db = .ok usdcContext :=
    requireFxAccountContext_fxAccount (by omega) hmany.2.1
  obtain ⟨-, hread⟩ := persistFxConversion_read injective_own hinv (le_refl _) hpers hlater rfl
    hmany.1.le hctx
  have hclear := fun receipt => @not_contradicted_usdc t hmany receipt
    ⟨coinQuote.storedId, coinQuote.evidence⟩
  refine ⟨_, _, coinQuote.converted, t, hrun, hpers, hlater, hclear, ?_⟩
  have hstep : Step ownSha256 ⟨coinQuote.captured, 20000⟩ ⟨coinQuote.converted, 20000⟩ :=
    Step.persist (le_refl _) hpers
  obtain ⟨-, hkept⟩ := hlater.invariant injective_own (hstep.invariant injective_own hinv).1
  have horigin : Origin fxAccount usdcContext t.db ⟨coinQuote.storedId, coinQuote.evidence⟩
      (usdcQuote 0).receipt := by
    refine ⟨usdcRow 0, hkept.receipts _ (List.mem_singleton.mpr usdcRow_zero), ofAccount_row _ _,
      ?_, rfl⟩
    rw [usdcRow_zero]
    exact List.mem_singleton.mpr rfl
  rcases hread.crowded ⟨_, horigin, crowded_usdc hcrowd⟩ with hcrowded | ⟨-, receipt, hmem, hbad⟩
  · exact hcrowded
  · exact absurd hbad (hclear receipt hmem)

end Crowd

section Later

/-- The receipts of the dollar coin after the second read. -/
def laterDatabase : Database :=
  { coinQuote.converted with
    receipts := (coinQuote.converted.receipts.insert (laterQuote.row laterRowId)).2 }

theorem rows_laterDatabase : laterDatabase.receipts.rows =
    [coinQuote.row coinQuote.rowId, laterQuote.row laterRowId] := Keyed.rows_insert (by decide)

theorem run_later : Run ownSha256 ⟨coinQuote.converted, 20000⟩
    ⟨laterDatabase, 20000⟩ := by
  have hcapture : captureFxReceipts ownSha256 20000 fxAccount
      [laterQuote.receipt.json] ⟨500, 10000⟩ coinQuote.converted = .ok laterDatabase :=
    captureFxReceipts_quote (by
      rw [ownSha256]
      exact LegQuote.Plain.checked (by decide +kernel) (List.mem_of_getElem? (i := 0) rfl)
        (List.mem_of_getElem? (i := 2) rfl)) (by
      rw [ownSha256]
      exact receiptId_listed (by decide +kernel) (List.mem_of_getElem? (i := 8) rfl)) rfl
  refine .single (Step.capture (le_refl _) ?_ hcapture)
  intro value hvalue
  rw [List.mem_singleton] at hvalue
  exact hvalue ▸ LegQuote.distinct

/-- The conversion of the dollar coin is read back after the same answer was captured again. -/
theorem fxConversions_stable_usdc :
    Run ownSha256 fxStart ⟨coinQuote.captured, 20000⟩ ∧
    persistFxConversion ownSha256 20000 fxAccount "USDC" "USD" 1000
      coinQuote.captured = .ok (⟨coinQuote.storedId, coinQuote.evidence⟩, coinQuote.converted) ∧
    Run ownSha256 ⟨coinQuote.converted, 20000⟩ ⟨laterDatabase, 20000⟩ ∧
    readFxConversion ownSha256 20000 fxAccount coinQuote.storedId
      laterDatabase = .ok ⟨coinQuote.storedId, coinQuote.evidence⟩ := by
  have hpers := CoinQuote.persistFxConversion_eq converts_own
  have hstable := fxConversions_stable injective_own ⟨rfl, rfl, rfl⟩
    converts_own.run_captured
  have hread : ReadSpec fxAccount usdcContext laterDatabase _ _ :=
    hstable.2.2.2 fxAccount "USDC" "USD" 1000 20000 _ _ (le_refl _) hpers _ fxAccount 20000
      usdcContext run_later rfl (le_refl _) (requireFxAccountContext_fxAccount (by omega) rfl)
  have hvalue : ∀ row ∈ laterDatabase.receipts.rows, row.receipt.value = "2" := by
    rw [rows_laterDatabase]
    intro row hrow
    simp only [List.mem_cons, List.not_mem_nil, or_false] at hrow
    rcases hrow with rfl | rfl
    · exact coinQuote.receipt_fields.2.2.1
    · exact laterQuote.receipt_fields.2.2.1
  refine ⟨converts_own.run_captured, hpers, run_later, hread.stable ?_ ?_⟩
  · intro receipt _
    refine (List.length_filter_le _ _).trans ?_
    rw [rows_laterDatabase]
    decide
  · rintro receipt ⟨row, hrow, -, -, rfl⟩ ⟨other, hother, -, -, -, hne⟩
    rw [hvalue row hrow, hvalue other hother] at hne
    exact hne rfl

end Later

end TsxCore.TradingFxRepository
