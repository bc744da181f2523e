import TsxCore.FxValuationErrors

/-!
# Which attempts are recorded

The amount of an event times the rate of its conversion is always an exact fraction, and its money
value exists exactly while the product stays within the decimals. The proof then fits into its
column, and everything else that an attempt throws is about the evidence.
-/

namespace TsxCore.TradingFxValuation

open Outcome TradingDecimal TradingRational TradingMoneyValue TradingFxQuotes TradingFxRepository
open TradingFx (fxEvidenceDigest)
open TradingRecoveryScheduleContract (digestPattern)

section Amounts

variable {i : ℤ} {q : ℚ} {rate : ExactRational}

/-- The quotient rounds to decimals of at most 36 digits before the point in both directions. -/
def WithinDecimals (q : ℚ) : Prop := |q| * 10 ^ 18 ≤ (unitLimit : ℚ) - 1

theorem natAbs_lt_iff {n : ℤ} :
    n.natAbs < unitLimit ↔ 1 - (unitLimit : ℤ) ≤ n ∧ n ≤ unitLimit - 1 := by
  omega

theorem withinDecimals_iff : WithinDecimals q ↔
    (Amount.exact q 1).lower.natAbs < unitLimit ∧ (Amount.exact q 1).upper.natAbs < unitLimit := by
  have habs : |q| * 10 ^ 18 = |q * 10 ^ 18| := by
    rw [abs_mul, abs_of_pos (by positivity : (0 : ℚ) < 10 ^ 18)]
  have hle : ⌊q * 10 ^ 18⌋ ≤ ⌈q * 10 ^ 18⌉ := Int.floor_le_ceil _
  have hlow : 1 - (unitLimit : ℤ) ≤ ⌊q * 10 ^ 18⌋ ↔ 1 - (unitLimit : ℚ) ≤ q * 10 ^ 18 := by
    rw [Int.le_floor]
    push_cast
    rfl
  have hhigh : ⌈q * 10 ^ 18⌉ ≤ (unitLimit : ℤ) - 1 ↔ q * 10 ^ 18 ≤ (unitLimit : ℚ) - 1 := by
    rw [Int.ceil_le]
    push_cast
    rfl
  rw [WithinDecimals, habs, abs_le, neg_sub, ← hlow, ← hhigh, Amount.lower, Amount.upper,
    natAbs_lt_iff, natAbs_lt_iff]
  omega

theorem toList_signedText (i : ℤ) : (signedText i).toList =
    (if i < 0 then ['-'] else []) ++ Numeral.canonical i.natAbs 18 := by
  rw [signedText, text_eq_canonical]
  split_ifs <;> simp

theorem hasSpace_signedText (i : ℤ) : hasSpace (signedText i) = false := by
  rw [hasSpace, toList_signedText, List.any_append, Numeral.canonical, numeral_any_isSpace,
    Bool.or_false]
  split_ifs <;> decide

/-- Three numbers below the decimal limit multiply to a fraction far below its own limit. -/
theorem fits_converted {p q : ℚ} (hi : i.natAbs < unitLimit) (hp : TradingFxQuotes.Quotient p)
    (hq : TradingFxQuotes.Quotient q) : Fits (unitValue i * (p / q)) := by
  obtain ⟨a, b, ha, halt, hb, hblt, rfl⟩ := hp
  obtain ⟨c, d, hc, hclt, hd, hdlt, rfl⟩ := hq
  have hlimit : unitLimit * (unitLimit * unitLimit) ≤ digitLimit := by
    rw [unitLimit, digitLimit]
    norm_num
  have hscale : 10 ^ 18 < unitLimit := by
    rw [unitLimit]
    norm_num
  have hnum : (i * ((a * d : ℕ) : ℤ)).natAbs < digitLimit := by
    rw [Int.natAbs_mul, Int.natAbs_natCast]
    exact (Nat.mul_lt_mul_of_lt_of_lt hi (Nat.mul_lt_mul_of_lt_of_lt halt hdlt)).trans_le hlimit
  have hden : ((10 ^ 18 * (b * c) : ℕ) : ℤ).natAbs < digitLimit := by
    rw [Int.natAbs_natCast]
    exact (Nat.mul_lt_mul_of_lt_of_lt hscale (Nat.mul_lt_mul_of_lt_of_lt hblt hclt)).trans_le hlimit
  have hfits := fits_div (by positivity) hnum hden
  have hvalue : ((i * ((a * d : ℕ) : ℤ) : ℤ) : ℚ) / (((10 ^ 18 * (b * c) : ℕ) : ℤ) : ℚ) =
      unitValue i * ((a : ℚ) / b / (c / d)) := by
    rw [unitValue, div_div_div_eq, div_mul_div_comm]
    push_cast
    ring
  rwa [hvalue] at hfits

theorem DollarRate.exists_represents (h : DollarRate rate) : ∃ q, Represents rate q := by
  obtain ⟨p, q, hp, hq, rfl⟩ := h
  exact ⟨_, represents_rationalText (hp.fits_div hq)⟩

theorem convertedAmount_eq (hi : i.natAbs < unitLimit) (hrate : DollarRate rate)
    (hq : Represents rate q) :
    Fits (unitValue i * q) ∧
      convertedAmount (signedText i) rate = exactValue (rationalText (unitValue i * q)) 1 := by
  obtain ⟨p, r, hp, hr, rfl⟩ := hrate
  obtain ⟨rfl, hfits⟩ := represents_rationalText_iff.mp hq
  have hprod := fits_converted hi hp hr
  have hread := readsSigned_signedText_iff.mpr ⟨rfl, hi⟩
  have hdec : rationalFromDecimal (signedText i) = .ok (rationalText (unitValue i)) := by
    exact rationalFromDecimal_ok_iff.mpr ⟨hasSpace_signedText i, i, hread, rfl⟩
  have hmultiply : multiplyRational (rationalText (unitValue i)) (rationalText (p / r)) =
      .ok (rationalText (unitValue i * (p / r))) :=
    multiplyRational_ok_iff.mpr ⟨_, _, represents_unitValue hi, represents_rationalText hfits,
      hprod, rfl⟩
  have hreduced : exactFraction (rationalText (unitValue i * (p / r))) false =
      .ok (rationalText (unitValue i * (p / r))) := by
    rw [exactFraction, rational_ok_iff.mpr ⟨_, represents_rationalText hprod, hprod, rfl⟩]
    rfl
  refine ⟨hprod, ?_⟩
  rw [convertedAmount, hdec, ok_bind, hmultiply, ok_bind, moneyValueFromRational, hreduced,
    ok_bind]

theorem convertedAmount_ok_iff {value : MoneyValue} (hi : i.natAbs < unitLimit)
    (hrate : DollarRate rate) (hq : Represents rate q) :
    convertedAmount (signedText i) rate = .ok value ↔
      WithinDecimals (unitValue i * q) ∧ (Amount.exact (unitValue i * q) 1).money = value := by
  obtain ⟨hfits, heq⟩ := convertedAmount_eq hi hrate hq
  have hexact := exactValue_ok_iff hfits (t := 1) (m := value)
  rw [Nat.cast_one] at hexact
  rw [heq, hexact, withinDecimals_iff, and_assoc]

/-- A product beyond the decimals is refused with an error that is not about the evidence. -/
theorem convertedAmount_records_iff (hi : i.natAbs < unitLimit) (hrate : DollarRate rate)
    (hq : Represents rate q) :
    Records (convertedAmount (signedText i) rate) ↔ WithinDecimals (unitValue i * q) := by
  obtain ⟨hfits, heq⟩ := convertedAmount_eq hi hrate hq
  refine ⟨?_, ?_⟩
  · intro h
    cases hres : convertedAmount (signedText i) rate with
    | ok value => exact ((convertedAmount_ok_iff hi hrate hq).mp hres).1
    | error e =>
      have hrecd := h e hres
      rw [heq] at hres
      obtain ⟨c, k, -, rfl⟩ := exactValue_error hfits hres
      simp [Recorded, isFxError, invalidDecimal, Thrown.error] at hrecd
  · intro h
    rw [(convertedAmount_ok_iff hi hrate hq).mpr ⟨h, rfl⟩]
    exact throws_ok _

end Amounts

section Payloads

theorem length_signedText {i : ℤ} (h : i.natAbs < unitLimit) :
    (signedText i).toList.length ≤ 56 := by
  have hwhole : (Numeral.reduced i.natAbs 18).1 / 10 ^ (Numeral.reduced i.natAbs 18).2 <
    10 ^ 36 := by
    rw [Numeral.reduced_div]
    exact Nat.div_lt_of_lt_mul h
  have hnumeral := FxReceipt.length_numeral_le (Numeral.reduced_scale_le 18 i.natAbs) hwhole
  rw [toList_signedText, List.length_append, Numeral.canonical]
  split_ifs
  · rw [List.length_singleton]
    omega
  · rw [List.length_nil]
    omega

theorem byteLength_bigintText {i : ℤ} (h : i.natAbs < digitLimit) :
    byteLength (JsonText.string (bigintText i)) ≤ 1202 := by
  have hvisible : ∀ c ∈ (bigintText i).toList, 32 ≤ c.toNat := by
    intro c hc
    have hdigit : c ∈ Nat.toDigits 10 i.natAbs → 32 ≤ c.toNat := by
      intro hmem
      have hrange := Nat.isDigit_of_mem_toDigits (by omega) (by omega) hmem
      simp only [Char.isDigit, Bool.and_eq_true, decide_eq_true_eq] at hrange
      exact le_trans (by decide) hrange.1
    rw [toList_bigintText] at hc
    split_ifs at hc
    · rcases List.mem_cons.mp hc with rfl | hmem
      · decide
      · exact hdigit hmem
    · exact hdigit hc
  have hsize := JsonText.byteLength_string_le hvisible
  have hlen := length_bigintText h
  omega

structure Storable (proof : FxMoneyValuation) : Prop where
  digests : ∀ text ∈ [proof.eventId, proof.accountFingerprint, proof.eventHash, proof.conversionId,
    proof.contentHash], digestPattern text = true
  account : utf16Length proof.accountId ≤ 256
  currency : proof.reportingCurrency ∈ stableAssets
  value : ∃ q, Fits q ∧ WithinDecimals q ∧ (Amount.exact q 1).money = proof.value

variable {proof : FxMoneyValuation}

theorem payloadSize_string {text : String} {n : ℕ} (h : text.toList.length ≤ n) :
    payloadSize (.string text) ≤ 2 + 24 * n := byteLength_dumps_string h

theorem payloadSize_object (members : List (String × Json ℚ)) :
    payloadSize (.object members) ≤
      2 + (members.map (fun member => byteLength (JsonText.string member.1) + 2)).sum +
        (members.map (fun member => payloadSize member.2)).sum :=
  FxReceipt.byteLength_dumps_object_le _ members

theorem payloadSize_rational {q : ℚ} (h : Fits q) :
    payloadSize (rationalJson (some (rationalText q))) ≤ 2444 := by
  have hnum := byteLength_bigintText h.1
  have hden := byteLength_bigintText (i := (q.den : ℤ)) (by simpa using h.2)
  have hkeys : byteLength (JsonText.string "numerator") +
      byteLength (JsonText.string "denominator") ≤ 34 := by decide
  have hsize := payloadSize_object
    [("numerator", .string (bigintText q.num)), ("denominator", .string (bigintText q.den))]
  simp only [List.map_cons, List.map_nil, List.sum_cons, List.sum_nil, payloadSize,
    Json.dumps] at hsize
  simp only [rationalJson, rationalText, payloadSize, Json.dumps]
  omega

theorem payloadSize_moneyValue {q : ℚ} (hfits : Fits q) (hwithin : WithinDecimals q) :
    payloadSize (moneyValueJson (Amount.exact q 1).money) ≤ 6800 := by
  obtain ⟨hlow, hhigh⟩ := withinDecimals_iff.mp hwithin
  have hlower := payloadSize_string (length_signedText hlow)
  have hupper := payloadSize_string (length_signedText hhigh)
  have hexact := payloadSize_rational hfits
  have hdec : payloadSize (nullableJson (Amount.exact q 1).money.decimal) ≤ 1346 := by
    simp only [Amount.money]
    split_ifs
    · exact hlower
    · exact le_trans (by decide : payloadSize (nullableJson none) ≤ 4) (by omega)
  have hprec : payloadSize (.string (precisionText (Amount.exact q 1).money.precision)) ≤ 20 := by
    cases (Amount.exact q 1).money.precision <;> decide
  have hterms : payloadSize (.number (((1 : ℕ) : ℤ) : ℚ)) ≤ 1 := by decide
  have hkeys : byteLength (JsonText.string "lower") + byteLength (JsonText.string "upper") +
      byteLength (JsonText.string "exact") + byteLength (JsonText.string "decimal") +
      byteLength (JsonText.string "precision") + byteLength (JsonText.string "terms") ≤ 60 := by
    decide
  refine (payloadSize_object _).trans ?_
  simp only [List.map_cons, List.map_nil, List.sum_cons, List.sum_nil, Amount.money_lower,
    Amount.money_upper, Amount.money_terms, Amount.terms, Amount.lower, Amount.upper] at *
  simp only [Amount.money] at hexact hdec hprec ⊢
  omega

theorem payloadSize_lt (h : Storable proof) : payloadSize (valuationJson proof) < 16384 := by
  obtain ⟨q, hfits, hwithin, hvalue⟩ := h.value
  have hmoney := payloadSize_moneyValue hfits hwithin
  rw [hvalue] at hmoney
  have hdig := h.digests
  simp only [List.forall_mem_cons, List.not_mem_nil, false_implies, implies_true, and_true] at hdig
  obtain ⟨hevent, hfp, hhash, hconv, hcontn⟩ := hdig
  have hsmall : ∀ {text : String}, digestPattern text = true → payloadSize (.string text) ≤ 258 :=
    fun hpat => TradingRecoveryScheduleContract.byteLength_digest_le hpat
  have hevent := hsmall hevent
  have hfp := hsmall hfp
  have hhash := hsmall hhash
  have hconv := hsmall hconv
  have hcontn := hsmall hcontn
  have hacc := payloadSize_string ((length_le_utf16Length _).trans h.account)
  have hccy : payloadSize (.string proof.reportingCurrency) ≤ 98 := by
    have hshort : ∀ asset ∈ stableAssets, asset.toList.length ≤ 4 := by decide
    exact (payloadSize_string (hshort _ h.currency)).trans (by omega)
  have hver : payloadSize (.number 1) ≤ 1 := by decide
  have hbasis : payloadSize (.string "provider_snapshot_index_asof") ≤ 30 := by decide
  have hkeys : byteLength (JsonText.string "version") + byteLength (JsonText.string "eventId") +
      byteLength (JsonText.string "accountId") + byteLength (JsonText.string "accountFingerprint") +
      byteLength (JsonText.string "eventHash") + byteLength (JsonText.string "conversionId") +
      byteLength (JsonText.string "reportingCurrency") + byteLength (JsonText.string "value") +
      byteLength (JsonText.string "basis") + byteLength (JsonText.string "contentHash") ≤ 200 := by
    decide
  have hsize := payloadSize_object
    (valuationBody proof ++ [("contentHash", .string proof.contentHash)])
  simp only [valuationBody, List.cons_append, List.nil_append, List.map_cons, List.map_nil,
    List.sum_cons, List.sum_nil] at hsize
  rw [valuationJson, valuationBody]
  simp only [List.cons_append, List.nil_append]
  omega

end Payloads

section Persisting

variable {sha256 : String → String} {now asOf : ℤ} {account : FxAccount} {db after : Database}
  {baseAsset quoteAsset : String} {stored : StoredFxConversion}

theorem accounts_storeReferences {id : String} {entries : List (String × ℕ)}
    (h : entries.foldlM (storeReference sha256 account id) db = .ok after) :
    after.accounts = db.accounts := by
  induction entries generalizing db with
  | nil =>
    rw [List.foldlM_nil, pure_eq_ok_iff] at h
    rw [h]
  | cons entry rest ih =>
    rw [List.foldlM_cons] at h
    simp only [storeReference, bind_eq_ok, pure_eq_ok_iff] at h
    obtain ⟨_, ⟨_, -, rfl⟩, hrest⟩ := h
    have hkept := ih hrest
    exact hkept

theorem persistFxConversion_ok (hsha256 : ∀ text, digestPattern (sha256 text) = true)
    (h : persistFxConversion sha256 now account baseAsset quoteAsset asOf db =
      .ok (stored, after)) :
    after.accounts = db.accounts ∧
      readFxConversion sha256 now account stored.id after = .ok stored ∧
      digestPattern stored.id = true ∧ DollarRate stored.conversion.rate := by
  simp only [persistFxConversion, bind_eq_ok, pure_eq_ok_iff, Prod.mk.injEq] at h
  obtain ⟨context, -, rows, -, receipts, -, conversion, -, id, hid, next, hnext, read, hread, rfl,
    rfl⟩ := h
  obtain ⟨hsame, hrate⟩ := readFxConversion_rate hread
  have hdig : digestPattern id = true := by
    simp only [conversionId, bind_eq_ok] at hid
    obtain ⟨members, -, hhash⟩ := hid
    obtain ⟨-, rfl⟩ := FxReceipt.fxEvidenceDigest_ok hhash
    exact hsha256 _
  have haccs := accounts_storeReferences hnext
  exact ⟨haccs, hsame ▸ hread, hsame ▸ hdig, hrate⟩

end Persisting

section Attempts

variable {sha256 : String → String} {now : ℤ} {account : FxAccount} {ledger valued : Ledger}
  {row : OriginalEvent} {currency : String} {rate : ExactRational} {id : String}
  {proof : FxMoneyValuation}

/-- What `recordMoneyEvent` keeps of every event: its id is a digest, its account an identifier and
its amount a normalised decimal. -/
structure StoredEvent (row : OriginalEvent) : Prop where
  id : digestPattern row.id = true
  account : utf16Length row.accountId ≤ 256
  amount : signedDecimal row.amount = .ok row.amount

theorem StoredEvent.exists_units (h : StoredEvent row) :
    ∃ i : ℤ, i.natAbs < unitLimit ∧ signedText i = row.amount := by
  obtain ⟨i, hread, htext⟩ := signedDecimal_ok_iff.mp h.amount
  exact ⟨i, hread.lt, htext⟩

/-- If the receipts give a conversion for the event, the amount stays within the decimals at it. -/
def Convertible (sha256 : String → String) (now : ℤ) (account : FxAccount) (row : OriginalEvent)
    (currency : String) (ledger : Ledger) : Prop :=
  ∀ stored fx, persistFxConversion sha256 now account (row.asset.getD "") currency row.occurredAt
    ledger.fx = .ok (stored, fx) →
      ∀ q, Represents stored.conversion.rate q → WithinDecimals (decimalValue row.amount * q)

theorem StoredEvent.records_convertedAmount (h : StoredEvent row) (hrate : DollarRate rate)
    (hwithin : ∀ q, Represents rate q → WithinDecimals (decimalValue row.amount * q)) :
    Records (convertedAmount row.amount rate) := by
  obtain ⟨i, hi, htext⟩ := h.exists_units
  obtain ⟨q, hq⟩ := hrate.exists_represents
  have hprod := hwithin q hq
  rw [← htext, decimalValue_signedText] at hprod
  rw [← htext]
  exact (convertedAmount_records_iff hi hrate hq).mpr hprod

theorem records_parseOriginal : Records (parseOriginal row) :=
  (records_throwIf _).bind (fun _ _ => throws_pure _)

theorem records_originalEvent {eventId : String} : Records (originalEvent eventId ledger) := by
  unfold originalEvent
  split
  · exact records_error _
  · exact records_parseOriginal.bind (fun _ _ => throws_pure _)

theorem records_reportingBinding : Records (reportingBinding now account row ledger) := by
  refine records_requireFxAccountContext.bind (fun _ _ => (records_throwIf _).bind (fun _ _ => ?_))
  split
  · exact records_error _
  · exact (records_throwIf _).bind (fun _ _ => throws_pure _)

theorem records_assertUnconflicted {eventId : String} :
    Records (assertUnconflicted eventId ledger) :=
  (records_throwIf _).bind (fun _ _ => records_throwIf _)

theorem records_valuation (h : Records (convertedAmount row.amount rate)) :
    Records (valuation sha256 row id currency rate) :=
  records_parseOriginal.bind (fun _ _ => (records_digest _ _).bind (fun _ _ => h.bind
    (fun _ _ => (records_digest _ _).bind (fun _ _ => throws_pure _))))

theorem records_verifyValuation {stored : ValuationRow}
    (h : ∀ conversion, readFxConversion sha256 now account stored.conversionId ledger.fx =
      .ok conversion → Records (convertedAmount row.amount conversion.conversion.rate)) :
    Records (verifyValuation sha256 now account row stored ledger) := by
  refine records_assertUnconflicted.bind (fun _ _ => records_reportingBinding.bind (fun _ _ => ?_))
  refine (records_readFxConversion _).bind (fun conversion hconv => (records_throwIf _).bind
    (fun _ _ => (records_valuation (h conversion hconv)).bind (fun _ _ => ?_)))
  exact (records_throwIf _).bind (fun _ _ => (records_digest _ _).bind (fun _ _ =>
    (records_digest _ _).bind (fun _ _ => (records_throwIf _).bind (fun _ _ => throws_pure _))))

theorem accountForOriginal_eq {context : TradingFx.FxContext} {db : Database}
    (hctx : requireFxAccountContext now account db = .ok context)
    (haccs : ledger.fx.accounts = db.accounts) (hid : account.id = row.accountId)
    (hfp : account.externalAccountId = some row.accountFingerprint) :
    accountForOriginal row ledger = .ok account := by
  rw [requireFxAccountContext] at hctx
  rw [accountForOriginal, haccs, ← hid]
  rcases hfind : db.accounts.find account.id with _ | current
  · rw [hfind] at hctx
    cases hctx
  · simp only [hfind, bind_eq_ok, throwIf_eq_ok, profileContext, pure_eq_ok_iff, not_or, not_not,
      exists_const] at hctx
    obtain ⟨⟨-, hexch, -, hmode, hexternal, hgen, -⟩, ⟨-, -, -, hprof, -⟩, -⟩ := hctx
    dsimp only
    rw [throwIf_of_not (by rw [not_not, ← hexternal, hfp]), ok_bind, ← hexch, ← hmode,
      ← hexternal, ← hgen, ← hprof]
    rfl

theorem valuation_ok (h : valuation sha256 row id currency rate = .ok proof) :
    ∃ value, convertedAmount row.amount rate = .ok value ∧ proof.value = value ∧
      proof.eventId = row.id ∧ proof.accountId = row.accountId ∧
      proof.accountFingerprint = row.accountFingerprint ∧ proof.conversionId = id ∧
      proof.reportingCurrency = currency ∧
      (∃ domain json, fxEvidenceDigest sha256 domain json = .ok proof.eventHash) ∧
      ∃ domain json, fxEvidenceDigest sha256 domain json = .ok proof.contentHash := by
  simp only [valuation, bind_eq_ok, pure_eq_ok_iff] at h
  obtain ⟨_, -, eventHash, hevent, value, hvalue, contentHash, hcontn, rfl⟩ := h
  exact ⟨value, hvalue, rfl, rfl, rfl, rfl, rfl, rfl, ⟨_, _, hevent⟩, _, _, hcontn⟩

theorem reportingBinding_ok (h : reportingBinding now account row ledger = .ok currency) :
    (∃ context, requireFxAccountContext now account ledger.fx = .ok context) ∧
      account.id = row.accountId ∧ account.externalAccountId = some row.accountFingerprint ∧
      currency ∈ stableAssets := by
  simp only [reportingBinding, bind_eq_ok, throwIf_eq_ok, not_or, not_not, exists_const] at h
  obtain ⟨context, hctx, ⟨hid, hfp⟩, h⟩ := h
  split at h
  · cases h
  · simp only [checkedBinding, bind_eq_ok, throwIf_eq_ok, not_or, not_not, pure_eq_ok_iff,
      exists_const] at h
    obtain ⟨⟨-, -, -, -, -, hccy, -⟩, rfl⟩ := h
    exact ⟨⟨context, hctx⟩, hid, hfp, hccy⟩

theorem storable_valuation (hsha256 : ∀ text, digestPattern (sha256 text) = true)
    (hrow : StoredEvent row) (hfp : digestPattern row.accountFingerprint = true)
    (hid : digestPattern id = true) (hccy : currency ∈ stableAssets) (hrate : DollarRate rate)
    (h : valuation sha256 row id currency rate = .ok proof) : Storable proof := by
  obtain ⟨value, hvalue, hproof, hevent, hacc, hprint, hconv, hreporting,
    ⟨_, _, heventHash⟩, _, _, hcontentHash⟩ := valuation_ok h
  obtain ⟨-, heventDigest⟩ := FxReceipt.fxEvidenceDigest_ok heventHash
  obtain ⟨-, hcontentDigest⟩ := FxReceipt.fxEvidenceDigest_ok hcontentHash
  obtain ⟨i, hi, htext⟩ := hrow.exists_units
  obtain ⟨q, hq⟩ := hrate.exists_represents
  rw [← htext, convertedAmount_ok_iff hi hrate hq] at hvalue
  refine ⟨?_, hacc ▸ hrow.account, hreporting ▸ hccy, ?_⟩
  · simp only [List.forall_mem_cons, List.not_mem_nil, false_implies, implies_true, and_true]
    rw [hevent, hprint, hconv, heventDigest, hcontentDigest]
    exact ⟨hrow.id, hfp, hsha256 _, hid, hsha256 _⟩
  · exact ⟨_, (convertedAmount_eq hi hrate hq).1, hvalue.1, hvalue.2.trans hproof.symm⟩

theorem records_readFxMoneyValuation {stored : ValuationRow}
    (hevent : ledger.events.find row.id = some row)
    (hstored : ledger.valuations.find row.id = some stored)
    (hacc : accountForOriginal row ledger = .ok account)
    (h : ∀ conversion, readFxConversion sha256 now account stored.conversionId ledger.fx =
      .ok conversion → Records (convertedAmount row.amount conversion.conversion.rate)) :
    Records (readFxMoneyValuation sha256 now row.id ledger) := by
  have horig : ∀ original, originalEvent row.id ledger = .ok original → original = row := by
    intro original hok
    simp only [originalEvent, hevent, bind_eq_ok, pure_eq_ok_iff] at hok
    obtain ⟨_, -, rfl⟩ := hok
    rfl
  simp only [readFxMoneyValuation, hstored]
  refine records_originalEvent.bind (fun original hok => ?_)
  obtain rfl := horig original hok
  rw [hacc, ok_bind]
  exact (records_verifyValuation h).bind (fun _ _ => throws_pure _)

theorem records_valueUnvalued (hsha256 : ∀ text, digestPattern (sha256 text) = true)
    (hrow : StoredEvent row) (hfind : ledger.events.find row.id = some row)
    (hnone : ledger.valuations.find row.id = none)
    (hbind : reportingBinding now account row ledger = .ok currency)
    (hwithin : Convertible sha256 now account row currency ledger) :
    Records (valueUnvalued sha256 now account row currency ledger) := by
  obtain ⟨⟨context, hctx⟩, hid, hfp, hccy⟩ := reportingBinding_ok hbind
  refine records_assertUnconflicted.bind (fun _ _ => Throws.bind ?_ (fun asset hasset => ?_))
  · unfold presentAsset
    split
    · exact records_error _
    · exact throws_pure _
  · have hsame : row.asset.getD "" = asset := by
      unfold presentAsset at hasset
      split at hasset
      · cases hasset
      · next found hfilt =>
        obtain rfl := pure_eq_ok_iff.mp hasset
        rw [(Option.filter_eq_some_iff.mp hfilt).1, Option.getD_some]
    rw [Convertible, hsame] at hwithin
    refine records_persistFxConversion.bind (fun persisted hpersd => ?_)
    obtain ⟨stored, fx⟩ := persisted
    obtain ⟨haccs, hread, hdig, hrate⟩ := persistFxConversion_ok hsha256 hpersd
    have hconverted := hrow.records_convertedAmount hrate (hwithin stored fx hpersd)
    refine (records_valuation hconverted).bind (fun proof hproof => ?_)
    have hstorable := storable_valuation hsha256 hrow ?_ hdig hccy hrate hproof
    · obtain ⟨-, -, -, hevent, -, -, hconv, -⟩ := valuation_ok hproof
      rw [insertValuation, throwIf_of_not (by simpa using payloadSize_lt hstorable), ok_bind]
      refine (throws_pure _).bind (fun inserted hinsd => Throws.bind ?_ (fun found _ => ?_))
      · obtain rfl := pure_eq_ok_iff.mp hinsd
        have hstored := Keyed.find_insert (t := ledger.valuations) (k := row.id)
          (x := ⟨proof.eventId, account.id, proof.conversionId, proof.reportingCurrency,
            valuationJson proof, proof.contentHash⟩)
        rw [if_pos hevent, hnone, Option.getD_none] at hstored
        refine records_readFxMoneyValuation hfind hstored
          (accountForOriginal_eq hctx haccs hid hfp) ?_
        intro conversion hagain
        obtain rfl := Except.ok.inj (hread.symm.trans (hconv ▸ hagain))
        exact hconverted
      · cases found with
        | none => exact records_error _
        | some _ => exact throws_pure _
    · obtain ⟨current, -, hverified⟩ := requireFxAccountContext_ok hctx
      have hpat := hverified.pattern.1
      rw [← hverified.fingerprint, hfp, Option.any_some] at hpat
      exact hpat

/-- An attempt at a stored event without a valuation throws only what is recorded, as long as its
conversion stays within the decimals. -/
theorem records_valueFxMoneyEvent (hsha256 : ∀ text, digestPattern (sha256 text) = true)
    (hrow : StoredEvent row) (hfind : ledger.events.find row.id = some row)
    (hnone : ledger.valuations.find row.id = none)
    (hwithin : ∀ currency, reportingBinding now account row ledger = .ok currency →
      Convertible sha256 now account row currency ledger) :
    Records (valueFxMoneyEvent sha256 now account row.id ledger) := by
  refine records_originalEvent.bind (fun original horig => ?_)
  simp only [originalEvent, hfind, bind_eq_ok, pure_eq_ok_iff] at horig
  obtain ⟨_, -, rfl⟩ := horig
  refine records_reportingBinding.bind (fun currency hccy => ?_)
  simp only [hnone]
  exact records_valueUnvalued hsha256 hrow hfind hnone hccy (hwithin currency hccy)

end Attempts

end TsxCore.TradingFxValuation
