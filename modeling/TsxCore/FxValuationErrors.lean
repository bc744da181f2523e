import TsxCore.FxConversionOutcome
import TsxCore.TradingFxValuation
import TsxCore.TradingMoneyRisk

/-!
# What an attempt to value an event throws

Every error on the way to a valuation is about the evidence, up to the arithmetic at its end: the
rate of a conversion is a ratio of two small ratios, so its product with an amount is exact, and
the money value exists while the product stays within the decimals.
-/

namespace TsxCore.TradingFxValuation

open Outcome TradingDecimal TradingRational TradingMoneyValue TradingFxQuotes TradingFxRepository
open TradingFx (FxContext fxEvidenceDigest)

abbrev Recorded (error : Thrown) : Prop := isFxError error = true

abbrev Records {α : Type} (x : Outcome α) : Prop := Throws Recorded x

variable {sha256 : String → String} {now : ℤ} {account : FxAccount} {context : FxContext}
  {db : Database} {receipts selected : List FxLegReceipt} {baseAsset quoteAsset : String} {asOf : ℤ}

theorem recorded_invalidFx (reason : String) : Recorded (invalidFx reason) := by
  simp [Recorded, isFxError, invalidFx]

theorem recorded_evidence : Recorded TradingFx.invalidFx := by decide

theorem records_error {α : Type} (reason : String) :
    Records (.error (invalidFx reason) : Outcome α) := throws_error (recorded_invalidFx reason)

theorem records_throwIf {bad : Prop} [Decidable bad] (reason : String) :
    Records (throwIf bad (invalidFx reason)) := throws_throwIf (recorded_invalidFx reason)

theorem records_digest (domain : String) (value : Json ℚ) :
    Records (fxEvidenceDigest sha256 domain value) :=
  throws_fxEvidenceDigest recorded_evidence domain value

section Conversions

theorem records_requireFxAccountContext : Records (requireFxAccountContext now account db) := by
  unfold requireFxAccountContext
  split
  · exact records_error _
  · exact (records_throwIf _).bind (fun _ _ => (records_throwIf _).bind (fun _ _ => throws_pure _))

theorem records_bound {domain key text : String} : Records (binding account >>= fun members =>
    fxEvidenceDigest sha256 domain (.object (members ++ [(key, .string text)]))) := by
  refine Throws.bind ?_ (fun _ _ => records_digest _ _)
  unfold binding
  split
  · exact (records_throwIf _).bind (fun _ _ => throws_pure _)
  · exact records_error _

theorem records_validReceipt (value : Json ℚ) :
    Records (validReceipt sha256 now context value) := by
  have hobject (value : Json ℚ) : Records (TradingFx.object value) := by
    cases value with
    | object members => exact throws_ok _
    | null => exact throws_error recorded_evidence
    | bool value => exact throws_error recorded_evidence
    | number value => exact throws_error recorded_evidence
    | string value => exact throws_error recorded_evidence
    | array items => exact throws_error recorded_evidence
  have hguard {bad : Prop} [Decidable bad] : Records (throwIf bad TradingFx.invalidFx) :=
    throws_throwIf recorded_evidence
  have htimestamp (key : String) (row : List (String × Json ℚ)) :
      Records (TradingFx.timestamp key row) := by
    unfold TradingFx.timestamp
    split
    · exact throws_error recorded_evidence
    · exact hguard.bind (fun _ _ => throws_pure _)
  refine Throws.bind ?_ (fun _ _ => throws_pure _)
  refine (hobject value).bind (fun row _ => hguard.bind (fun _ _ => ?_))
  refine Throws.bind (hguard.bind (fun _ _ => hguard)) (fun _ _ => Throws.bind ?_ (fun _ _ => ?_))
  · unfold TradingFx.validateLeg
    split
    · exact hguard.bind (fun _ _ => hguard)
    · exact throws_error recorded_evidence
  · refine Throws.bind ?_ (fun _ _ => Throws.bind ?_ (fun _ _ => ?_))
    · exact hguard.bind (fun _ _ => (htimestamp _ _).bind (fun _ _ => (htimestamp _ _).bind
        (fun _ _ => (htimestamp _ _).bind (fun _ _ => hguard))))
    · refine (hobject _).bind (fun _ _ => (hobject _).bind (fun _ _ => hguard.bind (fun _ _ => ?_)))
      refine Throws.bind ?_ (fun _ _ => hguard.bind (fun _ _ => (records_digest _ _).bind
        (fun _ _ => hguard)))
      unfold TradingFx.onlyRow
      split
      · exact hobject _
      · exact throws_error recorded_evidence
    · exact (records_digest _ _).bind (fun _ _ => hguard.bind (fun _ _ => throws_pure _))

theorem records_decodeReceipt (row : ReceiptRow) :
    Records (decodeReceipt sha256 now account context row) :=
  (records_validReceipt _).bind (fun _ _ => (records_throwIf _).bind (fun _ _ =>
    records_bound.bind (fun _ _ => (records_throwIf _).bind (fun _ _ =>
      (records_throwIf _).bind (fun _ _ => throws_pure _)))))

theorem valid_of_decodeReceipt {row : ReceiptRow} {receipt : FxLegReceipt}
    (h : decodeReceipt sha256 now account context row = .ok receipt) :
    Valid sha256 now context receipt := by
  simp only [decodeReceipt, bind_eq_ok, pure_eq_ok_iff] at h
  obtain ⟨decoded, hdecd, _, _, _, _, _, _, _, _, rfl⟩ := h
  exact (validReceipt_eq_ok.mp hdecd).2

/-- The rate of a conversion: the ratio of two dollar rates. -/
def DollarRate (rate : ExactRational) : Prop :=
  ∃ p q, TradingFxQuotes.Quotient p ∧ TradingFxQuotes.Quotient q ∧ rate = rationalText (p / q)

theorem selectedConversion_rate (asOf : ℤ) {required : List String}
    (hreq : requiredLegs baseAsset quoteAsset = .ok required)
    (hlegs : selected.map (·.legId) = required) (hvalid : AllValid sha256 now context selected) :
    ∃ conversion, selectedConversion selected baseAsset quoteAsset asOf context = .ok conversion ∧
      DollarRate conversion.rate := by
  obtain ⟨-, -, p, q, hp, hq, hbase, hquote⟩ := exists_rates hreq hlegs hvalid
  have hdivide := divideRational_rationalText hp.fits hq.fits hq.pos.ne' (hp.fits_div hq)
  rw [selectedConversion, hbase, ok_bind, hquote, ok_bind, hdivide, ok_bind]
  exact ⟨_, rfl, p, q, hp, hq, rfl⟩

theorem deriveFxConversion_records (hvalid : AllValid sha256 now context receipts) :
    Records (deriveFxConversion sha256 now (receipts.map FxLegReceipt.json) baseAsset
      quoteAsset asOf
        context) ∧
      ∀ conversion, deriveFxConversion sha256 now (receipts.map FxLegReceipt.json) baseAsset
        quoteAsset asOf context = .ok conversion → DollarRate conversion.rate := by
  have hassetLegs (asset : String) : Records (assetLegs asset) := by
    unfold assetLegs
    split_ifs
    · exact throws_ok _
    · exact throws_ok _
    · exact throws_ok _
    · exact records_error _
  have hacpt : Accepted sha256 now context (receipts.map FxLegReceipt.json) := by
    intro value hvalue
    obtain ⟨row, hrow, rfl⟩ := List.mem_map.mp hvalue
    exact ⟨row, (hvalid row hrow).validReceipt⟩
  have hsel {required : List String} {rows selected : List FxLegReceipt}
      (hrows : eligibleReceipts sha256 now (receipts.map FxLegReceipt.json) required asOf context =
        .ok rows) (hcoherent : coherentLegs rows required = .ok selected) :
      selected.map (·.legId) = required ∧ AllValid sha256 now context selected := by
    obtain ⟨anchor, -, hwin⟩ := FirstWindow.exists_window (coherentLegs_eq_ok.mp hcoherent)
    exact ⟨hwin.keys, fun row hrow =>
      (mem_eligibleReceipts hrows row (hwin.mem row hrow)).2.1⟩
  refine ⟨?_, ?_⟩
  · refine (records_throwIf _).bind (fun _ _ => Throws.bind ?_ (fun required hreq => ?_))
    · exact (hassetLegs _).bind (fun _ _ => (hassetLegs _).bind (fun _ _ => throws_pure _))
    · refine Throws.bind ?_ (fun rows hrows => Throws.bind ?_ (fun selected hcoherent => ?_))
      · rcases @eligibleReceipts_cases sha256 now context _ required asOf hacpt with
          ⟨kept, hkept, -⟩ | ⟨hconf, -⟩
        · rw [hkept]
          exact throws_ok _
        · rw [hconf]
          exact records_error _
      · unfold coherentLegs
        split
        · exact throws_ok _
        · exact records_error _
      · obtain ⟨hlegs, hall⟩ := hsel hrows hcoherent
        obtain ⟨conversion, hconv, -⟩ := selectedConversion_rate asOf hreq hlegs hall
        rw [hconv]
        exact (throws_ok _).bind (fun _ _ => (records_digest _ _).bind (fun _ _ => throws_pure _))
  · intro conversion h
    simp only [deriveFxConversion, bind_eq_ok, pure_eq_ok_iff] at h
    obtain ⟨_, _, required, hreq, rows, hrows, selected, hcoherent, original, horig, hash,
      _, rfl⟩ := h
    obtain ⟨hlegs, hall⟩ := hsel hrows hcoherent
    obtain ⟨derived, hderd, hrate⟩ := selectedConversion_rate asOf hreq hlegs hall
    obtain rfl := Except.ok.inj (horig.symm.trans hderd)
    exact hrate

theorem records_assertNoContradictedOriginal {receipt : FxLegReceipt}
    (hvalid : Valid sha256 now context receipt) :
    Records (assertNoContradictedOriginal sha256 now account context db receipt) := by
  refine (records_throwIf _).bind (fun _ _ => throws_forM (fun row _ => ?_))
  refine (records_decodeReceipt row).bind (fun original horig => ?_)
  obtain ⟨order, horder⟩ := compare_valid (valid_of_decodeReceipt horig) hvalid
  rw [horder]
  exact (throws_ok _).bind (fun _ _ => records_throwIf _)

theorem allValid_of_mapM {rows : List ReceiptRow}
    (h : rows.mapM (decodeReceipt sha256 now account context) = .ok receipts) :
    AllValid sha256 now context receipts := by
  intro receipt hrec
  obtain ⟨row, -, hrow⟩ := exists_of_mem_mapM h hrec
  exact valid_of_decodeReceipt hrow

theorem records_readFxConversion (id : String) :
    Records (readFxConversion sha256 now account id db) := by
  refine records_requireFxAccountContext.bind (fun context _ => ?_)
  split
  · exact records_error _
  · refine (records_throwIf _).bind (fun _ _ => Throws.bind (throws_mapM
      (fun row _ => records_decodeReceipt row)) (fun receipts hrecs => ?_))
    have hvalid := allValid_of_mapM hrecs
    refine Throws.bind (throws_forM (fun receipt hrec =>
      records_assertNoContradictedOriginal (hvalid receipt hrec))) (fun _ _ => ?_)
    refine (deriveFxConversion_records hvalid).1.bind (fun _ _ => (records_throwIf _).bind
      (fun _ _ => records_bound.bind (fun _ _ => (records_throwIf _).bind (fun _ _ => ?_))))
    exact (records_digest _ _).bind (fun _ _ => (records_digest _ _).bind
      (fun _ _ => (records_throwIf _).bind (fun _ _ => throws_pure _)))

theorem readFxConversion_rate {id : String} {stored : StoredFxConversion}
    (h : readFxConversion sha256 now account id db = .ok stored) :
    stored.id = id ∧ DollarRate stored.conversion.rate := by
  rw [readFxConversion, bind_eq_ok] at h
  obtain ⟨context, -, h⟩ := h
  split at h
  · cases h
  · simp only [bind_eq_ok, pure_eq_ok_iff] at h
    obtain ⟨_, _, receipts, hrecs, _, _, conversion, hconv, _, _, _, _, _, _, _, _, _, _,
      _, _, rfl⟩ := h
    exact ⟨rfl, (deriveFxConversion_records (allValid_of_mapM hrecs)).2 _ hconv⟩

theorem records_persistFxConversion :
    Records (persistFxConversion sha256 now account baseAsset quoteAsset asOf db) := by
  refine records_requireFxAccountContext.bind (fun context _ => Throws.bind ?_ (fun rows _ => ?_))
  · exact (records_throwIf _).bind (fun _ _ => (records_throwIf _).bind (fun _ _ => throws_pure _))
  · refine Throws.bind (throws_mapM (fun row _ => records_decodeReceipt row))
      (fun receipts hrecs => ?_)
    refine (deriveFxConversion_records (allValid_of_mapM hrecs)).1.bind (fun _ _ =>
      records_bound.bind (fun _ _ => Throws.bind (throws_foldlM (fun _ _ _ => ?_) _)
        (fun _ _ => ?_)))
    · exact records_bound.bind (fun _ _ => throws_pure _)
    · exact (records_readFxConversion _).bind (fun _ _ => throws_pure _)

end Conversions

end TsxCore.TradingFxValuation
