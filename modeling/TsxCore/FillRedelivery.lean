import TsxCore.FillConflicts
import TsxCore.FillEvidenceBounds

/-!
# Repeated deliveries of a stored fill

A fill that is delivered again passes the duplicate check, and then its quantity evidence is
compared with the stored row. The comparison asks for a proven row, so a row that another
delivery put into conflict makes every later delivery with a normalization fail.
-/

namespace TsxCore.FillRedelivery

open Outcome TradingDecimal TradingFillIdentity TradingFillTables TradingRemoteEvidence
open TradingFillQuantity TradingFillCapture TradingEvidenceRepository
open FillEvolution FillConflicts ExchangeFillContract FillEvidenceBounds

section Definitions

variable (services : Services) (d : Delivery) (row : FillRow) (db : Database)

/-- The normalization was read with the evidence of the delivery, by the current account. -/
def ReadWith (normalization : FillQuantityNormalization) : Prop :=
  ∃ acquisition binding, readBinding services d.now d.read normalization.normalizedAt =
      .ok acquisition ∧
    assertAcquisitionProviderBinding acquisition (providerUid d.fill) = .ok () ∧
    assertBinding d.account db = .ok binding

/-- The delivery repeats the stored fill: the contract accepts it, it proves the row's native
key, and it has the order, price, quantity, fee and time of the row. -/
structure Redelivery : Prop where
  accepted : ∃ now ≤ d.now, validateFill services.sha256 now d.fill = .ok d.fill
  account : assertFillAccount d.account db = .ok ()
  native : ∃ proof, provenFillIdentity d.account d.fill = .ok (some proof) ∧
    row.native = some (d.account.id, proof.key)
  same : ∃ order, managedOrder d.account d.fill db = some order ∧
    sameFill row order d.fill = .ok true
  read : ∀ normalization, d.fill.quantityNormalization = some normalization →
    ReadWith services d db normalization

/-- The retained original is the one that the delivery carries. -/
def SameOriginal : Prop :=
  fillQuantityDigest services.sha256 "kraken-normalization-original-v1" row.raw =
    fillQuantityDigest services.sha256 "kraken-normalization-original-v1" d.fill.raw

def ObservationFits (normalization : FillQuantityNormalization) : Prop :=
  (∃ id, observationId services d.account.id row.id (d.account.externalAccountId.getD "")
      (d.account.credentialGeneration.getD "") normalization = .ok id) ∧
    ∀ acquisition, readBinding services d.now d.read normalization.normalizedAt =
      .ok acquisition → observationFits normalization acquisition

end Definitions

section Frames

variable {sha256 : String → String} {now : ℤ} {account : TradingAccount} {fill : ExchangeFill}
variable {fillId : String} {db next : Database}

theorem markProvenFill_frame (h : markProvenFill sha256 account fill db = .ok next) :
    next.accounts = db.accounts ∧ next.orders = db.orders ∧ next.fills = db.fills := by
  simp only [markProvenFill, bind_eq_ok, pure_eq_ok_iff] at h
  obtain ⟨_, -, rfl⟩ := h
  exact ⟨rfl, rfl, rfl⟩

theorem captureFillAccounting_accounts
    (h : captureFillAccounting sha256 now account fill fillId db = .ok next) :
    next.accounts = db.accounts := by
  unfold captureFillAccounting at h
  split at h
  · cases h
  · simp only [bind_eq_ok] at h
    obtain ⟨accounting, -, h⟩ := h
    split_ifs at h
    · unfold recordAccountingConflict at h
      split at h
      · cases h
      · rw [← pure_eq_ok_iff.mp h]
        rfl
    · rw [pure_eq_ok_iff.mp h]
    · rw [← pure_eq_ok_iff.mp h]
      rfl

theorem captureFillAccounting_returns {row : FillRow} {order : OrderRow}
    {accounting : Option TradingTypes.ExchangeFillAccounting}
    (hrow : db.fillOf account.id fillId = some row)
    (horder : db.orders.find row.orderId = some order)
    (haccounting : validatedAccounting fill = .ok accounting) :
    ∃ next, captureFillAccounting sha256 now account fill fillId db = .ok next := by
  simp only [captureFillAccounting, hrow, haccounting, ok_bind, recordAccountingConflict, horder]
  split_ifs
  · exact ⟨_, rfl⟩
  · exact ⟨_, rfl⟩
  · exact ⟨_, rfl⟩

end Frames

section Observations

variable {services : Services} {now : ℤ} {account : TradingAccount} {fill : ExchangeFill}
variable {fillId : String} {db : Database} {normalization : FillQuantityNormalization}
variable {stored : FillRow} {proof : FillProof}

theorem assertStoredJournalMatches_ok_iff {digest : String}
    (hfp : stored.accountFingerprint = account.externalAccountId)
    (hkey : stored.remoteFillKey = some proof.key)
    (hqty : compareDecimal stored.quantity fill.quantity = .ok 0) :
    assertStoredJournalMatches services account fill proof stored normalization = .ok digest ↔
      stored.identityStatus = .proven ∧ digest = normalization.originalExecutionHash ∧
        fillQuantityDigest services.sha256 "kraken-normalization-original-v1" stored.raw =
          .ok normalization.originalExecutionHash := by
  by_cases hproven : stored.identityStatus = .proven
  · have hstate : storedJournalStateMatches stored fill = .ok true := by
      rw [storedJournalStateMatches, if_pos hproven, hqty]
      rfl
    simp only [assertStoredJournalMatches, hfp, hkey, hstate, bind_eq_ok, throwIf_eq_ok,
      pure_eq_ok_iff, not_not]
    refine ⟨?_, ?_⟩
    · rintro ⟨_, -, _, -, -, -, found, hfound, -, hsame, rfl⟩
      exact ⟨hproven, hsame.symm, hfound.trans (congrArg Except.ok hsame.symm)⟩
    · rintro ⟨-, rfl, hdig⟩
      exact ⟨(), by simp, true, rfl, (), by simp, _, hdig, (), rfl, rfl⟩
  · have hstate : storedJournalStateMatches stored fill = .ok false := by
      rw [storedJournalStateMatches, if_neg hproven]
      rfl
    simp only [assertStoredJournalMatches, hstate, bind_eq_ok, throwIf_eq_ok, hproven, false_and,
      iff_false]
    rintro ⟨_, -, _, hfalse, _, hcheck, -⟩
    cases hfalse
    exact hcheck rfl

/-- The quantity evidence of a stored fill is kept exactly when the row is proven, keeps the
delivered original and the observation fits. -/
theorem captureNormalization_returns_iff (hsha : ∀ text, (services.sha256 text).toList.length = 64)
    {initial : Bool} {read : Option ExchangeAcquisitionEvidence}
    {acquisition : ExchangeAcquisitionEvidence} {fingerprint generation : String}
    (hvalid : validateFillQuantityNormalization services.sha256 now normalization fill =
      .ok normalization)
    (hread : readBinding services now read normalization.normalizedAt = .ok acquisition)
    (hbind : assertBinding account db = .ok (fingerprint, generation))
    (hproven : provenFillIdentity account fill = .ok (some proof))
    (hstored : db.fillOf account.id fillId = some stored)
    (hfp : stored.accountFingerprint = account.externalAccountId)
    (hkey : stored.remoteFillKey = some proof.key)
    (hqty : compareDecimal stored.quantity fill.quantity = .ok 0)
    (hprov : assertAcquisitionProviderBinding acquisition (providerUid fill) = .ok ()) :
    (∃ next, captureNormalization services now account fill fillId initial read normalization db =
        .ok next) ↔
      stored.identityStatus = .proven ∧
        fillQuantityDigest services.sha256 "kraken-normalization-original-v1" stored.raw =
          .ok normalization.originalExecutionHash ∧
        (∃ id, observationId services account.id fillId fingerprint generation normalization =
          .ok id) ∧ observationFits normalization acquisition := by
  have hlen : ∀ {domain digest : String} {value : Json ℚ},
      fillQuantityDigest services.sha256 domain value = .ok digest → digest.toList.length = 64 := by
    intro domain digest value hdig
    obtain ⟨text, rfl⟩ := fillQuantityDigest_ok hdig
    exact hsha text
  simp only [captureNormalization, hvalid, hread, hbind, hproven, hstored, ok_bind, bind_eq_ok,
    assertStoredJournalMatches_ok_iff hfp hkey hqty, hprov, insertObservation,
    throwIf_eq_ok, pure_eq_ok_iff]
  refine ⟨?_, ?_⟩
  · rintro ⟨next, digest, ⟨hstatus, rfl, hdig⟩, id, hid, _, hfits, -⟩
    simp only [not_or, not_not] at hfits
    exact ⟨hstatus, hdig, ⟨id, hid⟩, hfits.1⟩
  · rintro ⟨hstatus, hdig, ⟨id, hid⟩, hfits⟩
    refine ⟨_, normalization.originalExecutionHash, ⟨hstatus, rfl, hdig⟩, id, hid, (), ?_, rfl⟩
    simp only [not_or, not_not]
    exact ⟨hfits, hlen hid, hlen hdig⟩

end Observations

section Correlation

variable {row new : FillRow} {order : OrderRow} {fill : ExchangeFill} {account : TradingAccount}
variable {db : Database} {services : Services} {d : Delivery}

theorem sameFill_true (h : sameFill row order fill = .ok true) :
    row.orderId = order.id ∧ compareDecimal row.quantity fill.quantity = .ok 0 := by
  unfold sameFill at h
  split_ifs at h with horder
  · cases h
  · simp only [bind_eq_ok, pure_eq_ok_iff, Bool.and_eq_true] at h
    obtain ⟨amounts, hamounts, ⟨⟨rfl, -⟩, -⟩, -⟩ := h
    simp only [sameAmounts, bind_eq_ok] at hamounts
    obtain ⟨price, -, hamounts⟩ := hamounts
    split_ifs at hamounts
    · cases hamounts
    · simp only [bind_eq_ok] at hamounts
      obtain ⟨quantity, hqty, hamounts⟩ := hamounts
      split_ifs at hamounts with hzero
      · cases hamounts
      · rw [not_not] at hzero
        exact ⟨not_not.mp horder, hqty.trans (congrArg Except.ok hzero)⟩

theorem managedOrder_find (h : managedOrder account fill db = some order) :
    db.orders.find order.id = some order := by
  have hcorr := (Option.filter_eq_some_iff.mp h).1
  exact Keyed.find_eq_some.mpr ⟨List.mem_of_find?_eq_some hcorr, rfl⟩

theorem redelivery_of_core (hcore : core new = core row) (h : Redelivery services d row db) :
    Redelivery services d new db where
  accepted := h.accepted
  account := h.account
  native := by
    obtain ⟨proof, hproven, hnative⟩ := h.native
    exact ⟨proof, hproven, (core_native hcore).trans hnative⟩
  same := by
    obtain ⟨order, hmanaged, hsame⟩ := h.same
    have hcols : sameFill (core new) order d.fill = .ok true := by
      rw [hcore]
      exact hsame
    exact ⟨order, hmanaged, hcols⟩
  read := h.read

theorem assertBinding_kraken {binding : String × String}
    (h : assertBinding account db = .ok binding) :
    account.exchange = "krakenfutures" ∧ account.externalAccountId = some binding.1 ∧
      account.credentialGeneration = some binding.2 := by
  unfold assertBinding at h
  split at h
  · cases h
  · rename_i current hcur
    simp only [bind_eq_ok, throwIf_eq_ok, not_or, not_not] at h
    obtain ⟨-, ⟨hkraken, hexch, -⟩, h⟩ := h
    split at h
    · rename_i fingerprint generation hfp hgen
      simp only [bind_eq_ok, throwIf_eq_ok, not_or, not_not, pure_eq_ok_iff] at h
      obtain ⟨-, ⟨hacc, hcred, -⟩, rfl⟩ := h
      exact ⟨hexch.symm.trans hkraken, hacc.symm, hcred.symm⟩
    · cases h

theorem assertBinding_congr {next : Database} (h : next.accounts = db.accounts) :
    assertBinding account next = assertBinding account db := by
  unfold assertBinding
  rw [h]

theorem fingerprint_of_bound {proof : FillProof} (hbound : Bound row)
    (hproven : provenFillIdentity account fill = .ok (some proof))
    (hkey : row.remoteFillKey = some proof.key) (hkraken : account.exchange = "krakenfutures") :
    row.accountFingerprint = account.externalAccountId := by
  obtain ⟨fingerprint, hacc, hname⟩ := provenFillIdentity_key hproven
  obtain ⟨exchange, found, identity, hfound, hlive⟩ := hbound proof.key hkey
  obtain ⟨hexch, hsame⟩ := fillKey_account (hfound.symm.trans hname)
  have hpaper : ¬ account.isPaper := by
    intro hpaper
    rw [TradingAccount.isPaper, hkraken] at hpaper
    exact absurd hpaper.1 (by decide)
  rw [fillAccountFingerprint, if_neg hpaper] at hacc
  rw [hlive (by rw [hexch, hkraken]; decide), hsame, hacc]

end Correlation

section Outcome

variable {services : Services} {d : Delivery} {row : FillRow} {db : Database}

theorem persistCorrelatedFill_of_redelivery (hrow : db.fills.find row.id = some row)
    (h : Redelivery services d row db) :
    ∃ proof order, provenFillIdentity d.account d.fill = .ok (some proof) ∧
      row.native = some (d.account.id, proof.key) ∧ db.orders.find row.orderId = some order ∧
      compareDecimal row.quantity d.fill.quantity = .ok 0 ∧
      persistCorrelatedFill services d db =
        captureFill services d (identifiedFill d.fill (some proof)) order proof (some row) db := by
  obtain ⟨proof, hproven, hnative⟩ := h.native
  obtain ⟨order, hmanaged, hsame⟩ := h.same
  obtain ⟨horder, hqty⟩ := sameFill_true hsame
  have hfind := managedOrder_find hmanaged
  rw [← horder] at hfind
  refine ⟨proof, order, hproven, hnative, hfind, hqty, ?_⟩
  have hlook : db.fills.lookup (d.account.id, proof.key) = some row :=
    Indexed.lookup_eq_some.mpr ⟨Keyed.mem_of_find hrow, hnative⟩
  have hmanaged' : managedOrder d.account (identifiedFill d.fill (some proof)) db = some order :=
    hmanaged
  have hsame' : sameFill row order (identifiedFill d.fill (some proof)) = .ok true := hsame
  simp only [persistCorrelatedFill, hproven, ok_bind, h.account, hmanaged', storeFill, hlook,
    settleFill, hsame', if_true]

theorem redelivery_returns_iff (hsha : ∀ text, (services.sha256 text).toList.length = 64)
    (hproper : Proper db) (hrow : db.fills.find row.id = some row)
    (h : Redelivery services d row db) :
    (∃ result next, persistCorrelatedFill services d db = .ok (result, next) ∧
        result.inserted = false) ↔
      Bounded d.fill.fee ∧ ∀ normalization, d.fill.quantityNormalization = some normalization →
        row.identityStatus = .proven ∧ SameOriginal services d row ∧
          ObservationFits services d row normalization := by
  obtain ⟨proof, order, hproven, hnative, horder, hqty, hpers⟩ :=
    persistCorrelatedFill_of_redelivery hrow h
  obtain ⟨accepted, hacpt, hcontract⟩ := h.accepted
  have hdelivered := validateFill_delivered hcontract
  have hident := boundedIdentity_of_proven hdelivered hproven
  obtain ⟨key, hkey, hpair⟩ := Option.map_eq_some_iff.mp hnative
  obtain ⟨hown, rfl⟩ := Prod.mk.inj hpair
  have hreturns : (∃ result next, persistCorrelatedFill services d db = .ok (result, next) ∧
      result.inserted = false) ↔ ∃ marked captured observed,
        markProvenFill services.sha256 d.account (identifiedFill d.fill (some proof)) db =
          .ok marked ∧
        captureFillAccounting services.sha256 d.now d.account (identifiedFill d.fill (some proof))
          row.id marked = .ok captured ∧
        captureFillQuantityEvidence services d.now d.account (identifiedFill d.fill (some proof))
          row.id false d.read captured = .ok observed := by
    rw [hpers]
    simp only [captureFill, ensureFill, bind_eq_ok, pure_eq_ok_iff, Option.map_some,
      Option.getD_some, Option.isNone_some]
    refine ⟨?_, ?_⟩
    · rintro ⟨result, next, ⟨stored, rfl, marked, hmarked, captured, hcapt, observed, hobs,
        -⟩, -⟩
      exact ⟨marked, captured, observed, hmarked, hcapt, hobs⟩
    · rintro ⟨marked, captured, observed, hmarked, hcapt, hobs⟩
      exact ⟨_, observed, ⟨db, rfl, marked, hmarked, captured, hcapt, observed, hobs, rfl⟩,
        rfl⟩
  -- What the capture of the quantity evidence finds after the two captures before it.
  have hquantityReturns : ∀ {marked captured : Database}
    {normalization : FillQuantityNormalization},
      markProvenFill services.sha256 d.account (identifiedFill d.fill (some proof)) db =
        .ok marked →
      captureFillAccounting services.sha256 d.now d.account (identifiedFill d.fill (some proof))
        row.id marked = .ok captured →
      d.fill.quantityNormalization = some normalization →
      ((∃ observed, captureFillQuantityEvidence services d.now d.account
          (identifiedFill d.fill (some proof)) row.id false d.read captured = .ok observed) ↔
        row.identityStatus = .proven ∧ SameOriginal services d row ∧
          ObservationFits services d row normalization) := by
    intro marked captured normalization hmarked hcapt hnorm
    obtain ⟨acquisition, binding, hread, hprov, hbind⟩ := h.read normalization hnorm
    obtain ⟨hkraken, hfp, hgen⟩ := assertBinding_kraken hbind
    have hpaper : ¬ d.account.isPaper := by
      intro hpaper
      rw [TradingAccount.isPaper, hkraken] at hpaper
      exact absurd hpaper.1 (by decide)
    have hfill : identifiedFill d.fill (some proof) = d.fill := withIdentity_eq hproven hpaper
    rw [hfill] at hmarked hcapt ⊢
    have hvalid := validateFill_normalization hcontract hacpt hnorm
    have hevolution : Evolution db captured :=
      (evolution_of_fills (markProvenFill_fills hmarked)).trans
        (captureFillAccounting_evolution hcapt)
    obtain ⟨stored, hstored, hext⟩ := hevolution.keyed hrow hkey
    have howned : captured.fillOf d.account.id row.id = some stored := by
      rw [Database.fillOf, hstored, Option.filter_some, if_pos]
      rw [decide_eq_true_eq, core_accountId hext.core, hown]
    have hbindingNow : assertBinding d.account captured = .ok (binding.1, binding.2) := by
      rw [assertBinding_congr (captureFillAccounting_accounts hcapt),
        assertBinding_congr (markProvenFill_frame hmarked).1, hbind]
    have hstoredFingerprint : stored.accountFingerprint = d.account.externalAccountId := by
      have hbound := fingerprint_of_bound (hproper row.id row hrow) hproven hkey hkraken
      rw [hfp] at hbound ⊢
      exact hext.fingerprint _ hbound
    have hstoredQuantity : compareDecimal stored.quantity d.fill.quantity = .ok 0 := by
      have hsame : stored.quantity = row.quantity := by
        have hcolumn := congrArg FillRow.quantity hext.core
        exact hcolumn
      rw [hsame, hqty]
    have hcapture : (∃ observed, captureNormalization services d.now d.account d.fill row.id false
        d.read normalization captured = .ok observed) ↔ _ :=
      captureNormalization_returns_iff hsha hvalid hread hbindingNow hproven howned
        hstoredFingerprint ((core_key hext.core).trans hkey) hstoredQuantity hprov
    rw [captureFillQuantityEvidence, hnorm]
    refine hcapture.trans ?_
    rw [hext.status, core_raw hext.core, SameOriginal, originalHash_of_valid hvalid,
      ObservationFits, hfp, hgen, Option.getD_some, Option.getD_some]
    refine and_congr_right (fun _ => and_congr_right (fun _ => and_congr_right (fun _ => ?_)))
    refine ⟨?_, ?_⟩
    · intro hfits found hfound
      rwa [← Except.ok.inj (hread.symm.trans hfound)]
    · intro hfits
      exact hfits acquisition hread
  rw [hreturns]
  refine ⟨?_, ?_⟩
  · rintro ⟨marked, captured, observed, hmarked, hcapt, hobs⟩
    refine ⟨(markProvenFill_returns_iff services.sha256 d.account hdelivered hident db).mp
      ⟨marked, hmarked⟩, ?_⟩
    intro normalization hnorm
    exact (hquantityReturns hmarked hcapt hnorm).mp ⟨observed, hobs⟩
  · rintro ⟨hfee, hnormalizations⟩
    obtain ⟨marked, hmarked⟩ :=
      (markProvenFill_returns_iff services.sha256 d.account hdelivered hident db).mpr hfee
    obtain ⟨hmarkedAccounts, hmarkedOrders, hmarkedFills⟩ := markProvenFill_frame hmarked
    obtain ⟨accounting, haccounting⟩ := hdelivered.accounting
    have howned : marked.fillOf d.account.id row.id = some row := by
      rw [Database.fillOf, hmarkedFills, hrow, Option.filter_some, if_pos]
      rw [decide_eq_true_eq, hown]
    obtain ⟨captured, hcapt⟩ := @captureFillAccounting_returns services.sha256 d.now d.account
      (identifiedFill d.fill (some proof)) row.id marked row order accounting howned
      (hmarkedOrders ▸ horder) haccounting
    cases hnorm : d.fill.quantityNormalization with
    | none =>
      refine ⟨marked, captured, captured, hmarked, hcapt, ?_⟩
      have hnone : (identifiedFill d.fill (some proof)).quantityNormalization = none :=
        hnorm
      rw [captureFillQuantityEvidence, hnone]
      rfl
    | some normalization =>
      obtain ⟨observed, hobs⟩ := (hquantityReturns hmarked hcapt hnorm).mpr
        (hnormalizations normalization hnorm)
      exact ⟨marked, captured, observed, hmarked, hcapt, hobs⟩

end Outcome

theorem proper_of_unkeyed {db : Database} (h : ∀ row ∈ db.fills.rows, row.remoteFillKey = none) :
    Proper db := by
  intro id row hrow key hkey
  rw [h row (Keyed.mem_of_find hrow)] at hkey
  cases hkey

theorem run_append (services : Services) (earlier later : List Action) (db : Database) :
    run services (earlier ++ later) db = run services later (run services earlier db) :=
  List.foldl_append

/-- A repeated delivery of a stored fill returns without inserting exactly when its fee can be
written down and, if it carries a normalization, the row was proven, no delivery since has
contradicted it, the retained original is the delivered one and the observation fits. -/
theorem repeated_fill_returns (services : Services)
    (hsha : ∀ text, (services.sha256 text).toList.length = 64) (start : Database)
    (hstart : ∀ row ∈ start.fills.rows, row.remoteFillKey = none) (earlier later : List Action)
    (row : FillRow) (hrow : row ∈ (run services earlier start).fills.rows) (d : Delivery)
    (hd : Redelivery services d row (run services (earlier ++ later) start)) :
    (∃ result next, persistCorrelatedFill services d (run services (earlier ++ later) start) =
        .ok (result, next) ∧ result.inserted = false) ↔
      Bounded d.fill.fee ∧ ∀ normalization, d.fill.quantityNormalization = some normalization →
        row.identityStatus = .proven ∧
          Uncontradicted services row (run services earlier start) later ∧
          SameOriginal services d row ∧ ObservationFits services d row normalization := by
  have hproper := @run_proper services start (earlier ++ later) (proper_of_unkeyed hstart)
  obtain ⟨proof, -, hnative⟩ := hd.native
  obtain ⟨key, hkey, -⟩ := Option.map_eq_some_iff.mp hnative
  have hfind := Keyed.find_eq_some.mpr ⟨hrow, rfl⟩
  obtain ⟨current, hcur, hcore, hstatus⟩ :=
    @run_keyed services row (run services earlier start) key later hfind hkey
  rw [← run_append, ← core_id hcore] at hcur
  rw [redelivery_returns_iff hsha hproper hcur (redelivery_of_core hcore hd)]
  have hraw : SameOriginal services d current ↔ SameOriginal services d row := by
    rw [SameOriginal, SameOriginal, core_raw hcore]
  have hfits : ∀ normalization, ObservationFits services d current normalization ↔
      ObservationFits services d row normalization := by
    intro normalization
    rw [ObservationFits, ObservationFits, core_id hcore]
  simp only [hstatus, hraw, hfits, and_assoc]

section Blocked

variable {services : Services} {d again : Delivery} {row : FillRow} {db : Database}
variable {normalization : FillQuantityNormalization}

theorem deliver_surroundings (hrow : db.fills.find row.id = some row)
    (h : Contradicts services d row db) :
    (deliver services d db).accounts = db.accounts ∧
      (deliver services d db).orders = db.orders := by
  obtain ⟨next, hpers, -, hsurroundings⟩ := persistCorrelatedFill_of_contradicts hrow h
  rw [deliver, hpers]
  exact hsurroundings

theorem blocked_of_contradicts (hsha : ∀ text, (services.sha256 text).toList.length = 64)
    (hproper : Proper db) (hrow : db.fills.find row.id = some row)
    (hcontra : Contradicts services d row db)
    (hagain : Redelivery services again row (deliver services d db))
    (hnorm : again.fill.quantityNormalization = some normalization) :
    ¬ ∃ result next, persistCorrelatedFill services again (deliver services d db) =
      .ok (result, next) ∧ result.inserted = false := by
  obtain ⟨proof, -, hnative⟩ := hagain.native
  obtain ⟨key, hkey, -⟩ := Option.map_eq_some_iff.mp hnative
  obtain ⟨marked, hmarked, hcore, hstatus⟩ := @deliver_keyed services d row db key hrow hkey
  rw [← core_id hcore] at hmarked
  rw [redelivery_returns_iff hsha (deliver_proper hproper) hmarked
    (redelivery_of_core hcore hagain)]
  rintro ⟨-, hproven⟩
  exact (hstatus.mp (hproven normalization hnorm).1).2 hcontra

end Blocked

section Execution

def accountDigest : String := "aaaaaaaaaaaaaaaaaaaaaaaaaaaaaaaaaaaaaaaaaaaaaaaaaaaaaaaaaaaaaaaa"

def originalDigest : String := "83fb0f302b1ac63f41c94049bbe16301efc9a2dd57478791cd4e1a0adc54ccf7"

def marketDigest : String := "89cbb8d74c91bd53fa0cc0984b6b4ce85464dd32311bdfa1fcd44e613796cc04"

def observationDigest : String :=
  "92d5a46793cd0246a801f8861d61187718406e3e3b2924511776c48e405edb3a"

/-- The digest of the economic evidence at a price of 100. -/
def evidenceDigest : String := "d83401ea201d61821244354e50d924cc0d72b3d51b138dc4c0cde8ff8ea54332"

/-- The digest of the economic evidence at a price of 99, a shorter text. -/
def contraryDigest : String := "e6b5c5bad2f9964827f5b5ec933fc385d1fc168386e0c09fbc03e95e8c08561f"

/-- The digests of the texts below by their domain; economic evidence has none. -/
def executionDigest (domain : String) (size : ℕ) : String :=
  if domain = "kraken-normalization-original-v1" then originalDigest
  else if domain = "kraken-normalization-market-v1" then marketDigest
  else if domain = "tsx-fill-quantity-observation-v1" then observationDigest
  else if size = 350 then evidenceDigest
  else contraryDigest

/-- `sha256` on the texts of the fills below. -/
def executionSha256 (text : String) : String :=
  executionDigest (.ofList (text.toList.takeWhile (· ≠ '\n'))) text.toList.length

theorem executionSha256_length (text : String) : (executionSha256 text).toList.length = 64 := by
  have hlen {s : String} {cs : List Char} (h : s = .ofList cs) (hcs : cs.length = 64) :
      s.toList.length = 64 := by
    rw [toList_of_eq h, hcs]
  unfold executionSha256 executionDigest
  split_ifs
  all_goals exact hlen rfl rfl

def executionIdentity : ExchangeFillIdentity :=
  ⟨1, "kraken_history_execution_v3", "futures", "PF_XBTUSD", "BTC/USD:USD", "execution", none⟩

def executionInfo : List (String × Json ℚ) :=
  [("providerEventId", .string "envelope"),
    ("identitySource", .string "kraken_history_execution_v3"),
    ("executionUid", .string "execution"), ("orderUid", .string "remote"),
    ("tradeable", .string "PF_XBTUSD"), ("accountUid", .string "provider-account"),
    ("executionTimestamp", .number 8000)]

def executionMembers (price : String) : List (String × Json ℚ) :=
  [("id", .string "execution"), ("order", .string "remote"),
    ("clientOrderId", .string "client"), ("symbol", .string "BTC/USD:USD"),
    ("side", .string "buy"), ("timestamp", .number 8000), ("price", .string price),
    ("amount", .string "4"), ("fee", .object [("cost", .string "0.01"), ("currency", .null)]),
    ("historyMissingFee", .bool false),
    ("info", .object executionInfo)]

def executionMarket : FillQuantityMarket :=
  ⟨"PF_XBTUSD", "BTC/USD:USD", "BTC", "USD", "USD", true, true, false, "0.25",
    "ccxt-4.5.75-loaded-market", marketDigest, none, none, "not-retained"⟩

def executionNormalization : FillQuantityNormalization :=
  ⟨1, "kraken-execution-normalization-v1", "execution.quantity", "4",
    "kraken_native_execution_quantity", "0.25", "1", "base",
    ⟨"multiply", 28, "ROUND_HALF_EVEN", true⟩, executionMarket, executionIdentity, originalDigest,
    10000⟩

/-- The execution at a price, without a normalization. -/
def executionFill (price : String) : ExchangeFill :=
  ⟨some executionIdentity, none, "execution", some "client", "remote", some "BTCUSD",
    some "BTC/USD:USD", price, "1", "0.01", none, 8000,
    some ⟨1, "ccxt-market-v1", "BTC/USD:USD", "USD", true, "base"⟩,
    .object (executionMembers price)⟩

def normalizedFill : ExchangeFill :=
  { executionFill "100" with quantityNormalization := some executionNormalization }

def executionServices : Services := ⟨executionSha256, fun _ read => .ok read⟩

def executionAccount : TradingAccount :=
  ⟨"account", "krakenfutures", .live, some accountDigest, some accountDigest⟩

def delivered (fill : ExchangeFill) : Delivery :=
  ⟨executionAccount, fill, some ⟨9900, 10100, [], "\x7b\x7d"⟩, 10000, "fill"⟩

def executionOrder : OrderRow :=
  ⟨"order", "account", "intent", .entry, "client", some "remote", some "BTC/USD:USD", "BTCUSD"⟩

def executionStart : Database where
  accounts := ⟨[⟨"account", "krakenfutures", .live, some accountDigest, some accountDigest⟩],
    List.nodup_singleton _⟩
  orders := ⟨[executionOrder], List.nodup_singleton _⟩
  fills := ⟨⟨[], List.nodup_nil⟩, by simp⟩
  remoteEvidence := ⟨[], List.nodup_nil⟩
  projectionEvidence := ⟨[], List.nodup_nil⟩
  quantityEvidence := ⟨[], List.nodup_nil⟩
  originals := ⟨fun _ _ _ => false, fun _ _ => false⟩

def executionProof : FillProof :=
  ⟨fillKey "krakenfutures" accountDigest executionIdentity, executionIdentity⟩

/-- The row of the execution before its accounting is attached. -/
def storedExecution : FillRow :=
  newFillRow executionAccount executionOrder (executionFill "100") executionProof "fill"

theorem provenFillIdentity_execution :
    provenFillIdentity executionAccount (executionFill "100") =
      .ok (some executionProof) := by
  rfl

theorem executionDigest_domain {domain text : String} (h : '\n' ∉ domain.toList) :
    executionSha256 (domain ++ "\n" ++ text) =
      executionDigest domain (domain ++ "\n" ++ text).toList.length := by
  have hline : "\n".toList = ['\n'] := rfl
  rw [executionSha256, String.toList_append, String.toList_append, hline, List.append_assoc,
    List.takeWhile_append_of_pos fun c hc => decide_eq_true (ne_of_mem_of_not_mem hc h)]
  simp

/-- A document that every digest of a quantity takes. -/
structure QuantityDocument where
  value : Json ℚ
  accepted : (canonical value 0).toOption.any (fun text => byteLength text < 32768) = true

theorem QuantityDocument.digest {domain digest : String} (document : QuantityDocument)
    (hline : '\n' ∉ domain.toList) (hdig : ∀ size, executionDigest domain size = digest) :
    fillQuantityDigest executionSha256 domain document.value = .ok digest := by
  obtain ⟨text, henc, hcan⟩ := exists_ok_of_any document.accepted
  have hsize : byteLength text < 32768 := of_decide_eq_true hcan
  rw [fillQuantityDigest, henc, ok_bind, throwIf_of_not (by omega), ok_bind,
    executionDigest_domain hline, hdig]
  rfl

def originalDocument : QuantityDocument := ⟨.object (executionMembers "100"), by decide +kernel⟩

def marketDocument : QuantityDocument :=
  ⟨.object (originalMarket executionMarket), by decide +kernel⟩

def observationDocument : QuantityDocument :=
  ⟨.object [("accountId", .string "account"), ("fillId", .string "fill"),
    ("accountFingerprint", .string accountDigest), ("credentialGeneration", .string accountDigest),
    ("recipe", .object (recipe executionNormalization))], by decide +kernel⟩

theorem originalBinding_execution : originalBinding executionSha256 executionNormalization
    normalizedFill = .ok executionIdentity := by
  have hident : validateFillIdentity executionIdentity = .ok executionIdentity := by
    rfl
  have hraw : TradingFillQuantity.object normalizedFill.raw = .ok (executionMembers "100") := rfl
  have hinfo : TradingFillQuantity.object (TradingFx.field "info" (executionMembers "100")) =
      .ok executionInfo := rfl
  have hprice : positiveField "price" (executionMembers "100") = .ok "100" := by rfl
  have horder : compareDecimal "100" normalizedFill.price = .ok 0 := by rfl
  have htoken : tokenField "accountUid" executionInfo = .ok () := by rfl
  refine (bind_of_ok hident _).trans ?_
  refine (bind_of_ok hraw _).trans ?_
  refine (bind_of_ok hinfo _).trans ?_
  have hdig : fillQuantityDigest executionSha256 "kraken-normalization-original-v1"
      (.object (executionMembers "100")) = .ok originalDigest :=
    originalDocument.digest (by decide) (fun _ => rfl)
  rw [throwIf_of_not (by decide), ok_bind, throwIf_of_not (by decide), ok_bind,
    htoken, ok_bind, hprice, ok_bind, horder, ok_bind, throwIf_of_not (by decide), ok_bind,
    hdig, ok_bind, throwIf_of_not (by decide)]
  rfl

theorem marketBinding_execution : marketBinding executionSha256 executionNormalization
    normalizedFill executionIdentity = .ok () := by
  have htokens : token "PF_XBTUSD" = .ok () ∧ token "BTC/USD:USD" = .ok () ∧ token "BTC" = .ok () ∧
      token "USD" = .ok () :=
    ⟨rfl, rfl, rfl, rfl⟩
  obtain ⟨hmkt, hsym, hbase, hquote⟩ := htokens
  refine (bind_of_ok hmkt _).trans ?_
  refine (bind_of_ok hsym _).trans ?_
  refine (bind_of_ok hbase _).trans ?_
  refine (bind_of_ok hquote _).trans ?_
  refine (bind_of_ok hquote _).trans ?_
  rw [throwIf_of_not (by decide), ok_bind, throwIf_of_not (by decide), ok_bind]
  refine (bind_of_ok (marketDocument.digest (by decide) (fun _ => rfl)) _).trans ?_
  exact throwIf_of_not (by decide) _

theorem validateNormalization_execution : validateFillQuantityNormalization executionSha256 10000
    executionNormalization normalizedFill = .ok executionNormalization := by
  have hamounts : positive "4" = .ok "4" ∧ positive "0.25" = .ok "0.25" ∧
      positive "1" = .ok "1" :=
    ⟨rfl, rfl, rfl⟩
  have harithmetic : arithmetic executionNormalization = .ok () := by rfl
  obtain ⟨hinput, hfactor, houtput⟩ := hamounts
  rw [validateFillQuantityNormalization, throwIf_of_not (by decide), ok_bind]
  refine (bind_of_ok hinput _).trans ?_
  refine (bind_of_ok hfactor _).trans ?_
  refine (bind_of_ok houtput _).trans ?_
  rw [throwIf_of_not (by decide), ok_bind, harithmetic, ok_bind, originalBinding_execution,
    ok_bind, marketBinding_execution]
  rfl

theorem validateFill_execution : validateFill executionSha256 10000 normalizedFill =
    .ok normalizedFill := by
  have hcontract : validateFill executionSha256 10000 (executionFill "100") =
      .ok (executionFill "100") := by
    rfl
  have hnorm : optionally (checkNormalization executionSha256 10000 normalizedFill)
      normalizedFill.quantityNormalization = .ok () := by
    change checkNormalization _ _ _ executionNormalization = _
    rw [checkNormalization, validateNormalization_execution]
    rfl
  simp only [validateFill, bind_eq_ok, pure_eq_ok_iff] at hcontract ⊢
  obtain ⟨u1, h1, u2, h2, u3, h3, u4, h4, u5, h5, u6, h6, u7, h7, price, h8, quantity, h9, fee, h10,
    u11, h11, -, -, accounting, h13, -⟩ := hcontract
  exact ⟨u1, h1, u2, h2, u3, h3, u4, h4, u5, h5, u6, h6, u7, h7, price, h8, quantity, h9, fee, h10,
    u11, h11, (), hnorm, accounting, h13, trivial⟩

def firstDelivery : Delivery := delivered (executionFill "100")

def contraryDelivery : Delivery := delivered (executionFill "99")

def repeatedDelivery : Delivery := delivered normalizedFill

def executionStored : Database := deliver executionServices firstDelivery executionStart

theorem surroundings_first : executionStored.accounts = executionStart.accounts ∧
    executionStored.orders = executionStart.orders := by
  have hrows : executionStored.accounts.rows = executionStart.accounts.rows ∧
      executionStored.orders.rows = executionStart.orders.rows := by
    decide +kernel
  obtain ⟨haccs, hords⟩ := hrows
  exact ⟨Keyed.eq_of_rows haccs, Keyed.eq_of_rows hords⟩

set_option maxRecDepth 20000 in
theorem rows_first : executionStored.fills.rows.map core = [core storedExecution] := by
  rfl

theorem stored_first : ∃ row ∈ executionStored.fills.rows, row.identityStatus = .proven ∧
    core row = core storedExecution := by
  have hproven : ∀ row ∈ executionStored.fills.rows, row.identityStatus = .proven := by
    decide +kernel
  obtain ⟨row, hrow, hcore⟩ := List.mem_map.mp (rows_first ▸ List.mem_singleton_self _ :
    core storedExecution ∈ executionStored.fills.rows.map core)
  exact ⟨row, hrow, hproven row hrow, hcore⟩

theorem redelivery_execution {row : FillRow} {db : Database}
    (haccs : db.accounts = executionStart.accounts) (hords : db.orders = executionStart.orders)
    (hcore : core row = core storedExecution) :
    Redelivery executionServices repeatedDelivery row db := by
  refine redelivery_of_core hcore ?_
  refine {
    accepted := ⟨10000, le_refl _, validateFill_execution⟩
    account := ?_
    native := ⟨executionProof, ?_, rfl⟩
    same := ⟨executionOrder, ?_, ?_⟩
    read := ?_ }
  · unfold assertFillAccount
    rw [haccs]
    rfl
  · exact provenFillIdentity_execution
  · unfold managedOrder correlatedOrder
    rw [hords]
    rfl
  · rfl
  · intro normalization hnorm
    obtain rfl := Option.some.inj hnorm
    refine ⟨⟨9900, 10100, [], "\x7b\x7d"⟩, (accountDigest, accountDigest), ?_, ?_, ?_⟩
    · rfl
    · rfl
    · unfold assertBinding
      rw [haccs]
      rfl

theorem recordable_of_payload {services : Services} {d : Delivery} {event : ExchangeUnresolvedEvent}
    {payload : Evidence} (hev : economicEvidence event.evidence = .ok payload)
    (hlen : (payloadText payload).length ≤ 16384)
    (hhash : (services.sha256 (.ofList (payloadText payload))).toList.length = 64) :
    Recordable services d event := by
  rw [Recordable, evidenceRow, hev, ok_bind]
  exact ⟨_, bind_of_ok (throwIf_of_not (by simp [hhash, hlen]) _) _⟩

def recordableText (event : ExchangeUnresolvedEvent) : Bool :=
  (economicEvidence event.evidence).toOption.any (fun payload =>
    (payloadText payload).length ≤ 16384)

theorem recordable_execution {event : ExchangeUnresolvedEvent} (h : recordableText event = true) :
    Recordable executionServices contraryDelivery event := by
  obtain ⟨payload, hev, hsize⟩ := exists_ok_of_any h
  exact recordable_of_payload hev (of_decide_eq_true hsize) (executionSha256_length _)

theorem conflictEvidence_execution : ∃ stored received,
    conflictEvidence storedExecution (identifiedFill (executionFill "99") (some executionProof))
      executionStart = .ok (stored, received) ∧ recordableText stored = true ∧
        recordableText received = true := by
  have hev : (conflictEvidence storedExecution (identifiedFill (executionFill "99")
      (some executionProof)) executionStart).toOption.any (fun pair =>
        recordableText pair.1 && recordableText pair.2) = true := by
    decide +kernel
  obtain ⟨pair, hconf, hboth⟩ := exists_ok_of_any hev
  obtain ⟨hstored, hreceived⟩ := Bool.and_eq_true_iff.mp hboth
  exact ⟨pair.1, pair.2, hconf, hstored, hreceived⟩

theorem contradicts_execution {row : FillRow} {db : Database}
    (haccs : db.accounts = executionStart.accounts) (hords : db.orders = executionStart.orders)
    (hcore : core row = core storedExecution) :
    Contradicts executionServices contraryDelivery row db := by
  refine contradicts_of_core hcore ?_
  obtain ⟨stored, received, hev, hstored, hreceived⟩ := conflictEvidence_execution
  refine ⟨executionProof, executionOrder, stored, received, ?_, rfl, ?_, ?_, ?_, ?_,
    recordable_execution hstored, recordable_execution hreceived⟩
  · have hproven : (provenFillIdentity executionAccount (executionFill "99")) =
        .ok (some executionProof) := by
      rfl
    exact hproven
  · unfold assertFillAccount
    rw [haccs]
    rfl
  · unfold managedOrder correlatedOrder
    rw [hords]
    rfl
  · rfl
  · rw [← hev]
    unfold conflictEvidence
    rw [hords]
    rfl

theorem run_single (services : Services) (d : Delivery) (db : Database) :
    run services [.deliver d] db = deliver services d db := rfl

theorem run_pair (services : Services) (d e : Delivery) (db : Database) :
    run services [.deliver d, .deliver e] db = deliver services e (deliver services d db) := rfl

theorem repeated_fill_returns_execution : ∃ row ∈ executionStored.fills.rows, ∃ result next,
    row.identityStatus = .proven ∧
      persistCorrelatedFill executionServices repeatedDelivery executionStored =
        .ok (result, next) ∧
        result.inserted = false := by
  obtain ⟨row, hrow, hstatus, hcore⟩ := stored_first
  obtain ⟨haccs, hords⟩ := surroundings_first
  have hrun : run executionServices [.deliver firstDelivery] executionStart = executionStored := by
    rw [run_single, ← executionStored]
  rw [← hrun] at hrow haccs hords ⊢
  obtain ⟨result, next, hreturns⟩ := (repeated_fill_returns executionServices
    executionSha256_length executionStart (by simp [executionStart]) [.deliver firstDelivery] [] row
    hrow repeatedDelivery (redelivery_execution haccs hords hcore)).mpr (by
      refine ⟨by decide, ?_⟩
      intro normalization hnorm
      obtain rfl := Option.some.inj hnorm
      refine ⟨hstatus, ?_, ?_, ⟨observationDigest, ?_⟩, ?_⟩
      · intro before d after hsplit
        simp at hsplit
      · rw [SameOriginal, core_raw hcore]
        rfl
      · have hid : row.id = "fill" := core_id hcore
        rw [hid]
        exact observationDocument.digest (by decide) (fun _ => rfl)
      · intro acquisition hread
        obtain rfl := Except.ok.inj hread
        decide +kernel)
  exact ⟨row, hrow, result, next, hstatus, hreturns⟩

/-- Between two deliveries of the execution another price is reported for it: the second one
throws. -/
theorem repeated_fill_blocked : ∃ row ∈ executionStored.fills.rows,
    Redelivery executionServices repeatedDelivery row
        (run executionServices [.deliver firstDelivery, .deliver contraryDelivery] executionStart) ∧
      ¬ ∃ result next, persistCorrelatedFill executionServices repeatedDelivery
        (run executionServices [.deliver firstDelivery, .deliver contraryDelivery] executionStart) =
          .ok (result, next) ∧ result.inserted = false := by
  obtain ⟨row, hrow, -, hcore⟩ := stored_first
  obtain ⟨haccs, hords⟩ := surroundings_first
  have hfind := Keyed.find_eq_some.mpr ⟨hrow, rfl⟩
  have hcontra := contradicts_execution haccs hords hcore
  obtain ⟨hlaterAccounts, hlaterOrders⟩ := deliver_surroundings hfind hcontra
  have hagain := redelivery_execution (hlaterAccounts.trans haccs) (hlaterOrders.trans hords)
    hcore
  have hproper : Proper executionStored :=
    deliver_proper (proper_of_unkeyed (by simp [executionStart]))
  have hsent : repeatedDelivery.fill.quantityNormalization = some executionNormalization := rfl
  have hblocked := @blocked_of_contradicts executionServices contraryDelivery repeatedDelivery row
    executionStored executionNormalization executionSha256_length hproper hfind hcontra hagain hsent
  rw [run_pair, ← executionStored]
  exact ⟨row, hrow, hagain, hblocked⟩

end Execution
end TsxCore.FillRedelivery
