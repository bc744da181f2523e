import TsxCore.FxReceiptStore

/-!
# Stored conversions

A stored conversion keeps the receipts it was derived from: its references are their
rows in the order of the ordinals, and they derive the stored payload at every later
reading of the clock. So a read of a sound conversion is the check for contradicting
receipts and the payload.
-/

namespace TsxCore.TradingFxRepository

open Outcome TradingDecimal TradingFxQuotes
open TradingFx (FxContext fxEvidenceDigest)

variable {sha256 : String → String} {now clock clock' : ℤ} {account : FxAccount}
  {context : FxContext} {db after : Database} {row : ConversionRow} {originals : List ReceiptRow}

def ConversionRow.owner (row : ConversionRow) : FxAccount :=
  TradingFxRepository.owner row.accountId row.accountFingerprint row.credentialGeneration

def contextOf (conversion : FxConversionEvidence) : FxContext :=
  ⟨modeText conversion.mode, conversion.profileHash⟩

def referencesTo (accountId id : String) (originals : List ReceiptRow) : List ReferenceRow :=
  originals.zipIdx.map (fun entry => ⟨accountId, id, entry.1.id, entry.2⟩)

structure ConversionSound (sha256 : String → String) (clock : ℤ) (db : Database)
    (row : ConversionRow) (originals : List ReceiptRow) : Prop where
  nonempty : originals ≠ []
  length : originals.length ≤ 3
  mem : ∀ original ∈ originals, original ∈ db.receipts.rows
  binding : ∀ original ∈ originals, SameBinding row.owner original.owner
  context : ∀ original ∈ originals, original.context = contextOf row.payload
  references : db.references.rows.filter (fun reference => reference.conversionId = row.id) =
    referencesTo row.accountId row.id originals
  hashes : originals.map (·.receiptHash) = row.payload.receiptHashes
  derives : ∀ now ≥ clock, deriveFxConversion sha256 now
    (originals.map (fun original => original.receipt.json)) row.payload.baseAsset
    row.payload.quoteAsset row.payload.asOf (contextOf row.payload) = .ok row.payload
  evidence : row.evidenceHash = row.payload.evidenceHash
  digest : conversionDigest sha256 row.payload.toFxConversion = .ok row.payload.evidenceHash
  id : conversionId sha256 row.owner row.evidenceHash = .ok row.id

theorem ConversionSound.mono (h : ConversionSound sha256 clock db row originals)
    (hle : clock ≤ clock') (hrecs : ∀ r ∈ db.receipts.rows, r ∈ after.receipts.rows)
    (hrefs : after.references.rows.filter (fun reference => reference.conversionId = row.id) =
      db.references.rows.filter (fun reference => reference.conversionId = row.id)) :
    ConversionSound sha256 clock' after row originals :=
  { h with
    mem := fun original horig => hrecs original (h.mem original horig)
    references := hrefs.trans h.references
    derives := fun now hnow => h.derives now (hle.trans hnow) }

section Reading

theorem mem_referencesTo {accountId id : String} {reference : ReferenceRow}
    (h : reference ∈ referencesTo accountId id originals) :
    reference.accountId = accountId ∧ reference.conversionId = id := by
  obtain ⟨entry, -, rfl⟩ := List.mem_map.mp h
  exact ⟨rfl, rfl⟩

theorem pairwise_zipIdx {α : Type} (as : List α) (n : ℕ) :
    (as.zipIdx n).Pairwise (fun a b => a.2 ≤ b.2) := by
  have hindices : ((as.zipIdx n).map Prod.snd).Pairwise (· ≤ ·) := by
    rw [List.zipIdx_map_snd]
    exact List.pairwise_le_range'
  exact List.pairwise_map.mp hindices

theorem filterMap_referencesTo {accountId id : String} {f : ReferenceRow → Option ReceiptRow}
    (hf : ∀ original ∈ originals, ∀ n, f ⟨accountId, id, original.id, n⟩ = some original) :
    (referencesTo accountId id originals).filterMap f = originals := by
  rw [referencesTo, List.filterMap_map]
  have hfst : ∀ entry ∈ originals.zipIdx,
      (f ∘ fun entry : ReceiptRow × ℕ => ⟨accountId, id, entry.1.id, entry.2⟩) entry =
        some entry.1 := by
    intro entry hentry
    refine hf entry.1 ?_ entry.2
    have hmem := List.mem_map_of_mem (f := Prod.fst) hentry
    rwa [List.zipIdx_map_fst] at hmem
  rw [List.filterMap_congr hfst, List.filterMap_eq_map', List.zipIdx_map_fst]

theorem referencedReceipts_sound (h : ConversionSound sha256 clock db row originals) :
    referencedReceipts row.accountId row.id db = originals := by
  have hfilt : db.references.rows.filter (fun reference =>
      reference.conversionId = row.id && reference.accountId = row.accountId) =
        referencesTo row.accountId row.id originals := by
    have hall : ∀ reference ∈ referencesTo row.accountId row.id originals,
        decide (reference.accountId = row.accountId) = true := by
      intro reference href
      simpa using (mem_referencesTo href).1
    rw [← List.filter_eq_self.mpr hall, ← h.references, List.filter_filter]
    congr 1
    funext reference
    exact Bool.and_comm _ _
  have hsort : (referencesTo row.accountId row.id originals).Pairwise
      (fun a b => a.ordinal ≤ b.ordinal) :=
    List.pairwise_map.mpr (pairwise_zipIdx originals 0)
  rw [referencedReceipts, hfilt, hsort.insertionSort_eq, filterMap_referencesTo,
    List.take_of_length_le]
  · have := h.length
    omega
  · intro original horig n
    have hmem := h.mem original horig
    have howner := (h.binding original horig).id
    cases hfind : db.receipts.rows.find? (fun receipt =>
        receipt.id = original.id && receipt.accountId = row.accountId) with
    | none =>
      have hnone := List.find?_eq_none.mp hfind original hmem
      simp [show original.accountId = row.accountId from howner.symm] at hnone
    | some found =>
      have hfound := List.find?_some hfind
      simp only [Bool.and_eq_true, decide_eq_true_eq] at hfound
      rw [List.inj_on_of_nodup_map db.receipts.nodup (List.mem_of_find?_eq_some hfind) hmem
        hfound.1]

/-- The last steps of a read: contradicting receipts, then the digest of the payload. -/
def finishRead (sha256 : String → String) (now : ℤ) (account : FxAccount) (context : FxContext)
    (db : Database) (row : ConversionRow) (originals : List ReceiptRow) :
    Outcome StoredFxConversion := do
  (originals.map ReceiptRow.receipt).forM
    (assertNoContradictedOriginal sha256 now account context db)
  let _ ← evidenceDigest sha256 row.payload
  return ⟨row.id, row.payload⟩

theorem readFxConversion_sound (h : ConversionSound sha256 clock db row originals)
    (hle : clock ≤ now)
    (hrecs : ∀ r ∈ db.receipts.rows, ReceiptSound sha256 now r)
    (hfind : db.conversions.find row.id = some row) (hbind : SameBinding account row.owner)
    (hctx : requireFxAccountContext now account db = .ok context)
    (hsame : context = contextOf row.payload) :
    readFxConversion sha256 now account row.id db =
      finishRead sha256 now account context db row originals := by
  have hid : row.accountId = account.id := hbind.id.symm
  have howned : (some row).filter (fun row => row.accountId = account.id &&
      some row.accountFingerprint = account.externalAccountId &&
      some row.credentialGeneration = account.credentialGeneration) = some row := by
    rw [hbind.fingerprint, hbind.generation]
    simp [hid, ConversionRow.owner, owner]
  have hdecode : originals.mapM (decodeReceipt sha256 now account context) =
      .ok (originals.map ReceiptRow.receipt) := by
    refine mapM_decodeReceipt (fun r hr => hrecs r (h.mem r hr)) ?_
    intro r hr
    have hr' := h.binding r hr
    exact ofAccount_iff.mpr ⟨⟨hbind.id.trans hr'.id, hbind.fingerprint.trans hr'.fingerprint,
      hbind.generation.trans hr'.generation⟩, (h.context r hr).trans hsame.symm⟩
  have hpos := List.length_pos_iff.mpr h.nonempty
  have hlen := h.length
  have hder := h.derives now hle
  have hstored : conversionId sha256 account row.payload.evidenceHash = .ok row.id := by
    rw [hbind.conversionId, ← h.evidence, h.id]
  have hjson : (originals.map ReceiptRow.receipt).map FxLegReceipt.json =
      originals.map (fun original => original.receipt.json) := by
    rw [List.map_map]
    rfl
  have hreferenced : referencedReceipts account.id row.id db = originals := by
    rw [← hid]
    exact referencedReceipts_sound h
  subst hsame
  rw [readFxConversion, hctx, ok_bind, hfind, howned]
  simp only [hreferenced, hdecode, hjson, hder, ok_bind, hstored,
    throwIf_of_not (show ¬ (originals.length < 1 ∨ 3 < originals.length) by omega),
    throwIf_of_not (not_not.mpr h.evidence), throwIf_of_not (not_not.mpr (rfl : row.id = row.id))]
  rw [finishRead]
  cases (originals.map ReceiptRow.receipt).forM
      (assertNoContradictedOriginal sha256 now account (contextOf row.payload) db) with
  | error e => simp only [error_bind]
  | ok _ =>
    cases evidenceDigest sha256 row.payload with
    | error e => simp only [ok_bind, error_bind]
    | ok digest =>
      simp only [ok_bind, throwIf_of_not (not_not.mpr (rfl : digest = digest))]

end Reading

end TsxCore.TradingFxRepository
