import TsxCore.FxConversionSelection
import TsxCore.TradingFxRepository

/-!
# Stored receipts

A row of `trading_fx_receipts` stays sound from the moment it is captured: it decodes
for its account at every later reading of the clock. Under an injective `sha256` a
captured receipt is found in the table, whether its row is new or was there before.
-/

namespace TsxCore.TradingFxRepository

open Outcome TradingDecimal TradingFxQuotes
open TradingFx (FxContext fxEvidenceDigest)
open TradingRecoveryScheduleContract (digestPattern)

variable {sha256 : String → String} {now clock : ℤ} {account account' : FxAccount}
  {db after : Database}

section Identity

variable {id : String}

/-- The account that owns a row, as far as the digests read it. -/
def owner (accountId accountFingerprint credentialGeneration : String) : FxAccount where
  id := accountId
  exchange := ""
  mode := ""
  externalAccountId := some accountFingerprint
  credentialGeneration := some credentialGeneration
  executionProfileHash := none

structure SameBinding (account account' : FxAccount) : Prop where
  id : account.id = account'.id
  fingerprint : account.externalAccountId = account'.externalAccountId
  generation : account.credentialGeneration = account'.credentialGeneration

theorem SameBinding.binding (h : SameBinding account account') :
    binding account = binding account' := by
  rw [TradingFxRepository.binding, TradingFxRepository.binding, h.id, h.fingerprint, h.generation]

theorem SameBinding.receiptId (h : SameBinding account account') (hash : String) :
    receiptId sha256 account hash = receiptId sha256 account' hash := by
  rw [TradingFxRepository.receiptId, TradingFxRepository.receiptId, h.binding]

theorem SameBinding.conversionId (h : SameBinding account account') (hash : String) :
    conversionId sha256 account hash = conversionId sha256 account' hash := by
  rw [TradingFxRepository.conversionId, TradingFxRepository.conversionId, h.binding]

theorem binding_ok {members : List (String × Json ℚ)} (h : binding account = .ok members) :
    ∃ fingerprint generation, account.externalAccountId = some fingerprint ∧
      account.credentialGeneration = some generation ∧
      members = [("accountId", .string account.id), ("accountFingerprint", .string fingerprint),
        ("credentialGeneration", .string generation)] := by
  unfold binding at h
  split at h
  · rename_i fingerprint generation hfp hgen
    simp only [bind_eq_ok, throwIf_eq_ok, pure_eq_ok_iff, exists_const] at h
    exact ⟨fingerprint, generation, hfp, hgen, h.2.symm⟩
  · cases h

theorem bound_injective {domain key value value' : String} (hinj : Function.Injective sha256)
    (hkey : key ∉ ["accountId", "accountFingerprint", "credentialGeneration"]) (h : (binding account
    >>= fun members => fxEvidenceDigest sha256 domain (.object (members ++ [(key, .string value)]))
    ) = .ok id) (h' : (binding account' >>= fun members => fxEvidenceDigest sha256 domain
    (.object (members ++ [(key, .string value')])) ) = .ok id) :
    SameBinding account account' ∧ value = value' := by
  obtain ⟨_, hbind, hdig⟩ := bind_eq_ok.mp h
  obtain ⟨_, hbind', hdig'⟩ := bind_eq_ok.mp h'
  obtain ⟨fingerprint, generation, hfp, hgen, rfl⟩ := binding_ok hbind
  obtain ⟨fingerprint', generation', hfp', hgen', rfl⟩ := binding_ok hbind'
  have hflds := fields_of_digest hinj (by simp_all [eq_comm]) (by simp_all [eq_comm])
    hdig hdig'
  simp only [List.mem_cons, List.not_mem_nil, or_false, not_or] at hkey
  have hid := (hflds "accountId").1
  have hfirst := (hflds "accountFingerprint").1
  have hsnd := (hflds "credentialGeneration").1
  have hlast := (hflds key).1
  simp [TradingFx.textField, Json.lookup, Json.text?] at hid hfirst hsnd
  simp [TradingFx.textField, Json.lookup, Json.text?, Ne.symm hkey.1, Ne.symm hkey.2.1,
    Ne.symm hkey.2.2] at hlast
  exact ⟨⟨hid, by rw [hfp, hfp', hfirst], by
    rw [hgen, hgen', hsnd]⟩, hlast⟩

theorem receiptId_injective {hash hash' : String} (hinj : Function.Injective sha256)
    (h : receiptId sha256 account hash = .ok id) (h' : receiptId sha256 account' hash' = .ok id) :
    SameBinding account account' ∧ hash = hash' :=
  bound_injective hinj (by decide) h h'

theorem conversionId_injective {hash hash' : String} (hinj : Function.Injective sha256)
    (h : conversionId sha256 account hash = .ok id)
    (h' : conversionId sha256 account' hash' = .ok id) :
    SameBinding account account' ∧ hash = hash' :=
  bound_injective hinj (by decide) h h'

end Identity

section Rows

variable {row : ReceiptRow}

def ReceiptRow.receipt (row : ReceiptRow) : FxLegReceipt := ⟨objectMembers row.payload⟩

def ReceiptRow.owner (row : ReceiptRow) : FxAccount :=
  TradingFxRepository.owner row.accountId row.accountFingerprint row.credentialGeneration

def ReceiptRow.context (row : ReceiptRow) : FxContext := ⟨row.mode, row.profileHash⟩

structure ReceiptSound (sha256 : String → String) (clock : ℤ) (row : ReceiptRow) : Prop where
  payload : row.payload = row.receipt.json
  distinct : row.payload.Distinct
  valid : Valid sha256 clock row.context row.receipt
  id : receiptId sha256 row.owner row.receiptHash = .ok row.id
  receiptHash : row.receiptHash = row.receipt.receiptHash
  legId : row.legId = row.receipt.legId
  providerResponseAt : row.providerResponseAt = row.receipt.providerResponseAt
  window : assertWindow row.receipt ⟨row.acquisitionStartedAt, row.acquisitionCompletedAt⟩ = .ok ()

section Reading

variable {context : FxContext}

theorem ReceiptSound.later (hle : clock ≤ now) (h : ReceiptSound sha256 clock row) :
    ReceiptSound sha256 now row :=
  { h with valid := h.valid.later hle }

theorem ofAccount_iff : ofAccount account context row = true ↔
    SameBinding account row.owner ∧ row.context = context := by
  obtain ⟨mode, profileHash⟩ := context
  simp only [ofAccount, ReceiptRow.context, FxContext.mk.injEq, Bool.and_eq_true, decide_eq_true_eq]
  refine ⟨?_, ?_⟩
  · intro h
    obtain ⟨⟨⟨⟨hid, hfp⟩, hgen⟩, hmode⟩, hprof⟩ := h
    exact ⟨⟨hid.symm, hfp.symm, hgen.symm⟩, hmode, hprof⟩
  · intro h
    obtain ⟨⟨hid, hfp, hgen⟩, hmode, hprof⟩ := h
    exact ⟨⟨⟨⟨hid.symm, hfp.symm⟩, hgen.symm⟩, hmode⟩, hprof⟩

theorem decodeReceipt_sound (h : ReceiptSound sha256 now row)
    (hacc : ofAccount account context row = true) :
    decodeReceipt sha256 now account context row = .ok row.receipt := by
  obtain ⟨hbind, rfl⟩ := ofAccount_iff.mp hacc
  have hid : receiptId sha256 account row.receipt.receiptHash = .ok row.id := by
    rw [hbind.receiptId, ← h.receiptHash, h.id]
  have hread : validReceipt sha256 now row.context row.payload = .ok row.receipt := by
    rw [h.payload]
    exact h.valid.validReceipt
  rw [decodeReceipt, hread, ok_bind, throwIf_of_not (by simp [hacc]), ok_bind, hid, ok_bind,
    throwIf_of_not (by simp [h.receiptHash, h.legId, h.providerResponseAt]), ok_bind, h.window]
  rfl

theorem mapM_decodeReceipt {rows : List ReceiptRow} (h : ∀ row ∈ rows, ReceiptSound sha256 now row)
    (hacc : ∀ row ∈ rows, ofAccount account context row = true) :
    rows.mapM (decodeReceipt sha256 now account context) = .ok (rows.map ReceiptRow.receipt) := by
  rw [mapM_eq_ok, List.forall₂_map_right_iff, List.forall₂_same]
  exact fun row hrow => decodeReceipt_sound (h row hrow) (hacc row hrow)

end Reading

end Rows

section Account

variable {context : FxContext}

structure Verified (now : ℤ) (account : FxAccount) (current : AccountRow) (context : FxContext) :
    Prop where
  fingerprint : account.externalAccountId = current.externalAccountId
  generation : account.credentialGeneration = current.credentialGeneration
  pattern : current.externalAccountId.any digestPattern = true ∧
    current.credentialGeneration.any digestPattern = true
  mode : context.mode = current.mode
  knownMode : current.mode = "live" ∨ current.mode = "testnet"
  profile : some context.profileHash = profileHashOf current.capabilities

theorem requireFxAccountContext_ok (h : requireFxAccountContext now account db = .ok context) :
    ∃ current, db.accounts.find account.id = some current ∧
      Verified now account current context := by
  unfold requireFxAccountContext at h
  split at h
  · cases h
  · rename_i current hcur
    simp only [profileContext, bind_eq_ok, throwIf_eq_ok, pure_eq_ok_iff, exists_const, not_or,
      not_not, Bool.not_eq_false] at h
    obtain ⟨⟨-, -, hmode, -, hfp, hgen, hfirst, hsnd⟩, ⟨-, -, hprof, -⟩, rfl⟩ := h
    refine ⟨current, hcur, hfp, hgen, ⟨hfirst, hsnd⟩, rfl, ?_, ?_⟩
    · by_contra hunknown
      exact hmode (not_or.mp hunknown)
    · cases hhash : profileHashOf current.capabilities with
      | none => simp [hhash] at hprof
      | some hash => rfl

theorem exists_of_any {o : Option String} {p : String → Bool} (h : o.any p = true) :
    ∃ text, o = some text ∧ p text = true := by
  cases o with
  | none => cases h
  | some text => exact ⟨text, rfl, h⟩

theorem Verified.exists {current : AccountRow} (h : Verified now account current context) :
    ∃ fingerprint generation, account.externalAccountId = some fingerprint ∧
      account.credentialGeneration = some generation := by
  obtain ⟨fingerprint, hfp, -⟩ := exists_of_any h.pattern.1
  obtain ⟨generation, hgen, -⟩ := exists_of_any h.pattern.2
  exact ⟨fingerprint, generation, h.fingerprint.trans hfp, h.generation.trans hgen⟩

end Account

end TsxCore.TradingFxRepository
