import TsxCore.DecimalBounds
import TsxCore.FxConversions
import TsxCore.FxReceiptAgreement

/-!
# What a valid receipt is

A receipt that the contract accepts is accepted again at any later reading of the
clock, its value is a positive decimal, and under an injective `sha256` its hash
determines its leg, its response time and its value.
-/

namespace TsxCore.TradingFxQuotes

open Outcome TradingDecimal TradingFx
open FxReceipt (fxEvidenceDigest_ok sorted_eq_of_text)

variable {sha256 : String → String} {now now' : ℤ} {context : FxContext} {value : Json ℚ}
  {row other : FxLegReceipt} {members : List (String × Json ℚ)}

theorem object_eq_ok : TradingFx.object value = .ok members ↔ value = .object members := by
  cases value <;> simp [TradingFx.object]

/-- The checks behind a valid receipt; only the times read the clock. -/
structure Valid (sha256 : String → String) (now : ℤ) (context : FxContext) (row : FxLegReceipt) :
    Prop where
  shape : joinedKeys (row.members.map (·.1)) = receiptShape
  profile : validateProfile context row.members = .ok ()
  leg : validateLeg row.members = .ok ()
  times : validateTimes now row.members = .ok ()
  envelope : validateEnvelope sha256 row.members = .ok ()
  hash : ∃ digest, fxEvidenceDigest sha256 "bybit-fx-receipt-v1" (.object (original row.members)) =
    .ok digest ∧ textField "receiptHash" row.members = some digest

theorem validReceipt_eq_ok :
    validReceipt sha256 now context value = .ok row ↔
      value = row.json ∧ Valid sha256 now context row := by
  simp only [validReceipt, validateFxLegReceipt, bind_eq_ok, throwIf_eq_ok, pure_eq_ok_iff,
    object_eq_ok, not_not, exists_const]
  refine ⟨?_, ?_⟩
  · intro h
    obtain ⟨_, ⟨members, hvalue, hshape, ⟨⟩, hprof, ⟨⟩, hleg, ⟨⟩, htimes, ⟨⟩, henv, digest,
      hdig, hhash, rfl⟩, rfl⟩ := h
    exact ⟨hvalue, hshape, hprof, hleg, htimes, henv, digest, hdig, hhash⟩
  · intro h
    obtain ⟨hvalue, hshape, hprof, hleg, htimes, henv, digest, hdig, hhash⟩ := h
    exact ⟨row.members, ⟨row.members, hvalue, hshape, (), hprof, (), hleg, (), htimes, (),
      henv, digest, hdig, hhash, rfl⟩, rfl⟩

theorem Valid.validReceipt (h : Valid sha256 now context row) :
    validReceipt sha256 now context row.json = .ok row := validReceipt_eq_ok.mpr ⟨rfl, h⟩

theorem validateTimes_later (hle : now ≤ now') (h : validateTimes now members = .ok ()) :
    validateTimes now' members = .ok () := by
  simp only [validateTimes, bind_eq_ok, throwIf_eq_ok, exists_const] at h ⊢
  obtain ⟨hbasis, startedAt, hstart, completedAt, hdone, responseAt, hresponse, htimes⟩ := h
  refine ⟨hbasis, startedAt, hstart, completedAt, hdone, responseAt, hresponse, ?_⟩
  omega

theorem Valid.later (hle : now ≤ now') (h : Valid sha256 now context row) :
    Valid sha256 now' context row :=
  ⟨h.shape, h.profile, h.leg, validateTimes_later hle h.times, h.envelope, h.hash⟩

theorem text_of_textField {key text : String} (h : textField key row.members = some text) :
    row.text key = text := by
  rw [FxLegReceipt.text, h, Option.getD_some]

theorem Valid.digest (h : Valid sha256 now context row) :
    fxEvidenceDigest sha256 "bybit-fx-receipt-v1" (.object (original row.members)) =
      .ok row.receiptHash := by
  obtain ⟨digest, hdig, hhash⟩ := h.hash
  rw [FxLegReceipt.receiptHash, text_of_textField hhash, hdig]

theorem Valid.positive (h : Valid sha256 now context row) : ∃ u, Denotes row.value u ∧ 0 < u := by
  have hleg := h.leg
  unfold validateLeg at hleg
  split at hleg
  · rename_i definition value hdefinition hvalue
    simp only [bind_eq_ok, throwIf_eq_ok, exists_const, not_or, Bool.not_eq_true,
      Bool.not_eq_false] at hleg
    obtain ⟨-, hspace, hpositive⟩ := hleg
    unfold positiveDecimal at hpositive
    split at hpositive
    · rename_i normalized hdec
      obtain ⟨u, hu, hpos, -⟩ := decimal_positive_ok_iff.mp hdec
      refine ⟨u, ?_, hpos⟩
      rw [FxLegReceipt.value, text_of_textField hvalue, ← trim_of_hasSpace_false hspace]
      exact hu
    · cases hpositive
  · cases hleg

theorem Valid.denotes (h : Valid sha256 now context row) : ∃ u, Denotes row.value u := by
  obtain ⟨u, hu, -⟩ := h.positive
  exact ⟨u, hu⟩

theorem compare_valid {context' : FxContext} (h : Valid sha256 now context row)
    (h' : Valid sha256 now' context' other) :
    ∃ order, compareDecimal row.value other.value = .ok order := by
  obtain ⟨u, hu⟩ := h.denotes
  obtain ⟨v, hv⟩ := h'.denotes
  exact ⟨_, compareDecimal_ok_iff.mpr ⟨u, v, hu, hv, rfl⟩⟩

section Identity

variable {members left right : List (String × Json ℚ)} {context' : FxContext}

theorem lookup_of_mem {key : String} {value : Json ℚ} (hnodup : (members.map (·.1)).Nodup)
    (h : (key, value) ∈ members) : Json.lookup key members = some value := by
  cases hfind : members.find? (fun member => member.1 = key) with
  | none => simpa using List.find?_eq_none.mp hfind _ h
  | some member =>
    have hkey : member.1 = key := by simpa using List.find?_some hfind
    have hsame := List.inj_on_of_nodup_map hnodup (List.mem_of_find?_eq_some hfind) h hkey
    rw [Json.lookup, hfind, hsame, Option.map_some]

theorem lookup_sorted (hleft : (left.map (·.1)).Nodup) (hright : (right.map (·.1)).Nodup)
    (h : Json.sorted (.object left) = Json.sorted (.object right)) (key : String) :
    (Json.lookup key left).map Json.sorted = (Json.lookup key right).map Json.sorted := by
  have hforward : ∀ {left right : List (String × Json ℚ)}, (left.map (·.1)).Nodup →
      Json.sorted (.object left) = Json.sorted (.object right) → ∀ value,
      Json.lookup key right = some value → ∃ same, Json.lookup key left = some same ∧
        same.sorted = value.sorted := by
    intro left right hleft h value hvalue
    rw [Json.sorted_object, Json.sorted_object, Json.object.injEq] at h
    have hmem : (key, value.sorted) ∈
        (Json.byKey right).map (fun member => (member.1, member.2.sorted)) :=
      List.mem_map.mpr ⟨(key, value), Json.mem_byKey.mpr (Json.mem_of_lookup hvalue), rfl⟩
    rw [← h] at hmem
    obtain ⟨⟨name, same⟩, hsame, heq⟩ := List.mem_map.mp hmem
    obtain ⟨rfl, hsort⟩ := Prod.mk.inj heq
    exact ⟨same, lookup_of_mem hleft (Json.mem_byKey.mp hsame), hsort⟩
  cases hr : Json.lookup key right with
  | some value =>
    obtain ⟨same, hsame, hsort⟩ := hforward hleft h value hr
    rw [hsame, Option.map_some, Option.map_some, hsort]
  | none =>
    cases hl : Json.lookup key left with
    | none => rfl
    | some value =>
      obtain ⟨same, hsame, -⟩ := hforward hright h.symm value hl
      rw [hr] at hsame
      cases hsame

theorem text?_sorted (value : Json ℚ) : value.sorted.text? = value.text? := by
  cases value <;> rfl

theorem number?_sorted (value : Json ℚ) : value.sorted.number? = value.number? := by
  cases value <;> rfl

theorem sorted_of_digest {domain digest : String} {left right : Json ℚ}
    (hinj : Function.Injective sha256)
    (hleft : fxEvidenceDigest sha256 domain left = .ok digest)
    (hright : fxEvidenceDigest sha256 domain right = .ok digest) : left.sorted = right.sorted := by
  obtain ⟨hadm, hdig⟩ := fxEvidenceDigest_ok hleft
  obtain ⟨hadm', hdig'⟩ := fxEvidenceDigest_ok hright
  have htext := hinj (hdig.symm.trans hdig')
  rw [String.append_right_inj, String.ofList_inj] at htext
  exact sorted_eq_of_text hadm hadm' htext

theorem fields_of_digest {domain digest : String} (hinj : Function.Injective sha256)
    (hleft : (left.map (·.1)).Nodup) (hright : (right.map (·.1)).Nodup)
    (hl : fxEvidenceDigest sha256 domain (.object left) = .ok digest)
    (hr : fxEvidenceDigest sha256 domain (.object right) = .ok digest) (key : String) :
    textField key left = textField key right ∧ numberField key left = numberField key right := by
  have hlook := lookup_sorted hleft hright (sorted_of_digest hinj hl hr) key
  have hsame : ∀ {α : Type} (f : Json ℚ → Option α), (∀ value, f value.sorted = f value) →
      (Json.lookup key left).bind f = (Json.lookup key right).bind f := by
    intro α f hf
    have hmap := congrArg (fun found : Option (Json ℚ) => found.bind f) hlook
    simp only [Option.bind_map, Function.comp_def, hf] at hmap
    exact hmap
  exact ⟨hsame _ text?_sorted, hsame _ number?_sorted⟩

theorem lookup_original {key : String} (hkey : key ≠ "receiptHash") :
    Json.lookup key (original members) = Json.lookup key members := by
  rw [Json.lookup, Json.lookup, original, List.find?_filter]
  congr 1
  refine List.find?_congr ?_
  intro member _
  by_cases h : member.1 = key
  · simp [h, hkey]
  · simp [h]

theorem members_of_receiptHash (hinj : Function.Injective sha256) (hrow : row.json.Distinct)
    (hother : other.json.Distinct) (h : Valid sha256 now context row)
    (h' : Valid sha256 now' context' other) (hsame : row.receiptHash = other.receiptHash) :
    ∀ key ≠ "receiptHash", textField key row.members = textField key other.members ∧
      numberField key row.members = numberField key other.members := by
  have hnodup : ∀ {row : FxLegReceipt}, row.json.Distinct →
    ((original row.members).map (·.1)).Nodup :=
    fun hrow => hrow.1.sublist (List.filter_sublist.map _)
  intro key hkey
  have hd := h.digest
  rw [hsame] at hd
  have hboth := fields_of_digest hinj (hnodup hrow) (hnodup hother) hd h'.digest key
  simpa only [textField, numberField, lookup_original hkey] using hboth

theorem fields_of_receiptHash (hinj : Function.Injective sha256) (hrow : row.json.Distinct)
    (hother : other.json.Distinct) (h : Valid sha256 now context row)
    (h' : Valid sha256 now' context' other) (hsame : row.receiptHash = other.receiptHash) :
    row.legId = other.legId ∧ row.providerResponseAt = other.providerResponseAt ∧
      row.value = other.value := by
  have hflds := members_of_receiptHash hinj hrow hother h h' hsame
  refine ⟨?_, ?_, ?_⟩
  · rw [FxLegReceipt.legId, FxLegReceipt.text, (hflds _ (by decide)).1]
    rfl
  · rw [FxLegReceipt.providerResponseAt, FxLegReceipt.integer, (hflds _ (by decide)).2]
    rfl
  · rw [FxLegReceipt.value, FxLegReceipt.text, (hflds _ (by decide)).1]
    rfl

theorem Valid.profiled (h : Valid sha256 now context row) :
    textField "mode" row.members = some context.mode ∧
      textField "profileHash" row.members = some context.profileHash := by
  have hprof := h.profile
  simp only [validateProfile, bind_eq_ok, throwIf_eq_ok, not_or, not_not, exists_const] at hprof
  exact ⟨hprof.2.2.1, hprof.2.2.2.1⟩

theorem profile_of_receiptHash (hinj : Function.Injective sha256) (hrow : row.json.Distinct)
    (hother : other.json.Distinct) (h : Valid sha256 now context row)
    (h' : Valid sha256 now' context' other) (hsame : row.receiptHash = other.receiptHash) :
    context = context' := by
  have hflds := members_of_receiptHash hinj hrow hother h h' hsame
  obtain ⟨mode, profileHash⟩ := context
  obtain ⟨mode', profileHash'⟩ := context'
  have hmode := (hflds "mode" (by decide)).1
  have hprof := (hflds "profileHash" (by decide)).1
  rw [h.profiled.1, h'.profiled.1] at hmode
  rw [h.profiled.2, h'.profiled.2] at hprof
  exact congrArg₂ FxContext.mk (Option.some.inj hmode) (Option.some.inj hprof)

end Identity

end TsxCore.TradingFxQuotes
