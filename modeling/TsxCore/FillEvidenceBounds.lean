import TsxCore.ExchangeFillContract
import TsxCore.TradingEvidenceRepository

/-!
# The economic evidence of a delivered fill

`economicEvidence` throws on a text of more than 256 code units. A fill that passed the
contract has no such text but, possibly, its fee: a sign followed by spaces is accepted there.
-/

namespace TsxCore.FillEvidenceBounds

open Outcome TradingFillIdentity TradingFillTables TradingRemoteEvidence ExchangeFillContract

theorem mapM_returns_iff {α β : Type} {f : α → Outcome β} {as : List α} :
    (∃ bs, as.mapM f = .ok bs) ↔ ∀ a ∈ as, ∃ b, f a = .ok b := by
  refine ⟨?_, ?_⟩
  · intro h a ha
    obtain ⟨bs, hbs⟩ := h
    obtain ⟨b, -, hb⟩ := result_of_mem_mapM hbs ha
    exact ⟨b, hb⟩
  · intro h
    induction as with
    | nil => exact ⟨[], rfl⟩
    | cons a as ih =>
      obtain ⟨b, hb⟩ := h a List.mem_cons_self
      obtain ⟨bs, hbs⟩ := ih (fun a ha => h a (List.mem_cons_of_mem _ ha))
      refine ⟨b :: bs, ?_⟩
      rw [List.mapM_cons, bind_of_ok hb, bind_of_ok hbs]
      rfl

def BoundedValue (value : EvidenceValue) : Prop := ∀ text, value = .text text → Bounded text

theorem boundedItem_returns_iff {item : String × EvidenceValue} :
    (∃ result, boundedItem item = .ok result) ↔ BoundedValue item.2 := by
  obtain ⟨field, value⟩ := item
  cases value with
  | text value => simp [boundedItem, BoundedValue, Bounded]
  | null => simp [boundedItem, BoundedValue, pure, Except.pure]
  | boolean value => simp [boundedItem, BoundedValue, pure, Except.pure]
  | number value => simp [boundedItem, BoundedValue, pure, Except.pure]

theorem economicEvidence_returns_iff {record : Evidence} :
    (∃ evidence, economicEvidence record = .ok evidence) ↔
      ∀ field ∈ evidenceFields, ∀ value, lookup field record = some value → BoundedValue value := by
  rw [economicEvidence, mapM_returns_iff]
  simp only [boundedItem_returns_iff, List.mem_filterMap, Option.map_eq_some_iff]
  refine ⟨?_, ?_⟩
  · intro h field hfield value hvalue
    exact h (field, value) ⟨field, hfield, value, hvalue, rfl⟩
  · rintro h item ⟨field, hfield, value, hvalue, rfl⟩
    exact h field hfield value hvalue

theorem mem_of_lookup {record : Evidence} {field : String} {value : EvidenceValue}
    (h : lookup field record = some value) : (field, value) ∈ record := by
  obtain ⟨item, hfind, rfl⟩ := Option.map_eq_some_iff.mp h
  have hkey : item.1 = field := by simpa using List.find?_some hfind
  rw [← hkey]
  exact List.mem_of_find?_eq_some hfind

section Values

theorem boundedValue_text {value : String} (h : Bounded value) : BoundedValue (.text value) := by
  intro text htext
  cases htext
  exact h

theorem boundedValue_nullableText {value : Option String}
    (h : ∀ text, value = some text → Bounded text) : BoundedValue (nullableText value) := by
  cases value with
  | none =>
    intro text htext
    cases htext
  | some value => exact boundedValue_text (h value rfl)

theorem boundedValue_number (value : ℤ) : BoundedValue (.number value) := by
  intro text htext
  cases htext

theorem boundedValue_nullableNumber (value : Option ℤ) : BoundedValue (nullableNumber value) := by
  intro text htext
  cases value with
  | none => cases htext
  | some value => cases htext

theorem boundedValue_optional {field : String} {value : Option String}
    (h : ∀ text, value = some text → Bounded text) {item : String × EvidenceValue}
    (hitem : item ∈ optionalText field value) : BoundedValue item.2 := by
  cases value with
  | none => cases hitem
  | some value =>
    rw [optionalText, List.mem_singleton] at hitem
    rw [hitem]
    exact boundedValue_text (h value rfl)

structure BoundedIdentity (identity : ExchangeFillIdentity) : Prop where
  profile : Bounded identity.profile
  marketNamespace : Bounded identity.marketNamespace
  providerMarketId : Bounded identity.providerMarketId

theorem boundedIdentity_of_valid {identity : ExchangeFillIdentity}
    (h : validateFillIdentity identity = .ok identity) : BoundedIdentity identity := by
  simp only [validateFillIdentity, TradingFillIdentity.identifier, bind_eq_ok, throwIf_eq_ok,
    not_or, not_lt, Bool.not_eq_false] at h
  obtain ⟨_, ⟨-, hprof⟩, _, hmkt, -⟩ := h
  obtain ⟨names, hnames, hmem⟩ := Option.any_eq_true _ _ |>.mp hprof
  rw [decide_eq_true_eq] at hmem
  refine ⟨?_, ?_, hmkt.2.2.1⟩
  · unfold profileNamespaces at hnames
    split_ifs at hnames with h1 h2 h3 h4
    · rw [h1]
      decide
    · rw [h2]
      decide
    · rw [h3]
      decide
    · rw [h4]
      decide
  · have hall : ∀ name ∈ names, Bounded name := by
      unfold profileNamespaces at hnames
      split_ifs at hnames <;> cases hnames <;> decide
    exact hall _ hmem

end Values

section Fills

variable {fill : ExchangeFill} {identity : ExchangeFillIdentity}

theorem lookup_fee (exchangeOrderId : Option String) :
    lookup "fee" (fillRecord exchangeOrderId fill) = some (.text fill.fee) := by
  cases hsym : fill.symbol <;> cases hprov : fill.providerSymbol <;>
    simp [lookup, fillRecord, optionalText, hsym, hprov]

theorem fillRecord_bounded (h : Delivered fill) (hident : BoundedIdentity identity)
    (hfee : Bounded fill.fee) :
    ∀ item ∈ fillRecord (some fill.exchangeOrderId) { fill with identity := some identity },
      BoundedValue item.2 := by
  intro item hitem
  simp only [fillRecord, List.mem_append, List.mem_cons, List.not_mem_nil, or_false] at hitem
  rcases hitem with (((hhead | hsym) | hprov) | hamounts) | hnative
  · rcases hhead with rfl | rfl | rfl
    · exact boundedValue_text h.exchangeFillId
    · exact boundedValue_text h.exchangeOrderId
    · exact boundedValue_nullableText h.clientOrderId
  · exact boundedValue_optional h.symbol hsym
  · exact boundedValue_optional h.providerSymbol hprov
  · rcases hamounts with rfl | rfl | rfl | rfl | rfl
    · exact boundedValue_text h.price
    · exact boundedValue_text h.quantity
    · exact boundedValue_text hfee
    · exact boundedValue_nullableText h.feeAsset
    · exact boundedValue_number _
  · rcases hnative with rfl | rfl | rfl | rfl
    · exact boundedValue_text hident.profile
    · exact boundedValue_text hident.marketNamespace
    · exact boundedValue_text hident.providerMarketId
    · exact boundedValue_nullableNumber _

theorem fillEvidence_returns_iff (h : Delivered fill) (hident : BoundedIdentity identity)
    (reason : String) :
    (∃ event, fillEvidence { fill with identity := some identity } reason = .ok event) ↔
      Bounded fill.fee := by
  have hev : (∃ event, fillEvidence { fill with identity := some identity } reason =
      .ok event) ↔ ∃ evidence, economicEvidence (fillRecord (some fill.exchangeOrderId)
        { fill with identity := some identity }) = .ok evidence := by
    simp [fillEvidence, evidenceOfOrder]
  rw [hev, economicEvidence_returns_iff]
  refine ⟨?_, ?_⟩
  · intro hall
    exact hall "fee" (by decide) _ (lookup_fee _) _ rfl
  · intro hfee field _ value hvalue
    exact fillRecord_bounded h hident hfee _ (mem_of_lookup hvalue)

theorem markProvenFill_returns_iff (sha256 : String → String) (account : TradingAccount)
    (h : Delivered fill) (hident : BoundedIdentity identity) (db : Database) :
    (∃ next, markProvenFill sha256 account { fill with identity := some identity } db = .ok next) ↔
      Bounded fill.fee := by
  rw [← fillEvidence_returns_iff h hident "correlated_fill"]
  simp [markProvenFill]

end Fills

theorem boundedIdentity_of_proven {account : TradingAccount} {fill : ExchangeFill}
    {proof : FillProof}
    (h : Delivered fill) (hproven : provenFillIdentity account fill = .ok (some proof)) :
    BoundedIdentity proof.identity := by
  have hcand := provenFillIdentity_candidate hproven
  by_cases hpaper : account.isPaper
  · rw [candidateIdentity, if_pos hpaper, pure_eq_ok_iff, Option.map_eq_some_iff] at hcand
    obtain ⟨symbol, hsym, hident⟩ := hcand
    have hunified : fill.unifiedSymbol = some symbol := (Option.filter_eq_some_iff.mp hsym).1
    have hbounded : Bounded symbol := by
      rcases Option.or_eq_some_iff.mp hunified with hprov | ⟨-, hown⟩
      · exact h.providerSymbol symbol hprov
      · exact h.symbol symbol hown
    rw [← hident]
    exact ⟨(by decide : Bounded "paper_fill_v1"), (by decide : Bounded "paper"), hbounded⟩
  · exact boundedIdentity_of_valid
      (h.identity _ (candidateIdentity_ok hcand hpaper))

end TsxCore.FillEvidenceBounds
