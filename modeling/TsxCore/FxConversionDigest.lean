import TsxCore.FxConversionSelection

/-!
# Every derived conversion has a digest

The canonical encoder refuses deep, long or large values and unsafe integers. A conversion has
fixed texts, two assets, four times, a bounded rate and at most three digests, far below those
limits.
-/

namespace TsxCore.TradingFxQuotes

open Outcome TradingRational FxReceipt
open TradingFx (fxEvidenceDigest)

variable {sha256 : String → String} {conversion : FxConversion} {s : String} {n : ℕ}

theorem byteLength_le (cs : List Char) : byteLength cs ≤ 4 * cs.length := by
  induction cs with
  | nil => rfl
  | cons c cs ih =>
    have hsize := Char.utf8Size_le_four c
    rw [JsonText.byteLength_cons, List.length_cons]
    omega

theorem byteLength_dumps_string (h : s.toList.length ≤ n) :
    byteLength (Json.dumps nodeNumber (.string s)) ≤ 2 + 24 * n := by
  have htext := JsonText.byteLength_text_le s
  have hbytes := byteLength_le s.toList
  rw [show Json.dumps nodeNumber (.string s) = JsonText.string s by rfl]
  omega

theorem admissible_string (h : s.toList.length ≤ 1000) {depth : ℕ} (hdepth : depth ≤ 12) :
    Admissible NumberAllowed (.string s : Json ℚ) depth := by
  have hbytes := byteLength_le s.toList
  rw [Admissible]
  omega

structure Encodable (conversion : FxConversion) : Prop where
  version : conversion.version = 1
  valuationBasis : conversion.valuationBasis.toList.length ≤ 64
  policy : conversion.policy.toList.length ≤ 64
  profileHash : conversion.profileHash.toList.length ≤ 64
  baseAsset : conversion.baseAsset.toList.length ≤ 64
  quoteAsset : conversion.quoteAsset.toList.length ≤ 64
  times : ∀ time ∈ [conversion.asOf, conversion.earliestAt, conversion.latestAt,
    conversion.expiresAt], 0 ≤ time ∧ time ≤ maxSafeInteger
  numerator : conversion.rate.numerator.toList.length ≤ 300
  denominator : conversion.rate.denominator.toList.length ≤ 300
  count : conversion.receiptHashes.length ≤ 3
  hashes : ∀ hash ∈ conversion.receiptHashes, hash.toList.length ≤ 64

namespace Encodable

theorem numberAllowed {time : ℤ} (h : 0 ≤ time ∧ time ≤ maxSafeInteger) :
    NumberAllowed ((time : ℤ) : ℚ) := by
  rw [numberAllowed_intCast, abs_of_nonneg h.1]
  exact h.2

theorem length_modeText (mode : FxMode) : (modeText mode).toList.length ≤ 64 := by
  cases mode <;> decide

theorem admissible (h : Encodable conversion) :
    Admissible NumberAllowed (.object (conversionMembers conversion)) 0 := by
  have htext : ∀ {key text : String}, KeyAllowed key → text.toList.length ≤ 1000 →
      KeyAllowed key ∧ Admissible NumberAllowed (.string text : Json ℚ) 1 :=
    fun hkey hlen => ⟨hkey, admissible_string hlen (by omega)⟩
  have hnumb : ∀ {key : String} {number : ℚ}, KeyAllowed key → NumberAllowed number →
      KeyAllowed key ∧ Admissible NumberAllowed (.number number : Json ℚ) 1 := by
    intro key number hkey hallowed
    refine ⟨hkey, ?_⟩
    rw [Admissible]
    exact ⟨by omega, hallowed⟩
  have hrate : Admissible NumberAllowed (.object [("numerator", .string conversion.rate.numerator),
      ("denominator", .string conversion.rate.denominator)]) 1 := by
    have hnum := h.numerator
    have hden := h.denominator
    refine ⟨by omega, admissibleMembers_iff.mpr ?_⟩
    simp only [List.forall_mem_cons, List.not_mem_nil, false_implies, implies_true, and_true]
    exact ⟨⟨by decide, admissible_string (by omega) (by omega)⟩, by decide,
      admissible_string (by omega) (by omega)⟩
  have hhashes : Admissible NumberAllowed
      (.array (conversion.receiptHashes.map Json.string) : Json ℚ) 1 := by
    refine ⟨by omega, admissibleItems_iff.mpr ?_⟩
    intro item hitem
    obtain ⟨hash, hmem, rfl⟩ := List.mem_map.mp hitem
    have hlen := h.hashes hash hmem
    exact admissible_string (by omega) (by omega)
  have htimes := h.times
  simp only [List.forall_mem_cons, List.not_mem_nil, false_implies, implies_true,
    and_true] at htimes
  obtain ⟨hasOf, hearliest, hlat, hexpires⟩ := htimes
  have hone : NumberAllowed ((conversion.version : ℕ) : ℚ) := by
    rw [h.version]
    decide
  have hbasis := h.valuationBasis
  have hpol := h.policy
  have hmode := length_modeText conversion.mode
  have hprof := h.profileHash
  have hbase := h.baseAsset
  have hquote := h.quoteAsset
  refine ⟨by omega, admissibleMembers_iff.mpr ?_⟩
  simp only [conversionMembers, List.forall_mem_cons, List.not_mem_nil, false_implies, implies_true,
    and_true]
  exact ⟨hnumb (by decide) hone, htext (by decide) (by omega), htext (by decide) (by omega),
    htext (by decide) (by omega), htext (by decide) (by omega), htext (by decide) (by omega),
    htext (by decide) (by omega), hnumb (by decide) (numberAllowed hasOf),
    hnumb (by decide) (numberAllowed hearliest), hnumb (by decide) (numberAllowed hlat),
    hnumb (by decide) (numberAllowed hexpires), ⟨by decide, hrate⟩, by decide, hhashes⟩

theorem tokens_le (h : Encodable conversion) :
    tokens (.object (conversionMembers conversion)) ≤ 512 := by
  have hcount := h.count
  have hhashes : ((conversion.receiptHashes.map Json.string).map
      (fun value : Json ℚ => tokens value)).sum = conversion.receiptHashes.length := by
    rw [List.map_map]
    simp [Function.comp_def, tokens]
  rw [tokens, tokensMembers_eq]
  simp only [conversionMembers, List.map_cons, List.map_nil, List.sum_cons, List.sum_nil, tokens,
    tokensMembers, tokensItems_eq, hhashes]
  omega

theorem byteLength_rate (h : Encodable conversion) :
    byteLength (Json.dumps nodeNumber (.object [("numerator", .string conversion.rate.numerator),
      ("denominator", .string conversion.rate.denominator)])) ≤ 20000 := by
  have hbound := byteLength_dumps_object_le nodeNumber
    [("numerator", .string conversion.rate.numerator),
      ("denominator", .string conversion.rate.denominator)]
  have hkeys : byteLength (JsonText.string "numerator") +
      byteLength (JsonText.string "denominator") ≤ 40 := by decide
  have hnum := byteLength_dumps_string h.numerator
  have hden := byteLength_dumps_string h.denominator
  simp only [List.map_cons, List.map_nil, List.sum_cons, List.sum_nil] at hbound
  omega

theorem byteLength_hashes (h : Encodable conversion) :
    byteLength (Json.dumps nodeNumber (.array (conversion.receiptHashes.map .string))) ≤ 5000 := by
  have hsize := JsonText.byteLength_array_le
    ((conversion.receiptHashes.map Json.string).map (Json.dumps nodeNumber))
  have hcount := h.count
  have hsum : (((conversion.receiptHashes.map Json.string).map (Json.dumps nodeNumber)).map
      (fun value => byteLength value + 1)).sum ≤ conversion.receiptHashes.length * 1539 := by
    rw [List.map_map, List.map_map]
    have hle := List.sum_le_card_nsmul (conversion.receiptHashes.map (((fun value =>
      byteLength value + 1) ∘ Json.dumps nodeNumber) ∘ Json.string)) 1539 ?_
    · simpa using hle
    · intro size hsize
      obtain ⟨hash, hmem, rfl⟩ := List.mem_map.mp hsize
      have hone := byteLength_dumps_string (h.hashes hash hmem)
      simp only [Function.comp_apply]
      omega
  have harray : Json.dumps nodeNumber (.array (conversion.receiptHashes.map Json.string)) =
      JsonText.array ((conversion.receiptHashes.map Json.string).map (Json.dumps nodeNumber)) := by
    rw [Json.dumps_array]
    rfl
  rw [harray]
  omega

theorem byteLength_lt (h : Encodable conversion) :
    byteLength (Json.dumps nodeNumber (.object (conversionMembers conversion))) < 131072 := by
  have hbound := byteLength_dumps_object_le nodeNumber (conversionMembers conversion)
  have hkeys : byteLength (JsonText.string "version") +
      byteLength (JsonText.string "valuationBasis") + byteLength (JsonText.string "policy") +
      byteLength (JsonText.string "mode") + byteLength (JsonText.string "profileHash") +
      byteLength (JsonText.string "baseAsset") + byteLength (JsonText.string "quoteAsset") +
      byteLength (JsonText.string "at") + byteLength (JsonText.string "earliestAt") +
      byteLength (JsonText.string "latestAt") + byteLength (JsonText.string "expiresAt") +
      byteLength (JsonText.string "rate") + byteLength (JsonText.string "receiptHashes") ≤ 400 := by
    decide
  have hnumb : ∀ {time : ℤ}, 0 ≤ time ∧ time ≤ maxSafeInteger →
      byteLength (Json.dumps nodeNumber (.number ((time : ℤ) : ℚ))) ≤ 16 := by
    intro time htime
    have hsize := TradingRecoveryScheduleContract.byteLength_integer_le htime.1 htime.2
    simpa only [Json.dumps, nodeNumber, Rat.num_intCast] using hsize
  have htimes := h.times
  simp only [List.forall_mem_cons, List.not_mem_nil, false_implies, implies_true,
    and_true] at htimes
  obtain ⟨hasOf, hearliest, hlat, hexpires⟩ := htimes
  have hasOf := hnumb hasOf
  have hearliest := hnumb hearliest
  have hlat := hnumb hlat
  have hexpires := hnumb hexpires
  have hver : byteLength (Json.dumps nodeNumber (.number ((conversion.version : ℕ) : ℚ))) ≤
      16 := by
    rw [h.version]
    decide
  have hbasis := byteLength_dumps_string h.valuationBasis
  have hpol := byteLength_dumps_string h.policy
  have hmode := byteLength_dumps_string (length_modeText conversion.mode)
  have hprof := byteLength_dumps_string h.profileHash
  have hbase := byteLength_dumps_string h.baseAsset
  have hquote := byteLength_dumps_string h.quoteAsset
  have hrate := h.byteLength_rate
  have hhashes := h.byteLength_hashes
  simp only [conversionMembers, List.map_cons, List.map_nil, List.sum_cons,
    List.sum_nil] at hbound ⊢
  omega

end Encodable

theorem conversionDigest_ok (h : Encodable conversion) :
    ∃ evidenceHash, conversionDigest sha256 conversion = .ok evidenceHash :=
  ⟨_, digest_of_size (by decide) h.admissible h.tokens_le h.byteLength_lt⟩

end TsxCore.TradingFxQuotes
