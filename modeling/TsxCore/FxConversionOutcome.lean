import TsxCore.FxObservations
import TsxCore.FxConversionDigest
import TsxCore.FxConversionStability

/-!
# The outcome of a derivation

The outcome depends on which receipts occur, not on their order or number. Accepted receipts give
a conversion exactly when those of one leg and time agree and some choice of one receipt for each
required leg fits in a second; the conversion is that of the latest such window, is fresh at the
time it was derived for, and its mirror image has the reciprocal rate.
-/

namespace TsxCore.TradingFxQuotes

open Outcome TradingDecimal TradingRational FirstWindow
open TradingFx (FxContext)
open TradingRecoveryScheduleContract (digestPattern digestPattern_of_eq)

variable {sha256 : String → String} {now : ℤ} {context : FxContext}
  {values values' : List (Json ℚ)} {baseAsset quoteAsset : String} {required : List String}
  {asOf : ℤ} {receipts : Set FxLegReceipt} {kept kept' selected selected' : List FxLegReceipt}
  {row other : FxLegReceipt}

section Arrival

theorem rationalFromDecimal_value {s : String} {u : ℕ} (h : Denotes s u) :
    rationalFromDecimal s = .ok (rationalText (decimalValue s)) := by
  rw [rationalFromDecimal_ok_iff]
  exact ⟨h.hasSpace, u, h.readsSigned, by rw [h.decimalValue]⟩

def Readable (rows : List FxLegReceipt) : Prop := ∀ row ∈ rows, ∃ u, Denotes row.value u

theorem legRate_congr (h : List.Forall₂ Twin selected selected') (hread : Readable selected)
    (hread' : Readable selected') : legRate selected = legRate selected' := by
  funext id
  induction h with
  | nil => rfl
  | @cons row other rows rows' htwin _ ih =>
    have hlegs : row.legId = other.legId := congrArg Prod.fst htwin.observation
    by_cases hleg : row.legId = id
    · obtain ⟨u, hu⟩ := hread row List.mem_cons_self
      obtain ⟨v, hv⟩ := hread' other List.mem_cons_self
      have hleg' : other.legId = id := hlegs ▸ hleg
      simp only [legRate, List.find?_cons, hleg, hleg', decide_true]
      rw [rationalFromDecimal_value hu, rationalFromDecimal_value hv, htwin.value]
    · have hleg' : ¬ other.legId = id := hlegs ▸ hleg
      have hrest := ih (fun row hrow => hread row (List.mem_cons_of_mem _ hrow))
        (fun row hrow => hread' row (List.mem_cons_of_mem _ hrow))
      simpa only [legRate, List.find?_cons, hleg, hleg', decide_false] using hrest

theorem usdRate_congr (h : List.Forall₂ Twin selected selected') (hread : Readable selected)
    (hread' : Readable selected') (asset : String) :
    usdRate asset selected = usdRate asset selected' := by
  unfold usdRate
  rw [legRate_congr h hread hread']

theorem map_congr_of_twin {B : Type} {f : FxLegReceipt → B}
    (h : List.Forall₂ Twin selected selected')
    (hf : ∀ row other, Twin row other → f row = f other) :
    selected.map f = selected'.map f := by
  induction h with
  | nil => rfl
  | cons htwin _ ih => rw [List.map_cons, List.map_cons, hf _ _ htwin, ih]

theorem selectedConversion_congr (h : List.Forall₂ Twin selected selected')
    (hread : Readable selected) (hread' : Readable selected') :
    selectedConversion selected baseAsset quoteAsset asOf context =
      selectedConversion selected' baseAsset quoteAsset asOf context := by
  have htimes : selected.map (·.providerResponseAt) = selected'.map (·.providerResponseAt) :=
    map_congr_of_twin h (fun row other htwin => congrArg Prod.snd htwin.observation)
  have hhashes : selected.map (·.receiptHash) = selected'.map (·.receiptHash) :=
    map_congr_of_twin h (fun row other htwin => htwin.receiptHash)
  unfold selectedConversion
  rw [htimes, hhashes, usdRate_congr h hread hread', usdRate_congr h hread hread']

theorem Observed.sameTimes (h : Observed receipts kept) (h' : Observed receipts kept') :
    SameTimes FxLegReceipt.legId FxLegReceipt.providerResponseAt kept kept' :=
  fun leg time => (h.exists_iff leg time).trans (h'.exists_iff leg time).symm

theorem coherentLegs_congr (h : Observed receipts kept) (h' : Observed receipts kept')
    (hfalling : kept.Pairwise (fun a b => b.providerResponseAt ≤ a.providerResponseAt))
    (hfalling' : kept'.Pairwise (fun a b => b.providerResponseAt ≤ a.providerResponseAt)) :
    (∃ selected selected', coherentLegs kept required = .ok selected ∧
        coherentLegs kept' required = .ok selected' ∧ List.Forall₂ Twin selected selected' ∧
        (∀ row ∈ selected, row ∈ receipts) ∧ ∀ row ∈ selected', row ∈ receipts) ∨
      coherentLegs kept required = coherentLegs kept' required := by
  have hsame := h.sameTimes h'
  cases hfirst : firstWindow FxLegReceipt.legId FxLegReceipt.providerResponseAt 1000 kept
      required with
  | none =>
    right
    have hnone : firstWindow FxLegReceipt.legId FxLegReceipt.providerResponseAt 1000 kept'
        required = none := by
      rw [firstWindow_eq_none_iff] at hfirst ⊢
      exact fun t hcomp => hfirst t (hsame.symm.complete hcomp)
    rw [coherentLegs, coherentLegs, hfirst, hnone]
  | some selected =>
    left
    obtain ⟨t, hlat⟩ := latest_of_firstWindow hfalling hfirst
    cases hfirst' : firstWindow FxLegReceipt.legId FxLegReceipt.providerResponseAt 1000 kept'
        required with
    | none =>
      rw [firstWindow_eq_none_iff] at hfirst'
      exact absurd (hsame.complete hlat.complete) (hfirst' t)
    | some selected' =>
      obtain ⟨t', hlat'⟩ := latest_of_firstWindow hfalling' hfirst'
      obtain ⟨-, htimes⟩ := hlat.times hsame hlat'
      refine ⟨selected, selected', coherentLegs_eq_ok.mpr hfirst, coherentLegs_eq_ok.mpr hfirst',
        ?_, fun row hrow => h.mem row (hlat.mem row hrow),
        fun row hrow => h'.mem row (hlat'.mem row hrow)⟩
      apply forall₂_of_map_eq (hlat.keys.trans hlat'.keys.symm)
      intro a ha b hb hleg
      exact h.twin h' (hlat.mem a ha) (hlat'.mem b hb)
        (Prod.ext hleg (htimes a ha b hb hleg))

theorem deriveFxConversion_congr (haccepted : Accepted sha256 now context values)
    (hsame : ∀ value, value ∈ values' ↔ value ∈ values) (hlength : values.length ≤ 256)
    (hlength' : values'.length ≤ 256) :
    deriveFxConversion sha256 now values' baseAsset quoteAsset asOf context =
      deriveFxConversion sha256 now values baseAsset quoteAsset asOf context := by
  have haccepted' : Accepted sha256 now context values' :=
    fun value hvalue => haccepted value ((hsame value).mp hvalue)
  have hset : ∀ required, eligibleSet values' required asOf = eligibleSet values required asOf := by
    intro required
    ext row
    simp only [eligibleSet, Set.mem_ofPred_eq, hsame]
  have hguard : (256 < values'.length ∨ ¬ isSafeInteger asOf ∨ asOf < 0 ∨ baseAsset = quoteAsset) ↔
      (256 < values.length ∨ ¬ isSafeInteger asOf ∨ asOf < 0 ∨ baseAsset = quoteAsset) := by
    simp only [not_lt.mpr hlength, not_lt.mpr hlength']
  have hthrow : ∀ thrown : Thrown,
      throwIf (256 < values'.length ∨ ¬ isSafeInteger asOf ∨ asOf < 0 ∨ baseAsset = quoteAsset)
        thrown =
      throwIf (256 < values.length ∨ ¬ isSafeInteger asOf ∨ asOf < 0 ∨ baseAsset = quoteAsset)
        thrown := by
    intro thrown
    rw [throwIf, throwIf]
    exact if_congr hguard rfl rfl
  unfold deriveFxConversion
  rw [hthrow]
  refine bind_congr (fun _ => bind_congr (fun required => ?_))
  have hcases := @eligibleReceipts_cases _ _ _ _ required asOf haccepted
  have hcases' := @eligibleReceipts_cases _ _ _ _ required asOf haccepted'
  rw [hset] at hcases'
  rcases hcases with ⟨kept, hkept, hobs, hfalling⟩ | ⟨herror, hconf⟩
  · rcases hcases' with ⟨kept', hkept', hobs', hfalling'⟩ | ⟨-, hconf'⟩
    · rw [hkept, hkept', ok_bind, ok_bind]
      rcases coherentLegs_congr hobs' hobs hfalling' hfalling with
        ⟨selected', selected, hsel', hsel, htwin, hmem', hmem⟩ | heq
      · rw [hsel, hsel', ok_bind, ok_bind]
        have hread := fun row hrow => (haccepted.valid (hmem row hrow).1).denotes
        have hread' := fun row hrow => (haccepted.valid (hmem' row hrow).1).denotes
        rw [selectedConversion_congr htwin hread' hread]
      · rw [heq]
    · exact absurd hobs.agree hconf'
  · rcases hcases' with ⟨kept', hkept', hobs', hfalling'⟩ | ⟨herror', hconf'⟩
    · exact absurd hobs'.agree hconf
    · rw [herror, herror']

end Arrival

section Rates

def Quotient (q : ℚ) : Prop :=
  ∃ a b : ℕ, 0 < a ∧ a < unitLimit ∧ 0 < b ∧ b < unitLimit ∧ q = a / b

theorem Quotient.pos {q : ℚ} (h : Quotient q) : 0 < q := by
  obtain ⟨a, b, ha, -, hb, -, rfl⟩ := h
  positivity

theorem Quotient.fits_div {p q : ℚ} (hp : Quotient p) (hq : Quotient q) : Fits (p / q) := by
  obtain ⟨a, b, ha, halt, hb, hblt, rfl⟩ := hp
  obtain ⟨c, d, hc, hclt, hd, hdlt, rfl⟩ := hq
  have hlimit : unitLimit * unitLimit ≤ digitLimit := by
    rw [unitLimit, digitLimit]
    norm_num
  have hfits := TradingRational.fits_div (n := (a * d : ℕ)) (d := (b * c : ℕ))
    (by exact_mod_cast Nat.mul_pos hb hc)
    ((Nat.mul_lt_mul_of_lt_of_lt halt hdlt).trans_le hlimit)
    ((Nat.mul_lt_mul_of_lt_of_lt hblt hclt).trans_le hlimit)
  push_cast at hfits
  rwa [div_div_div_eq]

theorem Quotient.fits {q : ℚ} (h : Quotient q) : Fits q := by
  have hone : Quotient 1 := ⟨1, 1, one_pos, by decide, one_pos, by decide, by norm_num⟩
  simpa using h.fits_div hone

theorem quotient_unitValue {u : ℕ} (hpos : 0 < u) (hlt : u < unitLimit) :
    Quotient (unitValue u) :=
  ⟨u, 10 ^ 18, hpos, hlt, by positivity, by decide, by rw [unitValue_natCast]; norm_cast⟩

theorem quotient_div {u v : ℕ} (hu : 0 < u) (hult : u < unitLimit) (hv : 0 < v)
    (hvlt : v < unitLimit) : Quotient (unitValue u / unitValue v) := by
  refine ⟨u, v, hu, hult, hv, hvlt, ?_⟩
  rw [unitValue_natCast, unitValue_natCast, div_div_div_cancel_right₀ (by positivity)]

theorem divideRational_rationalText {p q : ℚ} (hp : Fits p) (hq : Fits q) (hne : q ≠ 0)
    (hfits : Fits (p / q)) :
    divideRational (rationalText p) (rationalText q) = .ok (rationalText (p / q)) :=
  divideRational_ok_iff.mpr
    ⟨p, q, represents_rationalText hp, represents_rationalText hq, hne, hfits, rfl⟩

def AllValid (sha256 : String → String) (now : ℤ) (context : FxContext)
    (rows : List FxLegReceipt) : Prop := ∀ row ∈ rows, Valid sha256 now context row

theorem legRate_ok {leg : String} (hvalid : AllValid sha256 now context selected)
    (hleg : ∃ row ∈ selected, row.legId = leg) :
    ∃ u, 0 < u ∧ u < unitLimit ∧ legRate selected leg = .ok (rationalText (unitValue u)) := by
  obtain ⟨row, hrow, hid⟩ := hleg
  obtain ⟨found, hfound⟩ : ∃ found, selected.find? (·.legId = leg) = some found := by
    rw [← Option.isSome_iff_exists, List.find?_isSome]
    exact ⟨row, hrow, by simpa using hid⟩
  obtain ⟨u, hu, hpos⟩ := (hvalid found (List.mem_of_find?_eq_some hfound)).positive
  refine ⟨u, hpos, hu.lt, ?_⟩
  simp only [legRate, hfound]
  rw [rationalFromDecimal_value hu, hu.decimalValue]

theorem usdRate_ok {asset : String} {legs : List String} (hasset : assetLegs asset = .ok legs)
    (hvalid : AllValid sha256 now context selected)
    (hlegs : ∀ leg ∈ legs, ∃ row ∈ selected, row.legId = leg) :
    ∃ q, Quotient q ∧ usdRate asset selected = .ok (rationalText q) := by
  unfold assetLegs at hasset
  split_ifs at hasset with husd husdt husdc
  · subst husd
    refine ⟨1, ⟨1, 1, one_pos, by decide, one_pos, by decide, by norm_num⟩, ?_⟩
    rw [usdRate, if_pos rfl]
    decide +kernel
  · subst husdt
    cases hasset
    obtain ⟨u, hu, hult, hfirst⟩ := legRate_ok hvalid (hlegs (legOrder.take 2)[0] (by decide))
    obtain ⟨v, hv, hvlt, hsnd⟩ := legRate_ok hvalid (hlegs (legOrder.take 2)[1] (by decide))
    have hquot := quotient_div hu hult hv hvlt
    refine ⟨_, hquot, ?_⟩
    have hmapM : (legOrder.take 2).mapM (legRate selected) =
        .ok [rationalText (unitValue u), rationalText (unitValue v)] := by
      rw [mapM_eq_ok]
      exact .cons hfirst (.cons hsnd .nil)
    rw [usdRate, if_neg (by decide), show assetLegs "USDT" = .ok (legOrder.take 2) by rfl, ok_bind,
      hmapM, ok_bind]
    exact divideRational_rationalText (quotient_unitValue hu hult).fits
      (quotient_unitValue hv hvlt).fits (quotient_unitValue hv hvlt).pos.ne' hquot.fits
  · subst husdc
    cases hasset
    obtain ⟨u, hu, hult, hfirst⟩ := legRate_ok hvalid (hlegs (legOrder.drop 2)[0] (by decide))
    refine ⟨_, quotient_unitValue hu hult, ?_⟩
    have hmapM : (legOrder.drop 2).mapM (legRate selected) = .ok [rationalText (unitValue u)] := by
      rw [mapM_eq_ok]
      exact .cons hfirst .nil
    rw [usdRate, if_neg (by decide), show assetLegs "USDC" = .ok (legOrder.drop 2) by rfl, ok_bind,
      hmapM, ok_bind]
    rfl

end Rates

section Assembly

def assembled (selected : List FxLegReceipt) (baseAsset quoteAsset : String) (asOf : ℤ)
    (context : FxContext) (rate : ExactRational) : FxConversion :=
  let times := selected.map (·.providerResponseAt)
  let earliest := times.min?.getD 0
  { version := 1
    valuationBasis := "provider_snapshot_index_asof"
    policy := "stable-index-asof-10s-v1"
    mode := fxMode context.mode
    profileHash := context.profileHash
    baseAsset, quoteAsset, asOf
    earliestAt := earliest
    latestAt := times.max?.getD 0
    expiresAt := earliest + 10000
    rate
    receiptHashes := selected.map (·.receiptHash) }

theorem selectedConversion_eq_ok {conversion : FxConversion} :
    selectedConversion selected baseAsset quoteAsset asOf context = .ok conversion ↔
      ∃ base quote rate, usdRate baseAsset selected = .ok base ∧
        usdRate quoteAsset selected = .ok quote ∧ divideRational base quote = .ok rate ∧
        assembled selected baseAsset quoteAsset asOf context rate = conversion := by
  simp only [selectedConversion, bind_eq_ok, pure_eq_ok_iff, assembled]
  tauto

theorem Valid.responseAt (h : Valid sha256 now context row) :
    0 ≤ row.providerResponseAt ∧ row.providerResponseAt ≤ now + 2000 := by
  have htimes := h.times
  simp only [TradingFx.validateTimes, bind_eq_ok, throwIf_eq_ok, exists_const, not_or,
    not_lt] at htimes
  obtain ⟨-, startedAt, -, completedAt, -, responseAt, hresponse, htimes⟩ := htimes
  have hfield : row.providerResponseAt = responseAt ∧ 0 ≤ responseAt := by
    unfold TradingFx.timestamp at hresponse
    cases hnumb : TradingFx.numberField "providerResponseAt" row.members with
    | none =>
      rw [hnumb] at hresponse
      cases hresponse
    | some value =>
      simp only [hnumb, bind_eq_ok, throwIf_eq_ok, pure_eq_ok_iff, not_or, not_lt,
        exists_const] at hresponse
      obtain ⟨⟨-, hnn⟩, rfl⟩ := hresponse
      refine ⟨?_, Rat.num_nonneg.mpr hnn⟩
      rw [FxLegReceipt.providerResponseAt, FxLegReceipt.integer, hnumb, Option.getD_some]
  omega

theorem length_digest {text : String} (h : digestPattern text = true) :
    text.toList.length = 64 := by
  rw [digestPattern, Bool.and_eq_true, beq_iff_eq] at h
  exact h.1

theorem Valid.length_receiptHash (hsha256 : ∀ text, digestPattern (sha256 text) = true)
    (h : Valid sha256 now context row) : row.receiptHash.toList.length = 64 := by
  have hdig := h.digest
  obtain ⟨-, heq⟩ := FxReceipt.fxEvidenceDigest_ok hdig
  rw [heq]
  exact length_digest (hsha256 _)

theorem Valid.length_profileHash (h : Valid sha256 now context row) :
    context.profileHash.toList.length = 64 := by
  have hprof := h.profile
  simp only [TradingFx.validateProfile, bind_eq_ok, throwIf_eq_ok, not_or, not_not, exists_const,
    Bool.not_eq_false] at hprof
  obtain ⟨-, -, -, hhash, hpat, -⟩ := hprof
  rw [hhash, Option.all_some] at hpat
  exact length_digest hpat

theorem length_supported {asset : String} {legs : List String} (h : assetLegs asset = .ok legs) :
    asset.toList.length ≤ 64 := by
  unfold assetLegs at h
  split_ifs at h with husd husdt husdc
  · rw [husd]
    decide
  · rw [husdt]
    decide
  · rw [husdc]
    decide

structure Ends (selected : List FxLegReceipt) (earliest latest : ℤ) : Prop where
  min : (selected.map (·.providerResponseAt)).min? = some earliest
  max : (selected.map (·.providerResponseAt)).max? = some latest
  first : ∃ row ∈ selected, row.providerResponseAt = earliest
  last : ∃ row ∈ selected, row.providerResponseAt = latest
  within : ∀ row ∈ selected, earliest ≤ row.providerResponseAt ∧ row.providerResponseAt ≤ latest

theorem exists_ends (h : selected ≠ []) : ∃ earliest latest, Ends selected earliest latest := by
  have hne : selected.map (·.providerResponseAt) ≠ [] := by simpa using h
  obtain ⟨earliest, hmin⟩ := Option.ne_none_iff_exists'.mp (mt List.min?_eq_none_iff.mp hne)
  obtain ⟨latest, hmax⟩ := Option.ne_none_iff_exists'.mp (mt List.max?_eq_none_iff.mp hne)
  obtain ⟨hfirst, hle⟩ := List.min?_eq_some_iff.mp hmin
  obtain ⟨hlast, hge⟩ := List.max?_eq_some_iff.mp hmax
  refine ⟨earliest, latest, hmin, hmax, List.mem_map.mp hfirst, List.mem_map.mp hlast, ?_⟩
  intro row hrow
  exact ⟨hle _ (List.mem_map_of_mem hrow), hge _ (List.mem_map_of_mem hrow)⟩

theorem length_bigintText {i : ℤ} (h : i.natAbs < digitLimit) :
    (bigintText i).toList.length ≤ 300 := by
  have hdigits : (Nat.toDigits 10 i.natAbs).length ≤ 256 := by
    rw [Nat.length_toDigits_le_iff (by omega) (by omega)]
    exact h
  rw [toList_bigintText]
  split_ifs
  · rw [List.length_cons]
    omega
  · omega

theorem encodable_assembled {q : ℚ} (hsha256 : ∀ text, digestPattern (sha256 text) = true)
    (hnow : now ≤ 8640000000000000) (hvalid : AllValid sha256 now context selected)
    (hne : selected ≠ []) (hcount : selected.length ≤ 3)
    (hbase : baseAsset.toList.length ≤ 64) (hquote : quoteAsset.toList.length ≤ 64)
    (hasOf : 0 ≤ asOf ∧ asOf ≤ maxSafeInteger) (hfits : Fits q) :
    Encodable (assembled selected baseAsset quoteAsset asOf context (rationalText q)) := by
  obtain ⟨earliest, latest, hends⟩ := exists_ends hne
  obtain ⟨first, hfirst, hearliest⟩ := hends.first
  obtain ⟨last, hlast, hlat⟩ := hends.last
  have hfirstTime := (hvalid first hfirst).responseAt
  have hlastTime := (hvalid last hlast).responseAt
  refine ⟨rfl, show "provider_snapshot_index_asof".toList.length ≤ 64 by decide,
    show "stable-index-asof-10s-v1".toList.length ≤ 64 by decide, ?_, hbase, hquote, ?_,
    length_bigintText hfits.1, length_bigintText hfits.2, by rwa [assembled, List.length_map], ?_⟩
  · exact (hvalid first hfirst).length_profileHash.le
  · simp only [assembled, hends.min, hends.max, Option.getD_some, List.forall_mem_cons,
      List.not_mem_nil, false_implies, implies_true, and_true]
    rw [maxSafeInteger] at hasOf ⊢
    omega
  · intro hash hhash
    obtain ⟨row, hrow, rfl⟩ := List.mem_map.mp hhash
    exact ((hvalid row hrow).length_receiptHash hsha256).le

end Assembly

section Choices

/-- One eligible receipt for each required leg, all within a second. -/
structure Choice (values : List (Json ℚ)) (required : List String) (asOf : ℤ)
    (choice : List FxLegReceipt) : Prop where
  legs : choice.map (·.legId) = required
  eligible : ∀ row ∈ choice, row ∈ eligibleSet values required asOf
  second : ∀ row ∈ choice, ∀ other ∈ choice,
    row.providerResponseAt ≤ other.providerResponseAt + 1000

/-- The choice that ends at the latest time, with the newest receipt of each leg. -/
structure Selection (values : List (Json ℚ)) (required : List String) (asOf : ℤ)
    (selected : List FxLegReceipt) (latest : ℤ) : Prop extends
    Choice values required asOf selected where
  last : ∃ row ∈ selected, row.providerResponseAt = latest
  within : ∀ row ∈ selected, row.providerResponseAt ≤ latest
  newest : ∀ row ∈ selected, ∀ other ∈ eligibleSet values required asOf, other.legId = row.legId →
    other.providerResponseAt ≤ latest → other.providerResponseAt < row.providerResponseAt ∨
      (other.providerResponseAt = row.providerResponseAt ∧ row.receiptHash ≤ other.receiptHash)
  latest : ∀ choice, Choice values required asOf choice →
    ∀ row ∈ choice, row.providerResponseAt ≤ latest

theorem complete_of_choice {choice : List FxLegReceipt} {earliest latest : ℤ}
    (hobs : Observed (eligibleSet values required asOf) kept)
    (hchoice : Choice values required asOf choice) (hends : Ends choice earliest latest) :
    Complete FxLegReceipt.legId FxLegReceipt.providerResponseAt 1000 kept required latest := by
  obtain ⟨last, hlast, htime⟩ := hends.last
  constructor
  · obtain ⟨row, hrow, -, heq⟩ := (hobs.exists_iff last.legId last.providerResponseAt).mpr
      ⟨last, hchoice.eligible last hlast, rfl, rfl⟩
    exact ⟨row, hrow, heq.trans htime⟩
  · intro leg hleg
    rw [← hchoice.legs] at hleg
    obtain ⟨chosen, hchosen, rfl⟩ := List.mem_map.mp hleg
    obtain ⟨row, hrow, hid, heq⟩ := (hobs.exists_iff chosen.legId
      chosen.providerResponseAt).mpr ⟨chosen, hchoice.eligible chosen hchosen, rfl, rfl⟩
    have hwithin := hends.within chosen hchosen
    have hsnd := hchoice.second last hlast chosen hchosen
    exact ⟨row, hrow, hid, by omega, by omega⟩

theorem selection_of_latest {latest : ℤ}
    (hobs : Observed (eligibleSet values required asOf) kept)
    (h : Latest FxLegReceipt.legId FxLegReceipt.providerResponseAt 1000 kept required selected
      latest) : Selection values required asOf selected latest := by
  refine ⟨⟨h.keys, fun row hrow => hobs.mem row (h.mem row hrow), ?_⟩, ?_,
    fun row hrow => (h.within row hrow).1, ?_, ?_⟩
  · intro row hrow other hother
    have hrowTime := h.within row hrow
    have hotherTime := h.within other hother
    omega
  · obtain ⟨anchor, hanchor, rfl⟩ := h.complete.anchor
    have hleg := (eligible_iff.mp (hobs.mem anchor hanchor).2).1
    rw [← h.keys] at hleg
    obtain ⟨row, hrow, hid⟩ := List.mem_map.mp hleg
    have hnewest := h.newest row hrow anchor hanchor hid.symm le_rfl
    exact ⟨row, hrow, le_antisymm (h.within row hrow).1 hnewest⟩
  · intro row hrow other hother hid hle
    obtain ⟨first, hfirst, hobsn, hhash, -⟩ := hobs.least other hother
    have hfirstLeg : first.legId = other.legId := congrArg Prod.fst hobsn
    have hfirstTime : first.providerResponseAt = other.providerResponseAt :=
      congrArg Prod.snd hobsn
    have hnewest := h.newest row hrow first hfirst (hfirstLeg.trans hid) (hfirstTime ▸ hle)
    rw [hfirstTime] at hnewest
    rcases hnewest.lt_or_eq with hlt | heq
    · exact .inl hlt
    · have hsame := hobs.eq_of_observation hfirst (h.mem row hrow)
        (Prod.ext (hfirstLeg.trans hid) (hfirstTime.trans heq))
      exact .inr ⟨heq, hsame ▸ hhash⟩
  · intro choice hchoice row hrow
    obtain ⟨earliest, last, hends⟩ := exists_ends (List.ne_nil_of_mem hrow)
    exact (hends.within row hrow).2.trans
      (h.latest last (complete_of_choice hobs hchoice hends))

end Choices

section Outcome

theorem requiredLegs_eq_ok : requiredLegs baseAsset quoteAsset = .ok required ↔
    ∃ base quote, assetLegs baseAsset = .ok base ∧ assetLegs quoteAsset = .ok quote ∧
      legOrder.filter (fun id => id ∈ base ++ quote) = required := by
  simp only [requiredLegs, bind_eq_ok, pure_eq_ok_iff]
  tauto

theorem assetLegs_subset {asset : String} {legs : List String} (h : assetLegs asset = .ok legs) :
    ∀ leg ∈ legs, leg ∈ legOrder := by
  unfold assetLegs at h
  split_ifs at h
  · cases h
    simp
  · cases h
    exact fun leg hleg => List.mem_of_mem_take hleg
  · cases h
    exact fun leg hleg => List.mem_of_mem_drop hleg

theorem assetLegs_nil {asset : String} (h : assetLegs asset = .ok []) : asset = "USD" := by
  unfold assetLegs at h
  split_ifs at h with husd
  · exact husd
  · cases h
  · cases h

theorem requiredLegs_ne_nil (hne : baseAsset ≠ quoteAsset)
    (h : requiredLegs baseAsset quoteAsset = .ok required) : required ≠ [] := by
  obtain ⟨base, quote, hbase, hquote, rfl⟩ := requiredLegs_eq_ok.mp h
  intro hnil
  rw [List.filter_eq_nil_iff] at hnil
  have hempty : ∀ {asset : String} {legs : List String}, assetLegs asset = .ok legs →
      (∀ leg ∈ legs, leg ∈ base ++ quote) → asset = "USD" := by
    intro asset legs hlegs hsub
    cases legs with
    | nil => exact assetLegs_nil hlegs
    | cons leg rest =>
      have hleg := hnil leg (assetLegs_subset hlegs leg List.mem_cons_self)
      simp only [decide_eq_true_eq] at hleg
      exact absurd (hsub leg List.mem_cons_self) hleg
  apply hne
  rw [hempty hbase (fun leg hleg => List.mem_append_left _ hleg),
    hempty hquote (fun leg hleg => List.mem_append_right _ hleg)]

theorem requiredLegs_swap (h : requiredLegs baseAsset quoteAsset = .ok required) :
    requiredLegs quoteAsset baseAsset = .ok required := by
  obtain ⟨base, quote, hbase, hquote, rfl⟩ := requiredLegs_eq_ok.mp h
  refine requiredLegs_eq_ok.mpr ⟨quote, base, hquote, hbase, ?_⟩
  simp only [List.mem_append, or_comm]

theorem exists_rates (h : requiredLegs baseAsset quoteAsset = .ok required)
    (hlegs : selected.map (·.legId) = required) (hvalid : AllValid sha256 now context selected) :
    baseAsset.toList.length ≤ 64 ∧ quoteAsset.toList.length ≤ 64 ∧ ∃ p q, Quotient p ∧ Quotient q ∧
      usdRate baseAsset selected = .ok (rationalText p) ∧
      usdRate quoteAsset selected = .ok (rationalText q) := by
  obtain ⟨base, quote, hbase, hquote, hreq⟩ := requiredLegs_eq_ok.mp h
  have hcover : ∀ {asset : String} {legs : List String}, assetLegs asset = .ok legs →
      (∀ leg ∈ legs, leg ∈ base ++ quote) → ∃ q, Quotient q ∧
        usdRate asset selected = .ok (rationalText q) := by
    intro asset legs hasset hsub
    apply usdRate_ok hasset hvalid
    intro leg hleg
    have hmem : leg ∈ selected.map (·.legId) := by
      rw [hlegs, ← hreq, List.mem_filter]
      exact ⟨assetLegs_subset hasset leg hleg, by simpa using hsub leg hleg⟩
    exact List.mem_map.mp hmem
  obtain ⟨p, hp, hbaseRate⟩ := hcover hbase (fun leg hleg => List.mem_append_left _ hleg)
  obtain ⟨q, hq, hquoteRate⟩ := hcover hquote (fun leg hleg => List.mem_append_right _ hleg)
  exact ⟨length_supported hbase, length_supported hquote, p, q, hp, hq, hbaseRate, hquoteRate⟩

/-- What is derived from a selection that the receipts have. -/
structure Derives (sha256 : String → String) (now : ℤ) (values : List (Json ℚ))
    (baseAsset quoteAsset : String) (asOf : ℤ) (context : FxContext) (required : List String)
    (selected : List FxLegReceipt) : Prop where
  legs : requiredLegs baseAsset quoteAsset = .ok required
  coherent : (do
    let rows ← eligibleReceipts sha256 now values required asOf context
    coherentLegs rows required) = .ok selected

theorem deriveFxConversion_eq_ok {conversion : FxConversionEvidence} :
    deriveFxConversion sha256 now values baseAsset quoteAsset asOf context = .ok conversion ↔
      (values.length ≤ 256 ∧ isSafeInteger asOf ∧ 0 ≤ asOf ∧ baseAsset ≠ quoteAsset) ∧
      ∃ required selected,
        Derives sha256 now values baseAsset quoteAsset asOf context required selected ∧
        selectedConversion selected baseAsset quoteAsset asOf context =
          .ok conversion.toFxConversion ∧
        conversionDigest sha256 conversion.toFxConversion = .ok conversion.evidenceHash := by
  simp only [deriveFxConversion, bind_eq_ok, throwIf_eq_ok, pure_eq_ok_iff, exists_const, not_or,
    not_lt, not_not]
  constructor
  · rintro ⟨hguard, required, hreq, rows, hrows, selected, hsel, original, horig,
      evidenceHash, hdig, rfl⟩
    refine ⟨hguard, required, selected, ⟨hreq, ?_⟩, horig, hdig⟩
    rw [hrows, ok_bind, hsel]
  · rintro ⟨hguard, required, selected, ⟨hreq, hcoherent⟩, horig, hdig⟩
    rw [bind_eq_ok] at hcoherent
    obtain ⟨rows, hrows, hsel⟩ := hcoherent
    exact ⟨hguard, required, hreq, rows, hrows, selected, hsel,
      conversion.toFxConversion, horig, conversion.evidenceHash, hdig, rfl⟩

structure Asked (sha256 : String → String) (now : ℤ) (values : List (Json ℚ))
    (baseAsset quoteAsset : String) (asOf : ℤ) : Prop where
  digests : ∀ text, digestPattern (sha256 text) = true
  clock : now ≤ 8640000000000000
  length : values.length ≤ 256
  safe : isSafeInteger asOf
  nonneg : 0 ≤ asOf
  pair : baseAsset ≠ quoteAsset

theorem Asked.swap (h : Asked sha256 now values baseAsset quoteAsset asOf) :
    Asked sha256 now values quoteAsset baseAsset asOf :=
  ⟨h.digests, h.clock, h.length, h.safe, h.nonneg, h.pair.symm⟩

theorem Derives.swap (h : Derives sha256 now values baseAsset quoteAsset asOf context required
    selected) : Derives sha256 now values quoteAsset baseAsset asOf context required selected :=
  ⟨requiredLegs_swap h.legs, h.coherent⟩

theorem Derives.selection (haccepted : Accepted sha256 now context values)
    (h : Derives sha256 now values baseAsset quoteAsset asOf context required selected) :
    Agree (eligibleSet values required asOf) ∧
      ∃ latest, Selection values required asOf selected latest := by
  have hcoherent := h.coherent
  rw [bind_eq_ok] at hcoherent
  obtain ⟨rows, hrows, hsel⟩ := hcoherent
  rcases eligibleReceipts_cases haccepted with ⟨kept, hkept, hobs, hfalling⟩ | ⟨herror, -⟩
  · rw [hrows] at hkept
    cases hkept
    obtain ⟨latest, hlat⟩ := latest_of_firstWindow hfalling (coherentLegs_eq_ok.mp hsel)
    exact ⟨hobs.agree, latest, selection_of_latest hobs hlat⟩
  · rw [hrows] at herror
    cases herror

theorem derives_of_choice {choice : List FxLegReceipt}
    (haccepted : Accepted sha256 now context values) (hpair : baseAsset ≠ quoteAsset)
    (hreq : requiredLegs baseAsset quoteAsset = .ok required)
    (hagree : Agree (eligibleSet values required asOf))
    (hchoice : Choice values required asOf choice) :
    ∃ selected, Derives sha256 now values baseAsset quoteAsset asOf context required selected := by
  rcases eligibleReceipts_cases haccepted with ⟨kept, hkept, hobs, -⟩ | ⟨-, hconf⟩
  · have hne : choice ≠ [] := by
      rintro rfl
      exact requiredLegs_ne_nil hpair hreq hchoice.legs.symm
    obtain ⟨earliest, latest, hends⟩ := exists_ends hne
    have hcomp := complete_of_choice hobs hchoice hends
    cases hfirst : firstWindow FxLegReceipt.legId FxLegReceipt.providerResponseAt 1000 kept
        required with
    | none => exact absurd hcomp (firstWindow_eq_none_iff.mp hfirst latest)
    | some selected =>
      refine ⟨selected, hreq, ?_⟩
      rw [hkept, ok_bind]
      exact coherentLegs_eq_ok.mpr hfirst
  · exact absurd hagree hconf

theorem Derives.conversion (haccepted : Accepted sha256 now context values)
    (hasked : Asked sha256 now values baseAsset quoteAsset asOf)
    (h : Derives sha256 now values baseAsset quoteAsset asOf context required selected) :
    ∃ p q evidenceHash, Quotient p ∧ Quotient q ∧
      usdRate baseAsset selected = .ok (rationalText p) ∧
      usdRate quoteAsset selected = .ok (rationalText q) ∧
      deriveFxConversion sha256 now values baseAsset quoteAsset asOf context =
        .ok ⟨assembled selected baseAsset quoteAsset asOf context (rationalText (p / q)),
          evidenceHash⟩ := by
  obtain ⟨-, latest, hsele⟩ := h.selection haccepted
  have hvalid : AllValid sha256 now context selected :=
    fun row hrow => haccepted.valid (hsele.eligible row hrow).1
  obtain ⟨hbase, hquote, p, q, hp, hq, hbaseRate, hquoteRate⟩ :=
    exists_rates h.legs hsele.legs hvalid
  obtain ⟨last, hlast, -⟩ := hsele.last
  have hcount : selected.length ≤ 3 := by
    rw [← List.length_map (f := (·.legId)), hsele.legs]
    exact (requiredLegs_ok h.legs).2
  have hasOf : 0 ≤ asOf ∧ asOf ≤ maxSafeInteger := by
    have hsafe := hasked.safe
    have hnn := hasked.nonneg
    rw [isSafeInteger] at hsafe
    omega
  obtain ⟨evidenceHash, hdig⟩ : ∃ evidenceHash, conversionDigest sha256 (assembled selected
      baseAsset quoteAsset asOf context (rationalText (p / q))) = .ok evidenceHash :=
    conversionDigest_ok (encodable_assembled hasked.digests hasked.clock hvalid
      (List.ne_nil_of_mem hlast) hcount hbase hquote hasOf (hp.fits_div hq))
  refine ⟨p, q, evidenceHash, hp, hq, hbaseRate, hquoteRate, deriveFxConversion_eq_ok.mpr
    ⟨⟨hasked.length, hasked.safe, hasked.nonneg, hasked.pair⟩, required, selected, h, ?_, hdig⟩⟩
  exact selectedConversion_eq_ok.mpr ⟨_, _, _, hbaseRate, hquoteRate,
    divideRational_rationalText hp.fits hq.fits hq.pos.ne' (hp.fits_div hq), rfl⟩

theorem Selection.ends {latest : ℤ} (h : Selection values required asOf selected latest) :
    ∃ earliest, Ends selected earliest latest ∧ latest ≤ earliest + 1000 ∧ latest ≤ asOf ∧
      asOf ≤ earliest + 10000 := by
  obtain ⟨last, hlast, hlat⟩ := h.last
  obtain ⟨earliest, end_, hends⟩ := exists_ends (List.ne_nil_of_mem hlast)
  obtain ⟨first, hfirst, hearliest⟩ := hends.first
  have hend : end_ = latest := by
    obtain ⟨final, hfinal, rfl⟩ := hends.last
    exact le_antisymm (h.within final hfinal) (hlat ▸ (hends.within last hlast).2)
  have hspan := h.second last hlast first hfirst
  have hlastEligible := eligible_iff.mp (h.eligible last hlast).2
  have hfirstEligible := eligible_iff.mp (h.eligible first hfirst).2
  exact ⟨earliest, hend ▸ hends, by omega, by omega, by omega⟩

theorem fresh_of_selection {conversion : FxConversionEvidence} {latest : ℤ} {rate : ExactRational}
    (haccepted : Accepted sha256 now context values) (hsafe : isSafeInteger asOf)
    (hsele : Selection values required asOf selected latest)
    (hasm : assembled selected baseAsset quoteAsset asOf context rate =
      conversion.toFxConversion)
    (hdig : conversionDigest sha256 conversion.toFxConversion = .ok conversion.evidenceHash) :
    conversion.latestAt = latest ∧
      assertFxConversionFresh (conversionDigest sha256) asOf conversion = .ok () := by
  obtain ⟨earliest, hends, hspan, hlate, hfresh⟩ := hsele.ends
  obtain ⟨first, hfirst, hearliest⟩ := hends.first
  have hnn := (haccepted.valid (hsele.eligible first hfirst).1).responseAt
  have hwithin := hends.within first hfirst
  have hflds : conversion.version = 1 ∧ conversion.policy = "stable-index-asof-10s-v1" ∧
      conversion.valuationBasis = "provider_snapshot_index_asof" ∧ conversion.asOf = asOf ∧
      conversion.earliestAt = earliest ∧ conversion.latestAt = latest ∧
      conversion.expiresAt = earliest + 10000 := by
    rw [← hasm]
    simp [assembled, hends.min, hends.max]
  obtain ⟨hver, hpol, hbasis, hasOf, hearliestAt, hlatestAt, hexpiresAt⟩ := hflds
  have hallowed : isSafeInteger conversion.expiresAt := by
    obtain ⟨hadm, -⟩ := FxReceipt.fxEvidenceDigest_ok hdig
    have hmems := FxReceipt.admissibleMembers_iff.mp hadm.2
    have hnumb := (hmems ("expiresAt", .number conversion.expiresAt)
      (by simp [conversionMembers])).2
    rw [FxReceipt.Admissible] at hnumb
    simpa [FxReceipt.NumberAllowed] using hnumb.2.2
  refine ⟨hlatestAt, ?_⟩
  unfold assertFxConversionFresh
  rw [hdig, ok_bind, throwIf_of_not]
  rw [hexpiresAt] at hallowed
  simp only [hver, hpol, hbasis, hasOf, hearliestAt, hlatestAt, hexpiresAt, ne_eq,
    not_true_eq_false, false_or, List.forall_mem_cons, List.not_mem_nil, false_implies,
    implies_true, and_true]
  simp only [isSafeInteger] at hsafe hallowed ⊢
  omega

theorem fx_conversion_derived (haccepted : Accepted sha256 now context values)
    (hdigests : ∀ text, digestPattern (sha256 text) = true) (hclock : now ≤ 8640000000000000) :
    (values.length ≤ 256 →
      (∀ baseAsset quoteAsset asOf values', values'.length ≤ 256 →
        (∀ value, value ∈ values' ↔ value ∈ values) →
          deriveFxConversion sha256 now values' baseAsset quoteAsset asOf context =
            deriveFxConversion sha256 now values baseAsset quoteAsset asOf context) ∧
      ∀ baseAsset quoteAsset asOf required, requiredLegs baseAsset quoteAsset = .ok required →
        baseAsset ≠ quoteAsset → isSafeInteger asOf → 0 ≤ asOf →
          ((∃ conversion,
            deriveFxConversion sha256 now values baseAsset quoteAsset asOf context =
              .ok conversion) ↔ Agree (eligibleSet values required asOf) ∧
                ∃ choice, Choice values required asOf choice) ∧
          ∀ conversion,
            deriveFxConversion sha256 now values baseAsset quoteAsset asOf context =
                .ok conversion →
              (∃ selected, Selection values required asOf selected conversion.latestAt ∧
                selected.map (·.receiptHash) = conversion.receiptHashes) ∧
              assertFxConversionFresh (conversionDigest sha256) asOf conversion = .ok () ∧
              ∃ mirrored rate,
                deriveFxConversion sha256 now values quoteAsset baseAsset asOf context =
                  .ok mirrored ∧
                Represents conversion.rate rate ∧ Represents mirrored.rate rate⁻¹) ∧
    (256 < values.length → ∀ baseAsset quoteAsset asOf,
      deriveFxConversion sha256 now values baseAsset quoteAsset asOf context =
        .error (invalidFx "EVIDENCE_INVALID")) := by
  refine ⟨fun hlength => ⟨fun _ _ _ _ hlength' hsame =>
    deriveFxConversion_congr haccepted hsame hlength hlength', ?_⟩, ?_⟩
  swap
  · intro hlong baseAsset quoteAsset asOf
    rw [deriveFxConversion, throwIf, if_pos (.inl hlong)]
    rfl
  intro baseAsset quoteAsset asOf required hreq hpair hsafe hnn
  have hasked : Asked sha256 now values baseAsset quoteAsset asOf :=
    ⟨hdigests, hclock, hlength, hsafe, hnn, hpair⟩
  constructor
  · constructor
    · rintro ⟨conversion, h⟩
      obtain ⟨-, legs, selected, hder, -⟩ := deriveFxConversion_eq_ok.mp h
      obtain rfl : legs = required := Except.ok.inj (hder.legs.symm.trans hreq)
      obtain ⟨hagree, latest, hsele⟩ := hder.selection haccepted
      exact ⟨hagree, selected, hsele.toChoice⟩
    · rintro ⟨hagree, choice, hchoice⟩
      obtain ⟨selected, hder⟩ := derives_of_choice haccepted hpair hreq hagree hchoice
      obtain ⟨_, _, _, -, -, -, -, h⟩ := hder.conversion haccepted hasked
      exact ⟨_, h⟩
  · intro conversion h
    obtain ⟨-, legs, selected, hder, hsel, hdig⟩ := deriveFxConversion_eq_ok.mp h
    obtain rfl : legs = required := Except.ok.inj (hder.legs.symm.trans hreq)
    obtain ⟨-, latest, hsele⟩ := hder.selection haccepted
    obtain ⟨_, _, rate, -, -, -, hasm⟩ := selectedConversion_eq_ok.mp hsel
    obtain ⟨rfl, hfresh⟩ := fresh_of_selection haccepted hsafe hsele hasm hdig
    refine ⟨⟨selected, hsele, by rw [← hasm, assembled]⟩, hfresh, ?_⟩
    obtain ⟨p, q, evidenceHash, hp, hq, hbase, hquote, hconv⟩ :=
      hder.conversion haccepted hasked
    obtain ⟨q', p', mirroredHash, -, -, hquote', hbase', hmirrored⟩ :=
      hder.swap.conversion haccepted hasked.swap
    have hsame : ∀ {x y : ℚ}, Quotient x → rationalText x = rationalText y → y = x := by
      intro x y hx heq
      have hx' := represents_rationalText hx.fits
      rw [heq] at hx'
      exact (represents_rationalText_iff.mp hx').1
    rw [hquote] at hquote'
    rw [hbase] at hbase'
    obtain rfl := hsame hq (Except.ok.inj hquote')
    obtain rfl := hsame hp (Except.ok.inj hbase')
    rw [h] at hconv
    cases hconv
    refine ⟨_, p' / q', hmirrored, represents_rationalText (hp.fits_div hq), ?_⟩
    rw [inv_div]
    exact represents_rationalText (hq.fits_div hp)

end Outcome

section Quoted

open DigestTable FxReceipt TradingFxRepository

/-- The receipts that the bitcoin quotes are read from, the dollar's first. -/
def bitcoinReceipts : List (Json ℚ) := [dollarQuote.receipt.json, tetherQuote.receipt.json]

theorem accepted_bitcoinReceipts : Accepted quotedSha256 20000
    usdcContext bitcoinReceipts := by
  have haccepted : ∀ {quote : LegQuote}, quote.Checked quotedSha256 → ∃ row,
      validReceipt quotedSha256 20000 usdcContext quote.receipt.json = .ok row :=
    fun h => ⟨_, (h.valid (by omega)).validReceipt⟩
  intro value hvalue
  simp only [bitcoinReceipts, List.mem_cons, List.not_mem_nil, or_false] at hvalue
  rcases hvalue with rfl | rfl
  · exact haccepted (LegQuote.Plain.checked (by decide +kernel)
      (List.mem_of_getElem? (i := 3) rfl) (List.mem_of_getElem? (i := 4) rfl))
  · exact haccepted (LegQuote.Plain.checked (by decide +kernel)
      (List.mem_of_getElem? (i := 5) rfl) (List.mem_of_getElem? (i := 6) rfl))

theorem choice_bitcoinReceipts :
    Agree (eligibleSet bitcoinReceipts (legOrder.take 2) 1000) ∧
      Choice bitcoinReceipts (legOrder.take 2) 1000 [dollarQuote.receipt, tetherQuote.receipt] := by
  obtain ⟨hdollarLeg, hdollarTime, -⟩ := dollarQuote.receipt_fields
  obtain ⟨htetherLeg, htetherTime, -⟩ := tetherQuote.receipt_fields
  have hdollar : dollarQuote.receipt.legId = "bybit:btc-usd-index:v1" := hdollarLeg
  have htether : tetherQuote.receipt.legId = "bybit:btc-usdt-index:v1" := htetherLeg
  have hne : dollarQuote.receipt.legId ≠ tetherQuote.receipt.legId := by
    rw [hdollar, htether]
    decide
  have hrequired : legOrder.take 2 = ["bybit:btc-usd-index:v1", "bybit:btc-usdt-index:v1"] := rfl
  have honly : ∀ row ∈ eligibleSet bitcoinReceipts (legOrder.take 2) 1000,
      row = dollarQuote.receipt ∨ row = tetherQuote.receipt := by
    intro row hrow
    have hmem := hrow.1
    simp only [bitcoinReceipts, List.mem_cons, List.not_mem_nil, or_false] at hmem
    exact hmem.imp FxLegReceipt.json_inj.mp FxLegReceipt.json_inj.mp
  constructor
  · intro row hrow other hother hobs
    have hleg : row.legId = other.legId := congrArg Prod.fst hobs
    rcases honly row hrow with rfl | rfl
    · rcases honly other hother with rfl | rfl
      · rfl
      · exact absurd hleg hne
    · rcases honly other hother with rfl | rfl
      · exact absurd hleg.symm hne
      · rfl
  · rw [hrequired]
    refine ⟨by simp [hdollar, htether], ?_, by simp [hdollarTime, htetherTime]⟩
    intro row hrow
    simp only [List.mem_cons, List.not_mem_nil, or_false] at hrow
    rcases hrow with rfl | rfl
    · exact ⟨by simp [bitcoinReceipts], by simp [eligible, hdollar, hdollarTime]⟩
    · exact ⟨by simp [bitcoinReceipts], by simp [eligible, htether, htetherTime]⟩

/-- More than 256 receipts are refused, also when they are one receipt over and over. -/
theorem repeated_receipt_refused :
    (∃ conversion, deriveFxConversion quotedSha256 20000
        [coinQuote.receipt.json] "USDC" "USD" 1000 usdcContext = .ok conversion) ∧
      deriveFxConversion quotedSha256 20000
        (List.replicate 257 coinQuote.receipt.json) "USDC" "USD" 1000 usdcContext =
          .error (invalidFx "EVIDENCE_INVALID") := by
  refine ⟨⟨_, CoinQuote.derive_eq converts_coinQuote⟩, ?_⟩
  have hlong : 256 < (List.replicate 257 coinQuote.receipt.json).length := by
    rw [List.length_replicate]
    omega
  rw [deriveFxConversion, throwIf, if_pos (.inl hlong)]
  rfl

/-- The tether is worth as much in dollars as the quotes of bitcoin say, in any order of them. -/
theorem fx_conversion_derived_quoted :
    ∃ conversion mirrored rate,
      deriveFxConversion quotedSha256 20000 bitcoinReceipts "USDT"
        "USD" 1000 usdcContext = .ok conversion ∧
      deriveFxConversion quotedSha256 20000
        (tetherQuote.receipt.json :: bitcoinReceipts.reverse) "USDT" "USD" 1000 usdcContext =
          .ok conversion ∧
      assertFxConversionFresh (conversionDigest quotedSha256) 1000
        conversion = .ok () ∧
      deriveFxConversion quotedSha256 20000 bitcoinReceipts "USD"
        "USDT" 1000 usdcContext = .ok mirrored ∧
      Represents conversion.rate rate ∧ Represents mirrored.rate rate⁻¹ := by
  obtain ⟨hshort, -⟩ := fx_conversion_derived accepted_bitcoinReceipts digestPattern_quoted
    (by omega)
  have hlength : bitcoinReceipts.length = 2 := rfl
  obtain ⟨hsame, hderd⟩ := hshort (by omega)
  obtain ⟨hok, hres⟩ := hderd "USDT" "USD" 1000 (legOrder.take 2) rfl (by decide)
    (by simp [isSafeInteger, maxSafeInteger]) (by omega)
  obtain ⟨conversion, h⟩ := hok.mpr ⟨choice_bitcoinReceipts.1, _, choice_bitcoinReceipts.2⟩
  obtain ⟨-, hfresh, mirrored, rate, hmirrored, hrate, hinverse⟩ := hres conversion h
  refine ⟨conversion, mirrored, rate, h, (hsame _ _ _ _ ?_ ?_).trans h, hfresh,
    hmirrored, hrate, hinverse⟩
  · rw [List.length_cons, List.length_reverse]
    omega
  · intro value
    rw [List.mem_cons, List.mem_reverse]
    refine or_iff_right_of_imp ?_
    rintro rfl
    exact List.mem_cons_of_mem _ List.mem_cons_self

end Quoted

end TsxCore.TradingFxQuotes
