import TsxCore.TradingTypes
import TsxCore.DecimalBounds

/-!
# The geometry of executable signals (`signal_schema.ts`)

The prices of a signal are positive plain decimals. With every check on, the stop
lies on the loss side of the entry range, the targets on its profit side, and each
target beyond the one before it. On the axis that grows towards profit both sides
of the market read alike.
-/

namespace TsxCore.SignalSchema

open Outcome TradingDecimal TradingTypes

def signalValidationError (message : String) : Thrown := ⟨"SignalValidationError", none, message⟩

/-- `/^(?:0|[1-9]\d{0,17})(?:\.\d{1,18})?$/`. -/
def pricePattern (cs : List Char) : Bool :=
  Numeral.isNatural 18 (cs.takeWhile (· != '.')) &&
    match cs.dropWhile (· != '.') with
    | [] => true
    | _ :: fraction => Numeral.isFraction 18 fraction

/-- The integer that `compareDecimals` reads: the fraction is padded to the common scale. -/
def scaledValue (value : String) (scale : ℕ) : ℕ :=
  Nat.ofDigitChars 10 (integerPart value ++ (fractionPart value).rightpad scale '0') 0

def compareDecimals (left right : String) : ℤ :=
  let scale := max (fractionPart left).length (fractionPart right).length
  sign (scaledValue left scale) (scaledValue right scale)

/-- The text of a leaf as a price; `label` opens both messages. -/
def signalDecimal (value label : String) : Outcome String := do
  throwIf (pricePattern value.toList = false) (signalValidationError
    (label ++ " must be a positive plain decimal without suffixes, got '" ++ value ++ "'."))
  throwIf (compareDecimals value "0" ≤ 0)
    (signalValidationError (label ++ " must be greater than zero."))
  return value

structure SignalContractGeometry where
  stopOnLossSide : Bool
  targetsOnProfitSide : Bool
  orderedTargets : Bool
  orderedRanges : Bool

/-- The constant of the built-in contracts: every check is on. -/
def allChecks : SignalContractGeometry := ⟨true, true, true, true⟩

/-- `if (check) …` as a step. -/
def checkedWhen (check : Bool) (step : Outcome Unit) : Outcome Unit :=
  if check then step else return ()

@[simp] theorem checkedWhen_true (step : Outcome Unit) : checkedWhen true step = step := rfl

def assertOrderedContractTarget (action : TradingSide) (target previous : DecimalRange) :
    Outcome Unit :=
  match action with
  | .long => throwIf (compareDecimals target.min previous.max ≤ 0)
      (signalValidationError "LONG targets must be strictly ordered away from entry.")
  | .short => throwIf (0 ≤ compareDecimals target.max previous.min)
      (signalValidationError "SHORT targets must be strictly ordered away from entry.")

def assertProfitSide (action : TradingSide) (index : ℕ) (target : DecimalRange) :
    Option DecimalRange → Outcome Unit
  | none => return ()
  | some entry =>
    match action with
    | .long => throwIf (compareDecimals target.min entry.max ≤ 0) (signalValidationError
        ("LONG target " ++ bigintText (index + 1) ++ " must be above entry."))
    | .short => throwIf (0 ≤ compareDecimals target.max entry.min) (signalValidationError
        ("SHORT target " ++ bigintText (index + 1) ++ " must be below entry."))

/-- One round of the loop over the targets; the first one has none before it. -/
def assertContractTarget (geometry : SignalContractGeometry) (action : TradingSide)
    (entry : Option DecimalRange) (index : ℕ) (previous : Option DecimalRange)
    (target : DecimalRange) : Outcome Unit := do
  throwIf (geometry.orderedRanges = true ∧ 0 < compareDecimals target.min target.max)
    (signalValidationError ("Target " ++ bigintText (index + 1) ++ " range is inverted."))
  checkedWhen geometry.targetsOnProfitSide (assertProfitSide action index target entry)
  match geometry.orderedTargets, previous with
  | true, some previous => assertOrderedContractTarget action target previous
  | _, _ => return ()

def assertContractTargets (geometry : SignalContractGeometry) (action : TradingSide)
    (entry : Option DecimalRange) : ℕ → Option DecimalRange → List DecimalRange → Outcome Unit
  | _, _, [] => return ()
  | index, previous, target :: rest => do
    assertContractTarget geometry action entry index previous target
    assertContractTargets geometry action entry (index + 1) (some target) rest

def assertStopSide (action : TradingSide) (baseline : DecimalRange) (stopLoss : String) :
    Outcome Unit :=
  match action with
  | .long => throwIf (0 ≤ compareDecimals stopLoss baseline.min)
      (signalValidationError "LONG stoploss must be below the entry range.")
  | .short => throwIf (compareDecimals stopLoss baseline.max ≤ 0)
      (signalValidationError "SHORT stoploss must be above the entry range.")

/-- Without an entry range the first target is the baseline of the stop. -/
def assertContractGeometry (geometry : SignalContractGeometry) (action : TradingSide)
    (entry : Option DecimalRange) (stopLoss : String) : List DecimalRange → Outcome Unit
  | [] => throw (signalValidationError "At least one target is required.")
  | first :: rest => do
    checkedWhen geometry.stopOnLossSide (assertStopSide action (entry.getD first) stopLoss)
    assertContractTargets geometry action entry 0 none (first :: rest)

def entryRange : SignalEntry → Option DecimalRange
  | .market => none
  | .range bounds => some bounds

/-- The texts of a signal that were read as prices. -/
def signalPrices (signal : ExecutableSignal) : List String :=
  signal.stopLoss :: ((entryRange signal.entry).toList ++ signal.targets).flatMap
    (fun bounds => [bounds.min, bounds.max])

/-- What the validator has checked of a signal it accepts with every geometry check on. -/
structure Accepted (signal : ExecutableSignal) : Prop where
  prices : ∀ price ∈ signalPrices signal, ∃ label, signalDecimal price label = .ok price
  range : ∀ bounds, entryRange signal.entry = some bounds →
    compareDecimals bounds.min bounds.max ≤ 0
  geometry : assertContractGeometry allChecks signal.action (entryRange signal.entry)
    signal.stopLoss signal.targets = .ok ()

section Prices

variable {value : String}

theorem parse_of_pricePattern (h : pricePattern value.toList = true) :
    ∃ p, parse value = .ok p := by
  rw [pricePattern, Bool.and_eq_true] at h
  obtain ⟨n, hn, hlt⟩ := (Numeral.isNatural_iff (by omega) _).mp h.1
  have hpat : decimalPattern value.toList = true := by
    rw [decimalPattern, Bool.and_eq_true]
    refine ⟨(Numeral.isNatural_iff (by omega) _).mpr ⟨n, hn, ?_⟩, h.2⟩
    exact hlt.trans (by norm_num)
  rw [parse, throwIf_of_not (by simp [hpat]), ok_bind]
  exact ⟨_, rfl⟩

theorem scaledValue_of_parse {p : ParsedDecimal} (h : parse value = .ok p) {scale : ℕ}
    (hscale : (fractionPart value).length ≤ scale) (hle : scale ≤ 18) :
    scaledValue value scale * 10 ^ (18 - scale) = p.units := by
  simp only [parse, bind_eq_ok, throwIf_eq_ok, pure_eq_ok_iff] at h
  obtain ⟨-, -, rfl⟩ := h
  rw [scaledValue, List.rightpad, ← List.append_assoc, Nat.ofDigitChars_append,
    Numeral.ofDigitChars_zeros, mul_assoc, ← pow_add, ParsedDecimal.units]
  have hexponent : scale - (fractionPart value).length + (18 - scale) =
      18 - (fractionPart value).length := by
    omega
  rw [hexponent]

/-- The comparison of the validator is the one of the planner. -/
theorem compareDecimals_eq {left right : String} {u v : ℕ} (hu : Denotes left u)
    (hv : Denotes right v) : compareDecimals left right = sign u v := by
  obtain ⟨p, hp, rfl⟩ := hu
  obtain ⟨q, hq, rfl⟩ := hv
  have hfrac : ∀ {value : String} {p : ParsedDecimal}, parse value = .ok p →
      (fractionPart value).length ≤ 18 := by
    intro value p hp
    have hscale := (numeral_of_parse hp).2.1
    simp only [parse, bind_eq_ok, throwIf_eq_ok, pure_eq_ok_iff] at hp
    obtain ⟨-, -, rfl⟩ := hp
    exact hscale
  have hle := max_le (hfrac hp) (hfrac hq)
  rw [compareDecimals, ← scaledValue_of_parse hp (le_max_left _ _) hle,
    ← scaledValue_of_parse hq (le_max_right _ _) hle]
  exact sign_scale _ _ (by positivity)

theorem denotes_of_signalDecimal {label s : String} (h : signalDecimal value label = .ok s) :
    ∃ u, Denotes value u ∧ 0 < u := by
  simp only [signalDecimal, bind_eq_ok, throwIf_eq_ok, Bool.not_eq_false, not_le] at h
  obtain ⟨-, hpat, -, hpositive, -⟩ := h
  obtain ⟨p, hp⟩ := parse_of_pricePattern hpat
  have hu : Denotes value p.units := ⟨p, hp, rfl⟩
  rw [compareDecimals_eq hu denotes_zero, sign_pos_iff] at hpositive
  exact ⟨p.units, hu, hpositive⟩

theorem compareDecimals_value {left right : String} {u v : ℕ} (hu : Denotes left u)
    (hv : Denotes right v) :
    (compareDecimals left right < 0 ↔ decimalValue left < decimalValue right) ∧
      (0 < compareDecimals left right ↔ decimalValue right < decimalValue left) := by
  rw [compareDecimals_eq hu hv]
  exact compareDecimal_value (compareDecimal_ok_iff.mpr ⟨u, v, hu, hv, rfl⟩)

end Prices

section Order

variable {entry previous : Option DecimalRange}

/-- Prices on the axis that grows towards the profit of the side. -/
def directed (side : TradingSide) (price : ℚ) : ℚ :=
  match side with
  | .long => price
  | .short => -price

/-- Both bounds are decimals. -/
def Readable (bounds : DecimalRange) : Prop :=
  (∃ u, Denotes bounds.min u) ∧ ∃ v, Denotes bounds.max v

def Within (bounds : DecimalRange) (price : ℚ) : Prop :=
  decimalValue bounds.min ≤ price ∧ price ≤ decimalValue bounds.max

/-- Every price of the later range lies beyond every price of the earlier one. -/
def Beyond (side : TradingSide) (earlier later : DecimalRange) : Prop :=
  ∀ x y, Within earlier x → Within later y → directed side x < directed side y

variable {side : TradingSide} {s t u : DecimalRange}

theorem Beyond.trans (h : Beyond side s t) (h' : Beyond side t u)
    (ht : decimalValue t.min ≤ decimalValue t.max) : Beyond side s u := by
  intro x y hx hy
  have hmin : Within t (decimalValue t.min) := ⟨le_rfl, ht⟩
  exact (h x _ hx hmin).trans (h' _ y hmin hy)

theorem beyond_of_compare (hs : Readable s) (ht : Readable t)
    (h : match side with
      | .long => ¬ compareDecimals t.min s.max ≤ 0
      | .short => ¬ 0 ≤ compareDecimals t.max s.min) : Beyond side s t := by
  obtain ⟨⟨_, hsmin⟩, _, hsmax⟩ := hs
  obtain ⟨⟨_, htmin⟩, _, htmax⟩ := ht
  intro x y hx hy
  cases side with
  | long =>
    have hlt := (compareDecimals_value htmin hsmax).2.mp (not_le.mp h)
    exact (hx.2.trans_lt hlt).trans_le hy.1
  | short =>
    have hlt := (compareDecimals_value htmax hsmin).1.mp (not_le.mp h)
    exact neg_lt_neg ((hy.2.trans_lt hlt).trans_le hx.1)

theorem ordered_of_compare (hs : Readable s) (h : ¬ 0 < compareDecimals s.min s.max) :
    decimalValue s.min ≤ decimalValue s.max := by
  obtain ⟨⟨_, hmin⟩, _, hmax⟩ := hs
  apply not_lt.mp
  intro hlt
  exact h ((compareDecimals_value hmin hmax).2.mpr hlt)

theorem assertContractTarget_ok {index : ℕ} (ht : Readable t) (hentry : ∀ e ∈ entry, Readable e)
    (hprev : ∀ p ∈ previous, Readable p)
    (h : assertContractTarget allChecks side entry index previous t = .ok ()) :
    decimalValue t.min ≤ decimalValue t.max ∧ (∀ e ∈ entry, Beyond side e t) ∧
      ∀ p ∈ previous, Beyond side p t := by
  simp only [assertContractTarget, allChecks, checkedWhen_true, true_and, bind_eq_ok,
    throwIf_eq_ok] at h
  obtain ⟨⟨⟩, hrange, ⟨⟩, hprofit, horder⟩ := h
  refine ⟨ordered_of_compare ht hrange, ?_, ?_⟩
  · rintro e rfl
    apply beyond_of_compare (hentry e rfl) ht
    cases side with
    | long => exact throwIf_eq_ok.mp hprofit
    | short => exact throwIf_eq_ok.mp hprofit
  · rintro p rfl
    apply beyond_of_compare (hprev p rfl) ht
    cases side with
    | long => exact throwIf_eq_ok.mp horder
    | short => exact throwIf_eq_ok.mp horder

/-- What the loop over the targets has checked of those still to come. -/
theorem assertContractTargets_ok {index : ℕ} {targets : List DecimalRange}
    (htgts : ∀ t ∈ targets, Readable t) (hentry : ∀ e ∈ entry, Readable e)
    (hprev : ∀ p ∈ previous, Readable p)
    (h : assertContractTargets allChecks side entry index previous targets = .ok ()) :
    (∀ t ∈ targets, decimalValue t.min ≤ decimalValue t.max) ∧
      (∀ e ∈ entry, ∀ t ∈ targets, Beyond side e t) ∧
      (∀ p ∈ previous, ∀ t ∈ targets, Beyond side p t) ∧ targets.Pairwise (Beyond side) := by
  induction targets generalizing index previous with
  | nil => simp
  | cons t rest ih =>
    simp only [assertContractTargets, bind_eq_ok] at h
    obtain ⟨⟨⟩, hfirst, hrest⟩ := h
    rw [List.forall_mem_cons] at htgts
    obtain ⟨hrange, hprofit, horder⟩ :=
      assertContractTarget_ok htgts.1 hentry hprev hfirst
    obtain ⟨hranges, hprofits, hnext, hpairs⟩ :=
      ih htgts.2 (by rintro p ⟨⟩; exact htgts.1) hrest
    simp only [List.forall_mem_cons, List.pairwise_cons]
    refine ⟨⟨hrange, hranges⟩, fun e he => ⟨hprofit e he, hprofits e he⟩, fun p hp => ?_,
      hnext t rfl, hpairs⟩
    exact ⟨horder p hp, fun u hu => (horder p hp).trans (hnext t rfl u hu) hrange⟩

end Order

section Accepted

variable {signal : ExecutableSignal}

theorem Accepted.denotes (h : Accepted signal) {price : String}
    (hprice : price ∈ signalPrices signal) :
    ∃ u, Denotes price u ∧ 0 < u := by
  obtain ⟨label, hlabel⟩ := h.prices price hprice
  exact denotes_of_signalDecimal hlabel

theorem Accepted.positive (h : Accepted signal) {bounds : DecimalRange}
    (hbounds : entryRange signal.entry = some bounds ∨ bounds ∈ signal.targets) :
    Readable bounds ∧ 0 < decimalValue bounds.min := by
  have hmem : ∀ price ∈ [bounds.min, bounds.max], price ∈ signalPrices signal := by
    intro price hprice
    apply List.mem_cons_of_mem
    apply List.mem_flatMap.mpr ⟨bounds, ?_, hprice⟩
    rw [List.mem_append, Option.mem_toList]
    exact hbounds
  obtain ⟨u, hu, hpos⟩ := h.denotes (hmem bounds.min (by simp))
  obtain ⟨v, hv, -⟩ := h.denotes (hmem bounds.max (by simp))
  refine ⟨⟨⟨u, hu⟩, v, hv⟩, ?_⟩
  rw [hu.decimalValue]
  exact unitValue_pos hpos

/-- Entry range and targets follow each other towards the profit. -/
theorem Accepted.ordered (h : Accepted signal) :
    (∀ t ∈ signal.targets, decimalValue t.min ≤ decimalValue t.max) ∧
      (∀ e ∈ entryRange signal.entry, decimalValue e.min ≤ decimalValue e.max ∧
        ∀ t ∈ signal.targets, Beyond signal.action e t) ∧
      signal.targets.Pairwise (Beyond signal.action) := by
  have hloop : assertContractTargets allChecks signal.action (entryRange signal.entry) 0 none
      signal.targets = .ok () := by
    have hgeometry := h.geometry
    cases htgts : signal.targets with
    | nil => rfl
    | cons first rest =>
      simp only [htgts, assertContractGeometry, bind_eq_ok] at hgeometry
      obtain ⟨-, -, hloop⟩ := hgeometry
      exact hloop
  have hentry : ∀ e ∈ entryRange signal.entry, Readable e := fun e he =>
    (h.positive (.inl he)).1
  obtain ⟨hranges, hprofits, -, hpairs⟩ := assertContractTargets_ok
    (fun t ht => (h.positive (.inr ht)).1) hentry (by simp) hloop
  refine ⟨hranges, fun e he => ⟨?_, hprofits e he⟩, hpairs⟩
  exact ordered_of_compare (hentry e he) (not_lt.mpr (h.range e he))

end Accepted

end TsxCore.SignalSchema
