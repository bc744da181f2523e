import TsxCore.TradingPlanSizing

/-!
# One sizing in exact fractions, one in truncated decimals

Sizing across currencies rounds once: its quantity is the largest multiple of the step within
every budget of the mode. Sizing in one currency truncates each product and quotient to eighteen
digits before it rounds to the step. At rate one the two size from the same limit, the second
from a lower one where something was cut off.
-/

namespace TsxCore.TradingFxSizing

open Outcome TradingDecimal TradingRational TradingTypes TradingFxQuotes TradingRisk

section Truncation

variable {l r s : String}

def Representable (x : ℚ) : Prop := ∃ i : ℤ, x = unitValue i

theorem unitValue_eq_count (i : ℤ) : unitValue i = i * unitValue 1 := by
  simp only [unitValue]
  push_cast
  ring

theorem quantum_pos : 0 < unitValue 1 :=
  unitValue_pos one_pos

theorem Representable.floorTo_eq {x : ℚ} (h : Representable x) : floorTo (unitValue 1) x = x := by
  obtain ⟨i, rfl⟩ := h
  have hfloor := (floorTo_eq_iff (x := i * unitValue 1) quantum_pos i).mpr
    ⟨le_rfl, lt_add_of_pos_right _ quantum_pos⟩
  rwa [← unitValue_eq_count] at hfloor

theorem multiplyDecimal_value (h : multiplyDecimal l r = .ok s) :
    decimalValue s = floorTo (unitValue 1) (decimalValue l * decimalValue r) := by
  obtain ⟨u, v, hu, hv, rfl⟩ := multiplyDecimal_ok_iff.mp h
  have hprod : unitValue u * unitValue v / unitValue 1 = ((u * v : ℕ) : ℚ) / (10 ^ 18 : ℕ) := by
    simp only [unitValue]
    push_cast
    field_simp
    ring
  rw [decimalValue_text, hu.decimalValue, hv.decimalValue, floorTo, hprod,
    Rat.floor_natCast_div_natCast, unitValue_eq_count]
  norm_cast

theorem divideDecimal_value (h : divideDecimal l r = .ok s) :
    0 < decimalValue r ∧
      decimalValue s = floorTo (unitValue 1) (decimalValue l / decimalValue r) := by
  obtain ⟨u, v, hu, hv, hpos, rfl⟩ := (divideDecimal_ok_iff le_rfl).mp h
  have hquot : unitValue u / unitValue v / unitValue 1 = ((u * 10 ^ 18 : ℕ) : ℚ) / (v : ℕ) := by
    simp only [unitValue]
    push_cast
    field_simp
    ring
  refine ⟨hv.decimalValue ▸ unitValue_pos hpos, ?_⟩
  rw [decimalValue_text, hu.decimalValue, hv.decimalValue, floorTo, hquot,
    Rat.floor_natCast_div_natCast, unitValue_eq_count]
  norm_cast
  rw [Nat.sub_self, pow_zero, mul_one]

theorem multiplyDecimal_exact (h : multiplyDecimal l r = .ok s)
    (hexact : Representable (decimalValue l * decimalValue r)) :
    decimalValue s = decimalValue l * decimalValue r :=
  (multiplyDecimal_value h).trans hexact.floorTo_eq

theorem multiplyDecimal_leverage {leverage : ℤ}
    (h : multiplyDecimal l (bigintText leverage) = .ok s) :
    decimalValue s = decimalValue l * leverage := by
  obtain ⟨u, _, hu, hv, -⟩ := multiplyDecimal_ok_iff.mp h
  have hleverage := decimalValue_bigintText hv
  rw [← hleverage]
  apply multiplyDecimal_exact h
  refine ⟨u * leverage, ?_⟩
  rw [hu.decimalValue, hleverage, unitValue, unitValue]
  push_cast
  ring

theorem minDecimal_triple {t : String} (h : minDecimal l [r, t] = .ok s) :
    decimalValue s = min (decimalValue l) (min (decimalValue r) (decimalValue t)) := by
  have hle := minDecimal_le h
  simp only [List.mem_cons, List.not_mem_nil, or_false, forall_eq_or_imp, forall_eq] at hle
  apply le_antisymm
  · exact le_min hle.1 (le_min hle.2.1 hle.2.2)
  · have hmem := minDecimal_mem h
    simp only [List.mem_cons, List.not_mem_nil, or_false] at hmem
    rcases hmem with rfl | rfl | rfl
    · exact min_le_left _ _
    · exact (min_le_right _ _).trans (min_le_left _ _)
    · exact (min_le_right _ _).trans (min_le_right _ _)

end Truncation

section Fractions

variable {r : ExactRational} {p q : ℚ}

theorem positive_value {s : String} (h : positive s = .ok r) :
    Represents r (decimalValue s) ∧ 0 < decimalValue s := by
  obtain ⟨u, hu, hpos, rfl⟩ := positive_ok_iff.mp h
  have hvalue : decimalValue s = unitValue u := hu.readsSigned.decimalValue
  rw [hvalue]
  exact ⟨represents_unitValue hu.lt, unitValue_pos hpos⟩

theorem nonnegative_value {s : String} (h : nonnegative s = .ok r) :
    Represents r (decimalValue s) := by
  simp only [nonnegative, bind_eq_ok] at h
  obtain ⟨_, hs, h⟩ := h
  obtain ⟨u, hu, rfl, -⟩ := decimal_reads hs
  have hvalue : decimalValue s = unitValue u := hu.readsSigned.decimalValue
  rw [rationalFromDecimal_text hu.lt, Except.ok.injEq] at h
  rw [hvalue, ← h]
  exact represents_unitValue hu.lt

theorem positive_leverage {leverage : ℤ} (h : positive (bigintText leverage) = .ok r) :
    Represents r leverage := by
  obtain ⟨hr, -⟩ := positive_value h
  obtain ⟨u, hu, -, -⟩ := positive_ok_iff.mp h
  have hnn : ¬ leverage < 0 := by
    intro hneg
    have hfalse := hu.isNegative
    rw [bigintText, if_pos hneg, isNegative_minus] at hfalse
    cases hfalse
  have htext : bigintText leverage = .ofList (Numeral.numeral leverage.natAbs 0) := by
    rw [bigintText, if_neg hnn, Numeral.numeral, if_pos rfl]
  have hspace : hasSpace (bigintText leverage) = false := by
    rw [htext, hasSpace, String.toList_ofList, numeral_any_isSpace]
  rw [Reads, trim_of_hasSpace_false hspace] at hu
  rwa [decimalValue_bigintText hu] at hr

theorem multiplyRational_value {l s : ExactRational} (h : multiplyRational l r = .ok s)
    (hl : Represents l p) (hr : Represents r q) : Represents s (p * q) := by
  obtain ⟨p', q', hl', hr', hfits, rfl⟩ := multiplyRational_ok_iff.mp h
  rw [hl.unique hl', hr.unique hr']
  exact represents_rationalText hfits

theorem divideRational_value {l s : ExactRational} (h : divideRational l r = .ok s)
    (hl : Represents l p) (hr : Represents r q) : Represents s (p / q) := by
  obtain ⟨p', q', hl', hr', -, hfits, rfl⟩ := divideRational_ok_iff.mp h
  rw [hl.unique hl', hr.unique hr']
  exact represents_rationalText hfits

theorem minimum_pair {first second : ExactRational} (h : minimum first [second] = .ok r)
    (hp : Represents first p) (hq : Represents second q) : Represents r (min p q) := by
  obtain ⟨p', q', hp', hq', h⟩ := minimum_cons_ok_iff.mp h
  rw [hp.unique hp', hq.unique hq']
  have hr : (if p' ≤ q' then first else second) = r := by
    simpa [minimum] using h
  rw [← hr]
  exact Represents.ite_le hp' hq'

theorem minimum_triple {first second third : ExactRational} {t : ℚ}
    (h : minimum first [second, third] = .ok r) (hp : Represents first p) (hq : Represents second q)
    (ht : Represents third t) : Represents r (min (min p q) t) := by
  obtain ⟨p', q', hp', hq', h⟩ := minimum_cons_ok_iff.mp h
  rw [hp.unique hp', hq.unique hq']
  exact minimum_pair h (Represents.ite_le hp' hq') ht

end Fractions

section Limits

variable {budget : SizingBudgets}

/-- The percentage of equity in the settlement currency. -/
def capital (input : FxQuantityInput) (rate : ℚ) : ℚ :=
  decimalValue input.account.equity * decimalValue input.percent / 100 / rate

def buyingPower (input : FxQuantityInput) (rate : ℚ) : ℚ :=
  decimalValue input.account.availableBalance * input.leverage / rate

def notionalLimit (input : FxQuantityInput) (rate : ℚ) : ℚ :=
  let others := min (decimalValue input.strategy.sizing.maxPositionNotional)
    (buyingPower input rate)
  match input.strategy.sizing.positionSizingMode with
  | some .equityPercentMargin => min others (capital input rate * input.leverage)
  | some .equityPercentNotional => min others (capital input rate)
  | _ => others

def quantityLimit (input : FxQuantityInput) (rate : ℚ) : ℚ :=
  let byNotional := notionalLimit input rate / decimalValue input.entry
  match input.strategy.sizing.positionSizingMode.getD .riskPercent with
  | .riskPercent => min byNotional (capital input rate / decimalValue input.distance)
  | _ => byNotional

/-- A quantity whose exact notional and risk stay within the budgets of the mode. -/
@[mk_iff] structure WithinBudgets (input : FxQuantityInput) (rate quantity : ℚ) : Prop where
  strategyMaximum : quantity * decimalValue input.entry ≤
    decimalValue input.strategy.sizing.maxPositionNotional
  available : quantity * decimalValue input.entry ≤ buyingPower input rate
  equityNotional : input.strategy.sizing.positionSizingMode = some .equityPercentNotional →
    quantity * decimalValue input.entry ≤ capital input rate
  equityMargin : input.strategy.sizing.positionSizingMode = some .equityPercentMargin →
    quantity * decimalValue input.entry ≤ capital input rate * input.leverage
  risk : input.strategy.sizing.positionSizingMode.getD .riskPercent = .riskPercent →
    quantity * decimalValue input.distance ≤ capital input rate

variable {digest : FxConversion → Outcome String} {now : ℤ} {input : FxQuantityInput} {rate : ℚ}

theorem le_quantityLimit_iff (hentry : 0 < decimalValue input.entry)
    (hdst : input.strategy.sizing.positionSizingMode.getD .riskPercent = .riskPercent →
      0 < decimalValue input.distance) {quantity : ℚ} :
    quantity ≤ quantityLimit input rate ↔ WithinBudgets input rate quantity := by
  rw [withinBudgets_iff]
  unfold quantityLimit notionalLimit
  cases hmode : input.strategy.sizing.positionSizingMode with
  | none =>
    rw [hmode] at hdst
    simp [le_div_iff₀ hentry, le_div_iff₀ (hdst rfl), and_assoc]
  | some mode =>
    rw [hmode] at hdst
    cases mode with
    | riskPercent => simp [le_div_iff₀ hentry, le_div_iff₀ (hdst rfl), and_assoc]
    | equityPercentNotional => simp [le_div_iff₀ hentry, and_assoc]
    | equityPercentMargin => simp [le_div_iff₀ hentry, and_assoc]

theorem sizingBudgets_value (h : sizingBudgets digest now input = .ok budget) :
    ∃ fx rate, input.fxConversion = some fx ∧ Represents fx.conversion.rate rate ∧
      Represents budget.capital (capital input rate) ∧
      Represents budget.leverage input.leverage ∧
      Represents budget.available (buyingPower input rate) ∧
      Represents budget.strategyMaximum
        (decimalValue input.strategy.sizing.maxPositionNotional) := by
  simp only [sizingBudgets, bind_eq_ok] at h
  obtain ⟨context, -, h⟩ := h
  cases hfx : input.fxConversion with
  | none => cases context <;> simp [hfx] at h
  | some fx =>
    cases hctx : context with
    | none => simp [hfx, hctx] at h
    | some context =>
      simp only [hfx, hctx, bind_eq_ok, pure_eq_ok_iff] at h
      obtain ⟨leverage, hleverage, equity, hequity, percent, hpercent, product, hprod, hundred,
        hhundred, reporting, hreporting, capital, hcap, balance, hbalance, power, hpower,
        available, havail, maximum, hmax, rfl⟩ := h
      obtain ⟨_, rate, _, hrate, -⟩ := divideRational_ok_iff.mp hcap
      have hlever := positive_leverage hleverage
      have hpercentage := divideRational_value hreporting
        (multiplyRational_value hprod (nonnegative_value hequity) (positive_value hpercent).1)
        (positive_value hhundred).1
      rw [decimalValue_hundred] at hpercentage
      have hfunds := multiplyRational_value hpower (nonnegative_value hbalance) hlever
      exact ⟨fx, rate, rfl, hrate, divideRational_value hcap hpercentage hrate, hlever,
        divideRational_value havail hfunds hrate, (positive_value hmax).1⟩

theorem notionalBudget_value {r : ExactRational}
    (h : notionalBudget budget input.strategy.sizing.positionSizingMode = .ok r)
    (hcap : Represents budget.capital (capital input rate))
    (hleverage : Represents budget.leverage input.leverage)
    (havail : Represents budget.available (buyingPower input rate))
    (hmax : Represents budget.strategyMaximum
      (decimalValue input.strategy.sizing.maxPositionNotional)) :
    Represents r (notionalLimit input rate) := by
  unfold notionalLimit
  cases hmode : input.strategy.sizing.positionSizingMode with
  | none =>
    rw [hmode] at h
    exact minimum_pair h hmax havail
  | some mode =>
    rw [hmode] at h
    cases mode with
    | riskPercent => exact minimum_pair h hmax havail
    | equityPercentNotional => exact minimum_triple h hmax havail hcap
    | equityPercentMargin =>
      simp only [notionalBudget, bind_eq_ok] at h
      obtain ⟨margin, hmargin, h⟩ := h
      exact minimum_triple h hmax havail (multiplyRational_value hmargin hcap hleverage)

theorem limitByRisk_value {x y : ExactRational}
    (h : limitByRisk budget (input.strategy.sizing.positionSizingMode.getD .riskPercent)
      input.distance x = .ok y)
    (hx : Represents x (notionalLimit input rate / decimalValue input.entry))
    (hcap : Represents budget.capital (capital input rate)) :
    Represents y (quantityLimit input rate) ∧
      (input.strategy.sizing.positionSizingMode.getD .riskPercent = .riskPercent →
        0 < decimalValue input.distance) := by
  unfold quantityLimit
  cases hmode : input.strategy.sizing.positionSizingMode.getD .riskPercent with
  | riskPercent =>
    simp only [hmode, limitByRisk, bind_eq_ok] at h
    obtain ⟨distance, hdst, byRisk, hrisk, h⟩ := h
    obtain ⟨hvalue, hpos⟩ := positive_value hdst
    exact ⟨minimum_pair h hx (divideRational_value hrisk hcap hvalue), fun _ => hpos⟩
  | equityPercentNotional | equityPercentMargin =>
    simp only [hmode, limitByRisk, pure_eq_ok_iff] at h
    exact ⟨h ▸ hx, by rintro ⟨⟩⟩

theorem quantizeRational_floor_value {value : ExactRational} {q : ℚ} {step s : String}
    (h : quantizeRational value step .floor = .ok s) (hvalue : Represents value q) :
    0 < decimalValue step ∧ decimalValue s = floorTo (decimalValue step) q := by
  obtain ⟨q', u, hq, hu, hpos, -, rfl⟩ := quantizeRational_ok_iff.mp h
  rw [hvalue.unique hq, hu.decimalValue, decimalValue_signedText]
  refine ⟨unitValue_pos hpos, ?_⟩
  rw [floorTo, RoundingDirection.round, unitValue, unitValue]
  push_cast
  ring

structure ExactlySized (input : FxQuantityInput) (rate : ℚ) (s : String) : Prop where
  entry : 0 < decimalValue input.entry
  distance : input.strategy.sizing.positionSizingMode.getD .riskPercent = .riskPercent →
    0 < decimalValue input.distance
  step : 0 < decimalValue input.market.quantityStep
  value : decimalValue s =
    floorTo (decimalValue input.market.quantityStep) (quantityLimit input rate)

theorem fxSizedQuantity_sized {s : String} (h : fxSizedQuantity digest now input = .ok s) :
    ∃ fx rate, input.fxConversion = some fx ∧ Represents fx.conversion.rate rate ∧
      ExactlySized input rate s := by
  simp only [fxSizedQuantity, bind_eq_ok, notionalBudget_getD, pure_eq_ok_iff] at h
  obtain ⟨budget, hbud, notional, hntl, entry, hentry, byNotional, hbyNotional, limited,
    hlimited, result, hres, _, -, _, -, _, -, _, -, _, -, _, -, _, -, _, -, rfl⟩ := h
  obtain ⟨fx, rate, hfx, hrate, hcap, hleverage, havail, hmax⟩ :=
    sizingBudgets_value hbud
  obtain ⟨hentryValue, hentryPos⟩ := positive_value hentry
  have hbudgetValue := notionalBudget_value hntl hcap hleverage havail hmax
  obtain ⟨hlimit, hdst⟩ := limitByRisk_value hlimited
    (divideRational_value hbyNotional hbudgetValue hentryValue) hcap
  obtain ⟨hstep, hvalue⟩ := quantizeRational_floor_value hres hlimit
  exact ⟨fx, rate, hfx, hrate, hentryPos, hdst, hstep, hvalue⟩

/-- Rounding the limit down gives the largest multiple of the step within the budgets. -/
theorem ExactlySized.isGreatest {s : String} (h : ExactlySized input rate s) :
    IsGreatest {x | (∃ n : ℤ, x = n * decimalValue input.market.quantityStep) ∧
      WithinBudgets input rate x} (decimalValue s) := by
  rw [h.value]
  constructor
  · exact ⟨⟨_, rfl⟩, (le_quantityLimit_iff h.entry h.distance).mp (floorTo_le h.step)⟩
  · rintro _ ⟨⟨n, rfl⟩, hwithin⟩
    rw [multiple_le_floorTo_iff h.step]
    exact (le_quantityLimit_iff h.entry h.distance).mpr hwithin

end Limits

section Native

variable {exact : Prop} {s : String} {x : ℚ}

/-- Sizing in one currency by the function of the mode, as a plan calls it. -/
def nativeQuantity (input : FxQuantityInput) : Outcome String := do
  let maxNotional := input.strategy.sizing.maxPositionNotional
  match input.strategy.sizing.positionSizingMode with
  | some .equityPercentNotional =>
    equityPercentPositionQuantity input.account input.market input.entry input.percent maxNotional
      input.leverage
  | some .equityPercentMargin =>
    equityPercentMarginQuantity input.account input.market input.entry input.percent maxNotional
      input.leverage
  | _ =>
    let riskAmount ← divideDecimal (← multiplyDecimal input.account.equity input.percent) "100"
    positionQuantity input.account input.market input.entry riskAmount input.distance maxNotional
      input.leverage

/-- Nothing is cut off on the way to the native quantity: the products and quotients of the mode
fit eighteen digits. Products with the leverage always do. -/
structure NativeExact (input : FxQuantityInput) : Prop where
  product : Representable (decimalValue input.account.equity * decimalValue input.percent)
  percentage : Representable
    (decimalValue input.account.equity * decimalValue input.percent / 100)
  byRisk : input.strategy.sizing.positionSizingMode.getD .riskPercent = .riskPercent →
    Representable (capital input 1 / decimalValue input.distance)
  byStrategyMaximum : input.strategy.sizing.positionSizingMode.getD .riskPercent = .riskPercent →
    Representable (decimalValue input.strategy.sizing.maxPositionNotional /
      decimalValue input.entry)
  byBuyingPower : input.strategy.sizing.positionSizingMode.getD .riskPercent = .riskPercent →
    Representable (buyingPower input 1 / decimalValue input.entry)
  byNotional : input.strategy.sizing.positionSizingMode.getD .riskPercent ≠ .riskPercent →
    Representable (notionalLimit input 1 / decimalValue input.entry)

variable {input : FxQuantityInput}

/-- A text cut off below a value, exact under a condition. -/
structure Below (exact : Prop) (s : String) (x : ℚ) : Prop where
  le : decimalValue s ≤ x
  eq : exact → decimalValue s = x

theorem Below.divide {l r : String} (hl : Below exact l x) (h : divideDecimal l r = .ok s)
    (hexact : exact → Representable (x / decimalValue r)) : Below exact s (x / decimalValue r) := by
  obtain ⟨hpos, hvalue⟩ := divideDecimal_value h
  constructor
  · exact (divideDecimal_le h).2.trans (div_le_div_of_nonneg_right hl.le hpos.le)
  · intro he
    rw [hvalue, hl.eq he, (hexact he).floorTo_eq]

theorem Below.leverage {l : String} {leverage : ℤ} (hl : Below exact l x)
    (h : multiplyDecimal l (bigintText leverage) = .ok s) : Below exact s (x * leverage) := by
  have hvalue := multiplyDecimal_leverage h
  obtain ⟨_, _, -, hv, -⟩ := multiplyDecimal_ok_iff.mp h
  have hnn : (0 : ℚ) ≤ leverage := decimalValue_bigintText hv ▸ decimalValue_nonneg hv
  constructor
  · rw [hvalue]
    exact mul_le_mul_of_nonneg_right hl.le hnn
  · intro he
    rw [hvalue, hl.eq he]

theorem Below.minimum {l r t : String} {y z : ℚ} (hl : Below exact l x) (hr : Below exact r y)
    (ht : Below exact t z) (h : minDecimal l [r, t] = .ok s) : Below exact s (min (min y z) x) := by
  have hvalue := minDecimal_triple h
  rw [min_comm] at hvalue
  constructor
  · rw [hvalue]
    exact min_le_min (min_le_min hr.le ht.le) hl.le
  · intro he
    rw [hvalue, hl.eq he, hr.eq he, ht.eq he]

theorem below_value (exact : Prop) (s : String) : Below exact s (decimalValue s) :=
  ⟨le_rfl, fun _ => rfl⟩

theorem below_capital {product percentage : String}
    (hprod : multiplyDecimal input.account.equity input.percent = .ok product)
    (hpercentage : divideDecimal product "100" = .ok percentage) :
    Below (NativeExact input) percentage (capital input 1) := by
  have hbelow : Below (NativeExact input) product
      (decimalValue input.account.equity * decimalValue input.percent) :=
    ⟨multiplyDecimal_le hprod, fun he => multiplyDecimal_exact hprod he.product⟩
  rw [capital, div_one, ← decimalValue_hundred]
  apply hbelow.divide hpercentage
  intro he
  rw [decimalValue_hundred]
  exact he.percentage

theorem below_buyingPower {power : String}
    (h : multiplyDecimal input.account.availableBalance (bigintText input.leverage) = .ok power) :
    Below (NativeExact input) power (buyingPower input 1) := by
  rw [buyingPower, div_one]
  exact (below_value _ _).leverage h

/-- The native quantity is rounded from a limit that is cut off below the exact one. -/
structure NativelySized (input : FxQuantityInput) (s : String) : Prop where
  canonical : ∃ w : ℕ, text w = s
  limit : ∃ least, Below (NativeExact input) least (quantityLimit input 1) ∧
    decimalValue s = floorTo (decimalValue input.market.quantityStep) (decimalValue least)

theorem nativelySized_of_quantize {label least quantity : String}
    (hbelow : Below (NativeExact input) least (quantityLimit input 1))
    (hqty : quantizeDecimalDown least input.market.quantityStep = .ok quantity)
    (h : aboveMinimum label input.market input.entry quantity = .ok s) : NativelySized input s := by
  obtain ⟨rfl, -⟩ := aboveMinimum_ok h
  obtain ⟨u, v, -, -, -, -, htext⟩ := quantizeDecimalDown_ok_iff.mp hqty
  exact ⟨⟨_, htext⟩, least, hbelow, (quantizeDecimalDown_value hqty).2⟩

theorem positionQuantity_sized {product percentage : String}
    (hmode : input.strategy.sizing.positionSizingMode.getD .riskPercent = .riskPercent)
    (hprod : multiplyDecimal input.account.equity input.percent = .ok product)
    (hpercentage : divideDecimal product "100" = .ok percentage)
    (h : positionQuantity input.account input.market input.entry percentage input.distance
      input.strategy.sizing.maxPositionNotional input.leverage = .ok s) :
    NativelySized input s := by
  simp only [positionQuantity, bind_eq_ok] at h
  obtain ⟨byRisk, hrisk, byNotional, hntl, power, hpower, byPower, hbyPower, least, hleast,
    quantity, hqty, h⟩ := h
  apply nativelySized_of_quantize _ hqty h
  have hlimit : quantityLimit input 1 =
      min (min (decimalValue input.strategy.sizing.maxPositionNotional / decimalValue input.entry)
        (buyingPower input 1 / decimalValue input.entry))
        (capital input 1 / decimalValue input.distance) := by
    have hentry := (divideDecimal_le hntl).1
    unfold quantityLimit notionalLimit
    rw [hmode, min_div_div_right hentry.le]
    cases hsome : input.strategy.sizing.positionSizingMode with
    | none => rfl
    | some mode =>
      rw [hsome] at hmode
      cases hmode
      rfl
  rw [hlimit]
  apply Below.minimum _ _ _ hleast
  · exact (below_capital hprod hpercentage).divide hrisk (fun he => he.byRisk hmode)
  · exact (below_value _ _).divide hntl (fun he => he.byStrategyMaximum hmode)
  · exact (below_buyingPower hpower).divide hbyPower (fun he => he.byBuyingPower hmode)

/-- The two modes that size a share of equity: one budget is divided by the price. -/
theorem nativelySized_of_allowed {label sized power allowed quotient quantity : String}
    (hmode : input.strategy.sizing.positionSizingMode.getD .riskPercent ≠ .riskPercent)
    (hlimit : notionalLimit input 1 =
      min (min (decimalValue input.strategy.sizing.maxPositionNotional) (buyingPower input 1)) x)
    (hsized : Below (NativeExact input) sized x)
    (hpower : multiplyDecimal input.account.availableBalance (bigintText input.leverage) =
      .ok power)
    (hallowed : minDecimal sized [input.strategy.sizing.maxPositionNotional, power] = .ok allowed)
    (hquot : divideDecimal allowed input.entry = .ok quotient)
    (hqty : quantizeDecimalDown quotient input.market.quantityStep = .ok quantity)
    (h : aboveMinimum label input.market input.entry quantity = .ok s) : NativelySized input s := by
  have hquantityLimit : quantityLimit input 1 =
      notionalLimit input 1 / decimalValue input.entry := by
    unfold quantityLimit
    cases hvalue : input.strategy.sizing.positionSizingMode.getD .riskPercent with
    | riskPercent => exact absurd hvalue hmode
    | equityPercentNotional => rfl
    | equityPercentMargin => rfl
  apply nativelySized_of_quantize _ hqty h
  have hbud := hsized.minimum (below_value _ _) (below_buyingPower hpower) hallowed
  rw [← hlimit] at hbud
  rw [hquantityLimit]
  exact hbud.divide hquot (fun he => he.byNotional hmode)

theorem nativeQuantity_sized (h : nativeQuantity input = .ok s) : NativelySized input s := by
  unfold nativeQuantity at h
  cases hmode : input.strategy.sizing.positionSizingMode with
  | none =>
    simp only [hmode, bind_eq_ok] at h
    obtain ⟨product, hprod, percentage, hpercentage, h⟩ := h
    exact positionQuantity_sized (by rw [hmode]; rfl) hprod hpercentage h
  | some mode =>
    cases mode with
    | riskPercent =>
      simp only [hmode, bind_eq_ok] at h
      obtain ⟨product, hprod, percentage, hpercentage, h⟩ := h
      exact positionQuantity_sized (by rw [hmode]; rfl) hprod hpercentage h
    | equityPercentNotional =>
      simp only [hmode, equityPercentPositionQuantity, bind_eq_ok] at h
      obtain ⟨product, hprod, portfolio, hportfolio, power, hpower, allowed, hallowed, quotient,
        hquot, quantity, hqty, h⟩ := h
      exact nativelySized_of_allowed (by simp [hmode]) (by simp [notionalLimit, hmode])
        (below_capital hprod hportfolio) hpower hallowed hquot hqty h
    | equityPercentMargin =>
      simp only [hmode, equityPercentMarginQuantity, bind_eq_ok] at h
      obtain ⟨product, hprod, deployed, hdeployed, leveraged, hleveraged, power, hpower, allowed,
        hallowed, quotient, hquot, quantity, hqty, h⟩ := h
      exact nativelySized_of_allowed (by simp [hmode]) (by simp [notionalLimit, hmode])
        ((below_capital hprod hdeployed).leverage hleveraged) hpower hallowed hquot
        hqty h

end Native

section Comparison

variable {digest : FxConversion → Outcome String} {now : ℤ} {input : FxQuantityInput} {s : String}

/-- At rate one the native quantity is at most the exact one, and the same where nothing is cut
off. -/
theorem ExactlySized.native {s' : String} (hexact : ExactlySized input 1 s)
    (hcan : ∃ w : ℕ, text w = s) (hnative : NativelySized input s') :
    decimalValue s' ≤ decimalValue s ∧ (NativeExact input → s' = s) := by
  obtain ⟨⟨w', rfl⟩, least, hbelow, hvalue'⟩ := hnative
  obtain ⟨w, rfl⟩ := hcan
  have hvalue := hexact.value
  constructor
  · rw [hvalue, hvalue']
    exact floorTo_mono hexact.step hbelow.le
  · intro he
    rw [hbelow.eq he, ← hvalue, decimalValue_text, decimalValue_text] at hvalue'
    have hunits := unitValue_injective hvalue'
    rw [Nat.cast_inj.mp hunits]

theorem fx_quantity_is_largest (h : fxSizedQuantity digest now input = .ok s) :
    ∃ fx rate, input.fxConversion = some fx ∧ Represents fx.conversion.rate rate ∧
      IsGreatest {x | (∃ n : ℤ, x = n * decimalValue input.market.quantityStep) ∧
        WithinBudgets input rate x} (decimalValue s) ∧
      (rate = 1 → ∀ s', nativeQuantity input = .ok s' →
        decimalValue s' ≤ decimalValue s ∧ (NativeExact input → s' = s)) := by
  obtain ⟨fx, rate, hfx, hrate, hexact⟩ := fxSizedQuantity_sized h
  obtain ⟨w, -, -, htext, -⟩ := fxSizedQuantity_within h
  refine ⟨fx, rate, hfx, hrate, hexact.isGreatest, ?_⟩
  rintro rfl s' hnative
  exact hexact.native ⟨w, htext⟩ (nativeQuantity_sized hnative)

/-- A conversion of USDC into dollars. -/
def dollarConversion (rate : ExactRational) (evidenceHash : String) : StoredFxConversion where
  id := .ofList (List.replicate 64 'c')
  conversion := {
    version := 1
    valuationBasis := "provider_snapshot_index_asof"
    policy := "stable-index-asof-10s-v1"
    mode := .live
    profileHash := .ofList (List.replicate 64 'a')
    baseAsset := "USDC"
    quoteAsset := "USD"
    asOf := 1700000000000
    earliestAt := 1699999999000
    latestAt := 1699999999000
    expiresAt := 1700000009000
    rate
    receiptHashes := [.ofList (List.replicate 64 'b')]
    evidenceHash }

/-- Risks a hundredth of the equity on a distance of three, converted at par. -/
def parEntry : FxQuantityInput where
  account := ⟨"1000", "1000", some "USD"⟩
  market := ⟨"100", "0.1", "0.001", "0.001", "1", 50,
    some ⟨.paperContract, "BTCUSDT", "USDC"⟩, none⟩
  strategy := {
    allowedSignalSchemas := ["standard"]
    allowedSymbols := []
    allowedSides := [.long]
    entry := ⟨.limit, .midpoint, false, 10⟩
    sizing := ⟨some .riskPercent, "1", none, "100000", some 5, 50⟩
    exits := ⟨some .manual, ["100"], some .configured⟩
    safety := ⟨"1", 900⟩ }
  fxConversion := some (dollarConversion ⟨"1", "1"⟩ "e")
  entry := "100"
  distance := "3"
  percent := "1"
  leverage := 5

theorem fx_quantity_is_largest_at_par :
    fxSizedQuantity (fun _ => .ok "e") 1700000000000 parEntry = .ok "3.333" ∧
      nativeQuantity parEntry = .ok "3.333" ∧
      IsGreatest {x | (∃ n : ℤ, x = n * decimalValue "0.001") ∧ WithinBudgets parEntry 1 x}
        (decimalValue "3.333") := by
  have hsized : fxSizedQuantity (fun _ => .ok "e") 1700000000000 parEntry = .ok "3.333" := by
    decide +kernel
  have hnative : nativeQuantity parEntry = .ok "3.333" := by
    decide +kernel
  obtain ⟨fx, rate, hfx, hrate, hgreatest, -⟩ := fx_quantity_is_largest hsized
  have hone : Represents ⟨"1", "1"⟩ 1 := ⟨1, 1, by decide +kernel, by norm_num⟩
  cases hfx
  obtain rfl := hrate.unique hone
  exact ⟨hsized, hnative, hgreatest⟩

end Comparison

end TsxCore.TradingFxSizing
