import TsxCore.PaperQuantities

/-!
# Margin of the paper exchange

`leak` is what the account has lost: equity minus available balance minus the margins of
the open positions. An opening fill and a partial close leave it as it is. A close of the
whole position releases a truncated share of the margin and deletes the row, so it adds
the part that was cut off, which is nothing exactly when margin times quantity has at most
18 fractional digits.
-/

namespace TsxCore.PaperExchange

open Outcome TradingDecimal TradingTypes

section Release

variable {margin quantity closed product released : String}

/-- Margin times quantity is a whole number of quanta. -/
def WholeProduct (margin quantity : String) : Prop :=
  ∃ n : ℕ, decimalValue margin * decimalValue quantity * 10 ^ 18 = n

theorem wholeProduct_iff {m u : ℕ} (hm : Denotes margin m) (hu : Denotes quantity u) :
    WholeProduct margin quantity ↔ 10 ^ 18 ∣ m * u := by
  have hvalue : decimalValue margin * decimalValue quantity * 10 ^ 18 =
      ((m * u : ℕ) : ℚ) / (10 ^ 18 : ℕ) := by
    rw [hm.decimalValue, hu.decimalValue, unitValue_natCast, unitValue_natCast]
    push_cast
    field_simp
    norm_num
    ring
  rw [WholeProduct, hvalue]
  constructor
  · rintro ⟨n, hn⟩
    rw [div_eq_iff (by positivity)] at hn
    exact ⟨n, by rw [mul_comm (10 ^ 18)]; exact_mod_cast hn⟩
  · rintro ⟨n, hn⟩
    refine ⟨n, ?_⟩
    rw [hn, div_eq_iff (by positivity)]
    push_cast
    ring

/-- A truncated product divided by one of its factors does not exceed the other factor, and
reaches it exactly when nothing was cut off. -/
theorem div_mul_div_le {m u k : ℕ} (hu : 0 < u) : m * u / k * k / u ≤ m := by
  calc
    m * u / k * k / u ≤ m * u / u := Nat.div_le_div_right (Nat.div_mul_le_self _ _)
    _ = m := Nat.mul_div_cancel _ hu

theorem div_mul_div_eq_iff {m u k : ℕ} (hu : 0 < u) : m * u / k * k / u = m ↔ k ∣ m * u := by
  constructor
  · intro h
    have hle : m * u ≤ m * u / k * k := by
      nth_rewrite 1 [← h]
      exact Nat.div_mul_le_self _ _
    exact Nat.dvd_iff_div_mul_eq _ _ |>.mpr (le_antisymm (Nat.div_mul_le_self _ _) hle)
  · intro hdvd
    rw [Nat.div_mul_cancel hdvd, Nat.mul_div_cancel _ hu]

theorem released_of_all (hall : decimalValue closed = decimalValue quantity)
    (hprod : multiplyDecimal margin closed = .ok product)
    (hrel : divideDecimal product quantity = .ok released) :
    decimalValue released ≤ decimalValue margin ∧
      (decimalValue released = decimalValue margin ↔ WholeProduct margin quantity) := by
  obtain ⟨m, v, hm, hv, rfl⟩ := multiplyDecimal_ok_iff.mp hprod
  obtain ⟨p, u, hp, hu, hpos, rfl⟩ := (divideDecimal_ok_iff le_rfl).mp hrel
  obtain ⟨rfl, -⟩ := denotes_text_iff.mp hp
  rw [hv.decimalValue, hu.decimalValue] at hall
  have huv : v = u := by exact_mod_cast unitValue_injective hall
  rw [Nat.sub_self, pow_zero, mul_one, huv, decimalValue_text, hm.decimalValue, unitValue_le_iff,
    wholeProduct_iff hm hu, ← div_mul_div_eq_iff hpos]
  constructor
  · exact_mod_cast div_mul_div_le hpos
  · constructor
    · intro heq
      exact_mod_cast unitValue_injective heq
    · intro heq
      rw [heq]

end Release

section Leak

variable {adapter : PaperExchangeAdapter} {s t : Store} {row : PaperOrderRow} {requested : String}
  {closed : ClosedPosition} {position : PaperPositionRow} {account paid : PaperAccountRow}
  {released pnl product : String}

def marginOf (position : PaperPositionRow) : ℚ := decimalValue position.marginUsed

def leak (s : Store) : ℚ :=
  (s.account.map (fun account =>
    decimalValue account.equity - decimalValue account.availableBalance)).getD 0 -
    s.positions.total marginOf

def requestedValue (adapter : PaperExchangeAdapter) (row : PaperOrderRow) : ℚ :=
  match adapter.maximumFillQuantity with
  | none => decimalValue row.quantity - decimalValue row.filledQuantity
  | some maximum =>
    min (decimalValue row.quantity - decimalValue row.filledQuantity) (decimalValue maximum)

/-- A close of the whole position starts from a whole product of margin and quantity. -/
def ReleasesEvenly (adapter : PaperExchangeAdapter) (s : Store) (row : PaperOrderRow) : Prop :=
  row.reduceOnly = true → ∀ position ∈ s.positions.find row.symbol,
    decimalValue position.quantity ≤ requestedValue adapter row →
      WholeProduct position.marginUsed position.quantity

theorem Closes.leak (h : Closes adapter s row position paid released closed)
    (hsome : s.positions.find row.symbol = some position) (haccount : s.account = some account)
    (hpaid : Paid account paid released pnl)
    (hprod : multiplyDecimal position.marginUsed closed.quantity = .ok product)
    (hrel : divideDecimal product position.quantity = .ok released) :
    PaperExchange.leak s ≤ PaperExchange.leak closed.store ∧
      (PaperExchange.leak closed.store = PaperExchange.leak s ↔
        (decimalValue position.quantity ≤ decimalValue closed.quantity →
          WholeProduct position.marginUsed position.quantity)) := by
  have hequity := hpaid.equity
  have havail := hpaid.availableBalance
  cases h with
  | @flat quantity hall =>
    obtain ⟨hle, hiff⟩ := released_of_all hall hprod hrel
    have hleak : PaperExchange.leak (flattened adapter s paid row.symbol) =
        PaperExchange.leak s + (decimalValue position.marginUsed - decimalValue released) := by
      unfold PaperExchange.leak
      rw [flattened_parts.1, flattened_parts.2.1, Keyed.total_delete_key, hsome, haccount]
      simp only [Option.map_some, Option.getD_some, marginOf]
      linarith
    rw [hleak]
    constructor
    · linarith
    · rw [← hiff]
      constructor
      · intro heq _
        linarith
      · intro heq
        rw [heq hall.ge]
        ring
  | @part quantity rest hless hsym _ _ hmargin =>
    have hkey := Keyed.key_of_find hsome
    have hleak : PaperExchange.leak { s with
        account := some paid
        positions := s.positions.upsert rest } = PaperExchange.leak s := by
      unfold PaperExchange.leak
      rw [Keyed.total_upsert, hsym, hkey, hsome, haccount]
      simp only [Option.map_some, Option.getD_some, marginOf]
      linarith
    constructor
    · exact hleak.ge
    · constructor
      · intro _ hle
        exact absurd hle (not_le.mpr hless)
      · intro _
        exact hleak

theorem Updates.leak (h : Updates adapter s row requested closed)
    (hrequested : requestedQuantity adapter row = .ok requested) :
    PaperExchange.leak s ≤ PaperExchange.leak closed.store ∧
      (PaperExchange.leak closed.store = PaperExchange.leak s ↔ ReleasesEvenly adapter s row) := by
  have hvalue : decimalValue requested = requestedValue adapter row :=
    requestedQuantity_value hrequested
  cases h with
  | @opens account available margin position hkind haccount havail hsym _ _ hmargin =>
    have hleak : PaperExchange.leak { s with
        account := some { account with availableBalance := available }
        positions := s.positions.upsert position } = PaperExchange.leak s := by
      unfold PaperExchange.leak
      rw [Keyed.total_upsert, hsym, haccount]
      simp only [Option.map_some, Option.getD_some]
      have hnew : marginOf position =
          ((s.positions.find row.symbol).map marginOf).getD 0 + decimalValue margin := hmargin
      linarith
    refine ⟨hleak.ge, fun _ => ?_, fun _ => hleak⟩
    intro hreduce
    rw [hkind] at hreduce
    cases hreduce
  | absent _ hnone =>
    refine ⟨le_rfl, fun _ _ position hposn => ?_, fun _ => rfl⟩
    rw [hnone] at hposn
    cases hposn
  | @closes position account paid product released pnl closed hkind hsome haccount hmin hprod
      hrel hpaid hcloses =>
    obtain ⟨hle, hiff⟩ := hcloses.leak hsome haccount hpaid hprod hrel
    refine ⟨hle, hiff.trans ?_⟩
    have hflat : decimalValue position.quantity ≤ decimalValue closed.quantity ↔
        decimalValue position.quantity ≤ requestedValue adapter row := by
      rw [hmin, hvalue, le_min_iff]
      exact and_iff_left le_rfl
    rw [hflat]
    constructor
    · intro heven _ p hp
      rw [Option.mem_def, hsome] at hp
      rw [← Option.some.inj hp]
      exact heven
    · intro heven
      exact heven hkind position hsome

theorem Updates.hasAccount (h : Updates adapter s row requested closed) (hs : s.account.isSome) :
    closed.store.account.isSome := by
  cases h with
  | opens => rfl
  | absent => exact hs
  | closes _ _ _ _ _ _ _ hcloses =>
    cases hcloses with
    | flat =>
      rw [flattened_parts.1]
      rfl
    | part => rfl

theorem leak_congr (haccount : t.account = s.account) (hposns : t.positions = s.positions) :
    leak t = leak s := by
  rw [leak, leak, haccount, hposns]

theorem Fill.leak (fill : Fill adapter s row t) :
    PaperExchange.leak s ≤ PaperExchange.leak t ∧
      (PaperExchange.leak t = PaperExchange.leak s ↔ ReleasesEvenly adapter s row) := by
  have hsame : PaperExchange.leak t = PaperExchange.leak fill.closed.store :=
    leak_congr fill.tables.2.2.1 fill.tables.2.1
  rw [hsame]
  exact fill.hupdates.leak fill.hrequested

variable {P : PaperExchangeAdapter → Store → PaperOrderRow → Prop}

theorem Move.leak (h : Move P s t) : PaperExchange.leak s ≤ PaperExchange.leak t := by
  cases h with
  | market => exact le_rfl
  | insert => exact le_rfl
  | cancel => exact le_rfl
  | fill _ _ _ hfill =>
    obtain ⟨fill⟩ := hfill
    exact fill.leak.1

theorem Move.hasAccount (h : Move P s t) (hs : s.account.isSome) : t.account.isSome := by
  cases h with
  | market => exact hs
  | insert => exact hs
  | cancel => exact hs
  | fill _ _ _ hfill =>
    obtain ⟨fill⟩ := hfill
    rw [fill.tables.2.2.1]
    exact fill.hupdates.hasAccount hs

theorem Moves.leak (h : Moves P s t) : PaperExchange.leak s ≤ PaperExchange.leak t := by
  induction h with
  | refl => exact le_rfl
  | tail _ hmove ih => exact ih.trans hmove.leak

theorem Moves.hasAccount (h : Moves P s t) (hs : s.account.isSome) : t.account.isSome := by
  induction h with
  | refl => exact hs
  | tail _ hmove ih => exact hmove.hasAccount ih

end Leak

section Calls

variable {services : Services} {adapter : PaperExchangeAdapter} {s t : Store} {markPrice : String}
  {orders : List PaperOrderRow} {account : TradingAccount} {request : ExchangeOrderRequest}

end Calls

section Runs

variable {s t : Store} {requests : List Request}

/-- What is not available is the margin of the open positions. -/
def Balanced (s : Store) : Prop :=
  ∃ account, s.account = some account ∧
    decimalValue account.equity - decimalValue account.availableBalance =
      (s.positions.rows.map (fun position => decimalValue position.marginUsed)).sum

end Runs

end TsxCore.PaperExchange
