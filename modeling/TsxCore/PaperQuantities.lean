import TsxCore.DecimalBounds
import TsxCore.PaperExchange

/-!
# Quantities of the paper exchange

Every committed call is a sequence of moves: a market row is stored, an order is
inserted, working orders are cancelled, or one order is filled. The moves keep what
orders, fills and positions say about each other, and from state to state a closed
order keeps its fills and an open position its side.
-/

namespace TsxCore.PaperExchange

open Outcome TradingDecimal TradingTypes

section Positions

variable {s t : Store} {row : PaperOrderRow} {requested fillPrice margin : String}
  {existing : Option PaperPositionRow} {position : PaperPositionRow}
  {adapter : PaperExchangeAdapter} {closed : ClosedPosition}

theorem openedPosition_cases (hfound : ∀ p ∈ existing, p.symbol = row.symbol)
    (h : openedPosition existing row requested fillPrice margin = .ok position) :
    position.symbol = row.symbol ∧ (∀ p ∈ existing, p.side = position.side) ∧
      decimalValue position.quantity =
        ((existing.map (fun p => decimalValue p.quantity)).getD 0) + decimalValue requested ∧
      decimalValue position.marginUsed =
        ((existing.map (fun p => decimalValue p.marginUsed)).getD 0) + decimalValue margin := by
  cases existing with
  | none =>
    obtain rfl := pure_eq_ok_iff.mp h
    simp
  | some p =>
    simp only [openedPosition, bind_eq_ok, throwIf_eq_ok, not_not, pure_eq_ok_iff] at h
    obtain ⟨-, -, quantity, hqty, -, -, -, -, weighted, -, average, -, used, hused, rfl⟩ := h
    refine ⟨hfound p rfl, ?_, ?_, ?_⟩
    · intro q hq
      rw [Option.mem_some.mp hq]
    · exact addSignedDecimal_value hqty
    · exact addSignedDecimal_value hused

theorem updateOpeningPosition_cases
    (h : updateOpeningPosition s row requested fillPrice = .ok t) :
    ∃ account availableBalance margin position, s.account = some account ∧
      decimalValue availableBalance = decimalValue account.availableBalance - decimalValue margin ∧
      openedPosition (s.positions.find row.symbol) row requested fillPrice margin = .ok position ∧
      t = { s with
        account := some { account with availableBalance }
        positions := s.positions.upsert position } := by
  unfold updateOpeningPosition at h
  cases hacc : s.account with
  | none =>
    rw [hacc] at h
    cases h
  | some account =>
    rw [hacc] at h
    simp only [bind_eq_ok, pure_eq_ok_iff] at h
    obtain ⟨-, -, margin, -, -, -, -, -, position, hposn, available, havail, rfl⟩ := h
    exact ⟨account, available, margin, position, rfl, subtractDecimal_value havail, hposn,
      rfl⟩

/-- The account after a close that releases margin and books a profit. -/
structure Paid (account paid : PaperAccountRow) (released pnl : String) : Prop where
  equity : decimalValue paid.equity = decimalValue account.equity + decimalValue pnl
  availableBalance : decimalValue paid.availableBalance =
    decimalValue account.availableBalance + decimalValue released + decimalValue pnl

/-- A close of an existing position: all of it, or a part that leaves a smaller one. -/
inductive Closes (adapter : PaperExchangeAdapter) (s : Store) (row : PaperOrderRow)
    (position : PaperPositionRow) (account : PaperAccountRow) (released : String) :
    ClosedPosition → Prop
  | flat {quantity : String} (hall : decimalValue quantity = decimalValue position.quantity) :
      Closes adapter s row position account released
        ⟨quantity, true, flattened adapter s account row.symbol⟩
  | part {quantity : String} {rest : PaperPositionRow}
      (hless : decimalValue quantity < decimalValue position.quantity)
      (hsym : rest.symbol = position.symbol) (hside : rest.side = position.side)
      (hqty :
        decimalValue rest.quantity = decimalValue position.quantity - decimalValue quantity)
      (hmargin :
        decimalValue rest.marginUsed = decimalValue position.marginUsed - decimalValue released) :
      Closes adapter s row position account released
        ⟨quantity, false, { s with
          account := some account
          positions := s.positions.upsert rest }⟩

theorem updateClosingPosition_none
    (h : updateClosingPosition adapter s row requested fillPrice = .ok closed)
    (hnone : s.positions.find row.symbol = none) : closed = ⟨"0", true, s⟩ := by
  unfold updateClosingPosition at h
  rw [hnone] at h
  exact (pure_eq_ok_iff.mp h).symm

theorem updateClosingPosition_cases
    (h : updateClosingPosition adapter s row requested fillPrice = .ok closed)
    (hsome : s.positions.find row.symbol = some position) :
    ∃ account paid product released pnl, s.account = some account ∧
      decimalValue closed.quantity = min (decimalValue requested) (decimalValue position.quantity) ∧
      multiplyDecimal position.marginUsed closed.quantity = .ok product ∧
      divideDecimal product position.quantity = .ok released ∧
      row.side = closingSide position.side ∧
      Paid account paid released pnl ∧ Closes adapter s row position paid released closed := by
  unfold updateClosingPosition at h
  rw [hsome] at h
  simp only [bind_eq_ok, throwIf_eq_ok, not_not] at h
  obtain ⟨-, hside, quantity, hqty, difference, -, pnl, -, product, hprod, released,
    hreleased, remaining, hrem, rest, hrest, h⟩ := h
  cases hacc : s.account with
  | none =>
    rw [hacc] at h
    cases h
  | some account =>
    rw [hacc] at h
    simp only [bind_eq_ok] at h
    obtain ⟨equity, hequity, before, hbefore, available, havail, realized, -, h⟩ := h
    have hmin := minDecimal_pair hqty
    have hvalue := subtractDecimal_value hrem
    have hpaid : Paid account ⟨equity, available, realized⟩ released pnl := by
      constructor
      · exact addSignedDecimal_value hequity
      · rw [addSignedDecimal_value havail, addSignedDecimal_value hbefore]
    split_ifs at h with hzero
    · obtain rfl := pure_eq_ok_iff.mp h
      rw [(subtractDecimal_eq_zero hrem).mp hzero] at hvalue
      exact ⟨account, _, product, released, pnl, rfl, hmin, hprod, hreleased, hside, hpaid,
        .flat (by linarith)⟩
    · simp only [bind_eq_ok, pure_eq_ok_iff] at h
      obtain ⟨total, -, rfl⟩ := h
      have hless : decimalValue quantity < decimalValue position.quantity := by
        apply lt_of_le_of_ne
        · rw [hmin]
          exact min_le_right _ _
        · intro heq
          apply hzero
          rw [subtractDecimal_eq_zero hrem, hvalue, heq, sub_self]
      exact ⟨account, _, product, released, pnl, rfl, hmin, hprod, hreleased, hside, hpaid,
        .part hless rfl rfl hvalue (subtractDecimal_value hrest)⟩

/-- What a fill does to the account, the position and the orders that lose it. -/
inductive Updates (adapter : PaperExchangeAdapter) (s : Store) (row : PaperOrderRow)
    (requested : String) : ClosedPosition → Prop
  | opens {account : PaperAccountRow} {availableBalance margin : String}
      {position : PaperPositionRow} (hkind : row.reduceOnly = false)
      (hacc : s.account = some account)
      (havail : decimalValue availableBalance =
        decimalValue account.availableBalance - decimalValue margin)
      (hsym : position.symbol = row.symbol)
      (hside : ∀ p ∈ s.positions.find row.symbol, p.side = position.side)
      (hqty : decimalValue position.quantity =
        (((s.positions.find row.symbol).map (fun p => decimalValue p.quantity)).getD 0) +
          decimalValue requested)
      (hmargin : decimalValue position.marginUsed =
        (((s.positions.find row.symbol).map (fun p => decimalValue p.marginUsed)).getD 0) +
          decimalValue margin) :
      Updates adapter s row requested ⟨requested, false, { s with
        account := some { account with availableBalance }
        positions := s.positions.upsert position }⟩
  | absent (hkind : row.reduceOnly = true) (hnone : s.positions.find row.symbol = none) :
      Updates adapter s row requested ⟨"0", true, s⟩
  | closes {position : PaperPositionRow} {account paid : PaperAccountRow}
      {product released pnl : String} {closed : ClosedPosition} (hkind : row.reduceOnly = true)
      (hsome : s.positions.find row.symbol = some position) (hacc : s.account = some account)
      (hmin : decimalValue closed.quantity =
        min (decimalValue requested) (decimalValue position.quantity))
      (hprod : multiplyDecimal position.marginUsed closed.quantity = .ok product)
      (hreleased : divideDecimal product position.quantity = .ok released)
      (hpaid : Paid account paid released pnl)
      (hcloses : Closes adapter s row position paid released closed) :
      Updates adapter s row requested closed

theorem updatePosition_cases (h : updatePosition adapter s row requested fillPrice = .ok closed) :
    Updates adapter s row requested closed := by
  unfold updatePosition at h
  split_ifs at h with hkind
  · cases hfind : s.positions.find row.symbol with
    | none =>
      rw [updateClosingPosition_none h hfind]
      exact .absent hkind hfind
    | some position =>
      obtain ⟨account, paid, product, released, pnl, hacc, hmin, hprod, hreleased, -, hpaid,
        hcloses⟩ := updateClosingPosition_cases h hfind
      exact .closes hkind hfind hacc hmin hprod hreleased hpaid hcloses
  · simp only [bind_eq_ok, pure_eq_ok_iff] at h
    obtain ⟨t, ht, rfl⟩ := h
    obtain ⟨account, available, margin, position, hacc, havail, hposn, rfl⟩ :=
      updateOpeningPosition_cases ht
    obtain ⟨hsym, hside, hqty, hmargin⟩ :=
      openedPosition_cases (fun p hp => Keyed.key_of_find hp) hposn
    exact .opens (by simpa using hkind) hacc havail hsym hside hqty hmargin

end Positions

section Fills

variable {services : Services} {adapter : PaperExchangeAdapter} {s t : Store}
  {row order : PaperOrderRow} {markPrice fillPrice quantity : String} {immediate : Option String}

def rewritten (s : Store) (row : PaperOrderRow) (status : PaperOrderStatus) (cumulative : String)
    (averagePrice : Option String) : Store :=
  { s with
    orders := s.orders.update (fun stored => stored.exchangeOrderId = row.exchangeOrderId)
      (fun stored => { stored with status, filledQuantity := cumulative, averagePrice })
      (fun _ => rfl) }

theorem insertFill_cases (h : insertFill services s row fillPrice quantity = .ok t) :
    (quantity = "0" ∧ t = s) ∨ ∃ fill : PaperFillRow,
      fill.exchangeOrderId = row.exchangeOrderId ∧ fill.quantity = quantity ∧
      s.fills.find fill.exchangeFillId = none ∧
        t = { s with fills := (s.fills.insert fill).2 } := by
  unfold insertFill at h
  split_ifs at h with hzero
  · exact .inl ⟨hzero, (pure_eq_ok_iff.mp h).symm⟩
  · simp only [bind_eq_ok, throwIf_eq_ok, pure_eq_ok_iff, Bool.not_eq_true,
      Option.isSome_eq_false_iff, Option.isNone_iff_eq_none] at h
    obtain ⟨-, hnew, rfl⟩ := h
    exact .inr ⟨_, rfl, rfl, hnew, rfl⟩

theorem requestedQuantity_value {requested : String}
    (h : requestedQuantity adapter row = .ok requested) :
    decimalValue requested =
      match adapter.maximumFillQuantity with
      | none => decimalValue row.quantity - decimalValue row.filledQuantity
      | some maximum =>
        min (decimalValue row.quantity - decimalValue row.filledQuantity)
          (decimalValue maximum) := by
  simp only [requestedQuantity, bind_eq_ok] at h
  obtain ⟨remaining, hrem, h⟩ := h
  rw [minDecimal_pair h, subtractDecimal_value hrem]
  cases adapter.maximumFillQuantity with
  | none => rw [Option.getD_none, subtractDecimal_value hrem, min_self]
  | some maximum => rfl

theorem requestedQuantity_pos {requested : String}
    (h : requestedQuantity adapter row = .ok requested)
    (hopen : decimalValue row.filledQuantity < decimalValue row.quantity) :
    0 < decimalValue requested ∧
      decimalValue requested ≤ decimalValue row.quantity - decimalValue row.filledQuantity := by
  rw [requestedQuantity_value h]
  cases hmax : adapter.maximumFillQuantity with
  | none => exact ⟨by linarith, le_rfl⟩
  | some maximum =>
    obtain ⟨given, hgiven⟩ := adapter.normalized maximum hmax
    obtain ⟨hvalue, hpos⟩ := decimal_value hgiven
    refine ⟨lt_min (by linarith) ?_, min_le_left _ _⟩
    rw [hvalue]
    exact hpos rfl

structure Fill (adapter : PaperExchangeAdapter) (s : Store) (row : PaperOrderRow) (t : Store) where
  requested : String
  closed : ClosedPosition
  cumulative : String
  status : PaperOrderStatus
  averagePrice : Option String
  hrequested : requestedQuantity adapter row = .ok requested
  hupdates : Updates adapter s row requested closed
  hdenotes : ∃ u, Denotes cumulative u
  hcumulative :
    decimalValue cumulative = decimalValue row.filledQuantity + decimalValue closed.quantity
  hfilled : status = .filled ↔ decimalValue cumulative = decimalValue row.quantity
  hstatus : status ≠ .filled →
    if closed.flat = true ∧ adapter.reduceOnlyRemainder ≠ .retain then status = .cancelled
    else status.isWorking = true
  hinsert : (closed.quantity = "0" ∧
      t = rewritten closed.store row status cumulative averagePrice) ∨
    ∃ fill : PaperFillRow, fill.exchangeOrderId = row.exchangeOrderId ∧
      fill.quantity = closed.quantity ∧ closed.store.fills.find fill.exchangeFillId = none ∧
      t = { rewritten closed.store row status cumulative averagePrice with
        fills := (closed.store.fills.insert fill).2 }

theorem fillOrder_cases (h : fillOrder services adapter s row markPrice immediate = .ok t) :
    Nonempty (Fill adapter s row t) := by
  simp only [fillOrder, bind_eq_ok] at h
  obtain ⟨requested, hrequested, closed, hclosed, cumulative, hcumulative, o, ho, average,
    -, h⟩ := h
  have hzero := compareDecimal_eq_zero ho
  obtain ⟨u, -, hu, -, -⟩ := compareDecimal_ok_iff.mp ho
  refine ⟨requested, closed, cumulative, _, average, hrequested, updatePosition_cases hclosed,
    ⟨u, hu⟩, addSignedDecimal_value hcumulative, ?_, ?_, insertFill_cases h⟩
  · rw [← hzero]
    split_ifs <;> simp_all
  · split_ifs <;> simp_all [PaperOrderStatus.isWorking]

end Fills

section Sums

variable {orders orders' : Keyed PaperOrderRow.exchangeOrderId} {fills : List PaperFillRow}
  {fill : PaperFillRow} {id symbol : String}

/-- The quantity that the fills of one order add up to. -/
def filledOf (fills : List PaperFillRow) (id : String) : ℚ :=
  ((fills.filter (fun fill => fill.exchangeOrderId = id)).map
    (fun fill => decimalValue fill.quantity)).sum

/-- What a fill adds to the net quantity of a symbol, by the order that it belongs to. -/
def signedFill (orders : Keyed PaperOrderRow.exchangeOrderId) (symbol : String)
    (fill : PaperFillRow) : ℚ :=
  match orders.find fill.exchangeOrderId with
  | none => 0
  | some order =>
    if order.symbol = symbol then
      if order.reduceOnly = true then -decimalValue fill.quantity else decimalValue fill.quantity
    else 0

/-- The fills that open minus the fills that only reduce. -/
def net (orders : Keyed PaperOrderRow.exchangeOrderId) (fills : List PaperFillRow)
    (symbol : String) : ℚ :=
  (fills.map (signedFill orders symbol)).sum

theorem filledOf_concat :
    filledOf (fills ++ [fill]) id =
      filledOf fills id + if fill.exchangeOrderId = id then decimalValue fill.quantity else 0 := by
  unfold filledOf
  rw [List.filter_append, List.map_append, List.sum_append]
  by_cases hid : fill.exchangeOrderId = id
  · simp [hid]
  · simp [hid]

theorem filledOf_eq_zero (h : ∀ fill ∈ fills, fill.exchangeOrderId ≠ id) :
    filledOf fills id = 0 := by
  unfold filledOf
  rw [List.filter_eq_nil_iff.mpr (fun fill hfill => by simp [h fill hfill])]
  rfl

theorem net_concat :
    net orders (fills ++ [fill]) symbol = net orders fills symbol + signedFill orders symbol
      fill := by
  simp [net]

theorem net_congr (h : ∀ fill ∈ fills, ∃ order order',
      orders.find fill.exchangeOrderId = some order ∧
      orders'.find fill.exchangeOrderId = some order' ∧ order.symbol = order'.symbol ∧
      order.reduceOnly = order'.reduceOnly) :
    net orders fills symbol = net orders' fills symbol := by
  unfold net
  congr 1
  apply List.map_congr_left
  intro fill hfill
  obtain ⟨order, order', hfind, hfind', hsym, hkind⟩ := h fill hfill
  simp only [signedFill, hfind, hfind', hsym, hkind]

end Sums

section Kept

variable {o o' : PaperOrderRow} {orders : Keyed PaperOrderRow.exchangeOrderId} {id : String}

/-- A row that is the same, or was working and is cancelled. -/
def Kept (o o' : PaperOrderRow) : Prop :=
  o' = o ∨ (o.status.isWorking = true ∧ o' = { o with status := .cancelled })

def KeptOrders (s t : Store) : Prop :=
  ∀ id, Option.Rel Kept (s.orders.find id) (t.orders.find id)

theorem Kept.identity (h : Kept o o') :
    o'.exchangeOrderId = o.exchangeOrderId ∧ o'.symbol = o.symbol ∧ o'.reduceOnly = o.reduceOnly ∧
      o'.quantity = o.quantity ∧ o'.filledQuantity = o.filledQuantity := by
  rcases h with rfl | ⟨-, rfl⟩
  · exact ⟨rfl, rfl, rfl, rfl, rfl⟩
  · exact ⟨rfl, rfl, rfl, rfl, rfl⟩

theorem Kept.filled_iff (h : Kept o o') : o'.status = .filled ↔ o.status = .filled := by
  rcases h with rfl | ⟨hworking, rfl⟩
  · exact Iff.rfl
  · constructor
    · intro hfilled
      cases hfilled
    · intro hfilled
      rw [hfilled] at hworking
      cases hworking

theorem Kept.closed (h : Kept o o') (hclosed : o.status.isWorking = false) : o' = o := by
  rcases h with rfl | ⟨hworking, -⟩
  · rfl
  · rw [hclosed] at hworking
    cases hworking

theorem rel_refl {x : Option PaperOrderRow} : Option.Rel Kept x x := by
  cases x with
  | none => exact .none
  | some o => exact .some (.inl rfl)

theorem rel_cancel {p : PaperOrderRow → Bool}
    (hp : ∀ row, p row = true → row.status.isWorking = true) :
    Option.Rel Kept (orders.find id) ((orders.update p
      (fun row => { row with status := .cancelled }) (fun _ => rfl)).find id) := by
  rw [Keyed.find_update]
  cases orders.find id with
  | none => exact .none
  | some o =>
    by_cases hpo : p o = true
    · rw [Option.map_some, if_pos hpo]
      exact .some (.inr ⟨hp o hpo, rfl⟩)
    · rw [Option.map_some, if_neg hpo]
      exact .some (.inl rfl)

end Kept

section Held

variable {adapter : PaperExchangeAdapter} {s t : Store} {row : PaperOrderRow} {requested : String}
  {closed : ClosedPosition} {account : PaperAccountRow} {position : PaperPositionRow}
  {released symbol : String}

/-- The quantity that the position row of a symbol states. -/
def held (s : Store) (symbol : String) : ℚ :=
  ((s.positions.find symbol).map (fun p => decimalValue p.quantity)).getD 0

theorem held_upsert {positions : Keyed PaperPositionRow.symbol} :
    (((positions.upsert position).find symbol).map (fun p => decimalValue p.quantity)).getD 0 =
      if position.symbol = symbol then decimalValue position.quantity
      else ((positions.find symbol).map (fun p => decimalValue p.quantity)).getD 0 := by
  rw [Keyed.find_upsert]
  split_ifs <;> rfl

theorem flattened_parts :
    (flattened adapter s account symbol).account = some account ∧
      (flattened adapter s account symbol).positions =
        s.positions.delete (fun position => position.symbol = symbol) ∧
      (flattened adapter s account symbol).fills = s.fills ∧
      KeptOrders s (flattened adapter s account symbol) := by
  unfold flattened
  split_ifs
  · exact ⟨rfl, rfl, rfl, fun id => rel_refl⟩
  · refine ⟨rfl, rfl, rfl, fun id => rel_cancel ?_⟩
    intro r hr
    exact (of_decide_eq_true hr).2.2

theorem Updates.fills (h : Updates adapter s row requested closed) :
    closed.store.fills = s.fills := by
  cases h with
  | opens => rfl
  | absent => rfl
  | closes _ _ _ _ _ _ _ hcloses =>
    cases hcloses with
    | flat => exact flattened_parts.2.2.1
    | part => rfl

theorem Updates.keptOrders (h : Updates adapter s row requested closed) :
    KeptOrders s closed.store := by
  cases h with
  | opens => exact fun id => rel_refl
  | absent => exact fun id => rel_refl
  | closes _ _ _ _ _ _ _ hcloses =>
    cases hcloses with
    | flat => exact flattened_parts.2.2.2
    | part => exact fun id => rel_refl

theorem Updates.quantity (h : Updates adapter s row requested closed)
    (hpositive : ∀ p ∈ s.positions.find row.symbol, 0 < decimalValue p.quantity)
    (hrequested : 0 < decimalValue requested) :
    (closed.quantity = "0" ∨ 0 < decimalValue closed.quantity) ∧
      decimalValue closed.quantity ≤ decimalValue requested := by
  cases h with
  | opens => exact ⟨.inr hrequested, le_rfl⟩
  | absent => exact ⟨.inl rfl, by rw [decimalValue_zero]; exact hrequested.le⟩
  | closes _ hsome _ hmin =>
    rw [hmin]
    exact ⟨.inr (lt_min hrequested (hpositive _ hsome)), min_le_left _ _⟩

theorem Updates.held (h : Updates adapter s row requested closed) (symbol : String) :
    PaperExchange.held closed.store symbol = PaperExchange.held s symbol +
      if row.symbol = symbol then
        if row.reduceOnly = true then -decimalValue closed.quantity
        else decimalValue closed.quantity
      else 0 := by
  cases h with
  | opens hkind _ _ hsym _ hqty =>
    have hopening : ¬ row.reduceOnly = true := by simp [hkind]
    rw [PaperExchange.held, held_upsert, hsym, if_neg hopening]
    by_cases hrow : row.symbol = symbol
    · rw [if_pos hrow, if_pos hrow, hqty, hrow]
      rfl
    · rw [if_neg hrow, if_neg hrow, add_zero]
      rfl
  | absent hkind =>
    rw [if_pos hkind, decimalValue_zero, neg_zero, ite_self, add_zero]
  | @closes position account paid product released pnl closed hkind hsome _ _ _ _ _ hcloses =>
    have hposn : PaperExchange.held s row.symbol = decimalValue position.quantity := by
      rw [PaperExchange.held, hsome]
      rfl
    rw [if_pos hkind]
    cases hcloses with
    | flat hall =>
      rw [PaperExchange.held, flattened_parts.2.1, Keyed.find_delete_key]
      by_cases hrow : row.symbol = symbol
      · rw [if_pos hrow, if_pos hrow.symm, ← hrow, hposn, hall]
        simp
      · rw [if_neg hrow, if_neg (Ne.symm hrow), add_zero]
        rfl
    | part _ hsym _ hqty =>
      rw [PaperExchange.held, held_upsert, hsym, Keyed.key_of_find hsome]
      split_ifs with hrow
      · rw [hqty, ← hrow, hposn, sub_eq_add_neg]
      · rw [add_zero]
        rfl

theorem Updates.positive (h : Updates adapter s row requested closed)
    (hpositive : ∀ symbol, ∀ p ∈ s.positions.find symbol, 0 < decimalValue p.quantity)
    (hrequested : 0 < decimalValue requested) :
    ∀ symbol, ∀ p ∈ closed.store.positions.find symbol, 0 < decimalValue p.quantity := by
  have hupsert : ∀ position : PaperPositionRow, 0 < decimalValue position.quantity →
      ∀ symbol, ∀ p ∈ (s.positions.upsert position).find symbol, 0 < decimalValue p.quantity := by
    intro position hposn symbol p hp
    rw [Option.mem_def, Keyed.find_upsert] at hp
    split_ifs at hp
    · cases hp
      exact hposn
    · exact hpositive symbol p hp
  cases h with
  | opens _ _ _ _ _ hqty =>
    apply hupsert
    rw [hqty]
    cases hfind : s.positions.find row.symbol with
    | none => simpa using hrequested
    | some p => exact add_pos (hpositive _ p hfind) hrequested
  | absent => exact hpositive
  | closes _ hsome _ _ _ _ _ hcloses =>
    cases hcloses with
    | flat =>
      intro symbol p hp
      rw [Option.mem_def, flattened_parts.2.1, Keyed.find_delete_key] at hp
      split_ifs at hp
      exact hpositive symbol p hp
    | part hless _ _ hqty =>
      apply hupsert
      rw [hqty]
      linarith

theorem Updates.side (h : Updates adapter s row requested closed) {symbol : String}
    {p q : PaperPositionRow} (hp : s.positions.find symbol = some p)
    (hq : closed.store.positions.find symbol = some q) : p.side = q.side := by
  have hsame : s.positions.find symbol = some q → p.side = q.side := by
    intro hfind
    rw [hp] at hfind
    rw [Option.some.inj hfind]
  cases h with
  | opens _ _ _ hsym hside =>
    rw [Keyed.find_upsert, hsym] at hq
    split_ifs at hq with hrow
    · cases hq
      exact hside p (by rw [hrow]; exact hp)
    · exact hsame hq
  | absent => exact hsame hq
  | closes _ hsome _ _ _ _ _ hcloses =>
    cases hcloses with
    | flat =>
      rw [flattened_parts.2.1, Keyed.find_delete_key] at hq
      split_ifs at hq
      exact hsame hq
    | part _ hsym hside =>
      rw [Keyed.find_upsert, hsym, Keyed.key_of_find hsome] at hq
      split_ifs at hq with hrow
      · cases hq
        rw [hrow, hp] at hsome
        rw [hside, Option.some.inj hsome]
      · exact hsame hq

end Held

section Moves

variable {o' : PaperOrderRow} {fills : List PaperFillRow}

/-- The texts of an order that settling it compares with a mark price. -/
structure Readable (order : PaperOrderRow) : Prop where
  filled : ∃ u, Denotes order.filledQuantity u
  trigger : order.orderType = .stopMarket → ∃ u, Denotes (shown order.triggerPrice) u
  price : order.orderType = .limit → ∃ u, Denotes (shown order.price) u

/-- One write of a call. A fill is subject to a condition on the store and the order. -/
inductive Move (P : PaperExchangeAdapter → Store → PaperOrderRow → Prop) : Store → Store → Prop
  | market {s : Store} (market : PaperMarketRow) :
      Move P s { s with markets := s.markets.upsert market }
  | insert {s : Store} {row : PaperOrderRow} (hnew : s.orders.find row.exchangeOrderId = none)
      (hstatus : row.status = .opened) (hqty : 0 < decimalValue row.quantity)
      (hfilled : row.filledQuantity = "0") (hreadable : Readable row) :
      Move P s { s with orders := (s.orders.insert row).2 }
  | cancel {s : Store} (p : PaperOrderRow → Bool)
      (hworking : ∀ row, p row = true → row.status.isWorking = true) :
      Move P s { s with
        orders := s.orders.update p (fun row => { row with status := .cancelled }) (fun _ => rfl) }
  | fill {s t : Store} {adapter : PaperExchangeAdapter} {row : PaperOrderRow}
      (hrow : s.orders.find row.exchangeOrderId = some row) (hworking : row.status.isWorking = true)
      (hcondition : P adapter s row) (hfill : Nonempty (Fill adapter s row t)) : Move P s t

structure OrderSound (fills : List PaperFillRow) (order : PaperOrderRow) : Prop where
  positive : 0 < decimalValue order.quantity
  filled : decimalValue order.filledQuantity = filledOf fills order.exchangeOrderId
  bounded : decimalValue order.filledQuantity ≤ decimalValue order.quantity
  status : order.status = .filled ↔
    decimalValue order.filledQuantity = decimalValue order.quantity
  readable : Readable order

structure Sound (s : Store) : Prop where
  orders : ∀ order ∈ s.orders.rows, OrderSound s.fills.rows order
  fills : ∀ fill ∈ s.fills.rows, (s.orders.find fill.exchangeOrderId).isSome
  net : ∀ symbol, held s symbol = net s.orders s.fills.rows symbol
  positive : ∀ symbol, ∀ p ∈ s.positions.find symbol, 0 < decimalValue p.quantity

abbrev Moves (P : PaperExchangeAdapter → Store → PaperOrderRow → Prop) : Store → Store → Prop :=
  Relation.ReflTransGen (Move P)

variable {P : PaperExchangeAdapter → Store → PaperOrderRow → Prop}
  {adapter : PaperExchangeAdapter} {s t : Store} {row order : PaperOrderRow}

theorem Readable.kept {o : PaperOrderRow} (h : Readable o) (hkept : Kept o o') : Readable o' := by
  rcases hkept with rfl | ⟨-, rfl⟩
  · exact h
  · exact ⟨h.filled, h.trigger, h.price⟩

theorem OrderSound.kept {o : PaperOrderRow} (h : OrderSound fills o) (hkept : Kept o o') :
    OrderSound fills o' := by
  obtain ⟨hid, -, -, hqty, hfilled⟩ := hkept.identity
  constructor
  · rw [hqty]
    exact h.positive
  · rw [hfilled, hid]
    exact h.filled
  · rw [hfilled, hqty]
    exact h.bounded
  · rw [hkept.filled_iff, hfilled, hqty]
    exact h.status
  · exact h.readable.kept hkept

theorem OrderSound.working (h : OrderSound fills order) (hworking : order.status.isWorking = true) :
    decimalValue order.filledQuantity < decimalValue order.quantity := by
  apply lt_of_le_of_ne h.bounded
  intro heq
  rw [h.status.mpr heq] at hworking
  cases hworking

theorem rel_mem {s t : Store} (h : KeptOrders s t) (ho : o' ∈ t.orders.rows) :
    ∃ o ∈ s.orders.rows, Kept o o' := by
  have hrel := h o'.exchangeOrderId
  rw [Keyed.find_eq_some.mpr ⟨ho, rfl⟩] at hrel
  cases hfind : s.orders.find o'.exchangeOrderId with
  | none =>
    rw [hfind] at hrel
    cases hrel
  | some o =>
    rw [hfind] at hrel
    cases hrel with
    | some hkept => exact ⟨o, Keyed.mem_of_find hfind, hkept⟩

theorem KeptOrders.isSome (h : KeptOrders s t) {id : String} (hsome : (s.orders.find id).isSome) :
    ∃ o o', s.orders.find id = some o ∧ t.orders.find id = some o' ∧ Kept o o' := by
  obtain ⟨o, ho⟩ := Option.isSome_iff_exists.mp hsome
  have hrel := h id
  rw [ho] at hrel
  cases hfind : t.orders.find id with
  | none =>
    rw [hfind] at hrel
    cases hrel
  | some o' =>
    rw [hfind] at hrel
    cases hrel with
    | some hkept => exact ⟨o, o', ho, rfl, hkept⟩

theorem KeptOrders.net (h : KeptOrders s t)
    (hfills : ∀ fill ∈ s.fills.rows, (s.orders.find fill.exchangeOrderId).isSome)
    (hsub : ∀ fill ∈ fills, fill ∈ s.fills.rows) (symbol : String) :
    PaperExchange.net t.orders fills symbol = PaperExchange.net s.orders fills symbol := by
  apply net_congr
  intro fill hfill
  obtain ⟨o, o', ho, ho', hkept⟩ := h.isSome (hfills fill (hsub fill hfill))
  obtain ⟨-, hsym, hkind, -, -⟩ := hkept.identity
  exact ⟨o', o, ho', ho, hsym, hkind⟩

theorem Sound.kept (h : Sound s) (hkept : KeptOrders s t) (hfills : t.fills = s.fills)
    (hposns : t.positions = s.positions) : Sound t := by
  constructor
  · intro o' ho'
    obtain ⟨o, ho, hkeep⟩ := rel_mem hkept ho'
    rw [hfills]
    exact (h.orders o ho).kept hkeep
  · intro fill hfill
    rw [hfills] at hfill
    obtain ⟨o, o', -, ho', -⟩ := hkept.isSome (h.fills fill hfill)
    rw [ho']
    rfl
  · intro symbol
    rw [hfills, hkept.net h.fills (fun fill hfill => hfill), ← h.net, held, hposns]
    rfl
  · rw [hposns]
    exact h.positive

theorem Sound.insert (h : Sound s) (hnew : s.orders.find row.exchangeOrderId = none)
    (hstatus : row.status = .opened) (hqty : 0 < decimalValue row.quantity)
    (hfilled : row.filledQuantity = "0") (hreadable : Readable row) :
    Sound { s with orders := (s.orders.insert row).2 } := by
  have hold : ∀ fill ∈ s.fills.rows, fill.exchangeOrderId ≠ row.exchangeOrderId := by
    intro fill hfill heq
    have hsome := h.fills fill hfill
    rw [heq, hnew] at hsome
    cases hsome
  have hfind : ∀ fill ∈ s.fills.rows,
      (s.orders.insert row).2.find fill.exchangeOrderId = s.orders.find fill.exchangeOrderId := by
    intro fill hfill
    rw [Keyed.find_insert, if_neg (Ne.symm (hold fill hfill))]
  constructor
  · intro order horder
    rw [Keyed.rows_insert hnew, List.mem_append, List.mem_singleton] at horder
    rcases horder with horder | rfl
    · exact h.orders order horder
    · constructor
      · exact hqty
      · rw [hfilled, decimalValue_zero, filledOf_eq_zero hold]
      · rw [hfilled, decimalValue_zero]
        exact hqty.le
      · rw [hstatus, hfilled, decimalValue_zero]
        constructor
        · intro hcontra
          cases hcontra
        · intro hzero
          exact absurd hzero hqty.ne
      · exact hreadable
  · intro fill hfill
    rw [hfind fill hfill]
    exact h.fills fill hfill
  · intro symbol
    have hnet := h.net symbol
    rw [held] at hnet ⊢
    rw [hnet]
    apply net_congr
    intro fill hfill
    obtain ⟨o, ho⟩ := Option.isSome_iff_exists.mp (h.fills fill hfill)
    exact ⟨o, o, ho, by rw [hfind fill hfill, ho], rfl, rfl⟩
  · exact h.positive

end Moves

section FillMove

variable {adapter : PaperExchangeAdapter} {s t : Store} {row : PaperOrderRow}

def Fill.filledRow (fill : Fill adapter s row t) : PaperOrderRow :=
  { row with
    status := fill.status
    filledQuantity := fill.cumulative
    averagePrice := fill.averagePrice }

theorem Fill.tables (fill : Fill adapter s row t) :
    t.orders = (rewritten fill.closed.store row fill.status fill.cumulative
        fill.averagePrice).orders ∧
      t.positions = fill.closed.store.positions ∧ t.account = fill.closed.store.account ∧
      t.markets = fill.closed.store.markets := by
  have hparts : ∀ {u : Store}, t = u →
      t.orders = u.orders ∧ t.positions = u.positions ∧ t.account = u.account ∧
        t.markets = u.markets := by
    rintro u rfl
    exact ⟨rfl, rfl, rfl, rfl⟩
  rcases fill.hinsert with ⟨-, heq⟩ | ⟨_, -, -, -, heq⟩
  · have hsame := hparts heq
    exact hsame
  · have hsame := hparts heq
    exact hsame

theorem Fill.find_self (fill : Fill adapter s row t)
    (hrow : s.orders.find row.exchangeOrderId = some row) :
    t.orders.find row.exchangeOrderId = some fill.filledRow := by
  have hrel := fill.hupdates.keptOrders row.exchangeOrderId
  rw [hrow] at hrel
  rw [fill.tables.1, rewritten, Keyed.find_update]
  cases hfind : fill.closed.store.orders.find row.exchangeOrderId with
  | none =>
    rw [hfind] at hrel
    cases hrel
  | some o =>
    rw [hfind] at hrel
    cases hrel with
    | some hkept =>
      rw [Option.map_some, if_pos (decide_eq_true hkept.identity.1)]
      rcases hkept with rfl | ⟨-, rfl⟩
      · rfl
      · rfl

theorem Fill.find_other (fill : Fill adapter s row t) {id : String}
    (hid : id ≠ row.exchangeOrderId) :
    Option.Rel Kept (s.orders.find id) (t.orders.find id) := by
  have hrel := fill.hupdates.keptOrders id
  rw [fill.tables.1, rewritten, Keyed.find_update]
  cases hfind : fill.closed.store.orders.find id with
  | none =>
    rw [hfind] at hrel
    exact hrel
  | some o =>
    rw [hfind] at hrel
    have hkey : ¬ o.exchangeOrderId = row.exchangeOrderId := by
      rw [Keyed.key_of_find hfind]
      exact hid
    rw [Option.map_some, if_neg (by simpa using hkey)]
    exact hrel

theorem Fill.fills (fill : Fill adapter s row t) :
    (fill.closed.quantity = "0" ∧ t.fills.rows = s.fills.rows) ∨
      ∃ added : PaperFillRow, added.exchangeOrderId = row.exchangeOrderId ∧
        added.quantity = fill.closed.quantity ∧ t.fills.rows = s.fills.rows ++ [added] := by
  have hsame := fill.hupdates.fills
  rcases fill.hinsert with ⟨hzero, heq⟩ | ⟨added, horder, hqty, hnew, heq⟩
  · left
    refine ⟨hzero, ?_⟩
    rw [← hsame]
    exact congrArg (fun u => u.fills.rows) heq
  · right
    refine ⟨added, horder, hqty, ?_⟩
    rw [← hsame, ← Keyed.rows_insert hnew]
    exact congrArg (fun u => u.fills.rows) heq

theorem Fill.filledOf (fill : Fill adapter s row t) (id : String) :
    PaperExchange.filledOf t.fills.rows id = PaperExchange.filledOf s.fills.rows id +
      if row.exchangeOrderId = id then decimalValue fill.closed.quantity else 0 := by
  rcases fill.fills with ⟨hzero, hrows⟩ | ⟨added, horder, hqty, hrows⟩
  · rw [hrows, hzero, decimalValue_zero, ite_self, add_zero]
  · rw [hrows, filledOf_concat, horder, hqty]

theorem Fill.orders_isSome (fill : Fill adapter s row t)
    (hrow : s.orders.find row.exchangeOrderId = some row) {id : String}
    (hsome : (s.orders.find id).isSome) :
    ∃ o o', s.orders.find id = some o ∧ t.orders.find id = some o' ∧ o'.symbol = o.symbol ∧
      o'.reduceOnly = o.reduceOnly := by
  by_cases hid : id = row.exchangeOrderId
  · rw [hid]
    exact ⟨row, fill.filledRow, hrow, fill.find_self hrow, rfl, rfl⟩
  · have hrel := fill.find_other hid
    obtain ⟨o, ho⟩ := Option.isSome_iff_exists.mp hsome
    rw [ho] at hrel
    cases hfind : t.orders.find id with
    | none =>
      rw [hfind] at hrel
      cases hrel
    | some o' =>
      rw [hfind] at hrel
      cases hrel with
      | some hkept => exact ⟨o, o', ho, rfl, hkept.identity.2.1, hkept.identity.2.2.1⟩

theorem Fill.net_old (fill : Fill adapter s row t)
    (hrow : s.orders.find row.exchangeOrderId = some row) (hs : Sound s)
    {fills : List PaperFillRow} (hsub : ∀ fill ∈ fills, fill ∈ s.fills.rows) (symbol : String) :
    net t.orders fills symbol = net s.orders fills symbol := by
  apply net_congr
  intro old hold
  obtain ⟨o, o', ho, ho', hsym, hkind⟩ :=
    fill.orders_isSome hrow (hs.fills old (hsub old hold))
  exact ⟨o', o, ho', ho, hsym, hkind⟩

theorem Fill.net (fill : Fill adapter s row t)
    (hrow : s.orders.find row.exchangeOrderId = some row) (hs : Sound s) (symbol : String) :
    PaperExchange.net t.orders t.fills.rows symbol =
      PaperExchange.net s.orders s.fills.rows symbol +
        if row.symbol = symbol then
          if row.reduceOnly = true then -decimalValue fill.closed.quantity
          else decimalValue fill.closed.quantity
        else 0 := by
  have hold := fill.net_old hrow hs (fun _ h => h) symbol
  rcases fill.fills with ⟨hzero, hrows⟩ | ⟨added, horder, hqty, hrows⟩
  · rw [hrows, hold, hzero, decimalValue_zero, neg_zero, ite_self, ite_self, add_zero]
  · rw [hrows, net_concat, hold, signedFill, horder, fill.find_self hrow, hqty]
    rfl

theorem Fill.held (fill : Fill adapter s row t) (symbol : String) :
    PaperExchange.held t symbol = PaperExchange.held s symbol +
      if row.symbol = symbol then
        if row.reduceOnly = true then -decimalValue fill.closed.quantity
        else decimalValue fill.closed.quantity
      else 0 := by
  rw [← fill.hupdates.held symbol, PaperExchange.held, fill.tables.2.1, PaperExchange.held]

theorem Fill.mem_orders (fill : Fill adapter s row t)
    (hrow : s.orders.find row.exchangeOrderId = some row) {o' : PaperOrderRow}
    (ho' : o' ∈ t.orders.rows) :
    o' = fill.filledRow ∨ o'.exchangeOrderId ≠ row.exchangeOrderId ∧ ∃ o ∈ s.orders.rows,
      Kept o o' := by
  have hfind : t.orders.find o'.exchangeOrderId = some o' := Keyed.find_eq_some.mpr ⟨ho', rfl⟩
  by_cases hid : o'.exchangeOrderId = row.exchangeOrderId
  · left
    rw [hid, fill.find_self hrow] at hfind
    exact (Option.some.inj hfind).symm
  · right
    refine ⟨hid, ?_⟩
    have hrel := fill.find_other hid
    rw [hfind] at hrel
    cases hold : s.orders.find o'.exchangeOrderId with
    | none =>
      rw [hold] at hrel
      cases hrel
    | some o =>
      rw [hold] at hrel
      cases hrel with
      | some hkept => exact ⟨o, Keyed.mem_of_find hold, hkept⟩

theorem Fill.sound (fill : Fill adapter s row t)
    (hrow : s.orders.find row.exchangeOrderId = some row) (hworking : row.status.isWorking = true)
    (hs : Sound s) : Sound t := by
  have hsound := hs.orders row (Keyed.mem_of_find hrow)
  obtain ⟨hpos, hle⟩ := requestedQuantity_pos fill.hrequested (hsound.working hworking)
  obtain ⟨-, htaken⟩ := fill.hupdates.quantity (hs.positive row.symbol) hpos
  constructor
  · intro o' ho'
    rcases fill.mem_orders hrow ho' with rfl | ⟨hid, o, ho, hkept⟩
    · constructor
      · exact hsound.positive
      · rw [fill.filledOf, Fill.filledRow, if_pos rfl, fill.hcumulative, hsound.filled]
      · rw [Fill.filledRow, fill.hcumulative]
        linarith
      · exact fill.hfilled
      · exact ⟨fill.hdenotes, hsound.readable.trigger, hsound.readable.price⟩
    · have hold := (hs.orders o ho).kept hkept
      constructor
      · exact hold.positive
      · rw [fill.filledOf, if_neg (Ne.symm hid), add_zero]
        exact hold.filled
      · exact hold.bounded
      · exact hold.status
      · exact hold.readable
  · intro added hadded
    have hfind : ∀ old ∈ s.fills.rows, (t.orders.find old.exchangeOrderId).isSome := by
      intro old hold
      obtain ⟨o, o', -, ho', -⟩ := fill.orders_isSome hrow (hs.fills old hold)
      rw [ho']
      rfl
    rcases fill.fills with ⟨-, hrows⟩ | ⟨new, horder, -, hrows⟩
    · rw [hrows] at hadded
      exact hfind added hadded
    · rw [hrows, List.mem_append, List.mem_singleton] at hadded
      rcases hadded with hadded | rfl
      · exact hfind added hadded
      · rw [horder, fill.find_self hrow]
        rfl
  · intro symbol
    rw [fill.held, fill.net hrow hs, hs.net]
  · rw [fill.tables.2.1]
    exact fill.hupdates.positive hs.positive hpos

theorem Move.sound {P : PaperExchangeAdapter → Store → PaperOrderRow → Prop} (h : Move P s t)
    (hs : Sound s) : Sound t := by
  cases h with
  | market => exact hs.kept (fun id => rel_refl) rfl rfl
  | insert hnew hstatus hqty hfilled hreadable =>
    exact hs.insert hnew hstatus hqty hfilled hreadable
  | cancel p hworking => exact hs.kept (fun id => rel_cancel hworking) rfl rfl
  | fill hrow hworking _ hfill =>
    obtain ⟨fill⟩ := hfill
    exact fill.sound hrow hworking hs

end FillMove

section Progress

variable {P : PaperExchangeAdapter → Store → PaperOrderRow → Prop}
  {adapter : PaperExchangeAdapter} {s m t : Store} {row : PaperOrderRow}

/-- An order later on: it keeps its symbol and kind, and once closed also its fills. -/
structure Later (s t : Store) (o o' : PaperOrderRow) : Prop where
  symbol : o'.symbol = o.symbol
  reduceOnly : o'.reduceOnly = o.reduceOnly
  closed : o.status.isWorking = false → o'.status = o.status ∧
    filledOf t.fills.rows o.exchangeOrderId = filledOf s.fills.rows o.exchangeOrderId ∧
    ∀ fill ∈ t.fills.rows, fill.exchangeOrderId = o.exchangeOrderId → fill ∈ s.fills.rows

/-- What holds between a store and a later one. A position row is there throughout when the
net quantity is not zero after any of the fills in between. -/
structure Progress (s t : Store) : Prop where
  orders : ∀ id, ∀ o ∈ s.orders.find id, ∃ o' ∈ t.orders.find id, Later s t o o'
  fills : s.fills.rows <+: t.fills.rows
  side : ∀ symbol, ∀ p ∈ s.positions.find symbol, ∀ q ∈ t.positions.find symbol,
    (∀ fills, s.fills.rows <+: fills → fills <+: t.fills.rows → net t.orders fills symbol ≠ 0) →
      p.side = q.side

theorem Later.trans {o o' o'' : PaperOrderRow} (hid : o'.exchangeOrderId = o.exchangeOrderId)
    (h : Later s m o o') (h' : Later m t o' o'') : Later s t o o'' := by
  constructor
  · rw [h'.symbol, h.symbol]
  · rw [h'.reduceOnly, h.reduceOnly]
  · intro hclosed
    obtain ⟨hstatus, hfilled, hfills⟩ := h.closed hclosed
    obtain ⟨hstatus', hfilled', hfills'⟩ := h'.closed (by rw [hstatus, hclosed])
    rw [hid] at hfilled' hfills'
    refine ⟨hstatus'.trans hstatus, hfilled'.trans hfilled, ?_⟩
    intro fill hfill horder
    exact hfills fill (hfills' fill hfill horder) horder

theorem Progress.net (h : Progress s t) (hs : Sound s) {fills : List PaperFillRow}
    (hsub : fills <+: s.fills.rows) (symbol : String) :
    PaperExchange.net t.orders fills symbol = PaperExchange.net s.orders fills symbol := by
  apply net_congr
  intro fill hfill
  obtain ⟨o, ho⟩ := Option.isSome_iff_exists.mp (hs.fills fill (hsub.subset hfill))
  obtain ⟨o', ho', hlater⟩ := h.orders _ o ho
  exact ⟨o', o, ho', ho, hlater.symbol, hlater.reduceOnly⟩

theorem Progress.refl : Progress s s := by
  constructor
  · intro id o ho
    exact ⟨o, ho, rfl, rfl, fun _ => ⟨rfl, rfl, fun _ hfill _ => hfill⟩⟩
  · exact List.prefix_rfl
  · intro symbol p hp q hq _
    rw [Option.mem_def] at hp hq
    rw [hp] at hq
    rw [Option.some.inj hq]

theorem Sound.position (h : Sound s) {symbol : String}
    (hnet : PaperExchange.net s.orders s.fills.rows symbol ≠ 0) :
    ∃ p, s.positions.find symbol = some p := by
  cases hfind : s.positions.find symbol with
  | none =>
    rw [← h.net, held, hfind] at hnet
    exact absurd rfl hnet
  | some p => exact ⟨p, rfl⟩

theorem Progress.trans (hm : Sound m) (h : Progress s m) (h' : Progress m t) : Progress s t := by
  constructor
  · intro id o ho
    obtain ⟨o', ho', hlater⟩ := h.orders id o ho
    obtain ⟨o'', ho'', hlater'⟩ := h'.orders id o' ho'
    have hid : o'.exchangeOrderId = o.exchangeOrderId :=
      (Keyed.key_of_find ho').trans (Keyed.key_of_find ho).symm
    exact ⟨o'', ho'', hlater.trans hid hlater'⟩
  · exact h.fills.trans h'.fills
  · intro symbol p hp q hq hnet
    have hmid := hnet m.fills.rows h.fills h'.fills
    rw [h'.net hm List.prefix_rfl] at hmid
    obtain ⟨r, hr⟩ := hm.position hmid
    have hfirst : p.side = r.side := by
      apply h.side symbol p hp r hr
      intro fills hfrom hto
      rw [← h'.net hm hto]
      exact hnet fills hfrom (hto.trans h'.fills)
    have hsnd : r.side = q.side := by
      apply h'.side symbol r hr q hq
      intro fills hfrom hto
      exact hnet fills (h.fills.trans hfrom) hto
    exact hfirst.trans hsnd

theorem Progress.kept (hkept : KeptOrders s t) (hfills : t.fills = s.fills)
    (hposns : t.positions = s.positions) : Progress s t := by
  constructor
  · intro id o ho
    rw [Option.mem_def] at ho
    obtain ⟨o₁, o', ho₁, ho', hkeep⟩ := hkept.isSome (by rw [ho]; rfl : (s.orders.find id).isSome)
    rw [ho] at ho₁
    obtain rfl := Option.some.inj ho₁
    obtain ⟨-, hsym, hkind, -, -⟩ := hkeep.identity
    refine ⟨o', ho', hsym, hkind, ?_⟩
    intro hclosed
    rw [hkeep.closed hclosed, hfills]
    exact ⟨rfl, rfl, fun _ hfill _ => hfill⟩
  · rw [hfills]
  · intro symbol p hp q hq _
    rw [hposns, Option.mem_def] at hq
    rw [Option.mem_def, hq] at hp
    rw [Option.some.inj hp]

theorem Progress.insert (hnew : s.orders.find row.exchangeOrderId = none) :
    Progress s { s with orders := (s.orders.insert row).2 } := by
  constructor
  · intro id o ho
    refine ⟨o, ?_, rfl, rfl, fun _ => ⟨rfl, rfl, fun _ hfill _ => hfill⟩⟩
    have hid : row.exchangeOrderId ≠ id := by
      rintro rfl
      rw [Option.mem_def, hnew] at ho
      cases ho
    rw [Option.mem_def, Keyed.find_insert, if_neg hid]
    exact ho
  · exact List.prefix_rfl
  · intro symbol p hp q hq _
    rw [Option.mem_def] at hp hq
    rw [hp] at hq
    rw [Option.some.inj hq]

theorem Fill.progress (fill : Fill adapter s row t)
    (hrow : s.orders.find row.exchangeOrderId = some row) (hworking : row.status.isWorking = true) :
    Progress s t := by
  constructor
  · intro id o ho
    rw [Option.mem_def] at ho
    by_cases hid : id = row.exchangeOrderId
    · rw [hid, hrow] at ho
      obtain rfl := Option.some.inj ho
      rw [hid]
      refine ⟨fill.filledRow, fill.find_self hrow, rfl, rfl, ?_⟩
      intro hclosed
      rw [hworking] at hclosed
      cases hclosed
    · have hrel := fill.find_other hid
      rw [ho] at hrel
      cases hfind : t.orders.find id with
      | none =>
        rw [hfind] at hrel
        cases hrel
      | some o' =>
        rw [hfind] at hrel
        cases hrel with
        | some hkept =>
          obtain ⟨-, hsym, hkind, -, -⟩ := hkept.identity
          refine ⟨o', rfl, hsym, hkind, ?_⟩
          intro hclosed
          have hother : row.exchangeOrderId ≠ o.exchangeOrderId := by
            rw [Keyed.key_of_find ho]
            exact Ne.symm hid
          rw [hkept.closed hclosed, fill.filledOf, if_neg hother, add_zero]
          refine ⟨rfl, rfl, ?_⟩
          intro old hold horder
          rcases fill.fills with ⟨-, hrows⟩ | ⟨added, hadded, -, hrows⟩
          · rwa [hrows] at hold
          · rw [hrows, List.mem_append, List.mem_singleton] at hold
            rcases hold with hold | rfl
            · exact hold
            · exact absurd (hadded.symm.trans horder) hother
  · rcases fill.fills with ⟨-, hrows⟩ | ⟨added, -, -, hrows⟩
    · rw [hrows]
    · rw [hrows]
      exact List.prefix_append _ _
  · intro symbol p hp q hq _
    rw [fill.tables.2.1] at hq
    exact fill.hupdates.side hp hq

theorem Move.progress (h : Move P s t) : Progress s t := by
  cases h with
  | market => exact .kept (fun id => rel_refl) rfl rfl
  | insert hnew => exact .insert hnew
  | cancel p hworking => exact .kept (fun id => rel_cancel hworking) rfl rfl
  | fill hrow hworking _ hfill =>
    obtain ⟨fill⟩ := hfill
    exact fill.progress hrow hworking

theorem Moves.keeps (h : Moves P s t) (hs : Sound s) : Sound t ∧ Progress s t := by
  induction h with
  | refl => exact ⟨hs, .refl⟩
  | tail _ hmove ih => exact ⟨hmove.sound ih.1, ih.2.trans ih.1 hmove.progress⟩

end Progress

section Calls

variable (P : PaperExchangeAdapter → Store → PaperOrderRow → Prop) (services : Services)
  (adapter : PaperExchangeAdapter) {row : PaperOrderRow} {immediate : Option String}

/-- A condition on every fill of a settlement, at the store that the fill starts from. -/
def SettlementFills (markPrice : String) : Store → List PaperOrderRow → Prop
  | _, [] => True
  | s, order :: orders =>
    (∀ current, s.orders.find order.exchangeOrderId = some current →
      current.status.isWorking = true → orderCanFill current markPrice = .ok true →
      P adapter s current) ∧
    ∀ t, settleOrder services adapter markPrice s order = .ok t →
      SettlementFills markPrice t orders

def SubmissionFills (s : Store) (account : TradingAccount)
    (request : ExchangeOrderRequest) : Prop :=
  ∀ market row, findClientOrder s request.clientOrderId = none →
    marketSnapshot s account request.symbol = .ok market →
      insertOrder services s request = .ok row →
    orderCanFill row market.markPrice = .ok true →
    P adapter { s with orders := (s.orders.insert row).2 } row

def EveryFill (s : Store) (request : Request) : Prop :=
  match request.call with
  | .setMarket market => ∀ row, normalizedMarket request.services market = .ok row →
    SettlementFills P request.services request.adapter row.markPrice
      { s with markets := s.markets.upsert row }
      (openOrders { s with markets := s.markets.upsert row } row.symbol)
  | .submitOrder account order => SubmissionFills P request.services request.adapter s account order
  | .submitProtectedEntry account entry protectiveStop =>
    SubmissionFills P request.services request.adapter s account entry ∧
      ∀ t, submitOrder request.services request.adapter s account entry = .ok t →
        SubmissionFills P request.services request.adapter t account protectiveStop
  | .cancelOrder _ _ => True

variable {P services adapter} {s t : Store} {markPrice : String} {orders : List PaperOrderRow}
  {account : TradingAccount} {request : ExchangeOrderRequest}

theorem fillIfPossible_moves (h : fillIfPossible services adapter s row markPrice immediate = .ok t)
    (hrow : s.orders.find row.exchangeOrderId = some row) (hworking : row.status.isWorking = true)
    (hP : orderCanFill row markPrice = .ok true → P adapter s row) : Moves P s t := by
  simp only [fillIfPossible, bind_eq_ok] at h
  obtain ⟨canFill, hcan, h⟩ := h
  split_ifs at h with htrue
  · rw [htrue] at hcan
    exact .single (.fill hrow hworking (hP hcan) (fillOrder_cases h))
  · rw [pure_eq_ok_iff.mp h]

theorem settleOrder_moves {order : PaperOrderRow}
    (h : settleOrder services adapter markPrice s order = .ok t)
    (hP : ∀ current, s.orders.find order.exchangeOrderId = some current →
      current.status.isWorking = true → orderCanFill current markPrice = .ok true →
      P adapter s current) : Moves P s t := by
  unfold settleOrder at h
  cases hfind : s.orders.find order.exchangeOrderId with
  | none =>
    rw [hfind] at h
    rw [pure_eq_ok_iff.mp h]
  | some current =>
    simp only [hfind] at h
    split_ifs at h with hworking
    · apply fillIfPossible_moves h _ hworking (hP current hfind hworking)
      rw [Keyed.key_of_find hfind]
      exact hfind
    · rw [pure_eq_ok_iff.mp h]

theorem settlement_moves (h : orders.foldlM (settleOrder services adapter markPrice) s = .ok t)
    (hP : SettlementFills P services adapter markPrice s orders) : Moves P s t := by
  induction orders generalizing s with
  | nil =>
    rw [List.foldlM_nil] at h
    rw [pure_eq_ok_iff.mp h]
  | cons order orders ih =>
    rw [List.foldlM_cons, bind_eq_ok] at h
    obtain ⟨m, hm, h⟩ := h
    have hfirst := settleOrder_moves hm hP.1
    exact hfirst.trans (ih h (hP.2 m hm))

theorem insertOrder_row (h : insertOrder services s request = .ok row) :
    s.orders.find row.exchangeOrderId = none ∧ row.status = .opened ∧
      0 < decimalValue row.quantity ∧ row.filledQuantity = "0" := by
  simp only [insertOrder, bind_eq_ok, throwIf_eq_ok, pure_eq_ok_iff] at h
  obtain ⟨quantity, hqty, -, -, -, hnew, rfl⟩ := h
  obtain ⟨hvalue, hpos⟩ := decimal_value hqty
  refine ⟨?_, rfl, ?_, rfl⟩
  · simpa using hnew
  · change 0 < decimalValue quantity
    rw [hvalue]
    exact hpos rfl

theorem readable_of_fillIfPossible (hfilled : row.filledQuantity = "0")
    (h : fillIfPossible services adapter s row markPrice immediate = .ok t) : Readable row := by
  simp only [fillIfPossible, bind_eq_ok] at h
  obtain ⟨canFill, hcan, -⟩ := h
  have hcompared : ∀ {value : String} {o : ℤ}, compareDecimal markPrice value = .ok o →
      ∃ u, Denotes value u := by
    intro value o ho
    obtain ⟨-, u, -, hu, -⟩ := compareDecimal_ok_iff.mp ho
    exact ⟨u, hu⟩
  constructor
  · rw [hfilled]
    exact ⟨0, denotes_zero⟩
  · intro hkind
    simp only [orderCanFill, hkind, bind_eq_ok] at hcan
    obtain ⟨o, ho, hcan⟩ := hcan
    have hzero : ¬ 0 < o := by
      rw [(compareDecimal_value ho).2, hfilled]
      exact lt_irrefl _
    rw [if_neg hzero] at hcan
    obtain ⟨o', ho', -⟩ := bind_eq_ok.mp hcan
    exact hcompared ho'
  · intro hkind
    simp only [orderCanFill, hkind, bind_eq_ok] at hcan
    obtain ⟨o, ho, -⟩ := hcan
    exact hcompared ho

theorem submitOrder_moves (h : submitOrder services adapter s account request = .ok t)
    (hP : SubmissionFills P services adapter s account request) : Moves P s t := by
  simp only [submitOrder, bind_eq_ok] at h
  obtain ⟨-, -, h⟩ := h
  cases hclient : findClientOrder s request.clientOrderId with
  | some _ =>
    rw [hclient] at h
    rw [pure_eq_ok_iff.mp h]
  | none =>
    simp only [hclient, bind_eq_ok] at h
    obtain ⟨market, hmkt, row, hrow, h⟩ := h
    obtain ⟨hnew, hstatus, hqty, hfilled⟩ := insertOrder_row hrow
    simp only [executeOrder, bind_eq_ok, pure_eq_ok_iff] at h
    obtain ⟨filled, hfill, h⟩ := h
    have hinsert : Move P s { s with orders := (s.orders.insert row).2 } :=
      .insert hnew hstatus hqty hfilled (readable_of_fillIfPossible hfilled hfill)
    have hfound : (s.orders.insert row).2.find row.exchangeOrderId = some row := by
      rw [Keyed.find_insert, if_pos rfl, hnew]
      rfl
    have hmoves : Moves P s filled := by
      apply Relation.ReflTransGen.head hinsert
      apply fillIfPossible_moves hfill hfound (by rw [hstatus]; rfl)
      exact hP market row hclient hmkt hrow
    split_ifs at h with himmediate
    · rw [← h]
      apply hmoves.tail
      apply Move.cancel
      intro stored hstored
      exact (of_decide_eq_true hstored).2
    · rwa [← h]

theorem setMarket_moves {market : PaperMarketRow} (h : setMarket services adapter s market = .ok t)
    (hP : ∀ row, normalizedMarket services market = .ok row →
      SettlementFills P services adapter row.markPrice { s with markets := s.markets.upsert row }
        (openOrders { s with markets := s.markets.upsert row } row.symbol)) : Moves P s t := by
  simp only [setMarket, bind_eq_ok] at h
  obtain ⟨row, hrow, h⟩ := h
  exact (settlement_moves h (hP row hrow)).head (.market row)

/-- A committed call whose fills all meet a condition is a sequence of such moves. -/
theorem perform_moves {r : Request} (h : perform s r = .ok t) (hP : EveryFill P s r) :
    Moves P s t := by
  unfold perform at h
  unfold EveryFill at hP
  cases hcall : r.call with
  | setMarket market =>
    simp only [hcall] at h hP
    exact setMarket_moves h hP
  | submitOrder account order =>
    simp only [hcall] at h hP
    exact submitOrder_moves h hP
  | submitProtectedEntry account entry protectiveStop =>
    simp only [hcall, submitProtectedEntry, bind_eq_ok] at h hP
    obtain ⟨-, -, m, hm, h⟩ := h
    exact (submitOrder_moves hm hP.1).trans (submitOrder_moves h (hP.2 m hm))
  | cancelOrder account clientOrderId =>
    simp only [hcall, cancelOrder, bind_eq_ok] at h
    obtain ⟨-, -, h⟩ := h
    split at h
    · cases h
    · rw [← pure_eq_ok_iff.mp h]
      apply Relation.ReflTransGen.single
      apply Move.cancel
      intro stored hstored
      exact (of_decide_eq_true hstored).2

theorem settlementFills_true (s : Store) (orders : List PaperOrderRow) :
    SettlementFills (fun _ _ _ => True) services adapter markPrice s orders := by
  induction orders generalizing s with
  | nil => trivial
  | cons order orders ih => exact ⟨fun _ _ _ _ => trivial, fun t _ => ih t⟩

theorem everyFill_true (s : Store) (r : Request) : EveryFill (fun _ _ _ => True) s r := by
  unfold EveryFill
  cases r.call with
  | setMarket => exact fun _ _ => settlementFills_true _ _
  | submitOrder => exact fun _ _ _ _ _ _ => trivial
  | submitProtectedEntry =>
    exact ⟨fun _ _ _ _ _ _ => trivial, fun _ _ _ _ _ _ _ _ => trivial⟩
  | cancelOrder => trivial

end Calls

section Sample

def sampleAccount : TradingAccount := ⟨"paper", .paper⟩

def sampleMarket (markPrice : String) : PaperMarketRow :=
  ⟨"BTCUSDT", markPrice, "0.1", "0.1", "0.1", "1", 100⟩

/-- An order on the sample market, which is a limit order when it has a price. -/
def sampleOrder (clientOrderId : String) (role : OrderRole) (side : OrderSide) (quantity : String)
    (price triggerPrice : Option String) (leverage : String) : ExchangeOrderRequest where
  clientOrderId := clientOrderId
  role := role
  side := side
  orderType := if price ≠ none then .limit else if triggerPrice ≠ none then .stopMarket else .market
  immediateOrCancel := false
  quantity := quantity
  price := price
  triggerPrice := triggerPrice
  reduceOnly := role ≠ .entry
  postOnly := false
  targetIndex := none
  entryPriceBoundary := none
  symbol := "BTCUSDT"
  leverage := leverage

/-- An adapter that fills at most 0.4 at a time and retains what is left of a stop. -/
def sampleAdapter : PaperExchangeAdapter where
  maximumFillQuantity := some "0.4"
  reduceOnlyRemainder := .retain
  normalized := by
    intro quantity hqty
    obtain rfl := Option.some.inj hqty
    exact ⟨"0.4", by decide +kernel⟩

theorem normalized_none :
    ∀ quantity ∈ (none : Option String), ∃ given, decimal given true = .ok quantity := by
  simp

def plainAdapter : PaperExchangeAdapter := ⟨none, .cancelWhenFlat, normalized_none⟩

/-- The fill ids of a call are told apart by its number. -/
def sampleRequest (number : String) (adapter : PaperExchangeAdapter) (call : Call) : Request :=
  ⟨⟨fun _ => 0, id, fun order => number ++ order, id⟩, adapter, call⟩

structure Quantities where
  orders : List (String × PaperOrderStatus)
  positions : List (TradingSide × String)
  fills : List String
  deriving DecidableEq

def quantities (s : Store) : Quantities where
  orders := s.orders.rows.map (fun order => (order.filledQuantity, order.status))
  positions := s.positions.rows.map (fun position => (position.side, position.quantity))
  fills := s.fills.rows.map (fun fill => fill.quantity)

end Sample

section Runs

variable {s t : Store} {account : PaperAccountRow} {requests : List Request}

theorem Sound.fresh : Sound (fresh account) := by
  constructor
  · intro order horder
    cases horder
  · intro fill hfill
    cases hfill
  · intro symbol
    rfl
  · intro symbol p hp
    cases hp

theorem step_keeps {r : Request} (hs : Sound s) (h : step s r = some t) :
    Sound t ∧ Progress s t := by
  unfold step at h
  split at h
  · next u hperf =>
    obtain rfl := Option.some.inj h
    exact (perform_moves hperf (everyFill_true s r)).keeps hs
  · obtain rfl := Option.some.inj h
    exact ⟨hs, .refl⟩

theorem run_keeps (hs : Sound s) (h : Trace.run step s requests = some t) :
    Sound t ∧ Progress s t := by
  induction requests generalizing s with
  | nil =>
    rw [Trace.run_nil] at h
    rw [← h]
    exact ⟨hs, .refl⟩
  | cons r requests ih =>
    obtain ⟨m, hm, hrest⟩ := Trace.run_cons.mp h
    obtain ⟨hsound, hprog⟩ := step_keeps hs hm
    obtain ⟨htsound, htprogress⟩ := ih hsound hrest
    exact ⟨htsound, hprog.trans hsound htprogress⟩

/-- Orders, fills and positions agree in every state of a run. -/
structure Conserved (s : Store) : Prop where
  filled : ∀ order ∈ s.orders.rows,
    decimalValue order.filledQuantity = filledOf s.fills.rows order.exchangeOrderId ∧
      decimalValue order.filledQuantity ≤ decimalValue order.quantity ∧
      (order.status = .filled ↔
        decimalValue order.filledQuantity = decimalValue order.quantity)
  present : ∀ symbol, (s.positions.find symbol).isSome ↔ net s.orders s.fills.rows symbol ≠ 0
  quantity : ∀ symbol, ∀ position ∈ s.positions.find symbol,
    decimalValue position.quantity = net s.orders s.fills.rows symbol

/-- Between two states of a run, a filled or cancelled order receives no fill, and a position
row that is there after every fill in between keeps its side. -/
structure Settled (s t : Store) : Prop where
  closed : ∀ order ∈ s.orders.rows, order.status = .filled ∨ order.status = .cancelled →
    ∀ fill ∈ t.fills.rows, fill.exchangeOrderId = order.exchangeOrderId → fill ∈ s.fills.rows
  side : ∀ symbol, ∀ p ∈ s.positions.find symbol, ∀ q ∈ t.positions.find symbol,
    (∀ fills, s.fills.rows <+: fills → fills <+: t.fills.rows → net t.orders fills symbol ≠ 0) →
      p.side = q.side

theorem Sound.conserved (h : Sound s) : Conserved s := by
  have hheld : ∀ symbol, ∀ position ∈ s.positions.find symbol,
      decimalValue position.quantity = PaperExchange.net s.orders s.fills.rows symbol := by
    intro symbol position hposn
    rw [← h.net symbol, held, Option.mem_def.mp hposn]
    rfl
  constructor
  · intro order horder
    have hsound := h.orders order horder
    exact ⟨hsound.filled, hsound.bounded, hsound.status⟩
  · intro symbol
    constructor
    · intro hsome
      obtain ⟨position, hposn⟩ := Option.isSome_iff_exists.mp hsome
      rw [← hheld symbol position hposn]
      exact (h.positive symbol position hposn).ne'
    · intro hnet
      obtain ⟨position, hposn⟩ := h.position hnet
      rw [hposn]
      rfl
  · exact hheld

theorem Progress.settled (h : Progress s t) : Settled s t := by
  constructor
  · intro order horder hclosed fill hfill hid
    obtain ⟨o', -, hlater⟩ := h.orders _ order (Keyed.find_eq_some.mpr ⟨horder, rfl⟩)
    have hworking : order.status.isWorking = false := by
      rcases hclosed with hclosed | hclosed
      · rw [hclosed]
        rfl
      · rw [hclosed]
        rfl
    exact (hlater.closed hworking).2.2 fill hfill hid
  · exact h.side

/-- From a fresh account on, filled quantities, statuses and positions follow the fills. -/
theorem paper_quantities_conserved (account : PaperAccountRow) (before after : List Request)
    (s t : Store) (hbefore : Trace.run step (fresh account) before = some s)
    (hafter : Trace.run step s after = some t) : Conserved s ∧ Settled s t := by
  obtain ⟨hs, -⟩ := run_keeps .fresh hbefore
  obtain ⟨-, hprog⟩ := run_keeps hs hafter
  exact ⟨hs.conserved, hprog.settled⟩

theorem paper_quantities_conserved_partial : ∃ before after s t,
    (Trace.run step (fresh ⟨"1000", "1000", "0"⟩) before = some s ∧
      quantities s = ⟨[("0.4", .partiallyFilled)], [(.long, "0.4")], ["0.4"]⟩) ∧
    (Trace.run step s after = some t ∧
      quantities t = ⟨[("0.8", .partiallyFilled), ("0.3", .filled)], [(.long, "0.5")],
        ["0.4", "0.4", "0.3"]⟩) ∧
    Conserved s ∧ Settled s t := by
  let before := [sampleRequest "1" sampleAdapter (.setMarket (sampleMarket "100")),
    sampleRequest "2" sampleAdapter (.submitOrder sampleAccount
      (sampleOrder "entry" .entry .buy "1" none none "1"))]
  let after := [sampleRequest "3" sampleAdapter (.setMarket (sampleMarket "110")),
    sampleRequest "4" sampleAdapter (.submitOrder sampleAccount
      (sampleOrder "close" .flatten .sell "0.3" none none "1"))]
  have hrun : (Trace.run step (fresh ⟨"1000", "1000", "0"⟩) before).bind (fun s =>
      (Trace.run step s after).map (fun t => (quantities s, quantities t))) =
      some (⟨[("0.4", .partiallyFilled)], [(.long, "0.4")], ["0.4"]⟩,
        ⟨[("0.8", .partiallyFilled), ("0.3", .filled)], [(.long, "0.5")],
          ["0.4", "0.4", "0.3"]⟩) := by
    decide +kernel
  obtain ⟨s, hs, hmore⟩ := Option.bind_eq_some_iff.mp hrun
  obtain ⟨t, ht, hview⟩ := Option.map_eq_some_iff.mp hmore
  obtain ⟨hfirst, hsnd⟩ := Prod.mk.inj hview
  exact ⟨before, after, s, t, ⟨hs, hfirst⟩, ⟨ht, hsnd⟩,
    paper_quantities_conserved ⟨"1000", "1000", "0"⟩ before after s t hs ht⟩

end Runs

end TsxCore.PaperExchange
