import TsxCore.PaperMargin

/-!
# Price updates of the paper exchange

A price update settles the open orders of its symbol in one transaction. It throws only
when one of them can fill at the new mark and is refused, and then nothing is stored.
Otherwise every protective stop that the mark crosses is filled up to the adapter's
maximum, or the position was flat in between: the stop is then cancelled, or stays open
under the policy that retains it.
-/

namespace TsxCore.PaperExchange

open Outcome TradingDecimal TradingTypes

section Loop

variable {α β : Type} {f : β → α → Outcome β} {as : List α} {b : β} {e : Thrown}

theorem round_of_foldlM_error (h : as.foldlM f b = .error e) :
    ∃ before a after b', as = before ++ a :: after ∧ before.foldlM f b = .ok b' ∧
      f b' a = .error e := by
  induction as generalizing b with
  | nil => cases h
  | cons a as ih =>
    rw [List.foldlM_cons, bind_eq_error] at h
    rcases h with h | ⟨next, hnext, h⟩
    · exact ⟨[], a, as, b, rfl, rfl, h⟩
    · obtain ⟨before, a', after, b', hsplit, hbefore, herror⟩ := ih h
      refine ⟨a :: before, a', after, b', by rw [hsplit, List.cons_append], ?_, herror⟩
      rw [List.foldlM_cons, hnext, ok_bind]
      exact hbefore

end Loop

section Stops

variable {services : Services} {adapter : PaperExchangeAdapter} {s m t u : Store}
  {row order current : PaperOrderRow} {markPrice requested : String} {closed : ClosedPosition}
  {id : String}

theorem Readable.canFill (h : Readable order) (hmark : ∃ v, Denotes markPrice v) :
    ∃ canFill, orderCanFill order markPrice = .ok canFill := by
  obtain ⟨v, hv⟩ := hmark
  obtain ⟨f, hf⟩ := h.filled
  unfold orderCanFill
  cases hkind : order.orderType with
  | market => exact ⟨true, rfl⟩
  | limit =>
    obtain ⟨p, hp⟩ := h.price hkind
    simp only [compareDecimal_of_denotes hv hp, ok_bind]
    cases order.side with
    | buy => exact ⟨_, rfl⟩
    | sell => exact ⟨_, rfl⟩
  | stopMarket =>
    obtain ⟨p, hp⟩ := h.trigger hkind
    simp only [compareDecimal_of_denotes hf denotes_zero, compareDecimal_of_denotes hv hp, ok_bind]
    split_ifs
    · exact ⟨true, rfl⟩
    · cases order.side with
      | buy => exact ⟨_, rfl⟩
      | sell => exact ⟨_, rfl⟩

structure Protective (order : PaperOrderRow) : Prop where
  role : order.role = .stopLoss
  kind : order.orderType = .stopMarket
  reduceOnly : order.reduceOnly = true
  working : order.status.isWorking = true

def Crossed (order : PaperOrderRow) (markPrice : String) : Prop :=
  match order.side with
  | .sell => decimalValue markPrice ≤ decimalValue (shown order.triggerPrice)
  | .buy => decimalValue (shown order.triggerPrice) ≤ decimalValue markPrice

theorem Protective.canFill (h : Protective order) (hreadable : Readable order)
    (hmark : ∃ v, Denotes markPrice v) (hcrossed : Crossed order markPrice) :
    orderCanFill order markPrice = .ok true := by
  obtain ⟨v, hv⟩ := hmark
  obtain ⟨f, hf⟩ := hreadable.filled
  obtain ⟨p, hp⟩ := hreadable.trigger h.kind
  have horder := compareDecimal_of_denotes hv hp
  obtain ⟨hneg, hpos⟩ := compareDecimal_value horder
  unfold orderCanFill
  unfold Crossed at hcrossed
  simp only [h.kind, compareDecimal_of_denotes hf denotes_zero, horder, ok_bind]
  split_ifs
  · rfl
  · cases hside : order.side with
    | buy =>
      simp only [hside] at hcrossed
      have hsign : 0 ≤ sign v p := not_lt.mp (fun hlt => not_lt.mpr hcrossed (hneg.mp hlt))
      simp [hsign, pure, Except.pure]
    | sell =>
      simp only [hside] at hcrossed
      have hsign : sign v p ≤ 0 := not_lt.mp (fun hlt => not_lt.mpr hcrossed (hpos.mp hlt))
      simp [hsign, pure, Except.pure]

/-- The net quantity of the symbol was zero after some fill between the two states. -/
def FlatBetween (s t : Store) (symbol : String) : Prop :=
  ∃ fills, s.fills.rows <+: fills ∧ fills <+: t.fills.rows ∧ net t.orders fills symbol = 0

theorem FlatBetween.extend {symbol : String} (h : FlatBetween m t symbol)
    (ht : Sound t) (hfirst : Progress s m) (hlast : Progress t u) : FlatBetween s u symbol := by
  obtain ⟨fills, hfrom, hto, hzero⟩ := h
  refine ⟨fills, hfirst.fills.trans hfrom, hto.trans hlast.fills, ?_⟩
  rw [hlast.net ht hto, hzero]

theorem FlatBetween.of_none {symbol : String} (hs : Sound s)
    (hnone : s.positions.find symbol = none) : FlatBetween s s symbol := by
  refine ⟨s.fills.rows, List.prefix_rfl, List.prefix_rfl, ?_⟩
  rw [← hs.net, held, hnone]
  rfl

/-- Another order loses its status only when the fill leaves no position of its symbol. -/
theorem Updates.other (h : Updates adapter s row requested closed) {id : String}
    (horder : s.orders.find id = some order) :
    ∃ order', closed.store.orders.find id = some order' ∧ (order' = order ∨
      (order.status.isWorking = true ∧ order' = { order with status := .cancelled } ∧
        adapter.reduceOnlyRemainder ≠ .retain ∧
        closed.store.positions.find order.symbol = none)) := by
  cases h with
  | opens => exact ⟨order, horder, .inl rfl⟩
  | absent => exact ⟨order, horder, .inl rfl⟩
  | closes _ hsome _ _ _ _ _ hcloses =>
    cases hcloses with
    | part => exact ⟨order, horder, .inl rfl⟩
    | flat =>
      unfold flattened
      split_ifs with hretain
      · exact ⟨order, horder, .inl rfl⟩
      · simp only [cancelOrphanedReduceOrders]
        rw [Keyed.find_update, horder, Option.map_some]
        split_ifs with horphan
        · obtain ⟨hsym, -, hworking⟩ := of_decide_eq_true horphan
          refine ⟨_, rfl, .inr ⟨hworking, rfl, hretain, ?_⟩⟩
          rw [Keyed.find_delete_key, if_pos hsym]
        · exact ⟨order, rfl, .inl rfl⟩

def Spared (adapter : PaperExchangeAdapter) (s t : Store) (o o' : PaperOrderRow) : Prop :=
  o' = o ∨ (o.status.isWorking = true ∧ o' = { o with status := .cancelled } ∧
    adapter.reduceOnlyRemainder ≠ .retain ∧ FlatBetween s t o.symbol)

theorem Fill.spared (fill : Fill adapter s row t)
    (hrow : s.orders.find row.exchangeOrderId = some row) (hworking : row.status.isWorking = true)
    (hs : Sound s) (hid : id ≠ row.exchangeOrderId) (horder : s.orders.find id = some order) :
    ∃ order', t.orders.find id = some order' ∧ Spared adapter s t order order' := by
  obtain ⟨order', hfind, hchange⟩ := fill.hupdates.other horder
  have hkey : ¬ order'.exchangeOrderId = row.exchangeOrderId := by
    rw [Keyed.key_of_find hfind]
    exact hid
  refine ⟨order', ?_, ?_⟩
  · rw [fill.tables.1, rewritten, Keyed.find_update, hfind, Option.map_some,
      if_neg (by simpa using hkey)]
  · rcases hchange with hsame | ⟨hopen, hcancelled, hpol, hnone⟩
    · exact .inl hsame
    · refine .inr ⟨hopen, hcancelled, hpol, ?_⟩
      rw [← fill.tables.2.1] at hnone
      have hflat := FlatBetween.of_none (fill.sound hrow hworking hs) hnone
      exact hflat.extend (fill.sound hrow hworking hs) (fill.progress hrow hworking) .refl

theorem Spared.trans {o o' o'' : PaperOrderRow} (hm : Sound m) (hsm : Progress s m)
    (hmt : Progress m t) (h : Spared adapter s m o o') (h' : Spared adapter m t o' o'') :
    Spared adapter s t o o'' := by
  rcases h with rfl | ⟨hworking, rfl, hpol, hflat⟩
  · rcases h' with rfl | ⟨hworking, hcancelled, hpol, hflat⟩
    · exact .inl rfl
    · obtain ⟨fills, hfrom, hto, hzero⟩ := hflat
      exact .inr ⟨hworking, hcancelled, hpol, fills, hsm.fills.trans hfrom, hto, hzero⟩
  · rcases h' with rfl | ⟨hworking', -, -, -⟩
    · exact .inr ⟨hworking, rfl, hpol, hflat.extend hm .refl hmt⟩
    · cases hworking'

theorem settleOrder_keeps (hs : Sound s)
    (h : settleOrder services adapter markPrice s order = .ok t) : Sound t ∧ Progress s t :=
  (settleOrder_moves (P := fun _ _ _ => True) h (fun _ _ _ _ => trivial)).keeps hs

theorem settleOrder_spared (hs : Sound s)
    (h : settleOrder services adapter markPrice s order = .ok t) (hid : id ≠ order.exchangeOrderId)
    (hcur : s.orders.find id = some current) :
    ∃ current', t.orders.find id = some current' ∧ Spared adapter s t current current' := by
  have hsame : s = t → ∃ current', t.orders.find id = some current' ∧
      Spared adapter s t current current' := by
    rintro rfl
    exact ⟨current, hcur, .inl rfl⟩
  unfold settleOrder at h
  cases hfind : s.orders.find order.exchangeOrderId with
  | none =>
    rw [hfind] at h
    exact hsame (pure_eq_ok_iff.mp h)
  | some row =>
    have hkey := Keyed.key_of_find hfind
    simp only [hfind] at h
    split_ifs at h with hworking
    · simp only [fillIfPossible, bind_eq_ok] at h
      obtain ⟨canFill, -, h⟩ := h
      split_ifs at h
      · obtain ⟨fill⟩ := fillOrder_cases h
        rw [← hkey] at hfind hid
        exact fill.spared hfind hworking hs hid hcur
      · exact hsame (pure_eq_ok_iff.mp h)
    · exact hsame (pure_eq_ok_iff.mp h)

theorem settlement_spared {orders : List PaperOrderRow} (hs : Sound s)
    (h : orders.foldlM (settleOrder services adapter markPrice) s = .ok t)
    (hid : ∀ order ∈ orders, id ≠ order.exchangeOrderId)
    (hcur : s.orders.find id = some current) :
    Sound t ∧ Progress s t ∧
      ∃ current', t.orders.find id = some current' ∧ Spared adapter s t current current' := by
  induction orders generalizing s current with
  | nil =>
    rw [List.foldlM_nil] at h
    rw [← pure_eq_ok_iff.mp h]
    exact ⟨hs, .refl, current, hcur, .inl rfl⟩
  | cons order orders ih =>
    rw [List.foldlM_cons, bind_eq_ok] at h
    obtain ⟨m, hm, h⟩ := h
    obtain ⟨hmsound, hsm⟩ := settleOrder_keeps hs hm
    obtain ⟨middle, hmid, hfirst⟩ :=
      settleOrder_spared hs hm (hid order List.mem_cons_self) hcur
    obtain ⟨ht, hmt, last, hlast, hrest⟩ :=
      ih hmsound h (fun o ho => hid o (List.mem_cons_of_mem _ ho)) hmid
    exact ⟨ht, hsm.trans hmsound hmt, last, hlast, hfirst.trans hmsound hsm hmt hrest⟩

/-- The stop is filled with all that it may fill at once. -/
def Executed (adapter : PaperExchangeAdapter) (o o' : PaperOrderRow) : Prop :=
  decimalValue o'.filledQuantity = decimalValue o.filledQuantity + requestedValue adapter o

/-- The position was flat: the stop is cancelled, or stays open under the policy that retains it. -/
def Flattened (adapter : PaperExchangeAdapter) (s t : Store) (o o' : PaperOrderRow) : Prop :=
  FlatBetween s t o.symbol ∧
    if adapter.reduceOnlyRemainder = .retain then o'.status.isWorking = true
    else o'.status = .cancelled

theorem Fill.outcome (fill : Fill adapter s row t)
    (hrow : s.orders.find row.exchangeOrderId = some row) (hworking : row.status.isWorking = true)
    (hreduce : row.reduceOnly = true) (hs : Sound s) :
    Executed adapter row fill.filledRow ∨ Flattened adapter s t row fill.filledRow := by
  have hsound := hs.orders row (Keyed.mem_of_find hrow)
  obtain ⟨hpos, hle⟩ := requestedQuantity_pos fill.hrequested (hsound.working hworking)
  have hvalue : decimalValue fill.requested = requestedValue adapter row :=
    requestedQuantity_value fill.hrequested
  have hprog := fill.progress hrow hworking
  have htsound := fill.sound hrow hworking hs
  have hflat : fill.closed.flat = true → decimalValue fill.closed.quantity <
      decimalValue fill.requested → FlatBetween s t row.symbol →
        Flattened adapter s t row fill.filledRow := by
    intro hisflat hless hbetween
    have hopen : fill.status ≠ .filled := by
      rw [ne_eq, fill.hfilled, fill.hcumulative]
      intro heq
      linarith
    have hstatus := fill.hstatus hopen
    refine ⟨hbetween, ?_⟩
    by_cases hretain : adapter.reduceOnlyRemainder = .retain
    · rw [if_pos hretain]
      rw [if_neg (fun h => h.2 hretain)] at hstatus
      exact hstatus
    · rw [if_neg hretain]
      rw [if_pos ⟨hisflat, hretain⟩] at hstatus
      exact hstatus
  have hfull : decimalValue fill.closed.quantity = decimalValue fill.requested →
      Executed adapter row fill.filledRow := by
    intro hall
    rw [Executed, ← hvalue, ← hall]
    exact fill.hcumulative
  have hupdates := fill.hupdates
  generalize hclosed : fill.closed = closed at hupdates hflat hfull
  cases hupdates with
  | opens hkind =>
    rw [hkind] at hreduce
    cases hreduce
  | absent _ hnone =>
    right
    apply hflat rfl
    · rw [decimalValue_zero]
      exact hpos
    · exact (FlatBetween.of_none hs hnone).extend hs .refl hprog
  | closes _ hsome _ hmin _ _ _ hcloses =>
    rcases lt_or_ge (decimalValue closed.quantity) (decimalValue fill.requested) with hless | hge
    · right
      have htabs := fill.tables.2.1
      rw [hclosed] at htabs
      cases hcloses with
      | flat =>
        apply hflat rfl hless
        have hnone : t.positions.find row.symbol = none := by
          rw [htabs, flattened_parts.2.1, Keyed.find_delete_key, if_pos rfl]
        exact (FlatBetween.of_none htsound hnone).extend htsound hprog .refl
      | part hpart =>
        rw [hmin] at hless hpart
        rcases min_lt_iff.mp hless with hlt | hlt
        · exact absurd hlt (lt_irrefl _)
        · exact absurd hpart (not_lt.mpr (le_min hlt.le le_rfl))
    · left
      apply hfull
      apply le_antisymm _ hge
      rw [hmin]
      exact min_le_left _ _

theorem Spared.outcome {o o' o'' : PaperOrderRow} (hm : Sound m) (hmt : Progress m t)
    (h : Executed adapter o o' ∨ Flattened adapter s m o o') (hsym : o'.symbol = o.symbol)
    (h' : Spared adapter m t o' o'') : Executed adapter o o'' ∨ Flattened adapter s t o o'' := by
  rcases h with hexec | ⟨hflat, hstatus⟩
  · left
    rcases h' with rfl | ⟨-, rfl, -, -⟩
    · exact hexec
    · exact hexec
  · right
    refine ⟨hflat.extend hm .refl hmt, ?_⟩
    rcases h' with rfl | ⟨hworking, rfl, hpol, -⟩
    · exact hstatus
    · rw [if_neg hpol] at hstatus ⊢

theorem mem_openOrders {symbol : String} : order ∈ openOrders s symbol ↔
    order ∈ s.orders.rows ∧ order.symbol = symbol ∧ order.status.isWorking = true := by
  rw [openOrders, List.mem_insertionSort, List.mem_filter, decide_eq_true_eq]

theorem openOrders_nodup (s : Store) (symbol : String) :
    ((openOrders s symbol).map PaperOrderRow.exchangeOrderId).Nodup := by
  unfold openOrders
  rw [((List.perm_insertionSort settlesBefore _).map _).nodup_iff]
  exact s.orders.nodup.sublist (List.filter_sublist.map _)

/-- Every protective stop that the mark crosses is executed, or its position was flat. -/
theorem settleOpenOrders_stop {stop : PaperOrderRow} (hs : Sound s)
    (h : settleOpenOrders services adapter s stop.symbol markPrice = .ok t)
    (hstop : stop ∈ s.orders.rows) (hprotective : Protective stop)
    (hmark : ∃ v, Denotes markPrice v) (hcrossed : Crossed stop markPrice) :
    ∃ stop', t.orders.find stop.exchangeOrderId = some stop' ∧
      (Executed adapter stop stop' ∨ Flattened adapter s t stop stop') := by
  obtain ⟨before, after, hsplit⟩ :=
    List.append_of_mem (mem_openOrders.mpr ⟨hstop, rfl, hprotective.working⟩)
  have hnodup := openOrders_nodup s stop.symbol
  rw [hsplit, List.map_append, List.map_cons, List.nodup_append] at hnodup
  obtain ⟨-, hafter, hdisjoint⟩ := hnodup
  have hbefore : ∀ order ∈ before, stop.exchangeOrderId ≠ order.exchangeOrderId := by
    intro order horder
    exact (hdisjoint _ (List.mem_map_of_mem horder) _ List.mem_cons_self).symm
  have hlater : ∀ order ∈ after, stop.exchangeOrderId ≠ order.exchangeOrderId := by
    intro order horder heq
    exact (List.nodup_cons.mp hafter).1 (heq ▸ List.mem_map_of_mem horder)
  rw [settleOpenOrders, hsplit, List.foldlM_append, bind_eq_ok] at h
  obtain ⟨m, hm, h⟩ := h
  rw [List.foldlM_cons, bind_eq_ok] at h
  obtain ⟨n, hn, h⟩ := h
  have hfind := Keyed.find_eq_some.mpr ⟨hstop, rfl⟩
  obtain ⟨hmsound, hsm, current, hcur, hspared⟩ := settlement_spared hs hm hbefore hfind
  obtain ⟨hnsound, hmn⟩ := settleOrder_keeps hmsound hn
  have hturn : ∃ turned, n.orders.find stop.exchangeOrderId = some turned ∧
      turned.symbol = stop.symbol ∧
      (Executed adapter stop turned ∨ Flattened adapter s n stop turned) := by
    unfold settleOrder at hn
    simp only [hcur] at hn
    rcases hspared with rfl | ⟨-, rfl, hpol, hflat⟩
    · have hcan := hprotective.canFill (hs.orders _ hstop).readable hmark hcrossed
      rw [if_pos hprotective.working, fillIfPossible, hcan, ok_bind, if_pos rfl] at hn
      obtain ⟨fill⟩ := fillOrder_cases hn
      refine ⟨fill.filledRow, fill.find_self hcur, rfl, ?_⟩
      rcases fill.outcome hcur hprotective.working hprotective.reduceOnly hmsound with
        hexec | ⟨hflat, hstatus⟩
      · exact .inl hexec
      · exact .inr ⟨hflat.extend hnsound hsm .refl, hstatus⟩
    · rw [if_neg (by simp [PaperOrderStatus.isWorking])] at hn
      rw [← pure_eq_ok_iff.mp hn]
      refine ⟨_, hcur, rfl, .inr ⟨hflat, ?_⟩⟩
      rw [if_neg hpol]
  obtain ⟨turned, hturned, hsym, houtcome⟩ := hturn
  obtain ⟨-, hnt, stop', hstop', hrest⟩ := settlement_spared hnsound h hlater hturned
  exact ⟨stop', hstop', Spared.outcome hnsound hnt houtcome hsym hrest⟩

theorem settleOrder_error {e : Thrown} (hs : Sound s) (hmark : ∃ v, Denotes markPrice v)
    (h : settleOrder services adapter markPrice s order = .error e) :
    ∃ current, s.orders.find order.exchangeOrderId = some current ∧
      current.status.isWorking = true ∧ orderCanFill current markPrice = .ok true ∧
      fillOrder services adapter s current markPrice none = .error e := by
  unfold settleOrder at h
  cases hfind : s.orders.find order.exchangeOrderId with
  | none =>
    rw [hfind] at h
    cases h
  | some current =>
    simp only [hfind] at h
    split_ifs at h with hworking
    · obtain ⟨canFill, hcan⟩ :=
        (hs.orders current (Keyed.mem_of_find hfind)).readable.canFill hmark
      rw [fillIfPossible, hcan, ok_bind] at h
      split_ifs at h with htrue
      · rw [htrue] at hcan
        exact ⟨current, rfl, hworking, hcan, h⟩
      · cases h
    · cases h

end Stops

section Markets

variable {services : Services} {adapter : PaperExchangeAdapter} {s t : Store}
  {row order : PaperOrderRow} {requested markPrice : String} {closed : ClosedPosition}
  {market : PaperMarketRow} {e : Thrown}

theorem Updates.markets (h : Updates adapter s row requested closed) :
    closed.store.markets = s.markets := by
  cases h with
  | opens => rfl
  | absent => rfl
  | closes _ _ _ _ _ _ _ hcloses =>
    cases hcloses with
    | flat =>
      unfold flattened
      split_ifs
      · rfl
      · rfl
    | part => rfl

theorem settleOrder_markets (h : settleOrder services adapter markPrice s order = .ok t) :
    t.markets = s.markets := by
  unfold settleOrder at h
  cases hfind : s.orders.find order.exchangeOrderId with
  | none =>
    rw [hfind] at h
    rw [pure_eq_ok_iff.mp h]
  | some current =>
    simp only [hfind] at h
    split_ifs at h
    · simp only [fillIfPossible, bind_eq_ok] at h
      obtain ⟨canFill, -, h⟩ := h
      split_ifs at h
      · obtain ⟨fill⟩ := fillOrder_cases h
        rw [fill.tables.2.2.2, fill.hupdates.markets]
      · rw [pure_eq_ok_iff.mp h]
    · rw [pure_eq_ok_iff.mp h]

theorem settlement_markets {orders : List PaperOrderRow}
    (h : orders.foldlM (settleOrder services adapter markPrice) s = .ok t) :
    t.markets = s.markets := by
  induction orders generalizing s with
  | nil =>
    rw [List.foldlM_nil] at h
    rw [pure_eq_ok_iff.mp h]
  | cons order orders ih =>
    rw [List.foldlM_cons, bind_eq_ok] at h
    obtain ⟨m, hm, h⟩ := h
    rw [ih h, settleOrder_markets hm]

def marketSymbol (services : Services) (market : PaperMarketRow) : String :=
  services.toUpperCase (trim market.symbol)

/-- A valid symbol, positive decimals of at most 15 integer digits, a leverage of 1 to 125. -/
structure WellFormed (services : Services) (market : PaperMarketRow) : Prop where
  symbol : symbolPattern (marketSymbol services market) = true
  decimals : ∀ value ∈ [market.markPrice, market.priceTick, market.quantityStep,
    market.minimumQuantity, market.minimumNotional], ∃ u, Short (trim value) u ∧ 0 < u
  leverage : 1 ≤ market.maxLeverage ∧ market.maxLeverage ≤ 125

theorem WellFormed.normalized (h : WellFormed services market) :
    ∃ row, normalizedMarket services market = .ok row ∧ row.symbol = marketSymbol services market ∧
      decimalValue row.markPrice = decimalValue market.markPrice ∧
      ∃ v, Denotes row.markPrice v := by
  have hdec : ∀ value ∈ [market.markPrice, market.priceTick, market.quantityStep,
      market.minimumQuantity, market.minimumNotional],
      ∃ u, decimal value true = .ok (text u) ∧ Denotes (text u) u := by
    intro value hvalue
    obtain ⟨u, ⟨hread, -⟩, hpos⟩ := h.decimals value hvalue
    exact ⟨u, decimal_positive_ok_iff.mpr ⟨u, hread, hpos, rfl⟩, denotes_text hread.lt⟩
  simp only [List.mem_cons, List.not_mem_nil, or_false, forall_eq_or_imp, forall_eq] at hdec
  obtain ⟨⟨mark, hmark, hdenotes⟩, ⟨tick, htick, -⟩, ⟨lot, hlot, -⟩, ⟨least, hleast, -⟩,
    ⟨notional, hntl, -⟩⟩ := hdec
  obtain ⟨hlow, hhigh⟩ := h.leverage
  have hleverage : ¬ (¬ isSafeInteger market.maxLeverage ∨ market.maxLeverage < 1 ∨
      125 < market.maxLeverage) := by
    rw [isSafeInteger, maxSafeInteger]
    omega
  refine ⟨⟨marketSymbol services market, text mark, text tick, text lot, text least,
    text notional, market.maxLeverage⟩, ?_, rfl, ?_, mark, hdenotes⟩
  · have hsym := h.symbol
    unfold marketSymbol at hsym ⊢
    simp only [normalizedMarket, hsym, hmark, htick, hlot, hleast, hntl,
      throwIf_of_not hleverage, ok_bind, Bool.true_eq_false, not_false_eq_true, throwIf_of_not]
    rfl
  · exact (decimal_value hmark).1

/-- An open order of the symbol, reached by the settlement, that can fill at the new mark and
is refused with this error. -/
def RefusedFill (services : Services) (adapter : PaperExchangeAdapter) (s : Store)
    (market : PaperMarketRow) (e : Thrown) : Prop :=
  ∃ row before order after m current, normalizedMarket services market = .ok row ∧
    openOrders s row.symbol = before ++ order :: after ∧
    before.foldlM (settleOrder services adapter row.markPrice)
      { s with markets := s.markets.upsert row } = .ok m ∧
    m.orders.find order.exchangeOrderId = some current ∧ current.status.isWorking = true ∧
    orderCanFill current row.markPrice = .ok true ∧
    fillOrder services adapter m current row.markPrice none = .error e

structure PriceUpdated (services : Services) (adapter : PaperExchangeAdapter) (s : Store)
    (market : PaperMarketRow) (t : Store) : Prop where
  mark : ∃ row ∈ t.markets.find (marketSymbol services market),
    decimalValue row.markPrice = decimalValue market.markPrice
  stops : ∀ stop ∈ s.orders.rows, stop.symbol = marketSymbol services market → Protective stop →
    Crossed stop market.markPrice → ∃ stop' ∈ t.orders.find stop.exchangeOrderId,
      Executed adapter stop stop' ∨ Flattened adapter s t stop stop'

theorem setMarket_updates (hs : Sound s) (hmarket : WellFormed services market)
    (h : setMarket services adapter s market = .ok t) :
    PriceUpdated services adapter s market t := by
  obtain ⟨row, hrow, hsym, hvalue, hmark⟩ := hmarket.normalized
  rw [setMarket, hrow, ok_bind] at h
  have hstored : Sound { s with markets := s.markets.upsert row } :=
    hs.kept (fun id => rel_refl) rfl rfl
  constructor
  · have hkept := settlement_markets h
    refine ⟨row, ?_, hvalue⟩
    rw [hkept, Option.mem_def, Keyed.find_upsert, if_pos hsym]
  · intro stop hstop hstopSymbol hprotective hcrossed
    rw [hsym, ← hstopSymbol] at h
    apply settleOpenOrders_stop hstored h hstop hprotective hmark
    unfold Crossed at hcrossed ⊢
    rw [hvalue]
    exact hcrossed

theorem setMarket_error (hs : Sound s) (hmarket : WellFormed services market)
    (h : setMarket services adapter s market = .error e) :
    RefusedFill services adapter s market e := by
  obtain ⟨row, hrow, -, -, hmark⟩ := hmarket.normalized
  rw [setMarket, hrow, ok_bind] at h
  obtain ⟨before, order, after, m, hsplit, hm, herror⟩ := round_of_foldlM_error h
  have hstored : Sound { s with markets := s.markets.upsert row } :=
    hs.kept (fun id => rel_refl) rfl rfl
  have hmsound := ((settlement_moves hm (settlementFills_true _ before)).keeps hstored).1
  obtain ⟨current, hcur, hworking, hcan, hrefd⟩ := settleOrder_error hmsound hmark herror
  exact ⟨row, before, order, after, m, current, hrow, hsplit, hm, hcur, hworking, hcan,
    hrefd⟩

/-- In every state that calls on a fresh account reach, a well-formed price update commits and
settles the crossed stops, or an order that could fill is refused and nothing is stored. -/
theorem price_update_settles_or_is_refused (account : PaperAccountRow) (requests : List Request)
    (s : Store) (services : Services) (adapter : PaperExchangeAdapter) (market : PaperMarketRow)
    (hrun : Trace.run step (fresh account) requests = some s)
    (hmarket : WellFormed services market) :
    (∃ t, perform s ⟨services, adapter, .setMarket market⟩ = .ok t ∧
      step s ⟨services, adapter, .setMarket market⟩ = some t ∧
      PriceUpdated services adapter s market t) ∨
    (∃ e, perform s ⟨services, adapter, .setMarket market⟩ = .error e ∧
      step s ⟨services, adapter, .setMarket market⟩ = some s ∧
      RefusedFill services adapter s market e) := by
  obtain ⟨hs, -⟩ := run_keeps .fresh hrun
  cases hset : setMarket services adapter s market with
  | ok t =>
    left
    refine ⟨t, hset, ?_, setMarket_updates hs hmarket hset⟩
    simp only [step, perform, hset]
  | error e =>
    right
    refine ⟨e, hset, ?_, setMarket_error hs hmarket hset⟩
    simp only [step, perform, hset]

theorem short_of_parse {value : String} {p : ParsedDecimal} (h : parse (trim value) = .ok p)
    (hlen : (integerPart (trim value)).length ≤ 15) (hpos : 0 < p.units) :
    ∃ u, Short (trim value) u ∧ 0 < u :=
  ⟨p.units, ⟨⟨p, h, rfl⟩, hlen⟩, hpos⟩

theorem sampleMarket_wellFormed (number : String) {markPrice : String} {p : ParsedDecimal}
    (h : parse (trim markPrice) = .ok p) (hlen : (integerPart (trim markPrice)).length ≤ 15)
    (hpos : 0 < p.units) :
    WellFormed (sampleRequest number plainAdapter (.setMarket (sampleMarket markPrice))).services
      (sampleMarket markPrice) := by
  have htenth : ∃ u, Short (trim "0.1") u ∧ 0 < u :=
    short_of_parse (p := ⟨1, 1⟩) (by decide +kernel) (by decide +kernel) (by decide)
  have hone : ∃ u, Short (trim "1") u ∧ 0 < u :=
    short_of_parse (p := ⟨1, 0⟩) (by decide +kernel) (by decide +kernel) (by decide)
  constructor
  · change symbolPattern (trim "BTCUSDT") = true
    decide +kernel
  · simp only [sampleMarket, List.mem_cons, List.not_mem_nil, or_false, forall_eq_or_imp, forall_eq]
    exact ⟨short_of_parse h hlen hpos, htenth, htenth, htenth, hone⟩
  · change (1 : ℤ) ≤ 100 ∧ (100 : ℤ) ≤ 125
    decide

/-- A position of 0.4, a stop for 2 that was triggered and closed it, and no position since. -/
def retainedRun : List Request :=
  [sampleRequest "1" sampleAdapter (.setMarket (sampleMarket "100")),
    sampleRequest "2" sampleAdapter (.submitOrder sampleAccount
      (sampleOrder "entry" .entry .buy "0.4" none none "1")),
    sampleRequest "3" sampleAdapter (.submitOrder sampleAccount
      (sampleOrder "stop" .stopLoss .sell "2" none (some "90") "1")),
    sampleRequest "4" sampleAdapter (.setMarket (sampleMarket "85"))]

def retainedStop : PaperOrderRow where
  exchangeOrderId := "stop"
  clientOrderId := "stop"
  symbol := "BTCUSDT"
  role := .stopLoss
  side := .sell
  orderType := .stopMarket
  status := .partiallyFilled
  quantity := "2"
  filledQuantity := "0.4"
  averagePrice := some "85"
  price := none
  triggerPrice := some "90"
  reduceOnly := true
  leverage := "1"
  createdAt := 0

/-- A protected position, and a limit order that its account cannot pay. -/
def unaffordableRun : List Request :=
  [sampleRequest "1" plainAdapter (.setMarket (sampleMarket "100")),
    sampleRequest "2" plainAdapter (.submitProtectedEntry sampleAccount
      (sampleOrder "entry" .entry .buy "1" none none "1")
      (sampleOrder "stop" .stopLoss .sell "1" none (some "95") "1")),
    sampleRequest "3" plainAdapter (.submitOrder sampleAccount
      (sampleOrder "limit" .entry .buy "20" (some "95") none "1"))]

def unaffordableUpdate : Request :=
  sampleRequest "4" plainAdapter (.setMarket (sampleMarket "90"))

theorem price_update_settles_or_is_refused_unaffordable : ∃ s,
    Trace.run step (fresh ⟨"1000", "1000", "0"⟩) unaffordableRun = some s ∧
    ((∃ t, perform s unaffordableUpdate = .ok t ∧ step s unaffordableUpdate = some t ∧
      PriceUpdated unaffordableUpdate.services plainAdapter s (sampleMarket "90") t) ∨
    (∃ e, perform s unaffordableUpdate = .error e ∧ step s unaffordableUpdate = some s ∧
      RefusedFill unaffordableUpdate.services plainAdapter s (sampleMarket "90") e)) := by
  obtain ⟨s, hs⟩ : ∃ s, Trace.run step (fresh ⟨"1000", "1000", "0"⟩) unaffordableRun = some s :=
    Option.isSome_iff_exists.mp (by decide +kernel)
  refine ⟨s, hs, ?_⟩
  exact price_update_settles_or_is_refused ⟨"1000", "1000", "0"⟩ unaffordableRun s _ plainAdapter
    (sampleMarket "90") hs (sampleMarket_wellFormed "4" (p := ⟨90, 0⟩) (by decide +kernel)
      (by decide +kernel) (by decide))

def refusal (result : Outcome Store) : Option Thrown :=
  match result with
  | .ok _ => none
  | .error e => some e

/-- A crossed stop is retained although its position is flat; and a resting order that is
refused keeps the new mark out of the store and the crossed stop of its symbol open. -/
theorem price_update_may_leave_crossed_stops :
    (∃ s t stop, Trace.run step (fresh ⟨"1000", "1000", "0"⟩) retainedRun = some s ∧
      step s (sampleRequest "5" sampleAdapter (.setMarket (sampleMarket "80"))) = some t ∧
      stop ∈ s.orders.rows ∧ Protective stop ∧ Crossed stop "80" ∧
      t.orders.find stop.exchangeOrderId = some stop ∧ ¬ Executed sampleAdapter stop stop ∧
      stop.status ≠ .cancelled) ∧
    ∃ s, Trace.run step (fresh ⟨"1000", "1000", "0"⟩) unaffordableRun = some s ∧
      refusal (setMarket (sampleRequest "4" plainAdapter
        (.setMarket (sampleMarket "90"))).services plainAdapter s (sampleMarket "90")) =
        some (.error "Paper account has insufficient available balance.") ∧
      (s.markets.find "BTCUSDT").map PaperMarketRow.markPrice = some "100" ∧
      (s.orders.find "stop").map PaperOrderRow.status = some .opened := by
  constructor
  · have hrun : (Trace.run step (fresh ⟨"1000", "1000", "0"⟩) retainedRun).bind (fun s =>
        (step s (sampleRequest "5" sampleAdapter (.setMarket (sampleMarket "80")))).map (fun t =>
          (s.orders.find "stop", t.orders.find "stop"))) =
        some (some retainedStop, some retainedStop) := by
      decide +kernel
    obtain ⟨s, hs, hupdate⟩ := Option.bind_eq_some_iff.mp hrun
    obtain ⟨t, ht, hview⟩ := Option.map_eq_some_iff.mp hupdate
    obtain ⟨hbefore, hafter⟩ := Prod.mk.inj hview
    refine ⟨s, t, retainedStop, hs, ht, Keyed.mem_of_find hbefore, ⟨rfl, rfl, rfl, rfl⟩, ?_, hafter,
      ?_, ?_⟩
    · change decimalValue "80" ≤ decimalValue "90"
      decide +kernel
    · change ¬ decimalValue "0.4" = decimalValue "0.4" +
        min (decimalValue "2" - decimalValue "0.4") (decimalValue "0.4")
      decide +kernel
    · intro hcancelled
      cases hcancelled
  · have hrun : (Trace.run step (fresh ⟨"1000", "1000", "0"⟩) unaffordableRun).map (fun s =>
        (refusal (setMarket (sampleRequest "4" plainAdapter
          (.setMarket (sampleMarket "90"))).services plainAdapter s (sampleMarket "90")),
          (s.markets.find "BTCUSDT").map PaperMarketRow.markPrice,
          (s.orders.find "stop").map PaperOrderRow.status)) =
        some (some (.error "Paper account has insufficient available balance."), some "100",
          some .opened) := by
      decide +kernel
    obtain ⟨s, hs, hview⟩ := Option.map_eq_some_iff.mp hrun
    obtain ⟨hrefusal, hrest⟩ := Prod.mk.inj hview
    obtain ⟨hmark, hstop⟩ := Prod.mk.inj hrest
    exact ⟨s, hs, hrefusal, hmark, hstop⟩

end Markets

end TsxCore.PaperExchange
