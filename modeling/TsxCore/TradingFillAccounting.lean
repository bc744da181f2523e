import TsxCore.NumeralValue
import TsxCore.TradingOwnership

/-!
# Realized price PnL from owned fills (`trading_fill_accounting.ts`)

Entries raise the open quantity and its cost. An exit takes its exact share of
the moving-average cost and posts the difference to its own notional as a
monetary event. Hashing, decoding of the stored contract and the transaction
that stores a cleaned event are parameters; `σ` is the state of the ledger.
-/

namespace TsxCore.TradingFillAccounting

open Outcome TradingDecimal TradingRational TradingTypes TradingOwnership

structure AccountingFill where
  id : String
  orderId : String
  exchangeFillId : String
  price : String
  quantity : String
  filledAt : ℤ
  accountFingerprint : Option String
  accountingJson : Option String
  accountingConflict : ℤ
  role : OrderRole
  providerSymbol : Option String

structure IntentSource where
  id : String
  accountId : String
  side : TradingSide
  exchange : String
  mode : String
  externalAccountId : Option String

structure Source where
  intent : IntentSource
  fills : List AccountingFill
  orders : List OwnershipOrder
  hasPosition : Bool

/-- A decoded accounting contract before it is validated. -/
structure FillAccountingRow where
  version : ℤ
  source : String
  providerSymbol : String
  settlementAsset : String
  linear : Bool
  quantityUnit : String

inductive MoneyEventKind
  | fee
  | funding
  | realizedPricePnl
  deriving DecidableEq

inductive MoneyEventBasis
  | fill
  | provider
  deriving DecidableEq

structure MoneyEventInput where
  accountId : String
  accountFingerprint : String
  providerEventId : String
  kind : MoneyEventKind
  source : String
  basis : MoneyEventBasis
  occurredAt : ℤ
  amount : String
  asset : Option String
  intentId : Option String
  fillId : Option String
  derivation : Option String

/-- The two values that are hashed: a link of the basis chain and a derivation. -/
inductive Hashed
  | link (basis exchangeFillId price quantity : String) (filledAt : ℤ) (role : OrderRole)
  | derivation (method priorBasis quantity cost allocatedCost : String)

structure Services (σ : Type) where
  hash : Hashed → String
  decode : String → Outcome FillAccountingRow
  store : σ → MoneyEventInput → Outcome σ

/-- A falsy text is `null` or empty. -/
def truthy (value : Option String) : Option String := value.filter (· ≠ "")

def fingerprint (source : IntentSource) : Option String :=
  if source.exchange = "paper" ∧ source.mode = "paper" then some ("paper:" ++ source.accountId)
  else source.externalAccountId

def invalidTokenText (value : String) (maximum : ℕ) : Prop :=
  value = "" ∨ maximum < utf16Length value ∨ trim value ≠ value ∨
    value.toList.any (fun c => c.toNat < 32) = true
  deriving Decidable

/-- `/^[A-Z0-9][A-Z0-9._-]{0,31}$/`. -/
def assetPattern (value : String) : Bool :=
  match value.toList with
  | [] => false
  | c :: cs => (c.isUpper || c.isDigit) && cs.length ≤ 31 &&
      cs.all (fun d => d.isUpper || d.isDigit || d == '.' || d == '_' || d == '-')

def accountingSource (value : String) : Option AccountingSource :=
  if value = "ccxt-market-v1" then some .ccxtMarket
  else if value = "paper-contract-v1" then some .paperContract
  else none

/-- `fillAccountingContract` and the source it leaves. -/
def fillAccountingContract (row : FillAccountingRow) : Outcome AccountingSource :=
  match accountingSource row.source with
  | none => .error (.error "Unsupported fill accounting contract.")
  | some source => do
    throwIf (row.version ≠ 1 ∨ row.linear ≠ true ∨ row.quantityUnit ≠ "base")
      (.error "Unsupported fill accounting contract.")
    return source

def validateFillAccounting (row : FillAccountingRow) (providerSymbol : String) :
    Outcome ExchangeFillAccounting := do
  let source ← fillAccountingContract row
  throwIf (invalidTokenText row.providerSymbol 256) (.error "Invalid accounting evidence identity.")
  throwIf (assetPattern row.settlementAsset = false) (.error "Invalid accounting asset.")
  throwIf (row.providerSymbol ≠ providerSymbol)
    (.error "Fill accounting market differs from the provider market.")
  return ⟨source, row.providerSymbol, row.settlementAsset⟩

def identifier (value : String) : Outcome String := do
  throwIf (value = "" ∨ trim value ≠ value ∨ 256 < utf16Length value)
    (.error "Invalid monetary evidence identifier.")
  return value

def optionalIdentifier : Option String → Outcome (Option String)
  | none => return none
  | some value => return some (← identifier value)

def asset : Option String → Outcome (Option String)
  | none => return none
  | some value => do
    throwIf (assetPattern value = false) (.error "Invalid monetary asset.")
    return some value

def timestamp (value : ℤ) : Outcome ℤ := do
  throwIf (¬ (value ≤ maxSafeInteger) ∨ value < 0) (.error "Invalid monetary event timestamp.")
  return value

/-- `cleanEvent`; kinds and bases are closed here, so only their combination is checked. -/
def cleanEvent (value : MoneyEventInput) : Outcome MoneyEventInput := do
  throwIf (value.kind = .realizedPricePnl ∧ value.basis ≠ .fill)
    (.error "Realized price PnL uses derived fills, not additional provider postings.")
  return {
    accountId := ← identifier value.accountId
    accountFingerprint := ← identifier value.accountFingerprint
    providerEventId := ← identifier value.providerEventId
    kind := value.kind
    source := ← identifier value.source
    basis := value.basis
    occurredAt := ← timestamp value.occurredAt
    amount := ← signedDecimal value.amount
    asset := ← asset value.asset
    intentId := ← optionalIdentifier (truthy value.intentId)
    fillId := ← optionalIdentifier (truthy value.fillId)
    derivation := ← optionalIdentifier value.derivation }

/-- The fills of each timestamp, in the order in which the timestamps first occur. -/
def timestampGroups (fills : List AccountingFill) : List (List AccountingFill) :=
  (fills.map (·.filledAt)).eraseDups.map (fun time => fills.filter (·.filledAt = time))

def assertGroups (priorEntries : ℕ) : List (List AccountingFill) → Outcome Unit
  | [] => return ()
  | group :: groups => do
    let entries := group.filter (·.role = .entry)
    throwIf (entries.length ≠ 0 ∧ entries.length < group.length ∧
        (0 < priorEntries ∨ 1 < entries.length))
      (.error "same_timestamp_cost_basis_order_unproven")
    assertGroups (priorEntries + entries.length) groups

def assertChronologicalCostBasis (fills : List AccountingFill) : Outcome Unit :=
  assertGroups 0 (timestampGroups fills)

/-- An event as it was recorded, with the cost that its exit took. -/
structure Posting where
  event : MoneyEventInput
  allocatedCost : String

/-- The variables of the loop, the ledger and the postings made so far. -/
structure Books (σ : Type) where
  quantity : String
  cost : String
  basis : String
  ledger : σ
  postings : List Posting

section Model

variable {σ : Type} (services : Services σ)

def fillMarket (fill : AccountingFill) : Outcome ExchangeFillAccounting := do
  throwIf (fill.accountingConflict ≠ 0) (.error "fill_accounting_conflict")
  match truthy fill.accountingJson, truthy fill.providerSymbol with
  | some json, some symbol => do validateFillAccounting (← services.decode json) symbol
  | _, _ => .error (.error "fill_market_accounting_unproven")

/-- `recordMoneyEvent`: what is stored is the cleaned event. -/
def recordMoneyEvent (ledger : σ) (value : MoneyEventInput) : Outcome (σ × MoneyEventInput) := do
  let clean ← cleanEvent value
  return (← services.store ledger clean, clean)

def realizedAmount (side : TradingSide) (notional allocatedCost : String) : Outcome String :=
  if side = .long then signedDifference notional allocatedCost
  else signedDifference allocatedCost notional

def postExit (intent : IntentSource) (identity : String) (settlement : Option String)
    (books : Books σ) (fill : AccountingFill) (notional basis : String) : Outcome (Books σ) := do
  throwIf (0 < (← compareDecimal fill.quantity books.quantity))
    (.error "exit_precedes_its_proven_entries")
  let allocatedCost ← allocateDecimalExact books.cost fill.quantity books.quantity
  throwIf (truthy settlement = none) (.error "fill_settlement_or_market_conflict")
  let (ledger, event) ← recordMoneyEvent services books.ledger {
    accountId := intent.accountId
    accountFingerprint := identity
    providerEventId := fill.exchangeFillId
    kind := .realizedPricePnl
    source := intent.exchange ++ ":own-fill-v1"
    basis := .fill
    occurredAt := fill.filledAt
    amount := ← realizedAmount intent.side notional allocatedCost
    asset := settlement
    intentId := some intent.id
    fillId := some fill.id
    derivation := some (services.hash (.derivation "moving-average-exact-v1" books.basis
      books.quantity books.cost allocatedCost)) }
  return {
    quantity := ← subtractDecimal books.quantity fill.quantity
    cost := ← subtractDecimal books.cost allocatedCost
    basis := basis
    ledger := ledger
    postings := books.postings ++ [⟨event, allocatedCost⟩] }

def postFill (intent : IntentSource) (identity : String) (settlement : Option String)
    (books : Books σ) (fill : AccountingFill) : Outcome (Books σ) := do
  let notional ← multiplyExactSignedDecimal fill.price fill.quantity
  let basis := services.hash (.link books.basis fill.exchangeFillId fill.price fill.quantity
    fill.filledAt fill.role)
  if fill.role = .entry then
    return { books with
      quantity := ← addDecimal books.quantity fill.quantity
      cost := ← addDecimal books.cost notional
      basis := basis }
  else postExit services intent identity settlement books fill notional basis

def postFills (intent : IntentSource) (identity : String) (settlement : Option String)
    (books : Books σ) (fills : List AccountingFill) : Outcome (Books σ) :=
  fills.foldlM (postFill services intent identity settlement) books

def initialBooks (ledger : σ) : Books σ := ⟨"0", "0", "moving-average-exact-v1", ledger, []⟩

def expectedSource (intent : IntentSource) : AccountingSource :=
  if intent.exchange = "paper" then .paperContract else .ccxtMarket

/-- The guards before the loop; they leave the identity and the settlement asset. -/
def pricePnlBinding (source : Source) : Outcome (String × Option String) := do
  throwIf (source.fills = [] ∧ source.hasPosition = true)
    (.error "legacy_position_has_no_execution_evidence")
  let _ ← proveOwnedQuantity source.orders
    (source.fills.map (fun fill => ⟨fill.orderId, fill.quantity⟩)) source.intent.side
  assertChronologicalCostBasis source.fills
  let markets ← source.fills.mapM (fillMarket services)
  throwIf (markets.any (·.source ≠ expectedSource source.intent))
    (.error "fill_market_source_profile_conflict")
  match truthy (fingerprint source.intent) with
  | none => .error (.error "fill_account_binding_unproven")
  | some identity => do
    throwIf (source.fills.any (·.accountFingerprint ≠ some identity))
      (.error "fill_account_binding_unproven")
    throwIf (markets.any (fun market =>
        some market.settlementAsset ≠ markets.head?.map (·.settlementAsset) ∨
          some market.providerSymbol ≠ markets.head?.map (·.providerSymbol)))
      (.error "fill_settlement_or_market_conflict")
    return (identity, markets.head?.map (·.settlementAsset))

def postPricePnl (source : Source) (ledger : σ) : Outcome (Books σ) := do
  let (identity, settlement) ← pricePnlBinding services source
  postFills services source.intent identity settlement (initialBooks ledger) source.fills

end Model

def notionalValue (fill : AccountingFill) : ℚ :=
  decimalValue fill.price * decimalValue fill.quantity

def entryFills (fills : List AccountingFill) : List AccountingFill :=
  fills.filter (·.role = .entry)

def exitFills (fills : List AccountingFill) : List AccountingFill :=
  fills.filter (¬ ·.role = .entry)

def entryNotional (fills : List AccountingFill) : ℚ := ((entryFills fills).map notionalValue).sum

def exitNotional (fills : List AccountingFill) : ℚ := ((exitFills fills).map notionalValue).sum

/-- What the entries of `fills` leave open after its exits. -/
def openQuantity (fills : List AccountingFill) : ℚ :=
  ((entryFills fills).map (fun fill => decimalValue fill.quantity)).sum -
    ((exitFills fills).map (fun fill => decimalValue fill.quantity)).sum

def allocatedTotal (postings : List Posting) : ℚ :=
  (postings.map (fun posting => decimalValue posting.allocatedCost)).sum

def postedTotal (postings : List Posting) : ℚ :=
  (postings.map (fun posting => decimalValue posting.event.amount)).sum

def profit (side : TradingSide) (difference : ℚ) : ℚ :=
  if side = .long then difference else -difference

section Totals

variable {fills : List AccountingFill} {fill : AccountingFill}

theorem entryFills_concat (h : fill.role = .entry) :
    entryFills (fills ++ [fill]) = entryFills fills ++ [fill] := by
  simp [entryFills, h]

theorem exitFills_concat_entry (h : fill.role = .entry) :
    exitFills (fills ++ [fill]) = exitFills fills := by
  simp [exitFills, h]

theorem entryFills_concat_exit (h : ¬ fill.role = .entry) :
    entryFills (fills ++ [fill]) = entryFills fills := by
  simp [entryFills, h]

theorem exitFills_concat (h : ¬ fill.role = .entry) :
    exitFills (fills ++ [fill]) = exitFills fills ++ [fill] := by
  simp [exitFills, h]

theorem profit_add (side : TradingSide) (p q : ℚ) :
    profit side (p + q) = profit side p + profit side q := by
  cases side with
  | long => rfl
  | short =>
    simp only [profit, reduceCtorEq, if_false]
    ring

end Totals

section Rounds

variable {σ : Type} {services : Services σ} {intent : IntentSource} {identity : String}
  {settlement : Option String} {books next : Books σ} {fill : AccountingFill} {q c : ℕ}
  {done : List AccountingFill}

theorem notional_units {notional : String} {n : ℕ}
    (h : multiplyExactSignedDecimal fill.price fill.quantity = .ok notional)
    (hn : Denotes notional n) :
    notionalValue fill = unitValue n ∧ ∀ a : ℕ, Denotes fill.quantity a → a = 0 → n = 0 := by
  obtain ⟨i, j, k, hi, hj, hk, hlt, rfl⟩ := multiplyExactSignedDecimal_ok_iff.mp h
  have hkn : k = n := ReadsSigned.unique (readsSigned_signedText_iff.mpr ⟨rfl, hlt⟩) hn.readsSigned
  refine ⟨?_, ?_⟩
  · rw [notionalValue, hi.decimalValue, hj.decimalValue, unitValue_mul hk, hkn]
  · intro a ha hzero
    have hja : j = a := hj.unique ha.readsSigned
    rw [hja, hzero, hkn] at hk
    simpa using hk.symm

theorem postFill_entry (hrole : fill.role = .entry) (hq : books.quantity = text q)
    (hc : books.cost = text c)
    (h : postFill services intent identity settlement books fill = .ok next) :
    ∃ a n : ℕ, Denotes fill.quantity a ∧ notionalValue fill = unitValue n ∧ (a = 0 → n = 0) ∧
      next.quantity = text (q + a) ∧ next.cost = text (c + n) ∧ next.postings = books.postings := by
  simp only [postFill, hrole, if_true, bind_eq_ok, pure_eq_ok_iff, addDecimal_ok_iff] at h
  obtain ⟨notional, hntl, _, ⟨u, a, hu, ha, rfl⟩, _, ⟨v, n, hv, hn, rfl⟩, rfl⟩ := h
  rw [hq] at hu
  rw [hc] at hv
  obtain ⟨rfl, -⟩ := denotes_text_iff.mp hu
  obtain ⟨rfl, -⟩ := denotes_text_iff.mp hv
  obtain ⟨hvalue, hzero⟩ := notional_units hntl hn
  exact ⟨a, n, ha, hvalue, hzero a ha, rfl, rfl, rfl⟩

theorem realizedAmount_ok {side : TradingSide} {notional amount : String} {t : ℕ}
    (h : realizedAmount side notional (text t) = .ok amount) :
    ∃ n : ℕ, Denotes notional n ∧
      amount = signedText (if side = .long then (n : ℤ) - t else t - n) := by
  unfold realizedAmount at h
  split_ifs at h with hside
  · obtain ⟨n, v, hn, hv, rfl⟩ := signedDifference_ok_iff.mp h
    obtain ⟨rfl, -⟩ := denotes_text_iff.mp hv
    exact ⟨n, hn, by rw [if_pos hside]⟩
  · obtain ⟨u, n, hu, hn, rfl⟩ := signedDifference_ok_iff.mp h
    obtain ⟨rfl, -⟩ := denotes_text_iff.mp hu
    exact ⟨n, hn, by rw [if_neg hside]⟩

theorem cleanEvent_ok {value clean : MoneyEventInput} (h : cleanEvent value = .ok clean) :
    signedDecimal value.amount = .ok clean.amount ∧ clean.providerEventId = value.providerEventId ∧
      clean.kind = value.kind := by
  simp only [cleanEvent, identifier, bind_eq_ok, throwIf_eq_ok, pure_eq_ok_iff] at h
  obtain ⟨-, -, _, ⟨-, -, rfl⟩, _, ⟨-, -, rfl⟩, _, ⟨-, -, rfl⟩, _, ⟨-, -, rfl⟩, _, -, amount,
    hamount, _, -, _, -, _, -, _, -, rfl⟩ := h
  exact ⟨hamount, rfl, rfl⟩

theorem postFill_exit (hrole : ¬ fill.role = .entry) (hq : books.quantity = text q)
    (hc : books.cost = text c)
    (h : postFill services intent identity settlement books fill = .ok next) :
    ∃ a n t : ℕ, ∃ posting : Posting, Denotes fill.quantity a ∧ notionalValue fill = unitValue n ∧
      a ≤ q ∧ t ≤ c ∧ (a = q → t = c) ∧
      next.quantity = text (q - a) ∧ next.cost = text (c - t) ∧
      next.postings = books.postings ++ [posting] ∧ posting.allocatedCost = text t ∧
      decimalValue posting.event.amount = profit intent.side (unitValue n - unitValue t) ∧
      posting.event.providerEventId = fill.exchangeFillId ∧
      posting.event.kind = .realizedPricePnl := by
  simp only [postFill, hrole, if_false, postExit, recordMoneyEvent, bind_eq_ok, pure_eq_ok_iff,
    throwIf_eq_ok, subtractDecimal_ok_iff, hq, hc, allocateDecimalExact_ok_iff] at h
  obtain ⟨notional, hntl, -, -, -, -, _, ⟨c', b, q', hc', hb, hq', hpos, hdvd, -, rfl⟩, -, -,
    amount, hamount, _, ⟨clean, hclean, _, -, rfl⟩, _, ⟨u, a, hu, ha, hle, rfl⟩, _,
    ⟨v, t, hv, ht, htle, rfl⟩, rfl⟩ := h
  obtain ⟨rfl, -⟩ := reads_text_iff.mp hc'
  obtain ⟨rfl, -⟩ := reads_text_iff.mp hq'
  obtain ⟨rfl, -⟩ := denotes_text_iff.mp hu
  obtain ⟨rfl, -⟩ := denotes_text_iff.mp hv
  obtain ⟨rfl, -⟩ := denotes_text_iff.mp ht
  obtain rfl : b = a := Denotes.unique hb ha.reads
  obtain ⟨n, hn, rfl⟩ := realizedAmount_ok hamount
  obtain ⟨hvalue, -⟩ := notional_units hntl hn
  obtain ⟨hsigned, hprov, hkind⟩ := cleanEvent_ok hclean
  obtain ⟨i, hi, hclean_amount⟩ := signedDecimal_ok_iff.mp hsigned
  refine ⟨b, n, c * b / q, _, ha, hvalue, hle, htle, ?_, rfl, rfl, rfl, rfl, ?_, hprov, hkind⟩
  · intro hall
    rw [hall, Nat.mul_div_cancel _ hpos]
  · rw [← hclean_amount, decimalValue_signedText, ← hi.decimalValue, decimalValue_signedText,
      profit]
    split_ifs
    · rw [unitValue_sub]
    · rw [unitValue_sub, neg_sub]

/-- The state of the loop after `done`, with open quantity and cost in quanta. -/
structure Balanced (side : TradingSide) (done : List AccountingFill) (books : Books σ)
    (q c : ℕ) : Prop where
  quantity_text : books.quantity = text q
  cost_text : books.cost = text c
  flat : q = 0 → c = 0
  quantity_value : unitValue q = openQuantity done
  cost_value : entryNotional done = allocatedTotal books.postings + unitValue c
  posted_value : postedTotal books.postings =
    profit side (exitNotional done - allocatedTotal books.postings)
  posted_exits : books.postings.map (fun posting => (posting.event.kind,
    posting.event.providerEventId)) =
      (exitFills done).map (fun fill => (.realizedPricePnl, fill.exchangeFillId))

theorem balanced_initial (side : TradingSide) (ledger : σ) :
    Balanced side [] (initialBooks ledger) 0 0 where
  quantity_text := (text_eq_zero.mpr rfl).symm
  cost_text := (text_eq_zero.mpr rfl).symm
  flat := fun _ => rfl
  quantity_value := by simp [openQuantity, entryFills, exitFills]
  cost_value := by simp [entryNotional, entryFills, allocatedTotal, initialBooks]
  posted_value := by
    simp [postedTotal, initialBooks, profit, exitNotional, exitFills, allocatedTotal]
  posted_exits := rfl

theorem Balanced.entry (hb : Balanced intent.side done books q c) (hrole : fill.role = .entry)
    (h : postFill services intent identity settlement books fill = .ok next) :
    ∃ q' c', Balanced intent.side (done ++ [fill]) next q' c' := by
  obtain ⟨a, n, ha, hvalue, hzero, hqty, hcost, hpostings⟩ :=
    postFill_entry hrole hb.quantity_text hb.cost_text h
  refine ⟨q + a, c + n, hqty, hcost, ?_, ?_, ?_, ?_, ?_⟩
  · intro hflat
    have hc := hb.flat (by omega)
    have hn := hzero (by omega)
    omega
  · have hold := hb.quantity_value
    rw [openQuantity] at hold
    rw [openQuantity, entryFills_concat hrole, exitFills_concat_entry hrole, List.map_append,
      List.sum_append, List.map_singleton, List.sum_singleton, ha.decimalValue, Nat.cast_add,
      unitValue_add, hold]
    ring
  · have hold := hb.cost_value
    rw [entryNotional] at hold
    rw [entryNotional, entryFills_concat hrole, List.map_append, List.sum_append,
      List.map_singleton, List.sum_singleton, hvalue, Nat.cast_add, unitValue_add, hpostings, hold,
      add_assoc]
  · rw [hpostings, hb.posted_value, exitNotional, exitNotional, exitFills_concat_entry hrole]
  · rw [hpostings, hb.posted_exits, exitFills_concat_entry hrole]

theorem Balanced.exit (hb : Balanced intent.side done books q c) (hrole : ¬ fill.role = .entry)
    (h : postFill services intent identity settlement books fill = .ok next) :
    ∃ q' c', Balanced intent.side (done ++ [fill]) next q' c' := by
  obtain ⟨a, n, t, posting, ha, hvalue, hle, htle, hall, hqty, hcost, hpostings, halloc,
    hamount, hprov, hkind⟩ := postFill_exit hrole hb.quantity_text hb.cost_text h
  have hallocated : allocatedTotal next.postings = allocatedTotal books.postings + unitValue t := by
    rw [hpostings, allocatedTotal, allocatedTotal, List.map_append, List.sum_append,
      List.map_singleton, List.sum_singleton, halloc, decimalValue_text]
  refine ⟨q - a, c - t, hqty, hcost, ?_, ?_, ?_, ?_, ?_⟩
  · intro hflat
    rw [hall (by omega), Nat.sub_self]
  · have hold := hb.quantity_value
    rw [openQuantity] at hold
    rw [openQuantity, entryFills_concat_exit hrole, exitFills_concat hrole, List.map_append,
      List.sum_append, List.map_singleton, List.sum_singleton, ha.decimalValue, Nat.cast_sub hle,
      unitValue_sub, hold]
    ring
  · have hold := hb.cost_value
    rw [entryNotional] at hold
    rw [entryNotional, entryFills_concat_exit hrole, hallocated, Nat.cast_sub htle, unitValue_sub,
      hold]
    ring
  · rw [hallocated, hpostings, postedTotal, List.map_append, List.sum_append, List.map_singleton,
      List.sum_singleton, hamount]
    have hold := hb.posted_value
    rw [postedTotal] at hold
    have hexit : exitNotional (done ++ [fill]) = exitNotional done + unitValue n := by
      rw [exitNotional, exitNotional, exitFills_concat hrole, List.map_append, List.sum_append,
        List.map_singleton, List.sum_singleton, hvalue]
    rw [hold, hexit, add_sub_add_comm, profit_add]
  · rw [hpostings, List.map_append, List.map_singleton, hb.posted_exits, exitFills_concat hrole,
      List.map_append, List.map_singleton, hprov, hkind]

theorem Balanced.postFill (hb : Balanced intent.side done books q c)
    (h : postFill services intent identity settlement books fill = .ok next) :
    ∃ q' c', Balanced intent.side (done ++ [fill]) next q' c' := by
  by_cases hrole : fill.role = .entry
  · exact hb.entry hrole h
  · exact hb.exit hrole h

theorem Balanced.postFills {fills : List AccountingFill} (hb : Balanced intent.side done books q c)
    (h : postFills services intent identity settlement books fills = .ok next) :
    ∃ q' c', Balanced intent.side (done ++ fills) next q' c' := by
  induction fills generalizing done books q c with
  | nil =>
    rw [TradingFillAccounting.postFills, List.foldlM_nil, pure_eq_ok_iff] at h
    subst h
    rw [List.append_nil]
    exact ⟨q, c, hb⟩
  | cons fill fills ih =>
    rw [TradingFillAccounting.postFills, List.foldlM_cons, bind_eq_ok] at h
    obtain ⟨mid, hmid, hrest⟩ := h
    obtain ⟨q', c', hb'⟩ := hb.postFill hmid
    have hnext := ih hb' hrest
    rwa [List.append_assoc, List.singleton_append] at hnext

end Rounds

/-- After every prefix of the fills that were processed, the entries are worth exactly what the
exits were allocated plus the remaining cost, and a flat position has realized exactly the
difference of its exits and its entries. -/
theorem price_pnl_telescopes {σ : Type} (services : Services σ) (source : Source) (ledger : σ)
    (books : Books σ) (h : postPricePnl services source ledger = .ok books) :
    ∃ identity settlement, pricePnlBinding services source = .ok (identity, settlement) ∧
      ∀ done rest, source.fills = done ++ rest → ∃ mid : Books σ,
        postFills services source.intent identity settlement (initialBooks ledger) done = .ok mid ∧
        postFills services source.intent identity settlement mid rest = .ok books ∧
        entryNotional done = allocatedTotal mid.postings + decimalValue mid.cost ∧
        0 ≤ decimalValue mid.cost ∧
        decimalValue mid.quantity = openQuantity done ∧
        (decimalValue mid.quantity = 0 → decimalValue mid.cost = 0) ∧
        mid.postings.map (fun posting => (posting.event.kind, posting.event.providerEventId)) =
          (exitFills done).map (fun fill => (.realizedPricePnl, fill.exchangeFillId)) ∧
        (decimalValue mid.quantity = 0 → postedTotal mid.postings =
          profit source.intent.side (exitNotional done - entryNotional done)) := by
  simp only [postPricePnl, bind_eq_ok] at h
  obtain ⟨⟨identity, settlement⟩, hbind, hrun⟩ := h
  refine ⟨identity, settlement, hbind, ?_⟩
  intro done rest hsplit
  have hparts := hrun
  rw [hsplit, postFills, List.foldlM_append, bind_eq_ok] at hparts
  obtain ⟨mid, hdone, hrest⟩ := hparts
  obtain ⟨q, c, hb⟩ := (balanced_initial source.intent.side ledger).postFills hdone
  rw [List.nil_append] at hb
  have hqty : decimalValue mid.quantity = unitValue q := by
    rw [hb.quantity_text, decimalValue_text]
  have hcost : decimalValue mid.cost = unitValue c := by
    rw [hb.cost_text, decimalValue_text]
  have hflat : decimalValue mid.quantity = 0 → decimalValue mid.cost = 0 := by
    intro hzero
    rw [hqty, unitValue_eq_zero, Nat.cast_eq_zero] at hzero
    rw [hcost, hb.flat hzero, Nat.cast_zero, unitValue_zero]
  refine ⟨mid, hdone, hrest, ?_, ?_, ?_, hflat, hb.posted_exits, ?_⟩
  · rw [hcost, hb.cost_value]
  · rw [hcost]
    exact unitValue_nonneg c
  · rw [hqty, hb.quantity_value]
  · intro hzero
    have hcost_zero := hflat hzero
    rw [hcost] at hcost_zero
    rw [hb.posted_value, hb.cost_value, hcost_zero, add_zero]

def paperContractJson : String :=
  "\x7b\"version\":1,\"source\":\"paper-contract-v1\",\"providerSymbol\":\"BTCUSDT\"," ++
    "\"settlementAsset\":\"USDT\",\"linear\":true,\"quantityUnit\":\"base\"\x7d"

/-- The digests of the links and derivations of the fills below, over a ledger of events. -/
def paperServices : Services (List MoneyEventInput) where
  hash
    | .link _ exchangeFillId _ _ _ _ =>
      if exchangeFillId = "entry-1" then
        "f024f296ad6dccf9f5c131b82fa9705e8176985603cdcdb2ae37dde904551df8"
      else if exchangeFillId = "exit-1" then
        "7f9de8bcc39f7c7927472813d39a79b3ad884fa4188419acd1cf763e4fae3fd5"
      else "2f4fbdb61972d6d6d9c0641bde3d1262a6342e45829e7359bfc94f2087e40e99"
    | .derivation _ _ quantity _ _ =>
      if quantity = "2" then "8c3a2fd909657f1884f6ef92c86889fdb8c69f0606db08f8145725d540d3435c"
      else "7356987d85b3dc33a9bba9dbc916c9d2aca963ee3bdfacdc8a1d5a6cff935fb9"
  decode json :=
    if json = paperContractJson then
      .ok ⟨1, "paper-contract-v1", "BTCUSDT", "USDT", true, "base"⟩
    else .error (.error "Invalid accounting evidence object.")
  store ledger event := .ok (ledger ++ [event])

def paperFill (id orderId price quantity : String) (filledAt : ℤ) (role : OrderRole) :
    AccountingFill :=
  ⟨id, orderId, id, price, quantity, filledAt, some "paper:paper-default",
    some paperContractJson, 0,
    role, some "BTCUSDT"⟩

/-- Two units bought at 100 and sold one by one at 120 and 110. -/
def paperSource : Source where
  intent := ⟨"partial", "paper-default", .long, "paper", "paper", none⟩
  fills := [paperFill "entry-1" "order-1" "100" "2" 1 .entry,
    paperFill "exit-1" "order-2" "120" "1" 2 .takeProfit,
    paperFill "exit-2" "order-3" "110" "1" 3 .flatten]
  orders := [⟨"order-1", .entry, .buy, 0, "2", "2"⟩, ⟨"order-2", .takeProfit, .sell, 1, "1", "1"⟩,
    ⟨"order-3", .flatten, .sell, 1, "1", "1"⟩]
  hasPosition := true

theorem price_pnl_telescopes_two_exits : ∃ books,
    postPricePnl paperServices paperSource [] = .ok books ∧ books.quantity = "0" ∧
      postedTotal books.postings =
        exitNotional paperSource.fills - entryNotional paperSource.fills := by
  have hflat : (·.quantity) <$> postPricePnl paperServices paperSource [] = .ok "0" := by
    decide +kernel
  obtain ⟨books, hbooks, hqty⟩ := map_eq_ok.mp hflat
  obtain ⟨identity, settlement, -, hprefix⟩ :=
    price_pnl_telescopes paperServices paperSource [] books hbooks
  obtain ⟨mid, -, hrest, -, -, -, -, -, hposted⟩ := hprefix paperSource.fills [] (by simp)
  obtain rfl : mid = books := by
    simpa [postFills] using hrest
  refine ⟨mid, hbooks, hqty, hposted ?_⟩
  rw [hqty, show "0" = text 0 from (text_eq_zero.mpr rfl).symm, decimalValue_text,
    Nat.cast_zero, unitValue_zero]

end TsxCore.TradingFillAccounting
