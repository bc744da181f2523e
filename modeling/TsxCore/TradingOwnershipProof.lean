import TsxCore.TradingOwnership
import TsxCore.DecimalUnits

/-!
# What an ownership proof proves

The totals of the fills are sums of whole quanta, so a proof is returned exactly when
every order executed what it reports and the exits do not outweigh the entries. A sum
itself has no digit limit, but whatever compares it next has: the total of the entries
has to fit 36 integer digits. All of this speaks about sums, which do not depend on the
order of the fills or on how an execution is cut into fills.
-/

namespace TsxCore.TradingOwnership

open Outcome TradingDecimal TradingTypes

section Quanta

variable {value : String} {u : ℕ}

/-- The quanta that `decimal` reads, and nothing where it refuses the text. -/
def quanta (value : String) : ℕ :=
  match parse (trim value) with
  | .ok parsed => parsed.units
  | .error _ => 0

theorem quanta_of_reads (h : Reads value u) : quanta value = u := by
  obtain ⟨p, hp, rfl⟩ := h
  rw [quanta, hp]

/-- A quantity that `decimal(value, { positive: true })` accepts. -/
def PositiveQuantity (value : String) : Prop := Reads value (quanta value) ∧ 0 < quanta value

theorem positiveQuantity_of_reads (h : Reads value u) (hpos : 0 < u) : PositiveQuantity value := by
  rw [PositiveQuantity, quanta_of_reads h]
  exact ⟨h, hpos⟩

theorem decimal_positive_iff {s : String} :
    decimal value true = .ok s ↔ PositiveQuantity value ∧ text (quanta value) = s := by
  rw [decimal_positive_ok_iff]
  constructor
  · intro h
    obtain ⟨u, hu, hpos, rfl⟩ := h
    rw [quanta_of_reads hu]
    exact ⟨positiveQuantity_of_reads hu hpos, rfl⟩
  · intro h
    exact ⟨_, h.1.1, h.1.2, h.2⟩

theorem addDecimal_text {v : ℕ} {s : String} (hv : v < unitLimit) :
    addDecimal (text u) (text v) = .ok s ↔ u < unitLimit ∧ text (u + v) = s := by
  rw [addDecimal_ok_iff]
  constructor
  · intro h
    obtain ⟨a, b, ha, hb, rfl⟩ := h
    obtain ⟨rfl, hu⟩ := denotes_text_iff.mp ha
    obtain ⟨rfl, -⟩ := denotes_text_iff.mp hb
    exact ⟨hu, rfl⟩
  · intro h
    exact ⟨u, v, denotes_text h.1, denotes_text hv, h.2⟩

theorem compareDecimal_text {v : ℕ} {o : ℤ} :
    compareDecimal (text u) (text v) = .ok o ↔ u < unitLimit ∧ v < unitLimit ∧ sign u v = o := by
  rw [compareDecimal_ok_iff]
  constructor
  · intro h
    obtain ⟨a, b, ha, hb, rfl⟩ := h
    obtain ⟨rfl, hu⟩ := denotes_text_iff.mp ha
    obtain ⟨rfl, hv⟩ := denotes_text_iff.mp hb
    exact ⟨hu, hv, rfl⟩
  · intro h
    exact ⟨u, v, denotes_text h.1, denotes_text h.2.1, h.2.2⟩

end Quanta

section Totals

variable {totals : String → ℕ} {result : String → String}

/-- The quanta that the fills of an order add up to. -/
def executed (fills : List OwnershipFill) (id : String) : ℕ :=
  ((fills.filter (·.orderId == id)).map (fun fill => quanta fill.quantity)).sum

def roleTotal (fills : List OwnershipFill) (orders : List OwnershipOrder)
    (p : OwnershipOrder → Bool) : ℕ :=
  ((orders.filter p).map (fun order => executed fills order.id)).sum

def isEntry (order : OwnershipOrder) : Bool := order.role == .entry

def entryTotal (orders : List OwnershipOrder) (fills : List OwnershipFill) : ℕ :=
  roleTotal fills orders isEntry

def exitTotal (orders : List OwnershipOrder) (fills : List OwnershipFill) : ℕ :=
  roleTotal fills orders (fun order => !isEntry order)

variable {orders : List OwnershipOrder} {fills : List OwnershipFill} {side : TradingSide}

theorem executed_cons (fill : OwnershipFill) (id : String) :
    executed (fill :: fills) id =
      (if fill.orderId = id then quanta fill.quantity else 0) + executed fills id := by
  by_cases h : fill.orderId = id
  · simp [executed, h]
  · simp [executed, h]

/-- A fill that belongs to one of the orders and has a positive quantity. -/
structure Mapped (orders : List OwnershipOrder) (fill : OwnershipFill) : Prop where
  order : ∃ order ∈ orders, order.id = fill.orderId
  quantity : PositiveQuantity fill.quantity

theorem executed_of_unmapped (h : ∀ fill ∈ fills, Mapped orders fill) {id : String}
    (hid : ∀ order ∈ orders, order.id ≠ id) : executed fills id = 0 := by
  induction fills with
  | nil => rfl
  | cons fill fills ih =>
    rw [List.forall_mem_cons] at h
    obtain ⟨order, horder, heq⟩ := h.1.order
    have hne : fill.orderId ≠ id := fun hsame => hid order horder (heq.trans hsame)
    rw [executed_cons, if_neg hne, ih h.2]

def afterFill (totals : String → ℕ) (fill : OwnershipFill) (id : String) : ℕ :=
  totals id + if fill.orderId = id then quanta fill.quantity else 0

theorem fillTotals_cons {fill : OwnershipFill} (hfill : Mapped orders fill)
    (hlimit : totals fill.orderId < unitLimit) :
    fillTotals orders (fun id => text (totals id)) (fill :: fills) =
      fillTotals orders (fun id => text (afterFill totals fill id)) fills := by
  obtain ⟨order, horder, hid⟩ := hfill.order
  have hany : orders.any (·.id == fill.orderId) = true :=
    List.any_eq_true.mpr ⟨order, horder, by simpa using hid⟩
  have hqty := decimal_positive_iff.mpr ⟨hfill.quantity, rfl⟩
  have hadd := (addDecimal_text hfill.quantity.1.lt).mpr ⟨hlimit, rfl⟩
  have hupdate : Function.update (fun id => text (totals id)) fill.orderId
      (text (totals fill.orderId + quanta fill.quantity)) =
        fun id => text (afterFill totals fill id) := by
    funext id
    by_cases hsame : fill.orderId = id
    · subst hsame
      rw [Function.update_self, afterFill, if_pos rfl]
    · rw [Function.update_of_ne (Ne.symm hsame), afterFill, if_neg hsame, add_zero]
  rw [fillTotals, throwIf_of_not (by simp [hany]), ok_bind, hqty, ok_bind, hadd, ok_bind,
    hupdate]

theorem mapped_of_fillTotals {fill : OwnershipFill}
    (h : fillTotals orders (fun id => text (totals id)) (fill :: fills) = .ok result) :
    Mapped orders fill ∧ totals fill.orderId < unitLimit := by
  simp only [fillTotals, bind_eq_ok, throwIf_eq_ok, not_not, decimal_positive_iff] at h
  obtain ⟨-, hany, _, ⟨hqty, rfl⟩, _, hadd, -⟩ := h
  rw [addDecimal_text hqty.1.lt] at hadd
  rw [List.any_eq_true] at hany
  obtain ⟨order, horder, hid⟩ := hany
  exact ⟨⟨⟨order, horder, by simpa using hid⟩, hqty⟩, hadd.1⟩

theorem afterFill_add (totals : String → ℕ) (fill : OwnershipFill) (id : String) :
    afterFill totals fill id + executed fills id = totals id + executed (fill :: fills) id := by
  rw [executed_cons, afterFill, add_assoc]

theorem fillTotals_ok (h : fillTotals orders (fun id => text (totals id)) fills = .ok result) :
    (∀ fill ∈ fills, Mapped orders fill) ∧
      result = fun id => text (totals id + executed fills id) := by
  induction fills generalizing totals with
  | nil =>
    rw [fillTotals, pure_eq_ok_iff] at h
    subst h
    exact ⟨by simp, rfl⟩
  | cons fill fills ih =>
    obtain ⟨hfill, hlimit⟩ := mapped_of_fillTotals h
    rw [fillTotals_cons hfill hlimit] at h
    obtain ⟨hfills, rfl⟩ := ih h
    refine ⟨List.forall_mem_cons.mpr ⟨hfill, hfills⟩, ?_⟩
    funext id
    rw [afterFill_add]

theorem fillTotals_of_mapped (hmapped : ∀ fill ∈ fills, Mapped orders fill)
    (hlimit : ∀ id, totals id + executed fills id < unitLimit) :
    fillTotals orders (fun id => text (totals id)) fills =
      .ok (fun id => text (totals id + executed fills id)) := by
  induction fills generalizing totals with
  | nil => rfl
  | cons fill fills ih =>
    rw [List.forall_mem_cons] at hmapped
    have hfirst := hlimit fill.orderId
    rw [fillTotals_cons hmapped.1 (by omega), ih hmapped.2]
    · simp only [afterFill_add]
    · intro id
      rw [afterFill_add]
      exact hlimit id

end Totals

section Orders

variable {orders : List OwnershipOrder} {fills : List OwnershipFill} {side : TradingSide}
  {order : OwnershipOrder} {totals : String → ℕ} {entry exit : ℕ} {result : String × String}

/-- What the loop over the orders checks of one of them. -/
structure Executes (side : TradingSide) (total : ℕ) (order : OwnershipOrder) : Prop where
  semantics : (order.side, order.reduceOnly) = expectedOrderSide order.role side
  quantity : PositiveQuantity order.quantity
  within : total ≤ quanta order.quantity
  filled : Reads order.filledQuantity total

theorem assertOrderSemantics_ok_iff :
    assertOrderSemantics order side = .ok () ↔
      (order.side, order.reduceOnly) = expectedOrderSide order.role side := by
  rw [assertOrderSemantics, throwIf_eq_ok, not_or, not_not, not_not, Prod.ext_iff]

def afterOrder (total : ℕ) (order : OwnershipOrder) (entry exit : ℕ) : ℕ × ℕ :=
  if isEntry order then (entry + total, exit) else (entry, exit + total)

def addedTo (order : OwnershipOrder) (entry exit : ℕ) : ℕ := if isEntry order then entry else exit

theorem orderTotals_cons (horder : Executes side (totals order.id) order)
    (hadded : addedTo order entry exit < unitLimit) :
    orderTotals (fun id => text (totals id)) side (text entry) (text exit) (order :: orders) =
      orderTotals (fun id => text (totals id)) side
        (text (afterOrder (totals order.id) order entry exit).1)
        (text (afterOrder (totals order.id) order entry exit).2) orders := by
  have hlimit := horder.filled.lt
  have hqty := decimal_positive_iff.mpr ⟨horder.quantity, rfl⟩
  have hfilled := decimal_ok_iff.mpr ⟨_, horder.filled, rfl⟩
  have hwithin := compareDecimal_text.mpr ⟨hlimit, horder.quantity.1.lt, rfl⟩
  have hsame := compareDecimal_text.mpr ⟨hlimit, hlimit, rfl⟩
  have hzero : sign (totals order.id) (totals order.id) = 0 := sign_eq_zero_iff.mpr rfl
  have hnotover : ¬ 0 < sign (totals order.id) (quanta order.quantity) := by
    rw [sign_pos_iff, not_lt]
    exact horder.within
  simp only [orderTotals, assertOrderSemantics_ok_iff.mpr horder.semantics, hqty, hfilled,
    hwithin, hsame, hzero, throwIf_of_not hnotover, ok_bind, ne_eq, not_true_eq_false,
    not_false_eq_true, throwIf_of_not, afterOrder, isEntry, beq_iff_eq]
  by_cases hrole : order.role = .entry
  · rw [addedTo, isEntry, if_pos (by simpa using hrole)] at hadded
    rw [if_pos hrole, if_pos hrole, (addDecimal_text hlimit).mpr ⟨hadded, rfl⟩, ok_bind]
  · rw [addedTo, isEntry, if_neg (by simpa using hrole)] at hadded
    rw [if_neg hrole, if_neg hrole, (addDecimal_text hlimit).mpr ⟨hadded, rfl⟩, ok_bind]

theorem executes_of_orderTotals
    (h : orderTotals (fun id => text (totals id)) side (text entry) (text exit) (order :: orders) =
      .ok result) :
    Executes side (totals order.id) order ∧ addedTo order entry exit < unitLimit := by
  simp only [orderTotals, bind_eq_ok, throwIf_eq_ok, decimal_positive_iff, decimal_ok_iff] at h
  obtain ⟨_, hsemantics, _, ⟨hqty, rfl⟩, _, hwithin, -, hnotover, _, ⟨f, hf, rfl⟩, _, hsame, -,
    hzero, hadd⟩ := h
  obtain ⟨-, -, rfl⟩ := compareDecimal_text.mp hwithin
  obtain ⟨-, -, rfl⟩ := compareDecimal_text.mp hsame
  rw [sign_pos_iff, not_lt] at hnotover
  rw [not_not, sign_eq_zero_iff] at hzero
  subst hzero
  refine ⟨⟨assertOrderSemantics_ok_iff.mp hsemantics, hqty, hnotover, hf⟩, ?_⟩
  by_cases hrole : order.role = .entry
  · rw [if_pos hrole, bind_eq_ok] at hadd
    obtain ⟨_, hsum, -⟩ := hadd
    rw [addedTo, isEntry, if_pos (by simpa using hrole)]
    exact ((addDecimal_text hf.lt).mp hsum).1
  · rw [if_neg hrole, bind_eq_ok] at hadd
    obtain ⟨_, hsum, -⟩ := hadd
    rw [addedTo, isEntry, if_neg (by simpa using hrole)]
    exact ((addDecimal_text hf.lt).mp hsum).1

theorem entryTotal_cons (order : OwnershipOrder) :
    entryTotal (order :: orders) fills =
      (if isEntry order then executed fills order.id else 0) + entryTotal orders fills := by
  by_cases h : isEntry order = true
  · simp [entryTotal, roleTotal, h]
  · simp [entryTotal, roleTotal, h]

theorem exitTotal_cons (order : OwnershipOrder) :
    exitTotal (order :: orders) fills =
      (if isEntry order then 0 else executed fills order.id) + exitTotal orders fills := by
  by_cases h : isEntry order = true
  · simp [exitTotal, roleTotal, h]
  · simp [exitTotal, roleTotal, h]

theorem afterOrder_add (order : OwnershipOrder) (entry exit : ℕ) :
    (afterOrder (executed fills order.id) order entry exit).1 + entryTotal orders fills =
      entry + entryTotal (order :: orders) fills ∧
    (afterOrder (executed fills order.id) order entry exit).2 + exitTotal orders fills =
      exit + exitTotal (order :: orders) fills := by
  rw [entryTotal_cons, exitTotal_cons, afterOrder]
  by_cases h : isEntry order = true
  · simp [h, add_assoc]
  · simp [h, add_assoc]

theorem orderTotals_ok
    (h : orderTotals (fun id => text (executed fills id)) side (text entry) (text exit) orders =
      .ok result) :
    (∀ order ∈ orders, Executes side (executed fills order.id) order) ∧
      result = (text (entry + entryTotal orders fills), text (exit + exitTotal orders fills)) := by
  induction orders generalizing entry exit with
  | nil =>
    rw [orderTotals, pure_eq_ok_iff] at h
    subst h
    exact ⟨by simp, rfl⟩
  | cons order orders ih =>
    obtain ⟨horder, hadded⟩ := executes_of_orderTotals h
    rw [orderTotals_cons horder hadded] at h
    obtain ⟨hords, rfl⟩ := ih h
    rw [(afterOrder_add order entry exit).1, (afterOrder_add order entry exit).2]
    exact ⟨List.forall_mem_cons.mpr ⟨horder, hords⟩, rfl⟩

theorem orderTotals_of_executes
    (hords : ∀ order ∈ orders, Executes side (executed fills order.id) order)
    (hentry : entry + entryTotal orders fills < unitLimit)
    (hexit : exit + exitTotal orders fills < unitLimit) :
    orderTotals (fun id => text (executed fills id)) side (text entry) (text exit) orders =
      .ok (text (entry + entryTotal orders fills), text (exit + exitTotal orders fills)) := by
  induction orders generalizing entry exit with
  | nil => rfl
  | cons order orders ih =>
    rw [List.forall_mem_cons] at hords
    have hadded : addedTo order entry exit < unitLimit := by
      rw [addedTo]
      split_ifs <;> omega
    obtain ⟨hsum, hsum'⟩ : _ + entryTotal orders fills =
      entry + entryTotal (order :: orders) fills ∧
        _ + exitTotal orders fills = exit + exitTotal (order :: orders) fills :=
      afterOrder_add order entry exit
    rw [orderTotals_cons hords.1 hadded, ih hords.2 (by omega) (by omega), hsum, hsum']

end Orders

section Proof

variable {orders : List OwnershipOrder} {fills : List OwnershipFill} {side : TradingSide}
  {fills' parts : List OwnershipFill}

/-- What a returned proof says about the fills and the orders. -/
structure Owned (orders : List OwnershipOrder) (fills : List OwnershipFill) (side : TradingSide) :
    Prop where
  mapped : ∀ fill ∈ fills, Mapped orders fill
  executes : ∀ order ∈ orders, Executes side (executed fills order.id) order
  exits : exitTotal orders fills ≤ entryTotal orders fills
  limit : entryTotal orders fills < unitLimit

def ownedProof (orders : List OwnershipOrder) (fills : List OwnershipFill) : OwnershipProof where
  entryQuantity := text (entryTotal orders fills)
  exitQuantity := text (exitTotal orders fills)
  netQuantity := text (entryTotal orders fills - exitTotal orders fills)

theorem Owned.executed_lt (h : Owned orders fills side) (id : String) :
    executed fills id < unitLimit := by
  by_cases hid : ∃ order ∈ orders, order.id = id
  · obtain ⟨order, horder, rfl⟩ := hid
    exact (h.executes order horder).filled.lt
  · rw [executed_of_unmapped h.mapped (fun order horder hsame => hid ⟨order, horder, hsame⟩)]
    decide

theorem proveOwnedQuantity_ok_iff {proof : OwnershipProof} :
    proveOwnedQuantity orders fills side = .ok proof ↔
      Owned orders fills side ∧ ownedProof orders fills = proof := by
  have hzero : text 0 = "0" := text_eq_zero.mpr rfl
  have hstart : (fun _ : String => "0") = fun _ => text 0 := by rw [hzero]
  rw [proveOwnedQuantity, hstart, ← hzero]
  constructor
  · intro h
    simp only [bind_eq_ok, throwIf_eq_ok, pure_eq_ok_iff, Prod.exists] at h
    obtain ⟨_, htotals, _, _, hsums, _, horder, -, hnotover, net, hnet, rfl⟩ := h
    obtain ⟨hmapped, rfl⟩ := fillTotals_ok htotals
    simp only [zero_add] at hsums
    obtain ⟨hexecutes, hres⟩ := orderTotals_ok hsums
    obtain ⟨rfl, rfl⟩ := Prod.mk.inj hres
    simp only [zero_add] at horder hnet ⊢
    obtain ⟨hexit, hentry, rfl⟩ := compareDecimal_text.mp horder
    rw [sign_pos_iff, not_lt] at hnotover
    obtain ⟨u, v, hu, hv, -, rfl⟩ := subtractDecimal_ok_iff.mp hnet
    obtain ⟨rfl, -⟩ := denotes_text_iff.mp hu
    obtain ⟨rfl, -⟩ := denotes_text_iff.mp hv
    exact ⟨⟨hmapped, hexecutes, hnotover, hentry⟩, rfl⟩
  · intro h
    obtain ⟨howned, rfl⟩ := h
    have hexit : exitTotal orders fills < unitLimit := howned.exits.trans_lt howned.limit
    have htotals : fillTotals orders (fun _ => text 0) fills =
        .ok (fun id => text (0 + executed fills id)) := by
      apply fillTotals_of_mapped howned.mapped
      intro id
      rw [zero_add]
      exact howned.executed_lt id
    have hsums : orderTotals (fun id => text (executed fills id)) side (text 0) (text 0) orders =
        .ok (text (0 + entryTotal orders fills), text (0 + exitTotal orders fills)) := by
      apply orderTotals_of_executes howned.executes
      · rw [zero_add]
        exact howned.limit
      · rw [zero_add]
        exact hexit
    have hcmp := compareDecimal_text.mpr ⟨hexit, howned.limit, rfl⟩
    have hnotover : ¬ 0 < sign (exitTotal orders fills) (entryTotal orders fills) := by
      rw [sign_pos_iff, not_lt]
      exact howned.exits
    have hnet := subtractDecimal_ok_iff.mpr
      ⟨_, _, denotes_text howned.limit, denotes_text hexit, howned.exits, rfl⟩
    simp only [zero_add] at htotals hsums
    simp only [htotals, ok_bind, hsums, hcmp, throwIf_of_not hnotover, hnet]
    rfl

/-- A proof depends on the fills through the total of each order, and on the orders as a
collection. -/
theorem proveOwnedQuantity_congr {orders' : List OwnershipOrder} (hords : orders.Perm orders')
    (hexec : ∀ id, executed fills id = executed fills' id)
    (hmapped : (∀ fill ∈ fills, Mapped orders fill) ↔ ∀ fill ∈ fills', Mapped orders fill)
    (proof : OwnershipProof) :
    proveOwnedQuantity orders fills side = .ok proof ↔
      proveOwnedQuantity orders' fills' side = .ok proof := by
  have htotal : ∀ p, roleTotal fills orders p = roleTotal fills' orders' p := by
    intro p
    simp only [roleTotal, hexec]
    exact ((hords.filter p).map _).sum_eq
  have hentry : entryTotal orders fills = entryTotal orders' fills' := htotal _
  have hexit : exitTotal orders fills = exitTotal orders' fills' := htotal _
  have hmemb : ∀ fill, Mapped orders fill ↔ Mapped orders' fill := by
    intro fill
    constructor
    · rintro ⟨⟨order, horder, hid⟩, hqty⟩
      exact ⟨⟨order, hords.mem_iff.mp horder, hid⟩, hqty⟩
    · rintro ⟨⟨order, horder, hid⟩, hqty⟩
      exact ⟨⟨order, hords.mem_iff.mpr horder, hid⟩, hqty⟩
  have howned : Owned orders fills side ↔ Owned orders' fills' side := by
    constructor
    · rintro ⟨hfills, hexecutes, hexits, hlimit⟩
      refine ⟨fun fill hfill => (hmemb fill).mp (hmapped.mp hfills fill hfill), ?_, ?_, ?_⟩
      · intro order horder
        rw [← hexec]
        exact hexecutes order (hords.mem_iff.mpr horder)
      · rwa [← hentry, ← hexit]
      · rwa [← hentry]
    · rintro ⟨hfills, hexecutes, hexits, hlimit⟩
      refine ⟨hmapped.mpr fun fill hfill => (hmemb fill).mpr (hfills fill hfill), ?_, ?_, ?_⟩
      · intro order horder
        rw [hexec]
        exact hexecutes order (hords.mem_iff.mp horder)
      · rwa [hentry, hexit]
      · rwa [hentry]
  rw [proveOwnedQuantity_ok_iff, proveOwnedQuantity_ok_iff, howned, ownedProof, ownedProof, hentry,
    hexit]

theorem executed_perm (h : fills.Perm fills') (id : String) :
    executed fills id = executed fills' id :=
  ((h.filter _).map _).sum_eq

structure Split (fill : OwnershipFill) (parts : List OwnershipFill) : Prop where
  order : ∀ part ∈ parts, part.orderId = fill.orderId
  quantity : PositiveQuantity fill.quantity
  positive : ∀ part ∈ parts, PositiveQuantity part.quantity
  sum : (parts.map (fun part => quanta part.quantity)).sum = quanta fill.quantity

theorem executed_append (fills fills' : List OwnershipFill) (id : String) :
    executed (fills ++ fills') id = executed fills id + executed fills' id := by
  simp [executed]

theorem Split.executed {fill : OwnershipFill} (h : Split fill parts) (id : String) :
    TradingOwnership.executed parts id = TradingOwnership.executed [fill] id := by
  by_cases hid : fill.orderId = id
  · have hall : parts.filter (·.orderId == id) = parts := by
      rw [List.filter_eq_self]
      intro part hpart
      rw [h.order part hpart, beq_iff_eq, hid]
    simp [TradingOwnership.executed, hall, h.sum, hid]
  · have hnone : parts.filter (·.orderId == id) = [] := by
      rw [List.filter_eq_nil_iff]
      intro part hpart
      rw [h.order part hpart, beq_iff_eq]
      exact hid
    simp [TradingOwnership.executed, hnone, hid]

theorem Split.mapped {fill : OwnershipFill} (h : Split fill parts) :
    Mapped orders fill ↔ ∀ part ∈ parts, Mapped orders part := by
  constructor
  · rintro ⟨⟨order, horder, hid⟩, -⟩ part hpart
    exact ⟨⟨order, horder, hid.trans (h.order part hpart).symm⟩, h.positive part hpart⟩
  · intro hparts
    cases parts with
    | nil =>
      have hzero : 0 = quanta fill.quantity := h.sum
      exact absurd hzero h.quantity.2.ne
    | cons part parts =>
      obtain ⟨order, horder, hid⟩ := (hparts part List.mem_cons_self).order
      exact ⟨⟨order, horder, hid.trans (h.order part List.mem_cons_self)⟩, h.quantity⟩

/-- A proof is returned exactly for orders that executed what they report, with the exact
sums; it is the same for every order of the input, and however an execution is cut. -/
theorem owned_quantity_proved (orders : List OwnershipOrder) (fills : List OwnershipFill)
    (side : TradingSide) :
    ((∃ proof, proveOwnedQuantity orders fills side = .ok proof) ↔ Owned orders fills side) ∧
    (∀ proof, proveOwnedQuantity orders fills side = .ok proof →
      proof.entryQuantity = text (entryTotal orders fills) ∧
      proof.exitQuantity = text (exitTotal orders fills) ∧
      ∃ net, proof.netQuantity = text net ∧
        exitTotal orders fills + net = entryTotal orders fills) ∧
    (∀ orders' fills', orders.Perm orders' → fills.Perm fills' → ∀ proof,
      (proveOwnedQuantity orders fills side = .ok proof ↔
        proveOwnedQuantity orders' fills' side = .ok proof)) ∧
    ∀ before fill after parts, fills = before ++ fill :: after → Split fill parts → ∀ proof,
      (proveOwnedQuantity orders fills side = .ok proof ↔
        proveOwnedQuantity orders (before ++ parts ++ after) side = .ok proof) := by
  refine ⟨?_, ?_, ?_, ?_⟩
  · constructor
    · rintro ⟨proof, h⟩
      exact (proveOwnedQuantity_ok_iff.mp h).1
    · intro h
      exact ⟨_, proveOwnedQuantity_ok_iff.mpr ⟨h, rfl⟩⟩
  · intro proof h
    obtain ⟨howned, rfl⟩ := proveOwnedQuantity_ok_iff.mp h
    exact ⟨rfl, rfl, _, rfl, Nat.add_sub_cancel' howned.exits⟩
  · intro orders' fills' hords hfills
    apply proveOwnedQuantity_congr hords (executed_perm hfills)
    simp only [hfills.mem_iff]
  · rintro before fill after parts rfl hsplit
    apply proveOwnedQuantity_congr (List.Perm.refl _)
    · intro id
      rw [← List.singleton_append, ← List.append_assoc]
      simp only [executed_append, hsplit.executed]
    · simp only [List.forall_mem_append, List.forall_mem_cons, hsplit.mapped]
      tauto

/-- The conditions without the limits of the decimal format: a quantity may be zero here, and
the entries may add up to more than 36 digits. -/
structure Reported (orders : List OwnershipOrder) (fills : List OwnershipFill)
    (side : TradingSide) : Prop where
  distinct : (orders.map (·.id)).Nodup
  mapped : ∀ fill ∈ fills, Mapped orders fill
  semantics : ∀ order ∈ orders, (order.side, order.reduceOnly) = expectedOrderSide order.role side
  filled : ∀ order ∈ orders, Reads order.filledQuantity (executed fills order.id)
  within : ∀ order ∈ orders, ∃ u, Reads order.quantity u ∧ executed fills order.id ≤ u
  exits : exitTotal orders fills ≤ entryTotal orders fills

def entryOf (id quantity : String) : OwnershipOrder := ⟨id, .entry, .buy, 0, quantity, quantity⟩

/-- Six times `10 ^ 35`: two of these have 37 digits. -/
def hugeQuantity : String := "600000000000000000000000000000000000"

theorem reads_hugeQuantity : Reads hugeQuantity (6 * 10 ^ 53) :=
  ⟨⟨6 * 10 ^ 35, 0⟩, by decide +kernel, by decide +kernel⟩

theorem reported_huge : Reported [entryOf "a" hugeQuantity, entryOf "b" hugeQuantity]
    [⟨"a", hugeQuantity⟩, ⟨"b", hugeQuantity⟩] .long := by
  have hquanta := quanta_of_reads reads_hugeQuantity
  have hpositive := positiveQuantity_of_reads reads_hugeQuantity (by positivity)
  have ha : executed [⟨"a", hugeQuantity⟩, ⟨"b", hugeQuantity⟩] "a" = 6 * 10 ^ 53 := by
    simp [executed, hquanta]
  have hb : executed [⟨"a", hugeQuantity⟩, ⟨"b", hugeQuantity⟩] "b" = 6 * 10 ^ 53 := by
    simp [executed, hquanta]
  refine ⟨by decide, ?_, by decide, ?_, ?_, ?_⟩
  · rw [List.forall_mem_cons, List.forall_mem_singleton]
    exact ⟨⟨⟨_, List.mem_cons_self, rfl⟩, hpositive⟩,
      ⟨_, List.mem_cons_of_mem _ List.mem_cons_self, rfl⟩, hpositive⟩
  · rw [List.forall_mem_cons, List.forall_mem_singleton]
    simp only [entryOf, ha, hb]
    exact ⟨reads_hugeQuantity, reads_hugeQuantity⟩
  · rw [List.forall_mem_cons, List.forall_mem_singleton]
    simp only [entryOf, ha, hb]
    exact ⟨⟨_, reads_hugeQuantity, le_rfl⟩, _, reads_hugeQuantity, le_rfl⟩
  · exact Nat.zero_le _

theorem reported_unfilled : Reported [entryOf "a" "0"] [] .long := by
  have hzero : Reads "0" 0 := denotes_zero.reads
  refine ⟨by decide, by simp, by decide, ?_, ?_, le_rfl⟩
  · rw [List.forall_mem_singleton]
    exact hzero
  · rw [List.forall_mem_singleton]
    exact ⟨0, hzero, le_rfl⟩

/-- An order of quantity zero is refused, and so are entries of 37 digits in total. Of two
faulty fills the first one names the error. -/
theorem reported_quantity_refused :
    ¬ ((∃ proof, proveOwnedQuantity [entryOf "a" "0"] [] .long = .ok proof) ↔
      Reported [entryOf "a" "0"] [] .long) ∧
    ¬ ((∃ proof, proveOwnedQuantity [entryOf "a" hugeQuantity, entryOf "b" hugeQuantity]
        [⟨"a", hugeQuantity⟩, ⟨"b", hugeQuantity⟩] .long = .ok proof) ↔
      Reported [entryOf "a" hugeQuantity, entryOf "b" hugeQuantity]
        [⟨"a", hugeQuantity⟩, ⟨"b", hugeQuantity⟩] .long) ∧
    proveOwnedQuantity [entryOf "a" "1"] [⟨"a", "0"⟩, ⟨"b", "1"⟩] .long ≠
      proveOwnedQuantity [entryOf "a" "1"] [⟨"b", "1"⟩, ⟨"a", "0"⟩] .long := by
  refine ⟨?_, ?_, by decide +kernel⟩
  · intro h
    obtain ⟨proof, hproof⟩ := h.mpr reported_unfilled
    obtain ⟨-, hpositive⟩ := ((proveOwnedQuantity_ok_iff.mp hproof).1.executes _
      List.mem_cons_self).quantity
    exact absurd hpositive (by decide +kernel)
  · intro h
    obtain ⟨proof, hproof⟩ := h.mpr reported_huge
    have hlimit := (proveOwnedQuantity_ok_iff.mp hproof).1.limit
    exact absurd hlimit (by decide +kernel)

example : proveOwnedQuantity [entryOf "a" "3", ⟨"b", .takeProfit, .sell, 1, "2", "0.5"⟩]
    [⟨"a", "1"⟩, ⟨"b", "0.5"⟩, ⟨"a", "2.0"⟩] .long = .ok ⟨"3", "0.5", "2.5"⟩ := by
  decide +kernel

end Proof

end TsxCore.TradingOwnership
