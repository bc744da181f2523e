import TsxCore.TradingFillCapture

/-!
# The contract of a delivered fill (`exchange_contract_validation.ts`)

Every fill that the executor returns passes `validateFill` before it is persisted. What it
accepts fits the bounds of the economic evidence.
-/

namespace TsxCore.ExchangeFillContract

open Outcome TradingDecimal TradingFillIdentity TradingRemoteEvidence

section Contract

def identifier (label value : String) : Outcome Unit :=
  throwIf (trim value = "" ∨ 256 < utf16Length value ∨
      value.toList.any (fun c => c.toNat < 32) = true)
    (.error ("Invalid exchange " ++ label ++ " identifier."))

def optionally {α : Type} (check : α → Outcome Unit) : Option α → Outcome Unit
  | none => return ()
  | some value => check value

def amount (value : String) (positive signed : Bool) : Outcome String := do
  throwIf (trim value ≠ value) (.error "Invalid exchange decimal contract.")
  if signed then signedDecimal value else decimal value positive

def timestamp (now value : ℤ) : Outcome Unit :=
  throwIf (¬ isSafeInteger value ∨ value < 0 ∨ now + 60000 < value)
    (.error "Invalid or stale exchange timestamp.")

def checkIdentity (identity : ExchangeFillIdentity) : Outcome Unit := do
  let _ ← validateFillIdentity identity

def checkNormalization (sha256 : String → String) (now : ℤ) (fill : ExchangeFill)
    (normalization : FillQuantityNormalization) : Outcome Unit := do
  let _ ← TradingFillQuantity.validateFillQuantityNormalization sha256 now normalization fill

def validateFill (sha256 : String → String) (now : ℤ) (fill : ExchangeFill) :
    Outcome ExchangeFill := do
  optionally checkIdentity fill.identity
  identifier "fill" fill.exchangeFillId
  identifier "fill order" fill.exchangeOrderId
  optionally (identifier "fill symbol") fill.symbol
  optionally (identifier "fill provider symbol") fill.providerSymbol
  optionally (identifier "fill client order") fill.clientOrderId
  optionally (identifier "fee asset") fill.feeAsset
  let _ ← amount fill.price true false
  let _ ← amount fill.quantity true false
  let _ ← amount fill.fee false true
  timestamp now fill.filledAt
  optionally (checkNormalization sha256 now fill) fill.quantityNormalization
  let _ ← TradingFillCapture.validatedAccounting fill
  return fill

end Contract

section Bounds

variable {value : String}

def Bounded (value : String) : Prop := utf16Length value ≤ 256
  deriving Decidable

theorem identifier_bounded {label : String} {u : Unit} (h : identifier label value = .ok u) :
    Bounded value := by
  simp only [identifier, throwIf_eq_ok, not_or, not_lt] at h
  exact h.2.1

theorem optionally_ok {α : Type} {check : α → Outcome Unit} {value : Option α} {u : Unit}
    (h : optionally check value = .ok u) : ∀ a, value = some a → check a = .ok () := by
  rintro a rfl
  exact h

theorem utf16Length_eq_length (h : ∀ c ∈ value.toList, c.toNat < 0x10000) :
    utf16Length value = value.toList.length := by
  have hunits : ∀ c ∈ value.toList, (if 0x10000 ≤ c.toNat then 2 else 1) = 1 :=
    fun c hc => if_neg (by have := h c hc; omega)
  rw [utf16Length, List.map_congr_left hunits, List.map_const', List.sum_replicate, smul_eq_mul,
    mul_one]

theorem isDigit_toNat_lt {c : Char} (h : c.isDigit = true) : c.toNat < 0x10000 := by
  have hrange := (Bool.and_eq_true_iff.mp h).2
  have hle : c.val ≤ 57 := of_decide_eq_true hrange
  have hnat : c.toNat ≤ 57 := UInt32.le_iff_toNat_le.mp hle
  omega

theorem decimalPattern_size {cs : List Char} (h : decimalPattern cs = true) :
    cs.length ≤ 55 ∧ ∀ c ∈ cs, c.toNat < 0x10000 := by
  have hsplit := List.takeWhile_append_dropWhile (p := (· != '.')) (l := cs)
  obtain ⟨hnatural, hrest⟩ := Bool.and_eq_true_iff.mp h
  have hinteger : (cs.takeWhile (· != '.')).length ≤ 36 ∧
      ∀ c ∈ cs.takeWhile (· != '.'), c.toNat < 0x10000 := by
    rw [Numeral.isNatural, Bool.or_eq_true, beq_iff_eq] at hnatural
    rcases hnatural with hzero | hdigits
    · rw [hzero]
      exact ⟨by decide, by simp⟩
    · simp only [Bool.and_eq_true, decide_eq_true_eq, List.all_eq_true] at hdigits
      exact ⟨hdigits.2, fun c hc => isDigit_toNat_lt (hdigits.1.2 c hc)⟩
  have hfrac : (cs.dropWhile (· != '.')).length ≤ 19 ∧
      ∀ c ∈ cs.dropWhile (· != '.'), c.toNat < 0x10000 := by
    cases hdrop : cs.dropWhile (· != '.') with
    | nil => exact ⟨by decide, by simp⟩
    | cons point fraction =>
      rw [hdrop] at hrest
      simp only [Numeral.isFraction, Bool.and_eq_true, decide_eq_true_eq, List.all_eq_true] at hrest
      have hpoint : point = '.' := by
        have hhead := List.head_dropWhile_not (p := (· != '.')) (l := cs) (by simp [hdrop])
        simpa [hdrop] using hhead
      refine ⟨by rw [List.length_cons]; omega, ?_⟩
      intro c hc
      rcases List.mem_cons.mp hc with rfl | hmem
      · rw [hpoint]
        decide
      · exact isDigit_toNat_lt (hrest.1.2 c hmem)
  rw [← hsplit]
  refine ⟨by rw [List.length_append]; omega, ?_⟩
  intro c hc
  rcases List.mem_append.mp hc with hc | hc
  · exact hinteger.2 c hc
  · exact hfrac.2 c hc

theorem parse_bounded {parsed : ParsedDecimal} (h : parse value = .ok parsed) : Bounded value := by
  simp only [parse, bind_eq_ok, throwIf_eq_ok, Bool.not_eq_false] at h
  obtain ⟨-, hpat, -⟩ := h
  obtain ⟨hlen, hplane⟩ := decimalPattern_size hpat
  rw [Bounded, utf16Length_eq_length hplane]
  omega

theorem amount_bounded {result : String} {positive : Bool}
    (h : amount value positive false = .ok result) : Bounded value := by
  simp only [amount, Bool.false_eq_true, if_false, bind_eq_ok, throwIf_eq_ok, not_not, decimal] at h
  obtain ⟨-, htrim, parsed, hparsed, -⟩ := h
  rw [htrim] at hparsed
  exact parse_bounded hparsed

end Bounds

section Accepted

variable {sha256 : String → String} {now : ℤ} {fill : ExchangeFill}

/-- What the contract says about the texts of a fill; its fee is only known to be a decimal. -/
structure Delivered (fill : ExchangeFill) : Prop where
  exchangeFillId : Bounded fill.exchangeFillId
  exchangeOrderId : Bounded fill.exchangeOrderId
  symbol : ∀ value, fill.symbol = some value → Bounded value
  providerSymbol : ∀ value, fill.providerSymbol = some value → Bounded value
  clientOrderId : ∀ value, fill.clientOrderId = some value → Bounded value
  feeAsset : ∀ value, fill.feeAsset = some value → Bounded value
  price : Bounded fill.price
  quantity : Bounded fill.quantity
  identity : ∀ identity, fill.identity = some identity →
    validateFillIdentity identity = .ok identity
  accounting : ∃ accounting, TradingFillCapture.validatedAccounting fill = .ok accounting

theorem validateFill_delivered {result : ExchangeFill}
    (h : validateFill sha256 now fill = .ok result) :
    Delivered fill := by
  simp only [validateFill, bind_eq_ok, pure_eq_ok_iff] at h
  obtain ⟨_, hident, _, hid, _, horder, _, hsym, _, hprov, _, hclient, _, hasset, _, hprice,
    _, hqty, _, _, _, _, _, _, accounting, haccounting, -⟩ := h
  refine {
    exchangeFillId := identifier_bounded hid
    exchangeOrderId := identifier_bounded horder
    symbol := fun value hvalue => identifier_bounded (optionally_ok hsym value hvalue)
    providerSymbol := fun value hvalue => identifier_bounded (optionally_ok hprov value hvalue)
    clientOrderId := fun value hvalue => identifier_bounded (optionally_ok hclient value hvalue)
    feeAsset := fun value hvalue => identifier_bounded (optionally_ok hasset value hvalue)
    price := amount_bounded hprice
    quantity := amount_bounded hqty
    identity := ?_
    accounting := ⟨accounting, haccounting⟩ }
  intro identity hsome
  have hcheck := optionally_ok hident identity hsome
  simp only [checkIdentity, bind_eq_ok] at hcheck
  obtain ⟨valid, hvalid, -⟩ := hcheck
  rw [hvalid, validateFillIdentity_ok hvalid]

theorem validateFill_normalization {result : ExchangeFill}
    {normalization : FillQuantityNormalization}
    {later : ℤ} (h : validateFill sha256 now fill = .ok result) (hlater : now ≤ later)
    (hsome : fill.quantityNormalization = some normalization) :
    TradingFillQuantity.validateFillQuantityNormalization sha256 later normalization fill =
      .ok normalization := by
  simp only [validateFill, bind_eq_ok, pure_eq_ok_iff] at h
  obtain ⟨_, _, _, _, _, _, _, _, _, _, _, _, _, _, _, _, _, _, _, _, _, _, _, hnorm, -⟩ := h
  have hcheck := optionally_ok hnorm normalization hsome
  simp only [checkNormalization, bind_eq_ok,
    TradingFillQuantity.validateFillQuantityNormalization, throwIf_eq_ok, pure_eq_ok_iff]
      at hcheck ⊢
  obtain ⟨_, ⟨_, hhead, input, hinput, factor, hfactor, output, houtput, _, htime, _, harithmetic,
    identity, hident, _, hmkt, -⟩, -⟩ := hcheck
  refine ⟨(), hhead, input, hinput, factor, hfactor, output, houtput, (), ?_, (), harithmetic,
    identity, hident, (), hmkt, trivial⟩
  simp only [not_or, not_lt] at htime ⊢
  exact ⟨htime.1, htime.2.1, htime.2.2.1, by omega⟩

end Accepted

end TsxCore.ExchangeFillContract
