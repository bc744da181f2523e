import TsxCore.MoneyAmount

/-!
# Sums of money values in any order and bracketing

A money expression adds and negates accepted values. Its result is accepted, its
term count is the sum of the leaf counts, and it encloses the same signed sum of
whatever the leaves may be worth.
-/

namespace TsxCore.TradingMoneyValue

open Outcome TradingDecimal TradingRational

def Accepted (m : MoneyValue) : Prop := ∃ r, validateMoneyValue m = .ok r

inductive MoneyExpr
  | identity
  | leaf (value : MoneyValue)
  | add (left right : MoneyExpr)
  | negate (operand : MoneyExpr)

namespace MoneyExpr

def eval : MoneyExpr → Outcome MoneyValue
  | identity => zeroWithTerms 0
  | leaf value => .ok value
  | add left right => do addMoneyValues (← left.eval) (← right.eval)
  | negate operand => do negateMoneyValue (← operand.eval)

def leaves : MoneyExpr → List MoneyValue
  | identity => []
  | leaf value => [value]
  | add left right => left.leaves ++ right.leaves
  | negate operand => operand.leaves

def terms (e : MoneyExpr) : ℤ := (e.leaves.map MoneyValue.terms).sum

/-- The signed sums of possible values of the leaves. -/
def Possible : MoneyExpr → ℚ → Prop
  | identity, v => v = 0
  | leaf value, v => PossibleValue value v
  | add left right, v => ∃ x y, left.Possible x ∧ right.Possible y ∧ v = x + y
  | negate operand, v => ∃ x, operand.Possible x ∧ v = -x

end MoneyExpr

theorem accepted_iff {m : MoneyValue} : Accepted m ↔ ∃ a : Amount, a.Valid ∧ a.money = m := by
  refine ⟨?_, ?_⟩
  · intro h
    obtain ⟨r, hr⟩ := h
    obtain ⟨a, ha, hm, -⟩ := validateMoneyValue_ok_iff.mp hr
    exact ⟨a, ha, hm⟩
  · intro h
    obtain ⟨a, ha, rfl⟩ := h
    exact ⟨_, ha.validate⟩

theorem zero_valid {n : ℕ} (hn : n ≤ maxSafeInteger) : (Amount.exact 0 n).Valid := by
  have hlimit : 0 < unitLimit := by rw [unitLimit]; positivity
  refine ⟨⟨hn, ?_, ?_⟩, ?_, fun _ => rfl⟩
  · simpa [Amount.lower] using hlimit
  · simpa [Amount.upper] using hlimit
  · have h := fits_unitValue (i := 0) (by omega)
    simpa [unitValue] using h

theorem zeroWithTerms_eq (n : ℕ) : zeroWithTerms n = .ok (Amount.exact 0 n).money := by
  have hzero : moneyValueFromDecimal "0" = .ok (Amount.exact 0 1).money := by decide +kernel
  rw [zeroWithTerms, hzero]
  rfl

/-- The enclosure that an expression over valid enclosures evaluates to. -/
theorem MoneyExpr.eval_valid (e : MoneyExpr) (hleaves : ∀ m ∈ e.leaves, Accepted m) {r : MoneyValue}
    (hr : e.eval = .ok r) :
    ∃ a : Amount, a.Valid ∧ a.money = r ∧ (a.terms : ℤ) = e.terms ∧
      ∀ v, e.Possible v → a.Possible v := by
  induction e generalizing r with
  | identity =>
    rw [eval, show (0 : ℤ) = (0 : ℕ) by rfl, zeroWithTerms_eq] at hr
    exact ⟨_, zero_valid (by omega), Except.ok.inj hr, rfl, fun v hv => hv⟩
  | leaf value =>
    obtain ⟨a, ha, rfl⟩ := accepted_iff.mp (hleaves value (by simp [leaves]))
    refine ⟨a, ha, Except.ok.inj hr, by simp [terms, leaves], ?_⟩
    intro v hv
    exact (ha.possibleValue_iff v).mp hv
  | add left right ihl ihr =>
    simp only [eval, bind_eq_ok] at hr
    obtain ⟨x, hx, y, hy, hsum⟩ := hr
    obtain ⟨a, ha, rfl, hta, hpa⟩ := ihl (fun m hm => hleaves m (by simp [leaves, hm])) hx
    obtain ⟨b, hb, rfl, htb, hpb⟩ := ihr (fun m hm => hleaves m (by simp [leaves, hm])) hy
    obtain ⟨hrange, rfl⟩ := (addMoneyValues_ok_iff ha hb).mp hsum
    refine ⟨a.add b, ⟨hrange, Amount.add_wellFormed ha hb⟩, rfl, ?_, ?_⟩
    · simp only [Amount.terms_add, Nat.cast_add, hta, htb, terms, leaves, List.map_append,
        List.sum_append]
    · intro v hv
      obtain ⟨x, y, hx, hy, rfl⟩ := hv
      exact Amount.possible_add ha hb (hpa x hx) (hpb y hy)
  | negate operand ih =>
    simp only [eval, bind_eq_ok] at hr
    obtain ⟨x, hx, hneg⟩ := hr
    obtain ⟨a, ha, rfl, hta, hpa⟩ := ih hleaves hx
    rw [negateMoneyValue_of_valid ha] at hneg
    refine ⟨a.negate, Amount.negate_valid ha, Except.ok.inj hneg, ?_, ?_⟩
    · rw [Amount.terms_negate, hta]
      rfl
    · intro v hv
      obtain ⟨x, hx, rfl⟩ := hv
      exact Amount.possible_negate (hpa x hx)

/-- What a ledger event may be worth in the reporting currency. -/
def Worth (event : MoneyEvent) (v : ℚ) : Prop :=
  ∃ m, event.reportingValue = some m ∧ PossibleValue m v

/-- Ledger sums are left-nested expressions over the identity. -/
theorem sumMoneyEventValues_eval {events : List MoneyEvent} {r : MoneyValue}
    (h : sumMoneyEventValues events = .ok r) :
    ∃ e : MoneyExpr, e.eval = .ok r ∧ e.leaves = events.filterMap MoneyEvent.reportingValue ∧
      ∀ vs, List.Forall₂ Worth events vs → e.Possible vs.sum := by
  have hfold : ∀ (events : List MoneyEvent) (e : MoneyExpr) (sum : MoneyValue), e.eval = .ok sum →
      events.foldlM addMoneyEvent sum = .ok r → ∃ e' : MoneyExpr, e'.eval = .ok r ∧
        e'.leaves = e.leaves ++ events.filterMap MoneyEvent.reportingValue ∧
        ∀ v vs, e.Possible v → List.Forall₂ Worth events vs → e'.Possible (v + vs.sum) := by
    intro events
    induction events with
    | nil =>
      intro e sum he h
      rw [List.foldlM_nil] at h
      cases h
      refine ⟨e, he, by simp, ?_⟩
      rintro v vs hv ⟨⟩
      simpa using hv
    | cons event events ih =>
      intro e sum he h
      obtain ⟨valued, value⟩ := event
      rw [List.foldlM_cons, bind_eq_ok] at h
      obtain ⟨next, hnext, h⟩ := h
      cases valued with
      | false => cases hnext
      | true =>
        cases value with
        | none => cases hnext
        | some value =>
          have hadd : (e.add (.leaf value)).eval = .ok next := by
            simp only [MoneyExpr.eval, he, ok_bind]
            exact hnext
          obtain ⟨e', he', hleaves, hpossible⟩ := ih _ next hadd h
          refine ⟨e', he', by simp [hleaves, MoneyExpr.leaves], ?_⟩
          rintro v _ hv (_ | @⟨_, w, _, vs, ⟨_, hm, hw⟩, hrest⟩)
          cases hm
          rw [List.sum_cons, ← add_assoc]
          exact hpossible _ vs ⟨v, w, hv, hw, rfl⟩ hrest
  rw [sumMoneyEventValues, bind_eq_ok] at h
  obtain ⟨zero, hzero, h⟩ := h
  obtain ⟨e, he, hleaves, hpossible⟩ := hfold events .identity zero hzero h
  refine ⟨e, he, by simpa [MoneyExpr.leaves] using hleaves, ?_⟩
  intro vs hvs
  simpa using hpossible 0 vs rfl hvs

/-- In whatever order a ledger is read, its total encloses the sum of all that its events may be
worth, and counts their terms. -/
theorem ledger_totals_enclose {events others : List MoneyEvent} {r s : MoneyValue}
    (hvalues : ∀ m ∈ events.filterMap MoneyEvent.reportingValue, Accepted m)
    (hperm : events.Perm others) (hr : sumMoneyEventValues events = .ok r)
    (hs : sumMoneyEventValues others = .ok s) :
    r.terms = ((events.filterMap MoneyEvent.reportingValue).map MoneyValue.terms).sum ∧
      r.terms = s.terms ∧
      ∀ vs, List.Forall₂ Worth events vs → PossibleValue r vs.sum ∧ PossibleValue s vs.sum := by
  obtain ⟨e, he, hleaves, hpossible⟩ := sumMoneyEventValues_eval hr
  obtain ⟨e', he', hleaves', hpossible'⟩ := sumMoneyEventValues_eval hs
  have hsame := hperm.filterMap MoneyEvent.reportingValue
  obtain ⟨a, ha, rfl, hterms, henclosed⟩ := e.eval_valid (hleaves ▸ hvalues) he
  obtain ⟨b, hb, rfl, hterms', henclosed'⟩ := e'.eval_valid
    (fun m hm => hvalues m (hsame.mem_iff.mpr (hleaves' ▸ hm))) he'
  rw [Amount.money_terms, Amount.money_terms, hterms, hterms', MoneyExpr.terms, MoneyExpr.terms,
    hleaves, hleaves']
  refine ⟨rfl, (hsame.map _).sum_eq, ?_⟩
  intro vs hvs
  obtain ⟨ws, hws, hsum⟩ := List.perm_comp_forall₂ hperm.symm hvs
  rw [ha.possibleValue_iff, hb.possibleValue_iff]
  exact ⟨henclosed _ (hpossible vs hvs), henclosed' _ (hsum.sum_eq ▸ hpossible' ws hws)⟩

/-- An accepted value that no decimal writes exactly. -/
def oneThird : MoneyValue :=
  ⟨"0.333333333333333333", "0.333333333333333334", some ⟨"1", "3"⟩, none, .exactRational, 1⟩

theorem ledger_totals_enclose_thirds :
    ∃ one r s, sumMoneyEventValues [⟨true, some oneThird⟩, ⟨true, some one⟩] = .ok r ∧
      sumMoneyEventValues [⟨true, some one⟩, ⟨true, some oneThird⟩] = .ok s ∧ r.terms = s.terms ∧
      PossibleValue r (4 / 3) ∧ PossibleValue s (4 / 3) := by
  let one : MoneyValue := ⟨"1", "1", some ⟨"1", "1"⟩, some "1", .exactDecimal, 1⟩
  let total : MoneyValue :=
    ⟨"1.333333333333333333", "1.333333333333333334", some ⟨"4", "3"⟩, none, .exactRational, 2⟩
  have hr : sumMoneyEventValues [⟨true, some oneThird⟩, ⟨true, some one⟩] = .ok total := by
    decide +kernel
  have hs : sumMoneyEventValues [⟨true, some one⟩, ⟨true, some oneThird⟩] = .ok total := by
    decide +kernel
  have hacpt : Accepted oneThird ∧ Accepted one :=
    ⟨⟨oneThird, by decide +kernel⟩, one, by decide +kernel⟩
  have hthird : PossibleValue oneThird (1 / 3) := ⟨1, 3, by decide +kernel, by norm_num⟩
  have hone : PossibleValue one 1 := ⟨1, 1, by decide +kernel, by norm_num⟩
  obtain ⟨-, hterms, henclosed⟩ := ledger_totals_enclose (by simpa using hacpt)
    (List.Perm.swap ..) hr hs
  obtain ⟨hr', hs'⟩ := henclosed [1 / 3, 1] (.cons ⟨_, rfl, hthird⟩ (.cons ⟨_, rfl, hone⟩ .nil))
  norm_num at hr' hs'
  exact ⟨one, total, total, hr, hs, hterms, hr', hs'⟩

end TsxCore.TradingMoneyValue
