import TsxCore.DigestTable
import TsxCore.ExecutorFxEvidence

/-!
# FX receipts cross from the executor to Node

Both encoders accept a document exactly when it stays within the same limits, and
write the same text: `Admissible` bounds depth, scalars and keys, `tokens` counts
what the shared budget is charged. The text determines the document, so a receipt
cannot be changed under its hashes.
-/

namespace TsxCore.FxReceipt

open Outcome Executor TradingFx DigestTable
open TradingRecoveryScheduleContract (FxLegId isControl digestPattern)

section Limits

variable {N M : Type}

structure KeyAllowed (key : String) : Prop where
  short : key.toList.length ≤ 256
  plain : key.toList.any isControl = false
  size : byteLength key.toList < 32768

mutual

def tokens : Json N → ℕ
  | .array items => 1 + tokensItems items
  | .object members => 1 + tokensMembers members
  | _ => 1

def tokensItems : List (Json N) → ℕ
  | [] => 0
  | item :: rest => tokens item + tokensItems rest

def tokensMembers : List (String × Json N) → ℕ
  | [] => 0
  | (_, value) :: rest => 1 + tokens value + tokensMembers rest

end

mutual

/-- A value at a depth, with numbers that satisfy `ok`. -/
def Admissible (ok : N → Prop) : Json N → ℕ → Prop
  | .null, depth => depth ≤ 12
  | .bool _, depth => depth ≤ 12
  | .number value, depth => depth ≤ 12 ∧ ok value
  | .string value, depth => depth ≤ 12 ∧ byteLength value.toList < 32768
  | .array items, depth => depth ≤ 12 ∧ AdmissibleItems ok items (depth + 1)
  | .object members, depth => depth ≤ 12 ∧ AdmissibleMembers ok members (depth + 1)

def AdmissibleItems (ok : N → Prop) : List (Json N) → ℕ → Prop
  | [], _ => True
  | item :: rest, depth => Admissible ok item depth ∧ AdmissibleItems ok rest depth

def AdmissibleMembers (ok : N → Prop) : List (String × Json N) → ℕ → Prop
  | [], _ => True
  | (key, value) :: rest, depth =>
    KeyAllowed key ∧ Admissible ok value depth ∧ AdmissibleMembers ok rest depth

end

variable {ok : N → Prop}

theorem tokens_pos (value : Json N) : 1 ≤ tokens value := by
  cases value <;> simp [tokens]

theorem Admissible.depth_le (h : Admissible ok value depth) : depth ≤ 12 := by
  cases value <;> simp only [Admissible] at h <;> omega

theorem length_le_tokensItems (items : List (Json N)) : items.length ≤ tokensItems items := by
  induction items with
  | nil => rfl
  | cons item rest ih =>
    have hpos := tokens_pos item
    rw [tokensItems, List.length_cons]
    omega

theorem admissibleItems_iff {items : List (Json N)} :
    AdmissibleItems ok items depth ↔ ∀ item ∈ items, Admissible ok item depth := by
  induction items with
  | nil => simp [AdmissibleItems]
  | cons item rest ih => simp [AdmissibleItems, ih]

theorem admissibleMembers_iff :
    AdmissibleMembers ok members depth ↔
      ∀ member ∈ members, KeyAllowed member.1 ∧ Admissible ok member.2 depth := by
  induction members with
  | nil => simp [AdmissibleMembers]
  | cons member rest ih =>
    obtain ⟨key, value⟩ := member
    rw [AdmissibleMembers, ih, List.forall_mem_cons, and_assoc]

theorem tokensItems_eq (items : List (Json N)) : tokensItems items = (items.map tokens).sum := by
  induction items with
  | nil => rfl
  | cons item rest ih => rw [tokensItems, ih, List.map_cons, List.sum_cons]

theorem tokensMembers_eq (members : List (String × Json N)) :
    tokensMembers members = (members.map (fun member => 1 + tokens member.2)).sum := by
  induction members with
  | nil => rfl
  | cons member rest ih =>
    obtain ⟨key, value⟩ := member
    rw [tokensMembers, ih, List.map_cons, List.sum_cons]

theorem tokensMembers_byKey (members : List (String × Json N)) :
    tokensMembers (Json.byKey members) = tokensMembers members := by
  rw [tokensMembers_eq, tokensMembers_eq]
  exact ((Json.perm_byKey members).map _).sum_eq

theorem admissibleMembers_byKey :
    AdmissibleMembers ok (Json.byKey members) depth ↔ AdmissibleMembers ok members depth := by
  simp only [admissibleMembers_iff, Json.mem_byKey]

theorem tokens_map (f : N → M) (value : Json N) : tokens (value.map f) = tokens value := by
  induction value using Json.induct with
  | null => rfl
  | bool value => rfl
  | number value => rfl
  | string value => rfl
  | array items ih =>
    rw [Json.map, tokens, tokens, Json.mapItems_eq, tokensItems_eq, tokensItems_eq, List.map_map]
    congr 2
    exact List.map_congr_left ih
  | object members ih =>
    rw [Json.map, tokens, tokens, Json.mapMembers_eq, tokensMembers_eq, tokensMembers_eq,
      List.map_map]
    congr 2
    apply List.map_congr_left
    intro member hmemb
    rw [Function.comp_apply, ih member hmemb]

theorem admissible_map_iff {good : M → Prop} {f : N → M} :
    Admissible good (value.map f) depth ↔ Admissible (fun n => good (f n)) value depth := by
  induction value using Json.induct generalizing depth with
  | null => rfl
  | bool value => rfl
  | number value => rfl
  | string value => rfl
  | array items ih =>
    rw [Json.map, Admissible, Admissible, Json.mapItems_eq, admissibleItems_iff,
      admissibleItems_iff, List.forall_mem_map]
    exact and_congr_right fun _ => forall₂_congr fun item hitem => ih item hitem
  | object members ih =>
    rw [Json.map, Admissible, Admissible, Json.mapMembers_eq, admissibleMembers_iff,
      admissibleMembers_iff, List.forall_mem_map]
    exact and_congr_right fun _ => forall₂_congr fun member hmemb =>
      and_congr_right fun _ => ih member hmemb

theorem Admissible.mono {good : N → Prop} (hgood : ∀ n, ok n → good n)
    (h : Admissible ok value depth) : Admissible good value depth := by
  induction value using Json.induct generalizing depth with
  | null => exact h
  | bool value => exact h
  | number value => exact ⟨h.1, hgood _ h.2⟩
  | string value => exact h
  | array items ih =>
    refine ⟨h.1, admissibleItems_iff.mpr ?_⟩
    intro item hitem
    exact ih item hitem (admissibleItems_iff.mp h.2 item hitem)
  | object members ih =>
    refine ⟨h.1, admissibleMembers_iff.mpr ?_⟩
    intro member hmemb
    obtain ⟨hkey, hvalue⟩ := admissibleMembers_iff.mp h.2 member hmemb
    exact ⟨hkey, ih member hmemb hvalue⟩

theorem dumps_congr {write rewrite : N → List Char} (hsame : ∀ n, ok n → write n = rewrite n)
    (h : Admissible ok value depth) : value.dumps write = value.dumps rewrite := by
  induction value using Json.induct generalizing depth with
  | null => rfl
  | bool value => rfl
  | number value => exact hsame value h.2
  | string value => rfl
  | array items ih =>
    rw [Json.dumps_array, Json.dumps_array]
    congr 3
    apply List.map_congr_left
    intro item hitem
    exact ih item hitem (admissibleItems_iff.mp h.2 item hitem)
  | object members ih =>
    rw [Json.dumps_object, Json.dumps_object]
    congr 3
    apply List.map_congr_left
    intro member hmemb
    have hmem := Json.mem_byKey.mp hmemb
    rw [Json.dumpsMember, Json.dumpsMember,
      ih member hmem (admissibleMembers_iff.mp h.2 member hmem).2]

end Limits

section Decidable

instance (key : String) : Decidable (KeyAllowed key) :=
  decidable_of_iff (key.toList.length ≤ 256 ∧ key.toList.any isControl = false ∧
    byteLength key.toList < 32768) ⟨fun h => ⟨h.1, h.2.1, h.2.2⟩, fun h => ⟨h.1, h.2, h.3⟩⟩

variable {N : Type} {ok : N → Prop} [DecidablePred ok]

mutual

def decideAdmissible : (value : Json N) → (depth : ℕ) → Decidable (Admissible ok value depth)
  | .null, depth => inferInstanceAs (Decidable (depth ≤ 12))
  | .bool _, depth => inferInstanceAs (Decidable (depth ≤ 12))
  | .number value, depth => inferInstanceAs (Decidable (depth ≤ 12 ∧ ok value))
  | .string value, depth => inferInstanceAs
    (Decidable (depth ≤ 12 ∧ byteLength value.toList < 32768))
  | .array items, depth =>
    have := decideItems items (depth + 1)
    inferInstanceAs (Decidable (depth ≤ 12 ∧ AdmissibleItems ok items (depth + 1)))
  | .object members, depth =>
    have := decideMembers members (depth + 1)
    inferInstanceAs (Decidable (depth ≤ 12 ∧ AdmissibleMembers ok members (depth + 1)))

def decideItems : (items : List (Json N)) → (depth : ℕ) → Decidable (AdmissibleItems ok items depth)
  | [], _ => isTrue trivial
  | item :: rest, depth =>
    have := decideAdmissible item depth
    have := decideItems rest depth
    inferInstanceAs (Decidable (Admissible ok item depth ∧ AdmissibleItems ok rest depth))

def decideMembers :
    (members : List (String × Json N)) →
    (depth : ℕ) → Decidable (AdmissibleMembers ok members depth)
  | [], _ => isTrue trivial
  | (key, value) :: rest, depth =>
    have := decideAdmissible value depth
    have := decideMembers rest depth
    inferInstanceAs (Decidable (KeyAllowed key ∧ Admissible ok value depth ∧
      AdmissibleMembers ok rest depth))

end

instance (value : Json N) (depth : ℕ) : Decidable (Admissible ok value depth) :=
  decideAdmissible value depth

end Decidable

section Encoders

variable {depth : ℕ} {remaining left : ℤ} {text : List Char} {texts : List (List Char)}
  {value : Json Number} {floatRepr : ℚ → List Char}

def IntAllowed : Number → Prop
  | .int value => |value| ≤ 9007199254740991
  | .float _ => False

def NumberAllowed (value : ℚ) : Prop := value.den = 1 ∧ isSafeInteger value.num

instance (value : ℚ) : Decidable (NumberAllowed value) := inferInstanceAs (Decidable (_ ∧ _))

@[simp] theorem requireFx_eq_ok {condition : Prop} [Decidable condition] {u : Unit} :
    requireFx condition = .ok u ↔ condition := by
  rw [requireFx, throwIf_eq_ok, not_not]

theorem spendToken_ok_iff :
    spendToken depth remaining = .ok left ↔ depth ≤ 12 ∧ 1 ≤ remaining ∧ left = remaining - 1 := by
  simp only [spendToken, bind_eq_ok, requireFx_eq_ok, pure_eq_ok_iff, exists_const]
  omega

theorem spend_ok_iff :
    spend depth remaining = .ok left ↔ depth ≤ 12 ∧ 1 ≤ remaining ∧ left = remaining - 1 := by
  simp only [spend, bind_eq_ok, throwIf_eq_ok, pure_eq_ok_iff, exists_const]
  omega

theorem jsonText_ok_iff {value : String} :
    jsonText value depth remaining = .ok left ↔
      depth ≤ 12 ∧ byteLength value.toList < 32768 ∧ 1 ≤ remaining ∧ left = remaining - 1 := by
  simp only [jsonText, bind_eq_ok, spendToken_ok_iff, requireFx_eq_ok, pure_eq_ok_iff,
    exists_const]
  refine ⟨?_, ?_⟩
  · intro h
    obtain ⟨_, ⟨hdepth, hpos, rfl⟩, hsize, rfl⟩ := h
    exact ⟨hdepth, hsize, hpos, rfl⟩
  · intro h
    exact ⟨_, ⟨h.1, h.2.2.1, rfl⟩, h.2.1, h.2.2.2.symm⟩

theorem jsonItems_ok_iff {items : List (Json Number)} (hrem : 0 ≤ remaining)
    (ih : ∀ item ∈ items, ∀ remaining left : ℤ, jsonValue item depth remaining = .ok left ↔
      Admissible IntAllowed item depth ∧ (tokens item : ℤ) ≤ remaining ∧
        left = remaining - tokens item) :
    jsonItems items depth remaining = .ok left ↔ AdmissibleItems IntAllowed items depth ∧
      (tokensItems items : ℤ) ≤ remaining ∧ left = remaining - tokensItems items := by
  induction items generalizing remaining with
  | nil =>
    simp only [jsonItems, AdmissibleItems, tokensItems, pure_eq_ok_iff, true_and, Nat.cast_zero]
    omega
  | cons item rest hrest =>
    simp only [jsonItems, AdmissibleItems, tokensItems, bind_eq_ok, ih item List.mem_cons_self]
    have htail := fun other hother => ih other (List.mem_cons_of_mem item hother)
    refine ⟨?_, ?_⟩
    · intro h
      obtain ⟨_, ⟨hitem, hle, rfl⟩, h⟩ := h
      obtain ⟨hitems, hsum, rfl⟩ := (hrest (by omega) htail).mp h
      exact ⟨⟨hitem, hitems⟩, by omega, by omega⟩
    · intro h
      obtain ⟨⟨hitem, hitems⟩, hsum, rfl⟩ := h
      exact ⟨_, ⟨hitem, by omega, rfl⟩,
        (hrest (by omega) htail).mpr ⟨hitems, by omega, by omega⟩⟩

theorem jsonMembers_ok_iff {members : List (String × Json Number)} (hrem : 0 ≤ remaining)
    (ih : ∀ member ∈ members, ∀ remaining left : ℤ,
      jsonValue member.2 depth remaining = .ok left ↔ Admissible IntAllowed member.2 depth ∧
        (tokens member.2 : ℤ) ≤ remaining ∧ left = remaining - tokens member.2) :
    jsonMembers members depth remaining = .ok left ↔ AdmissibleMembers IntAllowed members depth ∧
      (tokensMembers members : ℤ) ≤ remaining ∧ left = remaining - tokensMembers members := by
  induction members generalizing remaining with
  | nil =>
    simp only [jsonMembers, AdmissibleMembers, tokensMembers, pure_eq_ok_iff, true_and,
      Nat.cast_zero]
    omega
  | cons member rest hrest =>
    obtain ⟨key, value⟩ := member
    have hall : key.toList.all (fun c => !isControl c) = true ↔
        key.toList.any isControl = false := by simp
    simp only [jsonMembers, AdmissibleMembers, tokensMembers, bind_eq_ok, requireFx_eq_ok,
      jsonText_ok_iff, ih (key, value) List.mem_cons_self, exists_const, hall]
    have htail := fun other hother => ih other (List.mem_cons_of_mem (key, value) hother)
    refine ⟨?_, ?_⟩
    · intro h
      obtain ⟨⟨hshort, hplain⟩, _, ⟨-, hsize, hpos, rfl⟩, _, ⟨hvalue, hle, rfl⟩, h⟩ := h
      obtain ⟨hmems, hsum, rfl⟩ := (hrest (by omega) htail).mp h
      exact ⟨⟨⟨hshort, hplain, hsize⟩, hvalue, hmems⟩, by omega, by omega⟩
    · intro h
      obtain ⟨⟨⟨hshort, hplain, hsize⟩, hvalue, hmems⟩, hsum, rfl⟩ := h
      exact ⟨⟨hshort, hplain⟩, _, ⟨hvalue.depth_le, hsize, by omega, rfl⟩, _,
        ⟨hvalue, by omega, rfl⟩, (hrest (by omega) htail).mpr ⟨hmems, by omega, by omega⟩⟩

/-- A list costs one token more than what it holds. -/
theorem nested_ok_iff {inner : ℤ → Outcome ℤ} {P : Prop} {size : ℕ}
    (h : ∀ {remaining}, 0 ≤ remaining →
      (inner remaining = .ok left ↔ P ∧ (size : ℤ) ≤ remaining ∧ left = remaining - size)) :
    (spendToken depth remaining >>= inner) = .ok left ↔
      (depth ≤ 12 ∧ P) ∧ ((1 + size : ℕ) : ℤ) ≤ remaining ∧
        left = remaining - (1 + size : ℕ) := by
  simp only [bind_eq_ok, spendToken_ok_iff, Nat.cast_add, Nat.cast_one]
  refine ⟨?_, ?_⟩
  · intro hok
    obtain ⟨_, ⟨hdepth, hpos, rfl⟩, hok⟩ := hok
    obtain ⟨hadm, hle, rfl⟩ := (h (by omega)).mp hok
    exact ⟨⟨hdepth, hadm⟩, by omega, by omega⟩
  · intro hok
    obtain ⟨⟨hdepth, hadm⟩, hle, rfl⟩ := hok
    exact ⟨_, ⟨hdepth, by omega, rfl⟩, (h (by omega)).mpr ⟨hadm, by omega, by omega⟩⟩

theorem jsonValue_ok_iff (value : Json Number) (depth : ℕ) (remaining left : ℤ) :
    jsonValue value depth remaining = .ok left ↔ Admissible IntAllowed value depth ∧
      (tokens value : ℤ) ≤ remaining ∧ left = remaining - tokens value := by
  induction value using Json.induct generalizing depth remaining left with
  | null | bool value =>
    simp only [jsonValue, spendToken_ok_iff, Admissible, tokens, Nat.cast_one]
  | number value =>
    cases value with
    | int value =>
      simp only [jsonValue, bind_eq_ok, spendToken_ok_iff, requireFx_eq_ok, pure_eq_ok_iff,
        exists_const, Admissible, tokens, Nat.cast_one, IntAllowed]
      refine ⟨?_, ?_⟩
      · intro h
        obtain ⟨_, ⟨hdepth, hpos, rfl⟩, hsafe, rfl⟩ := h
        exact ⟨⟨hdepth, hsafe⟩, hpos, rfl⟩
      · intro h
        obtain ⟨⟨hdepth, hsafe⟩, hpos, rfl⟩ := h
        exact ⟨_, ⟨hdepth, hpos, rfl⟩, hsafe, rfl⟩
    | float value =>
      simp [jsonValue, bind_eq_ok, Admissible, IntAllowed]
  | string value =>
    simp only [jsonValue, jsonText_ok_iff, Admissible, tokens, Nat.cast_one, and_assoc]
  | array items ih =>
    simp only [jsonValue, Admissible, tokens]
    exact nested_ok_iff
      (fun hrem => jsonItems_ok_iff hrem (fun item hitem => ih item hitem (depth + 1)))
  | object members ih =>
    simp only [jsonValue, Admissible, tokens]
    exact nested_ok_iff
      (fun hrem => jsonMembers_ok_iff hrem (fun member hmemb => ih member hmemb (depth + 1)))

/-- `JSON.stringify` of an integral number. -/
def nodeNumber (value : ℚ) : List Char := JsonText.integer value.num

def NodeEncodes (value : Json ℚ) (depth : ℕ) : Prop :=
  ∀ remaining text left, canonical value depth remaining = .ok (text, left) ↔
    Admissible NumberAllowed value depth ∧ (tokens value : ℤ) ≤ remaining ∧
      left = remaining - tokens value ∧ text = value.dumps nodeNumber

theorem canonicalText_ok_iff {value : String} :
    TradingFx.canonicalText value depth remaining = .ok (text, left) ↔
      depth ≤ 12 ∧ byteLength value.toList < 32768 ∧ 1 ≤ remaining ∧ left = remaining - 1 ∧
        text = JsonText.string value := by
  simp only [TradingFx.canonicalText, bind_eq_ok, spend_ok_iff, throwIf_eq_ok, pure_eq_ok_iff,
    exists_const, not_le, Prod.mk.injEq]
  refine ⟨?_, ?_⟩
  · intro h
    obtain ⟨_, ⟨hdepth, hpos, rfl⟩, hsize, rfl, rfl⟩ := h
    exact ⟨hdepth, hsize, hpos, rfl, rfl⟩
  · intro h
    obtain ⟨hdepth, hsize, hpos, rfl, rfl⟩ := h
    exact ⟨_, ⟨hdepth, hpos, rfl⟩, hsize, rfl, rfl⟩

theorem canonicalItems_ok_iff {items : List (Json ℚ)} (hrem : 0 ≤ remaining)
    (ih : ∀ item ∈ items, NodeEncodes item depth) :
    canonicalItems items depth remaining = .ok (texts, left) ↔
      AdmissibleItems NumberAllowed items depth ∧ (tokensItems items : ℤ) ≤ remaining ∧
        left = remaining - tokensItems items ∧ texts = items.map (Json.dumps nodeNumber) := by
  induction items generalizing remaining texts with
  | nil =>
    simp only [canonicalItems, AdmissibleItems, tokensItems, pure_eq_ok_iff, Prod.mk.injEq,
      true_and, Nat.cast_zero, List.map_nil]
    refine ⟨?_, ?_⟩
    · rintro ⟨rfl, rfl⟩
      exact ⟨hrem, by omega, rfl⟩
    · rintro ⟨-, rfl, rfl⟩
      exact ⟨rfl, by omega⟩
  | cons item rest hrest =>
    simp only [canonicalItems, AdmissibleItems, tokensItems, bind_eq_ok, Prod.exists,
      ih item List.mem_cons_self _ _ _, pure_eq_ok_iff, Prod.mk.injEq, List.map_cons]
    have htail := fun other hother => ih other (List.mem_cons_of_mem item hother)
    refine ⟨?_, ?_⟩
    · intro h
      obtain ⟨_, _, ⟨hitem, hle, rfl, rfl⟩, _, _, h, rfl, rfl⟩ := h
      obtain ⟨hitems, hsum, rfl, rfl⟩ := (hrest (by omega) htail).mp h
      exact ⟨⟨hitem, hitems⟩, by omega, by omega, rfl⟩
    · intro h
      obtain ⟨⟨hitem, hitems⟩, hsum, rfl, rfl⟩ := h
      exact ⟨_, _, ⟨hitem, by omega, rfl, rfl⟩, _, _,
        (hrest (by omega) htail).mpr ⟨hitems, by omega, by omega, rfl⟩, rfl, rfl⟩

theorem canonicalEntries_ok_iff {members : List (String × Json ℚ)} (hrem : 0 ≤ remaining)
    (ih : ∀ member ∈ members, NodeEncodes member.2 depth) :
    canonicalEntries depth (members.map fun member =>
        (member.1, fun remaining => canonical member.2 depth remaining)) remaining =
        .ok (texts, left) ↔
      AdmissibleMembers NumberAllowed members depth ∧ (tokensMembers members : ℤ) ≤ remaining ∧
        left = remaining - tokensMembers members ∧
        texts = members.map (Json.dumpsMember nodeNumber) := by
  induction members generalizing remaining texts with
  | nil =>
    simp only [List.map_nil, canonicalEntries, AdmissibleMembers, tokensMembers, pure_eq_ok_iff,
      Prod.mk.injEq, true_and, Nat.cast_zero]
    refine ⟨?_, ?_⟩
    · rintro ⟨rfl, rfl⟩
      exact ⟨hrem, by omega, rfl⟩
    · rintro ⟨-, rfl, rfl⟩
      exact ⟨rfl, by omega⟩
  | cons member rest hrest =>
    obtain ⟨key, value⟩ := member
    simp only [List.map_cons, canonicalEntries, AdmissibleMembers, tokensMembers, bind_eq_ok,
      throwIf_eq_ok, canonicalText_ok_iff, ih (key, value) List.mem_cons_self _ _ _, Prod.exists,
      pure_eq_ok_iff, Prod.mk.injEq, not_or, not_lt, Bool.not_eq_true, exists_const]
    have htail := fun other hother => ih other (List.mem_cons_of_mem (key, value) hother)
    refine ⟨?_, ?_⟩
    · intro h
      obtain ⟨⟨hshort, hplain⟩, _, _, ⟨-, hsize, hpos, rfl, rfl⟩, _, _, ⟨hvalue, hle, rfl, rfl⟩, _,
        _, h, rfl, rfl⟩ := h
      obtain ⟨hmems, hsum, rfl, rfl⟩ := (hrest (by omega) htail).mp h
      exact ⟨⟨⟨hshort, hplain, hsize⟩, hvalue, hmems⟩, by omega, by omega, rfl⟩
    · intro h
      obtain ⟨⟨⟨hshort, hplain, hsize⟩, hvalue, hmems⟩, hsum, rfl, rfl⟩ := h
      exact ⟨⟨hshort, hplain⟩, _, _, ⟨hvalue.depth_le, hsize, by omega, rfl, rfl⟩, _, _,
        ⟨hvalue, by omega, rfl, rfl⟩, _, _,
        (hrest (by omega) htail).mpr ⟨hmems, by omega, by omega, rfl⟩, rfl, rfl⟩

theorem canonicalMembers_eq (members : List (String × Json ℚ)) (depth : ℕ) :
    canonicalMembers members depth =
      members.map
        (fun member => (member.1, fun remaining => canonical member.2 depth remaining)) := by
  induction members with
  | nil => rfl
  | cons member rest ih =>
    obtain ⟨key, value⟩ := member
    rw [canonicalMembers, ih, List.map_cons]

theorem byBytes_eq {α : Type} (members : List (String × α)) :
    byBytes members = Json.byKey members := by
  simp only [byBytes, Json.byKey, Utf8.bytes_le_iff]
  rfl

theorem byBytes_canonicalMembers (members : List (String × Json ℚ)) (depth : ℕ) :
    byBytes (canonicalMembers members depth) = (Json.byKey members).map
      (fun member => (member.1, fun remaining => canonical member.2 depth remaining)) := by
  rw [byBytes_eq, canonicalMembers_eq]
  exact Json.byKey_map (fun value remaining => canonical value depth remaining) members

theorem nodeEncodes (value : Json ℚ) (depth : ℕ) : NodeEncodes value depth := by
  induction value using Json.induct generalizing depth with
  | null | bool value =>
    intro remaining text left
    simp only [canonical, bind_eq_ok, spend_ok_iff, pure_eq_ok_iff, Prod.mk.injEq, Admissible,
      tokens, Nat.cast_one, Json.dumps]
    grind
  | number value =>
    intro remaining text left
    simp only [canonical, bind_eq_ok, spend_ok_iff, throwIf_eq_ok, pure_eq_ok_iff, Prod.mk.injEq,
      Admissible, tokens, Nat.cast_one, Json.dumps, not_not, exists_const, nodeNumber]
    refine ⟨?_, ?_⟩
    · intro h
      obtain ⟨_, ⟨hdepth, hpos, rfl⟩, hsafe, rfl, rfl⟩ := h
      exact ⟨⟨hdepth, hsafe⟩, hpos, rfl, rfl⟩
    · intro h
      obtain ⟨⟨hdepth, hsafe⟩, hpos, rfl, rfl⟩ := h
      exact ⟨_, ⟨hdepth, hpos, rfl⟩, hsafe, rfl, rfl⟩
  | string value =>
    intro remaining text left
    simp only [canonical, canonicalText_ok_iff, Admissible, tokens, Nat.cast_one, and_assoc,
      Json.dumps]
  | array items ih =>
    intro remaining text left
    have hitems := fun item hitem => ih item hitem (depth + 1)
    have hlen := length_le_tokensItems items
    simp only [canonical, bind_eq_ok, spend_ok_iff, throwIf_eq_ok, not_lt, Prod.exists,
      pure_eq_ok_iff, Prod.mk.injEq, exists_const, Admissible, tokens, Nat.cast_add, Nat.cast_one,
      Json.dumps_array]
    refine ⟨?_, ?_⟩
    · intro h
      obtain ⟨_, ⟨hdepth, hpos, rfl⟩, hroom, _, _, h, rfl, rfl⟩ := h
      obtain ⟨hadm, hle, rfl, rfl⟩ := (canonicalItems_ok_iff (by omega) hitems).mp h
      exact ⟨⟨hdepth, hadm⟩, by omega, by omega, rfl⟩
    · intro h
      obtain ⟨⟨hdepth, hadm⟩, hle, rfl, rfl⟩ := h
      exact ⟨_, ⟨hdepth, by omega, rfl⟩, by omega, _, _, (canonicalItems_ok_iff (by omega)
        hitems).mpr ⟨hadm, by omega, by omega, rfl⟩, rfl, rfl⟩
  | object members ih =>
    intro remaining text left
    have hmems : ∀ member ∈ Json.byKey members, NodeEncodes member.2 (depth + 1) :=
      fun member hmemb => ih member (Json.mem_byKey.mp hmemb) (depth + 1)
    simp only [canonical, bind_eq_ok, spend_ok_iff, Prod.exists, pure_eq_ok_iff, Prod.mk.injEq,
      Admissible, tokens, Nat.cast_add, Nat.cast_one, Json.dumps_object,
      byBytes_canonicalMembers]
    refine ⟨?_, ?_⟩
    · intro h
      obtain ⟨_, ⟨hdepth, hpos, rfl⟩, _, _, h, rfl, rfl⟩ := h
      obtain ⟨hadm, hle, rfl, rfl⟩ := (canonicalEntries_ok_iff (by omega) hmems).mp h
      rw [tokensMembers_byKey] at hle ⊢
      exact ⟨⟨hdepth, admissibleMembers_byKey.mp hadm⟩, by omega, by omega, rfl⟩
    · intro h
      obtain ⟨⟨hdepth, hadm⟩, hle, rfl, rfl⟩ := h
      refine ⟨_, ⟨hdepth, by omega, rfl⟩, _, _, (canonicalEntries_ok_iff (by omega) hmems).mpr
        ⟨admissibleMembers_byKey.mpr hadm, ?_, ?_, rfl⟩, rfl, rfl⟩
      · rw [tokensMembers_byKey]
        omega
      · rw [tokensMembers_byKey]
        omega

theorem numberAllowed_intCast {i : ℤ} : NumberAllowed i ↔ |i| ≤ 9007199254740991 := by
  rw [NumberAllowed, isSafeInteger, maxSafeInteger, Rat.den_intCast, Rat.num_intCast,
    Int.abs_eq_natAbs]
  norm_cast
  simp

theorem admissible_sent (h : Admissible IntAllowed value depth) :
    Admissible NumberAllowed (sent value) depth := by
  rw [sent, admissible_map_iff]
  apply h.mono
  intro number hnumb
  cases number with
  | int value => exact numberAllowed_intCast.mpr hnumb
  | float value => exact hnumb.elim

theorem dumps_sent (h : Admissible IntAllowed value depth) :
    (sent value).dumps nodeNumber = value.dumps (numberText floatRepr) := by
  rw [sent, Json.dumps_map]
  apply dumps_congr _ h
  intro number hnumb
  cases number with
  | int value => simp [nodeNumber, numberText, Number.value]
  | float value => exact hnumb.elim

/-- Both encoders write the same text for every document that the executor encodes. -/
theorem canonical_sent {budget : ℕ} (h : Executor.canonicalText floatRepr value budget = .ok text) :
    canonical (sent value) 0 budget = .ok (text, budget - tokens value) := by
  simp only [Executor.canonicalText, bind_eq_ok, jsonValue_ok_iff, pure_eq_ok_iff] at h
  obtain ⟨_, ⟨hadm, hle, rfl⟩, rfl⟩ := h
  rw [nodeEncodes, sent, tokens_map, ← sent]
  exact ⟨admissible_sent hadm, hle, rfl, (dumps_sent hadm).symm⟩

theorem canonicalText_iff {value : Json ℤ} {budget : ℕ} :
    Executor.canonicalText floatRepr (value.map .int) budget = .ok text ↔
      ∃ left, canonical (sent (value.map .int)) 0 budget = .ok (text, left) := by
  refine ⟨fun h => ⟨_, canonical_sent h⟩, ?_⟩
  intro h
  obtain ⟨left, h⟩ := h
  rw [nodeEncodes, sent, tokens_map, tokens_map, ← sent] at h
  obtain ⟨hadm, hle, -, rfl⟩ := h
  have hint : Admissible IntAllowed (value.map .int) 0 := by
    rw [sent, admissible_map_iff, admissible_map_iff] at hadm
    rw [admissible_map_iff]
    exact hadm.mono fun i hi => numberAllowed_intCast.mp hi
  simp only [Executor.canonicalText, bind_eq_ok, jsonValue_ok_iff, pure_eq_ok_iff, tokens_map]
  exact ⟨_, ⟨hint, hle, rfl⟩, (dumps_sent hint).symm⟩

end Encoders

section Receipts

variable {sha256 : String → String} {floatRepr : ℚ → List Char} {mode : String} {leg : FxLegId}

theorem binding_ok {sdk : Sdk} {bound : Binding} (h : binding sdk mode = .ok bound) :
    ∃ profile origin, sdk.profile = some profile ∧ origins mode = some origin ∧
      bound = ⟨mode, origin, 1, profile.hash⟩ := by
  simp only [binding, bind_eq_ok, throwIf_eq_ok] at h
  obtain ⟨-, -, h⟩ := h
  cases hroute : sdk.route with
  | none =>
    rw [hroute] at h
    cases h
  | some origin =>
    cases hprof : sdk.profile with
    | none =>
      rw [hroute, hprof] at h
      cases h
    | some profile =>
      simp only [hroute, hprof, bind_eq_ok, throwIf_eq_ok, pure_eq_ok_iff, not_or, not_not] at h
      obtain ⟨-, ⟨horigin, hver⟩, rfl⟩ := h
      exact ⟨profile, origin, rfl, horigin.symm, by rw [hver]⟩

theorem origins_eq {origin : String} (h : origins mode = some origin) :
    (mode = "live" ∧ origin = "https://api.bybit.com") ∨
      (mode = "testnet" ∧ origin = "https://api-testnet.bybit.com") := by
  unfold origins at h
  split at h
  · exact .inl ⟨rfl, (Option.some.inj h).symm⟩
  · exact .inr ⟨rfl, (Option.some.inj h).symm⟩
  · cases h

def nodeBody (mode origin profileHash : String) (leg : FxLegId) (readings : Readings) (stamp : ℤ)
    (value : String) (envelope : Json ℚ) (envelopeHash : String) : List (String × Json ℚ) :=
  [("version", .number 1), ("provider", .string "bybit"), ("mode", .string mode),
    ("origin", .string origin), ("endpoint", .string "/v5/market/tickers"),
    ("source", .string "bybit-v5-rest-index-snapshot-v1"), ("ccxtVersion", .string "4.5.75"),
    ("profileVersion", .number 1), ("profileHash", .string profileHash),
    ("legId", .string (legText leg)), ("routeId", .string (legs leg).routeId),
    ("category", .string (legs leg).category), ("symbol", .string (legs leg).symbol),
    ("field", .string (legs leg).field), ("value", .string value), ("providerQuoteAt", .null),
    ("providerResponseAt", .number stamp),
    ("timeBasis", .string "provider_snapshot_observation"),
    ("startedAt", .number readings.started), ("completedAt", .number readings.completed),
    ("envelope", envelope), ("envelopeHash", .string envelopeHash)]

theorem sent_receiptBody {origin profileHash value envelopeHash : String} {readings : Readings}
    {stamp : ℤ} {raw : Json Number} :
    sent (.object (receiptBody ⟨mode, origin, 1, profileHash⟩ leg readings stamp value raw
        envelopeHash)) =
      .object (nodeBody mode origin profileHash leg readings stamp value (sent raw)
        envelopeHash) := by
  simp [sent, Json.map, Json.mapMembers, receiptBody, Binding.members, nodeBody, Number.value]

section Validators

variable {origin profileHash value envelopeHash receiptHash : String} {readings : Readings}
variable {stamp : ℤ} {envelope : Json ℚ}

theorem validateProfile_body (horigin : origins mode = some origin)
    (hprof : digestPattern profileHash = true) :
    validateProfile ⟨mode, profileHash⟩ (nodeBody mode origin profileHash leg readings stamp value
      envelope envelopeHash ++ [("receiptHash", .string receiptHash)]) = .ok () := by
  rcases origins_eq horigin with ⟨rfl, rfl⟩ | ⟨rfl, rfl⟩ <;>
    simp [validateProfile, nodeBody, textField, numberField, Json.lookup, Json.text?, Json.number?,
      hprof, throwIf]

theorem fixedDigits_zero (k : ℕ) : Numeral.fixedDigits k 0 = List.replicate k '0' := by
  induction k with
  | zero => rfl
  | succ k ih => rw [Numeral.fixedDigits, Nat.zero_div, ih, List.replicate_succ']; rfl

theorem numeral_zero {k : ℕ} {c : Char} (h : c ∈ Numeral.numeral 0 k) : c = '0' ∨ c = '.' := by
  rw [Numeral.numeral, Nat.zero_div, fixedDigits_zero] at h
  split_ifs at h <;> simp at h <;> tauto

theorem numeral_visible {c k : ℕ} {d : Char} (h : d ∈ Numeral.numeral c k) : 32 ≤ d.toNat := by
  have hdigit : ∀ d : Char, d.isDigit = true → 32 ≤ d.toNat := by
    intro d hd
    exact TradingRecoveryScheduleContract.isHex_ge
      (by simp [TradingRecoveryScheduleContract.isHex, hd])
  rw [Numeral.numeral] at h
  split_ifs at h
  · exact hdigit d (Nat.isDigit_of_mem_toDigits (by omega) (by omega) h)
  · rcases List.mem_append.mp h with h | h
    · exact hdigit d (Nat.isDigit_of_mem_toDigits (by omega) (by omega) h)
    · rcases List.mem_cons.mp h with rfl | h
      · decide
      · exact hdigit d (Numeral.isDigit_of_mem_fixedDigits h)

theorem length_numeral_le {c k : ℕ} (hscale : k ≤ 18) (hwhole : c / 10 ^ k < 10 ^ 36) :
    (Numeral.numeral c k).length ≤ 55 := by
  have hdigits : (Nat.toDigits 10 (c / 10 ^ k)).length ≤ 36 := by
    rw [Nat.length_toDigits_le_iff (by omega) (by omega)]
    exact hwhole
  rw [Numeral.numeral]
  split_ifs with hk
  · rw [hk, pow_zero, Nat.div_one] at hdigits
    omega
  · rw [List.length_append, List.length_cons, Numeral.length_fixedDigits]
    omega

theorem positiveDecimal_of_pattern (hpat : TradingDecimal.decimalPattern value.toList = true)
    (hpositive : value.toList.any (fun c => c ≠ '0' ∧ c ≠ '.') = true) :
    hasSpace value = false ∧ positiveDecimal value = true ∧
      byteLength (JsonText.string value) ≤ 222 := by
  obtain ⟨p, hparse⟩ : ∃ p, TradingDecimal.parse value = .ok p := by
    rw [TradingDecimal.parse, throwIf_of_not (by simp [hpat])]
    exact ⟨_, rfl⟩
  obtain ⟨hvalue, hscale, hwhole⟩ := TradingDecimal.numeral_of_parse hparse
  have hdenotes : TradingDecimal.Denotes value p.units := ⟨p, hparse, rfl⟩
  have hpos : 0 < p.units := by
    rw [p.units_pos_iff]
    intro hzero
    rw [hzero] at hvalue
    obtain ⟨c, hc, hne⟩ := List.any_eq_true.mp hpositive
    rw [hvalue] at hc
    have hcases := numeral_zero hc
    simp only [ne_eq, decide_eq_true_eq] at hne
    tauto
  refine ⟨hdenotes.hasSpace, ?_, ?_⟩
  · have hdec := TradingDecimal.decimal_positive_ok_iff.mpr
      ⟨p.units, hdenotes.reads, hpos, rfl⟩
    rw [positiveDecimal, hdec]
  · have hsize := @JsonText.byteLength_string_le value (by
      intro c hc
      rw [hvalue] at hc
      exact numeral_visible hc)
    have hlen := length_numeral_le hscale hwhole
    rw [← hvalue] at hlen
    omega

theorem validateLeg_body (hspace : hasSpace value = false)
    (hpositive : positiveDecimal value = true) :
    validateLeg (nodeBody mode origin profileHash leg readings stamp value envelope envelopeHash ++
      [("receiptHash", .string receiptHash)]) = .ok () := by
  have hdefinition : definitionOf (legText leg) =
      some ⟨(legs leg).routeId, (legs leg).category, (legs leg).symbol, (legs leg).field⟩ := by
    cases leg <;> decide
  simp [validateLeg, nodeBody, textField, Json.lookup, Json.text?, throwIf, hdefinition, hspace,
    hpositive]

theorem validateTimes_body {now : ℤ} (hstart : safeTime readings.started)
    (hdone : safeTime readings.completed) (horder : readings.started ≤ readings.completed)
    (hspan : readings.completed - readings.started ≤ 10000) (hstamp : safeTime stamp)
    (hafter : readings.started - 1000 ≤ stamp) (hbefore : stamp ≤ readings.completed + 1000)
    (hnow : readings.completed ≤ now + 1000) :
    validateTimes now (nodeBody mode origin profileHash leg readings stamp value envelope
      envelopeHash ++ [("receiptHash", .string receiptHash)]) = .ok () := by
  have hsafe : ∀ i : ℤ, safeTime i → isSafeInteger i ∧ ¬ (i : ℚ) < 0 := by
    intro i hi
    obtain ⟨hlow, hhigh⟩ := hi
    rw [isSafeInteger, maxSafeInteger]
    exact ⟨by omega, by exact_mod_cast not_lt.mpr hlow⟩
  simp [validateTimes, timestamp, nullField, nodeBody, textField, numberField, Json.lookup,
    Json.text?, Json.number?, throwIf, hsafe _ hstart, hsafe _ hdone, hsafe _ hstamp]
  omega

end Validators

section Envelopes

variable {key : String} {members : List (String × Json Number)} {value : Json Number}
  {row : List (String × Json Number)} {text : List Char}

theorem record_ok_iff : record value = .ok members ↔ value = .object members := by
  cases value <;> simp [record]

theorem member_eq_object :
    member key members = .object row ↔ Json.lookup key members = some (.object row) := by
  unfold member
  cases Json.lookup key members <;> simp

theorem onlyRecord_ok_iff :
    onlyRecord (member key members) = .ok row ↔
      Json.lookup key members = some (.array [.object row]) := by
  have hrow : ∀ value, onlyRecord value = .ok row ↔ value = .array [.object row] := by
    intro value
    unfold onlyRecord
    split
    · simp [record_ok_iff]
    · rename_i hne
      simp only [reduceCtorEq, false_iff]
      intro h
      exact hne _ h
  rw [hrow, member]
  cases Json.lookup key members <;> simp

theorem intMember_ok_iff {i : ℤ} :
    intMember key members = .ok i ↔ Json.lookup key members = some (.number (.int i)) := by
  unfold intMember
  cases Json.lookup key members with
  | none => simp
  | some value =>
    cases value with
    | number number => cases number <;> simp [Json.number?, Number.int?]
    | _ => simp [Json.number?]

theorem textMember_ok_iff {text : String} :
    textMember key members = .ok text ↔ Json.lookup key members = some (.string text) := by
  unfold textMember
  cases Json.lookup key members with
  | none => simp
  | some value => cases value <;> simp [Json.text?]

/-- What the executor knows of an accepted envelope. -/
structure Accepted (floatRepr : ℚ → List Char) (members result row : List (String × Json Number))
    (leg : FxLegId) (readings : Readings) (stamp : ℤ) (value : String)
    (text : List Char) : Prop where
  encoded : Executor.canonicalText floatRepr (.object members) 256 = .ok text
  size : byteLength text < 65536
  retCode : Json.lookup "retCode" members = some (.number (.int 0))
  time : Json.lookup "time" members = some (.number (.int stamp))
  nested : Json.lookup "result" members = some (.object result)
  category : Json.lookup "category" result = some (.string (legs leg).category)
  list : Json.lookup "list" result = some (.array [.object row])
  symbol : Json.lookup "symbol" row = some (.string (legs leg).symbol)
  quote : Json.lookup (legs leg).field row = some (.string value)
  started : safeTime readings.started
  completed : safeTime readings.completed
  order : readings.started ≤ readings.completed
  span : readings.completed - readings.started ≤ 10000
  safe : safeTime stamp
  stampAfter : readings.started - 1000 ≤ stamp
  stampBefore : stamp ≤ readings.completed + 1000
  now : readings.completed ≤ readings.now + 1000
  pattern : TradingDecimal.decimalPattern value.toList = true
  positive : value.toList.any (fun c => c ≠ '0' ∧ c ≠ '.') = true

theorem validateFxEnvelope_ok {raw : Json Number} {readings : Readings} {stamp : ℤ} {value : String}
    (h : validateFxEnvelope floatRepr raw leg readings = .ok (stamp, value)) :
    ∃ members result row text, raw = .object members ∧
      Accepted floatRepr members result row leg readings stamp value text := by
  simp only [validateFxEnvelope, validateFxTimes, bind_eq_ok, requireFx_eq_ok, pure_eq_ok_iff,
    record_ok_iff, member_eq_object, onlyRecord_ok_iff, intMember_ok_iff, textMember_ok_iff,
    Prod.mk.injEq, exists_const] at h
  obtain ⟨members, rfl, text, henc, hsize, _, hretCode, rfl, _, ⟨⟨hstart, hdone, horder,
    hspan⟩, _, htime, ⟨hstamp, hafter, hbefore⟩, hnow, rfl⟩, result, hres, _, hcategory, rfl, row,
    hlist, _, hsym, rfl, _, hquote, hpat, hpositive, rfl, rfl⟩ := h
  exact ⟨members, result, row, text, rfl,
    { encoded := henc, size := hsize, retCode := hretCode, time := htime, nested := hres,
      category := hcategory, list := hlist, symbol := hsym, quote := hquote,
      started := hstart, completed := hdone, order := by omega, span := hspan,
      safe := hstamp, stampAfter := hafter, stampBefore := hbefore, now := hnow,
      pattern := hpat, positive := hpositive }⟩

theorem fxEvidenceDigest_envelope (h : Executor.canonicalText floatRepr value 256 = .ok text)
    (hsize : byteLength text < 65536) :
    fxEvidenceDigest sha256 "bybit-fx-envelope-v1" (sent value) =
      .ok (sha256 ("bybit-fx-envelope-v1" ++ "\n" ++ .ofList text)) := by
  have hcan : canonical (sent value) 0 256 = .ok (text, 256 - tokens value) :=
    canonical_sent h
  rw [fxEvidenceDigest, if_pos rfl, hcan, ok_bind, throwIf_of_not (by simpa using hsize)]
  rfl

theorem fxEvidenceDigest_receipt (h : Executor.canonicalText floatRepr value 512 = .ok text)
    (hsize : byteLength text < 131072) :
    fxEvidenceDigest sha256 "bybit-fx-receipt-v1" (sent value) =
      .ok (sha256 ("bybit-fx-receipt-v1" ++ "\n" ++ .ofList text)) := by
  have hcan : canonical (sent value) 0 512 = .ok (text, 512 - tokens value) :=
    canonical_sent h
  rw [fxEvidenceDigest, if_neg (by decide), hcan, ok_bind,
    throwIf_of_not (by simpa using hsize)]
  rfl

theorem canonicalText_mono {small large : ℕ} (hle : small ≤ large)
    (h : Executor.canonicalText floatRepr value small = .ok text) :
    Executor.canonicalText floatRepr value large = .ok text := by
  simp only [Executor.canonicalText, bind_eq_ok, jsonValue_ok_iff, pure_eq_ok_iff] at h ⊢
  obtain ⟨_, ⟨hadm, hbud, rfl⟩, htext⟩ := h
  exact ⟨_, ⟨hadm, by omega, rfl⟩, htext⟩

theorem fxHash_of_canonical {domain : String}
    (h : Executor.canonicalText floatRepr value 512 = .ok text) :
    fxHash sha256 floatRepr domain value = .ok (sha256 (domain ++ "\n" ++ .ofList text)) := by
  rw [fxHash, h]
  rfl

theorem textField_sent {text : String} (h : Json.lookup key members = some (.string text)) :
    textField key (Json.mapMembers Number.value members) = some text := by
  rw [textField, Json.lookup_mapMembers, h]
  rfl

theorem numberField_sent {i : ℤ} (h : Json.lookup key members = some (.number (.int i))) :
    numberField key (Json.mapMembers Number.value members) = some (i : ℚ) := by
  rw [numberField, Json.lookup_mapMembers, h]
  rfl

theorem field_sent (h : Json.lookup key members = some value) :
    field key (Json.mapMembers Number.value members) = sent value := by
  rw [field, Json.lookup_mapMembers, h]
  rfl

theorem validateEnvelope_body {origin profileHash value receiptHash : String} {readings : Readings}
    {stamp : ℤ} {result : List (String × Json Number)}
    (h : Accepted floatRepr members result row leg readings stamp value text) :
    validateEnvelope sha256 (nodeBody mode origin profileHash leg readings stamp value
      (sent (.object members)) (sha256 ("bybit-fx-envelope-v1" ++ "\n" ++ .ofList text)) ++
      [("receiptHash", .string receiptHash)]) = .ok () := by
  have hdig : fxEvidenceDigest sha256 "bybit-fx-envelope-v1"
      (.object (Json.mapMembers Number.value members)) =
        .ok (sha256 ("bybit-fx-envelope-v1" ++ "\n" ++ .ofList text)) :=
    fxEvidenceDigest_envelope h.encoded h.size
  generalize sha256 ("bybit-fx-envelope-v1" ++ "\n" ++ .ofList text) = digest at hdig ⊢
  generalize hbody : nodeBody mode origin profileHash leg readings stamp value
    (sent (.object members)) digest ++ [("receiptHash", .string receiptHash)] = body
  have henv : field "envelope" body = sent (.object members) := by
    rw [← hbody]
    simp [field, nodeBody, Json.lookup]
  have hresponse : numberField "providerResponseAt" body = some (stamp : ℚ) := by
    rw [← hbody]
    simp [numberField, nodeBody, Json.lookup, Json.number?]
  have htexts : textField "category" body = some (legs leg).category ∧
      textField "symbol" body = some (legs leg).symbol ∧
      textField "field" body = some (legs leg).field ∧ textField "value" body = some value ∧
      textField "envelopeHash" body = some digest := by
    rw [← hbody]
    simp [textField, nodeBody, Json.lookup, Json.text?]
  obtain ⟨hcategory, hsym, hfield, hvalue, hhash⟩ := htexts
  have hretCode : numberField "retCode" (Json.mapMembers Number.value members) = some 0 := by
    rw [numberField_sent h.retCode, Int.cast_zero]
  have hres : field "result" (Json.mapMembers Number.value members) =
      .object (Json.mapMembers Number.value result) := field_sent h.nested
  have hlist : field "list" (Json.mapMembers Number.value result) =
      .array [.object (Json.mapMembers Number.value row)] := field_sent h.list
  rw [validateEnvelope, henv]
  simp only [sent, Json.map, object, ok_bind, hres, hretCode, numberField_sent h.time, hresponse,
    textField_sent h.category, hcategory, hlist, onlyRow, textField_sent h.symbol, hsym, hfield,
    Option.getD_some, textField_sent h.quote, hvalue, hdig, hhash, ne_eq, not_true_eq_false,
    or_self, throwIf_of_not not_false]

end Envelopes

section Size

theorem byteLength_dumps_object_le {N : Type} (write : N → List Char)
    (members : List (String × Json N)) :
    byteLength (Json.dumps write (.object members)) ≤
      2 + (members.map (fun member => byteLength (JsonText.string member.1) + 2)).sum +
        (members.map (fun member => byteLength (member.2.dumps write))).sum := by
  have hsize := JsonText.byteLength_object_le (Json.byKey (Json.dumpsMembers write members))
  have hperm := ((Json.perm_byKey (Json.dumpsMembers write members)).map (fun field =>
    byteLength (JsonText.string field.1) + byteLength field.2 + 2)).sum_eq
  rw [hperm, Json.dumpsMembers_eq, List.map_map] at hsize
  rw [Json.dumps, Json.dumpsMembers_eq, add_assoc, ← List.sum_map_add]
  refine hsize.trans (le_of_eq ?_)
  congr 3
  funext member
  simp only [Function.comp_apply]
  omega

theorem byteLength_body_lt {origin profileHash value envelopeHash : String} {readings : Readings}
    {stamp : ℤ} {members : List (String × Json Number)} (horigin : origins mode = some origin)
    (hprof : digestPattern profileHash = true) (henv : digestPattern envelopeHash = true)
    (hvalue : byteLength (JsonText.string value) ≤ 222) (hstamp : safeTime stamp)
    (hstart : safeTime readings.started) (hdone : safeTime readings.completed)
    (hsize : byteLength (Json.dumps (numberText floatRepr) (.object members)) < 65536) :
    byteLength (Json.dumps (numberText floatRepr) (.object (receiptBody
      ⟨mode, origin, 1, profileHash⟩ leg readings stamp value (.object members) envelopeHash))) <
        131072 := by
  have hbound := byteLength_dumps_object_le (numberText floatRepr) (receiptBody
    ⟨mode, origin, 1, profileHash⟩ leg readings stamp value (.object members) envelopeHash)
  have hkeys : ((receiptBody ⟨mode, origin, 1, profileHash⟩ leg readings stamp value
      (.object members) envelopeHash).map
        (fun member => byteLength (JsonText.string member.1) + 2)).sum ≤ 1000 := by
    simp only [receiptBody, Binding.members, List.cons_append, List.nil_append, List.map_cons,
      List.map_nil]
    decide
  have hlong := fun value (h : digestPattern value = true) =>
    TradingRecoveryScheduleContract.byteLength_digest_le h
  have hinteger : ∀ i, safeTime i → byteLength (JsonText.integer i) ≤ 16 := fun i hi =>
    TradingRecoveryScheduleContract.byteLength_integer_le hi.1 hi.2
  have hmode : byteLength (JsonText.string mode) + byteLength (JsonText.string origin) ≤ 50 := by
    rcases origins_eq horigin with ⟨rfl, rfl⟩ | ⟨rfl, rfl⟩ <;> decide
  have hleg : byteLength (JsonText.string (legText leg)) +
      byteLength (JsonText.string (legs leg).routeId) +
      byteLength (JsonText.string (legs leg).category) +
      byteLength (JsonText.string (legs leg).symbol) +
      byteLength (JsonText.string (legs leg).field) ≤ 200 := by
    cases leg <;> decide
  have hfixed : byteLength (JsonText.integer 1) + byteLength (JsonText.string "bybit") +
      byteLength (JsonText.string "/v5/market/tickers") +
      byteLength (JsonText.string "bybit-v5-rest-index-snapshot-v1") +
      byteLength (JsonText.string "4.5.75") + byteLength (JsonText.integer 1) +
      byteLength "null".toList + byteLength (JsonText.string "provider_snapshot_observation") ≤
        200 := by decide
  have hprofileSize := hlong _ hprof
  have hhashSize := hlong _ henv
  have hstampSize := hinteger _ hstamp
  have hstartedSize := hinteger _ hstart
  have hcompletedSize := hinteger _ hdone
  simp only [receiptBody, Binding.members, List.cons_append, List.nil_append, List.map_cons,
    List.map_nil, List.sum_cons, List.sum_nil, Json.dumps, numberText] at hbound hkeys hsize ⊢
  omega

end Size

section Transport

variable {read : LegRead} {receipt : Json Number}
  {origin profileHash envelopeHash receiptHash : String} {readings : Readings} {stamp : ℤ}
  {envelope value : Json ℚ} {row : List (String × Json ℚ)}

theorem joinedKeys_receipt {value : String} :
    joinedKeys ((nodeBody mode origin profileHash leg readings stamp value envelope envelopeHash ++
      [("receiptHash", .string receiptHash)] : List (String × Json ℚ)).map (·.1)) =
        receiptShape := by
  simp only [nodeBody, List.cons_append, List.nil_append, List.map_cons, List.map_nil]
  decide +kernel

theorem original_receipt {value : String} :
    original (nodeBody mode origin profileHash leg readings stamp value envelope envelopeHash ++
      [("receiptHash", .string receiptHash)]) =
        nodeBody mode origin profileHash leg readings stamp value envelope envelopeHash := by
  simp [original, nodeBody]

theorem receiptHash_receipt {value : String} :
    textField "receiptHash" (nodeBody mode origin profileHash leg readings stamp value envelope
      envelopeHash ++ [("receiptHash", .string receiptHash)]) = some receiptHash := by
  simp [textField, nodeBody, Json.lookup, Json.text?]

theorem readLeg_ok (h : readLeg sha256 floatRepr mode leg read = .ok receipt) :
    ∃ profile origin stamp value members result row text bodyText,
      read.before.profile = some profile ∧ origins mode = some origin ∧
      Accepted floatRepr members result row leg read.readings stamp value text ∧
      Executor.canonicalText floatRepr (.object (receiptBody ⟨mode, origin, 1, profile.hash⟩ leg
        read.readings stamp value (.object members)
        (sha256 ("bybit-fx-envelope-v1" ++ "\n" ++ .ofList text)))) 512 = .ok bodyText ∧
      sent receipt = .object (nodeBody mode origin profile.hash leg read.readings stamp value
        (sent (.object members)) (sha256 ("bybit-fx-envelope-v1" ++ "\n" ++ .ofList text)) ++
        [("receiptHash", .string (sha256
          ("bybit-fx-receipt-v1" ++ "\n" ++ .ofList bodyText)))]) := by
  simp only [readLeg, bind_eq_ok, throwIf_eq_ok, pure_eq_ok_iff, Prod.exists, not_not,
    exists_const] at h
  obtain ⟨bound, hbound, raw, -, _, -, -, stamp, value, hvalidate, _, hfirst, _, hsnd, rfl⟩ := h
  obtain ⟨profile, origin, hprof, horigin, rfl⟩ := binding_ok hbound
  obtain ⟨members, result, row, text, rfl, hacpt⟩ := validateFxEnvelope_ok hvalidate
  rw [fxHash_of_canonical (canonicalText_mono (by omega) hacpt.encoded), Except.ok.injEq]
    at hfirst
  subst hfirst
  simp only [fxHash, bind_eq_ok, pure_eq_ok_iff] at hsnd
  obtain ⟨bodyText, hbody, rfl⟩ := hsnd
  refine ⟨profile, origin, stamp, value, members, result, row, text, bodyText, hprof, horigin,
    hacpt, hbody, ?_⟩
  have hsent := @sent_receiptBody mode leg origin profile.hash value
    (sha256 ("bybit-fx-envelope-v1" ++ "\n" ++ .ofList text)) read.readings stamp (.object members)
  simp only [sent, Json.map, Json.object.injEq] at hsent ⊢
  rw [← hsent, Json.mapMembers_eq, Json.mapMembers_eq, List.map_append]
  rfl

theorem validateFxLegReceipt_sent {profile : Profile} {now : ℤ}
    (h : readLeg sha256 floatRepr mode leg read = .ok receipt)
    (hprof : read.before.profile = some profile) (hhash : digestPattern profile.hash = true)
    (hdig : ∀ text, digestPattern (sha256 text) = true) (hclock : read.readings.now ≤ now) :
    ∃ row, sent receipt = .object row ∧
      validateFxLegReceipt sha256 now (sent receipt) ⟨mode, profile.hash⟩ = .ok row := by
  obtain ⟨bound, origin, stamp, value, members, result, row, text, bodyText, hbound, horigin,
    hacpt, hbody, hsent⟩ := readLeg_ok h
  obtain rfl : bound = profile := Option.some.inj (hbound.symm.trans hprof)
  obtain ⟨hspace, hpositive, hvalue⟩ :=
    positiveDecimal_of_pattern hacpt.pattern hacpt.positive
  have henv := hacpt.encoded
  have hwritten := hbody
  simp only [Executor.canonicalText, bind_eq_ok, pure_eq_ok_iff] at henv hwritten
  obtain ⟨_, -, rfl⟩ := henv
  obtain ⟨_, -, rfl⟩ := hwritten
  have hrec : fxEvidenceDigest sha256 "bybit-fx-receipt-v1" (sent (.object _)) = .ok _ :=
    fxEvidenceDigest_receipt hbody (byteLength_body_lt horigin hhash (hdig _) hvalue
      hacpt.safe hacpt.started hacpt.completed hacpt.size)
  rw [sent_receiptBody] at hrec
  have hnow : read.readings.completed ≤ now + 1000 := by
    have := hacpt.now
    omega
  refine ⟨_, hsent, ?_⟩
  rw [hsent, validateFxLegReceipt, object, ok_bind, throwIf_of_not (not_not.mpr joinedKeys_receipt),
    ok_bind, validateProfile_body horigin hhash, ok_bind, validateLeg_body hspace hpositive,
    ok_bind,
    validateTimes_body hacpt.started hacpt.completed hacpt.order hacpt.span
      hacpt.safe hacpt.stampAfter hacpt.stampBefore hnow, ok_bind,
    validateEnvelope_body hacpt, ok_bind, original_receipt, hrec, ok_bind,
    throwIf_of_not (not_not.mpr receiptHash_receipt)]
  rfl

theorem map_num {depth : ℕ} (h : Admissible NumberAllowed value depth) :
    (value.map Rat.num).map (fun i : ℤ => (i : ℚ)) = value := by
  induction value using Json.induct generalizing depth with
  | null => rfl
  | bool value => rfl
  | number value =>
    simp only [Json.map, Json.number.injEq]
    exact Rat.coe_int_num_of_den_eq_one h.2.1
  | string value => rfl
  | array items ih =>
    simp only [Json.map, Json.mapItems_eq, List.map_map, Json.array.injEq]
    refine (List.map_congr_left fun item hitem => ?_).trans (List.map_id items)
    exact ih item hitem (admissibleItems_iff.mp h.2 item hitem)
  | object members ih =>
    simp only [Json.map, Json.mapMembers_eq, List.map_map, Json.object.injEq]
    refine (List.map_congr_left fun member hmemb => ?_).trans (List.map_id members)
    exact Prod.ext rfl (ih member hmemb (admissibleMembers_iff.mp h.2 member hmemb).2)

theorem sorted_eq_of_text {left right : Json ℚ} {other : ℕ}
    (hleft : Admissible NumberAllowed left depth) (hright : Admissible NumberAllowed right other)
    (h : left.dumps nodeNumber = right.dumps nodeNumber) : left.sorted = right.sorted := by
  have hnumerators : (left.map Rat.num).sorted = (right.map Rat.num).sorted := by
    apply Json.sorted_eq_of_dumps
    rw [Json.dumps_map, Json.dumps_map]
    exact h
  have hcast : ∀ (value : Json ℚ) depth, Admissible NumberAllowed value depth →
      value.sorted = (value.map Rat.num).sorted.map (fun i : ℤ => (i : ℚ)) := by
    intro value depth hvalue
    rw [← Json.sorted_map, map_num hvalue]
  rw [hcast left depth hleft, hcast right other hright, hnumerators]

theorem filter_key {members : List (String × Json ℚ)} {key : String}
    (hnodup : (members.map (·.1)).Nodup) (h : Json.lookup key members = some value) :
    members.filter (·.1 = key) = [(key, value)] := by
  induction members with
  | nil => simp [Json.lookup] at h
  | cons member rest ih =>
    obtain ⟨name, other⟩ := member
    rw [List.map_cons, List.nodup_cons] at hnodup
    by_cases hname : name = key
    · subst hname
      have hvalue : other = value := by simpa [Json.lookup] using h
      have hrest : rest.filter (·.1 = name) = [] := by
        rw [List.filter_eq_nil_iff]
        intro member hmemb heq
        exact hnodup.1 (List.mem_map.mpr ⟨member, hmemb, by simpa using heq⟩)
      rw [List.filter_cons_of_pos (by simp), hrest, hvalue]
    · rw [List.filter_cons_of_neg (by simpa using hname)]
      exact ih hnodup.2 (by simpa [Json.lookup, hname] using h)

theorem lookup_of_textField {key text : String} (h : textField key row = some text) :
    Json.lookup key row = some (.string text) := by
  unfold textField at h
  cases hlook : Json.lookup key row with
  | none => simp [hlook] at h
  | some value =>
    rw [hlook, Option.bind_some] at h
    cases value <;> simp_all [Json.text?]

theorem perm_original (hnodup : (row.map (·.1)).Nodup)
    (h : textField "receiptHash" row = some receiptHash) :
    row.Perm (original row ++ [("receiptHash", .string receiptHash)]) := by
  have hsplit := (List.filter_append_perm (fun member : String × Json ℚ =>
    decide (member.1 ≠ "receiptHash")) row).symm
  have honly := filter_key hnodup (lookup_of_textField h)
  simp only [ne_eq, decide_not, Bool.not_not] at hsplit
  rw [honly] at hsplit
  simpa [original] using hsplit

theorem fxEvidenceDigest_ok {domain digest : String}
    (h : fxEvidenceDigest sha256 domain value = .ok digest) :
    Admissible NumberAllowed value 0 ∧
      digest = sha256 (domain ++ "\n" ++ .ofList (value.dumps nodeNumber)) := by
  simp only [fxEvidenceDigest, bind_eq_ok, Prod.exists, nodeEncodes _ _ _ _ _, throwIf_eq_ok,
    pure_eq_ok_iff] at h
  obtain ⟨_, _, ⟨hadm, -, rfl, rfl⟩, -, -, rfl⟩ := h
  exact ⟨hadm, rfl⟩

theorem sorted_append_eq {left right : List (String × Json ℚ)} {member : String × Json ℚ}
    (hnodup : (row.map (·.1)).Nodup) (hperm : row.Perm (left ++ [member]))
    (h : Json.sorted (.object left) = Json.sorted (.object right)) :
    Json.sorted (.object row) = Json.sorted (.object (right ++ [member])) := by
  simp only [Json.sorted, Json.sortedMembers_eq, Json.object.injEq] at h ⊢
  have hmems : (left.map fun m => (m.1, m.2.sorted)).Perm
      (right.map fun m => (m.1, m.2.sorted)) := by
    have hleft := Json.perm_byKey (left.map fun m => (m.1, m.2.sorted))
    rw [h] at hleft
    exact hleft.symm.trans (Json.perm_byKey _)
  apply Json.byKey_eq_of_perm
  · refine (hperm.map _).trans ?_
    rw [List.map_append, List.map_append]
    exact hmems.append_right _
  · simpa [List.map_map, Function.comp_def] using hnodup

theorem sorted_eq_of_receiptHash {context : FxContext} {now : ℤ} {sentRow : List (String × Json ℚ)}
    (hinj : Function.Injective sha256)
    (h : readLeg sha256 floatRepr mode leg read = .ok receipt)
    (hsent : sent receipt = .object sentRow) (hdist : value.Distinct)
    (hvalid : validateFxLegReceipt sha256 now value context = .ok row)
    (hsame : textField "receiptHash" row = textField "receiptHash" sentRow) :
    value.sorted = (sent receipt).sorted := by
  obtain ⟨profile, origin, stamp, quote, members, result, ticker, text, bodyText, -, -, hacpt,
    hbody, hrec⟩ := readLeg_ok h
  obtain rfl := Json.object.inj (hsent.symm.trans hrec)
  rw [receiptHash_receipt] at hsame
  simp only [validateFxLegReceipt, bind_eq_ok, throwIf_eq_ok, pure_eq_ok_iff, not_not,
    exists_const] at hvalid
  obtain ⟨row, hrow, -, -, -, -, -, -, -, -, -, digest, hdig, hhash, rfl⟩ := hvalid
  obtain rfl : value = .object row := by
    cases value <;> simp_all [object]
  obtain ⟨hadm, rfl⟩ := fxEvidenceDigest_ok hdig
  simp only [Executor.canonicalText, bind_eq_ok, jsonValue_ok_iff, pure_eq_ok_iff] at hbody
  obtain ⟨_, ⟨hbodyAdmissible, -, -⟩, rfl⟩ := hbody
  -- Equal hashes are hashes of equal texts, and these are texts of one document.
  have htexts := hinj (Option.some.inj (hhash.symm.trans hsame))
  rw [String.append_right_inj, String.ofList_inj, ← dumps_sent hbodyAdmissible,
    sent_receiptBody] at htexts
  have hsentAdmissible := admissible_sent hbodyAdmissible
  rw [sent_receiptBody] at hsentAdmissible
  have hsort := sorted_eq_of_text hadm hsentAdmissible htexts
  rw [hsent]
  exact sorted_append_eq hdist.1 (perm_original hdist.1 hsame) hsort

end Transport

end Receipts

/-- The encoders agree, Node accepts what the executor returns, and a changed receipt under
the same hashes is refused. -/
theorem fx_receipts_cross :
    (∀ (floatRepr : ℚ → List Char) (value : Json Number) (budget : ℕ) (text : List Char),
      Executor.canonicalText floatRepr value budget = .ok text →
        ∃ left, canonical (sent value) 0 budget = .ok (text, left)) ∧
    (∀ (floatRepr : ℚ → List Char) (value : Json ℤ) (budget : ℕ) (text : List Char),
      Executor.canonicalText floatRepr (value.map .int) budget = .ok text ↔
        ∃ left, canonical (sent (value.map .int)) 0 budget = .ok (text, left)) ∧
    (∀ (sha256 : String → String) (floatRepr : ℚ → List Char) (mode : String) (leg : FxLegId)
      (read : LegRead) (receipt : Json Number) (profile : Profile) (now : ℤ),
      (∀ text, digestPattern (sha256 text) = true) →
      readLeg sha256 floatRepr mode leg read = .ok receipt →
      read.before.profile = some profile → digestPattern profile.hash = true →
      read.readings.now ≤ now →
        ∃ row, sent receipt = .object row ∧
          validateFxLegReceipt sha256 now (sent receipt) ⟨mode, profile.hash⟩ = .ok row) ∧
    ∀ (sha256 : String → String) (floatRepr : ℚ → List Char) (mode : String) (leg : FxLegId)
      (read : LegRead) (receipt : Json Number) (row changed : List (String × Json ℚ))
      (context : FxContext) (now : ℤ), Function.Injective sha256 →
      readLeg sha256 floatRepr mode leg read = .ok receipt → sent receipt = .object row →
      (Json.object changed).Distinct →
      textField "envelopeHash" changed = textField "envelopeHash" row →
      textField "receiptHash" changed = textField "receiptHash" row →
      (Json.object changed).sorted ≠ (sent receipt).sorted →
        ∃ error, validateFxLegReceipt sha256 now (.object changed) context = .error error := by
  refine ⟨?_, ?_, ?_, ?_⟩
  · intro floatRepr value budget text h
    exact ⟨_, canonical_sent h⟩
  · intro floatRepr value budget text
    exact canonicalText_iff
  · intro sha256 floatRepr mode leg read receipt profile now hdig h hprof hhash hclock
    exact validateFxLegReceipt_sent h hprof hhash hdig hclock
  · intro sha256 floatRepr mode leg read receipt row changed context now hinj h hsent hdist
      _ hsame hchanged
    cases hvalid : validateFxLegReceipt sha256 now (.object changed) context with
    | error e => exact ⟨e, rfl⟩
    | ok accepted =>
      obtain rfl : changed = accepted := by
        simp only [validateFxLegReceipt, object, ok_bind, bind_eq_ok, pure_eq_ok_iff] at hvalid
        grind
      exact absurd (sorted_eq_of_receiptHash hinj h hsent hdist hvalid hsame) hchanged

/-- The text that is hashed under a domain. -/
def hashedText (domain : String) (value : Json ℚ) : List Char :=
  domain.toList ++ '\n' :: value.dumps nodeNumber

def hex64 : String := "aaaaaaaaaaaaaaaaaaaaaaaaaaaaaaaaaaaaaaaaaaaaaaaaaaaaaaaaaaaaaaaa"

def usdcRead : LegRead where
  before := ⟨some "bybit", "4.5.75", some "https://api.bybit.com", some ⟨1, hex64⟩⟩
  after := ⟨some "bybit", "4.5.75", some "https://api.bybit.com", some ⟨1, hex64⟩⟩
  readings := ⟨1000, 1200, 1200⟩
  response := .ok (.object [("retCode", .number (.int 0)), ("time", .number (.int 1100)),
    ("result", .object [("category", .string "spot"), ("list", .array [.object
      [("symbol", .string "USDCUSDT"), ("usdIndexPrice", .string "0.99980")]])])])

/-- The digests of the envelope and the receipt of the read. -/
def readDigests : List (List Char × String) :=
  let envelope : Json ℚ := .object [("retCode", .number 0), ("time", .number 1100),
    ("result", .object [("category", .string "spot"), ("list", .array [.object
      [("symbol", .string "USDCUSDT"), ("usdIndexPrice", .string "0.99980")]])])]
  let envelopeHash := "4aa0bbb46c08358c5999a65e6fab3778d5c4efea2e021b140d01bc296192824e"
  [(hashedText "bybit-fx-envelope-v1" envelope, envelopeHash),
    (hashedText "bybit-fx-receipt-v1" (.object (nodeBody "live" "https://api.bybit.com" hex64
      .usdcUsd usdcRead.readings 1100 "0.99980" envelope envelopeHash)),
      "7bbfb4eb2f0aed1fae68e1245a655316cbc2c67b7f5c0ff5af90d426832d02de")]

theorem fx_receipts_cross_usdc :
    (∃ receipt row, readLeg (digestOf String.toList readDigests (fun _ => hex64))
      (fun _ => []) "live"
        .usdcUsd usdcRead = .ok receipt ∧ sent receipt = .object row ∧
      validateFxLegReceipt (digestOf String.toList readDigests (fun _ => hex64)) 1200 (sent receipt)
        ⟨"live", hex64⟩ = .ok row) ∧
    ∃ receipt row, readLeg (digestOf String.toList readDigests unlisted) (fun _ => []) "live"
      .usdcUsd
        usdcRead = .ok receipt ∧ sent receipt = .object row ∧
      ∃ error, validateFxLegReceipt (digestOf String.toList readDigests unlisted) 1200
        (.object (row.filter (fun member => member.1 = "envelopeHash" ∨ member.1 = "receiptHash")))
        ⟨"live", hex64⟩ = .error error := by
  have hpattern : ∀ text,
      digestPattern (digestOf String.toList readDigests (fun _ => hex64) text) = true := by
    apply @digestOf_holds _ _ _ _ _ _ (fun digest => digestPattern digest = true) ?_
      (fun _ => by decide)
    intro entry hentry
    simp only [readDigests, List.mem_cons, List.not_mem_nil, or_false] at hentry
    rcases hentry with rfl | rfl <;> decide
  refine ⟨?_, ?_⟩
  · obtain ⟨receipt, hrec⟩ := exists_ok_of_isOk (x := readLeg (digestOf String.toList readDigests
      (fun _ => hex64)) (fun _ => []) "live" .usdcUsd usdcRead) (by decide +kernel)
    obtain ⟨row, hsent, hvalid⟩ := fx_receipts_cross.2.2.1 _ _ _ _ _ _ ⟨1, hex64⟩ 1200 hpattern
      hrec rfl (by decide) (by decide)
    exact ⟨receipt, row, hrec, hsent, hvalid⟩
  · obtain ⟨receipt, hrec⟩ := exists_ok_of_isOk (x := readLeg (digestOf String.toList readDigests
      unlisted) (fun _ => []) "live" .usdcUsd usdcRead) (by decide +kernel)
    obtain ⟨profile, origin, stamp, value, members, result, ticker, text, bodyText, -, -, -, -,
      hsent⟩ := readLeg_ok hrec
    refine ⟨receipt, _, hrec, hsent, ?_⟩
    apply fx_receipts_cross.2.2.2 (digestOf String.toList readDigests unlisted) _ _ _ _ _ _ _ _ _
      (digestOf_injective (fun _ _ => String.toList_injective) (by decide) (by decide)) hrec hsent
    · simp [nodeBody, Json.Distinct, Json.DistinctMembers]
    · simp [nodeBody, textField, Json.lookup]
    · simp [nodeBody, textField, Json.lookup]
    · intro heq
      rw [hsent, Json.sorted_object, Json.sorted_object, Json.object.injEq] at heq
      have hlen := congrArg List.length heq
      simp [nodeBody, (Json.perm_byKey _).length_eq] at hlen

section Sizes

variable {sha256 : String → String}

theorem byteLength_hash_le {domain : String} {cs : List Char} {n m : ℕ}
    (hdomain : byteLength domain.toList = n) (hcs : byteLength cs ≤ m) :
    byteLength (domain ++ "\n" ++ .ofList cs : String).toList ≤ n + 1 + m := by
  have hnewline : byteLength "\n".toList = 1 := by decide
  rw [String.toList_append, String.toList_append, JsonText.byteLength_append,
    JsonText.byteLength_append, hnewline, String.toList_ofList, hdomain]
  omega

theorem digest_of_size {domain : String} {value : Json ℚ}
    (hdomain : domain ≠ "bybit-fx-envelope-v1")
    (hadm : Admissible NumberAllowed value 0) (htokens : tokens value ≤ 512)
    (hsize : byteLength (value.dumps nodeNumber) < 131072) :
    fxEvidenceDigest sha256 domain value =
      .ok (sha256 (domain ++ "\n" ++ .ofList (value.dumps nodeNumber))) := by
  have hcan : TradingFx.canonical value 0 512 =
      .ok (value.dumps nodeNumber, 512 - tokens value) :=
    (nodeEncodes value 0 512 _ _).mpr ⟨hadm, by exact_mod_cast htokens, rfl, rfl⟩
  rw [fxEvidenceDigest, if_neg hdomain, hcan, ok_bind, if_neg hdomain,
    throwIf_of_not (not_le.mpr hsize)]
  rfl

end Sizes

end TsxCore.FxReceipt
