import TsxCore.Json
import TsxCore.JsonText
import TsxCore.RationalValue
import Mathlib.Data.String.Basic

/-!
# Canonical JSON texts

`dumps` writes a value without spaces and with the members of every object in the
order of their keys. The text determines the value up to the order of members:
`sorted` puts the members of every object in order, and values with the same text
have the same `sorted` form.
-/

namespace TsxCore.Json

open JsonText

variable {N M : Type} {α β : Type}

/-- Induction over a value and the values in it. -/
@[elab_as_elim]
theorem induct {motive : Json N → Prop} (null : motive .null)
    (bool : ∀ value, motive (.bool value)) (number : ∀ value, motive (.number value))
    (string : ∀ value, motive (.string value))
    (array : ∀ items, (∀ item ∈ items, motive item) → motive (.array items))
    (object : ∀ members, (∀ member ∈ members, motive member.2) → motive (.object members))
    (value : Json N) : motive value := by
  refine @Json.rec N motive (fun items => ∀ item ∈ items, motive item)
    (fun members => ∀ member ∈ members, motive member.2) (fun member => motive member.2)
    null bool number string array object ?_ ?_ ?_ ?_ ?_ value
  · simp
  · intro head tail hhead htail item hitem
    rcases List.mem_cons.mp hitem with rfl | hitem
    · exact hhead
    · exact htail item hitem
  · simp
  · intro head tail hhead htail member hmemb
    rcases List.mem_cons.mp hmemb with rfl | hmemb
    · exact hhead
    · exact htail member hmemb
  · intro key value hvalue
    exact hvalue

section Order

def keyLe (left right : String × α) : Prop := left.1 ≤ right.1

instance (left right : String × α) : Decidable (keyLe left right) :=
  inferInstanceAs (Decidable (left.1 ≤ right.1))

instance : Std.Total (@keyLe α) := ⟨fun left right => le_total left.1 right.1⟩

instance : IsTrans (String × α) keyLe := ⟨fun _ _ _ hab hbc => le_trans hab hbc⟩

def byKey (members : List (String × α)) : List (String × α) := members.insertionSort keyLe

theorem perm_byKey (members : List (String × α)) : (byKey members).Perm members :=
  List.perm_insertionSort keyLe members

theorem mem_byKey {members : List (String × α)} {member : String × α} :
    member ∈ byKey members ↔ member ∈ members := (perm_byKey members).mem_iff

theorem byKey_map (f : α → β) (members : List (String × α)) :
    byKey (members.map (fun member => (member.1, f member.2))) =
      (byKey members).map (fun member => (member.1, f member.2)) := by
  symm
  apply List.map_insertionSort
  intros
  rfl

theorem pairwise_byKey (members : List (String × α)) : (byKey members).Pairwise keyLe :=
  List.pairwise_insertionSort keyLe members

theorem byKey_eq_of_perm {left right : List (String × α)} (h : left.Perm right)
    (hdist : (left.map (·.1)).Nodup) : byKey left = byKey right := by
  refine List.Perm.eq_of_pairwise ?_ (pairwise_byKey left) (pairwise_byKey right)
    ((perm_byKey left).trans (h.trans (perm_byKey right).symm))
  intro a b ha hb hab hba
  have ha' : a ∈ left := mem_byKey.mp ha
  have hb' : b ∈ left := h.mem_iff.mpr (mem_byKey.mp hb)
  exact List.inj_on_of_nodup_map hdist ha' hb' (le_antisymm hab hba)

mutual

def sorted : Json N → Json N
  | .array items => .array (sortedItems items)
  | .object members => .object (byKey (sortedMembers members))
  | .null => .null
  | .bool value => .bool value
  | .number value => .number value
  | .string value => .string value

def sortedItems : List (Json N) → List (Json N)
  | [] => []
  | item :: rest => item.sorted :: sortedItems rest

def sortedMembers : List (String × Json N) → List (String × Json N)
  | [] => []
  | (key, value) :: rest => (key, value.sorted) :: sortedMembers rest

end

theorem sortedItems_eq (items : List (Json N)) : sortedItems items = items.map sorted := by
  induction items with
  | nil => rfl
  | cons item rest ih => rw [sortedItems, ih, List.map_cons]

theorem sortedMembers_eq (members : List (String × Json N)) :
    sortedMembers members = members.map (fun member => (member.1, member.2.sorted)) := by
  induction members with
  | nil => rfl
  | cons member rest ih =>
    obtain ⟨key, value⟩ := member
    rw [sortedMembers, ih, List.map_cons]

theorem sorted_object (members : List (String × Json N)) :
    sorted (.object members) =
      .object ((byKey members).map (fun member => (member.1, member.2.sorted))) := by
  rw [sorted, sortedMembers_eq, byKey_map]

theorem mapItems_eq (f : N → M) (items : List (Json N)) :
    mapItems f items = items.map (·.map f) := by
  induction items with
  | nil => rfl
  | cons item rest ih => rw [mapItems, ih, List.map_cons]

theorem sorted_map (f : N → M) (value : Json N) : (value.map f).sorted = value.sorted.map f := by
  induction value using induct with
  | null => rfl
  | bool value => rfl
  | number value => rfl
  | string value => rfl
  | array items ih =>
    simp only [map, sorted, sortedItems_eq, mapItems_eq, List.map_map, array.injEq]
    exact List.map_congr_left ih
  | object members ih =>
    simp only [map, sorted_object, mapMembers_eq, byKey_map, List.map_map, object.injEq]
    apply List.map_congr_left
    intro member hmemb
    exact Prod.ext rfl (ih member (mem_byKey.mp hmemb))

end Order

mutual

/-- The text of a value, with numbers written by `number`. -/
def dumps (number : N → List Char) : Json N → List Char
  | .null => "null".toList
  | .bool value => if value then "true".toList else "false".toList
  | .number value => number value
  | .string value => JsonText.string value
  | .array items => JsonText.array (dumpsItems number items)
  | .object members => JsonText.object (byKey (dumpsMembers number members))

def dumpsItems (number : N → List Char) : List (Json N) → List (List Char)
  | [] => []
  | item :: rest => item.dumps number :: dumpsItems number rest

def dumpsMembers (number : N → List Char) : List (String × Json N) → List (String × List Char)
  | [] => []
  | (key, value) :: rest => (key, value.dumps number) :: dumpsMembers number rest

end

section Texts

variable {number : N → List Char}

theorem dumpsItems_eq (items : List (Json N)) :
    dumpsItems number items = items.map (dumps number) := by
  induction items with
  | nil => rfl
  | cons item rest ih => rw [dumpsItems, ih, List.map_cons]

theorem dumpsMembers_eq (members : List (String × Json N)) :
    dumpsMembers number members = members.map
      (fun member => (member.1, member.2.dumps number)) := by
  induction members with
  | nil => rfl
  | cons member rest ih =>
    obtain ⟨key, value⟩ := member
    rw [dumpsMembers, ih, List.map_cons]

def dumpsMember (number : N → List Char) (member : String × Json N) : List Char :=
  JsonText.string member.1 ++ ':' :: member.2.dumps number

theorem dumps_array (items : List (Json N)) :
    dumps number (.array items) = '[' :: joined (items.map (dumps number)) ++ [']'] := by
  rw [dumps, dumpsItems_eq, JsonText.array]

theorem dumps_object (members : List (String × Json N)) :
    dumps number (.object members) =
      '\x7b' :: joined ((byKey members).map (dumpsMember number)) ++ ['\x7d'] := by
  rw [dumps, dumpsMembers_eq, byKey_map, JsonText.object, List.map_map]
  rfl

theorem dumps_map (f : M → N) (value : Json M) :
    (value.map f).dumps number = value.dumps (number ∘ f) := by
  induction value using induct with
  | null => rfl
  | bool value => rfl
  | number value => rfl
  | string value => rfl
  | array items ih =>
    rw [map, dumps_array, dumps_array, mapItems_eq, List.map_map]
    congr 3
    exact List.map_congr_left ih
  | object members ih =>
    rw [map, dumps_object, dumps_object, mapMembers_eq, byKey_map, List.map_map]
    congr 3
    apply List.map_congr_left
    intro member hmemb
    simp only [Function.comp_apply, dumpsMember, ih member (mem_byKey.mp hmemb)]

end Texts

section Reading

variable {s t : List Char}

def Delimited : List Char → Prop
  | [] => True
  | c :: _ => c = ',' ∨ c = ']' ∨ c = '\x7d'

def hexValue (c : Char) : ℕ := if c.isDigit then c.toNat - 48 else c.toNat - 87

/-- The first character of an escaped text and what follows it. -/
def unescape : List Char → Option (Char × List Char)
  | '\\' :: 'u' :: _ :: _ :: a :: b :: rest =>
    some (Char.ofNat (16 * hexValue a + hexValue b), rest)
  | '\\' :: c :: rest =>
    some (if c = 'b' then .ofNat 8 else if c = 't' then .ofNat 9 else if c = 'n' then .ofNat 10
      else if c = 'f' then .ofNat 12 else if c = 'r' then .ofNat 13 else c, rest)
  | c :: rest => some (c, rest)
  | [] => none

theorem unescape_escape (c : Char) (rest : List Char) :
    unescape (escape c ++ rest) = some (c, rest) := by
  have hcode : ∀ n, c.toNat = n → Char.ofNat n = c := by
    rintro n rfl
    exact Char.ofNat_toNat c
  have hhex : ∀ n < 32, 16 * hexValue (Nat.digitChar (n / 16)) +
      hexValue (Nat.digitChar (n % 16)) = n := by decide
  unfold escape
  split_ifs with hquote hslash hb ht hn hf hr hcontrol
  · rw [hquote]
    rfl
  · rw [hslash]
    rfl
  · rw [← hcode 8 hb]
    rfl
  · rw [← hcode 9 ht]
    rfl
  · rw [← hcode 10 hn]
    rfl
  · rw [← hcode 12 hf]
    rfl
  · rw [← hcode 13 hr]
    rfl
  · simp only [hexDigits, List.cons_append, List.nil_append, unescape, hhex _ hcontrol,
      Char.ofNat_toNat]
  · simp only [List.cons_append, List.nil_append]
    rw [unescape]
    · intro a ha
      simp_all
    · intro a ha
      simp_all

theorem head_escape (c : Char) : (escape c).head? ≠ some '"' := by
  unfold escape
  split_ifs with hquote <;> simp_all

theorem escape_ne_nil (c : Char) : escape c ≠ [] := by
  unfold escape
  split_ifs <;> simp

theorem escapes_unique {cs ds x y : List Char}
    (h : cs.flatMap escape ++ '"' :: x = ds.flatMap escape ++ '"' :: y) : cs = ds ∧ x = y := by
  have hquote : ∀ (c : Char) (l r : List Char), '"' :: l ≠ escape c ++ r := by
    intro c l r heq
    have hhead := congrArg List.head? heq
    rw [List.head?_append_of_ne_nil _ (escape_ne_nil c)] at hhead
    exact head_escape c hhead.symm
  induction cs generalizing ds with
  | nil =>
    cases ds with
    | nil => simpa using h
    | cons d ds =>
      rw [List.flatMap_cons, List.append_assoc] at h
      exact absurd h (hquote d _ _)
  | cons c cs ih =>
    cases ds with
    | nil =>
      rw [List.flatMap_cons, List.append_assoc] at h
      exact absurd h.symm (hquote c _ _)
    | cons d ds =>
      have hread := congrArg unescape h
      simp only [List.flatMap_cons, List.append_assoc, unescape_escape, Option.some.injEq,
        Prod.mk.injEq] at hread
      obtain ⟨rfl, htail⟩ := hread
      obtain ⟨rfl, hrest⟩ := ih htail
      exact ⟨rfl, hrest⟩

theorem string_unique {s t : String} {x y : List Char}
    (h : JsonText.string s ++ x = JsonText.string t ++ y) : s = t ∧ x = y := by
  simp only [JsonText.string, List.cons_append, List.append_assoc, List.nil_append,
    List.cons.injEq, true_and] at h
  obtain ⟨hchars, hrest⟩ := escapes_unique h
  exact ⟨String.toList_injective hchars, hrest⟩

def isNumeric (c : Char) : Bool := c == '-' || c.isDigit

theorem integer_numeric (i : ℤ) : ∀ c ∈ integer i, isNumeric c = true := by
  have hdigits : ∀ n : ℕ, ∀ c ∈ Nat.toDigits 10 n, isNumeric c = true := by
    intro n c hc
    simp [isNumeric, Nat.isDigit_of_mem_toDigits (by omega) (by omega) hc]
  intro c hc
  rw [integer, bigintText] at hc
  split_ifs at hc
  · simp only [String.toList_append, String.toList_ofList, List.mem_append] at hc
    rcases hc with hc | hc
    · have hminus : c = '-' := by simpa using hc
      rw [hminus]
      rfl
    · exact hdigits _ c hc
  · exact hdigits _ c (by simpa using hc)

theorem takeWhile_integer {i : ℤ} (hs : Delimited s) :
    (integer i ++ s).takeWhile isNumeric = integer i := by
  rw [List.takeWhile_append_of_pos (integer_numeric i)]
  cases s with
  | nil => simp
  | cons c s =>
    have hc : isNumeric c = false := by
      rcases hs with rfl | rfl | rfl <;> decide
    rw [List.takeWhile_cons_of_neg (by simp [hc]), List.append_nil]

theorem integer_unique {i j : ℤ} (hs : Delimited s) (ht : Delimited t)
    (h : integer i ++ s = integer j ++ t) : i = j ∧ s = t := by
  have hsame : integer i = integer j := by
    rw [← takeWhile_integer (i := i) hs, h, takeWhile_integer ht]
  have hint : bigintText i = bigintText j := String.toList_injective hsame
  refine ⟨?_, ?_⟩
  · rw [← TradingRational.bigint_bigintText i, hint, TradingRational.bigint_bigintText]
  · rw [hsame] at h
    exact List.append_cancel_left h

/-- The text of `left` is told apart from that of `right` by `form`. -/
def Reads (text : α → List Char) (form : α → β) (left right : α) : Prop :=
  ∀ s t, Delimited s → Delimited t → text left ++ s = text right ++ t →
    form left = form right ∧ s = t

/-- No text starts with the closing bracket `close`. -/
def Opens (text : α → List Char) (close : Char) : Prop :=
  ∀ a, ∃ c cs, text a = c :: cs ∧ c ≠ close

theorem joined_unique {text : α → List Char} {form : α → β} {close : Char}
    (hclose : ∀ s, Delimited (close :: s)) (hcomma : close ≠ ',') (hopens : Opens text close)
    {left right : List α} (hreads : ∀ a ∈ left, ∀ b, Reads text form a b)
    (h : joined (left.map text) ++ close :: s = joined (right.map text) ++ close :: t) :
    left.map form = right.map form ∧ s = t := by
  have hdelimited : ∀ s, Delimited (',' :: s) := fun s => .inl rfl
  have hempty : ∀ (a : α) (rest : List α) (x y : List Char),
      close :: x ≠ joined ((a :: rest).map text) ++ y := by
    intro a rest x y heq
    obtain ⟨c, cs, htext, hne⟩ := hopens a
    cases rest <;> simp [joined, htext] at heq <;> exact hne heq.1.symm
  induction left generalizing right with
  | nil =>
    cases right with
    | nil => simpa [joined] using h
    | cons b right => exact absurd h (hempty b right _ _)
  | cons a left ih =>
    cases right with
    | nil => exact absurd h.symm (hempty a left _ _)
    | cons b right =>
      have hread := hreads a List.mem_cons_self b
      have hrest := fun c hc => hreads c (List.mem_cons_of_mem a hc)
      cases left with
      | nil =>
        cases right with
        | nil =>
          obtain ⟨hform, htail⟩ := hread _ _ (hclose s) (hclose t) (by simpa [joined] using h)
          exact ⟨by simp [hform], (List.cons.inj htail).2⟩
        | cons b' right =>
          have hsplit : text a ++ close :: s =
              text b ++ ',' :: (joined ((b' :: right).map text) ++ close :: t) := by
            simpa [joined] using h
          obtain ⟨-, htail⟩ := hread _ _ (hclose s) (hdelimited _) hsplit
          exact absurd (List.cons.inj htail).1 hcomma
      | cons a' left =>
        cases right with
        | nil =>
          have hsplit : text a ++ ',' :: (joined ((a' :: left).map text) ++ close :: s) =
              text b ++ close :: t := by
            simpa [joined] using h
          obtain ⟨-, htail⟩ := hread _ _ (hdelimited _) (hclose t) hsplit
          exact absurd (List.cons.inj htail).1.symm hcomma
        | cons b' right =>
          have hsplit : text a ++ ',' :: (joined ((a' :: left).map text) ++ close :: s) =
              text b ++ ',' :: (joined ((b' :: right).map text) ++ close :: t) := by
            simpa [joined] using h
          obtain ⟨hform, htail⟩ := hread _ _ (hdelimited _) (hdelimited _) hsplit
          obtain ⟨hforms, hend⟩ := ih hrest (List.cons.inj htail).2
          exact ⟨congrArg₂ List.cons hform hforms, hend⟩

/-- The kind of value that a text with this first character has. -/
def kindOf (c : Char) : ℕ :=
  if c = 'n' then 0 else if c = 't' ∨ c = 'f' then 1 else if c = '"' then 3
  else if c = '[' then 4 else if c = '\x7b' then 5 else 2

def kind : Json N → ℕ
  | .null => 0
  | .bool _ => 1
  | .number _ => 2
  | .string _ => 3
  | .array _ => 4
  | .object _ => 5

theorem kindOf_numeric {c : Char} (h : isNumeric c = true) :
    kindOf c = 2 ∧ c ≠ ']' ∧ c ≠ '\x7d' := by
  have hne : ∀ d, isNumeric d = false → c ≠ d := by
    rintro d hd rfl
    rw [h] at hd
    cases hd
  unfold kindOf
  rw [if_neg (hne 'n' rfl), if_neg (not_or.mpr ⟨hne 't' rfl, hne 'f' rfl⟩), if_neg (hne '"' rfl),
    if_neg (hne '[' rfl), if_neg (hne '\x7b' rfl)]
  exact ⟨rfl, hne ']' rfl, hne '\x7d' rfl⟩

theorem kind_dumps (value : Json ℤ) :
    ∃ c cs, value.dumps integer = c :: cs ∧ kindOf c = value.kind ∧ c ≠ ']' ∧ c ≠ '\x7d' := by
  cases value with
  | null => exact ⟨_, _, rfl, rfl, by decide, by decide⟩
  | bool value => cases value <;> exact ⟨_, _, rfl, rfl, by decide, by decide⟩
  | string value => exact ⟨_, _, rfl, rfl, by decide, by decide⟩
  | array items => exact ⟨_, _, rfl, rfl, by decide, by decide⟩
  | object members => exact ⟨_, _, rfl, rfl, by decide, by decide⟩
  | number value =>
    have hne : integer value ≠ [] := by
      rw [integer, TradingRational.toList_bigintText]
      split_ifs <;> simp [Nat.toDigits_ne_nil]
    obtain ⟨c, cs, hc⟩ := List.exists_cons_of_ne_nil hne
    exact ⟨c, cs, hc, kindOf_numeric (integer_numeric value c (by simp [hc]))⟩

theorem kind_eq {left right : Json ℤ} (h : left.dumps integer ++ s = right.dumps integer ++ t) :
    left.kind = right.kind := by
  obtain ⟨c, cs, hc, hleft, -⟩ := kind_dumps left
  obtain ⟨d, ds, hd, hright, -⟩ := kind_dumps right
  rw [hc, hd] at h
  rw [← hleft, ← hright, (List.cons.inj h).1]

theorem opens_dumps : Opens (dumps integer) ']' := by
  intro value
  obtain ⟨c, cs, hc, -, hne, -⟩ := kind_dumps value
  exact ⟨c, cs, hc, hne⟩

theorem opens_dumpsMember : Opens (dumpsMember integer) '\x7d' := by
  intro member
  exact ⟨_, _, rfl, by decide⟩

theorem reads_dumps (left right : Json ℤ) : Reads (dumps integer) sorted left right := by
  -- Texts of different kinds differ in their first character.
  induction left using induct generalizing right with
  | null =>
    intro s t hs ht h
    cases right with
    | null => exact ⟨rfl, List.append_cancel_left h⟩
    | _ => exact absurd (kind_eq h) (by simp [kind])
  | bool value =>
    intro s t hs ht h
    cases right with
    | bool other =>
      cases value <;> cases other <;> simp_all [dumps]
    | _ => exact absurd (kind_eq h) (by simp [kind])
  | number value =>
    intro s t hs ht h
    cases right with
    | number other =>
      obtain ⟨rfl, hrest⟩ := integer_unique hs ht h
      exact ⟨rfl, hrest⟩
    | _ => exact absurd (kind_eq h) (by simp [kind])
  | string value =>
    intro s t hs ht h
    cases right with
    | string other =>
      obtain ⟨rfl, hrest⟩ := string_unique h
      exact ⟨rfl, hrest⟩
    | _ => exact absurd (kind_eq h) (by simp [kind])
  | array items ih =>
    intro s t hs ht h
    cases right with
    | array others =>
      simp only [dumps_array, List.cons_append, List.append_assoc, List.nil_append,
        List.cons.injEq, true_and] at h
      have hclose : ∀ s, Delimited (']' :: s) := fun s => .inr (.inl rfl)
      obtain ⟨hforms, hrest⟩ := joined_unique hclose (by decide) opens_dumps ih h
      simp only [sorted, sortedItems_eq, hforms, hrest, and_self]
    | _ => exact absurd (kind_eq h) (by simp [kind])
  | object members ih =>
    intro s t hs ht h
    cases right with
    | object others =>
      simp only [dumps_object, List.cons_append, List.append_assoc, List.nil_append,
        List.cons.injEq, true_and] at h
      have hclose : ∀ s, Delimited ('\x7d' :: s) := fun s => .inr (.inr rfl)
      have hmemb : ∀ member ∈ byKey members, ∀ other, Reads (dumpsMember integer)
          (fun member => (member.1, member.2.sorted)) member other := by
        intro member hmemb other s t hs ht h
        simp only [dumpsMember, List.append_assoc, List.cons_append] at h
        obtain ⟨hkey, htail⟩ := string_unique h
        obtain ⟨hvalue, hrest⟩ := ih member (mem_byKey.mp hmemb) other.2 s t hs ht
          (List.cons.inj htail).2
        exact ⟨Prod.ext hkey hvalue, hrest⟩
      obtain ⟨hforms, hrest⟩ := joined_unique hclose (by decide) opens_dumpsMember hmemb h
      simp only [sorted_object, hforms, hrest, and_self]
    | _ => exact absurd (kind_eq h) (by simp [kind])

theorem sorted_eq_of_dumps {left right : Json ℤ} (h : left.dumps integer = right.dumps integer) :
    left.sorted = right.sorted :=
  (reads_dumps left right [] [] trivial trivial (by simpa using h)).1

end Reading

section Documents

mutual

/-- Equal as documents: the members of objects are matched by their keys, in any order. -/
def Same : Json N → Json N → Prop
  | .null, .null => True
  | .bool value, .bool other => value = other
  | .number value, .number other => value = other
  | .string value, .string other => value = other
  | .array items, .array others => SameItems items others
  | .object members, .object others => members.length = others.length ∧ SameMembers members others
  | _, _ => False

def SameItems : List (Json N) → List (Json N) → Prop
  | [], [] => True
  | item :: rest, other :: others => item.Same other ∧ SameItems rest others
  | _, _ => False

def SameMembers : List (String × Json N) → List (String × Json N) → Prop
  | [], _ => True
  | (key, value) :: rest, others =>
    (∃ other, (key, other) ∈ others ∧ value.Same other) ∧ SameMembers rest others

end

variable {items others : List (Json N)} {members rest : List (String × Json N)}

theorem sameItems_iff : SameItems items others ↔ List.Forall₂ Same items others := by
  induction items generalizing others with
  | nil => cases others <;> simp [SameItems]
  | cons item items ih => cases others <;> simp [SameItems, ih]

theorem sameMembers_iff : SameMembers members rest ↔
    ∀ member ∈ members, ∃ other, (member.1, other) ∈ rest ∧ member.2.Same other := by
  induction members with
  | nil => simp [SameMembers]
  | cons member members ih =>
    obtain ⟨key, value⟩ := member
    simp only [SameMembers, ih, List.forall_mem_cons]

theorem distinctItems_iff : DistinctItems items ↔ ∀ item ∈ items, item.Distinct := by
  induction items with
  | nil => simp [DistinctItems]
  | cons item items ih => simp [DistinctItems, ih]

theorem byKey_eq_of_matched {f : Json N → β} (hmems : (members.map (·.1)).Nodup)
    (hlen : members.length = rest.length)
    (hmatched : ∀ member ∈ members, ∃ other, (member.1, other) ∈ rest ∧ f member.2 = f other) :
    byKey (members.map fun member => (member.1, f member.2)) =
      byKey (rest.map fun member => (member.1, f member.2)) := by
  have hkeys : ((members.map fun member => (member.1, f member.2)).map (·.1)).Nodup := by
    rwa [List.map_map]
  apply byKey_eq_of_perm _ hkeys
  apply List.Subperm.perm_of_length_le
  · apply List.subperm_of_subset hkeys.of_map
    intro member hmemb
    obtain ⟨original, horig, rfl⟩ := List.mem_map.mp hmemb
    obtain ⟨other, hother, hvalue⟩ := hmatched original horig
    rw [hvalue]
    exact List.mem_map_of_mem hother
  · rw [List.length_map, List.length_map, hlen]

theorem dumps_eq_of_same {number : N → List Char} {left right : Json N} (hleft : left.Distinct)
    (h : left.Same right) : left.dumps number = right.dumps number := by
  induction left using induct generalizing right with
  | array items ih =>
    cases right with
    | array others =>
      rw [Distinct, distinctItems_iff] at hleft
      rw [Same, sameItems_iff] at h
      have htexts : items.map (dumps number) = others.map (dumps number) := by
        induction h with
        | nil => rfl
        | cons hsame _ ihs =>
          rw [List.forall_mem_cons] at ih hleft
          rw [List.map_cons, List.map_cons, ih.1 hleft.1 hsame, ihs ih.2 hleft.2]
      rw [dumps_array, dumps_array, htexts]
    | _ => cases h
  | object members ih =>
    cases right with
    | object others =>
      rw [Distinct, distinctMembers_iff] at hleft
      rw [Same, sameMembers_iff] at h
      rw [dumps, dumps, dumpsMembers_eq, dumpsMembers_eq, byKey_eq_of_matched hleft.1 h.1]
      intro member hmemb
      obtain ⟨other, hother, hsame⟩ := h.2 member hmemb
      exact ⟨other, hother, ih member hmemb (hleft.2 member hmemb) hsame⟩
    | _ => cases h
  | _ =>
    cases right <;> cases h
    rfl

theorem same_of_sorted {left right : Json N} (h : left.sorted = right.sorted) :
    left.Same right := by
  induction left using induct generalizing right with
  | array items ih =>
    cases right with
    | array others =>
      simp only [sorted, sortedItems_eq, array.injEq] at h
      rw [Same, sameItems_iff]
      induction items generalizing others with
      | nil =>
        rw [List.map_eq_nil_iff.mp h.symm]
        exact .nil
      | cons item items ihs =>
        obtain ⟨other, others, rfl, hhead, htail⟩ := List.map_eq_cons_iff.mp h.symm
        rw [List.forall_mem_cons] at ih
        exact .cons (ih.1 hhead.symm) (ihs ih.2 others htail.symm)
    | _ => simp [sorted] at h
  | object members ih =>
    cases right with
    | object others =>
      rw [sorted, sorted, sortedMembers_eq, sortedMembers_eq, object.injEq] at h
      have hperm : (members.map fun member => (member.1, member.2.sorted)).Perm
          (others.map fun member => (member.1, member.2.sorted)) :=
        (perm_byKey _).symm.trans (h ▸ perm_byKey _)
      rw [Same, sameMembers_iff]
      refine ⟨by simpa using hperm.length_eq, ?_⟩
      intro member hmemb
      have hthere := hperm.subset (List.mem_map_of_mem hmemb)
      obtain ⟨other, hother, heq⟩ := List.mem_map.mp hthere
      obtain ⟨hkey, hvalue⟩ := Prod.mk.inj heq
      exact ⟨other.2, hkey ▸ hother, ih member hmemb hvalue.symm⟩
    | _ => simp [sorted] at h
  | _ =>
    cases right <;> simp_all [sorted, Same]

end Documents

end TsxCore.Json
