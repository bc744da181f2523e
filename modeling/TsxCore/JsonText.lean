import TsxCore.JsRuntime

/-!
# `JSON.stringify`

A JSON text is the list of its characters. Objects and arrays are written from
the texts of their members, so the size of the result is the size of its members
and one or two bytes of punctuation for each.
-/

namespace TsxCore.JsonText

def hexDigits (value : ℕ) : List Char :=
  [Nat.digitChar (value / 16), Nat.digitChar (value % 16)]

def escape (c : Char) : List Char :=
  if c = '"' then ['\\', '"']
  else if c = '\\' then ['\\', '\\']
  else if c.toNat = 8 then ['\\', 'b']
  else if c.toNat = 9 then ['\\', 't']
  else if c.toNat = 10 then ['\\', 'n']
  else if c.toNat = 12 then ['\\', 'f']
  else if c.toNat = 13 then ['\\', 'r']
  else if c.toNat < 32 then ['\\', 'u', '0', '0'] ++ hexDigits c.toNat
  else [c]

def string (value : String) : List Char :=
  '"' :: value.toList.flatMap escape ++ ['"']

def integer (value : ℤ) : List Char := (bigintText value).toList

def nullable : Option String → List Char
  | none => "null".toList
  | some value => string value

def joined : List (List Char) → List Char
  | [] => []
  | [value] => value
  | value :: next :: rest => value ++ ',' :: joined (next :: rest)

def array (values : List (List Char)) : List Char := '[' :: joined values ++ [']']

def object (fields : List (String × List Char)) : List Char :=
  '\x7b' :: joined (fields.map (fun field => string field.1 ++ ':' :: field.2)) ++ ['\x7d']

@[simp] theorem byteLength_append (s t : List Char) :
    byteLength (s ++ t) = byteLength s + byteLength t := by
  simp [byteLength]

@[simp] theorem byteLength_cons (c : Char) (s : List Char) :
    byteLength (c :: s) = c.utf8Size + byteLength s := by
  simp [byteLength]

@[simp] theorem byteLength_nil : byteLength [] = 0 := rfl

theorem byteLength_escape_le (c : Char) :
    byteLength (escape c) ≤ 6 * byteLength [c] := by
  have hpos : 1 ≤ byteLength [c] := by
    have hsize := Char.utf8Size_pos c
    rw [byteLength_cons]
    omega
  have htwo : ∀ d : Char, d.utf8Size = 1 → byteLength ['\\', d] = 2 := by
    intro d hd
    simp [byteLength, hd]
    rfl
  have hhex : ∀ n < 32, byteLength (['\\', 'u', '0', '0'] ++ hexDigits n) = 6 := by decide
  unfold escape
  split_ifs with hquote hslash hb ht hn hf hr hcontrol
  · rw [htwo _ rfl]
    omega
  · rw [htwo _ rfl]
    omega
  · rw [htwo _ rfl]
    omega
  · rw [htwo _ rfl]
    omega
  · rw [htwo _ rfl]
    omega
  · rw [htwo _ rfl]
    omega
  · rw [htwo _ rfl]
    omega
  · rw [hhex _ hcontrol]
    omega
  · omega

theorem byteLength_string_of_escape {value : String} {bound : Char → ℕ}
    (h : ∀ c ∈ value.toList, byteLength (escape c) ≤ bound c) :
    byteLength (string value) ≤ 2 + (value.toList.map bound).sum := by
  have hbody : ∀ cs : List Char, (∀ c ∈ cs, byteLength (escape c) ≤ bound c) →
      byteLength (cs.flatMap escape) ≤ (cs.map bound).sum := by
    intro cs hcs
    induction cs with
    | nil => rfl
    | cons c cs ih =>
      have hhead := hcs c List.mem_cons_self
      have htail := ih (fun d hd => hcs d (List.mem_cons_of_mem c hd))
      rw [List.flatMap_cons, byteLength_append, List.map_cons, List.sum_cons]
      omega
  have hquote : '"'.utf8Size = 1 := by decide
  have hinner := hbody value.toList h
  simp only [string, List.cons_append, byteLength_cons, byteLength_append, byteLength_nil]
  omega

theorem byteLength_text_le (text : String) :
    byteLength (string text) ≤ 2 + 6 * byteLength text.toList := by
  have hbytes : byteLength text.toList = (text.toList.map Char.utf8Size).sum := rfl
  rw [hbytes, ← List.sum_map_mul_left]
  exact byteLength_string_of_escape (fun c _ => by simpa [byteLength] using byteLength_escape_le c)

theorem byteLength_joined_le (values : List (List Char)) :
    byteLength (joined values) ≤ (values.map (fun value => byteLength value + 1)).sum := by
  induction values with
  | nil => rfl
  | cons value rest ih =>
    cases rest with
    | nil => simp [joined]
    | cons next rest =>
      have hcomma : ','.utf8Size = 1 := by decide
      rw [joined, byteLength_append, byteLength_cons, List.map_cons, List.sum_cons]
      omega

theorem byteLength_array_le (values : List (List Char)) :
    byteLength (array values) ≤ 2 + (values.map (fun value => byteLength value + 1)).sum := by
  have hopen : '['.utf8Size = 1 := by decide
  have hclose : ']'.utf8Size = 1 := by decide
  have hjoined := byteLength_joined_le values
  simp only [array, List.cons_append, byteLength_cons, byteLength_append, byteLength_nil]
  omega

theorem byteLength_object_le (fields : List (String × List Char)) :
    byteLength (object fields) ≤
      2 + (fields.map (fun field => byteLength (string field.1) + byteLength field.2 + 2)).sum := by
  have hopen : '\x7b'.utf8Size = 1 := by decide
  have hclose : '\x7d'.utf8Size = 1 := by decide
  have hcolon : ':'.utf8Size = 1 := by decide
  have hjoined := byteLength_joined_le
    (fields.map (fun field => string field.1 ++ ':' :: field.2))
  rw [List.map_map] at hjoined
  have hfield : ((fun value => byteLength value + 1) ∘
      fun field : String × List Char => string field.1 ++ ':' :: field.2) =
      fun field => byteLength (string field.1) + byteLength field.2 + 2 := by
    funext field
    simp only [Function.comp, byteLength_append, byteLength_cons, hcolon]
    omega
  rw [hfield] at hjoined
  simp only [object, List.cons_append, byteLength_cons, byteLength_append, byteLength_nil]
  omega

/-- Outside the control characters an escape takes at most the four bytes of a code point. -/
theorem escape_size_le {c : Char} (hc : 32 ≤ c.toNat) :
    byteLength (escape c) ≤ 4 := by
  have hsize := Char.utf8Size_le_four c
  unfold escape
  split_ifs <;> first | omega | decide | simpa [byteLength] using hsize

theorem byteLength_string_le {value : String} (h : ∀ c ∈ value.toList, 32 ≤ c.toNat) :
    byteLength (string value) ≤ 2 + 4 * value.toList.length := by
  simpa [mul_comm] using byteLength_string_of_escape (fun c hc => escape_size_le (h c hc))

end TsxCore.JsonText
