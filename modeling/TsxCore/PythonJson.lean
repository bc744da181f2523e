import TsxCore.JsonText

/-!
# `json.dumps`

The default form of Python's writer: every character outside the printable ASCII
range is escaped, and separators are followed by a space. Its texts are ASCII, so
their size in bytes is their length.
-/

namespace TsxCore.PythonJson

def hexQuad (value : ℕ) : List Char :=
  JsonText.hexDigits (value / 256) ++ JsonText.hexDigits (value % 256)

def escapeUnit (unit : ℕ) : List Char := ['\\', 'u'] ++ hexQuad unit

def escape (c : Char) : List Char :=
  if c = '"' then ['\\', '"']
  else if c = '\\' then ['\\', '\\']
  else if c.toNat = 8 then ['\\', 'b']
  else if c.toNat = 9 then ['\\', 't']
  else if c.toNat = 10 then ['\\', 'n']
  else if c.toNat = 12 then ['\\', 'f']
  else if c.toNat = 13 then ['\\', 'r']
  else if 32 ≤ c.toNat ∧ c.toNat < 127 then [c]
  else (codeUnits (String.singleton c)).flatMap escapeUnit

def string (value : String) : List Char := '"' :: value.toList.flatMap escape ++ ['"']

def nullable : Option String → List Char
  | none => "null".toList
  | some value => string value

def nullableNumber : Option ℤ → List Char
  | none => "null".toList
  | some value => JsonText.integer value

def joined : List (List Char) → List Char
  | [] => []
  | [value] => value
  | value :: next :: rest => value ++ ',' :: ' ' :: joined (next :: rest)

def object (fields : List (String × List Char)) : List Char :=
  '\x7b' :: joined (fields.map (fun field => string field.1 ++ ':' :: ' ' :: field.2)) ++ ['\x7d']

def unitsOf (c : Char) : ℕ := if 0x10000 ≤ c.toNat then 2 else 1

theorem length_escape_le (c : Char) : (escape c).length ≤ 6 * unitsOf c := by
  have hpos : 1 ≤ unitsOf c := by
    unfold unitsOf
    split_ifs <;> omega
  have hunits : ((codeUnits (String.singleton c)).flatMap escapeUnit).length = 6 * unitsOf c := by
    have hsingle : (String.singleton c).toList = [c] := by simp
    simp only [codeUnits, hsingle, List.flatMap_cons, List.flatMap_nil, List.append_nil, unitsOf]
    split_ifs <;> simp [escapeUnit, hexQuad, JsonText.hexDigits]
  unfold escape
  split_ifs
  case neg => exact hunits.le
  all_goals simp only [List.length_cons, List.length_nil]; omega

theorem length_escape_printable {c : Char} (h : 32 ≤ c.toNat ∧ c.toNat < 127) :
    (escape c).length ≤ 2 := by
  unfold escape
  split_ifs <;> simp

theorem length_string_of_escape {value : String} {bound : Char → ℕ}
    (h : ∀ c ∈ value.toList, (escape c).length ≤ bound c) :
    (string value).length ≤ 2 + (value.toList.map bound).sum := by
  have hinner := List.sum_le_sum h
  simp only [string, List.cons_append, List.length_cons, List.length_append, List.length_nil,
    List.length_flatMap]
  omega

theorem length_string_le (value : String) :
    (string value).length ≤ 2 + 6 * utf16Length value := by
  have hunits : utf16Length value = (value.toList.map unitsOf).sum := rfl
  rw [hunits, ← List.sum_map_mul_left]
  exact length_string_of_escape (fun c _ => length_escape_le c)

theorem length_string_printable {value : String}
    (h : ∀ c ∈ value.toList, 32 ≤ c.toNat ∧ c.toNat < 127) :
    (string value).length ≤ 2 + 2 * value.toList.length := by
  simpa [mul_comm] using length_string_of_escape (fun c hc => length_escape_printable (h c hc))

theorem length_joined_le (values : List (List Char)) :
    (joined values).length ≤ (values.map (fun value => value.length + 2)).sum := by
  induction values with
  | nil => simp [joined]
  | cons value rest ih =>
    cases rest with
    | nil => simp [joined]
    | cons next rest =>
      rw [joined, List.length_append, List.length_cons, List.length_cons, List.map_cons,
        List.sum_cons]
      omega

theorem length_object_le (fields : List (String × List Char)) :
    (object fields).length ≤
      2 + (fields.map (fun field => (string field.1).length + field.2.length + 4)).sum := by
  have hjoined := length_joined_le
    (fields.map (fun field => string field.1 ++ ':' :: ' ' :: field.2))
  rw [List.map_map] at hjoined
  have hfield : ((fun value : List Char => value.length + 2) ∘
      fun field : String × List Char => string field.1 ++ ':' :: ' ' :: field.2) =
      fun field => (string field.1).length + field.2.length + 4 := by
    funext field
    simp only [Function.comp, List.length_append, List.length_cons]
    omega
  rw [hfield] at hjoined
  simp only [object, List.cons_append, List.length_cons, List.length_append, List.length_nil]
  omega

end TsxCore.PythonJson
