import TsxCore.Numeral
import TsxCore.Outcome

/-!
# What the modules use of the JavaScript runtime

Thrown errors carry their class name, their code where the class has one, and
their message. Texts are Unicode strings; `isSpace` is the set that both
`String.prototype.trim` and the pattern `\s` refer to. Integer-valued numbers
are exact up to `maxSafeInteger`.
-/

namespace TsxCore

structure Thrown where
  name : String
  code : Option String
  message : String
  deriving DecidableEq

/-- `new Error(message)`. -/
def Thrown.error (message : String) : Thrown := ⟨"Error", none, message⟩

abbrev Outcome (α : Type) := Except Thrown α

/-- `Number.MAX_SAFE_INTEGER`. -/
def maxSafeInteger : ℕ := 9007199254740991

/-- `Number.isSafeInteger(value)` of an integer-valued number. -/
def isSafeInteger (value : ℤ) : Prop := value.natAbs ≤ maxSafeInteger

instance (value : ℤ) : Decidable (isSafeInteger value) := Nat.decLe ..

def isSpace (c : Char) : Bool :=
  (9 ≤ c.toNat && c.toNat ≤ 13) || c.toNat == 32 || c.toNat == 0xa0 || c.toNat == 0x1680 ||
    (0x2000 ≤ c.toNat && c.toNat ≤ 0x200a) || c.toNat == 0x2028 || c.toNat == 0x2029 ||
    c.toNat == 0x202f || c.toNat == 0x205f || c.toNat == 0x3000 || c.toNat == 0xfeff

/-- `value.trim()`. -/
def trim (value : String) : String :=
  .ofList ((value.toList.dropWhile isSpace).rdropWhile isSpace)

/-- `/\s/.test(value)`. -/
def hasSpace (value : String) : Bool := value.toList.any isSpace

/-- `value.length`: code points outside the basic plane take two units. -/
def utf16Length (value : String) : ℕ :=
  (value.toList.map (fun c => if 0x10000 ≤ c.toNat then 2 else 1)).sum

/-- `slice(0, limit)`; a character whose two code units the limit splits is left out. -/
def slice : ℕ → List Char → List Char
  | _, [] => []
  | limit, c :: rest =>
    let units := if 0x10000 ≤ c.toNat then 2 else 1
    if limit < units then [] else c :: slice (limit - units) rest

/-- `text.includes(word)`. -/
def includes (text word : String) : Bool := decide (word.toList <:+: text.toList)

theorem toList_of_eq {s : String} {cs : List Char} (h : s = .ofList cs) : s.toList = cs := by
  rw [h, String.toList_ofList]

/-- UTF-16 code units, the order of `<` on texts. -/
def codeUnits (value : String) : List ℕ :=
  value.toList.flatMap fun c =>
    if 0x10000 ≤ c.toNat then
      [0xd800 + (c.toNat - 0x10000) / 0x400, 0xdc00 + (c.toNat - 0x10000) % 0x400]
    else [c.toNat]

/-- `Buffer.byteLength` of a text with these characters. -/
def byteLength (characters : List Char) : ℕ := (characters.map Char.utf8Size).sum

/-- `String(value)` of a bigint. -/
def bigintText (value : ℤ) : String :=
  if value < 0 then "-" ++ .ofList (Nat.toDigits 10 value.natAbs)
  else .ofList (Nat.toDigits 10 value.natAbs)

theorem isSpace_of_isDigit {c : Char} (hc : c.isDigit = true) : isSpace c = false := by
  have hb : 48 ≤ c.toNat ∧ c.toNat ≤ 57 := by
    simp only [Char.isDigit, Bool.and_eq_true, decide_eq_true_eq] at hc
    exact ⟨hc.1, hc.2⟩
  simp only [isSpace, Bool.or_eq_false_iff, Bool.and_eq_false_iff, decide_eq_false_iff_not,
    beq_eq_false_iff_ne]
  omega

theorem trim_of_hasSpace_false {value : String} (h : hasSpace value = false) :
    trim value = value := by
  have hall : ∀ c ∈ value.toList, isSpace c = false := by
    simpa [hasSpace] using h
  have hdrop : value.toList.dropWhile isSpace = value.toList := by
    cases hl : value.toList with
    | nil => rfl
    | cons c cs => simp [List.dropWhile, hall c (by simp [hl])]
  have hrdrop : value.toList.rdropWhile isSpace = value.toList := by
    rw [List.rdropWhile_eq_self_iff]
    intro hne
    simp [hall _ (List.getLast_mem hne)]
  rw [trim, hdrop, hrdrop, String.ofList_toList]

theorem length_le_utf16Length (text : String) : text.toList.length ≤ utf16Length text := by
  rw [utf16Length]
  induction text.toList with
  | nil => rfl
  | cons c cs ih =>
    rw [List.length_cons, List.map_cons, List.sum_cons]
    split_ifs <;> omega

end TsxCore
