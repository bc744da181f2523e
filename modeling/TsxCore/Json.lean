import Mathlib.Tactic

/-!
# JSON values

Values over a type of numbers. An object is the list of its members in the order
in which they were written; `Distinct` says that no object repeats a key.
-/

namespace TsxCore

inductive Json (N : Type) where
  | null
  | bool (value : Bool)
  | number (value : N)
  | string (value : String)
  | array (items : List (Json N))
  | object (members : List (String × Json N))

namespace Json

variable {N M : Type}

def lookup (key : String) (members : List (String × Json N)) : Option (Json N) :=
  (members.find? (·.1 = key)).map (·.2)

def text? : Json N → Option String
  | .string value => some value
  | _ => none

def number? : Json N → Option N
  | .number value => some value
  | _ => none

/-- A text or `null`. -/
def nullableText? : Json N → Option (Option String)
  | .null => some none
  | .string value => some (some value)
  | _ => none

mutual

def map (f : N → M) : Json N → Json M
  | .null => .null
  | .bool value => .bool value
  | .number value => .number (f value)
  | .string value => .string value
  | .array items => .array (mapItems f items)
  | .object members => .object (mapMembers f members)

def mapItems (f : N → M) : List (Json N) → List (Json M)
  | [] => []
  | item :: rest => item.map f :: mapItems f rest

def mapMembers (f : N → M) : List (String × Json N) → List (String × Json M)
  | [] => []
  | (key, value) :: rest => (key, value.map f) :: mapMembers f rest

end

mutual

def Distinct : Json N → Prop
  | .array items => DistinctItems items
  | .object members => (members.map (·.1)).Nodup ∧ DistinctMembers members
  | _ => True

def DistinctItems : List (Json N) → Prop
  | [] => True
  | item :: rest => item.Distinct ∧ DistinctItems rest

def DistinctMembers : List (String × Json N) → Prop
  | [] => True
  | (_, value) :: rest => value.Distinct ∧ DistinctMembers rest

end

mutual

/-- Every text in a value satisfies `p`. -/
def Texts (p : String → Prop) : Json N → Prop
  | .string value => p value
  | .array items => TextsItems p items
  | .object members => TextsMembers p members
  | _ => True

def TextsItems (p : String → Prop) : List (Json N) → Prop
  | [] => True
  | item :: rest => item.Texts p ∧ TextsItems p rest

def TextsMembers (p : String → Prop) : List (String × Json N) → Prop
  | [] => True
  | (_, value) :: rest => value.Texts p ∧ TextsMembers p rest

end

section Members

variable {p : String → Prop} {items : List (Json N)}
variable {members : List (String × Json N)} {key : String} {value : Json N}

theorem mapMembers_eq (f : N → M) (members : List (String × Json N)) :
    mapMembers f members = members.map (fun member => (member.1, member.2.map f)) := by
  induction members with
  | nil => rfl
  | cons member rest ih =>
    obtain ⟨key, value⟩ := member
    rw [mapMembers, ih, List.map_cons]

theorem lookup_mapMembers (f : N → M) (key : String) (members : List (String × Json N)) :
    lookup key (mapMembers f members) = (lookup key members).map (·.map f) := by
  rw [mapMembers_eq, lookup, lookup, List.find?_map]
  simp [Function.comp_def]

theorem keys_mapMembers (f : N → M) (members : List (String × Json N)) :
    (mapMembers f members).map (·.1) = members.map (·.1) := by
  rw [mapMembers_eq, List.map_map]
  rfl

theorem mem_of_lookup (h : lookup key members = some value) : (key, value) ∈ members := by
  obtain ⟨member, hfind, hvalue⟩ := Option.map_eq_some_iff.mp h
  have hkey : member.1 = key := by simpa using List.find?_some hfind
  rw [← hkey, ← hvalue]
  exact List.mem_of_find?_eq_some hfind

theorem distinctMembers_iff :
    DistinctMembers members ↔ ∀ member ∈ members, member.2.Distinct := by
  induction members with
  | nil => simp [DistinctMembers]
  | cons member rest ih =>
    obtain ⟨key, value⟩ := member
    simp [DistinctMembers, ih]

theorem textsMembers_iff : TextsMembers p members ↔ ∀ member ∈ members, member.2.Texts p := by
  induction members with
  | nil => simp [TextsMembers]
  | cons member rest ih =>
    obtain ⟨key, value⟩ := member
    simp [TextsMembers, ih]

theorem textsItems_iff : TextsItems p items ↔ ∀ item ∈ items, item.Texts p := by
  induction items with
  | nil => simp [TextsItems]
  | cons item rest ih => simp [TextsItems, ih]

theorem TextsMembers.lookup (hmems : TextsMembers p members)
    (h : Json.lookup key members = some value) : value.Texts p :=
  textsMembers_iff.mp hmems _ (mem_of_lookup h)

theorem TextsMembers.getD (hmems : TextsMembers p members) :
    ((Json.lookup key members).getD .null).Texts p := by
  cases h : Json.lookup key members with
  | none => trivial
  | some value => exact hmems.lookup h

theorem Distinct.lookup (hvalue : Distinct (.object members))
    (h : Json.lookup key members = some value) : value.Distinct := by
  rw [Distinct, distinctMembers_iff] at hvalue
  exact hvalue.2 _ (mem_of_lookup h)

end Members

end Json

end TsxCore
