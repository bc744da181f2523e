import TsxCore.JsRuntime

/-!
# Regular expression filters (`filters.ts`)

The scanner that refuses patterns with nested quantifiers before they are compiled. Of the
`index` and `isSpecial` of a group nothing is read. A pattern is read by characters: one above
U+FFFF counts twice in the source, and neither of its halves is a character that is looked for.
-/

namespace TsxCore.Filters

structure RegexGroupState where
  index : ℕ
  hasQuantifier : Bool
  isSpecial : Bool

/-- `openGroups` with the innermost group first; the source keeps it last. -/
structure NestedQuantifierScanner where
  openGroups : List RegexGroupState
  inCharacterClass : Bool

/-- The characters that quantify the group they follow. -/
def groupQuantifiers : List Char := ['+', '*', '?', '{']

/-- The characters that mark the group they stand in. -/
def markingQuantifiers : List Char := ['+', '*', '{']

/-- Pops a group; `next` is `pattern[index + 1]`. -/
def closesNestedQuantifier (next : Option Char) (openGroups : List RegexGroupState) :
    List RegexGroupState × Bool :=
  match openGroups with
  | [] => ([], false)
  | group :: outer => (outer, group.hasQuantifier && next.any (· ∈ groupQuantifiers))

namespace NestedQuantifierScanner

def consumeCharacterClass (s : NestedQuantifierScanner) (char : Char) :
    NestedQuantifierScanner × Bool :=
  if char = '[' ∧ s.inCharacterClass = false then ({ s with inCharacterClass := true }, true)
  else if char = ']' ∧ s.inCharacterClass = true then ({ s with inCharacterClass := false }, true)
  else (s, s.inCharacterClass)

def markGroupQuantified (s : NestedQuantifierScanner) (char : Char) : NestedQuantifierScanner :=
  if char ∈ markingQuantifiers then
    match s.openGroups with
    | [] => s
    | group :: outer => { s with openGroups := { group with hasQuantifier := true } :: outer }
  else s

def consume (s : NestedQuantifierScanner) (index : ℕ) (char : Char) (next : Option Char) :
    NestedQuantifierScanner × Bool :=
  let (s, consumed) := s.consumeCharacterClass char
  if consumed then (s, false)
  else if char = '(' then
    ({ s with openGroups := ⟨index, false, next == some '?'⟩ :: s.openGroups }, false)
  else if char = ')' then
    let (outer, found) := closesNestedQuantifier next s.openGroups
    ({ s with openGroups := outer }, found)
  else (s.markGroupQuantified char, false)

end NestedQuantifierScanner

/-- The loop of `hasNestedQuantifiers` from `index` on, where `pattern` is what is left. -/
def scan (s : NestedQuantifierScanner) (index : ℕ) (pattern : List Char) : Bool :=
  match pattern with
  | [] => false
  | char :: rest =>
    if char = '\\' then
      match rest with
      | [] => false
      | _ :: rest => scan s (index + 2) rest
    else
      let (s', found) := s.consume index char rest.head?
      found || scan s' (index + 1) rest

def hasNestedQuantifiers (pattern : String) : Bool :=
  scan ⟨[], false⟩ 0 pattern.toList

end TsxCore.Filters
