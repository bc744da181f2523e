import TsxCore.Filters
import TsxCore.BracketWords

/-!
# Nested quantifiers

The characters of a pattern outside escapes and character classes form a word with brackets
(`symbols`), on which the scanner is a machine with one flag per open group (`detects`). The
machine finds a quantified group exactly when that group has a quantifier of its own; one whose
quantifiers all stand in inner groups is missed.
-/

namespace TsxCore.Filters

open BracketWords

/-- The characters outside escapes and character classes; `none` for an escape or a class. -/
def symbols (inCharacterClass : Bool) (pattern : List Char) : List (Option Char) :=
  match pattern with
  | [] => []
  | char :: rest =>
    if char = '\\' then
      match rest with
      | [] => if inCharacterClass then [] else [none]
      | _ :: rest =>
        if inCharacterClass then symbols true rest else none :: symbols false rest
    else if inCharacterClass then symbols (char != ']') rest
    else if char = '[' then none :: symbols true rest
    else some char :: symbols false rest

theorem symbols_inside {char : Char} (hescape : char ≠ '\\') (rest : List Char) :
    symbols true (char :: rest) = symbols (char != ']') rest := by
  rw [symbols.eq_def]
  simp [hescape]

theorem symbols_bracket (rest : List Char) :
    symbols false ('[' :: rest) = none :: symbols true rest := by
  rw [symbols.eq_def]
  simp

theorem symbols_outside {char : Char} (hescape : char ≠ '\\') (hbracket : char ≠ '[')
    (rest : List Char) : symbols false (char :: rest) = some char :: symbols false rest := by
  rw [symbols.eq_def]
  simp [hescape, hbracket]

def patternSymbols (pattern : String) : List (Option Char) :=
  symbols false pattern.toList

def Quantifies (symbol : Option Char) : Prop :=
  ∃ char ∈ groupQuantifiers, symbol = some char

def Repeats (symbol : Option Char) : Prop :=
  ∃ char ∈ markingQuantifiers, symbol = some char

instance (symbol : Option Char) : Decidable (Quantifies symbol) :=
  List.decidableBEx (fun char => symbol = some char) groupQuantifiers

instance (symbol : Option Char) : Decidable (Repeats symbol) :=
  List.decidableBEx (fun char => symbol = some char) markingQuantifiers

abbrev BalancedSymbols := Balanced (some '(') (some ')')

/-- A group of the word with this body, directly followed by a quantifier. -/
def QuantifiedGroup (word body : List (Option Char)) : Prop :=
  ∃ before quantifier after,
    word = before ++ some '(' :: (body ++ some ')' :: quantifier :: after) ∧
      BalancedSymbols body ∧ Quantifies quantifier

/-- A quantified group contains a quantifier at some depth. -/
def NestedQuantifiers (word : List (Option Char)) : Prop :=
  ∃ body, QuantifiedGroup word body ∧ ∃ symbol ∈ body, Repeats symbol

/-- A quantified group contains a quantifier outside the groups inside it. -/
def OwnNestedQuantifiers (word : List (Option Char)) : Prop :=
  ∃ body, QuantifiedGroup word body ∧ AtTop (some '(') (some ')') Repeats body

/-- The scanner on symbols, with the flags of the open groups, innermost first. -/
def detects (flags : List Bool) (word : List (Option Char)) : Bool :=
  match word with
  | [] => false
  | symbol :: rest =>
    if symbol = some '(' then detects (false :: flags) rest
    else if symbol = some ')' then
      flags.head?.any (fun flag => flag && rest.head?.any (fun next => decide (Quantifies next))) ||
        detects flags.tail rest
    else if Repeats symbol then detects (flags.modifyHead (fun _ => true)) rest
    else detects flags rest

section Machine

theorem repeats_ne_opening {symbol : Option Char} (h : Repeats symbol) : symbol ≠ some '(' := by
  rintro rfl
  exact absurd h (by decide)

theorem repeats_ne_closing {symbol : Option Char} (h : Repeats symbol) : symbol ≠ some ')' := by
  rintro rfl
  exact absurd h (by decide)

theorem detects_opening (flags : List Bool) (rest : List (Option Char)) :
    detects flags (some '(' :: rest) = detects (false :: flags) rest := by
  simp [detects]

theorem detects_closing (flag : Bool) (flags : List Bool) (rest : List (Option Char)) :
    detects (flag :: flags) (some ')' :: rest) =
      (flag && rest.head?.any (fun next => decide (Quantifies next)) || detects flags rest) := by
  simp [detects]

theorem detects_repeats (flags : List Bool) {symbol : Option Char} (h : Repeats symbol)
    (rest : List (Option Char)) :
    detects flags (symbol :: rest) = detects (flags.modifyHead (fun _ => true)) rest := by
  simp [detects, repeats_ne_opening h, repeats_ne_closing h, h]

theorem detects_append {word : List (Option Char)} (h : ∀ flags, detects flags word = true)
    (flags : List Bool) (before : List (Option Char)) : detects flags (before ++ word) = true := by
  induction before generalizing flags with
  | nil => exact h flags
  | cons symbol before ih =>
    rw [List.cons_append, detects]
    split_ifs
    · exact ih _
    · simp [ih]
    · exact ih _
    · exact ih _

/-- A balanced word leaves the flags around it alone but for the innermost one, which it can
only set. -/
theorem detects_balanced {body : List (Option Char)} (hbody : BalancedSymbols body) {flag : Bool}
    {flags : List Bool} {rest : List (Option Char)}
    (h : ∀ flag', flag ≤ flag' → detects (flag' :: flags) rest = true) :
    detects (flag :: flags) (body ++ rest) = true := by
  induction hbody generalizing flag flags rest with
  | nil => exact h flag le_rfl
  | @other symbol word notOpening notClosing _ ih =>
    rw [List.cons_append, detects, if_neg notOpening, if_neg notClosing]
    by_cases hrepeats : Repeats symbol
    · rw [if_pos hrepeats]
      exact ih (fun flag' hle => h flag' ((Bool.le_true flag).trans hle))
    · rw [if_neg hrepeats]
      exact ih h
  | @group inner word _ _ ihInner ihWord =>
    rw [List.cons_append, detects_opening, List.append_assoc, List.cons_append]
    apply ihInner
    intro _ _
    rw [detects_closing, ihWord h, Bool.or_true]

/-- A group with a quantifier of its own is found, whatever stands around it. -/
theorem detects_of_own {word : List (Option Char)} (h : OwnNestedQuantifiers word)
    (flags : List Bool) : detects flags word = true := by
  obtain ⟨_, ⟨before, quantifier, after, rfl, _, hquantifier⟩,
    first, symbol, last, rfl, hfirst, hlast, hrepeats⟩ := h
  apply detects_append
  intro flags
  rw [detects_opening, List.append_assoc, List.cons_append]
  apply detects_balanced hfirst
  intro _ _
  rw [detects_repeats _ hrepeats, List.modifyHead_cons]
  apply detects_balanced hlast
  intro flag hflag
  have hset : flag = true := Bool.eq_true_of_true_le hflag
  simp [detects_closing, hset, hquantifier]

/-- What a flag says of the part of its group that was read. -/
def Flagged (flag : Bool) (body : List (Option Char)) : Prop :=
  flag = true → AtTop (some '(') (some ')') Repeats body

theorem flagged_false (body : List (Option Char)) : Flagged false body := by
  intro set
  cases set

abbrev UnclosedSymbols := Unclosed (some '(') (some ')') Flagged

theorem unclosed_other {flags : List Bool} {read : List (Option Char)} {symbol : Option Char}
    (h : UnclosedSymbols flags read) (notOpening : symbol ≠ some '(')
    (notClosing : symbol ≠ some ')') : UnclosedSymbols flags (read ++ [symbol]) := by
  cases flags with
  | nil => exact .outside _
  | cons flag flags =>
    refine h.extend notOpening notClosing (fun body _ flagged set => ?_)
    exact (flagged set).append (.other notOpening notClosing .nil)

theorem unclosed_repeats {flags : List Bool} {read : List (Option Char)} {symbol : Option Char}
    (h : UnclosedSymbols flags read) (hrepeats : Repeats symbol) :
    UnclosedSymbols (flags.modifyHead (fun _ => true)) (read ++ [symbol]) := by
  cases flags with
  | nil => exact .outside _
  | cons flag flags =>
    refine h.extend (repeats_ne_opening hrepeats) (repeats_ne_closing hrepeats) ?_
    intro body hbody _ _
    exact .of_append_other hbody hrepeats

/-- A set flag before a closing bracket and a quantifier is a group with a quantifier of its
own. -/
theorem own_of_closing {flags : List Bool} {read rest : List (Option Char)}
    {quantifier : Option Char} (h : UnclosedSymbols (true :: flags) read)
    (hquantifier : Quantifies quantifier) :
    OwnNestedQuantifiers (read ++ some ')' :: quantifier :: rest) := by
  cases h with
  | @inside _ _ word body _ balanced flagged =>
    refine ⟨body, ⟨word, quantifier, rest, ?_, balanced, hquantifier⟩, flagged rfl⟩
    rw [List.append_assoc, List.cons_append]

theorem own_of_detects {flags : List Bool} {read rest : List (Option Char)}
    (h : UnclosedSymbols flags read) (found : detects flags rest = true) :
    OwnNestedQuantifiers (read ++ rest) := by
  induction rest generalizing flags read with
  | nil => simp [detects] at found
  | cons symbol rest ih =>
    have hread : read ++ symbol :: rest = read ++ [symbol] ++ rest := by simp
    by_cases hopening : symbol = some '('
    · subst hopening
      rw [detects_opening] at found
      rw [hread]
      exact ih (h.push (flagged_false [])) found
    by_cases hclosing : symbol = some ')'
    · subst hclosing
      cases flags with
      | nil => exact hread ▸ ih (.outside _) (by simpa [detects] using found)
      | cons flag flags =>
        rw [detects_closing, Bool.or_eq_true] at found
        rcases found with hhere | hlater
        · cases rest with
          | nil => simp at hhere
          | cons quantifier rest =>
            obtain ⟨rfl, hquantifier⟩ : flag = true ∧ Quantifies quantifier := by
              simpa using hhere
            exact own_of_closing h hquantifier
        · rw [hread]
          refine ih (h.pop ?_) hlater
          intro _ _ _ hgroup flagged set
          exact (flagged set).append hgroup
    rw [hread]
    by_cases hrepeats : Repeats symbol
    · rw [detects_repeats _ hrepeats] at found
      exact ih (unclosed_repeats h hrepeats) found
    · rw [detects, if_neg hopening, if_neg hclosing, if_neg hrepeats] at found
      exact ih (unclosed_other h hopening hclosing) found

end Machine

section Scanner

theorem quantifies_some {char : Char} : Quantifies (some char) ↔ char ∈ groupQuantifiers := by
  constructor
  · rintro ⟨_, hmem, heq⟩
    cases heq
    exact hmem
  · intro hmem
    exact ⟨char, hmem, rfl⟩

theorem repeats_some {char : Char} : Repeats (some char) ↔ char ∈ markingQuantifiers := by
  constructor
  · rintro ⟨_, hmem, heq⟩
    cases heq
    exact hmem
  · intro hmem
    exact ⟨char, hmem, rfl⟩

theorem head?_symbols (pattern : List Char) :
    (symbols false pattern).head?.any (fun next => decide (Quantifies next)) =
      pattern.head?.any (· ∈ groupQuantifiers) := by
  have hnone : ¬ Quantifies none := by decide
  cases pattern with
  | nil => rfl
  | cons char rest =>
    by_cases hescape : char = '\\'
    · subst hescape
      cases rest <;> simp [symbols, hnone, groupQuantifiers]
    by_cases hbracket : char = '['
    · subst hbracket
      simp [symbols_bracket, hnone, groupQuantifiers]
    · simp [symbols_outside hescape hbracket, quantifies_some]

theorem map_markGroupQuantified (s : NestedQuantifierScanner) (char : Char) :
    (s.markGroupQuantified char).openGroups.map (·.hasQuantifier) =
      if Repeats (some char) then (s.openGroups.map (·.hasQuantifier)).modifyHead (fun _ => true)
      else s.openGroups.map (·.hasQuantifier) := by
  unfold NestedQuantifierScanner.markGroupQuantified
  simp only [repeats_some]
  by_cases hmem : char ∈ markingQuantifiers
  · rw [if_pos hmem, if_pos hmem]
    cases hgrps : s.openGroups <;> simp [hgrps]
  · rw [if_neg hmem, if_neg hmem]

theorem inCharacterClass_markGroupQuantified (s : NestedQuantifierScanner) (char : Char) :
    (s.markGroupQuantified char).inCharacterClass = s.inCharacterClass := by
  unfold NestedQuantifierScanner.markGroupQuantified
  split_ifs
  · cases s.openGroups <;> rfl
  · rfl

theorem detects_none (flags : List Bool) (rest : List (Option Char)) :
    detects flags (none :: rest) = detects flags rest := by
  have hnone : ¬ Repeats none := by decide
  simp [detects, hnone]

/-- One character that is not escaped: what the scanner finds at it, and in which state. -/
theorem consume_detects (s s' : NestedQuantifierScanner) (found : Bool) (index : ℕ) {char : Char}
    (rest : List Char) (hescape : char ≠ '\\')
    (hcons : s.consume index char rest.head? = (s', found)) :
    detects (s.openGroups.map (·.hasQuantifier)) (symbols s.inCharacterClass (char :: rest)) =
      (found ||
        detects (s'.openGroups.map (·.hasQuantifier)) (symbols s'.inCharacterClass rest)) := by
  obtain ⟨groups, inClass⟩ := s
  unfold NestedQuantifierScanner.consume NestedQuantifierScanner.consumeCharacterClass at hcons
  cases inClass with
  | true =>
    rw [symbols_inside hescape]
    by_cases hclose : char = ']'
    · subst hclose
      simp at hcons
      obtain ⟨rfl, rfl⟩ := hcons
      simp
    · simp [hclose] at hcons
      obtain ⟨rfl, rfl⟩ := hcons
      simp [bne_iff_ne.mpr hclose]
  | false =>
    by_cases hbracket : char = '['
    · subst hbracket
      rw [symbols_bracket, detects_none]
      simp at hcons
      obtain ⟨rfl, rfl⟩ := hcons
      simp
    rw [symbols_outside hescape hbracket]
    simp only [hbracket, false_and, Bool.false_eq_true, and_false, if_false] at hcons
    by_cases hopening : char = '('
    · subst hopening
      simp at hcons
      obtain ⟨rfl, rfl⟩ := hcons
      simp [detects_opening]
    by_cases hclosing : char = ')'
    · subst hclosing
      simp at hcons
      obtain ⟨rfl, rfl⟩ := hcons
      cases groups with
      | nil => simp [closesNestedQuantifier, detects]
      | cons group outer => simp [closesNestedQuantifier, detects_closing, head?_symbols]
    · simp only [hopening, hclosing, if_false, Prod.mk.injEq] at hcons
      obtain ⟨rfl, rfl⟩ := hcons
      rw [map_markGroupQuantified, inCharacterClass_markGroupQuantified, detects]
      simp only [Option.some.injEq, hopening, hclosing, if_false, Bool.false_or]
      split_ifs <;> rfl

theorem scan_eq (s : NestedQuantifierScanner) (index : ℕ) (pattern : List Char) :
    scan s index pattern =
      detects (s.openGroups.map (·.hasQuantifier)) (symbols s.inCharacterClass pattern) := by
  fun_induction scan with
  | case1 => simp [symbols, detects]
  | case2 s index => cases s.inCharacterClass <;> simp [symbols, detects, detects_none]
  | case3 s index _ rest ih =>
    rw [ih]
    cases s.inCharacterClass <;> simp [symbols, detects_none]
  | case4 s index char rest hescape s' found hcons ih =>
    rw [ih, consume_detects s s' found index rest hescape hcons]

end Scanner

/-- The scanner finds the groups that have a quantifier of their own, and no others. -/
theorem hasNestedQuantifiers_eq_true_iff (pattern : String) :
    hasNestedQuantifiers pattern = true ↔ OwnNestedQuantifiers (patternSymbols pattern) := by
  unfold hasNestedQuantifiers patternSymbols
  rw [scan_eq]
  constructor
  · intro found
    exact own_of_detects (Unclosed.outside []) found
  · intro h
    exact detects_of_own h _

theorem hasNestedQuantifiers_congr {pattern other : String}
    (h : patternSymbols other = patternSymbols pattern) :
    hasNestedQuantifiers other = hasNestedQuantifiers pattern := by
  rw [Bool.eq_iff_iff, hasNestedQuantifiers_eq_true_iff, hasNestedQuantifiers_eq_true_iff, h]

theorem nested_quantifiers_detected_iff (pattern : String) :
    ((NestedQuantifiers (patternSymbols pattern) → hasNestedQuantifiers pattern = true) ∧
      ∀ other, patternSymbols other = patternSymbols pattern →
        hasNestedQuantifiers other = hasNestedQuantifiers pattern) ↔
      (NestedQuantifiers (patternSymbols pattern) →
        OwnNestedQuantifiers (patternSymbols pattern)) := by
  rw [hasNestedQuantifiers_eq_true_iff]
  constructor
  · intro h
    exact h.1
  · intro h
    exact ⟨h, fun _ heq => hasNestedQuantifiers_congr heq⟩

/-- The quantifier of the inner group is not passed on to the group around it. -/
theorem quantifier_in_inner_group_missed :
    NestedQuantifiers (patternSymbols "((a+)b)+") ∧
      hasNestedQuantifiers "((a+)b)+" = false := by
  have htext : "((a+)b)+".toList = ['(', '(', 'a', '+', ')', 'b', ')', '+'] := by simp
  have hinner : BalancedSymbols [some 'a', some '+'] :=
    .other (by decide) (by decide) (.other (by decide) (by decide) .nil)
  have hbody : BalancedSymbols [some '(', some 'a', some '+', some ')', some 'b'] :=
    .group hinner (.other (by decide) (by decide) .nil)
  unfold patternSymbols hasNestedQuantifiers
  rw [htext]
  have hquantified : QuantifiedGroup (symbols false ['(', '(', 'a', '+', ')', 'b', ')', '+'])
      [some '(', some 'a', some '+', some ')', some 'b'] :=
    ⟨[], some '+', [], by decide, hbody, by decide⟩
  exact ⟨⟨_, hquantified, some '+', by simp, by decide⟩, by decide⟩

end TsxCore.Filters
