import Mathlib.Data.List.Basic

/-!
# Words with brackets

`Balanced` words over symbols two of which are brackets, and what a left-to-right reader that
keeps one entry per open bracket knows of the word read so far (`Unclosed`).
-/

namespace TsxCore.BracketWords

variable {α β : Type*} (opening closing : α) {word : List α} {R : β → List α → Prop}

inductive Balanced : List α → Prop
  | nil : Balanced []
  | other {a : α} {word : List α} (notOpening : a ≠ opening) (notClosing : a ≠ closing)
      (rest : Balanced word) : Balanced (a :: word)
  | group {body word : List α} (inner : Balanced body) (rest : Balanced word) :
      Balanced (opening :: (body ++ closing :: word))

/-- The entries of the open brackets, innermost first, each related to what followed its
bracket without an open bracket of its own. -/
inductive Unclosed (R : β → List α → Prop) : List β → List α → Prop
  | outside (word : List α) : Unclosed R [] word
  | inside {entry : β} {entries : List β} {word body : List α} (outer : Unclosed R entries word)
      (balanced : Balanced opening closing body) (related : R entry body) :
      Unclosed R (entry :: entries) (word ++ opening :: body)

/-- A symbol of the word outside every bracket of the word. -/
def AtTop (P : α → Prop) (word : List α) : Prop :=
  ∃ before a after, word = before ++ a :: after ∧ Balanced opening closing before ∧
    Balanced opening closing after ∧ P a

variable {opening closing}

theorem Balanced.append {first second : List α} (hfirst : Balanced opening closing first)
    (hsnd : Balanced opening closing second) : Balanced opening closing (first ++ second) := by
  induction hfirst with
  | nil => exact hsnd
  | other notOpening notClosing _ ih => exact .other notOpening notClosing ih
  | group inner _ _ ih =>
    rw [List.cons_append, List.append_assoc, List.cons_append]
    exact .group inner ih

theorem Balanced.append_other {a : α} (hword : Balanced opening closing word)
    (notOpening : a ≠ opening) (notClosing : a ≠ closing) :
    Balanced opening closing (word ++ [a]) := by
  apply hword.append
  exact .other notOpening notClosing .nil

theorem AtTop.append {P : α → Prop} (htop : AtTop opening closing P word) {more : List α}
    (hmore : Balanced opening closing more) : AtTop opening closing P (word ++ more) := by
  obtain ⟨before, a, after, rfl, hbefore, hafter, ha⟩ := htop
  refine ⟨before, a, after ++ more, ?_, hbefore, hafter.append hmore, ha⟩
  rw [List.append_assoc, List.cons_append]

theorem AtTop.of_append_other {P : α → Prop} {a : α} (hword : Balanced opening closing word)
    (ha : P a) : AtTop opening closing P (word ++ [a]) :=
  ⟨word, a, [], rfl, hword, .nil, ha⟩

theorem Unclosed.push {entries : List β} (h : Unclosed opening closing R entries word) {entry : β}
    (related : R entry []) : Unclosed opening closing R (entry :: entries) (word ++ [opening]) :=
  .inside h .nil related

theorem Unclosed.extend {R : β → List α → Prop} {entry entry' : β} {entries : List β}
    {word : List α} {a : α} (h : Unclosed opening closing R (entry :: entries) word)
    (notOpening : a ≠ opening) (notClosing : a ≠ closing)
    (keeps : ∀ body, Balanced opening closing body → R entry body → R entry' (body ++ [a])) :
    Unclosed opening closing R (entry' :: entries) (word ++ [a]) := by
  cases h with
  | inside outer balanced related =>
    rw [List.append_assoc, List.cons_append]
    exact .inside outer (balanced.append_other notOpening notClosing) (keeps _ balanced related)

/-- The group that a closing bracket ends is a balanced piece of the group around it. -/
theorem Unclosed.pop {entry : β} {entries : List β}
    (h : Unclosed opening closing R (entry :: entries) word)
    (keeps : ∀ outer body group, Balanced opening closing group → R outer body →
      R outer (body ++ group)) :
    Unclosed opening closing R entries (word ++ [closing]) := by
  cases h with
  | @inside _ _ word body outer balanced _ =>
    have hgroup : Balanced opening closing (opening :: (body ++ [closing])) := .group balanced .nil
    cases outer with
    | outside => exact .outside _
    | @inside _ _ word outerBody outer outerBalanced related =>
      have hword : word ++ opening :: outerBody ++ opening :: body ++ [closing] =
          word ++ opening :: (outerBody ++ opening :: (body ++ [closing])) := by simp
      rw [hword]
      exact .inside outer (outerBalanced.append hgroup) (keeps _ _ _ hgroup related)

end TsxCore.BracketWords
