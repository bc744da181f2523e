import TsxCore.JsRuntime

/-!
# Texts as lists of characters
-/

namespace TsxCore.Characters

/-- `text.length`. -/
def units (text : List Char) : ℕ := (text.map (fun c => if 0x10000 ≤ c.toNat then 2 else 1)).sum

/-- `text.trim()`. -/
def trimmed (text : List Char) : List Char := (text.dropWhile isSpace).rdropWhile isSpace

variable {text : List Char}

theorem trimmed_trimmed (text : List Char) : trimmed (trimmed text) = trimmed text := by
  have hfront : (trimmed text).dropWhile isSpace = trimmed text := by
    cases hcases : trimmed text with
    | nil => rfl
    | cons c rest =>
      obtain ⟨tail, htail⟩ : trimmed text <+: text.dropWhile isSpace :=
        List.rdropWhile_prefix isSpace _
      have hhead := List.head?_dropWhile_not isSpace text
      rw [← htail, hcases, List.cons_append, List.head?_cons] at hhead
      exact List.dropWhile_cons_of_neg (by rw [hhead]; exact Bool.false_ne_true)
  rw [trimmed, hfront, trimmed, List.rdropWhile_idempotent]

theorem not_isSpace_getLast (h : trimmed text = text) (hne : text ≠ []) :
    isSpace (text.getLast hne) = false := by
  have hback : (trimmed text).rdropWhile isSpace = trimmed text := List.rdropWhile_idempotent ..
  rw [h, List.rdropWhile_eq_self_iff] at hback
  exact Bool.not_eq_true _ ▸ hback hne

end TsxCore.Characters
