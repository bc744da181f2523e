import Mathlib.Tactic

/-!
# Selecting keys in cyclic order

A cursor moves over the keys of a linear order: the next key is the least due key
after the cursor, or the least due key at all when none is after it. A key that is
due at every selection waits for each of the other keys at most once.
-/

open scoped Classical

namespace TsxCore.CyclicSelection

variable {α : Type*} [LinearOrder α]

/-- The cursor of a new schedule is before every key. -/
def After (cursor : Option α) (key : α) : Prop := ∀ c ∈ cursor, c < key

@[simp] theorem after_none {key : α} : After none key := by simp [After]

@[simp] theorem after_some {c key : α} : After (some c) key ↔ c < key := by simp [After]

structure Picks (due : Set α) (cursor : Option α) (pick : α) : Prop where
  mem : pick ∈ due
  least : (After cursor pick ∧ ∀ key ∈ due, After cursor key → pick ≤ key) ∨
    ((∀ key ∈ due, ¬ After cursor key) ∧ ∀ key ∈ due, pick ≤ key)

/-- Keys selected one after the other, while `k` is due at every selection. -/
inductive Picked (K : Finset α) (k : α) : Option α → List α → Prop
  | nil {cursor : Option α} : Picked K k cursor []
  | cons {due : Set α} {cursor : Option α} {pick : α} {picks : List α} (hdue : due ⊆ K)
    (hk : k ∈ due)
    (hpick : Picks due cursor pick) (hrest : Picked K k (some pick) picks) :
    Picked K k cursor (pick :: picks)

/-- The keys that may still be selected before `k`. -/
noncomputable def waiting (K : Finset α) (k : α) (cursor : Option α) : Finset α :=
  K.filter (fun key => if After cursor k then key < k ∧ After cursor key
    else key < k ∨ After cursor key)

section Waiting

variable {K : Finset α} {k key pick : α} {cursor : Option α} {due : Set α} {picks : List α}
  {window : List α}

theorem mem_waiting_of_after (h : After cursor k) :
    key ∈ waiting K k cursor ↔ key ∈ K ∧ key < k ∧ After cursor key := by
  rw [waiting, Finset.mem_filter, if_pos h]

theorem mem_waiting_of_not_after (h : ¬ After cursor k) :
    key ∈ waiting K k cursor ↔ key ∈ K ∧ (key < k ∨ After cursor key) := by
  rw [waiting, Finset.mem_filter, if_neg h]

theorem Picks.waiting_ssubset (h : Picks due cursor pick) (hdue : due ⊆ K) (hk : k ∈ due)
    (hne : pick ≠ k) : waiting K k (some pick) ⊂ waiting K k cursor := by
  have hmem : pick ∈ K := hdue h.mem
  have hsmaller : ∀ hold : pick ∈ waiting K k cursor,
      (∀ key ∈ waiting K k (some pick), key ∈ waiting K k cursor) →
        waiting K k (some pick) ⊂ waiting K k cursor := by
    intro hold hsub
    refine ⟨hsub, ?_⟩
    intro hsuperset
    have hnew := hsuperset hold
    by_cases hafter : After (some pick) k
    · rw [mem_waiting_of_after hafter] at hnew
      exact lt_irrefl pick (after_some.mp hnew.2.2)
    · rw [mem_waiting_of_not_after hafter] at hnew
      rcases hnew.2 with hlt | hlt
      · exact hafter (after_some.mpr hlt)
      · exact lt_irrefl pick (after_some.mp hlt)
  by_cases hafter : After cursor k
  · have hleast : After cursor pick ∧ pick ≤ k := by
      rcases h.least with ⟨hpick, hle⟩ | ⟨hnone, -⟩
      · exact ⟨hpick, hle k hk hafter⟩
      · exact absurd hafter (hnone k hk)
    have hlt : pick < k := lt_of_le_of_ne hleast.2 hne
    apply hsmaller
    · exact (mem_waiting_of_after hafter).mpr ⟨hmem, hlt, hleast.1⟩
    · intro key hkey
      rw [mem_waiting_of_after (after_some.mpr hlt), after_some] at hkey
      rw [mem_waiting_of_after hafter]
      exact ⟨hkey.1, hkey.2.1, fun c hc => (hleast.1 c hc).trans hkey.2.2⟩
  · obtain ⟨c, rfl⟩ : ∃ c, cursor = some c := by
      cases cursor with
      | none => exact absurd after_none hafter
      | some c => exact ⟨c, rfl⟩
    have hle : k ≤ c := not_lt.mp (fun hlt => hafter (after_some.mpr hlt))
    rcases h.least with ⟨hpick, -⟩ | ⟨-, hleast⟩
    · rw [after_some] at hpick
      have hpassed : ¬ After (some pick) k := by
        rw [after_some, not_lt]
        exact hle.trans hpick.le
      apply hsmaller
      · exact (mem_waiting_of_not_after hafter).mpr ⟨hmem, .inr (after_some.mpr hpick)⟩
      · intro key hkey
        rw [mem_waiting_of_not_after hpassed, after_some] at hkey
        rw [mem_waiting_of_not_after hafter, after_some]
        exact ⟨hkey.1, hkey.2.imp id hpick.trans⟩
    · have hlt : pick < k := lt_of_le_of_ne (hleast k hk) hne
      apply hsmaller
      · exact (mem_waiting_of_not_after hafter).mpr ⟨hmem, .inl hlt⟩
      · intro key hkey
        rw [mem_waiting_of_after (after_some.mpr hlt)] at hkey
        rw [mem_waiting_of_not_after hafter]
        exact ⟨hkey.1, .inl hkey.2.1⟩

theorem Picked.length_le (h : Picked K k cursor picks) (hnot : k ∉ picks) :
    picks.length ≤ (waiting K k cursor).card := by
  induction h with
  | nil => exact Nat.zero_le _
  | cons hdue hk hpick _ ih =>
    rw [List.mem_cons, not_or] at hnot
    have hcard := Finset.card_lt_card (hpick.waiting_ssubset hdue hk (Ne.symm hnot.1))
    have hrest := ih hnot.2
    rw [List.length_cons]
    omega

theorem Picked.left {after : List α} (h : Picked K k cursor (window ++ after)) :
    Picked K k cursor window := by
  induction window generalizing cursor with
  | nil => exact .nil
  | cons pick window ih =>
    cases h with
    | cons hdue hk hpick hrest => exact .cons hdue hk hpick (ih hrest)

theorem Picked.right {before : List α} (h : Picked K k cursor (before ++ window)) :
    ∃ cursor', Picked K k cursor' window := by
  induction before generalizing cursor with
  | nil => exact ⟨cursor, h⟩
  | cons pick before ih =>
    cases h with
    | cons _ _ _ hrest => exact ih hrest

end Waiting

end TsxCore.CyclicSelection
