import Mathlib.Data.List.Nodup

/-!
# Functions given by a table

A run meets a digest at few texts. A function that has the listed values there and another
function's elsewhere is injective if the other one is and never gives a listed value.
-/

namespace TsxCore.DigestTable

section Tables

variable {κ : Type} [BEq κ] [LawfulBEq κ] {read : String → κ} {table : List (κ × String)}
  {other : String → String}

/-- The listed value of a text, as it is read, and that of `other` where none is listed. -/
def digestOf (read : String → κ) (table : List (κ × String)) (other : String → String)
    (text : String) : String :=
  (table.lookup (read text)).getD (other text)

/-- Not a listed value of a table whose values do not start like this. -/
def unlisted (text : String) : String := "?" ++ text

theorem mem_of_lookup {key : κ} {digest : String} (h : table.lookup key = some digest) :
    (key, digest) ∈ table := by
  rw [List.lookup_eq_some_iff] at h
  obtain ⟨before, later, rfl, -⟩ := h
  simp

theorem digestOf_of_mem (hnodup : (table.map (·.1)).Nodup) {text digest : String}
    (h : (read text, digest) ∈ table) : digestOf read table other text = digest := by
  obtain ⟨before, later, rfl⟩ := List.append_of_mem h
  rw [List.map_append, List.map_cons, List.nodup_append] at hnodup
  have hlookup : (before ++ (read text, digest) :: later).lookup (read text) = some digest := by
    refine List.lookup_eq_some_iff.mpr ⟨before, later, rfl, ?_⟩
    intro entry hentry
    simpa using (hnodup.2.2 entry.1 (List.mem_map_of_mem hentry) _ List.mem_cons_self).symm
  rw [digestOf, hlookup, Option.getD_some]

theorem digestOf_holds {P : String → Prop} (htable : ∀ entry ∈ table, P entry.2)
    (hother : ∀ text, P (other text)) (text : String) : P (digestOf read table other text) := by
  rw [digestOf]
  cases h : table.lookup (read text) with
  | none => exact hother text
  | some digest => exact htable _ (mem_of_lookup h)

theorem digestOf_injective (hread : Function.Injective read) (hnodup : (table.map (·.2)).Nodup)
    (hunlisted : ∀ entry ∈ table, entry.2.toList.head? ≠ some '?') :
    Function.Injective (digestOf read table unlisted) := by
  have hother : ∀ {text : String} {entry : κ × String}, entry ∈ table →
      unlisted text ≠ entry.2 := by
    intro text entry hentry heq
    apply hunlisted entry hentry
    rw [← heq, unlisted, String.toList_append]
    rfl
  intro a b h
  rw [digestOf, digestOf] at h
  cases ha : table.lookup (read a) with
  | none =>
    cases hb : table.lookup (read b) with
    | none =>
      rw [ha, hb, Option.getD_none, Option.getD_none, unlisted, unlisted,
        ← String.toList_inj, String.toList_append, String.toList_append] at h
      exact String.toList_inj.mp (List.append_cancel_left h)
    | some digest =>
      rw [ha, hb, Option.getD_none, Option.getD_some] at h
      exact absurd h (hother (mem_of_lookup hb))
  | some digest =>
    cases hb : table.lookup (read b) with
    | none =>
      rw [ha, hb, Option.getD_some, Option.getD_none] at h
      exact absurd h.symm (hother (mem_of_lookup ha))
    | some digest' =>
      rw [ha, hb, Option.getD_some, Option.getD_some] at h
      have hsame := List.inj_on_of_nodup_map hnodup (mem_of_lookup ha) (mem_of_lookup hb) h
      exact hread (congrArg Prod.fst hsame)

end Tables

end TsxCore.DigestTable
