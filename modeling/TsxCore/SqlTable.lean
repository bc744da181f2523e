import Mathlib.Tactic

/-!
# Tables with a primary key

A table is a list of rows whose keys are distinct. `updateWhere` is an `UPDATE`
with a condition; the number of rows that satisfy the condition is the number of
changes it reports.
-/

namespace TsxCore.SqlTable

variable {R K : Type*}

def updateWhere (p : R → Bool) (f : R → R) (rows : List R) : List R :=
  rows.map (fun r => if p r then f r else r)

def changes (p : R → Bool) (rows : List R) : ℕ := rows.countP p

section Update

variable {p q : R → Bool} {f : R → R} {rows : List R} {x y : R}

theorem mem_updateWhere :
    y ∈ updateWhere p f rows ↔
      (∃ r ∈ rows, p r = true ∧ f r = y) ∨ (y ∈ rows ∧ p y = false) := by
  rw [updateWhere, List.mem_map]
  refine ⟨?_, ?_⟩
  · intro h
    obtain ⟨r, hr, rfl⟩ := h
    by_cases hp : p r = true
    · exact .inl ⟨r, hr, hp, (if_pos hp).symm⟩
    · rw [if_neg hp]
      exact .inr ⟨hr, Bool.eq_false_iff.mpr hp⟩
  · intro h
    rcases h with ⟨r, hr, hp, rfl⟩ | ⟨hy, hp⟩
    · exact ⟨r, hr, if_pos hp⟩
    · exact ⟨y, hy, by simp [hp]⟩

theorem map_updateWhere {key : R → K} (hf : ∀ r ∈ rows, p r = true → key (f r) = key r) :
    (updateWhere p f rows).map key = rows.map key := by
  rw [updateWhere, List.map_map]
  apply List.map_congr_left
  intro r hr
  by_cases hp : p r = true
  · simp [hp, hf r hr hp]
  · simp [hp]

theorem updateWhere_of_changes_zero (h : rows.countP p = 0) : updateWhere p f rows = rows := by
  rw [List.countP_eq_zero] at h
  rw [updateWhere]
  nth_rewrite 2 [← List.map_id rows]
  apply List.map_congr_left
  intro r hr
  simp [h r hr]

theorem countP_updateWhere (hone : changes p rows = 1) (hx : x ∈ rows) (hpx : p x = true) :
    (updateWhere p f rows).countP q + (if q x then 1 else 0) =
      rows.countP q + (if q (f x) then 1 else 0) := by
  unfold changes at hone
  induction rows with
  | nil => exact absurd hx (by simp)
  | cons r rows ih =>
    by_cases hpr : p r = true
    · have hzero : rows.countP p = 0 := by
        rw [List.countP_cons_of_pos hpr] at hone
        omega
      have hxr : x = r := by
        rcases List.mem_cons.mp hx with heq | hmem
        · exact heq
        · exact absurd hpx (List.countP_eq_zero.mp hzero x hmem)
      have hrest := updateWhere_of_changes_zero (f := f) hzero
      rw [updateWhere] at hrest
      rw [hxr, updateWhere, List.map_cons, hrest, if_pos hpr, List.countP_cons, List.countP_cons]
      omega
    · rw [List.countP_cons_of_neg hpr] at hone
      have hmem : x ∈ rows := by
        rcases List.mem_cons.mp hx with heq | hmem
        · exact absurd (heq ▸ hpx) hpr
        · exact hmem
      have hrest := ih hone hmem
      rw [updateWhere] at hrest
      rw [updateWhere, List.map_cons, if_neg hpr, List.countP_cons, List.countP_cons]
      omega

end Update

section Keys

variable {key : R → K} {rows : List R} {x y : R}

theorem eq_of_key (hunique : (rows.map key).Nodup) (hx : x ∈ rows) (hy : y ∈ rows)
    (h : key x = key y) : x = y :=
  List.inj_on_of_nodup_map hunique hx hy h

theorem changes_eq_one {p : R → Bool} (hunique : (rows.map key).Nodup) (hx : x ∈ rows)
    (hpx : p x = true) (hp : ∀ r ∈ rows, p r = true → key r = key x) : changes p rows = 1 := by
  have hnodup : (rows.filter p).Nodup := (List.Nodup.of_map key hunique).filter p
  have hsingle : rows.filter p = [x] := by
    apply List.Perm.eq_singleton
    rw [List.perm_ext_iff_of_nodup hnodup (by simp)]
    intro r
    rw [List.mem_filter, List.mem_singleton]
    refine ⟨?_, ?_⟩
    · intro h
      exact eq_of_key hunique h.1 hx (hp r h.1 h.2)
    · intro h
      rw [h]
      exact ⟨hx, hpx⟩
  rw [changes, List.countP_eq_length_filter, hsingle, List.length_singleton]

end Keys

end TsxCore.SqlTable
