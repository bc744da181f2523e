import TsxCore.SqlTable

/-!
# Tables that carry their primary key

A table together with the proof that its keys are distinct, so that no statement
can build a table with two rows of one key. A statement about one row is a
statement about what `find` returns.
-/

namespace TsxCore

open SqlTable

variable {R K : Type} [DecidableEq K] {key : R → K}

structure Keyed (key : R → K) where
  rows : List R
  nodup : (rows.map key).Nodup

namespace Keyed

variable (t : Keyed key) (k : K) (p : R → Bool)

def empty : Keyed key := ⟨[], List.nodup_nil⟩

def find : Option R := t.rows.find? (fun r => key r = k)

/-- `UPDATE … SET f WHERE p`. -/
def update (f : R → R) (hf : ∀ r, key (f r) = key r) : Keyed key where
  rows := updateWhere p f t.rows
  nodup := by
    rw [map_updateWhere (fun r _ _ => hf r)]
    exact t.nodup

/-- The number of rows that an `UPDATE … WHERE p` changes. -/
def changes : ℕ := SqlTable.changes p t.rows

/-- `DELETE … WHERE p`. -/
def delete : Keyed key where
  rows := t.rows.filter (fun r => !p r)
  nodup := t.nodup.sublist (List.filter_sublist.map key)

/-- `INSERT … ON CONFLICT DO NOTHING`, with what `changes` reports. -/
def insert (r : R) : Bool × Keyed key :=
  if h : (t.find (key r)).isSome then (false, t)
  else (true, {
    rows := t.rows ++ [r]
    nodup := by
      rw [List.map_append, List.map_singleton, List.nodup_append]
      refine ⟨t.nodup, List.nodup_singleton _, ?_⟩
      intro a ha b hb
      rw [List.mem_singleton] at hb
      obtain ⟨x, hx, rfl⟩ := List.mem_map.mp ha
      intro heq
      refine h (List.find?_isSome.mpr ⟨x, hx, ?_⟩)
      simpa [hb] using heq })

theorem rows_of_insert (r : R) (h : ¬ (t.find (key r)).isSome) :
    (t.insert r).2.rows = t.rows ++ [r] := by
  unfold insert
  rw [dif_neg h]

/-- `INSERT … ON CONFLICT(key) DO UPDATE`, with every other column taken from the new row. -/
def upsert (r : R) : Keyed key where
  rows := if (t.find (key r)).isSome then updateWhere (fun x => key x = key r) (fun _ => r) t.rows
    else t.rows ++ [r]
  nodup := by
    split_ifs with h
    · rw [map_updateWhere (fun x _ hx => (of_decide_eq_true hx).symm)]
      exact t.nodup
    · have hnew := rows_of_insert t r h
      rw [← hnew]
      exact (t.insert r).2.nodup

section Lemmas

variable {t k p} {x' : K} {r x : R} {f : R → R} {hf : ∀ r, key (f r) = key r}

theorem find_eq_some : t.find k = some r ↔ r ∈ t.rows ∧ key r = k := by
  refine ⟨?_, ?_⟩
  · intro h
    exact ⟨List.mem_of_find?_eq_some h, by simpa using List.find?_some h⟩
  · intro h
    obtain ⟨hr, hk⟩ := h
    cases hfind : t.find k with
    | none => exact absurd hk (by simpa using List.find?_eq_none.mp hfind r hr)
    | some y =>
      have hy := List.mem_of_find?_eq_some hfind
      have hyk : key y = k := by simpa using List.find?_some hfind
      rw [List.inj_on_of_nodup_map t.nodup hy hr (hyk.trans hk.symm)]

theorem key_of_find (h : t.find k = some r) : key r = k := (find_eq_some.mp h).2

theorem mem_of_find (h : t.find k = some r) : r ∈ t.rows := (find_eq_some.mp h).1

theorem find_eq_none : t.find k = none ↔ ∀ r ∈ t.rows, key r ≠ k := by
  rw [find, List.find?_eq_none]
  simp

theorem find_update :
    (t.update p f hf).find k = (t.find k).map (fun r => if p r then f r else r) := by
  have hkey : (fun r => decide (key r = k)) ∘ (fun r => if p r then f r else r) =
      (fun r => decide (key r = k)) := by
    funext r
    by_cases hp : p r = true
    · simp [hp, hf r]
    · simp [hp]
  have hrows : (t.update p f hf).rows = t.rows.map (fun r => if p r then f r else r) := rfl
  rw [find, hrows, List.find?_map, hkey, find]

omit [DecidableEq K] in
theorem mem_delete : r ∈ (t.delete p).rows ↔ r ∈ t.rows ∧ p r = false := by
  rw [delete, List.mem_filter, Bool.not_eq_true']

theorem changes_of_key (hp : ∀ r, p r = true → key r = k) :
    t.changes p = if (t.find k).any p then 1 else 0 := by
  cases hfind : t.find k with
  | none =>
    rw [find_eq_none] at hfind
    rw [changes, SqlTable.changes, List.countP_eq_zero.mpr]
    · rfl
    · exact fun r hr hpr => hfind r hr (hp r hpr)
  | some r =>
    obtain ⟨hr, hk⟩ := find_eq_some.mp hfind
    by_cases hpr : p r = true
    · rw [Option.any_some, if_pos hpr]
      exact changes_eq_one t.nodup hr hpr (fun y _ hpy => (hp y hpy).trans hk.symm)
    · rw [Option.any_some, if_neg hpr, changes, SqlTable.changes, List.countP_eq_zero]
      intro y hy hpy
      have hsame := List.inj_on_of_nodup_map t.nodup hy hr ((hp y hpy).trans hk.symm)
      exact hpr (hsame ▸ hpy)

theorem find_insert : (t.insert x).2.find k =
    if key x = k then some ((t.find k).getD x) else t.find k := by
  unfold insert
  split_ifs with hold hk hk
  · obtain ⟨y, hy⟩ := Option.isSome_iff_exists.mp hold
    rw [hk] at hy
    rw [hy, Option.getD_some]
  · rfl
  · rw [Bool.not_eq_true, Option.isSome_eq_false_iff, Option.isNone_iff_eq_none, hk] at hold
    rw [find_eq_some, hold]
    exact ⟨by simp, hk⟩
  · rw [find, find, List.find?_append]
    simp [hk]

theorem insert_of_find (h : (t.find (key x)).isSome) : t.insert x = (false, t) := by
  unfold insert
  rw [dif_pos h]

theorem rows_insert (h : t.find (key x) = none) : (t.insert x).2.rows = t.rows ++ [x] :=
  rows_of_insert t x (by simp [h])

theorem rows_upsert_of_find (h : (t.find (key x)).isSome) :
    (t.upsert x).rows = updateWhere (fun r => key r = key x) (fun _ => x) t.rows := if_pos h

theorem rows_upsert_of_new (h : ¬ (t.find (key x)).isSome) : (t.upsert x).rows = t.rows ++ [x] :=
  if_neg h

theorem find_upsert : (t.upsert x).find k = if key x = k then some x else t.find k := by
  by_cases hold : (t.find (key x)).isSome
  · have hkey : (fun r => decide (key r = k)) ∘
        (fun r => if decide (key r = key x) then x else r) = (fun r => decide (key r = k)) := by
      funext r
      by_cases hr : key r = key x
      · simp [hr]
      · simp [hr]
    rw [find, rows_upsert_of_find hold, updateWhere, List.find?_map, hkey]
    split_ifs with hk
    · obtain ⟨y, hy⟩ := Option.isSome_iff_exists.mp hold
      rw [hk] at hy
      have hyk := key_of_find hy
      rw [find] at hy
      simp [hy, hyk, hk]
    · cases hfind : t.find k with
      | none =>
        rw [find] at hfind
        rw [hfind, Option.map_none]
      | some y =>
        have hyk := key_of_find hfind
        rw [find] at hfind
        rw [hfind, Option.map_some, if_neg (by simp [hyk, Ne.symm hk])]
  · rw [find, rows_upsert_of_new hold, List.find?_append]
    rw [Bool.not_eq_true, Option.isSome_eq_false_iff, Option.isNone_iff_eq_none] at hold
    split_ifs with hk
    · rw [find, hk] at hold
      simp [hold, hk]
    · simp [hk, find]

theorem find_delete_key : (t.delete (fun r => key r = x')).find k =
    if k = x' then none else t.find k := by
  rw [find, delete, List.find?_filter]
  split_ifs with hk
  · rw [List.find?_eq_none]
    rintro r -
    simp [hk]
  · rw [find]
    congr 1
    funext r
    by_cases hr : key r = k
    · simp [hr, hk]
    · simp [hr]

theorem insert_fst : (t.insert x).1 = (t.find (key x)).isNone := by
  unfold insert
  split_ifs with h
  · simpa [Option.isNone_iff_eq_none, Option.isSome_iff_ne_none] using h
  · simpa using h

end Lemmas

section Totals

variable {M : Type} [AddCommGroup M] {t : Keyed key} {k : K} {x : R} (w : R → M)

def total (t : Keyed key) : M := (t.rows.map w).sum

theorem sum_split {rows : List R} (hnodup : (rows.map key).Nodup) (k : K) :
    (rows.map w).sum = ((rows.find? (fun r => key r = k)).map w).getD 0 +
      ((rows.filter (fun r => !decide (key r = k))).map w).sum := by
  induction rows with
  | nil => simp
  | cons r rows ih =>
    rw [List.map_cons, List.nodup_cons] at hnodup
    obtain ⟨hnew, hnodup⟩ := hnodup
    by_cases hr : key r = k
    · have hrest : rows.filter (fun r => !decide (key r = k)) = rows := by
        rw [List.filter_eq_self]
        intro y hy
        have hne : key y ≠ k := fun heq => hnew (hr ▸ heq ▸ List.mem_map_of_mem hy)
        simp [hne]
      simp [hr, hrest]
    · simp [hr, ih hnodup, add_left_comm]

theorem total_delete_key :
    (t.delete (fun r => key r = k)).total w = t.total w - ((t.find k).map w).getD 0 := by
  rw [total, total, sum_split w t.nodup k, find, delete]
  exact (add_sub_cancel_left _ _).symm

theorem total_upsert :
    (t.upsert x).total w = t.total w - ((t.find (key x)).map w).getD 0 + w x := by
  have hfind : (t.upsert x).find (key x) = some x := by
    rw [find_upsert, if_pos rfl]
  have hrest : (t.upsert x).rows.filter (fun r => !decide (key r = key x)) =
      t.rows.filter (fun r => !decide (key r = key x)) := by
    by_cases hold : (t.find (key x)).isSome
    · rw [rows_upsert_of_find hold, updateWhere, List.filter_map]
      have hp : (fun r => !decide (key r = key x)) ∘
          (fun r => if decide (key r = key x) then x else r) =
            (fun r => !decide (key r = key x)) := by
        funext r
        by_cases hr : key r = key x
        · simp [hr]
        · simp [hr]
      rw [hp]
      nth_rewrite 2 [← List.map_id (t.rows.filter _)]
      apply List.map_congr_left
      intro r hr
      have hne := (List.mem_filter.mp hr).2
      simp only [Bool.not_eq_true', decide_eq_false_iff_not] at hne
      simp [hne]
    · rw [rows_upsert_of_new hold, List.filter_append]
      simp
  have hnew := sum_split w (t.upsert x).nodup (key x)
  have hold := sum_split w t.nodup (key x)
  rw [find] at hfind
  rw [hfind, hrest] at hnew
  rw [total, total, hnew, hold, find, add_sub_cancel_left]
  exact add_comm _ _

end Totals

end Keyed

end TsxCore
