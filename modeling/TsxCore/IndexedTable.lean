import TsxCore.KeyedTable

/-!
# Tables with a partial unique index

Next to its primary key a table may have an index over an optional column whose values are
distinct. A statement that would repeat a value of the key or of the index fails; one that
leaves the column alone cannot.
-/

namespace TsxCore

open SqlTable

theorem Keyed.eq_of_rows {R K : Type} {key : R → K} {a b : Keyed key} (h : a.rows = b.rows) :
    a = b := by
  cases a
  cases b
  cases h
  rfl

variable {R K J : Type} [DecidableEq K] [DecidableEq J] {key : R → K} {index : R → Option J}

structure Indexed (key : R → K) (index : R → Option J) extends Keyed key where
  unique : (rows.filterMap index).Nodup

namespace Indexed

variable (t : Indexed key index)

def lookup (value : J) : Option R := t.rows.find? (fun r => index r = some value)

/-- A statement is kept when the index still has distinct values. -/
def checked (table : Keyed key) : Option (Indexed key index) :=
  if h : (table.rows.filterMap index).Nodup then some ⟨table, h⟩ else none

/-- `INSERT`. -/
def insert (r : R) : Option (Indexed key index) :=
  if (t.toKeyed.insert r).1 then checked (t.toKeyed.insert r).2 else none

/-- `UPDATE … SET f WHERE p`. -/
def update (p : R → Bool) (f : R → R) (hf : ∀ r, key (f r) = key r) : Option (Indexed key index) :=
  checked (t.toKeyed.update p f hf)

/-- An `UPDATE` that leaves the indexed column alone. -/
def set (p : R → Bool) (f : R → R) (hf : ∀ r, key (f r) = key r)
    (hindex : ∀ r, index (f r) = index r) :
    Indexed key index where
  toKeyed := t.toKeyed.update p f hf
  unique := by
    have hrows : (t.toKeyed.update p f hf).rows.filterMap index = t.rows.filterMap index := by
      have hmap : (t.toKeyed.update p f hf).rows =
        t.rows.map (fun r => if p r then f r else r) := rfl
      rw [hmap, List.filterMap_map]
      congr 1
      funext r
      simp only [Function.comp_apply]
      split_ifs
      · exact hindex r
      · rfl
    rw [hrows]
    exact t.unique

section Lemmas

variable {t} {t' : Indexed key index} {value : J} {r x : R} {k : K} {p : R → Bool} {f : R → R}
  {hf : ∀ r, key (f r) = key r} {hindex : ∀ r, index (f r) = index r}

omit [DecidableEq K] [DecidableEq J] in
theorem eq_of_index {s : R} (hr : r ∈ t.rows) (hs : s ∈ t.rows) (hvalue : index r = some value)
    (hsame : index s = some value) : r = s := by
  let Same := fun a b : R => ∀ v, index a = some v → index b = some v → a = b
  have hsymm : Std.Symm Same := ⟨fun a b h v hb ha => (h v ha hb).symm⟩
  have hpair : t.rows.Pairwise Same := by
    apply (List.pairwise_filterMap.mp t.unique).imp
    intro a b hne v ha hb
    exact absurd rfl (hne v ha v hb)
  have hall := hpair.forall_of_forall (fun a _ _ _ _ => rfl)
  exact hall hr hs value hvalue hsame

omit [DecidableEq K] in
theorem lookup_eq_some : t.lookup value = some r ↔ r ∈ t.rows ∧ index r = some value := by
  refine ⟨?_, ?_⟩
  · intro h
    exact ⟨List.mem_of_find?_eq_some h, by simpa using List.find?_some h⟩
  · intro h
    obtain ⟨hr, hvalue⟩ := h
    cases hlook : t.lookup value with
    | none => exact absurd hvalue (by simpa using List.find?_eq_none.mp hlook r hr)
    | some s =>
      have hs := List.mem_of_find?_eq_some hlook
      have hsame : index s = some value := by simpa using List.find?_some hlook
      rw [eq_of_index hr hs hvalue hsame]

omit [DecidableEq K] in
theorem lookup_eq_none : t.lookup value = none ↔ ∀ r ∈ t.rows, index r ≠ some value := by
  rw [lookup, List.find?_eq_none]
  simp

omit [DecidableEq K] in
theorem toKeyed_of_checked {table : Keyed key} (h : checked table = some t') :
    t'.toKeyed = table := by
  unfold checked at h
  split_ifs at h
  rw [← Option.some.inj h]

theorem find_of_update (h : t.update p f hf = some t') :
    t'.find k = (t.find k).map (fun r => if p r then f r else r) := by
  rw [toKeyed_of_checked h, Keyed.find_update]

theorem find_of_insert (h : t.insert x = some t') :
    t.find (key x) = none ∧ t'.find k = if key x = k then some x else t.find k := by
  unfold insert at h
  rw [Keyed.insert_fst] at h
  split_ifs at h with hnew
  rw [Option.isNone_iff_eq_none] at hnew
  refine ⟨hnew, ?_⟩
  rw [toKeyed_of_checked h, Keyed.find_insert]
  split_ifs with hk
  · rw [← hk, hnew, Option.getD_none]
  · rfl

end Lemmas

end Indexed

end TsxCore
