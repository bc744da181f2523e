import TsxCore.KeyedTable

/-!
# Deleting the oldest rows

`DELETE … WHERE id IN (SELECT id … WHERE p ORDER BY time ASC LIMIT limit)`: of the rows
that satisfy a condition the oldest ones are deleted, up to a limit. Rows of one time
are taken in the order of the table.
-/

namespace TsxCore.OldestRows

variable {R K : Type} [DecidableEq K]

/-- The rows that the inner `SELECT` returns. -/
def oldest (p : R → Bool) (time : R → ℤ) (limit : ℕ) (rows : List R) : List R :=
  ((rows.filter p).insertionSort (fun a b => time a ≤ time b)).take limit

def selected (key : R → K) (p : R → Bool) (time : R → ℤ) (limit : ℕ) (rows : List R) (row : R) :
    Bool :=
  ((oldest p time limit rows).map key).contains (key row)

/-- What is left, after the number of the deleted rows. -/
def deleteOldest (key : R → K) (p : R → Bool) (time : R → ℤ) (limit : ℕ) (rows : List R) :
    ℕ × List R :=
  (rows.countP (selected key p time limit rows),
    rows.filter (fun row => !selected key p time limit rows row))

variable {key : R → K} {p : R → Bool} {time : R → ℤ} {limit : ℕ} {rows : List R} {row : R}

theorem mem_of_oldest (h : row ∈ oldest p time limit rows) : row ∈ rows ∧ p row = true :=
  List.mem_filter.mp ((List.mem_insertionSort _).mp (List.mem_of_mem_take h))

/-- In a table with keys, the rows of the inner `SELECT` are the rows that are deleted. -/
theorem selected_iff (hnodup : (rows.map key).Nodup) (hrow : row ∈ rows) :
    selected key p time limit rows row = true ↔ row ∈ oldest p time limit rows := by
  rw [selected, List.contains_iff_mem, List.mem_map]
  refine ⟨?_, ?_⟩
  · intro h
    obtain ⟨other, hother, hkey⟩ := h
    rwa [← List.inj_on_of_nodup_map hnodup (mem_of_oldest hother).1 hrow hkey]
  · intro h
    exact ⟨row, h, rfl⟩

end TsxCore.OldestRows
