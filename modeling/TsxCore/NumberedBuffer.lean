import Mathlib.Tactic

/-!
# Bounded buffers of numbered items

A producer numbers its items from one and keeps the last `capacity` of them. A reader
names the number it has seen; what it is handed next is the items above that number,
unless some of them have left the buffer. The numbers of a buffer are consecutive and
end at the producer's cursor, which is part of the structure.
-/

namespace TsxCore

variable {E : Type} {number : E → ℕ} {capacity : ℕ}

structure NumberedBuffer (number : E → ℕ) (capacity : ℕ) where
  items : List E
  cursor : ℕ
  numbers : items.map number = List.range' (cursor - items.length + 1) items.length
  length : items.length = min cursor capacity

namespace NumberedBuffer

def empty : NumberedBuffer number capacity := ⟨[], 0, rfl, by simp⟩

/-- The list of a bounded queue after `append`. -/
def appended (capacity : ℕ) (items : List E) (e : E) : List E :=
  (items ++ [e]).drop (items.length + 1 - capacity)

variable (b : NumberedBuffer number capacity)

theorem length_le_cursor : b.items.length ≤ b.cursor := b.length.trans_le (min_le_left _ _)

theorem numbers_append {e : E} (he : number e = b.cursor + 1) :
    (b.items ++ [e]).map number = List.range' (b.cursor - b.items.length + 1)
      (b.items.length + 1) := by
  have hle := b.length_le_cursor
  rw [List.map_append, b.numbers, List.map_singleton, he, ← List.range'_append_1]
  congr 2
  omega

def push (e : E) (he : number e = b.cursor + 1) : NumberedBuffer number capacity where
  items := appended capacity b.items e
  cursor := b.cursor + 1
  numbers := by
    have hlen := b.length
    rw [appended, List.map_drop, b.numbers_append he, List.drop_range', List.length_drop,
      List.length_append, List.length_singleton]
    congr 1
    omega
  length := by
    have hlen := b.length
    rw [appended, List.length_drop, List.length_append, List.length_singleton]
    omega

variable {b} {e x : E} {k : ℕ}

theorem bounds_of_mem (hx : x ∈ b.items) :
    b.cursor - b.items.length < number x ∧ number x ≤ b.cursor := by
  have hmem : number x ∈ b.items.map number := List.mem_map_of_mem hx
  have hle := b.length_le_cursor
  rw [b.numbers, List.mem_range'_1] at hmem
  omega

theorem mem_push_of_mem (he : number e = b.cursor + 1) (hx : x ∈ b.items)
    (hfits : b.cursor + 1 < number x + capacity) : x ∈ (b.push e he).items := by
  obtain ⟨i, hi, rfl⟩ := List.mem_iff_getElem.mp hx
  have hlen := b.length
  have hnumb : number b.items[i] = b.cursor - b.items.length + 1 + i := by
    have hat := congrArg (fun numbers : List ℕ => numbers[i]?) b.numbers
    simpa [hi] using hat
  refine List.mem_iff_getElem.mpr ⟨i - (b.items.length + 1 - capacity), ?_, ?_⟩
  · simp only [push, appended, List.length_drop, List.length_append, List.length_singleton]
    omega
  · simp only [push, appended, List.getElem_drop]
    rw [List.getElem_append_left (by omega)]
    congr 1
    omega

theorem mem_push_self (he : number e = b.cursor + 1) (hpos : 0 < capacity) :
    e ∈ (b.push e he).items := by
  have hlen := b.length
  refine List.mem_iff_getElem.mpr ⟨b.items.length - (b.items.length + 1 - capacity), ?_, ?_⟩
  · simp only [push, appended, List.length_drop, List.length_append, List.length_singleton]
    omega
  · simp only [push, appended, List.getElem_drop]
    have hindex : b.items.length + 1 - capacity +
      (b.items.length - (b.items.length + 1 - capacity)) =
        b.items.length := by omega
    simp [hindex]

/-- A reader of `k` has missed items, or knows a number of the future. -/
def Missed (b : NumberedBuffer number capacity) (k : ℕ) : Prop :=
  b.cursor < k ∨ k + capacity < b.cursor
  deriving Decidable

/-- The number of the first item, or the next number when there is none. -/
def first (b : NumberedBuffer number capacity) : ℕ :=
  match b.items.head? with
  | some e => number e
  | none => b.cursor + 1

theorem first_eq : b.first = b.cursor - b.items.length + 1 := by
  unfold first
  cases hitems : b.items with
  | nil => simp
  | cons e rest =>
    have hnumbers := b.numbers
    rw [hitems, List.map_cons, List.length_cons, List.range'_succ] at hnumbers
    exact (List.cons.inj hnumbers).1

theorem missed_iff : b.Missed k ↔ b.cursor < k ∨ k + 1 < b.first := by
  have hlen := b.length
  rw [first_eq, Missed]
  omega

/-- What a reader of `k` is handed: the items above `k`, up to a limit. -/
def above (b : NumberedBuffer number capacity) (k limit : ℕ) : List E :=
  (b.items.filter (fun e => k < number e)).take limit

theorem filter_range' {start length k : ℕ} (hle : start ≤ k + 1) (hk : k + 1 ≤ start + length) :
    (List.range' start length).filter (fun n => k < n) =
      List.range' (k + 1) (start + length - (k + 1)) := by
  have hsplit : length = (k + 1 - start) + (start + length - (k + 1)) := by omega
  rw [hsplit, ← List.range'_append_1, List.filter_append]
  have hbelow : (List.range' start (k + 1 - start)).filter (fun n => k < n) = [] := by
    rw [List.filter_eq_nil_iff]
    intro n hn
    rw [List.mem_range'_1] at hn
    simp only [decide_eq_true_eq]
    omega
  have habove : ∀ n ∈ List.range' (start + (k + 1 - start)) (start + length - (k + 1)),
      decide (k < n) = true := by
    intro n hn
    rw [List.mem_range'_1] at hn
    simp only [decide_eq_true_eq]
    omega
  rw [hbelow, List.filter_eq_self.mpr habove, List.nil_append]
  congr 1 <;> omega

theorem map_number_above (hmissed : ¬ b.Missed k) (limit : ℕ) :
    (b.above k limit).map number = List.range' (k + 1) (min limit (b.cursor - k)) := by
  have hlen := b.length
  rw [Missed, not_or, not_lt, not_lt] at hmissed
  have hfilt : (b.items.filter (fun e => k < number e)).map number =
      (b.items.map number).filter (fun n => k < n) := by
    rw [List.filter_map]
    rfl
  rw [above, List.map_take, hfilt, b.numbers, filter_range' (by omega) (by omega)]
  rcases le_total limit (b.cursor - k) with hle | hle
  · rw [List.take_range'_of_length_ge (by omega), min_eq_left hle]
  · rw [List.take_range'_of_length_le (by omega), min_eq_right hle]
    congr 1
    omega

theorem mem_above {limit : ℕ} (hx : x ∈ b.items) (hk : k < number x) (hmissed : ¬ b.Missed k)
    (hlimit : number x ≤ k + limit) : x ∈ b.above k limit := by
  obtain ⟨-, hle⟩ := bounds_of_mem hx
  have hmem : number x ∈ (b.above k limit).map number := by
    rw [map_number_above hmissed, List.mem_range'_1]
    omega
  obtain ⟨y, hy, heq⟩ := List.mem_map.mp hmem
  have hyb : y ∈ b.items := (List.mem_filter.mp (List.mem_of_mem_take hy)).1
  have hnodup : (b.items.map number).Nodup := b.numbers ▸ List.nodup_range'
  rwa [← List.inj_on_of_nodup_map hnodup hyb hx heq]

end NumberedBuffer

end TsxCore
