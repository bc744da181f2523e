import Mathlib.Tactic

/-!
# Handing out a remainder

A remainder is handed out over a list of places from the last place to the
first, and each place takes as much as its room allows. What is handed out is
determined by the rooms alone: nothing is lost, no room is exceeded, and a
remainder that equals the total room fills every place.
-/

namespace TsxCore.Apportionment

/-- What each place takes, and what is left over at the front. -/
def handOut : List ℕ → ℕ → List ℕ × ℕ
  | [], remainder => ([], remainder)
  | room :: rooms, remainder =>
    let rest := handOut rooms remainder
    (min room rest.2 :: rest.1, rest.2 - min room rest.2)

variable {rooms : List ℕ} {remainder : ℕ}

@[simp] theorem length_handOut : (handOut rooms remainder).1.length = rooms.length := by
  induction rooms with
  | nil => rfl
  | cons room rooms ih => simp [handOut, ih]

theorem handOut_left : (handOut rooms remainder).2 = remainder - rooms.sum := by
  induction rooms with
  | nil => rfl
  | cons room rooms ih =>
    simp only [handOut, ih, List.sum_cons]
    omega

theorem handOut_sum :
    (handOut rooms remainder).1.sum + (handOut rooms remainder).2 = remainder := by
  induction rooms with
  | nil => simp [handOut]
  | cons room rooms ih =>
    simp only [handOut, List.sum_cons]
    omega

theorem handOut_sum_of_le (h : remainder ≤ rooms.sum) :
    (handOut rooms remainder).1.sum = remainder := by
  have hsum := @handOut_sum rooms remainder
  rw [handOut_left] at hsum
  omega

theorem handOut_le : List.Forall₂ (· ≤ ·) (handOut rooms remainder).1 rooms := by
  induction rooms with
  | nil => exact .nil
  | cons room rooms ih => exact .cons (min_le_left _ _) ih

theorem handOut_full (h : rooms.sum ≤ remainder) : (handOut rooms remainder).1 = rooms := by
  induction rooms with
  | nil => rfl
  | cons room rooms ih =>
    rw [List.sum_cons] at h
    simp only [handOut, handOut_left, ih (by omega)]
    rw [min_eq_left (by omega)]

theorem handOut_dvd {step : ℕ} (hrooms : ∀ room ∈ rooms, step ∣ room)
    (hremainder : step ∣ remainder) :
    (∀ extra ∈ (handOut rooms remainder).1, step ∣ extra) ∧ step ∣ (handOut rooms remainder).2 := by
  induction rooms with
  | nil => exact ⟨by simp [handOut], hremainder⟩
  | cons room rooms ih =>
    obtain ⟨hextras, hleft⟩ := ih (fun r hr => hrooms r (List.mem_cons_of_mem _ hr))
    have hmin : step ∣ min room (handOut rooms remainder).2 := by
      rcases min_choice room (handOut rooms remainder).2 with h | h
      · rw [h]
        exact hrooms room List.mem_cons_self
      · rw [h]
        exact hleft
    refine ⟨?_, Nat.dvd_sub hleft hmin⟩
    intro extra hextra
    rcases List.mem_cons.mp hextra with rfl | hextra
    · exact hmin
    · exact hextras extra hextra

end TsxCore.Apportionment
