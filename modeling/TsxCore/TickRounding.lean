import Mathlib.Algebra.Order.Floor.Ring
import Mathlib.Tactic.Linarith
import Mathlib.Tactic.Ring

/-!
# Rounding down to a tick

`floorTo tick x` is the last whole multiple of the tick that does not exceed `x`.
Rounding up is rounding down on the mirrored axis.
-/

namespace TsxCore

variable {K : Type*} [Field K] [LinearOrder K] [IsStrictOrderedRing K] [FloorRing K]
  {tick x y : K}

def floorTo (tick x : K) : K := ⌊x / tick⌋ * tick

theorem floorTo_le (htick : 0 < tick) : floorTo tick x ≤ x := by
  rw [floorTo, ← le_div_iff₀ htick]
  exact Int.floor_le _

theorem lt_floorTo_add (htick : 0 < tick) : x < floorTo tick x + tick := by
  have h := Int.lt_floor_add_one (x / tick)
  rw [div_lt_iff₀ htick, add_mul, one_mul] at h
  exact h

/-- A multiple of the tick is below the rounded value as soon as it is below the value. -/
theorem multiple_le_floorTo_iff (htick : 0 < tick) (n : ℤ) :
    n * tick ≤ floorTo tick x ↔ n * tick ≤ x := by
  rw [floorTo, mul_le_mul_iff_left₀ htick, Int.cast_le, Int.le_floor, le_div_iff₀ htick]

theorem floorTo_eq_iff (htick : 0 < tick) (n : ℤ) :
    floorTo tick x = n * tick ↔ n * tick ≤ x ∧ x < n * tick + tick := by
  constructor
  · intro h
    rw [← h]
    exact ⟨floorTo_le htick, lt_floorTo_add htick⟩
  · intro h
    have hfloor : ⌊x / tick⌋ = n := by
      rw [Int.floor_eq_iff, le_div_iff₀ htick, div_lt_iff₀ htick, add_mul, one_mul]
      exact h
    rw [floorTo, hfloor]

/-- The whole multiples of a tick that do not exceed a value. -/
def multiplesBelow (tick x : K) : Set K := {y | (∃ n : ℤ, y = n * tick) ∧ y ≤ x}

def multiplesAbove (tick x : K) : Set K := {y | (∃ n : ℤ, y = n * tick) ∧ x ≤ y}

theorem isGreatest_floor_mul (htick : 0 < tick) :
    IsGreatest (multiplesBelow tick x) (⌊x / tick⌋ * tick) := by
  refine ⟨⟨⟨_, rfl⟩, floorTo_le htick⟩, ?_⟩
  rintro y ⟨⟨n, rfl⟩, hle⟩
  exact (multiple_le_floorTo_iff htick n).mpr hle

theorem isLeast_ceil_mul (htick : 0 < tick) :
    IsLeast (multiplesAbove tick x) (⌈x / tick⌉ * tick) := by
  refine ⟨⟨⟨_, rfl⟩, (div_le_iff₀ htick).mp (Int.le_ceil _)⟩, ?_⟩
  rintro y ⟨⟨n, rfl⟩, hle⟩
  apply mul_le_mul_of_nonneg_right _ htick.le
  exact_mod_cast Int.ceil_le.mpr ((div_le_iff₀ htick).mpr hle)

theorem floorTo_mono (htick : 0 < tick) (h : x ≤ y) : floorTo tick x ≤ floorTo tick y :=
  (multiple_le_floorTo_iff htick _).mpr ((floorTo_le htick).trans h)

/-- Rounding up adds a tick to what was rounded down, unless nothing was lost. -/
theorem neg_floorTo_neg (htick : 0 < tick) :
    -floorTo tick (-x) = if floorTo tick x = x then floorTo tick x else floorTo tick x + tick := by
  have hle := floorTo_le (x := x) htick
  have hlt := lt_floorTo_add (x := x) htick
  by_cases h : floorTo tick x = x
  · rw [if_pos h, neg_eq_iff_eq_neg, floorTo, floorTo, ← neg_mul, ← Int.cast_neg]
    apply (floorTo_eq_iff htick _).mpr
    rw [Int.cast_neg, neg_mul, ← floorTo, h]
    exact ⟨le_rfl, lt_add_of_pos_right _ htick⟩
  · have hround : floorTo tick (-x) = ((-(⌊x / tick⌋ + 1) : ℤ) : K) * tick := by
      apply (floorTo_eq_iff htick _).mpr
      have hmultiple : ((-(⌊x / tick⌋ + 1) : ℤ) : K) * tick = -floorTo tick x - tick := by
        rw [floorTo]
        push_cast
        ring
      rw [hmultiple]
      constructor
      · linarith
      · have hstrict := lt_of_le_of_ne hle h
        linarith
    rw [if_neg h, hround, floorTo]
    push_cast
    ring

end TsxCore
