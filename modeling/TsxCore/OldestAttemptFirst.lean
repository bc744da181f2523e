import Mathlib.Tactic

/-!
# Trying the oldest attempts first

A round takes some of the pending keys, none of which was tried after a key that it leaves, and
stamps them with a time after all earlier rounds. Keys that were taken are behind a waiting key
from then on, so it waits for each of the others at most once.
-/

namespace TsxCore.OldestAttemptFirst

variable {α : Type*} [DecidableEq α]

/-- A round takes `limit` pending keys, or all of them. -/
structure Takes (pending : Finset α) (last : α → ℤ) (limit : ℕ) (taken : Finset α) : Prop where
  subset : taken ⊆ pending
  full : taken = pending ∨ taken.card = limit
  oldest : ∀ a ∈ taken, ∀ b ∈ pending, b ∉ taken → last a ≤ last b

/-- Rounds one after the other, in which `k` stays pending until it is taken. -/
inductive Rounds (limit : ℕ) (k : α) : ℤ → Finset α → (α → ℤ) → List (Finset α) → Prop
  | nil {clock : ℤ} {pending : Finset α} {last : α → ℤ} : Rounds limit k clock pending last []
  | cons {clock now : ℤ} {pending pending' taken : Finset α} {last last' : α → ℤ}
    {rounds : List (Finset α)} (htakes : Takes pending last limit taken)
    (hstamped : ∀ a ∈ pending', a ∈ taken → clock < last' a) (hnow : clock ≤ now)
    (hkept : ∀ a ∈ pending', a ∉ taken → last' a = last a) (hpend : pending' ⊆ pending)
    (hk : k ∈ pending → k ∉ taken → k ∈ pending')
    (hrest : Rounds limit k now pending' last' rounds) :
    Rounds limit k clock pending last (taken :: rounds)

/-- The pending keys that may be taken before `k`. -/
def ahead (pending : Finset α) (last : α → ℤ) (k : α) : Finset α :=
  pending.filter (fun a => a ≠ k ∧ last a ≤ last k)

variable {limit : ℕ} {k : α} {clock : ℤ} {pending pending' taken : Finset α} {last last' : α → ℤ}
  {rounds : List (Finset α)}

theorem mem_ahead {a : α} :
    a ∈ ahead pending last k ↔ a ∈ pending ∧ a ≠ k ∧ last a ≤ last k := Finset.mem_filter

theorem card_ahead_lt (hk : k ∈ pending) : (ahead pending last k).card < pending.card := by
  apply Finset.card_lt_card
  refine ⟨Finset.filter_subset _ _, ?_⟩
  intro hsub
  exact (mem_ahead.mp (hsub hk)).2.1 rfl

omit [DecidableEq α] in
theorem Takes.congr (h : Takes pending last limit taken) (hlast : ∀ a ∈ pending, last a = last' a) :
    Takes pending last' limit taken where
  subset := h.subset
  full := h.full
  oldest a ha b hb hnot := by
    rw [← hlast a (h.subset ha), ← hlast b hb]
    exact h.oldest a ha b hb hnot

/-- A round without `k` takes its keys from those ahead of `k`, and they fall behind it. -/
theorem Takes.card_ahead (h : Takes pending last limit taken) (hpend : pending' ⊆ pending)
    (hk : k ∈ pending') (hnot : k ∉ taken) (hclock : last k ≤ clock)
    (hstamped : ∀ a ∈ pending', a ∈ taken → clock < last' a)
    (hkept : ∀ a ∈ pending', a ∉ taken → last' a = last a) :
    limit + (ahead pending' last' k).card ≤ (ahead pending last k).card := by
  have hcard : taken.card = limit := by
    rcases h.full with hall | hcard
    · exact absurd (hall ▸ hpend hk) hnot
    · exact hcard
  have htaken : taken ⊆ ahead pending last k := by
    intro a ha
    refine mem_ahead.mpr ⟨h.subset ha, ?_, h.oldest a ha k (hpend hk) hnot⟩
    rintro rfl
    exact hnot ha
  have hbehind : Disjoint taken (ahead pending' last' k) := by
    rw [Finset.disjoint_left]
    intro a ha hahead
    obtain ⟨hmem, -, hle⟩ := mem_ahead.mp hahead
    rw [hkept k hk hnot] at hle
    exact absurd (hle.trans hclock) (not_le.mpr (hstamped a hmem ha))
  have hrest : ahead pending' last' k ⊆ ahead pending last k := by
    intro a ha
    obtain ⟨hmem, hne, hle⟩ := mem_ahead.mp ha
    have hout : a ∉ taken := fun htake => Finset.disjoint_left.mp hbehind htake ha
    rw [hkept a hmem hout, hkept k hk hnot] at hle
    exact mem_ahead.mpr ⟨hpend hmem, hne, hle⟩
  rw [← hcard, ← Finset.card_union_of_disjoint hbehind]
  exact Finset.card_le_card (Finset.union_subset htaken hrest)

theorem Rounds.length_mul_le (h : Rounds limit k clock pending last rounds) (hk : k ∈ pending)
    (hclock : last k ≤ clock) (hnot : ∀ taken ∈ rounds, k ∉ taken) :
    rounds.length * limit ≤ (ahead pending last k).card := by
  induction h with
  | nil => simp
  | cons htakes hstamped hnow hkept hpend hstays hrest ih =>
    obtain ⟨hfirst, hlater⟩ := List.forall_mem_cons.mp hnot
    have hstay := hstays hk hfirst
    have hlast := hkept k hstay hfirst
    have hle := ih hstay (hlast.trans_le (hclock.trans hnow)) hlater
    have hround := htakes.card_ahead hpend hstay hfirst hclock hstamped hkept
    rw [List.length_cons, Nat.succ_mul]
    omega

theorem Rounds.exists_taken (h : Rounds limit k clock pending last rounds) (hk : k ∈ pending)
    (hclock : last k ≤ clock) (hlen : pending.card ≤ rounds.length * limit) :
    ∃ taken ∈ rounds, k ∈ taken := by
  by_contra hnone
  have hle := h.length_mul_le hk hclock (fun taken htaken hmem => hnone ⟨taken, htaken, hmem⟩)
  have hlt : (ahead pending last k).card < pending.card := card_ahead_lt hk
  omega

end TsxCore.OldestAttemptFirst
