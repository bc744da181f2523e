import TsxCore.Outcome

/-!
# Computations with a bound on their rounds

A loop that is written with fuel answers `stop` when its fuel is used up. It
terminates when all large amounts of fuel give one result other than `stop`.
-/

namespace TsxCore.Fuel

open Filter Outcome

universe u v

variable {ε : Type u} {α β σ : Type v} {stop : ε}

def Terminates (stop : ε) (f : ℕ → Except ε α) : Prop :=
  ∃ result, result ≠ .error stop ∧ ∀ᶠ fuel in atTop, f fuel = result

theorem terminates_const {result : Except ε α} (h : result ≠ .error stop) :
    Terminates stop (fun _ => result) := ⟨result, h, .of_forall (fun _ => rfl)⟩

theorem terminates_pure (a : α) : Terminates stop (fun _ => (pure a : Except ε α)) :=
  terminates_const (by simp [pure, Except.pure])

theorem terminates_succ {f : ℕ → Except ε α} (h : Terminates stop (fun fuel => f (fuel + 1))) :
    Terminates stop f := by
  obtain ⟨result, hres, hf⟩ := h
  refine ⟨result, hres, ?_⟩
  obtain ⟨enough, henough⟩ := eventually_atTop.mp hf
  refine eventually_atTop.mpr ⟨enough + 1, ?_⟩
  intro fuel hfuel
  obtain ⟨before, rfl⟩ := Nat.exists_eq_add_of_le' (Nat.le_of_add_left_le hfuel)
  exact henough before (by omega)

theorem Terminates.bind {f : ℕ → Except ε α} {g : ℕ → α → Except ε β} (hf : Terminates stop f)
    (hg : ∀ fuel a, f fuel = .ok a → Terminates stop (fun fuel => g fuel a)) :
    Terminates stop (fun fuel => f fuel >>= g fuel) := by
  obtain ⟨result, hres, hf⟩ := hf
  cases result with
  | error e =>
    refine ⟨.error e, ?_, ?_⟩
    · simpa using hres
    · filter_upwards [hf] with fuel hfuel
      rw [hfuel, error_bind]
  | ok a =>
    obtain ⟨fuel, hfuel⟩ := hf.exists
    obtain ⟨result, hres, hga⟩ := hg fuel a hfuel
    refine ⟨result, hres, ?_⟩
    filter_upwards [hf, hga] with fuel hfuel hgfuel
    rw [hfuel, ok_bind, hgfuel]

theorem terminates_foldlM {f : ℕ → σ → α → Except ε σ} {as : List α}
    (hf : ∀ s, ∀ a ∈ as, Terminates stop (fun fuel => f fuel s a)) (s : σ) :
    Terminates stop (fun fuel => as.foldlM (f fuel) s) := by
  induction as generalizing s with
  | nil => exact terminates_pure s
  | cons a as ih =>
    simp only [List.foldlM_cons]
    refine (hf s a List.mem_cons_self).bind ?_
    intro _ s' _
    exact ih (fun s b hb => hf s b (List.mem_cons_of_mem a hb)) s'

theorem terminates_mapM {f : ℕ → α → Except ε β} {as : List α}
    (hf : ∀ a ∈ as, Terminates stop (fun fuel => f fuel a)) :
    Terminates stop (fun fuel => as.mapM (f fuel)) := by
  induction as with
  | nil => exact terminates_pure []
  | cons a as ih =>
    simp only [List.mapM_cons]
    refine (hf a List.mem_cons_self).bind ?_
    intro _ b _
    refine (ih (fun c hc => hf c (List.mem_cons_of_mem a hc))).bind ?_
    intro _ bs _
    exact terminates_pure (b :: bs)

theorem terminates_forM {f : ℕ → α → Except ε PUnit} {as : List α}
    (hf : ∀ a ∈ as, Terminates stop (fun fuel => f fuel a)) :
    Terminates stop (fun fuel => as.forM (f fuel)) := by
  induction as with
  | nil => exact terminates_pure PUnit.unit
  | cons a as ih =>
    change Terminates stop (fun fuel => f fuel a >>= fun _ => as.forM (f fuel))
    refine (hf a List.mem_cons_self).bind ?_
    intro _ _ _
    exact ih (fun c hc => hf c (List.mem_cons_of_mem a hc))

theorem card_sdiff_cons_lt {α : Type v} [DecidableEq α] {s : Finset α} {seen : List α} {a : α}
    (ha : a ∈ s) (hnew : a ∉ seen) :
    (s \ (a :: seen).toFinset).card < (s \ seen.toFinset).card := by
  refine Finset.card_lt_card (Finset.ssubset_iff_subset_ne.mpr ⟨?_, ?_⟩)
  · exact Finset.sdiff_subset_sdiff le_rfl (by simp)
  · intro heq
    have hmem : a ∈ s \ seen.toFinset := by simp [ha, hnew]
    rw [← heq] at hmem
    simp at hmem

end TsxCore.Fuel
