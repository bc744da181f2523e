import TsxCore.Outcome

/-!
# Which errors a computation may throw

`Throws P x` says that every error of `x` satisfies `P`. A sequence throws what its
steps throw, and a loop what its rounds throw.
-/

namespace TsxCore.Outcome

universe u v

variable {ε : Type u} {P : ε → Prop} {α β : Type v}

def Throws (P : ε → Prop) (x : Except ε α) : Prop := ∀ e, x = .error e → P e

theorem throws_ok (a : α) : Throws P (.ok a : Except ε α) := by
  intro e h
  cases h

theorem throws_pure (a : α) : Throws P (pure a : Except ε α) := throws_ok a

theorem throws_error {e : ε} (h : P e) : Throws P (.error e : Except ε α) := by
  intro e' heq
  cases heq
  exact h

theorem Throws.bind {x : Except ε α} {f : α → Except ε β} (hx : Throws P x)
    (hf : ∀ a, x = .ok a → Throws P (f a)) : Throws P (x >>= f) := by
  intro e h
  rcases bind_eq_error.mp h with herror | ⟨a, ha, herror⟩
  · exact hx e herror
  · exact hf a ha e herror

theorem throws_throwIf {bad : Prop} [Decidable bad] {e : ε} (h : P e) :
    Throws P (throwIf bad e) := by
  intro e' heq
  obtain ⟨-, rfl⟩ := throwIf_eq_error.mp heq
  exact h

theorem throws_foldlM {f : β → α → Except ε β} {as : List α} (hf : ∀ b, ∀ a ∈ as, Throws P (f b a))
    (b : β) : Throws P (as.foldlM f b) := by
  induction as generalizing b with
  | nil => exact throws_pure b
  | cons a as ih =>
    rw [List.foldlM_cons]
    exact (hf b a List.mem_cons_self).bind
      (fun b' _ => ih (fun b a ha => hf b a (List.mem_cons_of_mem _ ha)) b')

theorem throws_mapM {f : α → Except ε β} {as : List α} (hf : ∀ a ∈ as, Throws P (f a)) :
    Throws P (as.mapM f) := by
  induction as with
  | nil => exact throws_pure []
  | cons a as ih =>
    rw [List.mapM_cons]
    exact (hf a List.mem_cons_self).bind (fun b _ =>
      (ih (fun a ha => hf a (List.mem_cons_of_mem _ ha))).bind (fun bs _ => throws_pure (b :: bs)))

section Loops

variable {f : α → Except ε PUnit} {as : List α}

theorem throws_forM (hf : ∀ a ∈ as, Throws P (f a)) : Throws P (as.forM f) := by
  induction as with
  | nil => exact throws_pure _
  | cons a as ih =>
    rw [List.forM_eq_forM, List.forM_cons]
    exact (hf a List.mem_cons_self).bind
      (fun _ _ => ih (fun a ha => hf a (List.mem_cons_of_mem _ ha)))

theorem forM_of_ok (hf : ∀ a ∈ as, f a = .ok ⟨⟩) : as.forM f = .ok ⟨⟩ := by
  induction as with
  | nil => rfl
  | cons a as ih =>
    rw [List.forM_eq_forM, List.forM_cons, hf a List.mem_cons_self, ok_bind]
    exact ih (fun a ha => hf a (List.mem_cons_of_mem _ ha))

theorem forM_ne_ok {a : α} (ha : a ∈ as) (hf : f a ≠ .ok ⟨⟩) (u : PUnit) : as.forM f ≠ .ok u := by
  induction as with
  | nil => cases ha
  | cons b as ih =>
    rw [List.forM_eq_forM, List.forM_cons]
    intro h
    obtain ⟨_, hb, hrest⟩ := bind_eq_ok.mp h
    rcases List.mem_cons.mp ha with rfl | hmem
    · exact hf hb
    · exact ih hmem hrest

theorem forM_eq_error {e : ε} {a : α} (ha : a ∈ as) (hf : f a ≠ .ok ⟨⟩)
    (hall : ∀ a ∈ as, Throws (· = e) (f a)) : as.forM f = .error e := by
  cases hloop : as.forM f with
  | ok u => exact absurd hloop (forM_ne_ok ha hf u)
  | error e' => rw [throws_forM hall e' hloop]

end Loops

end TsxCore.Outcome
