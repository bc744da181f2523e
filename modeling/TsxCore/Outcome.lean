import Mathlib.Tactic

/-!
# Computations that may throw

A throwing function returns `Except ε α`. The lemmas below take one such
computation apart: a sequence succeeds exactly when each of its steps does, and
a guard succeeds exactly when its condition is false.
-/

namespace TsxCore.Outcome

universe u v

variable {ε : Type u} {α β : Type v}

/-- `if (bad) throw e;` as a step of a computation. -/
def throwIf (bad : Prop) [Decidable bad] (e : ε) : Except ε Unit :=
  if bad then .error e else .ok ()

@[simp] theorem bind_eq_ok {x : Except ε α} {f : α → Except ε β} {b : β} :
    (x >>= f) = .ok b ↔ ∃ a, x = .ok a ∧ f a = .ok b := by
  cases x with
  | error e => simp [bind, Except.bind]
  | ok a => simp [bind, Except.bind]

theorem bind_eq_error {x : Except ε α} {f : α → Except ε β} {e : ε} :
    (x >>= f) = .error e ↔ x = .error e ∨ ∃ a, x = .ok a ∧ f a = .error e := by
  cases x with
  | error e => simp [bind, Except.bind]
  | ok a => simp [bind, Except.bind]

theorem eq_ok_of_toOption {x : Except ε α} {a : α} (h : x.toOption = some a) : x = .ok a := by
  cases x with
  | error e => cases h
  | ok b => exact congrArg Except.ok (Option.some.inj h)

theorem exists_ok_of_isOk {x : Except ε α} (h : x.isOk = true) : ∃ a, x = .ok a := by
  cases x with
  | error e => cases h
  | ok a => exact ⟨a, rfl⟩

theorem exists_ok_of_any {x : Except ε α} {p : α → Bool} (h : x.toOption.any p = true) :
    ∃ a, x = .ok a ∧ p a = true := by
  cases x with
  | error e => cases h
  | ok a => exact ⟨a, rfl, h⟩

@[simp] theorem map_eq_ok {x : Except ε α} {f : α → β} {b : β} :
    f <$> x = .ok b ↔ ∃ a, x = .ok a ∧ f a = b := by
  cases x with
  | error e => simp [Functor.map, Except.map]
  | ok a => simp [Functor.map, Except.map]

theorem bind_of_ok {x : Except ε α} {a : α} (h : x = .ok a) (f : α → Except ε β) :
    (x >>= f) = f a := by
  rw [h]
  rfl

@[simp] theorem ok_bind (a : α) (f : α → Except ε β) : ((Except.ok a : Except ε α) >>= f) = f a :=
  rfl

@[simp] theorem error_bind (e : ε) (f : α → Except ε β) :
    ((Except.error e : Except ε α) >>= f) = .error e := rfl

@[simp] theorem pure_eq_ok_iff {a b : α} : (pure a : Except ε α) = .ok b ↔ a = b := by
  simp [pure, Except.pure]

@[simp] theorem throwIf_eq_ok {bad : Prop} [Decidable bad] {e : ε} {u : Unit} :
    throwIf bad e = .ok u ↔ ¬ bad := by
  unfold throwIf
  split_ifs <;> simp_all

theorem throwIf_eq_error {bad : Prop} [Decidable bad] {e e' : ε} :
    throwIf bad e = .error e' ↔ bad ∧ e = e' := by
  unfold throwIf
  split_ifs <;> simp_all

@[simp] theorem throwIf_of_not {bad : Prop} [Decidable bad] (h : ¬ bad) (e : ε) :
    throwIf bad e = .ok () := by simp [throwIf, h]

theorem mapM_eq_ok {f : α → Except ε β} {as : List α} {bs : List β} :
    as.mapM f = .ok bs ↔ List.Forall₂ (fun a b => f a = .ok b) as bs := by
  induction as generalizing bs with
  | nil =>
    rw [List.mapM_nil, pure_eq_ok_iff, List.forall₂_nil_left_iff]
    exact eq_comm
  | cons a as ih =>
    rw [List.mapM_cons]
    simp only [bind_eq_ok, pure_eq_ok_iff, ih]
    refine ⟨?_, ?_⟩
    · intro h
      obtain ⟨b, hb, rest, hrest, rfl⟩ := h
      exact .cons hb hrest
    · intro h
      cases h with
      | cons hb hrest => exact ⟨_, hb, _, hrest, rfl⟩

theorem exists_left_of_forall₂ {R : α → β → Prop} {as : List α} {bs : List β} {b : β}
    (h : List.Forall₂ R as bs) (hb : b ∈ bs) : ∃ a ∈ as, R a b := by
  induction h with
  | nil => simp at hb
  | cons hab _ ih =>
    rcases List.mem_cons.mp hb with rfl | hb
    · exact ⟨_, List.mem_cons_self, hab⟩
    · obtain ⟨a, ha, hr⟩ := ih hb
      exact ⟨a, List.mem_cons_of_mem _ ha, hr⟩

theorem exists_right_of_forall₂ {R : α → β → Prop} {as : List α} {bs : List β} {a : α}
    (h : List.Forall₂ R as bs) (ha : a ∈ as) : ∃ b ∈ bs, R a b :=
  exists_left_of_forall₂ h.flip ha

theorem exists_of_mem_mapM {f : α → Except ε β} {as : List α} {bs : List β} {b : β}
    (h : as.mapM f = .ok bs) (hb : b ∈ bs) : ∃ a ∈ as, f a = .ok b :=
  exists_left_of_forall₂ (mapM_eq_ok.mp h) hb

theorem result_of_mem_mapM {f : α → Except ε β} {as : List α} {bs : List β} {a : α}
    (h : as.mapM f = .ok bs) (ha : a ∈ as) : ∃ b ∈ bs, f a = .ok b :=
  exists_right_of_forall₂ (mapM_eq_ok.mp h) ha

theorem exists_of_mapM_error {f : α → Except ε β} {as : List α} {e : ε}
    (h : as.mapM f = .error e) : ∃ a ∈ as, f a = .error e := by
  induction as with
  | nil => cases h
  | cons a as ih =>
    rw [List.mapM_cons, bind_eq_error] at h
    obtain h | ⟨b, -, h⟩ := h
    · exact ⟨a, List.mem_cons_self, h⟩
    · obtain h | ⟨bs, -, h⟩ := bind_eq_error.mp h
      · obtain ⟨a', ha', herror⟩ := ih h
        exact ⟨a', List.mem_cons_of_mem a ha', herror⟩
      · cases h

theorem eq_of_mapM {f : α → Except ε α} {as bs : List α} (h : as.mapM f = .ok bs)
    (hf : ∀ a b, f a = .ok b → b = a) : bs = as := by
  rw [mapM_eq_ok] at h
  induction h with
  | nil => rfl
  | cons hround _ ih => rw [hf _ _ hround, ih]

end TsxCore.Outcome
