import Mathlib.Tactic

/-!
# Traces of a partial step function

A system is a function that performs an action in a state, or refuses it. A
trace is a list of actions that were all performed. Invariants may speak about
the trace itself, which grows at its end.
-/

namespace TsxCore.Trace

variable {S A : Type*} (step : S → A → Option S) {P : S → A → S → Prop}

def run : S → List A → Option S
  | s, [] => some s
  | s, a :: as => (step s a).bind (fun t => run t as)

variable {step} {s t : S} {a : A} {as bs : List A}

@[simp] theorem run_nil : run step s [] = some t ↔ s = t := by
  simp [run]

theorem run_cons :
    run step s (a :: as) = some t ↔ ∃ m, step s a = some m ∧ run step m as = some t :=
  Option.bind_eq_some_iff

@[simp] theorem run_singleton : run step s [a] = some t ↔ step s a = some t := by
  simp [run_cons]

theorem run_append :
    run step s (as ++ bs) = some t ↔ ∃ m, run step s as = some m ∧ run step m bs = some t := by
  induction as generalizing s with
  | nil => simp
  | cons a as ih =>
    simp only [List.cons_append, run_cons, ih]
    refine ⟨?_, ?_⟩
    · intro h
      obtain ⟨k, hk, m, hm, ht⟩ := h
      exact ⟨m, ⟨k, hk, hm⟩, ht⟩
    · intro h
      obtain ⟨m, ⟨k, hk, hm⟩, ht⟩ := h
      exact ⟨k, hk, m, hm, ht⟩

/-- An invariant of the state together with the trace that led to it. -/
theorem run_invariant {Inv : List A → S → Prop} (hstart : Inv [] s)
    (hstep : ∀ as s a t, Inv as s → step s a = some t → Inv (as ++ [a]) t)
    (h : run step s as = some t) : Inv as t := by
  induction as using List.reverseRecOn generalizing t with
  | nil =>
    rw [run_nil] at h
    exact h ▸ hstart
  | append_singleton as a ih =>
    obtain ⟨m, hm, hlast⟩ := run_append.mp h
    exact hstep as m a t (ih hm) (run_singleton.mp hlast)

theorem run_preserves {P : S → Prop} (hstep : ∀ s a t, a ∈ as → P s → step s a = some t → P t)
    (hs : P s) (h : run step s as = some t) : P t := by
  induction as generalizing s with
  | nil =>
    rw [run_nil] at h
    exact h ▸ hs
  | cons a as ih =>
    obtain ⟨m, hm, hrest⟩ := run_cons.mp h
    have hnext : P m := hstep s a m List.mem_cons_self hs hm
    exact ih (fun s b t hb => hstep s b t (List.mem_cons_of_mem a hb)) hnext hrest

def Along (step : S → A → Option S) (P : S → A → S → Prop) (s : S) (as : List A) : Prop :=
  ∀ before a after m n, as = before ++ a :: after → run step s before = some m →
    step m a = some n → P m a n

theorem along_nil : Along step P s [] := by
  intro before a after m n hsplit _ _
  cases before with
  | nil => cases hsplit
  | cons b before => cases hsplit

theorem along_cons (h : ∀ m, step s a = some m → P s a m ∧ Along step P m as) :
    Along step P s (a :: as) := by
  intro before b after m n hsplit hm hn
  cases before with
  | nil =>
    obtain ⟨rfl, -⟩ := List.cons.inj hsplit
    obtain rfl := run_nil.mp hm
    exact (h n hn).1
  | cons c before =>
    obtain ⟨rfl, hrest⟩ := List.cons.inj hsplit
    obtain ⟨k, hk, hrun⟩ := run_cons.mp hm
    exact (h k hk).2 before b after m n hrest hrun hn

theorem along_singleton (h : ∀ t, step s a = some t → P s a t) : Along step P s [a] :=
  along_cons (fun t ht => ⟨h t ht, along_nil⟩)

/-- An invariant that the steps meeting a condition keep. -/
theorem run_along {Inv : S → Prop} (hs : Inv s)
    (hstep : ∀ s a t, P s a t → Inv s → step s a = some t → Inv t) (halong : Along step P s as)
    (h : run step s as = some t) : Inv t := by
  induction as generalizing s with
  | nil =>
    rw [run_nil] at h
    exact h ▸ hs
  | cons a as ih =>
    obtain ⟨m, hm, hrest⟩ := run_cons.mp h
    have hfirst : P s a m := halong [] a as s m rfl rfl hm
    apply ih (hstep s a m hfirst hs hm) ?_ hrest
    intro before b after k n hsplit hk hn
    apply halong (a :: before) b after k n (by rw [hsplit, List.cons_append]) ?_ hn
    exact run_cons.mpr ⟨m, hm, hk⟩

theorem run_monotone {α : Type*} [Preorder α] {f : S → α}
    (hstep : ∀ s a t, step s a = some t → f s ≤ f t) (h : run step s as = some t) : f s ≤ f t :=
  run_preserves (P := fun m => f s ≤ f m) (fun _ _ _ _ hle hm => hle.trans (hstep _ _ _ hm))
    le_rfl h

end TsxCore.Trace
