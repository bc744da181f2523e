import Mathlib.Tactic

/-!
# The first complete window

Rows have a key and a time. The first complete window of a list of rows is taken at
the first row such that each required key has a row in the window that ends at its
time. The rows taken form a window of their own: taken alone, in the order of falling
times, they give the same window again.
-/

namespace TsxCore.FirstWindow

variable {R K : Type} [DecidableEq K] (key : R → K) (time : R → ℤ) (width : ℤ)

/-- The row lies in the window that ends at the anchor. -/
def within (anchor row : R) : Bool := time row ≤ time anchor && time anchor - width ≤ time row

def pick (rows : List R) (anchor : R) (k : K) : Option R :=
  rows.find? (fun row => key row = k && within time width anchor row)

def window (rows : List R) (required : List K) (anchor : R) : Option (List R) :=
  required.mapM (pick key time width rows anchor)

def firstWindow (rows : List R) (required : List K) : Option (List R) :=
  rows.findSome? (window key time width rows required)

variable {key time width} {rows selected again : List R} {required : List K}
  {anchor row : R} {k : K}

theorem within_iff :
    within time width anchor row = true ↔
      time row ≤ time anchor ∧ time anchor - width ≤ time row := by
  simp [within]

theorem mapM_eq_some {A B : Type} {f : A → Option B} {as : List A} {bs : List B} :
    as.mapM f = some bs ↔ List.Forall₂ (fun a b => f a = some b) as bs := by
  induction as generalizing bs with
  | nil =>
    simp only [List.mapM_nil, List.forall₂_nil_left_iff]
    exact ⟨fun h => (Option.some.inj h).symm, fun h => by rw [h]; rfl⟩
  | cons a as ih =>
    simp only [List.mapM_cons, Option.bind_eq_bind, Option.bind_eq_some_iff, ih]
    refine ⟨?_, ?_⟩
    · intro h
      obtain ⟨r, hr, rest, hrest, heq⟩ := h
      cases heq
      exact .cons hr hrest
    · intro h
      cases h with
      | cons hr hrest => exact ⟨_, hr, _, hrest, rfl⟩

structure Window (key : R → K) (time : R → ℤ) (width : ℤ) (rows : List R) (required : List K)
    (anchor : R) (selected : List R) : Prop where
  keys : selected.map key = required
  mem : ∀ row ∈ selected, row ∈ rows
  within : ∀ row ∈ selected, time row ≤ time anchor ∧ time anchor - width ≤ time row

theorem window_of_eq_some (h : window key time width rows required anchor = some selected) :
    Window key time width rows required anchor selected := by
  rw [window, mapM_eq_some] at h
  induction h with
  | nil => exact ⟨rfl, by simp, by simp⟩
  | cons hrow _ ih =>
    have hfound := List.find?_some hrow
    simp only [Bool.and_eq_true, decide_eq_true_eq, within_iff] at hfound
    refine ⟨?_, ?_, ?_⟩
    · rw [List.map_cons, ih.keys, hfound.1]
    · intro r hr
      rcases List.mem_cons.mp hr with rfl | hr
      · exact List.mem_of_find?_eq_some hrow
      · exact ih.mem r hr
    · intro r hr
      rcases List.mem_cons.mp hr with rfl | hr
      · exact hfound.2
      · exact ih.within r hr

theorem exists_window (h : firstWindow key time width rows required = some selected) :
    ∃ anchor ∈ rows, Window key time width rows required anchor selected := by
  obtain ⟨anchor, hanchor, hwin⟩ := List.exists_of_findSome?_eq_some h
  exact ⟨anchor, hanchor, window_of_eq_some hwin⟩

theorem pick_of_nodup (hnodup : (rows.map key).Nodup) (hrow : row ∈ rows)
    (hwithin : within time width anchor row = true) :
    pick key time width rows anchor (key row) = some row := by
  cases hfind : pick key time width rows anchor (key row) with
  | none =>
    have hnone := List.find?_eq_none.mp hfind row hrow
    simp [hwithin] at hnone
  | some other =>
    have hfound := List.find?_some hfind
    simp only [Bool.and_eq_true, decide_eq_true_eq] at hfound
    have hmem := List.mem_of_find?_eq_some hfind
    rw [List.inj_on_of_nodup_map hnodup hmem hrow hfound.1]

theorem firstWindow_of_selected (hnodup : required.Nodup) (hreq : required ≠ [])
    (h : firstWindow key time width rows required = some selected) (hperm : again.Perm selected)
    (hfalling : again.Pairwise (fun a b => time b ≤ time a)) :
    firstWindow key time width again required = some selected := by
  obtain ⟨anchor, -, hwin⟩ := exists_window h
  cases again with
  | nil =>
    rw [hperm.symm.eq_nil] at hwin
    exact absurd hwin.keys.symm hreq
  | cons latest rest =>
    have hlat := (hwin.within latest (hperm.mem_iff.mp List.mem_cons_self)).1
    have hkeys : ((latest :: rest).map key).Nodup := by
      rw [(hperm.map key).nodup_iff, hwin.keys]
      exact hnodup
    have hwithin : ∀ row ∈ selected, within time width latest row = true := by
      intro row hrow
      have hspan := (hwin.within row hrow).2
      rw [within_iff]
      refine ⟨?_, by omega⟩
      rcases List.mem_cons.mp (hperm.mem_iff.mpr hrow) with rfl | hrest
      · exact le_refl _
      · exact List.rel_of_pairwise_cons hfalling hrest
    have hpick : window key time width (latest :: rest) required latest = some selected := by
      rw [window, mapM_eq_some, ← hwin.keys, List.forall₂_map_left_iff, List.forall₂_same]
      intro row hrow
      exact pick_of_nodup hkeys (hperm.mem_iff.mpr hrow) (hwithin row hrow)
    rw [firstWindow, List.findSome?_cons, hpick]

end TsxCore.FirstWindow
