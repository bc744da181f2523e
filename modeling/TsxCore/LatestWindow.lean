import TsxCore.FirstWindow

/-!
# The first complete window is the latest

Of rows in the order of falling times the first complete window is the one that ends last, and
holds the newest row of each key. Which times those are depends only on the keys and times that
occur, not on how often or in which order.
-/

namespace TsxCore.FirstWindow

variable {R K : Type} [DecidableEq K] (key : R → K) (time : R → ℤ) (width : ℤ)

/-- A row at this time ends a window with every required key. -/
structure Complete (rows : List R) (required : List K) (t : ℤ) : Prop where
  anchor : ∃ row ∈ rows, time row = t
  keys : ∀ k ∈ required, ∃ row ∈ rows, key row = k ∧ time row ≤ t ∧ t - width ≤ time row

structure Latest (rows : List R) (required : List K) (selected : List R) (t : ℤ) : Prop where
  keys : selected.map key = required
  mem : ∀ row ∈ selected, row ∈ rows
  within : ∀ row ∈ selected, time row ≤ t ∧ t - width ≤ time row
  newest : ∀ row ∈ selected, ∀ other ∈ rows, key other = key row → time other ≤ t →
    time other ≤ time row
  complete : Complete key time width rows required t
  latest : ∀ t', Complete key time width rows required t' → t' ≤ t

variable {key time width} {rows selected : List R} {required : List K} {anchor row : R} {k : K}

theorem mapM_isSome {A B : Type} {f : A → Option B} {as : List A}
    (h : ∀ a ∈ as, ∃ b, f a = some b) : ∃ bs, as.mapM f = some bs := by
  induction as with
  | nil => exact ⟨[], rfl⟩
  | cons a as ih =>
    obtain ⟨b, hb⟩ := h a List.mem_cons_self
    obtain ⟨bs, hbs⟩ := ih (fun a ha => h a (List.mem_cons_of_mem _ ha))
    exact ⟨b :: bs, by simp [List.mapM_cons, hb, hbs]⟩

theorem window_of_complete
    (h : ∀ k ∈ required, ∃ row ∈ rows, key row = k ∧ time row ≤ time anchor ∧
      time anchor - width ≤ time row) :
    ∃ selected, window key time width rows required anchor = some selected := by
  apply mapM_isSome
  intro k hk
  obtain ⟨row, hrow, hkey, hwithin⟩ := h k hk
  rw [← Option.isSome_iff_exists, pick, List.find?_isSome]
  exact ⟨row, hrow, by simp [hkey, within_iff.mpr hwithin]⟩

theorem complete_of_window (hanchor : anchor ∈ rows)
    (h : window key time width rows required anchor = some selected) :
    Complete key time width rows required (time anchor) := by
  have hwin := window_of_eq_some h
  constructor
  · exact ⟨anchor, hanchor, rfl⟩
  · intro k hk
    rw [← hwin.keys] at hk
    obtain ⟨row, hrow, rfl⟩ := List.mem_map.mp hk
    exact ⟨row, hwin.mem row hrow, rfl, hwin.within row hrow⟩

/-- Among rows of falling times the picked row is the newest of its key in the window. -/
theorem pick_newest (hfalling : rows.Pairwise (fun a b => time b ≤ time a))
    (h : pick key time width rows anchor k = some row) {other : R} (hother : other ∈ rows)
    (hkey : key other = k) (hle : time other ≤ time anchor) : time other ≤ time row := by
  have hfound := List.find?_some h
  simp only [Bool.and_eq_true, decide_eq_true_eq, within_iff] at hfound
  by_cases hlate : time anchor - width ≤ time other
  · obtain ⟨-, before, after, hrows, hbefore⟩ := List.find?_eq_some_iff_append.mp h
    rw [hrows] at hother hfalling
    have hwithin : within time width anchor other = true := within_iff.mpr ⟨hle, hlate⟩
    rcases List.mem_append.mp hother with hmem | hmem
    · have hskipped := hbefore other hmem
      simp [hkey, hwithin] at hskipped
    · rcases List.mem_cons.mp hmem with rfl | hmem
      · exact le_rfl
      · exact List.rel_of_pairwise_cons (List.pairwise_append.mp hfalling).2.1 hmem
  · omega

theorem latest_of_firstWindow (hfalling : rows.Pairwise (fun a b => time b ≤ time a))
    (h : firstWindow key time width rows required = some selected) :
    ∃ t, Latest key time width rows required selected t := by
  obtain ⟨before, anchor, after, hrows, hwin, hnone⟩ := List.findSome?_eq_some_iff.mp h
  have hanchor : anchor ∈ rows := by simp [hrows]
  have hsel := window_of_eq_some hwin
  refine ⟨time anchor, hsel.keys, hsel.mem, hsel.within, ?_,
    complete_of_window hanchor hwin, ?_⟩
  · intro row hrow other hother hkey hle
    rw [window, mapM_eq_some, ← hsel.keys, List.forall₂_map_left_iff,
      List.forall₂_same] at hwin
    exact pick_newest hfalling (hwin row hrow) hother hkey hle
  · intro t' hcomp
    obtain ⟨other, hother, rfl⟩ := hcomp.anchor
    obtain ⟨found, hfound⟩ := window_of_complete hcomp.keys
    rw [hrows] at hother hfalling
    rcases List.mem_append.mp hother with hmem | hmem
    · rw [hnone other hmem] at hfound
      cases hfound
    · rcases List.mem_cons.mp hmem with rfl | hmem
      · exact le_rfl
      · exact List.rel_of_pairwise_cons (List.pairwise_append.mp hfalling).2.1 hmem

theorem firstWindow_eq_none_iff :
    firstWindow key time width rows required = none ↔
      ∀ t, ¬ Complete key time width rows required t := by
  rw [firstWindow, List.findSome?_eq_none_iff]
  constructor
  · intro h t hcomp
    obtain ⟨anchor, hanchor, rfl⟩ := hcomp.anchor
    obtain ⟨found, hfound⟩ := window_of_complete hcomp.keys
    rw [h anchor hanchor] at hfound
    cases hfound
  · intro h anchor hanchor
    cases hwin : window key time width rows required anchor with
    | none => rfl
    | some found => exact absurd (complete_of_window hanchor hwin) (h _)

section SameTimes

variable {rows' selected' : List R} {t t' : ℤ}

omit [DecidableEq K]

def SameTimes (key : R → K) (time : R → ℤ) (rows rows' : List R) : Prop :=
  ∀ k s, (∃ row ∈ rows, key row = k ∧ time row = s) ↔ ∃ row ∈ rows', key row = k ∧ time row = s

theorem SameTimes.symm (h : SameTimes key time rows rows') : SameTimes key time rows' rows :=
  fun k s => (h k s).symm

theorem SameTimes.complete (h : SameTimes key time rows rows')
    (hcomp : Complete key time width rows required t) :
    Complete key time width rows' required t := by
  constructor
  · obtain ⟨row, hrow, rfl⟩ := hcomp.anchor
    obtain ⟨row', hrow', -, htime⟩ := (h _ _).mp ⟨row, hrow, rfl, rfl⟩
    exact ⟨row', hrow', htime⟩
  · intro k hk
    obtain ⟨row, hrow, rfl, hwithin⟩ := hcomp.keys k hk
    obtain ⟨row', hrow', hkey, htime⟩ := (h _ _).mp ⟨row, hrow, rfl, rfl⟩
    exact ⟨row', hrow', hkey, by rwa [htime]⟩

theorem Latest.times (hsame : SameTimes key time rows rows')
    (h : Latest key time width rows required selected t)
    (h' : Latest key time width rows' required selected' t') :
    t = t' ∧ ∀ a ∈ selected, ∀ b ∈ selected', key a = key b → time a = time b := by
  have hanchor : t = t' := le_antisymm (h'.latest t (hsame.complete h.complete))
    (h.latest t' (hsame.symm.complete h'.complete))
  have hnewest : ∀ {rows rows' selected selected' : List R}, SameTimes key time rows rows' →
      Latest key time width rows required selected t →
      Latest key time width rows' required selected' t →
      ∀ a ∈ selected, ∀ b ∈ selected', key a = key b → time a ≤ time b := by
    intro rows rows' selected selected' hsame h h' a ha b hb hkey
    obtain ⟨c, hc, hckey, hctime⟩ := (hsame _ _).mp ⟨a, h.mem a ha, rfl, rfl⟩
    rw [← hctime]
    exact h'.newest b hb c hc (hckey.trans hkey) (hctime ▸ (h.within a ha).1)
  subst hanchor
  refine ⟨rfl, ?_⟩
  intro a ha b hb hkey
  exact le_antisymm (hnewest hsame h h' a ha b hb hkey)
    (hnewest hsame.symm h' h b hb a ha hkey.symm)

end SameTimes

end TsxCore.FirstWindow
