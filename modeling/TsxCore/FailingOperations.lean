import Mathlib.Tactic

/-!
# Programs whose operations may fail

A program acts on a state by operations that succeed or fail as a whole. Any of them can be made
to fail, given by a schedule over the operations that are still to come. A triple says what holds
when the program returns and what holds when it throws, whatever was made to fail.
-/

namespace TsxCore.Failing

universe u

variable {ε σ : Type u} {α β ι : Type u}

structure World (σ : Type u) where
  state : σ
  /-- Whether an operation is made to fail, counted from the next one on. -/
  faults : ℕ → Bool

def Program (ε σ α : Type u) := World σ → Except ε α × World σ

instance : Monad (Program ε σ) where
  pure a := fun w => (.ok a, w)
  bind m f := fun w =>
    match m w with
    | (.ok a, next) => f a next
    | (.error e, next) => (.error e, next)

/-- One operation. It throws `failure` where it is made to fail. -/
def operation (failure : ε) (act : σ → Except ε (α × σ)) : Program ε σ α := fun w =>
  if w.faults 0 then (.error failure, ⟨w.state, fun n => w.faults (n + 1)⟩)
  else
    match act w.state with
    | .ok (a, next) => (.ok a, ⟨next, fun n => w.faults (n + 1)⟩)
    | .error e => (.error e, ⟨w.state, fun n => w.faults (n + 1)⟩)

def look (f : σ → Except ε α) : Program ε σ α := fun w => (f w.state, w)

def change (f : σ → σ) : Program ε σ PUnit := fun w => (.ok ⟨⟩, ⟨f w.state, w.faults⟩)

def throwing (e : ε) : Program ε σ α := fun w => (.error e, w)

def catching (m : Program ε σ α) (handler : ε → Program ε σ α) : Program ε σ α := fun w =>
  match m w with
  | (.ok a, next) => (.ok a, next)
  | (.error e, next) => handler e next

def forEach : List ι → (ι → Program ε σ PUnit) → Program ε σ PUnit
  | [], _ => pure ⟨⟩
  | i :: rest, f => do
    f i
    forEach rest f

section Runs

variable {m : Program ε σ α} {f : α → Program ε σ β} {w next : World σ} {a : α} {e failure : ε}
  {act : σ → Except ε (α × σ)} {s t : σ} {faults : ℕ → Bool} {handler : ε → Program ε σ α}

theorem bind_ok (h : m w = (.ok a, next)) : (m >>= f) w = f a next := by
  have hbind : (m >>= f) w = match m w with
      | (.ok a, next) => f a next
      | (.error e, next) => (.error e, next) := rfl
  rw [hbind, h]

theorem bind_error (h : m w = (.error e, next)) : (m >>= f) w = (.error e, next) := by
  have hbind : (m >>= f) w = match m w with
      | (.ok a, next) => f a next
      | (.error e, next) => (.error e, next) := rfl
  rw [hbind, h]

theorem operation_fault (h : faults 0 = true) :
    operation failure act ⟨s, faults⟩ = (.error failure, ⟨s, fun n => faults (n + 1)⟩) :=
  if_pos h

theorem operation_ok (h : faults 0 = false) (hact : act s = .ok (a, t)) :
    operation failure act ⟨s, faults⟩ = (.ok a, ⟨t, fun n => faults (n + 1)⟩) := by
  refine (if_neg ?_).trans ?_
  · simp only [h, Bool.false_eq_true, not_false_eq_true]
  · rw [hact]

theorem operation_error (h : faults 0 = false) (hact : act s = .error e) :
    operation failure act ⟨s, faults⟩ = (.error e, ⟨s, fun n => faults (n + 1)⟩) := by
  refine (if_neg ?_).trans ?_
  · simp only [h, Bool.false_eq_true, not_false_eq_true]
  · rw [hact]

theorem catching_ok (h : m w = (.ok a, next)) : catching m handler w = (.ok a, next) := by
  rw [catching, h]

theorem catching_error (h : m w = (.error e, next)) : catching m handler w = handler e next := by
  rw [catching, h]

theorem forEach_singleton {i : ι} {f : ι → Program ε σ PUnit} (w : World σ) :
    forEach [i] f w = f i w := by
  rcases hrun : f i w with ⟨e | a, next⟩
  · exact bind_error hrun
  · exact bind_ok hrun

theorem eq_ok_of_isOk {ended : Except ε PUnit × World σ} (h : ended.1.isOk = true) :
    ended = (.ok ⟨⟩, ended.2) := by
  rcases ended with ⟨e | a, next⟩
  · cases h
  · rfl

end Runs

section Triples

/-- From `pre` the program returns to `post`, or throws an error to what `failed` says of it. -/
def Ends (pre : σ → Prop) (m : Program ε σ α) (post : α → σ → Prop) (failed : ε → σ → Prop) :
    Prop :=
  ∀ w, pre w.state → (∃ a, (m w).1 = .ok a ∧ post a (m w).2.state) ∨
    ∃ e, (m w).1 = .error e ∧ failed e (m w).2.state

/-- From `pre` the program returns to `post` or throws to `failed`. -/
def Triple (pre : σ → Prop) (m : Program ε σ α) (post : α → σ → Prop) (failed : σ → Prop) : Prop :=
  Ends pre m post (fun _ => failed)

variable {pre pre' : σ → Prop} {post post' : α → σ → Prop} {next : β → σ → Prop}
  {failed failed' : σ → Prop} {thrown : ε → σ → Prop} {m : Program ε σ α}
  {f : α → Program ε σ β} {failure : ε}

theorem Ends.bind (hm : Ends pre m post thrown) (hf : ∀ a, Ends (post a) (f a) next thrown) :
    Ends pre (m >>= f) next thrown := by
  intro w hw
  obtain ⟨a, hres, hpost⟩ | ⟨e, hres, hthrown⟩ := hm w hw
  · rw [bind_ok (Prod.ext hres rfl)]
    exact hf a _ hpost
  · rw [bind_error (Prod.ext hres rfl)]
    exact .inr ⟨e, rfl, hthrown⟩

theorem Ends.operation {act : σ → Except ε (α × σ)} (hfault : ∀ s, pre s → thrown failure s)
    (herror : ∀ s e, pre s → act s = .error e → thrown e s)
    (hact : ∀ s a s', pre s → act s = .ok (a, s') → post a s') :
    Ends pre (operation failure act) post thrown := by
  intro w hw
  unfold Failing.operation
  split_ifs
  · exact .inr ⟨failure, rfl, hfault w.state hw⟩
  · rcases hres : act w.state with e | ⟨a, s'⟩
    · exact .inr ⟨e, rfl, herror w.state e hw hres⟩
    · exact .inl ⟨a, rfl, hact w.state a s' hw hres⟩

theorem Ends.look {act : σ → Except ε α} (herror : ∀ s e, pre s → act s = .error e → thrown e s)
    (hact : ∀ s a, pre s → act s = .ok a → post a s) : Ends pre (look act) post thrown := by
  intro w hw
  unfold Failing.look
  rcases hres : act w.state with e | a
  · exact .inr ⟨e, rfl, herror w.state e hw hres⟩
  · exact .inl ⟨a, rfl, hact w.state a hw hres⟩

theorem Ends.change {act : σ → σ} {post : PUnit → σ → Prop} (h : ∀ s, pre s → post ⟨⟩ (act s)) :
    Ends pre (change act : Program ε σ PUnit) post thrown :=
  fun w hw => .inl ⟨⟨⟩, rfl, h w.state hw⟩

theorem Ends.catching {handler : ε → Program ε σ α} (hm : Ends pre m post thrown)
    (hhandler : ∀ e, Triple (thrown e) (handler e) post failed) :
    Triple pre (catching m handler) post failed := by
  intro w hw
  obtain ⟨a, hres, hpost⟩ | ⟨e, hres, hthrown⟩ := hm w hw
  · rw [catching_ok (Prod.ext hres rfl)]
    exact .inl ⟨a, rfl, hpost⟩
  · rw [catching_error (Prod.ext hres rfl)]
    exact hhandler e _ hthrown

theorem Triple.pure {a : α} (h : ∀ s, pre s → post a s) :
    Triple pre (Pure.pure a : Program ε σ α) post failed :=
  fun w hw => .inl ⟨a, rfl, h w.state hw⟩

theorem Triple.throwing {e : ε} (h : ∀ s, pre s → failed s) :
    Triple pre (throwing e : Program ε σ α) post failed :=
  fun w hw => .inr ⟨e, rfl, h w.state hw⟩

theorem Triple.bind (hm : Triple pre m post failed) (hf : ∀ a, Triple (post a) (f a) next failed) :
    Triple pre (m >>= f) next failed := Ends.bind hm hf

theorem Triple.mono (h : Triple pre' m post' failed') (hpre : ∀ s, pre s → pre' s)
    (hpost : ∀ a s, post' a s → post a s) (hfailed : ∀ s, failed' s → failed s) :
    Triple pre m post failed := by
  intro w hw
  obtain ⟨a, ha, hs⟩ | ⟨e, he, hs⟩ := h w (hpre w.state hw)
  · exact .inl ⟨a, ha, hpost a _ hs⟩
  · exact .inr ⟨e, he, hfailed _ hs⟩

theorem Triple.operation {act : σ → Except ε (α × σ)} (hfailed : ∀ s, pre s → failed s)
    (hact : ∀ s a s', pre s → act s = .ok (a, s') → post a s') :
    Triple pre (operation failure act) post failed :=
  Ends.operation hfailed (fun s _ hs _ => hfailed s hs) hact

theorem Triple.look {act : σ → Except ε α} (hfailed : ∀ s, pre s → failed s)
    (hact : ∀ s a, pre s → act s = .ok a → post a s) : Triple pre (look act) post failed :=
  Ends.look (fun s _ hs _ => hfailed s hs) hact

theorem Triple.change {act : σ → σ} {post : PUnit → σ → Prop}
    (h : ∀ s, pre s → post ⟨⟩ (act s)) :
    Triple pre (change act : Program ε σ PUnit) post failed := Ends.change h

/-- An invariant of a loop speaks about the elements that are left. -/
theorem Triple.forEach {f : ι → Program ε σ PUnit} {inv : List ι → σ → Prop}
    (hround : ∀ i rest, Triple (inv (i :: rest)) (f i) (fun _ => inv rest) failed)
    (items : List ι) : Triple (inv items) (forEach items f) (fun _ => inv []) failed := by
  induction items with
  | nil => exact Triple.pure (fun _ hs => hs)
  | cons i rest ih => exact (hround i rest).bind (fun _ => ih)

end Triples

end TsxCore.Failing
