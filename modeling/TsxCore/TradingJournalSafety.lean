import TsxCore.TradingRecovery

/-!
# At most one exchange write for each journal row

A writer owns a row once its compare-and-set out of `prepared` has succeeded.
Ownership is never shared: a row does not return to `prepared`, so no second
writer can win it. Only the owner calls `send`, and only an owner that has not
sent can abandon a row that left `prepared`.
-/

namespace TsxCore.TradingRecovery

open Outcome SqlTable Trace

def isClosed (phase : TradingOperationPhase) : Prop := phase = .resolved ∨ phase = .abandoned

def SameKey (a b : TradingOperation) : Prop :=
  a.accountId = b.accountId ∧ a.logicalKey = b.logicalKey

/-- The row a writer has moved out of `prepared`. -/
def WriteStage.owned : WriteStage → Option String
  | .dispatching id | .fenced id | .sent id | .failed id .dispatching _ _
  | .recording id .dispatching _ _ _ => some id
  | _ => none

/-- The row a writer owns without having called `send`. -/
def WriteStage.unsent : WriteStage → Option String
  | .dispatching id | .fenced id | .failed id .dispatching false _
  | .recording id .dispatching false _ _ => some id
  | _ => none

/-- The snapshot in a row matches every order the operation expected. -/
def Observed (operation : TradingOperation) : Prop :=
  ∃ remote observed, operation.evidence = some (.authoritativeOrderSnapshot observed) ∧
    observedOperationEvidence operation.expectedOrders remote operation.kind = some observed

section Rows

variable {db db' : Database} {id : String} {operation row : TradingOperation}
  {p q expected next : TradingOperationPhase} {f : TradingOperation → TradingOperation}
  {rows : List TradingOperation} {evidence : Option Evidence}

structure SameRow (a b : TradingOperation) : Prop where
  id : b.id = a.id
  accountId : b.accountId = a.accountId
  logicalKey : b.logicalKey = a.logicalKey
  generation : b.generation = a.generation
  expectedOrders : b.expectedOrders = a.expectedOrders
  kind : b.kind = a.kind

/-- The effect of an `UPDATE` on the rows: each keeps its identity and moves along the table. -/
structure Moves (f : TradingOperation → TradingOperation)
    (rows : List TradingOperation) : Prop where
  same : ∀ row ∈ rows, SameRow row (f row)
  legal : ∀ row ∈ rows, f row = row ∨ (f row).phase ∈ operationTransitions row.phase
  observed : ∀ row ∈ rows, (f row).phase = .resolved → row.phase ≠ .resolved → Observed (f row)

theorem transition_ne_prepared (h : q ∈ operationTransitions p) : q ≠ .prepared := by
  intro hq
  subst hq
  cases p <;> simp [operationTransitions] at h

theorem transition_of_closed (hp : isClosed p) : q ∉ operationTransitions p := by
  rcases hp with rfl | rfl <;> simp [operationTransitions]

theorem Moves.ne_prepared (hf : Moves f rows) (hrow : row ∈ rows) (h : row.phase ≠ .prepared) :
    (f row).phase ≠ .prepared := by
  rcases hf.legal row hrow with heq | hlegal
  · rwa [heq]
  · exact transition_ne_prepared hlegal

theorem Moves.closed (hf : Moves f rows) (hrow : row ∈ rows) (h : isClosed row.phase) :
    f row = row := by
  rcases hf.legal row hrow with heq | hlegal
  · exact heq
  · exact absurd hlegal (transition_of_closed h)

/-- A compare-and-set that succeeded: what was checked and what it wrote. -/
structure Transition (db : Database) (id : String) (expected next : TradingOperationPhase)
    (evidence : Option Evidence) (f : TradingOperation → TradingOperation) : Prop where
  legal : next ∈ operationTransitions expected
  found : ∃ row ∈ db.operations, row.id = id ∧ row.phase = expected
  written : ∀ row, row.id = id → row.phase = expected →
    SameRow row (f row) ∧ (f row).phase = next ∧ (f row).evidence = (evidence <|> row.evidence)
  kept : ∀ row, ¬ (row.id = id ∧ row.phase = expected) → f row = row

theorem transition_ok {error : Option String}
    (h : transitionTradingOperation db id expected next evidence error = .ok db') :
    ∃ f, Transition db id expected next evidence f ∧
      db' = { db with operations := db.operations.map f } := by
  simp only [transitionTradingOperation, bind_eq_ok, throwIf_eq_ok, not_not, pure_eq_ok_iff] at h
  obtain ⟨_, hlegal, _, hone, rfl⟩ := h
  refine ⟨fun row => if isAt id expected row then moveTo next evidence error row else row,
    ⟨hlegal, ?_, ?_, ?_⟩, rfl⟩
  · have hpos : 0 < db.operations.countP (isAt id expected) := by
      rw [changes] at hone
      omega
    obtain ⟨row, hrow, hat⟩ := List.countP_pos_iff.mp hpos
    simp only [isAt, decide_eq_true_eq] at hat
    exact ⟨row, hrow, hat⟩
  · intro row hid hphase
    have hat : isAt id expected row = true := by simp [isAt, hid, hphase]
    rw [if_pos hat]
    exact ⟨⟨rfl, rfl, rfl, rfl, rfl, rfl⟩, rfl, rfl⟩
  · intro row hnot
    simp [isAt, hnot]

theorem Transition.moves (h : Transition db id expected next evidence f)
    (hobs : next = .resolved → ∀ row ∈ db.operations, row.id = id → Observed (f row)) :
    Moves f db.operations := by
  have hcases : ∀ row, (row.id = id ∧ row.phase = expected) ∨ f row = row := by
    intro row
    by_cases hat : row.id = id ∧ row.phase = expected
    · exact .inl hat
    · exact .inr (h.kept row hat)
  refine ⟨?_, ?_, ?_⟩
  · intro row _
    rcases hcases row with ⟨hid, hphase⟩ | heq
    · exact (h.written row hid hphase).1
    · rw [heq]
      exact ⟨rfl, rfl, rfl, rfl, rfl, rfl⟩
  · intro row _
    rcases hcases row with ⟨hid, hphase⟩ | heq
    · right
      rw [(h.written row hid hphase).2.1, hphase]
      exact h.legal
    · exact .inl heq
  · intro row hrow hresol hnot
    rcases hcases row with ⟨hid, hphase⟩ | heq
    · rw [(h.written row hid hphase).2.1] at hresol
      exact hobs hresol row hrow hid
    · rw [heq] at hresol
      exact absurd hresol hnot

theorem abandonRow_moves (intentId : String) (rows : List TradingOperation) :
    Moves (fun row => if isPreparedFor intentId row then abandonRow row else row) rows := by
  refine ⟨?_, ?_, ?_⟩
  · intro row _
    split_ifs
    · exact ⟨rfl, rfl, rfl, rfl, rfl, rfl⟩
    · exact ⟨rfl, rfl, rfl, rfl, rfl, rfl⟩
  · intro row _
    split_ifs with hprep
    · right
      simp only [isPreparedFor, decide_eq_true_eq] at hprep
      simp [abandonRow, hprep.2, operationTransitions]
    · exact .inl rfl
  · intro row _ hresol hnot
    split_ifs at hresol
    · exact absurd hresol (by simp [abandonRow])
    · exact absurd hresol hnot

theorem latestGeneration_none (h : latestGeneration rows = none) : rows = [] := by
  cases rows with
  | nil => rfl
  | cons operation rest =>
    rw [latestGeneration] at h
    split at h
    · exact absurd h (by simp)
    · exact absurd h (by simp)

theorem latestGeneration_some {latest : TradingOperation}
    (h : latestGeneration rows = some latest) :
    latest ∈ rows ∧ ∀ row ∈ rows, row.generation ≤ latest.generation := by
  induction rows generalizing latest with
  | nil => exact absurd h (by simp [latestGeneration])
  | cons operation rest ih =>
    cases hrest : latestGeneration rest with
    | none =>
      simp only [latestGeneration, hrest, Option.some.injEq] at h
      subst h
      rw [latestGeneration_none hrest]
      simp
    | some later =>
      obtain ⟨hmem, hle⟩ := ih hrest
      simp only [latestGeneration, hrest, Option.some.injEq] at h
      by_cases hlt : operation.generation < later.generation
      · rw [if_pos hlt] at h
        subst h
        refine ⟨List.mem_cons_of_mem _ hmem, ?_⟩
        intro row hrow
        rcases List.mem_cons.mp hrow with rfl | htail
        · exact hlt.le
        · exact hle row htail
      · rw [if_neg hlt] at h
        subst h
        refine ⟨List.mem_cons_self, ?_⟩
        intro row hrow
        rcases List.mem_cons.mp hrow with rfl | htail
        · exact le_rfl
        · exact (hle row htail).trans (not_lt.mp hlt)

/-- A row that may be added: unsent, unknown so far, and after every generation of its key. -/
structure Fresh (rows : List TradingOperation) (row : TradingOperation) : Prop where
  id : ∀ other ∈ rows, other.id ≠ row.id
  phase : row.phase = .prepared
  later : ∀ other ∈ rows, SameKey other row → other.generation < row.generation ∧
    ∃ latest ∈ rows, SameKey latest row ∧ latest.generation + 1 = row.generation ∧
      isClosed latest.phase

theorem hasKey_eq_true {accountId key : String} :
    hasKey accountId key operation = true ↔
      operation.accountId = accountId ∧ operation.logicalKey = key := by
  simp [hasKey]

theorem insertOperation_ok {row : TradingOperation} (h : insertOperation db row = .ok db') :
    (∀ other ∈ db.operations, other.id ≠ row.id) ∧
      db' = { db with operations := db.operations ++ [row] } := by
  simp only [insertOperation, bind_eq_ok, throwIf_eq_ok, pure_eq_ok_iff] at h
  obtain ⟨_, hunique, rfl⟩ := h
  refine ⟨?_, rfl⟩
  intro other hother hid
  apply hunique
  rw [List.any_eq_true]
  exact ⟨other, hother, by simp [hid]⟩

/-- A successful preparation hands out a known prepared row or adds the next generation. -/
theorem prepare_ok {hash : String → String} {input : TradingOperationInput} {fresh : String}
    {now : ℕ} (h : prepareTradingOperation hash db input fresh now = .ok (db', id)) :
    db' = db ∨ ∃ row, Fresh db.operations row ∧
      db' = { db with operations := db.operations ++ [row] } := by
  simp only [prepareTradingOperation, bind_eq_ok] at h
  obtain ⟨orders, -, h⟩ := h
  have hinsd : ∀ previous, insertPrepared hash db input orders previous fresh now =
      .ok (db', id) →
      (∀ other ∈ db.operations, SameKey other (newOperation hash input orders previous fresh now) →
        other.generation < (newOperation hash input orders previous fresh now).generation ∧
        ∃ latest ∈ db.operations,
          SameKey latest (newOperation hash input orders previous fresh now) ∧
          latest.generation + 1 =
            (newOperation hash input orders previous fresh now).generation ∧
          isClosed latest.phase) →
      ∃ row, Fresh db.operations row ∧
        db' = { db with operations := db.operations ++ [row] } := by
    intro previous hinsert hlater
    simp only [insertPrepared, bind_eq_ok, pure_eq_ok_iff, Prod.mk.injEq] at hinsert
    obtain ⟨_, hok, rfl, -⟩ := hinsert
    obtain ⟨hid, rfl⟩ := insertOperation_ok hok
    exact ⟨_, ⟨hid, rfl, hlater⟩, rfl⟩
  have hmem : ∀ other ∈ db.operations, ∀ previous,
      SameKey other (newOperation hash input orders previous fresh now) →
      other ∈ db.operations.filter (hasKey input.account.id (logicalKey hash input orders)) := by
    intro other hother previous hkey
    rw [List.mem_filter]
    exact ⟨hother, hasKey_eq_true.mpr hkey⟩
  cases hlat : latestGeneration (db.operations.filter
      (hasKey input.account.id (logicalKey hash input orders))) with
  | none =>
    rw [hlat] at h
    refine .inr (hinsd none h ?_)
    intro other hother hkey
    have hnone := hmem other hother none hkey
    rw [latestGeneration_none hlat] at hnone
    exact absurd hnone (by simp)
  | some previous =>
    rw [hlat] at h
    simp only [prepareGeneration] at h
    by_cases hprep : previous.phase = .prepared
    · rw [if_pos hprep] at h
      simp only [reusePrepared, bind_eq_ok, pure_eq_ok_iff, Prod.mk.injEq] at h
      obtain ⟨_, -, rfl, -⟩ := h
      exact .inl rfl
    · rw [if_neg hprep] at h
      by_cases hopen : previous.phase ∉ [.resolved, .abandoned]
      · rw [if_pos hopen] at h
        exact absurd h (by simp)
      · rw [if_neg hopen] at h
        obtain ⟨hprev, hmax⟩ := latestGeneration_some hlat
        rw [List.mem_filter] at hprev
        refine .inr (hinsd (some previous) h ?_)
        intro other hother hkey
        refine ⟨Nat.lt_succ_of_le (hmax other (hmem other hother _ hkey)), previous, hprev.1,
          ?_, rfl, ?_⟩
        · exact hasKey_eq_true.mp hprev.2
        · rw [isClosed]
          simpa [or_iff_not_imp_left] using hopen

end Rows

inductive Step (s : System) : System → Prop
  | called (input : TradingOperationInput) :
    Step s { s with writers := s.writers ++ [⟨input, .called⟩] }
  | inserted {i : ℕ} {w : Writer} {row : TradingOperation} {stage : WriteStage}
    (hw : s.writers[i]? = some w) (hrow : Fresh s.db.operations row) (hstage : stage.owned = none) :
    Step s { s with
      db := { s.db with operations := s.db.operations ++ [row] }
      writers := s.setStage i w stage }
  | moved {i : ℕ} {w : Writer} {stage : WriteStage} (hw : s.writers[i]? = some w)
    (hstage : stage.owned = none ∨
      (stage.owned = w.stage.owned ∧ stage.unsent = w.stage.unsent)) :
    Step s { s with writers := s.setStage i w stage }
  | dispatched {i : ℕ} {w : Writer} {id : String} {f : TradingOperation → TradingOperation}
    (hw : s.writers[i]? = some w) (hf : Transition s.db id .prepared .dispatching none f) :
    Step s { s with
      db := { s.db with operations := s.db.operations.map f }
      writers := s.setStage i w (.dispatching id) }
  | sent {i : ℕ} {w : Writer} {id : String} (hw : s.writers[i]? = some w)
    (hstage : w.stage = .fenced id) :
    Step s { s with writers := s.setStage i w (.sent id), sends := s.sends ++ [id] }
  | committed {i : ℕ} {w : Writer} {id : String} {expected next : TradingOperationPhase}
    {evidence : Option Evidence} {f : TradingOperation → TradingOperation} {orders : List OrderRow}
    (hw : s.writers[i]? = some w) (hf : Transition s.db id expected next evidence f)
    (hnext : next ≠ .resolved)
    (haban : next = .abandoned → expected = .prepared ∨ w.stage.unsent = some id) :
    Step s { s with
      db := ⟨s.db.operations.map f, orders⟩
      writers := s.setStage i w .finished }
  | resolved {r : Resolver} {operation : TradingOperation} {observed : List ObservedOrder}
    {f : TradingOperation → TradingOperation} {resolvers : List Resolver}
    (hr : r ∈ s.resolvers) (hop : operation ∈ r.operations)
    (hobs : observedOperationEvidence operation.expectedOrders r.remote operation.kind =
      some observed)
    (hf : Transition s.db operation.id operation.phase .resolved
      (some (.authoritativeOrderSnapshot observed)) f)
    (hresolvers : ∀ q ∈ resolvers, ∀ o ∈ q.operations, ∃ r ∈ s.resolvers, o ∈ r.operations) :
    Step s { s with
      db := { s.db with operations := s.db.operations.map f }
      resolvers := resolvers }
  | visited {resolvers : List Resolver}
    (hresolvers : ∀ q ∈ resolvers, ∀ o ∈ q.operations,
      o ∈ s.db.operations ∨ ∃ r ∈ s.resolvers, o ∈ r.operations) :
    Step s { s with resolvers := resolvers }
  | withdrawn (intentId : String) (orders : List OrderRow) :
    Step s { s with db := ⟨s.db.operations.map
      (fun row => if isPreparedFor intentId row then abandonRow row else row), orders⟩ }
  | wrote (orders : List OrderRow) : Step s { s with db := { s.db with orders := orders } }
  | crashed : Step s { s with writers := [], resolvers := [] }

section Inversion

variable {hash : String → String} {planProof : Database → String → Bool → Bool} {s t : System}
  {i : ℕ} {w : Writer} {failure : String → WriteStage} {id : String} {db : Database}

theorem commit_sound {result : Outcome Database} {success : WriteStage}
    (hok : ∀ db, result = .ok db → Step s { s with db := db, writers := s.setStage i w success })
    (herror : ∀ message, Step s { s with writers := s.setStage i w (failure message) }) :
    Step s (s.commit i w result success failure) := by
  cases result with
  | ok db => exact hok db rfl
  | error e => exact herror e.message

theorem callback_sound {thrown : Option String} {success : WriteStage} (hw : s.writers[i]? = some w)
    (hsuccess : success.owned = w.stage.owned ∧ success.unsent = w.stage.unsent)
    (hfailure : ∀ message, (failure message).owned = w.stage.owned ∧
      (failure message).unsent = w.stage.unsent) :
    Step s (s.callback i w thrown success failure) := by
  cases thrown with
  | none => exact .moved hw (.inr hsuccess)
  | some message => exact .moved hw (.inr (hfailure message))

theorem prepare_sound {now : ℕ} (hw : s.writers[i]? = some w) (hstage : w.stage = .called)
    (h : writerStep hash s i w (.prepare i id now) = some t) : Step s t := by
  simp only [writerStep, hstage] at h
  cases hres : prepareTradingOperation hash s.db w.input id now with
  | error e =>
    simp only [hres, Option.some.injEq] at h
    subst h
    exact .moved hw (.inl rfl)
  | ok p =>
    obtain ⟨db, prepared⟩ := p
    simp only [hres, Option.some.injEq] at h
    subst h
    rcases prepare_ok hres with rfl | ⟨row, hrow, rfl⟩
    · exact .moved hw (.inl rfl)
    · exact .inserted hw hrow rfl

theorem readFailure_stage {phase : WritePhase} {sent : Bool} {error : String} :
    (readFailure db id phase sent error).owned = none ∨
      ((readFailure db id phase sent error).owned = (WriteStage.failed id phase sent error).owned ∧
        (readFailure db id phase sent error).unsent =
          (WriteStage.failed id phase sent error).unsent) := by
  rw [readFailure]
  split_ifs
  · exact .inl rfl
  · right
    cases phase with
    | prepared => exact ⟨rfl, rfl⟩
    | dispatching => cases sent <;> exact ⟨rfl, rfl⟩

theorem recordWriteFailure_sound {phase : WritePhase} {sent contradicted : Bool} {error : String}
    (hw : s.writers[i]? = some w) (hstage : w.stage = .recording id phase sent contradicted error)
    (h : recordWriteFailure s.db id phase sent contradicted error = .ok db) :
    Step s { s with db := db, writers := s.setStage i w .finished } := by
  obtain ⟨f, hf, rfl⟩ := transition_ok h
  refine .committed hw hf ?_ ?_
  · split_ifs <;> simp
  · intro haban
    have hsent : sent = false := by
      cases sent with
      | false => rfl
      | true => exact absurd haban (by simp)
    cases phase with
    | prepared => exact .inl rfl
    | dispatching =>
      right
      rw [hstage, hsent]
      rfl

theorem persistResult_sound {result : Except String Persisted} (hw : s.writers[i]? = some w)
    (h : persistResult s.db id w.input.kind result = .ok db) :
    Step s { s with db := db, writers := s.setStage i w .finished } := by
  cases result with
  | error message => exact absurd h (by simp [persistResult])
  | ok persisted =>
    obtain ⟨f, hf, rfl⟩ := transition_ok h
    have hphase : persistedPhase w.input.kind persisted.orders = .unresolved ∨
        persistedPhase w.input.kind persisted.orders = .acknowledged := by
      rw [persistedPhase]
      split_ifs
      · exact .inl rfl
      · exact .inr rfl
    refine .committed hw ⟨hf.legal, hf.found, hf.written, hf.kept⟩ ?_ ?_
    · rcases hphase with heq | heq <;> simp [heq]
    · intro haban
      rcases hphase with heq | heq
      · exact absurd (heq.symm.trans haban) (by simp)
      · exact absurd (heq.symm.trans haban) (by simp)

theorem writerStep_sound {action : Action} (hw : s.writers[i]? = some w)
    (h : writerStep hash s i w action = some t) : Step s t := by
  unfold writerStep at h
  split at h
  case h_1 id now hstage =>
    have hprepare : writerStep hash s i w (.prepare i id now) = some t := by
      simpa only [writerStep, hstage] using h
    exact prepare_sound hw hstage hprepare
  case h_2 thrown id hstage =>
    simp only [Option.some.injEq] at h
    subst h
    refine callback_sound hw ?_ ?_
    · rw [hstage]
      exact ⟨rfl, rfl⟩
    · intro message
      rw [hstage]
      exact ⟨rfl, rfl⟩
  case h_3 id hstage =>
    simp only [Option.some.injEq] at h
    subst h
    refine commit_sound ?_ ?_
    · intro db hdb
      obtain ⟨f, hf, rfl⟩ := transition_ok hdb
      exact .dispatched hw hf
    · intro message
      exact .moved hw (.inl rfl)
  case h_4 thrown id hstage =>
    simp only [Option.some.injEq] at h
    subst h
    refine callback_sound hw ?_ ?_
    · rw [hstage]
      exact ⟨rfl, rfl⟩
    · intro message
      rw [hstage]
      exact ⟨rfl, rfl⟩
  case h_5 error id hstage =>
    simp only [Option.some.injEq] at h
    subst h
    refine .moved hw (.inr ?_)
    rw [hstage]
    exact ⟨rfl, rfl⟩
  case h_6 id hstage =>
    simp only [Option.some.injEq] at h
    subst h
    exact .sent hw hstage
  case h_7 result id hstage =>
    simp only [Option.some.injEq] at h
    subst h
    refine commit_sound ?_ ?_
    · intro db hdb
      exact persistResult_sound hw hdb
    · intro message
      refine .moved hw (.inr ?_)
      rw [hstage]
      exact ⟨rfl, rfl⟩
  case h_8 id phase sent error hstage =>
    simp only [Option.some.injEq] at h
    subst h
    refine .moved hw ?_
    rw [hstage]
    exact readFailure_stage
  case h_9 id phase sent contradicted error hstage =>
    simp only [Option.some.injEq] at h
    subst h
    refine commit_sound ?_ ?_
    · intro db hdb
      exact recordWriteFailure_sound hw hstage hdb
    · intro message
      exact .moved hw (.inl rfl)
  case h_10 =>
    simp only [Option.some.injEq] at h
    subst h
    exact .moved hw (.inl rfl)
  case h_11 => exact absurd h (by simp)

theorem resolvers_set {r : Resolver} {rest : List TradingOperation} (hr : s.resolvers[i]? = some r)
    (hrest : ∀ o ∈ rest, o ∈ r.operations) :
    ∀ q ∈ s.resolvers.set i { r with operations := rest }, ∀ o ∈ q.operations,
      ∃ r ∈ s.resolvers, o ∈ r.operations := by
  intro q hq o ho
  rcases List.mem_or_eq_of_mem_set hq with hmem | rfl
  · exact ⟨q, hmem, ho⟩
  · exact ⟨r, List.mem_of_getElem? hr, hrest o ho⟩

theorem resolverStep_sound {r : Resolver} (hr : s.resolvers[i]? = some r)
    (h : resolverStep s i r = some t) : Step s t := by
  cases hops : r.operations with
  | nil => exact absurd h (by simp [resolverStep, hops])
  | cons operation rest =>
    have hrest : ∀ o ∈ rest, o ∈ r.operations := by
      intro o ho
      rw [hops]
      exact List.mem_cons_of_mem _ ho
    have hkept := resolvers_set hr hrest
    simp only [resolverStep, hops] at h
    cases hres : resolveObserved s.db r.account r.remote operation with
    | error e =>
      simp only [hres, Option.some.injEq] at h
      subst h
      refine .visited ?_
      intro q hq o ho
      exact .inr (resolvers_set hr (by simp) q hq o ho)
    | ok db =>
      simp only [hres, Option.some.injEq] at h
      subst h
      rw [resolveObserved] at hres
      split_ifs at hres with hident
      · cases hres
        exact .visited (fun q hq o ho => .inr (hkept q hq o ho))
      · cases hobs : observedOperationEvidence operation.expectedOrders r.remote
            operation.kind with
        | none =>
          simp only [hobs, Except.ok.injEq] at hres
          subst hres
          exact .visited (fun q hq o ho => .inr (hkept q hq o ho))
        | some observed =>
          simp only [hobs] at hres
          obtain ⟨f, hf, rfl⟩ := transition_ok hres
          refine .resolved (List.mem_of_getElem? hr) ?_ hobs hf hkept
          rw [hops]
          exact List.mem_cons_self

theorem step_sound {action : Action} (h : step hash planProof s action = some t) : Step s t := by
  have hwriter : ∀ action, (do
      let writer ← action.writer
      writerStep hash s writer (← s.writers[writer]?) action) = some t → Step s t := by
    intro action h
    simp only [Option.bind_eq_bind, Option.bind_eq_some_iff] at h
    obtain ⟨writer, -, w, hw, h⟩ := h
    exact writerStep_sound hw h
  cases action with
  | call input =>
    cases h
    exact .called input
  | observe account remote =>
    cases h
    refine .visited ?_
    intro q hq o ho
    rcases List.mem_append.mp hq with hmem | hnew
    · exact .inr ⟨q, hmem, ho⟩
    · rw [List.mem_singleton] at hnew
      subst hnew
      rw [observableOperations, List.mem_mergeSort] at ho
      exact .inl (List.mem_of_mem_filter ho)
  | resolve resolver =>
    simp only [step, Option.bind_eq_bind, Option.bind_eq_some_iff] at h
    obtain ⟨r, hr, h⟩ := h
    exact resolverStep_sound hr h
  | recoverUndispatchedPlan intentId =>
    cases h
    rw [recoverUndispatchedPlan]
    split_ifs
    · exact .wrote _
    · exact .wrote s.db.orders
  | abandonUndispatchedPlan intentId =>
    cases h
    rw [abandonUndispatchedPlan]
    split_ifs
    · exact .withdrawn intentId _
    · exact .wrote s.db.orders
  | writeOrders orders =>
    cases h
    exact .wrote orders
  | crash =>
    cases h
    exact .crashed
  | prepare | beforeDispatch | dispatch | fence | send | persist | readFailure | recordFailure
  | abort => exact hwriter _ h

end Inversion

/-- The rows and the sends: generations of a key are closed one by one. -/
structure Journal (rows : List TradingOperation) (sends : List String) : Prop where
  ids : (rows.map (·.id)).Nodup
  generations : ∀ a ∈ rows, ∀ b ∈ rows, SameKey a b → a.generation = b.generation → a = b
  closed : ∀ a ∈ rows, ∀ b ∈ rows, SameKey a b → a.generation < b.generation → isClosed a.phase
  resolved : ∀ a ∈ rows, a.phase = .resolved → Observed a
  once : sends.Nodup
  sent : ∀ id ∈ sends, ∃ a ∈ rows, a.id = id ∧ a.phase ≠ .prepared ∧ a.phase ≠ .abandoned

/-- The writers: a row out of `prepared` has at most one owner. -/
structure Owned (rows : List TradingOperation) (sends : List String) (writers : List Writer) :
    Prop where
  unique : ∀ (i j : ℕ) (w v : Writer) (id : String), writers[i]? = some w →
    writers[j]? = some v → w.stage.owned = some id → v.stage.owned = some id → i = j
  left : ∀ w ∈ writers, ∀ id, w.stage.owned = some id →
    ∃ a ∈ rows, a.id = id ∧ a.phase ≠ .prepared
  unsent : ∀ w ∈ writers, ∀ id, w.stage.unsent = some id →
    id ∉ sends ∧ ∃ a ∈ rows, a.id = id ∧ a.phase ≠ .abandoned

def Snapshots (rows : List TradingOperation) (resolvers : List Resolver) : Prop :=
  ∀ r ∈ resolvers, ∀ o ∈ r.operations, ∃ a ∈ rows, SameRow o a

structure Safe (s : System) : Prop where
  journal : Journal s.db.operations s.sends
  owned : Owned s.db.operations s.sends s.writers
  snapshots : Snapshots s.db.operations s.resolvers

theorem SameRow.trans {a b c : TradingOperation} (hab : SameRow a b) (hbc : SameRow b c) :
    SameRow a c :=
  ⟨hbc.id.trans hab.id, hbc.accountId.trans hab.accountId, hbc.logicalKey.trans hab.logicalKey,
    hbc.generation.trans hab.generation, hbc.expectedOrders.trans hab.expectedOrders,
    hbc.kind.trans hab.kind⟩

theorem SameRow.sameKey {a a' b b' : TradingOperation} (ha : SameRow a a') (hb : SameRow b b')
    (h : SameKey a' b') : SameKey a b :=
  ⟨ha.accountId.symm.trans (h.1.trans hb.accountId),
    ha.logicalKey.symm.trans (h.2.trans hb.logicalKey)⟩

section Preserved

variable {rows : List TradingOperation} {sends : List String} {writers : List Writer}
  {resolvers : List Resolver} {f : TradingOperation → TradingOperation} {stage : WriteStage}
  {w : Writer} {a : TradingOperation}

theorem Journal.map (h : Journal rows sends) (hf : Moves f rows)
    (hkept : ∀ a ∈ rows, a.id ∈ sends → (f a).phase ≠ .abandoned) :
    Journal (rows.map f) sends := by
  have hids : (rows.map f).map (·.id) = rows.map (·.id) := by
    rw [List.map_map]
    exact List.map_congr_left (fun a ha => (hf.same a ha).id)
  refine ⟨hids ▸ h.ids, ?_, ?_, ?_, h.once, ?_⟩
  · intro a' ha' b' hb' hkey hgen
    obtain ⟨a, ha, rfl⟩ := List.mem_map.mp ha'
    obtain ⟨b, hb, rfl⟩ := List.mem_map.mp hb'
    have hsa := hf.same a ha
    have hsb := hf.same b hb
    rw [h.generations a ha b hb (hsa.sameKey hsb hkey)
      (hsa.generation.symm.trans (hgen.trans hsb.generation))]
  · intro a' ha' b' hb' hkey hlt
    obtain ⟨a, ha, rfl⟩ := List.mem_map.mp ha'
    obtain ⟨b, hb, rfl⟩ := List.mem_map.mp hb'
    have hsa := hf.same a ha
    have hsb := hf.same b hb
    rw [hsa.generation, hsb.generation] at hlt
    have hclosed := h.closed a ha b hb (hsa.sameKey hsb hkey) hlt
    rwa [hf.closed ha hclosed]
  · intro a' ha' hresol
    obtain ⟨a, ha, rfl⟩ := List.mem_map.mp ha'
    by_cases hbefore : a.phase = .resolved
    · rw [hf.closed ha (.inl hbefore)]
      exact h.resolved a ha hbefore
    · exact hf.observed a ha hresol hbefore
  · intro id hid
    obtain ⟨a, ha, rfl, hprep, -⟩ := h.sent id hid
    exact ⟨f a, List.mem_map_of_mem ha, (hf.same a ha).id, hf.ne_prepared ha hprep,
      hkept a ha hid⟩

theorem Journal.insert (h : Journal rows sends) {row : TradingOperation} (hrow : Fresh rows row) :
    Journal (rows ++ [row]) sends := by
  have hbelow : ∀ a ∈ rows, SameKey a row → isClosed a.phase := by
    intro a ha hkey
    obtain ⟨hlt, latest, hlat, hlatestKey, hnext, hclosed⟩ := hrow.later a ha hkey
    have hsame : SameKey a latest :=
      ⟨hkey.1.trans hlatestKey.1.symm, hkey.2.trans hlatestKey.2.symm⟩
    rcases Nat.lt_or_ge a.generation latest.generation with hless | hge
    · exact h.closed a ha latest hlat hsame hless
    · have heq : a.generation = latest.generation := by omega
      rwa [h.generations a ha latest hlat hsame heq]
  have hcases : ∀ a ∈ rows ++ [row], a ∈ rows ∨ a = row := by
    intro a ha
    rcases List.mem_append.mp ha with hmem | hnew
    · exact .inl hmem
    · exact .inr (List.mem_singleton.mp hnew)
  refine ⟨?_, ?_, ?_, ?_, h.once, ?_⟩
  · rw [List.map_append, List.nodup_append']
    refine ⟨h.ids, by simp, ?_⟩
    rw [List.disjoint_left]
    intro id hid hnew
    obtain ⟨a, ha, rfl⟩ := List.mem_map.mp hid
    exact hrow.id a ha (by simpa using hnew)
  · intro a ha b hb hkey heq
    rcases hcases a ha with holdA | rfl
    · rcases hcases b hb with holdB | rfl
      · exact h.generations a holdA b holdB hkey heq
      · exact absurd heq (hrow.later a holdA hkey).1.ne
    · rcases hcases b hb with holdB | rfl
      · exact absurd heq.symm (hrow.later b holdB ⟨hkey.1.symm, hkey.2.symm⟩).1.ne
      · rfl
  · intro a ha b hb hkey hlt
    rcases hcases a ha with holdA | rfl
    · rcases hcases b hb with holdB | rfl
      · exact h.closed a holdA b holdB hkey hlt
      · exact hbelow a holdA hkey
    · rcases hcases b hb with holdB | rfl
      · exact absurd hlt (hrow.later b holdB ⟨hkey.1.symm, hkey.2.symm⟩).1.not_gt
      · exact absurd hlt (lt_irrefl _)
  · intro a ha hresol
    rcases hcases a ha with ha | rfl
    · exact h.resolved a ha hresol
    · exact absurd (hrow.phase.symm.trans hresol) (by simp)
  · intro id hid
    obtain ⟨a, ha, hrest⟩ := h.sent id hid
    exact ⟨a, List.mem_append_left _ ha, hrest⟩

theorem Snapshots.map (h : Snapshots rows resolvers) (hf : Moves f rows) :
    Snapshots (rows.map f) resolvers := by
  intro r hr o ho
  obtain ⟨a, ha, hsame⟩ := h r hr o ho
  exact ⟨f a, List.mem_map_of_mem ha, hsame.trans (hf.same a ha)⟩

theorem Owned.map (h : Owned rows sends writers) (hf : Moves f rows)
    (hkept : ∀ a ∈ rows, ∀ w ∈ writers, w.stage.unsent = some a.id → a.phase ≠ .abandoned →
      (f a).phase ≠ .abandoned) :
    Owned (rows.map f) sends writers := by
  refine ⟨h.unique, ?_, ?_⟩
  · intro w hw id hid
    obtain ⟨a, ha, rfl, hprep⟩ := h.left w hw id hid
    exact ⟨f a, List.mem_map_of_mem ha, (hf.same a ha).id, hf.ne_prepared ha hprep⟩
  · intro w hw id hid
    obtain ⟨hnot, a, ha, rfl, hphase⟩ := h.unsent w hw id hid
    exact ⟨hnot, f a, List.mem_map_of_mem ha, (hf.same a ha).id, hkept a ha w hw hid hphase⟩

theorem Owned.insert (h : Owned rows sends writers) (row : TradingOperation) :
    Owned (rows ++ [row]) sends writers := by
  refine ⟨h.unique, ?_, ?_⟩
  · intro w hw id hid
    obtain ⟨a, ha, hrest⟩ := h.left w hw id hid
    exact ⟨a, List.mem_append_left _ ha, hrest⟩
  · intro w hw id hid
    obtain ⟨hnot, a, ha, hrest⟩ := h.unsent w hw id hid
    exact ⟨hnot, a, List.mem_append_left _ ha, hrest⟩

theorem WriteStage.owned_of_unsent {id : String} (h : stage.unsent = some id) :
    stage.owned = some id := by
  unfold WriteStage.unsent at h
  split at h
  · exact h
  · exact h
  · exact h
  · exact h
  · exact absurd h (by simp)

theorem Owned.set {i : ℕ} (h : Owned rows sends writers)
    (howned : ∀ id, stage.owned = some id → (∃ a ∈ rows, a.id = id ∧ a.phase ≠ .prepared) ∧
      ∀ (j : ℕ) (v : Writer), writers[j]? = some v → v.stage.owned = some id → j = i)
    (hunsent : ∀ id, stage.unsent = some id → id ∉ sends ∧ ∃ a ∈ rows,
      a.id = id ∧ a.phase ≠ .abandoned) :
    Owned rows sends (writers.set i { w with stage := stage }) := by
  have hget : ∀ (j : ℕ) (v : Writer),
      (writers.set i { w with stage := stage })[j]? = some v →
      (j = i ∧ v.stage = stage) ∨ (j ≠ i ∧ writers[j]? = some v) := by
    intro j v hv
    rw [List.getElem?_set] at hv
    by_cases hij : i = j
    · left
      rw [if_pos hij] at hv
      split_ifs at hv
      cases hv
      exact ⟨hij.symm, rfl⟩
    · rw [if_neg hij] at hv
      exact .inr ⟨Ne.symm hij, hv⟩
  have hmem : ∀ v ∈ writers.set i { w with stage := stage }, v ∈ writers ∨ v.stage = stage := by
    intro v hv
    rcases List.mem_or_eq_of_mem_set hv with hold | rfl
    · exact .inl hold
    · exact .inr rfl
  refine ⟨?_, ?_, ?_⟩
  · intro j k v u id hv hu hvid huid
    rcases hget j v hv with ⟨hj, hvs⟩ | ⟨hj, hv⟩
    · rcases hget k u hu with ⟨hk, hus⟩ | ⟨hk, hu⟩
      · rw [hj, hk]
      · rw [hvs] at hvid
        exact absurd ((howned id hvid).2 k u hu huid) hk
    · rcases hget k u hu with ⟨hk, hus⟩ | ⟨hk, hu⟩
      · rw [hus] at huid
        exact absurd ((howned id huid).2 j v hv hvid) hj
      · exact h.unique j k v u id hv hu hvid huid
  · intro v hv id hid
    rcases hmem v hv with hold | hstage
    · exact h.left v hold id hid
    · rw [hstage] at hid
      exact (howned id hid).1
  · intro v hv id hid
    rcases hmem v hv with hold | hstage
    · exact h.unsent v hold id hid
    · rw [hstage] at hid
      exact hunsent id hid

theorem Owned.release {i : ℕ} (h : Owned rows sends writers) (hstage : stage.owned = none) :
    Owned rows sends (writers.set i { w with stage := stage }) := by
  refine h.set ?_ ?_
  · intro id hid
    exact absurd (hstage.symm.trans hid) (by simp)
  · intro id hid
    exact absurd (hstage.symm.trans (WriteStage.owned_of_unsent hid)) (by simp)

theorem Owned.keep {i : ℕ} (h : Owned rows sends writers) (hw : writers[i]? = some w)
    (howned : stage.owned = w.stage.owned) (hunsent : stage.unsent = w.stage.unsent) :
    Owned rows sends (writers.set i { w with stage := stage }) := by
  have hmem : w ∈ writers := List.mem_of_getElem? hw
  refine h.set ?_ ?_
  · intro id hid
    rw [howned] at hid
    refine ⟨h.left w hmem id hid, ?_⟩
    intro j v hv hvid
    exact h.unique j i v w id hv hw hvid hid
  · intro id hid
    rw [hunsent] at hid
    exact h.unsent w hmem id hid

theorem Owned.of_sends {sends' : List String} (h : Owned rows sends writers)
    (hnew : ∀ w ∈ writers, ∀ id, w.stage.unsent = some id → id ∉ sends') :
    Owned rows sends' writers :=
  ⟨h.unique, h.left, fun w hw id hid => ⟨hnew w hw id hid, (h.unsent w hw id hid).2⟩⟩

theorem Owned.called (h : Owned rows sends writers) (input : TradingOperationInput) :
    Owned rows sends (writers ++ [⟨input, .called⟩]) := by
  have hcases : ∀ w ∈ writers ++ [⟨input, .called⟩], w ∈ writers ∨ w.stage = .called := by
    intro w hw
    rcases List.mem_append.mp hw with hmem | hnew
    · exact .inl hmem
    · rw [List.mem_singleton] at hnew
      exact .inr (by rw [hnew])
  have hget : ∀ (i : ℕ) (w : Writer) (id : String),
      (writers ++ [⟨input, .called⟩])[i]? = some w → w.stage.owned = some id →
      writers[i]? = some w := by
    intro i w id hw hid
    rcases Nat.lt_or_ge i writers.length with hlt | hge
    · rwa [List.getElem?_append_left hlt] at hw
    · rw [List.getElem?_append_right hge] at hw
      have hnew := List.mem_of_getElem? hw
      rw [List.mem_singleton] at hnew
      subst hnew
      exact absurd hid (by simp [WriteStage.owned])
  refine ⟨?_, ?_, ?_⟩
  · intro i j w v id hw hv hwid hvid
    exact h.unique i j w v id (hget i w id hw hwid) (hget j v id hv hvid) hwid hvid
  · intro w hw id hid
    rcases hcases w hw with hold | hstage
    · exact h.left w hold id hid
    · exact absurd hid (by simp [hstage, WriteStage.owned])
  · intro w hw id hid
    rcases hcases w hw with hold | hstage
    · exact h.unsent w hold id hid
    · exact absurd hid (by simp [hstage, WriteStage.unsent])

theorem Journal.sent_row (h : Journal rows sends) (ha : a ∈ rows) (hid : a.id ∈ sends) :
    a.phase ≠ .prepared ∧ a.phase ≠ .abandoned := by
  obtain ⟨b, hb, heq, hphase⟩ := h.sent a.id hid
  rwa [eq_of_key h.ids ha hb heq.symm]

theorem Owned.left_row (h : Owned rows sends writers) (hj : Journal rows sends) (ha : a ∈ rows)
    (hw : w ∈ writers) (hid : w.stage.owned = some a.id) : a.phase ≠ .prepared := by
  obtain ⟨b, hb, heq, hphase⟩ := h.left w hw a.id hid
  rwa [eq_of_key hj.ids ha hb heq.symm]

/-- A row that a compare-and-set abandoned was prepared or held by the writer itself. -/
theorem Transition.abandoned_row {db : Database} {id : String}
    {expected next : TradingOperationPhase} {evidence : Option Evidence}
    (h : Transition db id expected next evidence f) (hbefore : a.phase ≠ .abandoned)
    (hafter : (f a).phase = .abandoned) : a.id = id ∧ a.phase = expected ∧ next = .abandoned := by
  by_cases hat : a.id = id ∧ a.phase = expected
  · exact ⟨hat.1, hat.2, (h.written a hat.1 hat.2).2.1.symm.trans hafter⟩
  · rw [h.kept a hat] at hafter
    exact absurd hafter hbefore

end Preserved

section Steps

variable {s t : System} {id : String} {f : TradingOperation → TradingOperation}

theorem Safe.dispatched {i : ℕ} {w : Writer} (h : Safe s)
    (hf : Transition s.db id .prepared .dispatching none f) :
    Safe { s with
      db := { s.db with operations := s.db.operations.map f }
      writers := s.setStage i w (.dispatching id) } := by
  have hmoves : Moves f s.db.operations := hf.moves (fun habsurd => absurd habsurd (by simp))
  have hnone : ∀ a, a.phase ≠ .abandoned → (f a).phase ≠ .abandoned := by
    intro a hbefore hafter
    exact absurd (hf.abandoned_row hbefore hafter).2.2 (by simp)
  obtain ⟨row, hrow, hid, hprep⟩ := hf.found
  obtain ⟨hsame, hnext, -⟩ := hf.written row hid hprep
  have hnot : id ∉ s.sends := by
    intro hsent
    exact (h.journal.sent_row hrow (hid ▸ hsent)).1 hprep
  refine ⟨h.journal.map hmoves ?_, ?_, h.snapshots.map hmoves⟩
  · intro a ha hsent
    exact hnone a (h.journal.sent_row ha hsent).2
  · have hmapped := h.owned.map hmoves (fun a _ _ _ _ hphase => hnone a hphase)
    refine hmapped.set ?_ ?_
    · intro id' hid'
      cases hid'
      refine ⟨⟨f row, List.mem_map_of_mem hrow, hsame.id.trans hid, by simp [hnext]⟩, ?_⟩
      intro j v hv hvid
      have hleft := h.owned.left_row h.journal hrow (List.mem_of_getElem? hv) (hid ▸ hvid)
      exact absurd hprep hleft
    · intro id' hid'
      cases hid'
      exact ⟨hnot, f row, List.mem_map_of_mem hrow, hsame.id.trans hid, by simp [hnext]⟩

theorem Safe.sent {i : ℕ} {w : Writer} (h : Safe s) (hw : s.writers[i]? = some w)
    (hstage : w.stage = .fenced id) :
    Safe { s with writers := s.setStage i w (.sent id), sends := s.sends ++ [id] } := by
  have howned : w.stage.owned = some id := by rw [hstage]; rfl
  have hunsent : w.stage.unsent = some id := by rw [hstage]; rfl
  have hmem : w ∈ s.writers := List.mem_of_getElem? hw
  obtain ⟨hnot, a, ha, hid, haban⟩ := h.owned.unsent w hmem id hunsent
  have hprep : a.phase ≠ .prepared :=
    h.owned.left_row h.journal ha hmem (hid ▸ howned)
  refine ⟨⟨h.journal.ids, h.journal.generations, h.journal.closed, h.journal.resolved, ?_, ?_⟩,
    ?_, h.snapshots⟩
  · rw [List.nodup_append']
    exact ⟨h.journal.once, by simp, by simpa using hnot⟩
  · intro id' hid'
    rcases List.mem_append.mp hid' with hold | hnew
    · exact h.journal.sent id' hold
    · rw [List.mem_singleton] at hnew
      exact ⟨a, ha, hid.trans hnew.symm, hprep, haban⟩
  · have hset : Owned s.db.operations s.sends (s.writers.set i { w with stage := .sent id }) := by
      refine h.owned.set ?_ ?_
      · intro id' hid'
        cases hid'
        refine ⟨⟨a, ha, hid, hprep⟩, ?_⟩
        intro j v hv hvid
        exact h.owned.unique j i v w id hv hw hvid howned
      · intro id' hid'
        exact absurd hid' (by simp [WriteStage.unsent])
    refine hset.of_sends ?_
    intro v hv id' hid'
    rw [List.mem_append, List.mem_singleton, not_or]
    refine ⟨(hset.unsent v hv id' hid').1, ?_⟩
    rintro rfl
    obtain ⟨j, hj⟩ := List.getElem?_of_mem hv
    rw [List.getElem?_set] at hj
    by_cases hij : i = j
    · rw [if_pos hij] at hj
      split_ifs at hj
      cases hj
      exact absurd hid' (by simp [WriteStage.unsent])
    · rw [if_neg hij] at hj
      exact hij (h.owned.unique i j w v id' hw hj howned (WriteStage.owned_of_unsent hid'))

theorem Safe.committed {i : ℕ} {w : Writer} {expected next : TradingOperationPhase}
    {evidence : Option Evidence} {orders : List OrderRow} (h : Safe s) (hw : s.writers[i]? = some w)
    (hf : Transition s.db id expected next evidence f) (hnext : next ≠ .resolved)
    (haban : next = .abandoned → expected = .prepared ∨ w.stage.unsent = some id) :
    Safe { s with
      db := ⟨s.db.operations.map f, orders⟩
      writers := s.setStage i w .finished } := by
  have hmoves : Moves f s.db.operations := hf.moves (fun heq => absurd heq hnext)
  have hrel : Owned s.db.operations s.sends (s.writers.set i { w with stage := .finished }) :=
    h.owned.release rfl
  refine ⟨h.journal.map hmoves ?_, hrel.map hmoves ?_, h.snapshots.map hmoves⟩
  · intro a ha hsent hafter
    have hphase := h.journal.sent_row ha hsent
    obtain ⟨hid, hexp, hnext⟩ := hf.abandoned_row hphase.2 hafter
    rcases haban hnext with hprep | hunsent
    · exact hphase.1 (hexp.trans hprep)
    · exact (h.owned.unsent w (List.mem_of_getElem? hw) id hunsent).1 (hid ▸ hsent)
  · intro a ha v hv hvid hbefore hafter
    obtain ⟨hid, hexp, hnext⟩ := hf.abandoned_row hbefore hafter
    have howned := WriteStage.owned_of_unsent hvid
    rcases haban hnext with hprep | hunsent
    · exact hrel.left_row h.journal ha hv howned (hexp.trans hprep)
    · obtain ⟨j, hj⟩ := List.getElem?_of_mem hv
      rw [List.getElem?_set] at hj
      by_cases hij : i = j
      · rw [if_pos hij] at hj
        split_ifs at hj
        cases hj
        exact absurd hvid (by simp [WriteStage.unsent])
      · rw [if_neg hij] at hj
        rw [hid] at howned
        exact hij (h.owned.unique i j w v id hw hj (WriteStage.owned_of_unsent hunsent) howned)

theorem Safe.resolved {r : Resolver} {operation : TradingOperation} {observed : List ObservedOrder}
    {resolvers : List Resolver} (h : Safe s) (hr : r ∈ s.resolvers)
    (hop : operation ∈ r.operations)
    (hobs : observedOperationEvidence operation.expectedOrders r.remote operation.kind =
      some observed)
    (hf : Transition s.db operation.id operation.phase .resolved
      (some (.authoritativeOrderSnapshot observed)) f)
    (hresolvers : ∀ q ∈ resolvers, ∀ o ∈ q.operations, ∃ r ∈ s.resolvers, o ∈ r.operations) :
    Safe { s with
      db := { s.db with operations := s.db.operations.map f }
      resolvers := resolvers } := by
  have hmoves : Moves f s.db.operations := by
    refine hf.moves ?_
    intro _ row hrow hid
    obtain ⟨a, ha, hsame⟩ := h.snapshots r hr operation hop
    have heq : row = a := eq_of_key h.journal.ids hrow ha (hid.trans hsame.id.symm)
    by_cases hphase : row.phase = operation.phase
    · obtain ⟨hrowSame, -, hev⟩ := hf.written row hid hphase
      refine ⟨r.remote, observed, hev, ?_⟩
      rw [hrowSame.expectedOrders, hrowSame.kind, heq, hsame.expectedOrders, hsame.kind]
      exact hobs
    · obtain ⟨found, hfound, hfoundId, hfoundPhase⟩ := hf.found
      have hsameRow : row = found := eq_of_key h.journal.ids hrow hfound (hid.trans hfoundId.symm)
      exact absurd (hsameRow ▸ hfoundPhase) hphase
  have hnone : ∀ a, a.phase ≠ .abandoned → (f a).phase ≠ .abandoned := by
    intro a hbefore hafter
    exact absurd (hf.abandoned_row hbefore hafter).2.2 (by simp)
  refine ⟨h.journal.map hmoves ?_, h.owned.map hmoves ?_, ?_⟩
  · intro a ha hsent
    exact hnone a (h.journal.sent_row ha hsent).2
  · intro a _ v _ _ hphase
    exact hnone a hphase
  · intro q hq o ho
    obtain ⟨r, hr, hmem⟩ := hresolvers q hq o ho
    obtain ⟨a, ha, hsame⟩ := h.snapshots r hr o hmem
    exact ⟨f a, List.mem_map_of_mem ha, hsame.trans (hmoves.same a ha)⟩

theorem Safe.withdrawn (h : Safe s) (intentId : String) (orders : List OrderRow) :
    Safe { s with db := ⟨s.db.operations.map
      (fun row => if isPreparedFor intentId row then abandonRow row else row), orders⟩ } := by
  have hmoves := abandonRow_moves intentId s.db.operations
  have hkept : ∀ a, a.phase ≠ .prepared → a.phase ≠ .abandoned →
      (if isPreparedFor intentId a then abandonRow a else a).phase ≠ .abandoned := by
    intro a hprep haban
    rwa [if_neg (by simp [isPreparedFor, hprep])]
  refine ⟨h.journal.map hmoves ?_, h.owned.map hmoves ?_, h.snapshots.map hmoves⟩
  · intro a ha hsent
    obtain ⟨hprep, haban⟩ := h.journal.sent_row ha hsent
    exact hkept a hprep haban
  · intro a ha v hv hvid hphase
    have howned := WriteStage.owned_of_unsent hvid
    exact hkept a (h.owned.left_row h.journal ha hv howned) hphase

theorem Step.safe (hstep : Step s t) (h : Safe s) : Safe t := by
  cases hstep with
  | called input => exact ⟨h.journal, h.owned.called input, h.snapshots⟩
  | inserted hw hrow hstage =>
    refine ⟨h.journal.insert hrow, (h.owned.insert _).release hstage, ?_⟩
    intro r hr o ho
    obtain ⟨a, ha, hsame⟩ := h.snapshots r hr o ho
    exact ⟨a, List.mem_append_left _ ha, hsame⟩
  | moved hw hstage =>
    refine ⟨h.journal, ?_, h.snapshots⟩
    rcases hstage with hnone | ⟨howned, hunsent⟩
    · exact h.owned.release hnone
    · exact h.owned.keep hw howned hunsent
  | dispatched hw hf => exact h.dispatched hf
  | sent hw hstage => exact h.sent hw hstage
  | committed hw hf hnext haban => exact h.committed hw hf hnext haban
  | resolved hr hop hobs hf hresolvers =>
    exact h.resolved hr hop hobs hf hresolvers
  | visited hresolvers =>
    refine ⟨h.journal, h.owned, ?_⟩
    intro q hq o ho
    rcases hresolvers q hq o ho with hrow | ⟨r, hr, hmem⟩
    · exact ⟨o, hrow, rfl, rfl, rfl, rfl, rfl, rfl⟩
    · exact h.snapshots r hr o hmem
  | withdrawn intentId orders => exact h.withdrawn intentId orders
  | wrote orders => exact ⟨h.journal, h.owned, h.snapshots⟩
  | crashed =>
    refine ⟨h.journal, ⟨?_, ?_, ?_⟩, ?_⟩
    · intro i j w v id hw
      exact absurd hw (by simp)
    · intro w hw
      exact absurd hw (by simp)
    · intro w hw
      exact absurd hw (by simp)
    · intro r hr
      exact absurd hr (by simp)

theorem initial_safe (orders : List OrderRow) : Safe (initial orders) := by
  refine ⟨⟨?_, ?_, ?_, ?_, ?_, ?_⟩, ⟨?_, ?_, ?_⟩, ?_⟩ <;> simp [initial, Snapshots]

theorem run_safe {hash : String → String} {planProof : Database → String → Bool → Bool}
    {orders : List OrderRow} {actions : List Action}
    (h : run (step hash planProof) (initial orders) actions = some s) : Safe s :=
  run_preserves (P := Safe) (fun _ _ _ _ hs hstep => (step_sound hstep).safe hs)
    (initial_safe orders) h

theorem Step.sender (hstep : Step s t) (hsends : t.sends = s.sends ++ [id]) :
    ∃ w ∈ s.writers, w.stage.unsent = some id := by
  cases hstep with
  | sent hw hstage =>
    rw [List.append_cancel_left_eq, List.singleton_inj] at hsends
    refine ⟨_, List.mem_of_getElem? hw, ?_⟩
    rw [hstage, hsends]
    rfl
  | called | inserted | moved | dispatched | committed | resolved | visited | withdrawn | wrote
  | crashed => exact absurd hsends (by simp)

/-- In every interleaving a row is sent at most once, a sent row is neither prepared nor abandoned,
and at most one generation of a key is open. A row is sent only when every earlier generation is
resolved by remote evidence or was abandoned unsent, and never before a later generation unless it
is resolved itself. -/
theorem journaled_write_sent_once {hash : String → String}
    {planProof : Database → String → Bool → Bool} {orders : List OrderRow} {actions : List Action}
    {s : System} (h : run (step hash planProof) (initial orders) actions = some s) :
    (∀ id, s.sends.count id ≤ 1) ∧
      (∀ a ∈ s.db.operations, a.id ∈ s.sends → a.phase ≠ .prepared ∧ a.phase ≠ .abandoned) ∧
      (∀ a ∈ s.db.operations, ∀ b ∈ s.db.operations, SameKey a b → a.generation ≠ b.generation →
        isClosed a.phase ∨ isClosed b.phase) ∧
      ∀ action t, ∀ a ∈ s.db.operations, step hash planProof s action = some t →
        t.sends = s.sends ++ [a.id] → ∀ b ∈ s.db.operations, SameKey a b →
          (b.generation < a.generation →
            (b.phase = .resolved ∧ Observed b) ∨ (b.phase = .abandoned ∧ b.id ∉ s.sends)) ∧
          (a.generation < b.generation → a.phase = .resolved ∧ Observed a) := by
  obtain ⟨hj, howned, -⟩ := run_safe h
  refine ⟨List.nodup_iff_count_le_one.mp hj.once, fun a ha => hj.sent_row ha, ?_, ?_⟩
  · intro a ha b hb hkey hne
    rcases Nat.lt_or_gt_of_ne hne with hlt | hgt
    · exact .inl (hj.closed a ha b hb hkey hlt)
    · exact .inr (hj.closed b hb a ha ⟨hkey.1.symm, hkey.2.symm⟩ hgt)
  · intro action t a ha hstep hsends b hb hkey
    obtain ⟨w, hw, hunsent⟩ := (step_sound hstep).sender hsends
    obtain ⟨-, c, hc, hid, haban⟩ := howned.unsent w hw a.id hunsent
    rw [eq_of_key hj.ids hc ha hid] at haban
    refine ⟨?_, ?_⟩
    · intro hlt
      rcases hj.closed b hb a ha ⟨hkey.1.symm, hkey.2.symm⟩ hlt with hresol | hclosed
      · exact .inl ⟨hresol, hj.resolved b hb hresol⟩
      · refine .inr ⟨hclosed, ?_⟩
        intro hsent
        exact (hj.sent_row hb hsent).2 hclosed
    · intro hlt
      rcases hj.closed a ha b hb hkey hlt with hresol | hclosed
      · exact ⟨hresol, hj.resolved a ha hresol⟩
      · exact absurd hclosed haban

end Steps

/-- Two callers share a prepared row, the winner sends and the process crashes; a snapshot resolves
the row and a second generation is sent. -/
def sharedWrite : List Action :=
  let account : TradingAccount := ⟨"account", some "fingerprint", some "generation"⟩
  let input : TradingOperationInput := ⟨account, "intent", .submit, ["order"], "request"⟩
  let observed : ObservedOrder := ⟨some "order", "remote", none, .filled, some "1", none⟩
  [.call input, .call input, .prepare 0 "first" 1, .prepare 1 "unused" 1, .beforeDispatch 0 none,
    .beforeDispatch 1 none, .dispatch 1, .dispatch 0, .readFailure 0, .fence 1 none, .send 1 none,
    .crash, .observe account [observed], .resolve 0, .call input, .prepare 0 "second" 2,
    .beforeDispatch 0 none, .dispatch 0, .fence 0 none, .send 0 none]

theorem journaled_write_sent_once_shared :
    ∃ s, run (step id (fun _ _ _ => false))
        (initial [⟨⟨"order", none, none, .created⟩, "intent", "account"⟩]) sharedWrite = some s ∧
      s.sends = ["first", "second"] ∧ ∀ id, s.sends.count id ≤ 1 := by
  have hrun : (run (step id (fun _ _ _ => false))
      (initial [⟨⟨"order", none, none, .created⟩, "intent", "account"⟩]) sharedWrite).map
        (·.sends) = some ["first", "second"] := by decide +kernel
  obtain ⟨s, hs, hsends⟩ := Option.map_eq_some_iff.mp hrun
  exact ⟨s, hs, hsends, (journaled_write_sent_once hs).1⟩

end TsxCore.TradingRecovery
