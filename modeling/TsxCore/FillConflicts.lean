import TsxCore.FillEvolution

/-!
# Deliveries that contradict a stored fill

The only step that takes a stored row out of the proven state is a delivery that names the
row's native key with other economics. Along a run a row with a native key is proven in the
end exactly when it was proven at the start and no delivery contradicted it.
-/

namespace TsxCore.FillConflicts

open Outcome TradingFillIdentity TradingFillTables TradingRemoteEvidence TradingFillCapture
open TradingEvidenceRepository FillEvolution

section Transactions

variable {services : Services} {d : Delivery} {db next : Database} {result : FillResult}
variable {fill : ExchangeFill} {order : OrderRow} {proof : FillProof} {existing : Option FillRow}
  {source : ExchangeFill} {account : TradingAccount} {resolution : LegacyResolution}

theorem captureFill_evolution (hproven : provenFillIdentity d.account source = .ok (some proof))
    (h : captureFill services d fill order proof existing db = .ok (result, next)) :
    Evolution db next := by
  simp only [captureFill, bind_eq_ok, pure_eq_ok_iff] at h
  obtain ⟨stored, hstored, marked, hmarked, captured, hcapt, observed, hobs, hpair⟩ := h
  obtain ⟨-, rfl⟩ := Prod.mk.inj hpair
  have hinsert : Evolution db stored := by
    cases existing with
    | none => exact insertFill_evolution hproven hstored
    | some row =>
      rw [pure_eq_ok_iff.mp hstored]
      exact Evolution.refl stored
  have hmark : Evolution stored marked := evolution_of_fills (markProvenFill_fills hmarked)
  have hcapture : Evolution marked captured := captureFillAccounting_evolution hcapt
  have hobserve : Evolution captured observed :=
    evolution_of_fills (captureFillQuantityEvidence_fills hobs)
  exact ((hinsert.trans hmark).trans hcapture).trans hobserve

theorem recordFillConflict_fills {now : ℤ} {existing : FillRow}
    (h : recordFillConflict services now account existing fill db = .ok next) :
    next.fills = (markFillConflict db existing.id).fills := by
  simp only [recordFillConflict, bind_eq_ok, pure_eq_ok_iff] at h
  obtain ⟨⟨stored, received⟩, -, first, hfirst, second, hsnd, rfl⟩ := h
  have hfills : second.fills = db.fills :=
    (recordRemoteEvidence_fills hsnd).trans (recordRemoteEvidence_fills hfirst)
  exact congrArg (fun table => Indexed.set table (fun row => row.id = existing.id)
    FillRow.conflicting (fun _ => rfl) (fun _ => rfl)) hfills

theorem recordFillConflict_surroundings {now : ℤ} {existing : FillRow}
    (h : recordFillConflict services now account existing fill db = .ok next) :
    next.accounts = db.accounts ∧ next.orders = db.orders := by
  simp only [recordFillConflict, bind_eq_ok, pure_eq_ok_iff] at h
  obtain ⟨⟨stored, received⟩, -, first, hfirst, second, hsnd, rfl⟩ := h
  obtain ⟨hfirstAccounts, hfirstOrders⟩ := recordRemoteEvidence_surroundings hfirst
  obtain ⟨haccs, hords⟩ := recordRemoteEvidence_surroundings hsnd
  exact ⟨haccs.trans hfirstAccounts, hords.trans hfirstOrders⟩

theorem settleFill_cases (hproven : provenFillIdentity d.account source = .ok (some proof))
    (h : settleFill services d fill order proof existing db = .ok (result, next)) :
    Evolution db next ∨ ∃ row, existing = some row ∧ sameFill row order fill = .ok false ∧
      recordFillConflict services d.now d.account row fill db = .ok next := by
  cases existing with
  | none =>
    rw [settleFill] at h
    exact .inl (captureFill_evolution hproven h)
  | some row =>
    simp only [settleFill, bind_eq_ok] at h
    obtain ⟨same, hsame, h⟩ := h
    cases same with
    | true =>
      rw [if_pos rfl] at h
      exact .inl (captureFill_evolution hproven h)
    | false =>
      simp only [Bool.false_eq_true, if_false, bind_eq_ok, pure_eq_ok_iff] at h
      obtain ⟨marked, hmarked, hpair⟩ := h
      obtain ⟨-, rfl⟩ := Prod.mk.inj hpair
      exact .inr ⟨row, rfl, hsame, hmarked⟩

theorem paperCandidate_mem {candidates : List FillRow} {row : FillRow}
    (h : paperCandidate account order fill candidates = .ok (some row)) :
    account.isPaper ∧ row ∈ candidates := by
  unfold paperCandidate at h
  split at h
  · rename_i candidate
    split_ifs at h with hpaper
    · simp only [bind_eq_ok, pure_eq_ok_iff] at h
      obtain ⟨same, -, hsome⟩ := h
      split_ifs at hsome
      rw [← Option.some.inj hsome]
      exact ⟨hpaper, List.mem_singleton_self candidate⟩
    · cases h
  · cases h

theorem unkeyed_of_candidate {row : FillRow} (h : row ∈ legacyCandidates account order fill db) :
    db.fills.find row.id = some row ∧ row.remoteFillKey = none := by
  obtain ⟨hmem, hconditions⟩ := List.mem_filter.mp h
  simp only [Bool.and_eq_true] at hconditions
  exact ⟨Keyed.find_eq_some.mpr ⟨hmem, rfl⟩, Option.isNone_iff_eq_none.mp hconditions.1.2⟩

theorem blockLegacy_cases {now : ℤ}
    (h : blockLegacy services now account fill db = .ok (resolution, next)) :
    Evolution db next ∧ resolution = .blocked := by
  simp only [blockLegacy, bind_eq_ok, pure_eq_ok_iff] at h
  obtain ⟨event, -, recorded, hrecd, hpair⟩ := h
  obtain ⟨rfl, rfl⟩ := Prod.mk.inj hpair
  exact ⟨evolution_of_fills (recordRemoteEvidence_fills hrecd), rfl⟩

/-- Resolving old rows lets the table evolve; a row that it finds had no key before. -/
theorem resolveLegacyFill_cases (hproven : provenFillIdentity d.account source = .ok (some proof))
    (hnew : db.fills.lookup (d.account.id, proof.key) = none)
    (h : resolveLegacyFill services d.now d.account order fill proof db = .ok (resolution, next)) :
    Evolution db next ∧ ∀ existing, resolution = .resolved (some existing) →
      ∀ row, db.fills.find existing.id = some row → row.remoteFillKey = none := by
  unfold resolveLegacyFill at h
  split_ifs at h with hnone hlive
  · obtain ⟨rfl, rfl⟩ := Prod.mk.inj (pure_eq_ok_iff.mp h)
    refine ⟨Evolution.refl db, ?_⟩
    intro existing hex
    cases hex
  · simp only [bind_eq_ok] at h
    obtain ⟨⟨bound, middle⟩, hbind, h⟩ := h
    have hmiddle := bindCandidates_evolution hbind
    split_ifs at h with hbound
    · obtain ⟨rfl, rfl⟩ := Prod.mk.inj (pure_eq_ok_iff.mp h)
      refine ⟨hmiddle, ?_⟩
      intro existing hex row hrow
      have hlook : middle.fills.lookup (d.account.id, proof.key) = some existing := by
        injection hex
      obtain ⟨hmem, hnative⟩ := Indexed.lookup_eq_some.mp hlook
      cases hkey : row.remoteFillKey with
      | none => rfl
      | some key =>
        obtain ⟨new, hfind, hext⟩ := hmiddle.keyed hrow hkey
        have hsame : existing = new := by
          have hexists := Keyed.find_eq_some.mpr ⟨hmem, rfl⟩
          exact Option.some.inj (hexists.symm.trans hfind)
        rw [hsame, core_native hext.core] at hnative
        exact absurd hnative (Indexed.lookup_eq_none.mp hnew row (Keyed.mem_of_find hrow))
    · obtain ⟨hblocked, rfl⟩ := blockLegacy_cases h
      refine ⟨hmiddle.trans hblocked, ?_⟩
      intro existing hex
      cases hex
  · simp only [bind_eq_ok] at h
    obtain ⟨candidate, hcand, h⟩ := h
    cases candidate with
    | some existing =>
      simp only [bind_eq_ok, pure_eq_ok_iff] at h
      obtain ⟨bound, hbind, hpair⟩ := h
      obtain ⟨rfl, rfl⟩ := Prod.mk.inj hpair
      obtain ⟨hpaper, hmem⟩ := paperCandidate_mem hcand
      obtain ⟨hrow, hunkeyed⟩ := unkeyed_of_candidate hmem
      refine ⟨bindIdentity_evolution hrow hunkeyed hproven
        (fun hlive' => absurd hpaper.1 hlive') hbind, ?_⟩
      intro found hfound row hfind
      cases hfound
      rw [hrow] at hfind
      rwa [← Option.some.inj hfind]
    | none =>
      obtain ⟨hblocked, rfl⟩ := blockLegacy_cases h
      refine ⟨hblocked, ?_⟩
      intro existing hex
      cases hex

end Transactions

section Contradictions

variable (services : Services) (d : Delivery) (row : FillRow) (db : Database)

/-- The table of remote evidence has room for the event. -/
def Recordable (event : ExchangeUnresolvedEvent) : Prop :=
  ∃ stored, evidenceRow services.sha256 d.now d.account event = .ok stored

/-- The delivery proves the native key of the row with other economics, and both contents can
be written down. -/
def Contradicts : Prop :=
  ∃ proof order stored received, provenFillIdentity d.account d.fill = .ok (some proof) ∧
    row.native = some (d.account.id, proof.key) ∧ assertFillAccount d.account db = .ok () ∧
    managedOrder d.account d.fill db = some order ∧ sameFill row order d.fill = .ok false ∧
    conflictEvidence row (identifiedFill d.fill (some proof)) db = .ok (stored, received) ∧
    Recordable services d stored ∧ Recordable services d received

def Uncontradicted (actions : List Action) : Prop :=
  ∀ before d after, actions = before ++ .deliver d :: after →
    ¬ Contradicts services d row (run services before db)

variable {services d row db} {next : Database} {new : FillRow} {result : FillResult}

theorem recordRemoteEvidence_returns_iff {event : ExchangeUnresolvedEvent} :
    (∃ next, recordRemoteEvidence services.sha256 d.now d.account event db = .ok next) ↔
      Recordable services d event := by
  simp only [recordRemoteEvidence, Recordable, bind_eq_ok]
  refine ⟨?_, ?_⟩
  · rintro ⟨next, stored, hstored, -⟩
    exact ⟨stored, hstored⟩
  · rintro ⟨stored, hstored⟩
    by_cases hconf : contentConflicts stored db = true
    · exact ⟨_, stored, hstored, by rw [if_pos hconf]; rfl⟩
    · exact ⟨_, stored, hstored, by rw [if_neg hconf]; rfl⟩

theorem recordFillConflict_returns_iff {incoming : ExchangeFill} :
    (∃ next, recordFillConflict services d.now d.account row incoming db = .ok next) ↔
      ∃ stored received, conflictEvidence row incoming db = .ok (stored, received) ∧
        Recordable services d stored ∧ Recordable services d received := by
  simp only [recordFillConflict, bind_eq_ok, pure_eq_ok_iff]
  refine ⟨?_, ?_⟩
  · rintro ⟨next, ⟨stored, received⟩, hev, first, hfirst, second, hsnd, -⟩
    exact ⟨stored, received, hev, recordRemoteEvidence_returns_iff.mp ⟨first, hfirst⟩,
      recordRemoteEvidence_returns_iff.mp ⟨second, hsnd⟩⟩
  · rintro ⟨stored, received, hev, hstored, hreceived⟩
    obtain ⟨first, hfirst⟩ := recordRemoteEvidence_returns_iff.mpr hstored
    obtain ⟨second, hsnd⟩ := (@recordRemoteEvidence_returns_iff services d first received).mpr
      hreceived
    exact ⟨_, (stored, received), hev, first, hfirst, second, hsnd, rfl⟩

/-- Only columns that never change decide whether a delivery contradicts a row. -/
theorem contradicts_of_core (hcore : core new = core row) (h : Contradicts services d row db) :
    Contradicts services d new db := by
  obtain ⟨proof, order, stored, received, hproven, hnative, hacc, horder, hsame, hev,
    hrecd⟩ := h
  have hsame' : sameFill (core new) order d.fill = .ok false := by
    rw [hcore]
    exact hsame
  have hev' : conflictEvidence (core new) (identifiedFill d.fill (some proof)) db =
      .ok (stored, received) := by
    rw [hcore]
    exact hev
  exact ⟨proof, order, stored, received, hproven, (core_native hcore).trans hnative, hacc,
    horder, hsame', hev', hrecd⟩

theorem uncontradicted_of_core {actions : List Action} (hcore : core new = core row) :
    Uncontradicted services new db actions ↔ Uncontradicted services row db actions := by
  refine ⟨?_, ?_⟩
  · intro h before d after hsplit hcontra
    exact h before d after hsplit (contradicts_of_core hcore hcontra)
  · intro h before d after hsplit hcontra
    exact h before d after hsplit (contradicts_of_core hcore.symm hcontra)

theorem uncontradicted_cons {action : Action} {actions : List Action} :
    Uncontradicted services row db (action :: actions) ↔
      (∀ d, action = .deliver d → ¬ Contradicts services d row db) ∧
        Uncontradicted services row (perform services action db) actions := by
  refine ⟨?_, ?_⟩
  · intro h
    refine ⟨?_, ?_⟩
    · rintro d rfl
      exact h [] d actions rfl
    · intro before d after hsplit
      exact h (action :: before) d after (by rw [hsplit, List.cons_append])
  · rintro ⟨hfirst, hrest⟩ before d after hsplit
    cases before with
    | nil =>
      obtain ⟨rfl, -⟩ := List.cons.inj hsplit
      exact hfirst d rfl
    | cons first before =>
      obtain ⟨rfl, htail⟩ := List.cons.inj hsplit
      exact hrest before d after htail

end Contradictions

section Steps

variable {services : Services} {d : Delivery} {row : FillRow} {db next : Database}
variable {result : FillResult}

/-- A delivery lets the table evolve, or marks one row as conflicting: a row that had no key
when the delivery began, or one that the delivery contradicts. -/
theorem persistCorrelatedFill_cases (h : persistCorrelatedFill services d db = .ok (result, next)) :
    Evolution db next ∨ ∃ (middle : Database) (existing : FillRow), Evolution db middle ∧
      next.fills = (markFillConflict middle existing.id).fills ∧
      ∀ row key, db.fills.find existing.id = some row → row.remoteFillKey = some key →
        Contradicts services d row db := by
  have hobserve : ∀ {fill : ExchangeFill} {reason : String},
      observeFill services d fill reason db = .ok (result, next) → Evolution db next := by
    intro fill reason hobs
    simp only [observeFill, bind_eq_ok, pure_eq_ok_iff] at hobs
    obtain ⟨event, -, recorded, hrecd, hpair⟩ := hobs
    obtain ⟨-, rfl⟩ := Prod.mk.inj hpair
    exact evolution_of_fills (recordRemoteEvidence_fills hrecd)
  simp only [persistCorrelatedFill, bind_eq_ok] at h
  obtain ⟨proof, hproven, _, hacc, h⟩ := h
  cases horder : managedOrder d.account (identifiedFill d.fill proof) db with
  | none =>
    rw [horder] at h
    exact .inl (hobserve h)
  | some order =>
    rw [horder] at h
    cases proof with
    | none => exact .inl (hobserve h)
    | some proof =>
      simp only [storeFill] at h
      cases hlook : db.fills.lookup (d.account.id, proof.key) with
      | some existing =>
        rw [hlook] at h
        obtain ⟨hmem, hnative⟩ := Indexed.lookup_eq_some.mp hlook
        rcases settleFill_cases hproven h with hevolution | ⟨row, hrow, hsame, hconf⟩
        · exact .inl hevolution
        · obtain rfl := Option.some.inj hrow
          obtain ⟨stored, received, hrecd⟩ := recordFillConflict_returns_iff.mp ⟨next, hconf⟩
          refine .inr ⟨db, existing, Evolution.refl db, recordFillConflict_fills hconf, ?_⟩
          intro found key hfound hkey
          have hex := Keyed.find_eq_some.mpr ⟨hmem, rfl⟩
          obtain rfl := Option.some.inj (hex.symm.trans hfound)
          exact ⟨proof, order, stored, received, hproven, hnative, hacc, horder, hsame,
            hrecd⟩
      | none =>
        rw [hlook] at h
        simp only [bind_eq_ok] at h
        obtain ⟨⟨resolution, middle⟩, hresolve, h⟩ := h
        obtain ⟨hmiddle, hunkeyed⟩ := resolveLegacyFill_cases hproven hlook hresolve
        cases resolution with
        | blocked =>
          obtain ⟨-, rfl⟩ := Prod.mk.inj (pure_eq_ok_iff.mp h)
          exact .inl hmiddle
        | resolved existing =>
          rcases settleFill_cases hproven h with hevolution | ⟨row, rfl, -, hconf⟩
          · exact .inl (hmiddle.trans hevolution)
          · refine .inr ⟨middle, row, hmiddle, recordFillConflict_fills hconf, ?_⟩
            intro found key hfound hkey
            exact absurd hkey (by simp [hunkeyed row rfl found hfound])

theorem persistCorrelatedFill_of_contradicts (hrow : db.fills.find row.id = some row)
    (h : Contradicts services d row db) : ∃ next,
      persistCorrelatedFill services d db = .ok (notInserted, next) ∧
        next.fills = (markFillConflict db row.id).fills ∧ next.accounts = db.accounts ∧
          next.orders = db.orders := by
  obtain ⟨proof, order, stored, received, hproven, hnative, hacc, horder, hsame, hev⟩ := h
  obtain ⟨next, hconf⟩ := (@recordFillConflict_returns_iff services d row db
    (identifiedFill d.fill (some proof))).mpr ⟨stored, received, hev⟩
  have hlook : db.fills.lookup (d.account.id, proof.key) = some row :=
    Indexed.lookup_eq_some.mpr ⟨Keyed.mem_of_find hrow, hnative⟩
  have hmanaged : managedOrder d.account (identifiedFill d.fill (some proof)) db = some order :=
    horder
  have hdiffers : sameFill row order (identifiedFill d.fill (some proof)) = .ok false := hsame
  refine ⟨next, ?_, recordFillConflict_fills hconf, recordFillConflict_surroundings hconf⟩
  simp only [persistCorrelatedFill, hproven, ok_bind, hacc, hmanaged, storeFill, hlook,
    settleFill, hdiffers, Bool.false_eq_true, if_false, hconf]
  rfl

theorem deliver_keyed {key : String} (hrow : db.fills.find row.id = some row)
    (hkey : row.remoteFillKey = some key) :
    ∃ new, (deliver services d db).fills.find row.id = some new ∧ core new = core row ∧
      (new.identityStatus = .proven ↔ row.identityStatus = .proven ∧
        ¬ Contradicts services d row db) := by
  by_cases hcontra : Contradicts services d row db
  · obtain ⟨next, hpers, hfills, -⟩ := persistCorrelatedFill_of_contradicts hrow hcontra
    refine ⟨row.conflicting, ?_, rfl, ?_⟩
    · rw [deliver, hpers]
      change next.fills.find row.id = _
      rw [hfills, find_markFillConflict, hrow, Option.map_some, if_pos (decide_eq_true rfl)]
    · refine ⟨?_, ?_⟩
      · intro hproven
        cases hproven
      · rintro ⟨-, hnot⟩
        exact absurd hcontra hnot
  · unfold deliver
    cases hpers : persistCorrelatedFill services d db with
    | error e => exact ⟨row, hrow, rfl, by simp [hcontra]⟩
    | ok pair =>
      obtain ⟨result, next⟩ := pair
      have hext : ∃ new, next.fills.find row.id = some new ∧ Extends row new := by
        rcases persistCorrelatedFill_cases hpers with hevolution | ⟨middle, existing, hmiddle,
          hfills, hcause⟩
        · exact hevolution.keyed hrow hkey
        · obtain ⟨new, hfind, hnew⟩ := hmiddle.keyed hrow hkey
          refine ⟨new, ?_, hnew⟩
          have hother : existing.id ≠ row.id := by
            intro hsame
            exact hcontra (hcause row key (hsame ▸ hrow) hkey)
          rw [hfills, find_markFillConflict, hfind, Option.map_some, if_neg]
          rw [decide_eq_true_eq, core_id hnew.core]
          exact hother.symm
      obtain ⟨new, hfind, hnew⟩ := hext
      exact ⟨new, hfind, hnew.core, by rw [hnew.status]; simp [hcontra]⟩

theorem markFillConflict_proper (h : Proper db) (fillId : String) :
    Proper (markFillConflict db fillId) := by
  intro id row hrow
  rw [find_markFillConflict, Option.map_eq_some_iff] at hrow
  obtain ⟨old, hold, rfl⟩ := hrow
  split_ifs
  · exact (h id old hold).of_core rfl (fun _ hvalue => hvalue)
  · exact h id old hold

theorem proper_of_fills (h : Proper db) (hfills : next.fills = db.fills) : Proper next :=
  h.evolution (evolution_of_fills hfills)

theorem deliver_proper (h : Proper db) : Proper (deliver services d db) := by
  unfold deliver
  cases hpers : persistCorrelatedFill services d db with
  | error e => exact h
  | ok pair =>
    obtain ⟨result, next⟩ := pair
    rcases persistCorrelatedFill_cases hpers with hevolution | ⟨middle, existing, hmiddle,
      hfills, -⟩
    · exact h.evolution hevolution
    · exact proper_of_fills (markFillConflict_proper (h.evolution hmiddle) existing.id) hfills

theorem bindLegacy_evolution (account : TradingAccount) (fillId : String) :
    Evolution db (bindLegacy account fillId db) := by
  unfold bindLegacy
  cases hbind : bindLegacyFillIdentity account fillId db with
  | error e => exact Evolution.refl db
  | ok pair => exact bindLegacyFillIdentity_evolution hbind

theorem perform_proper (action : Action) (h : Proper db) : Proper (perform services action db) := by
  cases action with
  | deliver d => exact deliver_proper h
  | bindLegacy account fillId => exact h.evolution (bindLegacy_evolution account fillId)
  | surroundings accounts orders originals => exact proper_of_fills h rfl

theorem perform_keyed {key : String} (action : Action) (hrow : db.fills.find row.id = some row)
    (hkey : row.remoteFillKey = some key) :
    ∃ new, (perform services action db).fills.find row.id = some new ∧ core new = core row ∧
      (new.identityStatus = .proven ↔ row.identityStatus = .proven ∧
        ∀ d, action = .deliver d → ¬ Contradicts services d row db) := by
  cases action with
  | deliver d =>
    obtain ⟨new, hfind, hcore, hstatus⟩ := @deliver_keyed services d row db key hrow hkey
    exact ⟨new, hfind, hcore, by simpa using hstatus⟩
  | bindLegacy account fillId =>
    obtain ⟨new, hfind, hnew⟩ := (bindLegacy_evolution account fillId).keyed hrow hkey
    exact ⟨new, hfind, hnew.core, by simp [hnew.status]⟩
  | surroundings accounts orders originals => exact ⟨row, hrow, rfl, by simp⟩

end Steps

section Runs

variable {services : Services} {row : FillRow} {db : Database}

theorem run_proper (actions : List Action) (h : Proper db) : Proper (run services actions db) := by
  induction actions generalizing db with
  | nil => exact h
  | cons action actions ih => exact ih (perform_proper action h)

/-- A row with a native key is proven at the end of a run exactly when it was at the start and
no delivery of the run contradicted it. -/
theorem run_keyed {key : String} (actions : List Action) (hrow : db.fills.find row.id = some row)
    (hkey : row.remoteFillKey = some key) :
    ∃ new, (run services actions db).fills.find row.id = some new ∧ core new = core row ∧
      (new.identityStatus = .proven ↔ row.identityStatus = .proven ∧
        Uncontradicted services row db actions) := by
  induction actions generalizing db row with
  | nil =>
    refine ⟨row, hrow, rfl, ?_⟩
    have hnone : Uncontradicted services row db [] := by
      intro before d after hsplit
      simp at hsplit
    simp [hnone]
  | cons action actions ih =>
    obtain ⟨mid, hmid, hcore, hstatus⟩ := @perform_keyed services row db key action hrow hkey
    rw [← core_id hcore] at hmid
    obtain ⟨new, hnew, hnewCore, hnewStatus⟩ := ih hmid ((core_key hcore).trans hkey)
    refine ⟨new, ?_, hnewCore.trans hcore, ?_⟩
    · rw [← core_id hcore]
      exact hnew
    · rw [hnewStatus, hstatus, uncontradicted_of_core hcore, uncontradicted_cons, and_assoc]

end Runs

end TsxCore.FillConflicts
