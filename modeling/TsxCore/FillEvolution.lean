import TsxCore.TradingEvidenceRepository

/-!
# What a delivery may do to a stored fill

A row with a native key keeps its key, its economics and its original. Only its accounting
columns may be completed, and a conflict may be recorded on it. Rows from before native keys
may receive one, and new rows have one from the start; either way the key names the account
that the row is bound to.
-/

namespace TsxCore.FillEvolution

open Outcome TradingFillIdentity TradingFillTables TradingRemoteEvidence TradingFillCapture
open TradingEvidenceRepository

/-- The columns that no statement changes once the row has a native key. -/
def core (row : FillRow) : FillRow :=
  { row with
    accountFingerprint := none
    accounting := none
    accountingConflict := false
    identityStatus := .proven }

/-- The key of a row names its exchange and, outside the simulator, the row's own account. -/
def Bound (row : FillRow) : Prop :=
  ∀ key, row.remoteFillKey = some key → ∃ exchange fingerprint identity,
    key = fillKey exchange fingerprint identity ∧
      (exchange ≠ "paper" → row.accountFingerprint = some fingerprint)

structure Extends (row next : FillRow) : Prop where
  core : core next = core row
  status : next.identityStatus = row.identityStatus
  fingerprint : ∀ value, row.accountFingerprint = some value → next.accountFingerprint = some value

inductive Evolves : Option FillRow → Option FillRow → Prop
  | absent : Evolves none none
  | inserted {row : FillRow} (h : Bound row) : Evolves none (some row)
  | kept {row next : FillRow} (h : Extends row next) : Evolves (some row) (some next)
  | bound {row next : FillRow} (hkey : row.remoteFillKey = none) (h : Bound next) :
      Evolves (some row) (some next)

def Evolution (db next : Database) : Prop :=
  ∀ id, Evolves (db.fills.find id) (next.fills.find id)

section Rows

variable {row next last : FillRow}

theorem core_id (h : core next = core row) : next.id = row.id := by
  have hcolumn := congrArg FillRow.id h
  exact hcolumn

theorem core_accountId (h : core next = core row) : next.accountId = row.accountId := by
  have hcolumn := congrArg FillRow.accountId h
  exact hcolumn

theorem core_key (h : core next = core row) : next.remoteFillKey = row.remoteFillKey := by
  have hcolumn := congrArg FillRow.remoteFillKey h
  exact hcolumn

theorem core_raw (h : core next = core row) : next.raw = row.raw := by
  have hcolumn := congrArg FillRow.raw h
  exact hcolumn

theorem core_native (h : core next = core row) : next.native = row.native := by
  have hcolumn := congrArg FillRow.native h
  exact hcolumn

theorem Extends.refl (row : FillRow) : Extends row row := ⟨rfl, rfl, fun _ h => h⟩

theorem Extends.trans (h : Extends row next) (hlast : Extends next last) : Extends row last :=
  ⟨hlast.core.trans h.core, hlast.status.trans h.status,
    fun value hvalue => hlast.fingerprint value (h.fingerprint value hvalue)⟩

theorem Bound.of_core (h : Bound row) (hcore : core next = core row)
    (hfp : ∀ value, row.accountFingerprint = some value →
      next.accountFingerprint = some value) : Bound next := by
  intro key hkey
  rw [core_key hcore] at hkey
  obtain ⟨exchange, fingerprint, identity, hname, hacc⟩ := h key hkey
  exact ⟨exchange, fingerprint, identity, hname, fun hlive => hfp _ (hacc hlive)⟩

theorem Bound.extends (h : Bound row) (hext : Extends row next) : Bound next :=
  h.of_core hext.core hext.fingerprint

end Rows

section Composition

variable {old mid new : Option FillRow} {db middle next : Database}

theorem Evolves.refl (row : Option FillRow) : Evolves row row := by
  cases row with
  | none => exact .absent
  | some row => exact .kept (Extends.refl row)

theorem Evolves.trans (h : Evolves old mid) (hnext : Evolves mid new) : Evolves old new := by
  cases h with
  | absent => exact hnext
  | inserted hbound =>
    cases hnext with
    | kept hext => exact .inserted (hbound.extends hext)
    | bound _ hnew => exact .inserted hnew
  | kept hext =>
    cases hnext with
    | kept hlast => exact .kept (hext.trans hlast)
    | bound hkey hnew => exact .bound ((core_key hext.core).symm.trans hkey) hnew
  | bound hkey hbound =>
    cases hnext with
    | kept hext => exact .bound hkey (hbound.extends hext)
    | bound _ hnew => exact .bound hkey hnew

theorem Evolution.refl (db : Database) : Evolution db db :=
    fun id => Evolves.refl (db.fills.find id)

theorem Evolution.trans (h : Evolution db middle) (hnext : Evolution middle next) :
    Evolution db next := fun id => (h id).trans (hnext id)

theorem evolution_of_fills (h : next.fills = db.fills) : Evolution db next := by
  intro id
  rw [h]
  exact Evolves.refl _

theorem Evolution.keyed (h : Evolution db next) {id key : String} {row : FillRow}
    (hrow : db.fills.find id = some row) (hkey : row.remoteFillKey = some key) :
    ∃ new, next.fills.find id = some new ∧ Extends row new := by
  have hid := h id
  rw [hrow] at hid
  cases hfind : next.fills.find id with
  | none =>
    rw [hfind] at hid
    cases hid
  | some new =>
    rw [hfind] at hid
    cases hid with
    | kept hext => exact ⟨new, rfl, hext⟩
    | bound hnone _ => exact absurd hkey (by simp [hnone])

def Proper (db : Database) : Prop := ∀ id row, db.fills.find id = some row → Bound row

theorem Proper.evolution (h : Proper db) (hnext : Evolution db next) : Proper next := by
  intro id row hrow
  have hid := hnext id
  rw [hrow] at hid
  cases hfind : db.fills.find id with
  | none =>
    rw [hfind] at hid
    cases hid with
    | inserted hbound => exact hbound
  | some old =>
    rw [hfind] at hid
    cases hid with
    | kept hext => exact (h id old hfind).extends hext
    | bound _ hbound => exact hbound

end Composition

section Statements

variable {db next : Database} {account : TradingAccount} {fill : ExchangeFill} {proof : FillProof}

theorem bound_of_proven {row : FillRow}
    (h : provenFillIdentity account fill = .ok (some proof))
    (hkey : row.remoteFillKey = some proof.key)
    (hfp : account.exchange ≠ "paper" →
      row.accountFingerprint = fillAccountFingerprint account) : Bound row := by
  intro key hsome
  obtain rfl := Option.some.inj (hkey.symm.trans hsome)
  obtain ⟨fingerprint, hacc, hname⟩ := provenFillIdentity_key h
  exact ⟨account.exchange, fingerprint, proof.identity, hname,
    fun hlive => (hfp hlive).trans hacc⟩

theorem insertFill_evolution {order : OrderRow} {fillId : String}
    (hproven : provenFillIdentity account fill = .ok (some proof)) {delivered : ExchangeFill}
    (h : insertFill db (newFillRow account order delivered proof fillId) = .ok next) :
    Evolution db next := by
  simp only [insertFill, bind_eq_ok] at h
  obtain ⟨-, -, h⟩ := h
  split at h
  · cases h
  · rename_i fills hinsert
    obtain rfl := pure_eq_ok_iff.mp h
    intro id
    obtain ⟨hnew, hfind⟩ := Indexed.find_of_insert (k := id) hinsert
    change Evolves (db.fills.find id) (fills.find id)
    rw [hfind]
    split_ifs with hid
    · rw [← hid, hnew]
      exact .inserted (bound_of_proven hproven rfl (fun _ => rfl))
    · exact Evolves.refl _

theorem bindIdentity_evolution {row : FillRow} (hrow : db.fills.find row.id = some row)
    (hunbound : row.remoteFillKey = none)
    (hproven : provenFillIdentity account fill = .ok (some proof))
    (hfp : account.exchange ≠ "paper" →
      row.accountFingerprint = fillAccountFingerprint account)
    (h : bindIdentity db row.id proof = .ok next) : Evolution db next := by
  simp only [bindIdentity, bind_eq_ok] at h
  obtain ⟨-, -, h⟩ := h
  split at h
  · cases h
  · rename_i fills hupdate
    obtain rfl := pure_eq_ok_iff.mp h
    intro id
    change Evolves (db.fills.find id) (fills.find id)
    rw [Indexed.find_of_update hupdate]
    cases hfind : db.fills.find id with
    | none => exact .absent
    | some other =>
      rw [Option.map_some]
      split_ifs with hmatch
      · obtain ⟨hid, hnone⟩ := Bool.and_eq_true_iff.mp hmatch
        rw [decide_eq_true_eq] at hid
        have hother : other = row := by
          rw [← Keyed.key_of_find hfind, hid, hrow] at hfind
          exact (Option.some.inj hfind).symm
        rw [hother]
        exact .bound hunbound (bound_of_proven hproven rfl hfp)
      · exact Evolves.refl _

theorem set_evolution {p : FillRow → Bool} {f : FillRow → FillRow}
    (h : ∀ id, next.fills.find id =
      (db.fills.find id).map (fun row => if p row then f row else row))
    (hext : ∀ row, Extends row (f row)) : Evolution db next := by
  intro id
  rw [h]
  cases db.fills.find id with
  | none => exact .absent
  | some row =>
    rw [Option.map_some]
    split_ifs
    · exact .kept (hext row)
    · exact Evolves.refl _

theorem find_markAccountingConflict (fillId id : String) :
    (markAccountingConflict db fillId).fills.find id = (db.fills.find id).map
      (fun row => if decide (row.id = fillId) then row.contradicted else row) :=
  @Keyed.find_update _ _ _ _ db.fills.toKeyed id _ FillRow.contradicted (fun _ => rfl)

theorem find_fillAccounting (fillId : String) (fingerprint : Option String)
    (accounting : Option TradingTypes.ExchangeFillAccounting) (id : String) :
    (fillAccounting db fillId fingerprint accounting).fills.find id = (db.fills.find id).map
      (fun row => if decide (row.id = fillId) then row.completed fingerprint accounting else row) :=
  @Keyed.find_update _ _ _ _ db.fills.toKeyed id _ (FillRow.completed fingerprint accounting)
    (fun _ => rfl)

theorem find_markFillConflict (fillId id : String) :
    (markFillConflict db fillId).fills.find id = (db.fills.find id).map
      (fun row => if decide (row.id = fillId) then row.conflicting else row) :=
  @Keyed.find_update _ _ _ _ db.fills.toKeyed id _ FillRow.conflicting (fun _ => rfl)

theorem markAccountingConflict_evolution (fillId : String) :
    Evolution db (markAccountingConflict db fillId) :=
  set_evolution (find_markAccountingConflict fillId) (fun _ => ⟨rfl, rfl, fun _ h => h⟩)

theorem fillAccounting_evolution (fillId : String) (fingerprint : Option String)
    (accounting : Option TradingTypes.ExchangeFillAccounting) :
    Evolution db (fillAccounting db fillId fingerprint accounting) := by
  apply set_evolution (find_fillAccounting fillId fingerprint accounting)
  refine fun row => ⟨rfl, rfl, ?_⟩
  intro value hvalue
  exact Option.or_eq_some_iff.mpr (.inl hvalue)

end Statements

section Evidence

variable {db next : Database} {account : TradingAccount} {fill : ExchangeFill}
variable {sha256 : String → String} {now : ℤ} {event : ExchangeUnresolvedEvent}

theorem storeEvidence_fills (row : RemoteEvidenceRow) :
    (storeEvidence row db).fills = db.fills := by
  unfold storeEvidence
  split <;> rfl

theorem recordRemoteEvidence_fills
    (h : recordRemoteEvidence sha256 now account event db = .ok next) :
    next.fills = db.fills := by
  simp only [recordRemoteEvidence, bind_eq_ok] at h
  obtain ⟨row, -, h⟩ := h
  split_ifs at h
  · obtain rfl := pure_eq_ok_iff.mp h
    exact storeEvidence_fills { row with classification := .conflict }
  · obtain rfl := pure_eq_ok_iff.mp h
    exact storeEvidence_fills row

theorem storeEvidence_surroundings (row : RemoteEvidenceRow) :
    (storeEvidence row db).accounts = db.accounts ∧ (storeEvidence row db).orders = db.orders := by
  unfold storeEvidence
  split <;> exact ⟨rfl, rfl⟩

theorem recordRemoteEvidence_surroundings
    (h : recordRemoteEvidence sha256 now account event db = .ok next) :
    next.accounts = db.accounts ∧ next.orders = db.orders := by
  simp only [recordRemoteEvidence, bind_eq_ok] at h
  obtain ⟨row, -, h⟩ := h
  split_ifs at h
  · obtain rfl := pure_eq_ok_iff.mp h
    exact storeEvidence_surroundings { row with classification := .conflict }
  · obtain rfl := pure_eq_ok_iff.mp h
    exact storeEvidence_surroundings row

theorem markProvenFill_fills (h : markProvenFill sha256 account fill db = .ok next) :
    next.fills = db.fills := by
  simp only [markProvenFill, bind_eq_ok, pure_eq_ok_iff] at h
  obtain ⟨_, -, rfl⟩ := h
  rfl

end Evidence

section Captures

variable {db next : Database} {account : TradingAccount} {fill : ExchangeFill} {fillId : String}
variable {services : Services} {now : ℤ}

theorem captureFillAccounting_evolution
    (h : captureFillAccounting services.sha256 now account fill fillId db = .ok next) :
    Evolution db next := by
  unfold captureFillAccounting at h
  split at h
  · cases h
  · rename_i row hrow
    simp only [bind_eq_ok] at h
    obtain ⟨accounting, -, h⟩ := h
    split_ifs at h
    · unfold recordAccountingConflict at h
      split at h
      · cases h
      · obtain rfl := pure_eq_ok_iff.mp h
        exact markAccountingConflict_evolution row.id
    · obtain rfl := pure_eq_ok_iff.mp h
      exact Evolution.refl db
    · obtain rfl := pure_eq_ok_iff.mp h
      exact fillAccounting_evolution row.id _ _

theorem captureFillQuantityEvidence_fills {initial : Bool}
    {read : Option ExchangeAcquisitionEvidence}
    (h : captureFillQuantityEvidence services now account fill fillId initial read db = .ok next) :
    next.fills = db.fills := by
  unfold captureFillQuantityEvidence at h
  split at h
  · rw [pure_eq_ok_iff.mp h]
  · simp only [captureNormalization, bind_eq_ok] at h
    obtain ⟨_, _, _, _, _, _, _, _, h⟩ := h
    split at h
    · simp only [insertObservation, bind_eq_ok, pure_eq_ok_iff] at h
      obtain ⟨_, _, _, _, _, _, _, _, rfl⟩ := h
      rfl
    · cases h

end Captures

section Legacy

variable {db next : Database} {account : TradingAccount} {proof : FillProof} {row : FillRow}
variable {order : OrderRow}

theorem bound_of_safeLegacyProof (h : safeLegacyProof account row order db = some proof) :
    ∃ fill, provenFillIdentity account fill = .ok (some proof) ∧
      (account.exchange ≠ "paper" → row.accountFingerprint = fillAccountFingerprint account) := by
  unfold safeLegacyProof at h
  split at h
  · rename_i found hfound
    subst h
    unfold legacyProof at hfound
    split_ifs at hfound with hpaper hproves
    · obtain ⟨fill, -, hproven⟩ := bind_eq_ok.mp hfound
      exact ⟨fill, hproven, fun hlive => absurd hpaper.1 hlive⟩
    · cases hfound
    · unfold originalLiveProof at hfound
      split_ifs at hfound with hbound hjournal
      · cases hfound
      · split at hfound
        · cases hfound
        · simp only [bind_eq_ok, pure_eq_ok_iff] at hfound
          obtain ⟨fill, -, _, hproven, rfl⟩ := hfound
          refine ⟨fill, hproven, fun _ => ?_⟩
          rw [Bool.not_eq_false] at hbound
          exact of_decide_eq_true (Bool.and_eq_true_iff.mp hbound).2
      · split at hfound
        · cases hfound
        · simp only [bind_eq_ok, pure_eq_ok_iff] at hfound
          obtain ⟨_, _, _, _, hnone⟩ := hfound
          cases hnone
  · cases h

theorem fillOf_find {accountId fillId : String} (h : db.fillOf accountId fillId = some row) :
    db.fills.find fillId = some row ∧ row.accountId = accountId := by
  obtain ⟨hfind, hown⟩ := Option.filter_eq_some_iff.mp h
  exact ⟨hfind, of_decide_eq_true hown⟩

theorem bindLegacyFillIdentity_evolution {fillId : String} {bound : Bool}
    (h : bindLegacyFillIdentity account fillId db = .ok (bound, next)) : Evolution db next := by
  unfold bindLegacyFillIdentity at h
  split at h
  · obtain ⟨-, rfl⟩ := Prod.mk.inj (pure_eq_ok_iff.mp h)
    exact Evolution.refl db
  · rename_i row order howned
    split_ifs at h with hlegacy
    · obtain ⟨-, rfl⟩ := Prod.mk.inj (pure_eq_ok_iff.mp h)
      exact Evolution.refl db
    · split at h
      · obtain ⟨-, rfl⟩ := Prod.mk.inj (pure_eq_ok_iff.mp h)
        exact Evolution.refl db
      · rename_i proof hproof
        split_ifs at h
        · obtain ⟨-, rfl⟩ := Prod.mk.inj (pure_eq_ok_iff.mp h)
          exact Evolution.refl db
        · simp only [bind_eq_ok, pure_eq_ok_iff] at h
          obtain ⟨bound', hbind, hpair⟩ := h
          obtain ⟨-, rfl⟩ := Prod.mk.inj hpair
          obtain ⟨fill, hproven, hfp⟩ := bound_of_safeLegacyProof hproof
          obtain ⟨row', hrow, hpair⟩ := Option.bind_eq_some_iff.mp howned
          obtain ⟨order', -, hsame⟩ := Option.map_eq_some_iff.mp hpair
          obtain ⟨rfl, -⟩ := Prod.mk.inj hsame
          have hfind := (fillOf_find hrow).1
          rw [← Keyed.key_of_find hfind] at hfind
          rw [Bool.not_eq_false] at hlegacy
          have hnone := (Bool.and_eq_true_iff.mp hlegacy).2
          exact bindIdentity_evolution hfind (Option.isNone_iff_eq_none.mp hnone) hproven
            hfp hbind

theorem bindCandidates_evolution {candidates : List FillRow} {bound : Bool}
    (h : bindCandidates account candidates db = .ok (bound, next)) : Evolution db next := by
  induction candidates generalizing db with
  | nil =>
    obtain ⟨-, rfl⟩ := Prod.mk.inj (pure_eq_ok_iff.mp h)
    exact Evolution.refl db
  | cons candidate rest ih =>
    simp only [bindCandidates, bind_eq_ok] at h
    obtain ⟨⟨first, middle⟩, hfirst, h⟩ := h
    have hevolution := bindLegacyFillIdentity_evolution hfirst
    split_ifs at h
    · exact hevolution.trans (ih h)
    · obtain ⟨-, rfl⟩ := Prod.mk.inj (pure_eq_ok_iff.mp h)
      exact hevolution

end Legacy

end TsxCore.FillEvolution
