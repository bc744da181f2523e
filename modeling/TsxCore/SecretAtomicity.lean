import TsxCore.ManagedSecretStore

/-!
# What survives of the calls on managed secrets

A run is a list of calls and of starts of a process. A crash between two operations of a call is a
schedule that fails all operations from there on, followed by the start of a new process, which
knows of no secret but those in the directory.
-/

namespace TsxCore.ManagedSecretStore

open Failing Characters Outcome

section Runs

inductive Call
  | set (updates : List (ManagedSecretName × Option Text))
  | rotateDashboardToken (admin : Bool) (token : Text)
  | removeDashboardViewerToken
  | removeBackupDriveAccessToken
  | clear

def perform : Call → Action PUnit
  | .set updates => set updates
  | .rotateDashboardToken admin token => rotateDashboardToken admin token
  | .removeDashboardViewerToken => remove .dashboardViewerToken
  | .removeBackupDriveAccessToken => remove .backupDriveAccessToken
  | .clear => clear

inductive Step
  | call (call : Call) (faults : ℕ → Bool)
  | start (recoverInvalidManagedFiles : Bool) (faults : ℕ → Bool)

/-- A directory, the process that uses it, and the calls so far with whether they returned. -/
structure System where
  store : Store
  calls : List (Call × Bool)

def afresh (s : Store) : Store where
  secrets := s.secrets
  transaction := s.transaction
  env := fun _ => none
  sources := fun _ => .missing
  recoveryIssues := []

def advance (m : System) : Step → System
  | .call c faults =>
    let ended := perform c ⟨m.store, faults⟩
    ⟨ended.2.state, m.calls ++ [(c, ended.1.isOk)]⟩
  | .start recoverInvalidManagedFiles faults =>
    ⟨(initializeStore recoverInvalidManagedFiles ⟨afresh m.store, faults⟩).2.state, m.calls⟩

end Runs

section Meaning

abbrev Secrets := ManagedSecretName → Option Text

def publish (updates : Updates) (secrets : Secrets) : Secrets :=
  updates.foldl (fun secrets update => Function.update secrets update.1 (some update.2)) secrets

def normalized (updates : List (ManagedSecretName × Option Text)) : Updates :=
  updates.map (fun update => (update.1, trimmed (update.2.getD [])))

def tokenName (admin : Bool) : ManagedSecretName :=
  if admin then .dashboardAdminToken else .dashboardViewerToken

def effect : Call → Secrets → Secrets
  | .set updates, secrets => publish (normalized updates) secrets
  | .rotateDashboardToken admin token, secrets =>
    publish (normalized [(tokenName admin, some token)]) secrets
  | .removeDashboardViewerToken, secrets => Function.update secrets .dashboardViewerToken none
  | .removeBackupDriveAccessToken, secrets => Function.update secrets .backupDriveAccessToken none
  | .clear, _ => fun _ => none

def effects (calls : List Call) (secrets : Secrets) : Secrets :=
  calls.foldl (fun secrets call => effect call secrets) secrets

/-- Some of the calls in their order, among them all that returned. -/
inductive Selection : List (Call × Bool) → List Call → Prop
  | empty : Selection [] []
  | applied {calls kept c returned} :
    Selection calls kept → Selection (calls ++ [(c, returned)]) (kept ++ [c])
  | dropped {calls kept c} : Selection calls kept → Selection (calls ++ [(c, false)]) kept

def loaded (s : Store) : Secrets := fun name =>
  if s.sources name = .missing then none else s.env name

/-- An initialization that returns without issues loads the result of a selection. -/
def Atomic (initial : Secrets) (m : System) : Prop :=
  ∀ recoverInvalidManagedFiles faults s,
    initializeStore recoverInvalidManagedFiles ⟨afresh m.store, faults⟩ = (.ok ⟨⟩, s) →
    s.state.recoveryIssues = [] →
    ∃ kept, Selection m.calls kept ∧ loaded s.state = effects kept initial

end Meaning

section Files

variable {updates done rest : Updates} {files other : ManagedSecretName → Option Text}
  {secrets : Secrets} {name : ManagedSecretName} {value : Text}

def filesOf (secrets : Secrets) : ManagedSecretName → Option Text :=
  fun name => (secrets name).map fileText

def publishFiles (updates : Updates) (files : ManagedSecretName → Option Text) :
    ManagedSecretName → Option Text :=
  updates.foldl
    (fun files update => Function.update files update.1 (some (fileText update.2))) files

theorem publishFiles_append : publishFiles (done ++ rest) files =
    publishFiles rest (publishFiles done files) := List.foldl_append

theorem publishFiles_filesOf :
    publishFiles updates (filesOf secrets) = filesOf (publish updates secrets) := by
  induction updates generalizing secrets with
  | nil => rfl
  | cons update rest ih =>
    have hupdate : Function.update (filesOf secrets) update.1 (some (fileText update.2)) =
        filesOf (Function.update secrets update.1 (some update.2)) := by
      funext n
      by_cases hn : n = update.1
      · subst hn
        simp only [filesOf, Function.update_self, Option.map_some]
      · simp only [filesOf, Function.update_of_ne hn]
    rw [publishFiles, List.foldl_cons, hupdate]
    exact ih

theorem publishFiles_of_not_mem (h : name ∉ updates.map Prod.fst) :
    publishFiles updates files name = files name := by
  induction updates generalizing files with
  | nil => rfl
  | cons update rest ih =>
    rw [List.map_cons, List.mem_cons, not_or] at h
    rw [publishFiles, List.foldl_cons]
    exact (ih h.2).trans (Function.update_of_ne h.1 _ _)

theorem publishFiles_of_mem (h : name ∈ updates.map Prod.fst) :
    publishFiles updates files name = publishFiles updates other name := by
  induction updates generalizing files other with
  | nil => cases h
  | cons update rest ih =>
    rw [publishFiles, publishFiles, List.foldl_cons, List.foldl_cons]
    by_cases hrest : name ∈ rest.map Prod.fst
    · exact ih hrest
    · obtain rfl : name = update.1 := by
        rw [List.map_cons, List.mem_cons] at h
        exact h.resolve_right hrest
      refine (publishFiles_of_not_mem hrest).trans (.trans ?_ (publishFiles_of_not_mem hrest).symm)
      rw [Function.update_self, Function.update_self]

theorem publishFiles_congr (h : ∀ name, name ∉ updates.map Prod.fst → files name = other name) :
    publishFiles updates files = publishFiles updates other := by
  funext name
  by_cases hname : name ∈ updates.map Prod.fst
  · exact publishFiles_of_mem hname
  · rw [publishFiles_of_not_mem hname, publishFiles_of_not_mem hname, h name hname]

theorem publishFiles_again : publishFiles (done ++ rest) (publishFiles done files) =
    publishFiles (done ++ rest) files := by
  apply publishFiles_congr
  intro name hname
  rw [List.map_append, List.mem_append, not_or] at hname
  exact publishFiles_of_not_mem hname.1

/-- What the directory holds once its journal is replayed. -/
def recovered (s : Store) : ManagedSecretName → Option Text :=
  match s.transaction with
  | none => s.secrets
  | some updates => publishFiles updates s.secrets

end Files

section Writing

variable {updates : Updates} {origin : Store} {pre post failed : Store → Prop}
  {name : ManagedSecretName} {entries : List (ManagedSecretName × Option Text)}

theorem unseen_triple (h : ∀ s, pre s → failed s) :
    Triple pre unseen (fun _ => pre) failed := by
  apply Triple.operation h
  intro s a s' hs hact
  obtain ⟨-, rfl⟩ := Prod.mk.inj (Except.ok.inj hact)
  exact hs

theorem syncDirectory_triple (h : ∀ s, pre s → failed s) :
    Triple pre syncDirectory (fun _ => pre) failed :=
  (unseen_triple h).bind fun _ => (unseen_triple h).bind fun _ => unseen_triple h

/-- A file is as it was until it is published as a whole. -/
theorem writeFileAtomically_triple {publish : Store → Store} (hpre : ∀ s, pre s → failed s)
    (hpublish : ∀ s, pre s → post (publish s)) (hpost : ∀ s, post s → failed s) :
    Triple pre (writeFileAtomically publish) (fun _ => post) failed := by
  have hunseen := unseen_triple hpre
  have hrename : Triple pre (operation failure (fun s => .ok (PUnit.unit, publish s)))
      (fun _ => post) failed := by
    apply Triple.operation hpre
    intro s a s' hs hact
    obtain ⟨-, rfl⟩ := Prod.mk.inj (Except.ok.inj hact)
    exact hpublish s hs
  exact hunseen.bind fun _ => hunseen.bind fun _ => hunseen.bind fun _ => hunseen.bind fun _ =>
    hrename.bind fun _ => syncDirectory_triple hpost

/-- The journal holds updates of which the first ones are published. -/
def Publishing (origin : Store) (updates rest : Updates) (s : Store) : Prop :=
  s.transaction = some updates ∧
    ∃ done, updates = done ++ rest ∧ s.secrets = publishFiles done origin.secrets

def Journaled (origin : Store) (updates : Updates) (s : Store) : Prop :=
  (s.transaction = none ∨ s.transaction = some updates) ∧
    recovered s = publishFiles updates origin.secrets

theorem Publishing.journaled {rest : Updates} {s : Store} (h : Publishing origin updates rest s) :
    Journaled origin updates s := by
  obtain ⟨htx, done, rfl, hsecrets⟩ := h
  refine ⟨.inr htx, ?_⟩
  rw [recovered, htx, hsecrets]
  exact publishFiles_again

theorem writeSecretFiles_triple (hfailed : ∀ s, Journaled origin updates s → failed s) :
    Triple (Publishing origin updates updates)
      (forEach updates (fun update => writeSecretFile update.1 update.2))
      (fun _ => Publishing origin updates []) failed := by
  apply Triple.forEach
  intro update rest
  apply writeFileAtomically_triple
  · exact fun s hs => hfailed s hs.journaled
  · rintro s ⟨htx, done, hdone, hsecrets⟩
    refine ⟨htx, done ++ [update], by rw [hdone, List.append_assoc]; rfl, ?_⟩
    rw [publishFiles_append, ← hsecrets]
    rfl
  · exact fun s hs => hfailed s hs.journaled

/-- The journal is removed when all of it is published. -/
def Published (origin : Store) (updates : Updates) (s : Store) : Prop :=
  s.transaction = none ∧ s.secrets = publishFiles updates origin.secrets

theorem Published.journaled {s : Store} (h : Published origin updates s) :
    Journaled origin updates s := by
  refine ⟨.inl h.1, ?_⟩
  rw [recovered, h.1]
  exact h.2

theorem unlinkTransaction_triple (hfailed : ∀ s, Journaled origin updates s → failed s) :
    Triple (Publishing origin updates []) unlinkTransaction
      (fun _ => Published origin updates) failed := by
  apply Triple.operation
  · exact fun s hs => hfailed s hs.journaled
  · rintro s a s' ⟨htx, done, hdone, hsecrets⟩ hact
    rw [htx] at hact
    obtain ⟨-, rfl⟩ := Prod.mk.inj (Except.ok.inj hact)
    rw [List.append_nil] at hdone
    exact ⟨rfl, hdone ▸ hsecrets⟩

def Untouched (origin s : Store) : Prop :=
  s.transaction = origin.transaction ∧ s.secrets = origin.secrets

/-- A call has left the directory alone, or its updates are all there once the journal is
replayed. -/
def Interrupted (origin : Store) (updates : Updates) (s : Store) : Prop :=
  Untouched origin s ∨ Journaled origin updates s

theorem writeTransaction_triple : Triple (Untouched origin) (writeTransaction updates)
    (fun _ => Published origin updates) (Interrupted origin updates) := by
  have hjournaled : ∀ s, Journaled origin updates s → Interrupted origin updates s :=
    fun s hs => .inr hs
  have hjournal : Triple (Untouched origin)
      (writeFileAtomically (fun s => { s with transaction := some updates }))
      (fun _ => Publishing origin updates updates) (Interrupted origin updates) := by
    apply writeFileAtomically_triple
    · exact fun s hs => .inl hs
    · exact fun s hs => ⟨rfl, [], rfl, hs.2⟩
    · exact fun s hs => hjournaled s hs.journaled
  exact hjournal.bind fun _ => (writeSecretFiles_triple hjournaled).bind fun _ =>
    (unlinkTransaction_triple hjournaled).bind fun _ =>
      syncDirectory_triple fun s hs => hjournaled s hs.journaled

theorem validateSecret_ok {value text : Text} (h : validateSecret name (some text) = .ok value) :
    value = trimmed text := by
  unfold validateSecret at h
  dsimp only at h
  split_ifs at h
  exact (Except.ok.inj h).symm

theorem validateSecret_error {value : Option Text} {e : Thrown}
    (h : validateSecret name value = .error e) : e.code = none := by
  unfold validateSecret at h
  split at h
  · rw [← Except.error.inj h, Thrown.error]
  · split_ifs at h
    rw [← Except.error.inj h, Thrown.error]

theorem validateUpdates_ok {s : Store} (h : validateUpdates entries s = .ok updates) :
    updates = normalized entries := by
  simp only [validateUpdates, bind_eq_ok, mapM_eq_ok] at h
  obtain ⟨-, -, hall⟩ := h
  rw [normalized]
  induction hall with
  | nil => rfl
  | @cons entry update entries updates hentry hrest ih =>
    simp only [validateUpdate, bind_eq_ok, pure_eq_ok_iff] at hentry
    obtain ⟨-, -, value, hvalue, -, -, rfl⟩ := hentry
    rw [List.map_cons, ih]
    congr 1
    cases htext : entry.2 with
    | none =>
      rw [htext] at hvalue
      cases hvalue
    | some text =>
      rw [htext] at hvalue
      rw [validateSecret_ok hvalue, Option.getD_some]

theorem set_triple :
    Triple (Untouched origin) (set entries)
      (fun _ => Published origin (normalized entries))
      (Interrupted origin (normalized entries)) := by
  have hlook : Triple (Untouched origin) (look (validateUpdates entries))
      (fun updates s => Untouched origin s ∧ updates = normalized entries)
      (Interrupted origin (normalized entries)) := by
    apply Triple.look
    · exact fun s hs => .inl hs
    · exact fun s updates hs hok => ⟨hs, validateUpdates_ok hok⟩
  have hkeep {act : Store → Store} (hact : ∀ s, (act s).secrets = s.secrets ∧
      (act s).transaction = s.transaction) : Triple (Published origin (normalized entries))
      (change act : Action PUnit) (fun _ => Published origin (normalized entries))
      (Interrupted origin (normalized entries)) := by
    apply Triple.change
    intro s hs
    rw [Published, (hact s).1, (hact s).2]
    exact hs
  refine hlook.bind fun updates => ?_
  have hwrite : Triple (fun s => Untouched origin s ∧ updates = normalized entries)
      (writeTransaction updates) (fun _ => Published origin (normalized entries))
      (Interrupted origin (normalized entries)) := by
    rintro w ⟨hw, rfl⟩
    exact writeTransaction_triple w hw
  refine hwrite.bind fun _ => Triple.bind (hkeep ?_) fun _ => ?_
  · exact fun s => ⟨rfl, rfl⟩
  · refine @Triple.forEach _ _ _ _ _ (fun _ => Published origin (normalized entries)) ?_ updates
    intro update rest
    apply hkeep
    exact fun s => ⟨rfl, rfl⟩

end Writing

section Removing

variable {name : ManagedSecretName} {targets : List ManagedSecretName} {s : Store}
  {faults : ℕ → Bool} {files : ManagedSecretName → Option Text}

/-- How many of the files are unlinked before an operation is made to fail. A removal is an unlink
and the three operations of `syncDirectory`. -/
def reached : ℕ → (ℕ → Bool) → ℕ
  | 0, _ => 0
  | count + 1, faults =>
    if faults 0 then 0
    else if faults 1 || faults 2 || faults 3 then 1
    else reached count (fun n => faults (n + 4)) + 1

def withoutSecrets (targets : List ManagedSecretName) (files : ManagedSecretName → Option Text) :
    ManagedSecretName → Option Text :=
  fun name => if name ∈ targets then none else files name

/-- The directory and the process after the removal. -/
def removed (name : ManagedSecretName) (s : Store) : Store :=
  forget name { s with secrets := Function.update s.secrets name none }

theorem unlinkSecret_run (hfault : faults 0 = false) :
    unlessMissing (unlinkSecret name) ⟨s, faults⟩ =
      (.ok ⟨⟩, ⟨{ s with secrets := Function.update s.secrets name none },
        fun n => faults (n + 1)⟩) := by
  cases hfile : s.secrets name with
  | none =>
    have hsame : Function.update s.secrets name none = s.secrets := by
      rw [← hfile, Function.update_eq_self]
    have hunlink : unlinkSecret name ⟨s, faults⟩ =
        (.error missingFile, ⟨s, fun n => faults (n + 1)⟩) :=
      operation_error hfault (by rw [hfile])
    rw [hsame]
    exact catching_error hunlink
  | some text => exact catching_ok (operation_ok hfault (by rw [hfile]))

theorem unseen_run (hfault : faults 0 = false) :
    unseen ⟨s, faults⟩ = (.ok ⟨⟩, ⟨s, fun n => faults (n + 1)⟩) := operation_ok hfault rfl

theorem syncDirectory_run (h : (faults 0 || faults 1 || faults 2) = false) :
    syncDirectory ⟨s, faults⟩ = (.ok ⟨⟩, ⟨s, fun n => faults (n + 3)⟩) := by
  rw [Bool.or_eq_false_iff, Bool.or_eq_false_iff] at h
  obtain ⟨⟨hopen, hsync⟩, hclose⟩ := h
  exact (bind_ok (unseen_run hopen)).trans ((bind_ok (unseen_run hsync)).trans (unseen_run hclose))

theorem syncDirectory_fault (h : (faults 0 || faults 1 || faults 2) = true) :
    ∃ later, syncDirectory ⟨s, faults⟩ = (.error failure, ⟨s, later⟩) := by
  cases hopen : faults 0 with
  | true => exact ⟨_, bind_error (operation_fault hopen)⟩
  | false =>
    cases hsync : faults 1 with
    | true => exact ⟨_, (bind_ok (unseen_run hopen)).trans (bind_error (operation_fault hsync))⟩
    | false =>
      rw [hopen, hsync, Bool.or_self, Bool.false_or] at h
      exact ⟨_, (bind_ok (unseen_run hopen)).trans ((bind_ok (unseen_run hsync)).trans
        (operation_fault h))⟩

theorem filesOf_update_none {secrets : Secrets} :
    filesOf (Function.update secrets name none) = withoutSecrets [name] (filesOf secrets) := by
  funext other
  by_cases hother : other = name
  · subst hother
    simp [filesOf, withoutSecrets]
  · simp [filesOf, withoutSecrets, hother]

/-- A removal whose first operation fails changes nothing, and otherwise removes the secret. -/
theorem remove_run (hsrc : s.sources name ≠ .external) :
    remove name ⟨s, faults⟩ =
      if faults 0 then (.error failure, ⟨s, fun n => faults (n + 1)⟩)
      else syncDirectory ⟨removed name s, fun n => faults (n + 1)⟩ := by
  have hlook : (look (fun s : Store => throwIf (s.sources name = .external)
      (Thrown.error ((definition name).environmentName ++
        " is externally managed and cannot be removed in the dashboard."))) : Action PUnit)
      ⟨s, faults⟩ = (.ok ⟨⟩, ⟨s, faults⟩) := by
    rw [look, throwIf_of_not hsrc]
  refine (bind_ok hlook).trans ?_
  cases hfault : faults 0 with
  | true => exact bind_error (catching_error (operation_fault hfault))
  | false => exact bind_ok (unlinkSecret_run hfault)

theorem withoutSecrets_cons (files : ManagedSecretName → Option Text) :
    withoutSecrets (name :: targets) files =
      withoutSecrets targets (Function.update files name none) := by
  funext other
  by_cases hother : other = name
  · subst hother
    simp [withoutSecrets]
  · simp [withoutSecrets, hother]

def Removal (targets : List ManagedSecretName) (faults : ℕ → Bool) (s : Store)
    (ended : Except Thrown PUnit × World Store) : Prop :=
  ended.1.isOk = false ∧ ended.2.state = s ∨
    ended.2.state.secrets =
        withoutSecrets (targets.take (reached targets.length faults)) s.secrets ∧
      ended.2.state.transaction = s.transaction ∧
      (ended.1.isOk = true → reached targets.length faults = targets.length)

theorem forEach_remove (hsources : ∀ name ∈ targets, s.sources name ≠ .external) :
    (forEach targets remove ⟨s, faults⟩).2.state.secrets =
        withoutSecrets (targets.take (reached targets.length faults)) s.secrets ∧
      (forEach targets remove ⟨s, faults⟩).2.state.transaction = s.transaction ∧
      ((forEach targets remove ⟨s, faults⟩).1.isOk = true →
        reached targets.length faults = targets.length) := by
  induction targets generalizing s faults with
  | nil => exact ⟨by funext name; simp [withoutSecrets]; rfl, rfl, fun _ => rfl⟩
  | cons name targets ih =>
    have hsrc := hsources name List.mem_cons_self
    have hrun : remove name ⟨s, faults⟩ = _ := remove_run hsrc
    rw [List.length_cons, reached]
    cases hfault : faults 0 with
    | true =>
      rw [hfault, if_pos rfl] at hrun
      rw [forEach, bind_error hrun, if_pos rfl, List.take_zero]
      exact ⟨by funext name; simp [withoutSecrets], rfl, nofun⟩
    | false =>
      rw [hfault, if_neg Bool.false_ne_true] at hrun
      rw [if_neg Bool.false_ne_true]
      cases hsync : (faults 1 || faults 2 || faults 3) with
      | true =>
        obtain ⟨later, hlater⟩ :=
          @syncDirectory_fault (removed name s) (fun n => faults (n + 1)) hsync
        rw [hlater] at hrun
        rw [forEach, bind_error hrun, if_pos rfl, List.take_succ_cons, List.take_zero,
          withoutSecrets_cons]
        exact ⟨by funext name; simp [withoutSecrets, removed, forget], rfl, nofun⟩
      | false =>
        rw [@syncDirectory_run (removed name s) (fun n => faults (n + 1)) hsync] at hrun
        rw [forEach, bind_ok hrun, if_neg Bool.false_ne_true, List.take_succ_cons,
          withoutSecrets_cons]
        have hrest : ∀ other ∈ targets, (removed name s).sources other ≠ .external := by
          intro other hother
          by_cases hsame : other = name
          · simp [removed, forget, hsame]
          · simp only [removed, forget, ne_eq, Function.update_of_ne hsame]
            exact hsources other (List.mem_cons_of_mem name hother)
        obtain ⟨hsecrets, htx, hok⟩ := @ih (removed name s) (fun n => faults (n + 4)) hrest
        refine ⟨hsecrets, htx, fun hended => ?_⟩
        rw [hok hended]

theorem withoutSecrets_of_missing (h : ∀ name ∈ targets, files name = none) :
    withoutSecrets targets files = files := by
  funext name
  by_cases hname : name ∈ targets
  · rw [withoutSecrets, if_pos hname, h name hname]
  · rw [withoutSecrets, if_neg hname]

theorem withoutSecrets_append {others : List ManagedSecretName}
    {files : ManagedSecretName → Option Text} : withoutSecrets (targets ++ others) files =
      withoutSecrets targets (withoutSecrets others files) := by
  funext name
  simp only [withoutSecrets, List.mem_append]
  split_ifs <;> simp_all

theorem publishFiles_withoutSecrets {updates : Updates}
    (h : ∀ name ∈ updates.map Prod.fst, name ∉ targets) :
    publishFiles updates (withoutSecrets targets files) =
      withoutSecrets targets (publishFiles updates files) := by
  funext name
  by_cases hname : name ∈ updates.map Prod.fst
  · rw [withoutSecrets, if_neg (h name hname)]
    exact publishFiles_of_mem hname
  · rw [publishFiles_of_not_mem hname, withoutSecrets, withoutSecrets,
      publishFiles_of_not_mem hname]

end Removing

section Initializing

variable {origin : Store} {updates : Updates} {files : ManagedSecretName → Option Text}
  {secrets : Secrets} {transaction : Option Updates} {name : ManagedSecretName}

theorem failure_code : failure.code ≠ some "ENOENT" := by decide

/-- Every value of the journal is as `validateSecret` returned it. -/
def Normal (transaction : Option Updates) : Prop :=
  ∀ updates, transaction = some updates → ∀ update ∈ updates, trimmed update.2 = update.2

/-- The recovery has not finished, and its process holds no secret. -/
def Replaying (origin s : Store) : Prop :=
  (s.transaction = none ∨ s.transaction = origin.transaction) ∧
    recovered s = recovered origin ∧ (∀ name, s.env name = none) ∧ s.recoveryIssues = []

def Replayed (origin s : Store) : Prop := Replaying origin s ∧ s.transaction = none

/-- The journal is being replayed by a process that holds no secret. -/
def Replay (origin : Store) (updates rest : Updates) (s : Store) : Prop :=
  Publishing origin updates rest s ∧ (∀ name, s.env name = none) ∧ s.recoveryIssues = []

theorem Replay.replaying {s : Store} {rest : Updates} (h : Replay origin updates rest s)
    (horigin : origin.transaction = some updates) : Replaying origin s := by
  obtain ⟨hpublishing, henv, hissues⟩ := h
  refine ⟨.inr (hpublishing.1.trans horigin.symm), ?_, henv, hissues⟩
  rw [hpublishing.journaled.2, recovered, horigin]

theorem applyRecovered_triple {update : ManagedSecretName × Text} {rest : Updates}
    (horigin : origin.transaction = some updates)
    (hnormal : ∀ update ∈ updates, trimmed update.2 = update.2) :
    Triple (Replay origin updates (update :: rest)) (applyRecovered update)
      (fun _ => Replay origin updates rest) (Replaying origin) := by
  have hfailed : ∀ s, Replay origin updates (update :: rest) s → Replaying origin s :=
    fun s hs => hs.replaying horigin
  have hvalue : Triple (Replay origin updates (update :: rest))
      (look (fun _ => validateSecret update.1 (some update.2)))
      (fun value s => Replay origin updates (update :: rest) s ∧ value = update.2)
      (Replaying origin) := by
    apply Triple.look hfailed
    intro s value hs hvalue
    obtain ⟨done, hdone, -⟩ := hs.1.2
    have hmem : update ∈ updates := by
      rw [hdone]
      exact List.mem_append_right done List.mem_cons_self
    exact ⟨hs, (validateSecret_ok hvalue).trans (hnormal update hmem)⟩
  have hwrite : Triple (Replay origin updates (update :: rest))
      (writeSecretFile update.1 update.2) (fun _ => Replay origin updates rest)
      (Replaying origin) := by
    apply writeFileAtomically_triple hfailed
    · rintro s ⟨⟨htx, done, hdone, hsecrets⟩, hprocess⟩
      refine ⟨⟨htx, done ++ [update], by rw [hdone, List.append_assoc]; rfl, ?_⟩, hprocess⟩
      rw [publishFiles_append, ← hsecrets]
      rfl
    · exact fun s hs => hs.replaying horigin
  refine Triple.bind (Triple.look hfailed fun s _ hs _ => hs) fun _ => hvalue.bind fun value => ?_
  rintro w ⟨hw, rfl⟩
  exact hwrite w hw

theorem replayTransaction_triple (horigin : origin.transaction = some updates)
    (hnormal : ∀ update ∈ updates, trimmed update.2 = update.2) :
    Triple (Replay origin updates updates)
      (do
        forEach updates applyRecovered
        unlinkTransaction
        syncDirectory)
      (fun _ => Replayed origin) (Replaying origin) := by
  have hunlink : Triple (Replay origin updates []) unlinkTransaction
      (fun _ => Replayed origin) (Replaying origin) := by
    apply Triple.operation
    · exact fun s hs => hs.replaying horigin
    · rintro s a s' ⟨⟨htx, done, hdone, hsecrets⟩, hprocess⟩ hact
      rw [htx] at hact
      obtain ⟨-, rfl⟩ := Prod.mk.inj (Except.ok.inj hact)
      rw [List.append_nil] at hdone
      refine ⟨⟨.inl rfl, ?_, hprocess⟩, rfl⟩
      rw [recovered, recovered, horigin, hdone]
      exact hsecrets
  refine (Triple.forEach (fun update rest => applyRecovered_triple horigin hnormal) updates).bind
    fun _ => hunlink.bind fun _ => syncDirectory_triple fun s hs => hs.1

theorem recoverPendingTransaction_triple (hnormal : Normal origin.transaction)
    (henv : ∀ name, origin.env name = none) (hissues : origin.recoveryIssues = []) :
    Triple (· = origin) recoverPendingTransaction (fun _ => Replayed origin)
      (Replaying origin) := by
  have hstart : Replaying origin origin := ⟨.inr rfl, rfl, henv, hissues⟩
  have hread : Triple (· = origin) readPendingTransactionEntries
      (fun entries s => s = origin ∧ entries = origin.transaction) (Replaying origin) := by
    have hunseen : Ends (· = origin) unseen (fun _ => (· = origin))
        (fun e s => s = origin ∧ (e.code = some "ENOENT" → origin.transaction = none)) := by
      apply Ends.operation
      · exact fun s hs => ⟨hs, fun hcode => absurd hcode failure_code⟩
      · exact fun s e _ hact => by cases hact
      · intro s a s' hs hact
        obtain ⟨-, rfl⟩ := Prod.mk.inj (Except.ok.inj hact)
        exact hs
    refine Ends.catching (hunseen.bind fun _ => Ends.operation ?_ ?_ ?_) fun e => ?_
    · exact fun s hs => ⟨hs, fun hcode => absurd hcode failure_code⟩
    · rintro s e rfl hact
      refine ⟨rfl, fun _ => ?_⟩
      split at hact
      · assumption
      · cases hact
    · rintro s entries s' rfl hact
      split at hact
      · cases hact
      · next htx =>
        obtain ⟨rfl, rfl⟩ := Prod.mk.inj (Except.ok.inj hact)
        exact ⟨rfl, htx.symm⟩
    · split_ifs with hcode
      · exact Triple.pure fun s hs => ⟨hs.1, (hs.2 hcode).symm⟩
      · exact Triple.throwing fun s hs => hs.1 ▸ hstart
  refine hread.bind fun entries => ?_
  rintro w ⟨hw, rfl⟩
  cases hentries : origin.transaction with
  | none => exact .inl ⟨_, rfl, hw ▸ hstart, hw ▸ hentries⟩
  | some updates =>
    cases updates with
    | nil => exact .inr ⟨_, rfl, hw ▸ hstart⟩
    | cons update rest =>
      refine replayTransaction_triple hentries (hnormal _ hentries) w ?_
      rw [hw]
      exact ⟨⟨hentries, [], rfl, rfl⟩, henv, hissues⟩

theorem withoutNewline_fileText {value : Text} (h : trimmed value = value) :
    withoutNewline (fileText value) = value := by
  rw [withoutNewline, fileText, List.getLast?_concat, if_pos rfl, List.dropLast_concat]
  rw [if_neg]
  intro hlast
  have hne : value ≠ [] := by
    rintro rfl
    cases hlast
  rw [List.getLast?_eq_some_getLast hne, Option.some_inj] at hlast
  have hspace := not_isSpace_getLast h hne
  rw [hlast] at hspace
  exact absurd hspace (by decide)

/-- The secrets that are left are not loaded, and the others are, unless an issue was found. -/
def Loading (files : ManagedSecretName → Option Text) (secrets : Secrets)
    (transaction : Option Updates) (rest : List ManagedSecretName) (s : Store) : Prop :=
  s.secrets = files ∧ s.transaction = transaction ∧ rest.Nodup ∧
    (∀ name ∈ rest, s.env name = none) ∧
    (s.recoveryIssues = [] → files = filesOf secrets ∧ ∀ name ∉ rest, loaded s name = secrets name)

variable {rest : List ManagedSecretName}

theorem readSecret_ends (htrimmed : ∀ value, secrets name = some value → trimmed value = value) :
    Ends (Loading files secrets transaction (name :: rest)) (readSecret name)
      (fun value s => Loading files secrets transaction (name :: rest) s ∧
        (files = filesOf secrets → secrets name = some value))
      (fun e s => Loading files secrets transaction (name :: rest) s ∧
        (e.code = some "ENOENT" → files = filesOf secrets → secrets name = none)) := by
  have hread {β : Type} (view : Text → β) {act : Store → Except Thrown (β × Store)}
      (hmiss : ∀ s, s.secrets name = none → act s = .error missingFile)
      (hfound : ∀ s text, s.secrets name = some text → act s = .ok (view text, s)) :
      Ends (Loading files secrets transaction (name :: rest)) (operation failure act)
      (fun result s => Loading files secrets transaction (name :: rest) s ∧
        ∃ text, files name = some text ∧ result = view text)
      (fun e s => Loading files secrets transaction (name :: rest) s ∧
        (e.code = some "ENOENT" → files = filesOf secrets → secrets name = none)) := by
    apply Ends.operation
    · exact fun s hs => ⟨hs, fun hcode => absurd hcode failure_code⟩
    · intro s e hs hact
      cases hfile : s.secrets name with
      | none =>
        refine ⟨hs, fun _ hfiles => ?_⟩
        rwa [hs.1, hfiles, filesOf, Option.map_eq_none_iff] at hfile
      | some text => cases (hfound s text hfile).symm.trans hact
    · intro s result s' hs hact
      cases htext : s.secrets name with
      | none => cases (hmiss s htext).symm.trans hact
      | some text =>
        obtain ⟨rfl, rfl⟩ := Prod.mk.inj (Except.ok.inj ((hfound s text htext).symm.trans hact))
        exact ⟨hs, text, hs.1 ▸ htext, rfl⟩
  refine (hread byteLength ?_ ?_).bind fun size => Ends.bind (Ends.look ?_ fun s _ hs _ => hs.1)
    fun _ => (hread id ?_ ?_).bind fun text => Ends.look ?_ ?_
  · intro s hmiss
    simp only [hmiss]
  · intro s text hfound
    simp only [hfound]
  · intro s e hs hact
    obtain ⟨-, rfl⟩ := throwIf_eq_error.mp hact
    exact ⟨hs.1, by rintro ⟨⟩⟩
  · intro s hmiss
    simp only [hmiss]
  · intro s text hfound
    simp only [hfound, id]
  · intro s e hs hact
    rw [validateSecret_error hact]
    exact ⟨hs.1, by rintro ⟨⟩⟩
  · rintro s result ⟨hs, text, htext, rfl⟩ hact
    refine ⟨hs, fun hfiles => ?_⟩
    rw [hfiles, filesOf, Option.map_eq_some_iff] at htext
    obtain ⟨value, hvalue, rfl⟩ := htext
    have hread : withoutNewline (fileText value) = value :=
      withoutNewline_fileText (htrimmed value hvalue)
    rw [hread] at hact
    rw [validateSecret_ok hact, htrimmed value hvalue, hvalue]

theorem Loading.settled {s : Store} {value : Option Text} {source : ManagedSecretSource}
    (h : Loading files secrets transaction (name :: rest) s)
    (hloaded : files = filesOf secrets →
      (if source = .missing then none else value) = secrets name) :
    Loading files secrets transaction rest
      { s with
        env := Function.update s.env name value
        sources := Function.update s.sources name source } := by
  obtain ⟨hfiles, htx, hnodup, henv, hissues⟩ := h
  have hname := List.nodup_cons.mp hnodup
  refine ⟨hfiles, htx, hname.2, fun other hother => ?_, fun hnone => ?_⟩
  · have hne : other ≠ name := fun heq => hname.1 (heq ▸ hother)
    exact (Function.update_of_ne hne _ _).trans (henv other (List.mem_cons_of_mem name hother))
  · refine ⟨(hissues hnone).1, fun other hother => ?_⟩
    by_cases heq : other = name
    · subst heq
      simp only [loaded, Function.update_self]
      exact hloaded (hissues hnone).1
    · simp only [loaded, Function.update_of_ne heq]
      exact (hissues hnone).2 other fun hmem => (List.mem_cons.mp hmem).elim heq hother

theorem load_triple (htrimmed : ∀ value, secrets name = some value → trimmed value = value) :
    Triple (Loading files secrets transaction (name :: rest)) (load name)
      (fun _ => Loading files secrets transaction rest)
      (Loading files secrets transaction (name :: rest)) := by
  have hprovided : Triple (Loading files secrets transaction (name :: rest))
      (look (fun s => .ok (provided s name)) : Action Bool)
      (fun result s => Loading files secrets transaction (name :: rest) s ∧ result = false)
      (Loading files secrets transaction (name :: rest)) := by
    apply Triple.look (fun s hs => hs)
    intro s result hs hres
    refine ⟨hs, ?_⟩
    rw [← Except.ok.inj hres, provided, hs.2.2.2.1 name List.mem_cons_self]
    rfl
  refine hprovided.bind fun result => ?_
  rintro w ⟨hw, rfl⟩
  rw [if_neg Bool.false_ne_true]
  refine Ends.catching ((readSecret_ends htrimmed).bind fun value => Ends.change ?_)
    (fun e => ?_) w hw
  · rintro s ⟨hs, hvalue⟩
    exact hs.settled fun hfiles => (hvalue hfiles).symm
  · split_ifs with hcode
    · apply Triple.change
      rintro s ⟨hs, hmiss⟩
      have hset := @Loading.settled files secrets transaction name rest s (s.env name) .missing
        hs fun hfiles => (hmiss hcode hfiles).symm
      rwa [Function.update_eq_self] at hset
    · exact Triple.throwing fun s hs => hs.1

theorem initializeSecret_triple {recoverInvalid : Bool}
    (htrimmed : ∀ value, secrets name = some value → trimmed value = value) :
    Triple (Loading files secrets transaction (name :: rest))
      (initializeSecret recoverInvalid name)
      (fun _ => Loading files secrets transaction rest)
      (fun s => s.secrets = files ∧ s.transaction = transaction) := by
  refine Ends.catching (load_triple htrimmed) fun e => ?_
  refine Triple.bind (Triple.look (fun s hs => ⟨hs.1, hs.2.1⟩) fun s _ hs _ => hs) fun kept => ?_
  split_ifs
  · exact Triple.throwing fun s hs => ⟨hs.1, hs.2.1⟩
  · apply Triple.change
    rintro s ⟨hfiles, htx, hnodup, henv, -⟩
    refine ⟨hfiles, htx, (List.nodup_cons.mp hnodup).2, ?_, ?_⟩
    · exact fun other hother => henv other (List.mem_cons_of_mem name hother)
    · intro hissues
      exact absurd hissues (List.append_ne_nil_of_right_ne_nil _ (List.cons_ne_nil _ _))

/-- The directory is as it was, apart from the replay of the journal. -/
def Preserved (origin s : Store) : Prop :=
  (s.transaction = none ∨ s.transaction = origin.transaction) ∧ recovered s = recovered origin

theorem mem_names (name : ManagedSecretName) : name ∈ names := by
  cases name <;> decide

theorem initializeTransactionRecovery_triple {recoverInvalid : Bool}
    (hnormal : Normal origin.transaction) (henv : ∀ name, origin.env name = none)
    (hissues : origin.recoveryIssues = []) :
    Triple (· = origin) (initializeTransactionRecovery recoverInvalid)
      (fun _ s => Preserved origin s ∧ (∀ name, s.env name = none) ∧
        (s.recoveryIssues = [] → s.transaction = none)) (Preserved origin) := by
  have hrecover := recoverPendingTransaction_triple hnormal henv hissues
  refine Ends.catching
    (hrecover.mono (fun s hs => hs) (fun _ s hs => ?_) fun s hs => hs) fun e => ?_
  · exact ⟨⟨hs.1.1, hs.1.2.1⟩, hs.1.2.2.1, fun _ => hs.2⟩
  · split_ifs
    · apply Triple.change
      rintro s ⟨htx, hrecovered, hnone, -⟩
      refine ⟨⟨htx, hrecovered⟩, hnone, fun hempty => ?_⟩
      exact absurd hempty (List.append_ne_nil_of_right_ne_nil _ (List.cons_ne_nil _ _))
    · exact Triple.throwing fun s hs => ⟨hs.1, hs.2.1⟩

theorem initializeStore_triple {recoverInvalid : Bool} (hnormal : Normal origin.transaction)
    (henv : ∀ name, origin.env name = none) (hissues : origin.recoveryIssues = [])
    (hfiles : recovered origin = filesOf secrets)
    (htrimmed : ∀ name value, secrets name = some value → trimmed value = value) :
    Triple (· = origin) (initializeStore recoverInvalid)
      (fun _ s => Preserved origin s ∧ (s.recoveryIssues = [] → loaded s = secrets))
      (Preserved origin) := by
  have hunseen : Triple (· = origin) unseen (fun _ => (· = origin)) (Preserved origin) :=
    unseen_triple fun s hs => hs ▸ ⟨.inr rfl, rfl⟩
  refine hunseen.bind fun _ => hunseen.bind fun _ => hunseen.bind fun _ => hunseen.bind fun _ =>
    (initializeTransactionRecovery_triple hnormal henv hissues).bind fun _ => ?_
  rintro w ⟨hpreserved, hnone, hdone⟩
  have hsame {s : Store} (hsecrets : s.secrets = w.state.secrets)
      (htx : s.transaction = w.state.transaction) : Preserved origin s := by
    rw [Preserved, recovered, hsecrets, htx]
    exact hpreserved
  have hloop := Triple.forEach (fun name rest => @initializeSecret_triple w.state.secrets secrets
    w.state.transaction name rest recoverInvalid (htrimmed name)) names
  have hload : Triple (Loading w.state.secrets secrets w.state.transaction names)
      (forEach names (initializeSecret recoverInvalid))
      (fun _ s => Preserved origin s ∧ (s.recoveryIssues = [] → loaded s = secrets))
      (Preserved origin) := by
    apply hloop.mono
    · exact fun s hs => hs
    · intro _ s hs
      refine ⟨hsame hs.1 hs.2.1, fun hempty => funext fun name => ?_⟩
      exact (hs.2.2.2.2 hempty).2 name List.not_mem_nil
    · exact fun s hs => hsame hs.1 hs.2
  refine hload w ⟨rfl, rfl, by decide, fun name _ => hnone name, fun hempty => ⟨?_, ?_⟩⟩
  · rw [← hfiles, ← hpreserved.2, recovered, hdone hempty]
  · exact fun name hname => absurd (mem_names name) hname

end Initializing

section Atomicity

variable {initial secrets : Secrets} {m : System} {name : ManagedSecretName}
  {entries : List (ManagedSecretName × Option Text)} {c : Call} {faults : ℕ → Bool}

/-- A new transaction does not cut off one that the journal still holds: it writes the secrets of
the pending one, or these are published. -/
def Supersedes (entries : List (ManagedSecretName × Option Text)) (s : Store) : Prop :=
  ∀ updates, s.transaction = some updates → ∀ name ∈ updates.map Prod.fst,
    name ∈ entries.map Prod.fst ∨ s.secrets name = recovered s name

/-- The removed secrets are not in the journal, and if a removal of several is cut off, those before
or those after the cut were missing. -/
def Removes (targets : List ManagedSecretName) (faults : ℕ → Bool) (s : Store) : Prop :=
  let count := reached targets.length faults
  (∀ updates, s.transaction = some updates → ∀ name ∈ updates.map Prod.fst,
    name ∉ targets.take count) ∧
  ((∀ name ∈ targets.take count, recovered s name = none) ∨
    ∀ name ∈ targets.drop count, recovered s name = none)

/-- What keeps a call from meeting a journal or a cut that makes it visible in part. -/
def Undisturbed (faults : ℕ → Bool) (s : Store) : Call → Prop
  | .set updates => Supersedes updates s
  | .rotateDashboardToken admin token => Supersedes [(tokenName admin, some token)] s
  | .removeDashboardViewerToken => Removes [.dashboardViewerToken] faults s
  | .removeBackupDriveAccessToken => Removes [.backupDriveAccessToken] faults s
  | .clear => Removes names faults s

def Admissible (m : System) : Step → Prop
  | .call c faults => Undisturbed faults m.store c
  | .start _ _ => True

def run (m : System) (steps : List Step) : System := steps.foldl advance m

/-- Every step is admissible in the state that it meets. -/
def AllAdmissible : System → List Step → Prop
  | _, [] => True
  | m, step :: steps => Admissible m step ∧ AllAdmissible (advance m step) steps

/-- A directory with secrets, and a process that has not looked at it. -/
def begin (initial : Secrets) : System where
  store := ⟨filesOf initial, none, fun _ => none, fun _ => .missing, []⟩
  calls := []

/-- The directory holds, once its journal is replayed, the result of a selection. -/
structure Consistent (initial : Secrets) (m : System) : Prop where
  normal : Normal m.store.transaction
  selected : ∃ kept, Selection m.calls kept ∧ recovered m.store = filesOf (effects kept initial)

/-- The values are as `validateSecret` returned them. -/
def Trimmed (secrets : Secrets) : Prop :=
  ∀ name value, secrets name = some value → trimmed value = value

theorem trimmed_publish {updates : Updates} (h : Trimmed secrets)
    (hupdates : ∀ update ∈ updates, trimmed update.2 = update.2) :
    Trimmed (publish updates secrets) := by
  induction updates generalizing secrets with
  | nil => exact h
  | cons update rest ih =>
    refine ih ?_ fun other hother => hupdates other (List.mem_cons_of_mem update hother)
    intro name value hvalue
    dsimp only at hvalue
    by_cases hname : name = update.1
    · subst hname
      rw [Function.update_self, Option.some_inj] at hvalue
      rw [← hvalue]
      exact hupdates update List.mem_cons_self
    · rw [Function.update_of_ne hname] at hvalue
      exact h name value hvalue

theorem trimmed_normalized : ∀ update ∈ normalized entries, trimmed update.2 = update.2 := by
  simp only [normalized, List.forall_mem_map]
  exact fun entry _ => trimmed_trimmed _

theorem trimmed_update_none (h : Trimmed secrets) :
    Trimmed (Function.update secrets name none) := by
  intro other value hvalue
  by_cases hother : other = name
  · subst hother
    rw [Function.update_self] at hvalue
    cases hvalue
  · rw [Function.update_of_ne hother] at hvalue
    exact h other value hvalue

theorem trimmed_effect (h : Trimmed secrets) (c : Call) : Trimmed (effect c secrets) := by
  cases c with
  | set updates => exact trimmed_publish h trimmed_normalized
  | rotateDashboardToken admin token => exact trimmed_publish h trimmed_normalized
  | removeDashboardViewerToken => exact trimmed_update_none h
  | removeBackupDriveAccessToken => exact trimmed_update_none h
  | clear => exact fun _ _ hvalue => nomatch hvalue

theorem trimmed_effects (h : Trimmed initial) (kept : List Call) :
    Trimmed (effects kept initial) := by
  induction kept using List.reverseRecOn with
  | nil => exact h
  | append_singleton kept c ih =>
    rw [effects, List.foldl_append]
    exact trimmed_effect ih c

theorem Consistent.call (h : Consistent initial m)
    (hnormal : Normal (advance m (.call c faults)).store.transaction)
    (hkept : (perform c ⟨m.store, faults⟩).1.isOk = true →
      ∀ secrets, recovered m.store = filesOf secrets →
        recovered (perform c ⟨m.store, faults⟩).2.state = filesOf (effect c secrets))
    (hended : ∀ secrets, recovered m.store = filesOf secrets →
      recovered (perform c ⟨m.store, faults⟩).2.state = filesOf secrets ∨
        recovered (perform c ⟨m.store, faults⟩).2.state = filesOf (effect c secrets)) :
    Consistent initial (advance m (.call c faults)) := by
  obtain ⟨-, kept, hsele, hrecovered⟩ := h
  refine ⟨hnormal, ?_⟩
  have happlied : recovered (perform c ⟨m.store, faults⟩).2.state =
      filesOf (effect c (effects kept initial)) →
      ∃ kept, Selection (advance m (.call c faults)).calls kept ∧
        recovered (advance m (.call c faults)).store = filesOf (effects kept initial) := by
    intro hfiles
    refine ⟨kept ++ [c], .applied hsele, hfiles.trans ?_⟩
    rw [effects, effects, List.foldl_append]
    rfl
  cases hok : (perform c ⟨m.store, faults⟩).1.isOk with
  | true => exact happlied (hkept hok _ hrecovered)
  | false =>
    obtain hsame | heffect := hended _ hrecovered
    · refine ⟨kept, ?_, hsame⟩
      rw [advance, hok]
      exact .dropped hsele
    · exact happlied heffect

theorem publishFiles_recovered {s : Store} (h : Supersedes entries s) :
    publishFiles (normalized entries) s.secrets =
      publishFiles (normalized entries) (recovered s) := by
  apply publishFiles_congr
  intro name hname
  rw [recovered]
  cases htx : s.transaction with
  | none => rfl
  | some updates =>
    by_cases hpend : name ∈ updates.map Prod.fst
    · obtain hwritten | hpublished := h updates htx name hpend
      · refine absurd ?_ hname
        rwa [normalized, List.map_map]
      · rwa [recovered, htx] at hpublished
    · exact (publishFiles_of_not_mem hpend).symm

theorem Consistent.publishing (h : Consistent initial m)
    (hspec : Triple (Untouched m.store) (perform c)
      (fun _ => Published m.store (normalized entries)) (Interrupted m.store (normalized entries)))
    (heffect : ∀ secrets, effect c secrets = publish (normalized entries) secrets)
    (hsupersedes : Supersedes entries m.store) :
    Consistent initial (advance m (.call c faults)) := by
  have happlied {s : Store} (hs : Journaled m.store (normalized entries) s) (secrets : Secrets)
      (hsecrets : recovered m.store = filesOf secrets) :
      recovered s = filesOf (effect c secrets) := by
    rw [hs.2, publishFiles_recovered hsupersedes, hsecrets, publishFiles_filesOf, heffect]
  have hjournal {s : Store} (hs : Journaled m.store (normalized entries) s) :
      Normal s.transaction := by
    intro updates hupdates
    obtain hnone | hsome := hs.1
    · rw [hnone] at hupdates
      cases hupdates
    · rw [hsome, Option.some_inj] at hupdates
      exact hupdates ▸ trimmed_normalized
  obtain ⟨a, hres, hpublished⟩ | ⟨e, hres, huntouched | hjournaled⟩ :=
    hspec ⟨m.store, faults⟩ ⟨rfl, rfl⟩
  · exact h.call (hjournal hpublished.journaled) (fun _ => happlied hpublished.journaled)
      fun secrets hsecrets => .inr (happlied hpublished.journaled secrets hsecrets)
  · have hsame : recovered (perform c ⟨m.store, faults⟩).2.state = recovered m.store := by
      rw [recovered, huntouched.1, huntouched.2, recovered]
    refine h.call ?_ (fun hok => ?_) fun secrets hsecrets => .inl (hsame.trans hsecrets)
    · rw [advance, huntouched.1]
      exact h.normal
    · rw [hres] at hok
      cases hok
  · exact h.call (hjournal hjournaled) (fun _ => happlied hjournaled)
      fun secrets hsecrets => .inr (happlied hjournaled secrets hsecrets)

theorem Consistent.removing {targets : List ManagedSecretName} (h : Consistent initial m)
    (hspec : Removal targets faults m.store (perform c ⟨m.store, faults⟩))
    (heffect : ∀ secrets, filesOf (effect c secrets) = withoutSecrets targets (filesOf secrets))
    (hremoves : Removes targets faults m.store) :
    Consistent initial (advance m (.call c faults)) := by
  obtain ⟨hfailed, hsame⟩ | ⟨hsecrets, htx, hall⟩ := hspec
  · refine h.call ?_ (fun hok => ?_) fun secrets hsecrets => .inl ?_
    · rw [advance, hsame]
      exact h.normal
    · rw [hfailed] at hok
      cases hok
    · rw [hsame, hsecrets]
  · have hrecovered : recovered (perform c ⟨m.store, faults⟩).2.state =
        withoutSecrets (targets.take (reached targets.length faults)) (recovered m.store) := by
      rw [recovered, htx, hsecrets, recovered]
      cases hpend : m.store.transaction with
      | none => rfl
      | some updates => exact publishFiles_withoutSecrets (hremoves.1 updates hpend)
    refine h.call ?_ (fun hok secrets hfiles => ?_) fun secrets hfiles => ?_
    · rw [advance, htx]
      exact h.normal
    · rw [hrecovered, hall hok, List.take_length, hfiles, heffect]
    · rw [hrecovered, heffect, ← hfiles]
      obtain hbefore | hafter := hremoves.2
      · exact .inl (withoutSecrets_of_missing hbefore)
      · right
        have hsplit := List.take_append_drop (reached targets.length faults) targets
        have hdrop := @withoutSecrets_append
          (targets.take (reached targets.length faults))
          (targets.drop (reached targets.length faults)) (recovered m.store)
        rw [hsplit, withoutSecrets_of_missing hafter] at hdrop
        exact hdrop.symm

theorem remove_spec {s : Store} : Removal [name] faults s (remove name ⟨s, faults⟩) := by
  by_cases hexternal : s.sources name = .external
  · left
    have hlook : remove name ⟨s, faults⟩ = (.error _, ⟨s, faults⟩) :=
      bind_error (by rw [look, throwIf, if_pos hexternal])
    rw [hlook]
    exact ⟨rfl, rfl⟩
  · right
    have hone : forEach [name] remove ⟨s, faults⟩ = remove name ⟨s, faults⟩ := forEach_singleton _
    rw [← hone]
    apply forEach_remove
    simpa only [List.forall_mem_singleton] using hexternal

theorem clear_spec {s : Store} : Removal names faults s (clear ⟨s, faults⟩) := by
  rcases hclearable : assertClearable s with e | u
  · left
    have hlook : clear ⟨s, faults⟩ = (.error e, ⟨s, faults⟩) :=
      bind_error (by rw [look, hclearable])
    rw [hlook]
    exact ⟨rfl, rfl⟩
  · right
    have hlook : clear ⟨s, faults⟩ = forEach names remove ⟨s, faults⟩ :=
      bind_ok (by rw [look, hclearable])
    rw [hlook]
    apply forEach_remove
    rw [assertClearable, throwIf_eq_ok, not_not, List.filter_eq_nil_iff] at hclearable
    simpa using hclearable

theorem rotate_triple {origin : Store} {admin : Bool} {token : Text} :
    Triple (Untouched origin) (rotateDashboardToken admin token)
      (fun _ => Published origin (normalized [(tokenName admin, some token)]))
      (Interrupted origin (normalized [(tokenName admin, some token)])) :=
  Triple.bind (Triple.look (fun _ hs => .inl hs) fun _ _ hs _ => hs) fun _ => set_triple

theorem Consistent.call_admissible (h : Consistent initial m)
    (hadmissible : Undisturbed faults m.store c) :
    Consistent initial (advance m (.call c faults)) := by
  cases c with
  | set updates => exact h.publishing set_triple (fun _ => rfl) hadmissible
  | rotateDashboardToken admin token => exact h.publishing rotate_triple (fun _ => rfl) hadmissible
  | removeDashboardViewerToken | removeBackupDriveAccessToken =>
    exact h.removing remove_spec (fun _ => filesOf_update_none) hadmissible
  | clear =>
    refine h.removing clear_spec (fun _ => ?_) hadmissible
    funext name
    rw [withoutSecrets, if_pos (mem_names name)]
    rfl

theorem Consistent.initialized {recoverInvalid : Bool} (h : Consistent initial m)
    (hinitial : Trimmed initial) : ∃ kept, Selection m.calls kept ∧
      Triple (· = afresh m.store) (initializeStore recoverInvalid)
        (fun _ s => Preserved (afresh m.store) s ∧
          (s.recoveryIssues = [] → loaded s = effects kept initial))
        (Preserved (afresh m.store)) := by
  obtain ⟨hnormal, kept, hsele, hrecovered⟩ := h
  exact ⟨kept, hsele, initializeStore_triple hnormal (fun _ => rfl) rfl hrecovered
    (trimmed_effects hinitial kept)⟩

theorem Consistent.start {recoverInvalid : Bool} (h : Consistent initial m)
    (hinitial : Trimmed initial) :
    Consistent initial (advance m (.start recoverInvalid faults)) := by
  obtain ⟨kept, hsele, hstart⟩ := @initialized initial m recoverInvalid h hinitial
  have hpreserved : Preserved (afresh m.store)
      (advance m (.start recoverInvalid faults)).store := by
    obtain ⟨a, -, hs⟩ | ⟨e, -, hs⟩ := hstart ⟨afresh m.store, faults⟩ rfl
    · exact hs.1
    · exact hs
  obtain ⟨hnormal, kept, hsele, hrecovered⟩ := h
  refine ⟨fun updates hupdates => ?_, kept, hsele, hpreserved.2.trans hrecovered⟩
  obtain hnone | hsame := hpreserved.1
  · rw [hnone] at hupdates
    cases hupdates
  · exact hnormal updates (hsame.symm.trans hupdates)

theorem Consistent.atomic (h : Consistent initial m) (hinitial : Trimmed initial) :
    Atomic initial m := by
  intro recoverInvalid faults s hrun hissues
  obtain ⟨kept, hsele, hstart⟩ := @initialized initial m recoverInvalid h hinitial
  refine ⟨kept, hsele, ?_⟩
  obtain ⟨a, -, hs⟩ | ⟨e, hres, -⟩ := hstart ⟨afresh m.store, faults⟩ rfl
  · rw [hrun] at hs
    exact hs.2 hissues
  · rw [hrun] at hres
    cases hres

theorem Consistent.run {steps : List Step} (h : Consistent initial m) (hinitial : Trimmed initial)
    (hadmissible : AllAdmissible m steps) : Consistent initial (run m steps) := by
  induction steps generalizing m with
  | nil => exact h
  | cons step steps ih =>
    refine ih ?_ hadmissible.2
    cases step with
    | call c faults => exact h.call_admissible hadmissible.1
    | start recoverInvalid faults => exact h.start hinitial

def Valid (secrets : Secrets) : Prop :=
  ∀ name value, secrets name = some value → validateSecret name (some value) = .ok value

theorem Valid.trimmed (h : Valid secrets) : Trimmed secrets :=
  fun name value hvalue => (validateSecret_ok (h name value hvalue)).symm

def Sets (name : ManagedSecretName) : Call → Prop
  | .set updates => name ∈ updates.map Prod.fst
  | .rotateDashboardToken admin _ => name = tokenName admin
  | _ => False

def Drops (name : ManagedSecretName) : Call → Prop
  | .removeDashboardViewerToken => name = .dashboardViewerToken
  | .removeBackupDriveAccessToken => name = .backupDriveAccessToken
  | .clear => True
  | _ => False

/-- A secret whose removal returned, and that no later call sets, is missing when a process has
started without issues. -/
def Final (m : System) : Prop :=
  ∀ recoverInvalidManagedFiles faults s,
    initializeStore recoverInvalidManagedFiles ⟨afresh m.store, faults⟩ = (.ok ⟨⟩, s) →
    s.state.recoveryIssues = [] →
    ∀ earlier later c name, m.calls = earlier ++ (c, true) :: later → Drops name c →
      (∀ call ∈ later, ¬ Sets name call.1) → loaded s.state name = none

theorem publish_of_not_mem {updates : Updates} (h : name ∉ updates.map Prod.fst) :
    publish updates secrets name = secrets name := by
  induction updates generalizing secrets with
  | nil => rfl
  | cons update rest ih =>
    rw [List.map_cons, List.mem_cons, not_or] at h
    exact (ih h.2).trans (Function.update_of_ne h.1 _ _)

theorem effect_of_drops (h : Drops name c) : effect c secrets name = none := by
  cases c with
  | set updates => exact h.elim
  | rotateDashboardToken admin token => exact h.elim
  | removeDashboardViewerToken | removeBackupDriveAccessToken =>
    subst h
    simp only [effect, Function.update_self]
  | clear => rfl

theorem effect_of_missing (h : ¬ Sets name c) (hmiss : secrets name = none) :
    effect c secrets name = none := by
  by_cases hdrops : Drops name c
  · exact effect_of_drops hdrops
  cases c with
  | set updates =>
    refine (publish_of_not_mem ?_).trans hmiss
    rw [normalized, List.map_map]
    exact h
  | rotateDashboardToken admin token =>
    refine (publish_of_not_mem ?_).trans hmiss
    rw [normalized, List.map_map]
    exact fun hname => h (List.mem_singleton.mp hname)
  | removeDashboardViewerToken => exact (Function.update_of_ne hdrops _ _).trans hmiss
  | removeBackupDriveAccessToken => exact (Function.update_of_ne hdrops _ _).trans hmiss
  | clear => rfl

theorem Selection.concat {calls : List (Call × Bool)} {returned : Bool} {kept : List Call}
    (h : Selection (calls ++ [(c, returned)]) kept) :
    (∃ before, kept = before ++ [c] ∧ Selection calls before) ∨
      returned = false ∧ Selection calls kept := by
  generalize hcalls : calls ++ [(c, returned)] = all at h
  cases h with
  | empty => exact absurd hcalls (List.append_ne_nil_of_right_ne_nil _ (List.cons_ne_nil _ _))
  | applied h =>
    obtain ⟨rfl, hlast⟩ := List.append_inj' hcalls rfl
    obtain ⟨rfl, rfl⟩ := Prod.mk.inj (List.cons.inj hlast).1
    exact .inl ⟨_, rfl, h⟩
  | dropped h =>
    obtain ⟨rfl, hlast⟩ := List.append_inj' hcalls rfl
    obtain ⟨rfl, rfl⟩ := Prod.mk.inj (List.cons.inj hlast).1
    exact .inr ⟨rfl, h⟩

theorem Selection.missing {earlier later : List (Call × Bool)} {kept : List Call}
    (h : Selection (earlier ++ (c, true) :: later) kept) (hdrops : Drops name c)
    (hlater : ∀ call ∈ later, ¬ Sets name call.1) : effects kept initial name = none := by
  induction later using List.reverseRecOn generalizing kept with
  | nil =>
    obtain ⟨before, rfl, -⟩ | ⟨hret, -⟩ := h.concat
    · rw [effects, List.foldl_append]
      exact effect_of_drops hdrops
    · cases hret
  | append_singleton later last ih =>
    rw [← List.cons_append, ← List.append_assoc] at h
    have hrest : ∀ call ∈ later, ¬ Sets name call.1 :=
      fun call hcall => hlater call (List.mem_append_left _ hcall)
    obtain ⟨before, rfl, hbefore⟩ | ⟨-, hbefore⟩ := h.concat
    · rw [effects, List.foldl_append]
      exact effect_of_missing (hlater last (by simp)) (ih hbefore hrest)
    · exact ih hbefore hrest

theorem Atomic.final (h : Atomic initial m) : Final m := by
  intro recoverInvalid faults s hrun hissues earlier later c name hcalls hdrops hlater
  obtain ⟨kept, hsele, hloaded⟩ := h recoverInvalid faults s hrun hissues
  rw [hcalls] at hsele
  rw [hloaded]
  exact hsele.missing hdrops hlater

/-- Calls that meet no journal of other secrets, and removals that are not cut in two, are atomic,
and removals are final. -/
theorem secrets_atomic {initial : Secrets} {steps : List Step} (hinitial : Valid initial)
    (hadmissible : AllAdmissible (begin initial) steps) :
    Atomic initial (run (begin initial) steps) ∧ Final (run (begin initial) steps) := by
  have hbegin : Consistent initial (begin initial) := ⟨nofun, [], .empty, rfl⟩
  have hatomic := (hbegin.run hinitial.trimmed hadmissible).atomic hinitial.trimmed
  exact ⟨hatomic, hatomic.final⟩

/-- A set is cut off, its journal replayed by the next process, and one of its tokens removed. -/
def revokedAfterReplay : List Step :=
  [.start false (fun _ => false),
    .call (.set [(.dashboardViewerToken, some (List.replicate 32 'v')),
      (.dashboardAdminToken, some (List.replicate 32 'a'))]) (fun n => n == 16),
    .start false (fun _ => false),
    .call .removeDashboardViewerToken (fun _ => false)]

theorem secrets_atomic_replayed :
    Atomic (fun _ => none) (run (begin fun _ => none) revokedAfterReplay) ∧
      Final (run (begin fun _ => none) revokedAfterReplay) := by
  have hclean {s : Store} (h : s.transaction = none) :
      Removes [.dashboardViewerToken] (fun _ => false) s := by
    refine ⟨fun updates hupdates => ?_, .inr fun name hname => ?_⟩
    · rw [h] at hupdates
      cases hupdates
    · simp [reached] at hname
  have hstarted : (advance (begin fun _ => none) (.start false fun _ => false)).store.transaction =
      none := by decide +kernel
  refine secrets_atomic nofun ⟨trivial, fun updates hupdates => ?_, trivial, hclean ?_, trivial⟩
  · exact absurd (hstarted.symm.trans hupdates) nofun
  · decide +kernel

/-- A set is cut off before its journal is removed, and then its token is removed. -/
def revokedAfterFailure : List Step :=
  [.start false (fun _ => false),
    .call (.set [(.dashboardViewerToken, some (List.replicate 32 'v'))]) (fun n => n == 16),
    .call .removeDashboardViewerToken (fun _ => false)]

theorem revokedAfterFailure_calls : ∃ failed,
    (run (begin fun _ => none) revokedAfterFailure).calls =
      [failed] ++ [(.removeDashboardViewerToken, true)] := by
  obtain ⟨first, second, hcalls⟩ : ∃ first second,
      (run (begin fun _ => none) revokedAfterFailure).calls =
        [(.set [(.dashboardViewerToken, some (List.replicate 32 'v'))], first),
          (.removeDashboardViewerToken, second)] := ⟨_, _, rfl⟩
  have hret : (run (begin fun _ => none) revokedAfterFailure).calls.map Prod.snd =
      [false, true] := by decide +kernel
  rw [hcalls] at hret
  obtain rfl : second = true := (List.cons.inj (List.cons.inj hret).2).1
  exact ⟨_, hcalls⟩

theorem revokedAfterFailure_loaded : ∃ s, initializeStore false
      ⟨afresh (run (begin fun _ => none) revokedAfterFailure).store, fun _ => false⟩ =
        (.ok ⟨⟩, s) ∧ s.state.recoveryIssues = [] ∧
      loaded s.state .dashboardViewerToken = some (List.replicate 32 'v') := by
  refine ⟨_, eq_ok_of_isOk ?_, ?_, ?_⟩ <;> decide +kernel

/-- The next process replays the journal, and the token that was removed is back. -/
theorem revoked_token_returns :
    ¬ Atomic (fun _ => none) (run (begin fun _ => none) revokedAfterFailure) := by
  intro h
  obtain ⟨failed, hcalls⟩ := revokedAfterFailure_calls
  obtain ⟨s, hrun, hissues, hloaded⟩ := revokedAfterFailure_loaded
  have hdrops : Drops .dashboardViewerToken .removeDashboardViewerToken := by rw [Drops]
  have hmiss := h.final false (fun _ => false) s hrun hissues [failed] []
    .removeDashboardViewerToken .dashboardViewerToken hcalls hdrops nofun
  rw [hmiss] at hloaded
  cases hloaded

end Atomicity

end TsxCore.ManagedSecretStore
