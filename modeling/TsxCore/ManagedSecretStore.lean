import TsxCore.CharacterTexts
import TsxCore.FailingOperations

/-!
# Managed secrets (`secret_store.ts`)

One store works on one directory, which holds the file of each secret and the journal of a
transaction. A file is written under a temporary name that nothing else reads and takes its place
by one renaming, so of a writing only the renaming shows. Every operation on a file may be made to
fail. The journal is kept as the updates that parsing its text gives back.
-/

namespace TsxCore.ManagedSecretStore

open Failing Characters

section Definitions

inductive ManagedSecretName
  | telegramApiHash
  | openRouterApiKey
  | dashboardAdminToken
  | dashboardViewerToken
  | auditWebhookToken
  | alertRelayToken
  | alertWebhookToken
  | backupOffsiteToken
  | backupEncryptionKey
  | backupDriveAccessToken
  deriving DecidableEq

inductive ManagedSecretSource
  | managed
  | external
  | missing
  deriving DecidableEq

abbrev Text := List Char

structure SecretDefinition where
  environmentName : String
  fileName : String
  validate : Text → Bool
  error : String

/-- `/^word/i`. -/
def beginsWith (value : Text) (word : String) : Bool :=
  word.toList.isPrefixOf (value.map Char.toLower)

/-- `/^[a-f0-9]{32}$/i`. -/
def isApiHash (value : Text) : Bool :=
  value.length = 32 && value.all (fun c => c.isDigit || ('a' ≤ c.toLower && c.toLower ≤ 'f'))

def isToken (value : Text) : Bool :=
  32 ≤ units value && units value ≤ 512 && !(["replace_", "changeme", "change-me", "example",
    "placeholder"].any (beginsWith value))

def isAccessKey (longest : ℕ) (value : Text) : Bool :=
  16 ≤ units value && units value ≤ longest &&
    !(["example", "placeholder", "your_"].any (beginsWith value))

def sextet (c : Char) : Option ℕ :=
  if 'A' ≤ c ∧ c ≤ 'Z' then some (c.toNat - 'A'.toNat)
  else if 'a' ≤ c ∧ c ≤ 'z' then some (c.toNat - 'a'.toNat + 26)
  else if c.isDigit then some (c.toNat - '0'.toNat + 52)
  else if c = '+' then some 62
  else if c = '/' then some 63
  else none

/-- The text that 32 bytes have in base64: the last digit before the padding has two bits that
belong to no byte. -/
def isEncryptionKey (value : Text) : Bool :=
  value.length = 44 && value.getLast? = some '=' &&
    (value.take 43).all (fun c => (sextet c).isSome) &&
    (value[42]?.bind sextet).any (fun digit => digit % 4 = 0)

def tokenDefinition (environmentName fileName subject : String) : SecretDefinition where
  environmentName := environmentName
  fileName := fileName
  validate := isToken
  error := subject ++ " must contain between 32 and 512 random characters."

/-- `DEFINITIONS`. -/
def definition : ManagedSecretName → SecretDefinition
  | .telegramApiHash => ⟨"TELEGRAM_API_HASH", "telegram_api_hash", isApiHash,
      "Telegram API hash must contain exactly 32 hexadecimal characters."⟩
  | .openRouterApiKey => ⟨"OPENROUTER_API_KEY", "openrouter_api_key", isAccessKey 512,
      "OpenRouter API key must contain between 16 and 512 non-placeholder characters."⟩
  | .dashboardAdminToken => tokenDefinition "DASHBOARD_ADMIN_TOKEN" "dashboard_admin_token"
      "Dashboard administrator token"
  | .dashboardViewerToken => tokenDefinition "DASHBOARD_VIEWER_TOKEN" "dashboard_viewer_token"
      "Dashboard viewer token"
  | .auditWebhookToken => tokenDefinition "AUDIT_WEBHOOK_TOKEN" "audit_webhook_token"
      "Audit webhook token"
  | .alertRelayToken => tokenDefinition "ALERT_RELAY_TOKEN" "alert_relay_token"
      "Alert relay token"
  | .alertWebhookToken => tokenDefinition "ALERT_WEBHOOK_TOKEN" "alert_webhook_token"
      "Alert webhook token"
  | .backupOffsiteToken => tokenDefinition "BACKUP_OFFSITE_TOKEN" "backup_offsite_token"
      "Off-site backup token"
  | .backupEncryptionKey => ⟨"BACKUP_ENCRYPTION_KEY", "backup_encryption_key", isEncryptionKey,
      "Backup encryption key must be a canonical base64-encoded 32-byte key."⟩
  | .backupDriveAccessToken => ⟨"BACKUP_DRIVE_ACCESS_TOKEN", "backup_drive_access_token",
      fun value => isAccessKey 4096 value && !value.any isSpace,
      "Staging Drive access token must be a non-placeholder single-line value of 16 to 4096 " ++
        "characters."⟩

/-- `Object.keys(DEFINITIONS)`. -/
def names : List ManagedSecretName :=
  [.telegramApiHash, .openRouterApiKey, .dashboardAdminToken, .dashboardViewerToken,
    .auditWebhookToken, .alertRelayToken, .alertWebhookToken, .backupOffsiteToken,
    .backupEncryptionKey, .backupDriveAccessToken]

def validSingleLine (value : Text) : Bool :=
  value ≠ [] && !value.contains '\x00' && !value.any (fun c => c = '\r' || c = '\n')

/-- A value that is not a text is given as `none`. -/
def validateSecret (name : ManagedSecretName) (value : Option Text) : Outcome Text :=
  match value with
  | none => .error (.error (definition name).error)
  | some value =>
    if validSingleLine value = false ∨ (definition name).validate (trimmed value) = false then
      .error (.error (definition name).error)
    else .ok (trimmed value)

end Definitions

section Store

abbrev Updates := List (ManagedSecretName × Text)

structure ManagedSecretRecoveryIssue where
  name : Option ManagedSecretName
  fileName : String
  reason : String

structure Store where
  /-- The texts of the files in the directory. -/
  secrets : ManagedSecretName → Option Text
  transaction : Option Updates
  /-- What the process holds. -/
  env : ManagedSecretName → Option Text
  sources : ManagedSecretName → ManagedSecretSource
  recoveryIssues : List ManagedSecretRecoveryIssue

/-- `env[name]?.trim()` is true. -/
def provided (store : Store) (name : ManagedSecretName) : Bool :=
  (store.env name).any (fun value => trimmed value ≠ [])

abbrev Action (α : Type) := Program Thrown Store α

def failure : Thrown := ⟨"Error", some "EIO", "EIO: i/o error"⟩

def missingFile : Thrown := ⟨"Error", some "ENOENT", "ENOENT: no such file or directory"⟩

/-- An operation on a temporary file or on the directory itself. -/
def unseen : Action PUnit := operation failure (fun s => .ok (⟨⟩, s))

/-- `open`, `sync`, `close`. -/
def syncDirectory : Action PUnit := do
  unseen
  unseen
  unseen

/-- `open`, `writeFile`, `sync`, `close`, and the renaming that publishes the file. -/
def writeFileAtomically (publish : Store → Store) : Action PUnit := do
  unseen
  unseen
  unseen
  unseen
  operation failure (fun s => .ok (⟨⟩, publish s))
  syncDirectory

def fileText (value : Text) : Text := value ++ ['\n']

def putSecret (name : ManagedSecretName) (value : Text) (s : Store) : Store :=
  { s with secrets := Function.update s.secrets name (some (fileText value)) }

def writeSecretFile (name : ManagedSecretName) (value : Text) : Action PUnit :=
  writeFileAtomically (putSecret name value)

/-- `unlink(transactionPath)`. -/
def unlinkTransaction : Action PUnit := operation failure (fun s =>
  match s.transaction with
  | none => .error missingFile
  | some _ => .ok (⟨⟩, { s with transaction := none }))

def writeTransaction (updates : Updates) : Action PUnit := do
  writeFileAtomically (fun s => { s with transaction := some updates })
  forEach updates (fun update => writeSecretFile update.1 update.2)
  unlinkTransaction
  syncDirectory

def validateUpdate (s : Store) (update : ManagedSecretName × Option Text) :
    Outcome (ManagedSecretName × Text) := do
  Outcome.throwIf (s.sources update.1 = .external)
    (.error ((definition update.1).environmentName ++
      " is externally managed and cannot be changed in the dashboard."))
  let normalized ← validateSecret update.1 update.2
  Outcome.throwIf (update.1 = .backupEncryptionKey ∧ s.sources update.1 = .managed ∧
      (s.env .backupEncryptionKey).map trimmed ≠ some normalized)
    (.error ("BACKUP_ENCRYPTION_KEY is immutable because rotating it would make existing " ++
      "off-site backups unrecoverable. Use factory reset only when those backups are " ++
      "intentionally abandoned."))
  return (update.1, normalized)

def validateUpdates (updates : List (ManagedSecretName × Option Text)) (s : Store) :
    Outcome Updates := do
  Outcome.throwIf (updates = []) (.error "At least one managed secret is required.")
  updates.mapM (validateUpdate s)

def adopt (update : ManagedSecretName × Text) (s : Store) : Store :=
  { s with
    env := Function.update s.env update.1 (some update.2)
    sources := Function.update s.sources update.1 .managed
    recoveryIssues := s.recoveryIssues.eraseP (fun issue => issue.name = some update.1) }

def set (updates : List (ManagedSecretName × Option Text)) : Action PUnit := do
  let validated ← look (validateUpdates updates)
  writeTransaction validated
  change (fun s => { s with recoveryIssues := s.recoveryIssues.filter (·.name.isSome) })
  forEach validated (fun update => change (adopt update))

/-- `unlink(secretPath(name))`. -/
def unlinkSecret (name : ManagedSecretName) : Action PUnit := operation failure (fun s =>
  match s.secrets name with
  | none => .error missingFile
  | some _ => .ok (⟨⟩, { s with secrets := Function.update s.secrets name none }))

/-- `.catch(error => { if (error?.code !== 'ENOENT') throw error; })`. -/
def unlessMissing (m : Action PUnit) : Action PUnit :=
  catching m (fun e => if e.code = some "ENOENT" then pure ⟨⟩ else throwing e)

def forget (name : ManagedSecretName) (s : Store) : Store :=
  { s with
    env := Function.update s.env name none
    sources := Function.update s.sources name .missing }

def remove (name : ManagedSecretName) : Action PUnit := do
  look (fun s => Outcome.throwIf (s.sources name = .external)
    (.error ((definition name).environmentName ++
      " is externally managed and cannot be removed in the dashboard.")))
  unlessMissing (unlinkSecret name)
  change (forget name)
  syncDirectory

def assertClearable (s : Store) : Outcome PUnit :=
  let external := names.filter (fun name => s.sources name = .external)
  Outcome.throwIf (external ≠ [])
    (.error ("Factory reset cannot remove externally managed secrets: " ++
      ", ".intercalate (external.map (fun name => (definition name).environmentName)) ++ "."))

def clear : Action PUnit := do
  look assertClearable
  forEach names remove

/-- The token is the random one that the call draws. -/
def rotateDashboardToken (admin : Bool) (token : Text) : Action PUnit := do
  let name : ManagedSecretName := if admin then .dashboardAdminToken else .dashboardViewerToken
  look (fun s => Outcome.throwIf (s.sources name = .external)
    (.error ((definition name).environmentName ++
      " is externally managed and cannot be rotated in the dashboard.")))
  set [(name, some token)]

end Store

section Initialization

/-- `text.replace(/\r?\n$/, '')`. -/
def withoutNewline (text : Text) : Text :=
  if text.getLast? = some '\n' then
    if text.dropLast.getLast? = some '\r' then text.dropLast.dropLast else text.dropLast
  else text

def readSecret (name : ManagedSecretName) : Action Text := do
  let size ← operation failure (fun s =>
    match s.secrets name with
    | none => .error missingFile
    | some text => .ok (byteLength text, s))
  look (fun _ => Outcome.throwIf (16 * 1024 < size)
    (.error ((definition name).fileName ++ " must be a small regular file.")))
  let text ← operation failure (fun s =>
    match s.secrets name with
    | none => .error missingFile
    | some text => .ok (text, s))
  look (fun _ => validateSecret name (some (withoutNewline text)))

def load (name : ManagedSecretName) : Action PUnit := do
  if ← look (fun s => .ok (provided s name)) then
    let _ ← look (fun s => validateSecret name (s.env name))
    change (fun s => { s with sources := Function.update s.sources name .external })
  else
    catching
      (do
        let value ← readSecret name
        change (fun s =>
          { s with
            env := Function.update s.env name (some value)
            sources := Function.update s.sources name .managed }))
      (fun e =>
        if e.code = some "ENOENT" then
          change (fun s => { s with sources := Function.update s.sources name .missing })
        else throwing e)

/-- `lstat` and `readFile` of the journal. -/
def readPendingTransactionEntries : Action (Option Updates) :=
  catching
    (do
      unseen
      operation failure (fun s =>
        match s.transaction with
        | none => .error missingFile
        | some updates => .ok (some updates, s)))
    (fun e => if e.code = some "ENOENT" then pure none else throwing e)

def applyRecovered (update : ManagedSecretName × Text) : Action PUnit := do
  look (fun s => Outcome.throwIf (provided s update.1)
    (.error ("Managed secret transaction cannot overwrite externally managed " ++
      (definition update.1).environmentName ++ ".")))
  let value ← look (fun _ => validateSecret update.1 (some update.2))
  writeSecretFile update.1 value

def recoverPendingTransaction : Action PUnit := do
  match ← readPendingTransactionEntries with
  | none => pure ⟨⟩
  | some [] => throwing (.error "Managed secret transaction is empty.")
  | some entries =>
    forEach entries applyRecovered
    unlinkTransaction
    syncDirectory

def report (name : Option ManagedSecretName) (fileName : String) (e : Thrown) (s : Store) : Store :=
  { s with recoveryIssues := s.recoveryIssues ++ [⟨name, fileName, e.message⟩] }

def initializeTransactionRecovery (recoverInvalidManagedFiles : Bool) : Action PUnit :=
  catching recoverPendingTransaction (fun e =>
    if recoverInvalidManagedFiles then
      change (report none ".managed-secret-transaction.json" e)
    else throwing e)

def initializeSecret (recoverInvalidManagedFiles : Bool) (name : ManagedSecretName) :
    Action PUnit :=
  catching (load name) (fun e => do
    if ← look (fun s => .ok (!recoverInvalidManagedFiles || provided s name)) then throwing e
    else
      change (fun s => report (some name) (definition name).fileName e
        { s with sources := Function.update s.sources name .missing }))

/-- `mkdir`, `lstat`, `chmod`, `lstat`, and then the journal and the secrets. -/
def initializeStore (recoverInvalidManagedFiles : Bool) : Action PUnit := do
  unseen
  unseen
  unseen
  unseen
  initializeTransactionRecovery recoverInvalidManagedFiles
  forEach names (initializeSecret recoverInvalidManagedFiles)

end Initialization

end TsxCore.ManagedSecretStore
