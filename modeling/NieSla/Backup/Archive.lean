import NieSla.Backup.Tables

/-! `exportBackup` and `restoreBackup`. The encryption is ideal; the history objects of the bucket and
the tables that a restore only rebuilds or clears are left out. -/
namespace NieSla.Backup

open Auth (AuthEnv Ciphertext Subject SubjectType Failure normalizeSubject decryptCredentialValue)

/-- The cipher of the tokens: what an envelope was made from can be read from it. -/
structure Cipher where
  sealed (nonce : Nat) (material : String) (subject : Subject) (token : String) : String
  opened : String → Ciphertext
  opened_sealed : ∀ nonce material subject token,
    opened (sealed nonce material subject token) = .sealed material subject token

structure TokenEntry where
  subjectType : String
  subjectId : String
  token : String
deriving DecidableEq

structure Sensitive where
  agentTokens : List TokenEntry
  table : SensitiveTable → Listing
  appMeta : Listing

/-- `sealed` is the password that the envelope was made with and its content, nothing where it is
damaged. -/
structure Envelope where
  algorithm : String
  iterations : Nat
  sealed : Option (String × Sensitive)

structure Archive where
  schema : String
  version : Nat
  createdAt : String
  portable : PortableTable → Listing
  appMeta : Listing
  sensitive : Option Envelope

structure ExportRequest where
  includeSecrets : Bool
  password : String

inductive Mode where
  | merge
  | replace
deriving DecidableEq

/-- `backup` is nothing where it is no object or has no `portable`. -/
structure RestoreRequest where
  backup : Option Archive
  mode : Mode
  confirm : String
  password : String

inductive Snapshot where
  | missingR2
  | missingEncryptionMaterial
  | stored (key : String)
deriving DecidableEq

structure Restored where
  tables : List (TableName × Nat)
  agentTokens : Option Nat
  sensitiveMeta : Option Nat
deriving DecidableEq

structure RestoreAnswer where
  mode : Mode
  restored : Restored
  snapshot : Snapshot
deriving DecidableEq

structure BackupEnv extends AuthEnv where
  archive : Bool := true
  backupSnapshotKey : String := ""

def backupSchema : String := "nie-sla-backup-v1"

def sensitiveMetaKeys : List String :=
  ["admin_credentials_v1", "totp_secret", "totp_pending_secret", "alert_telegram_bot_token",
    "alert_resend_api_key", "cf_usage_api_token", "nq_image_host_settings", "nq_image_host_token",
    "turnstile_secret_key"]

def omitMetaKeys : List String :=
  ["totp_session_id", "totp_session_expires", "totp_sessions", "github_oauth_states", "github_oauth_tickets"]

def startsWith (text opening : String) : Bool := opening.toList.isPrefixOf text.toList

def isPortableMetaKey (key : String) : Bool :=
  key ≠ "" && key ∉ omitMetaKeys && key ∉ sensitiveMetaKeys && !startsWith key "schema:" &&
    !startsWith key "app_update_" && !startsWith key "agent_history_lock:" && !startsWith key "scheduled:"

def isSensitiveMetaKey (key : String) : Bool := key ∈ sensitiveMetaKeys

/-- `String(row.key || '')` -/
def Entry.key : Entry → Except Failure String
  | .null => .error (.error "Cannot read properties of null (reading 'key')")
  | .other => .ok ""
  | .object fields => .ok ((fields.lookup "key").elim "" Value.display)

/-- The array methods on `listing || []`. -/
def Listing.entries : Listing → Except Failure (List Entry)
  | .absent => .ok []
  | .other => .error (.error "is not a function")
  | .rows entries => .ok entries

/-- The entries of settings whose keys are kept, each with its key. -/
def metaEntries (keep : String → Bool) (listing : Listing) : Except Failure (List (String × Entry)) := do
  let entries ← listing.entries
  let keyed ← entries.mapM fun entry => do return (← entry.key, entry)
  return keyed.filter fun entry => keep entry.1

/-- `/^nst_[a-f0-9]{48}(?:[a-f0-9]{16})?$/` -/
def validToken (token : String) : Bool :=
  let digits := token.toList.drop 4
  token.toList.take 4 == "nst_".toList && (digits.length == 48 || digits.length == 64) &&
    digits.all fun c => ('a' ≤ c && c ≤ 'f') || ('0' ≤ c && c ≤ '9')

def subjectOf (subjectType subjectId : String) : Except Failure Subject :=
  match subjectTypeOf (String.ofList ((trim subjectType).toList.flatMap lowerChar)) with
  | none => .error (.error "节点凭据标识无效")
  | some type => normalizeSubject type subjectId

def Failure.text : Failure → String
  | .api _ message => message
  | .error message => message

section Envelopes

def encryptJson (value : Sensitive) (password : String) : Envelope :=
  ⟨"PBKDF2-SHA256+A256GCM", 100000, some (password, value)⟩

def decryptJson (envelope : Envelope) (password : String) : Except Failure Sensitive :=
  if password = "" then .error (.api 400 "该备份包含敏感数据，请输入备份密码")
  else if envelope.algorithm ≠ "PBKDF2-SHA256+A256GCM" then .error (.api 400 "不支持的敏感备份加密格式")
  else if envelope.iterations ≠ 100000 then
    .error (.api 400 "该敏感备份的 PBKDF2 迭代参数不受当前 Cloudflare 运行时支持")
  else match envelope.sealed with
    | some (made, content) =>
        if made = password then .ok content else .error (.api 400 "备份密码错误或敏感数据已损坏")
    | none => .error (.api 400 "备份密码错误或敏感数据已损坏")

def normalizeArchive (backup : Option Archive) : Except Failure Archive :=
  match backup with
  | none => .error (.api 400 "备份文件格式无效")
  | some archive =>
      if archive.schema ≠ backupSchema ∨ archive.version ≠ 1 then .error (.api 400 "不支持的备份版本")
      else .ok archive

end Envelopes

section Programs

variable {installation : Installation} (faults : Nat → Option String) (sha256Hex : String → String)
  (cipher : Cipher) (env : BackupEnv) (now : Int) (isoNow : String)

/-! The tokens of the credentials. -/

def CredentialRow.credential (row : CredentialRow) : Auth.Credential :=
  ⟨row.tokenHash, cipher.opened row.tokenCiphertext⟩

/-- The credentials of the database as the requests read them. -/
def Database.credentialStore (db : Database installation) : Auth.CredentialStore where
  credentials :=
    ⟨db.credentialRows.map fun row => (row.subject, row.credential cipher), by
      rw [List.map_map]
      exact (db (.sensitive .agentCredentials)).apart.map _ fun _ _ free same => free (.inl same)⟩
  targets := []
  latencyAgents := []

/-- `ORDER BY subject_type, subject_id` -/
def subjectLe (first second : CredentialRow) : Bool :=
  if first.subject.type = second.subject.type then decide (first.subject.id ≤ second.subject.id)
  else first.subject.type = .agent

/-- `UPDATE agent_credentials SET token_ciphertext` -/
def updateCiphertext (subject : Subject) (ciphertext : String) : Statement installation := fun db =>
  ((db (.sensitive .agentCredentials)).update fun row : CredentialRow =>
    if row.subject = subject then { row with tokenCiphertext := ciphertext, updatedAt := now } else row).map
    (Function.update db (.sensitive .agentCredentials))

/-- The number of operations so far, which no other encryption has had. -/
def nonce : Session installation Nat := .step fun world => (.ok world.operations, world)

def decryptCredential (row : CredentialRow) (subject : Subject) : Session installation String :=
  match decryptCredentialValue sha256Hex env.toAuthEnv subject (row.credential cipher) with
  | none => throw (.error "无法读取现有节点 Token，请检查节点凭据加密密钥或管理员密码；为避免在线节点失效，系统未自动轮换 Token。")
  | some (token, needsMigration) => do
      (if needsMigration ∧ env.primary ≠ "" then do
        let nonce ← nonce
        batch faults [updateCiphertext now subject (cipher.sealed nonce env.primary subject token)]
      else pure ())
      return token

def exportToken (row : CredentialRow) : Session installation TokenEntry := do
  let subject ← .ofExcept (normalizeSubject row.subject.type row.subject.id)
  let token ← decryptCredential faults sha256Hex cipher env now row subject
  return ⟨subjectTypeText subject.type, subject.id, token⟩

def exportAgentTokens : Session installation (List TokenEntry) := do
  let rows ← query faults fun db => db.credentialRows.insertionSort fun first second => subjectLe first second = true
  rows.mapM (exportToken faults sha256Hex cipher env now)

/-- `INSERT … ON CONFLICT(subject_type, subject_id) DO UPDATE` -/
def upsertCredential (subject : Subject) (hash ciphertext : String) : Statement installation := fun db =>
  let table := db (.sensitive .agentCredentials)
  let written :=
    if db.credentialRows.any fun row => row.subject = subject then
      table.update fun row : CredentialRow =>
        if row.subject = subject then
          { row with tokenHash := hash, tokenCiphertext := ciphertext, updatedAt := now }
        else row
    else table.insert (⟨subject, hash, ciphertext, now, now, none⟩ : CredentialRow)
  written.map (Function.update db (.sensitive .agentCredentials))

/-- What the loop of `restoreAgentTokens` checks of an entry, with the subjects that it has met. -/
def checkedToken (seen : List Subject) (row : TokenEntry) : Except Failure (Subject × String) := do
  let subject ← subjectOf row.subjectType row.subjectId
  if !validToken (trim row.token) then .error (.error ("节点 " ++ subject.id ++ " 的备份 Token 格式无效"))
  else if subject ∈ seen then .error (.error ("节点 " ++ subject.id ++ " 的备份凭据重复"))
  else if env.primary = "" then .error (.error "生成或更新节点 Token 需要配置长期 TOTP_ENCRYPTION_KEY")
  else .ok (subject, trim row.token)

def tokenStatements (seen : List Subject) : List TokenEntry → Except Failure (List (Statement installation))
  | [] => .ok []
  | row :: rest => do
      let checked ← checkedToken env seen row
      let later ← tokenStatements (checked.1 :: seen) rest
      return upsertCredential now checked.1 (sha256Hex checked.2)
        (cipher.sealed seen.length env.primary checked.1 checked.2) :: later

def restoreAgentTokens (rows : List TokenEntry) : Session installation Nat := do
  let statements ← .ofExcept (tokenStatements sha256Hex cipher env now [] (rows.take 10000))
  runD1Batches faults statements
  return statements.length

/-! The backup. -/

def portableRows : Session installation (PortableTable → Listing) := do
  let targets ← tableRows faults (.portable .targets)
  let pingTargets ← tableRows faults (.portable .pingTargets)
  let latencyAgents ← tableRows faults (.portable .latencyAgents)
  let proxyTargets ← tableRows faults (.portable .proxyTargets)
  return fun
    | .targets => .rows targets
    | .pingTargets => .rows pingTargets
    | .latencyAgents => .rows latencyAgents
    | .proxyTargets => .rows proxyTargets

/-- The part of the archive that the password protects. -/
def exportSensitive (metaRows : List Entry) : Session installation Sensitive := do
  let agentTokens ← exportAgentTokens faults sha256Hex cipher env now
  let sensitiveMeta ← .ofExcept (metaEntries isSensitiveMetaKey (.rows metaRows))
  return ⟨agentTokens, fun _ => .absent, .rows (sensitiveMeta.map Prod.snd)⟩

def exportBackup (request : ExportRequest) : Session installation Archive := do
  .refuse (request.includeSecrets ∧ textLength request.password < 10) (.api 400 "敏感备份密码至少需要 10 位")
  let portable ← portableRows faults
  let metaRows ← tableRows faults .appMeta
  let portableMeta ← .ofExcept (metaEntries isPortableMetaKey (.rows metaRows))
  let sensitive ←
    (if request.includeSecrets then
      (fun content => some (encryptJson content request.password)) <$>
        exportSensitive faults sha256Hex cipher env now metaRows
    else pure none)
  return ⟨backupSchema, 1, isoNow, portable, .rows (portableMeta.map Prod.snd), sensitive⟩

def BackupEnv.snapshotMaterial (env : BackupEnv) : String :=
  trim (if env.backupSnapshotKey = "" then env.totpEncryptionKey else env.backupSnapshotKey)

/-- The snapshot is an object of the bucket. -/
def createRestoreSnapshot : Session installation Snapshot :=
  if !env.archive then return .missingR2
  else if env.snapshotMaterial = "" then return .missingEncryptionMaterial
  else do
    query faults fun _ => ()
    return .stored ("backups/pre-restore-" ++
      String.ofList (isoNow.toList.map fun c => if c = ':' ∨ c = '.' then '-' else c) ++ ".json")

/-- The seven tables, as entries. -/
abbrev RestoreState := TableName → List Entry

def captureRestoreState : Session installation RestoreState := do
  let targets ← tableRows faults (.portable .targets)
  let pingTargets ← tableRows faults (.portable .pingTargets)
  let latencyAgents ← tableRows faults (.portable .latencyAgents)
  let proxyTargets ← tableRows faults (.portable .proxyTargets)
  let agentCredentials ← tableRows faults (.sensitive .agentCredentials)
  let proxyTargetSecrets ← tableRows faults (.sensitive .proxyTargetSecrets)
  let appMeta ← tableRows faults .appMeta
  return fun
    | .portable .targets => targets
    | .portable .pingTargets => pingTargets
    | .portable .latencyAgents => latencyAgents
    | .portable .proxyTargets => proxyTargets
    | .sensitive .agentCredentials => agentCredentials
    | .sensitive .proxyTargetSecrets => proxyTargetSecrets
    | .appMeta => appMeta

def restoredTables : List TableName := portableTables.map .portable ++ sensitiveTables.map .sensitive

def replaceRestoreState (state : RestoreState) : Session installation Unit := do
  runD1Batches faults (restoredTables.reverse.map deleteTable ++ [deleteTable .appMeta])
  restoredTables.forM fun name => do
    let _ ← restoreRows faults name (.rows (state name))
  let _ ← restoreRows faults .appMeta (.rows (state .appMeta))

/-- `nodes` and `checks` are made anew from `targets`: four statements. -/
def rebuildCompatibilityTables : Session installation Unit := do
  query faults fun _ => ()
  query faults fun _ => ()
  query faults fun _ => ()
  query faults fun _ => ()

/-- The runtime tables are emptied; a failure of the bucket is only a warning. -/
def clearRuntimeState : Session installation Unit := query faults fun _ => ()

/-- `DELETE FROM app_meta WHERE key = ?` -/
def deleteMeta (key : String) : Statement installation := fun db =>
  some (Function.update db .appMeta ((db .appMeta).delete fun row : MetaRow => row.key = key))

def deletionStatements (sensitive : Bool) (keys : List String) : List (Statement installation) :=
  portableTables.reverse.map (fun table => deleteTable (.portable table)) ++
    (if sensitive then sensitiveTables.map fun table => deleteTable (.sensitive table) else []) ++
    keys.map deleteMeta

def clearForReplace (archive : Archive) (sensitive : Bool) : Session installation Unit := do
  let keyed ← .ofExcept (metaEntries isPortableMetaKey archive.appMeta)
  runD1Batches faults (deletionStatements sensitive (keyed.map Prod.fst))

def restorePortable (archive : Archive) : Session installation (List (TableName × Nat)) := do
  let counts ← portableTables.mapM fun table => do
    return (TableName.portable table, ← restoreRows faults (.portable table) (archive.portable table))
  let portableMeta ← .ofExcept (metaEntries isPortableMetaKey archive.appMeta)
  return counts ++ [(.appMeta, ← restoreRows faults .appMeta (.rows (portableMeta.map Prod.snd)))]

def restoreSensitive (sensitive : Sensitive) : Session installation (List (TableName × Nat) × Nat × Nat) := do
  let counts ← sensitiveTables.mapM fun table => do
    return (TableName.sensitive table, ← restoreRows faults (.sensitive table) (sensitive.table table))
  let agentTokens ← restoreAgentTokens faults sha256Hex cipher env now sensitive.agentTokens
  let sensitiveMeta ← .ofExcept (metaEntries isSensitiveMetaKey sensitive.appMeta)
  let settings ← restoreRows faults .appMeta (.rows (sensitiveMeta.map Prod.snd))
  return (counts, agentTokens, settings)

/-- What stands in the `try` block. -/
def writeArchive (archive : Archive) (sensitive : Option Sensitive) (mode : Mode) :
    Session installation Restored := do
  (if mode = .replace then clearForReplace faults archive sensitive.isSome else pure ())
  let portable ← restorePortable faults archive
  let restored ← (match sensitive with
    | none => pure ⟨portable, none, none⟩
    | some content =>
        (fun counts => ⟨portable ++ counts.1, some counts.2.1, some counts.2.2⟩) <$>
          restoreSensitive faults sha256Hex cipher env now content)
  rebuildCompatibilityTables faults
  (if mode = .replace then clearRuntimeState faults else pure ())
  return restored

def Snapshot.key : Snapshot → String
  | .missingR2 | .missingEncryptionMaterial => "不可用"
  | .stored key => key

def rollBack (before : RestoreState) (snapshot : Snapshot) (failure : Failure) : Session installation Restored := do
  let undo : Session installation Unit := do
    replaceRestoreState faults before
    rebuildCompatibilityTables faults
  tryCatch undo fun rollback =>
    throw (.api 500 ("恢复失败且自动回滚未完成；加密快照：" ++ snapshot.key ++ "。" ++ Failure.text failure ++
      "；回滚错误：" ++ Failure.text rollback))
  throw (.api 500 ("恢复失败，原数据已自动回滚。" ++ Failure.text failure))

def restoreBackup (request : RestoreRequest) : Session installation RestoreAnswer := do
  let archive ← .ofExcept (normalizeArchive request.backup)
  .refuse (request.confirm ≠ "RESTORE") (.api 400 "恢复前必须明确确认 RESTORE")
  let sensitive ← (match archive.sensitive with
    | none => pure none
    | some envelope => some <$> .ofExcept (decryptJson envelope request.password))
  let before ← captureRestoreState faults
  let snapshot ← createRestoreSnapshot faults env isoNow
  let restored ← tryCatch (writeArchive faults sha256Hex cipher env now archive sensitive request.mode)
    (rollBack faults before snapshot)
  return ⟨request.mode, restored, snapshot⟩

end Programs

end NieSla.Backup
