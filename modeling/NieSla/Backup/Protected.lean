import NieSla.Auth.Promised
import NieSla.Backup.Secrets

/-! A backup with secrets: what a restore of it leaves of the credentials, the proxy secrets and the
sensitive settings. -/
namespace NieSla.Backup

open Auth (Subject SubjectType Failure IdealHash Holds normalizeSubject decryptCredentialValue verifyAgentCredential)
open Fallible

section Tokens

variable {installation : Installation} {faults : Nat → Option String} {sha256Hex : String → String}
  {cipher : Cipher} {env : BackupEnv} {now : Int} {world after : World installation}
  {db next : Database installation} {subject : Subject} {hash ciphertext : String}

/-! The statements of the tokens. -/

/-- What the `UPDATE` and the `INSERT` of a credential have in common. -/
structure Upserted (subject : Subject) (hash : String) (db next : Database installation) : Prop where
  frame : ∀ name, name ≠ .sensitive .agentCredentials → next name = db name
  written : ∃ row ∈ next.credentialRows, row.subject = subject ∧ row.tokenHash = hash
  others : ∀ row ∈ db.credentialRows, row.subject ≠ subject → row ∈ next.credentialRows

theorem upsertCredential_spec (ok : upsertCredential now subject hash ciphertext db = some next) :
    Upserted subject hash db next := by
  obtain ⟨table, made, rfl⟩ := Option.map_eq_some_iff.mp ok
  have rows : ∀ row : CredentialRow, row ∈ table.rows →
      row ∈ Database.credentialRows (Function.update db (.sensitive .agentCredentials) table) := by
    intro row member
    rw [Database.credentialRows, Function.update_self]
    exact member
  have frame : ∀ name, name ≠ .sensitive .agentCredentials →
      Function.update db (.sensitive .agentCredentials) table name = db name := fun name apart =>
    Function.update_of_ne apart _ _
  split at made
  · rename_i known
    have written := Table.rows_of_ofRows made
    obtain ⟨old, member, same⟩ := List.any_eq_true.mp known
    refine ⟨frame, ⟨{ old with tokenHash := hash, tokenCiphertext := ciphertext, updatedAt := now }, rows _ ?_,
      of_decide_eq_true same, rfl⟩, fun row member other => rows _ ?_⟩
    · rw [written]
      exact List.mem_map.mpr ⟨old, member, if_pos (of_decide_eq_true same)⟩
    · rw [written]
      exact List.mem_map.mpr ⟨row, member, if_neg other⟩
  · have written := Table.rows_of_ofRows made
    refine ⟨frame, ⟨⟨subject, hash, ciphertext, now, now, none⟩, rows _ ?_, rfl, rfl⟩, fun row member _ => rows _ ?_⟩
    · rw [written]
      exact List.mem_append_right _ List.mem_cons_self
    · rw [written]
      exact List.mem_append_left _ member

/-- A token that is to be stored: its subject, the token and the envelope. -/
abbrev Planned := Subject × String × String

def upsertOf (sha256Hex : String → String) (now : Int) (planned : Planned) : Statement installation :=
  upsertCredential now planned.1 (sha256Hex planned.2.1) planned.2.2

theorem applyAll_upserts {plan : List Planned} (distinct : (plan.map Prod.fst).Nodup)
    (applied : applyAll (plan.map (upsertOf sha256Hex now)) db = some next) :
    (∀ name, name ≠ .sensitive .agentCredentials → next name = db name) ∧
      (∀ planned ∈ plan, ∃ row ∈ next.credentialRows,
        row.subject = planned.1 ∧ row.tokenHash = sha256Hex planned.2.1) ∧
      ∀ row ∈ db.credentialRows, row.subject ∉ plan.map Prod.fst → row ∈ next.credentialRows := by
  induction plan generalizing db with
  | nil =>
      rw [← Option.some.inj applied]
      exact ⟨fun _ _ => rfl, nofun, fun _ member _ => member⟩
  | cons first rest ih =>
      obtain ⟨between, one, more⟩ := Option.bind_eq_some_iff.mp applied
      rw [List.map_cons, List.nodup_cons] at distinct
      have step := upsertCredential_spec one
      obtain ⟨frame, written, others⟩ := ih distinct.2 more
      refine ⟨fun name apart => (frame name apart).trans (step.frame name apart), fun planned member => ?_,
        fun row member absent => ?_⟩
      · rcases List.mem_cons.mp member with rfl | later
        · obtain ⟨row, here, same, hash⟩ := step.written
          exact ⟨row, others row here (by rw [same]; exact distinct.1), same, hash⟩
        · exact written planned later
      · rw [List.map_cons, List.mem_cons, not_or] at absent
        exact others row (step.others row member absent.1) absent.2

/-- A restored entry and what is stored for it. -/
def PlannedFor (entry : TokenEntry) (planned : Planned) : Prop :=
  subjectOf entry.subjectType entry.subjectId = .ok planned.1 ∧ trim entry.token = planned.2.1 ∧
    validToken planned.2.1 = true

theorem checkedToken_spec {seen : List Subject} {entry : TokenEntry} {token : String}
    (ok : checkedToken env seen entry = .ok (subject, token)) :
    subject ∉ seen ∧ ∀ ciphertext, PlannedFor entry (subject, token, ciphertext) := by
  obtain ⟨named, found, ok⟩ := bind_eq_ok.mp ok
  by_cases valid : validToken (trim entry.token) = true
  · by_cases again : named ∈ seen
    · simp only [valid, again, Bool.not_true, Bool.false_eq_true, ↓reduceIte, reduceCtorEq] at ok
    · by_cases missing : env.primary = ""
      · simp only [valid, again, missing, Bool.not_true, Bool.false_eq_true, ↓reduceIte, reduceCtorEq] at ok
      · simp only [valid, again, missing, Bool.not_true, Bool.false_eq_true, ↓reduceIte, Except.ok.injEq,
          Prod.mk.injEq] at ok
        obtain ⟨rfl, rfl⟩ := ok
        exact ⟨again, fun ciphertext => ⟨found, rfl, valid⟩⟩
  · simp only [valid, Bool.not_false, ↓reduceIte, reduceCtorEq] at ok

theorem tokenStatements_spec {seen : List Subject} {entries : List TokenEntry}
    {statements : List (Statement installation)}
    (ok : tokenStatements sha256Hex cipher env now seen entries = .ok statements) :
    ∃ plan : List Planned, statements = plan.map (upsertOf sha256Hex now) ∧ (plan.map Prod.fst).Nodup ∧
      (∀ subject ∈ plan.map Prod.fst, subject ∉ seen) ∧ List.Forall₂ PlannedFor entries plan := by
  induction entries generalizing seen statements with
  | nil =>
      rw [← Except.ok.inj ok]
      exact ⟨[], rfl, .nil, nofun, .nil⟩
  | cons entry rest ih =>
      obtain ⟨⟨subject, token⟩, checked, ok⟩ := bind_eq_ok.mp ok
      obtain ⟨later, more, ok⟩ := bind_eq_ok.mp ok
      obtain ⟨plan, rfl, distinct, apart, each⟩ := ih more
      obtain ⟨fresh, planned⟩ := checkedToken_spec checked
      refine ⟨(subject, token, cipher.sealed seen.length env.primary subject token) :: plan,
        (Except.ok.inj ok).symm, ?_, ?_, .cons (planned _) each⟩
      · rw [List.map_cons, List.nodup_cons]
        exact ⟨fun again => apart _ again List.mem_cons_self, distinct⟩
      · intro other member
        rcases List.mem_cons.mp member with rfl | later
        · exact fresh
        · exact fun old => apart other later (List.mem_cons_of_mem _ old)

/-- What the protected part of an archive of `source` leaves in the tables that `db` has become. -/
structure Unsealed {origin : Installation} (source : Database origin) (plan : List Planned)
    (sha256Hex : String → String) (db next : Database installation) : Prop where
  proxies : next (.sensitive .proxyTargetSecrets) = db (.sensitive .proxyTargetSecrets)
  written : ∀ planned ∈ plan, ∃ row ∈ next.credentialRows,
    row.subject = planned.1 ∧ row.tokenHash = sha256Hex planned.2.1
  others : ∀ row ∈ db.credentialRows, row.subject ∉ plan.map Prod.fst → row ∈ next.credentialRows
  appMeta : next .appMeta = (db .appMeta).insertAll ((source.metaOf isSensitiveMetaKey).take 10000)

theorem restoreSensitive_returns {origin : Installation} {source : Database origin} {agentTokens : List TokenEntry}
    {counts : List (TableName × Nat) × Nat × Nat}
    (ok : Returns (restoreSensitive faults sha256Hex cipher env now (sensitiveOf source agentTokens)) world counts
      after) :
    ∃ plan : List Planned, (plan.map Prod.fst).Nodup ∧ List.Forall₂ PlannedFor (agentTokens.take 10000) plan ∧
      Unsealed source plan sha256Hex world.db after.db := by
  obtain ⟨_, first, tables, ok⟩ := returns_bind.mp ok
  obtain ⟨_, second, tokens, ok⟩ := returns_bind.mp ok
  obtain ⟨keyed, _, settings, ok⟩ := returns_bind.mp ok
  obtain ⟨kept, rfl⟩ := returns_ofExcept.mp settings
  obtain ⟨_, last, rows, ok⟩ := returns_bind.mp ok
  -- an export puts none of the protected tables into the archive
  have untouched : first.db = world.db :=
    restoreEach_keeps id (fun _ _ _ _ _ rows => restoreRows_absent rows) tables
  obtain ⟨statements, _, planned, tokens⟩ := returns_bind.mp tokens
  obtain ⟨checked, rfl⟩ := returns_ofExcept.mp planned
  obtain ⟨_, stored, batches, counted⟩ := returns_bind.mp tokens
  obtain ⟨plan, rfl, distinct, _, each⟩ := tokenStatements_spec checked
  have applied := runD1Batches_returns batches
  rw [(returns_pure.mp counted).2, untouched] at applied
  obtain ⟨frame, written, others⟩ := applyAll_upserts distinct applied
  change metaEntries isSensitiveMetaKey (.rows ((source.metaOf isSensitiveMetaKey).map metaEntry)) = _ at kept
  rw [metaEntries_rows, Except.ok.injEq] at kept
  rw [← kept, List.map_map, Database.metaOf, List.filter_filter] at rows
  simp only [Bool.and_self] at rows
  have inserted : last.db = Function.update second.db .appMeta
      ((second.db .appMeta).insertAll ((source.metaOf isSensitiveMetaKey).take 10000)) :=
    restoreRows_returns rows
  have same : after.db.credentialRows = second.db.credentialRows := by
    rw [← (returns_pure.mp ok).2, Database.credentialRows, inserted, Function.update_of_ne (by simp)]
    rfl
  refine ⟨plan, distinct, each, ?_, ?_, ?_, ?_⟩
  · rw [← (returns_pure.mp ok).2, inserted, Function.update_of_ne (by simp), frame _ (by simp)]
  · rw [same]
    exact written
  · rw [same]
    exact others
  · rw [← (returns_pure.mp ok).2, inserted, Function.update_self, frame _ (by simp)]

/-! What is exported of the credentials. -/

/-- The entry of an exported row. -/
structure ExportedAs (sha256Hex : String → String) (cipher : Cipher) (env : BackupEnv) (row : CredentialRow)
    (entry : TokenEntry) : Prop where
  exported : ∃ subject token needsMigration,
    normalizeSubject row.subject.type row.subject.id = .ok subject ∧
      decryptCredentialValue sha256Hex env.toAuthEnv subject (row.credential cipher) = some (token, needsMigration) ∧
      entry = ⟨subjectTypeText subject.type, subject.id, token⟩

theorem decryptCredential_returns {row : CredentialRow} {token : String}
    (ok : Returns (decryptCredential faults sha256Hex cipher env now row subject) world token after) :
    ∃ needsMigration,
      decryptCredentialValue sha256Hex env.toAuthEnv subject (row.credential cipher) = some (token, needsMigration) := by
  unfold decryptCredential at ok
  split at ok
  · exact absurd ok returns_throw
  · rename_i value needsMigration found
    obtain ⟨_, between, _, ok⟩ := returns_bind.mp ok
    rw [← (returns_pure.mp ok).1]
    exact ⟨needsMigration, found⟩

theorem exportToken_returns {row : CredentialRow} {entry : TokenEntry}
    (ok : Returns (exportToken faults sha256Hex cipher env now row) world entry after) :
    ExportedAs sha256Hex cipher env row entry := by
  obtain ⟨subject, between, named, ok⟩ := returns_bind.mp ok
  obtain ⟨token, last, decrypted, ok⟩ := returns_bind.mp ok
  obtain ⟨needsMigration, found⟩ := decryptCredential_returns decrypted
  exact ⟨subject, token, needsMigration, (returns_ofExcept.mp named).1, found, (returns_pure.mp ok).1.symm⟩

theorem exportAgentTokens_returns {entries : List TokenEntry}
    (ok : Returns (exportAgentTokens faults sha256Hex cipher env now) world entries after) :
    entries.length = world.db.credentialRows.length ∧
      ∀ row ∈ world.db.credentialRows, ∃ entry ∈ entries, ExportedAs sha256Hex cipher env row entry := by
  obtain ⟨rows, between, read, ok⟩ := returns_bind.mp ok
  have paired := returns_mapM ok
  rw [(query_returns read).2] at paired
  refine ⟨by rw [← paired.length_eq, List.length_insertionSort], fun row member => ?_⟩
  obtain ⟨entry, among, _, _, exported⟩ := Table.exists_of_forall₂ paired ((List.mem_insertionSort _).mpr member)
  exact ⟨entry, among, exportToken_returns exported⟩

end Tokens

section Restores

variable {origin installation : Installation} (sha256Hex : String → String) (cipher : Cipher) (env : BackupEnv)

/-- The token that the envelope of a subject holds; one that trimming would change authenticates
nobody. -/
structure HasToken (db : Database installation) (subject : Subject) (token : String) : Prop where
  held : ∃ row ∈ db.credentialRows, row.subject = subject ∧ ∃ needsMigration,
    decryptCredentialValue sha256Hex env.toAuthEnv subject (row.credential cipher) = some (token, needsMigration)
  trimmed : trim token = token

/-- `decryptScopedSecret` of a proxy secret: `opened` gives the material, the scope and the value of an
envelope, and `scope` the scope of a target. -/
def decryptScopedSecret (opened : String → Option (String × String × String)) (scope : String → String)
    (row : ProxySecretRow) : Option String :=
  (opened row.secretCiphertext).bind fun envelope =>
    if envelope.1 ∈ env.encryptionMaterials ∧ envelope.2.1 = scope row.targetId then some envelope.2.2 else none

/-- What an archive holds under its password. -/
def Archive.content (archive : Archive) : Option Sensitive :=
  archive.sensitive.bind fun envelope => envelope.sealed.map Prod.snd

def Sensitive.names (content : Sensitive) (subject : Subject) : Prop :=
  ∃ entry ∈ content.agentTokens, subjectOf entry.subjectType entry.subjectId = .ok subject

def Listing.holds (key : String) : Listing → Prop
  | .rows entries => ∃ entry ∈ entries, entry.key = .ok key
  | .absent | .other => False

variable (opened : String → Option (String × String × String)) (scope : String → String)

/-- The secrets of `source` are all there. -/
structure SecretsRestored (source : Database origin) (after : Database installation) : Prop where
  tokens : ∀ subject token, HasToken sha256Hex cipher env source subject token → ∀ presented,
    verifyAgentCredential sha256Hex (after.credentialStore cipher) subject.type subject.id presented =
      .ok (decide (trim presented = token))
  proxies : ∀ row ∈ source.proxySecretRows, ∀ value, decryptScopedSecret env opened scope row = some value →
    ∃ restored ∈ after.proxySecretRows, restored.targetId = row.targetId ∧
      decryptScopedSecret env opened scope restored = some value
  settings : ∀ row ∈ source.metaRows, isSensitiveMetaKey row.key = true → row ∈ after.metaRows

/-- What the archive does not name is as it was. -/
structure OthersKept (archive : Archive) (content : Sensitive) (before after : Database installation) : Prop where
  tokens : ∀ row ∈ before.credentialRows, ¬ content.names row.subject → row ∈ after.credentialRows
  proxies : ∀ row ∈ before.proxySecretRows, row ∈ after.proxySecretRows
  settings : ∀ row ∈ before.metaRows, ¬ archive.appMeta.holds row.key → ¬ content.appMeta.holds row.key →
    row ∈ after.metaRows

/-- What a restore of the protected archive of `source` is to give. -/
def Recovered (mode : Mode) (archive : Archive) (source : Database origin) (before after : Database installation) :
    Prop :=
  match mode with
  | .replace => SecretsRestored sha256Hex cipher env opened scope source after
  | .merge => ∀ content, archive.content = some content → OthersKept archive content before after

variable {sha256Hex cipher env opened scope}

theorem decryptJson_encryptJson {content other : Sensitive} {password presented : String}
    (ok : decryptJson (encryptJson content password) presented = .ok other) : other = content := by
  simp only [decryptJson, encryptJson, ne_eq, not_true_eq_false, ↓reduceIte] at ok
  split at ok
  · cases ok
  · split at ok
    · exact (Except.ok.inj ok).symm
    · cases ok

/-- An envelope is of one subject and of one token. -/
theorem decrypted_once {credential : Auth.Credential} {subject other : Subject} {token token' : String} {b b' : Bool}
    (one : decryptCredentialValue sha256Hex env.toAuthEnv subject credential = some (token, b))
    (two : decryptCredentialValue sha256Hex env.toAuthEnv other credential = some (token', b')) :
    subject = other ∧ token = token' := by
  unfold decryptCredentialValue at one two
  split at one
  · rename_i material owner sealed_ cipher_
    rw [cipher_] at two
    dsimp only at two
    split at one
    · rename_i first
      split at two
      · rename_i second
        rw [Option.some.injEq, Prod.mk.injEq] at one two
        exact ⟨first.2.1.symm.trans second.2.1, one.1.symm.trans two.1⟩
      · cases two
    · cases one
  · cases one
  · cases one

theorem normalizeSubject_eq_ok {type : SubjectType} {id : String} {subject : Subject}
    (ok : normalizeSubject type id = .ok subject) :
    subject.type = type ∧ sanitizeAgentId id = subject.id ∧ subject.id ≠ "" := by
  unfold normalizeSubject at ok
  dsimp only at ok
  split at ok
  · cases ok
  · rename_i named
    rw [← Except.ok.inj ok]
    exact ⟨rfl, rfl, named⟩

theorem subjectOf_text (type : SubjectType) (id : String) :
    subjectOf (subjectTypeText type) id = normalizeSubject type id := by
  have agent : subjectTypeOf (String.ofList ((trim (subjectTypeText .agent)).toList.flatMap lowerChar)) =
      some .agent := by decide
  have latency : subjectTypeOf (String.ofList ((trim (subjectTypeText .latency)).toList.flatMap lowerChar)) =
      some .latency := by decide
  cases type
  · rw [subjectOf, agent]
  · rw [subjectOf, latency]

theorem ne_empty_of_validToken {token : String} (valid : validToken token = true) : token ≠ "" := by
  rintro rfl
  exact absurd valid (by decide)

variable {faults : Nat → Option String} {now : Int} {world world' : World origin} {source : Database origin}
  {before last : Database installation} {entries : List TokenEntry} {plan : List Planned} {archive : Archive}

theorem holds_of_written {subject : Subject} {token : String} {row : CredentialRow}
    (member : row ∈ before.credentialRows) (same : row.subject = subject) (hash : row.tokenHash = sha256Hex token) :
    Holds sha256Hex (before.credentialStore cipher) subject token :=
  ⟨row.credential cipher,
    OrderedMap.get?_eq_some.mpr (List.mem_map.mpr ⟨row, member, by rw [same]⟩), hash⟩

/-- The tokens come back. -/
theorem tokens_restored (ideal : IdealHash sha256Hex)
    (exported : Returns (exportAgentTokens faults sha256Hex cipher env now) world entries world')
    (few : world.db.credentialRows.length ≤ 10000) (planned : List.Forall₂ PlannedFor (entries.take 10000) plan)
    (unsealed : Unsealed source plan sha256Hex before last) {subject : Subject} {token : String}
    (has : HasToken sha256Hex cipher env world.db subject token) (presented : String) :
    verifyAgentCredential sha256Hex (last.credentialStore cipher) subject.type subject.id presented =
      .ok (decide (trim presented = token)) := by
  obtain ⟨length, each⟩ := exportAgentTokens_returns exported
  rw [List.take_of_length_le (by omega)] at planned
  obtain ⟨row, member, rfl, needsMigration, own⟩ := has.held
  obtain ⟨entry, among, ⟨subject', token', migration, named, decrypted, rfl⟩⟩ := each row member
  obtain ⟨rfl, rfl⟩ := decrypted_once decrypted own
  obtain ⟨plan', inPlan, found, trimmed, valid⟩ := Table.exists_of_forall₂ planned among
  have normal := normalizeSubject_eq_ok named
  rw [subjectOf_text, normal.1, named, Except.ok.injEq] at found
  obtain ⟨stored, here, same, hash⟩ := unsealed.written plan' inPlan
  rw [← trimmed, has.trimmed] at hash valid
  exact Auth.verifyAgentCredential_of_holds ideal (holds_of_written here (same.trans found.symm) hash)
    (ne_empty_of_validToken valid) normal.2.2 normal.2.1 presented

/-- A setting whose key the archive does not hold is not written over. -/
theorem setting_kept {keep : String → Bool} {table : Table metaSchema} {row : MetaRow} (member : row ∈ table.rows)
    (absent : ¬ (Listing.rows ((source.metaOf keep).map metaEntry)).holds row.key) :
    row ∈ (table.insertAll ((source.metaOf keep).take 10000)).rows := by
  refine Table.mem_insertAll_of_mem member fun exported among same => absent ?_
  exact ⟨metaEntry exported, List.mem_map_of_mem (List.mem_of_mem_take among), by rw [key_metaEntry, same]⟩

theorem othersKept_of_merge (made : ArchiveOf source archive)
    (planned : List.Forall₂ PlannedFor (entries.take 10000) plan) {between : Database installation}
    (wrote : Written source before between) (unsealed : Unsealed source plan sha256Hex between last) :
    OthersKept archive (sensitiveOf source entries) before last := by
  refine ⟨fun row member absent => unsealed.others row ?_ fun again => absent ?_, ?_, ?_⟩
  · rw [Database.credentialRows, wrote.sensitive]
    exact member
  · obtain ⟨plan', inPlan, same⟩ := List.mem_map.mp again
    obtain ⟨entry, among, found, _⟩ := Table.exists_of_forall₂ planned.flip inPlan
    exact ⟨entry, List.mem_of_mem_take among, by rw [found, same]⟩
  · intro row member
    rw [Database.proxySecretRows, unsealed.proxies, wrote.sensitive]
    exact member
  · intro row member portable sensitive
    rw [made.appMeta] at portable
    have first := setting_kept member portable
    rw [Database.metaRows, unsealed.appMeta]
    refine setting_kept ?_ sensitive
    rw [wrote.appMeta]
    exact first

theorem secretsRestored_iff (ideal : IdealHash sha256Hex)
    (exported : Returns (exportAgentTokens faults sha256Hex cipher env now) world entries world')
    (fewTokens : world.db.credentialRows.length ≤ 10000) (fewSettings : world.db.metaRows.length ≤ 10000)
    (planned : List.Forall₂ PlannedFor (entries.take 10000) plan) {between : Database installation}
    (wrote : Written world.db (startOf .replace true world.db before) between)
    (unsealed : Unsealed world.db plan sha256Hex between last) :
    SecretsRestored sha256Hex cipher env opened scope world.db last ↔
      ∀ row ∈ world.db.proxySecretRows, decryptScopedSecret env opened scope row = none := by
  have empty : last.proxySecretRows = [] := by
    rw [Database.proxySecretRows, unsealed.proxies, wrote.sensitive]
    rfl
  constructor
  · intro restored row member
    cases found : decryptScopedSecret env opened scope row with
    | none => rfl
    | some value =>
        obtain ⟨_, here, _⟩ := restored.proxies row member value found
        rw [empty] at here
        cases here
  · intro unreadable
    refine ⟨fun subject token has presented => tokens_restored ideal exported fewTokens planned unsealed has presented,
      fun row member value found => ?_, fun row member sensitive => ?_⟩
    · rw [unreadable row member] at found
      cases found
    · have few : (world.db.metaOf isSensitiveMetaKey).length ≤ 10000 :=
        (List.length_filter_le _ _).trans fewSettings
      rw [Database.metaRows, unsealed.appMeta, List.take_of_length_le few]
      exact Table.mem_insertAll ((keys_apart world.db).filter _) (List.mem_filter.mpr ⟨member, sensitive⟩)

/-- A restore of a protected backup gives back all secrets, or leaves alone those that the archive does
not name, exactly where it need not give back a proxy secret: those are deleted and not exported. -/
theorem protected_backup_restores_iff (ideal : IdealHash sha256Hex) {faults' : Nat → Option String}
    {env' : BackupEnv} {now' : Int} {isoNow isoRestore : String} {source source' : World origin}
    {target after : World installation} {password : String} {request : RestoreRequest} {answer : RestoreAnswer}
    (exported : Returns (exportBackup faults sha256Hex cipher env now isoNow ⟨true, password⟩) source archive source')
    (fewTokens : source.db.credentialRows.length ≤ 10000) (fewSettings : source.db.metaRows.length ≤ 10000)
    (backup : request.backup = some archive)
    (restored : Returns (restoreBackup faults' sha256Hex cipher env' now' isoRestore request) target answer after) :
    Recovered sha256Hex cipher env opened scope request.mode archive source.db target.db after.db ↔
      (request.mode = .replace →
        ∀ row ∈ source.db.proxySecretRows, decryptScopedSecret env opened scope row = none) := by
  obtain ⟨made, _, plain | ⟨entries, read, _, _, unread, tokens, sealed_⟩⟩ := exportBackup_returns exported
  · cases plain.1
  obtain ⟨sensitive, start, unlocked, same, wrote⟩ := restoreBackup_returns backup restored
  rw [sealed_] at unlocked
  obtain ⟨content, decrypted, rfl⟩ := unlocked
  obtain rfl := decryptJson_encryptJson decrypted
  obtain ⟨between, written, counts, last, unsealing, final⟩ := writeArchive_returns made wrote
  obtain ⟨plan, _, planned, unsealed⟩ := restoreSensitive_returns unsealing
  rw [← final] at unsealed
  rw [same, Option.isSome_some] at written
  rw [← unread] at fewTokens fewSettings written unsealed
  cases mode : request.mode with
  | merge =>
      rw [mode] at written
      refine ⟨fun _ => nofun, fun _ content held => ?_⟩
      have whole : content = sensitiveOf source.db entries := by
        rw [Archive.content, sealed_] at held
        exact (Option.some.inj held).symm
      rw [whole, ← unread]
      exact othersKept_of_merge (unread ▸ made) planned written unsealed
  | replace =>
      rw [mode] at written
      rw [← unread]
      change SecretsRestored _ _ _ _ _ _ _ ↔ _
      rw [secretsRestored_iff ideal tokens fewTokens fewSettings planned written unsealed]
      exact ⟨fun all _ => all, fun all => all rfl⟩

end Restores

/-! A deployment with one agent, and one with a proxy secret. -/

def deployment : BackupEnv := { totpEncryptionKey := "long-lived" }

def vps : Subject := ⟨.agent, "vps"⟩

def vpsToken : String := "nst_aaaaaaaaaaaaaaaaaaaaaaaaaaaaaaaaaaaaaaaaaaaaaaaa"

def oneAgent : World idsOnly where
  db
    | .portable _ => .empty
    | .sensitive .agentCredentials =>
        ⟨[⟨vps, Auth.tagged vpsToken, spelled.sealed 0 "long-lived" vps vpsToken, 1, 1, none⟩],
          List.pairwise_singleton _ _⟩
    | .sensitive .proxyTargetSecrets => .empty
    | .appMeta => ⟨[⟨"totp_secret", "enc:v1:totp", 1⟩], List.pairwise_singleton _ _⟩
  operations := 0

def oneProxy : World idsOnly where
  db
    | .portable _ => .empty
    | .sensitive .agentCredentials => .empty
    | .sensitive .proxyTargetSecrets => ⟨[⟨"proxy", "vps", "enc:v1:proxy", 1⟩], List.pairwise_singleton _ _⟩
    | .appMeta => .empty
  operations := 0

def openProxy (ciphertext : String) : Option (String × String × String) :=
  if ciphertext = "enc:v1:proxy" then some ("long-lived", "proxy", "password") else none

def exportWithSecrets : Session idsOnly Archive :=
  exportBackup neverFails Auth.tagged spelled deployment 0 "2026" ⟨true, "0123456789"⟩

def replaceWith (archive : Archive) : Session idsOnly RestoreAnswer :=
  restoreBackup neverFails Auth.tagged spelled deployment 0 "2026" ⟨some archive, .replace, "RESTORE", "0123456789"⟩

/-- The archive of a database whose portable tables are empty. -/
def protectedArchive (entries : List TokenEntry) (rows : List MetaRow) : Archive :=
  { settingsArchive [] with
    sensitive := some (encryptJson ⟨entries, fun _ => .absent, .rows (rows.map metaEntry)⟩ "0123456789") }

def replaced (tokens settings : Nat) : RestoreAnswer :=
  ⟨.replace, ⟨[(.portable .targets, 0), (.portable .pingTargets, 0), (.portable .latencyAgents, 0),
    (.portable .proxyTargets, 0), (.appMeta, 0), (.sensitive .agentCredentials, 0),
    (.sensitive .proxyTargetSecrets, 0)], some tokens, some settings⟩, .stored "backups/pre-restore-2026.json"⟩

def agentArchive : Archive := protectedArchive [⟨"agent", "vps", vpsToken⟩] [⟨"totp_secret", "enc:v1:totp", 1⟩]

set_option maxRecDepth 4000 in
theorem oneAgent_exported : (outcome exportWithSecrets oneAgent).1 = .ok agentArchive := by rfl

theorem oneAgent_restored : (outcome (replaceWith agentArchive) oneProxy).1 = .ok (replaced 1 1) := by rfl

theorem oneProxy_exported : (outcome exportWithSecrets oneProxy).1 = .ok (protectedArchive [] []) := by rfl

theorem oneProxy_restored : (outcome (replaceWith (protectedArchive [] [])) oneProxy).1 = .ok (replaced 0 0) := by rfl

theorem protected_backup_restores_agent :
    Recovered Auth.tagged spelled deployment openProxy id .replace agentArchive oneAgent.db oneProxy.db
      (outcome (replaceWith agentArchive) oneProxy).2.db ↔
      ((Mode.replace = .replace) →
        ∀ row ∈ oneAgent.db.proxySecretRows, decryptScopedSecret deployment openProxy id row = none) :=
  protected_backup_restores_iff Auth.ideal_tagged (returns_outcome oneAgent_exported) (by decide) (by decide) rfl
    (returns_outcome oneAgent_restored)

/-- A proxy secret is deleted by the restore of the archive that was to save it. -/
theorem proxy_secret_lost :
    ¬ ∀ (mode : Mode) (source target source' after : World idsOnly) (archive : Archive) (answer : RestoreAnswer),
      Returns exportWithSecrets source archive source' →
      Returns (restoreBackup neverFails Auth.tagged spelled deployment 0 "2026"
        ⟨some archive, mode, "RESTORE", "0123456789"⟩) target answer after →
      Recovered Auth.tagged spelled deployment openProxy id mode archive source.db target.db after.db := by
  intro claim
  have recovered : SecretsRestored Auth.tagged spelled deployment openProxy id oneProxy.db
      (outcome (replaceWith (protectedArchive [] [])) oneProxy).2.db :=
    claim .replace oneProxy oneProxy _ _ _ _ (returns_outcome oneProxy_exported) (returns_outcome oneProxy_restored)
  have opens : decryptScopedSecret deployment openProxy id ⟨"proxy", "vps", "enc:v1:proxy", 1⟩ = some "password" := by
    decide +kernel
  obtain ⟨_, here, _⟩ := recovered.proxies _ List.mem_cons_self _ opens
  cases here

end NieSla.Backup
