import NieSla.Backup.Restored

/-! A backup without secrets: what of the secret data the archive holds, and what a restore of the
archive does to the secret data of the database. -/
namespace NieSla.Backup

open Fallible

/-- `CHANNEL_SECRETS_KEY` of the alerts: the tokens of the channels and the webhook headers. -/
def channelSecretsKey : String := "alert_channel_secrets"

/-- The settings that hold secrets, sessions or pending logins. -/
def isSecretKey (key : String) : Bool :=
  isSensitiveMetaKey key || decide (key ∈ omitMetaKeys) || decide (key = channelSecretsKey)

theorem isPortableMetaKey_channelSecrets : isPortableMetaKey channelSecretsKey = true := by decide

theorem isPortable_and_other (key : String) :
    (isPortableMetaKey key && decide (key ≠ channelSecretsKey)) = (isPortableMetaKey key && !isSecretKey key) := by
  by_cases sensitive : key ∈ sensitiveMetaKeys
  · simp [isPortableMetaKey, sensitive]
  · by_cases omitted : key ∈ omitMetaKeys
    · simp [isPortableMetaKey, omitted]
    · simp [isSecretKey, isSensitiveMetaKey, sensitive, omitted]

/-- Of the secret settings only the channel secrets are portable. -/
theorem not_portable_of_secret {key : String} (secret : isSecretKey key = true) (other : key ≠ channelSecretsKey) :
    isPortableMetaKey key = false := by
  have both := isPortable_and_other key
  rw [secret, decide_eq_true other, Bool.and_true] at both
  simpa using both

section Databases

variable {origin installation : Installation}

/-- Two databases that differ in secret data only. -/
structure SameButSecrets (first second : Database origin) : Prop where
  portable : ∀ table, first (.portable table) = second (.portable table)
  appMeta : first.metaOf (!isSecretKey ·) = second.metaOf (!isSecretKey ·)

/-- Every secret row is there as it was. -/
structure SecretsKept (before after : Database installation) : Prop where
  sensitive : ∀ table, after (.sensitive table) = before (.sensitive table)
  appMeta : ∀ row ∈ before.metaRows, isSecretKey row.key = true → row ∈ after.metaRows

def isChannelSecrets (row : MetaRow) : Bool := row.key = channelSecretsKey

def Database.channelSecrets (db : Database origin) : Option MetaRow := db.metaRows.find? isChannelSecrets

/-- How many portable settings stand before the channel secrets. -/
def Database.channelPlace (db : Database origin) : Nat := (db.metaOf isPortableMetaKey).findIdx isChannelSecrets

/-- A restore takes the first 10,000 settings of the archive; before a `replace` restore the keys of
all of them are deleted. -/
def Spared (mode : Mode) (source : Database origin) (row : MetaRow) : Prop :=
  match mode with
  | .merge => ∀ exported ∈ (source.metaOf isPortableMetaKey).take 10000, isChannelSecrets exported = true → exported = row
  | .replace => ∀ exported ∈ source.metaOf isPortableMetaKey, isChannelSecrets exported = true →
      exported = row ∧ exported ∈ (source.metaOf isPortableMetaKey).take 10000

/-- The two databases hold the same channel secrets at the same place, and what the archive holds of
them is what the database has into which it is restored. -/
structure ChannelSecretsAgree (first second : Database origin) (target : Database installation) (mode : Mode) :
    Prop where
  row : first.channelSecrets = second.channelSecrets
  place : first.channelPlace = second.channelPlace
  stored : ∀ row ∈ target.metaRows, isChannelSecrets row = true → Spared mode first row

theorem keys_apart (db : Database origin) :
    db.metaRows.Pairwise fun first second => first.key ≠ second.key :=
  (db .appMeta).apart

theorem eq_of_key {db : Database origin} {first second : MetaRow} (one : first ∈ db.metaRows)
    (two : second ∈ db.metaRows) (same : first.key = second.key) : first = second := by
  have distinct : (db.metaRows.map MetaRow.key).Nodup := List.pairwise_map.mpr (keys_apart db)
  exact List.inj_on_of_nodup_map distinct one two same

theorem once_metaOf (db : Database origin) (keep : String → Bool) :
    (db.metaOf keep).Pairwise fun first second =>
      ¬ (isChannelSecrets first = true ∧ isChannelSecrets second = true) := by
  refine ((keys_apart db).filter _).imp fun other both => other ?_
  rw [of_decide_eq_true both.1, of_decide_eq_true both.2]

/-! What the archives hold. -/

theorem others_metaOf (db : Database origin) :
    (db.metaOf isPortableMetaKey).filter (!isChannelSecrets ·) =
      (db.metaOf (!isSecretKey ·)).filter fun row => isPortableMetaKey row.key := by
  rw [Database.metaOf, Database.metaOf, List.filter_filter, List.filter_filter]
  refine List.filter_congr fun row _ => ?_
  have both := isPortable_and_other row.key
  rw [decide_not] at both
  rw [isChannelSecrets, Bool.and_comm, both]

theorem find_metaOf (db : Database origin) :
    (db.metaOf isPortableMetaKey).find? isChannelSecrets = db.channelSecrets := by
  rw [Database.metaOf, List.find?_filter, Database.channelSecrets]
  congr 1
  funext row
  by_cases channel : isChannelSecrets row = true
  · rw [channel, of_decide_eq_true channel, isPortableMetaKey_channelSecrets]
    rfl
  · simp [channel]

theorem archives_eq_iff {first second : Database origin} (differ : SameButSecrets first second)
    {archive other : Archive} (made : ArchiveOf first archive) (also : ArchiveOf second other)
    (clock : archive.createdAt = other.createdAt) (plain : archive.sensitive = none) (plain' : other.sensitive = none) :
    archive = other ↔
      first.channelSecrets = second.channelSecrets ∧ first.channelPlace = second.channelPlace := by
  have settings : archive = other ↔ first.metaOf isPortableMetaKey = second.metaOf isPortableMetaKey := by
    constructor
    · rintro rfl
      have rows := made.appMeta.symm.trans also.appMeta
      exact List.map_injective_iff.mpr metaEntry_injective (Listing.rows.inj rows)
    · intro same
      have portable : archive.portable = other.portable := by
        rw [made.portable, also.portable]
        funext table
        rw [differ.portable]
      have appMeta : archive.appMeta = other.appMeta := by rw [made.appMeta, also.appMeta, same]
      have schema : archive.schema = other.schema := by rw [made.schema, also.schema]
      have version : archive.version = other.version := by rw [made.version, also.version]
      cases archive
      cases other
      simp_all
  rw [settings, Table.eq_iff_find (once_metaOf first _) (once_metaOf second _) (by
    rw [others_metaOf, others_metaOf, differ.appMeta]), find_metaOf, find_metaOf]
  rfl

/-! What the restore leaves. -/

theorem sensitive_startOf (mode : Mode) (source : Database origin) (target : Database installation)
    (table : SensitiveTable) : startOf mode false source target (.sensitive table) = target (.sensitive table) := by
  cases mode <;> rfl

theorem mem_startOf {mode : Mode} {source : Database origin} {target : Database installation} {row : MetaRow} :
    row ∈ (startOf mode false source target).metaRows ↔
      row ∈ target.metaRows ∧
        (mode = .replace → ∀ exported ∈ source.metaOf isPortableMetaKey, exported.key ≠ row.key) := by
  cases mode with
  | merge => simp [startOf]
  | replace =>
      change row ∈ target.metaRows.filter _ ↔ _
      simp

theorem key_of_mem_metaOf {db : Database origin} {keep : String → Bool} {row : MetaRow} (member : row ∈ db.metaOf keep) :
    row ∈ db.metaRows ∧ keep row.key = true :=
  List.mem_filter.mp member

variable {mode : Mode} {source : Database origin} {target after : Database installation} {row : MetaRow}

theorem kept_of_not_portable (wrote : Written source (startOf mode false source target) after)
    (member : row ∈ target.metaRows) (kept : isPortableMetaKey row.key = false) : row ∈ after.metaRows := by
  have apart : ∀ exported ∈ source.metaOf isPortableMetaKey, exported.key ≠ row.key := by
    intro exported among same
    have portable := (key_of_mem_metaOf among).2
    rw [same, kept] at portable
    cases portable
  rw [Database.metaRows, wrote.appMeta]
  refine Table.mem_insertAll_of_mem (mem_startOf.mpr ⟨member, fun _ => apart⟩) ?_
  exact fun exported among same => apart exported (List.mem_of_mem_take among) same.symm

theorem mem_after_of_mem_take (wrote : Written source (startOf mode false source target) after)
    (written : row ∈ (source.metaOf isPortableMetaKey).take 10000) : row ∈ after.metaRows := by
  have apart : ((source.metaOf isPortableMetaKey).take 10000).Pairwise fun first second : MetaRow =>
      ¬ metaSchema.clash first second :=
    ((keys_apart source).filter _).sublist (List.take_sublist _ _)
  rw [Database.metaRows, wrote.appMeta]
  exact Table.mem_insertAll apart written

theorem mem_of_mem_after (wrote : Written source (startOf mode false source target) after)
    (member : row ∈ after.metaRows) :
    (row ∈ (startOf mode false source target).metaRows ∧
      ∀ exported ∈ (source.metaOf isPortableMetaKey).take 10000, row.key ≠ exported.key ∨ row = exported) ∨
      row ∈ (source.metaOf isPortableMetaKey).take 10000 := by
  rw [Database.metaRows, wrote.appMeta] at member
  exact Table.mem_of_mem_insertAll member

/-- The row of the channel secrets stays exactly when the archive spares it. -/
theorem channelSecrets_kept_iff (wrote : Written source (startOf mode false source target) after)
    (member : row ∈ target.metaRows) (channel : isChannelSecrets row = true) :
    row ∈ after.metaRows ↔ Spared mode source row := by
  have key : row.key = channelSecretsKey := of_decide_eq_true channel
  have same_key : ∀ {exported : MetaRow}, isChannelSecrets exported = true → exported.key = row.key :=
    fun also => (of_decide_eq_true also).trans key.symm
  have one : ∀ {exported : MetaRow}, exported ∈ source.metaOf isPortableMetaKey → isChannelSecrets exported = true →
      row ∈ source.metaOf isPortableMetaKey → exported = row := fun among also here =>
    eq_of_key (key_of_mem_metaOf among).1 (key_of_mem_metaOf here).1 (same_key also)
  constructor
  · intro here
    rcases mem_of_mem_after wrote here with ⟨start, clear⟩ | written
    · have start := mem_startOf.mp start
      cases mode with
      | merge =>
          intro exported among also
          exact ((clear exported among).resolve_left fun other => other (same_key also).symm).symm
      | replace => exact fun exported among also => absurd (same_key also) (start.2 rfl exported among)
    · cases mode with
      | merge => exact fun exported among also => one (List.mem_of_mem_take among) also (List.mem_of_mem_take written)
      | replace =>
          intro exported among also
          have same := one among also (List.mem_of_mem_take written)
          exact ⟨same, by rwa [same]⟩
  · intro spared
    by_cases exports : ∃ exported ∈ (source.metaOf isPortableMetaKey).take 10000, isChannelSecrets exported = true
    · obtain ⟨exported, among, also⟩ := exports
      have same : exported = row := by
        cases mode with
        | merge => exact spared exported among also
        | replace => exact (spared exported (List.mem_of_mem_take among) also).1
      exact mem_after_of_mem_take wrote (same ▸ among)
    · have clear : ∀ exported ∈ (source.metaOf isPortableMetaKey).take 10000, ¬ metaSchema.clash row exported :=
        fun exported among same => exports ⟨exported, among, decide_eq_true (same.symm.trans key)⟩
      have start : row ∈ (startOf mode false source target).metaRows := by
        refine mem_startOf.mpr ⟨member, ?_⟩
        rintro rfl exported among same
        have also : isChannelSecrets exported = true := decide_eq_true (same.trans key)
        exact exports ⟨exported, (spared exported among also).2, also⟩
      rw [Database.metaRows, wrote.appMeta]
      exact Table.mem_insertAll_of_mem start clear

theorem secretsKept_iff (wrote : Written source (startOf mode false source target) after) :
    SecretsKept target after ↔
      ∀ row ∈ target.metaRows, isChannelSecrets row = true → Spared mode source row := by
  constructor
  · intro kept row member channel
    refine (channelSecrets_kept_iff wrote member channel).mp (kept.appMeta row member ?_)
    rw [of_decide_eq_true channel]
    decide
  · intro spared
    refine ⟨fun table => by rw [wrote.sensitive, sensitive_startOf], fun row member secret => ?_⟩
    by_cases channel : isChannelSecrets row = true
    · exact (channelSecrets_kept_iff wrote member channel).mpr (spared row member channel)
    · have other : row.key ≠ channelSecretsKey := fun same => channel (decide_eq_true same)
      exact kept_of_not_portable wrote member (not_portable_of_secret secret other)

end Databases

section Runs

variable {origin installation : Installation} {faults faults' faults'' : Nat → Option String}
  {sha256Hex : String → String} {cipher : Cipher} {env env' env'' : BackupEnv} {now now' now'' : Int}
  {isoNow isoRestore : String}

/-- Two exports without secrets answer with the same archive, and a restore of it leaves the secrets
alone, exactly where the channel secrets agree: they are the one secret that is exported. -/
theorem plain_backup_keeps_secrets_iff {first first' second second' : World origin}
    {target after : World installation} {password password' : String} {archive other : Archive}
    {request : RestoreRequest} {answer : RestoreAnswer} (differ : SameButSecrets first.db second.db)
    (exported : Returns (exportBackup faults sha256Hex cipher env now isoNow ⟨false, password⟩) first archive first')
    (exported' : Returns (exportBackup faults' sha256Hex cipher env' now' isoNow ⟨false, password'⟩) second other
      second')
    (backup : request.backup = some archive)
    (restored : Returns (restoreBackup faults'' sha256Hex cipher env'' now'' isoRestore request) target answer
      after) :
    (archive = other ∧ SecretsKept target.db after.db) ↔
      ChannelSecretsAgree first.db second.db target.db request.mode := by
  obtain ⟨made, clock, plain⟩ := exportBackup_returns exported
  obtain ⟨made', clock', plain'⟩ := exportBackup_returns exported'
  have none_ : archive.sensitive = none := by
    rcases plain with plain | ⟨_, _, secret, _⟩
    · exact plain.2
    · cases secret
  have none_' : other.sensitive = none := by
    rcases plain' with plain | ⟨_, _, secret, _⟩
    · exact plain.2
    · cases secret
  obtain ⟨sensitive, start, opened, same, wrote⟩ := restoreBackup_returns backup restored
  rw [none_] at opened
  subst opened
  obtain ⟨between, written, last⟩ := writeArchive_returns made wrote
  rw [same, ← last] at written
  rw [archives_eq_iff differ made made' (clock.trans clock'.symm) none_ none_', secretsKept_iff written]
  constructor
  · rintro ⟨⟨row, place⟩, stored⟩
    exact ⟨row, place, stored⟩
  · exact fun agree => ⟨⟨agree.row, agree.place⟩, agree.stored⟩

end Runs

/-! An installation whose portable tables have only an `id`. -/

def idSchema : Schema Value String where
  columns := ["id"]
  named := by simp
  fieldsOf id := [("id", .text id)]
  stored fields := Fields.text fields "id"
  clash first second := first = second
  decidable_clash _ _ := inferInstanceAs (Decidable (_ = _))
  columns_fieldsOf _ := rfl
  stored_fieldsOf _ := rfl

def idsOnly : Installation := ⟨fun _ => String, fun _ => idSchema⟩

/-- Only settings. -/
def settings (rows : List MetaRow) (apart : rows.Pairwise fun first second => ¬ metaSchema.clash first second) :
    World idsOnly where
  db
    | .portable _ => .empty
    | .sensitive _ => .empty
    | .appMeta => ⟨rows, apart⟩
  operations := 0

def spell (parts : List (List Char)) : List Char :=
  parts.flatMap fun part => part.flatMap (fun c => ['.', c]) ++ [',']

def unspell (part : List Char) : List Char → List (List Char)
  | '.' :: c :: rest => unspell (part ++ [c]) rest
  | ',' :: rest => part :: unspell [] rest
  | _ => []

theorem unspell_append (part chars rest : List Char) :
    unspell part (chars.flatMap (fun c => ['.', c]) ++ ',' :: rest) = (part ++ chars) :: unspell [] rest := by
  induction chars generalizing part with
  | nil => rw [List.append_nil]; rfl
  | cons c later ih =>
      rw [List.flatMap_cons, List.append_assoc]
      refine (ih (part ++ [c])).trans ?_
      rw [List.append_assoc]
      rfl

theorem unspell_spell (parts : List (List Char)) : unspell [] (spell parts) = parts := by
  induction parts with
  | nil => rfl
  | cons part rest ih =>
      rw [spell, List.flatMap_cons, List.append_assoc, List.singleton_append, unspell_append, List.nil_append]
      exact congrArg _ ih

/-- An envelope that spells out what it was made from. -/
def spelled : Cipher where
  sealed _ material subject token :=
    String.ofList (spell [material.toList, (subjectTypeText subject.type).toList, subject.id.toList, token.toList])
  opened text :=
    match unspell [] text.toList with
    | [material, type, id, token] =>
        match subjectTypeOf (String.ofList type) with
        | some type => .sealed (String.ofList material) ⟨type, String.ofList id⟩ (String.ofList token)
        | none => .unreadable
    | _ => .unreadable
  opened_sealed _ material subject token := by
    simp [unspell_spell, subjectTypeOf_text]

def neverFails (_ : Nat) : Option String := none

def gotify (token : String) : MetaRow := ⟨channelSecretsKey, token, 1⟩

def channelOnly (token : String) : World idsOnly := settings [gotify token] (List.pairwise_singleton _ _)

/-- The archive of a database with these settings and nothing else. -/
def settingsArchive (rows : List MetaRow) : Archive :=
  ⟨backupSchema, 1, "2026",
    fun
      | .targets => .rows []
      | .pingTargets => .rows []
      | .latencyAgents => .rows []
      | .proxyTargets => .rows [],
    .rows (rows.map metaEntry), none⟩

theorem channelOnly_differ (first second : String) :
    SameButSecrets (channelOnly first).db (channelOnly second).db := by
  refine ⟨fun _ => rfl, ?_⟩
  have secret : isSecretKey channelSecretsKey = true := by decide
  change [gotify first].filter _ = [gotify second].filter _
  simp [gotify, secret]

/-- The answer to a restore in which nothing fails and one setting is written. -/
def wrote (mode : Mode) : RestoreAnswer :=
  ⟨mode, ⟨[(.portable .targets, 0), (.portable .pingTargets, 0), (.portable .latencyAgents, 0),
    (.portable .proxyTargets, 0), (.appMeta, 1)], none, none⟩, .missingEncryptionMaterial⟩

def exportOnly : Session idsOnly Archive := exportBackup neverFails id spelled {} 0 "2026" ⟨false, ""⟩

def restoreOnly (mode : Mode) (archive : Archive) : Session idsOnly RestoreAnswer :=
  restoreBackup neverFails id spelled {} 0 "2026" ⟨some archive, mode, "RESTORE", ""⟩

theorem exportOnly_one : (outcome exportOnly (channelOnly "one")).1 = .ok (settingsArchive [gotify "one"]) := by rfl

theorem exportOnly_two : (outcome exportOnly (channelOnly "two")).1 = .ok (settingsArchive [gotify "two"]) := by rfl

theorem restoreOnly_same :
    (outcome (restoreOnly .replace (settingsArchive [gotify "one"])) (channelOnly "one")).1 = .ok (wrote .replace) := by
  rfl

theorem restoreOnly_other :
    (outcome (restoreOnly .merge (settingsArchive [gotify "one"])) (channelOnly "two")).1 = .ok (wrote .merge) := by
  rfl

theorem plain_backup_keeps_secrets_gotify :
    (settingsArchive [gotify "one"] = settingsArchive [gotify "one"] ∧
      SecretsKept (channelOnly "one").db
        (outcome (restoreOnly .replace (settingsArchive [gotify "one"])) (channelOnly "one")).2.db) ↔
      ChannelSecretsAgree (channelOnly "one").db (channelOnly "one").db (channelOnly "one").db .replace :=
  plain_backup_keeps_secrets_iff (channelOnly_differ "one" "one") (returns_outcome exportOnly_one)
    (returns_outcome exportOnly_one) rfl (returns_outcome restoreOnly_same)

/-- The tokens of the channels stand in the archive, and a restore of it writes over other ones. -/
theorem channel_secrets_exported :
    ¬ ∀ (mode : Mode) (first second target : World idsOnly) (archive other : Archive) (answer : RestoreAnswer)
        (first' second' after : World idsOnly), SameButSecrets first.db second.db →
      Returns exportOnly first archive first' → Returns exportOnly second other second' →
      Returns (restoreOnly mode archive) target answer after →
      archive = other ∧ SecretsKept target.db after.db := by
  intro claim
  have both := claim .merge (channelOnly "one") (channelOnly "two") (channelOnly "two") _ _ _ _ _ _
    (channelOnly_differ "one" "two") (returns_outcome exportOnly_one) (returns_outcome exportOnly_two)
    (returns_outcome restoreOnly_other)
  have kept := both.2.appMeta (gotify "two") List.mem_cons_self (by decide)
  have written : gotify "two" ∈ [gotify "one"] := kept
  simp [gotify] at written

end NieSla.Backup
