import NieSla.Backup.Archive

/-! What a restore that returns leaves in the tables, where the archive is one that an export made. -/
namespace NieSla.Backup

open Auth (Subject Failure normalizeSubject decryptCredentialValue)
open Fallible

/-- The settings of a database with a kept key. -/
def Database.metaOf {installation : Installation} (db : Database installation) (keep : String → Bool) :
    List MetaRow :=
  db.metaRows.filter fun row => keep row.key

section Entries

def metaEntry (row : MetaRow) : Entry := .object (metaSchema.fieldsOf row)

theorem key_metaEntry (row : MetaRow) : (metaEntry row).key = .ok row.key := rfl

theorem metaEntry_injective : Function.Injective metaEntry := by
  intro first second same
  have stored := congrArg metaSchema.stored (Entry.object.inj same)
  rwa [Schema.stored_fieldsOf, Schema.stored_fieldsOf, Option.some.injEq] at stored

theorem mapM_key (rows : List MetaRow) :
    (rows.map metaEntry).mapM
        (fun entry => do return (← entry.key, entry) : Entry → Except Failure (String × Entry)) =
      .ok (rows.map fun row => (row.key, metaEntry row)) := by
  induction rows with
  | nil => rfl
  | cons row rest ih => rw [List.map_cons, List.mapM_cons, ih]; rfl

theorem metaEntries_rows (keep : String → Bool) (rows : List MetaRow) :
    metaEntries keep (.rows (rows.map metaEntry)) =
      .ok ((rows.filter fun row => keep row.key).map fun row =>
        (row.key, metaEntry row)) := by
  change (do
    let keyed ← (rows.map metaEntry).mapM
      (fun entry => do return (← entry.key, entry) : Entry → Except Failure (String × Entry))
    return keyed.filter fun entry : String × Entry => keep entry.1) = _
  rw [mapM_key]
  change Except.ok ((rows.map _).filter _) = _
  rw [List.filter_map]
  rfl

end Entries

section Exports

variable {installation : Installation} {faults : Nat → Option String} {sha256Hex : String → String}
  {cipher : Cipher} {env : BackupEnv} {now : Int} {isoNow : String} {world after : World installation}

theorem portableRows_returns {portable : PortableTable → Listing}
    (ok : Returns (portableRows faults) world portable after) :
    after.db = world.db ∧
      portable = fun table => .rows ((world.db (.portable table)).rows.map (entryOf (.portable table))) := by
  obtain ⟨targets, first, readTargets, ok⟩ := returns_bind.mp ok
  obtain ⟨pingTargets, second, readPings, ok⟩ := returns_bind.mp ok
  obtain ⟨latencyAgents, third, readAgents, ok⟩ := returns_bind.mp ok
  obtain ⟨proxyTargets, fourth, readProxies, ok⟩ := returns_bind.mp ok
  obtain ⟨same₁, rfl⟩ := tableRows_returns readTargets
  obtain ⟨same₂, rfl⟩ := tableRows_returns readPings
  obtain ⟨same₃, rfl⟩ := tableRows_returns readAgents
  obtain ⟨same₄, rfl⟩ := tableRows_returns readProxies
  obtain ⟨made, rfl⟩ := returns_pure.mp ok
  refine ⟨by rw [same₄, same₃, same₂, same₁], ?_⟩
  rw [← made]
  funext table
  cases table
  · rfl
  · dsimp only
    rw [same₁]
  · dsimp only
    rw [same₂, same₁]
  · dsimp only
    rw [same₃, same₂, same₁]

/-- An archive of the portable tables and settings of a database. -/
structure ArchiveOf (db : Database installation) (archive : Archive) : Prop where
  schema : archive.schema = backupSchema
  version : archive.version = 1
  portable : archive.portable = fun table => .rows ((db (.portable table)).rows.map (entryOf (.portable table)))
  appMeta : archive.appMeta =
    .rows ((db.metaOf isPortableMetaKey).map metaEntry)

/-- The protected part of the archive of a database. -/
def sensitiveOf (db : Database installation) (agentTokens : List TokenEntry) : Sensitive where
  agentTokens := agentTokens
  table _ := .absent
  appMeta := .rows ((db.metaOf isSensitiveMetaKey).map metaEntry)

theorem metaRows_entries (keep : String → Bool) {between : World installation} {entries : List Entry}
    {keyed : List (String × Entry)} (read : entries = between.db.metaRows.map metaEntry)
    (kept : metaEntries keep (.rows entries) = .ok keyed) :
    keyed.map Prod.fst = (between.db.metaOf keep).map MetaRow.key ∧
      keyed.map Prod.snd = (between.db.metaOf keep).map metaEntry := by
  rw [read, metaEntries_rows, Except.ok.injEq] at kept
  rw [← kept, List.map_map, List.map_map]
  exact ⟨rfl, rfl⟩

theorem exportSensitive_returns {entries : List Entry} {content : Sensitive} {between : World installation}
    (read : entries = between.db.metaRows.map metaEntry)
    (ok : Returns (exportSensitive faults sha256Hex cipher env now entries) world content after) :
    ∃ agentTokens, Returns (exportAgentTokens faults sha256Hex cipher env now) world agentTokens after ∧
      content = sensitiveOf between.db agentTokens := by
  obtain ⟨agentTokens, last, tokens, ok⟩ := returns_bind.mp ok
  obtain ⟨keyed, _, settings, ok⟩ := returns_bind.mp ok
  obtain ⟨kept, rfl⟩ := returns_ofExcept.mp settings
  obtain ⟨made, rfl⟩ := returns_pure.mp ok
  refine ⟨agentTokens, tokens, ?_⟩
  rw [← made, (metaRows_entries _ read kept).2]
  rfl

theorem exportBackup_returns {request : ExportRequest} {archive : Archive}
    (ok : Returns (exportBackup faults sha256Hex cipher env now isoNow request) world archive after) :
    ArchiveOf world.db archive ∧ archive.createdAt = isoNow ∧
      ((request.includeSecrets = false ∧ archive.sensitive = none) ∨
        ∃ agentTokens between, request.includeSecrets = true ∧ 10 ≤ textLength request.password ∧
          between.db = world.db ∧
          Returns (exportAgentTokens faults sha256Hex cipher env now) between agentTokens after ∧
          archive.sensitive = some (encryptJson (sensitiveOf world.db agentTokens) request.password)) := by
  obtain ⟨_, _, accepted, ok⟩ := returns_bind.mp ok
  obtain ⟨long, rfl⟩ := returns_refuse.mp accepted
  obtain ⟨portable, first, tables, ok⟩ := returns_bind.mp ok
  obtain ⟨entries, second, settings, ok⟩ := returns_bind.mp ok
  obtain ⟨keyed, _, filtered, ok⟩ := returns_bind.mp ok
  obtain ⟨kept, rfl⟩ := returns_ofExcept.mp filtered
  obtain ⟨sensitive, last, protectedPart, ok⟩ := returns_bind.mp ok
  obtain ⟨made, rfl⟩ := returns_pure.mp ok
  obtain ⟨same₁, rfl⟩ := portableRows_returns tables
  obtain ⟨same₂, read⟩ := tableRows_returns settings
  have rows := metaRows_entries _ read kept
  rw [same₁] at same₂
  rw [show first.db = world.db from same₁] at rows
  rw [← made]
  refine ⟨⟨rfl, rfl, rfl, congrArg Listing.rows rows.2⟩, rfl, ?_⟩
  split at protectedPart
  · rename_i secret
    obtain ⟨content, exported, made⟩ := returns_map.mp protectedPart
    obtain ⟨agentTokens, tokens, rfl⟩ := exportSensitive_returns read exported
    refine .inr ⟨agentTokens, second, secret, by simpa [secret] using long, same₂, tokens, ?_⟩
    rw [← made, same₁]
  · rename_i plain
    exact .inl ⟨by simpa using plain, (returns_pure.mp protectedPart).1.symm⟩

end Exports

section Phases

variable {origin installation : Installation} {faults : Nat → Option String} {sha256Hex : String → String}
  {cipher : Cipher} {env : BackupEnv} {now : Int} {isoNow : String} {world after : World installation}
  {source : Database origin} {archive : Archive}

theorem mem_portableTables (table : PortableTable) : table ∈ portableTables := by
  cases table <;> decide

theorem mem_sensitiveTables (table : SensitiveTable) : table ∈ sensitiveTables := by
  cases table <;> decide

/-! The deletions. -/

theorem applyAll_deleteTable (names : List TableName) (db : Database installation) :
    applyAll (names.map deleteTable) db = some fun name => if name ∈ names then .empty else db name := by
  induction names generalizing db with
  | nil => simp [applyAll]
  | cons first rest ih =>
      change applyAll (rest.map deleteTable) (Function.update db first .empty) = _
      rw [ih, Option.some.injEq]
      funext name
      by_cases same : name = first
      · subst same
        simp
      · simp [same]

theorem applyAll_deleteMeta (keys : List String) (db : Database installation) :
    applyAll (keys.map deleteMeta) db =
      some (Function.update db .appMeta ((db .appMeta).delete fun row : MetaRow => row.key ∈ keys)) := by
  induction keys generalizing db with
  | nil =>
      have all : ((db .appMeta).delete fun row : MetaRow => row.key ∈ ([] : List String)) = db .appMeta := by
        apply Table.ext
        simp
      rw [all, Function.update_eq_self]
      rfl
  | cons key rest ih =>
      change applyAll (rest.map deleteMeta)
        (Function.update db .appMeta ((db .appMeta).delete fun row : MetaRow => row.key = key)) = _
      rw [ih, Function.update_self, Function.update_idem]
      refine congrArg some (congrArg (Function.update db .appMeta) (Table.ext ?_))
      simp only [Table.rows_delete, List.filter_filter]
      refine List.filter_congr fun row _ => ?_
      simp only [List.mem_cons, Bool.decide_or, Bool.not_or]
      exact Bool.and_comm _ _

/-- The tables after the deletions of a `replace` restore. -/
def cleared (sensitive : Bool) (keys : List String) (db : Database installation) : Database installation
  | .portable _ => .empty
  | .sensitive table => if sensitive then .empty else db (.sensitive table)
  | .appMeta => (db .appMeta).delete fun row : MetaRow => row.key ∈ keys

theorem applyAll_deletionStatements (sensitive : Bool) (keys : List String) (db : Database installation) :
    applyAll (deletionStatements sensitive keys) db = some (cleared sensitive keys db) := by
  have portable : (portableTables.reverse.map fun table =>
        (deleteTable (.portable table) : Statement installation)) =
      (portableTables.reverse.map TableName.portable).map deleteTable := by rw [List.map_map]; rfl
  have protected_ : (if sensitive then sensitiveTables.map fun table =>
        (deleteTable (.sensitive table) : Statement installation) else []) =
      (if sensitive then sensitiveTables.map TableName.sensitive else []).map deleteTable := by
    cases sensitive <;> rfl
  rw [deletionStatements, portable, protected_, ← List.map_append, applyAll_append, applyAll_deleteTable,
    Option.bind_some, applyAll_deleteMeta, Option.some.injEq]
  funext name
  cases name with
  | portable table =>
      rw [Function.update_of_ne (by simp)]
      simp [cleared, mem_portableTables]
  | sensitive table =>
      rw [Function.update_of_ne (by simp)]
      cases sensitive
      · simp [cleared]
      · simp [cleared, mem_sensitiveTables]
  | appMeta =>
      rw [Function.update_self]
      cases sensitive
      · simp [cleared]
      · simp [cleared]

theorem clearForReplace_returns (made : ArchiveOf source archive) {sensitive : Bool}
    (ok : Returns (clearForReplace faults archive sensitive) world () after) :
    after.db = cleared sensitive ((source.metaOf isPortableMetaKey).map MetaRow.key) world.db := by
  obtain ⟨keyed, _, settings, ok⟩ := returns_bind.mp ok
  obtain ⟨kept, rfl⟩ := returns_ofExcept.mp settings
  have applied := runD1Batches_returns ok
  rw [made.appMeta, metaEntries_rows, Except.ok.injEq] at kept
  rw [applyAll_deletionStatements, Option.some.injEq] at applied
  rw [← applied, ← kept, List.map_map, Database.metaOf, List.filter_filter]
  simp only [Bool.and_self]
  rfl

/-! The portable part. -/

/-- The portable part of the archive of `source` has been written, whatever the columns of the two
databases are. -/
structure Written (source : Database origin) (db next : Database installation) : Prop where
  sensitive : ∀ table, next (.sensitive table) = db (.sensitive table)
  appMeta : next .appMeta = (db .appMeta).insertAll ((source.metaOf isPortableMetaKey).take 10000)

/-- What each of the tables leaves alone is left alone by all of them. -/
theorem restoreEach_keeps {β γ : Type} {name : β → TableName} {listing : β → Listing}
    (view : Database installation → γ) {tables : List β} {counts : List (TableName × Nat)}
    (each : ∀ table ∈ tables, ∀ (start last : World installation) (count : Nat),
      Returns (restoreRows faults (name table) (listing table)) start count last → view last.db = view start.db)
    (ok : Returns (tables.mapM fun table => do
      return (name table, ← restoreRows faults (name table) (listing table))) world counts after) :
    view after.db = view world.db := by
  induction tables generalizing world after counts with
  | nil =>
      rw [List.mapM_nil] at ok
      rw [(returns_pure.mp ok).2]
  | cons table rest ih =>
      rw [List.mapM_cons] at ok
      obtain ⟨_, between, one, ok⟩ := returns_bind.mp ok
      obtain ⟨_, last, more, ok⟩ := returns_bind.mp ok
      obtain ⟨count, written, rows, counted⟩ := returns_bind.mp one
      rw [← (returns_pure.mp ok).2, ih (fun table later => each table (List.mem_cons_of_mem _ later)) more,
        ← (returns_pure.mp counted).2, each table List.mem_cons_self world written count rows]

theorem restorePortable_returns (made : ArchiveOf source archive) {counts : List (TableName × Nat)}
    (ok : Returns (restorePortable faults archive) world counts after) : Written source world.db after.db := by
  obtain ⟨_, between, tables, ok⟩ := returns_bind.mp ok
  obtain ⟨keyed, _, settings, ok⟩ := returns_bind.mp ok
  obtain ⟨kept, rfl⟩ := returns_ofExcept.mp settings
  obtain ⟨_, last, written, ok⟩ := returns_bind.mp ok
  rw [made.appMeta, metaEntries_rows, Except.ok.injEq] at kept
  rw [← kept, List.map_map, Database.metaOf, List.filter_filter] at written
  simp only [Bool.and_self] at written
  have stored : last.db = Function.update between.db .appMeta
      ((between.db .appMeta).insertAll ((source.metaOf isPortableMetaKey).take 10000)) :=
    restoreRows_returns written
  have frame : ∀ name, (∀ table, name ≠ .portable table) → between.db name = world.db name := fun name apart =>
    restoreEach_keeps (fun db => db name) (fun table _ _ _ _ rows => restoreRows_frame (apart table) rows) tables
  rw [← (returns_pure.mp ok).2]
  constructor
  · intro table
    rw [stored, Function.update_of_ne (by simp), frame _ (by simp)]
  · rw [stored, Function.update_self, frame _ (by simp)]

/-! The whole restore. -/

/-- The tables into which the portable part is written. -/
def startOf (mode : Mode) (sensitive : Bool) (source : Database origin) (db : Database installation) :
    Database installation :=
  match mode with
  | .merge => db
  | .replace => cleared sensitive ((source.metaOf isPortableMetaKey).map MetaRow.key) db

theorem rebuild_returns (ok : Returns (rebuildCompatibilityTables faults) world () after) : after.db = world.db := by
  obtain ⟨_, first, one, ok⟩ := returns_bind.mp ok
  obtain ⟨_, second, two, ok⟩ := returns_bind.mp ok
  obtain ⟨_, third, three, ok⟩ := returns_bind.mp ok
  rw [(query_returns ok).1, (query_returns three).1, (query_returns two).1, (query_returns one).1]

theorem writeArchive_returns (made : ArchiveOf source archive) {sensitive : Option Sensitive} {mode : Mode}
    {restored : Restored}
    (ok : Returns (writeArchive faults sha256Hex cipher env now archive sensitive mode) world restored after) :
    ∃ between : World installation,
      Written source (startOf mode sensitive.isSome source world.db) between.db ∧
        match sensitive with
        | none => after.db = between.db
        | some content => ∃ counts last,
            Returns (restoreSensitive faults sha256Hex cipher env now content) between counts last ∧
              after.db = last.db := by
  obtain ⟨_, first, deletions, ok⟩ := returns_bind.mp ok
  obtain ⟨_, between, portable, ok⟩ := returns_bind.mp ok
  obtain ⟨_, last, protectedPart, ok⟩ := returns_bind.mp ok
  obtain ⟨_, rebuilt, compatibility, ok⟩ := returns_bind.mp ok
  obtain ⟨_, cleanedUp, runtime, ok⟩ := returns_bind.mp ok
  have start : first.db = startOf mode sensitive.isSome source world.db := by
    cases mode with
    | merge => exact congrArg World.db (returns_pure.mp deletions).2.symm
    | replace => exact clearForReplace_returns made deletions
  have same : after.db = last.db := by
    have runtimeSame : cleanedUp.db = rebuilt.db := by
      cases mode with
      | merge => exact congrArg World.db (returns_pure.mp runtime).2.symm
      | replace =>
          rw [if_pos rfl] at runtime
          exact (query_returns runtime).1
    rw [← (returns_pure.mp ok).2, runtimeSame, rebuild_returns compatibility]
  refine ⟨between, by rw [← start]; exact restorePortable_returns made portable, ?_⟩
  cases sensitive with
  | none => exact same.trans (congrArg World.db (returns_pure.mp protectedPart).2.symm)
  | some content =>
      obtain ⟨counts, written, _⟩ := returns_map.mp protectedPart
      exact ⟨counts, last, written, same⟩

theorem captureRestoreState_returns {state : RestoreState}
    (ok : Returns (captureRestoreState faults) world state after) : after.db = world.db := by
  obtain ⟨_, first, one, ok⟩ := returns_bind.mp ok
  obtain ⟨_, second, two, ok⟩ := returns_bind.mp ok
  obtain ⟨_, third, three, ok⟩ := returns_bind.mp ok
  obtain ⟨_, fourth, four, ok⟩ := returns_bind.mp ok
  obtain ⟨_, fifth, five, ok⟩ := returns_bind.mp ok
  obtain ⟨_, sixth, six, ok⟩ := returns_bind.mp ok
  obtain ⟨_, seventh, seven, ok⟩ := returns_bind.mp ok
  rw [← (returns_pure.mp ok).2, (tableRows_returns seven).1, (tableRows_returns six).1, (tableRows_returns five).1,
    (tableRows_returns four).1, (tableRows_returns three).1, (tableRows_returns two).1, (tableRows_returns one).1]

theorem createRestoreSnapshot_returns {snapshot : Snapshot}
    (ok : Returns (createRestoreSnapshot faults env isoNow) world snapshot after) : after.db = world.db := by
  unfold createRestoreSnapshot at ok
  split at ok
  · rw [(returns_pure.mp ok).2]
  · split at ok
    · rw [(returns_pure.mp ok).2]
    · obtain ⟨_, between, stored, ok⟩ := returns_bind.mp ok
      rw [← (returns_pure.mp ok).2, (query_returns stored).1]

theorem not_returns_rollBack {before : RestoreState} {snapshot : Snapshot} {failure : Failure} {restored : Restored} :
    ¬ Returns (rollBack faults before snapshot failure) world restored after := by
  intro ok
  obtain ⟨_, between, _, ok⟩ := returns_bind.mp ok
  exact returns_throw ok

theorem restoreBackup_returns {request : RestoreRequest} {answer : RestoreAnswer}
    (backup : request.backup = some archive)
    (ok : Returns (restoreBackup faults sha256Hex cipher env now isoNow request) world answer after) :
    ∃ sensitive start,
      (match archive.sensitive with
        | none => sensitive = none
        | some envelope => ∃ content, decryptJson envelope request.password = .ok content ∧
            sensitive = some content) ∧
      start.db = world.db ∧
      Returns (writeArchive faults sha256Hex cipher env now archive sensitive request.mode) start answer.restored
        after := by
  obtain ⟨normal, _, normalized, ok⟩ := returns_bind.mp ok
  obtain ⟨accepted, rfl⟩ := returns_ofExcept.mp normalized
  have same : normal = archive := by
    rw [backup, normalizeArchive] at accepted
    split at accepted
    · cases accepted
    · exact (Except.ok.inj accepted).symm
  subst same
  obtain ⟨_, _, confirmed, ok⟩ := returns_bind.mp ok
  obtain ⟨_, rfl⟩ := returns_refuse.mp confirmed
  obtain ⟨sensitive, first, opened, ok⟩ := returns_bind.mp ok
  obtain ⟨before, second, captured, ok⟩ := returns_bind.mp ok
  obtain ⟨snapshot, third, stored, ok⟩ := returns_bind.mp ok
  obtain ⟨restored, last, tried, ok⟩ := returns_bind.mp ok
  obtain ⟨made, rfl⟩ := returns_pure.mp ok
  have wrote : Returns (writeArchive faults sha256Hex cipher env now normal sensitive request.mode) third restored
      last := by
    rcases returns_tryCatch.mp tried with wrote | ⟨failure, failed, _, undone⟩
    · exact wrote
    · exact absurd undone not_returns_rollBack
  have unread : first.db = world.db ∧
      match normal.sensitive with
      | none => sensitive = none
      | some envelope => ∃ content, decryptJson envelope request.password = .ok content ∧
          sensitive = some content := by
    cases found : normal.sensitive with
    | none =>
        rw [found] at opened
        obtain ⟨made, rfl⟩ := returns_pure.mp opened
        exact ⟨rfl, made.symm⟩
    | some envelope =>
        rw [found] at opened
        obtain ⟨content, decrypted, made⟩ := returns_map.mp opened
        obtain ⟨accepted, rfl⟩ := returns_ofExcept.mp decrypted
        exact ⟨rfl, content, accepted, made.symm⟩
  refine ⟨sensitive, third, unread.2, ?_, by rw [← made]; exact wrote⟩
  rw [createRestoreSnapshot_returns stored, captureRestoreState_returns captured, unread.1]

end Phases

end NieSla.Backup
