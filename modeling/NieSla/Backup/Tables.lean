import NieSla.Auth.Rotation
import NieSla.Lib.Fallible
import NieSla.Lib.Table

/-! The tables that a backup reads and writes, and the operations on them. An operation may fail, and
a batch of statements is one operation. -/
namespace NieSla.Backup

open Auth (Subject SubjectType Failure)

/-- A value of a column or of a field of an archive: a number that is no integer by its literal, and
an object or an array, which cannot be bound, by what `String` makes of it. -/
inductive Value where
  | null
  | integer (n : Int)
  | real (literal : String)
  | text (content : String)
  | other (display : String)
deriving DecidableEq

namespace Value

/-- `String(value || '')` -/
def display : Value → String
  | .null => ""
  | .integer n => if n = 0 then "" else toString n
  | .real literal => literal
  | .text content => content
  | .other display => display

/-- What a `TEXT NOT NULL` column stores. -/
def asText : Value → Option String
  | .null | .other _ => none
  | .integer n => some (toString n)
  | .real literal => some literal
  | .text content => some content

/-- What an `INTEGER` column stores, of which the code writes integers only. -/
def asInteger : Value → Option Int
  | .integer n => some n
  | .text content => content.toInt?
  | .null | .real _ | .other _ => none

end Value

abbrev Fields := List (String × Value)

namespace Fields

def text (fields : Fields) (column : String) : Option String := (fields.lookup column).bind Value.asText

def integer (fields : Fields) (column : String) : Option Int := (fields.lookup column).bind Value.asInteger

/-- A column that may be `NULL`. -/
def integer? (fields : Fields) (column : String) : Option (Option Int) :=
  match fields.lookup column with
  | none | some .null => some none
  | some value => value.asInteger.map some

end Fields

inductive PortableTable where
  | targets
  | pingTargets
  | latencyAgents
  | proxyTargets
deriving DecidableEq

inductive SensitiveTable where
  | agentCredentials
  | proxyTargetSecrets
deriving DecidableEq

inductive TableName where
  | portable (table : PortableTable)
  | sensitive (table : SensitiveTable)
  | appMeta
deriving DecidableEq

def portableTables : List PortableTable := [.targets, .pingTargets, .latencyAgents, .proxyTargets]

def sensitiveTables : List SensitiveTable := [.agentCredentials, .proxyTargetSecrets]

/-! The tables of which the columns are the same in every installation. -/

structure MetaRow where
  key : String
  value : String
  updatedAt : Int
deriving DecidableEq

structure CredentialRow where
  subject : Subject
  tokenHash : String
  tokenCiphertext : String
  createdAt : Int
  updatedAt : Int
  lastUsedAt : Option Int
deriving DecidableEq

structure ProxySecretRow where
  targetId : String
  agentId : String
  secretCiphertext : String
  updatedAt : Int
deriving DecidableEq

def metaSchema : Schema Value MetaRow where
  columns := ["key", "value", "updated_at"]
  named := by simp
  fieldsOf row := [("key", .text row.key), ("value", .text row.value), ("updated_at", .integer row.updatedAt)]
  stored fields := do
    return ⟨← Fields.text fields "key", ← Fields.text fields "value", ← Fields.integer fields "updated_at"⟩
  clash first second := first.key = second.key
  decidable_clash _ _ := inferInstanceAs (Decidable (_ = _))
  columns_fieldsOf _ := rfl
  stored_fieldsOf _ := rfl

def subjectTypeText : SubjectType → String
  | .agent => "agent"
  | .latency => "latency"

def subjectTypeOf (text : String) : Option SubjectType :=
  if text = "agent" then some .agent else if text = "latency" then some .latency else none

theorem subjectTypeOf_text (type : SubjectType) : subjectTypeOf (subjectTypeText type) = some type := by
  cases type <;> rfl

def credentialSchema : Schema Value CredentialRow where
  columns := ["subject_type", "subject_id", "token_hash", "token_ciphertext", "created_at", "updated_at",
    "last_used_at"]
  named := by simp
  fieldsOf row :=
    [("subject_type", .text (subjectTypeText row.subject.type)), ("subject_id", .text row.subject.id),
      ("token_hash", .text row.tokenHash), ("token_ciphertext", .text row.tokenCiphertext),
      ("created_at", .integer row.createdAt), ("updated_at", .integer row.updatedAt),
      ("last_used_at", row.lastUsedAt.elim .null .integer)]
  stored fields := do
    let type ← (Fields.text fields "subject_type").bind subjectTypeOf
    return ⟨⟨type, ← Fields.text fields "subject_id"⟩, ← Fields.text fields "token_hash",
      ← Fields.text fields "token_ciphertext", ← Fields.integer fields "created_at",
      ← Fields.integer fields "updated_at", ← Fields.integer? fields "last_used_at"⟩
  clash first second := first.subject = second.subject ∨ first.tokenHash = second.tokenHash
  decidable_clash _ _ := inferInstanceAs (Decidable (_ ∨ _))
  columns_fieldsOf _ := rfl
  stored_fieldsOf row := by
    obtain ⟨⟨type, id⟩, _, _, _, _, _ | _⟩ := row
    · cases type <;> rfl
    · cases type <;> rfl

def proxySecretSchema : Schema Value ProxySecretRow where
  columns := ["target_id", "agent_id", "secret_ciphertext", "updated_at"]
  named := by simp
  fieldsOf row :=
    [("target_id", .text row.targetId), ("agent_id", .text row.agentId),
      ("secret_ciphertext", .text row.secretCiphertext), ("updated_at", .integer row.updatedAt)]
  stored fields := do
    return ⟨← Fields.text fields "target_id", ← Fields.text fields "agent_id",
      ← Fields.text fields "secret_ciphertext", ← Fields.integer fields "updated_at"⟩
  clash first second := first.targetId = second.targetId
  decidable_clash _ _ := inferInstanceAs (Decidable (_ = _))
  columns_fieldsOf _ := rfl
  stored_fieldsOf _ := rfl

/-- The columns of the portable tables depend on the upgrades that an installation went through. -/
structure Installation where
  PortableRow : PortableTable → Type
  portable : ∀ table, Schema Value (PortableRow table)

namespace Installation

abbrev Row (installation : Installation) : TableName → Type
  | .portable table => installation.PortableRow table
  | .sensitive .agentCredentials => CredentialRow
  | .sensitive .proxyTargetSecrets => ProxySecretRow
  | .appMeta => MetaRow

abbrev schema (installation : Installation) : (name : TableName) → Schema Value (installation.Row name)
  | .portable table => installation.portable table
  | .sensitive .agentCredentials => credentialSchema
  | .sensitive .proxyTargetSecrets => proxySecretSchema
  | .appMeta => metaSchema

end Installation

abbrev Database (installation : Installation) := (name : TableName) → Table (installation.schema name)

namespace Database

variable {installation : Installation} (db : Database installation)

def metaRows : List MetaRow := (db .appMeta).rows

def credentialRows : List CredentialRow := (db (.sensitive .agentCredentials)).rows

def proxySecretRows : List ProxySecretRow := (db (.sensitive .proxyTargetSecrets)).rows

end Database

/-- A statement; nothing where a constraint fails. -/
abbrev Statement (installation : Installation) := Database installation → Option (Database installation)

/-- The database, and how many operations were started. -/
structure World (installation : Installation) where
  db : Database installation
  operations : Nat

abbrev Session (installation : Installation) (α : Type) := Fallible Failure (World installation) α

/-- An item of an array of an archive. -/
inductive Entry where
  | null
  | other
  | object (fields : Fields)
deriving DecidableEq

/-- What an archive has where an array is expected: a falsy value, something else or the array. -/
inductive Listing where
  | absent
  | other
  | rows (entries : List Entry)
deriving DecidableEq

/-- Runs of `size` items; the fuel is the length of the list. -/
def cutEvery {α : Type} (size : Nat) : Nat → List α → List (List α)
  | 0, _ | _ + 1, [] => []
  | fuel + 1, item :: rest => (item :: rest).take size :: cutEvery size fuel ((item :: rest).drop size)

theorem flatten_cutEvery {α : Type} {size : Nat} (some_ : 0 < size) (fuel : Nat) (items : List α)
    (enough : items.length ≤ fuel) : (cutEvery size fuel items).flatten = items := by
  induction fuel generalizing items with
  | zero => rw [cutEvery, List.flatten_nil, List.eq_nil_of_length_eq_zero (Nat.le_zero.mp enough)]
  | succ fuel ih =>
      cases items with
      | nil => rfl
      | cons item rest =>
          have fits : ((item :: rest).drop size).length ≤ fuel := by
            rw [List.length_drop]
            simp only [List.length_cons] at enough ⊢
            omega
          rw [cutEvery, List.flatten_cons, ih _ fits, List.take_append_drop]

section Operations

variable {installation : Installation} (faults : Nat → Option String)

/-- The next operation, which fails where `faults` says so. -/
def operation {α : Type} (effect : Database installation → Option (α × Database installation)) :
    Session installation α :=
  .step fun world =>
    match faults world.operations, effect world.db with
    | none, some (answer, db) => (.ok answer, ⟨db, world.operations + 1⟩)
    | none, none => (.error (.error "D1_ERROR"), ⟨world.db, world.operations + 1⟩)
    | some message, _ => (.error (.error message), ⟨world.db, world.operations + 1⟩)

def query {α : Type} (read : Database installation → α) : Session installation α :=
  operation faults fun db => some (read db, db)

def applyAll (statements : List (Statement installation)) : Statement installation :=
  fun db => statements.foldlM (fun db statement => statement db) db

def batch (statements : List (Statement installation)) : Session installation Unit :=
  operation faults fun db => (applyAll statements db).map fun db => ((), db)

def runD1Batches (statements : List (Statement installation)) : Session installation Unit :=
  (cutEvery 50 statements.length statements).forM (batch faults)

def entryOf (name : TableName) (row : installation.Row name) : Entry :=
  .object ((installation.schema name).fieldsOf row)

def tableRows (name : TableName) : Session installation (List Entry) :=
  query faults fun db => (db name).rows.map (entryOf name)

/-- `DELETE FROM` -/
def deleteTable (name : TableName) : Statement installation :=
  fun db => some (Function.update db name .empty)

/-- The `INSERT OR REPLACE` of an entry; without a known column there is none. -/
def insertStatement (name : TableName) : Entry → Option (Statement installation)
  | .null | .other => none
  | .object fields =>
      let kept := fields.filter fun field => field.1 ∈ (installation.schema name).columns
      if kept.isEmpty then none
      else some fun db =>
        ((installation.schema name).stored kept).map fun row =>
          Function.update db name ((db name).insertOrReplace row)

def restoreRows (name : TableName) : Listing → Session installation Nat
  | .absent | .other | .rows [] => pure 0
  | .rows (first :: rest) => do
      -- `tableColumns`
      query faults fun _ => ()
      let statements := ((first :: rest).take 10000).filterMap (insertStatement name)
      runD1Batches faults statements
      return statements.length

end Operations

section Laws

open Fallible

variable {installation : Installation} {faults : Nat → Option String} {α : Type}
  {world after : World installation} {name other : TableName} {answer : α}

/-- An operation that returns has had its effect. -/
theorem effect_of_operation {effect : Database installation → Option (α × Database installation)}
    (ok : Returns (operation faults effect) world answer after) :
    effect world.db = some (answer, after.db) := by
  rw [operation, returns_step] at ok
  split at ok
  · rename_i found
    rw [found]
    cases ok
    rfl
  · cases ok
  · cases ok

theorem query_returns {read : Database installation → α} (ok : Returns (query faults read) world answer after) :
    after.db = world.db ∧ answer = read world.db := by
  have effect := effect_of_operation ok
  rw [Option.some.injEq, Prod.mk.injEq] at effect
  exact ⟨effect.2.symm, effect.1.symm⟩

theorem applyAll_append (first second : List (Statement installation)) (db : Database installation) :
    applyAll (first ++ second) db = (applyAll first db).bind (applyAll second) := by
  rw [applyAll, List.foldlM_append]
  rfl

theorem batches_return {batches : List (List (Statement installation))}
    (ok : Returns (batches.forM (batch faults)) world () after) :
    applyAll batches.flatten world.db = some after.db := by
  induction batches generalizing world with
  | nil => rw [(returns_pure.mp ok).2]; rfl
  | cons first rest ih =>
      obtain ⟨_, between, one, others⟩ := returns_bind.mp ok
      have effect := effect_of_operation one
      obtain ⟨db, applied, same⟩ := Option.map_eq_some_iff.mp effect
      rw [Prod.mk.injEq] at same
      rw [List.flatten_cons, applyAll_append, applied, same.2]
      exact ih others

theorem runD1Batches_returns {statements : List (Statement installation)}
    (ok : Returns (runD1Batches faults statements) world () after) :
    applyAll statements world.db = some after.db := by
  have applied := batches_return ok
  rwa [flatten_cutEvery (by decide) _ _ le_rfl] at applied

theorem insertStatement_entryOf (row : installation.Row name) :
    insertStatement name (entryOf name row) =
      some fun db => some (Function.update db name ((db name).insertOrReplace row)) := by
  have columns := (installation.schema name).columns_fieldsOf row
  have all : ((installation.schema name).fieldsOf row).filter
      (fun field => field.1 ∈ (installation.schema name).columns) = (installation.schema name).fieldsOf row := by
    refine List.filter_eq_self.mpr fun field member => decide_eq_true ?_
    rw [← columns]
    exact List.mem_map_of_mem member
  have some_ : ((installation.schema name).fieldsOf row).isEmpty = false := by
    rw [List.isEmpty_eq_false_iff]
    intro none_
    rw [none_] at columns
    exact (installation.schema name).named columns.symm
  simp only [insertStatement, entryOf, all, some_, Bool.false_eq_true, ↓reduceIte,
    (installation.schema name).stored_fieldsOf, Option.map_some]

theorem applyAll_inserts (rows : List (installation.Row name)) (db : Database installation) :
    applyAll ((rows.map (entryOf name)).filterMap (insertStatement name)) db =
      some (Function.update db name ((db name).insertAll rows)) := by
  induction rows generalizing db with
  | nil => rw [Table.insertAll_nil, Function.update_eq_self]; rfl
  | cons row rest ih =>
      rw [List.map_cons, List.filterMap_cons_some (insertStatement_entryOf row), ← List.singleton_append,
        applyAll_append]
      have one : applyAll [fun db : Database installation =>
          some (Function.update db name ((db name).insertOrReplace row))] db =
          some (Function.update db name ((db name).insertOrReplace row)) := rfl
      rw [one, Option.bind_some, ih, Function.update_self, Function.update_idem, Table.insertAll_cons]

/-- Rows that a table has shown are inserted as they were, the first 10,000 of them. -/
theorem restoreRows_returns {rows : List (installation.Row name)} {count : Nat}
    (ok : Returns (restoreRows faults name (.rows (rows.map (entryOf name)))) world count after) :
    after.db = Function.update world.db name ((world.db name).insertAll (rows.take 10000)) := by
  cases rows with
  | nil =>
      rw [← (returns_pure.mp ok).2, List.take_nil, Table.insertAll_nil, Function.update_eq_self]
  | cons row rest =>
      obtain ⟨_, between, columns, ok⟩ := returns_bind.mp ok
      obtain ⟨_, last, written, ok⟩ := returns_bind.mp ok
      have applied := runD1Batches_returns written
      rw [← List.map_cons, ← List.map_take, applyAll_inserts, Option.some.injEq, (query_returns columns).1]
        at applied
      rw [← (returns_pure.mp ok).2, ← applied]

theorem restoreRows_absent {count : Nat} (ok : Returns (restoreRows faults name .absent) world count after) :
    after.db = world.db := by
  rw [(returns_pure.mp ok).2]

theorem applyAll_frame {statements : List (Statement installation)}
    (frame : ∀ statement ∈ statements, ∀ db next, statement db = some next → next other = db other)
    {db next : Database installation} (applied : applyAll statements db = some next) : next other = db other := by
  induction statements generalizing db with
  | nil => rw [← Option.some.inj applied]
  | cons first rest ih =>
      obtain ⟨between, one, more⟩ := Option.bind_eq_some_iff.mp applied
      rw [ih (fun statement later => frame statement (List.mem_cons_of_mem _ later)) more,
        frame first List.mem_cons_self db between one]

theorem insertStatement_frame {entry : Entry} {statement : Statement installation} (apart : other ≠ name)
    (made : insertStatement name entry = some statement) (db next : Database installation)
    (applied : statement db = some next) : next other = db other := by
  cases entry with
  | null | other => cases made
  | object fields =>
      rw [insertStatement] at made
      split at made
      · cases made
      · rw [← Option.some.inj made] at applied
        obtain ⟨row, _, written⟩ := Option.map_eq_some_iff.mp applied
        rw [← written, Function.update_of_ne apart]

/-- Whatever stands in an archive for a table, the other tables stay as they are. -/
theorem restoreRows_frame (apart : other ≠ name) {listing : Listing} {count : Nat}
    (ok : Returns (restoreRows faults name listing) world count after) : after.db other = world.db other := by
  unfold restoreRows at ok
  split at ok
  · rw [(returns_pure.mp ok).2]
  · rw [(returns_pure.mp ok).2]
  · rw [(returns_pure.mp ok).2]
  · obtain ⟨_, between, columns, ok⟩ := returns_bind.mp ok
    obtain ⟨_, last, written, ok⟩ := returns_bind.mp ok
    have applied := runD1Batches_returns written
    rw [← (returns_pure.mp ok).2, applyAll_frame ?_ applied, (query_returns columns).1]
    intro statement member
    obtain ⟨entry, _, made⟩ := List.mem_filterMap.mp member
    exact insertStatement_frame apart made

theorem tableRows_returns {entries : List Entry} (ok : Returns (tableRows faults name) world entries after) :
    after.db = world.db ∧ entries = (world.db name).rows.map (entryOf name) :=
  query_returns ok

end Laws

end NieSla.Backup
