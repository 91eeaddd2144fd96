import NieSla.Util.Text

/-! The manual order of the targets: how the database lists them, and how the ranks are written. -/
namespace NieSla.Targets

structure Target where
  id : String
  name : String
  groupName : String
  sortOrder : Option ℤ
deriving DecidableEq

/-- The table `targets`, whose ids are made by `sanitizeId` or `randomUUID`. -/
structure Table where
  rows : List Target
  distinct : (rows.map Target.id).Nodup
  clean : ∀ row ∈ rows, trim row.id = row.id ∧ row.id ≠ ""

section Listing

variable {κ : Type*} [LinearOrder κ] (ties : String ↪ κ)

/-- `COLLATE NOCASE` -/
def nocase (text : String) : List Char := text.toList.map Char.toLower

/-- `TARGET_ORDER_SQL`. Rows that are equal in it come in an order of the database's own, `ties`. -/
def sortKey (row : Target) : Bool ×ₗ ℤ ×ₗ List Char ×ₗ List Char ×ₗ κ :=
  toLex (row.sortOrder.isNone, toLex (row.sortOrder.getD 0,
    toLex (nocase row.groupName, toLex (nocase row.name, ties row.id))))

def orderBy (rows : List Target) : List Target :=
  rows.insertionSort fun first second => sortKey ties first ≤ sortKey ties second

/-- `SELECT id FROM targets ORDER BY ...` -/
def listedIds (rows : List Target) : List String :=
  (orderBy ties rows).map Target.id

end Listing

section Writing

/-- `UPDATE targets SET sort_order = ? WHERE id = ?` -/
def setSortOrder (rows : List Target) (value : ℤ) (id : String) : List Target :=
  rows.map fun row => if row.id = id then { row with sortOrder := some value } else row

/-- The statements of one batch. -/
def writeBatch (ids : List String) (rows : List Target) (batch : ℕ) : List Target :=
  let offset := 50 * batch
  (((ids.drop offset).take 50).zipIdx offset).foldl
    (fun rows entry => setSortOrder rows entry.2 entry.1) rows

/-- `for (let offset = 0; offset < ids.length; offset += 50)` -/
def writeOrders (ids : List String) (rows : List Target) : List Target :=
  (List.range ((ids.length + 49) / 50)).foldl (writeBatch ids) rows

def applyTargetSortOrder {κ : Type*} [LinearOrder κ] (ties : String ↪ κ) (rows : List Target)
    (id : String) (nextSortOrder : ℤ) : List Target :=
  let without := (listedIds ties rows).filter (· ≠ id)
  let index := max 0 (min (without.length : ℤ) (nextSortOrder - 1))
  writeOrders (without.insertIdx index.toNat id) rows

/-- The columns of the update that the listing reads. -/
def rename (id name groupName : String) (rows : List Target) : List Target :=
  rows.map fun row => if row.id = id then { row with name, groupName } else row

@[simp] theorem ids_setSortOrder (rows : List Target) (value : ℤ) (id : String) :
    (setSortOrder rows value id).map Target.id = rows.map Target.id := by
  rw [setSortOrder, List.map_map]
  refine List.map_congr_left fun row _ => ?_
  dsimp only [Function.comp_apply]
  split <;> rfl

@[simp] theorem ids_rename (id name groupName : String) (rows : List Target) :
    (rename id name groupName rows).map Target.id = rows.map Target.id := by
  rw [rename, List.map_map]
  refine List.map_congr_left fun row _ => ?_
  dsimp only [Function.comp_apply]
  split <;> rfl

theorem ids_foldl {β : Type*} {write : List Target → β → List Target}
    (keeps : ∀ rows entry, (write rows entry).map Target.id = rows.map Target.id) (entries : List β)
    (rows : List Target) : (entries.foldl write rows).map Target.id = rows.map Target.id := by
  induction entries generalizing rows with
  | nil => rfl
  | cons entry rest ih => rw [List.foldl_cons, ih, keeps]

@[simp] theorem ids_writeOrders (ids : List String) (rows : List Target) :
    (writeOrders ids rows).map Target.id = rows.map Target.id := by
  have batch (rows : List Target) (batch : ℕ) :
      (writeBatch ids rows batch).map Target.id = rows.map Target.id :=
    ids_foldl (fun rows (entry : String × ℕ) => ids_setSortOrder rows entry.2 entry.1) _ rows
  exact ids_foldl batch _ rows

end Writing

/-- The rows of a table, rewritten under the same ids. -/
def Table.withRows (table : Table) (rows : List Target) (same : rows.map Target.id = table.rows.map Target.id) :
    Table where
  rows
  distinct := same ▸ table.distinct
  clean row member := by
    have inside : row.id ∈ table.rows.map Target.id := same ▸ List.mem_map_of_mem member
    obtain ⟨old, given, is⟩ := List.mem_map.mp inside
    exact is ▸ table.clean old given

section Requests

variable {κ : Type*} [LinearOrder κ] (ties : String ↪ κ)

/-- `updateTargetRecord`, its part on the listing. The rank is what `Number` has read, and `none` for a
body that does not have one. -/
def updateTarget (table : Table) (id name groupName : String) (sortOrder : Option ℚ) :
    Except String Table :=
  match table.rows.find? fun row => row.id = id with
  | none => .error "Target not found"
  | some existing =>
      let renamed := rename id name groupName table.rows
      match sortOrder with
      | none => .ok (table.withRows renamed (ids_rename ..))
      | some value =>
          let parsed := ⌊value⌋
          if parsed < 1 ∨ 500 < parsed then .error "排序序号必须在 1-500 之间"
          -- `current` is the stored number, as it is.
          else if existing.sortOrder = some parsed then .ok (table.withRows renamed (ids_rename ..))
          else .ok (table.withRows (applyTargetSortOrder ties renamed id parsed)
            ((ids_writeOrders ..).trans (ids_rename ..)))

def normalizeTargetOrder (rawIds existingIds : List String) : Except String (List String) :=
  let maxTargets := 500
  let requestedIds := (rawIds.map trim).filter (· ≠ "")
  if requestedIds = [] ∨ maxTargets < requestedIds.length then
    .error s!"排序列表不能为空，且最多支持 {maxTargets} 个探针"
  else if ¬ requestedIds.Nodup then .error "排序列表中存在重复探针"
  else
    let unknown := requestedIds.filter (· ∉ existingIds)
    if unknown ≠ [] then .error ("排序列表包含不存在的探针：" ++ ", ".intercalate (unknown.take 3))
    else .ok (requestedIds ++ existingIds.filter (· ∉ requestedIds))

/-- `reorderTargets`, with the ids that it answers and the table that it leaves. -/
def reorderTargets (table : Table) (rawIds : List String) : Except String (List String × Table) := do
  let orderedIds ← normalizeTargetOrder rawIds (listedIds ties table.rows)
  pure (orderedIds, table.withRows (writeOrders orderedIds table.rows) (ids_writeOrders ..))

end Requests

end NieSla.Targets
