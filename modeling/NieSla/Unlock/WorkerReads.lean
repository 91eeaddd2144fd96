import NieSla.Unlock.Shown
import NieSla.Unlock.WorkerLines

/-! When the Worker returns the services of a table. -/
namespace NieSla.Unlock.Worker
open Blanks

/-- The limit of the values of a row. -/
def limit : Row → Nat
  | .status => 80
  | .region => 40
  | .method => 40

@[simp] theorem units_append (first second : List Char) : units (first ++ second) = units first + units second := by
  simp [units]

@[simp] theorem length_assign (starts : List Nat) (values : List (List Char)) (passed : Nat)
    (tokens : List (Nat × List Char)) : (assign starts values passed tokens).length = values.length := by
  induction tokens generalizing values passed with
  | nil => rfl
  | cons token rest ih =>
      obtain ⟨position, token⟩ := token
      rw [assign]
      split
      · exact ih _ _
      · split
        · rfl
        · rw [ih]
          split
          · exact List.length_set
          · rfl

theorem normalize_name (provider : Provider) (status region method : List Char) :
    normalizeNqMediaService provider.name status region method =
      provider.service (pick status 80) (pick region 40) (pick method 40) := by
  have name : pick provider.name 40 = provider.name ∧ provider.name ≠ [] := by cases provider <;> decide
  have known : nqMediaProviders.lookup
      ((provider.name.flatMap lowerChar).filter fun c => c.isLower || c.isDigit || c = '+') = some provider := by
    cases provider <;> decide
  simp only [normalizeNqMediaService, name.1, name.2, known, false_or]
  rfl

variable (table : Table)

/-- The positions at which the names start. -/
def starts : List Nat := (placed 8 4 table.names).map Prod.fst

def tokens (row : Row) : List (Nat × List Char) := Words.tokens isSpace codeUnits 3 (render 6 (table.cells row))

/-- The values that the Worker finds in a row, by their columns. -/
def rowValues (row : Row) : List (List Char) :=
  assign (starts table) ((starts table).map fun _ => []) 0 (tokens table row)

theorem solid_name (provider : Provider) : ∀ c ∈ provider.name, isSpace c = false := by
  have all : provider.name.all (!isSpace ·) = true := by cases provider <;> decide
  simpa using all

theorem nqMediaHeader_text : nqMediaHeader table.lines = placed 8 4 table.names := by
  have names : ∀ text ∈ placed 8 4 table.names, text.2 ≠ [] := by
    intro text member
    have among : text.2 ∈ table.names.map Prod.snd := by
      rw [← map_snd_placed 8 4]
      exact List.mem_map_of_mem member
    obtain ⟨name, found, same⟩ := List.mem_map.mp among
    obtain ⟨column, -, rfl⟩ := List.mem_map.mp found
    rw [← same]
    change column.provider.name ≠ []
    cases column.provider <;> decide
  have solid : ∀ text ∈ table.names, ∀ c ∈ text.2, isSpace c = false := by
    simp only [Table.names, List.forall_mem_map]
    exact fun column _ => solid_name column.provider
  have after : afterLabel "服务商" table.header = some (render 8 table.names) :=
    @afterLabel_label "服务商" (render 8 table.names)
  have blank : ∀ c ∈ (render 8 table.names).takeWhile isSpace, isSpace c = true :=
    fun c => List.mem_takeWhile_imp
  have split := List.takeWhile_append_dropWhile (p := isSpace) (l := render 8 table.names)
  have size : units table.header - units ((render 8 table.names).dropWhile isSpace) =
      4 + units ((render 8 table.names).takeWhile isSpace) := by
    have label : units "服务商：".toList = 4 := by decide
    rw [Table.header, units_append, label]
    nth_rewrite 1 [← split]
    rw [units_append]
    omega
  simp only [nqMediaHeader, labelledLine_header, after, Option.map_some, Option.getD_some, size]
  calc Words.tokens isSpace codeUnits (4 + units ((render 8 table.names).takeWhile isSpace))
        ((render 8 table.names).dropWhile isSpace)
      = Words.tokens isSpace codeUnits 4 (render 8 table.names) := by
        rw [units, ← Words.tokens_spaces blank, split]
    _ = placed 8 4 table.names := by
        rw [tokens_render rfl table.spaced_names solid, List.filter_eq_self.mpr (by simpa using names)]

theorem nqMediaRow_text (row : Row) : nqMediaRow table.lines row.label (starts table) = rowValues table row := by
  have after : afterLabel row.label (table.line row) = some (render 6 (table.cells row)) := by
    have wide : "：".toList = ['：'] := rfl
    rw [Table.line, String.toList_append, wide, List.append_assoc, List.singleton_append, afterLabel_label]
  have size : units (table.line row) - units (render 6 (table.cells row)) = 3 := by
    have label : units (row.label ++ "：").toList = 3 := by cases row <;> decide
    rw [Table.line, units_append, label]
    omega
  simp only [nqMediaRow, labelledLine_row, size, after, Option.getD_some]
  rfl

@[simp] theorem length_starts : (starts table).length = table.columns.length := by
  rw [starts, List.length_map, ← List.length_map (f := Prod.snd), map_snd_placed, List.length_map, Table.names,
    List.length_map]

@[simp] theorem length_rowValues (row : Row) : (rowValues table row).length = table.columns.length := by
  rw [rowValues, length_assign, List.length_map, length_starts]

/-- What the Worker returns for a provider. -/
def read (provider : Provider) : Option Service :=
  (table.index provider).bind fun index =>
    provider.service (pick (valueAt (rowValues table .status) index) (limit .status))
      (pick (valueAt (rowValues table .region) index) (limit .region))
      (pick (valueAt (rowValues table .method) index) (limit .method))

theorem read_column {index : Nat} (lt : index < table.columns.length) :
    read table table.columns[index].provider =
      table.columns[index].provider.service (pick (valueAt (rowValues table .status) index) (limit .status))
        (pick (valueAt (rowValues table .region) index) (limit .region))
        (pick (valueAt (rowValues table .method) index) (limit .method)) := by
  rw [read, Table.index_eq_some.mpr ⟨lt, rfl⟩]
  rfl

theorem parseNqMediaServices_text :
    parseNqMediaServices table.text = table.columns.filterMap fun column => read table column.provider := by
  have status := nqMediaRow_text table .status
  have region := nqMediaRow_text table .region
  have method := nqMediaRow_text table .method
  simp only [Row.label, starts] at status region method
  have names : (placed 8 4 table.names).map Prod.snd = table.columns.map fun column => column.provider.name := by
    rw [map_snd_placed, Table.names, List.map_map]
    rfl
  simp only [parseNqMediaServices, block_text, nqMediaHeader_text, names, status, region, method, length_rowValues,
    List.length_map, max_self]
  split
  next empty => rw [List.map_eq_nil_iff.mp empty, List.filterMap_nil]
  next =>
    apply filterMap_range
    intro index lt
    have name : (table.columns.map fun column => column.provider.name)[index]?.getD [] =
        table.columns[index].provider.name := by simp [lt]
    rw [name, normalize_name, read_column table lt]
    rfl

theorem id_of_read {provider : Provider} {service : Service} (found : read table provider = some service) :
    service.id = provider.id := by
  obtain ⟨index, -, built⟩ := Option.bind_eq_some_iff.mp found
  exact id_of_service built

theorem mem_parse {service : Service} :
    service ∈ parseNqMediaServices table.text ↔ ∃ p, read table p = some service := by
  rw [parseNqMediaServices_text, List.mem_filterMap]
  constructor
  · rintro ⟨column, -, found⟩
    exact ⟨_, found⟩
  · rintro ⟨p, found⟩
    obtain ⟨index, place, -⟩ := Option.bind_eq_some_iff.mp found
    obtain ⟨lt, rfl⟩ := Table.index_eq_some.mp place
    exact ⟨_, List.getElem_mem lt, found⟩

theorem nodup_parse : (parseNqMediaServices table.text).Nodup := by
  have apart : table.columns.Pairwise fun column other => column.provider ≠ other.provider :=
    List.pairwise_map.mp table.distinct
  rw [parseNqMediaServices_text, List.nodup_iff_pairwise_ne, List.pairwise_filterMap]
  apply apart.imp
  intro column other ne service built service' built' same
  subst same
  exact ne (Provider.id_injective ((id_of_read table built).symm.trans (id_of_read table built')))

/-- The Worker returns the services of the table exactly when it reads the cells of each column right. -/
theorem perm_iff :
    (parseNqMediaServices table.text).Perm table.services ↔
      ∀ row, ∀ i < table.columns.length,
        pick (valueAt (rowValues table row) i) (limit row) = valueAt (table.values row) i := by
  rw [perm_iff_of_provider (nodup_parse table) Table.nodup_services (fun _ => mem_parse table)
    (fun _ => Table.mem_services) (fun _ _ => id_of_read table) (fun _ _ => Table.id_of_shown)]
  constructor
  · intro same row i lt
    have equal := same table.columns[i].provider
    rw [read_column table lt, Table.shown_of_index (Table.index_eq_some.mpr ⟨lt, rfl⟩), service_inj] at equal
    revert row
    exact Row.forall_iff.mpr equal
  · intro inside provider
    cases place : table.index provider with
    | none =>
        rw [Table.shown_of_none place, read, place]
        rfl
    | some i =>
        obtain ⟨lt, rfl⟩ := Table.index_eq_some.mp place
        rw [read_column table lt, Table.shown_of_index place, service_inj]
        exact Row.forall_iff.mp fun row => inside row i lt

end NieSla.Unlock.Worker
