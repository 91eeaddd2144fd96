import NieSla.Lib.Blanks
import NieSla.Unlock.Table

/-! The services of a table, by their providers. -/
namespace NieSla.Unlock

theorem Row.forall_iff {property : Row → Prop} :
    (∀ row, property row) ↔ property .status ∧ property .region ∧ property .method := by
  constructor
  · intro all
    exact ⟨all _, all _, all _⟩
  · rintro ⟨status, region, method⟩ row
    cases row with
    | status => exact status
    | region => exact region
    | method => exact method

namespace Table

variable (table : Table)

/-- The number of the provider's column. -/
def index (provider : Provider) : Option Nat := table.columns.findIdx? fun column => column.provider = provider

/-- What the table shows of a provider. -/
def shown (provider : Provider) : Option Service :=
  (table.index provider).bind fun index => table.columns[index]?.bind Column.service

variable {table}

theorem index_eq_some {provider : Provider} {index : Nat} :
    table.index provider = some index ↔
      ∃ lt : index < table.columns.length, table.columns[index].provider = provider := by
  constructor
  · intro found
    obtain ⟨lt, named, -⟩ := List.findIdx?_eq_some_iff_getElem.mp found
    exact ⟨lt, of_decide_eq_true named⟩
  · rintro ⟨lt, named⟩
    rw [Table.index, List.findIdx?_eq_some_iff_getElem]
    refine ⟨lt, decide_eq_true named, ?_⟩
    intro j before same
    have inside : j < (table.columns.map Column.provider).length := by
      rw [List.length_map]
      exact before.trans lt
    have equal : (table.columns.map Column.provider)[j]? = (table.columns.map Column.provider)[index]? := by
      rw [List.getElem?_map, List.getElem?_map, List.getElem?_eq_getElem lt,
        List.getElem?_eq_getElem (before.trans lt), Option.map_some, Option.map_some, named]
      exact congrArg some (of_decide_eq_true same)
    exact before.ne ((List.getElem?_inj inside table.distinct).mp equal)

theorem shown_of_index {provider : Provider} {index : Nat} (found : table.index provider = some index) :
    table.shown provider = provider.service (Blanks.valueAt (table.values .status) index)
      (Blanks.valueAt (table.values .region) index) (Blanks.valueAt (table.values .method) index) := by
  obtain ⟨lt, rfl⟩ := index_eq_some.mp found
  simp [shown, found, lt, Column.service, Blanks.valueAt, values]

theorem shown_of_none {provider : Provider} (missing : table.index provider = none) :
    table.shown provider = none := by
  rw [shown, missing]
  rfl

theorem id_of_shown {provider : Provider} {service : Service} (found : table.shown provider = some service) :
    service.id = provider.id := by
  cases place : table.index provider with
  | none => cases (shown_of_none place).symm.trans found
  | some index => exact id_of_service ((shown_of_index place).symm.trans found)

theorem mem_services {service : Service} : service ∈ table.services ↔ ∃ p, table.shown p = some service := by
  rw [services, List.mem_filterMap]
  constructor
  · rintro ⟨column, member, built⟩
    obtain ⟨index, lt, rfl⟩ := List.getElem_of_mem member
    refine ⟨table.columns[index].provider, ?_⟩
    rw [shown, index_eq_some.mpr ⟨lt, rfl⟩]
    simpa [lt] using built
  · rintro ⟨p, found⟩
    obtain ⟨index, -, built⟩ := Option.bind_eq_some_iff.mp found
    obtain ⟨column, place, built⟩ := Option.bind_eq_some_iff.mp built
    exact ⟨column, List.mem_of_getElem? place, built⟩

theorem nodup_services : table.services.Nodup := by
  have apart : table.columns.Pairwise fun column other => column.provider ≠ other.provider :=
    List.pairwise_map.mp table.distinct
  rw [services, List.nodup_iff_pairwise_ne, List.pairwise_filterMap]
  apply apart.imp
  intro column other ne service built service' built' same
  subst same
  exact ne (Provider.id_injective ((id_of_service built).symm.trans (id_of_service built')))

end Table

end NieSla.Unlock
