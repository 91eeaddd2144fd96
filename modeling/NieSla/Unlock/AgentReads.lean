import NieSla.Unlock.AgentValues

/-! When the agent returns the services of a table. -/
namespace NieSla.Unlock.Agent
open Blanks

variable (table : Table)

/-- What the agent returns for a provider: a provider that the header leaves out takes the values at its default
index. -/
def read (provider : Provider) : Option Service :=
  let index := (table.index provider).getD (unlockServiceOrder.idxOf provider)
  provider.service (valueAt (unlockRowValues (rowLine table .status)) index)
    (valueAt (unlockRowValues (rowLine table .region)) index)
    (valueAt (unlockRowValues (rowLine table .method)) index)

theorem providers_text :
    (((section_ table.text).find? fun line => contains line "服务商").map unlockRowValues).getD [] =
      table.columns.map fun column => column.provider.name := by
  have heading : contains table.heading.text "服务商" = false := by cases table.heading <;> decide
  rw [← unlockRowValues_header]
  rcases section_text table with header | whole
  · simp [header, tableLines, contains_header]
  · simp [whole, tableLines, heading, contains_header]

theorem findIdx?_names (provider : Provider) :
    ((table.columns.map fun column => column.provider.name).findIdx? fun name =>
      serviceKey name = serviceKey provider.name) = table.index provider := by
  rw [List.findIdx?_map]
  simp only [Function.comp_def, serviceKey_name_inj]
  rfl

theorem parseUnlockServices_text : parseUnlockServices table.text = unlockServiceOrder.filterMap (read table) := by
  have status := unlockSectionRow_text table .status
  have region := unlockSectionRow_text table .region
  have method := unlockSectionRow_text table .method
  simp only [Row.label] at status region method
  simp only [parseUnlockServices, providers_text, findIdx?_names, status, region, method]
  rfl

theorem mem_parse {service : Service} :
    service ∈ parseUnlockServices table.text ↔ ∃ p, read table p = some service := by
  rw [parseUnlockServices_text, List.mem_filterMap]
  simp only [mem_unlockServiceOrder, true_and]

theorem nodup_parse : (parseUnlockServices table.text).Nodup := by
  rw [parseUnlockServices_text]
  apply nodup_unlockServiceOrder.filterMap
  intro p q service found found'
  exact Provider.id_injective ((id_of_service found).symm.trans (id_of_service found'))

/-- The agent returns the services of the table exactly when it reads the cells of each column right, and finds
nothing for a provider without a column. -/
theorem perm_iff :
    (parseUnlockServices table.text).Perm table.services ↔
      (∀ row, ∀ i < table.columns.length,
        valueAt (unlockRowValues (rowLine table row)) i = valueAt (table.values row) i) ∧
      ∀ provider, table.index provider = none → ∀ row,
        valueAt (unlockRowValues (rowLine table row)) (unlockServiceOrder.idxOf provider) = [] := by
  rw [perm_iff_of_provider (nodup_parse table) Table.nodup_services (fun _ => mem_parse table)
    (fun _ => Table.mem_services) (fun _ _ => id_of_service) (fun _ _ => Table.id_of_shown)]
  constructor
  · intro same
    constructor
    · intro row i lt
      have place := Table.index_eq_some.mpr ⟨lt, rfl⟩
      have equal := same table.columns[i].provider
      simp only [read, place, Option.getD_some, Table.shown_of_index place, service_inj] at equal
      revert row
      exact Row.forall_iff.mpr equal
    · intro provider missing
      have equal := same provider
      simp only [read, missing, Option.getD_none, Table.shown_of_none missing, service_eq_none] at equal
      exact Row.forall_iff.mpr equal
  · rintro ⟨inside, outside⟩ provider
    cases place : table.index provider with
    | none =>
        simp only [read, place, Option.getD_none, Table.shown_of_none place, service_eq_none]
        exact Row.forall_iff.mp (outside provider place)
    | some i =>
        obtain ⟨lt, -⟩ := Table.index_eq_some.mp place
        simp only [read, place, Option.getD_some, Table.shown_of_index place, service_inj]
        exact Row.forall_iff.mp fun row => inside row i lt

end NieSla.Unlock.Agent
