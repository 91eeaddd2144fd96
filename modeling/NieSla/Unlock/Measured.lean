import NieSla.Unlock.WorkerValues

/-! Where no character takes more code units than display columns, every cell starts nearest to its own column: the
Worker's search for the column goes wrong behind combining characters and behind narrow characters beyond U+FFFF
only. -/
namespace NieSla.Unlock.Worker
open Blanks

/-- The text takes no more code units than display columns. -/
def Measured (text : List Char) : Prop := ∀ c ∈ text, codeUnits c ≤ charWidth c

theorem units_le {text : List Char} (measured : Measured text) : units text ≤ displayWidth text :=
  List.sum_le_sum measured

theorem units_name (provider : Provider) : units provider.name = displayWidth provider.name := by
  cases provider <;> decide

/-- How far the texts of a line are off, in code units, behind the display columns. -/
def drift (texts : List (Nat × List Char)) : Int :=
  (texts.map fun text => (units text.2 : Int) - displayWidth text.2).sum

/-- A text stands at its display column, up to the drift of the texts in front of it. -/
theorem position_eq {left width before : Nat} {texts : List (Nat × List Char)} (spaced : Spaced left texts)
    (le : width ≤ left) {i : Nat} (lt : i < texts.length) :
    ((((placed width before texts)[i]?.map Prod.fst).getD 0 : Nat) : Int) =
      before + (texts[i].1 - width) + drift (texts.take i) := by
  induction texts generalizing left width before i with
  | nil => exact absurd lt (Nat.not_lt_zero i)
  | cons text rest ih =>
      have behind := spaced.1
      cases i with
      | zero =>
          simp only [placed, List.getElem?_cons_zero, Option.map_some, Option.getD_some, List.getElem_cons_zero,
            List.take_zero, drift, List.map_nil, List.sum_nil]
          omega
      | succ i =>
          have later := @ih _ (text.1 + displayWidth text.2) (before + (text.1 - width) + units text.2) spaced.2
            (Nat.le_succ _) i (Nat.lt_of_succ_lt_succ lt)
          simp only [placed, List.getElem?_cons_succ, List.getElem_cons_succ, later, drift, List.take_succ_cons,
            List.map_cons, List.sum_cons]
          omega

theorem drift_nonpos {texts : List (Nat × List Char)}
    (measured : ∀ text ∈ texts, units text.2 ≤ displayWidth text.2) : drift texts ≤ 0 := by
  induction texts with
  | nil => exact le_rfl
  | cons text rest ih =>
      obtain ⟨first, others⟩ := List.forall_mem_cons.mp measured
      have later := ih others
      simp only [drift, List.map_cons, List.sum_cons] at later ⊢
      omega

theorem le_start {left : Nat} {texts : List (Nat × List Char)} (spaced : Spaced left texts) {i : Nat}
    (lt : i < texts.length) : left ≤ texts[i].1 := by
  induction texts generalizing left i with
  | nil => exact absurd lt (Nat.not_lt_zero i)
  | cons text rest ih =>
      have behind := spaced.1
      cases i with
      | zero => exact behind
      | succ i =>
          have later := ih spaced.2 (Nat.lt_of_succ_lt_succ lt)
          rw [List.getElem_cons_succ]
          omega

/-- A text starts behind the end of every text in front of it. -/
theorem start_lt {left : Nat} {texts : List (Nat × List Char)} (spaced : Spaced left texts) {i j : Nat} (lt : i < j)
    (inside : j < texts.length) : texts[i].1 + displayWidth texts[i].2 + 1 ≤ texts[j].1 := by
  induction texts generalizing left i j with
  | nil => exact absurd inside (Nat.not_lt_zero j)
  | cons text rest ih =>
      cases j with
      | zero => exact absurd lt (Nat.not_lt_zero i)
      | succ j =>
          have within := Nat.lt_of_succ_lt_succ inside
          cases i with
          | zero => exact le_start spaced.2 within
          | succ i => exact ih spaced.2 (Nat.lt_of_succ_lt_succ lt) within

variable (table : Table)

theorem starts_eq {i : Nat} (lt : i < table.columns.length) :
    (((starts table)[i]?.getD 0 : Nat) : Int) = table.columns[i].start - 4 := by
  have inside : i < table.names.length := by rwa [Table.names, List.length_map]
  have exact_ : drift (table.names.take i) = 0 := by
    have zeros : ∀ text ∈ table.names.take i, (units text.2 : Int) - displayWidth text.2 = 0 := by
      intro text member
      obtain ⟨column, -, rfl⟩ := List.mem_map.mp (List.mem_of_mem_take member)
      change (units column.provider.name : Int) - displayWidth column.provider.name = 0
      rw [units_name, sub_self]
    rw [drift, List.map_congr_left zeros, List.map_const', List.sum_replicate, smul_zero]
  have place := @position_eq _ 8 4 _ table.spaced_names le_rfl i inside
  have first := le_start table.spaced_names inside
  have start : table.names[i].1 = table.columns[i].start := by simp [Table.names]
  rw [exact_, start] at place
  rw [start] at first
  rw [starts, List.getElem?_map, place]
  omega

/-- Among measured cells no search goes wrong. -/
theorem near_of_measured {row : Row} (measured : ∀ column ∈ table.columns, Measured (column.cell row).text) :
    Near table row := by
  intro i j lt inside _
  have within : i < table.columns.length := lt.trans inside
  have cell : i < (table.cells row).length := by rwa [Table.cells, List.length_map]
  have name : j < table.names.length := by rwa [Table.names, List.length_map]
  have off : drift ((table.cells row).take i) ≤ 0 := by
    apply drift_nonpos
    intro text member
    obtain ⟨column, found, rfl⟩ := List.mem_map.mp (List.mem_of_mem_take member)
    exact units_le (measured column found)
  have place := @position_eq _ 6 3 _ (table.spaced_cells row) (by decide) i cell
  have apart := start_lt table.spaced_names lt name
  have long (provider : Provider) : 6 ≤ displayWidth provider.name := by cases provider <;> decide
  have wide := long table.columns[i].provider
  have first := le_start (table.spaced_cells row) cell
  have here := starts_eq table within
  have there := starts_eq table inside
  simp only [Table.names, Table.cells, List.getElem_map] at place apart first
  simp only [distance, position, here, there]
  simp only [Table.cells] at off ⊢
  rw [place]
  omega

end NieSla.Unlock.Worker
