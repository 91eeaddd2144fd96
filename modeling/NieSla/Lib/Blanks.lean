import Mathlib

/-! Rows of values in which some are blank, read by their number; beyond the end of a row everything is
blank. -/
namespace Blanks

variable {α : Type*}

/-- The value with the number. -/
def valueAt (row : List (List α)) (index : Nat) : List α := row[index]?.getD []

/-- Behind a blank all is blank. -/
def Trailing (row : List (List α)) : Prop := ∀ i j, i < j → valueAt row i = [] → valueAt row j = []

@[simp] theorem valueAt_nil (index : Nat) : valueAt ([] : List (List α)) index = [] := rfl

@[simp] theorem valueAt_cons_zero (value : List α) (row : List (List α)) : valueAt (value :: row) 0 = value := rfl

@[simp] theorem valueAt_cons_succ (value : List α) (row : List (List α)) (index : Nat) :
    valueAt (value :: row) (index + 1) = valueAt row index := rfl

theorem valueAt_of_length_le {row : List (List α)} {index : Nat} (le : row.length ≤ index) :
    valueAt row index = [] := by
  rw [valueAt, List.getElem?_eq_none le]
  rfl

theorem valueAt_eq_getElem {row : List (List α)} {index : Nat} (lt : index < row.length) :
    valueAt row index = row[index] := by
  rw [valueAt, List.getElem?_eq_getElem lt]
  rfl

theorem valueAt_mem {row : List (List α)} {index : Nat} (some_ : valueAt row index ≠ []) :
    valueAt row index ∈ row := by
  by_cases lt : index < row.length
  · rw [valueAt_eq_getElem lt]
    exact List.getElem_mem lt
  · exact absurd (valueAt_of_length_le (Nat.le_of_not_lt lt)) some_

theorem Trailing.tail {value : List α} {row : List (List α)} (trailing : Trailing (value :: row)) : Trailing row :=
  fun i j lt blank => trailing (i + 1) (j + 1) (Nat.succ_lt_succ lt) blank

theorem Trailing.blank {row : List (List α)} (trailing : Trailing ([] :: row)) : ∀ value ∈ row, value = [] := by
  intro value member
  obtain ⟨j, inside, rfl⟩ := List.getElem_of_mem member
  simpa [valueAt_eq_getElem inside] using trailing 0 (j + 1) (Nat.succ_pos j) rfl

/-- Without its blanks a row reads the same exactly when they were at its end. -/
theorem valueAt_filter_iff [DecidableEq α] (row : List (List α)) :
    (∀ i < row.length, valueAt (row.filter (· ≠ [])) i = valueAt row i) ↔ Trailing row := by
  constructor
  · intro same i j lt blank
    by_cases inside : j < row.length
    · have short : (row.filter (· ≠ [])).length ≤ i := by
        by_contra long
        have some_ : valueAt (row.filter (· ≠ [])) i ≠ [] := by
          rw [valueAt_eq_getElem (Nat.lt_of_not_le long)]
          simpa using (List.mem_filter.mp (List.getElem_mem (Nat.lt_of_not_le long))).2
        exact some_ ((same i (lt.trans inside)).trans blank)
      rw [← same j inside]
      exact valueAt_of_length_le (short.trans lt.le)
    · exact valueAt_of_length_le (Nat.le_of_not_lt inside)
  · intro trailing
    induction row with
    | nil => simp
    | cons value row ih =>
        intro i lt
        by_cases blank : value = []
        · subst blank
          have nothing : ([] :: row).filter (· ≠ []) = [] := by simpa using trailing.blank
          rw [nothing, valueAt_nil]
          cases i with
          | zero => rfl
          | succ i => exact (trailing 0 (i + 1) (Nat.succ_pos i) rfl).symm
        · rw [List.filter_cons_of_pos (by simpa using blank)]
          cases i with
          | zero => rfl
          | succ i => exact ih trailing.tail i (Nat.lt_of_succ_lt_succ lt)

/-- Where the blanks are at the end, a row reads the same without them at every number. -/
theorem valueAt_filter [DecidableEq α] {row : List (List α)} (trailing : Trailing row) (index : Nat) :
    valueAt (row.filter (· ≠ [])) index = valueAt row index := by
  by_cases lt : index < row.length
  · exact (valueAt_filter_iff row).mpr trailing index lt
  · have long := Nat.le_of_not_lt lt
    rw [valueAt_of_length_le long, valueAt_of_length_le ((List.length_filter_le _ _).trans long)]

/-- Where the blanks are at the end, what is left without them leads the row. -/
theorem filter_prefix [DecidableEq α] {κ : Type*} {row : List (κ × List α)}
    (trailing : Trailing (row.map Prod.snd)) : (row.filter fun entry => entry.2 ≠ []) <+: row := by
  induction row with
  | nil => exact List.prefix_rfl
  | cons entry row ih =>
      by_cases blank : entry.2 = []
      · rw [List.map_cons, blank] at trailing
        have all : ∀ other ∈ row, other.2 = [] := fun other member => trailing.blank _ (List.mem_map_of_mem member)
        have nothing : ((entry :: row).filter fun entry => entry.2 ≠ []) = [] := by
          simpa [blank] using all
        rw [nothing]
        exact List.nil_prefix
      · rw [List.filter_cons_of_pos (by simpa using blank)]
        exact List.cons_prefix_cons.mpr ⟨rfl, ih trailing.tail⟩

/-- A row whose values another row holds in their places is no longer than that one. -/
theorem length_flatten_le {row other : List (List α)} (same : ∀ i < row.length, valueAt other i = valueAt row i) :
    row.flatten.length ≤ other.flatten.length := by
  induction row generalizing other with
  | nil => exact Nat.zero_le _
  | cons value row ih =>
      have first := same 0 (Nat.succ_pos _)
      have later (i : Nat) (lt : i < row.length) := same (i + 1) (Nat.succ_lt_succ lt)
      cases other with
      | nil =>
          have rest := @ih [] fun i lt => later i lt
          have blank : value = [] := first.symm
          simpa [blank] using rest
      | cons value' other =>
          have rest := ih fun i lt => later i lt
          have equal : value' = value := first
          simp only [List.flatten_cons, List.length_append, equal]
          omega

/-- Going through the numbers of a list is going through the list. -/
theorem filterMap_range {β γ : Type*} {list : List β} {byNumber : Nat → Option γ} {f : β → Option γ}
    (same : ∀ i (lt : i < list.length), byNumber i = f list[i]) :
    (List.range list.length).filterMap byNumber = list.filterMap f := by
  induction list generalizing byNumber with
  | nil => rfl
  | cons first rest ih =>
      have later : ∀ i (lt : i < rest.length), (byNumber ∘ Nat.succ) i = f rest[i] := fun i lt =>
        same (i + 1) (Nat.succ_lt_succ lt)
      rw [List.length_cons, List.range_succ_eq_map, List.filterMap_cons, List.filterMap_cons, List.filterMap_map,
        ih later, same 0 (Nat.succ_pos _)]
      rfl

end Blanks
