import Mathlib

/-! Tables of rows with unique keys, in the order in which the rows were written, and what the
statements of SQL make of them. A statement that would break a constraint gives no table. -/

/-- What a table asks of its rows: its columns, what it stores of the values that a statement names,
and which two rows have the same value of a unique key. -/
structure Schema (υ ρ : Type) where
  columns : List String
  named : columns ≠ []
  fieldsOf : ρ → List (String × υ)
  stored : List (String × υ) → Option ρ
  clash : ρ → ρ → Prop
  decidable_clash : DecidableRel clash
  columns_fieldsOf : ∀ row, (fieldsOf row).map Prod.fst = columns
  stored_fieldsOf : ∀ row, stored (fieldsOf row) = some row

attribute [instance] Schema.decidable_clash

/-- No two rows have the same value of a unique key. -/
@[ext] structure Table {υ ρ : Type} (schema : Schema υ ρ) where
  rows : List ρ
  apart : rows.Pairwise fun first second => ¬ schema.clash first second

namespace Table

variable {υ ρ : Type} {schema : Schema υ ρ}

/-- The rows as a table, if they can stand in one. -/
def ofRows (rows : List ρ) : Option (Table schema) :=
  if apart : rows.Pairwise fun first second => ¬ schema.clash first second then some ⟨rows, apart⟩ else none

def empty : Table schema := ⟨[], .nil⟩

/-- `DELETE` of the rows that `gone` picks. -/
def delete (table : Table schema) (gone : ρ → Bool) : Table schema :=
  ⟨table.rows.filter (!gone ·), table.apart.filter _⟩

/-- `INSERT`, which fails where the row clashes. -/
def insert (table : Table schema) (row : ρ) : Option (Table schema) := ofRows (table.rows ++ [row])

/-- `UPDATE`, which fails where two rows would clash. -/
def update (table : Table schema) (change : ρ → ρ) : Option (Table schema) := ofRows (table.rows.map change)

/-- `INSERT OR REPLACE`: the rows that the new one clashes with are deleted. -/
def insertOrReplace (table : Table schema) (row : ρ) : Table schema where
  rows := table.rows.filter (fun old => ¬ schema.clash old row) ++ [row]
  apart := by
    refine List.pairwise_append.mpr ⟨table.apart.filter _, List.pairwise_singleton _ _, ?_⟩
    intro old kept new newest
    rw [List.mem_singleton.mp newest]
    exact of_decide_eq_true (List.mem_filter.mp kept).2

def insertAll (table : Table schema) (rows : List ρ) : Table schema := rows.foldl insertOrReplace table

variable {table result : Table schema} {row old : ρ} {rows : List ρ}

theorem rows_of_ofRows (made : ofRows rows = some result) : result.rows = rows := by
  unfold ofRows at made
  split at made
  · rw [← Option.some.inj made]
  · cases made

@[simp] theorem rows_empty : (empty : Table schema).rows = [] := rfl

@[simp] theorem rows_delete (gone : ρ → Bool) : (table.delete gone).rows = table.rows.filter (!gone ·) := rfl

theorem mem_insertOrReplace :
    old ∈ (table.insertOrReplace row).rows ↔ (old ∈ table.rows ∧ ¬ schema.clash old row) ∨ old = row := by
  simp [insertOrReplace]

@[simp] theorem insertAll_nil : table.insertAll [] = table := rfl

@[simp] theorem insertAll_cons : table.insertAll (row :: rows) = (table.insertOrReplace row).insertAll rows := rfl

/-- A row that no inserted one clashes with stays, and no other old row does. -/
theorem mem_insertAll_of_mem (member : old ∈ table.rows) (clear : ∀ row ∈ rows, ¬ schema.clash old row) :
    old ∈ (table.insertAll rows).rows := by
  induction rows generalizing table with
  | nil => exact member
  | cons row rest ih =>
      rw [insertAll_cons]
      refine ih (mem_insertOrReplace.mpr (.inl ⟨member, clear row List.mem_cons_self⟩)) ?_
      exact fun row later => clear row (List.mem_cons_of_mem _ later)

theorem mem_of_mem_insertAll (member : old ∈ (table.insertAll rows).rows) :
    (old ∈ table.rows ∧ ∀ row ∈ rows, ¬ schema.clash old row ∨ old = row) ∨ old ∈ rows := by
  induction rows generalizing table with
  | nil => exact .inl ⟨member, nofun⟩
  | cons row rest ih =>
      rcases ih member with ⟨here, clear⟩ | later
      · rcases mem_insertOrReplace.mp here with ⟨before, free⟩ | rfl
        · refine .inl ⟨before, fun other among => ?_⟩
          rcases List.mem_cons.mp among with rfl | later
          · exact .inl free
          · exact clear other later
        · exact .inr List.mem_cons_self
      · exact .inr (List.mem_cons_of_mem _ later)

/-- Rows that stand in one table all stand in the table that they are inserted into. -/
theorem mem_insertAll (apart : rows.Pairwise fun first second => ¬ schema.clash first second) (member : row ∈ rows) :
    row ∈ (table.insertAll rows).rows := by
  induction rows generalizing table with
  | nil => cases member
  | cons first rest ih =>
      rw [List.pairwise_cons] at apart
      rcases List.mem_cons.mp member with rfl | later
      · rw [insertAll_cons]
        exact mem_insertAll_of_mem (mem_insertOrReplace.mpr (.inr rfl)) apart.1
      · exact ih apart.2 later

/-- Rows that clash with nothing are written after the others. -/
theorem rows_insertAll
    (apart : (table.rows ++ rows).Pairwise fun first second => ¬ schema.clash first second) :
    (table.insertAll rows).rows = table.rows ++ rows := by
  induction rows generalizing table with
  | nil => rw [insertAll_nil, List.append_nil]
  | cons row rest ih =>
      have clear : ∀ old ∈ table.rows, ¬ schema.clash old row := fun old member =>
        (List.pairwise_append.mp apart).2.2 old member row List.mem_cons_self
      have written : (table.insertOrReplace row).rows = table.rows ++ [row] := by
        change table.rows.filter _ ++ [row] = _
        rw [List.filter_eq_self.mpr fun old member => decide_eq_true (clear old member)]
      rw [insertAll_cons, ih (by rwa [written, List.append_assoc]), written, List.append_assoc]
      rfl

theorem insertAll_empty (full : Table schema) : (empty : Table schema).insertAll full.rows = full :=
  Table.ext (rows_insertAll (by simpa using full.apart))

section Lists

variable {α : Type}

theorem filter_of_none {p : α → Bool} {items : List α} (none_ : ∀ a ∈ items, ¬ p a = true) :
    items.filter (!p ·) = items := by
  refine List.filter_eq_self.mpr fun a member => ?_
  rw [Bool.not_eq_true', ← Bool.not_eq_true]
  exact none_ a member

/-- A list with at most one row of a kind is known from its other rows, that row and its place. -/
theorem eq_iff_find {p : α → Bool} {first second : List α}
    (once : first.Pairwise fun a b => ¬ (p a = true ∧ p b = true))
    (once' : second.Pairwise fun a b => ¬ (p a = true ∧ p b = true))
    (others : first.filter (!p ·) = second.filter (!p ·)) :
    first = second ↔ first.find? p = second.find? p ∧ first.findIdx p = second.findIdx p := by
  constructor
  · rintro rfl
    exact ⟨rfl, rfl⟩
  rintro ⟨found, place⟩
  induction first generalizing second with
  | nil =>
      rw [filter_of_none (List.find?_eq_none.mp found.symm)] at others
      exact others
  | cons a rest ih =>
      cases second with
      | nil =>
          rw [filter_of_none (List.find?_eq_none.mp found)] at others
          exact others
      | cons b later =>
          rw [List.pairwise_cons] at once once'
          by_cases first_ : p a = true
          · by_cases second_ : p b = true
            · rw [List.find?_cons_of_pos first_, List.find?_cons_of_pos second_, Option.some.injEq] at found
              rw [List.filter_cons_of_neg (by simp [first_]), List.filter_cons_of_neg (by simp [second_]),
                filter_of_none fun c member all => once.1 c member ⟨first_, all⟩,
                filter_of_none fun c member all => once'.1 c member ⟨second_, all⟩] at others
              rw [found, others]
            · simp [List.findIdx_cons, first_, second_] at place
          · by_cases second_ : p b = true
            · simp [List.findIdx_cons, first_, second_] at place
            · rw [List.find?_cons_of_neg first_, List.find?_cons_of_neg second_] at found
              rw [List.filter_cons_of_pos (by simp [first_]), List.filter_cons_of_pos (by simp [second_]),
                List.cons.injEq] at others
              rw [others.1, ih once.2 once'.2 others.2 found (by
                simpa [List.findIdx_cons, first_, second_] using place)]

theorem exists_of_forall₂ {β : Type} {R : α → β → Prop} {items : List α} {others : List β}
    (paired : List.Forall₂ R items others) {a : α} (member : a ∈ items) : ∃ b ∈ others, R a b := by
  induction paired with
  | nil => cases member
  | cons first _ ih =>
      rcases List.mem_cons.mp member with rfl | later
      · exact ⟨_, List.mem_cons_self, first⟩
      · obtain ⟨b, among, related⟩ := ih later
        exact ⟨b, List.mem_cons_of_mem _ among, related⟩

end Lists

end Table
