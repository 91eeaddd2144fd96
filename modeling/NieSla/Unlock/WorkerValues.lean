import NieSla.Unlock.WorkerReads

/-! The values that the Worker finds in a row, and when they are the row's. -/
namespace NieSla.Unlock.Worker
open Blanks

/-! The loop over the tokens. -/

section Loop

variable {starts : List Nat} {passed position : Nat}

theorem mem_columns {column : Nat} :
    column ∈ (List.range starts.length).drop passed ↔ passed ≤ column ∧ column < starts.length := by
  rw [List.range_eq_range', List.drop_range', List.mem_range'_1]
  omega

theorem bestColumn_bounds {column : Nat} (found : bestColumn starts passed position = some column) :
    passed ≤ column ∧ column < starts.length :=
  mem_columns.mp (List.argmin_mem found)

/-- The first column left is the best one exactly when no later one is nearer. -/
theorem bestColumn_eq_passed (lt : passed < starts.length) :
    bestColumn starts passed position = some passed ↔
      ∀ column, passed < column → column < starts.length →
        distance starts position passed ≤ distance starts position column := by
  have first : ((List.range starts.length).drop passed).idxOf passed = 0 := by
    have some_ : starts.length - passed = starts.length - passed - 1 + 1 := by omega
    rw [List.range_eq_range', List.drop_range', some_, List.range'_succ]
    simp
  rw [bestColumn, ← Option.mem_def, List.mem_argmin_iff, first]
  simp only [mem_columns, Nat.zero_le, implies_true, and_true, le_refl, true_and, lt]
  constructor
  · intro all column behind inside
    exact all column ⟨behind.le, inside⟩
  · rintro all column ⟨behind, inside⟩
    rcases Nat.eq_or_lt_of_le behind with rfl | behind
    · exact le_rfl
    · exact all column behind inside

theorem exists_bestColumn (lt : passed < starts.length) :
    ∃ column, bestColumn starts passed position = some column := by
  apply Option.ne_none_iff_exists'.mp
  rw [bestColumn, Ne, List.argmin_eq_none]
  intro nothing
  exact List.not_mem_nil (nothing ▸ mem_columns.mpr ⟨le_rfl, lt⟩)

/-- A column that is passed keeps its value. -/
theorem assign_of_lt (values : List (List Char)) (tokens : List (Nat × List Char)) {column : Nat}
    (lt : column < passed) : valueAt (assign starts values passed tokens) column = valueAt values column := by
  induction tokens generalizing values passed with
  | nil => rfl
  | cons token rest ih =>
      obtain ⟨position, word⟩ := token
      rw [assign]
      split
      · exact ih values lt
      · split
        · rfl
        next best found =>
          have behind := (bestColumn_bounds found).1
          rw [ih _ (by omega)]
          split
          · rw [valueAt, valueAt, List.getElem?_set_ne (by omega)]
          · rfl

theorem mem_assign {values : List (List Char)} {tokens : List (Nat × List Char)} {value : List Char}
    (member : value ∈ assign starts values passed tokens) : value ∈ values ∨ value ∈ tokens.map Prod.snd := by
  induction tokens generalizing values passed with
  | nil => exact .inl member
  | cons token rest ih =>
      obtain ⟨position, word⟩ := token
      rw [assign] at member
      split at member
      · exact (ih member).imp_right (List.mem_cons_of_mem _)
      · split at member
        · exact .inl member
        · rcases ih member with kept | later
          · split at kept
            · rcases List.mem_or_eq_of_mem_set kept with old | rfl
              · exact .inl old
              · exact .inr List.mem_cons_self
            · exact .inl kept
          · exact .inr (List.mem_cons_of_mem _ later)

/-- No later column is nearer to a token than its own. -/
def NearFrom (starts : List Nat) (passed : Nat) (tokens : List (Nat × List Char)) : Prop :=
  ∀ i (lt : i < tokens.length) (column : Nat), passed + i < column → column < starts.length →
    distance starts tokens[i].1 (passed + i) ≤ distance starts tokens[i].1 column

theorem nearFrom_cons {word : List Char} {rest : List (Nat × List Char)} (lt : passed < starts.length) :
    NearFrom starts passed ((position, word) :: rest) ↔
      bestColumn starts passed position = some passed ∧ NearFrom starts (passed + 1) rest := by
  rw [bestColumn_eq_passed lt]
  constructor
  · intro near
    refine ⟨near 0 (Nat.succ_pos _), ?_⟩
    intro i inside column behind within
    have later := near (i + 1) (Nat.succ_lt_succ inside) column (by omega) within
    rwa [show passed + (i + 1) = passed + 1 + i by omega] at later
  · rintro ⟨first, later⟩ i inside column behind within
    cases i with
    | zero => exact first column behind within
    | succ i =>
        have near := later i (Nat.lt_of_succ_lt_succ inside) column (by omega) within
        rwa [show passed + 1 + i = passed + (i + 1) by omega] at near

variable {values : List (List Char)} {tokens : List (Nat × List Char)}

theorem assign_cons {word : List Char} {rest : List (Nat × List Char)} {best : Nat}
    (clean : cleanExternalCell word 80 ≠ []) (found : bestColumn starts passed position = some best)
    (blank : valueAt values best = []) :
    assign starts values passed ((position, word) :: rest) =
      assign starts (values.set best word) (best + 1) rest := by
  rw [assign, if_neg clean, found]
  exact congrArg (assign starts · (best + 1) rest) (if_pos blank)

theorem valueAt_set_blank {best column : Nat} (word : List Char) (behind : best < column)
    (blank : valueAt values column = []) : valueAt (values.set best word) column = [] := by
  rwa [valueAt, List.getElem?_set_ne behind.ne]

/-- Where every column that has a token gets a value, no token is nearer to a later column. -/
theorem nearFrom_of_assign (clean : ∀ token ∈ tokens, cleanExternalCell token.2 80 ≠ [])
    (room : passed + tokens.length ≤ starts.length) (blank : ∀ column, passed ≤ column → valueAt values column = [])
    (all : ∀ i < tokens.length, valueAt (assign starts values passed tokens) (passed + i) ≠ []) :
    NearFrom starts passed tokens := by
  induction tokens generalizing values passed with
  | nil => exact fun i lt => absurd lt (Nat.not_lt_zero i)
  | cons token rest ih =>
      obtain ⟨position, word⟩ := token
      obtain ⟨first, later⟩ := List.forall_mem_cons.mp clean
      rw [List.length_cons] at room all
      obtain ⟨best, found⟩ := @exists_bestColumn starts passed position (by omega)
      have behind := (bestColumn_bounds found).1
      rw [assign_cons first found (blank best behind)] at all
      have here : best = passed := by
        by_contra other
        have skipped : valueAt (assign starts (values.set best word) (best + 1) rest) passed ≠ [] :=
          all 0 (Nat.succ_pos _)
        rw [assign_of_lt _ _ (show passed < best + 1 by omega), valueAt,
          List.getElem?_set_ne other] at skipped
        exact skipped (blank passed le_rfl)
      subst here
      refine (nearFrom_cons (by omega)).mpr ⟨found, @ih _ (values.set best word) later (by omega) ?_ ?_⟩
      · intro column behind
        exact valueAt_set_blank word (by omega) (blank column (by omega))
      · intro i lt
        rw [show best + 1 + i = best + (i + 1) by omega]
        exact all (i + 1) (Nat.succ_lt_succ lt)

/-- Where no token is nearer to a later column, the columns get the tokens in order. -/
theorem assign_of_nearFrom (clean : ∀ token ∈ tokens, cleanExternalCell token.2 80 ≠ [])
    (room : passed + tokens.length ≤ starts.length) (size : values.length = starts.length)
    (blank : ∀ column, passed ≤ column → valueAt values column = []) (near : NearFrom starts passed tokens)
    (i : Nat) : valueAt (assign starts values passed tokens) (passed + i) = valueAt (tokens.map Prod.snd) i := by
  induction tokens generalizing values passed i with
  | nil => exact blank _ (Nat.le_add_right _ _)
  | cons token rest ih =>
      obtain ⟨position, word⟩ := token
      obtain ⟨first, later⟩ := List.forall_mem_cons.mp clean
      rw [List.length_cons] at room
      obtain ⟨found, near⟩ := (nearFrom_cons (by omega)).mp near
      rw [assign_cons first found (blank passed le_rfl)]
      cases i with
      | zero =>
          change valueAt (assign starts (values.set passed word) (passed + 1) rest) passed = word
          rw [assign_of_lt _ _ (Nat.lt_succ_self passed), valueAt, List.getElem?_set_self (by omega)]
          rfl
      | succ i =>
          rw [show passed + (i + 1) = passed + 1 + i by omega]
          apply ih later (by omega) (by rw [List.length_set, size]) _ near
          intro column behind
          exact valueAt_set_blank word (by omega) (blank column (by omega))

end Loop

/-! Rows. -/

theorem pick_nil (max : Nat) : pick [] max = [] := rfl

theorem mem_of_mem_trimChars {text : List Char} {c : Char} (member : c ∈ trimChars text) : c ∈ text := by
  rw [trimChars, List.mem_reverse] at member
  have reversed := (List.dropWhile_suffix isSpace).subset member
  exact (List.dropWhile_suffix isSpace).subset (List.mem_reverse.mp reversed)

theorem mem_of_mem_pick {value : List Char} {max : Nat} {c : Char} (member : c ∈ pick value max) : c ∈ value := by
  unfold pick cleanExternalCell at member
  dsimp only at member
  split at member
  · exact absurd member List.not_mem_nil
  · split at member
    · exact absurd member List.not_mem_nil
    · have leads := cutChars_prefix max (trimChars (value.filter fun c => !isControl c))
      exact List.mem_of_mem_filter (mem_of_mem_trimChars (leads.subset member))

theorem units_eq (text : List Char) : textLength (String.ofList text) = units text := by
  rw [textLength, String.toList_ofList, units]

theorem cutChars_eq_self_iff {max : Nat} {text : List Char} : cutChars max text = text ↔ units text ≤ max := by
  rw [← units_eq]
  constructor
  · intro kept
    have short := textLength_cut max (String.ofList text)
    rwa [cut, String.toList_ofList, kept] at short
  · intro short
    have kept := congrArg String.toList (cut_of_textLength short)
    rwa [cut, String.toList_ofList, String.toList_ofList] at kept

/-- The cell is printed and no fragment, so the Worker cuts it only. -/
theorem cleanExternalCell_cell (cell : Cell) (clean : Agent.isFragment cell.text = false) (max : Nat) :
    cleanExternalCell cell.text max = cutChars max cell.text := by
  have printed : cell.text.filter (fun c => !isControl c) = cell.text := by
    rw [List.filter_eq_self]
    intro c member
    have shown := cell.printed c member
    simp only [isPrinted, Bool.and_eq_true, Bool.not_eq_true', Bool.and_eq_false_imp, decide_eq_true_eq,
      decide_eq_false_iff_not] at shown
    simp only [isControl, Bool.not_eq_true', Bool.or_eq_false_iff, decide_eq_false_iff_not]
    omega
  have marks := clean
  simp only [Agent.isFragment, Agent.contains] at marks
  simp only [cleanExternalCell, printed, cell.trimmed, marks]
  rfl

/-- A dash stands for no value. -/
def dashes : List (List Char) := [['-'], ['—']]

theorem pick_cell_iff (cell : Cell) (clean : Agent.isFragment cell.text = false) (max : Nat) :
    pick cell.text max = cell.text ↔ cell.text ∉ dashes ∧ units cell.text ≤ max := by
  rw [← cutChars_eq_self_iff, ← cleanExternalCell_cell cell clean, pick, cell.trimmed]
  change (if cell.text ∈ dashes then [] else _) = _ ↔ _
  split
  next dash =>
    have some_ : [] ≠ cell.text := by
      intro empty
      rw [← empty] at dash
      exact absurd dash (by decide)
    simp [dash, some_]
  next solid => simp [solid]

variable (table : Table)

/-- The position at which a cell starts in its line. -/
def position (row : Row) (column : Nat) : Nat := ((placed 6 3 (table.cells row))[column]?.map Prod.fst).getD 0

/-- Counted in code units, no later column's name starts nearer to a cell than its own column's name. -/
def Near (row : Row) : Prop :=
  ∀ column later, column < later → later < table.columns.length → valueAt (table.values row) column ≠ [] →
    distance (starts table) (position table row column) column ≤
      distance (starts table) (position table row column) later

section Row

variable {table} {row : Row}

theorem map_snd_cells : (placed 6 3 (table.cells row)).map Prod.snd = table.values row := by
  rw [map_snd_placed, Table.cells, List.map_map]
  rfl

/-- The cells of the row hold no white space. -/
def Solid (table : Table) (row : Row) : Prop :=
  ∀ column ∈ table.columns, ∀ c ∈ (column.cell row).text, isSpace c = false

variable (solid : Solid table row)

include solid

theorem tokens_eq : tokens table row = (placed 6 3 (table.cells row)).filter fun text => text.2 ≠ [] := by
  apply tokens_render rfl (table.spaced_cells row)
  intro text member
  obtain ⟨column, found, rfl⟩ := List.mem_map.mp member
  exact solid column found

theorem map_snd_tokens : (tokens table row).map Prod.snd = (table.values row).filter (· ≠ []) := by
  rw [tokens_eq solid, ← map_snd_cells, List.filter_map]
  rfl

theorem length_tokens_le : (tokens table row).length ≤ table.columns.length := by
  have short := List.length_filter_le (· ≠ []) (table.values row)
  rw [← map_snd_tokens solid, List.length_map] at short
  simpa [Table.values] using short

theorem clean_tokens (clean : ∀ column ∈ table.columns, Agent.isFragment (column.cell row).text = false) :
    ∀ token ∈ tokens table row, cleanExternalCell token.2 80 ≠ [] := by
  intro token member
  have among : token.2 ∈ (table.values row).filter (· ≠ []) := by
    rw [← map_snd_tokens solid]
    exact List.mem_map_of_mem member
  obtain ⟨inside, some_⟩ := List.mem_filter.mp among
  obtain ⟨column, found, same⟩ := List.mem_map.mp inside
  have kept : cut 80 (String.ofList token.2) ≠ "" :=
    cut_ne_empty (by decide) fun empty => of_decide_eq_true some_ (by simpa using congrArg String.toList empty)
  rw [← same, cleanExternalCell_cell _ (clean column found), same]
  intro empty
  exact kept (by simp [cut, empty])

/-- The tokens are the columns in front of the blanks. -/
theorem lt_length_tokens_iff (trailing : Trailing (table.values row)) (i : Nat) :
    i < (tokens table row).length ↔ valueAt (table.values row) i ≠ [] := by
  rw [← valueAt_filter trailing, ← map_snd_tokens solid]
  constructor
  · intro lt
    have member : (tokens table row)[i].2 ∈ (table.values row).filter (· ≠ []) := by
      rw [← map_snd_tokens solid]
      exact List.mem_map_of_mem (List.getElem_mem lt)
    rw [valueAt_eq_getElem (by rwa [List.length_map]), List.getElem_map]
    exact of_decide_eq_true (List.mem_filter.mp member).2
  · intro found
    by_contra long
    exact found (valueAt_of_length_le (by rw [List.length_map]; exact Nat.le_of_not_lt long))

theorem nearFrom_iff (trailing : Trailing (table.values row)) :
    NearFrom (starts table) 0 (tokens table row) ↔ Near table row := by
  have leads : tokens table row <+: placed 6 3 (table.cells row) := by
    rw [tokens_eq solid]
    exact filter_prefix (map_snd_cells ▸ trailing)
  have place (i : Nat) (lt : i < (tokens table row).length) : (tokens table row)[i].1 = position table row i := by
    rw [leads.getElem lt, position, List.getElem?_eq_getElem (lt.trans_le leads.length_le)]
    rfl
  constructor
  · intro near i j behind inside found
    have lt := (lt_length_tokens_iff solid trailing i).mpr found
    have this := near i lt j (by omega) (by rwa [length_starts])
    rwa [Nat.zero_add, place i lt] at this
  · intro near i lt j behind inside
    rw [Nat.zero_add, place i lt]
    exact near i j (by omega) (by rwa [length_starts] at inside) ((lt_length_tokens_iff solid trailing i).mp lt)

end Row

theorem valueAt_blanks (column : Nat) : valueAt ((starts table).map fun _ => ([] : List Char)) column = [] := by
  by_cases some_ : valueAt ((starts table).map fun _ => ([] : List Char)) column = []
  · exact some_
  · obtain ⟨_, -, blank⟩ := List.mem_map.mp (valueAt_mem some_)
    exact blank.symm

/-- A value that is read in a row holds no white space. -/
theorem solid_of_reads {row : Row}
    (same : ∀ i < table.columns.length,
      pick (valueAt (rowValues table row) i) (limit row) = valueAt (table.values row) i) : Solid table row := by
  intro column member c inside
  obtain ⟨i, lt, rfl⟩ := List.getElem_of_mem member
  have value : valueAt (table.values row) i = (table.columns[i].cell row).text := by simp [valueAt, Table.values, lt]
  have read : c ∈ valueAt (rowValues table row) i := by
    apply @mem_of_mem_pick _ (limit row)
    rwa [same i lt, value]
  rcases mem_assign (valueAt_mem (List.ne_nil_of_mem read)) with blank | token
  · obtain ⟨_, -, empty⟩ := List.mem_map.mp blank
    have nothing : [] = valueAt (rowValues table row) i := empty
    exact absurd (nothing ▸ read) List.not_mem_nil
  · rw [tokens, Words.map_snd_tokens] at token
    exact (Words.mem_of_mem_words token read).2

/-- The Worker reads a row right exactly when each cell is one value that it keeps as it is, and starts nearest to
its own column. -/
theorem reads_row_iff {row : Row} (clean : ∀ column ∈ table.columns, Agent.isFragment (column.cell row).text = false)
    (trailing : Trailing (table.values row)) :
    (∀ i < table.columns.length, pick (valueAt (rowValues table row) i) (limit row) = valueAt (table.values row) i) ↔
      (Solid table row ∧ ∀ column ∈ table.columns,
        (column.cell row).text ∉ dashes ∧ units (column.cell row).text ≤ limit row) ∧ Near table row := by
  have value {i : Nat} (lt : i < table.columns.length) :
      valueAt (table.values row) i = (table.columns[i].cell row).text := by simp [valueAt, Table.values, lt]
  have assigned (solid : Solid table row) (near : NearFrom (starts table) 0 (tokens table row)) (i : Nat) :
      valueAt (rowValues table row) i = valueAt (table.values row) i := by
    have room : 0 + (tokens table row).length ≤ (starts table).length := by
      rw [Nat.zero_add, length_starts]
      exact length_tokens_le solid
    have found := assign_of_nearFrom (clean_tokens solid clean) room (List.length_map _)
      (fun column _ => valueAt_blanks table column) near i
    rwa [Nat.zero_add, map_snd_tokens solid, valueAt_filter trailing] at found
  constructor
  · intro same
    have solid := solid_of_reads table same
    have near : NearFrom (starts table) 0 (tokens table row) := by
      have room : 0 + (tokens table row).length ≤ (starts table).length := by
        rw [Nat.zero_add, length_starts]
        exact length_tokens_le solid
      apply nearFrom_of_assign (clean_tokens solid clean) room fun column _ => valueAt_blanks table column
      intro i lt empty
      rw [Nat.zero_add] at empty
      apply (lt_length_tokens_iff solid trailing i).mp lt
      rw [← same i (lt.trans_le (length_tokens_le solid)), rowValues, empty]
      exact pick_nil _
    refine ⟨⟨solid, ?_⟩, (nearFrom_iff solid trailing).mp near⟩
    intro column member
    obtain ⟨i, lt, rfl⟩ := List.getElem_of_mem member
    have kept := same i lt
    rw [assigned solid near i, value lt] at kept
    exact (pick_cell_iff _ (clean _ member) _).mp kept
  · rintro ⟨⟨solid, kept⟩, near⟩ i lt
    have member := List.getElem_mem lt
    rw [assigned solid ((nearFrom_iff solid trailing).mpr near), value lt, pick_cell_iff _ (clean _ member)]
    exact kept _ member

end NieSla.Unlock.Worker
