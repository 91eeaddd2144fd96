import NieSla.Unlock.Aligned

/-! The lines of a table as the agent finds them. -/
namespace NieSla.Unlock

open NodeQuality (escape)

theorem printed_ne {c : Char} (printed : isPrinted c = true) : c ≠ '\n' ∧ c ≠ '\r' ∧ c ≠ escape := by
  refine ⟨?_, ?_, ?_⟩ <;> rintro rfl <;> exact absurd printed (by decide)

namespace Table

variable (table : Table)

theorem printed_header {c : Char} (member : c ∈ table.header) : c ∈ "服务商：".toList ∨ c = ' ' ∨
    ∃ provider : Provider, c ∈ provider.name := by
  rcases List.mem_append.mp member with label | rest
  · exact .inl label
  · rcases mem_render rest with blank | ⟨text, found, inside⟩
    · exact .inr (.inl blank)
    · obtain ⟨column, -, rfl⟩ := List.mem_map.mp found
      exact .inr (.inr ⟨column.provider, inside⟩)

theorem mem_line {row : Row} {c : Char} (member : c ∈ table.line row) :
    c ∈ (row.label ++ "：").toList ∨ c = ' ' ∨ ∃ column ∈ table.columns, c ∈ (column.cell row).text := by
  rcases List.mem_append.mp member with label | rest
  · exact .inl label
  · rcases mem_render rest with blank | ⟨text, found, inside⟩
    · exact .inr (.inl blank)
    · obtain ⟨column, member, rfl⟩ := List.mem_map.mp found
      exact .inr (.inr ⟨column, member, inside⟩)

theorem printed_line (row : Row) : ∀ c ∈ table.line row, isPrinted c = true := by
  intro c member
  rcases table.mem_line member with label | rfl | ⟨column, -, inside⟩
  · have all : (row.label ++ "：").toList.all isPrinted = true := by cases row <;> decide
    exact List.all_eq_true.mp all c label
  · decide
  · exact (column.cell row).printed c inside

theorem printed_lines : ∀ line ∈ table.lines, ∀ c ∈ line, isPrinted c = true := by
  simp only [lines, List.forall_mem_cons]
  refine ⟨?_, ?_, table.printed_line _, table.printed_line _, table.printed_line _, List.forall_mem_nil _⟩
  · have all : table.heading.text.all isPrinted = true := by cases table.heading <;> decide
    exact List.all_eq_true.mp all
  · intro c member
    rcases table.printed_header member with label | rfl | ⟨provider, inside⟩
    · have all : "服务商：".toList.all isPrinted = true := by decide
      exact List.all_eq_true.mp all c label
    · decide
    · have all : provider.name.all isPrinted = true := by cases provider <;> decide
      exact List.all_eq_true.mp all c inside

theorem splitOn_text : table.text.splitOn '\n' = table.lines :=
  List.splitOn_intercalate '\n'
    (fun line member inside => (printed_ne (table.printed_lines line member _ inside)).1 rfl) (List.cons_ne_nil _ _)

/-- A table has no escape sequences and no carriage returns. -/
theorem plain_text : ∀ c ∈ table.text, c ≠ '\r' ∧ c ≠ escape := by
  intro c member
  have among : c = '\n' ∨ ∃ line ∈ table.lines, c ∈ line := by
    simp only [text, lines, List.intercalate_cons_cons, List.intercalate_singleton, List.mem_append,
      List.mem_singleton] at member
    simp only [lines, List.exists_mem_cons_iff]
    tauto
  rcases among with rfl | ⟨line, found, inside⟩
  · exact ⟨by decide, by decide⟩
  · exact (printed_ne (table.printed_lines line found c inside)).2

end Table

namespace Agent

variable (table : Table)

theorem strip_plain {rest : List Char} (plain : ∀ c ∈ rest, c ≠ '\r' ∧ c ≠ escape) (lines line : List Char) :
    strip .text lines line rest = lines ++ line ++ rest := by
  induction rest generalizing lines line with
  | nil => rw [strip, List.append_nil]
  | cons c rest ih =>
      obtain ⟨⟨return_, escape_⟩, later⟩ := List.forall_mem_cons.mp plain
      rw [strip, if_neg (fun both => escape_ both.1), if_neg (fun both => escape_ both.1), if_neg return_]
      split
      · rw [ih later, List.append_nil, List.append_assoc, List.append_assoc, List.singleton_append,
          List.append_assoc]
      · rw [ih later, List.append_assoc, List.append_assoc, List.singleton_append, List.append_assoc]

theorem lines_text : lines (stripAnsiCodes table.text) = table.lines := by
  have last : table.line .method ≠ [] := List.cons_ne_nil _ _
  have returns (line : List Char) (member : line ∈ table.lines) :
      (if line.getLast? = some '\r' then line.dropLast else line) = line := by
    apply if_neg
    intro found
    exact (printed_ne (table.printed_lines line member _ (List.mem_of_getLast? found))).2.1 rfl
  have kept := List.map_congr_left (f := fun line => if line.getLast? = some '\r' then line.dropLast else line)
    (g := id) fun line member => returns line (List.mem_of_mem_dropLast member)
  rw [stripAnsiCodes, strip_plain table.plain_text, List.nil_append, List.nil_append]
  simp only [lines, table.splitOn_text, kept, List.map_id]
  simp [Table.lines, last]

theorem trim_isInfix (line : List Char) : trim line <:+: line := by
  rw [trim, Trim.trimBy_eq]
  exact (List.rdropWhile_prefix _ _).isInfix.trans (List.dropWhile_suffix _).isInfix

/-- A label keeps its place; white space behind it goes. -/
theorem trim_of_solid {label : List Char} (some_ : label ≠ []) (all : label.all (!isWhitespace ·) = true)
    (rest : List Char) : trim (label ++ rest) = label ++ rest.rdropWhile isWhitespace :=
  Words.trimBy_append some_ (by simpa using all) rest

/-- The part of a line behind its label, without the white space at its end. -/
def body (texts : List (Nat × List Char)) (width : Nat) : List Char := (render width texts).rdropWhile isWhitespace

def headerLine : List Char := "服务商：".toList ++ body table.names 8

def rowLine (row : Row) : List Char := (row.label ++ "：").toList ++ body (table.cells row) 6

theorem trim_header : trim table.header = headerLine table :=
  trim_of_solid (by decide) (by decide) _

theorem trim_line (row : Row) : trim (table.line row) = rowLine table row := by
  apply trim_of_solid
  · cases row <;> decide
  · cases row <;> decide

theorem trim_heading : trim table.heading.text = table.heading.text := by
  cases table.heading <;> decide

/-- The lines that the agent searches. -/
def tableLines : List (List Char) :=
  [table.heading.text, headerLine table, rowLine table .status, rowLine table .region, rowLine table .method]

theorem trimmed_lines : ((lines (stripAnsiCodes table.text)).map trim).filter (· ≠ []) = tableLines table := by
  have heading : table.heading.text ≠ [] := by cases table.heading <;> decide
  have header : headerLine table ≠ [] := List.cons_ne_nil _ _
  have rows (row : Row) : rowLine table row ≠ [] := by cases row <;> exact List.cons_ne_nil _ _
  simp only [lines_text, Table.lines, List.map_cons, List.map_nil, trim_heading, trim_header, trim_line]
  simp [heading, header, rows, tableLines]

/-! What the lines hold. -/

theorem contains_of_trim {line : List Char} {text : String} (found : contains (trim line) text = true) :
    contains line text = true := by
  simp only [contains, decide_eq_true_eq] at found ⊢
  exact found.trans (trim_isInfix line)

/-- The header holds its label and the names only. -/
theorem not_contains_header {text : String} {c : Char} (inside : c ∈ text.toList)
    (foreign : c ∉ "服务商：".toList ∧ c ≠ ' ' ∧ ∀ provider : Provider, c ∉ provider.name) :
    contains (headerLine table) text = false := by
  rw [← trim_header]
  apply Bool.eq_false_of_not_eq_true
  intro found
  have whole : text.toList <:+: table.header := by simpa [contains] using contains_of_trim found
  rcases table.printed_header (whole.subset inside) with label | blank | ⟨provider, name⟩
  · exact foreign.1 label
  · exact foreign.2.1 blank
  · exact foreign.2.2 provider name

/-- No cell holds what a line is found by. -/
theorem not_contains_row (row : Row) {mark : String} (known : mark ∈ marks)
    (outside : ¬ mark.toList <:+: (row.label ++ "：").toList) : contains (rowLine table row) mark = false := by
  have blank : ' ' ∉ mark.toList ∧ mark.toList ≠ [] := by
    fin_cases known <;> decide
  rw [← trim_line]
  apply Bool.eq_false_of_not_eq_true
  intro found
  have whole : mark.toList <:+: table.line row := by simpa [contains] using contains_of_trim found
  have spaced := (table.spaced_cells row).mono (show 6 + 1 ≤ 8 by decide)
  have inCell : ¬ mark.toList <:+: render 6 (table.cells row) := by
    intro inside
    obtain ⟨text, member, found⟩ := isInfix_render blank.1 blank.2 spaced inside
    obtain ⟨column, -, rfl⟩ := List.mem_map.mp member
    exact (column.cell row).unmarked mark known found
  rw [Table.line] at whole
  rcases render_of_spaced spaced with nothing | ⟨rest, goes⟩
  · rw [nothing, List.append_nil] at whole
    exact outside whole
  · rw [goes] at whole
    rcases Words.isInfix_append_cons blank.1 whole with label | rest
    · exact outside label
    · exact inCell (goes ▸ rest.trans (List.suffix_cons _ _).isInfix)

theorem contains_header : contains (headerLine table) "服务商" = true := by
  rw [contains, decide_eq_true_eq]
  exact ((List.prefix_append _ ['：']).trans (List.prefix_append _ _)).isInfix

theorem header_mark (row : Row) (mark : String) (known : mark ∈ ["服务商", "流媒体"]) :
    contains (rowLine table row) mark = false := by
  apply not_contains_row
  · fin_cases known <;> decide
  · fin_cases known <;> cases row <;> decide

/-- The agent starts at the header, or at the heading where the header does not name TikTok. -/
theorem section_text : section_ table.text = (tableLines table).tail ∨ section_ table.text = tableLines table := by
  have heading : contains table.heading.text "服务商" = false ∧ contains table.heading.text "流媒体" = true ∧
      contains table.heading.text "解锁" = true := by cases table.heading <;> decide
  have media : contains (headerLine table) "流媒体" = false := by
    apply not_contains_header table (c := '流') (by decide)
    refine ⟨by decide, by decide, ?_⟩
    intro provider
    cases provider <;> decide
  have services (row : Row) := header_mark table row "服务商" (by decide)
  have titles (row : Row) := header_mark table row "流媒体" (by decide)
  cases tiktok : contains (headerLine table) "TikTok" with
  | true =>
      left
      simp only [section_, trimmed_lines]
      simp [rposition, List.findIdx?_cons, services, contains_header, tiktok, tableLines]
  | false =>
      right
      simp only [section_, trimmed_lines]
      simp [rposition, List.findIdx?_cons, services, contains_header, tiktok, titles,
        media, heading, tableLines]

/-- The test by which the agent finds a row. -/
def isRow (row : Row) (line : List Char) : Bool :=
  row.label.toList.isPrefixOf line || contains line (row.label ++ ":") || contains line (row.label ++ "：")

theorem isRow_heading (row : Row) : isRow row table.heading.text = false := by
  cases table.heading <;> cases row <;> decide

theorem isRow_header (row : Row) : isRow row (headerLine table) = false := by
  have opens : row.label.toList.isPrefixOf (headerLine table) = false := by cases row <;> rfl
  have foreign (c : Char) (known : c ∈ ['状', '地', '方']) :
      c ∉ "服务商：".toList ∧ c ≠ ' ' ∧ ∀ provider : Provider, c ∉ provider.name := by
    refine ⟨?_, ?_, ?_⟩
    · fin_cases known <;> decide
    · fin_cases known <;> decide
    · intro provider
      fin_cases known <;> cases provider <;> decide
  have marked (mark : String) (known : mark ∈ [row.label ++ ":", row.label ++ "："]) :
      contains (headerLine table) mark = false := by
    cases row with
    | status => exact not_contains_header table (by fin_cases known <;> decide) (foreign '状' (by decide))
    | region => exact not_contains_header table (by fin_cases known <;> decide) (foreign '地' (by decide))
    | method => exact not_contains_header table (by fin_cases known <;> decide) (foreign '方' (by decide))
  rw [isRow, opens, marked _ (by simp), marked _ (by simp)]
  rfl

theorem isRow_row (row : Row) : isRow row (rowLine table row) = true := by
  have opens : row.label.toList.isPrefixOf (rowLine table row) = true := by
    rw [List.isPrefixOf_iff_prefix]
    cases row <;> exact (List.prefix_append _ ['：']).trans (List.prefix_append _ _)
  rw [isRow, opens]
  rfl

theorem isRow_other {row other : Row} (ne : other ≠ row) : isRow row (rowLine table other) = false := by
  have opens : row.label.toList.isPrefixOf (rowLine table other) = false := by
    cases row <;> cases other <;> first | rfl | exact absurd rfl ne
  have marked (mark : String) (known : mark ∈ [row.label ++ ":", row.label ++ "："]) :
      contains (rowLine table other) mark = false := by
    apply not_contains_row
    · cases row <;> fin_cases known <;> decide
    · cases row <;> cases other <;> first | exact absurd rfl ne | (fin_cases known <;> decide)
  rw [isRow, opens, marked _ (by simp), marked _ (by simp)]
  rfl

theorem unlockSectionRow_text (row : Row) :
    unlockSectionRow (section_ table.text) row.label = unlockRowValues (rowLine table row) := by
  have found (lines : List (List Char)) (line : List Char) (first : lines.find? (isRow row) = some line) :
      unlockSectionRow lines row.label = unlockRowValues line := by
    change ((lines.find? (isRow row)).map unlockRowValues).getD [] = _
    rw [first]
    rfl
  rcases section_text table with header | heading
  · apply found
    cases row <;> simp [header, tableLines, isRow_header, isRow_row, isRow_other]
  · apply found
    cases row <;> simp [heading, tableLines, isRow_heading, isRow_header, isRow_row, isRow_other]

end Agent

end NieSla.Unlock
