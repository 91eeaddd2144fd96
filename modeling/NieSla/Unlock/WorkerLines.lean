import NieSla.Unlock.AgentLines

/-! The lines of a table as the Worker finds them. -/
namespace NieSla.Unlock.Worker

open NodeQuality (escape operatingSystemCommand)
open Replace

theorem stripAnsiSafe_plain {text : List Char} (plain : ∀ c ∈ text, c ≠ '\r' ∧ c ≠ escape) :
    stripAnsiSafe text = text := by
  have opens {rest : List Char} (suffix : rest <:+ text) {c : Char} {more : List Char} (shape : rest = c :: more) :
      c ≠ escape := (plain c (suffix.subset (shape ▸ List.mem_cons_self))).2
  have sequences : replaceAll controlSequence text = text := by
    apply replaceAll_of_none
    intro before rest suffix
    unfold controlSequence
    split
    · exact if_neg fun both => opens suffix rfl both.1
    · rfl
  have commands : replaceAll operatingSystemCommand text = text := by
    apply replaceAll_of_none
    intro before rest suffix
    unfold operatingSystemCommand
    split
    · exact if_neg fun both => opens suffix rfl both.1
    · rfl
  have escapes : replaceAll escapedChar text = text := by
    apply replaceAll_of_none
    intro before rest suffix
    unfold escapedChar
    split
    · exact if_neg fun both => opens suffix rfl both.1
    · rfl
  rw [stripAnsiSafe, sequences, commands, escapes, List.filter_eq_self]
  exact fun c member => decide_eq_true (plain c member).1

variable (table : Table)

theorem stripAnsiSafe_line {line : List Char} (member : line ∈ table.lines) : stripAnsiSafe line = line :=
  stripAnsiSafe_plain fun c inside => (printed_ne (table.printed_lines line member c inside)).2

theorem afterLabel_label {label : String} {rest : List Char} :
    afterLabel label (label.toList ++ '：' :: rest) = some rest := by
  simp [afterLabel, isMark, show isSpace '：' = false by decide]

theorem trimChars_header :
    trimChars table.header = "服务商".toList ++ '：' :: (render 8 table.names).rdropWhile isSpace :=
  @Words.trimBy_append _ _ ("服务商：".toList) (by decide) (by simp; decide) _

theorem trimChars_line (row : Row) :
    trimChars (table.line row) = row.label.toList ++ '：' :: (render 6 (table.cells row)).rdropWhile isSpace := by
  have some_ : (row.label ++ "：").toList ≠ [] := by cases row <;> decide
  have all : (row.label ++ "：").toList.all (!isSpace ·) = true := by cases row <;> decide
  have solid : ∀ c ∈ (row.label ++ "：").toList, isSpace c = false := by
    simpa only [List.all_eq_true, Bool.not_eq_true'] using all
  have wide : "：".toList = ['：'] := rfl
  change Trim.trimBy isSpace (table.line row) = _
  rw [Table.line, Words.trimBy_append some_ solid, String.toList_append, wide, List.append_assoc,
    List.singleton_append]

theorem mem_lines_header : table.header ∈ table.lines := by simp [Table.lines]

theorem mem_lines_row (row : Row) : table.line row ∈ table.lines := by cases row <;> simp [Table.lines]

theorem nqMediaHeading_heading : nqMediaHeading table.heading.text = true := by
  cases table.heading <;> decide

theorem nextHeading_header : nextHeading table.header = false := by
  rw [nextHeading, stripAnsiSafe_line table (mem_lines_header table), trimChars_header]
  rfl

theorem nextHeading_line (row : Row) : nextHeading (table.line row) = false := by
  rw [nextHeading, stripAnsiSafe_line table (mem_lines_row table row), trimChars_line]
  cases row <;> rfl

/-- The table is one block. -/
theorem block_text : block table.text = table.lines := by
  have kept : table.text.filter (· ≠ '\r') = table.text :=
    List.filter_eq_self.mpr fun c member => decide_eq_true (table.plain_text c member).1
  simp only [block, kept, table.splitOn_text]
  simp [Table.lines, List.findIdx?_cons, nqMediaHeading_heading, nextHeading_header, nextHeading_line]

/-! The line of each label. -/

/-- The test by which the Worker finds a line. -/
def isLabelled (label : String) (item : List Char) : Bool :=
  (afterLabel label (trimChars (stripAnsiSafe item))).isSome

theorem isLabelled_heading {label : String} (known : label ∈ ["服务商", "状态", "地区", "方式"]) :
    isLabelled label table.heading.text = false := by
  fin_cases known <;> cases table.heading <;> decide

theorem isLabelled_header : isLabelled "服务商" table.header = true := by
  rw [isLabelled, stripAnsiSafe_line table (mem_lines_header table), trimChars_header, afterLabel_label]
  rfl

theorem isLabelled_row (row : Row) : isLabelled row.label (table.line row) = true := by
  rw [isLabelled, stripAnsiSafe_line table (mem_lines_row table row), trimChars_line, afterLabel_label]
  rfl

theorem isLabelled_row_header (row : Row) : isLabelled row.label table.header = false := by
  rw [isLabelled, stripAnsiSafe_line table (mem_lines_header table), trimChars_header]
  cases row <;> rfl

theorem isLabelled_other {row other : Row} (ne : other ≠ row) : isLabelled row.label (table.line other) = false := by
  rw [isLabelled, stripAnsiSafe_line table (mem_lines_row table other), trimChars_line]
  cases row <;> cases other <;> first | rfl | exact absurd rfl ne

theorem labelledLine_of_find {label : String} {line : List Char} (member : line ∈ table.lines)
    (first : table.lines.find? (isLabelled label) = some line) : labelledLine table.lines label = some line := by
  change (table.lines.find? (isLabelled label)).map stripAnsiSafe = _
  rw [first, Option.map_some, stripAnsiSafe_line table member]

theorem labelledLine_header : labelledLine table.lines "服务商" = some table.header := by
  apply labelledLine_of_find table (mem_lines_header table)
  have heading := isLabelled_heading table (show "服务商" ∈ _ by simp)
  simp [Table.lines, heading, isLabelled_header]

theorem labelledLine_row (row : Row) : labelledLine table.lines row.label = some (table.line row) := by
  apply labelledLine_of_find table (mem_lines_row table row)
  have heading : isLabelled row.label table.heading.text = false := by
    apply isLabelled_heading
    cases row <;> decide
  cases row <;> simp [Table.lines, heading, isLabelled_row_header, isLabelled_row, isLabelled_other]

end NieSla.Unlock.Worker
