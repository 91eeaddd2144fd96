import NieSla.Unlock.AgentReads
import NieSla.Unlock.WorkerValues

/-! When both sides give the values of a table to the services in whose columns they stand. -/
namespace NieSla.Unlock
open Blanks

/-- Both parsers return the services of the table, and no others. -/
def Attributed (table : Table) : Prop :=
  (Agent.parseUnlockServices table.text).Perm table.services ∧
    (Worker.parseNqMediaServices table.text).Perm table.services

/-- A cell that both sides take as one value, and keep as it is. -/
structure Whole (limit : Nat) (cell : List Char) : Prop where
  solid : ∀ c ∈ cell, isSpace c = false ∧ c ≠ ':'
  clean : Agent.isFragment cell = false
  value : cell ∉ Worker.dashes
  short : Worker.units cell ≤ limit

/-- Every cell is one value, no blank stands in front of a value, a provider without a column would find nothing at
its default index, and no cell starts nearer to a later column. -/
structure Readable (table : Table) : Prop where
  whole : ∀ row, ∀ column ∈ table.columns, Whole (Worker.limit row) (column.cell row).text
  trailing : ∀ row, Trailing (table.values row)
  unnamed : ∀ provider, table.index provider = none → ∀ row,
    valueAt (table.values row) (unlockServiceOrder.idxOf provider) = []
  near : ∀ row, Worker.Near table row

/-- The agent's white space that is printed is the Worker's too. -/
theorem isSpace_of_isWhitespace {c : Char} (printed : isPrinted c = true) (white : Agent.isWhitespace c = true) :
    isSpace c = true := by
  have control : c.val ≠ 0x85 := by
    intro same
    have number : c.toNat = 0x85 := congrArg UInt32.toNat same
    simp [isPrinted, number] at printed
  simp only [Agent.isWhitespace, isSpace, List.contains_cons, List.contains_nil, Bool.or_eq_true, beq_iff_eq,
    Bool.or_false] at white ⊢
  tauto

theorem solid_of_isSpace {cell : Cell} (solid : ∀ c ∈ cell.text, isSpace c = false) :
    ∀ c ∈ cell.text, Agent.isWhitespace c = false := by
  intro c member
  apply Bool.eq_false_of_not_eq_true
  intro white
  exact Bool.false_ne_true ((solid c member).symm.trans (isSpace_of_isWhitespace (cell.printed c member) white))

/-- The agent keeps a cell without the Worker's white space exactly when it has no narrow colon and is no
fragment. -/
theorem kept_iff {cell : Cell} (solid : ∀ c ∈ cell.text, isSpace c = false) :
    Agent.Kept cell.text ↔ (∀ c ∈ cell.text, c ≠ ':') ∧ Agent.isFragment cell.text = false := by
  have white := solid_of_isSpace solid
  have mark : ∀ c ∈ cell.text, decide (c = Char.ofNat 0xfeff) = false := by
    rintro c member
    apply decide_eq_false
    rintro rfl
    exact absurd (solid _ member) (by decide)
  have value : Agent.rowValue cell.text = if Agent.isFragment cell.text then [] else cell.text := by
    rw [Agent.rowValue, Agent.trim, Words.trimBy_of_solid white, Words.trimBy_of_solid mark]
  rw [Agent.Kept, value]
  constructor
  · rintro ⟨chars, read⟩
    refine ⟨fun c member => (chars c member).2, ?_⟩
    cases fragment : Agent.isFragment cell.text with
    | false => rfl
    | true =>
        rw [fragment, if_pos rfl] at read
        rw [← read] at fragment
        exact absurd fragment (by decide)
  · rintro ⟨chars, fragment⟩
    exact ⟨fun c member => ⟨white c member, chars c member⟩, by rw [fragment]; rfl⟩

/-- Both sides read a row right exactly when its cells are whole, its blanks are at the end, and its cells start
nearest to their columns. -/
theorem reads_row_iff (table : Table) (row : Row) :
    ((∀ i < table.columns.length,
        valueAt (Agent.unlockRowValues (Agent.rowLine table row)) i = valueAt (table.values row) i) ∧
      ∀ i < table.columns.length,
        Worker.pick (valueAt (Worker.rowValues table row) i) (Worker.limit row) = valueAt (table.values row) i) ↔
      (∀ column ∈ table.columns, Whole (Worker.limit row) (column.cell row).text) ∧
        Trailing (table.values row) ∧ Worker.Near table row := by
  rw [Agent.reads_row_iff]
  simp only [Table.values, List.forall_mem_map]
  constructor
  · rintro ⟨⟨kept, trailing⟩, read⟩
    have solid := Worker.solid_of_reads table read
    have clean := fun column member => (kept_iff (solid column member)).mp (kept column member)
    obtain ⟨⟨-, values⟩, near⟩ :=
      (Worker.reads_row_iff table (fun column member => (clean column member).2) trailing).mp read
    refine ⟨?_, trailing, near⟩
    intro column member
    exact ⟨fun c inside => ⟨solid column member c inside, (clean column member).1 c inside⟩, (clean column member).2,
      (values column member).1, (values column member).2⟩
  · rintro ⟨whole, trailing, near⟩
    have solid : Worker.Solid table row := fun column member c inside => ((whole column member).solid c inside).1
    refine ⟨⟨?_, trailing⟩, ?_⟩
    · intro column member
      exact (kept_iff (solid column member)).mpr
        ⟨fun c inside => ((whole column member).solid c inside).2, (whole column member).clean⟩
    · apply (Worker.reads_row_iff table (fun column member => (whole column member).clean) trailing).mpr
      exact ⟨⟨solid, fun column member => ⟨(whole column member).value, (whole column member).short⟩⟩, near⟩

/-- Both sides return the services of a table exactly when it is readable. -/
theorem attributed_iff (table : Table) : Attributed table ↔ Readable table := by
  have default {row : Row} (whole : ∀ column ∈ table.columns, Whole (Worker.limit row) (column.cell row).text)
      (trailing : Trailing (table.values row)) (index : Nat) :
      valueAt (Agent.unlockRowValues (Agent.rowLine table row)) index = valueAt (table.values row) index := by
    have kept : ∀ cell ∈ table.values row, Agent.Kept cell := by
      simp only [Table.values, List.forall_mem_map]
      intro column member
      apply (kept_iff fun c inside => ((whole column member).solid c inside).1).mpr
      exact ⟨fun c inside => ((whole column member).solid c inside).2, (whole column member).clean⟩
    rw [Agent.unlockRowValues_row table kept, valueAt_filter trailing]
  rw [Attributed, Agent.perm_iff, Worker.perm_iff]
  constructor
  · rintro ⟨⟨agent, unnamed⟩, worker⟩
    have rows := fun row => (reads_row_iff table row).mp ⟨agent row, worker row⟩
    refine ⟨fun row => (rows row).1, fun row => (rows row).2.1, ?_, fun row => (rows row).2.2⟩
    intro provider missing row
    rw [← default (rows row).1 (rows row).2.1]
    exact unnamed provider missing row
  · intro readable
    have rows := fun row =>
      (reads_row_iff table row).mpr ⟨readable.whole row, readable.trailing row, readable.near row⟩
    refine ⟨⟨fun row => (rows row).1, ?_⟩, fun row => (rows row).2⟩
    intro provider missing row
    rw [default (readable.whole row) (readable.trailing row)]
    exact readable.unnamed provider missing row

/-! A table whose first region is blank. -/

def Cell.checked (text : List Char) : Bool :=
  text.all isPrinted && trimChars text == text && marks.all fun mark => !decide (mark.toList <:+: text)

theorem Cell.checked_iff {text : List Char} :
    Cell.checked text = true ↔
      (∀ c ∈ text, isPrinted c = true) ∧ trimChars text = text ∧ ∀ mark ∈ marks, ¬ mark.toList <:+: text := by
  simp [Cell.checked, and_assoc]

def Cell.ofChecked (text : List Char) (known : Cell.checked text = true) : Cell :=
  ⟨text, (Cell.checked_iff.mp known).1, (Cell.checked_iff.mp known).2.1, (Cell.checked_iff.mp known).2.2⟩

theorem checked_blank : Cell.checked [] = true := by decide

theorem checked_unlocked : Cell.checked "解锁".toList = true := by decide

theorem checked_us : Cell.checked "[US]".toList = true := by decide

theorem checked_native : Cell.checked "原生".toList = true := by decide

def regionCells (region : Cell) : Row → Cell
  | .status => .ofChecked _ checked_unlocked
  | .region => region
  | .method => .ofChecked _ checked_native

def regionColumns : List Column :=
  [⟨.tiktok, 9, regionCells (.ofChecked _ checked_blank)⟩, ⟨.disneyPlus, 16, regionCells (.ofChecked _ checked_us)⟩]

theorem distinct_regionColumns : (regionColumns.map Column.provider).Nodup := by decide

theorem fits_regionColumns : Fits 8 regionColumns := by
  refine ⟨?_, ?_, trivial⟩ <;> decide

def blankRegion : Table := ⟨.mediaAndAi, regionColumns, distinct_regionColumns, fits_regionColumns⟩

/-- The agent gives the region of Disney+ to TikTok. -/
theorem blank_region_shifts : ¬ Attributed blankRegion := by
  have wrong : ⟨"tiktok".toList, "TikTok".toList, "解锁".toList, "[US]".toList, "原生".toList⟩ ∈
      Agent.parseUnlockServices blankRegion.text := by decide +kernel
  intro both
  exact absurd (both.1.mem_iff.mp wrong) (by decide +kernel)

end NieSla.Unlock
