import NieSla.Lib.Words
import NieSla.Unlock.Services

/-! Media-unlock tables: the columns that the header names, and the lines that show them aligned by display
width. -/
namespace NieSla.Unlock

/-! Display width, as the report's renderer counts it. -/

def isCombining (c : Char) : Bool :=
  (0x300 ≤ c.toNat && c.toNat ≤ 0x36f) || (0xfe00 ≤ c.toNat && c.toNat ≤ 0xfe0f)

def isWide (c : Char) : Bool :=
  let cp := c.toNat
  0x1100 ≤ cp && (cp ≤ 0x115f || cp = 0x2329 || cp = 0x232a || (0x2e80 ≤ cp && cp ≤ 0xa4cf) ||
    (0xac00 ≤ cp && cp ≤ 0xd7a3) || (0xf900 ≤ cp && cp ≤ 0xfaff) || (0xfe10 ≤ cp && cp ≤ 0xfe6f) ||
    (0xff00 ≤ cp && cp ≤ 0xff60) || (0xffe0 ≤ cp && cp ≤ 0xffe6) || (0x1f300 ≤ cp && cp ≤ 0x1faff))

def charWidth (c : Char) : Nat := if isCombining c then 0 else if isWide c then 2 else 1

def displayWidth (text : List Char) : Nat := (text.map charWidth).sum

/-! Cells and columns. -/

inductive Row where
  | status
  | region
  | method
  deriving DecidableEq

def Row.label : Row → String
  | status => "状态"
  | region => "地区"
  | method => "方式"

/-- What the lines of a table are found by. -/
def marks : List String := ["服务商", "流媒体", "状态:", "状态：", "地区:", "地区：", "方式:", "方式："]

/-- Control characters are not printed. -/
def isPrinted (c : Char) : Bool := 0x20 ≤ c.toNat && !(0x7f ≤ c.toNat && c.toNat ≤ 0x9f)

/-- The text of a cell; it is blank, or starts and ends with something to see. -/
structure Cell where
  text : List Char
  printed : ∀ c ∈ text, isPrinted c = true
  trimmed : trimChars text = text
  unmarked : ∀ mark ∈ marks, ¬ mark.toList <:+: text

structure Column where
  provider : Provider
  /-- The display column at which the name and the cells start. -/
  start : Nat
  cell : Row → Cell

/-- What the column shows of its provider, if anything. -/
def Column.service (column : Column) : Option Service :=
  column.provider.service (column.cell .status).text (column.cell .region).text (column.cell .method).text

def Column.width (column : Column) : Nat :=
  max (max (displayWidth column.provider.name) (displayWidth (column.cell .status).text))
    (max (displayWidth (column.cell .region).text) (displayWidth (column.cell .method).text))

/-- Each column starts behind the one before it, with a blank between them. -/
def Fits : Nat → List Column → Prop
  | _, [] => True
  | left, column :: rest => left ≤ column.start ∧ Fits (column.start + column.width + 1) rest

inductive Heading where
  | media
  | mediaServices
  | mediaAndAi

def Heading.text : Heading → List Char
  | media => "五、流媒体解锁检测".toList
  | mediaServices => "五、流媒体服务解锁检测".toList
  | mediaAndAi => "五、流媒体及AI服务解锁检测".toList

/-- A table; the label of its header takes eight columns. -/
structure Table where
  heading : Heading
  columns : List Column
  distinct : (columns.map Column.provider).Nodup
  fits : Fits 8 columns

/-- The texts at their display columns, behind a text of the given width. -/
def render : Nat → List (Nat × List Char) → List Char
  | _, [] => []
  | width, (start, text) :: rest =>
      List.replicate (start - width) ' ' ++ (text ++ render (start + displayWidth text) rest)

namespace Table

variable (table : Table)

def names : List (Nat × List Char) := table.columns.map fun column => (column.start, column.provider.name)

def cells (row : Row) : List (Nat × List Char) :=
  table.columns.map fun column => (column.start, (column.cell row).text)

def header : List Char := "服务商：".toList ++ render 8 table.names

def line (row : Row) : List Char := (row.label ++ "：").toList ++ render 6 (table.cells row)

def lines : List (List Char) :=
  [table.heading.text, table.header, table.line .status, table.line .region, table.line .method]

def text : List Char := ['\n'].intercalate table.lines

/-- The texts of a row, one for each column. -/
def values (row : Row) : List (List Char) := table.columns.map fun column => (column.cell row).text

/-- The services that the table shows: every value at the provider in whose column it stands. -/
def services : List Service := table.columns.filterMap Column.service

end Table

end NieSla.Unlock
