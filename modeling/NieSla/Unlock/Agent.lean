import NieSla.Lib.Words
import NieSla.NodeQuality.Masking
import NieSla.Unlock.Services

/-! The agent's reading of a media-unlock table: values are taken by their number in the row. -/
namespace NieSla.Unlock.Agent
open NodeQuality (escape bell)

/-- `char::is_whitespace` -/
def isWhitespace (c : Char) : Bool :=
  [0x9, 0xA, 0xB, 0xC, 0xD, 0x20, 0x85, 0xA0, 0x1680, 0x2028, 0x2029, 0x202F, 0x205F,
    0x3000].contains c.val || (0x2000 ≤ c.val && c.val ≤ 0x200A)

/-- `str::trim` -/
def trim (text : List Char) : List Char := Trim.trimBy isWhitespace text

/-- What the next character of `strip_ansi_codes` belongs to. -/
inductive Reading where
  | text
  | opened (command : Bool)
  | sequence
  | command (lastWasEscape : Bool)

/-- The loop of `strip_ansi_codes`. A carriage return takes back the line, but not the lines before it. -/
def strip : Reading → List Char → List Char → List Char → List Char
  | _, lines, line, [] => lines ++ line
  | .opened command, lines, line, _ :: rest =>
      strip (if command then .command false else .sequence) lines line rest
  | .sequence, lines, line, code :: rest =>
      strip (if '@' ≤ code ∧ code ≤ '~' then .text else .sequence) lines line rest
  | .command lastWasEscape, lines, line, code :: rest =>
      strip (if code = bell ∨ (lastWasEscape ∧ code = '\\') then .text else .command (code = escape))
        lines line rest
  | .text, lines, line, ch :: rest =>
      if ch = escape ∧ rest.head? = some '[' then strip (.opened false) lines line rest
      else if ch = escape ∧ rest.head? = some ']' then strip (.opened true) lines line rest
      else if ch = '\r' then strip .text lines (if rest.head? = some '\n' then line else []) rest
      else if ch = '\n' then strip .text (lines ++ line ++ [ch]) [] rest
      else strip .text lines (line ++ [ch]) rest

def stripAnsiCodes (input : List Char) : List Char := strip .text [] [] input

/-- `str::lines` -/
def lines (text : List Char) : List (List Char) :=
  let parts := text.splitOn '\n'
  parts.dropLast.map (fun line => if line.getLast? = some '\r' then line.dropLast else line) ++
    parts.getLast?.toList.filter (· ≠ [])

def contains (line : List Char) (text : String) : Bool := decide (text.toList <:+: line)

/-- `iter().rposition` -/
def rposition (test : List Char → Bool) (lines : List (List Char)) : Option Nat :=
  (lines.reverse.findIdx? test).map fun index => lines.length - 1 - index

/-- `line.split_once(mark).map(|(_, value)| value)` -/
def splitOnce (mark : Char) (line : List Char) : Option (List Char) :=
  if mark ∈ line then some (line.dropWhile (· ≠ mark)).tail else none

/-- A fragment of a script that leaks into a row. -/
def isFragment (part : List Char) : Bool :=
  part.contains '\x7b' || part.contains '\x7d' || contains part "dataType" || contains part "Minerva"

/-- One value of `unlock_row_values`; a fragment keeps its slot. -/
def rowValue (part : List Char) : List Char :=
  let part := Trim.trimBy (· = Char.ofNat 0xfeff) (trim part)
  if isFragment part then [] else part

/-- What stands behind the first colon, of the narrow kind if there is one. -/
def afterColon (line : List Char) : List Char :=
  ((splitOnce ':' line).or (splitOnce '：' line)).getD line

def unlockRowValues (line : List Char) : List (List Char) :=
  (Words.words isWhitespace (afterColon line)).map rowValue

def unlockSectionRow (lines : List (List Char)) (label : String) : List (List Char) :=
  ((lines.find? fun line =>
    label.toList.isPrefixOf line || contains line (label ++ ":") || contains line (label ++ "：")).map
      unlockRowValues).getD []

def serviceKey (value : List Char) : List Char := (value.filter Char.isAlphanum).map Char.toLower

/-- The lines from the table's header on, or from its heading, or all. -/
def section_ (output : List Char) : List (List Char) :=
  let lines := ((lines (stripAnsiCodes output)).map trim).filter (· ≠ [])
  let start := ((rposition (fun line => contains line "服务商" && contains line "TikTok") lines).or
    (rposition (fun line => contains line "流媒体" && contains line "解锁") lines)).getD 0
  (lines.drop start).take 14

def parseUnlockServices (output : List Char) : List Service :=
  let lines := section_ output
  let providers := ((lines.find? fun line => contains line "服务商").map unlockRowValues).getD []
  let statuses := unlockSectionRow lines "状态"
  let regions := unlockSectionRow lines "地区"
  let methods := unlockSectionRow lines "方式"
  unlockServiceOrder.zipIdx.filterMap fun (provider, defaultIndex) =>
    let key := serviceKey provider.name
    let index := (providers.findIdx? fun provider => serviceKey provider = key).getD defaultIndex
    provider.service (statuses[index]?.getD []) (regions[index]?.getD []) (methods[index]?.getD [])

end NieSla.Unlock.Agent
