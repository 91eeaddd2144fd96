import NieSla.Lib.Words
import NieSla.NodeQuality.Masking
import NieSla.Unlock.Services

/-! The Worker's reading of a media-unlock table: a value goes to the column that starts nearest. Positions
count UTF-16 code units. -/
namespace NieSla.Unlock.Worker
open NodeQuality (escape operatingSystemCommand)
open Replace

def units (text : List Char) : Nat := (text.map codeUnits).sum

/-- `\u001b\[[0-9;?]*[ -\/]*[@-~]` -/
def controlSequence : Pattern
  | _, first :: '[' :: rest =>
      let parameters := rest.takeWhile fun c => c.isDigit || c = ';' || c = '?'
      let intermediates := (rest.drop parameters.length).takeWhile fun c => ' ' ≤ c && c ≤ '/'
      let length := parameters.length + intermediates.length
      if first = escape ∧ (rest.drop length).head?.any (fun c => '@' ≤ c && c ≤ '~') then some (length + 3, [])
      else none
  | _, _ => none

/-- `\u001b.`; a character of two code units goes as a whole. -/
def escapedChar : Pattern
  | _, first :: c :: _ =>
      if first = escape ∧ c ∉ ['\n', '\r', Char.ofNat 0x2028, Char.ofNat 0x2029] then some (2, []) else none
  | _, _ => none

def stripAnsiSafe (text : List Char) : List Char :=
  (replaceAll escapedChar (replaceAll operatingSystemCommand (replaceAll controlSequence text))).filter (· ≠ '\r')

def isMark (marks : List Char) : List Char → Bool
  | c :: _ => c ∈ marks
  | [] => false

/-- `/^[五5]\s*[、.]\s*流媒体(?:服务|及AI服务)?解锁检测/` -/
def nqMediaHeading (line : List Char) : Bool :=
  match trimChars (stripAnsiSafe line) with
  | [] => false
  | number :: rest =>
      let mark := rest.dropWhile isSpace
      let title := mark.tail.dropWhile isSpace
      number ∈ ['五', '5'] && isMark ['、', '.'] mark &&
        ["流媒体解锁检测", "流媒体服务解锁检测", "流媒体及AI服务解锁检测"].any fun text => text.toList.isPrefixOf title

/-- `/^[六6]\s*[、.]/` -/
def nextHeading (line : List Char) : Bool :=
  match trimChars (stripAnsiSafe line) with
  | [] => false
  | number :: rest => number ∈ ['六', '6'] && isMark ['、', '.'] (rest.dropWhile isSpace)

/-- What stands behind `^label\s*[:：]`, if the line starts so. -/
def afterLabel (label : String) (line : List Char) : Option (List Char) :=
  let rest := (line.drop label.toList.length).dropWhile isSpace
  if label.toList.isPrefixOf line && isMark [':', '：'] rest then some rest.tail else none

/-- The first line with the label, without its escape sequences. -/
def labelledLine (lines : List (List Char)) (label : String) : Option (List Char) :=
  (lines.find? fun item => (afterLabel label (trimChars (stripAnsiSafe item))).isSome).map stripAnsiSafe

/-- The names and the positions they start at. -/
def nqMediaHeader (lines : List (List Char)) : List (Nat × List Char) :=
  match labelledLine lines "服务商" with
  | none => []
  | some plain =>
      let body := ((afterLabel "服务商" plain).map (List.dropWhile isSpace)).getD plain
      Words.tokens isSpace codeUnits (units plain - units body) body

/-- The characters that `cleanExternalCell` takes out. -/
def isControl (c : Char) : Bool := c.toNat ≤ 0x1f || c.toNat = 0x7f

def cleanExternalCell (value : List Char) (maxLength : Nat) : List Char :=
  let text := trimChars (value.filter fun c => !isControl c)
  if text.contains '\x7b' || text.contains '\x7d' || decide ("dataType".toList <:+: text) ||
      decide ("Minerva".toList <:+: text) then []
  else cutChars maxLength text

def distance (starts : List Nat) (position column : Nat) : Nat :=
  ((starts[column]?.getD 0 : Int) - (position : Int)).natAbs

/-- The nearest column from `passed` on, the first one of equals. -/
def bestColumn (starts : List Nat) (passed position : Nat) : Option Nat :=
  List.argmin (distance starts position) ((List.range starts.length).drop passed)

/-- The loop over the tokens: a token goes to its nearest column, and the columns up to it are passed. -/
def assign (starts : List Nat) : List (List Char) → Nat → List (Nat × List Char) → List (List Char)
  | values, _, [] => values
  | values, passed, (position, token) :: rest =>
      if cleanExternalCell token 80 = [] then assign starts values passed rest
      else match bestColumn starts passed position with
        | none => values
        | some column =>
            let values := if values[column]?.getD [] = [] then values.set column token else values
            assign starts values (column + 1) rest

def nqMediaRow (lines : List (List Char)) (label : String) (starts : List Nat) : List (List Char) :=
  match labelledLine lines label with
  | none => []
  | some plain =>
      let body := (afterLabel label plain).getD plain
      assign starts (starts.map fun _ => []) 0 (Words.tokens isSpace codeUnits (units plain - units body) body)

/-- `pick`: a dash stands for no value. -/
def pick (value : List Char) (max : Nat) : List Char :=
  if trimChars value ∈ [['-'], ['—']] then [] else cleanExternalCell value max

def normalizeNqMediaService (rawName rawStatus rawRegion rawMethod : List Char) : Option Service :=
  let name := pick rawName 40
  let status := pick rawStatus 80
  let region := pick rawRegion 40
  let method := pick rawMethod 40
  if name = [] ∨ (status = [] ∧ region = [] ∧ method = []) then none
  else
    let lower := name.flatMap lowerChar
    let key := lower.filter fun c => c.isLower || c.isDigit || c = '+'
    match nqMediaProviders.lookup key with
    | some provider => some ⟨provider.id, provider.name, status, region, method⟩
    | none =>
        let id := lower.flatMap fun c =>
          if c.isLower || c.isDigit || c ∈ ['_', '+', '-'] then [c] else List.replicate (codeUnits c) '_'
        some ⟨cutChars 40 id, name, status, region, method⟩

/-- The lines from the table's heading to the next one. -/
def block (content : List Char) : List (List Char) :=
  let lines := (content.filter (· ≠ '\r')).splitOn '\n'
  match lines.findIdx? nqMediaHeading with
  | none => []
  | some start =>
      let table := lines.drop start
      table.take 1 ++ table.tail.takeWhile fun line => !nextHeading line

def parseNqMediaServices (content : List Char) : List Service :=
  let lines := block content
  let header := nqMediaHeader lines
  let names := header.map Prod.snd
  let starts := header.map Prod.fst
  if names = [] then []
  else
    let statuses := nqMediaRow lines "状态" starts
    let regions := nqMediaRow lines "地区" starts
    let methods := nqMediaRow lines "方式" starts
    let count := max (max names.length statuses.length) (max regions.length methods.length)
    (List.range count).filterMap fun index =>
      normalizeNqMediaService (names[index]?.getD []) (statuses[index]?.getD []) (regions[index]?.getD [])
        (methods[index]?.getD [])

end NieSla.Unlock.Worker
