import NieSla.Lib.Replace
import NieSla.Util.Text

/-! The text of a NodeQuality report: what is taken out of terminal output, and the addresses that are
masked in it. -/
namespace NieSla.NodeQuality
open Replace

def escape : Char := Char.ofNat 0x1b
def bell : Char := Char.ofNat 0x07

/-- How far the last `\u001b\\` of the characters reaches. -/
def lastTerminator : List Char → Option Nat
  | first :: second :: rest =>
      match lastTerminator (second :: rest) with
      | some length => some (length + 1)
      | none => if first = escape ∧ second = '\\' then some 2 else none
  | _ => none

/-- `\u001b\][^\u0007]*(?:\u0007|\u001b\\)`: up to the first bell, or else up to the last terminator. -/
def operatingSystemCommand : Pattern
  | _, first :: second :: rest =>
      if first = escape ∧ second = ']' then
        (if bell ∈ rest then some ((rest.takeWhile (· ≠ bell)).length + 1) else lastTerminator rest).map
          fun length => (length + 2, [])
      else none
  | _, _ => none

/-- `\[[0-9;?]*[ -\/]*[@-~]` -/
def startsSequence : List Char → Bool
  | '[' :: rest =>
      let parameters := rest.dropWhile fun c => c.isDigit || c = ';' || c = '?'
      let intermediates := parameters.dropWhile fun c => ' ' ≤ c && c ≤ '/'
      intermediates.head?.any fun c => '@' ≤ c && c ≤ '~'
  | _ => false

/-- `\u001b(?!\[[0-9;?]*[ -\/]*[@-~])` -/
def strayEscape : Pattern
  | _, first :: rest => if first = escape ∧ startsSequence rest = false then some (1, []) else none
  | _, [] => none

/-- `[\u0000-\u0008\u000b\u000c\u000e-\u001a\u001c-\u001f]`, and the carriage return. -/
def isControl (c : Char) : Bool :=
  c.toNat ≤ 0x08 || c.toNat = 0x0b || c.toNat = 0x0c || c.toNat = 0x0d ||
    (0x0e ≤ c.toNat && c.toNat ≤ 0x1a) || (0x1c ≤ c.toNat && c.toNat ≤ 0x1f)

def sanitizeAnsiContent (text : List Char) : List Char :=
  (replaceAll strayEscape (replaceAll operatingSystemCommand text)).filter fun c => !isControl c

/-! Addresses. -/

/-- `\w` -/
def isWord (c : Char) : Bool := c.isAlphanum || c = '_'

/-- `[0-9a-f]`, in either case. -/
def isHex (c : Char) : Bool := c.isDigit || ('a' ≤ c && c ≤ 'f') || ('A' ≤ c && c ≤ 'F')

/-- One to `limit` characters of the class, as many as there are, and what follows them. -/
def run (inClass : Char → Bool) (limit : Nat) (text : List Char) : Option (List Char × List Char) :=
  let found := text.takeWhile inClass
  if 1 ≤ found.length ∧ found.length ≤ limit then some (found, text.dropWhile inClass) else none

/-- A run of the class and the character that has to follow it. -/
def runThen (inClass : Char → Bool) (limit : Nat) (stop : Char) (text : List Char) :
    Option (List Char × List Char) :=
  (run inClass limit text).bind fun (found, rest) =>
    match rest with
    | c :: rest => if c = stop then some (found, rest) else none
    | [] => none

/-- `\b(\d{1,3})\.(\d{1,3})\.(\d{1,3})\.(\d{1,3})\b` and `${a}.${b}.*.*` -/
def ipv4 : Pattern := fun before text =>
  if before.any isWord then none
  else do
    let (a, second) ← runThen Char.isDigit 3 '.' text
    let (b, third) ← runThen Char.isDigit 3 '.' second
    let (c, fourth) ← runThen Char.isDigit 3 '.' third
    let (d, rest) ← run Char.isDigit 3 fourth
    if rest.head?.any isWord then none
    else some (a.length + b.length + c.length + d.length + 3, a ++ '.' :: b ++ ".*.*".toList)

/-- At most `limit` groups `[0-9a-f]{1,4}:`, as many as there are, and what follows them. -/
def groups : Nat → List Char → List (List Char) × List Char
  | 0, text => ([], text)
  | limit + 1, text =>
      match runThen isHex 4 ':' text with
      | some (group, rest) =>
          let (found, after) := groups limit rest
          (group :: found, after)
      | none => ([], text)

/-- `[0-9a-f]{0,4}\b` behind a colon: how many characters it takes. -/
def tailLength (text : List Char) : Option Nat :=
  match run isHex 4 text with
  | some (found, rest) =>
      if rest.head?.any isWord then some 0 else some found.length
  | none => if text.head?.any isWord then some 0 else none

/-- `\b((?:[0-9a-f]{1,4}:){2,7}[0-9a-f]{0,4})\b`: without an end behind all the groups, one group less
is tried, whose end is the group itself. -/
def ipv6 : Pattern := fun before text =>
  if before.any isWord then none
  else
    let (found, rest) := groups 7 text
    match found with
    | first :: second :: more =>
        let taken := (found.map fun group => group.length + 1).sum
        let replacement := first ++ ':' :: second ++ "::*".toList
        match tailLength rest with
        | some length => some (taken + length, replacement)
        | none => if more = [] then none else some (taken - 1, replacement)
    | _ => none

def maskReportTextIps (text : List Char) : List Char := replaceAll ipv6 (replaceAll ipv4 text)

def reportTabContent (content : String) (maskIps : Bool) : String :=
  let cleaned := sanitizeAnsiContent content.toList
  String.ofList (if maskIps then maskReportTextIps cleaned else cleaned)

example : reportTabContent "v4 203.0.113.77, v6 2001:db8:1:2:3:4:5:6 and 2001:db8::1" true =
    "v4 203.0.*.*, v6 2001:db8::* and 2001:db8::1" := by decide +kernel

end NieSla.NodeQuality
