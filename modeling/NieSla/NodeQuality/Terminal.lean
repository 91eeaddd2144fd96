import NieSla.Lib.Doubles
import NieSla.Lib.Scan
import NieSla.Lib.Xml

/-! The terminal output of a report as the image of a tab takes it: cleaned, cut into lines, and each line cut into
segments of one style. A text is the list of its UTF-16 code units. -/
namespace NieSla.NodeQuality.Terminal

open Scan (Finder)
open Xml (units)

abbrev Text := List Nat

def escape : Nat := 0x1b
def bell : Nat := 0x07
def newline : Nat := 0x0a

/-! Cleaning. -/

/-- How far the last `\u001b\\` reaches. -/
def lastTerminator : Text → Option Nat
  | first :: second :: rest =>
      match lastTerminator (second :: rest) with
      | some length => some (length + 1)
      | none => if first = escape ∧ second = 0x5c then some 2 else none
  | _ => none

/-- `\u001b\][^\u0007]*(?:\u0007|\u001b\\)`: up to the first bell, or else up to the last terminator. -/
def operatingSystemCommand : Finder Nat Text
  | first :: second :: rest =>
      if first = escape ∧ second = 0x5d then
        (if bell ∈ rest then some ((rest.takeWhile (· ≠ bell)).length + 1) else lastTerminator rest).map
          fun length => (length + 2, [])
      else none
  | _ => none

/-- `[0-9]` -/
def isDigit (unit : Nat) : Bool := 0x30 ≤ unit && unit ≤ 0x39

/-- `[0-9;?]` -/
def isParameter (unit : Nat) : Bool := isDigit unit || unit = 0x3b || unit = 0x3f

/-- `[ -\/]` -/
def isIntermediate (unit : Nat) : Bool := 0x20 ≤ unit && unit ≤ 0x2f

/-- `[@-~]` -/
def isFinal (unit : Nat) : Bool := 0x40 ≤ unit && unit ≤ 0x7e

structure Sequence where
  parameters : Text
  intermediates : Text
  final : Nat
deriving DecidableEq

def Sequence.text (sequence : Sequence) : Text :=
  escape :: 0x5b :: (sequence.parameters ++ sequence.intermediates ++ [sequence.final])

/-- `\u001b\[[0-9;?]*[ -\/]*[@-~]` -/
def controlSequence : Finder Nat Sequence
  | first :: second :: rest =>
      if first = escape ∧ second = 0x5b then
        let more := rest.dropWhile isParameter
        match more.dropWhile isIntermediate with
        | final :: _ =>
            let sequence : Sequence := ⟨rest.takeWhile isParameter, more.takeWhile isIntermediate, final⟩
            if isFinal final then some (sequence.text.length, sequence) else none
        | [] => none
      else none
  | _ => none

/-- `\u001b(?!\[[0-9;?]*[ -\/]*[@-~])` -/
def strayEscape : Finder Nat Text := fun text =>
  if text.head? = some escape ∧ controlSequence text = none then some (1, []) else none

/-- `[\u0000-\u0008\u000b\u000c\u000e-\u001a\u001c-\u001f]`, and the carriage return. -/
def isControl (unit : Nat) : Bool :=
  unit ≤ 0x08 || unit = 0x0b || unit = 0x0c || unit = 0x0d || (0x0e ≤ unit && unit ≤ 0x1a) ||
    (0x1c ≤ unit && unit ≤ 0x1f)

def sanitizeAnsiContent (text : Text) : Text :=
  (Scan.replace strayEscape (Scan.replace operatingSystemCommand text)).filter fun unit => !isControl unit

def sequenceText : Finder Nat Text := fun text => (controlSequence text).map fun found => (found.1, [])

/-- `\u001b.`; a dot is no end of line. -/
def escapedCharacter : Finder Nat Text
  | first :: second :: _ =>
      if first = escape ∧ second ∉ [0x0a, 0x0d, 0x2028, 0x2029] then some (2, []) else none
  | _ => none

def stripAnsiSafe (text : Text) : Text :=
  (Scan.replace escapedCharacter (Scan.replace operatingSystemCommand (Scan.replace sequenceText text))).filter
    fun unit => unit ≠ 0x0d

/-- The sequences that set a style are kept. -/
def styleSequence : Finder Nat Text := fun text =>
  (controlSequence text).map fun found => (found.1, if found.2.final = 0x6d then found.2.text else [])

/-- A tab as four spaces. -/
def expandTab (unit : Nat) : Text := if unit = 0x09 then [0x20, 0x20, 0x20, 0x20] else [unit]

def sourceOf (content : Text) : Text :=
  Scan.replace styleSequence ((sanitizeAnsiContent content).flatMap expandTab)

/-! Columns. -/

/-- The text as `for … of` takes it: two surrogates make one character, and one alone is a character too. -/
def characters : Text → List Text
  | [] => []
  | [unit] => [[unit]]
  | unit :: second :: rest =>
      if Xml.isHigh unit && Xml.isLow second then [unit, second] :: characters rest
      else [unit] :: characters (second :: rest)

def codePoint : Text → Nat
  | [high, low] => 0x10000 + (high - 0xd800) * 0x400 + (low - 0xdc00)
  | character => character.head?.getD 0

def isCombining (cp : Nat) : Bool := (0x0300 ≤ cp && cp ≤ 0x036f) || (0xfe00 ≤ cp && cp ≤ 0xfe0f)

def isWide (cp : Nat) : Bool :=
  0x1100 ≤ cp && (cp ≤ 0x115f || cp = 0x2329 || cp = 0x232a || (0x2e80 ≤ cp && cp ≤ 0xa4cf) ||
    (0xac00 ≤ cp && cp ≤ 0xd7a3) || (0xf900 ≤ cp && cp ≤ 0xfaff) || (0xfe10 ≤ cp && cp ≤ 0xfe6f) ||
    (0xff00 ≤ cp && cp ≤ 0xff60) || (0xffe0 ≤ cp && cp ≤ 0xffe6) || (0x1f300 ≤ cp && cp ≤ 0x1faff))

def visibleColumns (text : Text) : Nat :=
  (characters text).foldl (fun width character =>
    let cp := codePoint character
    if cp = 9 then width + (4 - width % 4)
    else if isCombining cp then width
    else width + if isWide cp then 2 else 1) 0

/-! Styles. -/

inductive Color where
  | palette (index : Nat) (bright : Bool)
  | color (value : Text)
deriving DecidableEq

/-- `defaultAnsiState` is the state of the defaults. -/
structure AnsiState where
  foreground : Option Color := none
  background : Option Color := none
  bold : Bool := false
  dim : Bool := false
  italic : Bool := false
  underline : Bool := false
  inverse : Bool := false
  hidden : Bool := false
  strike : Bool := false
deriving DecidableEq

def decimal (n : Nat) : Text := units (toString n)

/-- `Number` of digits, up to rounding, which no comparison of a code can tell. -/
def numberOf (digits : Text) : Nat := digits.foldl (fun n digit => 10 * n + (digit - 0x30)) 0

/-- A number of so many digits is infinite. -/
def isFinite (code : Nat) : Bool := Doubles.rounded code < Doubles.overflow

def codesOf (value : Text) : List Nat :=
  (Scan.splitAt (· = 0x3b) (if value = [] then [0x30] else value)).map numberOf

def themeNormal : List Text :=
  [units "#050404", units "#bd0013", units "#4ab118", units "#e7741e", units "#0f4ac6", units "#665993",
    units "#70a598", units "#f8dcc0"]

def themeBright : List Text :=
  [units "#4e7cbf", units "#fc5f5a", units "#9eff6e", units "#efc11a", units "#1997c6", units "#9b5953",
    units "#c8faf4", units "#f6f5fb"]

def themeForeground : Text := units "#f8dcc0"
def themeBackground : Text := units "#1d1d1e"

/-- How a missing entry of an array is written. -/
def undefined_ : Text := units "undefined"

def rgb (r g b : Text) : Text :=
  units "rgb(" ++ r ++ units "," ++ g ++ units "," ++ b ++ units ")"

def ansi256Color (value : Nat) : Text :=
  let index := min 255 value
  if index < 8 then themeNormal[index]?.getD undefined_
  else if index < 16 then themeBright[index - 8]?.getD undefined_
  else if 232 ≤ index then
    let level := decimal (8 + (index - 232) * 10)
    rgb level level level
  else
    let cube := index - 16
    let channel (part : Nat) := decimal (if part = 0 then 0 else 55 + part * 40)
    rgb (channel (cube / 36)) (channel (cube % 36 / 6)) (channel (cube % 6))

/-- The colour of `codes.slice(index + 2, index + 5)`. -/
def trueColor (channels : List Nat) : Text :=
  let channel (place : Nat) := (channels[place]?.map fun item => decimal (min 255 item)).getD undefined_
  rgb (channel 0) (channel 1) (channel 2)

def AnsiState.setColor (state : AnsiState) (code : Nat) (color : Text) : AnsiState :=
  if code = 38 then { state with foreground := some (.color color) }
  else { state with background := some (.color color) }

/-- A code that stands alone. -/
def applyAnsiCode (state : AnsiState) (code : Nat) : AnsiState :=
  if code = 0 then {}
  else if code = 1 then { state with bold := true }
  else if code = 2 then { state with dim := true }
  else if code = 3 then { state with italic := true }
  else if code = 4 ∨ code = 21 then { state with underline := true }
  else if code = 7 then { state with inverse := true }
  else if code = 8 then { state with hidden := true }
  else if code = 9 then { state with strike := true }
  else if code = 22 then { state with bold := false, dim := false }
  else if code = 23 then { state with italic := false }
  else if code = 24 then { state with underline := false }
  else if code = 27 then { state with inverse := false }
  else if code = 28 then { state with hidden := false }
  else if code = 29 then { state with strike := false }
  else if 30 ≤ code ∧ code ≤ 37 then { state with foreground := some (.palette (code - 30) false) }
  else if 90 ≤ code ∧ code ≤ 97 then { state with foreground := some (.palette (code - 90) true) }
  else if 40 ≤ code ∧ code ≤ 47 then { state with background := some (.palette (code - 40) false) }
  else if 100 ≤ code ∧ code ≤ 107 then { state with background := some (.palette (code - 100) true) }
  else if code = 39 then { state with foreground := none }
  else if code = 49 then { state with background := none }
  else state

/-- The loop over the codes; `skip` of them belong to the color before. -/
def applyCodes : Nat → AnsiState → List Nat → AnsiState
  | _, state, [] => state
  | skip + 1, state, _ :: rest => applyCodes skip state rest
  | 0, state, code :: rest =>
      if code = 38 ∨ code = 48 then
        match rest with
        | 5 :: index :: _ =>
            if isFinite index then applyCodes 2 (state.setColor code (ansi256Color index)) rest
            else applyCodes 0 state rest
        | 2 :: more =>
            if (more.take 3).all isFinite then applyCodes 4 (state.setColor code (trueColor (more.take 3))) rest
            else applyCodes 0 state rest
        | _ => applyCodes 0 state rest
      else applyCodes 0 (applyAnsiCode state code) rest

def applyAnsiCodes (state : AnsiState) (value : Text) : AnsiState := applyCodes 0 state (codesOf value)

def resolveTerminalColor (value : Option Color) (bold background : Bool) : Text :=
  match value with
  | none => if background then themeBackground else themeForeground
  | some (.color value) => value
  | some (.palette index bright) =>
      ((if bright || (bold && !background) then themeBright else themeNormal)[index]?).getD undefined_

/-- Foreground and background. -/
def terminalSegmentStyle (state : AnsiState) : Text × Text :=
  let foreground := resolveTerminalColor state.foreground state.bold false
  let background := resolveTerminalColor state.background false true
  if state.inverse then (background, foreground) else (foreground, background)

/-! Segments. -/

structure Segment where
  text : Text
  column : Nat
  columns : Nat
  state : AnsiState

/-- `\u001b\[([0-9;]*)m` -/
def styleCodes : Finder Nat Text
  | first :: second :: rest =>
      if first = escape ∧ second = 0x5b then
        let isCode (unit : Nat) := isDigit unit || unit = 0x3b
        match rest.dropWhile isCode with
        | 0x6d :: _ => some ((rest.takeWhile isCode).length + 3, rest.takeWhile isCode)
        | _ => none
      else none
  | _ => none

def append (state : AnsiState) (column : Nat) (text : Text) : List Segment :=
  if text = [] then [] else [⟨text, column, visibleColumns text, state⟩]

/-- The loop over the matches; `text` stands between the last one and the current place. -/
def segmentsOf : AnsiState → Nat → Text → List (Nat ⊕ Text) → List Segment × AnsiState
  | state, column, text, [] => (append state column text, state)
  | state, column, text, .inl unit :: rest => segmentsOf state column (text ++ [unit]) rest
  | state, column, text, .inr codes :: rest =>
      let later := segmentsOf (applyAnsiCodes state codes) (column + visibleColumns text) [] rest
      (append state column text ++ later.1, later.2)

/-- The segments of a line, and the state that they leave. -/
def ansiSegments (line : Text) (state : AnsiState) : List Segment × AnsiState :=
  segmentsOf state 0 [] (Scan.pieces styleCodes 0 line)

/-! The image: `renderNodeQualitySvg`. Lengths are in hundredths. -/

def maxRenderLines : Nat := 1400
def maxRenderColumns : Nat := 240
def terminalCellWidth : Nat := 845
def terminalLineHeight : Nat := 1700
def terminalPadding : Nat := 2000
def terminalScale : Nat := 2

/-- `Number(value.toFixed(2)).toString()` -/
def formatNumber (hundredths : Nat) : Text :=
  let fraction :=
    if hundredths % 100 = 0 then []
    else if hundredths % 10 = 0 then units "." ++ decimal (hundredths % 100 / 10)
    else units "." ++ decimal (hundredths % 100 / 10) ++ decimal (hundredths % 10)
  decimal (hundredths / 100) ++ fraction

def replaceUnit (unit : Nat) (replacement : String) (text : Text) : Text :=
  text.flatMap fun other => if other = unit then units replacement else [other]

def xmlEscape (value : Text) : Text :=
  replaceUnit 0x27 "&apos;" (replaceUnit 0x22 "&quot;" (replaceUnit 0x3e "&gt;"
    (replaceUnit 0x3c "&lt;" (replaceUnit 0x26 "&amp;" value))))

/-! Braille cells. -/

/-- Column and row of the square of each bit. -/
def positions : List (Nat × Nat) := [(0, 0), (0, 1), (0, 2), (1, 0), (1, 1), (1, 2), (0, 3), (1, 3)]

def brailleSquarePath (bits x y : Nat) : Text :=
  positions.zipIdx.flatMap fun ((column, row), bit) =>
    if bits.testBit bit then
      units "M" ++ formatNumber (x + 55 + column * 390) ++ units " " ++ formatNumber (y + 90 + row * 390) ++
        units "h3.45v3.45h-3.45z"
    else []

def isBraille (cp : Nat) : Bool := 0x2800 ≤ cp && cp ≤ 0x28ff

/-! The text of a segment. -/

/-- The text parts that are written, what is not flushed yet with its column, the column, and the path of the
cells. -/
structure TextLoop where
  textParts : List Text := []
  plain : Text := []
  plainColumn : Nat := 0
  column : Nat := 0
  braillePath : Text := []

section Segment

variable (state : AnsiState) (x y : Nat) (foreground : Text)

def decorations : Text :=
  if state.underline then
    if state.strike then units "underline line-through" else units "underline"
  else if state.strike then units "line-through"
  else []

def textAttributes : Text :=
  (if state.bold then units " font-weight=\"700\"" else []) ++
  (if state.italic then units " font-style=\"italic\"" else []) ++
  (if decorations state = [] then []
    else units " text-decoration=\"" ++ decorations state ++ units "\"") ++
  (if state.dim then units " opacity=\"0.6\"" else [])

def textPart (plainColumn : Nat) (plain : Text) : Text :=
  units "<text class=\"cell\" x=\"" ++ formatNumber (x + plainColumn * terminalCellWidth) ++ units "\" y=\"" ++
    formatNumber (y + 1340) ++ units "\" fill=\"" ++ foreground ++ units "\"" ++ textAttributes state ++
    units " xml:space=\"preserve\">" ++ xmlEscape plain ++ units "</text>"

def TextLoop.flushPlain (loop : TextLoop) : TextLoop :=
  if loop.plain = [] then loop
  else
    { loop with
      textParts := loop.textParts ++ [textPart state x y foreground loop.plainColumn loop.plain]
      plain := [] }

def TextLoop.step (loop : TextLoop) (character : Text) : TextLoop :=
  let cp := codePoint character
  let next :=
    if isBraille cp then
      let flushed := loop.flushPlain state x y foreground
      { flushed with
        braillePath := flushed.braillePath ++
          brailleSquarePath (cp - 0x2800) (x + loop.column * terminalCellWidth) y }
    else
      { loop with
        plainColumn := if loop.plain = [] then loop.column else loop.plainColumn
        plain := loop.plain ++ character }
  { next with column := loop.column + if isWide cp then 2 else 1 }

def braillePart (braillePath : Text) : Text :=
  units "<path data-nq-bar=\"square\" fill=\"" ++ foreground ++ units "\"" ++
    (if state.dim then units " opacity=\"0.6\"" else []) ++ units " d=\"" ++ braillePath ++ units "\"/>"

end Segment

def renderTerminalSegmentText (segment : Segment) (x y : Nat) (foreground : Text) : Text :=
  if segment.state.hidden then []
  else
    let loop := ((characters segment.text).foldl (TextLoop.step segment.state x y foreground) {}).flushPlain
      segment.state x y foreground
    loop.textParts.flatten ++
      if loop.braillePath = [] then [] else braillePart segment.state foreground loop.braillePath

def renderTerminalSegment (row : Nat) (segment : Segment) : Text :=
  let y := terminalPadding + row * terminalLineHeight
  let x := terminalPadding + segment.column * terminalCellWidth
  let width := segment.columns * terminalCellWidth
  let style := terminalSegmentStyle segment.state
  let background :=
    if style.2 = themeBackground ∨ width = 0 then []
    else
      units "<rect x=\"" ++ formatNumber x ++ units "\" y=\"" ++ formatNumber y ++ units "\" width=\"" ++
        formatNumber width ++ units "\" height=\"17\" fill=\"" ++ style.2 ++ units "\"/>"
  background ++ renderTerminalSegmentText segment x y style.1

/-- The lines from a row on; the state goes from each to the next. -/
def renderLines : Nat → AnsiState → List Text → Text
  | _, _, [] => []
  | row, state, line :: rest =>
      let segments := ansiSegments line state
      segments.1.flatMap (renderTerminalSegment row) ++ renderLines (row + 1) segments.2 rest

def originalLines (content : Text) : List Text := Scan.splitAt (· = newline) (sourceOf content)

def truncatedNotice : Text := units "... 报告过长，已截取前 1400 行"

def linesOf (content : Text) : List Text :=
  (originalLines content).take maxRenderLines ++
    if maxRenderLines < (originalLines content).length then [truncatedNotice] else []

def columnsOf (lines : List Text) : Nat :=
  min maxRenderColumns (max 1 ((lines.map fun line => visibleColumns (stripAnsiSafe line)).foldl max 0))

/-- `Math.ceil` of a length at the scale. -/
def scaled (hundredths : Nat) : Nat := (hundredths * terminalScale + 99) / 100

def widthOf (lines : List Text) : Nat :=
  scaled (columnsOf lines * terminalCellWidth + terminalPadding * 2)

def heightOf (lines : List Text) : Nat :=
  scaled (max 1 lines.length * terminalLineHeight + terminalPadding * 2)

def styleSheet : Text := units ("\n    .cell \x7b font-family:Consolas,\"Noto Sans Mono CJK SC\"," ++
  "\"Sarasa Mono SC\",\"Courier New\",monospace; font-size:14px; font-variant-ligatures:none; \x7d\n  ")

def renderNodeQualitySvg (content : Text) : Text :=
  let lines := linesOf content
  let width := decimal (widthOf lines)
  let height := decimal (heightOf lines)
  units "<?xml version=\"1.0\" encoding=\"UTF-8\"?>\n" ++
    units "<svg xmlns=\"http://www.w3.org/2000/svg\" width=\"" ++ width ++ units "\" height=\"" ++ height ++
    units "\" viewBox=\"0 0 " ++ width ++ units " " ++ height ++
    units "\" role=\"img\" aria-label=\"NodeQuality terminal report\">" ++
    units "\n  <rect width=\"100%\" height=\"100%\" fill=\"" ++ themeBackground ++ units "\"/>" ++
    units "\n  <style>" ++ styleSheet ++ units "</style>" ++
    units "\n  <g transform=\"scale(2)\">" ++ renderLines 0 {} lines ++ units "</g>" ++ units "\n</svg>"

end NieSla.NodeQuality.Terminal
