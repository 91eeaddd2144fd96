import NieSla.NodeQuality.Terminal

/-! What the image of a report draws: rectangles, texts and braille cells at rows and columns, and the document they
make. -/
namespace NieSla.NodeQuality.Terminal

open Xml (units Event)

/-- A rectangle behind columns, a text from a column on, or braille cells with their columns. -/
inductive Piece where
  | background (row column columns : Nat) (fill : Text)
  | text (row column : Nat) (state : AnsiState) (fill : Text) (content : Text)
  | cells (row : Nat) (state : AnsiState) (fill : Text) (drawn : List (Nat × Nat))

def xOf (column : Nat) : Nat := terminalPadding + column * terminalCellWidth
def yOf (row : Nat) : Nat := terminalPadding + row * terminalLineHeight

def opacity (state : AnsiState) : List (String × Text) := if state.dim then [("opacity", units "0.6")] else []

def styleAttributes (state : AnsiState) : List (String × Text) :=
  (if state.bold then [("font-weight", units "700")] else []) ++
  (if state.italic then [("font-style", units "italic")] else []) ++
  (if decorations state = [] then [] else [("text-decoration", decorations state)]) ++ opacity state

def pathOf (row : Nat) (cells : List (Nat × Nat)) : Text :=
  cells.flatMap fun cell => brailleSquarePath (cell.2 - 0x2800) (xOf cell.1) (yOf row)

def Piece.events : Piece → List Event
  | .background row column columns fill =>
      [.empty "rect" [("x", formatNumber (xOf column)), ("y", formatNumber (yOf row)),
        ("width", formatNumber (columns * terminalCellWidth)), ("height", units "17"), ("fill", fill)]]
  | .text row column state fill content =>
      [.start "text" ([("class", units "cell"), ("x", formatNumber (xOf column)),
        ("y", formatNumber (yOf row + 1340)), ("fill", fill)] ++ styleAttributes state ++
          [("xml:space", units "preserve")]), .text content, .stop "text"]
  | .cells row state fill drawn =>
      [.empty "path" ([("data-nq-bar", units "square"), ("fill", fill)] ++ opacity state ++
        [("d", pathOf row drawn)])]

/-- Size of the image, and what is on it. -/
structure Drawing where
  width : Nat
  height : Nat
  pieces : List Piece

def Drawing.inner (drawing : Drawing) : List Event :=
  [.plain (units "\n  "),
    .empty "rect" [("width", units "100%"), ("height", units "100%"), ("fill", themeBackground)],
    .plain (units "\n  "), .start "style" [], .plain styleSheet, .stop "style", .plain (units "\n  "),
    .start "g" [("transform", units "scale(2)")]] ++
    drawing.pieces.flatMap Piece.events ++ [.stop "g", .plain (units "\n")]

def Drawing.root (drawing : Drawing) : List (String × Text) :=
  [("xmlns", units "http://www.w3.org/2000/svg"), ("width", decimal drawing.width),
    ("height", decimal drawing.height),
    ("viewBox", units "0 0 " ++ decimal drawing.width ++ units " " ++ decimal drawing.height),
    ("role", units "img"), ("aria-label", units "NodeQuality terminal report")]

def Drawing.events (drawing : Drawing) : List Event :=
  .start "svg" drawing.root :: (drawing.inner ++ [.stop "svg"])

/-! The pieces of the lines. -/

def cellWidth (character : Text) : Nat := if isWide (codePoint character) then 2 else 1

/-- A plain text at a column, in front of the marks that follow; two texts in a row are one. -/
def glue (column : Nat) (plain : Text) (later : List ((Nat × Text) ⊕ (Nat × Nat))) :
    List ((Nat × Text) ⊕ (Nat × Nat)) :=
  if plain = [] then later
  else match later with
    | .inl (_, text) :: more => .inl (column, plain ++ text) :: more
    | more => .inl (column, plain) :: more

/-- The characters of a text from a column on: runs of plain ones, and braille cells one by one. -/
def marks : Nat → List Text → List ((Nat × Text) ⊕ (Nat × Nat))
  | _, [] => []
  | column, character :: rest =>
      let later := marks (column + cellWidth character) rest
      if isBraille (codePoint character) then .inr (column, codePoint character) :: later
      else glue column character later

def textsOf (marks : List ((Nat × Text) ⊕ (Nat × Nat))) : List (Nat × Text) := marks.filterMap Sum.getLeft?

/-- The cells with a square in them. -/
def cellsOf (marks : List ((Nat × Text) ⊕ (Nat × Nat))) : List (Nat × Nat) :=
  (marks.filterMap Sum.getRight?).filter fun cell => cell.2 ≠ 0x2800

def Segment.marks (segment : Segment) : List ((Nat × Text) ⊕ (Nat × Nat)) :=
  Terminal.marks segment.column (characters segment.text)

def Segment.pieces (row : Nat) (segment : Segment) : List Piece :=
  let style := terminalSegmentStyle segment.state
  (if style.2 = themeBackground ∨ segment.columns = 0 then []
    else [.background row segment.column segment.columns style.2]) ++
  if segment.state.hidden then []
  else (textsOf segment.marks).map (fun part => .text row part.1 segment.state style.1 part.2) ++
    if cellsOf segment.marks = [] then [] else [.cells row segment.state style.1 (cellsOf segment.marks)]

/-- The segments of all lines from a row on, with their rows. -/
def segmentsFrom : Nat → AnsiState → List Text → List (Nat × Segment)
  | _, _, [] => []
  | row, state, line :: rest =>
      let segments := ansiSegments line state
      segments.1.map (fun segment => (row, segment)) ++ segmentsFrom (row + 1) segments.2 rest

/-- The segments of the lines that are rendered. -/
def renderedSegments (content : Text) : List (Nat × Segment) := segmentsFrom 0 {} (linesOf content)

def drawingOf (content : Text) : Drawing where
  width := widthOf (linesOf content)
  height := heightOf (linesOf content)
  pieces := (renderedSegments content).flatMap fun entry => entry.2.pieces entry.1

/-! Values that are written as they are. -/

/-- ASCII without markup. -/
def isSafe (unit : Nat) : Bool := 0x20 ≤ unit && unit ≤ 0x7e && Xml.isPlain unit

def Safe (text : Text) : Prop := ∀ unit ∈ text, isSafe unit = true

section Safe

variable {first second : Text}

theorem Safe.append (left : Safe first) (right : Safe second) : Safe (first ++ second) := by
  intro unit member
  rcases List.mem_append.mp member with before | after
  · exact left unit before
  · exact right unit after

theorem Safe.escape (safe : Safe first) : Xml.escape first = first :=
  Xml.escape_of_plain fun unit member => (Bool.and_eq_true_iff.mp (safe unit member)).2

theorem Safe.allChars (safe : Safe first) : Xml.allChars first = true := by
  refine Xml.allChars_of_forall fun unit member => ?_
  have ascii := (Bool.and_eq_true_iff.mp (safe unit member)).1
  simp only [Bool.and_eq_true, decide_eq_true_eq] at ascii
  exact Xml.isChar_of_ascii ascii.1 ascii.2

theorem Safe.flatMap {α : Type*} {items : List α} {f : α → Text} (each : ∀ item ∈ items, Safe (f item)) :
    Safe (items.flatMap f) := by
  intro unit member
  obtain ⟨item, among, inside⟩ := List.mem_flatMap.mp member
  exact each item among unit inside

instance : DecidablePred Safe := fun text => inferInstanceAs (Decidable (∀ unit ∈ text, isSafe unit = true))

/-- Digits, and at least one. -/
def IsDigits (text : Text) : Prop := text ≠ [] ∧ ∀ unit ∈ text, isDigit unit = true

theorem isDigits_decimal (n : Nat) : IsDigits (decimal n) := by
  unfold decimal units
  refine ⟨?_, fun unit member => ?_⟩
  · intro empty
    have none_ : (toString n).toList = [] := List.map_eq_nil_iff.mp empty
    exact Nat.repr_ne_empty (String.toList_eq_nil_iff.mp none_)
  · obtain ⟨c, inside, rfl⟩ := List.mem_map.mp member
    have digit : c.isDigit = true := by
      have among : c ∈ Nat.toDigits 10 n := Nat.toList_repr ▸ inside
      exact Nat.isDigit_of_mem_toDigits (by decide) (by decide) among
    simp only [Char.isDigit, Bool.and_eq_true, decide_eq_true_eq, ge_iff_le, UInt32.le_iff_toNat_le] at digit
    unfold isDigit
    simpa using digit

theorem IsDigits.safe (digits : IsDigits first) : Safe first := by
  intro unit member
  have digit := digits.2 unit member
  unfold isDigit at digit
  unfold isSafe Xml.isPlain
  grind

theorem safe_decimal (n : Nat) : Safe (decimal n) := (isDigits_decimal n).safe

theorem safe_formatNumber (hundredths : Nat) : Safe (formatNumber hundredths) := by
  unfold formatNumber
  dsimp only
  refine (safe_decimal _).append ?_
  split_ifs
  · exact fun unit member => absurd member List.not_mem_nil
  · exact Safe.append (by decide) (safe_decimal _)
  · exact (Safe.append (by decide) (safe_decimal _)).append (safe_decimal _)

theorem safe_brailleSquarePath (bits x y : Nat) : Safe (brailleSquarePath bits x y) := by
  have move : Safe (units "M") := by decide
  have gap : Safe (units " ") := by decide
  have square : Safe (units "h3.45v3.45h-3.45z") := by decide
  refine Safe.flatMap fun ((column, row), bit) _ => ?_
  dsimp only
  split
  · exact (((move.append (safe_formatNumber _)).append gap).append (safe_formatNumber _)).append square
  · exact fun unit member => absurd member List.not_mem_nil

theorem safe_pathOf (row : Nat) (cells : List (Nat × Nat)) : Safe (pathOf row cells) :=
  Safe.flatMap fun _ _ => safe_brailleSquarePath _ _ _

end Safe

/-! The document of a drawing is what is rendered. -/

section Spell

variable {fill : Text} {state : AnsiState} {row column : Nat}

theorem escape_formatNumber (hundredths : Nat) : Xml.escape (formatNumber hundredths) = formatNumber hundredths :=
  (safe_formatNumber hundredths).escape

theorem spell_background (safe : Safe fill) (columns : Nat) :
    (Piece.background row column columns fill).events.flatMap Event.spell =
      units "<rect x=\"" ++ formatNumber (xOf column) ++ units "\" y=\"" ++ formatNumber (yOf row) ++
        units "\" width=\"" ++ formatNumber (columns * terminalCellWidth) ++
        units "\" height=\"17\" fill=\"" ++ fill ++ units "\"/>" := by
  have height : Xml.escape (units "17") = units "17" := Safe.escape (by decide)
  simp only [Piece.events, Event.spell, Xml.spellAttribute, List.flatMap_cons, List.flatMap_nil, escape_formatNumber,
    height, safe.escape]
  simp [units]

theorem xmlEscape_eq (text : Text) : xmlEscape text = Xml.escape text := by
  have single (unit : Nat) : xmlEscape [unit] = Xml.escapeUnit unit := by
    by_cases amp : unit = 0x26
    · subst amp
      decide
    by_cases lt : unit = 0x3c
    · subst lt
      decide
    by_cases gt : unit = 0x3e
    · subst gt
      decide
    by_cases quot : unit = 0x22
    · subst quot
      decide
    by_cases apos : unit = 0x27
    · subst apos
      decide
    simp [xmlEscape, replaceUnit, Xml.escapeUnit, amp, lt, gt, quot, apos]
  induction text with
  | nil => rfl
  | cons unit rest ih =>
      have parted : xmlEscape (unit :: rest) = xmlEscape [unit] ++ xmlEscape rest := by
        simp only [xmlEscape, replaceUnit, ← List.flatMap_append, List.singleton_append]
      rw [parted, ih, single]
      rfl

theorem xOf_add (first second : Nat) : xOf (first + second) = xOf first + second * terminalCellWidth := by
  rw [xOf, xOf, Nat.add_mul, Nat.add_assoc]

theorem safe_decorations (state : AnsiState) : Safe (decorations state) := by
  unfold decorations
  split_ifs
  all_goals decide

theorem spell_styleAttributes (state : AnsiState) :
    (styleAttributes state).flatMap Xml.spellAttribute = textAttributes state := by
  have weight : Xml.escape (units "700") = units "700" := Safe.escape (by decide)
  have style : Xml.escape (units "italic") = units "italic" := Safe.escape (by decide)
  have half : Xml.escape (units "0.6") = units "0.6" := Safe.escape (by decide)
  have lines : Xml.escape (decorations state) = decorations state := (safe_decorations state).escape
  simp only [styleAttributes, textAttributes, opacity, List.flatMap_append]
  refine congrArg₂ _ (congrArg₂ _ (congrArg₂ _ ?_ ?_) ?_) ?_
  · split
    · simp only [List.flatMap_cons, List.flatMap_nil, Xml.spellAttribute, weight]
      simp [units]
    · rfl
  · split
    · simp only [List.flatMap_cons, List.flatMap_nil, Xml.spellAttribute, style]
      simp [units]
    · rfl
  · split
    · rfl
    · simp only [List.flatMap_cons, List.flatMap_nil, Xml.spellAttribute, lines]
      simp [units]
  · split
    · simp only [List.flatMap_cons, List.flatMap_nil, Xml.spellAttribute, half]
      simp [units]
    · rfl

theorem spell_text (safe : Safe fill) (plainColumn : Nat) (content : Text) :
    (Piece.text row (column + plainColumn) state fill content).events.flatMap Event.spell =
      textPart state (xOf column) (yOf row) fill plainColumn content := by
  have cell : Xml.escape (units "cell") = units "cell" := Safe.escape (by decide)
  have preserve : Xml.escape (units "preserve") = units "preserve" := Safe.escape (by decide)
  simp only [Piece.events, Event.spell, List.flatMap_cons, List.flatMap_nil, List.flatMap_append,
    spell_styleAttributes]
  simp only [Xml.spellAttribute, escape_formatNumber, cell, preserve, safe.escape, xOf_add, textPart, xmlEscape_eq]
  simp [units]

theorem spell_cells (safe : Safe fill) (drawn : List (Nat × Nat)) :
    (Piece.cells row state fill drawn).events.flatMap Event.spell = braillePart state fill (pathOf row drawn) := by
  have square : Xml.escape (units "square") = units "square" := Safe.escape (by decide)
  have half : Xml.escape (units "0.6") = units "0.6" := Safe.escape (by decide)
  have path : Xml.escape (pathOf row drawn) = pathOf row drawn := (safe_pathOf row drawn).escape
  simp only [Piece.events, Event.spell, List.flatMap_cons, List.flatMap_nil, List.flatMap_append, opacity, braillePart]
  split
  · simp only [List.flatMap_cons, List.flatMap_nil, Xml.spellAttribute, square, half, path, safe.escape]
    simp [units]
  · simp only [List.flatMap_nil, Xml.spellAttribute, square, path, safe.escape]
    simp [units]

/-! The loop over the characters of a segment. -/

theorem glue_nil (column : Nat) (later : List ((Nat × Text) ⊕ (Nat × Nat))) : glue column [] later = later := rfl

theorem glue_inr {column : Nat} {plain : Text} (some_ : plain ≠ []) (cell : Nat × Nat)
    (more : List ((Nat × Text) ⊕ (Nat × Nat))) :
    glue column plain (.inr cell :: more) = .inl (column, plain) :: .inr cell :: more := if_neg some_

theorem glue_glue {column plainColumn : Nat} {plain character : Text} (some_ : character ≠ [])
    (later : List ((Nat × Text) ⊕ (Nat × Nat))) : glue plainColumn plain (glue column character later) =
      glue (if plain = [] then column else plainColumn) (plain ++ character) later := by
  by_cases empty : plain = []
  · rw [empty, glue_nil, if_pos rfl, List.nil_append]
  · have both : plain ++ character ≠ [] := fun none_ => some_ (List.append_eq_nil_iff.mp none_).2
    rw [if_neg empty]
    unfold glue
    rw [if_neg empty, if_neg some_, if_neg both]
    cases later with
    | nil => rfl
    | cons mark more =>
        cases mark with
        | inl part => simp [List.append_assoc]
        | inr cell => rfl

variable (state row fill)

theorem step_plain {character : Text} (plain : ¬ isBraille (codePoint character) = true) (x y : Nat)
    (loop : TextLoop) : loop.step state x y fill character =
      { loop with
        plain := loop.plain ++ character
        plainColumn := if loop.plain = [] then loop.column else loop.plainColumn
        column := loop.column + cellWidth character } := by
  simp only [TextLoop.step, plain, cellWidth]
  rfl

theorem step_braille {character : Text} (braille : isBraille (codePoint character) = true) (x y : Nat)
    (loop : TextLoop) : loop.step state x y fill character =
      { textParts := (loop.flushPlain state x y fill).textParts
        plain := []
        plainColumn := loop.plainColumn
        column := loop.column + cellWidth character
        braillePath := loop.braillePath ++
          brailleSquarePath (codePoint character - 0x2800) (x + loop.column * terminalCellWidth) y } := by
  simp only [TextLoop.step, braille, if_true, cellWidth, TextLoop.flushPlain]
  split
  next none_ => simp only [none_]
  next => rfl

theorem textParts_flushPlain (x y : Nat) (loop : TextLoop) :
    (loop.flushPlain state x y fill).textParts = loop.textParts ++
      (textsOf (glue loop.plainColumn loop.plain [])).map (fun part => textPart state x y fill part.1 part.2) := by
  unfold TextLoop.flushPlain glue
  split
  next => simp [textsOf]
  next => simp [textsOf]

/-- What the loop leaves, with the columns of the cells counted from `start`. -/
theorem foldl_step (start : Nat) (chars : List Text) (solid : ∀ character ∈ chars, character ≠ []) (loop : TextLoop) :
    let final := (chars.foldl (TextLoop.step state (xOf start) (yOf row) fill) loop).flushPlain state (xOf start)
      (yOf row) fill
    let later := glue loop.plainColumn loop.plain (marks loop.column chars)
    final.textParts = loop.textParts ++
        (textsOf later).map (fun part => textPart state (xOf start) (yOf row) fill part.1 part.2) ∧
      final.braillePath = loop.braillePath ++ (later.filterMap Sum.getRight?).flatMap fun cell =>
        brailleSquarePath (cell.2 - 0x2800) (xOf (start + cell.1)) (yOf row) := by
  induction chars generalizing loop with
  | nil =>
      intro final later
      refine ⟨textParts_flushPlain fill state (xOf start) (yOf row) loop, ?_⟩
      have same : later = glue loop.plainColumn loop.plain [] := rfl
      have flushed : final = loop.flushPlain state (xOf start) (yOf row) fill := rfl
      rw [same, flushed]
      unfold TextLoop.flushPlain glue
      split
      next => simp
      next => simp
  | cons character rest ih =>
      intro final later
      obtain ⟨some_, others⟩ := List.forall_mem_cons.mp solid
      obtain ⟨parts, path⟩ := ih others (loop.step state (xOf start) (yOf row) fill character)
      have whole : final = (rest.foldl (TextLoop.step state (xOf start) (yOf row) fill)
        (loop.step state (xOf start) (yOf row) fill character)).flushPlain state (xOf start) (yOf row) fill := rfl
      by_cases braille : isBraille (codePoint character) = true
      · have same : later = glue loop.plainColumn loop.plain (.inr (loop.column, codePoint character) ::
            marks (loop.column + cellWidth character) rest) := by
          simp only [later, marks, braille, if_true]
        have before : textsOf later = textsOf (glue loop.plainColumn loop.plain []) ++
            textsOf (marks (loop.column + cellWidth character) rest) := by
          rw [same]
          unfold glue
          split <;> rfl
        have cells : later.filterMap Sum.getRight? = (loop.column, codePoint character) ::
            (marks (loop.column + cellWidth character) rest).filterMap Sum.getRight? := by
          rw [same]
          unfold glue
          split <;> rfl
        rw [step_braille fill state braille, glue_nil] at parts path
        rw [whole, step_braille fill state braille]
        constructor
        · rw [before, List.map_append, ← List.append_assoc, ← textParts_flushPlain]
          exact parts
        · rw [cells, List.flatMap_cons, ← List.append_assoc, xOf_add]
          exact path
      · have same : later = glue loop.plainColumn loop.plain
            (glue loop.column character (marks (loop.column + cellWidth character) rest)) := by
          simp only [later, marks, braille]
          rfl
        rw [step_plain fill state braille] at parts path
        rw [same, glue_glue some_, whole, step_plain fill state braille]
        exact ⟨parts, path⟩

end Spell

/-! Colours. -/

/-- The colours of the state are written as they are. -/
def AnsiState.Safe (state : AnsiState) : Prop :=
  ∀ value, state.foreground = some (.color value) ∨ state.background = some (.color value) → Terminal.Safe value

theorem safe_undefined : Safe undefined_ := by decide

theorem safe_rgb {r g b : Text} (red : Safe r) (green : Safe g) (blue : Safe b) : Safe (rgb r g b) := by
  have opens : Safe (units "rgb(") := by decide
  have comma : Safe (units ",") := by decide
  have closes : Safe (units ")") := by decide
  exact (((((opens.append red).append comma).append green).append comma).append blue).append closes

theorem safe_getD {texts : List Text} (safe : ∀ text ∈ texts, Safe text) (place : Nat) :
    Safe (texts[place]?.getD undefined_) := by
  cases found : texts[place]? with
  | none => exact safe_undefined
  | some text => exact safe text (List.mem_of_getElem? found)

theorem safe_theme : (∀ text ∈ themeNormal, Safe text) ∧ (∀ text ∈ themeBright, Safe text) ∧
    Safe themeForeground ∧ Safe themeBackground := by
  decide

theorem safe_ansi256Color (value : Nat) : Safe (ansi256Color value) := by
  unfold ansi256Color
  dsimp only
  split
  · exact safe_getD safe_theme.1 _
  split
  · exact safe_getD safe_theme.2.1 _
  split
  · exact safe_rgb (safe_decimal _) (safe_decimal _) (safe_decimal _)
  · exact safe_rgb (safe_decimal _) (safe_decimal _) (safe_decimal _)

theorem safe_trueColor (channels : List Nat) : Safe (trueColor channels) := by
  have channel (place : Nat) :
      Safe ((channels[place]?.map fun item => decimal (min 255 item)).getD undefined_) := by
    cases channels[place]? with
    | none => exact safe_undefined
    | some item => exact safe_decimal _
  exact safe_rgb (channel 0) (channel 1) (channel 2)

theorem safe_resolveTerminalColor {value : Option Color}
    (safe : ∀ text, value = some (.color text) → Safe text) (bold background : Bool) :
    Safe (resolveTerminalColor value bold background) := by
  unfold resolveTerminalColor
  split
  · split
    · exact safe_theme.2.2.2
    · exact safe_theme.2.2.1
  · exact safe _ rfl
  · split
    · exact safe_getD safe_theme.2.1 _
    · exact safe_getD safe_theme.1 _

theorem AnsiState.Safe.style {state : AnsiState} (safe : state.Safe) :
    Terminal.Safe (terminalSegmentStyle state).1 ∧ Terminal.Safe (terminalSegmentStyle state).2 := by
  have foreground := safe_resolveTerminalColor (fun text same => safe text (.inl same)) state.bold false
  have background := safe_resolveTerminalColor (fun text same => safe text (.inr same)) false true
  unfold terminalSegmentStyle
  dsimp only
  split
  · exact ⟨background, foreground⟩
  · exact ⟨foreground, background⟩

/-- Each colour is as it was, or the default, or one of the palette. -/
def AnsiState.Keeps (state next : AnsiState) : Prop :=
  (next.foreground = state.foreground ∨ ∀ value, next.foreground ≠ some (.color value)) ∧
    (next.background = state.background ∨ ∀ value, next.background ≠ some (.color value))

theorem AnsiState.Keeps.ite {state first second : AnsiState} {condition : Prop} [Decidable condition]
    (yes : state.Keeps first) (no : state.Keeps second) : state.Keeps (if condition then first else second) := by
  split
  · exact yes
  · exact no

theorem applyAnsiCode_keeps (state : AnsiState) (code : Nat) : state.Keeps (applyAnsiCode state code) := by
  unfold applyAnsiCode
  repeat' apply AnsiState.Keeps.ite
  all_goals first
    | exact ⟨.inl rfl, .inl rfl⟩
    | exact ⟨.inr nofun, .inl rfl⟩
    | exact ⟨.inl rfl, .inr nofun⟩
    | exact ⟨.inr nofun, .inr nofun⟩

theorem AnsiState.Safe.code {state : AnsiState} (safe : state.Safe) (code : Nat) :
    (applyAnsiCode state code).Safe := by
  obtain ⟨foreground, background⟩ := applyAnsiCode_keeps state code
  rintro value (set | set)
  · rcases foreground with same | other
    · exact safe value (.inl (same.symm.trans set))
    · exact absurd set (other value)
  · rcases background with same | other
    · exact safe value (.inr (same.symm.trans set))
    · exact absurd set (other value)

theorem AnsiState.Safe.setColor {state : AnsiState} (safe : state.Safe) (code : Nat) {color : Text}
    (safeColor : Terminal.Safe color) : (state.setColor code color).Safe := by
  unfold AnsiState.setColor
  split
  · rintro value (set | set)
    · cases set
      exact safeColor
    · exact safe value (.inr set)
  · rintro value (set | set)
    · exact safe value (.inl set)
    · cases set
      exact safeColor

theorem AnsiState.Safe.codes {state : AnsiState} (safe : state.Safe) (skip : Nat) (codes : List Nat) :
    (applyCodes skip state codes).Safe := by
  fun_induction applyCodes skip state codes with
  | case1 => exact safe
  | case2 _ _ _ _ ih => exact ih safe
  | case3 _ _ _ _ _ _ ih => exact ih (safe.setColor _ (safe_ansi256Color _))
  | case4 _ _ _ _ _ _ ih => exact ih safe
  | case5 _ _ _ _ _ ih => exact ih (safe.setColor _ (safe_trueColor _))
  | case6 _ _ _ _ _ ih => exact ih safe
  | case7 _ _ _ _ _ _ ih => exact ih safe
  | case8 _ _ _ _ ih => exact ih (safe.code _)

theorem safe_default : AnsiState.Safe {} := by
  rintro value (set | set)
  · cases set
  · cases set

theorem append_state {state : AnsiState} {column : Nat} {text : Text} {segment : Segment}
    (member : segment ∈ append state column text) : segment.state = state := by
  unfold append at member
  split at member
  · cases member
  · rw [List.mem_singleton.mp member]

theorem AnsiState.Safe.segmentsOf {state : AnsiState} (safe : state.Safe) (column : Nat) (text : Text)
    (found : List (Nat ⊕ Text)) : (∀ segment ∈ (segmentsOf state column text found).1, segment.state.Safe) ∧
      (segmentsOf state column text found).2.Safe := by
  fun_induction Terminal.segmentsOf state column text found with
  | case1 state column text =>
      refine ⟨fun segment member => ?_, safe⟩
      rw [append_state member]
      exact safe
  | case2 state column text unit rest ih => exact ih safe
  | case3 state column text codes rest later ih =>
      have next := ih (safe.codes 0 _)
      refine ⟨fun segment member => ?_, next.2⟩
      rcases List.mem_append.mp member with first | among
      · rw [append_state first]
        exact safe
      · exact next.1 segment among

theorem AnsiState.Safe.segmentsFrom {state : AnsiState} (safe : state.Safe) (row : Nat) (lines : List Text) :
    ∀ entry ∈ segmentsFrom row state lines, entry.2.state.Safe := by
  induction lines generalizing row state with
  | nil => exact fun entry member => absurd member List.not_mem_nil
  | cons line rest ih =>
      obtain ⟨each, next⟩ := safe.segmentsOf 0 [] (Scan.pieces styleCodes 0 line)
      intro entry member
      rcases List.mem_append.mp member with first | later
      · obtain ⟨segment, among, rfl⟩ := List.mem_map.mp first
        exact each segment among
      · exact ih next (row + 1) entry later

/-! The pieces of a segment. -/

def shift (start : Nat) : (Nat × Text) ⊕ (Nat × Nat) → (Nat × Text) ⊕ (Nat × Nat) :=
  Sum.map (Prod.map (start + ·) id) (Prod.map (start + ·) id)

theorem glue_shift (start column : Nat) (plain : Text) (later : List ((Nat × Text) ⊕ (Nat × Nat))) :
    glue (start + column) plain (later.map (shift start)) = (glue column plain later).map (shift start) := by
  unfold glue
  split
  · rfl
  · rcases later with _ | ⟨part | cell, more⟩
    · rfl
    · rfl
    · rfl

theorem marks_shift (start column : Nat) (chars : List Text) :
    marks (start + column) chars = (marks column chars).map (shift start) := by
  induction chars generalizing column with
  | nil => rfl
  | cons character rest ih =>
      unfold marks
      rw [Nat.add_assoc, ih]
      dsimp only
      split
      · rfl
      · exact glue_shift start column character _

theorem textsOf_shift (start : Nat) (all : List ((Nat × Text) ⊕ (Nat × Nat))) :
    textsOf (all.map (shift start)) = (textsOf all).map (Prod.map (start + ·) id) := by
  induction all with
  | nil => rfl
  | cons mark rest ih =>
      rcases mark with part | cell
      · exact congrArg (_ :: ·) ih
      · exact ih

theorem getRight_shift (start : Nat) (all : List ((Nat × Text) ⊕ (Nat × Nat))) :
    (all.map (shift start)).filterMap Sum.getRight? =
      (all.filterMap Sum.getRight?).map (Prod.map (start + ·) id) := by
  induction all with
  | nil => rfl
  | cons mark rest ih =>
      rcases mark with part | cell
      · exact ih
      · exact congrArg (_ :: ·) ih

theorem isBraille_of_mem_marks {column : Nat} {chars : List Text} {cell : Nat × Nat}
    (member : Sum.inr cell ∈ marks column chars) : isBraille cell.2 = true := by
  induction chars generalizing column with
  | nil => cases member
  | cons character rest ih =>
      unfold marks at member
      dsimp only at member
      split at member
      next braille =>
        rcases List.mem_cons.mp member with same | later
        · rw [Sum.inr.inj same]
          exact braille
        · exact ih later
      next =>
        refine @ih (column + cellWidth character) ?_
        unfold glue at member
        generalize marks (column + cellWidth character) rest = later at member ⊢
        split at member
        · exact member
        · rcases later with _ | ⟨part | first, more⟩
          · simp at member
          · simpa using member
          · simpa using member

theorem brailleSquarePath_zero (x y : Nat) : brailleSquarePath 0 x y = [] := by
  refine List.flatMap_eq_nil_iff.mpr fun ((column, row), bit) _ => ?_
  simp

theorem brailleSquarePath_ne_nil {bits : Nat} (some_ : bits ≠ 0) (small : bits < 256) (x y : Nat) :
    brailleSquarePath bits x y ≠ [] := by
  obtain ⟨place, on⟩ := Nat.exists_testBit_of_ne_zero some_
  have low : place < 8 := by
    by_contra high
    have beyond : bits < 2 ^ place := small.trans_le (Nat.pow_le_pow_right Nat.two_pos (Nat.not_lt.mp high))
    rw [Nat.testBit_lt_two_pow beyond] at on
    cases on
  have among : ∀ place < 8, ∃ item ∈ positions.zipIdx, item.2 = place := by decide
  obtain ⟨⟨⟨column, row⟩, bit⟩, member, rfl⟩ := among place low
  intro empty
  have none_ := List.flatMap_eq_nil_iff.mp empty _ member
  dsimp only at none_ on
  rw [if_pos on] at none_
  simp [units] at none_

/-- A blank cell has no square, and every other one has. -/
theorem pathOf_filter (row : Nat) {cells : List (Nat × Nat)} (braille : ∀ cell ∈ cells, isBraille cell.2 = true) :
    pathOf row (cells.filter fun cell => cell.2 ≠ 0x2800) = pathOf row cells ∧
      (pathOf row cells = [] ↔ (cells.filter fun cell => cell.2 ≠ 0x2800) = []) := by
  unfold pathOf
  induction cells with
  | nil => simp
  | cons cell rest ih =>
      obtain ⟨first, others⟩ := List.forall_mem_cons.mp braille
      obtain ⟨same, empty⟩ := ih others
      by_cases blank : cell.2 = 0x2800
      · rw [List.filter_cons_of_neg (by simp [blank]), List.flatMap_cons, blank, Nat.sub_self,
          brailleSquarePath_zero, List.nil_append]
        exact ⟨same, empty⟩
      · have set : brailleSquarePath (cell.2 - 0x2800) (xOf cell.1) (yOf row) ≠ [] := by
          unfold isBraille at first
          simp only [Bool.and_eq_true, decide_eq_true_eq] at first
          exact brailleSquarePath_ne_nil (by omega) (by omega) _ _
        rw [List.filter_cons_of_pos (by simp [blank]), List.flatMap_cons, List.flatMap_cons, same]
        simp [set]

theorem ne_nil_of_mem_characters {text character : Text} (member : character ∈ characters text) :
    character ≠ [] := by
  fun_induction characters text with
  | case1 => cases member
  | case2 unit =>
      rw [List.mem_singleton.mp member]
      exact List.cons_ne_nil _ _
  | case3 unit second rest pair ih =>
      rcases List.mem_cons.mp member with rfl | later
      · exact List.cons_ne_nil _ _
      · exact ih later
  | case4 unit second rest alone ih =>
      rcases List.mem_cons.mp member with rfl | later
      · exact List.cons_ne_nil _ _
      · exact ih later

def Piece.spell (piece : Piece) : Text := piece.events.flatMap Event.spell

theorem renderTerminalSegmentText_eq (row : Nat) (segment : Segment) {foreground : Text} (safe : Safe foreground)
    (shown : segment.state.hidden = false) :
    renderTerminalSegmentText segment (xOf segment.column) (yOf row) foreground =
      ((textsOf segment.marks).map (fun part => Piece.text row part.1 segment.state foreground part.2)).flatMap
          Piece.spell ++
        if cellsOf segment.marks = [] then []
        else (Piece.cells row segment.state foreground (cellsOf segment.marks)).spell := by
  obtain ⟨parts, path⟩ := foldl_step foreground segment.state row segment.column (characters segment.text)
    (fun _ => ne_nil_of_mem_characters) {}
  rw [glue_nil, List.nil_append] at parts path
  have shifted : segment.marks = (marks 0 (characters segment.text)).map (shift segment.column) :=
    marks_shift segment.column 0 _
  have braille : ∀ cell ∈ segment.marks.filterMap Sum.getRight?, isBraille cell.2 = true := by
    intro cell member
    obtain ⟨mark, among, right⟩ := List.mem_filterMap.mp member
    rw [Sum.getRight?_eq_some_iff.mp right] at among
    exact isBraille_of_mem_marks among
  have texts : (textsOf segment.marks).flatMap (fun part =>
      (Piece.text row part.1 segment.state foreground part.2).spell) =
        ((textsOf (marks 0 (characters segment.text))).map fun part =>
          textPart segment.state (xOf segment.column) (yOf row) foreground part.1 part.2).flatten := by
    rw [shifted, textsOf_shift, List.flatMap_map, ← List.flatMap_def]
    refine List.flatMap_congr fun part _ => ?_
    exact spell_text safe part.1 part.2
  have cells : pathOf row (segment.marks.filterMap Sum.getRight?) =
      ((marks 0 (characters segment.text)).filterMap Sum.getRight?).flatMap fun cell =>
        brailleSquarePath (cell.2 - 0x2800) (xOf (segment.column + cell.1)) (yOf row) := by
    rw [shifted, getRight_shift, pathOf, List.flatMap_map]
    rfl
  obtain ⟨same, empty⟩ := pathOf_filter row braille
  rw [← cells] at path
  unfold renderTerminalSegmentText
  rw [if_neg (by simp [shown])]
  dsimp only
  rw [parts, path, ← texts, List.flatMap_map]
  refine congrArg _ ?_
  by_cases none_ : cellsOf segment.marks = []
  · rw [if_pos (empty.mpr none_), if_pos none_]
  · rw [if_neg fun blank => none_ (empty.mp blank), if_neg none_, ← same]
    exact (spell_cells safe _).symm

theorem renderTerminalSegment_eq (row : Nat) {segment : Segment} (safe : segment.state.Safe) :
    renderTerminalSegment row segment = (segment.pieces row).flatMap Piece.spell := by
  obtain ⟨foreground, background⟩ := safe.style
  unfold renderTerminalSegment Segment.pieces
  dsimp only
  rw [List.flatMap_append]
  refine congrArg₂ _ ?_ ?_
  · have width : segment.columns * terminalCellWidth = 0 ↔ segment.columns = 0 := by
      unfold terminalCellWidth
      omega
    by_cases blank : (terminalSegmentStyle segment.state).2 = themeBackground ∨ segment.columns = 0
    · rw [if_pos blank, if_pos (blank.imp_right width.mpr)]
      rfl
    · rw [if_neg blank, if_neg fun other => blank (other.imp_right width.mp)]
      exact ((List.append_nil _).trans (spell_background background _)).symm
  · by_cases hidden : segment.state.hidden = true
    · rw [if_pos hidden]
      exact if_pos hidden
    · rw [if_neg hidden, List.flatMap_append]
      refine (renderTerminalSegmentText_eq row segment foreground (Bool.not_eq_true _ ▸ hidden)).trans ?_
      refine congrArg _ ?_
      split
      · rfl
      · exact (List.append_nil _).symm

theorem renderLines_eq (row : Nat) {state : AnsiState} (safe : state.Safe) (lines : List Text) :
    renderLines row state lines =
      ((segmentsFrom row state lines).flatMap fun entry => entry.2.pieces entry.1).flatMap Piece.spell := by
  induction lines generalizing row state with
  | nil => rfl
  | cons line rest ih =>
      obtain ⟨each, next⟩ := safe.segmentsOf 0 [] (Scan.pieces styleCodes 0 line)
      unfold renderLines segmentsFrom
      dsimp only
      rw [List.flatMap_append, List.flatMap_append, ansiSegments, ih (row + 1) next, List.flatMap_map]
      refine congrArg (· ++ _) ?_
      rw [List.flatMap_assoc]
      refine List.flatMap_congr fun segment member => ?_
      exact renderTerminalSegment_eq row (each segment member)

end NieSla.NodeQuality.Terminal
