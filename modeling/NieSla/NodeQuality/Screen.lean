import NieSla.NodeQuality.Document

/-! The screen of a terminal that takes the output of a report, and the image as a picture of that screen. -/
namespace NieSla.NodeQuality.Terminal

open Xml (units)

/-! The screen. -/

/-- A character at its row and column, in a style. -/
structure Cell where
  row : Nat
  column : Nat
  character : Text
  state : AnsiState
deriving DecidableEq

/-- The columns of a character; a combining mark stands on the character before. -/
def terminalWidth (character : Text) : Nat := if isCombining (codePoint character) then 0 else cellWidth character

/-- The characters and the style codes of a line, in their order. -/
def symbols : List (Nat ⊕ Text) → List (Text ⊕ Text)
  | [] => []
  | .inr codes :: rest => .inr codes :: symbols rest
  | [.inl unit] => [.inl [unit]]
  | .inl unit :: .inl second :: rest =>
      if Xml.isHigh unit && Xml.isLow second then .inl [unit, second] :: symbols rest
      else .inl [unit] :: symbols (.inl second :: rest)
  | .inl unit :: .inr codes :: rest => .inl [unit] :: .inr codes :: symbols rest

/-- The terminal writes each character in its style and moves to the right. -/
def write (row : Nat) : AnsiState → Nat → List (Text ⊕ Text) → List Cell × AnsiState
  | state, _, [] => ([], state)
  | state, column, .inl character :: rest =>
      let later := write row state (column + terminalWidth character) rest
      (⟨row, column, character, state⟩ :: later.1, later.2)
  | state, column, .inr codes :: rest => write row (applyAnsiCodes state codes) column rest

def writeLines : Nat → AnsiState → List Text → List Cell
  | _, _, [] => []
  | row, state, line :: rest =>
      let written := write row state 0 (symbols (Scan.pieces styleCodes 0 line))
      written.1 ++ writeLines (row + 1) written.2 rest

def screenOf (content : Text) : List Cell := writeLines 0 {} (linesOf content)

/-- A hidden character is not seen, and a blank braille cell has nothing to see. -/
def Cell.seen (cell : Cell) : Bool := !cell.state.hidden && cell.character ≠ [0x2800]

/-! What a picture shows. -/

def place : Nat → List Text → List (Nat × Text)
  | _, [] => []
  | column, character :: rest => (column, character) :: place (column + terminalWidth character) rest

def Piece.drawn : Piece → List Cell
  | .background _ _ _ _ => []
  | .text row column state _ content =>
      (place column (characters content)).map fun entry => ⟨row, entry.1, entry.2, state⟩
  | .cells row state _ drawn => drawn.map fun cell => ⟨row, cell.1, [cell.2], state⟩

/-- A segment with braille cells has no combining marks. -/
def Segment.Even (segment : Segment) : Prop :=
  (∀ character ∈ characters segment.text, isCombining (codePoint character) = false) ∨
    ∀ character ∈ characters segment.text, isBraille (codePoint character) = false

/-! Characters of a text. -/

/-- A character is a unit or a pair of surrogates. -/
def IsCharacter (character : Text) : Prop :=
  (∃ unit, character = [unit]) ∨ ∃ high low, character = [high, low] ∧ (Xml.isHigh high && Xml.isLow low) = true

/-- The two characters do not make a pair. -/
def Apart (first second : Text) : Prop :=
  ∀ unit next rest, first = [unit] → second = next :: rest → (Xml.isHigh unit && Xml.isLow next) = false

theorem isCharacter_characters (text : Text) : ∀ character ∈ characters text, IsCharacter character := by
  fun_induction characters text with
  | case1 => exact fun character member => absurd member List.not_mem_nil
  | case2 unit =>
      intro character member
      exact .inl ⟨unit, List.mem_singleton.mp member⟩
  | case3 unit second rest pair ih => exact List.forall_mem_cons.mpr ⟨.inr ⟨unit, second, rfl, pair⟩, ih⟩
  | case4 unit second rest apart ih => exact List.forall_mem_cons.mpr ⟨.inl ⟨unit, rfl⟩, ih⟩

theorem flatten_characters (text : Text) : (characters text).flatten = text := by
  fun_induction characters text with
  | case1 => rfl
  | case2 unit => rfl
  | case3 unit second rest pair ih => exact congrArg (unit :: second :: ·) ih
  | case4 unit second rest apart ih => exact congrArg (unit :: ·) ih

theorem head_characters {unit : Nat} {rest : Text} {character : Text}
    (head : character ∈ (characters (unit :: rest)).head?) : ∃ more, character = unit :: more := by
  cases rest with
  | nil => exact ⟨[], (Option.some.inj head).symm⟩
  | cons second rest =>
      unfold characters at head
      split at head
      · exact ⟨[second], (Option.some.inj head).symm⟩
      · exact ⟨[], (Option.some.inj head).symm⟩

theorem apart_characters (text : Text) : (characters text).IsChain Apart := by
  fun_induction characters text with
  | case1 => exact .nil
  | case2 unit => exact .singleton _
  | case3 unit second rest pair ih =>
      refine List.isChain_cons.mpr ⟨fun _ _ => ?_, ih⟩
      exact fun _ _ _ alone => absurd (List.cons.inj alone).2 (List.cons_ne_nil _ _)
  | case4 unit second rest apart ih =>
      refine List.isChain_cons.mpr ⟨fun character head => ?_, ih⟩
      obtain ⟨more, rfl⟩ := head_characters head
      intro first next after alone same
      rw [← (List.cons.inj alone).1, ← (List.cons.inj same).1]
      exact Bool.not_eq_true _ ▸ apart

/-- Characters that make no pairs with each other are found again. -/
theorem characters_flatten {chars : List Text} (each : ∀ character ∈ chars, IsCharacter character)
    (apart : chars.IsChain Apart) : characters chars.flatten = chars := by
  induction chars with
  | nil => rfl
  | cons character rest ih =>
      obtain ⟨first, others⟩ := List.forall_mem_cons.mp each
      obtain ⟨next, later⟩ := List.isChain_cons.mp apart
      have found := ih others later
      rcases first with ⟨unit, rfl⟩ | ⟨high, low, rfl, pair⟩
      · cases rest with
        | nil => rfl
        | cons second more =>
            have alone := next second rfl
            rcases others second List.mem_cons_self with ⟨follower, rfl⟩ | ⟨follower, last, rfl, -⟩
            · have single := alone unit follower [] rfl rfl
              change characters (unit :: follower :: more.flatten) = _
              rw [characters, if_neg (by simp [single])]
              exact congrArg ([unit] :: ·) found
            · have single := alone unit follower [last] rfl rfl
              change characters (unit :: follower :: last :: more.flatten) = _
              rw [characters, if_neg (by simp [single])]
              exact congrArg ([unit] :: ·) found
      · change characters (high :: low :: rest.flatten) = _
        rw [characters, if_pos pair, found]

theorem characters_of_isCharacter {character : Text} (single : IsCharacter character) :
    characters character = [character] := by
  have found := characters_flatten (List.forall_mem_singleton.mpr single) (.singleton _)
  rwa [List.flatten_singleton] at found

theorem IsCharacter.ne_nil {character : Text} (single : IsCharacter character) : character ≠ [] := by
  rcases single with ⟨unit, rfl⟩ | ⟨high, low, rfl, -⟩
  · exact List.cons_ne_nil _ _
  · exact List.cons_ne_nil _ _

/-- A character with a small code point is one unit. -/
theorem IsCharacter.eq_codePoint {character : Text} (single : IsCharacter character)
    (small : codePoint character < 0x10000) : character = [codePoint character] := by
  rcases single with ⟨unit, rfl⟩ | ⟨high, low, rfl, -⟩
  · rfl
  · exact absurd small (Nat.not_lt.mpr (Nat.le_add_right_of_le (Nat.le_add_right _ _)))

theorem small_of_isBraille {cp : Nat} (braille : isBraille cp = true) : cp < 0x10000 := by
  unfold isBraille at braille
  grind

/-! The marks of a segment in their places. -/

def expandMark : (Nat × Text) ⊕ (Nat × Nat) → List (Nat × Text) :=
  Sum.elim (fun part => place part.1 (characters part.2)) fun cell => [(cell.1, [cell.2])]

theorem glue_alone {column : Nat} {plain : Text} (some_ : plain ≠ []) : glue column plain [] = [.inl (column, plain)] :=
  if_neg some_

theorem glue_inl {column : Nat} {plain : Text} (some_ : plain ≠ []) (part : Nat × Text)
    (more : List ((Nat × Text) ⊕ (Nat × Nat))) :
    glue column plain (.inl part :: more) = .inl (column, plain ++ part.2) :: more := if_neg some_

section Marks

variable {chars : List Text} {column : Nat}

theorem marks_cons_of_braille {character : Text} (braille : isBraille (codePoint character) = true)
    (rest : List Text) : marks column (character :: rest) =
      .inr (column, codePoint character) :: marks (column + cellWidth character) rest :=
  if_pos braille

theorem marks_cons_of_plain {character : Text} (plain : isBraille (codePoint character) = false)
    (rest : List Text) : marks column (character :: rest) =
      glue column character (marks (column + cellWidth character) rest) :=
  if_neg (by simp [plain])

/-- A text at the front of the marks is a run of plain characters. -/
theorem marks_run (solid : ∀ character ∈ chars, character ≠ []) {part : Nat × Text}
    {more : List ((Nat × Text) ⊕ (Nat × Nat))} (front : marks column chars = .inl part :: more) :
    part.1 = column ∧ ∃ run rest, chars = run ++ rest ∧ part.2 = run.flatten ∧
      ∀ character ∈ run, isBraille (codePoint character) = false := by
  induction chars generalizing column part more with
  | nil => cases front
  | cons character rest ih =>
      obtain ⟨some_, others⟩ := List.forall_mem_cons.mp solid
      cases plain : isBraille (codePoint character) with
      | true =>
          rw [marks_cons_of_braille plain] at front
          cases (List.cons.inj front).1
      | false =>
          rw [marks_cons_of_plain plain] at front
          have alone : ∀ other ∈ [character], isBraille (codePoint other) = false := by
            intro other member
            rw [List.mem_singleton.mp member]
            exact plain
          rcases later : marks (column + cellWidth character) rest with _ | ⟨next | cell, after⟩
          · rw [later, glue_alone some_] at front
            rw [← Sum.inl.inj (List.cons.inj front).1]
            exact ⟨rfl, [character], rest, rfl, (List.append_nil _).symm, alone⟩
          · obtain ⟨-, run, after, parted, text, plain_⟩ := ih others later
            rw [later, glue_inl some_] at front
            rw [← Sum.inl.inj (List.cons.inj front).1]
            refine ⟨rfl, character :: run, after, congrArg (character :: ·) parted, ?_, ?_⟩
            · exact congrArg (character ++ ·) text
            · exact List.forall_mem_cons.mpr ⟨plain, plain_⟩
          · rw [later, glue_inr some_] at front
            rw [← Sum.inl.inj (List.cons.inj front).1]
            exact ⟨rfl, [character], rest, rfl, (List.append_nil _).symm, alone⟩

/-- The characters of a run, as the marks have them. -/
theorem characters_run (each : ∀ character ∈ chars, IsCharacter character) (apart : chars.IsChain Apart)
    {part : Nat × Text} {more : List ((Nat × Text) ⊕ (Nat × Nat))} {character : Text}
    (front : marks column chars = .inl part :: more) (single : IsCharacter character)
    (whole : (character :: chars).IsChain Apart) :
    characters (character ++ part.2) = character :: characters part.2 := by
  obtain ⟨-, run, rest, rfl, text, -⟩ := marks_run (fun other member => (each other member).ne_nil) front
  have inside : ∀ other ∈ run, IsCharacter other := fun other member => each other (List.mem_append_left _ member)
  have all := List.forall_mem_cons.mpr ⟨single, inside⟩
  rw [text, characters_flatten inside apart.left_of_append]
  exact characters_flatten all whole.left_of_append

/-- Without combining marks the marks hold each character at its place. -/
theorem expand_marks (each : ∀ character ∈ chars, IsCharacter character) (apart : chars.IsChain Apart)
    (even : ∀ character ∈ chars, isCombining (codePoint character) = false) :
    (marks column chars).flatMap expandMark = place column chars := by
  induction chars generalizing column with
  | nil => rfl
  | cons character rest ih =>
      obtain ⟨single, others⟩ := List.forall_mem_cons.mp each
      obtain ⟨narrow, evens⟩ := List.forall_mem_cons.mp even
      have later := @ih (column + cellWidth character) others (List.isChain_cons.mp apart).2 evens
      have width : terminalWidth character = cellWidth character := if_neg (by simp [narrow])
      have alone := characters_of_isCharacter single
      rw [place, width]
      cases plain : isBraille (codePoint character) with
      | true =>
          rw [marks_cons_of_braille plain, List.flatMap_cons, later]
          have same := single.eq_codePoint (small_of_isBraille plain)
          exact congrArg (fun other => (column, other) :: place (column + cellWidth character) rest) same.symm
      | false =>
          rw [marks_cons_of_plain plain, ← later]
          rcases front : marks (column + cellWidth character) rest with _ | ⟨next | cell, after⟩
          · rw [glue_alone single.ne_nil]
            simp [expandMark, alone, place]
          · have found := characters_run others (List.isChain_cons.mp apart).2 front single apart
            obtain ⟨start, -⟩ := marks_run (fun other member => (others other member).ne_nil) front
            rw [glue_inl single.ne_nil, List.flatMap_cons, List.flatMap_cons]
            simp [expandMark, found, place, width, start]
          · rw [glue_inr single.ne_nil]
            simp [expandMark, alone, place]

theorem marks_of_plain (solid : ∀ character ∈ chars, character ≠ [])
    (plain : ∀ character ∈ chars, isBraille (codePoint character) = false) :
    marks column chars = if chars = [] then [] else [.inl (column, chars.flatten)] := by
  induction chars generalizing column with
  | nil => rfl
  | cons character rest ih =>
      obtain ⟨some_, others⟩ := List.forall_mem_cons.mp solid
      obtain ⟨first, plains⟩ := List.forall_mem_cons.mp plain
      rw [marks_cons_of_plain first, ih others plains, if_neg (List.cons_ne_nil _ _)]
      split
      next none_ =>
        rw [glue_alone some_, none_]
        simp
      next => rw [glue_inl some_, List.flatten_cons]

theorem expand_marks_of_plain (each : ∀ character ∈ chars, IsCharacter character) (apart : chars.IsChain Apart)
    (plain : ∀ character ∈ chars, isBraille (codePoint character) = false) :
    (marks column chars).flatMap expandMark = place column chars := by
  rw [marks_of_plain (fun other member => (each other member).ne_nil) plain]
  split
  next none_ =>
    rw [none_]
    rfl
  next => simp [expandMark, characters_flatten each apart]

/-- No braille cell is in the text of a mark. -/
theorem plain_of_mem_marks (each : ∀ character ∈ chars, IsCharacter character) (apart : chars.IsChain Apart) :
    ∀ part, .inl part ∈ marks column chars →
      ∀ character ∈ characters part.2, isBraille (codePoint character) = false := by
  induction chars generalizing column with
  | nil => exact fun part member => absurd member List.not_mem_nil
  | cons character rest ih =>
      obtain ⟨single, others⟩ := List.forall_mem_cons.mp each
      have later := @ih (column + cellWidth character) others (List.isChain_cons.mp apart).2
      have alone := characters_of_isCharacter single
      intro part member
      cases plain : isBraille (codePoint character) with
      | true =>
          rw [marks_cons_of_braille plain] at member
          exact later part ((List.mem_cons.mp member).resolve_left nofun)
      | false =>
          rw [marks_cons_of_plain plain] at member
          rcases front : marks (column + cellWidth character) rest with _ | ⟨next | cell, after⟩
          · rw [front, glue_alone single.ne_nil] at member
            rw [Sum.inl.inj (List.mem_singleton.mp member), alone]
            simpa using plain
          · have found := characters_run others (List.isChain_cons.mp apart).2 front single apart
            rw [front, glue_inl single.ne_nil] at member
            rw [front] at later
            rcases List.mem_cons.mp member with same | among
            · rw [Sum.inl.inj same, found]
              exact List.forall_mem_cons.mpr ⟨plain, later next List.mem_cons_self⟩
            · exact later part (List.mem_cons_of_mem _ among)
          · rw [front, glue_inr single.ne_nil] at member
            rw [front] at later
            rcases List.mem_cons.mp member with same | among
            · rw [Sum.inl.inj same, alone]
              simpa using plain
            · exact later part among

end Marks

/-! The pieces of a segment show its characters. -/

def toCell (row : Nat) (state : AnsiState) (entry : Nat × Text) : Cell := ⟨row, entry.1, entry.2, state⟩

def Segment.cells (row : Nat) (segment : Segment) : List Cell :=
  (place segment.column (characters segment.text)).map (toCell row segment.state)

theorem snd_of_mem_place {column : Nat} {chars : List Text} {entry : Nat × Text}
    (member : entry ∈ place column chars) : entry.2 ∈ chars := by
  induction chars generalizing column with
  | nil => cases member
  | cons character rest ih =>
      rcases List.mem_cons.mp member with rfl | later
      · exact List.mem_cons_self
      · exact List.mem_cons_of_mem _ (ih later)

/-- Texts and cells that are not blank, together, are what the marks show. -/
theorem perm_marks {all : List ((Nat × Text) ⊕ (Nat × Nat))}
    (plain : ∀ part, .inl part ∈ all → ∀ character ∈ characters part.2, isBraille (codePoint character) = false) :
    ((textsOf all).flatMap (fun part => place part.1 (characters part.2)) ++
        (cellsOf all).map fun cell => (cell.1, [cell.2])).Perm
      ((all.flatMap expandMark).filter fun entry => entry.2 ≠ [0x2800]) := by
  induction all with
  | nil => exact .refl _
  | cons mark rest ih =>
      have later := ih fun part member => plain part (List.mem_cons_of_mem _ member)
      rw [List.flatMap_cons, List.filter_append]
      cases mark with
      | inl part =>
          have kept : (expandMark (.inl part)).filter (fun entry => entry.2 ≠ [0x2800]) =
              place part.1 (characters part.2) := by
            refine List.filter_eq_self.mpr fun entry member => decide_eq_true fun blank => ?_
            have none_ := plain part List.mem_cons_self entry.2 (snd_of_mem_place member)
            rw [blank] at none_
            exact absurd none_ (by decide)
          rw [kept]
          change (place part.1 (characters part.2) ++ (textsOf rest).flatMap _ ++ _).Perm _
          rw [List.append_assoc]
          exact later.append_left _
      | inr cell =>
          by_cases blank : cell.2 = 0x2800
          · have none_ : (expandMark (.inr cell)).filter (fun entry => entry.2 ≠ [0x2800]) = [] := by
              simp [expandMark, blank]
            have same : cellsOf (.inr cell :: rest) = cellsOf rest := by
              simp [cellsOf, blank]
            rw [none_, same]
            exact later
          · have one : (expandMark (.inr cell)).filter (fun entry => entry.2 ≠ [0x2800]) = [(cell.1, [cell.2])] := by
              simp [expandMark, blank]
            have more : cellsOf (.inr cell :: rest) = cell :: cellsOf rest := by
              simp [cellsOf, blank]
            rw [one, more, List.map_cons]
            exact List.perm_middle.trans (later.cons _)

theorem perm_pieces (row : Nat) {segment : Segment} (even : segment.state.hidden = false → segment.Even) :
    ((segment.pieces row).flatMap Piece.drawn).Perm ((segment.cells row).filter Cell.seen) := by
  have behind : (if (terminalSegmentStyle segment.state).2 = themeBackground ∨ segment.columns = 0 then []
      else [Piece.background row segment.column segment.columns (terminalSegmentStyle segment.state).2]).flatMap
        Piece.drawn = [] := by
    split
    · rfl
    · rfl
  unfold Segment.pieces Segment.cells
  dsimp only
  rw [List.flatMap_append, behind, List.nil_append, List.filter_map]
  cases hidden : segment.state.hidden with
  | true =>
      have none_ : (place segment.column (characters segment.text)).filter
          (Cell.seen ∘ toCell row segment.state) = [] := by
        refine List.filter_eq_nil_iff.mpr fun entry _ => ?_
        simp [Cell.seen, toCell, hidden]
      rw [if_pos rfl, none_]
      exact .refl _
  | false =>
      have each := isCharacter_characters segment.text
      have apart := apart_characters segment.text
      have expanded : segment.marks.flatMap expandMark = place segment.column (characters segment.text) := by
        rcases even hidden with narrow | plain
        · exact expand_marks each apart narrow
        · exact expand_marks_of_plain each apart plain
      have seen : Cell.seen ∘ toCell row segment.state = fun entry => decide (entry.2 ≠ [0x2800]) := by
        funext entry
        by_cases blank : entry.2 = [0x2800]
        · simp [Cell.seen, toCell, hidden, blank]
        · simp [Cell.seen, toCell, hidden, blank]
      have plain : ∀ part, .inl part ∈ segment.marks → ∀ character ∈ characters part.2,
          isBraille (codePoint character) = false := plain_of_mem_marks each apart
      have shown := (perm_marks plain).map (toCell row segment.state)
      change ((textsOf segment.marks).flatMap _ ++ (cellsOf segment.marks).map _ |>.map _).Perm
        ((segment.marks.flatMap expandMark).filter _ |>.map _) at shown
      rw [if_neg (by simp), seen, ← expanded]
      refine List.Perm.trans (.of_eq ?_) shown
      rw [List.flatMap_append, List.map_append, List.map_flatMap, List.flatMap_map]
      refine congrArg _ ?_
      split
      next none_ =>
        rw [none_]
        rfl
      next =>
        rw [List.flatMap_cons, List.flatMap_nil, List.append_nil, List.map_map]
        rfl

/-! The segments hold the screen. -/

theorem symbols_of_text (text : Text) : symbols (text.map .inl) = (characters text).map .inl := by
  fun_induction characters text with
  | case1 => rfl
  | case2 unit => rfl
  | case3 unit second rest pair ih =>
      change symbols (.inl unit :: .inl second :: rest.map .inl) = _
      rw [symbols, if_pos pair, ih]
      rfl
  | case4 unit second rest apart ih =>
      change symbols (.inl unit :: .inl second :: rest.map .inl) = _
      rw [symbols, if_neg apart]
      exact congrArg (.inl [unit] :: ·) ih

theorem symbols_of_codes (text codes : Text) (rest : List (Nat ⊕ Text)) :
    symbols (text.map .inl ++ .inr codes :: rest) = (characters text).map .inl ++ .inr codes :: symbols rest := by
  fun_induction characters text with
  | case1 => rfl
  | case2 unit => rfl
  | case3 unit second more pair ih =>
      change symbols (.inl unit :: .inl second :: (more.map .inl ++ .inr codes :: rest)) = _
      rw [symbols, if_pos pair, ih]
      rfl
  | case4 unit second more apart ih =>
      change symbols (.inl unit :: .inl second :: (more.map .inl ++ .inr codes :: rest)) = _
      rw [symbols, if_neg apart]
      exact congrArg (.inl [unit] :: ·) ih

def columnsAfter (column : Nat) (chars : List Text) : Nat := column + (chars.map terminalWidth).sum

theorem write_chars (row : Nat) (state : AnsiState) (column : Nat) (chars : List Text) (rest : List (Text ⊕ Text)) :
    write row state column (chars.map .inl ++ rest) =
      ((place column chars).map (toCell row state) ++ (write row state (columnsAfter column chars) rest).1,
        (write row state (columnsAfter column chars) rest).2) := by
  induction chars generalizing column with
  | nil => rfl
  | cons character more ih =>
      have moved : columnsAfter column (character :: more) =
          columnsAfter (column + terminalWidth character) more := by
        unfold columnsAfter
        rw [List.map_cons, List.sum_cons, Nat.add_assoc]
      rw [moved, List.map_cons, List.cons_append, write, ih]
      rfl

theorem visibleColumns_eq {text : Text} (untabbed : 9 ∉ text) :
    visibleColumns text = ((characters text).map terminalWidth).sum := by
  have other : ∀ character ∈ characters text, codePoint character ≠ 9 := by
    intro character member tab
    have same := (isCharacter_characters text character member).eq_codePoint (by rw [tab]; decide)
    refine untabbed ?_
    rw [← flatten_characters text]
    exact List.mem_flatten.mpr ⟨character, member, by rw [same, tab]; exact List.mem_singleton_self _⟩
  unfold visibleColumns
  suffices folded : ∀ width, (characters text).foldl (fun width character =>
      let cp := codePoint character
      if cp = 9 then width + (4 - width % 4)
      else if isCombining cp then width
      else width + if isWide cp then 2 else 1) width = width + ((characters text).map terminalWidth).sum by
    rw [folded, Nat.zero_add]
  generalize characters text = chars at other
  intro width
  induction chars generalizing width with
  | nil => rfl
  | cons character rest ih =>
      obtain ⟨first, others⟩ := List.forall_mem_cons.mp other
      rw [List.foldl_cons, ih others, List.map_cons, List.sum_cons, ← Nat.add_assoc]
      refine congrArg (· + _) ?_
      dsimp only
      rw [if_neg first, terminalWidth, cellWidth]
      split
      · rfl
      · rfl

theorem append_cells (row : Nat) (state : AnsiState) (column : Nat) (text : Text) :
    (append state column text).flatMap (Segment.cells row) =
      (place column (characters text)).map (toCell row state) := by
  unfold append
  split
  next none_ =>
    rw [none_]
    rfl
  next => exact List.append_nil _

theorem segmentsOf_cells (row : Nat) (state : AnsiState) (column : Nat) (text : Text) (found : List (Nat ⊕ Text))
    (untabbed : 9 ∉ text ∧ .inl 9 ∉ found) :
    ((segmentsOf state column text found).1.flatMap (Segment.cells row), (segmentsOf state column text found).2) =
      write row state column (symbols (text.map .inl ++ found)) := by
  fun_induction segmentsOf state column text found with
  | case1 state column text =>
      have written := write_chars row state column (characters text) []
      rw [List.append_nil] at written
      rw [List.append_nil, symbols_of_text, written, append_cells]
      exact congrArg (·, state) (List.append_nil _).symm
  | case2 state column text unit rest ih =>
      have next : 9 ∉ text ++ [unit] ∧ .inl 9 ∉ rest := by
        refine ⟨fun member => ?_, fun member => untabbed.2 (List.mem_cons_of_mem _ member)⟩
        rcases List.mem_append.mp member with before | same
        · exact untabbed.1 before
        · exact untabbed.2 (List.mem_singleton.mp same ▸ List.mem_cons_self)
      rw [ih next, List.map_append, List.append_assoc]
      rfl
  | case3 state column text codes rest later ih =>
      have next : 9 ∉ ([] : Text) ∧ .inl 9 ∉ rest :=
        ⟨List.not_mem_nil, fun member => untabbed.2 (List.mem_cons_of_mem _ member)⟩
      have after := ih next
      rw [visibleColumns_eq untabbed.1, List.map_nil, List.nil_append] at after
      rw [symbols_of_codes, write_chars, write]
      unfold columnsAfter
      rw [← after, List.flatMap_append, append_cells, ← visibleColumns_eq untabbed.1]

theorem mem_of_mem_pieces {β : Type*} {find : Scan.Finder Nat β} {skip : Nat} {text : Text} {unit : Nat}
    (member : .inl unit ∈ Scan.pieces find skip text) : unit ∈ text := by
  fun_induction Scan.pieces find skip text with
  | case1 => cases member
  | case2 skip first rest ih => exact List.mem_cons_of_mem _ (ih member)
  | case3 first rest length found match_ ih =>
      exact List.mem_cons_of_mem _ (ih ((List.mem_cons.mp member).resolve_left nofun))
  | case4 first rest none_ ih =>
      rcases List.mem_cons.mp member with same | later
      · rw [Sum.inl.inj same]
        exact List.mem_cons_self
      · exact List.mem_cons_of_mem _ (ih later)

theorem untabbed_reportTokens (content : Text) : .inl 9 ∉ reportTokens content := by
  intro member
  obtain ⟨before, -, expanded⟩ := List.mem_flatMap.mp (List.mem_of_mem_filter member)
  cases before with
  | inr found => simp [expandToken] at expanded
  | inl other =>
      obtain ⟨same, inside, equal⟩ := List.mem_map.mp expanded
      rw [Sum.inl.inj equal] at inside
      unfold expandTab at inside
      split at inside
      · exact absurd inside (by decide)
      next tab => exact tab (List.mem_singleton.mp inside).symm

/-- No line of the image has a tab. -/
theorem untabbed_linesOf {content line : Text} (member : line ∈ linesOf content) : 9 ∉ line := by
  intro tab
  rcases List.mem_append.mp member with first | notice
  · have inside : 9 ∈ sourceOf content := Scan.mem_of_mem_splitAt (List.mem_of_mem_take first) tab
    rw [sourceOf_eq] at inside
    obtain ⟨token, among, spelled⟩ := List.mem_flatMap.mp inside
    cases token with
    | inl unit =>
        rw [← List.mem_singleton.mp spelled] at among
        exact untabbed_reportTokens content among
    | inr found =>
        rcases ascii_of_mem_text (clean_reportTokens content _ among) spelled with same | bounds
        · cases same
        · omega
  · split at notice
    · rw [List.mem_singleton.mp notice] at tab
      exact absurd tab (by decide)
    · cases notice

theorem writeLines_eq (row : Nat) (state : AnsiState) {lines : List Text} (untabbed : ∀ line ∈ lines, 9 ∉ line) :
    writeLines row state lines = (segmentsFrom row state lines).flatMap fun entry => entry.2.cells entry.1 := by
  induction lines generalizing row state with
  | nil => rfl
  | cons line rest ih =>
      obtain ⟨first, others⟩ := List.forall_mem_cons.mp untabbed
      have cells := segmentsOf_cells row state 0 [] (Scan.pieces styleCodes 0 line)
        ⟨List.not_mem_nil, fun member => first (mem_of_mem_pieces member)⟩
      rw [List.map_nil, List.nil_append] at cells
      unfold writeLines segmentsFrom
      dsimp only
      rw [← cells, List.flatMap_append, List.flatMap_map, ih (row + 1) _ others]
      rfl

/-- A blank cell, a bar and a wide character. -/
def barReport : Text := units "a" ++ [0x2800, 0x28ff, 0x4e2d] ++ escape :: units "[8mx" ++ escape :: units "[0mz"

end NieSla.NodeQuality.Terminal
