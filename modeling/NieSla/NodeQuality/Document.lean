import NieSla.NodeQuality.Drawn
import NieSla.NodeQuality.Tokens

/-! The image of a report as an XML document. -/
namespace NieSla.NodeQuality.Terminal

open Xml (units Event)

/-! What is rendered is the document of the drawing. -/

section Spell

theorem spell_root (drawing : Drawing) : (Event.start "svg" drawing.root).spell =
    units "<svg xmlns=\"http://www.w3.org/2000/svg\" width=\"" ++ decimal drawing.width ++ units "\" height=\"" ++
      decimal drawing.height ++ units "\" viewBox=\"0 0 " ++ decimal drawing.width ++ units " " ++
      decimal drawing.height ++ units "\" role=\"img\" aria-label=\"NodeQuality terminal report\">" := by
  have place : Xml.escape (units "http://www.w3.org/2000/svg") = units "http://www.w3.org/2000/svg" :=
    Safe.escape (by decide)
  have role : Xml.escape (units "img") = units "img" := Safe.escape (by decide)
  have label : Xml.escape (units "NodeQuality terminal report") = units "NodeQuality terminal report" :=
    Safe.escape (by decide)
  have width := (safe_decimal drawing.width).escape
  have height := (safe_decimal drawing.height).escape
  have zero : Safe (units "0 0 ") := by decide
  have gap : Safe (units " ") := by decide
  have box : Safe (units "0 0 " ++ decimal drawing.width ++ units " " ++ decimal drawing.height) :=
    ((zero.append (safe_decimal _)).append gap).append (safe_decimal _)
  simp only [Event.spell, Drawing.root, List.flatMap_cons, List.flatMap_nil, Xml.spellAttribute, place, role, label,
    width, height, box.escape]
  simp [units]

/-- Ground, style sheet and the opening of the group. -/
def opening : List Event :=
  [.plain (units "\n  "),
    .empty "rect" [("width", units "100%"), ("height", units "100%"), ("fill", themeBackground)],
    .plain (units "\n  "), .start "style" [], .plain styleSheet, .stop "style", .plain (units "\n  "),
    .start "g" [("transform", units "scale(2)")]]

theorem spell_opening : opening.flatMap Event.spell =
    units "\n  <rect width=\"100%\" height=\"100%\" fill=\"" ++ themeBackground ++ units "\"/>" ++
      units "\n  <style>" ++ styleSheet ++ units "</style>" ++ units "\n  <g transform=\"scale(2)\">" := by
  decide +kernel

def closing : List Event := [.stop "g", .plain (units "\n")]

theorem spell_closing :
    (closing ++ [Event.stop "svg"]).flatMap Event.spell = units "</g>" ++ units "\n</svg>" := by
  decide

theorem inner_eq (drawing : Drawing) :
    drawing.inner = opening ++ (drawing.pieces.flatMap Piece.events ++ closing) := List.append_assoc opening _ _

/-- The image is the document of the drawing. -/
theorem renderNodeQualitySvg_eq (content : Text) :
    renderNodeQualitySvg content = Xml.spell (drawingOf content).events := by
  have lines := renderLines_eq 0 safe_default (linesOf content)
  have pieces : ((drawingOf content).pieces.flatMap Piece.events).flatMap Event.spell =
      renderLines 0 {} (linesOf content) := lines.symm ▸ List.flatMap_assoc
  unfold renderNodeQualitySvg Xml.spell Drawing.events
  rw [List.flatMap_cons, spell_root, inner_eq, List.append_assoc opening, List.append_assoc _ closing,
    List.flatMap_append, List.flatMap_append, pieces, spell_opening, spell_closing]
  simp only [List.append_assoc]
  rfl

end Spell

/-! The tags, and what they hold. -/

def elements : List String := ["svg", "rect", "style", "g", "text", "path"]

/-- The attributes of an element, in their order. -/
def attributesOf (name : String) : List String :=
  if name = "svg" then ["xmlns", "width", "height", "viewBox", "role", "aria-label"]
  else if name = "rect" then ["x", "y", "width", "height", "fill"]
  else if name = "g" then ["transform"]
  else if name = "text" then
    ["class", "x", "y", "fill", "font-weight", "font-style", "text-decoration", "opacity", "xml:space"]
  else if name = "path" then ["data-nq-bar", "fill", "opacity", "d"]
  else []

structure KnownTag (name : String) (attributes : List (String × Text)) : Prop where
  element : name ∈ elements
  names : (attributes.map Prod.fst).Sublist (attributesOf name)
  values : ∀ pair ∈ attributes, Safe pair.2

/-- The event is one of the image's own: nothing of a report is in it but numbers, colours and escaped text. -/
def Known : Event → Prop
  | .start name attributes => KnownTag name attributes
  | .empty name attributes => KnownTag name attributes
  | .stop name => name ∈ elements
  | .text _ => True
  | .plain content => content ∈ [units "\n  ", styleSheet, units "\n"]

theorem KnownTag.valid {name : String} {attributes : List (String × Text)} (known : KnownTag name attributes) :
    Xml.ValidTag name attributes := by
  have named : ∀ name ∈ elements, Xml.isName name = true ∧ (attributesOf name).Nodup ∧
      ∀ attribute_ ∈ attributesOf name, Xml.isName attribute_ = true := by decide
  obtain ⟨element, distinct, attributes_⟩ := named name known.element
  refine ⟨element, fun pair member => ?_, distinct.sublist known.names, fun pair member => ?_⟩
  · exact attributes_ _ (known.names.subset (List.mem_map_of_mem member))
  · exact (known.values pair member).allChars

/-- Such an event is valid where the text in it is. -/
theorem valid_of_known {event : Event} (known : Known event)
    (chars : ∀ content, event = .text content → Xml.allChars content = true) : event.Valid := by
  cases event with
  | start name attributes => exact known.valid
  | empty name attributes => exact known.valid
  | stop name =>
      have named : ∀ name ∈ elements, Xml.isName name = true := by decide
      exact named name known
  | text content => exact chars content rfl
  | plain content =>
      have fixed : ∀ content ∈ [units "\n  ", styleSheet, units "\n"],
          Xml.allChars content = true ∧ ∀ unit ∈ content, unit ∉ [0x26, 0x3c, 0x3e] := by decide +kernel
      exact fixed content known

theorem safe_values_styleAttributes (state : AnsiState) : ∀ pair ∈ styleAttributes state, Safe pair.2 := by
  have weight : Safe (units "700") := by decide
  have italic : Safe (units "italic") := by decide
  have half : Safe (units "0.6") := by decide
  have lines := safe_decorations state
  unfold styleAttributes opacity
  grind

theorem names_styleAttributes (state : AnsiState) : ((styleAttributes state).map Prod.fst).Sublist
    ["font-weight", "font-style", "text-decoration", "opacity"] := by
  simp only [styleAttributes, opacity, List.map_append]
  have optional (condition : Prop) [Decidable condition] (name : String) (value : Text) :
      ((if condition then [(name, value)] else []).map Prod.fst).Sublist [name] := by
    split
    · exact List.Sublist.refl _
    · exact List.nil_sublist _
  have decorated (condition : Prop) [Decidable condition] (name : String) (value : Text) :
      ((if condition then [] else [(name, value)]).map Prod.fst).Sublist [name] := by
    split
    · exact List.nil_sublist _
    · exact List.Sublist.refl _
  exact (((optional _ _ _).append (optional _ _ _)).append (decorated _ _ _)).append (optional _ _ _)

section Pieces

variable {row column : Nat} {state : AnsiState} {fill : Text}

theorem known_background (safe : Safe fill) (columns : Nat) :
    ∀ event ∈ (Piece.background row column columns fill).events, Known event := by
  have height : Safe (units "17") := by decide
  intro event member
  rw [List.mem_singleton.mp member]
  refine ⟨by decide, List.Sublist.refl _, ?_⟩
  simp [safe_formatNumber, height, safe]

theorem known_text (safe : Safe fill) (content : Text) :
    ∀ event ∈ (Piece.text row column state fill content).events, Known event := by
  have cell : Safe (units "cell") := by decide
  have preserve : Safe (units "preserve") := by decide
  have place : ∀ pair ∈ [("class", units "cell"), ("x", formatNumber (xOf column)),
      ("y", formatNumber (yOf row + 1340)), ("fill", fill)], Safe pair.2 := by
    simp [safe_formatNumber, cell, safe]
  have space : ∀ pair ∈ [("xml:space", units "preserve")], Safe pair.2 := by
    simp [preserve]
  have tag : KnownTag "text" ([("class", units "cell"), ("x", formatNumber (xOf column)),
      ("y", formatNumber (yOf row + 1340)), ("fill", fill)] ++ styleAttributes state ++
        [("xml:space", units "preserve")]) := by
    refine ⟨by decide, ?_, ?_⟩
    · rw [List.map_append, List.map_append]
      exact ((List.Sublist.refl _).append (names_styleAttributes _)).append (List.Sublist.refl _)
    · have styled := List.forall_mem_append.mpr ⟨place, safe_values_styleAttributes state⟩
      exact List.forall_mem_append.mpr ⟨styled, space⟩
  intro event member
  rcases List.mem_cons.mp member with rfl | rest
  · exact tag
  · rcases List.mem_cons.mp rest with rfl | last
    · trivial
    · rw [List.mem_singleton.mp last]
      exact (by decide : "text" ∈ elements)

theorem known_cells (safe : Safe fill) (drawn : List (Nat × Nat)) :
    ∀ event ∈ (Piece.cells row state fill drawn).events, Known event := by
  have square : Safe (units "square") := by decide
  have half : Safe (units "0.6") := by decide
  have front : ∀ pair ∈ [("data-nq-bar", units "square"), ("fill", fill)], Safe pair.2 := by
    simp [square, safe]
  have dim : ((opacity state).map Prod.fst).Sublist ["opacity"] ∧ ∀ pair ∈ opacity state, Safe pair.2 := by
    unfold opacity
    split
    · exact ⟨List.Sublist.refl _, by simp [half]⟩
    · exact ⟨List.nil_sublist _, by simp⟩
  have path : ∀ pair ∈ [("d", pathOf row drawn)], Safe pair.2 := by
    simp [safe_pathOf]
  intro event member
  rw [List.mem_singleton.mp member]
  refine ⟨by decide, ?_, ?_⟩
  · rw [List.map_append, List.map_append]
    exact ((List.Sublist.refl ["data-nq-bar", "fill"]).append dim.1).append (List.Sublist.refl ["d"])
  · exact List.forall_mem_append.mpr ⟨List.forall_mem_append.mpr ⟨front, dim.2⟩, path⟩

end Pieces

theorem known_piece {row : Nat} {segment : Segment} (safe : segment.state.Safe) :
    ∀ piece ∈ segment.pieces row, ∀ event ∈ piece.events, Known event := by
  obtain ⟨foreground, background⟩ := safe.style
  intro piece member
  rcases List.mem_append.mp member with behind | drawn
  · split at behind
    · cases behind
    · rw [List.mem_singleton.mp behind]
      exact known_background background _
  · split at drawn
    · cases drawn
    · rcases List.mem_append.mp drawn with written | cells
      · obtain ⟨part, -, rfl⟩ := List.mem_map.mp written
        exact known_text foreground _
      · split at cells
        · cases cells
        · rw [List.mem_singleton.mp cells]
          exact known_cells foreground _

theorem closes_piece (piece : Piece) (open_ : List String) : Xml.closes open_ piece.events = some open_ := by
  cases piece with
  | background row column columns fill => cases open_ <;> rfl
  | text row column state fill content => cases open_ <;> rfl
  | cells row state fill drawn => cases open_ <;> rfl

theorem nested_document (drawing : Drawing) : Xml.Nested drawing.events := by
  refine ⟨"svg", drawing.root, drawing.inner, rfl, ?_⟩
  have before : Xml.closes [] opening = some ["g"] := by decide
  have inside : Xml.closes ["g"] (drawing.pieces.flatMap Piece.events) = some ["g"] :=
    Xml.closes_flatMap (fun piece _ => closes_piece piece) ["g"]
  rw [inner_eq, Xml.closes_append before, Xml.closes_append inside]
  rfl

theorem known_root (drawing : Drawing) : KnownTag "svg" drawing.root := by
  have zero : Safe (units "0 0 ") := by decide
  have gap : Safe (units " ") := by decide
  refine ⟨by decide, List.Sublist.refl _, ?_⟩
  have place : Safe (units "http://www.w3.org/2000/svg") := by decide
  have role : Safe (units "img") := by decide
  have label : Safe (units "NodeQuality terminal report") := by decide
  have box : Safe (units "0 0 " ++ decimal drawing.width ++ units " " ++ decimal drawing.height) :=
    ((zero.append (safe_decimal _)).append gap).append (safe_decimal _)
  unfold Drawing.root
  intro pair member
  revert member
  revert pair
  simp only [List.forall_mem_cons]
  exact ⟨place, safe_decimal _, safe_decimal _, box, role, label, fun _ none_ => absurd none_ List.not_mem_nil⟩

theorem known_document (content : Text) : ∀ event ∈ (drawingOf content).events, Known event := by
  have front : ∀ event ∈ opening, Known event := by
    have ground : KnownTag "rect" [("width", units "100%"), ("height", units "100%"), ("fill", themeBackground)] := by
      refine ⟨by decide, by decide, by decide⟩
    have style : KnownTag "style" [] := ⟨by decide, by decide, by decide⟩
    have group : KnownTag "g" [("transform", units "scale(2)")] := ⟨by decide, by decide, by decide⟩
    unfold opening
    simp only [List.forall_mem_cons]
    exact ⟨List.mem_cons_self, ground, List.mem_cons_self, style, List.mem_cons_of_mem _ List.mem_cons_self,
      (by decide : "style" ∈ elements), List.mem_cons_self, group, fun _ none_ => absurd none_ List.not_mem_nil⟩
  have back : ∀ event ∈ closing ++ [Event.stop "svg"], Known event := by
    unfold closing
    simp only [List.cons_append, List.nil_append, List.forall_mem_cons]
    refine ⟨(by decide : "g" ∈ elements), ?_, (by decide : "svg" ∈ elements), fun _ none_ => ?_⟩
    · exact List.mem_cons_of_mem _ (List.mem_cons_of_mem _ List.mem_cons_self)
    · exact absurd none_ List.not_mem_nil
  intro event member
  unfold Drawing.events at member
  rw [inner_eq, List.append_assoc, List.append_assoc] at member
  rcases List.mem_cons.mp member with rfl | later
  · exact known_root _
  · rcases List.mem_append.mp later with first | others
    · exact front event first
    · rcases List.mem_append.mp others with among | last
      · obtain ⟨piece, inside, shown⟩ := List.mem_flatMap.mp among
        obtain ⟨entry, rendered, part⟩ := List.mem_flatMap.mp inside
        exact known_piece (safe_default.segmentsFrom 0 _ entry rendered) piece part event shown
      · exact back event last

/-- Whatever a report holds, its image is a document of one `svg`, in which every element is closed in order, and
whose tags and attributes are the image's own. -/
theorem renderNodeQualitySvg_document (content : Text) : ∃ events : List Event,
    renderNodeQualitySvg content = Xml.spell events ∧ Xml.Nested events ∧ ∀ event ∈ events, Known event :=
  ⟨_, renderNodeQualitySvg_eq content, nested_document _, known_document content⟩

end NieSla.NodeQuality.Terminal

/-! The characters of an image: it is well formed where the report is Unicode and sets its styles by codes. -/
namespace NieSla.NodeQuality.Terminal

open Xml (units Event consistsOf)
open Scan (Finder)

/-- A unit that stands for a Unicode character which XML or the cleaning knows. -/
def isUnicode (unit : Nat) : Bool := unit < 0xd800 || (0xe000 ≤ unit && unit ≤ 0xfffd)

/-! Surrogates stay in pairs. -/

/-- The matches of the pattern begin and end with a unit that is no surrogate. -/
structure Ends (find : Finder Nat Text) (single : Nat → Bool) : Prop where
  first : ∀ {unit : Nat} {rest : Text} {found : Nat × Text}, find (unit :: rest) = some found →
    Xml.isHigh unit = false ∧ Xml.isLow unit = false
  last : ∀ {text : Text} {length : Nat} {found : Text}, find text = some (length, found) →
    ∃ body unit rest, text = body ++ unit :: rest ∧ length = body.length + 1 ∧ Xml.isHigh unit = false ∧
      Xml.isLow unit = false ∧ (consistsOf single text = true → consistsOf single found = true)

theorem Ends.replace {find : Finder Nat Text} {single : Nat → Bool} (ends : Ends find single) {text : Text}
    (whole : consistsOf single text = true) : consistsOf single (Scan.replace find text) = true := by
  unfold Scan.replace
  induction n : text.length using Nat.strong_induction_on generalizing text with
  | _ n ih =>
      subst n
      cases text with
      | nil => rfl
      | cons unit rest =>
          cases match_ : find (unit :: rest) with
          | some found =>
              obtain ⟨length, replacement⟩ := found
              obtain ⟨body, last, after, same, count, high, low, kept⟩ := ends.last match_
              have later : rest.drop (length - 1) = after := by
                rw [count, Nat.add_sub_cancel]
                cases body with
                | nil => exact (List.cons.inj same).2
                | cons first others =>
                    have parted : rest = (others ++ [last]) ++ after :=
                      (List.cons.inj same).2.trans (List.append_cons others last after)
                    rw [parted]
                    exact List.drop_left' (by simp)
              rw [Scan.pieces, match_]
              dsimp only
              rw [Scan.pieces_skip, later, List.flatMap_cons]
              rw [same] at whole
              refine Xml.consistsOf_append (kept (same ▸ whole)) ?_
              refine ih after.length ?_ (Xml.consistsOf_part high low whole).2 rfl
              rw [same, List.length_append, List.length_cons]
              omega
          | none =>
              rw [Scan.pieces_cons_of_none match_, List.flatMap_cons]
              cases rest with
              | nil => exact whole
              | cons second more =>
                  rw [consistsOf] at whole
                  rcases Bool.or_eq_true_iff.mp whole with one | two
                  · obtain ⟨alone, others⟩ := Bool.and_eq_true_iff.mp one
                    exact Xml.consistsOf_cons alone (ih _ (Nat.lt_succ_self _) others rfl)
                  · obtain ⟨pair, others⟩ := Bool.and_eq_true_iff.mp two
                    obtain ⟨high, low⟩ := Bool.and_eq_true_iff.mp pair
                    have inside : find (second :: more) = none := by
                      cases second_ : find (second :: more) with
                      | none => rfl
                      | some found =>
                          have surrogate := (ends.first second_).2
                          rw [low] at surrogate
                          cases surrogate
                    rw [Scan.pieces_cons_of_none inside, List.flatMap_cons]
                    exact Xml.consistsOf_pair pair (ih more.length (by simp) others rfl)

theorem escape_alone : Xml.isHigh escape = false ∧ Xml.isLow escape = false := by decide

theorem lastTerminator_sound {text : Text} {length : Nat} (found : lastTerminator text = some length) :
    ∃ body rest, text = body ++ 0x5c :: rest ∧ length = body.length + 1 := by
  fun_induction lastTerminator text generalizing length with
  | case1 first second rest count later ih =>
      obtain ⟨body, after, same, counted⟩ := ih later
      refine ⟨first :: body, after, congrArg (first :: ·) same, ?_⟩
      rw [← Option.some.inj found, counted, List.length_cons]
  | case2 first second rest later both ih =>
      obtain ⟨rfl, rfl⟩ := both
      exact ⟨[escape], rest, rfl, (Option.some.inj found).symm⟩
  | case3 first second rest later neither ih => cases found
  | case4 => cases found

theorem ends_operatingSystemCommand (single : Nat → Bool) : Ends operatingSystemCommand single := by
  have opens {text : Text} {found : Nat × Text} (match_ : operatingSystemCommand text = some found) :
      ∃ rest length, text = escape :: 0x5d :: rest ∧ found = (length + 2, []) ∧
        (if bell ∈ rest then some ((rest.takeWhile (· ≠ bell)).length + 1) else lastTerminator rest) =
          some length := by
    unfold operatingSystemCommand at match_
    split at match_
    next first second rest =>
      split at match_
      next both =>
        obtain ⟨rfl, rfl⟩ := both
        obtain ⟨length, same, rfl⟩ := Option.map_eq_some_iff.mp match_
        exact ⟨rest, length, rfl, rfl, same⟩
      next => cases match_
    next => cases match_
  refine ⟨fun match_ => ?_, fun match_ => ?_⟩
  · obtain ⟨rest, length, same, -, -⟩ := opens match_
    rw [(List.cons.inj same).1]
    exact escape_alone
  · obtain ⟨rest, length, rfl, same, reach⟩ := opens match_
    obtain ⟨rfl, rfl⟩ := Prod.mk.inj same
    split at reach
    next inside =>
      have parts := List.takeWhile_append_dropWhile (p := (· ≠ bell)) (l := rest)
      cases after : rest.dropWhile (· ≠ bell) with
      | nil =>
          have none_ := List.dropWhile_eq_nil_iff.mp after bell inside
          simp at none_
      | cons unit more =>
          have unit_ : unit = bell := by
            have head := List.head?_dropWhile_not (· ≠ bell) rest
            rw [after] at head
            simpa using head
          rw [after, unit_] at parts
          refine ⟨escape :: 0x5d :: rest.takeWhile (· ≠ bell), bell, more, ?_, ?_, by decide, by decide, fun _ => rfl⟩
          · exact congrArg (escape :: 0x5d :: ·) parts.symm
          · rw [← Option.some.inj reach]
            rfl
    next =>
      obtain ⟨body, more, rfl, rfl⟩ := lastTerminator_sound reach
      exact ⟨escape :: 0x5d :: body, 0x5c, more, rfl, rfl, by decide, by decide, fun _ => rfl⟩

theorem ends_strayEscape (single : Nat → Bool) : Ends strayEscape single := by
  have opens {text : Text} {found : Nat × Text} (match_ : strayEscape text = some found) :
      text.head? = some escape ∧ found = (1, []) := by
    unfold strayEscape at match_
    split at match_
    next both => exact ⟨both.1, (Option.some.inj match_).symm⟩
    next => cases match_
  refine ⟨fun match_ => ?_, fun {text} {length} {found} match_ => ?_⟩
  · rw [Option.some.inj (opens match_).1]
    exact escape_alone
  · obtain ⟨head, same⟩ := opens match_
    obtain ⟨rfl, rfl⟩ := Prod.mk.inj same
    obtain ⟨rest, rfl⟩ := List.head?_eq_some_iff.mp head
    exact ⟨[], escape, rest, rfl, rfl, escape_alone.1, escape_alone.2, fun _ => rfl⟩

theorem ends_styleSequence : Ends styleSequence isUnicode := by
  refine ⟨fun {unit} {rest} {found} match_ => ?_, fun {text} {length} {found} match_ => ?_⟩
  · obtain ⟨⟨count, sequence⟩, same, -⟩ := Option.map_eq_some_iff.mp match_
    obtain ⟨-, -, more, spelled⟩ := controlSequence_sound same
    rw [(List.cons.inj spelled).1]
    exact escape_alone
  · obtain ⟨⟨count, sequence⟩, same, taken⟩ := Option.map_eq_some_iff.mp match_
    obtain ⟨valid, rfl, more, rfl⟩ := controlSequence_sound same
    obtain ⟨rfl, rfl⟩ := Prod.mk.inj taken
    have final := valid.final
    unfold isFinal at final
    simp only [Bool.and_eq_true, decide_eq_true_eq] at final
    refine ⟨escape :: 0x5b :: (sequence.parameters ++ sequence.intermediates), sequence.final, more, ?_, ?_, ?_, ?_,
      fun _ => ?_⟩
    · simp [Sequence.text]
    · simp [Sequence.text]
      omega
    · unfold Xml.isHigh
      grind
    · unfold Xml.isLow
      grind
    · have each : ∀ unit ∈ sequence.text, isUnicode unit = true := by
        intro unit member
        unfold isUnicode
        rcases ascii_of_mem_text valid member with rfl | bounds
        · decide
        · grind
      dsimp only
      split
      · exact Xml.consistsOf_of_forall each
      · rfl

theorem consistsOf_flatMap {single : Nat → Bool} {f : Nat → Text} {text : Text}
    (whole : consistsOf single text = true)
    (alone : ∀ unit, single unit = true → consistsOf single (f unit) = true)
    (surrogates : ∀ unit, Xml.isHigh unit = true ∨ Xml.isLow unit = true → f unit = [unit]) :
    consistsOf single (text.flatMap f) = true := by
  fun_induction consistsOf single text with
  | case1 => rfl
  | case2 unit =>
      rw [List.flatMap_cons, List.flatMap_nil, List.append_nil]
      exact alone unit whole
  | case3 unit other rest plain paired =>
      rcases Bool.or_eq_true_iff.mp whole with one | two
      · obtain ⟨single_, others⟩ := Bool.and_eq_true_iff.mp one
        rw [List.flatMap_cons]
        exact Xml.consistsOf_append (alone unit single_) (plain others)
      · obtain ⟨pair, others⟩ := Bool.and_eq_true_iff.mp two
        obtain ⟨high, low⟩ := Bool.and_eq_true_iff.mp pair
        rw [List.flatMap_cons, List.flatMap_cons, surrogates unit (.inl high), surrogates other (.inr low)]
        exact Xml.consistsOf_pair pair (paired others)

theorem high_of_surrogate {unit : Nat} (surrogate : Xml.isHigh unit = true ∨ Xml.isLow unit = true) :
    0xd800 ≤ unit := by
  unfold Xml.isHigh Xml.isLow at surrogate
  grind

theorem unicode_sourceOf {content : Text} (unicode : consistsOf isUnicode content = true) :
    consistsOf isUnicode (sourceOf content) = true := by
  have commands := (ends_operatingSystemCommand isUnicode).replace unicode
  have escapes := (ends_strayEscape isUnicode).replace commands
  have printed : consistsOf isUnicode (sanitizeAnsiContent content) = true := by
    refine Xml.consistsOf_filter escapes fun unit surrogate => ?_
    have high := high_of_surrogate surrogate
    simp only [isControl, Bool.not_eq_true', Bool.or_eq_false_iff, Bool.and_eq_false_iff, decide_eq_false_iff_not]
    omega
  refine ends_styleSequence.replace (consistsOf_flatMap printed (fun unit alone => ?_) fun unit surrogate => ?_)
  · unfold expandTab
    split
    · decide
    · rw [consistsOf]
      exact alone
  · have high := high_of_surrogate surrogate
    exact if_neg (by omega)

theorem consistsOf_splitAt {single : Nat → Bool} {text line : Text} (whole : consistsOf single text = true)
    (member : line ∈ Scan.splitAt (· = newline) text) : consistsOf single line = true := by
  induction n : text.length using Nat.strong_induction_on generalizing text with
  | _ n ih =>
      subst n
      by_cases inside : newline ∈ text
      · obtain ⟨before, after, rfl, first⟩ := List.eq_append_cons_of_mem inside
        have solid : ∀ unit ∈ before, decide (unit = newline) = false := by
          intro unit among
          exact decide_eq_false fun same => first (same ▸ among)
        have split_ : Scan.splitAt (· = newline) (newline :: after) = [] :: Scan.splitAt (· = newline) after :=
          if_pos rfl
        rw [Scan.splitAt_append solid split_, List.append_nil] at member
        obtain ⟨left, right⟩ := Xml.consistsOf_part (by decide) (by decide) whole
        rcases List.mem_cons.mp member with rfl | later
        · exact left
        · refine ih after.length ?_ right later rfl
          rw [List.length_append, List.length_cons]
          omega
      · have solid : ∀ unit ∈ text, decide (unit = newline) = false := by
          intro unit among
          exact decide_eq_false fun same => inside (same ▸ among)
        have alone : Scan.splitAt (· = newline) (text ++ []) = [text ++ []] := Scan.splitAt_append solid rfl
        rw [List.append_nil] at alone
        rw [alone, List.mem_singleton] at member
        rw [member]
        exact whole

/-! The lines of the image, token by token. -/

def lineTokens (content : Text) : List (List Token) :=
  (tokenLines content).take maxRenderLines ++
    if maxRenderLines < (tokenLines content).length then [truncatedNotice.map .inl] else []

theorem spell_inl (text : Text) : spell (text.map .inl) = text := by
  unfold spell
  rw [List.flatMap_map]
  exact List.flatMap_singleton' text

theorem linesOf_eq (content : Text) : linesOf content = (lineTokens content).map spell := by
  unfold linesOf lineTokens
  rw [originalLines_eq, List.length_map, List.map_append, List.map_take]
  split
  · rw [List.map_singleton, spell_inl]
  · rfl

/-- A unit of the image is printed, and every sequence in it sets a style by codes. -/
def Shown (token : Token) : Prop :=
  token.elim (fun unit => isControl unit = false ∧ unit ≠ escape) fun found => found.Valid ∧ found.Style

/-- The sequences of a report that set a style hold codes alone. -/
def PlainStyles (content : Text) : Prop := ∀ found : Sequence, .inr found ∈ reportTokens content → found.Style

theorem shown_reportTokens {content : Text} (plain : PlainStyles content) :
    ∀ token ∈ reportTokens content, Shown token := by
  intro token member
  have clean := clean_reportTokens content token member
  cases token with
  | inr found => exact ⟨clean, plain found member⟩
  | inl unit =>
      refine ⟨?_, clean⟩
      obtain ⟨before, among, expanded⟩ := List.mem_flatMap.mp (List.mem_of_mem_filter member)
      have printed := (List.mem_filter.mp among).2
      cases before with
      | inr found => simp [expandToken] at expanded
      | inl other =>
          obtain ⟨same, inside, equal⟩ := List.mem_map.mp expanded
          rw [← Sum.inl.inj equal]
          unfold expandTab at inside
          split at inside
          · have blanks : ∀ unit ∈ [0x20, 0x20, 0x20, 0x20], isControl unit = false := by decide
            exact blanks same inside
          · rw [List.mem_singleton.mp inside]
            simpa [isPrinted] using printed

theorem shown_lineTokens {content : Text} (plain : PlainStyles content) {line : List Token}
    (member : line ∈ lineTokens content) : ∀ token ∈ line, Shown token := by
  intro token inside
  rcases List.mem_append.mp member with first | notice
  · exact shown_reportTokens plain token (Scan.mem_of_mem_splitAt (List.mem_of_mem_take first) inside)
  · split at notice
    · rw [List.mem_singleton.mp notice] at inside
      obtain ⟨unit, among, rfl⟩ := List.mem_map.mp inside
      have all : ∀ unit ∈ truncatedNotice, isControl unit = false ∧ unit ≠ escape := by decide
      exact all unit among
    · cases notice

theorem unicode_lineTokens {content : Text} (unicode : consistsOf isUnicode content = true) {line : List Token}
    (member : line ∈ lineTokens content) : consistsOf isUnicode (spell line) = true := by
  rcases List.mem_append.mp member with first | notice
  · have among : spell line ∈ originalLines content := by
      rw [originalLines_eq]
      exact List.mem_map_of_mem (List.mem_of_mem_take first)
    exact consistsOf_splitAt (unicode_sourceOf unicode) among
  · split at notice
    · rw [List.mem_singleton.mp notice, spell_inl]
      decide
    · cases notice

theorem pieces_of_shown {line : List Token} (shown : ∀ token ∈ line, Shown token) :
    Scan.pieces styleCodes 0 (spell line) = line.map (Sum.map id Sequence.parameters) := by
  refine pieces_styleCodes (fun token member => ?_) fun found member => (shown _ member).2
  cases token with
  | inl unit => exact (shown _ member).2
  | inr found => exact (shown _ member).1

/-- The texts between the sequences are parts of the line. -/
theorem segments_text {single : Nat → Bool} {line : List Token} (shown : ∀ token ∈ line, Shown token)
    (state : AnsiState) (column : Nat) (text : Text) (whole : consistsOf single (text ++ spell line) = true) :
    ∀ segment ∈ (segmentsOf state column text (line.map (Sum.map id Sequence.parameters))).1,
      consistsOf single segment.text = true ∧ ∀ unit ∈ segment.text, unit ∈ text ∨ .inl unit ∈ line := by
  induction line generalizing state column text with
  | nil =>
      intro segment member
      have member_ : segment ∈ append state column text := member
      unfold append at member_
      split at member_
      · cases member_
      · rw [List.mem_singleton.mp member_]
        exact ⟨by simpa [spell] using whole, fun unit inside => .inl inside⟩
  | cons token rest ih =>
      obtain ⟨first, others⟩ := List.forall_mem_cons.mp shown
      cases token with
      | inl unit =>
          have joined : text ++ spell (.inl unit :: rest) = (text ++ [unit]) ++ spell rest := List.append_cons text _ _
          intro segment member
          obtain ⟨consists, units_⟩ := ih others state column (text ++ [unit]) (joined ▸ whole) segment member
          refine ⟨consists, fun other inside => ?_⟩
          rcases units_ other inside with before | later
          · rcases List.mem_append.mp before with earlier | same
            · exact .inl earlier
            · rw [List.mem_singleton.mp same]
              exact .inr List.mem_cons_self
          · exact .inr (List.mem_cons_of_mem _ later)
      | inr found =>
          have parted : text ++ spell (.inr found :: rest) = text ++ escape :: (0x5b :: (found.parameters ++
              found.intermediates ++ [found.final]) ++ spell rest) := rfl
          have ended : text ++ spell (.inr found :: rest) = (text ++ escape :: 0x5b :: (found.parameters ++
              found.intermediates)) ++ found.final :: spell rest := by
            simp [spell, Token.spell, Sequence.text]
          have final : Xml.isHigh found.final = false ∧ Xml.isLow found.final = false := by
            rw [first.2.final]
            decide
          have before := (Xml.consistsOf_part escape_alone.1 escape_alone.2 (parted ▸ whole)).1
          have after := (Xml.consistsOf_part final.1 final.2 (ended ▸ whole)).2
          intro segment member
          rcases List.mem_append.mp member with now | later
          · unfold append at now
            split at now
            · cases now
            · rw [List.mem_singleton.mp now]
              exact ⟨before, fun unit inside => .inl inside⟩
          · obtain ⟨consists, units_⟩ := ih others _ _ [] after segment later
            refine ⟨consists, fun unit inside => .inr (List.mem_cons_of_mem _ ?_)⟩
            exact (units_ unit inside).resolve_left List.not_mem_nil

theorem isChar_of_shown {unit : Nat} (unicode : isUnicode unit = true)
    (shown : isControl unit = false ∧ unit ≠ escape) : Xml.isChar unit = true := by
  obtain ⟨printed, other⟩ := shown
  simp only [isUnicode, isControl, Bool.or_eq_true, Bool.and_eq_true, Bool.or_eq_false_iff, Bool.and_eq_false_iff,
    decide_eq_true_eq, decide_eq_false_iff_not] at unicode printed
  simp only [Xml.isChar, Bool.or_eq_true, Bool.and_eq_true, decide_eq_true_eq]
  unfold escape at other
  omega

/-- The text of every segment consists of characters. -/
theorem allChars_segments {lines : List (List Token)}
    (shown : ∀ line ∈ lines, ∀ token ∈ line, Shown token)
    (unicode : ∀ line ∈ lines, consistsOf isUnicode (spell line) = true) (row : Nat) (state : AnsiState) :
    ∀ entry ∈ segmentsFrom row state (lines.map spell), Xml.allChars entry.2.text = true := by
  induction lines generalizing row state with
  | nil => exact fun entry member => absurd member List.not_mem_nil
  | cons line rest ih =>
      obtain ⟨first, others⟩ := List.forall_mem_cons.mp shown
      obtain ⟨now, later⟩ := List.forall_mem_cons.mp unicode
      intro entry member
      rcases List.mem_append.mp member with here | after
      · obtain ⟨segment, among, rfl⟩ := List.mem_map.mp here
        unfold ansiSegments at among
        rw [pieces_of_shown first] at among
        obtain ⟨consists, units_⟩ := segments_text first state 0 [] now segment among
        refine Xml.consistsOf_mono consists fun unit inside alone => isChar_of_shown alone ?_
        exact first _ ((units_ unit inside).resolve_left List.not_mem_nil)
      · exact ih others later _ _ entry after

/-! The texts that are written. -/

theorem isChar_of_isHigh {unit : Nat} (high : Xml.isHigh unit = true) : Xml.isChar unit = false := by
  unfold Xml.isHigh at high
  unfold Xml.isChar
  grind

theorem allChars_characters {text : Text} (whole : Xml.allChars text = true) :
    ∀ character ∈ characters text, Xml.allChars character = true := by
  unfold Xml.allChars at whole ⊢
  fun_induction characters text with
  | case1 => exact fun character member => absurd member List.not_mem_nil
  | case2 unit =>
      intro character member
      rw [List.mem_singleton.mp member]
      exact whole
  | case3 unit second rest pair ih =>
      have high := isChar_of_isHigh (Bool.and_eq_true_iff.mp pair).1
      rw [consistsOf, high, Bool.false_and, Bool.false_or] at whole
      exact List.forall_mem_cons.mpr ⟨Xml.consistsOf_pair pair rfl, ih (Bool.and_eq_true_iff.mp whole).2⟩
  | case4 unit second rest apart ih =>
      rw [consistsOf] at whole
      rcases Bool.or_eq_true_iff.mp whole with one | two
      · obtain ⟨alone, others⟩ := Bool.and_eq_true_iff.mp one
        exact List.forall_mem_cons.mpr ⟨alone, ih others⟩
      · exact absurd (Bool.and_eq_true_iff.mp two).1 apart

theorem allChars_marks {chars : List Text} (each : ∀ character ∈ chars, Xml.allChars character = true)
    (column : Nat) : ∀ part, .inl part ∈ marks column chars → Xml.allChars part.2 = true := by
  induction chars generalizing column with
  | nil => exact fun part member => absurd member List.not_mem_nil
  | cons character rest ih =>
      obtain ⟨first, others⟩ := List.forall_mem_cons.mp each
      have later := ih others (column + cellWidth character)
      intro part member
      unfold marks at member
      dsimp only at member
      generalize marks (column + cellWidth character) rest = after at later member
      split at member
      · exact later part ((List.mem_cons.mp member).resolve_left (by simp))
      · unfold glue at member
        split at member
        · exact later part member
        · rcases after with _ | ⟨next | cell, more⟩
          · rw [Sum.inl.inj (List.mem_singleton.mp member)]
            exact first
          · rcases List.mem_cons.mp member with same | among
            · rw [Sum.inl.inj same]
              exact Xml.consistsOf_append first (later next List.mem_cons_self)
            · exact later part (List.mem_cons_of_mem _ among)
          · rcases List.mem_cons.mp member with same | among
            · rw [Sum.inl.inj same]
              exact first
            · exact later part among

theorem allChars_texts {segment : Segment} (chars : Xml.allChars segment.text = true) {row : Nat} {piece : Piece}
    (member : piece ∈ segment.pieces row) {content : Text} (written : .text content ∈ piece.events) :
    Xml.allChars content = true := by
  rcases List.mem_append.mp member with behind | drawn
  · split at behind
    · cases behind
    · rw [List.mem_singleton.mp behind] at written
      exact absurd (List.mem_singleton.mp written) (by simp)
  · split at drawn
    · cases drawn
    · rcases List.mem_append.mp drawn with texts | cells
      · obtain ⟨part, inside, rfl⟩ := List.mem_map.mp texts
        obtain ⟨mark, among, left⟩ := List.mem_filterMap.mp inside
        have same : content = part.2 := by
          simpa [Piece.events] using written
        rw [Sum.getLeft?_eq_some_iff.mp left] at among
        rw [same]
        exact allChars_marks (allChars_characters chars) _ part among
      · split at cells
        · cases cells
        · rw [List.mem_singleton.mp cells] at written
          exact absurd (List.mem_singleton.mp written) (by simp)

/-- An event of the document that is a text is a text of a piece. -/
theorem text_of_document {content text : Text} (member : .text text ∈ (drawingOf content).events) :
    ∃ entry ∈ renderedSegments content, ∃ piece ∈ entry.2.pieces entry.1, .text text ∈ piece.events := by
  have front : ∀ event ∈ opening, event ≠ .text text := by
    unfold opening
    simp
  have back : ∀ event ∈ closing ++ [Event.stop "svg"], event ≠ .text text := by
    unfold closing
    simp
  unfold Drawing.events at member
  rw [inner_eq, List.append_assoc, List.append_assoc] at member
  have later := (List.mem_cons.mp member).resolve_left nofun
  have others := (List.mem_append.mp later).resolve_left fun first => front _ first rfl
  have among := (List.mem_append.mp others).resolve_right fun last => back _ last rfl
  obtain ⟨piece, inside, shown⟩ := List.mem_flatMap.mp among
  obtain ⟨entry, rendered, part⟩ := List.mem_flatMap.mp inside
  exact ⟨entry, rendered, piece, part, shown⟩

/-- A red line and a braille cell under it. -/
def redReport : Text :=
  escape :: units "[1;31mA<B" ++ escape :: units "[0m\n" ++ [0x28ff]

theorem plainStyles_redReport : PlainStyles redReport := by
  have taken : reportTokens redReport =
      [.inr ⟨units "1;31", [], 0x6d⟩, .inl 0x41, .inl 0x3c, .inl 0x42, .inr ⟨units "0", [], 0x6d⟩, .inl newline,
        .inl 0x28ff] := by
    decide
  intro found member
  rw [taken] at member
  simp only [List.mem_cons, Sum.inr.injEq, reduceCtorEq, List.not_mem_nil, false_or, or_false] at member
  rcases member with rfl | rfl
  · exact ⟨by decide, rfl, rfl⟩
  · exact ⟨by decide, rfl, rfl⟩

end NieSla.NodeQuality.Terminal
