import NieSla.NodeQuality.Terminal

/-! The output of a report as single units and control sequences: what the cleaning of the image does to these. -/
namespace NieSla.NodeQuality.Terminal

open Xml (units)

/-! Control sequences. -/

structure Sequence.Valid (sequence : Sequence) : Prop where
  parameters : ∀ unit ∈ sequence.parameters, isParameter unit = true
  intermediates : ∀ unit ∈ sequence.intermediates, isIntermediate unit = true
  final : isFinal sequence.final = true

theorem isParameter_of_isIntermediate {unit : Nat} (intermediate : isIntermediate unit = true) :
    isParameter unit = false := by
  unfold isIntermediate at intermediate
  unfold isParameter isDigit
  grind

theorem isFinal_other {unit : Nat} (final : isFinal unit = true) :
    isParameter unit = false ∧ isIntermediate unit = false := by
  unfold isFinal at final
  unfold isParameter isDigit isIntermediate
  grind

theorem takeWhile_append_of_head {α : Type*} {p : α → Bool} {first : List α} (rest : List α)
    (all : ∀ a ∈ first, p a = true) (stops : ∀ a, rest.head? = some a → p a = false) :
    (first ++ rest).takeWhile p = first ∧ (first ++ rest).dropWhile p = rest := by
  rw [List.takeWhile_append_of_pos all, List.dropWhile_append_of_pos all]
  cases rest with
  | nil => exact ⟨List.append_nil _, rfl⟩
  | cons a rest =>
      have stop := stops a rfl
      rw [List.takeWhile_cons_of_neg (by simp [stop]), List.dropWhile_cons_of_neg (by simp [stop])]
      exact ⟨List.append_nil _, rfl⟩

theorem controlSequence_text {sequence : Sequence} (valid : sequence.Valid) (rest : Text) :
    controlSequence (sequence.text ++ rest) = some (sequence.text.length, sequence) := by
  obtain ⟨parameters, intermediates, final⟩ := sequence
  obtain ⟨none_, other⟩ := isFinal_other valid.final
  have more := takeWhile_append_of_head (intermediates ++ final :: rest) valid.parameters (by
    intro a head
    cases intermediates with
    | nil =>
        rw [← Option.some.inj head]
        exact none_
    | cons b others =>
        rw [← Option.some.inj head]
        exact isParameter_of_isIntermediate (valid.intermediates b List.mem_cons_self))
  have last := takeWhile_append_of_head (final :: rest) valid.intermediates (by
    intro a head
    rw [← Option.some.inj head]
    exact other)
  have spelled : Sequence.text ⟨parameters, intermediates, final⟩ ++ rest =
      escape :: 0x5b :: (parameters ++ (intermediates ++ final :: rest)) := by
    simp [Sequence.text]
  dsimp only at more last
  rw [spelled]
  unfold controlSequence
  dsimp only
  rw [if_pos ⟨rfl, rfl⟩, more.1, more.2, last.1, last.2]
  exact if_pos valid.final

theorem all_takeWhile {α : Type*} (p : α → Bool) (items : List α) : ∀ a ∈ items.takeWhile p, p a = true :=
  fun _ member => List.mem_takeWhile_imp member

theorem controlSequence_sound {text : Text} {length : Nat} {sequence : Sequence}
    (found : controlSequence text = some (length, sequence)) :
    sequence.Valid ∧ length = sequence.text.length ∧ ∃ rest, text = sequence.text ++ rest := by
  unfold controlSequence at found
  split at found
  next first second rest =>
    split at found
    next opens =>
      dsimp only at found
      split at found
      next final after stops =>
        split at found
        next ends =>
          obtain ⟨rfl, rfl⟩ := Prod.mk.inj (Option.some.inj found)
          refine ⟨⟨all_takeWhile _ _, all_takeWhile _ _, ends⟩, rfl, after, ?_⟩
          obtain ⟨rfl, rfl⟩ := opens
          have middle := List.takeWhile_append_dropWhile (p := isIntermediate) (l := rest.dropWhile isParameter)
          rw [stops] at middle
          have whole := List.takeWhile_append_dropWhile (p := isParameter) (l := rest)
          rw [← middle] at whole
          simpa [Sequence.text] using whole.symm
        next => cases found
      next => cases found
    next => cases found
  next => cases found

theorem text_ne_nil (sequence : Sequence) : sequence.text ≠ [] := List.cons_ne_nil _ _

/-! Tokens. -/

/-- A unit that stands alone, or a control sequence. -/
abbrev Token := Nat ⊕ Sequence

def Token.spell : Token → Text := Sum.elim (fun unit => [unit]) Sequence.text

def spell (tokens : List Token) : Text := tokens.flatMap Token.spell

def tokens (text : Text) : List Token := Scan.pieces controlSequence 0 text

theorem tokens_text {sequence : Sequence} (valid : sequence.Valid) (rest : Text) :
    tokens (sequence.text ++ rest) = .inr sequence :: tokens rest :=
  Scan.pieces_append (controlSequence_text valid rest) (text_ne_nil _)

theorem tokens_cons {unit : Nat} {rest : Text} (none_ : controlSequence (unit :: rest) = none) :
    tokens (unit :: rest) = .inl unit :: tokens rest :=
  Scan.pieces_cons_of_none none_

/-- A text is taken token by token. -/
theorem token_induction {motive : Text → Prop} (nil : motive [])
    (sequence : ∀ (sequence : Sequence) rest, sequence.Valid → motive rest → motive (sequence.text ++ rest))
    (unit : ∀ unit rest, controlSequence (unit :: rest) = none → motive rest → motive (unit :: rest))
    (text : Text) : motive text := by
  induction n : text.length using Nat.strong_induction_on generalizing text with
  | _ n ih =>
      subst n
      cases text with
      | nil => exact nil
      | cons c rest =>
          cases found : controlSequence (c :: rest) with
          | none => exact unit c rest found (ih rest.length (Nat.lt_succ_self _) rest rfl)
          | some match_ =>
              obtain ⟨valid, -, after, same⟩ := controlSequence_sound found
              rw [same] at ih ⊢
              refine sequence _ after valid (ih after.length ?_ after rfl)
              rw [List.length_append]
              exact Nat.lt_add_of_pos_left (List.length_pos_of_ne_nil (text_ne_nil _))

/-- The sequences are valid, and no escape stands alone. -/
def Clean (all : List Token) : Prop :=
  ∀ token ∈ all, token.elim (fun unit => unit ≠ escape) Sequence.Valid

def isStray (token : Token) : Bool := token.elim (fun unit => unit = escape) (fun _ => false)

theorem valid_of_mem_tokens {text : Text} {sequence : Sequence} (member : .inr sequence ∈ tokens text) :
    sequence.Valid := by
  induction text using token_induction with
  | nil => cases member
  | sequence other rest valid ih =>
      rw [tokens_text valid] at member
      rcases List.mem_cons.mp member with same | later
      · rw [Sum.inr.inj same]
        exact valid
      · exact ih later
  | unit unit rest none_ ih =>
      rw [tokens_cons none_] at member
      rcases List.mem_cons.mp member with same | later
      · cases same
      · exact ih later

theorem clean_stray (text : Text) : Clean ((tokens text).filter fun token => !isStray token) := by
  intro token member
  obtain ⟨among, kept⟩ := List.mem_filter.mp member
  cases token with
  | inl unit =>
      intro same
      simp [isStray, same] at kept
  | inr sequence => exact valid_of_mem_tokens among

theorem escape_not_mem {sequence : Sequence} (valid : sequence.Valid) :
    escape ∉ 0x5b :: (sequence.parameters ++ sequence.intermediates ++ [sequence.final]) := by
  intro member
  simp only [List.mem_cons, List.mem_append, List.not_mem_nil, or_false] at member
  rcases member with none_ | (parameter | intermediate) | final
  · cases none_
  · exact absurd (valid.parameters _ parameter) (by decide)
  · exact absurd (valid.intermediates _ intermediate) (by decide)
  · exact absurd (final ▸ valid.final) (by decide)

/-- The escapes that are dropped are those outside the sequences. -/
theorem replace_strayEscape (text : Text) :
    Scan.replace strayEscape text = spell ((tokens text).filter fun token => !isStray token) := by
  induction text using token_induction with
  | nil => rfl
  | sequence sequence rest valid ih =>
      have first : strayEscape (sequence.text ++ rest) = none := by
        unfold strayEscape
        rw [controlSequence_text valid]
        exact if_neg fun both => nomatch both.2
      have others : ∀ c ∈ 0x5b :: (sequence.parameters ++ sequence.intermediates ++ [sequence.final]), ∀ more,
          strayEscape (c :: more) = none := by
        intro c member more
        refine if_neg fun both => escape_not_mem valid ?_
        rw [← Option.some.inj both.1]
        exact member
      rw [tokens_text valid, List.filter_cons_of_pos rfl, spell, List.flatMap_cons]
      have head : Scan.replace strayEscape (sequence.text ++ rest) =
          sequence.text ++ Scan.replace strayEscape rest := by
        unfold Scan.replace
        have start : Scan.pieces strayEscape 0 (sequence.text ++ rest) = .inl escape ::
            Scan.pieces strayEscape 0
              ((0x5b :: (sequence.parameters ++ sequence.intermediates ++ [sequence.final])) ++ rest) :=
          Scan.pieces_cons_of_none first
        rw [start, List.flatMap_cons]
        exact congrArg (escape :: ·) (Scan.replace_append_of_none others rest)
      rw [head, ih]
      rfl
  | unit unit rest none_ ih =>
      rw [tokens_cons none_]
      by_cases stray : unit = escape
      · subst stray
        have found : strayEscape (escape :: rest) = some (1, []) := if_pos ⟨rfl, none_⟩
        rw [List.filter_cons_of_neg (by decide), ← ih]
        unfold Scan.replace
        rw [Scan.pieces, found]
        rfl
      · have other : strayEscape (unit :: rest) = none :=
          if_neg fun both => stray (Option.some.inj both.1)
        rw [List.filter_cons_of_pos (by simp [isStray, stray])]
        unfold Scan.replace
        rw [Scan.pieces_cons_of_none other]
        exact congrArg (unit :: ·) ih

/-! The cleaning of the image on tokens. -/

def isPrinted (token : Token) : Bool := token.elim (fun unit => !isControl unit) (fun _ => true)

def expandToken : Token → List Token := Sum.elim (fun unit => (expandTab unit).map .inl) (fun found => [.inr found])

def setsStyle (token : Token) : Bool := token.elim (fun _ => true) (fun found => found.final = 0x6d)

/-- The tokens of a report that stand in its image. -/
def reportTokens (content : Text) : List Token :=
  ((((tokens (Scan.replace operatingSystemCommand content)).filter fun token => !isStray token).filter
    isPrinted).flatMap expandToken).filter setsStyle

theorem ascii_of_mem_text {sequence : Sequence} (valid : sequence.Valid) {unit : Nat}
    (member : unit ∈ sequence.text) : unit = escape ∨ 0x20 ≤ unit ∧ unit ≤ 0x7e := by
  simp only [Sequence.text, List.mem_cons, List.mem_append, List.not_mem_nil, or_false] at member
  rcases member with rfl | rfl | (parameter | intermediate) | rfl
  · exact .inl rfl
  · exact .inr (by decide)
  · have bounds := valid.parameters _ parameter
    unfold isParameter isDigit at bounds
    grind
  · have bounds := valid.intermediates _ intermediate
    unfold isIntermediate at bounds
    grind
  · have bounds := valid.final
    unfold isFinal at bounds
    grind

section Clean

variable {all : List Token}

theorem Clean.filter (clean : Clean all) (keep : Token → Bool) : Clean (all.filter keep) :=
  fun token member => clean token (List.mem_of_mem_filter member)

theorem Clean.expand (clean : Clean all) : Clean (all.flatMap expandToken) := by
  intro token member
  obtain ⟨before, among, expanded⟩ := List.mem_flatMap.mp member
  have known := clean before among
  cases before with
  | inl unit =>
      obtain ⟨other, inside, rfl⟩ := List.mem_map.mp expanded
      unfold expandTab at inside
      split at inside
      · have blanks : ∀ unit ∈ [0x20, 0x20, 0x20, 0x20], unit ≠ escape := by decide
        exact blanks other inside
      · rw [List.mem_singleton.mp inside]
        exact known
  | inr found =>
      rw [List.mem_singleton.mp expanded]
      exact known

/-- What is done unit by unit, and leaves the sequences as they are, is done token by token. -/
theorem Clean.flatMap_spell (clean : Clean all) {f : Nat → Text} {g : Token → List Token}
    (alone : ∀ unit, f unit = spell (g (.inl unit)))
    (sequences : ∀ found : Sequence, found.Valid → found.text.flatMap f = spell (g (.inr found))) :
    (spell all).flatMap f = spell (all.flatMap g) := by
  unfold spell
  rw [List.flatMap_assoc, List.flatMap_assoc]
  refine List.flatMap_congr fun token member => ?_
  cases token with
  | inl unit => exact (List.append_nil _).trans (alone unit)
  | inr found => exact sequences found (clean _ member)

theorem filter_eq_flatMap {α : Type*} (p : α → Bool) (items : List α) :
    items.filter p = items.flatMap fun item => if p item then [item] else [] := by
  induction items with
  | nil => rfl
  | cons item rest ih =>
      rw [List.flatMap_cons, ← ih, List.filter_cons]
      split
      · rfl
      · rfl

theorem Clean.filter_isControl (clean : Clean all) :
    (spell all).filter (fun unit => !isControl unit) = spell (all.filter isPrinted) := by
  rw [filter_eq_flatMap, filter_eq_flatMap]
  refine clean.flatMap_spell (fun unit => ?_) fun found valid => ?_
  · by_cases control : isControl unit = true
    · simp [isPrinted, control, spell]
    · simp [isPrinted, control, spell, Token.spell]
  · rw [← filter_eq_flatMap, List.filter_eq_self.mpr fun unit member => ?_]
    · exact (List.append_nil _).symm
    · rcases ascii_of_mem_text valid member with rfl | bounds
      · decide
      · simp only [isControl, Bool.not_eq_true', Bool.or_eq_false_iff, Bool.and_eq_false_iff, decide_eq_false_iff_not]
        omega

theorem Clean.expandTab (clean : Clean all) :
    (spell all).flatMap expandTab = spell (all.flatMap expandToken) := by
  refine clean.flatMap_spell (fun unit => ?_) fun found valid => ?_
  · unfold Terminal.expandTab expandToken Terminal.expandTab
    dsimp only [Sum.elim_inl]
    split
    · rfl
    · rfl
  · have same : found.text.flatMap Terminal.expandTab = found.text.flatMap fun unit => [unit] := by
      refine List.flatMap_congr fun unit member => if_neg ?_
      rcases ascii_of_mem_text valid member with rfl | bounds
      · decide
      · omega
    rw [same, List.flatMap_singleton']
    exact (List.append_nil _).symm

theorem controlSequence_of_ne {unit : Nat} (other : unit ≠ escape) (rest : Text) :
    controlSequence (unit :: rest) = none := by
  cases rest with
  | nil => rfl
  | cons second rest => exact if_neg fun both => other both.1

theorem Clean.replace_styleSequence (clean : Clean all) :
    Scan.replace styleSequence (spell all) = spell (all.filter setsStyle) := by
  have found : Scan.pieces styleSequence 0 (spell all) =
      all.map (Sum.map id fun sequence => if sequence.final = 0x6d then sequence.text else []) := by
    refine Scan.pieces_flatMap fun token member rest => ?_
    have known := clean token member
    cases token with
    | inl unit =>
        refine Scan.pieces_cons_of_none ?_
        rw [styleSequence, controlSequence_of_ne known]
        rfl
    | inr sequence =>
        refine Scan.pieces_append ?_ (text_ne_nil sequence)
        rw [styleSequence]
        exact congrArg _ (controlSequence_text known rest)
  rw [Scan.replace, found, List.flatMap_map, filter_eq_flatMap, spell, List.flatMap_assoc]
  refine List.flatMap_congr fun token _ => ?_
  cases token with
  | inl unit => rfl
  | inr sequence =>
      by_cases style : sequence.final = 0x6d
      · simp [setsStyle, style, Token.spell]
      · simp [setsStyle, style]

end Clean

theorem clean_reportTokens (content : Text) : Clean (reportTokens content) :=
  (((clean_stray _).filter _).expand).filter _

/-- The text of the image is spelled by its tokens. -/
theorem sourceOf_eq (content : Text) : sourceOf content = spell (reportTokens content) := by
  have clean := clean_stray (Scan.replace operatingSystemCommand content)
  unfold sourceOf sanitizeAnsiContent reportTokens
  rw [replace_strayEscape, clean.filter_isControl, (clean.filter _).expandTab,
    ((clean.filter _).expand).replace_styleSequence]

/-! Lines. -/

def isNewline (token : Token) : Bool := token.elim (fun unit => unit = newline) (fun _ => false)

def tokenLines (content : Text) : List (List Token) := Scan.splitAt isNewline (reportTokens content)

theorem originalLines_eq (content : Text) : originalLines content = (tokenLines content).map spell := by
  rw [originalLines, sourceOf_eq]
  refine Scan.splitAt_flatMap (fun token member break_ => ?_) fun token member solid unit inside => ?_
  · cases token with
    | inl unit => exact ⟨unit, rfl, break_⟩
    | inr found => cases break_
  · cases token with
    | inl other =>
        rw [List.mem_singleton.mp inside]
        exact solid
    | inr found =>
        rcases ascii_of_mem_text (clean_reportTokens content _ member) inside with rfl | bounds
        · decide
        · unfold newline
          grind

/-! Styles. -/

/-- A code of a style, or what parts two of them. -/
def isCode (unit : Nat) : Bool := isDigit unit || unit = 0x3b

/-- `m` with codes alone. -/
structure Sequence.Style (sequence : Sequence) : Prop where
  codes : ∀ unit ∈ sequence.parameters, isCode unit = true
  intermediates : sequence.intermediates = []
  final : sequence.final = 0x6d

theorem styleCodes_text {sequence : Sequence} (style : sequence.Style) (rest : Text) :
    styleCodes (sequence.text ++ rest) = some (sequence.text.length, sequence.parameters) := by
  obtain ⟨parameters, intermediates, final⟩ := sequence
  obtain ⟨codes, none_, last⟩ := style
  dsimp only at codes none_ last
  subst none_ last
  have whole := takeWhile_append_of_head (0x6d :: rest) codes (by
    intro a head
    rw [← Option.some.inj head]
    decide)
  have front : ((parameters ++ 0x6d :: rest).takeWhile fun unit => isDigit unit || unit = 0x3b) = parameters := whole.1
  have back : ((parameters ++ 0x6d :: rest).dropWhile fun unit => isDigit unit || unit = 0x3b) = 0x6d :: rest := whole.2
  have spelled : Sequence.text ⟨parameters, [], 0x6d⟩ ++ rest = escape :: 0x5b :: (parameters ++ 0x6d :: rest) := by
    simp [Sequence.text]
  rw [spelled]
  unfold styleCodes
  dsimp only
  rw [if_pos ⟨rfl, rfl⟩, front, back]
  simp [Sequence.text]

theorem styleCodes_of_ne {unit : Nat} (other : unit ≠ escape) (rest : Text) : styleCodes (unit :: rest) = none := by
  cases rest with
  | nil => rfl
  | cons second rest => exact if_neg fun both => other both.1

/-- In a line whose sequences are styles, the matches are the sequences. -/
theorem pieces_styleCodes {line : List Token} (clean : Clean line)
    (styles : ∀ found, .inr found ∈ line → found.Style) :
    Scan.pieces styleCodes 0 (spell line) = line.map (Sum.map id Sequence.parameters) := by
  refine Scan.pieces_flatMap fun token member rest => ?_
  cases token with
  | inl unit => exact Scan.pieces_cons_of_none (styleCodes_of_ne (clean _ member) rest)
  | inr found => exact Scan.pieces_append (styleCodes_text (styles found member) rest) (text_ne_nil found)

end NieSla.NodeQuality.Terminal
