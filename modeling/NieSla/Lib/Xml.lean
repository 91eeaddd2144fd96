import Mathlib

/-! XML documents in UTF-16: their characters, the tags and texts they are written with, and when a row of these
is a well-formed document. -/
namespace Xml

/-- The code units of a text without surrogates. -/
def units (text : String) : List Nat := text.toList.map Char.toNat

/-! Characters. -/

def isHigh (unit : Nat) : Bool := 0xd800 ≤ unit && unit ≤ 0xdbff

def isLow (unit : Nat) : Bool := 0xdc00 ≤ unit && unit ≤ 0xdfff

/-- `Char` in one unit: `#x9 | #xA | #xD | [#x20-#xD7FF] | [#xE000-#xFFFD]`. -/
def isChar (unit : Nat) : Bool :=
  unit = 9 || unit = 10 || unit = 13 || (0x20 ≤ unit && unit ≤ 0xd7ff) || (0xe000 ≤ unit && unit ≤ 0xfffd)

/-- The text consists of units that stand alone, and of pairs of surrogates. -/
def consistsOf (single : Nat → Bool) : List Nat → Bool
  | [] => true
  | [unit] => single unit
  | unit :: second :: rest =>
      (single unit && consistsOf single (second :: rest)) ||
        (isHigh unit && isLow second && consistsOf single rest)

/-- The text consists of characters. -/
def allChars (text : List Nat) : Bool := consistsOf isChar text

section ConsistsOf

variable {single : Nat → Bool} {unit : Nat} {text rest first second : List Nat}

theorem consistsOf_cons (alone : single unit = true) (others : consistsOf single rest = true) :
    consistsOf single (unit :: rest) = true := by
  cases rest with
  | nil => exact alone
  | cons second rest => rw [consistsOf, alone, others, Bool.true_and, Bool.true_or]

theorem consistsOf_pair {next : Nat} (pair : (isHigh unit && isLow next) = true)
    (others : consistsOf single rest = true) : consistsOf single (unit :: next :: rest) = true := by
  rw [consistsOf, pair, others, Bool.true_and, Bool.or_true]

theorem consistsOf_append (left : consistsOf single first = true) (right : consistsOf single second = true) :
    consistsOf single (first ++ second) = true := by
  fun_induction consistsOf single first with
  | case1 => exact right
  | case2 unit => exact consistsOf_cons left right
  | case3 unit other rest plain paired =>
      rcases Bool.or_eq_true_iff.mp left with one | two
      · obtain ⟨alone, others⟩ := Bool.and_eq_true_iff.mp one
        exact consistsOf_cons alone (plain others)
      · obtain ⟨surrogates, others⟩ := Bool.and_eq_true_iff.mp two
        exact consistsOf_pair surrogates (paired others)

/-- At a unit that is no surrogate the text can be parted. -/
theorem consistsOf_part (high : isHigh unit = false) (low : isLow unit = false)
    (whole : consistsOf single (first ++ unit :: rest) = true) :
    consistsOf single first = true ∧ consistsOf single rest = true := by
  fun_induction consistsOf single first with
  | case1 =>
      cases rest with
      | nil => exact ⟨rfl, rfl⟩
      | cons second rest =>
          rw [List.nil_append, consistsOf, high] at whole
          simp only [Bool.false_and, Bool.or_false, Bool.and_eq_true] at whole
          exact ⟨rfl, whole.2⟩
  | case2 other =>
      rw [List.singleton_append, consistsOf, low] at whole
      simp only [Bool.and_false, Bool.false_and, Bool.or_false, Bool.and_eq_true] at whole
      refine ⟨whole.1, ?_⟩
      cases rest with
      | nil => rfl
      | cons second rest =>
          have later := whole.2
          rw [consistsOf, high] at later
          simp only [Bool.false_and, Bool.or_false, Bool.and_eq_true] at later
          exact later.2
  | case3 other next before plain paired =>
      rw [List.cons_append, List.cons_append, consistsOf] at whole
      rcases Bool.or_eq_true_iff.mp whole with one | two
      · obtain ⟨alone, others⟩ := Bool.and_eq_true_iff.mp one
        obtain ⟨left, right⟩ := plain others
        exact ⟨by rw [alone, left, Bool.true_and, Bool.true_or], right⟩
      · obtain ⟨surrogates, others⟩ := Bool.and_eq_true_iff.mp two
        obtain ⟨left, right⟩ := paired others
        exact ⟨consistsOf_pair surrogates left, right⟩

/-- Units that are no surrogates may be left out. -/
theorem consistsOf_filter {keep : Nat → Bool} (whole : consistsOf single text = true)
    (surrogates : ∀ unit, isHigh unit = true ∨ isLow unit = true → keep unit = true) :
    consistsOf single (text.filter keep) = true := by
  fun_induction consistsOf single text with
  | case1 => rfl
  | case2 unit =>
      by_cases kept : keep unit = true
      · rw [List.filter_cons_of_pos kept]
        exact whole
      · rw [List.filter_cons_of_neg kept]
        rfl
  | case3 unit next rest plain paired =>
      rcases Bool.or_eq_true_iff.mp whole with one | two
      · obtain ⟨alone, others⟩ := Bool.and_eq_true_iff.mp one
        by_cases kept : keep unit = true
        · rw [List.filter_cons_of_pos kept]
          exact consistsOf_cons alone (plain others)
        · rw [List.filter_cons_of_neg kept]
          exact plain others
      · obtain ⟨pair, others⟩ := Bool.and_eq_true_iff.mp two
        obtain ⟨high, low⟩ := Bool.and_eq_true_iff.mp pair
        rw [List.filter_cons_of_pos (surrogates unit (.inl high)),
          List.filter_cons_of_pos (surrogates next (.inr low))]
        exact consistsOf_pair pair (paired others)

theorem consistsOf_mono {other : Nat → Bool} (whole : consistsOf single text = true)
    (narrow : ∀ unit ∈ text, single unit = true → other unit = true) : consistsOf other text = true := by
  fun_induction consistsOf single text with
  | case1 => rfl
  | case2 unit => exact narrow unit List.mem_cons_self whole
  | case3 unit next rest plain paired =>
      rcases Bool.or_eq_true_iff.mp whole with one | two
      · obtain ⟨alone, others⟩ := Bool.and_eq_true_iff.mp one
        refine consistsOf_cons (narrow unit List.mem_cons_self alone) ?_
        exact plain others fun unit member => narrow unit (List.mem_cons_of_mem _ member)
      · obtain ⟨pair, others⟩ := Bool.and_eq_true_iff.mp two
        exact consistsOf_pair pair (paired others fun unit member =>
          narrow unit (List.mem_cons_of_mem _ (List.mem_cons_of_mem _ member)))

theorem consistsOf_of_forall (each : ∀ unit ∈ text, single unit = true) : consistsOf single text = true := by
  induction text with
  | nil => rfl
  | cons unit rest ih =>
      obtain ⟨first, others⟩ := List.forall_mem_cons.mp each
      exact consistsOf_cons first (ih others)

end ConsistsOf

theorem allChars_of_forall {text : List Nat} (each : ∀ unit ∈ text, isChar unit = true) : allChars text = true :=
  consistsOf_of_forall each

theorem allChars_flatMap {α : Type*} {items : List α} {spell : α → List Nat}
    (each : ∀ item ∈ items, allChars (spell item) = true) : allChars (items.flatMap spell) = true := by
  induction items with
  | nil => rfl
  | cons item items ih =>
      obtain ⟨first, others⟩ := List.forall_mem_cons.mp each
      rw [List.flatMap_cons]
      exact consistsOf_append first (ih others)

/-- What stands for a unit in a text or in the value of an attribute. -/
def escapeUnit (unit : Nat) : List Nat :=
  if unit = 0x26 then units "&amp;"
  else if unit = 0x3c then units "&lt;"
  else if unit = 0x3e then units "&gt;"
  else if unit = 0x22 then units "&quot;"
  else if unit = 0x27 then units "&apos;"
  else [unit]

def escape (text : List Nat) : List Nat := text.flatMap escapeUnit

/-- The unit stands for itself everywhere. -/
def isPlain (unit : Nat) : Bool := !([0x26, 0x3c, 0x3e, 0x22, 0x27].contains unit)

theorem escapeUnit_of_plain {unit : Nat} (plain : isPlain unit = true) : escapeUnit unit = [unit] := by
  unfold isPlain at plain
  unfold escapeUnit
  grind

theorem escape_of_plain {text : List Nat} (plain : ∀ unit ∈ text, isPlain unit = true) : escape text = text := by
  induction text with
  | nil => rfl
  | cons unit rest ih =>
      obtain ⟨first, others⟩ := List.forall_mem_cons.mp plain
      rw [escape, List.flatMap_cons, escapeUnit_of_plain first]
      exact congrArg (unit :: ·) (ih others)

theorem allChars_escape {text : List Nat} (chars : allChars text = true) : allChars (escape text) = true := by
  have escaped {unit : Nat} (char : isChar unit = true) : consistsOf isChar (escapeUnit unit) = true := by
    unfold escapeUnit
    split_ifs
    all_goals first | decide | exact char
  have surrogate {unit : Nat} (half : isHigh unit = true ∨ isLow unit = true) : escapeUnit unit = [unit] := by
    refine escapeUnit_of_plain ?_
    unfold isHigh isLow at half
    unfold isPlain
    grind
  unfold allChars at chars ⊢
  fun_induction consistsOf isChar text with
  | case1 => rfl
  | case2 unit =>
      rw [escape, List.flatMap_cons, List.flatMap_nil, List.append_nil]
      exact escaped chars
  | case3 unit other rest plain paired =>
      rcases Bool.or_eq_true_iff.mp chars with one | two
      · obtain ⟨char, others⟩ := Bool.and_eq_true_iff.mp one
        rw [escape, List.flatMap_cons]
        exact consistsOf_append (escaped char) (plain others)
      · obtain ⟨surrogates, others⟩ := Bool.and_eq_true_iff.mp two
        obtain ⟨high, low⟩ := Bool.and_eq_true_iff.mp surrogates
        rw [escape, List.flatMap_cons, List.flatMap_cons, surrogate (.inl high), surrogate (.inr low)]
        have later : consistsOf isChar (List.flatMap escapeUnit rest) = true := paired others
        exact consistsOf_pair surrogates later

/-! Documents. -/

/-- The tags and texts of a document. A text is written with escapes; `plain` is one that has nothing to escape
but quotation marks and is written as it is. -/
inductive Event where
  | start (name : String) (attributes : List (String × List Nat))
  | empty (name : String) (attributes : List (String × List Nat))
  | stop (name : String)
  | text (content : List Nat)
  | plain (content : List Nat)

def spellAttribute (pair : String × List Nat) : List Nat :=
  units " " ++ units pair.1 ++ units "=\"" ++ escape pair.2 ++ units "\""

def Event.spell : Event → List Nat
  | .start name attributes => units "<" ++ units name ++ attributes.flatMap spellAttribute ++ units ">"
  | .empty name attributes => units "<" ++ units name ++ attributes.flatMap spellAttribute ++ units "/>"
  | .stop name => units "</" ++ units name ++ units ">"
  | .text content => escape content
  | .plain content => content

/-- A declaration and the events behind it. -/
def spell (events : List Event) : List Nat :=
  units "<?xml version=\"1.0\" encoding=\"UTF-8\"?>\n" ++ events.flatMap Event.spell

def isLetter (unit : Nat) : Bool := (0x41 ≤ unit && unit ≤ 0x5a) || (0x61 ≤ unit && unit ≤ 0x7a)

/-- A name in letters, digits, `-` and `:`, which begins with a letter. -/
def isName (name : String) : Bool :=
  (units name).head?.any isLetter && (units name).all fun unit =>
    isLetter unit || (0x30 ≤ unit && unit ≤ 0x39) || unit = 0x2d || unit = 0x3a

structure ValidTag (name : String) (attributes : List (String × List Nat)) : Prop where
  name : isName name = true
  names : ∀ pair ∈ attributes, isName pair.1 = true
  distinct : (attributes.map Prod.fst).Nodup
  values : ∀ pair ∈ attributes, allChars pair.2 = true

def Event.Valid : Event → Prop
  | .start name attributes => ValidTag name attributes
  | .empty name attributes => ValidTag name attributes
  | .stop name => isName name = true
  | .text content => allChars content = true
  | .plain content => allChars content = true ∧ ∀ unit ∈ content, unit ∉ [0x26, 0x3c, 0x3e]

/-- The open elements after the events, the innermost first; `none` where a tag closes another element. -/
def closes : List String → List Event → Option (List String)
  | open_, [] => some open_
  | open_, .start name _ :: rest => closes (name :: open_) rest
  | [], .stop _ :: _ => none
  | innermost :: open_, .stop name :: rest => if innermost = name then closes open_ rest else none
  | open_, .empty _ _ :: rest => closes open_ rest
  | open_, .text _ :: rest => closes open_ rest
  | open_, .plain _ :: rest => closes open_ rest

/-- One element, in which every element that is opened is closed. -/
def Nested (events : List Event) : Prop :=
  ∃ name attributes inner, events = .start name attributes :: (inner ++ [.stop name]) ∧ closes [] inner = some []

structure WellFormed (events : List Event) : Prop where
  valid : ∀ event ∈ events, event.Valid
  root : Nested events

theorem closes_append {open_ now : List String} {first : List Event} (closed : closes open_ first = some now)
    (rest : List Event) : closes open_ (first ++ rest) = closes now rest := by
  fun_induction closes open_ first with
  | case1 open_ => rw [Option.some.inj closed, List.nil_append]
  | case2 open_ name attributes events ih => exact ih closed
  | case3 => cases closed
  | case4 innermost open_ events ih =>
      rw [List.cons_append, closes, if_pos rfl]
      exact ih closed
  | case5 => cases closed
  | case6 open_ name attributes events ih => exact ih closed
  | case7 open_ content events ih => exact ih closed
  | case8 open_ content events ih => exact ih closed

theorem closes_flatMap {α : Type*} {items : List α} {events : α → List Event}
    (each : ∀ item ∈ items, ∀ open_, closes open_ (events item) = some open_) (open_ : List String) :
    closes open_ (items.flatMap events) = some open_ := by
  induction items with
  | nil => cases open_ <;> rfl
  | cons item items ih =>
      obtain ⟨first, others⟩ := List.forall_mem_cons.mp each
      rw [List.flatMap_cons, closes_append (first open_)]
      exact ih others

theorem isChar_of_ascii {unit : Nat} (printed : 0x20 ≤ unit) (ascii : unit ≤ 0x7e) : isChar unit = true := by
  unfold isChar
  grind

theorem allChars_of_isName {name : String} (named : isName name = true) : allChars (units name) = true := by
  refine allChars_of_forall fun unit member => ?_
  have class_ := List.all_eq_true.mp (Bool.and_eq_true_iff.mp named).2 unit member
  unfold isLetter at class_
  unfold isChar
  grind

theorem allChars_attributes {attributes : List (String × List Nat)}
    (names : ∀ pair ∈ attributes, isName pair.1 = true)
    (values : ∀ pair ∈ attributes, allChars pair.2 = true) :
    allChars (attributes.flatMap spellAttribute) = true := by
  refine allChars_flatMap fun pair member => ?_
  unfold spellAttribute
  refine consistsOf_append (consistsOf_append (consistsOf_append (consistsOf_append (by decide) ?_) (by decide)) ?_)
    (by decide)
  · exact allChars_of_isName (names pair member)
  · exact allChars_escape (values pair member)

theorem Event.Valid.allChars_spell {event : Event} (valid : event.Valid) : allChars event.spell = true := by
  cases event with
  | start name attributes =>
      refine consistsOf_append (consistsOf_append (consistsOf_append (by decide) ?_) ?_) (by decide)
      · exact allChars_of_isName valid.name
      · exact allChars_attributes valid.names valid.values
  | empty name attributes =>
      refine consistsOf_append (consistsOf_append (consistsOf_append (by decide) ?_) ?_) (by decide)
      · exact allChars_of_isName valid.name
      · exact allChars_attributes valid.names valid.values
  | stop name => exact consistsOf_append (consistsOf_append (by decide) (allChars_of_isName valid)) (by decide)
  | text content => exact allChars_escape valid
  | plain content => exact valid.1

/-- A well-formed document consists of characters. -/
theorem WellFormed.allChars_spell {events : List Event} (formed : WellFormed events) :
    allChars (spell events) = true :=
  consistsOf_append (by decide) (allChars_flatMap fun event member => (formed.valid event member).allChars_spell)

end Xml
