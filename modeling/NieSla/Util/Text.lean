import NieSla.Lib.Trim
import NieSla.Util.Ids

/-! Texts as the Worker cuts and searches them. -/
namespace NieSla

/-- The UTF-16 code units of a character. -/
def codeUnits (c : Char) : Nat := if c.val < 0x10000 then 1 else 2

/-- `slice(0, units)`; a character that the cut splits is dropped. -/
def cutChars : Nat → List Char → List Char
  | _, [] => []
  | units, c :: rest => if codeUnits c ≤ units then c :: cutChars (units - codeUnits c) rest else []

def cut (units : Nat) (text : String) : String := String.ofList (cutChars units text.toList)

/-- White space and line terminators of JavaScript. -/
def isSpace (c : Char) : Bool :=
  [0x9, 0xA, 0xB, 0xC, 0xD, 0x20, 0xA0, 0x1680, 0x2028, 0x2029, 0x202F, 0x205F, 0x3000,
    0xFEFF].contains c.val || (0x2000 ≤ c.val && c.val ≤ 0x200A)

def trimChars (chars : List Char) : List Char :=
  ((chars.dropWhile isSpace).reverse.dropWhile isSpace).reverse

/-- `text.trim()` -/
def trim (text : String) : String := String.ofList (trimChars text.toList)

/-- `text.length` -/
def textLength (text : String) : Nat := (text.toList.map codeUnits).sum

/-- `text.toLowerCase().includes(phrase)`, for a phrase of ASCII characters. -/
def includesLower (phrase text : String) : Bool :=
  decide (phrase.toList <:+: text.toList.flatMap lowerChar)

theorem cutChars_prefix (units : Nat) (chars : List Char) : cutChars units chars <+: chars := by
  induction chars generalizing units with
  | nil => exact List.prefix_rfl
  | cons c rest ih =>
      unfold cutChars
      split
      · exact List.cons_prefix_cons.mpr ⟨rfl, ih _⟩
      · exact List.nil_prefix

theorem length_trimChars_le (chars : List Char) : (trimChars chars).length ≤ chars.length :=
  Trim.length_trimBy_le isSpace chars

theorem trimChars_trimChars (chars : List Char) : trimChars (trimChars chars) = trimChars chars :=
  Trim.trimBy_trimBy isSpace chars

@[simp] theorem trim_trim (text : String) : trim (trim text) = trim text := by
  simp only [trim, String.toList_ofList, trimChars_trimChars]

theorem trim_of_no_space {text : String} (all : ∀ c ∈ text.toList, isSpace c = false) :
    trim text = text := by
  have kept {chars : List Char} (every : ∀ c ∈ chars, isSpace c = false) :
      chars.dropWhile isSpace = chars := by
    rw [List.dropWhile_eq_self_iff]
    intro long
    rw [every _ (List.getElem_mem long)]
    exact Bool.false_ne_true
  have reversed : ∀ c ∈ text.toList.reverse, isSpace c = false := fun c member =>
    all c (List.mem_reverse.mp member)
  simp only [trim, trimChars, kept all, kept reversed, List.reverse_reverse, String.ofList_toList]

/-- A text that is trimmed and cut already is trimmed. -/
theorem trim_of_cut_trim {units : Nat} {text : String} (kept : cut units (trim text) = text) :
    trim text = text := by
  have chars : cutChars units (trimChars text.toList) = text.toList := by
    simpa [cut, trim] using congrArg String.toList kept
  have leads := cutChars_prefix units (trimChars text.toList)
  rw [chars] at leads
  have whole := leads.eq_of_length_le (length_trimChars_le text.toList)
  rw [trim, ← whole, String.ofList_toList]

theorem cutChars_cutChars (units : Nat) (chars : List Char) :
    cutChars units (cutChars units chars) = cutChars units chars := by
  induction chars generalizing units with
  | nil => rfl
  | cons c rest ih =>
      by_cases fits : codeUnits c ≤ units
      · simp [cutChars, fits, ih]
      · simp [cutChars, fits]

@[simp] theorem cut_cut (units : Nat) (text : String) : cut units (cut units text) = cut units text := by
  simp only [cut, String.toList_ofList, cutChars_cutChars]

theorem textLength_cut (units : Nat) (text : String) : textLength (cut units text) ≤ units := by
  have chars (units : Nat) (list : List Char) : ((cutChars units list).map codeUnits).sum ≤ units := by
    induction list generalizing units with
    | nil => exact Nat.zero_le _
    | cons c rest ih =>
        unfold cutChars
        split_ifs with room
        · have short := ih (units - codeUnits c)
          simp only [List.map_cons, List.sum_cons]
          omega
        · exact Nat.zero_le _
  simpa [textLength, cut] using chars units text.toList

/-- A text that is short enough is not cut. -/
theorem cut_of_textLength {units : Nat} {text : String} (short : textLength text ≤ units) :
    cut units text = text := by
  have chars (units : Nat) (list : List Char) (short : (list.map codeUnits).sum ≤ units) :
      cutChars units list = list := by
    induction list generalizing units with
    | nil => rfl
    | cons c rest ih =>
        simp only [List.map_cons, List.sum_cons] at short
        rw [cutChars, if_pos (by omega), ih _ (by omega)]
  rw [cut, chars units text.toList short, String.ofList_toList]

theorem cut_ne_empty {units : Nat} (room : 2 ≤ units) {text : String} (some_ : text ≠ "") :
    cut units text ≠ "" := by
  have chars : text.toList ≠ [] := fun empty => some_ (String.toList_eq_nil_iff.mp empty)
  intro empty
  have nothing : cutChars units text.toList = [] := by
    simpa [cut] using congrArg String.toList empty
  cases found : text.toList with
  | nil => exact chars found
  | cons c rest =>
      have fits : codeUnits c ≤ units := by
        unfold codeUnits
        split <;> omega
      simp [found, cutChars, fits] at nothing

/-- What a cut text includes, the text includes. -/
theorem includesLower_of_cut {phrase text : String} {units : Nat}
    (found : includesLower phrase (cut units text) = true) : includesLower phrase text = true := by
  unfold includesLower cut at *
  rw [String.toList_ofList, decide_eq_true_eq] at found
  rw [decide_eq_true_eq]
  obtain ⟨rest, whole⟩ := cutChars_prefix units text.toList
  rw [← whole, List.flatMap_append]
  exact found.trans (List.prefix_append _ _).isInfix

end NieSla
