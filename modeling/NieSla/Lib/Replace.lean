import Mathlib

/-! Replacing every match in a text, from the left. A pattern sees the character before the place where it
is tried and the characters from there, and answers with the length of its match and what stands for it. -/
namespace Replace

/-- A pattern, as `String.prototype.replace` tries it at each place. -/
abbrev Pattern := Option Char → List Char → Option (Nat × List Char)

/-- The scan; `skip` characters still belong to the match before. -/
def scan (pattern : Pattern) : Option Char → Nat → List Char → List Char
  | _, _, [] => []
  | _, skip + 1, c :: rest => scan pattern (some c) skip rest
  | before, 0, c :: rest =>
      match pattern before (c :: rest) with
      | some (length, replacement) => replacement ++ scan pattern (some c) (length - 1) rest
      | none => c :: scan pattern (some c) 0 rest

def replaceAll (pattern : Pattern) (text : List Char) : List Char := scan pattern none 0 text

/-- A pattern that matches nowhere in the text leaves it as it is. -/
theorem replaceAll_of_none {pattern : Pattern} {text : List Char}
    (nowhere : ∀ before rest, rest <:+ text → pattern before rest = none) : replaceAll pattern text = text := by
  have scanned (before : Option Char) : scan pattern before 0 text = text := by
    induction text generalizing before with
    | nil => rfl
    | cons c rest ih =>
        rw [scan, nowhere before _ List.suffix_rfl]
        have later : ∀ before rest', rest' <:+ rest → pattern before rest' = none := fun before rest' suffix =>
          nowhere before rest' (suffix.trans (List.suffix_cons _ _))
        exact congrArg (c :: ·) (ih later _)
  exact scanned none

end Replace
