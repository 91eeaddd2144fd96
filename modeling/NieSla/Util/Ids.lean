import Mathlib

/-! Identifiers as the Worker cleans them. -/
namespace NieSla

/-- `toLowerCase`, as far as the patterns below can tell: besides the capitals only two
letters have an ASCII letter in their lower case. -/
def lowerChar (c : Char) : List Char :=
  if c = Char.ofNat 0x212A then ['k']
  else if c = Char.ofNat 0x130 then ['i', Char.ofNat 0x307]
  else [c.toLower]

/-- `[a-z0-9._:-]` -/
def allowedChar (c : Char) : Bool :=
  c.isLower || c.isDigit || c = '.' || c = '_' || c = ':' || c = '-'

/-- `replace(/[^a-z0-9._:-]+/g, '-')`: each run of other characters is one dash. -/
def dashRuns (inRun : Bool) : List Char → List Char
  | [] => []
  | c :: rest =>
      if allowedChar c then c :: dashRuns false rest
      else if inRun then dashRuns true rest
      else '-' :: dashRuns true rest

/-- `replace(/^-+|-+$/g, '')`, which also takes away what white space around the value
has become. -/
def trimDashes (chars : List Char) : List Char :=
  ((chars.dropWhile (· = '-')).reverse.dropWhile (· = '-')).reverse

def sanitizeAgentId (value : String) : String :=
  String.ofList ((trimDashes (dashRuns false (value.toList.flatMap lowerChar))).take 64)

section Characters

variable {chars : List Char} {c : Char}

theorem range_of_allowed (allowed : allowedChar c = true) :
    45 ≤ c.val.toNat ∧ c.val.toNat ≤ 122 ∧ ¬(65 ≤ c.val.toNat ∧ c.val.toNat ≤ 90) := by
  simp only [allowedChar, Char.isLower, Char.isDigit, Bool.or_eq_true, Bool.and_eq_true,
    decide_eq_true_eq, ge_iff_le, UInt32.le_iff_toNat_le, Char.ext_iff, ← UInt32.toNat_inj] at allowed
  have a : ('a'.val).toNat = 97 := rfl
  have z : ('z'.val).toNat = 122 := rfl
  have zero : ('0'.val).toNat = 48 := rfl
  have nine : ('9'.val).toNat = 57 := rfl
  have dot : ('.'.val).toNat = 46 := rfl
  have underscore : ('_'.val).toNat = 95 := rfl
  have colon : (':'.val).toNat = 58 := rfl
  have dash : ('-'.val).toNat = 45 := rfl
  omega

/-- Nothing but a capital has another lower case. -/
theorem toLower_of_range (small : ¬(65 ≤ c.val.toNat ∧ c.val.toNat ≤ 90)) : c.toLower = c := by
  refine Char.toLower_eq_of_not_isUpper fun upper => small ?_
  simpa [Char.isUpper, UInt32.le_iff_toNat_le] using upper

theorem lowerChar_of_allowed (allowed : allowedChar c = true) : lowerChar c = [c] := by
  have kelvin : c ≠ Char.ofNat 0x212A := by
    rintro rfl
    exact absurd allowed (by decide)
  have dotted : c ≠ Char.ofNat 0x130 := by
    rintro rfl
    exact absurd allowed (by decide)
  rw [lowerChar, if_neg kelvin, if_neg dotted, toLower_of_range (range_of_allowed allowed).2.2]

theorem flatMap_lowerChar (all : ∀ c ∈ chars, allowedChar c = true) : chars.flatMap lowerChar = chars := by
  induction chars with
  | nil => rfl
  | cons c rest ih =>
      obtain ⟨allowed, others⟩ := List.forall_mem_cons.mp all
      rw [List.flatMap_cons, lowerChar_of_allowed allowed, ih others, List.singleton_append]

end Characters

/-- An id that is cleaned already. -/
structure AgentId where
  text : String
  canonical : sanitizeAgentId text = text
  nonempty : text ≠ ""

instance : DecidableEq AgentId := fun first second =>
  decidable_of_iff (first.text = second.text) (by cases first; cases second; simp)

end NieSla
