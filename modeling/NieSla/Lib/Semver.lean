import Mathlib

/-! SemVer 2.0 versions without build metadata: their texts and their precedence, which is a linear order. -/
namespace Semver

/-- The sign of a comparison. -/
def sign {α : Type*} [LinearOrder α] (a b : α) : ℤ := if a < b then -1 else if a = b then 0 else 1

/-- `[0-9A-Za-z-]` -/
def identifierChar (c : Char) : Bool := c.isDigit || c.isAlpha || c = '-'

/-- Characters of identifiers, and not only digits. -/
abbrev Alphanumeric : Type :=
  {text : List Char // (∀ c ∈ text, identifierChar c = true) ∧ ∃ c ∈ text, c.isDigit = false}

/-- A part of a pre-release. -/
inductive Identifier where
  | numeric (number : ℕ)
  | alphanumeric (text : Alphanumeric)

namespace Identifier

/-- Numbers come first. -/
def rank : Identifier → ℕ ⊕ₗ Alphanumeric
  | numeric number => Sum.inlₗ number
  | alphanumeric text => Sum.inrₗ text

theorem rank_injective : Function.Injective rank
  | numeric _, numeric _, same => congrArg numeric (Sum.inl_injective same)
  | alphanumeric _, alphanumeric _, same => congrArg alphanumeric (Sum.inr_injective same)

instance : LinearOrder Identifier := LinearOrder.lift' rank rank_injective

def text : Identifier → List Char
  | numeric number => Nat.toDigits 10 number
  | alphanumeric text => text.1

theorem numeric_lt {m n : ℕ} : numeric m < numeric n ↔ m < n := Sum.Lex.inl_lt_inl_iff

theorem alphanumeric_lt {first second : Alphanumeric} : alphanumeric first < alphanumeric second ↔ first.1 < second.1 :=
  Sum.Lex.inr_lt_inr_iff

theorem numeric_lt_alphanumeric (n : ℕ) (text : Alphanumeric) : numeric n < alphanumeric text := Sum.Lex.inl_lt_inr _ _

end Identifier

structure Version where
  major : ℕ
  minor : ℕ
  patch : ℕ
  prerelease : List Identifier

namespace Version

/-- The numbers from left to right, then the pre-release by its identifiers; a release comes after every pre-release. -/
def rank (version : Version) : ℕ ×ₗ ℕ ×ₗ ℕ ×ₗ WithTop (List Identifier) :=
  toLex (version.major, toLex (version.minor, toLex (version.patch,
    if version.prerelease = [] then ⊤ else (version.prerelease : WithTop (List Identifier)))))

theorem rank_injective : Function.Injective rank := by
  rintro ⟨major, minor, patch, first⟩ ⟨major', minor', patch', second⟩ same
  have fields := toLex.injective same
  simp only [Prod.mk.injEq, toLex_inj] at fields
  obtain ⟨rfl, rfl, rfl, last⟩ := fields
  split_ifs at last with left right right
  · rw [left, right]
  · exact absurd last.symm (WithTop.coe_ne_top)
  · exact absurd last (WithTop.coe_ne_top)
  · rw [WithTop.coe_inj.mp last]

instance : LinearOrder Version := LinearOrder.lift' rank rank_injective

/-- `<major>.<minor>.<patch>-<pre-release>` -/
def text (version : Version) : List Char :=
  Nat.toDigits 10 version.major ++ '.' :: (Nat.toDigits 10 version.minor ++ '.' :: (Nat.toDigits 10 version.patch ++
    if version.prerelease = [] then [] else '-' :: ['.'].intercalate (version.prerelease.map Identifier.text)))

/-- -1, 0 or 1 as the first version comes before the second, is it, or comes after it. -/
def precedence (first second : Version) : ℤ := sign first second

end Version

section Sign

variable {α β : Type*} [LinearOrder α] [LinearOrder β]

theorem sign_self (a : α) : sign a a = 0 := by simp [sign]

theorem sign_of_ne {a b : α} (ne : a ≠ b) : sign a b = if b < a then 1 else -1 := by
  obtain lt | lt := ne.lt_or_gt
  · simp [sign, lt, lt.not_gt]
  · simp [sign, lt, lt.not_gt, ne]

theorem sign_eq_zero {a b : α} : sign a b = 0 ↔ a = b := by
  constructor
  · intro zero
    by_contra ne
    rw [sign_of_ne ne] at zero
    split at zero <;> contradiction
  · rintro rfl
    exact sign_self a

theorem sign_congr {a a' : α} {b b' : β} (lt : a < a' ↔ b < b') (same : a = a' ↔ b = b') : sign a a' = sign b b' := by
  simp only [sign, lt, same]

theorem sign_pair (a a' : α) (b b' : β) :
    sign (toLex (a, b)) (toLex (a', b')) = if a ≠ a' then (if a' < a then 1 else -1) else sign b b' := by
  by_cases same : a = a'
  · subst same
    simp [sign, Prod.Lex.toLex_lt_toLex]
  · rw [if_pos same, sign_of_ne fun pairs => same (congrArg Prod.fst (toLex.injective pairs))]
    simp [Prod.Lex.toLex_lt_toLex, Ne.symm same]

theorem nil_lt_cons (a : α) (rest : List α) : ([] : List α) < a :: rest := List.Lex.nil

theorem cons_lt_cons {a a' : α} {rest rest' : List α} :
    a :: rest < a' :: rest' ↔ a < a' ∨ a = a' ∧ rest < rest' := by
  constructor
  · rintro (_ | first | inner)
    · exact .inl first
    · exact .inr ⟨rfl, inner⟩
  · rintro (first | ⟨rfl, inner⟩)
    · exact List.Lex.rel first
    · exact List.Lex.cons inner

theorem sign_nil_cons (a : α) (rest : List α) : sign [] (a :: rest) = -1 := if_pos (nil_lt_cons a rest)

theorem sign_cons_nil (a : α) (rest : List α) : sign (a :: rest) [] = 1 := by
  rw [sign_of_ne (List.cons_ne_nil _ _), if_pos (nil_lt_cons a rest)]

theorem sign_cons (a a' : α) (rest rest' : List α) :
    sign (a :: rest) (a' :: rest') = if a = a' then sign rest rest' else sign a a' := by
  by_cases same : a = a'
  · subst same
    rw [if_pos rfl]
    exact sign_congr (by simp) (by simp)
  · rw [if_neg same]
    exact sign_congr (by simp [cons_lt_cons, same]) (by simp [same])

end Sign

end Semver
