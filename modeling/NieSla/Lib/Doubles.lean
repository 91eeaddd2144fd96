import Mathlib

/-! Non-negative integers as IEEE 754 doubles, and the decimal texts of these doubles. Rounding to a double is monotone,
so different texts of doubles compare as the numbers that they spell. -/
namespace Doubles

/-- The nearest multiple of `2 ^ shift`, of two the even one. -/
def roundTo (shift n : ℕ) : ℕ :=
  let quotient := n / 2 ^ shift
  let rest := n % 2 ^ shift
  if 2 * rest < 2 ^ shift ∨ 2 * rest = 2 ^ shift ∧ quotient % 2 = 0 then quotient * 2 ^ shift
  else (quotient + 1) * 2 ^ shift

/-- The integer with a significand of 53 bits. -/
def rounded (n : ℕ) : ℕ := roundTo (Nat.log2 n - 52) n

/-- No double from here on. -/
@[irreducible] def overflow : ℕ := 2 ^ 1024

/-- The double of an integer; the top is infinity. -/
def ofNat (n : ℕ) : WithTop ℕ := if rounded n < overflow then (rounded n : WithTop ℕ) else ⊤

/-- The number that decimal digits spell. -/
def value (digits : List Char) : ℕ := Nat.ofDigitChars 10 digits 0

/-- `Number(digits)` -/
def ofDigits (digits : List Char) : WithTop ℕ := ofNat (value digits)

/-- The multiple of `10 ^ zeros` next to `x` that stands for it. -/
def candidate (x zeros : ℕ) : Option ℕ :=
  let low := x / 10 ^ zeros
  let nearest := if 2 * (x % 10 ^ zeros) ≤ 10 ^ zeros then [low, low + 1] else [low + 1, low]
  nearest.find? fun digits => 0 < digits && ofNat (digits * 10 ^ zeros) = x

/-- As few digits as stand for `x`, and the zeros after them. -/
def shortest (x : ℕ) : ℕ → ℕ × ℕ
  | 0 => (x, 0)
  | zeros + 1 =>
      match candidate x (zeros + 1) with
      | some digits => (digits, zeros + 1)
      | none => shortest x zeros

/-- `String(number)` -/
def text : WithTop ℕ → List Char
  | none => ['I', 'n', 'f', 'i', 'n', 'i', 't', 'y']
  | some x =>
      if x = 0 then ['0']
      else
        let (significant, zeros) := shortest x (Nat.toDigits 10 x).length
        let digits := Nat.toDigits 10 significant
        if digits.length + zeros ≤ 21 then digits ++ List.replicate zeros '0'
        else digits.take 1 ++ (if digits.length = 1 then [] else '.' :: digits.drop 1) ++
          'e' :: '+' :: Nat.toDigits 10 (digits.length + zeros - 1)

/-! Rounding. -/

theorem roundTo_le {shift n bound : ℕ} (le : n ≤ bound * 2 ^ shift) : roundTo shift n ≤ bound * 2 ^ shift := by
  have unit : 0 < 2 ^ shift := by positivity
  simp only [roundTo]
  split
  · exact (Nat.div_mul_le_self _ _).trans le
  · rename_i up
    refine Nat.mul_le_mul_right _ ?_
    rw [Nat.succ_le_iff, Nat.div_lt_iff_lt_mul unit]
    refine lt_of_le_of_ne le fun same => up (.inl ?_)
    simp [same, unit]

theorem le_roundTo {shift n bound : ℕ} (le : bound * 2 ^ shift ≤ n) : bound * 2 ^ shift ≤ roundTo shift n := by
  have unit : 0 < 2 ^ shift := by positivity
  have quotient : bound ≤ n / 2 ^ shift := (Nat.le_div_iff_mul_le unit).mpr le
  simp only [roundTo]
  split
  · exact Nat.mul_le_mul_right _ quotient
  · exact Nat.mul_le_mul_right _ (quotient.trans (Nat.le_succ _))

theorem roundTo_mono (shift : ℕ) {m n : ℕ} (le : m ≤ n) : roundTo shift m ≤ roundTo shift n := by
  obtain same | less := (Nat.div_le_div_right le : m / 2 ^ shift ≤ n / 2 ^ shift).eq_or_lt
  · have rest : m % 2 ^ shift ≤ n % 2 ^ shift := by
      have left := Nat.div_add_mod m (2 ^ shift)
      have right := Nat.div_add_mod n (2 ^ shift)
      rw [same] at left
      omega
    simp only [roundTo, same]
    split_ifs
    · exact le_rfl
    · exact Nat.mul_le_mul_right _ (Nat.le_succ _)
    · omega
    · exact le_rfl
  · have unit : 0 < 2 ^ shift := by positivity
    have below : m ≤ n / 2 ^ shift * 2 ^ shift :=
      ((Nat.div_lt_iff_lt_mul unit).mp less).le
    exact (roundTo_le below).trans (le_roundTo (Nat.div_mul_le_self _ _))

theorem rounded_of_lt {n : ℕ} (lt : n < 2 ^ 53) : rounded n = n := by
  have short : Nat.log2 n ≤ 52 := by
    by_cases zero : n = 0
    · rw [zero, Nat.log2_zero]
      exact Nat.zero_le 52
    · exact Nat.lt_succ_iff.mp ((Nat.log2_lt zero).mpr lt)
  rw [rounded, Nat.sub_eq_zero_of_le short, roundTo]
  simp [Nat.mod_one]

theorem rounded_mono {m n : ℕ} (le : m ≤ n) : rounded m ≤ rounded n := by
  by_cases zero : m = 0
  · rw [zero, rounded_of_lt (by decide)]
    exact Nat.zero_le _
  have size : Nat.log2 m ≤ Nat.log2 n := (Nat.le_log2 (by omega)).mpr ((Nat.log2_self_le zero).trans le)
  obtain same | larger := size.eq_or_lt
  · rw [rounded, rounded, same]
    exact roundTo_mono _ le
  -- A power of two lies between them, and it is a multiple of both units.
  · have split_ {shift : ℕ} (within : shift ≤ Nat.log2 m + 1) :
        2 ^ (Nat.log2 m + 1 - shift) * 2 ^ shift = 2 ^ (Nat.log2 m + 1) := by
      rw [← pow_add, Nat.sub_add_cancel within]
    have above : rounded m ≤ 2 ^ (Nat.log2 m + 1) := by
      have within : Nat.log2 m - 52 ≤ Nat.log2 m + 1 := by omega
      rw [← split_ within]
      refine roundTo_le ?_
      rw [split_ within]
      exact ((Nat.log2_lt zero).mp (Nat.lt_succ_self _)).le
    have below : 2 ^ (Nat.log2 m + 1) ≤ rounded n := by
      have power : 2 ^ (Nat.log2 n - (Nat.log2 n - 52)) * 2 ^ (Nat.log2 n - 52) = 2 ^ Nat.log2 n := by
        rw [← pow_add, Nat.sub_add_cancel (Nat.sub_le _ _)]
      calc
        2 ^ (Nat.log2 m + 1) ≤ 2 ^ Nat.log2 n := Nat.pow_le_pow_right (by decide) larger
        _ = 2 ^ (Nat.log2 n - (Nat.log2 n - 52)) * 2 ^ (Nat.log2 n - 52) := power.symm
        _ ≤ rounded n := le_roundTo (by rw [power]; exact Nat.log2_self_le (by omega))
    exact above.trans below

theorem ofNat_mono {m n : ℕ} (le : m ≤ n) : ofNat m ≤ ofNat n := by
  have rounds := rounded_mono le
  unfold ofNat
  by_cases finite : rounded n < overflow
  · rw [if_pos finite, if_pos (rounds.trans_lt finite)]
    exact WithTop.coe_le_coe.mpr rounds
  · rw [if_neg finite]
    exact le_top

theorem lt_overflow : 2 ^ 53 < overflow := by decide +kernel

theorem ofNat_of_lt {n : ℕ} (lt : n < 2 ^ 53) : ofNat n = n := by
  have finite : rounded n < overflow := by
    rw [rounded_of_lt lt]
    exact lt.trans lt_overflow
  rw [ofNat, if_pos finite, rounded_of_lt lt]

theorem ofNat_two_pow : ofNat (2 ^ 53) = ((2 ^ 53 : ℕ) : WithTop ℕ) := by decide +kernel

/-- Below 2 ^ 53 a double is the number itself, and no larger number has a double there. -/
theorem lt_of_ofNat_lt {n : ℕ} (safe : ofNat n < ((2 ^ 53 : ℕ) : WithTop ℕ)) : n < 2 ^ 53 := by
  by_contra large
  have le := ofNat_mono (not_lt.mp large)
  rw [ofNat_two_pow] at le
  exact absurd safe (not_lt.mpr le)

theorem ofNat_ne_zero {n : ℕ} (positive : 0 < n) : ofNat n ≠ 0 := by
  have le : ofNat 1 ≤ ofNat n := ofNat_mono positive
  rw [ofNat_of_lt (by decide)] at le
  intro zero
  rw [zero] at le
  exact absurd le (by decide)

/-! Digits. -/

theorem toNat_of_isDigit {c : Char} (digit : c.isDigit = true) : 48 ≤ c.toNat ∧ c.toNat ≤ 57 := by
  simp only [Char.isDigit, Bool.and_eq_true, decide_eq_true_eq] at digit
  exact ⟨digit.1, digit.2⟩

theorem digitChar_of_isDigit {c : Char} (digit : c.isDigit = true) : Nat.digitChar (c.toNat - 48) = c := by
  obtain ⟨low, high⟩ := toNat_of_isDigit digit
  apply Char.toNat_inj.mp
  rw [Nat.toNat_digitChar_of_lt_ten (by omega)]
  omega

/-- Digits after a number other than zero are the digits of a number. -/
theorem toDigits_append {digits : List Char} (all : ∀ c ∈ digits, c.isDigit = true) {n : ℕ} (positive : 0 < n) :
    Nat.toDigits 10 n ++ digits = Nat.toDigits 10 (Nat.ofDigitChars 10 digits n) := by
  induction digits generalizing n with
  | nil => simp
  | cons c digits ih =>
      obtain ⟨low, high⟩ := toNat_of_isDigit (all c List.mem_cons_self)
      have digit : Nat.toDigits 10 (c.toNat - 48) = [c] := by
        rw [Nat.toDigits_of_lt_base (by omega), digitChar_of_isDigit (all c List.mem_cons_self)]
      have joined := Nat.toDigits_append_toDigits (show 1 < 10 by decide) positive (show c.toNat - 48 < 10 by omega)
      rw [digit] at joined
      rw [Nat.ofDigitChars_cons, ← ih (fun d member => all d (List.mem_cons_of_mem _ member)) (by omega),
        List.append_cons, joined]
      rfl

/-- Digits of a number as it is written: no zero before others. -/
def Canonical (digits : List Char) : Prop := digits = ['0'] ∨ digits.head? ≠ some '0'

instance (digits : List Char) : Decidable (Canonical digits) := inferInstanceAs (Decidable (_ ∨ _))

theorem head_toDigits {n : ℕ} (positive : 0 < n) : (Nat.toDigits 10 n).head? ≠ some '0' := by
  induction n using Nat.base_induction 10 (by decide) with
  | single n lt =>
      rw [Nat.toDigits_of_lt_base lt, List.head?_cons]
      intro zero
      have value := congrArg Char.toNat (Option.some_inj.mp zero)
      rw [Nat.toNat_digitChar_of_lt_ten lt] at value
      simp at value
      omega
  | digit n k lt more ih =>
      have some_ : Nat.toDigits 10 n ≠ [] := Nat.toDigits_ne_nil
      rw [← Nat.toDigits_append_toDigits (by decide) more lt, List.head?_append_of_ne_nil _ some_]
      exact ih more

/-- Digits without a zero before others are the digits of the number that they spell. -/
theorem toDigits_value {digits : List Char} (some_ : digits ≠ []) (all : ∀ c ∈ digits, c.isDigit = true)
    (canonical : Canonical digits) : Nat.toDigits 10 (value digits) = digits := by
  obtain rfl | first := canonical
  · rfl
  · obtain ⟨c, rest, rfl⟩ := List.exists_cons_of_ne_nil some_
    have digit := all c List.mem_cons_self
    obtain ⟨low, high⟩ := toNat_of_isDigit digit
    have positive : 0 < c.toNat - 48 := by
      by_contra zero
      refine first (congrArg some (Char.toNat_inj.mp ?_))
      have value : '0'.toNat = 48 := rfl
      omega
    have joined := toDigits_append (fun d member => all d (List.mem_cons_of_mem c member)) positive
    rw [Nat.toDigits_of_lt_base (by omega), digitChar_of_isDigit digit] at joined
    rw [value, Nat.ofDigitChars_cons, Nat.mul_zero, Nat.zero_add]
    exact joined.symm

theorem candidate_pos {x zeros digits : ℕ} (found : candidate x zeros = some digits) : 0 < digits := by
  have kept := List.find?_some found
  simp only [Bool.and_eq_true, decide_eq_true_eq] at kept
  exact kept.1

theorem shortest_pos {x : ℕ} (positive : 0 < x) (zeros : ℕ) : 0 < (shortest x zeros).1 := by
  induction zeros with
  | zero => exact positive
  | succ zeros ih =>
      rw [shortest]
      split
      · rename_i found
        exact candidate_pos found
      · exact ih

/-- The text of a double other than zero does not begin with a zero. -/
theorem head_text {number : WithTop ℕ} (positive : number ≠ 0) : (text number).head? ≠ some '0' := by
  cases number with
  | top => decide
  | coe x =>
      have nonzero : x ≠ 0 := fun zero => positive (congrArg _ zero)
      have first := head_toDigits (shortest_pos (Nat.pos_of_ne_zero nonzero) (Nat.toDigits 10 x).length)
      obtain ⟨c, rest, digits⟩ : ∃ c rest, Nat.toDigits 10 (shortest x (Nat.toDigits 10 x).length).1 = c :: rest :=
        List.exists_cons_of_ne_nil Nat.toDigits_ne_nil
      change (if x = 0 then ['0'] else _).head? ≠ _
      rw [if_neg nonzero]
      simp only [digits] at first ⊢
      split
      · exact first
      · exact first

/-- Digits that are the text of their double have no zero before others. -/
theorem canonical_of_text {digits : List Char} (same : text (ofDigits digits) = digits) : Canonical digits := by
  by_cases zero : value digits = 0
  · refine .inl ?_
    rw [← same, ofDigits, zero, ofNat_of_lt (by decide)]
    rfl
  · refine .inr ?_
    rw [← same]
    exact head_text (ofNat_ne_zero (Nat.pos_of_ne_zero zero))

/-- Of different digits that are the texts of their doubles, the doubles compare as the numbers. -/
theorem ofDigits_lt_iff {left right : List Char} (left_text : text (ofDigits left) = left)
    (right_text : text (ofDigits right) = right) (ne : left ≠ right) :
    ofDigits left < ofDigits right ↔ value left < value right := by
  constructor
  · intro lt
    by_contra le
    exact absurd lt (not_lt.mpr (ofNat_mono (not_lt.mp le)))
  · intro lt
    refine (ofNat_mono lt.le).lt_of_ne fun same => ne ?_
    rw [← left_text, ← right_text, ofDigits, ofDigits, same]

end Doubles
