import Mathlib

/-! Bytes as text, six bits a character. -/
namespace Base64

abbrev Bytes := List (Fin 256)

/-- The digits of the bytes; the last one is filled up with zeros. -/
def digits : Bytes → List (Fin 64)
  | [] => []
  | [a] => [⟨a / 4, by omega⟩, ⟨a % 4 * 16, by omega⟩]
  | [a, b] => [⟨a / 4, by omega⟩, ⟨a % 4 * 16 + b / 16, by omega⟩, ⟨b % 16 * 4, by omega⟩]
  | a :: b :: c :: rest =>
      ⟨a / 4, by omega⟩ :: ⟨a % 4 * 16 + b / 16, by omega⟩ :: ⟨b % 16 * 4 + c / 64, by omega⟩ ::
        ⟨c % 64, by omega⟩ :: digits rest

/-- The bits that are left of the last digit are dropped. -/
def bytesOf : List (Fin 64) → Bytes
  | [] | [_] => []
  | [p, q] => [⟨p * 4 + q / 16, by omega⟩]
  | [p, q, r] => [⟨p * 4 + q / 16, by omega⟩, ⟨q % 16 * 16 + r / 4, by omega⟩]
  | p :: q :: r :: s :: rest =>
      ⟨p * 4 + q / 16, by omega⟩ :: ⟨q % 16 * 16 + r / 4, by omega⟩ :: ⟨r % 4 * 64 + s, by omega⟩ :: bytesOf rest

/-- `A` to `Z`, `a` to `z`, `0` to `9`, `+` and `/`. -/
def symbol (digit : Fin 64) : Char :=
  Char.ofNat (if digit.val < 26 then 65 + digit else if digit.val < 52 then 71 + digit
    else if digit.val < 62 then digit - 4 else if digit.val = 62 then 43 else 47)

def digitOf (c : Char) : Option (Fin 64) := (List.finRange 64).find? fun digit => symbol digit = c

/-- `btoa` -/
def encode (bytes : Bytes) : List Char :=
  (digits bytes).map symbol ++ List.replicate ((4 - (digits bytes).length % 4) % 4) '='

def isAsciiSpace (c : Char) : Bool := [0x9, 0xA, 0xC, 0xD, 0x20].contains c.val

/-- One or two `=` at the end of a text of whole fours. -/
def stripPadding (text : List Char) : List Char :=
  if text.length % 4 ≠ 0 then text
  else if ['=', '='].isSuffixOf text then text.dropLast.dropLast
  else if ['='].isSuffixOf text then text.dropLast
  else text

/-- `atob` -/
def decode (text : List Char) : Option Bytes :=
  let plain := stripPadding (text.filter fun c => !isAsciiSpace c)
  if plain.length % 4 = 1 then none else (plain.mapM digitOf).map bytesOf

theorem bytesOf_digits (bytes : Bytes) : bytesOf (digits bytes) = bytes := by
  induction bytes using digits.induct with
  | case1 => rfl
  | case2 a =>
      simp only [digits, bytesOf, List.cons.injEq, and_true]
      exact Fin.ext (by dsimp only; omega)
  | case3 a b =>
      simp only [digits, bytesOf, List.cons.injEq, and_true]
      exact ⟨Fin.ext (by dsimp only; omega), Fin.ext (by dsimp only; omega)⟩
  | case4 a b c rest ih =>
      simp only [digits, bytesOf, ih, List.cons.injEq, and_true]
      exact ⟨Fin.ext (by dsimp only; omega), Fin.ext (by dsimp only; omega), Fin.ext (by dsimp only; omega)⟩

theorem length_digits_mod (bytes : Bytes) : (digits bytes).length % 4 ≠ 1 := by
  induction bytes using digits.induct with
  | case1 => exact Nat.zero_ne_one
  | case2 a => simp [digits]
  | case3 a b => simp [digits]
  | case4 a b c rest ih =>
      simp only [digits, List.length_cons]
      omega

theorem symbol_injective : Function.Injective symbol := by
  have codes : ∀ digit : Fin 64, (symbol digit).toNat =
      if digit.val < 26 then 65 + digit.val else if digit.val < 52 then 71 + digit.val
        else if digit.val < 62 then digit.val - 4 else if digit.val = 62 then 43 else 47 := by decide
  intro digit other same
  have equal := congrArg Char.toNat same
  rw [codes, codes] at equal
  exact Fin.ext (by split_ifs at equal <;> omega)

@[simp] theorem digitOf_symbol (digit : Fin 64) : digitOf (symbol digit) = some digit := by
  cases found : digitOf (symbol digit) with
  | none =>
      have none_ := List.find?_eq_none.mp found digit (List.mem_finRange digit)
      exact absurd (decide_eq_true rfl) none_
  | some other =>
      have same := List.find?_some found
      rw [symbol_injective (of_decide_eq_true same)]

theorem symbol_range (digit : Fin 64) : 0x2b ≤ (symbol digit).toNat ∧ (symbol digit).toNat ≤ 0x7a := by
  revert digit
  decide

theorem plain_symbol (digit : Fin 64) : isAsciiSpace (symbol digit) = false ∧ symbol digit ≠ '=' := by
  revert digit
  decide

theorem mapM_digitOf (list : List (Fin 64)) : (list.map symbol).mapM digitOf = some list := by
  induction list with
  | nil => rfl
  | cons digit rest ih => simp [ih]

section Encode

variable (bytes : Bytes)

theorem mem_encode {c : Char} (member : c ∈ encode bytes) : (∃ digit, symbol digit = c) ∨ c = '=' := by
  rcases List.mem_append.mp member with found | padding
  · obtain ⟨digit, -, same⟩ := List.mem_map.mp found
    exact .inl ⟨digit, same⟩
  · exact .inr (List.eq_of_mem_replicate padding)

theorem filter_encode : (encode bytes).filter (fun c => !isAsciiSpace c) = encode bytes := by
  refine List.filter_eq_self.mpr fun c member => ?_
  rcases mem_encode bytes member with ⟨digit, rfl⟩ | rfl
  · rw [(plain_symbol digit).1]
    rfl
  · decide

theorem not_suffix_map : ¬ ['='] <:+ (digits bytes).map symbol := by
  intro suffix
  obtain ⟨digit, -, same⟩ := List.mem_map.mp (suffix.mem List.mem_cons_self)
  exact (plain_symbol digit).2 same

theorem stripPadding_encode : stripPadding (encode bytes) = (digits bytes).map symbol := by
  have odd := length_digits_mod bytes
  have solid := not_suffix_map bytes
  have whole : (encode bytes).length % 4 = 0 := by
    simp only [encode, List.length_append, List.length_map, List.length_replicate]
    omega
  have cases_ : (digits bytes).length % 4 = 0 ∨ (digits bytes).length % 4 = 2 ∨ (digits bytes).length % 4 = 3 := by
    omega
  unfold stripPadding
  rw [if_neg (not_not.mpr whole)]
  rcases cases_ with none_ | two | one
  · have same : encode bytes = (digits bytes).map symbol := by simp [encode, none_]
    rw [same, if_neg, if_neg]
    · exact fun suffix => solid (List.isSuffixOf_iff_suffix.mp suffix)
    · intro suffix
      exact solid ((List.suffix_cons _ _).trans (List.isSuffixOf_iff_suffix.mp suffix))
  · have same : encode bytes = (digits bytes).map symbol ++ ['=', '='] := by simp [encode, two]
    rw [same, if_pos (List.isSuffixOf_iff_suffix.mpr (List.suffix_append _ _)), List.dropLast_append_cons]
    simp
  · have same : encode bytes = (digits bytes).map symbol ++ ['='] := by simp [encode, one]
    rw [same, if_neg, if_pos (List.isSuffixOf_iff_suffix.mpr (List.suffix_append _ _)), List.dropLast_concat]
    intro suffix
    obtain ⟨front, split_⟩ := List.isSuffixOf_iff_suffix.mp suffix
    have shorter : front ++ ['='] = (digits bytes).map symbol := by
      have append : front ++ ['='] ++ ['='] = (digits bytes).map symbol ++ ['='] := by simpa using split_
      exact List.append_cancel_right append
    exact solid ⟨front, shorter⟩

/-- What is encoded is decoded. -/
theorem decode_encode : decode (encode bytes) = some bytes := by
  unfold decode
  dsimp only
  rw [filter_encode, stripPadding_encode, if_neg (by simpa using length_digits_mod bytes)]
  rw [mapM_digitOf, Option.map_some, bytesOf_digits]

end Encode

end Base64
