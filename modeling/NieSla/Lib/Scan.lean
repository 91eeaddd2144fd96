import Mathlib

/-! Finding the matches of a pattern in a text, in one pass from the left. -/
namespace Scan

variable {α β γ : Type*}

/-- What a pattern finds at the front of a text: how many elements its match takes, and what it makes of them. -/
abbrev Finder (α β : Type*) := List α → Option (Nat × β)

/-- The elements outside the matches, and the matches in their places; `skip` elements still belong to the match
before. -/
def pieces (find : Finder α β) : Nat → List α → List (α ⊕ β)
  | _, [] => []
  | skip + 1, _ :: rest => pieces find skip rest
  | 0, c :: rest =>
      match find (c :: rest) with
      | some (length, found) => .inr found :: pieces find (length - 1) rest
      | none => .inl c :: pieces find 0 rest

/-- Every match is replaced by what the pattern makes of it. -/
def replace (find : Finder α (List α)) (text : List α) : List α :=
  (pieces find 0 text).flatMap (Sum.elim (fun c => [c]) id)

variable {find : Finder α β} {text rest : List α}

@[simp] theorem pieces_nil (skip : Nat) : pieces find skip [] = [] := by
  cases skip <;> rfl

theorem pieces_skip (skip : Nat) (text : List α) : pieces find skip text = pieces find 0 (text.drop skip) := by
  induction skip generalizing text with
  | zero => rfl
  | succ skip ih =>
      cases text with
      | nil => simp
      | cons c rest => exact ih rest

theorem pieces_cons_of_none {c : α} (none_ : find (c :: rest) = none) :
    pieces find 0 (c :: rest) = .inl c :: pieces find 0 rest := by
  rw [pieces, none_]

theorem pieces_append {before : List α} {found : β} (found_ : find (before ++ rest) = some (before.length, found))
    (some_ : before ≠ []) : pieces find 0 (before ++ rest) = .inr found :: pieces find 0 rest := by
  cases before with
  | nil => exact absurd rfl some_
  | cons c before =>
      rw [List.cons_append] at found_ ⊢
      rw [pieces, found_]
      exact congrArg (_ :: ·) ((pieces_skip before.length _).trans (congrArg _ List.drop_left))

/-- A text that is put together from elements at which nothing is found, and from matches. -/
theorem pieces_flatMap {items : List γ} {spell : γ → List α} {piece : γ → α ⊕ β}
    (each : ∀ item ∈ items, ∀ rest, pieces find 0 (spell item ++ rest) = piece item :: pieces find 0 rest) :
    pieces find 0 (items.flatMap spell) = items.map piece := by
  induction items with
  | nil => rfl
  | cons item items ih =>
      rw [List.flatMap_cons, each item List.mem_cons_self,
        ih fun item member => each item (List.mem_cons_of_mem _ member), List.map_cons]

/-- What no match begins with stays as it is. -/
theorem replace_append_of_none {find : Finder α (List α)} {before : List α}
    (outside : ∀ c ∈ before, ∀ rest, find (c :: rest) = none) (rest : List α) :
    replace find (before ++ rest) = before ++ replace find rest := by
  induction before with
  | nil => rfl
  | cons c before ih =>
      have later := ih fun d member => outside d (List.mem_cons_of_mem _ member)
      have first : pieces find 0 (c :: (before ++ rest)) = .inl c :: pieces find 0 (before ++ rest) :=
        pieces_cons_of_none (outside c List.mem_cons_self _)
      rw [List.cons_append, replace, first, List.flatMap_cons]
      exact congrArg (c :: ·) later

/-! Lines. -/

/-- `split`, at the elements that are breaks. -/
def splitAt (isBreak : α → Bool) : List α → List (List α)
  | [] => [[]]
  | c :: rest =>
      if isBreak c then [] :: splitAt isBreak rest
      else match splitAt isBreak rest with
        | line :: lines => (c :: line) :: lines
        | [] => [[c]]

variable {isBreak : α → Bool}

theorem splitAt_ne_nil (text : List α) : splitAt isBreak text ≠ [] := by
  cases text with
  | nil => exact List.cons_ne_nil _ _
  | cons c rest =>
      unfold splitAt
      split
      · exact List.cons_ne_nil _ _
      · split <;> exact List.cons_ne_nil _ _

theorem splitAt_append {before : List α} (solid : ∀ c ∈ before, isBreak c = false) {line : List α}
    {lines : List (List α)} {rest : List α} (split_ : splitAt isBreak rest = line :: lines) :
    splitAt isBreak (before ++ rest) = (before ++ line) :: lines := by
  induction before with
  | nil => exact split_
  | cons c before ih =>
      have later := ih fun d member => solid d (List.mem_cons_of_mem _ member)
      have first : ¬ isBreak c = true := by simp [solid c List.mem_cons_self]
      rw [List.cons_append, splitAt, if_neg first, later]
      rfl

/-- The lines of a text that is put together from breaks and from pieces without any. -/
theorem splitAt_flatMap {items : List γ} {spell : γ → List α} {isBreakItem : γ → Bool}
    (breaks : ∀ item ∈ items, isBreakItem item = true → ∃ c, spell item = [c] ∧ isBreak c = true)
    (solid : ∀ item ∈ items, isBreakItem item = false → ∀ c ∈ spell item, isBreak c = false) :
    splitAt isBreak (items.flatMap spell) = (splitAt isBreakItem items).map fun line => line.flatMap spell := by
  induction items with
  | nil => rfl
  | cons item items ih =>
      have later := ih (fun other member => breaks other (List.mem_cons_of_mem _ member))
        (fun other member => solid other (List.mem_cons_of_mem _ member))
      rw [List.flatMap_cons, splitAt.eq_def isBreakItem]
      dsimp only
      by_cases break_ : isBreakItem item = true
      · obtain ⟨c, spelled, breaking⟩ := breaks item List.mem_cons_self break_
        rw [if_pos break_, spelled, List.singleton_append, splitAt, if_pos breaking, later]
        rfl
      · rw [if_neg break_]
        cases lines : splitAt isBreakItem items with
        | nil => exact absurd lines (splitAt_ne_nil _)
        | cons line lines' =>
            rw [lines] at later
            have inside := solid item List.mem_cons_self (Bool.not_eq_true _ ▸ break_)
            rw [splitAt_append inside later]
            rfl

theorem mem_of_mem_splitAt {text line : List α} (member : line ∈ splitAt isBreak text) {c : α} (inside : c ∈ line) :
    c ∈ text := by
  induction text generalizing line with
  | nil =>
      rw [splitAt, List.mem_singleton] at member
      rw [member] at inside
      cases inside
  | cons d rest ih =>
      unfold splitAt at member
      split at member
      · rcases List.mem_cons.mp member with rfl | later
        · cases inside
        · exact List.mem_cons_of_mem _ (ih later inside)
      · split at member
        next first lines same =>
          rcases List.mem_cons.mp member with rfl | later
          · rcases List.mem_cons.mp inside with rfl | among
            · exact List.mem_cons_self
            · exact List.mem_cons_of_mem _ (ih (same ▸ List.mem_cons_self) among)
          · exact List.mem_cons_of_mem _ (ih (same ▸ List.mem_cons_of_mem _ later) inside)
        next same => exact absurd same (splitAt_ne_nil _)

end Scan
