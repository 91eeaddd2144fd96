import NieSla.Unlock.Agent
import NieSla.Unlock.Table
import NieSla.Unlock.Worker

/-! What stands in an aligned line: its words, its characters, and the parts it holds. -/
namespace NieSla.Unlock

/-- Every text starts behind the one before it, with a blank between them. -/
def Spaced : Nat → List (Nat × List Char) → Prop
  | _, [] => True
  | left, (start, text) :: rest => left ≤ start ∧ Spaced (start + displayWidth text + 1) rest

/-- The texts with the UTF-16 code units in front of them. -/
def placed : Nat → Nat → List (Nat × List Char) → List (Nat × List Char)
  | _, _, [] => []
  | width, before, (start, text) :: rest =>
      (before + (start - width), text) ::
        placed (start + displayWidth text) (before + (start - width) + Worker.units text) rest

theorem Spaced.mono {left left' : Nat} {texts : List (Nat × List Char)} (spaced : Spaced left texts)
    (le : left' ≤ left) : Spaced left' texts := by
  cases texts with
  | nil => trivial
  | cons text rest => exact ⟨le.trans spaced.1, spaced.2⟩

theorem spaced_of_fits {left : Nat} {columns : List Column} (shown : Column → List Char)
    (within : ∀ column, displayWidth (shown column) ≤ column.width) (fits : Fits left columns) :
    Spaced left (columns.map fun column => (column.start, shown column)) := by
  induction columns generalizing left with
  | nil => trivial
  | cons column rest ih =>
      have room : column.start + displayWidth (shown column) + 1 ≤ column.start + column.width + 1 := by
        have wide := within column
        omega
      exact ⟨fits.1, (ih fits.2).mono room⟩

theorem Table.spaced_names (table : Table) : Spaced 8 table.names :=
  spaced_of_fits _ (fun _ => le_max_of_le_left (le_max_left _ _)) table.fits

theorem Table.spaced_cells (table : Table) (row : Row) : Spaced 8 (table.cells row) := by
  apply spaced_of_fits _ _ table.fits
  intro column
  cases row with
  | status => exact le_max_of_le_left (le_max_right _ _)
  | region => exact le_max_of_le_right (le_max_left _ _)
  | method => exact le_max_of_le_right (le_max_right _ _)

@[simp] theorem map_snd_placed (width before : Nat) (texts : List (Nat × List Char)) :
    (placed width before texts).map Prod.snd = texts.map Prod.snd := by
  induction texts generalizing width before with
  | nil => rfl
  | cons text rest ih => exact congrArg (text.2 :: ·) (ih _ _)

/-- A line goes on with a blank, or ends. -/
theorem render_of_spaced {width : Nat} {texts : List (Nat × List Char)} (spaced : Spaced (width + 1) texts) :
    render width texts = [] ∨ ∃ rest, render width texts = ' ' :: rest := by
  cases texts with
  | nil => exact .inl rfl
  | cons text rest =>
      have pad : text.1 - width = text.1 - width - 1 + 1 := by
        have behind := spaced.1
        omega
      right
      rw [render, pad, List.replicate_succ]
      exact ⟨_, rfl⟩

/-- The tokens of a line are its texts, where each of them is one word or blank. -/
theorem tokens_render {space : Char → Bool} (blank : space ' ' = true) {left : Nat}
    {texts : List (Nat × List Char)} (spaced : Spaced left texts)
    (solid : ∀ text ∈ texts, ∀ c ∈ text.2, space c = false) (width before : Nat) :
    Words.tokens space codeUnits before (render width texts) =
      (placed width before texts).filter fun text => text.2 ≠ [] := by
  induction texts generalizing left width before with
  | nil => rfl
  | cons text rest ih =>
      obtain ⟨start, text⟩ := text
      obtain ⟨first, others⟩ := List.forall_mem_cons.mp solid
      have later := ih spaced.2 others
      have pad : ∀ c ∈ List.replicate (start - width) ' ', space c = true := by
        intro c member
        rw [List.eq_of_mem_replicate member, blank]
      have size : ((List.replicate (start - width) ' ').map codeUnits).sum = start - width := by
        rw [List.map_replicate, List.sum_replicate]
        exact Nat.mul_one _
      rw [render, Words.tokens_spaces pad, size, placed]
      by_cases some_ : text = []
      · subst some_
        exact later _ _
      · have ends : (render (start + displayWidth text) rest).head?.all space = true := by
          rcases render_of_spaced spaced.2 with nothing | ⟨more, found⟩
          · rw [nothing]
            rfl
          · rw [found]
            exact blank
        rw [Words.tokens_word some_ first ends, later, List.filter_cons_of_pos (by simpa using some_)]
        rfl

/-- The words of a line are its texts, where each of them is one word or blank. -/
theorem words_render {space : Char → Bool} (blank : space ' ' = true) {left : Nat}
    {texts : List (Nat × List Char)} (spaced : Spaced left texts)
    (solid : ∀ text ∈ texts, ∀ c ∈ text.2, space c = false) (width : Nat) :
    Words.words space (render width texts) = (texts.map Prod.snd).filter (· ≠ []) := by
  have found := congrArg (List.map Prod.snd) (tokens_render blank spaced solid width 0)
  rw [Words.map_snd_tokens] at found
  rw [found, ← map_snd_placed width 0 texts, List.filter_map]
  rfl

/-- The characters of a line outside white space are those of its texts. -/
theorem filter_render {space : Char → Bool} (blank : space ' ' = true) (width : Nat)
    (texts : List (Nat × List Char)) :
    (render width texts).filter (fun c => !space c) = (texts.map Prod.snd).flatten.filter fun c => !space c := by
  induction texts generalizing width with
  | nil => rfl
  | cons text rest ih =>
      rw [render, List.map_cons, List.flatten_cons, List.filter_append, List.filter_append, List.filter_append, ih,
        List.filter_replicate]
      simp [blank]

theorem mem_render {width : Nat} {texts : List (Nat × List Char)} {c : Char} (member : c ∈ render width texts) :
    c = ' ' ∨ ∃ text ∈ texts, c ∈ text.2 := by
  induction texts generalizing width with
  | nil => exact absurd member List.not_mem_nil
  | cons text rest ih =>
      rw [render, List.mem_append, List.mem_append] at member
      rcases member with pad | here | later
      · exact .inl (List.eq_of_mem_replicate pad)
      · exact .inr ⟨text, List.mem_cons_self, here⟩
      · rcases ih later with pad | ⟨other, inside, found⟩
        · exact .inl pad
        · exact .inr ⟨other, List.mem_cons_of_mem _ inside, found⟩

theorem mem_render_of_mem {width : Nat} {texts : List (Nat × List Char)} {text : Nat × List Char}
    (member : text ∈ texts) {c : Char} (inside : c ∈ text.2) : c ∈ render width texts := by
  induction texts generalizing width with
  | nil => exact absurd member List.not_mem_nil
  | cons first rest ih =>
      rw [render, List.mem_append, List.mem_append]
      cases member with
      | head => exact .inr (.inl inside)
      | tail _ later => exact .inr (.inr (ih later))

/-- What a line holds without a blank in it, one of its texts holds. -/
theorem isInfix_render {part : List Char} (free : ' ' ∉ part) (some_ : part ≠ []) {left width : Nat}
    {texts : List (Nat × List Char)} (spaced : Spaced left texts) (inside : part <:+: render width texts) :
    ∃ text ∈ texts, part <:+: text.2 := by
  induction texts generalizing left width with
  | nil => exact absurd (List.infix_nil.mp inside) some_
  | cons text rest ih =>
      obtain ⟨start, text⟩ := text
      have behind : part <:+: text ++ render (start + displayWidth text) rest := by
        rw [render] at inside
        generalize start - width = count at inside
        induction count with
        | zero => exact inside
        | succ count fewer =>
            rw [List.replicate_succ, List.cons_append] at inside
            exact fewer (Words.isInfix_of_cons free inside)
      have later (found : part <:+: render (start + displayWidth text) rest) :
          ∃ text ∈ rest, part <:+: text.2 := ih spaced.2 found
      rcases render_of_spaced spaced.2 with nothing | ⟨more, goes⟩
      · rw [nothing, List.append_nil] at behind
        exact ⟨(start, text), List.mem_cons_self, behind⟩
      · rw [goes] at behind later
        rcases Words.isInfix_append_cons free behind with here | there
        · exact ⟨(start, text), List.mem_cons_self, here⟩
        · obtain ⟨other, member, found⟩ := later (there.trans (List.suffix_cons _ _).isInfix)
          exact ⟨other, List.mem_cons_of_mem _ member, found⟩

end NieSla.Unlock
