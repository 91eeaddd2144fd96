import Mathlib
import NieSla.Lib.Trim

/-! Splitting a text at white space. A token is a run outside white space, with the size of the text in
front of it; `words` keeps the runs only. -/
namespace Words

variable {α : Type*} (space : α → Bool) (size : α → Nat)

/-- A character joins the token behind it, unless white space or the end comes first. -/
def tokens : Nat → List α → List (Nat × List α)
  | _, [] => []
  | before, c :: rest =>
      if space c then tokens (before + size c) rest
      else match rest.head?.all space, tokens (before + size c) rest with
        | false, (_, word) :: more => (before, c :: word) :: more
        | _, more => (before, [c]) :: more

def words (text : List α) : List (List α) := (tokens space (fun _ => 1) 0 text).map Prod.snd

variable {space size}

theorem map_snd_tokens (before : Nat) (text : List α) :
    (tokens space size before text).map Prod.snd = words space text := by
  have any (size' : α → Nat) (before' : Nat) :
      (tokens space size before text).map Prod.snd = (tokens space size' before' text).map Prod.snd := by
    induction text generalizing before before' with
    | nil => rfl
    | cons c rest ih =>
        have same := ih (before + size c) (before' + size' c)
        unfold tokens
        split
        · exact same
        · generalize tokens space size (before + size c) rest = first at same
          generalize tokens space size' (before' + size' c) rest = second at same
          cases rest.head?.all space <;> cases first <;> cases second <;> simp_all
  exact any _ _

@[simp] theorem words_nil : words space ([] : List α) = [] := rfl

theorem tokens_spaces {blank : List α} (all : ∀ c ∈ blank, space c = true) (before : Nat) (rest : List α) :
    tokens space size before (blank ++ rest) = tokens space size (before + (blank.map size).sum) rest := by
  induction blank generalizing before with
  | nil => rfl
  | cons c blank ih =>
      obtain ⟨first, others⟩ := List.forall_mem_cons.mp all
      rw [List.cons_append, tokens, if_pos first, ih others, List.map_cons, List.sum_cons, Nat.add_assoc]

/-- A run that white space or the end follows is a token. -/
theorem tokens_word {word rest : List α} (some_ : word ≠ []) (solid : ∀ c ∈ word, space c = false)
    (ends : rest.head?.all space = true) (before : Nat) :
    tokens space size before (word ++ rest) =
      (before, word) :: tokens space size (before + (word.map size).sum) rest := by
  induction word generalizing before with
  | nil => exact absurd rfl some_
  | cons c word ih =>
      obtain ⟨first, others⟩ := List.forall_mem_cons.mp solid
      have outside : ¬ space c = true := by simp [first]
      rw [List.cons_append, tokens, if_neg outside, List.map_cons, List.sum_cons, ← Nat.add_assoc]
      cases word with
      | nil => simp [ends]
      | cons d word =>
          have joins : ((d :: word ++ rest).head?.all space) = false := by
            simp [others d List.mem_cons_self]
          rw [joins, ih (List.cons_ne_nil _ _) others]

theorem tokens_all_space {blank : List α} (all : ∀ c ∈ blank, space c = true) (before : Nat) :
    tokens space size before blank = [] := by
  rw [← List.append_nil blank, tokens_spaces all]
  rfl

theorem words_cons (c : α) (rest : List α) :
    words space (c :: rest) =
      if space c then words space rest
      else match rest.head?.all space, words space rest with
        | false, word :: more => (c :: word) :: more
        | _, more => [c] :: more := by
  have behind := @map_snd_tokens _ space (fun _ => 1) (0 + 1) rest
  rw [words, tokens, ← behind]
  split
  · rfl
  · generalize tokens space (fun _ => 1) (0 + 1) rest = more
    cases rest.head?.all space <;> cases more <;> rfl

theorem ne_nil_of_mem_words {word text : List α} (member : word ∈ words space text) : word ≠ [] := by
  induction text generalizing word with
  | nil => exact absurd member List.not_mem_nil
  | cons c rest ih =>
      rw [words_cons] at member
      split at member
      · exact ih member
      · split at member
        next found =>
          rw [found] at ih
          cases member with
          | head => exact List.cons_ne_nil _ _
          | tail _ later => exact ih (List.mem_cons_of_mem _ later)
        next =>
          cases member with
          | head => exact List.cons_ne_nil _ _
          | tail _ later => exact ih later

/-- The words hold the characters outside white space, in their order. -/
theorem flatten_words (text : List α) : (words space text).flatten = text.filter fun c => !space c := by
  induction text with
  | nil => rfl
  | cons c rest ih =>
      rw [words_cons, List.filter_cons, ← ih]
      cases space c with
      | true => rfl
      | false =>
          generalize words space rest = more
          cases rest.head?.all space <;> cases more <;> rfl

theorem mem_of_mem_words {word text : List α} (member : word ∈ words space text) {c : α} (inside : c ∈ word) :
    c ∈ text ∧ space c = false := by
  have kept : c ∈ (words space text).flatten := List.mem_flatten.mpr ⟨word, member, inside⟩
  simpa [flatten_words] using kept

theorem words_append_spaces {blank : List α} (all : ∀ c ∈ blank, space c = true) (text : List α) :
    words space (text ++ blank) = words space text := by
  induction text with
  | nil => rw [List.nil_append, words, tokens_all_space all, List.map_nil, words_nil]
  | cons c rest ih =>
      have next : (rest ++ blank).head?.all space = rest.head?.all space := by
        cases rest with
        | cons d rest => rfl
        | nil =>
            cases blank with
            | nil => rfl
            | cons d blank => simp [all d List.mem_cons_self]
      rw [List.cons_append, words_cons, words_cons, ih, next]

theorem words_rdropWhile (text : List α) : words space (text.rdropWhile space) = words space text := by
  have blank : ∀ c ∈ text.rtakeWhile space, space c = true := fun c => List.mem_rtakeWhile_imp
  calc words space (text.rdropWhile space)
      = words space (text.rdropWhile space ++ text.rtakeWhile space) := (words_append_spaces blank _).symm
    _ = words space text := by rw [List.rdropWhile_append_rtakeWhile]

theorem words_dropWhile (text : List α) : words space (text.dropWhile space) = words space text := by
  have blank : ∀ c ∈ text.takeWhile space, space c = true := fun c => List.mem_takeWhile_imp
  calc words space (text.dropWhile space)
      = words space (text.takeWhile space ++ text.dropWhile space) := by
        rw [words, words, tokens_spaces blank, map_snd_tokens, map_snd_tokens]
    _ = words space text := by rw [List.takeWhile_append_dropWhile]

/-- Trimming takes nothing from a solid text in front, and white space behind the rest only. -/
theorem trimBy_append {label : List α} (some_ : label ≠ []) (solid : ∀ c ∈ label, space c = false) (rest : List α) :
    Trim.trimBy space (label ++ rest) = label ++ rest.rdropWhile space := by
  obtain ⟨c, label', rfl⟩ := List.exists_cons_of_ne_nil some_
  have opens (rest : List α) : (c :: label' ++ rest).dropWhile space = c :: label' ++ rest := by
    rw [List.cons_append, List.dropWhile_cons_of_neg (by simp [solid c List.mem_cons_self])]
  have closes : (c :: label').rdropWhile space = c :: label' := by
    rw [List.rdropWhile_eq_self_iff]
    intro long
    simp [solid _ (List.getLast_mem long)]
  rw [Trim.trimBy_eq, opens]
  induction rest using List.reverseRecOn with
  | nil => simpa using closes
  | append_singleton rest d ih =>
      rw [← List.append_assoc, List.rdropWhile_concat, List.rdropWhile_concat]
      split
      · exact ih
      · exact List.append_assoc _ _ _

theorem trimBy_of_solid {text : List α} (solid : ∀ c ∈ text, space c = false) : Trim.trimBy space text = text := by
  by_cases some_ : text = []
  · rw [some_]
    rfl
  · simpa using trimBy_append some_ solid []

theorem isInfix_of_cons {separator : α} {part rest : List α} (free : separator ∉ part)
    (inside : part <:+: separator :: rest) : part <:+: rest := by
  rcases List.infix_cons_iff.mp inside with first | later
  · rcases List.prefix_cons_iff.mp first with rfl | ⟨more, rfl, -⟩
    · exact List.nil_infix
    · exact absurd List.mem_cons_self free
  · exact later

/-- What does not hold a separator stands on one side of it. -/
theorem isInfix_append_cons {separator : α} {part first rest : List α} (free : separator ∉ part)
    (inside : part <:+: first ++ separator :: rest) : part <:+: first ∨ part <:+: rest := by
  rcases List.infix_append_iff.mp inside with left | right | ⟨before, after, rfl, ends, opens⟩
  · exact .inl left
  · exact .inr (isInfix_of_cons free right)
  · rcases List.prefix_cons_iff.mp opens with rfl | ⟨more, rfl, -⟩
    · rw [List.append_nil]
      exact .inl ends.isInfix
    · exact absurd (List.mem_append_right _ List.mem_cons_self) free

end Words
