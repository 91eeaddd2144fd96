import Mathlib

/-! Down-sampling of a list: cut it into chunks, put an average in place of each chunk, and the first and
the last item in place of the first and the last average. -/
namespace Downsample

variable {α : Type*}

/-- Chunks of `step` items; the last one may be shorter. `fuel` bounds their number. -/
def chunks (step : Nat) : Nat → List α → List (List α)
  | 0, _ => []
  | _, [] => []
  | fuel + 1, item :: rest => (item :: rest).take step :: chunks step fuel ((item :: rest).drop step)

/-- `Math.ceil(length / max)` -/
def stepOf (length max : Nat) : Nat := (length + max - 1) / max

/-- The loop, and the two assignments after it. -/
def sample (average : List α → α) (max : Nat) (list : List α) : List α :=
  if list.length ≤ max then list
  else
    let out := (chunks (stepOf list.length max) list.length list).map average
    match list.head?, list.getLast? with
    | some first, some last => (out.set 0 first).set (out.length - 1) last
    | _, _ => out

section Chunks

variable {step fuel : Nat} {list : List α}

theorem chunks_cons {item : α} {rest : List α} :
    chunks step (fuel + 1) (item :: rest) =
      (item :: rest).take step :: chunks step fuel ((item :: rest).drop step) := rfl

theorem flatten_chunks (positive : 0 < step) (enough : list.length ≤ fuel) :
    (chunks step fuel list).flatten = list := by
  induction fuel generalizing list with
  | zero =>
      rw [List.length_eq_zero_iff.mp (Nat.le_zero.mp enough)]
      rfl
  | succ fuel ih =>
      cases list with
      | nil => rfl
      | cons item rest =>
          have fewer : ((item :: rest).drop step).length ≤ fuel := by
            rw [List.length_drop]
            omega
          rw [chunks_cons, List.flatten_cons, ih fewer, List.take_append_drop]

theorem ne_nil_of_mem_chunks (positive : 0 < step) {chunk : List α} (member : chunk ∈ chunks step fuel list) :
    chunk ≠ [] := by
  induction fuel generalizing list with
  | zero => cases member
  | succ fuel ih =>
      cases list with
      | nil => cases member
      | cons item rest =>
          rw [chunks_cons] at member
          rcases List.mem_cons.mp member with rfl | later
          · obtain ⟨before, rfl⟩ := Nat.exists_eq_succ_of_ne_zero positive.ne'
            exact List.cons_ne_nil _ _
          · exact ih later

theorem length_chunks_le {count : Nat} (room : list.length ≤ step * count) :
    (chunks step fuel list).length ≤ count := by
  induction fuel generalizing list count with
  | zero => exact Nat.zero_le _
  | succ fuel ih =>
      cases list with
      | nil => exact Nat.zero_le _
      | cons item rest =>
          cases count with
          | zero => simp at room
          | succ count =>
              have fewer : ((item :: rest).drop step).length ≤ step * count := by
                rw [List.length_drop]
                rw [Nat.mul_succ] at room
                omega
              rw [chunks_cons, List.length_cons]
              exact Nat.succ_le_succ (ih fewer)

/-- A list longer than one chunk has at least two. -/
theorem one_lt_length_chunks (positive : 0 < step) (enough : list.length ≤ fuel) (long : step < list.length) :
    1 < (chunks step fuel list).length := by
  have whole := flatten_chunks positive enough
  by_contra few
  rcases found : chunks step fuel list with _ | ⟨chunk, rest⟩
  · rw [found, List.flatten_nil] at whole
    rw [← whole] at long
    simp at long
  · have alone : rest = [] := by
      rw [found, List.length_cons] at few
      exact List.length_eq_zero_iff.mp (by omega)
    cases fuel with
    | zero => simp [chunks] at found
    | succ fuel =>
        cases list with
        | nil => simp at long
        | cons item tail =>
            rw [chunks_cons, List.cons.injEq] at found
            subst alone
            rw [chunks_cons, found.1, found.2, List.flatten_cons, List.flatten_nil, List.append_nil,
              ← found.1] at whole
            have cut := congrArg List.length whole
            rw [List.length_take] at cut
            omega

end Chunks

section Steps

variable {length max : Nat} (wide : 2 ≤ max) (long : max < length)
include wide long

theorem stepOf_pos : 0 < stepOf length max :=
  Nat.div_pos (by omega) (by omega)

omit long in
theorem le_stepOf_mul : length ≤ stepOf length max * max := by
  have exact_ := Nat.div_add_mod (length + max - 1) max
  have small := Nat.mod_lt (length + max - 1) (show 0 < max by omega)
  unfold stepOf
  rw [Nat.mul_comm]
  omega

theorem stepOf_lt : stepOf length max < length := by
  unfold stepOf
  rw [Nat.div_lt_iff_lt_mul (by omega)]
  calc length + max - 1 < length + length := by omega
    _ = length * 2 := (Nat.mul_two length).symm
    _ ≤ length * max := Nat.mul_le_mul_left length wide

end Steps

/-- A sampled list: the list itself, or its ends with the averages of the chunks between a first and a last
chunk. -/
inductive Sampled (average : List α → α) (list : List α) : List α → Prop where
  | all : Sampled average list list
  | ends (first last : α) (head tail : List α) (middle : List (List α))
      (whole : list = first :: head ++ (middle.flatten ++ (tail ++ [last])))
      (some_ : ∀ chunk ∈ middle, chunk ≠ []) :
      Sampled average list (first :: middle.map average ++ [last])

theorem set_ends {first last a b : α} (middle : List α) :
    ((a :: middle ++ [b]).set 0 first).set ((a :: middle ++ [b]).length - 1) last =
      first :: middle ++ [last] := by
  simp

theorem sampled_sample (average : List α → α) {max : Nat} (wide : 2 ≤ max) (list : List α) :
    Sampled average list (sample average max list) ∧ (sample average max list).length ≤ max := by
  unfold sample
  by_cases short : list.length ≤ max
  · rw [if_pos short]
    exact ⟨.all, short⟩
  · rw [if_neg short]
    have long := Nat.lt_of_not_le short
    have positive := stepOf_pos wide long
    have whole := flatten_chunks positive (le_refl list.length)
    have two := one_lt_length_chunks positive (le_refl list.length) (stepOf_lt wide long)
    have few : (chunks (stepOf list.length max) list.length list).length ≤ max :=
      length_chunks_le (le_stepOf_mul wide)
    have every : ∀ chunk ∈ chunks (stepOf list.length max) list.length list, chunk ≠ [] :=
      fun chunk member => ne_nil_of_mem_chunks positive member
    generalize chunks (stepOf list.length max) list.length list = parts at *
    obtain ⟨start, middle, stop, rfl⟩ : ∃ start middle stop, parts = start :: middle ++ [stop] := by
      rcases parts with _ | ⟨start, rest⟩
      · simp at two
      · rcases List.eq_nil_or_concat' rest with rfl | ⟨middle, stop, rfl⟩
        · simp at two
        · exact ⟨start, middle, stop, rfl⟩
    obtain ⟨first, head, rfl⟩ := List.exists_cons_of_ne_nil (every start (by simp))
    obtain ⟨tail, last, rfl⟩ := (List.eq_nil_or_concat' stop).resolve_left (every stop (by simp))
    have split : list = first :: head ++ (middle.flatten ++ (tail ++ [last])) := by
      rw [← whole]
      simp
    have opens : list.head? = some first := by rw [split]; rfl
    have closes : list.getLast? = some last := by
      rw [split, ← List.append_assoc, ← List.append_assoc]
      exact List.getLast?_concat
    simp only [opens, closes, List.map_append, List.map_cons, List.map_nil, List.cons_append]
    rw [← List.cons_append, set_ends]
    refine ⟨.ends first last head tail middle split fun chunk member => every chunk (by simp [member]), ?_⟩
    simpa using few

theorem Sampled.ends_eq {average : List α → α} {list out : List α} (sampled : Sampled average list out) :
    out.head? = list.head? ∧ out.getLast? = list.getLast? := by
  cases sampled with
  | all => exact ⟨rfl, rfl⟩
  | ends first last head tail middle whole _ =>
      subst whole
      refine ⟨rfl, ?_⟩
      rw [List.getLast?_concat, ← List.append_assoc, ← List.append_assoc, List.getLast?_concat]

/-- The parts of the list for which the items of the sampled list stand. -/
def parts (max : Nat) (list : List α) : List (List α) :=
  if list.length ≤ max then list.map fun a => [a] else chunks (stepOf list.length max) list.length list

theorem flatten_parts {max : Nat} (wide : 2 ≤ max) (list : List α) : (parts max list).flatten = list := by
  unfold parts
  split_ifs with short
  · rw [← List.flatMap_def, List.flatMap_singleton']
  · exact flatten_chunks (stepOf_pos wide (Nat.lt_of_not_le short)) le_rfl

theorem length_parts (average : List α → α) (max : Nat) (list : List α) :
    (parts max list).length = (sample average max list).length := by
  unfold parts sample
  split_ifs
  · exact List.length_map _
  · dsimp only
    split <;> simp

/-- An item is the average of its part, or the part's only item, or an end in place of the average. -/
theorem sample_part {average : List α → α} {max : Nat} {list : List α} {index : Nat} {part : List α} {a : α}
    (here : (parts max list)[index]? = some part) (there : (sample average max list)[index]? = some a) :
    a = average part ∨ part = [a] ∨ (index = 0 ∧ list.head? = some a) ∨
      (index + 1 = (sample average max list).length ∧ list.getLast? = some a) := by
  unfold parts at here
  unfold sample at there ⊢
  split_ifs at here there ⊢ with short
  · rw [List.getElem?_map, there] at here
    exact .inr (.inl (Option.some.inj here).symm)
  · have inside : index < (chunks (stepOf list.length max) list.length list).length :=
      (List.getElem?_eq_some_iff.mp here).1
    have averaged : ((chunks (stepOf list.length max) list.length list).map average)[index]? =
        some (average part) := by
      rw [List.getElem?_map, here, Option.map_some]
    dsimp only at there ⊢
    split at there
    · rename_i first last opens closes
      simp only [opens, closes, List.length_set, List.length_map] at there ⊢
      rw [List.getElem?_set, List.length_set, List.length_map] at there
      split_ifs at there with stop bound
      · exact .inr (.inr (.inr ⟨by omega, there⟩))
      · rw [List.getElem?_set, List.length_map] at there
        split_ifs at there with start bound
        · exact .inr (.inr (.inl ⟨start.symm, there⟩))
        · exact .inl (Option.some.inj (there.symm.trans averaged))
    · exact .inl (Option.some.inj (there.symm.trans averaged))

/-! An average whose key lies among the keys of its chunk. -/

section Keys

variable {κ : Type*} [Preorder κ] {key : α → κ} {good : α → Prop} {average : List α → α} {list out : List α}

/-- The key of the average of good items lies between two of theirs. -/
def Among (key : α → κ) (good : α → Prop) (average : List α → α) : Prop :=
  ∀ chunk : List α, chunk ≠ [] → (∀ a ∈ chunk, good a) →
    (∃ low ∈ chunk, key low ≤ key (average chunk)) ∧ ∃ high ∈ chunk, key (average chunk) ≤ key high

theorem Sampled.between (sampled : Sampled average list out) (among : Among key good average)
    (every : ∀ a ∈ list, good a) (sorted : list.Pairwise fun a b => key a ≤ key b) {first last : α}
    (opens : list.head? = some first) (closes : list.getLast? = some last) {a : α} (member : a ∈ out) :
    key first ≤ key a ∧ key a ≤ key last := by
  have low : ∀ b ∈ list, key first ≤ key b := by
    cases list with
    | nil => cases opens
    | cons head rest =>
        cases opens
        intro b among
        rcases List.mem_cons.mp among with rfl | later
        · exact le_rfl
        · exact (List.pairwise_cons.mp sorted).1 b later
  have high : ∀ b ∈ list, key b ≤ key last := by
    obtain ⟨front, rfl⟩ := List.getLast?_eq_some_iff.mp closes
    intro b among
    rcases List.mem_append.mp among with before | only
    · exact (List.pairwise_append.mp sorted).2.2 b before last (List.mem_singleton_self last)
    · rw [List.mem_singleton.mp only]
  cases sampled with
  | all => exact ⟨low a member, high a member⟩
  | ends start stop head tail middle whole some_ =>
      have inside {chunk : List α} (part : chunk ∈ middle) {b : α} (here : b ∈ chunk) : b ∈ list := by
        rw [whole]
        exact List.mem_append_right _ (List.mem_append_left _ (List.mem_flatten.mpr ⟨chunk, part, here⟩))
      rcases List.mem_append.mp member with front | only
      · rcases List.mem_cons.mp front with rfl | average_
        · have here : a ∈ list := by rw [whole]; simp
          exact ⟨low a here, high a here⟩
        · obtain ⟨chunk, part, rfl⟩ := List.mem_map.mp average_
          obtain ⟨⟨b, one, below⟩, c, two, above⟩ :=
            among chunk (some_ chunk part) fun b here => every b (inside part here)
          exact ⟨(low b (inside part one)).trans below, above.trans (high c (inside part two))⟩
      · rw [List.mem_singleton.mp only]
        have here : stop ∈ list := by rw [whole]; simp
        exact ⟨low stop here, high stop here⟩

/-- An order of the keys that `≤` extends to both sides, as `<` and `≤` are. -/
theorem Sampled.pairwise {before : κ → κ → Prop} (left : ∀ {a b c}, a ≤ b → before b c → before a c)
    (right : ∀ {a b c}, before a b → b ≤ c → before a c) (sampled : Sampled average list out)
    (among : Among key good average) (every : ∀ a ∈ list, good a)
    (sorted : list.Pairwise fun a b => before (key a) (key b)) :
    out.Pairwise fun a b => before (key a) (key b) := by
  cases sampled with
  | all => exact sorted
  | ends first last head tail middle whole some_ =>
      subst whole
      obtain ⟨-, inner, front⟩ := List.pairwise_append.mp sorted
      obtain ⟨flat, -, back⟩ := List.pairwise_append.mp inner
      have means {chunk : List α} (part : chunk ∈ middle) := among chunk (some_ chunk part) fun b here =>
        every b (List.mem_append_right _ (List.mem_append_left _ (List.mem_flatten.mpr ⟨chunk, part, here⟩)))
      have within {chunk : List α} (part : chunk ∈ middle) {b : α} (here : b ∈ chunk) : b ∈ middle.flatten :=
        List.mem_flatten.mpr ⟨chunk, part, here⟩
      rw [List.cons_append, List.pairwise_cons, List.pairwise_append]
      refine ⟨?_, ?_, List.pairwise_singleton _ _, ?_⟩
      · intro a member
        rcases List.mem_append.mp member with average_ | only
        · obtain ⟨chunk, part, rfl⟩ := List.mem_map.mp average_
          obtain ⟨⟨b, here, below⟩, -⟩ := means part
          have less := front first List.mem_cons_self b (List.mem_append_left _ (within part here))
          exact right less below
        · rw [List.mem_singleton.mp only]
          exact front first List.mem_cons_self last (by simp)
      · rw [List.pairwise_map]
        refine (List.pairwise_flatten.mp flat).2.imp_of_mem fun one two apart => ?_
        obtain ⟨-, b, here, above⟩ := means one
        obtain ⟨⟨c, there, below⟩, -⟩ := means two
        exact right (left above (apart b here c there)) below
      · intro a average_ b only
        obtain ⟨chunk, part, rfl⟩ := List.mem_map.mp average_
        rw [List.mem_singleton.mp only]
        obtain ⟨-, c, here, above⟩ := means part
        exact left above (back c (within part here) last (by simp))

end Keys

/-! The mean of a list of numbers. -/

def mean (values : List ℚ) : ℚ := values.sum / values.length

theorem mean_among {values : List ℚ} (some_ : values ≠ []) :
    (∃ low ∈ values, low ≤ mean values) ∧ ∃ high ∈ values, mean values ≤ high := by
  have count : (0 : ℚ) < values.length := by exact_mod_cast List.length_pos_of_ne_nil some_
  have total : values.sum = (values.map fun _ => mean values).sum := by
    rw [List.map_const', List.sum_replicate, nsmul_eq_mul, mean, mul_div_cancel₀ _ count.ne']
  constructor
  · have below : (values.map id).sum ≤ (values.map fun _ => mean values).sum := by
      rw [List.map_id, ← total]
    exact List.exists_le_of_sum_le some_ _ _ below
  · have above : (values.map fun _ => mean values).sum ≤ (values.map id).sum := by
      rw [List.map_id, ← total]
    exact List.exists_le_of_sum_le some_ _ _ above

end Downsample
