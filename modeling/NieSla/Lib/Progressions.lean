import Mathlib

/-! A list of integers cut greedily into arithmetic progressions: the first two numbers that are left give the
step, and a progression goes on as long as the step stays. -/
namespace Progressions

structure Run where
  start : Int
  step : Int
  count : Nat
deriving DecidableEq

def Run.expand (run : Run) : List Int := (List.range run.count).map fun index : Nat => run.start + run.step * index

/-- How many numbers of the list go on in the step after `last`. -/
def following (step last : Int) : List Int → Nat
  | [] => 0
  | next :: rest => if next - last = step then following step next rest + 1 else 0

/-- `fuel` bounds the number of progressions. -/
def split : Nat → List Int → List Run
  | 0, _ => []
  | _, [] => []
  | _ + 1, [start] => [⟨start, 0, 1⟩]
  | fuel + 1, start :: next :: rest =>
      let more := following (next - start) next rest
      ⟨start, next - start, more + 2⟩ :: split fuel (rest.drop more)

theorem length_expand (run : Run) : run.expand.length = run.count := by simp [Run.expand]

theorem take_following (step last : Int) (list : List Int) :
    list.take (following step last list) =
      (List.range (following step last list)).map fun index : Nat => last + step * (index + 1) := by
  induction list generalizing last with
  | nil => rfl
  | cons next rest ih =>
      rw [following]
      split_ifs with same
      · have reached : next = last + step := by omega
        rw [List.take_succ_cons, ih, List.range_succ_eq_map, List.map_cons, List.map_map, List.cons.injEq]
        refine ⟨by simpa using reached, List.map_congr_left fun index _ => ?_⟩
        simp only [Function.comp_apply, reached]
        push_cast
        ring
      · rfl

theorem expand_following (start next : Int) (list : List Int) :
    (⟨start, next - start, following (next - start) next list + 2⟩ : Run).expand =
      start :: next :: list.take (following (next - start) next list) := by
  rw [take_following, Run.expand, List.range_succ_eq_map, List.map_cons, List.map_map, List.range_succ_eq_map,
    List.map_cons, List.map_map]
  simp only [Function.comp_def, List.cons.injEq]
  refine ⟨by simp, by simp, List.map_congr_left fun index _ => ?_⟩
  push_cast
  ring

/-- The progressions hold the list. -/
theorem flatMap_expand_split {fuel : Nat} {list : List Int} (enough : list.length ≤ fuel) :
    (split fuel list).flatMap Run.expand = list := by
  induction fuel, list using split.induct with
  | case1 list => rw [List.length_eq_zero_iff.mp (Nat.le_zero.mp enough)]; rfl
  | case2 fuel _ => unfold split; cases fuel <;> rfl
  | case3 fuel start => simp [split, Run.expand]
  | case4 fuel start next rest more ih =>
      have fewer : (rest.drop more).length ≤ fuel := by
        rw [List.length_drop]
        simp only [List.length_cons] at enough
        omega
      rw [split, List.flatMap_cons, expand_following, ih fewer, List.cons_append, List.cons_append,
        List.take_append_drop]

theorem sum_count_split {fuel : Nat} {list : List Int} (enough : list.length ≤ fuel) :
    ((split fuel list).map Run.count).sum = list.length := by
  rw [← congrArg List.length (flatMap_expand_split enough), List.length_flatMap]
  simp only [length_expand]

/-- A run of an increasing list is not empty, starts at one of its numbers and does not go down. -/
theorem run_of_mem_split {fuel : Nat} {list : List Int} (increasing : list.Pairwise (· < ·)) {run : Run}
    (member : run ∈ split fuel list) : 1 ≤ run.count ∧ run.start ∈ list ∧ 0 ≤ run.step := by
  induction fuel, list using split.induct with
  | case1 list => cases member
  | case2 fuel _ => cases fuel <;> cases member
  | case3 fuel start =>
      rw [split, List.mem_singleton] at member
      subst member
      simp
  | case4 fuel start next rest more ih =>
      rw [split, List.mem_cons] at member
      rcases member with rfl | later
      · have up : start < next := (List.pairwise_cons.mp increasing).1 next List.mem_cons_self
        exact ⟨Nat.le_add_left 1 _, List.mem_cons_self, Int.sub_nonneg_of_le up.le⟩
      · have tail := (List.pairwise_cons.mp (List.pairwise_cons.mp increasing).2).2
        obtain ⟨some_, inside, forward⟩ := ih (tail.sublist (List.drop_sublist _ _)) later
        exact ⟨some_, List.mem_cons_of_mem _ (List.mem_cons_of_mem _ (List.mem_of_mem_drop inside)), forward⟩

/-- The last number of a run. -/
def Run.last (run : Run) : Int := run.start + run.step * (run.count - 1)

theorem last_mem_expand {run : Run} (some_ : 1 ≤ run.count) : run.last ∈ run.expand := by
  refine List.mem_map.mpr ⟨run.count - 1, List.mem_range.mpr (by omega), ?_⟩
  rw [Run.last, Nat.cast_sub some_, Nat.cast_one]

theorem start_mem_expand {run : Run} (some_ : 1 ≤ run.count) : run.start ∈ run.expand :=
  List.mem_map.mpr ⟨0, List.mem_range.mpr some_, by simp⟩

/-- The runs of an increasing list do not overlap. -/
theorem split_apart {fuel : Nat} {list : List Int} (enough : list.length ≤ fuel)
    (increasing : list.Pairwise (· < ·)) :
    (split fuel list).Pairwise fun first second => first.last < second.start := by
  have whole := increasing
  rw [← flatMap_expand_split enough, List.pairwise_flatMap] at whole
  refine whole.2.imp_of_mem fun {first second} one two apart => ?_
  have nonempty {run : Run} (member : run ∈ split fuel list) : 1 ≤ run.count :=
    (run_of_mem_split increasing member).1
  exact apart _ (last_mem_expand (nonempty one)) _ (start_mem_expand (nonempty two))

end Progressions
