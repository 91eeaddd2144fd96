import NieSla.Lib.OrderedMap
import NieSla.ProbeHistory.Point

/-! One day of one target: points are merged by time, the later value of a time wins. -/
namespace NieSla.ProbeHistory

/-- The limit of `mergeDay`. -/
def maxDayPoints (env : Env) : Nat :=
  (clamp (configured env.probeHistoryMaxPointsPerDay 2000) 288 10000).toNat

/-- The points of the day, normalized again. -/
def dayPoints (env : Env) (day : Int) (points : List ProbePoint) : List ProbePoint :=
  points.filterMap fun point =>
    (normalizeProbePoint point.raw).filter fun point => dayFromSec point.checkedAt env = day

/-- The points of `mergeDay`. -/
def mergeDay (env : Env) (day : Int) (existing incoming : List ProbePoint) : List ProbePoint :=
  let byBucket :=
    OrderedMap.collect ProbePoint.checkedAt (dayPoints env day existing ++ dayPoints env day incoming)
  let points := byBucket.values.insertionSort fun first second => first.checkedAt ≤ second.checkedAt
  points.drop (points.length - maxDayPoints env)

/-- The point that a list of points holds for a time of the day. -/
def bucketAt (env : Env) (day : Int) (points : List ProbePoint) (ts : Int) : Option ProbePoint :=
  OrderedMap.lastBy ProbePoint.checkedAt ts (dayPoints env day points)

section Merge

variable {env : Env} {day : Int}

theorem dayPoints_eq (points : List ProbePoint) :
    dayPoints env day points =
      (points.filter fun point => dayFromSec point.checkedAt env = day).map
        ProbePoint.settled := by
  induction points with
  | nil => rfl
  | cons point rest ih =>
      unfold dayPoints at *
      rw [List.filterMap_cons, normalizeProbePoint_raw, ih]
      by_cases inside : dayFromSec point.checkedAt env = day
      · simp [Option.filter, inside]
      · simp [Option.filter, inside]

theorem dayPoints_append (first second : List ProbePoint) :
    dayPoints env day (first ++ second) = dayPoints env day first ++ dayPoints env day second :=
  List.filterMap_append

theorem mem_dayPoints {points : List ProbePoint} {point : ProbePoint} :
    point ∈ dayPoints env day points ↔
      ∃ stored ∈ points, dayFromSec stored.checkedAt env = day ∧ stored.settled = point := by
  rw [dayPoints_eq, List.mem_map]
  constructor
  · rintro ⟨stored, member, same⟩
    obtain ⟨inside, right⟩ := List.mem_filter.mp member
    exact ⟨stored, inside, of_decide_eq_true right, same⟩
  · rintro ⟨stored, inside, right, same⟩
    exact ⟨stored, List.mem_filter.mpr ⟨inside, decide_eq_true right⟩, same⟩

theorem day_of_mem_dayPoints {points : List ProbePoint} {point : ProbePoint}
    (member : point ∈ dayPoints env day points) :
    dayFromSec point.checkedAt env = day ∧ point.settled = point := by
  obtain ⟨stored, _, right, rfl⟩ := mem_dayPoints.mp member
  exact ⟨right, settled_settled stored⟩

/-- Points of a day that are normalized stay as they are. -/
theorem dayPoints_eq_self {points source : List ProbePoint}
    (normal : ∀ point ∈ points, point ∈ dayPoints env day source) :
    dayPoints env day points = points := by
  rw [dayPoints_eq, List.filter_eq_self.mpr]
  · conv_rhs => rw [← List.map_id points]
    apply List.map_congr_left
    intro point member
    exact (day_of_mem_dayPoints (normal point member)).2
  · intro point member
    exact decide_eq_true (day_of_mem_dayPoints (normal point member)).1

@[simp] theorem bucketAt_nil (ts : Int) : bucketAt env day [] ts = none := rfl

theorem bucketAt_append (first second : List ProbePoint) (ts : Int) :
    bucketAt env day (first ++ second) ts =
      (bucketAt env day second ts).or (bucketAt env day first ts) := by
  rw [bucketAt, dayPoints_append, OrderedMap.lastBy_append]
  rfl

theorem checkedAt_of_bucketAt {points : List ProbePoint} {ts : Int} {point : ProbePoint}
    (found : bucketAt env day points ts = some point) : point.checkedAt = ts :=
  OrderedMap.key_of_lastBy found

theorem mem_of_bucketAt {points : List ProbePoint} {ts : Int} {point : ProbePoint}
    (found : bucketAt env day points ts = some point) :
    ∃ stored ∈ points, stored.settled = point := by
  obtain ⟨stored, member, _, same⟩ := mem_dayPoints.mp (OrderedMap.mem_of_lastBy found)
  exact ⟨stored, member, same⟩

theorem day_of_bucketAt {points : List ProbePoint} {ts : Int} {point : ProbePoint}
    (found : bucketAt env day points ts = some point) : dayFromSec ts env = day :=
  checkedAt_of_bucketAt found ▸ (day_of_mem_dayPoints (OrderedMap.mem_of_lastBy found)).1

theorem bucketAt_ne_none {points : List ProbePoint} {point : ProbePoint} (member : point ∈ points)
    (own : dayFromSec point.checkedAt env = day) :
    bucketAt env day points point.checkedAt ≠ none := by
  intro nothing
  exact OrderedMap.lastBy_eq_none.mp nothing point.settled
    (mem_dayPoints.mpr ⟨point, member, own, rfl⟩) rfl

/-- A day holds no time of another day. -/
theorem bucketAt_of_ne {points : List ProbePoint} {ts : Int} (other : dayFromSec ts env ≠ day) :
    bucketAt env day points ts = none := by
  apply OrderedMap.lastBy_eq_none.mpr
  intro point member same
  exact other (same ▸ (day_of_mem_dayPoints member).1)

/-- For a time of the day, the point is the last one of the list. -/
theorem bucketAt_of_lastBy {points : List ProbePoint} {ts : Int} {point : ProbePoint}
    (own : dayFromSec ts env = day)
    (last : OrderedMap.lastBy ProbePoint.checkedAt ts points = some point) :
    bucketAt env day points ts = some point.settled := by
  unfold bucketAt
  induction points using List.reverseRecOn with
  | nil => cases last
  | append_singleton rest other ih =>
      rw [dayPoints_append, OrderedMap.lastBy_append]
      rw [OrderedMap.lastBy_concat] at last
      split at last
      · rename_i same
        cases last
        subst same
        simp [dayPoints_eq, own, OrderedMap.lastBy]
      · rename_i different
        have nothing : OrderedMap.lastBy ProbePoint.checkedAt ts (dayPoints env day [other]) =
            none := by
          apply OrderedMap.lastBy_eq_none.mpr
          intro stored member same
          obtain ⟨_, inside, _, rfl⟩ := mem_dayPoints.mp member
          rw [List.mem_singleton.mp inside] at same
          exact different same
        rw [nothing, Option.none_or, ih last]

/-- The times of the day's points are among the given ones. -/
def Within (env : Env) (day : Int) (buckets : Finset Int) (points : List ProbePoint) : Prop :=
  ∀ point ∈ dayPoints env day points, point.checkedAt ∈ buckets

theorem within_nil (env : Env) (day : Int) (buckets : Finset Int) : Within env day buckets [] :=
  fun _ member => absurd member List.not_mem_nil

theorem within_append {buckets : Finset Int} {first second : List ProbePoint} :
    Within env day buckets (first ++ second) ↔
      Within env day buckets first ∧ Within env day buckets second := by
  unfold Within
  rw [dayPoints_append]
  exact List.forall_mem_append

private theorem mem_collected {existing incoming : List ProbePoint} {point : ProbePoint}
    (member : point ∈ (OrderedMap.collect ProbePoint.checkedAt
      (dayPoints env day existing ++ dayPoints env day incoming)).values) :
    point ∈ dayPoints env day (existing ++ incoming) := by
  rw [dayPoints_append]
  exact OrderedMap.mem_of_lastBy (OrderedMap.mem_values_collect.mp member)

theorem mem_mergeDay {existing incoming : List ProbePoint} {point : ProbePoint}
    (member : point ∈ mergeDay env day existing incoming) :
    point ∈ dayPoints env day (existing ++ incoming) :=
  mem_collected ((List.mem_insertionSort _).mp (List.mem_of_mem_drop member))

theorem dayPoints_mergeDay (existing incoming : List ProbePoint) :
    dayPoints env day (mergeDay env day existing incoming) =
      mergeDay env day existing incoming :=
  dayPoints_eq_self fun _ member => mem_mergeDay member

theorem within_mergeDay {buckets : Finset Int} {existing incoming : List ProbePoint}
    (old : Within env day buckets existing) (new : Within env day buckets incoming) :
    Within env day buckets (mergeDay env day existing incoming) := by
  intro point member
  rw [dayPoints_mergeDay] at member
  exact within_append.mpr ⟨old, new⟩ point (mem_mergeDay member)

variable (env day) in
private theorem nodup_sorted (existing incoming : List ProbePoint) :
    (((OrderedMap.collect ProbePoint.checkedAt (dayPoints env day existing ++
      dayPoints env day incoming)).values.insertionSort fun first second =>
        first.checkedAt ≤ second.checkedAt).map ProbePoint.checkedAt).Nodup := by
  rw [((List.perm_insertionSort _ _).map _).nodup_iff]
  exact OrderedMap.nodup_values_collect _ _

theorem nodup_mergeDay (existing incoming : List ProbePoint) :
    ((mergeDay env day existing incoming).map ProbePoint.checkedAt).Nodup :=
  (nodup_sorted env day existing incoming).sublist ((List.drop_sublist _ _).map _)

/-- A merged day below the limit holds for each time the point of the later list. -/
theorem bucketAt_mergeDay {buckets : Finset Int} {existing incoming : List ProbePoint}
    (old : Within env day buckets existing) (new : Within env day buckets incoming)
    (few : buckets.card ≤ maxDayPoints env) (ts : Int) :
    bucketAt env day (mergeDay env day existing incoming) ts =
      bucketAt env day (existing ++ incoming) ts := by
  have distinct := nodup_sorted env day existing incoming
  unfold bucketAt
  rw [dayPoints_mergeDay]
  unfold mergeDay
  dsimp only
  generalize whole : OrderedMap.collect ProbePoint.checkedAt
    (dayPoints env day existing ++ dayPoints env day incoming) = byBucket at *
  have size : (byBucket.values.insertionSort fun first second =>
      first.checkedAt ≤ second.checkedAt).length ≤ maxDayPoints env := by
    rw [← List.length_map ProbePoint.checkedAt, ← List.toFinset_card_of_nodup distinct]
    refine (Finset.card_le_card fun time member => ?_).trans few
    obtain ⟨point, listed, rfl⟩ := List.mem_map.mp (List.mem_toFinset.mp member)
    subst whole
    exact within_append.mpr ⟨old, new⟩ point (mem_collected ((List.mem_insertionSort _).mp listed))
  rw [Nat.sub_eq_zero_of_le size, List.drop_zero,
    OrderedMap.lastBy_perm distinct (List.perm_insertionSort _ _), ← whole,
    OrderedMap.lastBy_values_collect, dayPoints_append]

end Merge

end NieSla.ProbeHistory
