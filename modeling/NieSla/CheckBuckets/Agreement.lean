import NieSla.CheckBuckets.Gaps
import NieSla.Status.Fallback

/-! The summary of a day three times: as `getCheckBucketSummaries` has it, as the fold over the points that
`readCheckBuckets` returns, and as `readCheckBucketDaySummary` has it. -/
namespace NieSla.CheckBuckets

open ProbeHistory (PublicPoint toPublicPoint missedError)

/-- `total` and `ok_count` -/
def Totals.counts : Totals →+ ℚ × ℚ where
  toFun totals := (totals.total, totals.okCount)
  map_zero' := rfl
  map_add' _ _ := rfl

theorem Totals.counts_apply (totals : Totals) : totals.counts = (totals.total, totals.okCount) := rfl

/-- The fold over the points of a day; a missed one counts nothing. -/
def dayFold (env : Env) (day : Int) (points : List PublicPoint) : Totals :=
  summarizeCheckPoints ((points.filter fun point => dayFromSec point.checkedAt env = day).map publicDayPoint)

section Agreement

variable (env : Env) (database : Database) (now startDay : Int) (days : Nat) (target : String)
  (options : SummaryOptions) (day : Int)

/-- The three summaries of a day count alike; the last one is asked for the checks up to now. -/
structure SummariesAgree : Prop where
  shown : (((getCheckBucketSummaries env database now startDay options).get? (target, day)).getD 0).counts =
    (dayFold env day (readCheckBuckets env database.stores now target days)).counts
  summarized : (readCheckBucketDaySummary env database.stores target day (now + 1)).counts =
    (dayFold env day (readCheckBuckets env database.stores now target days)).counts

/-- The rows of `check_buckets` of a day. -/
def rowsOfDay : List ((String × Int) × CheckBucketRow) :=
  database.stores.checkBuckets.entries.filter fun entry => entry.1.1 = target && entry.2.day = day

def sumsOf (rows : List ((String × Int) × CheckBucketRow)) : Totals := (rows.map fun entry => entry.2.sums).sum

/-- The history has a point of the bucket, which is not in the future. -/
def Buffered (bucketAt : Int) : Prop :=
  bucketAt ≤ now ∧ ((enabledHistory env database.stores).get? (target, bucketAt)).isSome

instance : DecidablePred (Buffered env database now target) := fun _ => inferInstanceAs (Decidable (_ ∧ _))

/-- The rows of a day whose bucket the history does not have. -/
def unbufferedRows : List ((String × Int) × CheckBucketRow) :=
  (rowsOfDay database target day).filter fun entry => ¬ Buffered env database now target entry.1.2

/-- The row of `check_bucket_days`, which is read of the days that are over. -/
def dayRow : Totals :=
  if day < dayFromSec now env then (database.checkBucketDays.get? (target, day)).getD 0 else 0

/-- A row in the future counts nothing, and what D1 counts of the day is counted of its rows that the history does
not have: where the rows are summed up themselves, those that the history has too count nothing, and otherwise the
row of `check_bucket_days` is the sum of the others. -/
structure CountedOnce : Prop where
  future : ∀ entry ∈ rowsOfDay database target day, now < entry.1.2 → entry.2.sums.counts = 0
  once : if options.recentFromDay.getD startDay ≤ day ∧ rowsOfDay database target day ≠ [] then
      ∀ entry ∈ rowsOfDay database target day, Buffered env database now target entry.1.2 →
        entry.2.sums.counts = 0
    else (dayRow env database now target day).counts =
      (sumsOf (unbufferedRows env database now target day)).counts

/-- Rows and points as they are written: the rows with the local day of their bucket, the points under their
times. -/
structure Written (stores : Stores) : Prop where
  day : ∀ entry ∈ stores.checkBuckets.entries, entry.1.1 = target → entry.2.day = dayFromSec entry.1.2 env
  positive : ∀ entry ∈ stores.checkBuckets.entries, entry.1.1 = target → 0 < entry.1.2
  counted : ∀ entry ∈ stores.checkBuckets.entries, entry.1.1 = target → 0 ≤ entry.2.total ∧ 0 ≤ entry.2.okCount
  checkedAt : ∀ entry ∈ stores.history.entries, entry.1.1 = target → entry.2.checkedAt = entry.1.2

end Agreement

/-! What a row and a point count. -/

section Counts

variable {env : Env} {day : Int}

theorem publicTotals_of_missed {point : PublicPoint} (missed : point.missed = true) : publicTotals point = 0 := by
  simp [publicTotals, DayPoint.totals, publicDayPoint, missed]

theorem counts_dayPoint {row : CheckBucketRow} (total : 0 ≤ row.total) (okCount : 0 ≤ row.okCount) (bucketAt : Int) :
    (row.dayPoint bucketAt).totals.counts = row.sums.counts := by
  have total' : (0 : ℚ) ≤ row.total := by exact_mod_cast total
  have okCount' : (0 : ℚ) ≤ row.okCount := by exact_mod_cast okCount
  unfold DayPoint.totals CheckBucketRow.sums CheckBucketRow.dayPoint
  dsimp only
  split
  · rfl
  · rw [Totals.counts_apply, Totals.counts_apply, max_eq_right total', max_eq_right okCount']

theorem counts_public {row : CheckBucketRow} (total : 0 ≤ row.total) (okCount : 0 ≤ row.okCount) (bucketAt : Int) :
    (publicTotals (row.public bucketAt)).counts = row.sums.counts := by
  have total' : (0 : ℚ) ≤ row.total := by exact_mod_cast total
  have okCount' : (0 : ℚ) ≤ row.okCount := by exact_mod_cast okCount
  by_cases missed : missedError row.lastError = true
  · rw [publicTotals_of_missed (by simp [CheckBucketRow.public, missed]), CheckBucketRow.sums, if_pos missed]
  · by_cases none_ : row.total = 0 ∧ row.okCount = 0
    · rw [publicTotals_of_missed (by simp [CheckBucketRow.public, none_]), CheckBucketRow.sums, if_neg missed,
        Totals.counts_apply, Totals.counts_apply]
      simp [none_.1, none_.2, Totals.zero_mk]
    · have shown : (publicDayPoint (row.public bucketAt)).missed = false := by
        simp only [publicDayPoint, CheckBucketRow.public]
        grind
      rw [publicTotals, DayPoint.totals, shown, CheckBucketRow.sums, if_neg missed, Totals.counts_apply,
        Totals.counts_apply]
      simp [publicDayPoint, CheckBucketRow.public, missed, total', okCount']

theorem dayFold_eq (points : List PublicPoint) : dayFold env day points =
    ((points.filter fun point => dayFromSec point.checkedAt env = day).map publicTotals).sum := by
  rw [dayFold, summarizeCheckPoints, List.map_map]
  rfl

theorem dayFold_append (first second : List PublicPoint) :
    dayFold env day (first ++ second) = dayFold env day first + dayFold env day second := by
  simp only [dayFold_eq, List.filter_append, List.map_append, List.sum_append]

theorem dayFold_perm {first second : List PublicPoint} (same : first.Perm second) :
    dayFold env day first = dayFold env day second := by
  simp only [dayFold_eq]
  exact ((same.filter _).map _).sum_eq

theorem dayFold_of_missed {points : List PublicPoint} (missed : ∀ point ∈ points, point.missed = true) :
    dayFold env day points = 0 := by
  rw [dayFold_eq]
  refine List.sum_eq_zero fun totals member => ?_
  obtain ⟨point, inside, rfl⟩ := List.mem_map.mp member
  exact publicTotals_of_missed (missed point (List.mem_of_mem_filter inside))

theorem missed_gapPoints {first stop : Int} {region : String} :
    ∀ point ∈ gapPoints env first stop region, point.missed = true := by
  intro point member
  obtain ⟨raw, built, rfl⟩ := List.mem_map.mp member
  exact Status.missed_of_mem_buildMissedPoints built

theorem dayFold_withGaps (stored : List PublicPoint) :
    dayFold env day (withGaps env stored) = dayFold env day stored := by
  induction stored with
  | nil => rfl
  | cons previous rest ih =>
      cases rest with
      | nil => rfl
      | cons current rest =>
          rw [withGaps_cons_cons, ← List.singleton_append, dayFold_append, dayFold_append, ih,
            dayFold_of_missed missed_gapPoints, zero_add, ← dayFold_append, List.singleton_append]

theorem dayFold_readCheckBuckets {stores : Stores} {now : Int} {target : String} {days : Nat}
    (bound : env.databaseBound = true) : dayFold env day (readCheckBuckets env stores now target days) =
      dayFold env day (storedPoints env stores now target days) := by
  rw [readCheckBuckets_append bound, dayFold_append, dayFold_withGaps, tailPoints]
  split
  · exact add_zero _
  · rw [dayFold_of_missed missed_gapPoints, add_zero]

end Counts

/-! The history of a day. -/

section History

variable {env : Env} {now day since fromDay toDay : Int} {target : String} {history : History}

/-- The points of a target stand under their times. -/
def Keyed (target : String) (history : History) : Prop :=
  ∀ entry ∈ history.entries, entry.1.1 = target → entry.2.checkedAt = entry.1.2

/-- The range has the whole day. -/
structure Covers (env : Env) (day since fromDay toDay : Int) : Prop where
  start : since ≤ dayStartSec day env
  after : fromDay ≤ day
  before : day ≤ toDay
  limit : day < fromDay + dayRangeLimit

theorem Covers.since_le (covers : Covers env day since fromDay toDay) {at_ : Int} (here : dayFromSec at_ env = day) :
    since ≤ at_ :=
  covers.start.trans (dayFromSec_eq_iff.mp here).1

/-- What the points of a day count that are not in the future. -/
def historyFold (env : Env) (target : String) (now day : Int) (history : History) : Totals :=
  ((history.entries.filter fun entry =>
      entry.1.1 = target && entry.1.2 ≤ now && dayFromSec entry.1.2 env = day).map
    fun entry => publicTotals (toPublicPoint entry.2)).sum

theorem mem_buffered {point : PublicPoint} :
    point ∈ readBufferedProbeHistory env history target since now fromDay toDay ↔
      ∃ entry ∈ history.entries, (entry.1.1 = target ∧ since ≤ entry.1.2 ∧ entry.1.2 ≤ now ∧
        fromDay ≤ dayFromSec entry.1.2 env ∧ dayFromSec entry.1.2 env ≤ toDay ∧
          dayFromSec entry.1.2 env < fromDay + dayRangeLimit) ∧ toPublicPoint entry.2 = point := by
  unfold readBufferedProbeHistory
  rw [(List.perm_insertionSort _ _).mem_iff, List.mem_map]
  simp only [List.mem_filter, Bool.and_eq_true, decide_eq_true_eq, and_assoc]

theorem dayFold_buffered (keyed : Keyed target history) (covers : Covers env day since fromDay toDay) :
    dayFold env day (readBufferedProbeHistory env history target since now fromDay toDay) =
      historyFold env target now day history := by
  unfold readBufferedProbeHistory historyFold
  rw [dayFold_perm (List.perm_insertionSort _ _), dayFold_eq, List.filter_map, List.map_map, List.filter_filter]
  refine congrArg List.sum (congrArg (List.map _) (List.filter_congr fun entry member => ?_))
  have same : (toPublicPoint entry.2).checkedAt = entry.2.checkedAt := rfl
  by_cases own : entry.1.1 = target
  · rw [Function.comp_apply, same, keyed entry member own]
    by_cases here : dayFromSec entry.1.2 env = day
    · have start := covers.since_le here
      simp [own, here, start, covers.after, covers.before, covers.limit]
    · simp [here]
  · simp [own]

theorem mem_times_buffered (keyed : Keyed target history) (covers : Covers env day since fromDay toDay)
    {bucketAt : Int} (here : dayFromSec bucketAt env = day) :
    bucketAt ∈ (readBufferedProbeHistory env history target since now fromDay toDay).map PublicPoint.checkedAt ↔
      bucketAt ≤ now ∧ (history.get? (target, bucketAt)).isSome := by
  rw [List.mem_map]
  constructor
  · rintro ⟨point, member, rfl⟩
    obtain ⟨entry, among, ⟨own, -, past, -⟩, rfl⟩ := mem_buffered.mp member
    have at_ : (toPublicPoint entry.2).checkedAt = entry.1.2 := keyed entry among own
    have under : entry.1 = (target, (toPublicPoint entry.2).checkedAt) := Prod.ext own at_.symm
    exact ⟨at_ ▸ past, Option.isSome_iff_exists.mpr ⟨entry.2, OrderedMap.get?_eq_some.mpr (under ▸ among)⟩⟩
  · rintro ⟨past, present⟩
    obtain ⟨stored, found⟩ := Option.isSome_iff_exists.mp present
    have among := OrderedMap.get?_eq_some.mp found
    refine ⟨toPublicPoint stored, mem_buffered.mpr ⟨_, among, ⟨rfl, covers.since_le here, past, ?_⟩, rfl⟩,
      keyed _ among rfl⟩
    exact here ▸ ⟨covers.after, covers.before, covers.limit⟩

theorem nodup_times_buffered (keyed : Keyed target history) :
    ((readBufferedProbeHistory env history target since now fromDay toDay).map PublicPoint.checkedAt).Nodup := by
  unfold readBufferedProbeHistory
  rw [((List.perm_insertionSort _ _).map _).nodup_iff, List.map_map]
  refine List.Nodup.of_map (Prod.mk target) ?_
  rw [List.map_map]
  refine Eq.mp (congrArg List.Nodup (List.map_congr_left fun entry member => ?_))
    (history.nodup_keys.sublist (List.filter_sublist.map Prod.fst))
  have own : entry.1.1 = target := by
    have kept := (List.mem_filter.mp member).2
    simp only [Bool.and_eq_true, decide_eq_true_eq] at kept
    exact kept.1.1.1.1.1
  exact Prod.ext own (keyed entry (List.mem_of_mem_filter member) own).symm

end History

/-! The points that are shown of a day. -/

section Stored

variable {env : Env} {database : Database} {now day : Int} {target : String}

theorem Written.keyed (written : Written env target database.stores) :
    Keyed target (enabledHistory env database.stores) := by
  unfold enabledHistory
  split
  · exact written.checkedAt
  · intro entry member
    cases member

theorem counts_sumsOf (rows : List ((String × Int) × CheckBucketRow)) :
    (sumsOf rows).counts = (rows.map fun entry => entry.2.sums.counts).sum := by
  rw [sumsOf, map_list_sum, List.map_map]
  rfl

/-- The rows of the day without a time of the history. -/
theorem filter_unbuffered {times : List Int} {keep : (String × Int) × CheckBucketRow → Bool}
    (inside : ∀ entry ∈ rowsOfDay database target day, entry.1.2 ∈ times ↔ Buffered env database now target entry.1.2)
    (kept : ∀ entry ∈ database.stores.checkBuckets.entries,
      keep entry = true ↔ entry ∈ rowsOfDay database target day ∧ entry.1.2 ∉ times) :
    database.stores.checkBuckets.entries.filter keep = unbufferedRows env database now target day := by
  rw [unbufferedRows, rowsOfDay, List.filter_filter]
  refine List.filter_congr fun entry member => Bool.eq_iff_iff.mpr ((kept entry member).trans ?_)
  constructor
  · rintro ⟨here, outside⟩
    have both := (List.mem_filter.mp here).2
    simpa [both] using fun buffered => outside ((inside entry here).mpr buffered)
  · intro both
    simp only [Bool.and_eq_true, decide_eq_true_eq] at both
    have here : entry ∈ rowsOfDay database target day := List.mem_filter.mpr ⟨member, by simpa using both.2⟩
    exact ⟨here, fun among => by simpa using both.1 ((inside entry here).mp among)⟩

theorem Written.mem_rowsOfDay (written : Written env target database.stores)
    {entry : (String × Int) × CheckBucketRow} (member : entry ∈ database.stores.checkBuckets.entries) :
    entry ∈ rowsOfDay database target day ↔ entry.1.1 = target ∧ dayFromSec entry.1.2 env = day := by
  rw [rowsOfDay, List.mem_filter, Bool.and_eq_true, decide_eq_true_eq, decide_eq_true_eq]
  constructor
  · rintro ⟨-, own, here⟩
    exact ⟨own, written.day entry member own ▸ here⟩
  · rintro ⟨own, here⟩
    exact ⟨member, own, (written.day entry member own).trans here⟩

theorem Written.of_mem_rowsOfDay (written : Written env target database.stores)
    {entry : (String × Int) × CheckBucketRow} (here : entry ∈ rowsOfDay database target day) :
    dayFromSec entry.1.2 env = day :=
  ((written.mem_rowsOfDay (List.mem_of_mem_filter here)).mp here).2

theorem Written.counts_eq (written : Written env target database.stores)
    {rows : List ((String × Int) × CheckBucketRow)} (part : rows.Sublist (rowsOfDay database target day))
    {f : (String × Int) × CheckBucketRow → Totals}
    (same : ∀ entry, 0 ≤ entry.2.total → 0 ≤ entry.2.okCount → (f entry).counts = entry.2.sums.counts) :
    (rows.map fun entry => (f entry).counts).sum = (sumsOf rows).counts := by
  rw [counts_sumsOf]
  refine congrArg List.sum (List.map_congr_left fun entry member => ?_)
  have here := part.subset member
  have among := List.mem_of_mem_filter here
  obtain ⟨total, okCount⟩ := written.counted entry among ((written.mem_rowsOfDay among).mp here).1
  exact same entry total okCount

theorem nodup_times_rows (keep : (String × Int) × CheckBucketRow → Bool) :
    ((database.stores.checkBuckets.entries.filter fun entry => entry.1.1 = target && keep entry).map
      fun entry => entry.1.2).Nodup := by
  refine List.Nodup.of_map (Prod.mk target) ?_
  rw [List.map_map]
  refine Eq.mp (congrArg List.Nodup (List.map_congr_left fun entry member => ?_))
    (database.stores.checkBuckets.nodup_keys.sublist (List.filter_sublist.map Prod.fst))
  have kept := (List.mem_filter.mp member).2
  simp only [Bool.and_eq_true, decide_eq_true_eq] at kept
  exact Prod.ext kept.1 rfl

theorem counts_dayFold_storedPoints {days : Nat} (written : Written env target database.stores)
    (covers : Covers env day (now - days * 86400) (dayFromSec (now - days * 86400) env)
      (dayFromSec now env)) :
    (dayFold env day (storedPoints env database.stores now target days)).counts =
      (sumsOf (unbufferedRows env database now target day)).counts +
        (historyFold env target now day (enabledHistory env database.stores)).counts := by
  have keyed := written.keyed
  have distinct : ((((database.stores.checkBuckets.entries.filter fun entry =>
      entry.1.1 = target && now - days * 86400 ≤ entry.1.2).map fun entry => entry.2.public entry.1.2).filter
        fun point => 0 < point.checkedAt).map PublicPoint.checkedAt).Nodup := by
    refine List.Nodup.sublist (List.filter_sublist.map _) ?_
    rw [List.map_map]
    exact nodup_times_rows _
  unfold storedPoints
  rw [dayFold_perm (List.perm_insertionSort _ _),
    dayFold_perm (OrderedMap.perm_values_collect_append distinct (nodup_times_buffered keyed)), dayFold_append,
    dayFold_buffered keyed covers, map_add, dayFold_eq, map_list_sum]
  refine congrArg (· + _) ?_
  simp only [List.filter_map, List.filter_filter, List.map_map]
  have times (entry : (String × Int) × CheckBucketRow) (here : entry ∈ rowsOfDay database target day) :
      entry.1.2 ∈ (readBufferedProbeHistory env (enabledHistory env database.stores) target (now - days * 86400) now
          (dayFromSec (now - days * 86400) env) (dayFromSec now env)).map PublicPoint.checkedAt ↔
        Buffered env database now target entry.1.2 := by
    exact mem_times_buffered keyed covers (written.of_mem_rowsOfDay here)
  rw [filter_unbuffered times fun entry member => ?_]
  · exact written.counts_eq List.filter_sublist fun entry total okCount => counts_public total okCount entry.1.2
  · have at_ : (entry.2.public entry.1.2).checkedAt = entry.1.2 := rfl
    simp only [Function.comp_apply, at_, Bool.and_eq_true, decide_eq_true_eq, written.mem_rowsOfDay member]
    constructor
    · rintro ⟨same, outside, -, own, -⟩
      exact ⟨⟨own, same⟩, outside⟩
    · rintro ⟨⟨own, same⟩, outside⟩
      exact ⟨same, outside, written.positive entry member own, own, covers.since_le same⟩

theorem covers_day : Covers env day (dayStartSec day env) day day where
  start := le_refl _
  after := le_refl _
  before := le_refl _
  limit := by
    unfold dayRangeLimit
    omega

/-- The rows of a day up to now whose bucket the history does not have. -/
def pastRows (env : Env) (database : Database) (now : Int) (target : String) (day : Int) :
    List ((String × Int) × CheckBucketRow) :=
  (unbufferedRows env database now target day).filter fun entry => entry.1.2 ≤ now

theorem counts_readCheckBucketDaySummary (bound : env.databaseBound = true)
    (written : Written env target database.stores) :
    (readCheckBucketDaySummary env database.stores target day (now + 1)).counts =
      (sumsOf (pastRows env database now target day)).counts +
        (historyFold env target now day (enabledHistory env database.stores)).counts := by
  have rows : dayRows database.stores.checkBuckets target day (now + 1) =
      (rowsOfDay database target day).filter fun entry => entry.1.2 ≤ now := by
    rw [dayRows, rowsOfDay, List.filter_filter]
    refine List.filter_congr fun entry _ => ?_
    rw [Bool.and_comm]
    exact congrArg (· && _) (decide_eq_decide.mpr Int.lt_add_one_iff)
  unfold readCheckBucketDaySummary
  rw [if_neg (not_not.mpr bound), rows, add_sub_cancel_right]
  by_cases enabled : env.probeHistoryEnabled = true
  · have same : enabledHistory env database.stores = database.stores.history := if_pos enabled
    have keyed := written.checkedAt
    have covers : Covers env day (dayStartSec day env) day day := covers_day
    rw [same]
    dsimp only
    rw [if_pos enabled]
    have rowTimes : ((((rowsOfDay database target day).filter fun entry => entry.1.2 ≤ now).map
        fun entry => entry.2.dayPoint entry.1.2).map DayPoint.checkedAt).Nodup := by
      rw [List.map_map]
      exact (nodup_times_rows _).sublist (List.filter_sublist.map _)
    have pointTimes : (((readBufferedProbeHistory env database.stores.history target (dayStartSec day env)
        now day day).map publicDayPoint).map DayPoint.checkedAt).Nodup := by
      rw [List.map_map]
      exact nodup_times_buffered keyed
    have whole : dayFold env day (readBufferedProbeHistory env database.stores.history target (dayStartSec day env)
        now day day) = (((readBufferedProbeHistory env database.stores.history target
          (dayStartSec day env) now day day).map publicDayPoint).map DayPoint.totals).sum := by
      rw [dayFold, List.filter_eq_self.mpr fun point member => ?_]
      · rfl
      · obtain ⟨entry, among, ⟨own, -, -, lower, upper, -⟩, rfl⟩ := mem_buffered.mp member
        have at_ : (toPublicPoint entry.2).checkedAt = entry.1.2 := keyed entry among own
        rw [at_]
        exact decide_eq_true (le_antisymm upper lower)
    rw [summarizeCheckPoints, ((OrderedMap.perm_values_collect_append rowTimes pointTimes).map _).sum_eq,
      List.map_append, List.sum_append, map_add, ← whole, dayFold_buffered keyed covers, map_list_sum,
      List.filter_map, List.map_map, List.map_map]
    refine congrArg (· + _) ?_
    have kept : ((rowsOfDay database target day).filter fun entry => entry.1.2 ≤ now).filter
        ((fun item : DayPoint => decide (item.checkedAt ∉
          ((readBufferedProbeHistory env database.stores.history target (dayStartSec day env)
            now day day).map publicDayPoint).map DayPoint.checkedAt)) ∘
              fun entry => entry.2.dayPoint entry.1.2) = pastRows env database now target day := by
      rw [pastRows, unbufferedRows, List.filter_comm]
      refine congrArg _ (List.filter_congr fun entry here => ?_)
      have times : entry.1.2 ∈ (readBufferedProbeHistory env database.stores.history target (dayStartSec day env)
          now day day).map PublicPoint.checkedAt ↔ _ :=
        mem_times_buffered keyed covers (written.of_mem_rowsOfDay here)
      rw [List.map_map]
      exact decide_eq_decide.mpr (not_congr (by rw [Buffered, same]; exact times))
    rw [kept]
    exact written.counts_eq (List.filter_sublist.trans List.filter_sublist)
      fun entry total okCount => counts_dayPoint total okCount entry.1.2
  · have none_ : enabledHistory env database.stores = .empty := if_neg enabled
    dsimp only
    rw [if_neg enabled, none_]
    have all : unbufferedRows env database now target day = rowsOfDay database target day := by
      refine List.filter_eq_self.mpr fun entry _ => decide_eq_true ?_
      rw [Buffered, none_]
      exact fun both => Bool.false_ne_true both.2
    have empty : historyFold env target now day .empty = 0 := rfl
    rw [pastRows, all, empty, map_zero, add_zero]
    rfl

end Stored

/-! What `getCheckBucketSummaries` has of a day. -/

section Summaries

variable {env : Env} {database : Database} {now startDay day : Int} {target : String} {options : SummaryOptions}

theorem sum_summaryRows (points : List PublicPoint) (inside : startDay ≤ day) :
    (((summaryRows env startDay target points).filter fun row => row.1 = (target, day)).map Prod.snd).sum =
      dayFold env day points := by
  have counted : ((summaryRowsFromChecks env points).get? day).getD 0 = dayFold env day points := by
    rw [summaryRowsFromChecks, OrderedMap.getD_accumulate, OrderedMap.get?_empty, Option.getD_none, zero_add,
      dayFold_eq, countedPoints, List.filter_filter, OrderedMap.sum_filter_map, OrderedMap.sum_filter_map]
    refine congrArg List.sum (List.map_congr_left fun point _ => ?_)
    by_cases missed : (publicDayPoint point).missed = true
    · simp [missed, publicTotals, DayPoint.totals]
    · simp [missed]
  rw [← counted, ← OrderedMap.sum_entries, summaryRows, List.filter_map, List.map_map, List.filter_filter,
    OrderedMap.sum_filter_map]
  refine congrArg List.sum (List.map_congr_left fun row _ => ?_)
  by_cases same : row.1 = day
  · simp [same, inside]
  · simp [same]

theorem covers_summaries (inside : startDay ≤ day) (past : day ≤ dayFromSec now env)
    (limit : dayFromSec now env < startDay + dayRangeLimit) :
    Covers env day (dayStartSec startDay env) startDay (dayFromSec now env) where
  start := by
    unfold dayStartSec
    omega
  after := inside
  before := past
  limit := past.trans_lt limit

theorem filter_liveRows_asked (asked : target ∈ options.targetIds.getD []) (named : target ≠ "") :
    ((liveRows database.stores.checkBuckets startDay options).filter
        fun entry => (entry.1.1, entry.2.day) = (target, day)) =
      if options.recentFromDay.getD startDay ≤ day then rowsOfDay database target day else [] := by
  have listed : options.targetIds.all (fun targets => target ≠ "" && targets.contains target) = true := by
    cases given : options.targetIds with
    | none =>
        rw [given] at asked
        cases asked
    | some targets =>
        rw [given] at asked
        simpa [named] using asked
  rw [liveRows, List.filter_filter]
  split
  next live =>
    refine List.filter_congr fun entry _ => ?_
    by_cases own : entry.1.1 = target
    · by_cases here : entry.2.day = day
      · subst own here
        simpa [live] using listed
      · simp [here]
    · simp [own]
  next old =>
    refine List.filter_eq_nil_iff.mpr fun entry _ => ?_
    by_cases here : entry.2.day = day
    · simp [here, old]
    · simp [here]

/-- What D1 gives for a day. -/
theorem getD_d1Summaries (asked : target ∈ options.targetIds.getD []) (named : target ≠ "")
    (inside : startDay ≤ day) :
    ((d1Summaries env database now startDay options).get? (target, day)).getD 0 =
      if options.recentFromDay.getD startDay ≤ day ∧ rowsOfDay database target day ≠ [] then
        sumsOf (rowsOfDay database target day)
      else dayRow env database now target day := by
  have live : ((liveSums database.stores.checkBuckets startDay options).get? (target, day)).getD 0 =
      sumsOf (if options.recentFromDay.getD startDay ≤ day then rowsOfDay database target day else []) := by
    rw [liveSums, OrderedMap.getD_accumulate, filter_liveRows_asked asked named]
    exact zero_add _
  have present : ((liveSums database.stores.checkBuckets startDay options).get? (target, day)).isSome ↔
      options.recentFromDay.getD startDay ≤ day ∧ rowsOfDay database target day ≠ [] := by
    have rows := @filter_liveRows_asked database startDay day target options asked named
    rw [liveSums, OrderedMap.isSome_accumulate]
    have member : (∃ entry ∈ liveRows database.stores.checkBuckets startDay options,
        (entry.1.1, entry.2.day) = (target, day)) ↔ (liveRows database.stores.checkBuckets startDay options).filter
          (fun entry => (entry.1.1, entry.2.day) = (target, day)) ≠ [] := by
      simp [List.filter_eq_nil_iff]
    rw [member, rows, OrderedMap.get?_empty]
    by_cases live : options.recentFromDay.getD startDay ≤ day <;> simp [live]
  rw [Status.get?_d1Summaries, Status.get?_checkBucketDays]
  by_cases both : options.recentFromDay.getD startDay ≤ day ∧ rowsOfDay database target day ≠ []
  · obtain ⟨totals, found⟩ := Option.isSome_iff_exists.mp (present.mpr both)
    rw [if_pos both, found, Option.some_or, ← found, live, if_pos both.1]
  · have absent := Option.not_isSome_iff_eq_none.mp (mt present.mp both)
    rw [if_neg both, absent, Option.none_or, dayRow]
    by_cases over_ : day < dayFromSec now env
    · rw [if_pos ⟨inside, over_⟩, if_pos over_]
    · rw [if_neg (fun range => over_ range.2), if_neg over_]
      rfl

theorem getD_getCheckBucketSummaries (bound : env.databaseBound = true)
    (written : Written env target database.stores) (asked : target ∈ options.targetIds.getD [])
    (named : target ≠ "") (inside : startDay ≤ day) (past : day ≤ dayFromSec now env)
    (limit : dayFromSec now env < startDay + dayRangeLimit) :
    ((getCheckBucketSummaries env database now startDay options).get? (target, day)).getD 0 =
      ((d1Summaries env database now startDay options).get? (target, day)).getD 0 +
        historyFold env target now day (enabledHistory env database.stores) := by
  have buffered : target ∈ options.bufferedTargetIds := by
    simp [SummaryOptions.bufferedTargetIds, asked, named]
  rw [getCheckBucketSummaries, if_neg (not_not.mpr bound), OrderedMap.getD_accumulate,
    Status.syntheticRows_eq_nil, List.nil_append, Status.filter_bufferedRows, if_pos buffered,
    sum_summaryRows _ inside, dayFold_buffered written.keyed (covers_summaries inside past limit)]

end Summaries

section Agreement

variable {env : Env} {database : Database} {now startDay day : Int} {target : String} {options : SummaryOptions}

theorem counts_nonneg {row : CheckBucketRow} (total : 0 ≤ row.total) (okCount : 0 ≤ row.okCount) :
    0 ≤ row.sums.counts := by
  unfold CheckBucketRow.sums
  split
  · exact le_refl 0
  · have total' : (0 : ℚ) ≤ row.total := by exact_mod_cast total
    have okCount' : (0 : ℚ) ≤ row.okCount := by exact_mod_cast okCount
    exact ⟨total', okCount'⟩

/-- Rows of a day count what a part of them counts, just where the others count nothing. -/
theorem counts_filter_iff (written : Written env target database.stores)
    {rows : List ((String × Int) × CheckBucketRow)} (part : rows.Sublist (rowsOfDay database target day))
    (keep : (String × Int) × CheckBucketRow → Bool) :
    (sumsOf rows).counts = (sumsOf (rows.filter keep)).counts ↔
      ∀ entry ∈ rows, keep entry = false → entry.2.sums.counts = 0 := by
  have parted := (List.filter_append_perm keep rows).map fun entry => entry.2.sums.counts
  rw [counts_sumsOf, ← parted.sum_eq, List.map_append, List.sum_append, counts_sumsOf, add_eq_left]
  have nonneg : ∀ counts ∈ (rows.filter fun entry => !keep entry).map fun entry => entry.2.sums.counts,
      0 ≤ counts := by
    intro counts member
    obtain ⟨entry, kept, rfl⟩ := List.mem_map.mp member
    have here := part.subset (List.mem_of_mem_filter kept)
    have among := List.mem_of_mem_filter here
    obtain ⟨total, okCount⟩ := written.counted entry among ((written.mem_rowsOfDay among).mp here).1
    exact counts_nonneg total okCount
  constructor
  · intro zero entry here dropped
    refine List.all_zero_of_le_zero_le_of_sum_eq_zero nonneg zero (List.mem_map_of_mem (List.mem_filter.mpr ⟨here, ?_⟩))
    simpa using dropped
  · intro nothing
    refine List.sum_eq_zero fun counts member => ?_
    obtain ⟨entry, kept, rfl⟩ := List.mem_map.mp member
    obtain ⟨here, dropped⟩ := List.mem_filter.mp kept
    exact nothing entry here (by simpa using dropped)

theorem counts_rowsOfDay_iff (written : Written env target database.stores) :
    (sumsOf (rowsOfDay database target day)).counts =
        (sumsOf (unbufferedRows env database now target day)).counts ↔
      ∀ entry ∈ rowsOfDay database target day, Buffered env database now target entry.1.2 →
        entry.2.sums.counts = 0 := by
  rw [unbufferedRows, counts_filter_iff written (List.Sublist.refl _)]
  simp only [decide_not, Bool.not_eq_false', decide_eq_true_eq]

theorem counts_pastRows_iff (written : Written env target database.stores) :
    (sumsOf (pastRows env database now target day)).counts =
        (sumsOf (unbufferedRows env database now target day)).counts ↔
      ∀ entry ∈ rowsOfDay database target day, now < entry.1.2 → entry.2.sums.counts = 0 := by
  have part : (unbufferedRows env database now target day).Sublist (rowsOfDay database target day) :=
    List.filter_sublist
  rw [eq_comm, pastRows, counts_filter_iff written part]
  refine forall_congr' fun entry => ?_
  rw [unbufferedRows, List.mem_filter, decide_eq_false_iff_not, not_le]
  constructor
  · intro nothing here later
    exact nothing ⟨here, decide_eq_true fun buffered => absurd buffered.1 (not_le.mpr later)⟩ later
  · intro nothing here later
    exact nothing here.1 later

end Agreement

/-- The three summaries of each day count alike exactly when D1 counts a bucket only where the history does not have
it. -/
theorem summariesAgree_iff (env : Env) (database : Database) (now startDay : Int) (days : Nat) (target : String)
    (options : SummaryOptions) (bound : env.databaseBound = true)
    (written : Written env target database.stores) (asked : target ∈ options.targetIds.getD [])
    (named : target ≠ "") (few : days < 90) (window : now - days * 86400 ≤ dayStartSec startDay env) :
    (∀ day, startDay ≤ day → day ≤ dayFromSec now env →
        SummariesAgree env database now startDay days target options day) ↔
      ∀ day, startDay ≤ day → day ≤ dayFromSec now env →
        CountedOnce env database now startDay target options day := by
  have first : dayFromSec now env - days ≤ startDay := by
    rw [← dayFromSec_sub_days]
    unfold dayFromSec
    unfold dayStartSec at window
    omega
  refine forall_congr' fun day => imp_congr_right fun inside => imp_congr_right fun past => ?_
  have covers : Covers env day (now - days * 86400) (dayFromSec (now - days * 86400) env) (dayFromSec now env) := by
    rw [dayFromSec_sub_days]
    refine ⟨?_, first.trans inside, past, ?_⟩
    · unfold dayStartSec at *
      omega
    · unfold dayRangeLimit
      omega
  have limit : dayFromSec now env < startDay + dayRangeLimit := by
    unfold dayRangeLimit
    omega
  have points : (dayFold env day (readCheckBuckets env database.stores now target days)).counts =
      (sumsOf (unbufferedRows env database now target day)).counts +
        (historyFold env target now day (enabledHistory env database.stores)).counts := by
    rw [dayFold_readCheckBuckets bound, counts_dayFold_storedPoints written covers]
  have summary := getD_getCheckBucketSummaries bound written asked named inside past limit
  have shown : (((getCheckBucketSummaries env database now startDay options).get? (target, day)).getD 0).counts =
      (dayFold env day (readCheckBuckets env database.stores now target days)).counts ↔
        if options.recentFromDay.getD startDay ≤ day ∧ rowsOfDay database target day ≠ [] then
          ∀ entry ∈ rowsOfDay database target day, Buffered env database now target entry.1.2 →
            entry.2.sums.counts = 0
        else (dayRow env database now target day).counts =
          (sumsOf (unbufferedRows env database now target day)).counts := by
    rw [summary, points, map_add, getD_d1Summaries asked named inside, add_left_inj]
    split
    · exact counts_rowsOfDay_iff written
    · rfl
  have summarized : (readCheckBucketDaySummary env database.stores target day (now + 1)).counts =
      (dayFold env day (readCheckBuckets env database.stores now target days)).counts ↔
        ∀ entry ∈ rowsOfDay database target day, now < entry.1.2 → entry.2.sums.counts = 0 := by
    rw [counts_readCheckBucketDaySummary bound written, points, add_left_inj]
    exact counts_pastRows_iff written
  constructor
  · intro agree
    exact ⟨summarized.mp agree.summarized, shown.mp agree.shown⟩
  · intro counted
    exact ⟨shown.mpr counted.once, summarized.mpr counted.future⟩

/-! One target with two checks of a day. -/

def goodCheck (checkedAt : Int) : CheckPoint := { checkedAt, ok := true, okCount := 1 }

/-- The rows of `check_buckets` and the history after checks are written to each of them. -/
def stored (rows buffered : List Int) : Database where
  stores :=
    { checkBuckets := rows.foldl (fun table at_ => table.set ("web", at_) (checkBucketRow 0 (goodCheck at_))) .empty
      history := appendBufferedProbeHistory "web" .empty (buffered.map goodCheck) }
  checkBucketDays := .empty
  latest := []

def forWeb : SummaryOptions := { targetIds := some ["web"], recentFromDay := some 0 }

theorem written_apart : Written {} "web" (stored [300] [600]).stores where
  day := by decide +kernel
  positive := by decide +kernel
  counted := by decide +kernel
  checkedAt := by decide +kernel

theorem written_both : Written {} "web" (stored [300] [300]).stores where
  day := by decide +kernel
  positive := by decide +kernel
  counted := by decide +kernel
  checkedAt := by decide +kernel

/-- Rows from before the switch to the history are not counted twice. -/
theorem summariesAgree_migrated : SummariesAgree {} (stored [300] [600]) 1000 0 1 "web" forWeb 0 := by
  have today : dayFromSec 1000 {} = 0 := by decide +kernel
  refine (summariesAgree_iff {} (stored [300] [600]) 1000 0 1 "web" forWeb rfl written_apart (by decide) (by decide)
    (by decide) (by decide +kernel)).mpr (fun day inside past => ?_) 0 (le_refl 0) (le_of_eq today.symm)
  obtain rfl : day = 0 := le_antisymm (today ▸ past) inside
  exact ⟨by decide +kernel, by decide +kernel⟩

/-- A check that is written to D1 after its append has failed, and is in the history all the same, is counted
twice. -/
theorem bucket_in_both_stores_counts_twice : Written {} "web" (stored [300] [300]).stores ∧
    ¬ SummariesAgree {} (stored [300] [300]) 1000 0 1 "web" forWeb 0 := by
  refine ⟨written_both, fun agree => ?_⟩
  have shown := agree.shown
  revert shown
  decide +kernel

end NieSla.CheckBuckets
