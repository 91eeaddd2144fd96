import NieSla.Status.Summaries

/-! What a target's summaries depend on. What D1 gives for a target is a function of the target's own
rows and of whether the target itself is asked for, but a target that is not asked for still gets its
rows of `check_bucket_days`. -/
namespace NieSla.Status

open CheckBuckets
open OrderedMap (lastBy)

/-! Missed checks count in no summary. -/

theorem missed_of_mem_buildMissedPoints {env : Env} {previousAt : Option Int} {bucketAt maxMissed : Int}
    {probeRegion : String} {point : CheckPoint}
    (member : point ∈ buildMissedPoints env previousAt bucketAt probeRegion maxMissed) : point.missed = true := by
  unfold buildMissedPoints at member
  split at member
  · cases member
  · dsimp only at member
    split at member
    · cases member
    · split at member
      · cases member
      · obtain ⟨index, -, rfl⟩ := List.mem_map.mp member
        rfl

theorem countedPoints_buildOpenMissedPoints (env : Env) (previousAt now : Int) (probeRegion : String) :
    countedPoints (buildOpenMissedPoints env previousAt now probeRegion) = [] := by
  refine List.filter_eq_nil_iff.mpr fun point member => ?_
  obtain ⟨missed, inside, rfl⟩ := List.mem_map.mp member
  simp [publicDayPoint, CheckPoint.public, missed_of_mem_buildMissedPoints inside]

theorem syntheticRows_eq_nil (env : Env) (database : Database) (now startDay : Int) :
    syntheticRows env database now startDay = [] := by
  refine List.flatMap_eq_nil_iff.mpr fun row _ => ?_
  have nothing : summaryRowsFromChecks env (buildOpenMissedPoints env row.2.1 now row.2.2.1) = .empty := by
    rw [summaryRowsFromChecks, countedPoints_buildOpenMissedPoints]
    rfl
  rw [summaryRows, nothing]
  rfl

/-! The options. -/

section Options

variable {world : World} {startDay currentDay days : Int} {cached : List SummaryRow}
  {targetIds stale : List String} {targetId : String}

/-- The target is asked for. -/
def asked (targetIds : List String) (targetId : String) : Bool := targetId ≠ "" && targetIds.contains targetId

theorem mem_asked : asked targetIds targetId = true ↔ targetId ≠ "" ∧ targetId ∈ targetIds := by
  simp [asked]

theorem mem_bufferedTargetIds :
    targetId ∈ (buildSummaryFallbackOptions world startDay currentDay days cached targetIds stale).bufferedTargetIds ↔
      asked targetIds targetId = true := by
  rw [mem_asked]
  simp only [SummaryOptions.bufferedTargetIds, List.mem_dedup, List.mem_filter, List.mem_append,
    decide_eq_true_eq]
  unfold buildSummaryFallbackOptions
  dsimp only
  split
  next none_ =>
    have absent : targetId ≠ "" → targetId ∉ targetIds := by
      intro named member
      have kept : targetId ∈ (targetIds.filter fun id => id ≠ "").dedup := by simp [named, member]
      rw [none_] at kept
      cases kept
    simpa using fun named member => absent named member
  next ids =>
    have ranged : targetId ∈ (OrderedMap.group Prod.fst
        ((targetIds.filter fun id => id ≠ "").dedup.flatMap fun id =>
          (historicalRanges world startDay currentDay days cached stale id).map fun range => (range, id))).values.flatMap
            (fun members => (members.map Prod.snd).dedup) → targetId ∈ targetIds := by
      intro member
      obtain ⟨members, inside, among⟩ := List.mem_flatMap.mp member
      obtain ⟨⟨range, grouped⟩, entry, rfl⟩ := List.mem_map.mp inside
      rw [(OrderedMap.mem_group_entries entry).1, List.mem_dedup] at among
      obtain ⟨pair, kept, rfl⟩ := List.mem_map.mp among
      obtain ⟨id, source, made⟩ := List.mem_flatMap.mp (List.mem_filter.mp kept).1
      obtain ⟨_, -, rfl⟩ := List.mem_map.mp made
      exact (List.mem_filter.mp (List.mem_dedup.mp source)).1
    constructor
    · rintro ⟨(inIds | inHistorical) | inRanges, named⟩
      · exact ⟨named, (List.mem_filter.mp (List.mem_dedup.mp inIds)).1⟩
      · exact ⟨named, (List.mem_filter.mp (List.mem_dedup.mp (List.mem_filter.mp inHistorical).1)).1⟩
      · exact ⟨named, ranged inRanges⟩
    · rintro ⟨named, member⟩
      exact ⟨.inl (.inl (by simp [named, member])), named⟩

/-- The rows of `check_buckets` that the live plan reads. -/
theorem live_asked (day : Int) :
    (decide ((buildSummaryFallbackOptions world startDay currentDay days cached targetIds stale).recentFromDay.getD
        startDay ≤ day) &&
      (buildSummaryFallbackOptions world startDay currentDay days cached targetIds stale).targetIds.all fun targets =>
        targetId ≠ "" && targets.contains targetId) =
      (decide (currentDay ≤ day) && asked targetIds targetId) := by
  unfold buildSummaryFallbackOptions
  dsimp only
  split
  next none_ =>
    have absent : asked targetIds targetId = false := by
      rw [← Bool.not_eq_true, mem_asked]
      rintro ⟨named, member⟩
      have kept : targetId ∈ (targetIds.filter fun id => id ≠ "").dedup := by simp [named, member]
      rw [none_] at kept
      cases kept
    simp [absent]
  next ids =>
    by_cases named : targetId = ""
    · simp [asked, named]
    · simp [asked, named]

end Options

/-! What D1 gives for one target. -/

theorem filter_flatMap_of_nodup {α β : Type*} [DecidableEq α] {items : List α} (distinct : items.Nodup)
    {rows : α → List β} {keep : β → Bool} {item : α}
    (others : ∀ other, other ≠ item → (rows other).filter keep = []) :
    (items.flatMap rows).filter keep = if item ∈ items then (rows item).filter keep else [] := by
  induction items with
  | nil => rfl
  | cons head rest ih =>
      rw [List.nodup_cons] at distinct
      rw [List.flatMap_cons, List.filter_append, ih distinct.2]
      by_cases same : head = item
      · subst same
        simp [distinct.1]
      · rw [others head same]
        simp [Ne.symm same]

/-- The rows of two worlds that a target has in the tables of D1 and in the history. -/
structure SameRows (targetId : String) (first second : World) : Prop where
  buckets : (first.stores.checkBuckets.entries.filter fun entry => entry.1.1 = targetId) =
    second.stores.checkBuckets.entries.filter fun entry => entry.1.1 = targetId
  history : (first.stores.history.entries.filter fun entry => entry.1.1 = targetId) =
    second.stores.history.entries.filter fun entry => entry.1.1 = targetId
  days : ∀ day, first.checkBucketDays.get? (targetId, day) = second.checkBucketDays.get? (targetId, day)

section D1

variable {env : Env} {first second world : World} {targetId : String} {now startDay days day : Int}
  {cached cached' : List SummaryRow} {targetIds targetIds' stale stale' : List String}

/-- What D1 is asked for, and what it gives. -/
def d1Summary (env : Env) (world : World) (now startDay days : Int) (cached : List SummaryRow)
    (targetIds stale : List String) : OrderedMap (String × Int) Totals :=
  getCheckBucketSummaries env (database env world) now startDay
    (buildSummaryFallbackOptions world startDay (dayFromSec now env) days cached targetIds stale)

theorem get?_accumulate_of_nil {α : Type*} {key : α → String × Int} {weight : α → Totals} {items : List α}
    {start : OrderedMap (String × Int) Totals} {k : String × Int}
    (nothing : items.filter (fun item => key item = k) = []) :
    (OrderedMap.accumulate key weight items start).get? k = start.get? k := by
  have same : items.filter (fun item => key item = k) = [].filter fun item => key item = k := nothing
  exact OrderedMap.get?_accumulate_congr rfl same

/-- The live rows of a target and day. -/
theorem filter_liveRows (table : CheckBucketTable) (currentDay : Int) :
    (liveRows table startDay
        (buildSummaryFallbackOptions world startDay currentDay days cached targetIds stale)).filter
        (fun entry => (entry.1.1, entry.2.day) = (targetId, day)) =
      (table.entries.filter fun entry => entry.1.1 = targetId).filter fun entry =>
        entry.2.day = day && (decide (currentDay ≤ day) && asked targetIds targetId) := by
  rw [liveRows, List.filter_filter, List.filter_filter]
  refine List.filter_congr fun entry _ => ?_
  by_cases own : entry.1.1 = targetId
  · by_cases same : entry.2.day = day
    · subst own same
      rw [live_asked]
      simp
    · simp [own, same]
  · simp [own]

theorem get?_d1Summaries (database : Database) (options : SummaryOptions) (k : String × Int) :
    (d1Summaries env database now startDay options).get? k =
      ((liveSums database.stores.checkBuckets startDay options).get? k).or
        ((database.checkBucketDays.filter fun key _ =>
          startDay ≤ key.2 && key.2 < dayFromSec now env).get? k) := by
  have entered := OrderedMap.foldl_entries_at (liveSums database.stores.checkBuckets startDay options)
    (fun byKey entry => byKey.set entry.1 entry.2) (fun byKey key => byKey.get? key) (fun _ totals _ => some totals)
    (fun byKey entry => OrderedMap.get?_set_self _ _ _) (fun byKey entry key other => OrderedMap.get?_set_of_ne _ _ other)
    (database.checkBucketDays.filter fun key _ => startDay ≤ key.2 && key.2 < dayFromSec now env) k
  rw [d1Summaries, entered]
  cases (liveSums database.stores.checkBuckets startDay options).get? k with
  | none => rfl
  | some totals => rfl

theorem get?_checkBucketDays (table : OrderedMap (String × Int) Totals) :
    (table.filter fun key _ => startDay ≤ key.2 && key.2 < dayFromSec now env).get? (targetId, day) =
      if startDay ≤ day ∧ day < dayFromSec now env then table.get? (targetId, day) else none := by
  ext totals
  rw [OrderedMap.get?_filter]
  by_cases inside : startDay ≤ day ∧ day < dayFromSec now env
  · simp [inside]
  · rw [if_neg inside]
    simp only [Bool.and_eq_true, decide_eq_true_eq, inside, and_false, false_iff]
    exact Option.some_ne_none totals ∘ Eq.symm

/-- The rows that the probe history gives for a target. -/
theorem filter_bufferedRows (database : Database) (options : SummaryOptions) :
    (bufferedRows env database now startDay options).filter (fun row => row.1 = (targetId, day)) =
      if targetId ∈ options.bufferedTargetIds then
        (summaryRows env startDay targetId (readBufferedProbeHistory env (enabledHistory env database.stores)
          targetId (dayStartSec startDay env) now startDay (dayFromSec now env))).filter
            fun row => row.1 = (targetId, day)
      else [] := by
  refine filter_flatMap_of_nodup (List.nodup_dedup _) fun other ne => ?_
  refine List.filter_eq_nil_iff.mpr fun row member => ?_
  obtain ⟨_, -, rfl⟩ := List.mem_map.mp member
  simp [ne]

theorem readBufferedProbeHistory_congr (same : SameRows targetId first second) (since stop fromDay toDay : Int) :
    readBufferedProbeHistory env (enabledHistory env first.stores) targetId since stop fromDay toDay =
      readBufferedProbeHistory env (enabledHistory env second.stores) targetId since stop fromDay toDay := by
  have own (world : World) : (world.stores.history.entries.filter fun entry => entry.1.1 = targetId &&
      since ≤ entry.1.2 && entry.1.2 ≤ stop && fromDay ≤ dayFromSec entry.1.2 env &&
      dayFromSec entry.1.2 env ≤ toDay && dayFromSec entry.1.2 env < fromDay + dayRangeLimit) =
      (world.stores.history.entries.filter fun entry => entry.1.1 = targetId).filter fun entry =>
        since ≤ entry.1.2 && entry.1.2 ≤ stop && fromDay ≤ dayFromSec entry.1.2 env &&
          dayFromSec entry.1.2 env ≤ toDay && dayFromSec entry.1.2 env < fromDay + dayRangeLimit := by
    rw [List.filter_filter]
    refine List.filter_congr fun entry _ => ?_
    cases decide (entry.1.1 = targetId) <;> simp
  unfold enabledHistory
  split
  · simp only [readBufferedProbeHistory]
    rw [own first, own second, same.history]
  · rfl

/-- What D1 gives for a target depends on its own rows alone, where it is asked for alike. -/
theorem get?_d1Summary_congr (bound : env.databaseBound = true) (same : SameRows targetId first second)
    (alike : asked targetIds targetId = asked targetIds' targetId) :
    (d1Summary env first now startDay days cached targetIds stale).get? (targetId, day) =
      (d1Summary env second now startDay days cached' targetIds' stale').get? (targetId, day) := by
  simp only [d1Summary, getCheckBucketSummaries, bound, not_true_eq_false, if_false]
  refine OrderedMap.get?_accumulate_congr ?_ ?_
  · rw [get?_d1Summaries, get?_d1Summaries, get?_checkBucketDays, get?_checkBucketDays]
    refine congrArg₂ Option.or ?_ (by simp only [database, same.days])
    refine OrderedMap.get?_accumulate_congr rfl ?_
    rw [filter_liveRows, filter_liveRows, alike]
    exact congrArg _ same.buckets
  · rw [syntheticRows_eq_nil, syntheticRows_eq_nil, List.nil_append, List.nil_append, filter_bufferedRows,
      filter_bufferedRows]
    simp only [mem_bufferedTargetIds, alike, database, readBufferedProbeHistory_congr same]

/-- A target that is not asked for gets its summed up days. -/
theorem get?_d1Summary_of_not_asked (bound : env.databaseBound = true)
    (unasked : asked targetIds targetId = false) :
    (d1Summary env world now startDay days cached targetIds stale).get? (targetId, day) =
      if startDay ≤ day ∧ day < dayFromSec now env then world.checkBucketDays.get? (targetId, day) else none := by
  simp only [d1Summary, getCheckBucketSummaries, bound, not_true_eq_false, if_false]
  rw [syntheticRows_eq_nil, List.nil_append]
  rw [get?_accumulate_of_nil, get?_d1Summaries, get?_checkBucketDays]
  · have live : (liveSums (database env world).stores.checkBuckets startDay
        (buildSummaryFallbackOptions world startDay (dayFromSec now env) days cached targetIds stale)).get?
          (targetId, day) = none := by
      refine (get?_accumulate_of_nil ?_).trans (OrderedMap.get?_empty _)
      rw [filter_liveRows, unasked]
      simp
    rw [live, Option.none_or]
    rfl
  · rw [filter_bufferedRows, if_neg]
    rw [mem_bufferedTargetIds, unasked]
    exact Bool.false_ne_true

end D1

end NieSla.Status
