import NieSla.CheckBuckets.Saved
import NieSla.Lib.Sums
import NieSla.Lib.Runs

/-! When the summary of a day is the fold over its buckets. -/
namespace NieSla.CheckBuckets

open Probe (Result errorText orNullText)
open ProbeHistory (missedPhrase missedError normalizeProbePoint)

/-! Buckets. -/

theorem bucketOf_le (sec : Int) : bucketOf sec ≤ sec := by
  unfold bucketOf bucketSec
  omega

theorem bucketOf_mono {first second : Int} (le : first ≤ second) :
    bucketOf first ≤ bucketOf second := by
  unfold bucketOf bucketSec
  omega

@[simp] theorem bucketOf_bucketOf (sec : Int) : bucketOf (bucketOf sec) = bucketOf sec := by
  unfold bucketOf bucketSec
  omega

theorem bucketOf_pos (clock : Clock) : 0 < bucketOf clock.sec := by
  have := clock.running
  unfold bucketOf
  unfold bucketSec at *
  omega

/-! The points that a call stores. -/

/-- What the points of `saveCheck` have in common. -/
structure Saved (point : CheckPoint) : Prop where
  checkedAt : 0 < point.checkedAt
  total : point.total = 1
  okCount : point.okCount = if point.ok then 1 else 0
  error : point.error.map (cut 500) = point.error
  missed : point.missed = true → missedError point.error = true

theorem Saved.isMissed_eq {point : CheckPoint} (saved : Saved point) :
    point.isMissedMonitorPoint = missedError point.error := by
  unfold CheckPoint.isMissedMonitorPoint
  cases missed : point.missed with
  | false => rfl
  | true => rw [saved.missed missed, Bool.true_or]

theorem errorText_cut (error : Option String) :
    (errorText error).map (cut 500) = errorText error := by
  simp [errorText, Option.map_map, Function.comp_def]

theorem saved_checkPoint (target : Probe.Target) (clock : Clock) (result : Result) :
    Saved (checkPoint target clock.sec result) where
  checkedAt := bucketOf_pos clock
  total := rfl
  okCount := rfl
  error := errorText_cut result.error
  missed := fun missed => absurd missed Bool.false_ne_true

theorem missedError_missedPhrase : missedError (some missedPhrase) = true := by
  decide +kernel

theorem cut_missedPhrase : cut 500 missedPhrase = missedPhrase := by
  decide +kernel

/-- The missed points stand in the buckets after `previousAt` and before the new one, on its day. -/
structure Missed (env : Env) (previousAt bucketAt : Int) (point : CheckPoint) : Prop where
  saved : Saved point
  missed : point.isMissedMonitorPoint = true
  after : bucketOf previousAt < point.checkedAt
  before : point.checkedAt < bucketAt
  day : dayFromSec point.checkedAt env = dayFromSec bucketAt env

theorem mem_buildMissedPoints {env : Env} {previousAt : Option Int} {bucketAt : Int}
    {probeRegion : String} {maxMissed : Int} {point : CheckPoint}
    (positive : ∀ sec ∈ previousAt, 0 ≤ sec)
    (member : point ∈ buildMissedPoints env previousAt bucketAt probeRegion maxMissed) :
    ∃ sec ∈ previousAt, Missed env sec bucketAt point := by
  unfold buildMissedPoints at member
  split at member
  · cases member
  · next sec found =>
      obtain ⟨given, -⟩ := Option.filter_eq_some_iff.mp found
      have least := positive sec given
      refine ⟨sec, given, ?_⟩
      dsimp only at member
      split at member
      · cases member
      · next sameDay =>
          rw [ne_eq, not_not] at sameDay
          split at member
          · cases member
          · next gap =>
              obtain ⟨index, inside, rfl⟩ := List.mem_map.mp member
              rw [List.mem_range] at inside
              have after : bucketOf sec < bucketOf sec + bucketSec * ((index : Int) + 1) := by
                unfold bucketSec
                omega
              have before : bucketOf sec + bucketSec * ((index : Int) + 1) < bucketAt := by
                unfold bucketSec at *
                omega
              exact {
                saved := {
                  checkedAt := lt_of_le_of_lt (by unfold bucketOf bucketSec; omega) after
                  total := rfl
                  okCount := rfl
                  error := congrArg some cut_missedPhrase
                  missed := fun _ => missedError_missedPhrase }
                missed := rfl
                after
                before
                day := le_antisymm (dayFromSec_mono env before.le)
                  (sameDay ▸ dayFromSec_mono env after.le) }

/-! The stores hold the last writes. -/

section Stores

variable (env : Env) (target : String)

/-- The row of a point. -/
structure RowOf (entry : (String × Int) × CheckBucketRow) (point : Int × CheckPoint) : Prop where
  key : entry.1 = (target, point.1)
  checkedAt : point.1 = point.2.checkedAt
  saved : Saved point.2
  row : entry.2 = checkBucketRow (dayFromSec point.1 env) point.2

/-- The point of the history of a point. -/
structure HistoryOf (entry : (String × Int) × ProbeHistory.ProbePoint) (point : Int × CheckPoint) :
    Prop where
  key : entry.1 = (target, point.1)
  checkedAt : point.1 = point.2.checkedAt
  saved : Saved point.2
  stored : normalizeProbePoint point.2.raw = some entry.2

def Stored (stores : Stores) (log : List CheckPoint) : Prop :=
  if env.probeHistoryEnabled then
    stores.checkBuckets = .empty ∧
      OrderedMap.Related (HistoryOf target) stores.history (lastWrites log)
  else OrderedMap.Related (RowOf env target) stores.checkBuckets (lastWrites log)

variable {env target}

theorem lastWrites_concat (log : List CheckPoint) (point : CheckPoint) :
    lastWrites (log ++ [point]) = (lastWrites log).set point.checkedAt point :=
  OrderedMap.collect_concat _ _ _

theorem normalizeProbePoint_saved {point : CheckPoint} (saved : Saved point) :
    ∃ stored, normalizeProbePoint point.raw = some stored ∧ stored.checkedAt = point.checkedAt := by
  have floor : ⌊point.raw.checkedAt⌋ = point.checkedAt := Int.floor_intCast _
  have positive : 0 < ⌊point.raw.checkedAt⌋ := floor ▸ saved.checkedAt
  exact ⟨_, dif_pos positive, floor⟩

theorem related_rows {table : CheckBucketTable} {log points : List CheckPoint}
    (holds : OrderedMap.Related (RowOf env target) table (lastWrites log))
    (saved : ∀ point ∈ points, Saved point) :
    OrderedMap.Related (RowOf env target)
      (points.foldl (fun table point => table.set (target, point.checkedAt)
        (checkBucketRow (dayFromSec point.checkedAt env) point)) table)
      (lastWrites (log ++ points)) := by
  induction points generalizing table log with
  | nil => simpa using holds
  | cons point rest ih =>
      obtain ⟨first, others⟩ := List.forall_mem_cons.mp saved
      rw [List.append_cons, List.foldl_cons]
      refine ih ?_ others
      rw [lastWrites_concat]
      refine holds.set ⟨rfl, rfl, first, rfl⟩ fun entry entry' related => ?_
      rw [related.key, Prod.mk.injEq]
      exact and_iff_right rfl

theorem related_history {history : History} {log points : List CheckPoint}
    (holds : OrderedMap.Related (HistoryOf target) history (lastWrites log))
    (saved : ∀ point ∈ points, Saved point) :
    OrderedMap.Related (HistoryOf target) (appendBufferedProbeHistory target history points)
      (lastWrites (log ++ points)) := by
  unfold appendBufferedProbeHistory
  induction points generalizing history log with
  | nil => simpa using holds
  | cons point rest ih =>
      obtain ⟨first, others⟩ := List.forall_mem_cons.mp saved
      rw [List.append_cons, List.foldl_cons]
      refine ih ?_ others
      obtain ⟨stored, normal, same⟩ := normalizeProbePoint_saved first
      rw [lastWrites_concat, normal]
      dsimp only
      rw [same]
      refine holds.set ⟨rfl, rfl, first, normal⟩ fun entry entry' related => ?_
      rw [related.key, Prod.mk.injEq]
      exact and_iff_right rfl

theorem stored_applyBucketWrites {stores : Stores} {log points : List CheckPoint}
    (holds : Stored env target stores log) (saved : ∀ point ∈ points, Saved point) :
    Stored env target (applyBucketWrites env target stores points) (log ++ points) := by
  unfold Stored applyBucketWrites at *
  by_cases enabled : env.probeHistoryEnabled = true
  · simp only [enabled, if_true] at holds ⊢
    exact ⟨holds.1, related_history holds.2 saved⟩
  · simp only [enabled] at holds ⊢
    exact related_rows holds saved

end Stores

/-! What the summary of a day before a time reads. -/

/-- The sum over the last writes of a day before a time. -/
def sumBefore {M : Type} [AddCommMonoid M] (env : Env) (log : List CheckPoint) (day beforeAt : Int)
    (weight : CheckPoint → M) : M :=
  (lastWrites log).sum fun at_ point =>
    if dayFromSec at_ env = day ∧ at_ < beforeAt then weight point else 0

/-- The latency of a check that failed, which only `sum_latency_ms` of D1 counts. -/
def CheckPoint.failedLatency (point : CheckPoint) : ℚ :=
  if point.isMissedMonitorPoint || point.ok then 0 else point.latencyMs.getD 0

def latencyOnly : ℚ →+ Totals where
  toFun latency := ⟨0, 0, latency⟩
  map_zero' := rfl
  map_add' _ _ := by simp

theorem latencyOnly_apply (latency : ℚ) : latencyOnly latency = ⟨0, 0, latency⟩ := rfl

theorem sums_checkBucketRow {point : CheckPoint} (saved : Saved point) (day : Int) :
    (checkBucketRow day point).sums = point.totals + latencyOnly point.failedLatency := by
  have missed : missedError (checkBucketRow day point).lastError = point.isMissedMonitorPoint := by
    change missedError (point.error.map (cut 500)) = _
    rw [saved.error, saved.isMissed_eq]
  unfold CheckBucketRow.sums CheckPoint.totals CheckPoint.failedLatency
  rw [missed]
  cases is : point.isMissedMonitorPoint with
  | true => simp
  | false =>
      cases ok : point.ok <;>
        simp [checkBucketRow, is, saved.total, saved.okCount, ok, latencyOnly_apply]

theorem isMissed_raw (point : CheckPoint) : point.raw.isMissed = point.isMissedMonitorPoint := by
  simp [ProbeHistory.RawPoint.isMissed, ProbeHistory.RawPoint.inputError, CheckPoint.raw,
    CheckPoint.isMissedMonitorPoint]

/-- What the history stores of a point. -/
theorem stored_fields {point : CheckPoint} (saved : Saved point) {stored : ProbeHistory.ProbePoint}
    (normal : normalizeProbePoint point.raw = some stored) :
    stored.total = 1 ∧ stored.lastError = point.error ∧
      (point.isMissedMonitorPoint = false → stored.okCount = point.okCount ∧
        stored.lastLatencyMs = point.latencyMs.map fun latency => (latency : ℚ)) := by
  unfold normalizeProbePoint at normal
  split at normal
  · obtain rfl := Option.some.inj normal
    refine ⟨?_, ?_, fun counted => ⟨?_, ?_⟩⟩
    · simp [ProbeHistory.RawPoint.normalTotal, CheckPoint.raw, saved.total]
    · simpa [ProbeHistory.RawPoint.inputError, CheckPoint.raw] using saved.error
    · have kept := (isMissed_raw point).trans counted
      simp only [ProbeHistory.RawPoint.normalOkCount, kept, Bool.false_eq_true, if_false]
      simp [CheckPoint.raw]
    · have kept := (isMissed_raw point).trans counted
      simp only [ProbeHistory.RawPoint.normalLatency, kept, Bool.false_eq_true, if_false]
      simp [ProbeHistory.RawPoint.inputLatency, CheckPoint.raw]
  · contradiction

theorem totals_stored {point : CheckPoint} (saved : Saved point)
    {stored : ProbeHistory.ProbePoint} (normal : normalizeProbePoint point.raw = some stored) :
    (publicDayPoint (ProbeHistory.toPublicPoint stored)).totals = point.totals := by
  obtain ⟨total, error, counted⟩ := stored_fields saved normal
  have is := saved.isMissed_eq
  cases missed : point.isMissedMonitorPoint with
  | true =>
      have lost : missedError stored.lastError = true := by rw [error, ← is, missed]
      simp [publicDayPoint, ProbeHistory.toPublicPoint, DayPoint.totals, CheckPoint.totals, missed,
        lost]
  | false =>
      have kept : missedError stored.lastError = false := by rw [error, ← is, missed]
      obtain ⟨okCount, latency⟩ := counted missed
      cases given : point.latencyMs <;>
        simp [publicDayPoint, ProbeHistory.toPublicPoint, DayPoint.totals, CheckPoint.totals,
          missed, kept, total, okCount, latency, saved.total, given]

section Reading

variable {env : Env} {target : String} {stores : Stores} {log : List CheckPoint}

theorem sumBefore_add (day beforeAt : Int) (first second : CheckPoint → Totals) :
    sumBefore env log day beforeAt (fun point => first point + second point) =
      sumBefore env log day beforeAt first + sumBefore env log day beforeAt second := by
  unfold sumBefore
  rw [← OrderedMap.sum_add]
  refine OrderedMap.sum_congr fun entry _ => ?_
  split
  · rfl
  · exact (add_zero 0).symm

theorem sumBefore_latencyOnly (day beforeAt : Int) (weight : CheckPoint → ℚ) :
    latencyOnly (sumBefore env log day beforeAt weight) =
      sumBefore env log day beforeAt fun point => latencyOnly (weight point) := by
  unfold sumBefore OrderedMap.sum
  rw [map_list_sum, List.map_map]
  refine congrArg List.sum (List.map_congr_left fun entry _ => ?_)
  rw [Function.comp_apply, apply_ite latencyOnly, map_zero]

theorem sums_dayRows
    (rows : OrderedMap.Related (RowOf env target) stores.checkBuckets (lastWrites log))
    (day beforeAt : Int) :
    ((dayRows stores.checkBuckets target day beforeAt).map fun entry => entry.2.sums).sum =
      sumBefore env log day beforeAt CheckPoint.totals +
        latencyOnly (sumBefore env log day beforeAt CheckPoint.failedLatency) := by
  rw [sumBefore_latencyOnly, ← sumBefore_add, dayRows, OrderedMap.sum_filter_map]
  change stores.checkBuckets.sum (fun key row =>
    if (key.1 = target && row.day = day && key.2 < beforeAt) = true then row.sums else 0) = _
  refine rows.sum_eq fun entry point related => ?_
  obtain ⟨key, -, saved, row⟩ := related
  simp only [key, row, sums_checkBucketRow saved]
  simp [checkBucketRow]

theorem inRange_iff (day beforeAt at_ : Int) :
    (dayStartSec day env ≤ at_ && at_ ≤ beforeAt - 1 && day ≤ dayFromSec at_ env &&
      dayFromSec at_ env ≤ day && dayFromSec at_ env < day + dayRangeLimit) = true ↔
        dayFromSec at_ env = day ∧ at_ < beforeAt := by
  have start : dayFromSec at_ env = day → dayStartSec day env ≤ at_ := fun same =>
    (dayFromSec_eq_iff.mp same).1
  unfold dayRangeLimit
  grind

theorem sum_buffered
    (rows : OrderedMap.Related (HistoryOf target) stores.history (lastWrites log))
    (day beforeAt : Int) :
    (((readBufferedProbeHistory env stores.history target (dayStartSec day env) (beforeAt - 1) day
      day).map publicDayPoint).map DayPoint.totals).sum =
        sumBefore env log day beforeAt CheckPoint.totals := by
  unfold readBufferedProbeHistory
  rw [(((List.perm_insertionSort _ _).map _).map _).sum_eq, List.map_map, List.map_map,
    OrderedMap.sum_filter_map]
  change stores.history.sum (fun key stored =>
    if (key.1 = target && dayStartSec day env ≤ key.2 && key.2 ≤ beforeAt - 1 &&
        day ≤ dayFromSec key.2 env && dayFromSec key.2 env ≤ day &&
        dayFromSec key.2 env < day + dayRangeLimit) = true then
      (publicDayPoint (ProbeHistory.toPublicPoint stored)).totals else 0) = _
  refine rows.sum_eq fun entry point related => ?_
  obtain ⟨key, -, saved, normal⟩ := related
  simp only [key, totals_stored saved normal, decide_true, Bool.true_and, inRange_iff]

theorem nodup_buffered
    (rows : OrderedMap.Related (HistoryOf target) stores.history (lastWrites log))
    (day since beforeAt : Int) :
    (((readBufferedProbeHistory env stores.history target since beforeAt day day).map
      publicDayPoint).map DayPoint.checkedAt).Nodup := by
  unfold readBufferedProbeHistory
  rw [(((List.perm_insertionSort _ _).map _).map _).nodup_iff, List.map_map, List.map_map]
  have keyed : ∀ entry ∈ stores.history.entries, entry.1 = (target, entry.2.checkedAt) := by
    intro entry member
    obtain ⟨point, -, key, checkedAt, saved, normal⟩ := rows.exists_mem member
    obtain ⟨stored, again, same⟩ := normalizeProbePoint_saved saved
    rw [Option.some.inj (normal.symm.trans again), same, ← checkedAt]
    exact key
  refine List.Nodup.of_map (Prod.mk target) ?_
  rw [List.map_map]
  refine Eq.mp (congrArg List.Nodup (List.map_congr_left fun entry member => ?_))
    (stores.history.nodup_keys.sublist (List.filter_sublist.map Prod.fst))
  exact keyed entry (List.mem_of_mem_filter member)

/-- The summary that is read counts the last writes, and in D1 the latencies of failed checks too. -/
theorem readCheckBucketDaySummary_eq (bound : env.databaseBound = true)
    (stored : Stored env target stores log) (day beforeAt : Int) :
    readCheckBucketDaySummary env stores target day beforeAt =
      sumBefore env log day beforeAt CheckPoint.totals +
        latencyOnly (if env.probeHistoryEnabled then 0
          else sumBefore env log day beforeAt CheckPoint.failedLatency) := by
  unfold Stored at stored
  unfold readCheckBucketDaySummary
  rw [if_neg (not_not.mpr bound)]
  by_cases enabled : env.probeHistoryEnabled = true
  · simp only [enabled, if_true, map_zero, add_zero] at stored ⊢
    have none_ : dayRows stores.checkBuckets target day beforeAt = [] := by
      rw [stored.1]
      rfl
    rw [none_, List.map_nil, List.nil_append, summarizeCheckPoints,
      OrderedMap.values_collect_of_nodup (nodup_buffered stored.2 _ _ _), sum_buffered stored.2]
  · simp only [enabled] at stored ⊢
    exact sums_dayRows stored day beforeAt

end Reading

/-! What a call adds to the fold over the buckets of a day. -/

section Fold

variable {env : Env} {log : List CheckPoint}

theorem dayTotals_eq (day : Int) :
    dayTotals env log day =
      (lastWrites log).sum fun at_ point => if dayFromSec at_ env = day then point.totals else 0 := by
  rw [dayTotals, OrderedMap.values, List.filter_map, List.map_map, OrderedMap.sum_filter_map]
  refine congrArg List.sum (List.map_congr_left fun entry member => ?_)
  have key := OrderedMap.key_of_mem_collect member
  simp [key]

/-- What the last write of a bucket counts. -/
def bucketTotals (log : List CheckPoint) (at_ : Int) : Totals :=
  (lastWrites log).summand (fun _ point => point.totals) at_

theorem CheckPoint.totals_of_missed {point : CheckPoint}
    (missed : point.isMissedMonitorPoint = true) : point.totals = 0 := by
  rw [CheckPoint.totals, if_pos missed]

theorem CheckPoint.totals_ne_zero {point : CheckPoint} (saved : Saved point)
    (counted : point.isMissedMonitorPoint = false) : point.totals ≠ 0 := by
  intro zero
  have total := congrArg Totals.total zero
  simp [CheckPoint.totals, counted, saved.total, Totals.zero_mk] at total

/-- After `bound` the log holds nothing that counts. -/
def Ends (log : List CheckPoint) (bound : Int) : Prop :=
  ∀ at_ point, (lastWrites log).get? at_ = some point → bound < at_ →
    point.isMissedMonitorPoint = true

theorem bucketTotals_of_ends {bound at_ : Int} (ends : Ends log bound) (after : bound < at_) :
    bucketTotals log at_ = 0 := by
  unfold bucketTotals OrderedMap.summand
  cases found : (lastWrites log).get? at_ with
  | none => rfl
  | some point => exact CheckPoint.totals_of_missed (ends at_ point found after)

variable (env log) in
theorem dayTotals_concat (day : Int) (point : CheckPoint) :
    dayTotals env (log ++ [point]) day +
        (if dayFromSec point.checkedAt env = day then bucketTotals log point.checkedAt else 0) =
      dayTotals env log day +
        if dayFromSec point.checkedAt env = day then point.totals else 0 := by
  have replaced := OrderedMap.sum_set (lastWrites log) (fun at_ (point : CheckPoint) =>
    if dayFromSec at_ env = day then point.totals else 0) point.checkedAt point
  rw [dayTotals_eq, dayTotals_eq, lastWrites_concat, ← replaced]
  congr 1
  unfold bucketTotals OrderedMap.summand
  cases (lastWrites log).get? point.checkedAt <;> simp

/-- Missed points after the last bucket change nothing. -/
theorem fold_missed {bound : Int} {points : List CheckPoint} (ends : Ends log bound)
    (missed : ∀ point ∈ points, point.isMissedMonitorPoint = true ∧ bound < point.checkedAt) :
    Ends (log ++ points) bound ∧
      (∀ day, dayTotals env (log ++ points) day = dayTotals env log day) ∧
      ∀ at_ ≤ bound, bucketTotals (log ++ points) at_ = bucketTotals log at_ := by
  induction points generalizing log with
  | nil => simpa using ends
  | cons point rest ih =>
      obtain ⟨⟨lost, after⟩, others⟩ := List.forall_mem_cons.mp missed
      have next : Ends (log ++ [point]) bound := by
        intro at_ other found later
        rw [lastWrites_concat, OrderedMap.get?_set] at found
        split at found
        · exact Option.some.inj found ▸ lost
        · exact ends at_ other found later
      obtain ⟨kept, totals, buckets⟩ := ih next others
      rw [List.append_cons]
      refine ⟨kept, fun day => ?_, fun at_ before => ?_⟩
      · rw [totals day]
        have concat := dayTotals_concat env log day point
        rw [bucketTotals_of_ends ends after, CheckPoint.totals_of_missed lost] at concat
        simpa using concat
      · rw [buckets at_ before]
        have other : at_ ≠ point.checkedAt := (before.trans_lt after).ne
        rw [bucketTotals, bucketTotals, OrderedMap.summand, OrderedMap.summand, lastWrites_concat,
          OrderedMap.get?_set_of_ne _ _ other]

/-- What a day holds is what it holds before `first` and in the bucket itself. -/
theorem sumBefore_add_bucket {first bucketAt : Int} (le : first ≤ bucketAt)
    (cut : ∀ at_ point, (lastWrites log).get? at_ = some point → at_ < first ∨ at_ = bucketAt) :
    sumBefore env log (dayFromSec bucketAt env) first CheckPoint.totals + bucketTotals log bucketAt =
      dayTotals env log (dayFromSec bucketAt env) := by
  rw [dayTotals_eq, sumBefore, bucketTotals, ← OrderedMap.sum_at, ← OrderedMap.sum_add]
  refine OrderedMap.sum_congr fun entry member => ?_
  cases cut entry.1 entry.2 (OrderedMap.get?_eq_some.mpr member) with
  | inl before =>
      have other : entry.1 ≠ bucketAt := (before.trans_le le).ne
      simp [before, other]
  | inr same => simp [same, Int.not_lt.mpr le]

end Fold

/-! One call. -/

theorem foldl_min_le (points : List CheckPoint) (start : Int) :
    points.foldl (fun first point => min first point.checkedAt) start ≤ start := by
  induction points generalizing start with
  | nil => exact le_rfl
  | cons point rest ih => exact (ih _).trans (min_le_left _ _)

theorem lt_foldl_min {points : List CheckPoint} {start bound : Int} (before : bound < start)
    (all : ∀ point ∈ points, bound < point.checkedAt) :
    bound < points.foldl (fun first point => min first point.checkedAt) start := by
  induction points generalizing start with
  | nil => exact before
  | cons point rest ih =>
      obtain ⟨first, others⟩ := List.forall_mem_cons.mp all
      exact ih (lt_min before first) others

theorem cachedDailySummaryBefore_eq_some {previous : Option Record} {day beforeAt : Int}
    {totals : Totals} (cached : cachedDailySummaryBefore previous day beforeAt = some totals) :
    ∃ record summary, previous = some record ∧ record.daily.get? day = some summary ∧
      summary.totals = totals ∧ record.checkedAt < beforeAt := by
  unfold cachedDailySummaryBefore at cached
  split at cached
  · cases cached
  · next record =>
      split at cached
      · cases cached
      · next summary found =>
          split at cached
          · cases cached
          · split at cached
            · cases cached
            · next usable =>
                rw [not_or, Int.not_le] at usable
                exact ⟨record, summary, rfl, found, Option.some.inj cached, usable.1⟩

section Call

variable {env : Env} {target : Probe.Target} {clock : Clock} {result : Result}
  {previous : Option Record} {log : List CheckPoint} {bound : Int}

/-- The log ends at `bound`, and the call comes later or is of the same bucket. -/
structure Advances (env : Env) (target : Probe.Target) (checkedAt : Int) (previous : Option Record)
    (log : List CheckPoint) (bound : Int) : Prop where
  ends : ∀ at_ point, (lastWrites log).get? at_ = some point → at_ ≤ bound
  within : bound ≤ bucketOf checkedAt
  since : ∀ record ∈ previous, bound ≤ record.checkedAt
  missed : ∀ point ∈ missedPoints env target checkedAt previous, Saved point ∧
    point.isMissedMonitorPoint = true ∧ bound < point.checkedAt ∧
    point.checkedAt < bucketOf checkedAt ∧
    dayFromSec point.checkedAt env = dayFromSec (bucketOf checkedAt) env

variable (advances : Advances env target clock.sec previous log bound)

include advances

theorem Advances.saved :
    ∀ point ∈ bucketWrites env target clock.sec result previous, Saved point := by
  intro point member
  cases List.mem_append.mp member with
  | inl missed => exact (advances.missed point missed).1
  | inr last => exact List.mem_singleton.mp last ▸ saved_checkPoint target clock result

theorem Advances.day_eq : ∀ point ∈ bucketWrites env target clock.sec result previous,
    dayFromSec point.checkedAt env = dayFromSec (bucketOf clock.sec) env := by
  intro point member
  cases List.mem_append.mp member with
  | inl missed => exact (advances.missed point missed).2.2.2.2
  | inr last => rw [List.mem_singleton.mp last, checkPoint]

theorem Advances.incoming_eq :
    incomingDayPoints env target clock.sec result previous =
      bucketWrites env target clock.sec result previous :=
  List.filter_eq_self.mpr fun point member => decide_eq_true (advances.day_eq point member)

variable (result) in
theorem Advances.incoming_totals :
    ((incomingDayPoints env target clock.sec result previous).map CheckPoint.totals).sum =
      (checkPoint target clock.sec result).totals := by
  have zero : ((missedPoints env target clock.sec previous).map CheckPoint.totals).sum = 0 :=
    List.sum_eq_zero fun totals member => by
      obtain ⟨point, missed, rfl⟩ := List.mem_map.mp member
      exact CheckPoint.totals_of_missed (advances.missed point missed).2.1
  rw [advances.incoming_eq, bucketWrites, List.map_append, List.sum_append, zero]
  simp

theorem Advances.checkedAt_le {point : CheckPoint}
    (member : point ∈ log ++ bucketWrites env target clock.sec result previous) :
    point.checkedAt ≤ bucketOf clock.sec := by
  cases List.mem_append.mp member with
  | inl old =>
      have found : ((lastWrites log).get? point.checkedAt).isSome := by
        rw [lastWrites, OrderedMap.get?_collect]
        exact OrderedMap.lastBy_isSome.mpr ⟨point, old, rfl⟩
      obtain ⟨last, found⟩ := Option.isSome_iff_exists.mp found
      exact (advances.ends _ last found).trans advances.within
  | inr new =>
      cases List.mem_append.mp new with
      | inl missed => exact (advances.missed point missed).2.2.2.1.le
      | inr last => exact (congrArg CheckPoint.checkedAt (List.mem_singleton.mp last)).le

theorem Advances.log_ends : Ends log bound := fun at_ point found after =>
  absurd (advances.ends at_ point found) (Int.not_le.mpr after)

theorem Advances.fold_missed :
    Ends (log ++ missedPoints env target clock.sec previous) bound ∧
      (∀ day, dayTotals env (log ++ missedPoints env target clock.sec previous) day =
        dayTotals env log day) ∧
      ∀ at_ ≤ bound, bucketTotals (log ++ missedPoints env target clock.sec previous) at_ =
        bucketTotals log at_ :=
  CheckBuckets.fold_missed advances.log_ends fun point member =>
    ⟨(advances.missed point member).2.1, (advances.missed point member).2.2.1⟩

/-- The bucket of the call counts its point and nothing else. -/
theorem Advances.dayTotals_eq :
    dayTotals env (log ++ bucketWrites env target clock.sec result previous)
        (dayFromSec (bucketOf clock.sec) env) + bucketTotals log (bucketOf clock.sec) =
      dayTotals env log (dayFromSec (bucketOf clock.sec) env) +
        (checkPoint target clock.sec result).totals := by
  obtain ⟨ends, totals, buckets⟩ := advances.fold_missed
  have concat := dayTotals_concat env (log ++ missedPoints env target clock.sec previous)
    (dayFromSec (bucketOf clock.sec) env) (checkPoint target clock.sec result)
  have same : bucketTotals (log ++ missedPoints env target clock.sec previous)
      (bucketOf clock.sec) = bucketTotals log (bucketOf clock.sec) := by
    by_cases later : bound < bucketOf clock.sec
    · rw [bucketTotals_of_ends ends later, bucketTotals_of_ends advances.log_ends later]
    · exact buckets _ (Int.not_lt.mp later)
  have at_ : (checkPoint target clock.sec result).checkedAt = bucketOf clock.sec := rfl
  rw [at_, if_pos rfl, if_pos rfl, same, totals] at concat
  rw [bucketWrites, ← List.append_assoc]
  exact concat

theorem Advances.dayTotals_of_ne {day : Int} (other : day ≠ dayFromSec (bucketOf clock.sec) env) :
    dayTotals env (log ++ bucketWrites env target clock.sec result previous) day =
      dayTotals env log day := by
  have concat := dayTotals_concat env (log ++ missedPoints env target clock.sec previous) day
    (checkPoint target clock.sec result)
  have at_ : (checkPoint target clock.sec result).checkedAt = bucketOf clock.sec := rfl
  rw [at_, if_neg (Ne.symm other), if_neg (Ne.symm other), advances.fold_missed.2.1] at concat
  rw [bucketWrites, ← List.append_assoc]
  simpa using concat

omit advances in
theorem firstIncomingAt_le :
    firstIncomingAt env target clock.sec result previous ≤ bucketOf clock.sec :=
  foldl_min_le _ _

theorem Advances.firstIncomingAt_of_nil
    (none_ : missedPoints env target clock.sec previous = []) :
    firstIncomingAt env target clock.sec result previous = bucketOf clock.sec := by
  rw [firstIncomingAt, advances.incoming_eq, bucketWrites, none_]
  exact min_self _

theorem Advances.lt_firstIncomingAt (within : bound < bucketOf clock.sec) :
    bound < firstIncomingAt env target clock.sec result previous := by
  refine lt_foldl_min within fun point member => ?_
  rw [advances.incoming_eq] at member
  cases List.mem_append.mp member with
  | inl missed => exact (advances.missed point missed).2.2.1
  | inr last => exact List.mem_singleton.mp last ▸ within

/-- Before the first point of the call and in its bucket, nothing is missing. -/
theorem Advances.sumBefore_eq :
    sumBefore env log (dayFromSec (bucketOf clock.sec) env)
        (firstIncomingAt env target clock.sec result previous) CheckPoint.totals +
        bucketTotals log (bucketOf clock.sec) =
      dayTotals env log (dayFromSec (bucketOf clock.sec) env) := by
  refine sumBefore_add_bucket firstIncomingAt_le fun at_ point found => ?_
  have before := advances.ends at_ point found
  by_cases later : bound < bucketOf clock.sec
  · exact .inl (before.trans_lt (advances.lt_firstIncomingAt later))
  · -- The call is of the last bucket, so that it has missed nothing.
    have none_ : missedPoints env target clock.sec previous = [] := by
      refine List.eq_nil_iff_forall_not_mem.mpr fun point member => ?_
      obtain ⟨-, -, after, inside, -⟩ := advances.missed point member
      exact later (after.trans inside)
    rw [advances.firstIncomingAt_of_nil none_]
    exact lt_or_eq_of_le (before.trans advances.within)

theorem Advances.bucketTotals_of_cached {totals : Totals}
    (cached : cachedDailySummaryBefore previous (dayFromSec (bucketOf clock.sec) env)
      (firstIncomingAt env target clock.sec result previous) = some totals) :
    bucketTotals log (bucketOf clock.sec) = 0 := by
  obtain ⟨record, summary, given, -, -, before⟩ := cachedDailySummaryBefore_eq_some cached
  exact bucketTotals_of_ends advances.log_ends
    ((advances.since record given).trans_lt (before.trans_le firstIncomingAt_le))

end Call

/-! Runs. -/

section Runs

variable (env : Env) (target : Probe.Target)

/-- What is stored for the target is what the calls have written, and the cache holds the fold over
it. -/
structure Sound (run : Run) : Prop where
  stored : Stored env target.id run.state.stores run.state.log
  saved : ∀ point ∈ run.state.log, Saved point
  fresh : run.state.record = none → run.state.log = []
  clock : ∀ record ∈ run.state.record, bucketSec ≤ record.checkedAt ∧
    record.checkedAt ≤ run.clock.sec
  ends : ∀ record ∈ run.state.record, ∀ at_ point,
    (lastWrites run.state.log).get? at_ = some point → at_ ≤ bucketOf record.checkedAt
  days : ∀ record ∈ run.state.record, ∀ day ∈ record.daily.keys,
    day ≤ dayFromSec (bucketOf record.checkedAt) env
  cache : ∀ day totals, run.state.cache.get? (target.id, day) = some totals →
    totals = dayTotals env run.state.log day

/-- The summaries that the state of the target holds, among them that of the last call's day, are
the folds over the distinct buckets of their days. -/
def SummariesRight (run : Run) : Prop :=
  ∀ record ∈ run.state.record,
    (record.daily.get? (dayFromSec (bucketOf record.checkedAt) env)).isSome ∧
    ∀ day summary, record.daily.get? day = some summary →
      summary.totals = dayTotals env run.state.log day

/-- When the summary is not taken from the state of the target: if the cache has the day, then the
bucket of the call counts nothing yet; if it is read from the rows of D1, then these have no
latencies of failed checks. -/
abbrev ResultCountsOnce (run : Run) (call : Call) (result : Result) : Prop :=
  let checkedAt := (run.clock.after call.elapsed).sec
  let day := dayFromSec (bucketOf checkedAt) env
  let previous := run.previous call.rounded
  let first := firstIncomingAt env target checkedAt result previous
  cachedDailySummaryBefore previous day first = none →
    if (cachedSummary env target checkedAt run.state.cache previous).isSome then
      ∀ point ∈ (lastWrites run.state.log).get? (bucketOf checkedAt),
        point.isMissedMonitorPoint = true
    else env.probeHistoryEnabled = true ∨
      sumBefore env run.state.log day first CheckPoint.failedLatency = 0

def CountsOnce (run : Run) : Event → Prop
  | .cacheLost => True
  | .call call => ∀ result ∈ call.result, ResultCountsOnce env target run call result

instance (run : Run) : (event : Event) → Decidable (CountsOnce env target run event)
  | .cacheLost => .isTrue trivial
  | .call call =>
      inferInstanceAs (Decidable (∀ result ∈ call.result, ResultCountsOnce env target run call result))

variable {env target}

theorem advances_of_sound {run : Run} (sound : Sound env target run) (elapsed : Nat)
    (rounded : Bool) :
    ∃ bound, Advances env target (run.clock.after elapsed).sec (run.previous rounded)
      run.state.log bound := by
  have later : run.clock.sec ≤ (run.clock.after elapsed).sec :=
    le_add_of_nonneg_right (Int.natCast_nonneg elapsed)
  cases given : run.state.record with
  | none =>
      refine ⟨bucketOf (run.clock.after elapsed).sec, ?_, le_rfl, ?_, ?_⟩
      · rw [sound.fresh given]
        exact fun _ _ found => absurd found (by simp [lastWrites, OrderedMap.collect])
      · simp [Run.previous, given]
      · simp [Run.previous, given, missedPoints, buildMissedPoints]
  | some record =>
      obtain ⟨running, before⟩ := sound.clock record given
      have previous : (run.previous rounded) = some { record with
          checkedAt := if rounded then bucketOf record.checkedAt else record.checkedAt } := by
        rw [Run.previous, given, Option.map_some]
      have rounding : bucketOf (if rounded then bucketOf record.checkedAt else record.checkedAt) =
          bucketOf record.checkedAt := by
        cases rounded <;> simp
      refine ⟨bucketOf record.checkedAt, sound.ends record given,
        bucketOf_mono (before.trans later), ?_, ?_⟩
      · rw [previous]
        intro other same
        have le := bucketOf_le (if rounded then bucketOf record.checkedAt else record.checkedAt)
        rw [rounding] at le
        rw [← Option.some.inj same]
        exact le
      · intro point member
        rw [missedPoints, previous] at member
        have positive : 0 ≤ if rounded then bucketOf record.checkedAt else record.checkedAt := by
          have least := bucketOf_mono running
          cases rounded
          · exact le_trans (by decide) running
          · exact le_trans (by decide) least
        obtain ⟨sec, same, missed⟩ := mem_buildMissedPoints
          (fun sec same => Option.some.inj same ▸ positive) member
        rw [← Option.some.inj same] at missed
        have after := missed.after
        rw [rounding] at after
        exact ⟨missed.saved, missed.missed, after, missed.before, missed.day⟩

theorem get?_setDailySummary_self {daily : OrderedMap Int DailySummary} {day : Int}
    (days : ∀ other ∈ daily.keys, other ≤ day) (summary : DailySummary) :
    (setDailySummary daily day summary).get? day = some summary := by
  refine (OrderedMap.get?_filter _ _).mpr ⟨OrderedMap.get?_set_self _ _ _, decide_eq_true ?_⟩
  have none_ : (daily.set day summary).keys.countP (fun later => day < later) = 0 := by
    refine List.countP_eq_zero.mpr fun other member later => ?_
    obtain ⟨entry, inside, rfl⟩ := List.mem_map.mp member
    have after := of_decide_eq_true later
    cases (OrderedMap.mem_set_entries _ _ _ _).mp inside with
    | inl same => exact absurd after (by simp [same])
    | inr old => exact absurd after (Int.not_lt.mpr (days _ (List.mem_map_of_mem old.2)))
  rw [none_]
  decide

theorem get?_setDailySummary_of_ne {daily : OrderedMap Int DailySummary} {day other : Int}
    (ne : other ≠ day) {summary found : DailySummary}
    (get : (setDailySummary daily day summary).get? other = some found) :
    daily.get? other = some found := by
  have inside := ((OrderedMap.get?_filter _ _).mp get).1
  rwa [OrderedMap.get?_set_of_ne _ _ ne] at inside

theorem mem_keys_setDailySummary {daily : OrderedMap Int DailySummary} {day other : Int}
    {summary : DailySummary} (member : other ∈ (setDailySummary daily day summary).keys) :
    other = day ∨ other ∈ daily.keys := by
  obtain ⟨entry, inside, rfl⟩ := List.mem_map.mp member
  have kept := List.mem_of_mem_filter inside
  cases (OrderedMap.mem_set_entries _ _ _ _).mp kept with
  | inl same => exact .inl (congrArg Prod.fst same)
  | inr old => exact .inr (List.mem_map_of_mem old.2)

/-- The bucket counts nothing exactly when its last write, if it has one, is a missed check. -/
theorem bucketTotals_eq_zero {log : List CheckPoint} (saved : ∀ point ∈ log, Saved point)
    (at_ : Int) :
    bucketTotals log at_ = 0 ↔
      ∀ point ∈ (lastWrites log).get? at_, point.isMissedMonitorPoint = true := by
  unfold bucketTotals OrderedMap.summand
  cases found : (lastWrites log).get? at_ with
  | none => simp
  | some point =>
      have member : point ∈ log := by
        rw [lastWrites, OrderedMap.get?_collect] at found
        exact OrderedMap.mem_of_lastBy found
      simp only [Option.map_some, Option.getD_some, Option.mem_some_iff, forall_eq']
      cases missed : point.isMissedMonitorPoint with
      | true => simp [CheckPoint.totals_of_missed missed]
      | false => simp [CheckPoint.totals_ne_zero (saved point member) missed]

/-- The summary that a call starts from. -/
def storedSummary (env : Env) (target : Probe.Target) (checkedAt : Int) (result : Result)
    (previous : Option Record) (state : State) : Totals :=
  let day := dayFromSec (bucketOf checkedAt) env
  let first := firstIncomingAt env target checkedAt result previous
  (cachedDailySummaryBefore previous day first).getD
    ((cachedSummary env target checkedAt state.cache previous).getD
      (readCheckBucketDaySummary env state.stores target.id day first))

theorem latencyOnly_eq_zero {latency : ℚ} : latencyOnly latency = 0 ↔ latency = 0 := by
  rw [latencyOnly_apply, Totals.zero_mk, Totals.mk.injEq]
  simp

theorem storedSummary_iff {run : Run} (bound : env.databaseBound = true)
    (sound : Sound env target run) (right : SummariesRight env run) {call : Call}
    {result : Result} (given : call.result = some result) :
    storedSummary env target (run.clock.after call.elapsed).sec result (run.previous call.rounded)
        run.state + bucketTotals run.state.log (bucketOf (run.clock.after call.elapsed).sec) =
      dayTotals env run.state.log (dayFromSec (bucketOf (run.clock.after call.elapsed).sec) env) ↔
    CountsOnce env target run (.call call) := by
  obtain ⟨last, advances⟩ := advances_of_sound sound call.elapsed call.rounded
  simp only [CountsOnce, ResultCountsOnce, given, Option.mem_some_iff, forall_eq', storedSummary]
  cases cached : cachedDailySummaryBefore (run.previous call.rounded)
      (dayFromSec (bucketOf (run.clock.after call.elapsed).sec) env)
      (firstIncomingAt env target (run.clock.after call.elapsed).sec result
        (run.previous call.rounded)) with
  | some totals =>
      obtain ⟨record, summary, is, found, rfl, -⟩ := cachedDailySummaryBefore_eq_some cached
      obtain ⟨stored, inside, rfl⟩ := Option.map_eq_some_iff.mp is
      have same := (right stored inside).2 _ summary found
      rw [advances.bucketTotals_of_cached cached]
      simpa using same
  | none =>
      simp only [Option.getD_none, true_imp_iff]
      cases cache : cachedSummary env target (run.clock.after call.elapsed).sec run.state.cache
          (run.previous call.rounded) with
      | some totals =>
          unfold cachedSummary at cache
          split at cache
          · rw [Option.getD_some, sound.cache _ _ cache, add_eq_left,
              bucketTotals_eq_zero sound.saved]
            simp
          · cases cache
      | none =>
          rw [Option.getD_none, readCheckBucketDaySummary_eq bound sound.stored, add_right_comm,
            advances.sumBefore_eq, add_eq_left, latencyOnly_eq_zero]
          cases env.probeHistoryEnabled <;> simp

theorem step_call {run : Run} {call : Call} {result : Result} (given : call.result = some result) :
    step env target run (.call call) = ⟨run.clock.after call.elapsed,
      saveCheck env target (run.clock.after call.elapsed).sec result (run.previous call.rounded)
        call.now run.state⟩ := by
  simp [step, given]

theorem step_skipped {run : Run} {call : Call} (given : call.result = none) :
    step env target run (.call call) = { run with clock := run.clock.after call.elapsed } := by
  simp [step, given]

theorem daily_previous (run : Run) (rounded : Bool) :
    (run.previous rounded).map Record.daily = run.state.record.map Record.daily := by
  simp [Run.previous, Option.map_map, Function.comp_def]

/-- The days of the state are not after the day of the call. -/
theorem Sound.days_before {run : Run} (sound : Sound env target run) (elapsed : Nat) :
    ∀ day ∈ ((run.state.record.map Record.daily).getD .empty).keys,
      day ≤ dayFromSec (bucketOf (run.clock.after elapsed).sec) env := by
  intro day member
  cases given : run.state.record with
  | none =>
      rw [given] at member
      cases member
  | some record =>
      rw [given] at member
      refine (sound.days record given day member).trans (dayFromSec_mono env (bucketOf_mono ?_))
      exact (sound.clock record given).2.trans
        (le_add_of_nonneg_right (Int.natCast_nonneg elapsed))

/-- What a call puts into the summary of its day is right exactly when it counts once. -/
theorem summary_iff {run : Run} (bound : env.databaseBound = true) (sound : Sound env target run)
    (right : SummariesRight env run) {call : Call} {result : Result}
    (given : call.result = some result) :
    storedSummary env target (run.clock.after call.elapsed).sec result (run.previous call.rounded)
        run.state + (dailySummaryFromPoints (incomingDayPoints env target
          (run.clock.after call.elapsed).sec result (run.previous call.rounded)) call.now).totals =
      dayTotals env (run.state.log ++ bucketWrites env target (run.clock.after call.elapsed).sec
        result (run.previous call.rounded))
        (dayFromSec (bucketOf (run.clock.after call.elapsed).sec) env) ↔
    CountsOnce env target run (.call call) := by
  obtain ⟨last, advances⟩ := advances_of_sound sound call.elapsed call.rounded
  have incoming := advances.incoming_totals result
  rw [← storedSummary_iff bound sound right given, dailySummaryFromPoints, incoming,
    ← add_left_inj (bucketTotals run.state.log (bucketOf (run.clock.after call.elapsed).sec)),
    advances.dayTotals_eq, add_right_comm, add_left_inj]

variable (env target) in
/-- What a call leaves behind. -/
theorem saveCheck_leaves (checkedAt : Int) (result : Result) (previous : Option Record) (now : Int)
    (state : State) :
    ∃ summary, (saveCheck env target checkedAt result previous now state).record =
        some ⟨checkedAt, setDailySummary ((previous.map Record.daily).getD .empty)
          (dayFromSec (bucketOf checkedAt) env) summary⟩ ∧
      summary.totals = storedSummary env target checkedAt result previous state +
        (dailySummaryFromPoints (incomingDayPoints env target checkedAt result previous) now).totals ∧
      ∀ day totals, (saveCheck env target checkedAt result previous now state).cache.get?
        (target.id, day) = some totals →
        (day = dayFromSec (bucketOf checkedAt) env ∧ totals = summary.totals) ∨
          (day ≠ dayFromSec (bucketOf checkedAt) env ∧
            state.cache.get? (target.id, day) = some totals) := by
  refine ⟨_, rfl, rfl, fun day totals found => ?_⟩
  simp only [saveCheck] at found
  rw [OrderedMap.get?_set] at found
  split at found
  · next same =>
      rw [Prod.mk.injEq] at same
      exact .inl ⟨same.2, (Option.some.inj found).symm⟩
  · next other =>
      refine .inr ⟨fun same => other (by rw [same]), ?_⟩
      split at found
      · cases found
      · exact found

theorem summariesRight_step {run : Run} {event : Event} (bound : env.databaseBound = true)
    (sound : Sound env target run) (right : SummariesRight env run) :
    SummariesRight env (step env target run event) ↔ CountsOnce env target run event := by
  cases event with
  | cacheLost => exact iff_of_true right trivial
  | call call =>
      cases given : call.result with
      | none =>
          rw [step_skipped given]
          exact iff_of_true right (by simp [CountsOnce, given])
      | some result =>
          obtain ⟨last, advances⟩ := advances_of_sound sound call.elapsed call.rounded
          obtain ⟨summary, record, totals, -⟩ := saveCheck_leaves env target
            (run.clock.after call.elapsed).sec result (run.previous call.rounded) call.now run.state
          rw [← summary_iff bound sound right given, ← totals, step_call given]
          rw [daily_previous] at record
          have present := get?_setDailySummary_self (sound.days_before call.elapsed) summary
          constructor
          · exact fun after => (after _ record).2 _ summary present
          · intro same other is
            rw [← Option.some.inj (record.symm.trans is)]
            refine ⟨Option.isSome_iff_exists.mpr ⟨summary, present⟩, fun day found get => ?_⟩
            by_cases today : day = dayFromSec (bucketOf (run.clock.after call.elapsed).sec) env
            · subst today
              rw [← Option.some.inj (present.symm.trans get)]
              exact same
            · have old := get?_setDailySummary_of_ne today get
              refine Eq.trans ?_ (advances.dayTotals_of_ne today).symm
              cases before : run.state.record with
              | none =>
                  rw [before] at old
                  cases old
              | some stored =>
                  rw [before] at old
                  exact (right stored before).2 day found old

theorem sound_call {run : Run} {call : Call} {result : Result} (bound : env.databaseBound = true)
    (sound : Sound env target run) (right : SummariesRight env run)
    (given : call.result = some result) (counts : CountsOnce env target run (.call call)) :
    Sound env target (step env target run (.call call)) := by
  obtain ⟨last, advances⟩ := advances_of_sound sound call.elapsed call.rounded
  obtain ⟨summary, record, totals, cache⟩ := saveCheck_leaves env target
    (run.clock.after call.elapsed).sec result (run.previous call.rounded) call.now run.state
  have same := (summary_iff bound sound right given).mpr counts
  rw [daily_previous] at record
  rw [step_call given]
  constructor
  · exact stored_applyBucketWrites sound.stored advances.saved
  · intro point member
    cases List.mem_append.mp member with
    | inl old => exact sound.saved point old
    | inr new => exact advances.saved point new
  · intro none_
    cases record.symm.trans none_
  · intro other is
    rw [← Option.some.inj (record.symm.trans is)]
    exact ⟨(run.clock.after call.elapsed).running, le_rfl⟩
  · intro other is at_ point found
    rw [← Option.some.inj (record.symm.trans is)]
    rw [lastWrites, OrderedMap.get?_collect] at found
    rw [← OrderedMap.key_of_lastBy found]
    exact advances.checkedAt_le (OrderedMap.mem_of_lastBy found)
  · intro other is day member
    rw [← Option.some.inj (record.symm.trans is)] at member ⊢
    cases mem_keys_setDailySummary member with
    | inl today => exact today.le
    | inr old => exact sound.days_before call.elapsed day old
  · intro day found get
    cases cache day found get with
    | inl today =>
        rw [today.1, today.2, totals]
        exact same
    | inr other =>
        rw [sound.cache day found other.2]
        exact (advances.dayTotals_of_ne other.1).symm

theorem sound_step {run : Run} {event : Event} (bound : env.databaseBound = true)
    (sound : Sound env target run) (right : SummariesRight env run)
    (counts : CountsOnce env target run event) : Sound env target (step env target run event) := by
  cases event with
  | cacheLost => exact { sound with cache := fun _ _ found => by cases found }
  | call call =>
      cases given : call.result with
      | none =>
          rw [step_skipped given]
          exact { sound with
            clock := fun record is => ⟨(sound.clock record is).1, (sound.clock record is).2.trans
              (le_add_of_nonneg_right (Int.natCast_nonneg call.elapsed))⟩ }
      | some result => exact sound_call bound sound right given counts

theorem sound_start (clock : Clock) : Sound env target (start clock) where
  stored := by
    unfold Stored
    split
    · exact ⟨rfl, OrderedMap.related_empty _⟩
    · exact OrderedMap.related_empty _
  saved := fun _ member => absurd member List.not_mem_nil
  fresh := fun _ => rfl
  clock := fun _ none_ => by cases none_
  ends := fun _ none_ => by cases none_
  days := fun _ none_ => by cases none_
  cache := fun _ _ none_ => by cases none_

variable (env target)

/-- The stored summaries of a run are the folds over the distinct buckets, whenever the cache is
lost, exactly when every call counts once. -/
theorem summaries_right (bound : env.databaseBound = true) (clock : Clock) (events : List Event) :
    (∀ before, before <+: events →
      SummariesRight env (Runs.run (step env target) (start clock) before)) ↔
    Runs.Along (step env target) (CountsOnce env target) (start clock) events := by
  -- A state that is sound stays so only while its summaries are right.
  refine Runs.along_iff_forall_prefix
    (fun run => Sound env target run ∧ SummariesRight env run) ?_ ?_ ⟨sound_start clock, ?_⟩ ?_ events
  · exact fun run event holds right => summariesRight_step bound holds.1 right
  · exact fun run event holds counts => ⟨sound_step bound holds.1 holds.2 counts,
      (summariesRight_step bound holds.1 holds.2).mpr counts⟩
  · exact fun _ none_ => by cases none_
  · exact fun _ none_ => by cases none_

end Runs

section Examples

private def router : Probe.Target := { id := "router" }

private def early : Clock := ⟨600, by unfold bucketSec; norm_num⟩

private def probe (elapsed : Nat) (ok rounded : Bool) : Event :=
  .call ⟨elapsed, some { ok, latencyMs := some (.finite 40) }, rounded, 600⟩

private def summaryOf (env : Env) (events : List Event) (day : Int) : Option Totals :=
  ((Runs.run (step env router) (start early) events).state.record.bind fun record =>
    record.daily.get? day).map DailySummary.totals

/-- The second probe of the bucket finds the cache lost and replaces the first one. -/
theorem summaries_right_lost :
    SummariesRight {} (Runs.run (step {} router) (start early)
      [probe 0 true true, .cacheLost, probe 60 false true]) :=
  (summaries_right {} router rfl early _).mpr (by decide +kernel) _ List.prefix_rfl

/-- With the cache the second probe of the bucket is added to the first one. Without the probe
history the latency of a failed check is added once the cache is lost. -/
theorem summary_depends_on_cache :
    summaryOf {} [probe 0 true true, probe 60 false true] 0 = some ⟨2, 1, 40⟩ ∧
    dayTotals {} (Runs.run (step {} router) (start early)
      [probe 0 true true, probe 60 false true]).state.log 0 = ⟨1, 0, 0⟩ ∧
    summaryOf {} [probe 0 true true, .cacheLost, probe 60 false true] 0 = some ⟨1, 0, 0⟩ ∧
    summaryOf { probeHistoryEnabled := false } [probe 10 false false, probe 300 true false] 0 =
      some ⟨2, 1, 40⟩ ∧
    summaryOf { probeHistoryEnabled := false }
      [probe 10 false false, .cacheLost, probe 300 true false] 0 = some ⟨2, 1, 80⟩ := by
  decide +kernel

end Examples

end NieSla.CheckBuckets
