import NieSla.Metrics.History

/-! What the readers show of an hour after its buffered rows have been flushed: all that is in
`telemetry.json` or in the rows, the rows winning. The older objects are no longer read. -/
namespace NieSla.Metrics

open Telemetry

/-! Merged buffers. -/

section Merge

variable {collate : String → String → Bool} {hour : Int}

private theorem lastBy_sorted {α κ : Type} [DecidableEq κ] {key : α → κ} {k : κ} (keep : α → Bool)
    (relation : α → α → Prop) [DecidableRel relation] (items : List α)
    (kept : ∀ item, key item = k → keep item = true) :
    OrderedMap.lastBy key k
        ((OrderedMap.collect key (items.filter keep)).values.insertionSort relation) =
      OrderedMap.lastBy key k items := by
  have distinct := OrderedMap.nodup_values_collect key (items.filter keep)
  have sorted := List.perm_insertionSort relation (OrderedMap.collect key (items.filter keep)).values
  rw [OrderedMap.lastBy_perm (((sorted.map key).nodup_iff).mpr distinct) sorted,
    OrderedMap.lastBy_values_collect, OrderedMap.lastBy_filter keep kept]

/-- For a time of the hour, a merged buffer has the last point of both. -/
theorem lastBy_points_mergeBuffer (existing incoming : Batch) {ts : Int}
    (inside : hour ≤ ts ∧ ts < hour + hourSec) :
    OrderedMap.lastBy MetricPoint.ts ts (mergeBuffer collate existing incoming hour hourSec).points =
      OrderedMap.lastBy MetricPoint.ts ts (existing.points ++ incoming.points) := by
  apply lastBy_sorted
  intro point same
  exact decide_eq_true (same ▸ inside)

/-- A ping as it is stored. -/
def storedKey (ping : Ping) : String × Int := (ping.targetId, ping.ts)

theorem lastBy_pings_mergeBuffer (existing incoming : Batch) {key : String × Int}
    (named : key.1 ≠ "") (inside : hour ≤ key.2 ∧ key.2 < hour + hourSec) :
    OrderedMap.lastBy storedKey key (mergeBuffer collate existing incoming hour hourSec).pings =
      OrderedMap.lastBy storedKey key (existing.pings ++ incoming.pings) := by
  apply lastBy_sorted
  rintro ping rfl
  exact decide_eq_true ⟨named, decide_eq_true inside⟩

theorem mem_points_mergeBuffer {existing incoming : Batch} {point : MetricPoint} :
    point ∈ (mergeBuffer collate existing incoming hour hourSec).points ↔
      (hour ≤ point.ts ∧ point.ts < hour + hourSec) ∧
        OrderedMap.lastBy MetricPoint.ts point.ts (existing.points ++ incoming.points) = some point := by
  unfold mergeBuffer
  dsimp only
  rw [mem_byTs, OrderedMap.mem_values_collect]
  constructor
  · intro found
    have inside := of_decide_eq_true (List.mem_filter.mp (OrderedMap.mem_of_lastBy found)).2
    rw [OrderedMap.lastBy_filter] at found
    · exact ⟨inside, found⟩
    · intro other same
      exact decide_eq_true (same ▸ inside)
  · rintro ⟨inside, found⟩
    rw [OrderedMap.lastBy_filter]
    · exact found
    · intro other same
      exact decide_eq_true (same ▸ inside)

theorem mem_pings_mergeBuffer {existing incoming : Batch} {ping : Ping} :
    ping ∈ (mergeBuffer collate existing incoming hour hourSec).pings ↔
      (ping.targetId ≠ "" ∧ hour ≤ ping.ts ∧ ping.ts < hour + hourSec) ∧
        OrderedMap.lastBy storedKey (storedKey ping) (existing.pings ++ incoming.pings) =
          some ping := by
  unfold mergeBuffer
  dsimp only
  rw [List.mem_insertionSort]
  change ping ∈ (OrderedMap.collect storedKey _).values ↔ _
  rw [OrderedMap.mem_values_collect]
  have kept (inside : ping.targetId ≠ "" ∧ hour ≤ ping.ts ∧ ping.ts < hour + hourSec) (other : Ping)
      (same : storedKey other = storedKey ping) :
      decide (other.targetId ≠ "" ∧ decide (hour ≤ other.ts ∧ other.ts < hour + hourSec) = true) =
        true := by
    obtain ⟨target, ts⟩ := Prod.ext_iff.mp same
    change other.targetId = ping.targetId at target
    change other.ts = ping.ts at ts
    rw [target, ts]
    exact decide_eq_true ⟨inside.1, decide_eq_true inside.2⟩
  constructor
  · intro found
    have member := of_decide_eq_true (List.mem_filter.mp (OrderedMap.mem_of_lastBy found)).2
    have inside := And.intro member.1 (of_decide_eq_true member.2)
    rw [OrderedMap.lastBy_filter _ (kept inside)] at found
    exact ⟨inside, found⟩
  · rintro ⟨inside, found⟩
    rw [OrderedMap.lastBy_filter _ (kept inside)]
    exact found

theorem lastBy_points_mergeRows (item : HourItem) {ts : Int}
    (inside : item.key.2 ≤ ts ∧ ts < item.key.2 + hourSec) :
    OrderedMap.lastBy MetricPoint.ts ts (mergeRows collate item).points =
      OrderedMap.lastBy MetricPoint.ts ts
        (item.rows.flatMap fun row => (unpack row.2.packed).points) := by
  unfold mergeRows
  induction item.rows using List.reverseRecOn with
  | nil => rfl
  | append_singleton rest row ih =>
      rw [List.foldl_append, List.foldl_cons, List.foldl_nil, lastBy_points_mergeBuffer _ _ inside,
        OrderedMap.lastBy_append, ih, List.flatMap_append, List.flatMap_cons, List.flatMap_nil,
        List.append_nil, OrderedMap.lastBy_append]

theorem lastBy_pings_mergeRows (item : HourItem) {key : String × Int} (named : key.1 ≠ "")
    (inside : item.key.2 ≤ key.2 ∧ key.2 < item.key.2 + hourSec) :
    OrderedMap.lastBy storedKey key (mergeRows collate item).pings =
      OrderedMap.lastBy storedKey key
        (item.rows.flatMap fun row => (unpack row.2.packed).pings) := by
  unfold mergeRows
  induction item.rows using List.reverseRecOn with
  | nil => rfl
  | append_singleton rest row ih =>
      rw [List.foldl_append, List.foldl_cons, List.foldl_nil,
        lastBy_pings_mergeBuffer _ _ named inside, OrderedMap.lastBy_append, ih,
        List.flatMap_append, List.flatMap_cons, List.flatMap_nil, List.append_nil,
        OrderedMap.lastBy_append]

end Merge

/-! Reads. -/

/-- The reader keeps the point when it comes to it. -/
def Met (width : Option Int) (points : List MetricPoint) (point : MetricPoint) : Prop :=
  match width with
  | none => OrderedMap.lastBy MetricPoint.ts point.ts points = some point
  | some width => points.find? (fun other => other.ts / width = point.ts / width) = some point

instance (width : Option Int) (points : List MetricPoint) (point : MetricPoint) :
    Decidable (Met width points point) := by
  unfold Met
  split <;> infer_instance

private theorem get?_setPoints (width : Int) (points : List MetricPoint) (seen : List Int)
    (map : OrderedMap Int MetricPoint) (known : ∀ ts, (map.get? ts).isSome → ts / width ∈ seen)
    (ts : Int) :
    (points.foldl (setPoint (some width)) (seen, map)).2.get? ts =
      if ts / width ∈ seen then map.get? ts
      else ((points.find? fun other => other.ts / width = ts / width).filter fun point =>
        point.ts = ts).map normalizeMetricPoint := by
  induction points generalizing seen map with
  | nil =>
      split
      · rfl
      · rename_i fresh
        rw [List.foldl_nil, List.find?_nil]
        exact Option.not_isSome_iff_eq_none.mp fun some_ => fresh (known ts some_)
  | cons point rest ih =>
      rw [List.foldl_cons]
      by_cases old : point.ts / width ∈ seen
      · rw [setPoint, if_pos old, ih seen map known]
        split
        · rfl
        · rename_i fresh
          have different : point.ts / width ≠ ts / width := fun same => fresh (same ▸ old)
          simp [different]
      · have grown : ∀ other, ((map.set point.ts (normalizeMetricPoint point)).get? other).isSome →
            other / width ∈ point.ts / width :: seen := by
          intro other some_
          rw [OrderedMap.get?_set] at some_
          split at some_
          case isTrue same => exact same ▸ List.mem_cons_self
          case isFalse => exact List.mem_cons_of_mem _ (known other some_)
        rw [setPoint, if_neg old, ih _ _ grown, OrderedMap.get?_set]
        by_cases bucket : ts / width = point.ts / width
        · have fresh : ts / width ∉ seen := bucket ▸ old
          rw [if_pos (bucket ▸ List.mem_cons_self), if_neg fresh, List.find?_cons_of_pos (by simp [bucket])]
          by_cases same : ts = point.ts
          · simp [same]
          · rw [if_neg same]
            have nothing : map.get? ts = none :=
              Option.not_isSome_iff_eq_none.mp fun some_ => fresh (known ts some_)
            simp [nothing, Ne.symm same]
        · have other : ts ≠ point.ts := fun same => bucket (same ▸ rfl)
          rw [if_neg other, List.find?_cons_of_neg (by simp [Ne.symm bucket])]
          simp only [List.mem_cons, bucket, false_or]

private theorem get?_setAll (points : List MetricPoint) (ts : Int) :
    (points.foldl (setPoint none) ([], .empty)).2.get? ts =
      (OrderedMap.lastBy MetricPoint.ts ts points).map normalizeMetricPoint := by
  induction points using List.reverseRecOn with
  | nil => rfl
  | append_singleton rest point ih =>
      rw [List.foldl_append, List.foldl_cons, List.foldl_nil, OrderedMap.lastBy_concat]
      simp only [setPoint]
      rw [OrderedMap.get?_set, ih]
      by_cases same : point.ts = ts
      · simp [same]
      · simp [same, Ne.symm same]

/-- What is shown is what the reader has met. -/
theorem shown_iff {budget : Nat} {hour ts : Int} {history : HourHistory} {shown : MetricPoint} :
    (loadAgentMetricsR2History budget hour history).get? ts = some shown ↔
      ∃ point, point.ts = ts ∧ Met (bucketSec budget) (metricsRead hour history) point ∧
        normalizeMetricPoint point = shown := by
  unfold loadAgentMetricsR2History
  cases bucketSec budget with
  | none =>
      rw [get?_setAll, Option.map_eq_some_iff]
      apply exists_congr
      intro point
      constructor
      · rintro ⟨found, same⟩
        have own := OrderedMap.key_of_lastBy found
        subst own
        exact ⟨rfl, found, same⟩
      · rintro ⟨rfl, found, same⟩
        exact ⟨found, same⟩
  | some width =>
      rw [get?_setPoints width _ [] .empty nofun, if_neg List.not_mem_nil, Option.map_eq_some_iff]
      apply exists_congr
      intro point
      rw [Option.filter_eq_some_iff, decide_eq_true_eq]
      constructor
      · rintro ⟨⟨found, rfl⟩, same⟩
        exact ⟨rfl, found, same⟩
      · rintro ⟨rfl, found, same⟩
        exact ⟨⟨found, rfl⟩, same⟩

/-- Of points in order, the reader meets the first one of each bucket. -/
theorem met_iff {width : Option Int} {points : List MetricPoint} {point : MetricPoint}
    (sorted : points.Pairwise fun first second => first.ts < second.ts) :
    Met width points point ↔ point ∈ points ∧ ∀ seconds ∈ width, ∀ other ∈ points,
      other.ts / seconds = point.ts / seconds → point.ts ≤ other.ts := by
  cases width with
  | none =>
      have distinct : (points.map MetricPoint.ts).Nodup :=
        List.pairwise_map.mpr (sorted.imp fun before => Int.ne_of_lt before)
      have own := @OrderedMap.lastBy_eq_some_of_nodup _ _ _ MetricPoint.ts point.ts points distinct point
      simp only [Met, own, and_true, Option.not_mem_none, false_implies, implies_true]
  | some seconds =>
      simp only [Met, Option.mem_some_iff, forall_eq']
      induction points with
      | nil => simp
      | cons first rest ih =>
          obtain ⟨before, sorted⟩ := List.pairwise_cons.mp sorted
          by_cases same : first.ts / seconds = point.ts / seconds
          · rw [List.find?_cons_of_pos (by simp [same])]
            constructor
            · intro found
              cases found
              refine ⟨List.mem_cons_self, fun other member _ => ?_⟩
              rcases List.mem_cons.mp member with rfl | later
              · exact le_refl _
              · exact (before other later).le
            · rintro ⟨member, least⟩
              rcases List.mem_cons.mp member with own | later
              · exact congrArg some own.symm
              · have late := before point later
                have early := least first List.mem_cons_self same
                omega
          · rw [List.find?_cons_of_neg (by simp [same])]
            apply (ih sorted).trans
            constructor
            · rintro ⟨member, least⟩
              refine ⟨List.mem_cons_of_mem _ member, fun other listed bucket => ?_⟩
              rcases List.mem_cons.mp listed with own | later
              · exact absurd (own ▸ bucket) same
              · exact least other later bucket
            · rintro ⟨member, least⟩
              refine ⟨(List.mem_cons.mp member).resolve_left fun own => same (own ▸ rfl),
                fun other later => least other (List.mem_cons_of_mem _ later)⟩

/-! After the flush. -/

section Flush

variable (collate : String → String → Bool) (key : HourKey) (history : HourHistory)

/-- `telemetry.json` after the flush. -/
def flushed : Batch :=
  mergeBuffer collate history.archived (mergeRows collate ⟨key, history.rows⟩) key.2 hourSec

/-- A point of the time is in `telemetry.json` or in a row. -/
def Stored (hour : Int) (history : HourHistory) (ts : Int) : Prop :=
  (hour ≤ ts ∧ ts < hour + hourSec) ∧
    ∃ point ∈ history.archived.points ++ history.bufferedPoints, point.ts = ts

/-- What a ping of a series is read as. -/
def archivedPing (ping : Ping) : Ping :=
  normalPing (normalizePingPoint (trim ping.targetId) ping.ts ping.latencyMs (some ping.ok))

/-- A ping that is shown under the key is in `telemetry.json` or in a row. -/
def StoredPing (hour : Int) (history : HourHistory) (shown : String × Int) : Prop :=
  ∃ ping ∈ history.archived.pings ++ history.bufferedPings, ping.targetId ≠ "" ∧
    (hour ≤ ping.ts ∧ ping.ts < hour + hourSec) ∧ pingKey (archivedPing ping) = shown

variable {collate key history}

theorem lastBy_points_flushed {ts : Int} (inside : key.2 ≤ ts ∧ ts < key.2 + hourSec) :
    OrderedMap.lastBy MetricPoint.ts ts (flushed collate key history).points =
      OrderedMap.lastBy MetricPoint.ts ts (history.archived.points ++ history.bufferedPoints) := by
  unfold flushed
  rw [lastBy_points_mergeBuffer _ _ inside, OrderedMap.lastBy_append,
    lastBy_points_mergeRows ⟨key, history.rows⟩ inside, ← OrderedMap.lastBy_append]
  rfl

theorem lastBy_pings_flushed {stored : String × Int} (named : stored.1 ≠ "")
    (inside : key.2 ≤ stored.2 ∧ stored.2 < key.2 + hourSec) :
    OrderedMap.lastBy storedKey stored (flushed collate key history).pings =
      OrderedMap.lastBy storedKey stored (history.archived.pings ++ history.bufferedPings) := by
  unfold flushed
  rw [lastBy_pings_mergeBuffer _ _ named inside, OrderedMap.lastBy_append,
    lastBy_pings_mergeRows ⟨key, history.rows⟩ named inside, ← OrderedMap.lastBy_append]
  rfl

theorem inside_of_flushed {point : MetricPoint} (member : point ∈ (flushed collate key history).points) :
    key.2 ≤ point.ts ∧ point.ts < key.2 + hourSec :=
  (mem_points_mergeBuffer.mp member).1

theorem stored_iff {ts : Int} :
    (∃ point ∈ (flushed collate key history).points, point.ts = ts) ↔ Stored key.2 history ts := by
  unfold Stored
  constructor
  · rintro ⟨point, member, rfl⟩
    have inside := inside_of_flushed member
    refine ⟨inside, OrderedMap.lastBy_isSome.mp ?_⟩
    rw [← lastBy_points_flushed inside]
    exact OrderedMap.lastBy_isSome.mpr ⟨point, member, rfl⟩
  · rintro ⟨inside, some_⟩
    apply OrderedMap.lastBy_isSome.mp
    rw [lastBy_points_flushed inside]
    exact OrderedMap.lastBy_isSome.mpr some_

/-- The points of the columns, in order. -/
def flushedPoint (points : List MetricPoint) : MetricPoint → MetricPoint :=
  restored (fieldsOf (byTs points)) (Telemetry.listedSensors (byTs points)).values
    Telemetry.sensorTemp fun value => value.getD 0

theorem metricsRead_flushHour : metricsRead key.2 (flushHour collate key history) =
    (byTs (flushed collate key history).points).map (flushedPoint (flushed collate key history).points) := by
  have decoded : metricPointsFromPayload (flushHour collate key history).objects.metricPayload =
      (byTs (flushed collate key history).points).map
        (flushedPoint (flushed collate key history).points) :=
    metricsFromPayload_metricPointsToColumns _
  have empty : readPoints key.2 (flushHour collate key history) = [] := by
    simp [readPoints, HourHistory.bufferedPoints, flushHour, byTs, tail]
  unfold metricsRead
  rw [decoded, empty, List.append_nil, List.filter_eq_self]
  intro point member
  obtain ⟨stored, listed, rfl⟩ := List.mem_map.mp member
  have inside := inside_of_flushed (mem_byTs.mp listed)
  change inHour key.2 stored.ts = true
  unfold inHour
  simp only [Bool.and_eq_true, decide_eq_true_eq]
  omega

theorem pairwise_byTs (points : List MetricPoint) :
    (byTs points).Pairwise fun first second => first.ts ≤ second.ts := by
  have : Std.Total fun first second : MetricPoint => first.ts ≤ second.ts :=
    ⟨fun first second => Int.le_total first.ts second.ts⟩
  have : IsTrans MetricPoint fun first second => first.ts ≤ second.ts :=
    ⟨fun _ _ _ => Int.le_trans⟩
  exact List.pairwise_insertionSort _ points

theorem nodup_byTs {points : List MetricPoint} :
    ((byTs points).map MetricPoint.ts).Nodup ↔ (points.map MetricPoint.ts).Nodup :=
  ((List.perm_insertionSort (fun first second : MetricPoint => first.ts ≤ second.ts) points).map
    MetricPoint.ts).nodup_iff

theorem pairwise_metricsRead_flushHour :
    (metricsRead key.2 (flushHour collate key history)).Pairwise
      fun first second => first.ts < second.ts := by
  rw [metricsRead_flushHour, List.pairwise_map]
  have distinct : ((byTs (flushed collate key history).points).map MetricPoint.ts).Nodup := by
    apply nodup_byTs.mpr
    unfold flushed mergeBuffer
    exact nodup_byTs.mpr (OrderedMap.nodup_values_collect MetricPoint.ts _)
  apply ((pairwise_byTs _).and (List.pairwise_map.mp distinct)).imp
  rintro first second ⟨ordered, different⟩
  exact lt_of_le_of_ne ordered different

/-- After the flush a time is shown when it is stored and the least of its bucket. -/
theorem shown_flushHour_iff {budget : Nat} {ts : Int} :
    ((loadAgentMetricsR2History budget key.2 (flushHour collate key history)).get? ts).isSome ↔
      Stored key.2 history ts ∧ ∀ seconds ∈ bucketSec budget, ∀ other, Stored key.2 history other →
        other / seconds = ts / seconds → ts ≤ other := by
  have read {ts : Int} : (∃ point ∈ metricsRead key.2 (flushHour collate key history), point.ts = ts) ↔
      Stored key.2 history ts := by
    rw [← @stored_iff collate, metricsRead_flushHour]
    simp only [List.mem_map, exists_exists_and_eq_and, mem_byTs]
    rfl
  rw [Option.isSome_iff_exists]
  simp only [shown_iff, met_iff pairwise_metricsRead_flushHour]
  constructor
  · rintro ⟨_, point, rfl, ⟨member, least⟩, _⟩
    refine ⟨read.mp ⟨point, member, rfl⟩, fun seconds width other stored bucket => ?_⟩
    obtain ⟨held, listed, rfl⟩ := read.mpr stored
    exact least seconds width held listed bucket
  · rintro ⟨stored, least⟩
    obtain ⟨point, member, rfl⟩ := read.mpr stored
    refine ⟨_, point, rfl, ⟨member, fun seconds width other listed bucket => ?_⟩, rfl⟩
    exact least seconds width other.ts (read.mp ⟨other, listed, rfl⟩) bucket

/-- The point that is shown has the time of the other and the fields that the other has. -/
def Reading (point shown : MetricPoint) : Prop :=
  ∃ decoded, normalizeMetricPoint decoded = shown ∧ decoded.ts = point.ts ∧
    ∀ field value, point.field? field = some value → decoded.field? field = some value

/-- What is shown after the flush is the last of the points of `telemetry.json` and of the rows. -/
theorem reading_of_shown {budget : Nat} {ts : Int} {shown : MetricPoint}
    (found : (loadAgentMetricsR2History budget key.2 (flushHour collate key history)).get? ts =
      some shown) :
    ∃ point, OrderedMap.lastBy MetricPoint.ts ts
      (history.archived.points ++ history.bufferedPoints) = some point ∧ Reading point shown := by
  obtain ⟨decoded, rfl, met, same⟩ := shown_iff.mp found
  have member := ((met_iff pairwise_metricsRead_flushHour).mp met).1
  rw [metricsRead_flushHour] at member
  obtain ⟨point, listed, rfl⟩ := List.mem_map.mp member
  obtain ⟨inside, last⟩ := mem_points_mergeBuffer.mp (mem_byTs.mp listed)
  refine ⟨point, ?_, _, same, rfl, fun field value has => ?_⟩
  · rw [OrderedMap.lastBy_append, lastBy_points_mergeRows ⟨key, history.rows⟩ inside,
      ← OrderedMap.lastBy_append] at last
    exact last
  · unfold flushedPoint
    rw [restored_field?, if_pos, has]
    · rfl
    · exact mem_fieldsOf.mpr ⟨point, listed, by simp [has]⟩

theorem decodeStoredPings_pingSeries {entry : String × List Ping}
    (own : ∀ ping ∈ entry.2, ping.targetId = entry.1) :
    decodeStoredPings (pingSeries entry) = entry.2.map fun ping =>
      normalizePingPoint (trim ping.targetId) ping.ts ping.latencyMs (some ping.ok) := by
  apply List.ext_getElem
  · simp [decodeStoredPings, pingSeries]
  · intro index inside bound
    have within : index < entry.2.length := by simpa using bound
    have same := own entry.2[index] (List.getElem_mem within)
    simp [decodeStoredPings, pingSeries, List.getElem?_eq_getElem within, ← same]

/-- Each ping of the series is read. -/
theorem mem_decodeStoredPings {pings : List Ping} {shown : Ping} :
    shown ∈ (pingPointsToSeries collate pings).flatMap decodeStoredPings ↔
      ∃ ping ∈ pings, ping.targetId ≠ "" ∧
        normalizePingPoint (trim ping.targetId) ping.ts ping.latencyMs (some ping.ok) = shown := by
  simp only [pingPointsToSeries, List.flatMap_map, List.mem_flatMap]
  constructor
  · rintro ⟨entry, listed, member⟩
    rw [decodeStoredPings_pingSeries fun ping member =>
      targetId_of_mem_targetGroups listed member] at member
    obtain ⟨ping, inside, same⟩ := List.mem_map.mp member
    obtain ⟨held, named⟩ := mem_targetGroups.mp ⟨entry, listed, inside⟩
    exact ⟨ping, held, named, same⟩
  · rintro ⟨ping, held, named, same⟩
    obtain ⟨entry, listed, inside⟩ := (@mem_targetGroups collate _ Ping.targetId Ping.ts _ _).mpr
      ⟨held, named⟩
    refine ⟨entry, listed, ?_⟩
    rw [decodeStoredPings_pingSeries fun ping member => targetId_of_mem_targetGroups listed member]
    exact List.mem_map.mpr ⟨ping, inside, same⟩

/-- After the flush the pings of the merged object are read. -/
theorem mem_pingsRead_flushHour {shown : Ping} :
    shown ∈ pingsRead collate key.2 (flushHour collate key history) ↔
      (∃ ping ∈ (flushed collate key history).pings, archivedPing ping = shown) ∧
        shown.targetId ≠ "" := by
  have empty : readPings collate key.2 (flushHour collate key history) = [] := by
    simp [readPings, HourHistory.bufferedPings, flushHour, tail]
  have decoded : pingPointsFromPayload (flushHour collate key history).objects.pingPayload =
      (pingPointsToSeries collate (flushed collate key history).pings).flatMap decodeStoredPings := rfl
  unfold pingsRead
  rw [empty, decoded, List.append_nil, List.mem_filter, List.mem_map]
  simp only [mem_decodeStoredPings, decide_eq_true_eq]
  constructor
  · rintro ⟨⟨_, ⟨ping, member, _, rfl⟩, same⟩, named, _⟩
    exact ⟨⟨ping, member, same⟩, named⟩
  · rintro ⟨⟨ping, member, rfl⟩, named⟩
    obtain ⟨⟨stored, inside⟩, _⟩ := mem_pings_mergeBuffer.mp member
    refine ⟨⟨_, ⟨ping, member, stored, rfl⟩, rfl⟩, named, ?_⟩
    rw [archivedPing, normalPing_ts, normalizePingPoint_ts]
    unfold inHour
    simp only [Bool.and_eq_true, decide_eq_true_eq]
    omega

/-- A stored ping is in the merged object, in the place of all of its target and time. -/
theorem exists_flushed_ping {ping : Ping}
    (member : ping ∈ history.archived.pings ++ history.bufferedPings) (named : ping.targetId ≠ "")
    (inside : key.2 ≤ ping.ts ∧ ping.ts < key.2 + hourSec) :
    ∃ merged ∈ (flushed collate key history).pings, storedKey merged = storedKey ping := by
  apply OrderedMap.lastBy_isSome.mp
  rw [lastBy_pings_flushed named inside]
  exact OrderedMap.lastBy_isSome.mpr ⟨ping, member, rfl⟩

theorem last_of_flushed_ping {ping : Ping} (member : ping ∈ (flushed collate key history).pings) :
    OrderedMap.lastBy storedKey (storedKey ping) (history.archived.pings ++ history.bufferedPings) =
      some ping := by
  obtain ⟨⟨named, inside⟩, last⟩ := mem_pings_mergeBuffer.mp member
  rw [OrderedMap.lastBy_append, lastBy_pings_mergeRows ⟨key, history.rows⟩ named inside,
    ← OrderedMap.lastBy_append] at last
  exact last

theorem pingKey_archivedPing {ping other : Ping} (same : storedKey ping = storedKey other) :
    pingKey (archivedPing ping) = pingKey (archivedPing other) := by
  obtain ⟨target, ts⟩ := Prod.ext_iff.mp same
  change ping.targetId = other.targetId at target
  change ping.ts = other.ts at ts
  unfold pingKey archivedPing normalPing normalizePingPoint
  simp only [target, ts]

/-- After the flush a key is shown when a stored ping is read under it. -/
theorem shown_ping_flushHour_iff {shown : String × Int} (named : shown.1 ≠ "") :
    ((loadAgentPingsR2History collate key.2 (flushHour collate key history)).get? shown).isSome ↔
      StoredPing key.2 history shown := by
  unfold loadAgentPingsR2History
  rw [OrderedMap.get?_collect, OrderedMap.lastBy_isSome]
  simp only [mem_pingsRead_flushHour]
  constructor
  · rintro ⟨_, ⟨⟨ping, member, rfl⟩, _⟩, same⟩
    obtain ⟨⟨stored, inside⟩, _⟩ := mem_pings_mergeBuffer.mp member
    exact ⟨ping, OrderedMap.mem_of_lastBy (last_of_flushed_ping member), stored, inside, same⟩
  · rintro ⟨ping, member, stored, inside, rfl⟩
    obtain ⟨merged, listed, own⟩ := @exists_flushed_ping collate key history ping member stored inside
    have same := pingKey_archivedPing own
    have shows : (archivedPing merged).targetId ≠ "" := by
      intro empty
      have target := congrArg Prod.fst same
      exact named (target.symm.trans empty)
    exact ⟨archivedPing merged, ⟨⟨merged, listed, rfl⟩, shows⟩, same⟩

/-- What is shown after the flush is the last ping of its target and time. -/
theorem last_of_shown_ping {stored : String × Int} {shown : Ping}
    (found : (loadAgentPingsR2History collate key.2 (flushHour collate key history)).get? stored =
      some shown) :
    ∃ ping, OrderedMap.lastBy storedKey (storedKey ping)
      (history.archived.pings ++ history.bufferedPings) = some ping ∧ archivedPing ping = shown := by
  unfold loadAgentPingsR2History at found
  rw [OrderedMap.get?_collect] at found
  obtain ⟨⟨ping, member, same⟩, _⟩ := mem_pingsRead_flushHour.mp (OrderedMap.mem_of_lastBy found)
  exact ⟨ping, last_of_flushed_ping member, same⟩

end Flush

/-- The flush keeps what the readers show, and what was buffered wins over what was archived. -/
structure HistoryKept (collate : String → String → Bool) (budget : Nat) (key : HourKey)
    (history : HourHistory) : Prop where
  metrics : ∀ ts, ((loadAgentMetricsR2History budget key.2 history).get? ts).isSome →
    ((loadAgentMetricsR2History budget key.2 (flushHour collate key history)).get? ts).isSome
  pings : ∀ shown, ((loadAgentPingsR2History collate key.2 history).get? shown).isSome →
    ((loadAgentPingsR2History collate key.2 (flushHour collate key history)).get? shown).isSome
  metricsWin : ∀ ts shown,
    (loadAgentMetricsR2History budget key.2 (flushHour collate key history)).get? ts = some shown →
      ∃ point, OrderedMap.lastBy MetricPoint.ts ts
        (history.archived.points ++ history.bufferedPoints) = some point ∧ Reading point shown
  pingsWin : ∀ stored shown,
    (loadAgentPingsR2History collate key.2 (flushHour collate key history)).get? stored = some shown →
      ∃ ping, OrderedMap.lastBy storedKey (storedKey ping)
        (history.archived.pings ++ history.bufferedPings) = some ping ∧ archivedPing ping = shown

/-- What the readers come to is in `telemetry.json` or in a row, and is the first of its bucket. -/
structure NotHidden (collate : String → String → Bool) (budget : Nat) (key : HourKey)
    (history : HourHistory) : Prop where
  metrics : ∀ point, Met (bucketSec budget) (metricsRead key.2 history) point →
    Stored key.2 history point.ts ∧ ∀ seconds ∈ bucketSec budget, ∀ other,
      Stored key.2 history other → other / seconds = point.ts / seconds → point.ts ≤ other
  pings : ∀ ping ∈ pingsRead collate key.2 history, StoredPing key.2 history (pingKey ping)

/-- A flush keeps the visible history of the hour just when the readers come to nothing before it
that only the older objects have, or that a thinned read leaves out for an earlier point. -/
theorem flush_keeps_history (collate : String → String → Bool) (budget : Nat) (key : HourKey)
    (history : HourHistory) :
    HistoryKept collate budget key history ↔ NotHidden collate budget key history := by
  have named {ping : Ping} (member : ping ∈ pingsRead collate key.2 history) : ping.targetId ≠ "" :=
    (of_decide_eq_true (List.mem_filter.mp member).2).1
  constructor
  · intro kept
    constructor
    · intro point met
      apply shown_flushHour_iff.mp
      apply kept.metrics
      exact Option.isSome_iff_exists.mpr ⟨_, shown_iff.mpr ⟨point, rfl, met, rfl⟩⟩
    · intro ping member
      apply (shown_ping_flushHour_iff (named member)).mp
      apply kept.pings
      unfold loadAgentPingsR2History
      rw [OrderedMap.get?_collect]
      exact OrderedMap.lastBy_isSome.mpr ⟨ping, member, rfl⟩
  · intro open_
    refine ⟨fun ts some_ => ?_, fun shown some_ => ?_, fun _ _ => reading_of_shown,
      fun _ _ => last_of_shown_ping⟩
    · obtain ⟨_, found⟩ := Option.isSome_iff_exists.mp some_
      obtain ⟨point, rfl, met, _⟩ := shown_iff.mp found
      exact shown_flushHour_iff.mpr (open_.metrics point met)
    · unfold loadAgentPingsR2History at some_
      rw [OrderedMap.get?_collect] at some_
      obtain ⟨ping, member, rfl⟩ := OrderedMap.lastBy_isSome.mp some_
      exact (shown_ping_flushHour_iff (named member)).mpr (open_.pings ping member)

/-- With `telemetry.json` and no budget, nothing is hidden from the metrics. -/
theorem metrics_notHidden {key : HourKey} {history : HourHistory}
    (merged : history.objects.telemetry.isSome) (point : MetricPoint)
    (member : point ∈ metricsRead key.2 history) : Stored key.2 history point.ts := by
  obtain ⟨telemetry, found⟩ := Option.isSome_iff_exists.mp merged
  have bounds (inside : inHour key.2 point.ts = true) : key.2 ≤ point.ts ∧ point.ts < key.2 + hourSec := by
    unfold inHour at inside
    simp only [Bool.and_eq_true, decide_eq_true_eq] at inside
    omega
  rcases List.mem_append.mp member with archived | buffered
  · obtain ⟨listed, inside⟩ := List.mem_filter.mp archived
    refine ⟨bounds inside, point, List.mem_append_left _ ?_, rfl⟩
    rw [HourObjects.metricPayload, found] at listed
    rw [HourHistory.archived, found]
    exact listed
  · obtain ⟨listed, inside⟩ := List.mem_filter.mp (mem_byTs.mp (List.mem_of_mem_drop buffered))
    exact ⟨bounds inside, point, List.mem_append_right _ listed, rfl⟩

section Runs

private def hourRow : RowKey × ChunkRow :=
  let key : RowKey := ⟨false, ⟨"edge", by decide +kernel, by decide⟩, 7200⟩
  (key, ⟨key.agentId, pack (fun first second => first ≤ second) { points := [⟨7260, [("cpu", 1)], []⟩] }⟩)

/-- Only `metrics.json` of an older version is there. -/
private def olderHour : HourHistory where
  objects := ⟨none, some (.points [⟨7230, [("cpu", 2)], []⟩]), none⟩
  rows := [hourRow]

/-- The older object is hidden by the one that the flush writes. -/
theorem older_history_hidden :
    ¬ HistoryKept (fun first second => first ≤ second) 0 (hourRow.1.agentId, 7200) olderHour := by
  intro kept
  have shown := kept.metrics 7230 (by decide +kernel)
  revert shown
  decide +kernel

end Runs

end NieSla.Metrics
