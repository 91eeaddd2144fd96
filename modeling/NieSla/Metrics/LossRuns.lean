import NieSla.Lib.Compact
import NieSla.Lib.Progressions
import NieSla.Metrics.Pings

/-! The lost pings of a target as runs of timestamps. -/
namespace NieSla.Metrics

open Progressions Telemetry

/-- Runs start relative to `t0`. -/
structure LossSeries where
  targetId : String
  t0 : Int
  runs : List Run
deriving DecidableEq

/-! Encoding. -/

def lostPings (pings : List RawPing) : List Ping := (knownPings pings).filter fun ping => ping.ok ≠ 1

/-- A timestamp that equals the last one that was kept is dropped. -/
def uniqueTurn (last : Option Int) (timestamp : Int) : Option Int × Option Int :=
  if last = some timestamp then (last, none) else (some timestamp, some timestamp)

def uniqueTimestamps (timestamps : List Int) : List Int :=
  (Lib.compact uniqueTurn none (timestamps.insertionSort (· ≤ ·))).2

def lossSeries (targetId : String) (timestamps : List Int) : LossSeries :=
  let unique := uniqueTimestamps timestamps
  let t0 := unique.head?.getD 0
  ⟨targetId, t0, (split unique.length unique).map fun run => { run with start := run.start - t0 }⟩

def pingLossPointsToRuns (collate : String → String → Bool) (pings : List RawPing) : List LossSeries :=
  ((pingsByTarget (lostPings pings)).entries.insertionSort fun first second => collate first.1 second.1).map
    fun entry => lossSeries entry.1 (entry.2.map Ping.ts)

/-! Decoding. -/

def lossRunPoints (targetId : String) (t0 : Int) (run : Run) : List Ping :=
  if run.start < 0 ∨ run.step < 0 ∨ run.count < 1 then []
  else (List.range run.count).map fun index : Nat => ⟨targetId, t0 + run.start + run.step * index, none, 0⟩

def lossSeriesPoints (series : LossSeries) : List Ping :=
  let targetId := trim series.targetId
  if targetId = "" ∨ series.t0 ≤ 0 then [] else series.runs.flatMap (lossRunPoints targetId series.t0)

def pingLossRunsToPoints (collate : String → String → Bool) (series : List LossSeries) : List Ping :=
  (series.flatMap lossSeriesPoints).insertionSort (tsThenTarget collate Ping.targetId Ping.ts)

/-! Unique timestamps. -/

theorem increasing_keepFrom {last : Option Int} {list : List Int} (sorted : list.Pairwise (· ≤ ·))
    (ahead : ∀ known ∈ last, ∀ timestamp ∈ list, known ≤ timestamp) :
    (Lib.keepFrom uniqueTurn last list).2.Pairwise (· < ·) ∧
      ∀ timestamp, timestamp ∈ (Lib.keepFrom uniqueTurn last list).2 ↔ timestamp ∈ list ∧ last ≠ some timestamp := by
  induction list generalizing last with
  | nil => simp [Lib.keepFrom]
  | cons head rest ih =>
      obtain ⟨least, tail⟩ := List.pairwise_cons.mp sorted
      by_cases same : last = some head
      · obtain ⟨increasing, listed⟩ := ih tail fun known is timestamp member =>
          ahead known is timestamp (List.mem_cons_of_mem _ member)
        have step : Lib.keepFrom uniqueTurn last (head :: rest) = Lib.keepFrom uniqueTurn last rest := by
          simp [Lib.keepFrom, uniqueTurn, same]
        rw [step]
        refine ⟨increasing, fun timestamp => (listed timestamp).trans ?_⟩
        rw [List.mem_cons]
        constructor
        · exact fun both => ⟨.inr both.1, both.2⟩
        · rintro ⟨rfl | later, other⟩
          · exact absurd same other
          · exact ⟨later, other⟩
      · obtain ⟨increasing, listed⟩ := @ih (some head) tail fun known is timestamp member => by
          cases is
          exact least timestamp member
        have step : (Lib.keepFrom uniqueTurn last (head :: rest)).2 =
            head :: (Lib.keepFrom uniqueTurn (some head) rest).2 := by
          simp [Lib.keepFrom, uniqueTurn, same]
        rw [step]
        constructor
        · refine List.pairwise_cons.mpr ⟨fun timestamp member => ?_, increasing⟩
          obtain ⟨inside, other⟩ := (listed timestamp).mp member
          exact lt_of_le_of_ne (least timestamp inside) fun eq => other (congrArg some eq)
        · intro timestamp
          rw [List.mem_cons, listed, List.mem_cons]
          constructor
          · rintro (rfl | ⟨inside, other⟩)
            · exact ⟨.inl rfl, same⟩
            · refine ⟨.inr inside, fun known => other ?_⟩
              have below := ahead timestamp known head List.mem_cons_self
              exact congrArg some (le_antisymm (least timestamp inside) below)
          · rintro ⟨rfl | inside, other⟩
            · exact .inl rfl
            · by_cases equal : timestamp = head
              · exact .inl equal
              · exact .inr ⟨inside, fun eq => equal (Option.some.inj eq).symm⟩

theorem uniqueTimestamps_spec (timestamps : List Int) :
    (uniqueTimestamps timestamps).Pairwise (· < ·) ∧
      ∀ timestamp, timestamp ∈ uniqueTimestamps timestamps ↔ timestamp ∈ timestamps := by
  have kept := @increasing_keepFrom none _ (List.pairwise_insertionSort (· ≤ ·) timestamps) (by simp)
  rw [uniqueTimestamps, Lib.compact_eq]
  refine ⟨kept.1, fun timestamp => ?_⟩
  simpa using kept.2 timestamp

/-! The series of a target. -/

def lostPoint (targetId : String) (ts : Int) : Ping := ⟨targetId, ts, none, 0⟩

/-- A run of an increasing list whose numbers are not before `t0`. -/
theorem lossRunPoints_split {fuel : Nat} {list : List Int} (increasing : list.Pairwise (· < ·)) {t0 : Int}
    (first : ∀ timestamp ∈ list, t0 ≤ timestamp) (targetId : String) {run : Run} (member : run ∈ split fuel list) :
    lossRunPoints targetId t0 { run with start := run.start - t0 } = run.expand.map (lostPoint targetId) := by
  obtain ⟨some_, inside, forward⟩ := run_of_mem_split increasing member
  have after := first run.start inside
  have kept : ¬ (run.start - t0 < 0 ∨ run.step < 0 ∨ run.count < 1) := by omega
  rw [lossRunPoints, if_neg kept, Run.expand, List.map_map]
  refine List.map_congr_left fun index _ => ?_
  simp [lostPoint]

/-- A series is decoded if its first timestamp is positive. -/
theorem lossSeriesPoints_lossSeries {targetId : String} (named : targetId ≠ "")
    (trimmed : trim targetId = targetId) (timestamps : List Int) :
    lossSeriesPoints (lossSeries targetId timestamps) =
      if 0 < (uniqueTimestamps timestamps).head?.getD 0 then
        (uniqueTimestamps timestamps).map (lostPoint targetId)
      else [] := by
  have increasing := (uniqueTimestamps_spec timestamps).1
  simp only [lossSeriesPoints, lossSeries, trimmed, named, false_or]
  generalize uniqueTimestamps timestamps = list at *
  by_cases positive : 0 < list.head?.getD 0
  · have first : ∀ timestamp ∈ list, list.head?.getD 0 ≤ timestamp := by
      cases list with
      | nil => simp
      | cons head rest =>
          intro timestamp member
          rcases List.mem_cons.mp member with rfl | later
          · exact le_rfl
          · exact ((List.pairwise_cons.mp increasing).1 timestamp later).le
    have runs : ∀ run ∈ split list.length list,
        lossRunPoints targetId (list.head?.getD 0) { run with start := run.start - list.head?.getD 0 } =
          run.expand.map (lostPoint targetId) := fun run member =>
      lossRunPoints_split increasing first targetId member
    rw [if_neg (not_le.mpr positive), if_pos positive, List.flatMap_map, List.flatMap_congr runs,
      ← List.map_flatMap, flatMap_expand_split le_rfl]
  · rw [if_pos (not_lt.mp positive), if_neg positive]

theorem targetId_of_mem_lossSeriesPoints {series : LossSeries} {ping : Ping}
    (member : ping ∈ lossSeriesPoints series) : ping.targetId = trim series.targetId := by
  unfold lossSeriesPoints at member
  dsimp only at member
  split_ifs at member
  · cases member
  · obtain ⟨run, -, inside⟩ := List.mem_flatMap.mp member
    unfold lossRunPoints at inside
    split_ifs at inside
    · cases inside
    · obtain ⟨index, -, rfl⟩ := List.mem_map.mp inside
      rfl

section RoundTrip

variable {collate : String → String → Bool} {pings : List RawPing}

def lostTimes (targetId : String) (pings : List RawPing) : List Int :=
  (pingsOf targetId (lostPings pings)).map Ping.ts

theorem mem_lostTimes {targetId : String} {ts : Int} :
    ts ∈ lostTimes targetId pings ↔ ∃ lost ∈ lostPings pings, lost.targetId = targetId ∧ lost.ts = ts := by
  simp [lostTimes, pingsOf, and_assoc]

theorem lost_is_known {lost : Ping} (member : lost ∈ lostPings pings) : lost.targetId ≠ "" ∧ lost.ts ≠ 0 :=
  (mem_knownPings.mp (List.mem_filter.mp member).1).2

theorem trim_of_lost (plain : ∀ ping ∈ pings, PlainTargetId ping.targetId) {lost : Ping}
    (member : lost ∈ lostPings pings) : trim lost.targetId = lost.targetId := by
  obtain ⟨⟨raw, inside, rfl⟩, -⟩ := mem_knownPings.mp (List.mem_filter.mp member).1
  have own : raw.normal.targetId = cleanTargetId raw.targetId := rfl
  rw [own, cleanTargetId_of_plain (plain raw inside), trim_trim]

/-- What the decoder yields for a target. -/
theorem pingsOf_pingLossRunsToPoints (same : ∀ targetId, collate targetId targetId = true)
    (plain : ∀ ping ∈ pings, PlainTargetId ping.targetId) (targetId : String) :
    pingsOf targetId (pingLossRunsToPoints collate (pingLossPointsToRuns collate pings)) =
      if 0 < (uniqueTimestamps (lostTimes targetId pings)).head?.getD 0 then
        (uniqueTimestamps (lostTimes targetId pings)).map (lostPoint targetId)
      else [] := by
  set groups := pingsByTarget (lostPings pings) with grouped
  set entries := groups.entries.insertionSort fun first second => collate first.1 second.1 with ordered
  have perm : entries.Perm groups.entries := List.perm_insertionSort _ _
  have distinct : (entries.map Prod.fst).Nodup := ((perm.map Prod.fst).nodup_iff).mpr groups.nodup_keys
  have trimmed : ∀ entry ∈ entries, entry.1 ≠ "" ∧ trim entry.1 = entry.1 := by
    intro entry listed
    obtain ⟨own, some_⟩ := OrderedMap.mem_group_entries (perm.mem_iff.mp listed)
    obtain ⟨lost, member⟩ := List.exists_mem_of_ne_nil _ some_
    rw [own] at member
    have inside := List.mem_filter.mp member
    have named : lost.targetId = entry.1 := by simpa using inside.2
    rw [← named]
    exact ⟨(lost_is_known inside.1).1, trim_of_lost plain inside.1⟩
  have points : (pingLossPointsToRuns collate pings).flatMap lossSeriesPoints =
      entries.flatMap fun entry => lossSeriesPoints (lossSeries entry.1 (entry.2.map Ping.ts)) := by
    rw [pingLossPointsToRuns, List.flatMap_map]
  have own : pingsOf targetId ((pingLossPointsToRuns collate pings).flatMap lossSeriesPoints) =
      if 0 < (uniqueTimestamps (lostTimes targetId pings)).head?.getD 0 then
        (uniqueTimestamps (lostTimes targetId pings)).map (lostPoint targetId)
      else [] := by
    have others : ∀ entry ∈ entries, entry.1 ≠ targetId →
        (lossSeriesPoints (lossSeries entry.1 (entry.2.map Ping.ts))).filter
          (fun ping => ping.targetId = targetId) = [] := by
      intro entry listed other
      refine List.filter_eq_nil_iff.mpr fun ping member => ?_
      have named : ping.targetId = entry.1 :=
        (targetId_of_mem_lossSeriesPoints member).trans (trimmed entry listed).2
      rw [named]
      simpa using other
    rw [points, pingsOf, OrderedMap.filter_flatMap_entries ⟨entries, distinct⟩ targetId _ _ others]
    have found : (⟨entries, distinct⟩ : OrderedMap String (List Ping)).get? targetId = groups.get? targetId :=
      congrArg (Option.map Prod.snd) (OrderedMap.lastBy_perm distinct perm)
    have held := OrderedMap.get?_group Ping.targetId targetId (lostPings pings)
    by_cases none_ : (lostPings pings).filter (fun ping => ping.targetId = targetId) = []
    · have empty : lostTimes targetId pings = [] := by
        rw [lostTimes, pingsOf, none_]
        rfl
      rw [if_pos none_] at held
      rw [found, grouped, pingsByTarget, held, empty]
      rfl
    · rw [if_neg none_] at held
      obtain ⟨named, clean⟩ := trimmed _ (perm.mem_iff.mpr (OrderedMap.get?_eq_some.mp held))
      rw [found, grouped, pingsByTarget, held, Option.map_some, Option.getD_some, List.filter_eq_self.mpr]
      · exact lossSeriesPoints_lossSeries named clean _
      · intro ping member
        exact decide_eq_true ((targetId_of_mem_lossSeriesPoints member).trans clean)
  have sorted : (pingsOf targetId ((pingLossPointsToRuns collate pings).flatMap lossSeriesPoints)).Pairwise
      fun first second => first.ts ≤ second.ts := by
    rw [own]
    split_ifs
    · refine List.pairwise_map.mpr ((uniqueTimestamps_spec _).1.imp fun before => ?_)
      exact le_of_lt before
    · exact List.Pairwise.nil
  rw [pingLossRunsToPoints, pingsOf_insertionSort (same targetId) sorted, own]

/-- For a target the decoder yields each positive timestamp of a lost ping once, in order, as lost. -/
structure RoundTrips (collate : String → String → Bool) (pings : List RawPing) (targetId : String) : Prop where
  times : ∀ ts, (∃ point ∈ pingLossRunsToPoints collate (pingLossPointsToRuns collate pings),
      point.targetId = targetId ∧ point.ts = ts) ↔
    0 < ts ∧ ∃ lost ∈ lostPings pings, lost.targetId = targetId ∧ lost.ts = ts
  increasing : (pingsOf targetId (pingLossRunsToPoints collate (pingLossPointsToRuns collate pings))).Pairwise
    fun first second => first.ts < second.ts
  lost : ∀ point ∈ pingsOf targetId (pingLossRunsToPoints collate (pingLossPointsToRuns collate pings)),
    point.ok = 0

/-- The runs of a series do not overlap, and count the distinct timestamps of the lost pings. -/
structure RunsTile (pings : List RawPing) (series : LossSeries) : Prop where
  apart : series.runs.Pairwise fun first second => first.last < second.start
  counts : (series.runs.map Run.count).sum = (lostTimes series.targetId pings).toFinset.card

/-- A target with a lost ping before the epoch and one after it. -/
def AroundEpoch (targetId : String) (pings : List RawPing) : Prop :=
  (∃ ts ∈ lostTimes targetId pings, ts < 0) ∧ ∃ ts ∈ lostTimes targetId pings, 0 < ts

theorem runsTile_lossSeries (targetId : String) (timestamps : List Int) :
    (lossSeries targetId timestamps).runs.Pairwise (fun first second => first.last < second.start) ∧
      ((lossSeries targetId timestamps).runs.map Run.count).sum = timestamps.toFinset.card := by
  obtain ⟨increasing, listed⟩ := uniqueTimestamps_spec timestamps
  have same : (uniqueTimestamps timestamps).toFinset = timestamps.toFinset := by
    ext timestamp
    rw [List.mem_toFinset, List.mem_toFinset, listed]
  constructor
  · refine List.pairwise_map.mpr ((split_apart le_rfl increasing).imp fun {first second} apart => ?_)
    simp only [Run.last] at apart ⊢
    omega
  · rw [← same, List.toFinset_card_of_nodup (increasing.imp fun before => before.ne),
      ← sum_count_split (le_refl (uniqueTimestamps timestamps).length)]
    simp only [lossSeries, List.map_map, Function.comp_def]

/-- The first of the unique timestamps of a target is positive, unless they begin before the epoch. -/
theorem head_pos_iff {targetId : String} :
    0 < (uniqueTimestamps (lostTimes targetId pings)).head?.getD 0 ↔
      lostTimes targetId pings ≠ [] ∧ ∀ ts ∈ lostTimes targetId pings, 0 < ts := by
  obtain ⟨increasing, listed⟩ := uniqueTimestamps_spec (lostTimes targetId pings)
  rcases found : uniqueTimestamps (lostTimes targetId pings) with _ | ⟨head, rest⟩
  · have empty : lostTimes targetId pings = [] := List.eq_nil_iff_forall_not_mem.mpr fun ts member => by
      rw [← listed, found] at member
      cases member
    simp [empty]
  · rw [found] at increasing listed
    have here : head ∈ lostTimes targetId pings := (listed head).mp List.mem_cons_self
    constructor
    · intro positive
      refine ⟨List.ne_nil_of_mem here, fun ts member => ?_⟩
      rcases List.mem_cons.mp ((listed ts).mpr member) with rfl | later
      · exact positive
      · exact lt_trans positive ((List.pairwise_cons.mp increasing).1 ts later)
    · exact fun all => all.2 head here

theorem roundTrips_iff (same : ∀ targetId, collate targetId targetId = true)
    (plain : ∀ ping ∈ pings, PlainTargetId ping.targetId) (targetId : String) :
    RoundTrips collate pings targetId ↔ ¬ AroundEpoch targetId pings := by
  have decoded := pingsOf_pingLossRunsToPoints same plain targetId
  obtain ⟨increasing, listed⟩ := uniqueTimestamps_spec (lostTimes targetId pings)
  have shown (ts : Int) : (∃ point ∈ pingLossRunsToPoints collate (pingLossPointsToRuns collate pings),
      point.targetId = targetId ∧ point.ts = ts) ↔
      ∃ point ∈ pingsOf targetId (pingLossRunsToPoints collate (pingLossPointsToRuns collate pings)),
        point.ts = ts := by
    simp [pingsOf, and_assoc]
  by_cases positive : 0 < (uniqueTimestamps (lostTimes targetId pings)).head?.getD 0
  · rw [if_pos positive] at decoded
    have after := (head_pos_iff.mp positive).2
    have apart : ¬ AroundEpoch targetId pings := fun around => by
      obtain ⟨⟨ts, member, before⟩, -⟩ := around
      exact absurd (after ts member) (by omega)
    refine iff_of_true ⟨fun ts => ?_, ?_, ?_⟩ apart
    · rw [shown, decoded, ← mem_lostTimes, ← listed]
      constructor
      · rintro ⟨point, member, rfl⟩
        obtain ⟨ts, inside, rfl⟩ := List.mem_map.mp member
        exact ⟨after ts ((listed ts).mp inside), inside⟩
      · exact fun both => ⟨lostPoint targetId ts, List.mem_map_of_mem both.2, rfl⟩
    · rw [decoded]
      exact List.pairwise_map.mpr increasing
    · rw [decoded]
      intro point member
      obtain ⟨ts, -, rfl⟩ := List.mem_map.mp member
      rfl
  · rw [if_neg positive] at decoded
    have nothing (ts : Int) : ¬ ∃ point ∈ pingsOf targetId
        (pingLossRunsToPoints collate (pingLossPointsToRuns collate pings)), point.ts = ts := by
      rw [decoded]
      simp
    constructor
    · rintro ⟨times, -, -⟩ ⟨-, ts, member, after⟩
      exact nothing ts ((shown ts).mp ((times ts).mpr ⟨after, mem_lostTimes.mp member⟩))
    · intro apart
      refine ⟨fun ts => ?_, by rw [decoded]; exact List.Pairwise.nil, by rw [decoded]; simp⟩
      rw [shown, ← mem_lostTimes]
      refine iff_of_false (nothing ts) fun both => positive (head_pos_iff.mpr ?_)
      refine ⟨List.ne_nil_of_mem both.2, fun other member => ?_⟩
      by_contra low
      obtain ⟨lost, inside, -, rfl⟩ := mem_lostTimes.mp member
      have known := (lost_is_known inside).2
      exact apart ⟨⟨lost.ts, member, by omega⟩, ts, both.2, both.1⟩

/-- Loss runs round-trip, but for a target with lost pings on both sides of the epoch. -/
theorem loss_runs_round_trip (same : ∀ targetId, collate targetId targetId = true)
    (plain : ∀ ping ∈ pings, PlainTargetId ping.targetId) :
    (∀ targetId, RoundTrips collate pings targetId ↔ ¬ AroundEpoch targetId pings) ∧
      ∀ series ∈ pingLossPointsToRuns collate pings, RunsTile pings series := by
  refine ⟨roundTrips_iff same plain, fun series member => ?_⟩
  obtain ⟨entry, listed, rfl⟩ := List.mem_map.mp member
  have own := (OrderedMap.mem_group_entries ((List.mem_insertionSort _).mp listed)).1
  have times : entry.2.map Ping.ts = lostTimes entry.1 pings := by
    rw [own]
    rfl
  have tiles := runsTile_lossSeries entry.1 (entry.2.map Ping.ts)
  refine ⟨tiles.1, ?_⟩
  rw [tiles.2, times]
  rfl

end RoundTrip

def losses : List RawPing :=
  [100, 103, 109, 110, 111, 150].map fun ts : Int => ⟨"a", ts, none, some 0⟩

theorem loss_runs_round_trip_losses :
    (∀ targetId, RoundTrips (fun first second => first ≤ second) losses targetId ↔
      ¬ AroundEpoch targetId losses) ∧
      ∀ series ∈ pingLossPointsToRuns (fun first second => first ≤ second) losses, RunsTile losses series :=
  loss_runs_round_trip (fun _ => by simp) fun ping member => by
    obtain ⟨ts, -, rfl⟩ := List.mem_map.mp member
    exact ⟨show textLength "a" ≤ 64 by decide,
      show ∀ c ∈ "a".toList, isControl c = false by simp; decide⟩

/-- A lost ping before the epoch, and one after it. -/
def aroundEpoch : List RawPing := [⟨"a", -5, none, some 0⟩, ⟨"a", 100, none, some 0⟩]

theorem lost_ping_not_decoded :
    (⟨"a", 100, none, 0⟩ : Ping) ∈ lostPings aroundEpoch ∧
      pingLossRunsToPoints (fun first second => first ≤ second)
        (pingLossPointsToRuns (fun first second => first ≤ second) aroundEpoch) = [] := by
  decide +kernel

end NieSla.Metrics
