import NieSla.Lib.Downsample
import NieSla.Metrics.Pings

/-! The history that is shown is down-sampled: a list that is too long is cut into chunks, and each chunk but
the first and the last is replaced by its average. -/
namespace NieSla.Metrics

open Downsample Telemetry

/-! Metric points. -/

/-- A metric point whose time need not be a whole second. -/
structure TimedPoint where
  ts : ℚ
  fields : List (String × ℚ)
  temperatureSensors : List TemperatureSensor
deriving DecidableEq

/-- `normalizeMetricPoint`, which keeps the time. -/
def normalizeTimedPoint (point : TimedPoint) : TimedPoint :=
  let normal := normalizeMetricPoint ⟨0, point.fields, point.temperatureSensors⟩
  ⟨point.ts, normal.fields, normal.temperatureSensors⟩

/-- The first sensor of an id gives the average its label and kind. -/
def averageTemperatureSensors (chunk : List TimedPoint) : List TemperatureSensor :=
  let sensors := (chunk.flatMap TimedPoint.temperatureSensors).filterMap fun sensor =>
    normalizeBufferedTemperatureSensor sensor.name (some sensor.tempC)
  (OrderedMap.group TemperatureSensor.id sensors).values.filterMap fun group =>
    group.head?.map fun first =>
      { first with tempC := roundMetric (mean (group.map TemperatureSensor.tempC)) }

def averageMetricChunk (chunk : List TimedPoint) : TimedPoint where
  ts := mathRound (mean (chunk.map TimedPoint.ts))
  fields := metricFields.filterMap fun key =>
    let values := chunk.filterMap fun point => point.fields.lookup key
    if values = [] then if optionalFields.contains key then none else some (key, 0)
    else some (key, roundMetric (mean values))
  temperatureSensors := averageTemperatureSensors chunk

/-- The normalized points in the order of their times. -/
def metricList (points : List TimedPoint) : List TimedPoint :=
  ((points.map normalizeTimedPoint).filter fun point => 0 < point.ts).insertionSort
    fun first second => first.ts ≤ second.ts

def maxSamples (maxPoints : JsNumber) : Nat := (clamp maxPoints 2 5000).toNat

def compactMetricPoints (points : List TimedPoint) (maxPoints : JsNumber) : List TimedPoint :=
  sample averageMetricChunk (maxSamples maxPoints) (metricList points)

/-! Pings. -/

/-- `Number(null)` is 0, a finite number. -/
def averagePingChunk (chunk : List Ping) : Ping :=
  let okPoints := chunk.filter fun ping => ping.ok = 1
  { targetId := (chunk.head?.map Ping.targetId).getD ""
    ts := mathRound (mean (chunk.map fun ping => (ping.ts : ℚ)))
    latencyMs :=
      if okPoints = [] then none
      else some (mathRound (mean (okPoints.map fun ping => ping.latencyMs.getD 0)))
    ok := if chunk.any fun ping => ping.ok ≠ 1 then 0 else 1 }

def compactPingSeries (list : List Ping) (maxPoints : Nat) : List Ping := sample averagePingChunk maxPoints list

def compactPingPointsByTarget (collate : String → String → Bool) (pings : List RawPing)
    (maxPerTarget : JsNumber) : List Ping :=
  ((pingsByTarget (knownPings pings)).entries.flatMap fun entry =>
    compactPingSeries (pingsByTs entry.2) (maxSamples maxPerTarget)).insertionSort
      (tsThenTarget collate Ping.targetId Ping.ts)

/-- The normalized pings of a target in the order of their times. -/
def pingList (targetId : String) (pings : List RawPing) : List Ping :=
  pingsByTs (pingsOf targetId (knownPings pings))

/-! Times. -/

theorem two_le_maxSamples (maxPoints : JsNumber) : 2 ≤ maxSamples maxPoints := by
  have low := clamp_ge (show (2 : Int) ≤ 5000 by decide) maxPoints
  unfold maxSamples
  omega

theorem sorted_metricList (points : List TimedPoint) :
    (metricList points).Pairwise fun first second => first.ts ≤ second.ts :=
  haveI : Std.Total fun first second : TimedPoint => first.ts ≤ second.ts := ⟨fun _ _ => le_total _ _⟩
  haveI : IsTrans TimedPoint fun first second : TimedPoint => first.ts ≤ second.ts := ⟨fun _ _ _ => le_trans⟩
  List.pairwise_insertionSort _ _

/-! Rounding stays within whole bounds. -/

theorem le_mathRound {low : Int} {value : ℚ} (below : (low : ℚ) ≤ value) : low ≤ mathRound value := by
  unfold mathRound
  rw [Int.le_floor]
  linarith

theorem mathRound_le {high : Int} {value : ℚ} (above : value ≤ (high : ℚ)) : mathRound value ≤ high := by
  unfold mathRound
  rw [← Int.lt_add_one_iff, Int.floor_lt]
  push_cast
  linarith

theorem among_averageMetricChunk :
    Among TimedPoint.ts (fun point => ∃ second : Int, point.ts = second) averageMetricChunk := by
  intro chunk some_ whole
  have values : chunk.map TimedPoint.ts ≠ [] := by simpa using some_
  obtain ⟨⟨_, one, below⟩, _, two, above⟩ := mean_among values
  obtain ⟨low, lowIn, rfl⟩ := List.mem_map.mp one
  obtain ⟨high, highIn, rfl⟩ := List.mem_map.mp two
  obtain ⟨lowest, lowTs⟩ := whole low lowIn
  obtain ⟨highest, highTs⟩ := whole high highIn
  rw [lowTs] at below
  rw [highTs] at above
  have rounded : (averageMetricChunk chunk).ts = (mathRound (mean (chunk.map TimedPoint.ts)) : ℚ) := rfl
  refine ⟨⟨low, lowIn, ?_⟩, high, highIn, ?_⟩
  · rw [lowTs, rounded]
    exact_mod_cast le_mathRound below
  · rw [highTs, rounded]
    exact_mod_cast mathRound_le above

theorem among_averagePingChunk : Among Ping.ts (fun _ => True) averagePingChunk := by
  intro chunk some_ _
  have values : chunk.map (fun ping => (ping.ts : ℚ)) ≠ [] := by simpa using some_
  obtain ⟨⟨_, one, below⟩, _, two, above⟩ := mean_among values
  obtain ⟨low, lowIn, rfl⟩ := List.mem_map.mp one
  obtain ⟨high, highIn, rfl⟩ := List.mem_map.mp two
  exact ⟨⟨low, lowIn, le_mathRound below⟩, high, highIn, mathRound_le above⟩

/-! What is shown of a list in the order of its times. -/

/-- The larger of 2 and the smaller of 5000 and `maxPoints`. -/
def sampleLimit : JsNumber → ℚ
  | .finite bound => max 2 (min 5000 bound)
  | .infinity => 5000
  | .nan | .negInfinity => 2

structure Bounded {α : Type} (maxPoints : JsNumber) (list out : List α) : Prop where
  few : (out.length : ℚ) ≤ sampleLimit maxPoints
  first : out.head? = list.head?
  last : out.getLast? = list.getLast?

structure Timed {α : Type} (time : α → ℚ) (list out : List α) : Prop where
  between : ∀ first ∈ list.head?, ∀ last ∈ list.getLast?, ∀ item ∈ out,
    time first ≤ time item ∧ time item ≤ time last
  increasing : (list.map time).Nodup → out.Pairwise fun first second => time first < time second

/-- No part with a lost ping is shown as answered, an end in place of the average aside. -/
def LossShown (maxPoints : Nat) (list out : List Ping) : Prop :=
  ∀ index part ping, (parts maxPoints list)[index]? = some part → out[index]? = some ping →
    (∃ lost ∈ part, lost.ok ≠ 1) →
      ping.ok ≠ 1 ∨ (index = 0 ∧ list.head? = some ping) ∨
        (index + 1 = out.length ∧ list.getLast? = some ping)

theorem maxSamples_le (maxPoints : JsNumber) : (maxSamples maxPoints : ℚ) ≤ sampleLimit maxPoints := by
  cases maxPoints with
  | finite bound =>
      have whole : (maxSamples (.finite bound) : Int) = max 2 (min 5000 ⌊bound⌋) :=
        Int.toNat_of_nonneg (le_max_of_le_left (by decide))
      have cast : (maxSamples (.finite bound) : ℚ) = max 2 (min 5000 (⌊bound⌋ : ℚ)) := by
        exact_mod_cast congrArg (fun n : Int => (n : ℚ)) whole
      rw [cast]
      exact max_le_max_left 2 (min_le_min_left 5000 (Int.floor_le bound))
  | nan | infinity | negInfinity => simp [maxSamples, clamp, sampleLimit]

theorem bounded_sample {α : Type} (average : List α → α) (maxPoints : JsNumber) (list : List α) :
    Bounded maxPoints list (sample average (maxSamples maxPoints) list) where
  few := by
    have few := (sampled_sample average (two_le_maxSamples maxPoints) list).2
    exact le_trans (by exact_mod_cast few) (maxSamples_le maxPoints)
  first := (sampled_sample average (two_le_maxSamples maxPoints) list).1.ends_eq.1
  last := (sampled_sample average (two_le_maxSamples maxPoints) list).1.ends_eq.2

theorem timed_sample {α : Type} {time : α → ℚ} {good : α → Prop} {average : List α → α}
    (among : Among time good average) {maxPoints : Nat} (wide : 2 ≤ maxPoints) {list : List α}
    (every : ∀ item ∈ list, good item)
    (sorted : list.Pairwise fun first second => time first ≤ time second) :
    Timed time list (sample average maxPoints list) where
  between _ opens _ closes _ member :=
    (sampled_sample average wide list).1.between among every sorted opens closes member
  increasing distinct := by
    have strict : list.Pairwise fun first second => time first < time second := by
      refine (sorted.and (List.pairwise_map.mp distinct)).imp fun both => ?_
      exact lt_of_le_of_ne both.1 both.2
    exact (sampled_sample average wide list).1.pairwise lt_of_le_of_lt lt_of_lt_of_le among every strict

theorem lossShown_compactPingSeries (list : List Ping) (maxPoints : Nat) :
    LossShown maxPoints list (compactPingSeries list maxPoints) := by
  intro index part ping here there lossy
  obtain ⟨lost, member, failed⟩ := lossy
  rcases sample_part here there with rfl | rfl | ends
  · left
    have found : (part.any fun ping => ping.ok ≠ 1) = true := List.any_eq_true.mpr ⟨lost, member, by simpa⟩
    rw [averagePingChunk, if_pos found]
    exact zero_ne_one
  · exact .inl (List.mem_singleton.mp member ▸ failed)
  · exact .inr ends

/-! The pings of a target. -/

section Target

variable {collate : String → String → Bool} {targetId : String}

theorem targetId_of_mem_compactPingSeries {list : List Ping} {max : Nat} (wide : 2 ≤ max)
    (own : ∀ ping ∈ list, ping.targetId = targetId) {ping : Ping} (member : ping ∈ compactPingSeries list max) :
    ping.targetId = targetId := by
  have sampled := (sampled_sample averagePingChunk wide list).1
  unfold compactPingSeries at member
  generalize sample averagePingChunk max list = out at *
  cases sampled with
  | all => exact own ping member
  | ends first last head tail middle whole some_ =>
      subst whole
      rcases List.mem_append.mp member with front | only
      · rcases List.mem_cons.mp front with rfl | average_
        · exact own ping (by simp)
        · obtain ⟨chunk, part, rfl⟩ := List.mem_map.mp average_
          obtain ⟨opening, rest, rfl⟩ := List.exists_cons_of_ne_nil (some_ chunk part)
          have inside : opening ∈ middle.flatten := List.mem_flatten.mpr ⟨_, part, List.mem_cons_self⟩
          exact own opening (by simp [inside])
      · rw [List.mem_singleton.mp only]
        exact own last (by simp)

theorem targetId_of_mem_pingList {pings : List RawPing} {ping : Ping} (member : ping ∈ pingList targetId pings) :
    ping.targetId = targetId := by
  have inside := (List.mem_insertionSort _).mp member
  simpa using (List.mem_filter.mp inside).2

theorem pairwise_compactPingSeries {list : List Ping} {max : Nat} (wide : 2 ≤ max)
    (sorted : list.Pairwise fun first second => first.ts ≤ second.ts) :
    (compactPingSeries list max).Pairwise fun first second => first.ts ≤ second.ts :=
  (sampled_sample averagePingChunk wide list).1.pairwise le_trans le_trans among_averagePingChunk
    (fun _ _ => trivial) sorted

theorem pingsOf_compactPingPointsByTarget (same : collate targetId targetId = true) (pings : List RawPing)
    (maxPerTarget : JsNumber) :
    pingsOf targetId (compactPingPointsByTarget collate pings maxPerTarget) =
      compactPingSeries (pingList targetId pings) (maxSamples maxPerTarget) := by
  have wide := two_le_maxSamples maxPerTarget
  set shown := (pingsByTarget (knownPings pings)).entries.flatMap fun entry =>
    compactPingSeries (pingsByTs entry.2) (maxSamples maxPerTarget) with parts
  have own : pingsOf targetId shown =
      compactPingSeries (pingList targetId pings) (maxSamples maxPerTarget) := by
    have mine (entry : String × List Ping) (listed : entry ∈ (pingsByTarget (knownPings pings)).entries)
        {ping : Ping} (member : ping ∈ compactPingSeries (pingsByTs entry.2) (maxSamples maxPerTarget)) :
        ping.targetId = entry.1 := by
      refine targetId_of_mem_compactPingSeries wide (fun other inside => ?_) member
      have grouped := (List.mem_insertionSort _).mp inside
      rw [(OrderedMap.mem_group_entries listed).1] at grouped
      simpa using (List.mem_filter.mp grouped).2
    rw [pingsOf, parts, OrderedMap.filter_flatMap_entries _ targetId]
    · rw [pingsByTarget, OrderedMap.get?_group]
      split
      · rename_i none_
        rw [pingList, pingsOf, none_]
        rfl
      · refine List.filter_eq_self.mpr fun ping member => decide_eq_true ?_
        exact targetId_of_mem_compactPingSeries wide
          (fun ping (inside : ping ∈ pingList targetId pings) => targetId_of_mem_pingList inside) member
    · intro entry listed other
      refine List.filter_eq_nil_iff.mpr fun ping member => ?_
      rw [mine entry listed member]
      simpa using other
  have sorted : (pingsOf targetId shown).Pairwise fun first second => first.ts ≤ second.ts := by
    rw [own]
    exact pairwise_compactPingSeries wide (sorted_pingsByTs _)
  rw [compactPingPointsByTarget, pingsOf_insertionSort same sorted, own]

end Target

/-- Down-sampling keeps its bounds and ends; where the times are whole seconds it keeps their order too. -/
theorem downsampling_keeps_bounds {collate : String → String → Bool}
    (same : ∀ targetId, collate targetId targetId = true) (maxPoints : JsNumber) :
    (∀ points : List TimedPoint,
      Bounded maxPoints (metricList points) (compactMetricPoints points maxPoints) ∧
        ((∀ point ∈ points, ∃ second : Int, point.ts = second) →
          Timed TimedPoint.ts (metricList points) (compactMetricPoints points maxPoints))) ∧
    ∀ (pings : List RawPing) (targetId : String),
      let shown := pingsOf targetId (compactPingPointsByTarget collate pings maxPoints)
      Bounded maxPoints (pingList targetId pings) shown ∧
        Timed (fun ping => ping.ts) (pingList targetId pings) shown ∧
        LossShown (maxSamples maxPoints) (pingList targetId pings) shown := by
  have wide := two_le_maxSamples maxPoints
  constructor
  · intro points
    refine ⟨bounded_sample _ _ _, fun whole => ?_⟩
    refine timed_sample among_averageMetricChunk wide (fun point member => ?_) (sorted_metricList points)
    have inside := List.mem_filter.mp ((List.mem_insertionSort _).mp member)
    obtain ⟨raw, listed, rfl⟩ := List.mem_map.mp inside.1
    exact whole raw listed
  · intro pings targetId
    dsimp only
    rw [pingsOf_compactPingPointsByTarget (same targetId)]
    refine ⟨bounded_sample _ _ _, ?_, lossShown_compactPingSeries _ _⟩
    have among : Among (fun ping : Ping => (ping.ts : ℚ)) (fun _ => True) averagePingChunk := by
      intro chunk some_ good
      simpa only [Int.cast_le] using among_averagePingChunk chunk some_ good
    have sorted : (pingList targetId pings).Pairwise fun first second => (first.ts : ℚ) ≤ second.ts :=
      (sorted_pingsByTs _).imp fun {first second} before => by exact_mod_cast before
    exact timed_sample among wide (fun _ _ => trivial) sorted

def seconds : List TimedPoint :=
  [11, 12, 13, 14, 15, 16].map fun second : Int => ⟨second, [("cpu", 40)], []⟩

def answers : List RawPing :=
  [⟨"a", 11, some 20, some 1⟩, ⟨"a", 12, none, none⟩, ⟨"a", 13, some 24, none⟩, ⟨"b", 11, some 9, some 0⟩]

theorem downsampling_keeps_bounds_seconds :
    (Bounded (.finite 3) (metricList seconds) (compactMetricPoints seconds (.finite 3)) ∧
      Timed TimedPoint.ts (metricList seconds) (compactMetricPoints seconds (.finite 3))) ∧
    let shown := pingsOf "a" (compactPingPointsByTarget (fun first second => first ≤ second) answers (.finite 3))
    Bounded (.finite 3) (pingList "a" answers) shown ∧
      Timed (fun ping => ping.ts) (pingList "a" answers) shown ∧
      LossShown (maxSamples (.finite 3)) (pingList "a" answers) shown := by
  have both := @downsampling_keeps_bounds (fun first second => first ≤ second) (fun _ => by simp) (.finite 3)
  refine ⟨⟨(both.1 seconds).1, (both.1 seconds).2 fun point member => ?_⟩, both.2 answers "a"⟩
  obtain ⟨second, -, rfl⟩ := List.mem_map.mp member
  exact ⟨second, rfl⟩

def tenths : List TimedPoint := [11, 12, 13, 14, 15, 16].map fun tenth => ⟨tenth / 10, [], []⟩

/-- Six points between 1.1 and 1.6 seconds, three of them shown: the average of the middle ones rounds to 1. -/
theorem average_before_first :
    (∀ point ∈ tenths, 0 < point.ts) ∧ (tenths.map TimedPoint.ts).Nodup ∧
      (compactMetricPoints tenths (.finite 3)).map TimedPoint.ts = [11 / 10, 1, 16 / 10] := by
  decide +kernel

end NieSla.Metrics
