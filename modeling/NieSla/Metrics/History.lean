import NieSla.Metrics.Columns
import NieSla.Telemetry.HourFlush

/-! What the public readers show of one hour of an agent: of `telemetry.json`, or of the two older
objects where there is none, and of the rows that are still buffered. -/
namespace NieSla.Metrics

open Telemetry

/-- `metrics.json`, as it was first written or upgraded to columns. -/
inductive MetricPayload where
  | points (points : List MetricPoint)
  | series (series : MetricColumns)

/-- `pings.json`, as it was first written or upgraded to series. -/
inductive PingPayload where
  | pings (pings : List Ping)
  | series (series : List PingSeries)

structure HourObjects where
  telemetry : Option Packed
  metrics : Option MetricPayload
  pings : Option PingPayload

/-- The R2 objects of an hour of an agent and its buffered rows, in the order of the listing. -/
structure HourHistory where
  objects : HourObjects
  rows : List (RowKey × ChunkRow)

/-- The reader asks for the whole hour. -/
def inHour (hour ts : Int) : Bool := hour ≤ ts && ts ≤ hour + (hourSec - 1)

/-! The buffer. -/

def maxBufferReadPoints : Nat := 20000

def tail {α : Type} (list : List α) : List α := list.drop (list.length - maxBufferReadPoints)

namespace HourHistory

def archived (history : HourHistory) : Batch := (history.objects.telemetry.map unpack).getD {}

def bufferedPoints (history : HourHistory) : List MetricPoint :=
  history.rows.flatMap fun row => (unpack row.2.packed).points

def bufferedPings (history : HourHistory) : List Ping :=
  history.rows.flatMap fun row => (unpack row.2.packed).pings

end HourHistory

/-- The points that `read` of the buffer returns. -/
def readPoints (hour : Int) (history : HourHistory) : List MetricPoint :=
  tail (byTs (history.bufferedPoints.filter fun point => inHour hour point.ts))

/-- The pings that `read` of the buffer returns. -/
def readPings (collate : String → String → Bool) (hour : Int) (history : HourHistory) : List Ping :=
  tail ((history.bufferedPings.filter fun ping => inHour hour ping.ts).insertionSort
    (tsThenTarget collate Ping.targetId Ping.ts))

/-! Metric points. -/

def HourObjects.metricPayload (objects : HourObjects) : Option MetricPayload :=
  match objects.telemetry with
  | some telemetry => some (.series telemetry.metricSeries)
  | none => objects.metrics

def metricPointsFromPayload : Option MetricPayload → List MetricPoint
  | none => []
  | some (.series series) => metricColumnsToPoints series
  | some (.points points) => points.map normalizeMetricPoint

/-- The points in the order in which the reader comes to them. -/
def metricsRead (hour : Int) (history : HourHistory) : List MetricPoint :=
  ((metricPointsFromPayload history.objects.metricPayload).filter fun point =>
    inHour hour point.ts) ++ readPoints hour history

/-- Of how many seconds one point is kept, when the read has a budget. -/
def bucketSec (budget : Nat) : Option Int :=
  if budget = 0 then none else some (max 1 ⌈((hourSec - 1 : Int) : ℚ) / (budget * 2)⌉)

/-- `keepPoint`, and the point that is set; with the buckets that have been seen. -/
def setPoint (width : Option Int) (state : List Int × OrderedMap Int MetricPoint)
    (point : MetricPoint) : List Int × OrderedMap Int MetricPoint :=
  match width with
  | none => (state.1, state.2.set point.ts (normalizeMetricPoint point))
  | some width =>
      if point.ts / width ∈ state.1 then state
      else (point.ts / width :: state.1, state.2.set point.ts (normalizeMetricPoint point))

def loadAgentMetricsR2History (budget : Nat) (hour : Int) (history : HourHistory) :
    OrderedMap Int MetricPoint :=
  ((metricsRead hour history).foldl (setPoint (bucketSec budget)) ([], .empty)).2

/-! Pings. -/

def isControl (c : Char) : Bool := c.val ≤ 0x1f || c.val = 0x7f

/-- `replace(/[\u0000-\u001f\u007f]+/g, ' ')` -/
def spaceControls (inRun : Bool) : List Char → List Char
  | [] => []
  | c :: rest =>
      if isControl c then if inRun then spaceControls true rest else ' ' :: spaceControls true rest
      else c :: spaceControls false rest

def cleanTargetId (targetId : String) : String :=
  cut 64 (trim (String.ofList (spaceControls false targetId.toList)))

def normalizePingPoint (targetId : String) (ts : Int) (latencyMs : Option ℚ) (ok : Option Int) :
    Ping :=
  let latency := (latencyMs.map mathRound).filter fun latency => 0 ≤ latency ∧ latency ≤ 1000
  { targetId := cleanTargetId targetId
    ts
    latencyMs := latency.map fun latency => (latency : ℚ)
    ok := if latency.isSome ∧ ok.getD 1 = 1 then 1 else 0 }

@[simp] theorem normalizePingPoint_ts (targetId : String) (ts : Int) (latencyMs : Option ℚ)
    (ok : Option Int) : (normalizePingPoint targetId ts latencyMs ok).ts = ts := rfl

/-- A ping as it is read. -/
def normalPing (ping : Ping) : Ping :=
  normalizePingPoint ping.targetId ping.ts ping.latencyMs (some ping.ok)

@[simp] theorem normalPing_ts (ping : Ping) : (normalPing ping).ts = ping.ts := by
  rw [normalPing, normalizePingPoint_ts]

def decodeStoredPings (series : PingSeries) : List Ping :=
  series.dt.mapIdx fun index delta =>
    normalizePingPoint (trim series.targetId) (series.t0 + delta) series.latencyMs[index]?.join
      series.ok[index]?

def HourObjects.pingPayload (objects : HourObjects) : Option PingPayload :=
  match objects.telemetry with
  | some telemetry => some (.series telemetry.pingSeries)
  | none => objects.pings

def pingPointsFromPayload : Option PingPayload → List Ping
  | none => []
  | some (.series series) => series.flatMap decodeStoredPings
  | some (.pings pings) => pings.map normalPing

/-- The pings in the order in which the reader comes to them. -/
def pingsRead (collate : String → String → Bool) (hour : Int) (history : HourHistory) : List Ping :=
  ((pingPointsFromPayload history.objects.pingPayload ++ readPings collate hour history).map
    normalPing).filter fun ping => ping.targetId ≠ "" ∧ inHour hour ping.ts

def pingKey (ping : Ping) : String × Int := (ping.targetId, ping.ts)

def loadAgentPingsR2History (collate : String → String → Bool) (hour : Int)
    (history : HourHistory) : OrderedMap (String × Int) Ping :=
  OrderedMap.collect pingKey (pingsRead collate hour history)

/-! The flush. -/

/-- `flushHour`, and the rows deleted after it. -/
def flushHour (collate : String → String → Bool) (key : HourKey) (history : HourHistory) :
    HourHistory where
  objects :=
    { history.objects with
      telemetry := some (pack collate
        (mergeBuffer collate history.archived (mergeRows collate ⟨key, history.rows⟩) key.2 hourSec)) }
  rows := []

end NieSla.Metrics
