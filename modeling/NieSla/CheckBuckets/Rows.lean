import NieSla.Lib.OrderedMap
import NieSla.ProbeHistory.Point

/-! The checks of a target by buckets of five minutes: how they are stored in D1 and in the probe
history, and the summary of a day that is read from there. -/
namespace NieSla.CheckBuckets

open ProbeHistory (ProbePoint PublicPoint RawPoint missedError missedPhrase normalizeProbePoint
  toPublicPoint)

def bucketSec : Int := 300

def bucketOf (sec : Int) : Int := sec / bucketSec * bucketSec

/-- `total`, `ok_count` and `sum_latency_ms` of a summary. -/
structure Totals where
  total : ℚ
  okCount : ℚ
  sumLatencyMs : ℚ
deriving DecidableEq

def Totals.equiv : Totals ≃ ℚ × ℚ × ℚ where
  toFun totals := (totals.total, totals.okCount, totals.sumLatencyMs)
  invFun parts := ⟨parts.1, parts.2.1, parts.2.2⟩
  left_inv _ := rfl
  right_inv _ := rfl

instance : AddCommGroup Totals := Totals.equiv.addCommGroup

@[simp] theorem Totals.add_mk (total okCount sum total' okCount' sum' : ℚ) :
    (⟨total, okCount, sum⟩ + ⟨total', okCount', sum'⟩ : Totals) =
      ⟨total + total', okCount + okCount', sum + sum'⟩ := rfl

theorem Totals.zero_mk : (0 : Totals) = ⟨0, 0, 0⟩ := rfl

/-- A point that is to be stored. -/
structure CheckPoint where
  checkedAt : Int
  ok : Bool
  latencyMs : Option Int := none
  statusCode : Option Int := none
  error : Option String := none
  probeRegion : String := "auto"
  cfColo : Option String := none
  total : Nat := 1
  okCount : Nat
  missed : Bool := false

def CheckPoint.isMissedMonitorPoint (point : CheckPoint) : Bool :=
  point.missed || missedError point.error

/-- What a point counts in the summary of its day. -/
def CheckPoint.totals (point : CheckPoint) : Totals :=
  if point.isMissedMonitorPoint then 0
  else ⟨point.total, point.okCount, ((point.latencyMs.getD 0 * point.okCount : Int) : ℚ)⟩

/-! The rows of D1. -/

/-- A row of `check_buckets`; `target_id` and `bucket_at` are its key. -/
structure CheckBucketRow where
  day : Int
  total : Int
  okCount : Int
  sumLatencyMs : Int
  lastOk : Bool
  lastLatencyMs : Option Int
  lastStatusCode : Option Int
  lastError : Option String
  probeRegion : String
  cfColo : Option String

/-- The row that `checkBucketStatement` writes, with what `normalizeCheckBucketPoint` makes of the
point. -/
def checkBucketRow (day : Int) (point : CheckPoint) : CheckBucketRow :=
  let missed := point.isMissedMonitorPoint
  let latencyMs := if missed then none else point.latencyMs
  { day
    total := if missed then max 1 (if point.total = 0 then 1 else point.total) else point.total
    okCount := if missed then 0 else point.okCount
    sumLatencyMs := latencyMs.getD 0
    lastOk := !missed && point.ok
    lastLatencyMs := latencyMs
    lastStatusCode := if missed then none else point.statusCode
    lastError := point.error.map (cut 500)
    probeRegion := if point.probeRegion = "" then "auto" else point.probeRegion
    cfColo := point.cfColo.filter fun colo => colo ≠ "" }

abbrev CheckBucketTable := OrderedMap (String × Int) CheckBucketRow

/-- The three sums of a row, where `last_error LIKE '%…%'` leaves a missed check out. -/
def CheckBucketRow.sums (row : CheckBucketRow) : Totals :=
  if missedError row.lastError then 0 else ⟨row.total, row.okCount, row.sumLatencyMs⟩

/-! The probe history. -/

def CheckPoint.raw (point : CheckPoint) : RawPoint where
  checkedAt := point.checkedAt
  missed := point.missed
  error := point.error
  total := some point.total
  okCount := some point.okCount
  ok := some (if point.ok then 1 else 0)
  latencyMs := point.latencyMs.map fun latency => (latency : ℚ)
  statusCode := point.statusCode.map fun status => (status : ℚ)
  probeRegion := some point.probeRegion
  cfColo := point.cfColo

/-- What the buffer and the archive together hold for each target and time: the point that was
appended last. -/
abbrev History := OrderedMap (String × Int) ProbePoint

def appendBufferedProbeHistory (target : String) (history : History) (points : List CheckPoint) :
    History :=
  points.foldl (fun history point =>
    match normalizeProbePoint point.raw with
    | some stored => history.set (target, stored.checkedAt) stored
    | none => history) history

def dayRangeLimit : Int := 90

def readBufferedProbeHistory (env : Env) (history : History) (target : String)
    (since stop fromDay toDay : Int) : List PublicPoint :=
  ((history.entries.filter fun entry => entry.1.1 = target &&
      since ≤ entry.1.2 && entry.1.2 ≤ stop && fromDay ≤ dayFromSec entry.1.2 env &&
      dayFromSec entry.1.2 env ≤ toDay && dayFromSec entry.1.2 env < fromDay + dayRangeLimit).map
    fun entry => toPublicPoint entry.2).insertionSort fun first second =>
      first.checkedAt ≤ second.checkedAt

/-! The summary of a day. -/

structure Stores where
  checkBuckets : CheckBucketTable
  history : History

/-- A point as `summarizeCheckPoints` reads it. -/
structure DayPoint where
  checkedAt : Int
  missed : Bool
  total : ℚ
  okCount : ℚ
  latencyMs : Option ℚ

def DayPoint.totals (point : DayPoint) : Totals :=
  if point.missed then 0
  else ⟨max 0 point.total, max 0 point.okCount, point.latencyMs.getD 0 * max 0 point.okCount⟩

def CheckBucketRow.dayPoint (row : CheckBucketRow) (bucketAt : Int) : DayPoint where
  checkedAt := bucketAt
  missed := missedError row.lastError
  total := row.total
  okCount := row.okCount
  latencyMs := row.lastLatencyMs.map fun latency => (latency : ℚ)

def publicDayPoint (point : PublicPoint) : DayPoint where
  checkedAt := point.checkedAt
  missed := point.missed || missedError point.error
  total := point.total
  okCount := point.okCount
  latencyMs := point.latencyMs

def summarizeCheckPoints (points : List DayPoint) : Totals := (points.map DayPoint.totals).sum

/-- The rows of a target and a day before a time. -/
def dayRows (table : CheckBucketTable) (target : String) (day beforeAt : Int) :
    List ((String × Int) × CheckBucketRow) :=
  table.entries.filter fun entry => entry.1.1 = target && entry.2.day = day && entry.1.2 < beforeAt

def readCheckBucketDaySummary (env : Env) (stores : Stores) (target : String)
    (day beforeAt : Int) : Totals :=
  let rows := dayRows stores.checkBuckets target day beforeAt
  if ¬ env.databaseBound then 0
  else if env.probeHistoryEnabled then
    let buffered := readBufferedProbeHistory env stores.history target (dayStartSec day env)
      (beforeAt - 1) day day
    let byBucket := OrderedMap.collect DayPoint.checkedAt
      (rows.map (fun entry => entry.2.dayPoint entry.1.2) ++ buffered.map publicDayPoint)
    summarizeCheckPoints byBucket.values
  else (rows.map fun entry => entry.2.sums).sum

end NieSla.CheckBuckets
