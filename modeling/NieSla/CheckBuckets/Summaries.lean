import NieSla.CheckBuckets.Saved
import NieSla.Lib.Sums

/-! The points and the summaries that are shown: `readCheckBuckets` of one target and
`getCheckBucketSummaries` of all that are asked for. Every statement succeeds. -/
namespace NieSla.CheckBuckets

open ProbeHistory (PublicPoint missedError missedPhrase)

/-! The points of a target. -/

/-- A row of `check_buckets` as `readCheckBuckets` reads it. -/
def CheckBucketRow.public (row : CheckBucketRow) (bucketAt : Int) : PublicPoint :=
  let missed := missedError row.lastError
  { missed := missed || (row.total = 0 && row.okCount = 0)
    checkedAt := bucketAt
    ok := !missed && row.lastOk
    latencyMs := if missed then none else row.lastLatencyMs.map fun latency => (latency : ℚ)
    statusCode := if missed then none else row.lastStatusCode.map fun status => (status : ℚ)
    error := row.lastError
    probeRegion := if row.probeRegion = "" then "auto" else row.probeRegion
    total := ((if missed then max 1 (if row.total = 0 then 1 else row.total) else row.total : Int) : ℚ)
    okCount := ((if missed then 0 else row.okCount : Int) : ℚ) }

/-- A missed point as `buildMissedPoints` gives it. -/
def CheckPoint.public (point : CheckPoint) : PublicPoint where
  missed := point.missed
  checkedAt := point.checkedAt
  ok := point.ok
  latencyMs := point.latencyMs.map fun latency => (latency : ℚ)
  statusCode := point.statusCode.map fun status => (status : ℚ)
  error := point.error
  probeRegion := point.probeRegion
  total := point.total
  okCount := point.okCount

def missedBackfillMaxBuckets (env : Env) : Int :=
  clamp (configured env.missedBackfillMaxBuckets 144) 0 288

/-- The stored points with those between them that are missed. -/
def withGaps (env : Env) : List PublicPoint → List PublicPoint
  | [] => []
  | [point] => [point]
  | previous :: current :: rest =>
      previous :: ((buildMissedPoints env (some previous.checkedAt) current.checkedAt
        current.probeRegion (missedBackfillMaxBuckets env)).map CheckPoint.public ++
          withGaps env (current :: rest))

/-- `buildOpenMissedPoints`: the buckets that are missed up to now. -/
def buildOpenMissedPoints (env : Env) (previousAt : Int) (now : Int) (probeRegion : String) :
    List PublicPoint :=
  let currentBucket := bucketOf now
  let graceSec := clamp (configured env.missedBackfillGraceSec 150) 0 (bucketSec - 1)
  let virtualBucketAt :=
    if graceSec ≤ now - currentBucket then currentBucket + bucketSec else currentBucket
  (buildMissedPoints env (some previousAt) virtualBucketAt probeRegion
    (missedBackfillMaxBuckets env)).map CheckPoint.public

/-- The history, where it is enabled. -/
def enabledHistory (env : Env) (stores : Stores) : History :=
  if env.probeHistoryEnabled then stores.history else .empty

/-- The points of both stores, one of each bucket, in the order of their times. -/
def storedPoints (env : Env) (stores : Stores) (now : Int) (target : String) (days : Nat) :
    List PublicPoint :=
  let since := now - days * 86400
  let legacy := ((stores.checkBuckets.entries.filter fun entry =>
    entry.1.1 = target && since ≤ entry.1.2).map fun entry => entry.2.public entry.1.2).filter
      fun point => 0 < point.checkedAt
  let buffered := readBufferedProbeHistory env (enabledHistory env stores) target since now
    (dayFromSec since env) (dayFromSec now env)
  (OrderedMap.collect PublicPoint.checkedAt (legacy ++ buffered)).values.insertionSort
    fun first second => first.checkedAt ≤ second.checkedAt

def readCheckBuckets (env : Env) (stores : Stores) (now : Int) (target : String) (days : Nat) :
    List PublicPoint :=
  if ¬ env.databaseBound then []
  else
    let out := withGaps env (storedPoints env stores now target days)
    match out.getLast? with
    | none => []
    | some last => out ++ buildOpenMissedPoints env last.checkedAt now last.probeRegion

/-! Summaries. -/

/-- What a point counts in `summaryRowsFromChecks`. -/
def publicTotals (point : PublicPoint) : Totals := (publicDayPoint point).totals

def countedPoints (points : List PublicPoint) : List PublicPoint :=
  points.filter fun point => !(publicDayPoint point).missed

/-- `summaryRowsFromChecks`, by days. -/
def summaryRowsFromChecks (env : Env) (points : List PublicPoint) : OrderedMap Int Totals :=
  OrderedMap.accumulate (fun point : PublicPoint => dayFromSec point.checkedAt env) publicTotals
    (countedPoints points) .empty

/-- Both stores, the table `check_bucket_days` by target and day, and the rows of `latest_status`
or, where these are not kept, the R2 status: target, time, region and whether the check succeeded. -/
structure Database where
  stores : Stores
  checkBucketDays : OrderedMap (String × Int) Totals
  latest : List (String × Int × String × Bool)

structure SummaryOptions where
  targetIds : Option (List String) := none
  recentFromDay : Option Int := none
  historicalTargetIds : List String := []
  historicalRangeTargetIds : List String := []

def SummaryOptions.bufferedTargetIds (options : SummaryOptions) : List String :=
  ((options.targetIds.getD [] ++ options.historicalTargetIds ++
    options.historicalRangeTargetIds).filter fun target => target ≠ "").dedup

/-- The rows of the plan without an upper day; the chunks of it take the targets in turn. -/
def liveRows (table : CheckBucketTable) (startDay : Int) (options : SummaryOptions) :
    List ((String × Int) × CheckBucketRow) :=
  table.entries.filter fun entry =>
    options.recentFromDay.getD startDay ≤ entry.2.day &&
      options.targetIds.all fun targets => entry.1.1 ≠ "" && targets.contains entry.1.1

/-- `GROUP BY target_id, day` -/
def liveSums (table : CheckBucketTable) (startDay : Int) (options : SummaryOptions) :
    OrderedMap (String × Int) Totals :=
  OrderedMap.accumulate (fun entry : (String × Int) × CheckBucketRow => (entry.1.1, entry.2.day))
    (fun entry => entry.2.sums) (liveRows table startDay options) .empty

/-- The rows that D1 alone gives: whole days as they were summed up, and the live rows over them. -/
def d1Summaries (env : Env) (database : Database) (now startDay : Int) (options : SummaryOptions) :
    OrderedMap (String × Int) Totals :=
  let days := database.checkBucketDays.filter fun key _ =>
    startDay ≤ key.2 && key.2 < dayFromSec now env
  (liveSums database.stores.checkBuckets startDay options).entries.foldl
    (fun byKey entry => byKey.set entry.1 entry.2) days

/-- The rows of the summaries of one target from a day on, with the target. -/
def summaryRows (env : Env) (startDay : Int) (target : String) (points : List PublicPoint) :
    List ((String × Int) × Totals) :=
  ((summaryRowsFromChecks env points).entries.filter fun row => startDay ≤ row.1).map
    fun row => ((target, row.1), row.2)

/-- The rows of the checks that are missed since the latest status of each target. -/
def syntheticRows (env : Env) (database : Database) (now startDay : Int) :
    List ((String × Int) × Totals) :=
  (database.latest.filter fun row => row.2.2.2 && row.2.1 ≠ 0).flatMap fun row =>
    summaryRows env startDay row.1 (buildOpenMissedPoints env row.2.1 now row.2.2.1)

def bufferedRows (env : Env) (database : Database) (now startDay : Int)
    (options : SummaryOptions) : List ((String × Int) × Totals) :=
  options.bufferedTargetIds.flatMap fun target =>
    summaryRows env startDay target (readBufferedProbeHistory env
      (enabledHistory env database.stores) target (dayStartSec startDay env) now startDay
      (dayFromSec now env))

/-- The rows of `getCheckBucketSummaries` by target and day, before they are sorted. -/
def getCheckBucketSummaries (env : Env) (database : Database) (now startDay : Int)
    (options : SummaryOptions) : OrderedMap (String × Int) Totals :=
  if ¬ env.databaseBound then .empty
  else
    OrderedMap.accumulate Prod.fst Prod.snd
      (syntheticRows env database now startDay ++ bufferedRows env database now startDay options)
      (d1Summaries env database now startDay options)

end NieSla.CheckBuckets
