import NieSla.CheckBuckets.Rows
import NieSla.Probe.Status

/-! `saveCheck` of one target, as far as it is about the summaries of its days. What else it
writes into the state of the target is `Probe.historyState`. -/
namespace NieSla.CheckBuckets

open Probe (Result errorText orNullText)
open ProbeHistory (missedPhrase)

/-- The summary of a day in the state of a target. -/
structure DailySummary where
  totals : Totals
  lastOk : Bool
  lastLatencyMs : Option Int
  lastStatusCode : Option Int
  lastError : Option String
  updatedAt : Int

/-- The state of a target that `saveCheck` is called with and that it updates. -/
structure Record where
  checkedAt : Int
  daily : OrderedMap Int DailySummary

def dailySummaryFromPoints (points : List CheckPoint) (now : Int) : DailySummary :=
  let counted := points.filter fun point => !point.isMissedMonitorPoint
  let latest := counted.foldl (fun latest point =>
    if latest.all fun latest : CheckPoint => latest.checkedAt ≤ point.checkedAt then some point
    else latest) none
  { totals := (points.map CheckPoint.totals).sum
    lastOk := latest.any CheckPoint.ok
    lastLatencyMs := latest.bind CheckPoint.latencyMs
    lastStatusCode := latest.bind CheckPoint.statusCode
    lastError := orNullText (latest.bind CheckPoint.error)
    updatedAt := (latest.map CheckPoint.checkedAt).getD now }

def cachedDailySummaryBefore (previous : Option Record) (day beforeAt : Int) : Option Totals :=
  match previous with
  | none => none
  | some previous =>
      match previous.daily.get? day with
      | none => none
      | some summary =>
          if previous.checkedAt = 0 ∨ beforeAt = 0 then none
          else if beforeAt ≤ previous.checkedAt ∨ summary.updatedAt < previous.checkedAt then none
          else some summary.totals

/-- The days that are kept are the latest 90. -/
def setDailySummary (daily : OrderedMap Int DailySummary) (day : Int) (summary : DailySummary) :
    OrderedMap Int DailySummary :=
  let daily := daily.set day summary
  daily.filter fun other _ => daily.keys.countP (fun later => other < later) < 90

def missedBackfillWriteLimit (env : Env) : Int :=
  clamp (env.missedWriteBackfillMaxBuckets.getD (.finite 6)) 0 48

/-- The points of the buckets between the one of `previousAt` and `bucketAt`, where these are of
the same day and at most `maxMissed` are between them. -/
def buildMissedPoints (env : Env) (previousAt : Option Int) (bucketAt : Int) (probeRegion : String)
    (maxMissed : Int) : List CheckPoint :=
  match previousAt.filter fun sec => sec ≠ 0 with
  | none => []
  | some previousAt =>
      let previousBucket := bucketOf previousAt
      let gapBuckets := (bucketAt - previousBucket) / bucketSec - 1
      if dayFromSec previousBucket env ≠ dayFromSec bucketAt env then []
      else if gapBuckets ≤ 0 ∨ maxMissed < gapBuckets then []
      else (List.range gapBuckets.toNat).map fun index : Nat =>
        { checkedAt := previousBucket + bucketSec * ((index : Int) + 1)
          ok := false
          error := some missedPhrase
          probeRegion := if probeRegion = "" then "auto" else probeRegion
          okCount := 0
          missed := true }

/-- What the calls have in common, with the list of all points they have stored; the cache is that
of one isolate. -/
structure State where
  stores : Stores
  cache : OrderedMap (String × Int) Totals
  record : Option Record
  log : List CheckPoint

def applyBucketWrites (env : Env) (target : String) (stores : Stores) (points : List CheckPoint) :
    Stores :=
  if env.probeHistoryEnabled then
    { stores with history := appendBufferedProbeHistory target stores.history points }
  else
    { stores with checkBuckets := points.foldl (fun table point =>
        table.set (target, point.checkedAt)
          (checkBucketRow (dayFromSec point.checkedAt env) point)) stores.checkBuckets }

section SaveCheck

variable (env : Env) (target : Probe.Target) (checkedAt : Int) (result : Result)

def checkPoint : CheckPoint where
  checkedAt := bucketOf checkedAt
  ok := result.ok
  latencyMs := result.roundedLatency
  statusCode := result.statusCode
  error := errorText result.error
  probeRegion := (orNullText target.probeRegion).getD "auto"
  cfColo := orNullText result.cfColo
  okCount := if result.ok then 1 else 0

def missedPoints (previous : Option Record) : List CheckPoint :=
  buildMissedPoints env (previous.map Record.checkedAt) (bucketOf checkedAt)
    ((orNullText target.probeRegion).getD "auto") (min 288 (missedBackfillWriteLimit env))

/-- The points that a call stores. -/
def bucketWrites (previous : Option Record) : List CheckPoint :=
  missedPoints env target checkedAt previous ++ [checkPoint target checkedAt result]

def incomingDayPoints (previous : Option Record) : List CheckPoint :=
  (bucketWrites env target checkedAt result previous).filter fun point =>
    dayFromSec point.checkedAt env = dayFromSec (bucketOf checkedAt) env

def firstIncomingAt (previous : Option Record) : Int :=
  (incomingDayPoints env target checkedAt result previous).foldl
    (fun first point => min first point.checkedAt) (bucketOf checkedAt)

/-- What the cache offers, which is not asked where points are missed. -/
def cachedSummary (cache : OrderedMap (String × Int) Totals) (previous : Option Record) :
    Option Totals :=
  if missedPoints env target checkedAt previous = [] then
    cache.get? (target.id, dayFromSec (bucketOf checkedAt) env)
  else none

def saveCheck (previous : Option Record) (now : Int) (state : State) : State :=
  let day := dayFromSec (bucketOf checkedAt) env
  let first := firstIncomingAt env target checkedAt result previous
  let before := cachedDailySummaryBefore previous day first
  let storedSummary := before.getD
    ((cachedSummary env target checkedAt state.cache previous).getD
      (readCheckBucketDaySummary env state.stores target.id day first))
  let cache := if before.isNone ∧ 5000 < state.cache.size then .empty else state.cache
  let incoming :=
    dailySummaryFromPoints (incomingDayPoints env target checkedAt result previous) now
  let summary := { incoming with totals := storedSummary + incoming.totals }
  let writes := bucketWrites env target checkedAt result previous
  { stores := applyBucketWrites env target.id state.stores writes
    cache := cache.set (target.id, day) summary.totals
    record := some ⟨checkedAt,
      setDailySummary ((previous.map Record.daily).getD .empty) day summary⟩
    log := state.log ++ writes }

end SaveCheck

/-! Calls one after the other; each gets the state that the one before has stored. -/

/-- A time from the second bucket on: the source takes the time 0 for a missing one. -/
structure Clock where
  sec : Int
  running : bucketSec ≤ sec

def Clock.after (clock : Clock) (elapsed : Nat) : Clock :=
  ⟨clock.sec + elapsed, le_trans clock.running (le_add_of_nonneg_right (Int.natCast_nonneg elapsed))⟩

structure Run where
  clock : Clock
  state : State

/-- A call some time after the last one; `none` is a probe that was skipped. The scheduler passes
the last time rounded down to its bucket, other callers as it was stored. -/
structure Call where
  elapsed : Nat
  result : Option Result
  rounded : Bool
  now : Int

inductive Event where
  | call (call : Call)
  | cacheLost

def start (clock : Clock) : Run := ⟨clock, ⟨⟨.empty, .empty⟩, .empty, none, []⟩⟩

def Run.previous (run : Run) (rounded : Bool) : Option Record :=
  run.state.record.map fun record =>
    { record with checkedAt := if rounded then bucketOf record.checkedAt else record.checkedAt }

def step (env : Env) (target : Probe.Target) (run : Run) : Event → Run
  | .cacheLost => { run with state := { run.state with cache := .empty } }
  | .call call =>
      let clock := run.clock.after call.elapsed
      match call.result with
      | none => { run with clock }
      | some result =>
          ⟨clock, saveCheck env target clock.sec result (run.previous call.rounded) call.now
            run.state⟩

/-- The points of the log that stand: the last one of each bucket. -/
def lastWrites (log : List CheckPoint) : OrderedMap Int CheckPoint :=
  OrderedMap.collect CheckPoint.checkedAt log

/-- The fold over the distinct buckets of a day. -/
def dayTotals (env : Env) (log : List CheckPoint) (day : Int) : Totals :=
  (((lastWrites log).values.filter fun point => dayFromSec point.checkedAt env = day).map
    CheckPoint.totals).sum

end NieSla.CheckBuckets
