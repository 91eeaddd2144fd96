import NieSla.CheckBuckets.Summaries
import NieSla.Util.Text

/-! The daily summaries of a status payload: the rows of the last snapshot, those of the R2 state over
them, and those of D1 over both where some target needs the fallback. Every statement succeeds. -/
namespace NieSla.Status

open CheckBuckets (Totals Stores Database SummaryOptions getCheckBucketSummaries)

structure TargetRow where
  id : String
  noPublicIp : Bool
deriving DecidableEq

/-- The R2 state of a target. -/
structure R2Status where
  checkedAt : Int
  ok : Bool
  probeRegion : String
  daily : OrderedMap Int Totals

/-- A row of `latest_status`. -/
structure LatestStatus where
  checkedAt : Int
  ok : Bool
  probeRegion : String

structure SummaryRow where
  targetId : String
  day : Int
  totals : Totals
deriving DecidableEq

def SummaryRow.key (row : SummaryRow) : String × Int := (row.targetId, row.day)

/-- What a build reads: the enabled targets in their order, the R2 state, the tables of D1, and the rows
that `mergeAgentAvailabilityRows` gives, by agent and day. -/
structure World where
  targets : List TargetRow
  r2State : OrderedMap String R2Status
  latestStatus : OrderedMap String LatestStatus
  stores : Stores
  checkBucketDays : OrderedMap (String × Int) Totals
  agentAvailability : List (String × Int × Totals)

/-- What a build reads of the snapshot in R2. -/
structure Snapshot where
  generatedAt : Int
  summaries : List SummaryRow

structure SnapshotSettings where
  statusSnapshotToR2 : Bool := true
  statusSnapshotMaxAgeSec : Option JsNumber := none
  statusSnapshotEverySec : Option JsNumber := none

section Build

variable (env : Env) (world : World)

/-- `dateAddLocal(env, -days + 1)` -/
def startDayOf (now days : Int) : Int := dayFromSec now env - days + 1

def World.noPublic (targetId : String) : Bool :=
  world.targets.any fun target => target.id = targetId && target.noPublicIp

/-! The rows of the snapshot and of R2. -/

def snapshotFresh (settings : SnapshotSettings) (now : Int) (snapshot : Snapshot) : Bool :=
  let maxAge := clamp (configured settings.statusSnapshotMaxAgeSec 420) 60 86400
  env.archiveBound && settings.statusSnapshotToR2 && snapshot.generatedAt ≠ 0 &&
    now - maxAge ≤ snapshot.generatedAt

def readRecentSnapshotSummaries (settings : SnapshotSettings) (snapshot : Option Snapshot)
    (now startDay currentDay : Int) : List SummaryRow :=
  match snapshot with
  | none => []
  | some snapshot =>
      if snapshotFresh env settings now snapshot then
        snapshot.summaries.filter fun row => row.targetId ≠ "" && startDay ≤ row.day && row.day < currentDay
      else []

def World.active (targetId : String) : Bool :=
  targetId ≠ "" && world.targets.any fun target => target.id = targetId

/-- `getSummaryRowsFromState`, before they are sorted. -/
def getSummaryRowsFromState (startDay : Int) : List SummaryRow :=
  world.r2State.entries.flatMap fun entry =>
    (entry.2.daily.entries.filter fun row => startDay ≤ row.1).map fun row => ⟨entry.1, row.1, row.2⟩

/-! The fallback. -/

def World.latestAt (targetId : String) : Int := ((world.latestStatus.get? targetId).map LatestStatus.checkedAt).getD 0

def World.r2At (targetId : String) : Int := ((world.r2State.get? targetId).map R2Status.checkedAt).getD 0

/-- The newest day of the target has no row in R2, or D1 has a newer check. -/
def fallbackNeeded (startDay : Int) (targetId : String) : Bool :=
  let newestAt := max (world.latestAt targetId) (world.r2At targetId)
  newestAt = 0 ||
    !((getSummaryRowsFromState world startDay).any fun row => row.key = (targetId, dayFromSec newestAt env)) ||
    world.r2At targetId < world.latestAt targetId

def fallbackTargetIds (startDay : Int) : List String :=
  (world.targets.map TargetRow.id).filter (fallbackNeeded env world startDay)

def staleR2TargetIds (startDay : Int) : List String :=
  (fallbackTargetIds env world startDay).filter fun id => world.r2At id < world.latestAt id

/-- The runs of successive days, each with the day after it. -/
def dayRanges : List Int → List (Int × Int)
  | [] => []
  | first :: rest => extend first first rest
where
  extend (start previous : Int) : List Int → List (Int × Int)
    | [] => [(start, previous + 1)]
    | day :: rest =>
        if day = previous + 1 then extend start day rest
        else (start, previous + 1) :: extend day day rest

/-- The ranges of finished days that a target is asked for. -/
def historicalRanges (startDay currentDay days : Int) (cached : List SummaryRow) (stale : List String)
    (targetId : String) : List (Int × Int) :=
  let requiredDays := (List.range (max 1 days).toNat).map fun offset : Nat => startDay + offset
  let historicalDays := requiredDays.filter fun day => day < currentDay
  let r2Days := ((world.r2State.get? targetId).map fun status => status.daily.keys).getD []
  let cachedDays := (cached.filter fun row =>
    trim row.targetId ≠ "" && row.day < currentDay && trim row.targetId = targetId).map SummaryRow.day
  if stale.contains targetId then [(historicalDays.headD startDay, currentDay)]
  else dayRanges (historicalDays.filter fun day => !(r2Days ++ cachedDays).contains day)

/-- The targets of each range, range by range; which days a range has does not matter any more to
what D1 is asked for. -/
def buildSummaryFallbackOptions (startDay currentDay days : Int) (cached : List SummaryRow)
    (targetIds stale : List String) : SummaryOptions :=
  let ids := (targetIds.filter fun id => id ≠ "").dedup
  if ids = [] then { targetIds := some [] }
  else
    let ranges := ids.flatMap fun id =>
      (historicalRanges world startDay currentDay days cached stale id).map fun range => (range, id)
    let rangeTargets := OrderedMap.group Prod.fst ranges
    { targetIds := some ids
      recentFromDay := some currentDay
      historicalTargetIds := ids.filter fun id =>
        historicalRanges world startDay currentDay days cached stale id ≠ []
      historicalRangeTargetIds := rangeTargets.values.flatMap fun members => (members.map Prod.snd).dedup }

/-- The newest status of each target that D1 or, where D1 does not keep them, R2 has. -/
def latestRows : OrderedMap String LatestStatus :=
  if env.probeLatestStatusToD1 then world.latestStatus
  else
    world.r2State.entries.foldl
      (fun byTarget entry =>
        let state : LatestStatus := ⟨entry.2.checkedAt, entry.2.ok, entry.2.probeRegion⟩
        match byTarget.get? entry.1 with
        | none => byTarget.set entry.1 state
        | some current =>
            if current.checkedAt ≤ state.checkedAt then byTarget.set entry.1 state else byTarget)
      world.latestStatus

def database : Database where
  stores := world.stores
  checkBucketDays := world.checkBucketDays
  latest := (latestRows env world).entries.map fun entry =>
    (entry.1, entry.2.checkedAt, if entry.2.probeRegion = "" then "auto" else entry.2.probeRegion, entry.2.ok)

/-! The payload. -/

/-- The last row of each target and day, before they are sorted. -/
def mergeSummaryRows (groups : List (List SummaryRow)) : List SummaryRow :=
  (OrderedMap.collect SummaryRow.key (groups.flatten.filter fun row => row.targetId ≠ "")).values

/-- The availability of the agents of targets without a public address. -/
def agentRows (startDay : Int) : List SummaryRow :=
  world.agentAvailability.filterMap fun row =>
    match OrderedMap.lastBy (fun target : TargetRow => sanitizeAgentId target.id) row.1
        (world.targets.filter TargetRow.noPublicIp) with
    | none => none
    | some target => if target.id = "" ∨ row.2.1 < startDay then none else some ⟨target.id, row.2.1, row.2.2⟩

/-- The rows of D1, where some target needs them. -/
def fallbackRows (now days : Int) (cached : List SummaryRow) : List SummaryRow :=
  let startDay := startDayOf env now days
  let targetIds := fallbackTargetIds env world startDay
  if targetIds = [] then []
  else
    (getCheckBucketSummaries env (database env world) now startDay
      (buildSummaryFallbackOptions world startDay (dayFromSec now env) days cached targetIds
        (staleR2TargetIds env world startDay))).entries.map fun entry => ⟨entry.1.1, entry.1.2, entry.2⟩

/-- The rows of the snapshot that a build uses again. -/
def cachedSummaries (settings : SnapshotSettings) (snapshot : Option Snapshot) (reuse : Bool)
    (now days : Int) : List SummaryRow :=
  if reuse then
    (readRecentSnapshotSummaries env settings snapshot now (startDayOf env now days)
      (dayFromSec now env)).filter fun row => world.active row.targetId
  else []

/-- `summaries` of `buildStatusPayload`. -/
def buildSummaries (settings : SnapshotSettings) (snapshot : Option Snapshot) (reuse : Bool)
    (now days : Int) : List SummaryRow :=
  let startDay := startDayOf env now days
  let cached := cachedSummaries env world settings snapshot reuse now days
  (mergeSummaryRows [cached, getSummaryRowsFromState world startDay, fallbackRows env world now days cached]).filter
      (fun row => !world.noPublic row.targetId) ++
    agentRows world startDay

end Build

end NieSla.Status
