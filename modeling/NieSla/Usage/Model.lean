import NieSla.Lib.Search

/-! The usage model: what a fleet uses of the free tier in a window, over exact rational numbers. The notes of its
report are left out. -/
namespace NieSla.Usage

/-! `CAL` -/

def taskSec : ℚ := 600
def updateSec : ℚ := 900
def pingRefreshSec : ℚ := 1800
def latencySec : ℚ := 60
def credentialTouchSec : ℚ := 21600
def publicRps : ℚ := 0.42
def maxTargetsPerRun : ℚ := 20
def handshakePerAgentDay : ℚ := 1.5
def r2PublicReadRate : ℚ := 0.38
def r2DistributionOverAb : ℚ := 1.276
def r2ClassAMultiplier : ℚ := 1.37
def probeD1FallbackRate : ℚ := 0.01
def latestStatusMinIntervalSec : ℚ := 900
def indexWriteMultiplier : ℚ := 3
def queryPathMultiplier : ℚ := 1.135
def rowsReadMultiplier : ℚ := 2.65
def rowsWrittenMultiplier : ℚ := 1.92

/-- The estimates that have a limit. -/
inductive QuotaKey where
  | workersCalls | doRequests | doRowsWritten | d1RowsWritten | d1RowsRead | r2ClassA | r2ClassB
  deriving DecidableEq

def freeTier : QuotaKey → ℚ
  | .workersCalls | .doRequests | .doRowsWritten | .d1RowsWritten => 100000
  | .d1RowsRead => 5000000
  | .r2ClassA => 1000000
  | .r2ClassB => 10000000

/-- `Math.round` -/
def mathRound (value : ℚ) : ℚ := ⌊value + 1 / 2⌋

def round (value : ℚ) : ℚ := mathRound (value * 10) / 10

/-- `value || fallback` -/
def orElse (value fallback : ℚ) : ℚ := if value = 0 then fallback else value

def periodic (seconds interval : ℚ) : ℚ := ⌈max 0 seconds / max 1 (orElse interval 1)⌉

structure UsageInputs where
  agents : ℚ := 0
  wssAgents : ℚ := 0
  targets : ℚ := 0
  pingTargets : ℚ := 0
  latencyNodes : ℚ := 0
  trafficAgents : ℚ := 0
  hours : ℚ := 24
  reportSec : ℚ := 300
  latestStatusToD1 : Bool := true

/-- What one event costs in D1. -/
structure Profile where
  read : ℚ := 0
  write : ℚ := 0
  rowsRead : ℚ := 0
  rowsWritten : ℚ := 0

/-- The local values of `estimateUsage` that its sums are made of. -/
structure Loads where
  seconds : ℚ
  agents : ℚ
  latencyNodes : ℚ
  trafficAgents : ℚ
  probeTargets : ℚ
  wssMessages : ℚ
  legacyReports : ℚ
  taskPolls : ℚ
  updateChecks : ℚ
  geoReads : ℚ
  pingRefresh : ℚ
  latencyCycles : ℚ
  latencyUpdate : ℚ
  cron : ℚ
  publicDynamic : ℚ
  handshake : ℚ
  probeCycles : ℚ
  probeStateSync : ℚ
  telemetryFlush : ℚ
  archiveExpectation : ℚ

def loads (inputs : UsageInputs) : Loads :=
  let seconds := max 0.01 (orElse inputs.hours 24) * 3600
  let wss := max 0 inputs.wssAgents
  let legacy := max 0 (inputs.agents - inputs.wssAgents)
  let probeTargets := max 1 inputs.targets
  let batches := max 1 (⌈probeTargets / maxTargetsPerRun⌉ : ℚ)
  let probeCycles := periodic seconds inputs.reportSec
  { seconds
    agents := inputs.agents
    latencyNodes := inputs.latencyNodes
    trafficAgents := inputs.trafficAgents
    probeTargets
    wssMessages := wss * periodic seconds inputs.reportSec
    legacyReports := legacy * periodic seconds inputs.reportSec
    taskPolls := inputs.agents * periodic seconds taskSec
    updateChecks := inputs.agents * periodic seconds updateSec
    geoReads := ⌈seconds / 86400 * inputs.agents⌉
    pingRefresh := legacy * periodic seconds pingRefreshSec
    latencyCycles := inputs.latencyNodes * periodic seconds latencySec
    latencyUpdate := inputs.latencyNodes * periodic seconds 3600
    cron := periodic seconds 60
    publicDynamic := publicRps * seconds
    handshake := wss * (seconds / 86400) * handshakePerAgentDay
    probeCycles
    probeStateSync := probeCycles * batches
    telemetryFlush := inputs.agents * periodic seconds 3600
    archiveExpectation := probeTargets * (seconds / 86400) }

/-! The sums. -/

def workersBase (l : Loads) : ℚ :=
  l.taskPolls + l.updateChecks + l.geoReads + l.pingRefresh + l.latencyCycles * 2 + l.latencyUpdate + l.cron +
    l.publicDynamic + l.handshake

/-- The status snapshot is counted as the probe state, the latency archive as the latency cycles. -/
def aBase (l : Loads) : ℚ :=
  l.telemetryFlush + l.probeStateSync + l.probeStateSync + l.latencyCycles + l.archiveExpectation

def bBase (l : Loads) : ℚ := aBase l + aBase l * 2 + l.publicDynamic * r2PublicReadRate

def doBase (l : Loads) : ℚ := l.wssMessages + l.probeTargets * l.probeCycles + l.cron + l.cron * 0.9

def doRowsWritten (l : Loads) : ℚ :=
  l.wssMessages * 1.2 + l.agents * periodic l.seconds 300 * 1.2 + l.probeTargets * l.probeCycles * 1.5 +
    l.agents * periodic l.seconds 3600 * 3

def addD1 (d1 : Profile) (charge : ℚ × Profile) : Profile :=
  let c := max 0 charge.1
  { read := d1.read + c * charge.2.read
    write := d1.write + c * charge.2.write
    rowsRead := d1.rowsRead + c * charge.2.rowsRead
    rowsWritten := d1.rowsWritten + c * charge.2.rowsWritten }

/-- The calls of `addD1`. -/
def charges (reportSec : ℚ) (latestStatusToD1 : Bool) (l : Loads) : List (ℚ × Profile) :=
  [(l.wssMessages, { read := 1, rowsRead := 10 }),
    (l.legacyReports, { read := 6, write := 1, rowsRead := 10, rowsWritten := 1 }),
    (l.taskPolls, { read := 8, rowsRead := 12 }),
    (l.updateChecks, { read := 12, rowsRead := 14 }),
    (l.geoReads, { read := 12, rowsRead := 16, write := 2, rowsWritten := 2 }),
    (l.pingRefresh, { read := 6, rowsRead := 8 }),
    (l.latencyCycles, { read := 5, rowsRead := 16 }),
    (l.latencyCycles, { read := 8, write := 2, rowsRead := 38, rowsWritten := 0.4 }),
    (l.latencyUpdate, { read := 7, rowsRead := 10 }),
    (l.cron, { read := 8, write := 3, rowsRead := 100, rowsWritten := 1 }),
    (l.agents * periodic l.seconds 900, { write := 1, rowsWritten := 1 }),
    (l.agents * periodic l.seconds 1800, { read := 1, write := 1, rowsWritten := 1 }),
    (l.probeTargets * periodic l.seconds reportSec * probeD1FallbackRate, { write := 1, rowsWritten := 1 }),
    (l.probeTargets * periodic l.seconds 7200, { write := 1, rowsWritten := 1 }),
    (if latestStatusToD1 then l.probeTargets * periodic l.seconds latestStatusMinIntervalSec else 0,
      { write := 1, rowsWritten := 1 }),
    (l.probeStateSync, { read := 8, rowsRead := 100 }),
    (l.cron, { read := 1, write := 2, rowsRead := 1, rowsWritten := 2 }),
    (l.trafficAgents * periodic l.seconds 1800, { read := 2, rowsRead := 4, write := 1, rowsWritten := 1 }),
    ((⌈l.publicDynamic * 0.06⌉ : ℚ), { read := 8, rowsRead := 100 }),
    (periodic l.seconds 3600, { read := 8, write := 5, rowsRead := 80, rowsWritten := 5 }),
    ((l.agents + l.latencyNodes) * periodic l.seconds credentialTouchSec, { rowsWritten := 1 }),
    (periodic l.seconds 86400,
      { read := 1, write := 2, rowsRead := l.probeTargets * 288,
        rowsWritten := max 1 (mathRound (l.probeTargets * 12 * probeD1FallbackRate)) }),
    (l.cron * 2, { read := 1, rowsRead := l.probeTargets })]

def d1Of (inputs : UsageInputs) : Profile :=
  (charges inputs.reportSec inputs.latestStatusToD1 (loads inputs)).foldl addD1 {}

/-- `estimates`, before they are rounded. -/
def estimated (l : Loads) (d1 : Profile) : QuotaKey → ℚ
  | .workersCalls => workersBase l * 0.7308
  | .doRequests => doBase l * 1.32
  | .doRowsWritten => doRowsWritten l
  | .d1RowsWritten => d1.rowsWritten * indexWriteMultiplier * rowsWrittenMultiplier * 0.4331
  | .d1RowsRead => d1.rowsRead * rowsReadMultiplier * 0.769
  | .r2ClassA => aBase l * r2ClassAMultiplier * 0.86
  | .r2ClassB => bBase l * 1.26

/-- An entry of `quota`. -/
structure QuotaUse where
  used : ℚ
  limit : ℚ
  pct : ℚ

structure UsageEstimate where
  windowHours : ℚ
  estimates : QuotaKey → ℚ
  d1Queries : ℚ
  r2Requests : ℚ
  quota : QuotaKey → QuotaUse

def estimateUsage (inputs : UsageInputs) : UsageEstimate :=
  let l := loads inputs
  let d1 := d1Of inputs
  let estimates key := round (estimated l d1 key)
  { windowHours := round (max 0.01 (orElse inputs.hours 24))
    estimates
    d1Queries := round ((d1.read + d1.write) * queryPathMultiplier * 1.3623)
    r2Requests := round ((aBase l * r2ClassAMultiplier + bBase l) * r2DistributionOverAb * 0.92)
    quota := fun key => ⟨estimates key, freeTier key, round (estimates key / freeTier key * 100)⟩ }

/-! Capacity. -/

/-- `CAPACITY_QUOTAS` -/
def capacityQuotas : List QuotaKey := [.workersCalls, .doRequests, .d1RowsRead, .d1RowsWritten, .r2ClassA, .r2ClassB]

/-- What one more node adds. -/
structure PerNode where
  agents : ℚ
  wssAgents : ℚ
  targets : ℚ
  pingTargets : ℚ
  latencyNodes : ℚ
  trafficAgents : ℚ

def capacityEstimateAt (base : UsageInputs) (perNode : PerNode) (extra : ℕ) : UsageEstimate :=
  estimateUsage
    { agents := base.agents + perNode.agents * extra
      wssAgents := base.wssAgents + perNode.wssAgents * extra
      targets := base.targets + perNode.targets * extra
      pingTargets := base.pingTargets + perNode.pingTargets * extra
      latencyNodes := base.latencyNodes + perNode.latencyNodes * extra
      trafficAgents := base.trafficAgents + perNode.trafficAgents * extra
      hours := base.hours
      latestStatusToD1 := base.latestStatusToD1 }

def capacityCeiling : ℕ := 100000

theorem first_pos : 0 < 8 := by decide

/-- The search of `maxExtraNodesFor`, with its `valueAt`. -/
def searchExtra (valueAt : ℕ → ℚ) (target : ℚ) : ℕ :=
  if target < valueAt 0 then 0
  else
    let fits (extra : ℕ) : Bool := valueAt extra ≤ target
    let hi := min (Search.doubled fits capacityCeiling 8 first_pos) capacityCeiling
    if valueAt capacityCeiling ≤ target then capacityCeiling else Search.bisect fits 0 hi

def maxExtraNodesFor (key : QuotaKey) (base : UsageInputs) (perNode : PerNode) (target : ℚ) : ℕ :=
  searchExtra (fun extra => (capacityEstimateAt base perNode extra).estimates key) target

/-- The base of a capacity estimate, with nothing negative. -/
def baseOf (inputs : UsageInputs) : UsageInputs where
  agents := max 0 inputs.agents
  wssAgents := max 0 inputs.wssAgents
  targets := max 0 inputs.targets
  pingTargets := max 0 inputs.pingTargets
  latencyNodes := max 0 inputs.latencyNodes
  trafficAgents := max 0 inputs.trafficAgents
  hours := max 0.01 (orElse inputs.hours 24)
  latestStatusToD1 := inputs.latestStatusToD1

/-- The increments without `options.perNode`: a WSS agent where half of the agents are WSS agents. -/
def defaultPerNode (base : UsageInputs) : PerNode :=
  ⟨1, if 0 < base.agents ∧ base.agents * 0.5 ≤ base.wssAgents then 1 else 0, 1, 0, 0, 0⟩

structure QuotaCapacity where
  limit : ℚ
  used : ℚ
  remaining : ℚ
  headroomPct : ℚ
  extraNodes80 : ℕ
  extraNodes100 : ℕ

def capacityOf (base : UsageInputs) (perNode : PerNode) (key : QuotaKey) : QuotaCapacity :=
  let limit := freeTier key
  let used := (capacityEstimateAt base perNode 0).estimates key
  let remaining := max 0 (limit - used)
  { limit
    used
    remaining := round remaining
    headroomPct := round (remaining / limit * 100)
    extraNodes80 := maxExtraNodesFor key base perNode (limit * 0.8)
    extraNodes100 := maxExtraNodesFor key base perNode limit }

/-- The `quotas` of `estimateCapacity`. -/
def estimateCapacity (inputs : UsageInputs) : List (QuotaKey × QuotaCapacity) :=
  let base := baseOf inputs
  capacityQuotas.map fun key => (key, capacityOf base (defaultPerNode base) key)

end NieSla.Usage
