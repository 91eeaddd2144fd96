import NieSla.Availability.Record
import NieSla.Telemetry.Item
import NieSla.Traffic.Ledger
import NieSla.Util.Ids

/-! The reports that the telemetry buffer holds in memory, and how a drain works them off. -/
namespace NieSla.Telemetry

open Availability Traffic

structure AgentState where
  /-- `agentStateTimestamp(updated_at)` -/
  updatedAt : Int
deriving DecidableEq

/-- `__drainState`: the side effects of a report that are done. -/
structure DrainState where
  latestStatePersisted : Bool := false
  telemetryAppended : Bool := false
  availabilityPersisted : Bool := false
  trafficPersisted : Bool := false
deriving DecidableEq

/-- A report in the queue, accepted at `ts`; `prevReportAt` is the time of the agent's state
before it. -/
structure QueuedReport where
  agentId : String
  ts : Int
  ts_pos : 0 < ts
  prevReportAt : Option Int
  state : Option AgentState
  points : List MetricPoint
  pings : List Ping
  proxyChecks : List ProxyCheck
  net : Option (Direction → JsNumber)
  drainState : DrainState := {}

/-- A report without its drain state. -/
def QueuedReport.facts (report : QueuedReport) : QueuedReport := { report with drainState := {} }

def estimateReportBytes (report : QueuedReport) : Nat :=
  1024 + report.points.length * 96 + report.pings.length * 48 + report.proxyChecks.length * 96

def maxMemReports : Nat := 5000

def maxMemReportsBytes : Int := 32 * 1024 * 1024

/-! One group of reports. -/

/-- What a drain does to the storage and the database. -/
inductive Effect where
  | latestState (agentId : String) (state : AgentState)
  | append (agentId : String) (points : List MetricPoint) (pings : List Ping)
      (proxyChecks : List ProxyCheck)
  | availability (agentId : String) (previousAt currentAt : Int) (fault : Option Fault)
  | traffic (agentId : String) (report : Traffic.Report)

/-- The answers that the awaits of a drain get for one agent: whether its lifecycle is over,
whether it has no public address, and which of its side effects fail. -/
structure GroupOutcome where
  gone : Bool := false
  noPublicIp : Bool := false
  latestState : Bool := true
  append : Bool := true
  availability : Option Fault := none
  traffic : Nat → Bool := fun _ => true
  latestStateRetry : Bool := true

structure GroupResult where
  group : List QueuedReport
  failed : Bool
  effects : List Effect

/-- The position of the report with the newest state, the first of equals. -/
def newestReport (index : Nat) (best : Option (Nat × Int)) : List QueuedReport → Option Nat
  | [] => best.map Prod.fst
  | report :: rest =>
      match report.state with
      | none => newestReport (index + 1) best rest
      | some state =>
          if best.all fun found => found.2 < state.updatedAt then
            newestReport (index + 1) (some (index, state.updatedAt)) rest
          else newestReport (index + 1) best rest

def persistNewestState (agentId : String) (persisted : Bool) (result : GroupResult) :
    GroupResult :=
  match newestReport 0 none result.group with
  | none => result
  | some index =>
      match result.group[index]? with
      | some { state := some state, drainState := { latestStatePersisted := false, .. }, .. } =>
          if persisted then
            { result with
              group := result.group.modify index fun report =>
                { report with drainState.latestStatePersisted := true }
              effects := result.effects ++ [.latestState agentId state] }
          else { result with failed := true }
      | _ => result

/-- `appendLocal` of the whole group; `none` where it fails and the group is left. -/
def appendTelemetry (agentId : String) (appended : Bool) (result : GroupResult) :
    Option GroupResult :=
  let points := result.group.flatMap QueuedReport.points
  let pings := result.group.flatMap QueuedReport.pings
  let proxyChecks := result.group.flatMap QueuedReport.proxyChecks
  if (points.isEmpty && pings.isEmpty && proxyChecks.isEmpty) ||
      result.group.all fun report => report.drainState.telemetryAppended then
    some result
  else if appended then
    some { result with
      group := result.group.map fun report =>
        { report with drainState.telemetryAppended := true }
      effects := result.effects ++ [.append agentId points pings proxyChecks] }
  else none

/-- One interval is recorded for the whole group and remembered at its first report. -/
def recordAvailability (env : Env) (agentId : String) (noPublicIp : Bool)
    (fault : Option Fault) (result : GroupResult) : GroupResult :=
  match result.group with
  | [] => result
  | first :: rest =>
      match noPublicIp, first.prevReportAt, first.drainState.availabilityPersisted with
      | true, some previousAt, false =>
          let lastAt := ((first :: rest).getLast (List.cons_ne_nil first rest)).ts
          let effects := result.effects ++ [.availability agentId previousAt lastAt fault]
          if (recordAgentAvailability env previousAt lastAt fault .empty).2 then
            { result with
              group := { first with drainState.availabilityPersisted := true } :: rest
              effects }
          else { result with failed := true, effects }
      | _, _, _ => result

/-- The traffic of each report, in order. -/
def persistTraffic (agentId : String) (persisted : Nat → Bool) (index : Nat) :
    List QueuedReport → List QueuedReport × Bool × List Effect
  | [] => ([], false, [])
  | report :: rest =>
      let (group, failed, effects) := persistTraffic agentId persisted (index + 1) rest
      match report.net, report.drainState.trafficPersisted with
      | some net, false =>
          if persisted index then
            ({ report with drainState.trafficPersisted := true } :: group, failed,
              .traffic agentId ⟨net, report.ts, report.ts_pos⟩ :: effects)
          else (report :: group, true, effects)
      | _, _ => (report :: group, failed, effects)

def replayTraffic (agentId : String) (persisted : Nat → Bool) (result : GroupResult) :
    GroupResult :=
  let (group, failed, effects) := persistTraffic agentId persisted 0 result.group
  ⟨group, result.failed || failed, result.effects ++ effects⟩

/-- The side effects of one group, in the order of the source. -/
def drainGroup (env : Env) (agentId : String) (outcome : GroupOutcome)
    (group : List QueuedReport) : GroupResult :=
  if outcome.gone then ⟨group, false, []⟩
  else
    let latest := persistNewestState agentId outcome.latestState ⟨group, false, []⟩
    match appendTelemetry agentId outcome.append latest with
    | none => { latest with failed := true }
    | some appended =>
        let recorded :=
          recordAvailability env agentId outcome.noPublicIp outcome.availability appended
        let replayed := replayTraffic agentId outcome.traffic recorded
        persistNewestState agentId outcome.latestStateRetry replayed

/-! A drain of all reports. -/

/-- The reports of each agent in the order of their times; those without an id are skipped. -/
def groupReports (reports : List QueuedReport) : OrderedMap String (List QueuedReport) :=
  let sorted := reports.insertionSort fun first second => first.ts ≤ second.ts
  OrderedMap.group (fun report => sanitizeAgentId report.agentId)
    (sorted.filter fun report => sanitizeAgentId report.agentId ≠ "")

abbrev Outcome := String → GroupOutcome

def drainGroups (env : Env) (outcome : Outcome) (reports : List QueuedReport) :
    List GroupResult :=
  (groupReports reports).entries.map fun entry =>
    drainGroup env entry.1 (outcome entry.1) entry.2

/-- The reports of the groups that failed, in the order of the groups. -/
def failures (results : List GroupResult) : List QueuedReport :=
  (results.filter GroupResult.failed).flatMap GroupResult.group

def effects (results : List GroupResult) : List Effect := results.flatMap GroupResult.effects

/-! The queue. -/

structure ReportBuffer where
  memReports : List QueuedReport
  memReportsBytes : Int
  /-- The reports that a running drain has taken. -/
  draining : Option (List QueuedReport)

def ReportBuffer.empty : ReportBuffer := ⟨[], 0, none⟩

/-- The cap loop of `webSocketMessage`. -/
def evict : List QueuedReport → Int → List QueuedReport × Int
  | [], bytes => ([], bytes)
  | report :: rest, bytes =>
      if maxMemReports < (report :: rest).length ∨
          (maxMemReportsBytes < bytes ∧ 1 < (report :: rest).length) then
        evict rest (bytes - estimateReportBytes report)
      else (report :: rest, bytes)

/-- The failed reports go back to the front of the queue, which keeps the newest. -/
def requeue (failed queued : List QueuedReport) : List QueuedReport :=
  if failed = [] then queued
  else (failed ++ queued).drop ((failed ++ queued).length - maxMemReports)

/-- A drain starts by taking the queue and ends, some awaits later, by giving back what has
failed; between the two, reports may come in and agents may be deleted. -/
inductive Event where
  | accept (report : QueuedReport)
  | startDrain
  | finishDrain (outcome : Outcome)
  | deleteAgent (agentId : String)

def step (env : Env) (buffer : ReportBuffer) : Event → ReportBuffer
  | .accept report =>
      let (reports, bytes) := evict (buffer.memReports ++ [report.facts])
        (buffer.memReportsBytes + estimateReportBytes report.facts)
      { buffer with memReports := reports, memReportsBytes := bytes }
  | .startDrain =>
      match buffer.memReports, buffer.draining with
      | _ :: _, none => { buffer with memReports := [], draining := some buffer.memReports }
      | _, _ => buffer
  | .finishDrain outcome =>
      match buffer.draining with
      | none => buffer
      | some reports =>
          { buffer with
            memReports := requeue (failures (drainGroups env outcome reports)) buffer.memReports
            draining := none }
  | .deleteAgent agentId =>
      { buffer with
        memReports := buffer.memReports.filter fun report =>
          sanitizeAgentId report.agentId ≠ agentId }

/-- What an event does to the storage and the database. -/
def effectsOf (env : Env) (buffer : ReportBuffer) : Event → List Effect
  | .finishDrain outcome =>
      match buffer.draining with
      | none => []
      | some reports => effects (drainGroups env outcome reports)
  | _ => []

end NieSla.Telemetry
