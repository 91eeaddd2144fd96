import NieSla.Lib.Processes
import NieSla.Telemetry.Chunks
import NieSla.Telemetry.Reports

/-! The lifecycle of one agent in the telemetry buffer: its sockets and their messages, the drains of
its reports, and its deletions. A step of an operation runs to its next await; a storage operation
takes effect when it is issued. -/
namespace NieSla.Telemetry.Lifecycle

open Telemetry

/-- The row `agent:lifecycle:…`. -/
structure Row where
  epoch : Nat
  deleted : Bool
deriving DecidableEq

/-- A socket with the epoch of its attachment; `opened` counts the deletions that were marked before
it was accepted. -/
structure Socket where
  epoch : Nat
  opened : Nat

/-- A latest state, by the socket whose report it is of. -/
structure LatestState where
  updatedAt : Int
  socket : Socket

/-- A report in the queue or, with its telemetry, in a chunk. -/
structure SocketReport where
  report : QueuedReport
  socket : Socket

def SocketReport.state (item : SocketReport) : Option LatestState :=
  item.report.state.map fun state => ⟨state.updatedAt, item.socket⟩

structure Store where
  row : Option Row := none
  deletions : Nat := 0
  sockets : List Socket := []
  memLatest : Option LatestState := none
  memReports : List SocketReport := []
  latestRow : Option LatestState := none
  latestPersistAt : Option Int := none
  chunks : OrderedMap Int (List SocketReport) := .empty
  /-- What drains have thrown away, with the rows they had read. -/
  discarded : List (SocketReport × Option Row) := []

/-- `currentAgentLifecycleEpoch`; an expected epoch of 0 is none. -/
def currentEpoch (current : Option Row) (expected : Nat) : Option Nat :=
  match current with
  | none => some expected
  | some row =>
      if row.deleted then none
      else
        let epoch := if row.epoch = 0 then expected else row.epoch
        if epoch = 0 ∨ (0 < expected ∧ epoch ≠ expected) then none else some epoch

/-- What `processAgentMetricsPayload` makes of a message. -/
structure MessageResult where
  updatedAt : Int
  points : List MetricPoint := []
  pings : List Ping := []
  proxyChecks : List ProxyCheck := []
  net : Option (Traffic.Direction → JsNumber) := none

inductive Call where
  | openSocket
  | message (socket : Nat) (result : MessageResult)
  | drain
  | delete

inductive Phase where
  | waiting
  | opening (read : Option Row)
  | accepting (epoch : Nat)
  | checking (socket : Socket) (result : MessageResult) (read : Option Row)
  | processing (socket : Socket) (result : MessageResult) (epoch : Nat)
      (memo stored : Option LatestState)
  | recording (socket : Socket) (result : MessageResult) (epoch : Nat)
      (previous : Option LatestState) (read : Option Row)
  | loading (group : List SocketReport)
  | checkingGroup (group : List SocketReport) (read : Option Row)
  | persisted (group : List SocketReport) (failed : Bool)
  | appended (group : List SocketReport) (failed : Bool)
  | finishing (group : List SocketReport) (failed : Bool)
  | marking (read : Option Row)
  | marked
  | listing (found : List Int) (startAfter : Option Int)
  | deleting (keys : List Int)
  | finished

def Phase.idle : Phase → Bool
  | .waiting | .finished => true
  | _ => false

/-- The clock, whether an operation fails or, for a message, is dropped, whether the mirror in D1 and
whether the availability or the traffic of a group fails, and how many of the oldest reports of the
agent the cap of the queue drops. -/
structure StepInput where
  now : Int
  now_pos : 0 < now
  fails : Bool := false
  mirrorFails : Bool := false
  replayFails : Bool := false
  dropped : Nat := 0

/-! Messages. -/

/-- Of the states in memory and in the storage the newer one; `memo` if they are equally old. -/
def previousState (memo stored : Option LatestState) : Option LatestState :=
  let time (state : Option LatestState) : Int := (state.map LatestState.updatedAt).getD 0
  if time memo < time stored then stored else memo

/-- Whether the state of a report replaces the previous one. -/
def acceptsState (result : MessageResult) (previous : Option LatestState) (now : Int) : Bool :=
  let previousAt := (previous.map LatestState.updatedAt).getD 0
  previousAt ≤ result.updatedAt || 900 < now - previousAt

/-- The state that a message leaves in memory. -/
def rememberedState (socket : Socket) (result : MessageResult) (previous : Option LatestState)
    (now : Int) : Option LatestState :=
  if acceptsState result previous now then some ⟨result.updatedAt, socket⟩ else previous

section Report

variable (agentId : String)

def socketReport (socket : Socket) (result : MessageResult) (epoch : Nat)
    (previous : Option LatestState) (input : StepInput) : SocketReport where
  report := {
    agentId
    ts := input.now
    ts_pos := input.now_pos
    prevReportAt := previous.map LatestState.updatedAt
    state := if acceptsState result previous input.now then some ⟨result.updatedAt⟩ else none
    points := result.points
    pings := result.pings
    proxyChecks := result.proxyChecks
    net := result.net }
  socket := ⟨epoch, socket.opened⟩

def record (socket : Socket) (result : MessageResult) (epoch : Nat)
    (previous : Option LatestState) (input : StepInput) (store : Store) : Store :=
  { store with
    memLatest := (rememberedState socket result previous input.now).or store.memLatest
    memReports := (store.memReports ++
      [socketReport agentId socket result epoch previous input]).drop input.dropped }

end Report

/-! Drains. -/

def persistThrottled (store : Store) (now : Int) : Bool :=
  now - store.latestPersistAt.getD 0 < 300

/-- The newest state of a group, when it is not marked as persisted. -/
def stateToPersist (group : List SocketReport) : Option (Nat × LatestState) := do
  let index ← newestReport 0 none (group.map SocketReport.report)
  let item ← group[index]?
  let state ← item.state
  if item.report.drainState.latestStatePersisted then none else some (index, state)

def markPersisted (item : SocketReport) : SocketReport :=
  { item with report.drainState.latestStatePersisted := true }

def markAppended (item : SocketReport) : SocketReport :=
  { item with report.drainState.telemetryAppended := true }

/-- `persistLatestState` for the newest state of a group: the store, the group, and whether a side
effect has failed. -/
def persistNewest (env : Env) (group : List SocketReport) (failed : Bool) (input : StepInput)
    (store : Store) : Store × List SocketReport × Bool :=
  match stateToPersist group with
  | none => (store, group, failed)
  | some (index, state) =>
      if persistThrottled store input.now then (store, group.modify index markPersisted, failed)
      else
        let started := { store with latestPersistAt := some input.now }
        if input.fails then (started, group, true)
        else if !env.bufferedAgentState && input.mirrorFails then
          ({ started with latestRow := some state }, group, true)
        else ({ started with latestRow := some state }, group.modify index markPersisted, failed)

/-- The chunks in which a report has telemetry. -/
def chunkStarts (report : QueuedReport) : List Int :=
  (groupByChunk ⟨report.points, report.pings, report.proxyChecks⟩).keys

def hasTelemetry (item : SocketReport) : Bool :=
  !(item.report.points.isEmpty && item.report.pings.isEmpty && item.report.proxyChecks.isEmpty)

/-- Whether a drain appends the telemetry of a group. -/
def appends (group : List SocketReport) : Bool :=
  group.any hasTelemetry && !group.all fun item => item.report.drainState.telemetryAppended

def addToChunk (chunks : OrderedMap Int (List SocketReport)) (entry : Int × SocketReport) :
    OrderedMap Int (List SocketReport) :=
  chunks.set entry.1 ((chunks.get? entry.1).getD [] ++ [entry.2])

/-- `appendLocal`: a chunk holds telemetry of the reports that are listed for it at most. -/
def appendLocal (group : List SocketReport) (store : Store) : Store :=
  { store with
    chunks := (group.flatMap fun item =>
      (chunkStarts item.report).map fun start => (start, item)).foldl addToChunk store.chunks }

/-! Deletions. -/

def storageListPageLimit : Nat := 500

/-- One page of `storage.list`; a chunk start has ten digits, so that its key sorts as a number. -/
def listPage (store : Store) (startAfter : Option Int) : List Int :=
  ((store.chunks.keys.filter fun key => startAfter.all fun last => last < key).insertionSort
    (· ≤ ·)).take storageListPageLimit

def nextPage (found page : List Int) : Phase :=
  if page.length < storageListPageLimit then .deleting (found ++ page)
  else .listing (found ++ page) page.getLast?

section Act

variable (env : Env) (agentId : String)

/-- The next step of an operation. -/
def act (calls : Nat → Call) (call : Nat) (store : Store) (phase : Phase) (input : StepInput) :
    Store × Phase :=
  match phase with
  | .waiting =>
      match calls call with
      | .openSocket => (store, .opening store.row)
      | .message index result =>
          match store.sockets[index]? with
          | some socket =>
              (store, if input.fails then .finished else .checking socket result store.row)
          | none => (store, .waiting)
      | .drain =>
          if store.memReports = [] then (store, .finished)
          else ({ store with memReports := [] },
            .loading (store.memReports.insertionSort fun first second =>
              first.report.ts ≤ second.report.ts))
      | .delete => (store, .marking store.row)
  | .opening read =>
      match read with
      | some ⟨epoch, true⟩ => ({ store with row := some ⟨epoch + 1, false⟩ }, .accepting (epoch + 1))
      | some ⟨epoch + 1, false⟩ =>
          ({ store with sockets := store.sockets ++ [⟨epoch + 1, store.deletions⟩] }, .finished)
      | some ⟨0, false⟩ | none => ({ store with row := some ⟨1, false⟩ }, .accepting 1)
  | .accepting epoch =>
      ({ store with sockets := store.sockets ++ [⟨epoch, store.deletions⟩] }, .finished)
  | .checking socket result read =>
      match currentEpoch read socket.epoch with
      | none => (store, .finished)
      | some epoch => (store, .processing socket result epoch store.memLatest store.latestRow)
  | .processing socket result epoch memo stored =>
      (store, if input.fails then .finished
        else .recording socket result epoch (previousState memo stored) store.row)
  | .recording socket result epoch previous read =>
      if currentEpoch read epoch = some epoch then
        (record agentId socket result epoch previous input store, .finished)
      else (store, .finished)
  | .loading group => (store, .checkingGroup group store.row)
  | .checkingGroup group read =>
      match group with
      | [] => (store, .finished)
      | first :: _ =>
          match currentEpoch read first.socket.epoch with
          | none => ({ store with
              discarded := store.discarded ++ group.map fun item => (item, read) }, .finished)
          | some _ =>
              let (after, marked, failed) := persistNewest env group false input store
              (after, .persisted marked failed)
  | .persisted group failed =>
      if appends group then
        if input.fails then (store, .finishing group true)
        else (appendLocal group store, .appended (group.map markAppended) failed)
      else (store, .appended group failed)
  | .appended group failed =>
      -- The availability and the traffic of the group come before; they touch none of these stores.
      let (after, marked, again) := persistNewest env group (failed || input.replayFails) input store
      (after, .finishing marked again)
  | .finishing group failed =>
      if failed then
        ({ store with memReports := (group ++ store.memReports).drop input.dropped }, .finished)
      else (store, .finished)
  | .marking read =>
      ({ store with
        row := some ⟨(read.map Row.epoch).getD 0 + 1, true⟩
        deletions := store.deletions + 1 }, .marked)
  | .marked =>
      ({ store with memLatest := none, latestPersistAt := none, memReports := [], latestRow := none },
        .listing [] none)
  | .listing found startAfter => (store, nextPage found (listPage store startAfter))
  | .deleting keys =>
      match keys with
      | [] => (store, .finished)
      | key :: rest => ({ store with chunks := store.chunks.erase key }, .deleting rest)
  | .finished => (store, .finished)

end Act

end NieSla.Telemetry.Lifecycle
