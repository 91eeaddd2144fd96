import NieSla.Lib.Runs
import NieSla.Telemetry.Chunks
import NieSla.Util.Number

/-! `flushCompletedHours` with its awaits. Between two of its steps chunks may be appended; every
operation of storage and R2 succeeds. -/
namespace NieSla.Telemetry

/-- `chunk:agent:start`, or `hour:agent:start` of an older version. -/
structure RowKey where
  legacy : Bool
  agentId : AgentId
  start : Int
deriving DecidableEq

def RowKey.text (key : RowKey) : String :=
  (if key.legacy then "hour:" else "chunk:") ++ key.agentId.text ++ ":" ++ toString key.start

structure ChunkRow where
  agentId : AgentId
  packed : Packed
deriving DecidableEq

/-- The agent and the hour of an R2 object or of a pending export. -/
abbrev HourKey := AgentId × Int

structure ExportAttempt where
  attempts : Nat := 0
  lastError : String := ""
  nextAt : Int := 0
deriving DecidableEq

structure ChunkStore where
  rows : OrderedMap RowKey ChunkRow
  /-- The R2 objects. -/
  objects : OrderedMap HourKey Packed
  exports : OrderedMap HourKey ExportAttempt
deriving DecidableEq

namespace ChunkStore

def empty : ChunkStore := ⟨.empty, .empty, .empty⟩

def rowBatch (store : ChunkStore) (key : RowKey) : Batch :=
  ((store.rows.get? key).map fun row => unpack row.packed).getD {}

def objectBatch (store : ChunkStore) (key : HourKey) : Batch :=
  ((store.objects.get? key).map unpack).getD {}

end ChunkStore

section Flush

variable (collate : String → String → Bool)

def appendChunk (agentId : AgentId) (rows : OrderedMap RowKey ChunkRow)
    (entry : Int × List Datum) : OrderedMap RowKey ChunkRow :=
  let key : RowKey := ⟨false, agentId, entry.1⟩
  let existing := ((rows.get? key).map fun row => unpack row.packed).getD {}
  rows.set key
    ⟨agentId, pack collate (mergeBuffer collate existing (.ofData entry.2) entry.1 chunkSec)⟩

/-- The transaction of `appendLocal`. -/
def appendLocal (agentId : AgentId) (batch : Batch) (store : ChunkStore) : ChunkStore :=
  { store with rows := (groupByChunk batch).entries.foldl (appendChunk collate agentId) store.rows }

/-! `flushCompletedHours` -/

def telemetryFlushIntervalSec (env : Env) : Int :=
  match env.telemetryFlushIntervalSec.getD (.finite 3600) with
  | .finite raw => max 600 (min 86400 ⌊raw⌋)
  | _ => 3600

def flushGraceSec : Int := 600

def storageListPageLimit : Nat := 500

/-- One page of `storage.list`. -/
def listPage (rows : OrderedMap RowKey ChunkRow) (legacy : Bool) (startAfter : Option RowKey) :
    List (RowKey × ChunkRow) :=
  ((rows.entries.filter fun entry => entry.1.legacy = legacy ∧
    startAfter.all fun after => after.text < entry.1.text).insertionSort
      fun first second => first.1.text ≤ second.1.text).take storageListPageLimit

/-- The rows of one agent and hour that are flushed together. -/
structure HourItem where
  key : HourKey
  rows : List (RowKey × ChunkRow)
deriving DecidableEq

inductive HourAwait where
  | get
  | put (merged : Packed)
  | head
  | readBack
  | exportGet
  | exportPut (attempt : ExportAttempt)
  /-- The first row is being deleted, the others come after it. -/
  | delete (row : RowKey × ChunkRow) (others : List (RowKey × ChunkRow))
deriving DecidableEq

inductive FlushPhase where
  /-- The rows listed so far, and where the next page starts. -/
  | listing (legacy : Bool) (listed : List (RowKey × ChunkRow)) (startAfter : Option RowKey)
  | flushing (item : HourItem) (await : HourAwait) (rest : List HourItem)
  | finished
deriving DecidableEq

structure HourFlush where
  store : ChunkStore
  currentAt : Int
  phase : FlushPhase
  /-- The marks that the appends have committed for each agent. -/
  committed : AgentId → List Mark

def completedRow (env : Env) (currentAt : Int) (key : RowKey) : Bool :=
  hourStart key.start + telemetryFlushIntervalSec env ≤ currentAt - flushGraceSec

def completedHours (env : Env) (currentAt : Int) (listed : List (RowKey × ChunkRow)) :
    List HourItem :=
  (OrderedMap.group (fun entry : RowKey × ChunkRow => (entry.2.agentId, hourStart entry.1.start))
    (listed.filter fun entry => completedRow env currentAt entry.1)).entries.map
      fun entry => ⟨entry.1, entry.2⟩

/-- Without the archive every hour fails and keeps its rows. -/
def nextHour (env : Env) : List HourItem → FlushPhase
  | [] => .finished
  | item :: rest => if env.archiveBound then .flushing item .get rest else .finished

/-- The merged rows of an hour. -/
def mergeRows (item : HourItem) : Batch :=
  item.rows.foldl (fun merged row =>
    mergeBuffer collate merged (unpack row.2.packed) item.key.2 hourSec) {}

/-- A page is added; the last one of a prefix is not full or brings nothing new. -/
def addPage (env : Env) (currentAt : Int) (store : ChunkStore) (legacy : Bool)
    (listed : List (RowKey × ChunkRow)) (startAfter : Option RowKey) : FlushPhase :=
  let page := listPage store.rows legacy startAfter
  let fresh := page.filter fun entry => entry.1 ∉ listed.map Prod.fst
  if page.length < storageListPageLimit ∨ fresh = [] then
    if legacy then nextHour env (completedHours env currentAt (listed ++ fresh))
    else .listing true (listed ++ fresh) none
  else .listing legacy (listed ++ fresh) (page.getLast?.map Prod.fst)

def deleteRows (env : Env) (item : HourItem) (rest : List HourItem) :
    List (RowKey × ChunkRow) → FlushPhase
  | [] => nextHour env rest
  | row :: others => .flushing item (.delete row others) rest

/-- What the operation that is waited for does, and what is waited for next. -/
def resumeHour (env : Env) (store : ChunkStore) (item : HourItem) (rest : List HourItem) :
    HourAwait → ChunkStore × FlushPhase
  | .get =>
      let merged := mergeBuffer collate (store.objectBatch item.key) (mergeRows collate item)
        item.key.2 hourSec
      (store, .flushing item (.put (pack collate merged)) rest)
  | .put merged =>
      ({ store with objects := store.objects.set item.key merged }, .flushing item .head rest)
  | .head => (store, .flushing item .readBack rest)
  | .readBack =>
      if env.timeseriesExport then (store, .flushing item .exportGet rest)
      else (store, deleteRows env item rest item.rows)
  | .exportGet =>
      (store, .flushing item (.exportPut ((store.exports.get? item.key).getD {})) rest)
  | .exportPut attempt =>
      ({ store with exports := store.exports.set item.key attempt },
        deleteRows env item rest item.rows)
  | .delete row others =>
      ({ store with rows := store.rows.erase row.1 }, deleteRows env item rest others)

/-- The rows of an item that are still to be deleted. -/
def HourItem.left (item : HourItem) : HourAwait → List (RowKey × ChunkRow)
  | .delete row others => row :: others
  | _ => item.rows

def FlushPhase.rows (env : Env) (currentAt : Int) : FlushPhase → List (RowKey × ChunkRow)
  | .listing _ listed _ => listed.filter fun entry => completedRow env currentAt entry.1
  | .flushing item await rest => item.left await ++ rest.flatMap HourItem.rows
  | .finished => []

inductive ChunkEvent where
  | append (agentId : AgentId) (batch : Batch)
  | resume

namespace HourFlush

def start (currentAt : Int) (store : ChunkStore) : HourFlush :=
  ⟨store, currentAt, .listing false [] none, fun _ => []⟩

/-- The marks of a batch that are appended. -/
def accepted (batch : Batch) : List Mark :=
  batch.marks.filter fun mark => 0 < mark.ts ∧ mark.Named

def step (env : Env) (flush : HourFlush) : ChunkEvent → HourFlush
  | .append agentId batch =>
      { flush with
        store := appendLocal collate agentId batch flush.store
        committed := fun id =>
          if id = agentId then flush.committed id ++ accepted batch else flush.committed id }
  | .resume =>
      match flush.phase with
      | .listing legacy listed startAfter =>
          { flush with phase := addPage env flush.currentAt flush.store legacy listed startAfter }
      | .flushing item await rest =>
          let next := resumeHour collate env flush.store item rest await
          { flush with store := next.1, phase := next.2 }
      | .finished => flush

/-- The rows that the flush has read and will delete. -/
def remaining (env : Env) (flush : HourFlush) : List (RowKey × ChunkRow) :=
  flush.phase.rows env flush.currentAt

/-- The append goes to no row that the flush has read and will delete. -/
def SparesHeld (env : Env) (flush : HourFlush) : ChunkEvent → Prop
  | .append agentId batch => ∀ mark ∈ accepted batch,
      (⟨false, agentId, chunkStart mark.ts⟩ : RowKey) ∉ (flush.remaining env).map Prod.fst
  | .resume => True

instance (env : Env) (flush : HourFlush) : ∀ event, Decidable (SparesHeld env flush event)
  | .append _ _ => inferInstanceAs (Decidable (∀ mark ∈ _, _ ∉ _))
  | .resume => .isTrue trivial

end HourFlush

end Flush

end NieSla.Telemetry
