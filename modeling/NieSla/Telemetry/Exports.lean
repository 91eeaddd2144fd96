import NieSla.Lib.Processes
import NieSla.Telemetry.HourFlush
import NieSla.Util.Text

/-! Runs of `flushCompletedHours`, any number of them at once: each flushes the completed hours, queues
their exports, and then exports what is queued. An operation takes effect when its await ends; only
the calls of the export fail. -/
namespace NieSla.Telemetry

def maxExportAttempts : Nat := 12

/-- The stores with what the code does not keep: how often each object was written, how often it had
been when the newest version was read that is exported, and when the export was dropped. -/
structure ExportStore where
  chunks : ChunkStore
  written : HourKey → Nat := fun _ => 0
  exported : HourKey → Nat := fun _ => 0
  dropped : HourKey → Nat := fun _ => 0

inductive ExportAwait where
  | read
  /-- The object is being exported, as it was after so many writes. -/
  | sending (version : Nat)
  | clear (version : Nat)
  | drop
  | retry (attempt : ExportAttempt)
deriving DecidableEq

inductive RunPhase where
  | waiting
  | flushing (currentAt : Int) (phase : FlushPhase)
  | listing (currentAt : Int) (listed : List (HourKey × ExportAttempt)) (startAfter : Option HourKey)
  | exporting (currentAt : Int) (entry : HourKey × ExportAttempt) (await : ExportAwait)
      (rest : List (HourKey × ExportAttempt))
  | finished
deriving DecidableEq

/-- `append` with its batch, or the alarm. -/
abbrev FlushCall := Option (AgentId × Batch)

structure RunInput where
  now : Int := 0
  /-- The error of a call of the export that fails. -/
  fails : Option String := none

def exportKeyText (key : HourKey) : String := "export:" ++ key.1.text ++ ":" ++ toString key.2

/-- One page of `storage.list` under `export:`. -/
def exportPage (exports : OrderedMap HourKey ExportAttempt) (startAfter : Option HourKey) :
    List (HourKey × ExportAttempt) :=
  ((exports.entries.filter fun entry =>
    startAfter.all fun after => exportKeyText after < exportKeyText entry.1).insertionSort
      fun first second => exportKeyText first.1 ≤ exportKeyText second.1).take storageListPageLimit

/-- The next row that is due. -/
def nextExport (currentAt : Int) : List (HourKey × ExportAttempt) → RunPhase
  | [] => .finished
  | entry :: rest =>
      if currentAt < entry.2.nextAt then nextExport currentAt rest
      else .exporting currentAt entry .read rest

def addExportPage (currentAt : Int) (exports : OrderedMap HourKey ExportAttempt)
    (listed : List (HourKey × ExportAttempt)) (startAfter : Option HourKey) : RunPhase :=
  let page := exportPage exports startAfter
  let fresh := page.filter fun entry => entry.1 ∉ listed.map Prod.fst
  if page.length < storageListPageLimit ∨ fresh = [] then nextExport currentAt (listed ++ fresh)
  else .listing currentAt (listed ++ fresh) (page.getLast?.map Prod.fst)

/-- What follows a failed attempt: the row is deleted at the last one, else put back for later. -/
def failedExport (currentAt : Int) (attempt : ExportAttempt) (error : String) : ExportAwait :=
  let attempts := attempt.attempts + 1
  if maxExportAttempts ≤ attempts then .drop
  else .retry
    { attempts
      lastError := cut 240 error
      nextAt := currentAt + min 3600 (300 * 2 ^ min (attempts - 1) 3) }

def countWrite (counts : HourKey → Nat) (key : HourKey) : HourKey → Nat :=
  Function.update counts key (counts key + 1)

section Act

variable (collate : String → String → Bool) (env : Env)

/-- The flush of the completed hours, with its writes counted. -/
def resumeFlush (currentAt : Int) (store : ExportStore) : FlushPhase → ExportStore × FlushPhase
  | .listing legacy listed startAfter =>
      (store, addPage env currentAt store.chunks legacy listed startAfter)
  | .flushing item await rest =>
      let (chunks, next) := resumeHour collate env store.chunks item rest await
      ({ store with
          chunks
          written := match await with
            | .put _ => countWrite store.written item.key
            | _ => store.written }, next)
  | .finished => (store, .finished)

def afterFlush (currentAt : Int) : FlushPhase → RunPhase
  | .finished => if env.timeseriesExport then .listing currentAt [] none else .finished
  | phase => .flushing currentAt phase

/-- One row of `flushPendingExports`. -/
def resumeExport (currentAt : Int) (store : ExportStore) (entry : HourKey × ExportAttempt)
    (rest : List (HourKey × ExportAttempt)) (fails : Option String) :
    ExportAwait → ExportStore × RunPhase
  | .read =>
      let await :=
        if !env.archiveBound then failedExport currentAt entry.2 "missing_archive"
        else if (store.chunks.objects.get? entry.1).isSome then .sending (store.written entry.1)
        else .clear (store.written entry.1)
      (store, .exporting currentAt entry await rest)
  | .sending version =>
      match fails with
      | some error => (store, .exporting currentAt entry (failedExport currentAt entry.2 error) rest)
      | none =>
          ({ store with
              exported := Function.update store.exported entry.1
                (max (store.exported entry.1) version) },
            .exporting currentAt entry (.clear version) rest)
  | .clear _ =>
      ({ store with chunks.exports := store.chunks.exports.erase entry.1 }, nextExport currentAt rest)
  | .drop =>
      ({ store with
          chunks.exports := store.chunks.exports.erase entry.1
          dropped := Function.update store.dropped entry.1 (store.written entry.1) },
        nextExport currentAt rest)
  | .retry attempt =>
      ({ store with chunks.exports := store.chunks.exports.set entry.1 attempt },
        nextExport currentAt rest)

/-- The next step of a run. -/
def flushAct (calls : Nat → FlushCall) (call : Nat) (store : ExportStore) (phase : RunPhase)
    (input : RunInput) : ExportStore × RunPhase :=
  match phase with
  | .waiting =>
      match calls call with
      | none => (store, .flushing input.now (.listing false [] none))
      | some (agentId, batch) =>
          if (groupByChunk batch).entries = [] then (store, .finished)
          else ({ store with chunks := appendLocal collate agentId batch store.chunks },
            .flushing input.now (.listing false [] none))
  | .flushing currentAt phase =>
      let (after, next) := resumeFlush collate env currentAt store phase
      (after, afterFlush env currentAt next)
  | .listing currentAt listed startAfter =>
      (store, addExportPage currentAt store.chunks.exports listed startAfter)
  | .exporting currentAt entry await rest =>
      resumeExport env currentAt store entry rest input.fails await
  | .finished => (store, .finished)

end Act

/-- The object was written after every version that is exported was read, and the export was not
dropped since. -/
def Owed (store : ExportStore) (key : HourKey) : Prop :=
  store.exported key < store.written key ∧ store.dropped key < store.written key

instance (store : ExportStore) (key : HourKey) : Decidable (Owed store key) :=
  inferInstanceAs (Decidable (_ ∧ _))

/-- The run has written the object of the hour and has still to queue its export. -/
def Queues (phase : RunPhase) (key : HourKey) : Prop :=
  match phase with
  | .flushing _ (.flushing item await _) => item.key = key ∧
      match await with
      | .head | .readBack | .exportGet | .exportPut _ => True
      | .get | .put _ | .delete _ _ => False
  | _ => False

/-- A run deletes the row of an export, without a failure, only as long as the object is as it has
read it. -/
def ClearsCurrent (_call : Nat) (store : ExportStore) (phase : RunPhase) (_input : RunInput) : Prop :=
  match phase with
  | .exporting _ entry (.clear version) _ => store.written entry.1 = version
  | _ => True

instance (call : Nat) (store : ExportStore) (input : RunInput) :
    ∀ phase, Decidable (ClearsCurrent call store phase input)
  | .exporting _ _ (.clear _) _ => inferInstanceAs (Decidable (_ = _))
  | .exporting _ _ .read _ | .exporting _ _ (.sending _) _ | .exporting _ _ .drop _
  | .exporting _ _ (.retry _) _ | .waiting | .flushing _ _ | .listing _ _ _ | .finished => .isTrue trivial

end NieSla.Telemetry
