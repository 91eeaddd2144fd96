import NieSla.ProbeHistory.Day

/-! The probe history hub: points come in to memory, and alarms move them to the storage
rows of their days and from there to the R2 objects. Every operation of storage and R2
succeeds here. -/
namespace NieSla.ProbeHistory

/-- A target id that `sanitizeId` leaves as it is. -/
structure TargetId where
  text : String
  clean : text ≠ "" ∧ text.length ≤ 96 ∧ text.toList.all allowedChar ∧
    trimDashes text.toList = text.toList
deriving DecidableEq

/-- `target|day` -/
abbrev DayKey := TargetId × Int

/-- The storage row of a day. -/
structure DayRow where
  points : List ProbePoint
  archivedAt : Option Int := none
  confirmFails : Nat := 0
deriving DecidableEq

structure HistoryBuffer where
  memDays : OrderedMap DayKey (List ProbePoint)
  rows : OrderedMap DayKey DayRow
  /-- The R2 objects. -/
  objects : OrderedMap DayKey (List ProbePoint)
  deadLetters : OrderedMap DayKey (List ProbePoint)
deriving DecidableEq

namespace HistoryBuffer

def empty : HistoryBuffer := ⟨.empty, .empty, .empty, .empty⟩

def memPoints (buffer : HistoryBuffer) (key : DayKey) : List ProbePoint :=
  (buffer.memDays.get? key).getD []

def rowPoints (buffer : HistoryBuffer) (key : DayKey) : List ProbePoint :=
  ((buffer.rows.get? key).map DayRow.points).getD []

def objectPoints (buffer : HistoryBuffer) (key : DayKey) : List ProbePoint :=
  (buffer.objects.get? key).getD []

def deadPoints (buffer : HistoryBuffer) (key : DayKey) : List ProbePoint :=
  (buffer.deadLetters.get? key).getD []

end HistoryBuffer

/-! `append` -/

structure ProbeWrite where
  day : Option Int
  point : RawPoint

/-- `perKeyLimit` -/
def maxMemPoints (env : Env) : Nat :=
  match configured env.probeHistoryMaxPointsPerDay 10000 with
  | .finite limit => (min 100000 (max 100 ⌊limit⌋)).toNat
  | _ => 10000

/-- The points that are accepted, each with its day. -/
def incoming (env : Env) (writes : List ProbeWrite) : List (Int × ProbePoint) :=
  writes.filterMap fun write =>
    (normalizeProbePoint write.point).map fun point =>
      (write.day.getD (dayFromSec point.checkedAt env), point)

def appendDay (env : Env) (target : TargetId) (memDays : OrderedMap DayKey (List ProbePoint))
    (entry : Int × List (Int × ProbePoint)) : OrderedMap DayKey (List ProbePoint) :=
  let key := (target, entry.1)
  let merged := (memDays.get? key).getD [] ++ entry.2.map Prod.snd
  memDays.set key (merged.drop (merged.length - maxMemPoints env))

def appendLocal (env : Env) (memDays : OrderedMap DayKey (List ProbePoint))
    (entry : TargetId × List ProbeWrite) : OrderedMap DayKey (List ProbePoint) :=
  (OrderedMap.group Prod.fst (incoming env entry.2)).entries.foldl (appendDay env entry.1) memDays

def append (env : Env) (body : List (TargetId × List ProbeWrite)) (buffer : HistoryBuffer) :
    HistoryBuffer :=
  { buffer with memDays := body.foldl (appendLocal env) buffer.memDays }

/-! `alarm` -/

/-- `mergeArchiveDay` -/
def mergeArchiveDay (env : Env) (key : DayKey) (points : List ProbePoint)
    (buffer : HistoryBuffer) : HistoryBuffer :=
  let merged := mergeDay env key.2 (buffer.objectPoints key) points
  { buffer with objects := buffer.objects.set key merged }

/-- One day of `flushMemDays`. -/
def flushMemDay (env : Env) (now : Int) (buffer : HistoryBuffer)
    (entry : DayKey × List ProbePoint) : HistoryBuffer :=
  let (key, points) := entry
  if key.2 < dayFromSec now env ∧ env.archiveBound then
    let archived := mergeArchiveDay env key points buffer
    { archived with rows := archived.rows.set key ⟨points, some now, 0⟩ }
  else
    let merged := mergeDay env key.2 (buffer.rowPoints key) points
    { buffer with rows := buffer.rows.set key ⟨merged, none, 0⟩ }

def flushMemDays (env : Env) (now : Int) (buffer : HistoryBuffer) : HistoryBuffer :=
  { buffer.memDays.entries.foldl (flushMemDay env now) buffer with memDays := .empty }

/-- The order of `storage.list`. -/
def listed {β : Type} (map : OrderedMap DayKey β) : List (DayKey × β) :=
  map.entries.insertionSort fun first second =>
    (first.1.1.text ++ "|").toList < (second.1.1.text ++ "|").toList ∨
      first.1.1 = second.1.1 ∧ first.1.2 ≤ second.1.2

def writeDeadLetterDay (env : Env) (key : DayKey) (points : List ProbePoint)
    (buffer : HistoryBuffer) : HistoryBuffer :=
  let existing := buffer.deadPoints key
  let merged := mergeDay env key.2 existing (existing ++ points)
  { buffer with deadLetters := buffer.deadLetters.set key merged }

def archiveConfirmWindowSec : Int := 1800

def maxArchiveConfirmFails : Nat := 8

def archiveReadRetentionSec : Int := 4 * 86400

def maxArchiveWritesPerAlarm : Nat := 10

/-- One row of `flushCompletedDays`, as it was listed; with the archive budget left. -/
def flushRow (env : Env) (now : Int) (state : HistoryBuffer × Nat) (entry : DayKey × DayRow) :
    HistoryBuffer × Nat :=
  let (buffer, budget) := state
  let (key, row) := entry
  if dayFromSec now env ≤ key.2 then state
  else if row.archivedAt.any fun archivedAt => now - archivedAt < archiveConfirmWindowSec then state
  else if budget = 0 then state
  else if row.archivedAt.isSome then
    if (buffer.objects.get? key).isSome then
      if archiveReadRetentionSec ≤ now - dayStartSec key.2 env then
        ({ buffer with rows := buffer.rows.erase key }, budget - 1)
      else (buffer, budget - 1)
    else if maxArchiveConfirmFails ≤ row.confirmFails + 1 then
      let saved := writeDeadLetterDay env key row.points buffer
      ({ saved with rows := saved.rows.erase key }, budget - 1)
    else
      let archived := mergeArchiveDay env key row.points buffer
      let kept := { row with archivedAt := some now, confirmFails := row.confirmFails + 1 }
      ({ archived with rows := archived.rows.set key kept }, budget - 1)
  else
    let archived := mergeArchiveDay env key row.points buffer
    let kept := { row with archivedAt := some now, confirmFails := 0 }
    ({ archived with rows := archived.rows.set key kept }, budget - 1)

def replayDeadLetter (env : Env) (buffer : HistoryBuffer) (entry : DayKey × List ProbePoint) :
    HistoryBuffer :=
  let archived := mergeArchiveDay env entry.1 entry.2 buffer
  { archived with deadLetters := archived.deadLetters.erase entry.1 }

def flushCompletedDays (env : Env) (now : Int) (buffer : HistoryBuffer) : HistoryBuffer :=
  if env.archiveBound then
    let flushed := ((listed buffer.rows).foldl (flushRow env now)
      (buffer, maxArchiveWritesPerAlarm)).1
    ((listed flushed.deadLetters).take 3).foldl (replayDeadLetter env) flushed
  else buffer

def alarm (env : Env) (now : Int) (buffer : HistoryBuffer) : HistoryBuffer :=
  flushCompletedDays env now (flushMemDays env now buffer)

/-! `read` -/

structure ReadRequest where
  target : TargetId
  fromDay : Option Int := none
  toDay : Option Int := none
  since : Int := 0
  until_ : Int := 0

def dayRangeLimit : Nat := 90

def boundedDayRange (env : Env) (now : Int) (request : ReadRequest) : List Int :=
  let start := request.fromDay.getD
    (dayFromSec (if request.since = 0 then now else request.since) env)
  let stop := request.toDay.getD
    (dayFromSec (if request.until_ = 0 then now else request.until_) env)
  ((List.range dayRangeLimit).map fun count : Nat => start + (count : Int)).takeWhile fun day => day ≤ stop

/-- What `read` merges for a day. -/
def readDay (env : Env) (buffer : HistoryBuffer) (key : DayKey) : List ProbePoint :=
  mergeDay env key.2 (if env.archiveBound then buffer.objectPoints key else [])
    (buffer.rowPoints key ++ buffer.memPoints key ++ buffer.deadPoints key)

def read (env : Env) (now : Int) (request : ReadRequest) (buffer : HistoryBuffer) :
    List PublicPoint :=
  let stop := if request.until_ = 0 then now else request.until_
  let points := (boundedDayRange env now request).flatMap fun day =>
    ((readDay env buffer (request.target, day)).filter fun point =>
      request.since ≤ point.checkedAt && point.checkedAt ≤ stop).map toPublicPoint
  points.insertionSort fun first second => first.checkedAt ≤ second.checkedAt

end NieSla.ProbeHistory
