import NieSla.Lib.Processes
import NieSla.ProbeHistory.Flush

/-! `flushCompletedDays` of the alarm with its awaits, and the calls that run between them: appends,
the days of `flushMemDays`, dead-letter writes and replays. A step of storage or R2 may fail, and a
write that fails may have been applied. -/
namespace NieSla.ProbeHistory

/-- What is noted of a run. -/
inductive Fact where
  /-- An archive write of the day flush threw. -/
  | failed (key : DayKey)
  /-- Another step of the day flush threw. -/
  | thrown (key : DayKey)
  /-- The day flush has archived the row and stored that. -/
  | stored (key : DayKey)
  /-- A confirmation failed. -/
  | unconfirmed (key : DayKey)
  /-- The attempts of a day are forgotten. -/
  | cleared (day : Int)
  /-- The day flush sets out to move the row to the dead letters. -/
  | moved (key : DayKey)
  /-- The dead letter of a row that was never confirmed could not be written. -/
  | unsaved (key : DayKey)
  /-- Points of these times were put into the object, by other calls than replays. -/
  | archived (key : DayKey) (times : List Int)
  /-- Points of these times were put into the dead letter. -/
  | lettered (key : DayKey) (times : List Int)
  /-- A replay put another point in the place of one archived after the dead letter was written. -/
  | replaced (key : DayKey) (ts : Int)
deriving DecidableEq

structure Hub where
  buffer : HistoryBuffer
  /-- The map is by the day alone. -/
  archiveAttempts : OrderedMap Int Nat
  /-- The newest fact first. -/
  journal : List Fact
deriving DecidableEq

namespace Hub

def attempts (hub : Hub) (day : Int) : Nat := (hub.archiveAttempts.get? day).getD 0

def note (hub : Hub) (facts : List Fact) : Hub := { hub with journal := facts ++ hub.journal }

def setObject (hub : Hub) (key : DayKey) (points : List ProbePoint) : Hub :=
  { hub with buffer := { hub.buffer with objects := hub.buffer.objects.set key points } }

def setRow (hub : Hub) (key : DayKey) (row : DayRow) : Hub :=
  { hub with buffer := { hub.buffer with rows := hub.buffer.rows.set key row } }

def eraseRow (hub : Hub) (key : DayKey) : Hub :=
  { hub with buffer := { hub.buffer with rows := hub.buffer.rows.erase key } }

def setLetter (hub : Hub) (key : DayKey) (points : List ProbePoint) : Hub :=
  { hub with buffer := { hub.buffer with deadLetters := hub.buffer.deadLetters.set key points } }

def eraseLetter (hub : Hub) (key : DayKey) : Hub :=
  { hub with buffer := { hub.buffer with deadLetters := hub.buffer.deadLetters.erase key } }

def setAttempts (hub : Hub) (day : Int) (count : Nat) : Hub :=
  { hub with archiveAttempts := hub.archiveAttempts.set day count }

/-- `this.archiveAttempts.delete(day)` -/
def clearAttempts (hub : Hub) (day : Int) : Hub :=
  { hub with archiveAttempts := hub.archiveAttempts.erase day }.note [.cleared day]

end Hub

structure Input where
  now : Int
  outcome : Outcome

/-- The awaited write has been applied, whether or not it was reported. -/
def Outcome.applied : Outcome → Bool
  | .succeeded => true
  | .failed applied => applied

/-- The times of the day at which there is a point. -/
def timesOf (env : Env) (key : DayKey) (points : List ProbePoint) : List Int :=
  (dayPoints env key.2 points).map ProbePoint.checkedAt

/-! `mergeArchiveDay` -/

inductive ArchiveAwait where
  | storageMeta
  | readMeta
  | get
  | put (existing : List ProbePoint)
  | head
  | verify
deriving DecidableEq

inductive ArchiveResult where
  | waiting (await : ArchiveAwait)
  | done
  | thrown

/-- What is waited for after a step; without the R2 binding the first one throws. -/
def archiveNext (env : Env) (buffer : HistoryBuffer) (key : DayKey) (outcome : Outcome) :
    ArchiveAwait → ArchiveResult
  | await =>
      match outcome with
      | .failed _ => .thrown
      | .succeeded =>
          match await with
          | .storageMeta => if env.archiveBound then .waiting .readMeta else .thrown
          | .readMeta => .waiting .get
          | .get => .waiting (.put (buffer.objectPoints key))
          | .put _ => .waiting .head
          | .head => .waiting .verify
          | .verify => .done

/-- The object that a step puts, if it does. -/
def archivePut (env : Env) (key : DayKey) (points : List ProbePoint) (outcome : Outcome) :
    ArchiveAwait → Option (List ProbePoint)
  | .put existing => if outcome.applied then some (mergeDay env key.2 existing points) else none
  | _ => none

/-- A step of an archive write by another call than a replay. -/
def Hub.archive (env : Env) (key : DayKey) (points : List ProbePoint) (outcome : Outcome)
    (await : ArchiveAwait) (hub : Hub) : Hub :=
  match archivePut env key points outcome await with
  | some merged => (hub.setObject key merged).note [.archived key (timesOf env key points)]
  | none => hub

/-! `writeDeadLetterDay` -/

def letterOf (env : Env) (key : DayKey) (existing points : List ProbePoint) : List ProbePoint :=
  mergeDay env key.2 existing (existing ++ points)

def Hub.letter (env : Env) (key : DayKey) (existing points : List ProbePoint) (outcome : Outcome)
    (hub : Hub) : Hub :=
  if outcome.applied then
    (hub.setLetter key (letterOf env key existing points)).note
      [.lettered key (timesOf env key points)]
  else hub

/-! `replayDeadLetter` -/

/-- A point of the time was archived after the newest dead letter that has the time. -/
def archivedSince (key : DayKey) (ts : Int) : List Fact → Bool
  | [] => false
  | .archived other times :: rest => (other = key && times.contains ts) || archivedSince key ts rest
  | .lettered other times :: rest =>
      !(other = key && times.contains ts) && archivedSince key ts rest
  | _ :: rest => archivedSince key ts rest

/-- A point of the time was archived after the dead letter that was read when the journal had
`seen` facts. -/
def overtaken (key : DayKey) (seen : Nat) (ts : Int) (journal : List Fact) : Bool :=
  let newer := journal.length - seen
  ((journal.take newer).any fun fact =>
    match fact with
    | .archived other times => other = key && times.contains ts
    | _ => false) || archivedSince key ts (journal.drop newer)

/-- The times at which a replay puts another point in the place of a newer one. -/
def replacedTimes (env : Env) (key : DayKey) (entry merged : List ProbePoint) (seen : Nat)
    (hub : Hub) : List Int :=
  (timesOf env key entry).filter fun ts =>
    overtaken key seen ts hub.journal &&
      decide (bucketAt env key.2 merged ts ≠ bucketAt env key.2 (hub.buffer.objectPoints key) ts)

inductive ReplayAwait where
  | get
  | archive (entry : List ProbePoint) (seen : Nat) (await : ArchiveAwait)
  | delete (entry : List ProbePoint)
deriving DecidableEq

/-! `flushCompletedDays` -/

/-- Why a row is moved to the dead letters. -/
inductive Cause where
  | unconfirmed
  | attempts (count : Nat)
deriving DecidableEq

inductive RowAwait where
  | confirmMeta
  | confirmHead
  | confirmVerify
  | deleteConfirmed
  | archive (confirmFails : Nat) (await : ArchiveAwait)
  | put (row : DayRow)
  | letterGet (cause : Cause)
  | letterPut (cause : Cause) (existing : List ProbePoint)
  | deleteMoved (cause : Cause)
deriving DecidableEq

/-- The rows that the loop has still to visit, with the archive budget left. -/
structure Pass where
  currentDay : Int
  left : List (DayKey × DayRow)
  budget : Nat
deriving DecidableEq

inductive Call where
  | append (entry : TargetId × List ProbeWrite)
  /-- One day of `flushMemDays`. -/
  | memDay (key : DayKey) (points : List ProbePoint)
  | writeDeadLetterDay (key : DayKey) (points : List ProbePoint)
  | replayDeadLetter (key : DayKey)
  | drainDeadLetters (target : Option TargetId) (limit : Nat)

inductive Waiting where
  | idle
  | returned
  | flushing (pass : Pass) (key : DayKey) (row : DayRow) (await : RowAwait)
  | listing (target : Option TargetId) (limit : Nat)
  | replaying (left : List DayKey) (key : DayKey) (await : ReplayAwait)
  | lettering (key : DayKey) (points existing : List ProbePoint)
  | archivingDay (key : DayKey) (points : List ProbePoint) (await : ArchiveAwait)
  | readingDay (key : DayKey) (points : List ProbePoint) (archived : Bool)
  | storingDay (key : DayKey) (row : DayRow)

/-- The loop goes on to the next row for which it has to wait. -/
def nextRow (now : Int) (currentDay : Int) (budget : Nat) : List (DayKey × DayRow) → Waiting
  | [] => .listing none 3
  | (key, row) :: left =>
      if currentDay ≤ key.2 then nextRow now currentDay budget left
      else if row.archivedAt.any fun archivedAt => now - archivedAt < archiveConfirmWindowSec then
        nextRow now currentDay budget left
      else if budget = 0 then nextRow now currentDay budget left
      else
        .flushing ⟨currentDay, left, budget - 1⟩ key row
          (if row.archivedAt.isSome then .confirmMeta else .archive 0 .storageMeta)

def Pass.next (pass : Pass) (now : Int) : Waiting := nextRow now pass.currentDay pass.budget pass.left

def maxArchiveDayAttempts : Nat := 3

/-- The `catch` of the loop. -/
def caught (fact : Fact) (pass : Pass) (now : Int) (key : DayKey) (row : DayRow) (hub : Hub) :
    Hub × Waiting :=
  let attempts := hub.attempts key.2 + 1
  if maxArchiveDayAttempts ≤ attempts then
    (hub.note [.moved key, fact], .flushing pass key row (.letterGet (.attempts attempts)))
  else ((hub.setAttempts key.2 attempts).note [fact], pass.next now)

def failedConfirmation (pass : Pass) (key : DayKey) (row : DayRow) (hub : Hub) : Hub × Waiting :=
  let confirmFails := row.confirmFails + 1
  if maxArchiveConfirmFails ≤ confirmFails then
    (hub.note [.moved key, .unconfirmed key], .flushing pass key row (.letterGet .unconfirmed))
  else
    (hub.note [.unconfirmed key], .flushing pass key row (.archive confirmFails .storageMeta))

def confirmed (env : Env) (pass : Pass) (now : Int) (key : DayKey) (row : DayRow) (hub : Hub) :
    Hub × Waiting :=
  if archiveReadRetentionSec ≤ now - dayStartSec key.2 env then
    (hub.clearAttempts key.2, .flushing pass key row .deleteConfirmed)
  else (hub, pass.next now)

/-- The dead letter could not be written. -/
def unsaved (cause : Cause) (pass : Pass) (now : Int) (key : DayKey) (hub : Hub) : Hub × Waiting :=
  match cause with
  | .unconfirmed =>
      ((hub.setAttempts key.2 maxArchiveDayAttempts).note [.unsaved key], pass.next now)
  | .attempts count => (hub.setAttempts key.2 count, pass.next now)

def flushAct (env : Env) (input : Input) (pass : Pass) (key : DayKey) (row : DayRow) (hub : Hub) :
    RowAwait → Hub × Waiting
  | .confirmMeta =>
      match input.outcome with
      | .succeeded => (hub, .flushing pass key row .confirmHead)
      | .failed _ => caught (.thrown key) pass input.now key row hub
  | .confirmHead =>
      match input.outcome with
      | .succeeded =>
          if (hub.buffer.objects.get? key).isSome then (hub, .flushing pass key row .confirmVerify)
          else failedConfirmation pass key row hub
      | .failed _ => failedConfirmation pass key row hub
  | .confirmVerify =>
      match input.outcome with
      | .succeeded =>
          if (hub.buffer.objects.get? key).isSome then confirmed env pass input.now key row hub
          else failedConfirmation pass key row hub
      | .failed _ => failedConfirmation pass key row hub
  | .deleteConfirmed =>
      let erased := if input.outcome.applied then hub.eraseRow key else hub
      match input.outcome with
      | .succeeded => (erased, pass.next input.now)
      | .failed _ => caught (.thrown key) pass input.now key row erased
  | .archive confirmFails await =>
      let hub' := hub.archive env key row.points input.outcome await
      match archiveNext env hub.buffer key input.outcome await with
      | .waiting following => (hub', .flushing pass key row (.archive confirmFails following))
      | .done =>
          (hub', .flushing pass key row
            (.put { row with archivedAt := some input.now, confirmFails := confirmFails }))
      | .thrown => caught (.failed key) pass input.now key row hub'
  | .put kept =>
      let stored := if input.outcome.applied then hub.setRow key kept else hub
      match input.outcome with
      | .succeeded => (stored.note [.stored key], pass.next input.now)
      | .failed _ => caught (.failed key) pass input.now key row stored
  | .letterGet cause =>
      match input.outcome with
      | .succeeded =>
          (hub, .flushing pass key row (.letterPut cause (hub.buffer.deadPoints key)))
      | .failed _ => unsaved cause pass input.now key hub
  | .letterPut cause existing =>
      let lettered := hub.letter env key existing row.points input.outcome
      match input.outcome with
      | .succeeded => (lettered.clearAttempts key.2, .flushing pass key row (.deleteMoved cause))
      | .failed _ => unsaved cause pass input.now key lettered
  | .deleteMoved cause =>
      let erased := if input.outcome.applied then hub.eraseRow key else hub
      match input.outcome with
      | .succeeded => (erased, pass.next input.now)
      | .failed _ =>
          match cause with
          | .unconfirmed => caught (.thrown key) pass input.now key row erased
          | .attempts _ => (erased, .returned)

/-! `drainDeadLetters` -/

def nextReplay : List DayKey → Waiting
  | [] => .returned
  | key :: left => .replaying left key .get

/-- A step of the archive write of a replay. -/
def Hub.replay (env : Env) (key : DayKey) (entry : List ProbePoint) (seen : Nat) (outcome : Outcome)
    (await : ArchiveAwait) (hub : Hub) : Hub :=
  match archivePut env key entry outcome await with
  | some merged =>
      (hub.setObject key merged).note
        ((replacedTimes env key entry merged seen hub).map (.replaced key))
  | none => hub

def replayAct (env : Env) (outcome : Outcome) (left : List DayKey) (key : DayKey) (hub : Hub) :
    ReplayAwait → Hub × Waiting
  | .get =>
      match outcome, hub.buffer.deadLetters.get? key with
      | .succeeded, some entry =>
          (hub, .replaying left key (.archive entry hub.journal.length .storageMeta))
      | _, _ => (hub, nextReplay left)
  | .archive entry seen await =>
      let hub' := hub.replay env key entry seen outcome await
      match archiveNext env hub.buffer key outcome await with
      | .waiting following => (hub', .replaying left key (.archive entry seen following))
      | .done => (hub', .replaying left key (.delete entry))
      | .thrown => (hub', nextReplay left)
  | .delete _ => (if outcome.applied then hub.eraseLetter key else hub, nextReplay left)

/-- `clamp(Number(limit || 25), 1, 25)` -/
def drainLimit (limit : Nat) : Nat := if limit = 0 then 25 else min limit 25

def drained (target : Option TargetId) (limit : Nat) (hub : Hub) : List DayKey :=
  (((listed hub.buffer.deadLetters).map Prod.fst).filter fun key =>
    target.all fun target => target = key.1).take (drainLimit limit)

/-! The calls. -/

def beginFlush (env : Env) (input : Input) (hub : Hub) : Waiting :=
  match env.archiveBound, input.outcome with
  | true, .succeeded =>
      nextRow input.now (dayFromSec input.now env) maxArchiveWritesPerAlarm (listed hub.buffer.rows)
  | _, _ => .returned

def begin (env : Env) (input : Input) (hub : Hub) : Call → Hub × Waiting
  | .append entry => ({ hub with buffer := append env [entry] hub.buffer }, .returned)
  | .memDay key points =>
      (hub, if key.2 < dayFromSec input.now env ∧ env.archiveBound then
        .archivingDay key points .storageMeta
      else .readingDay key points false)
  | .writeDeadLetterDay key points =>
      match input.outcome with
      | .succeeded => (hub, .lettering key points (hub.buffer.deadPoints key))
      | .failed _ => (hub, .returned)
  | .replayDeadLetter key => (hub, .replaying [] key .get)
  | .drainDeadLetters target limit => (hub, .listing target limit)

/-- Process 0 is the alarm, which never runs twice at a time. -/
def act (env : Env) (calls : Nat → Call) (process : Nat) (hub : Hub) (waiting : Waiting)
    (input : Input) : Hub × Waiting :=
  match waiting with
  | .idle => if process = 0 then (hub, beginFlush env input hub) else begin env input hub (calls process)
  | .returned => (hub, if process = 0 then beginFlush env input hub else .returned)
  | .flushing pass key row await => flushAct env input pass key row hub await
  | .listing target limit =>
      match input.outcome with
      | .succeeded => (hub, nextReplay (drained target limit hub))
      | .failed _ => (hub, .returned)
  | .replaying left key await => replayAct env input.outcome left key hub await
  | .lettering key points existing => (hub.letter env key existing points input.outcome, .returned)
  | .archivingDay key points await =>
      (hub.archive env key points input.outcome await,
        match archiveNext env hub.buffer key input.outcome await with
        | .waiting following => .archivingDay key points following
        | .done => .readingDay key points true
        | .thrown => .returned)
  | .readingDay key points archived =>
      (hub, match input.outcome with
      | .succeeded =>
          .storingDay key (if archived then ⟨points, some input.now, 0⟩
            else ⟨mergeDay env key.2 (hub.buffer.rowPoints key) points, none, 0⟩)
      | .failed _ => .returned)
  | .storingDay key row => (if input.outcome.applied then hub.setRow key row else hub, .returned)

/-- The hub with nothing running. -/
def opened (buffer : HistoryBuffer) (journal : List Fact) : Processes.Pool Hub Waiting :=
  ⟨⟨buffer, .empty, journal⟩, fun _ => .idle⟩

end NieSla.ProbeHistory
