import NieSla.Lib.Runs
import NieSla.ProbeHistory.Kept

/-! `flushMemDays` with its awaits. Between two of its steps points may be appended; a step of
storage or R2 may fail, and a write that fails may have been applied. -/
namespace NieSla.ProbeHistory

/-- What the flush of an entry waits for. -/
inductive Await where
  | archiveMeta
  | archiveReadMeta
  | archiveGet
  | archivePut (merged : List ProbePoint)
  | archiveHead
  | archiveVerify
  | archivedRowGet
  | archivedRowPut (row : DayRow)
  | rowGet
  | rowPut (row : DayRow)
  | deadLetterGet
  | deadLetterPut (merged : List ProbePoint)
deriving DecidableEq

inductive Phase where
  /-- The loop has read this entry of `memDays`. -/
  | visiting (key : DayKey) (points : List ProbePoint) (await : Await)
  | returned
deriving DecidableEq

structure Flush where
  buffer : HistoryBuffer
  memDayAttempts : OrderedMap DayKey Nat
  failed : OrderedMap DayKey (List ProbePoint)
  currentDay : Int
  /-- How many entries of `memDays` the loop is done with. -/
  finished : Nat
  phase : Phase
  /-- All points that were in memory at the start or have been accepted since. -/
  filed : DayKey → List ProbePoint

inductive Outcome where
  | succeeded
  | failed (applied : Bool)

inductive Event where
  | append (entry : TargetId × List ProbeWrite)
  | resume (outcome : Outcome) (now : Int)

namespace Flush

/-- The loop takes the next entry of the map as it is now, or the function returns. -/
def visit (env : Env) (flush : Flush) : Flush :=
  match flush.buffer.memDays.entries[flush.finished]? with
  | some (key, points) =>
      let await := if key.2 < flush.currentDay ∧ env.archiveBound then .archiveMeta else .rowGet
      { flush with phase := .visiting key points await }
  | none =>
      { flush with buffer := { flush.buffer with memDays := flush.failed }, phase := .returned }

def start (env : Env) (now : Int) (buffer : HistoryBuffer) (memDayAttempts : OrderedMap DayKey Nat) :
    Flush :=
  visit env ⟨buffer, memDayAttempts, .empty, dayFromSec now env, 0, .returned, buffer.memPoints⟩

/-- The write that is waited for. -/
def written (key : DayKey) (await : Await) (buffer : HistoryBuffer) : HistoryBuffer :=
  match await with
  | .archivePut merged => { buffer with objects := buffer.objects.set key merged }
  | .archivedRowPut row | .rowPut row => { buffer with rows := buffer.rows.set key row }
  | .deadLetterPut merged => { buffer with deadLetters := buffer.deadLetters.set key merged }
  | _ => buffer

/-- What is waited for next; after the last write there is nothing. -/
def next (env : Env) (now : Int) (buffer : HistoryBuffer) (key : DayKey)
    (points : List ProbePoint) : Await → Option Await
  | .archiveMeta => some .archiveReadMeta
  | .archiveReadMeta => some .archiveGet
  | .archiveGet => some (.archivePut (mergeDay env key.2 (buffer.objectPoints key) points))
  | .archivePut _ => some .archiveHead
  | .archiveHead => some .archiveVerify
  | .archiveVerify => some .archivedRowGet
  | .archivedRowGet => some (.archivedRowPut ⟨points, some now, 0⟩)
  | .rowGet => some (.rowPut ⟨mergeDay env key.2 (buffer.rowPoints key) points, none, 0⟩)
  | .deadLetterGet =>
      let existing := buffer.deadPoints key
      some (.deadLetterPut (mergeDay env key.2 existing (existing ++ points)))
  | .archivedRowPut _ | .rowPut _ | .deadLetterPut _ => none

def inDeadLetter : Await → Bool
  | .deadLetterGet | .deadLetterPut _ => true
  | _ => false

def maxMemDayAttempts : Nat := 3

def resume (env : Env) (outcome : Outcome) (now : Int) (flush : Flush) : Flush :=
  match flush.phase with
  | .returned => flush
  | .visiting key points await =>
      match outcome with
      | .succeeded =>
          let buffer := written key await flush.buffer
          match next env now buffer key points await with
          | some following => { flush with buffer, phase := .visiting key points following }
          | none =>
              let memDayAttempts := flush.memDayAttempts.erase key
              visit env { flush with buffer, memDayAttempts, finished := flush.finished + 1 }
      | .failed applied =>
          let buffer := if applied then written key await flush.buffer else flush.buffer
          let attempts := (flush.memDayAttempts.get? key).getD 0 + 1
          if maxMemDayAttempts ≤ attempts ∧ inDeadLetter await = false then
            { flush with buffer, phase := .visiting key points .deadLetterGet }
          else
            let memDayAttempts := flush.memDayAttempts.set key attempts
            let failed := flush.failed.set key points
            visit env { flush with buffer, memDayAttempts, failed, finished := flush.finished + 1 }

def step (env : Env) (flush : Flush) : Event → Flush
  | .append entry =>
      let buffer := append env [entry] flush.buffer
      let filed := fun key => flush.filed key ++ accepted env [entry] key
      { flush with buffer, filed }
  | .resume outcome now => resume env outcome now flush

/-- The keys that the loop has read. -/
def taken (flush : Flush) : List DayKey :=
  match flush.phase with
  | .visiting _ _ _ => (flush.buffer.memDays.entries.take (flush.finished + 1)).map Prod.fst
  | .returned => []

/-- An append stays below the limits of its days; `buckets` are the times that a day may have. -/
def Fits (env : Env) (buckets : DayKey → Finset Int) (flush : Flush) : Event → Prop
  | .append entry => ∀ item ∈ incoming env entry.2,
      (flush.buffer.memPoints (entry.1, item.1) ++ accepted env [entry] (entry.1, item.1)).length ≤
          maxMemPoints env ∧
        (dayFromSec item.2.checkedAt env = item.1 → item.2.checkedAt ∈ buckets (entry.1, item.1))
  | .resume _ _ => True

/-- No key of the append has been read by the loop. -/
def Untaken (env : Env) (flush : Flush) : Event → Prop
  | .append entry => ∀ item ∈ incoming env entry.2, (entry.1, item.1) ∉ flush.taken
  | .resume _ _ => True

instance (env : Env) (buckets : DayKey → Finset Int) (flush : Flush) :
    ∀ event, Decidable (Fits env buckets flush event)
  | .append _ => inferInstanceAs (Decidable (∀ item ∈ _, _ ∧ _))
  | .resume _ _ => .isTrue trivial

instance (env : Env) (flush : Flush) : ∀ event, Decidable (Untaken env flush event)
  | .append _ => inferInstanceAs (Decidable (∀ item ∈ _, _ ∉ _))
  | .resume _ _ => .isTrue trivial

end Flush

end NieSla.ProbeHistory
