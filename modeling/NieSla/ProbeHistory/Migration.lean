import NieSla.ProbeHistory.CompletedDays
import NieSla.ProbeHistory.Kept

/-! The migration of the former buffers, one for each target, into the hub: an append or a read of a
target first copies what its former buffer exports and then deletes that. Any step may fail, and the
next append or read tries again. -/
namespace NieSla.ProbeHistory.Migration
open Processes

/-- The former buffer of a target. -/
structure Legacy where
  rows : OrderedMap Int DayRow
  memDays : OrderedMap Int (List ProbePoint)
  deadLetters : OrderedMap Int (List ProbePoint)

structure Export where
  days : OrderedMap Int (List ProbePoint)
  deadLetters : List (Int × List ProbePoint)
deriving DecidableEq

namespace Legacy

def empty : Legacy := ⟨.empty, .empty, .empty⟩

/-- The order of `storage.list`. -/
def listed {β : Type} (map : OrderedMap Int β) : List (Int × β) :=
  map.entries.insertionSort fun first second => first.1 ≤ second.1

def exportDay (days : OrderedMap Int (List ProbePoint)) (entry : Int × List ProbePoint) :
    OrderedMap Int (List ProbePoint) :=
  days.set entry.1 ((days.get? entry.1).getD [] ++ entry.2)

def exportLegacyBuffers (legacy : Legacy) : Export where
  days := ((listed legacy.rows).map (fun entry => (entry.1, entry.2.points)) ++
    legacy.memDays.entries).foldl exportDay .empty
  deadLetters := listed legacy.deadLetters

/-- `storage.deleteAll` leaves the memory. -/
def delete (legacy : Legacy) : Legacy := { legacy with rows := .empty, deadLetters := .empty }

/-- What is held for a day. -/
def points (legacy : Legacy) (day : Int) : List ProbePoint :=
  ((legacy.rows.get? day).map DayRow.points).getD [] ++ (legacy.memDays.get? day).getD [] ++
    (legacy.deadLetters.get? day).getD []

end Legacy

structure Hub where
  buffer : HistoryBuffer
  legacy : TargetId → Legacy
  deleted : List TargetId
  /-- The flags in storage. -/
  flags : List TargetId
  migratedTargets : List TargetId

namespace Hub

def appendLocal (env : Env) (target : TargetId) (writes : List ProbeWrite) (hub : Hub) : Hub :=
  { hub with buffer := append env [(target, writes)] hub.buffer }

def setLetter (key : DayKey) (points : List ProbePoint) (hub : Hub) : Hub :=
  { hub with buffer := { hub.buffer with deadLetters := hub.buffer.deadLetters.set key points } }

def delete (target : TargetId) (hub : Hub) : Hub :=
  { hub with
    legacy := Function.update hub.legacy target (hub.legacy target).delete
    deleted := target :: hub.deleted }

end Hub

/-- What `ensureLegacyBufferMigrated` waits for. -/
inductive Await where
  | flag
  | fetchExport
  | json (exported : Export)
  | days (left deadLetters : List (Int × List ProbePoint))
  | deadLetters (left : List (Int × List ProbePoint))
  | delete
  | putFlag

/-- The writes of a day that is migrated. -/
def migratedWrites (entry : Int × List ProbePoint) : List ProbeWrite :=
  entry.2.map fun point => ⟨some entry.1, point.raw⟩

/-- One step, and what is waited for next unless the function returns. -/
def migrate (env : Env) (target : TargetId) (outcome : Outcome) (hub : Hub) :
    Await → Hub × Option Await
  | .flag =>
      match outcome with
      | .succeeded =>
          if target ∈ hub.flags then
            ({ hub with migratedTargets := target :: hub.migratedTargets }, none)
          else (hub, some .fetchExport)
      | .failed _ => (hub, some .fetchExport)
  | .fetchExport =>
      match outcome with
      | .succeeded => (hub, some (.json (hub.legacy target).exportLegacyBuffers))
      | .failed _ => (hub, none)
  | .json exported =>
      match outcome with
      | .succeeded => (hub, some (.days exported.days.entries exported.deadLetters))
      | .failed _ => (hub, none)
  | .days [] deadLetters => (hub, some (.deadLetters deadLetters))
  | .days (entry :: left) deadLetters =>
      (if entry.2 = [] then hub else hub.appendLocal env target (migratedWrites entry),
        some (.days left deadLetters))
  | .deadLetters [] => (hub, some .delete)
  | .deadLetters (entry :: left) =>
      (if outcome.applied then hub.setLetter (target, entry.1) entry.2 else hub,
        match outcome with
        | .succeeded => some (.deadLetters left)
        | .failed _ => none)
  | .delete => (if outcome.applied then hub.delete target else hub, some .putFlag)
  | .putFlag =>
      ({ hub with
        flags := if outcome.applied then target :: hub.flags else hub.flags
        migratedTargets := target :: hub.migratedTargets }, none)

inductive Call where
  | append (entries : List (TargetId × List ProbeWrite))
  | read (target : TargetId)

inductive Waiting where
  | idle
  | returned
  | appending (entries : List (TargetId × List ProbeWrite))
  /-- With the entries of the append from the one of the target on. -/
  | ensuring (target : TargetId) (await : Await) (entries : List (TargetId × List ProbeWrite))
  /-- The target of the first entry has been seen to. -/
  | ensured (entries : List (TargetId × List ProbeWrite))

def ensureLegacyBufferMigrated (target : TargetId) (entries : List (TargetId × List ProbeWrite))
    (hub : Hub) : Waiting :=
  if target ∈ hub.migratedTargets then .ensured entries else .ensuring target .flag entries

def act (env : Env) (calls : Nat → Call) (process : Nat) (hub : Hub) (waiting : Waiting)
    (outcome : Outcome) : Hub × Waiting :=
  match waiting with
  | .idle =>
      (hub, match calls process with
      | .append entries => .appending entries
      | .read target => ensureLegacyBufferMigrated target [] hub)
  | .returned => (hub, .returned)
  | .appending [] => (hub, .returned)
  | .appending (entry :: rest) =>
      (hub, if entry.2.isEmpty then .appending rest
      else ensureLegacyBufferMigrated entry.1 (entry :: rest) hub)
  | .ensuring target await entries =>
      let next := migrate env target outcome hub await
      (next.1, match next.2 with
      | some await => .ensuring target await entries
      | none => .ensured entries)
  | .ensured [] => (hub, .returned)
  | .ensured (entry :: rest) => (hub.appendLocal env entry.1 entry.2, .appending rest)

/-- Nothing has been deleted, and nothing is running. -/
def opened (buffer : HistoryBuffer) (legacy : TargetId → Legacy) (flags migratedTargets : List TargetId) :
    Pool Hub Waiting :=
  ⟨⟨buffer, legacy, [], flags, migratedTargets⟩, fun _ => .idle⟩

/-- The points that the target's former buffer held for the day, and the dead letter of the hub. -/
def owed (buffer : HistoryBuffer) (legacy : TargetId → Legacy) (key : DayKey) : List ProbePoint :=
  (legacy key.1).points key.2 ++ buffer.deadPoints key

/-- The point is among the points, as it is read again. -/
def Among (points : List ProbePoint) (point : ProbePoint) : Prop :=
  ∃ stored ∈ points, stored.settled = point.settled

instance (points : List ProbePoint) (point : ProbePoint) : Decidable (Among points point) :=
  inferInstanceAs (Decidable (∃ stored ∈ points, _))

/-- The point is in a storage row of the hub or in R2, other dead letters than the given ones aside. -/
def Stored (buffer : HistoryBuffer) (key : DayKey) (dead : List ProbePoint) (point : ProbePoint) :
    Prop :=
  Among (buffer.rowPoints key ++ buffer.objectPoints key ++ dead) point

instance (buffer : HistoryBuffer) (key : DayKey) (dead : List ProbePoint) (point : ProbePoint) :
    Decidable (Stored buffer key dead point) := inferInstanceAs (Decidable (Among _ _))

/-- The point is in the memory of the hub, in one of its storage rows or in R2. -/
def Held (buffer : HistoryBuffer) (key : DayKey) (point : ProbePoint) : Prop :=
  Among (buffer.memPoints key) point ∨ Stored buffer key (buffer.deadPoints key) point

instance (buffer : HistoryBuffer) (key : DayKey) (point : ProbePoint) :
    Decidable (Held buffer key point) := inferInstanceAs (Decidable (_ ∨ _))

/-- No owed point that comes to memory or is there already is dropped for the limit of the day,
unless it is stored. -/
def DropsNothing (env : Env) (owed : DayKey → List ProbePoint) (buffer : HistoryBuffer)
    (target : TargetId) (writes : List ProbeWrite) : Prop :=
  ∀ item ∈ incoming env writes, ∀ point ∈ owed (target, item.1),
    let added := accepted env [(target, writes)] (target, item.1)
    Among (buffer.memPoints (target, item.1) ++ added) point →
      Among (filedWith env (buffer.memPoints (target, item.1)) added) point ∨
        Stored buffer (target, item.1) (buffer.deadPoints (target, item.1)) point

instance (env : Env) (owed : DayKey → List ProbePoint) (buffer : HistoryBuffer)
    (target : TargetId) (writes : List ProbeWrite) :
    Decidable (DropsNothing env owed buffer target writes) := by
  unfold DropsNothing
  infer_instance

/-- An owed point of the dead letter that is put over is in the new one, or held elsewhere. -/
def PutsOverNothing (owed : DayKey → List ProbePoint) (buffer : HistoryBuffer) (key : DayKey)
    (points : List ProbePoint) : Prop :=
  ∀ point ∈ owed key, Among (buffer.deadPoints key) point →
    Among (buffer.memPoints key) point ∨ Stored buffer key points point

instance (owed : DayKey → List ProbePoint) (buffer : HistoryBuffer) (key : DayKey)
    (points : List ProbePoint) : Decidable (PutsOverNothing owed buffer key points) :=
  inferInstanceAs (Decidable (∀ point ∈ owed key, _ → _))

/-- No step goes past an owed point. -/
def KeepsOwed (env : Env) (owed : DayKey → List ProbePoint) (_ : Nat) (hub : Hub) (waiting : Waiting)
    (outcome : Outcome) : Prop :=
  match waiting with
  | .ensuring target (.days (entry :: _) _) _ =>
      DropsNothing env owed hub.buffer target (migratedWrites entry)
  | .ensuring target (.deadLetters (entry :: _)) _ =>
      outcome.applied → PutsOverNothing owed hub.buffer (target, entry.1) entry.2
  | .ensured (entry :: _) => DropsNothing env owed hub.buffer entry.1 entry.2
  | _ => True

instance (env : Env) (owed : DayKey → List ProbePoint) (process : Nat) (hub : Hub)
    (waiting : Waiting) (outcome : Outcome) :
    Decidable (KeepsOwed env owed process hub waiting outcome) := by
  unfold KeepsOwed
  split <;> infer_instance

end NieSla.ProbeHistory.Migration
