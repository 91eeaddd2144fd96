import NieSla.Lib.Runs

/-! The self-update of the agent, one file operation at a time: the install of a validated binary,
the check of every start that may roll it back, and its confirmation. The process may be killed
between any two operations. -/
namespace NieSla.Agent

def updatePendingConfirmWindowSec : Nat := 1800
def backupFileName : String := "nie-sla-agent.bak"
def failedFileName : String := "nie-sla-agent.failed"

/-- `Path::file_stem`: a leading dot starts no extension. -/
def fileStem (name : String) : String :=
  let before := (name.toList.reverse.dropWhile (· ≠ '.')).drop 1
  if name = ".." ∨ before = [] then name else String.ofList before.reverse

/-- `Path::with_extension` -/
def withExtension (name extension : String) : String := fileStem name ++ "." ++ extension

def tempName (exe : String) (pid : Nat) : String := withExtension exe ("update-" ++ toString pid)

section Files

variable {Binary : Type}

inductive Node (Binary : Type) where
  | file (binary : Binary)
  | symlink (dangling : Bool)
deriving DecidableEq

/-- `exists` follows a link. -/
def Node.present : Node Binary → Bool
  | .file _ => true
  | .symlink dangling => !dangling

/-- `is_file() && !is_symlink()` -/
def Node.regular : Node Binary → Bool
  | .file _ => true
  | .symlink _ => false

abbrev Directory (Binary : Type) := String → Option (Node Binary)

def Directory.remove (dir : Directory Binary) (name : String) : Directory Binary :=
  Function.update dir name none

/-- `fs::rename` replaces the target, and fails without a source. -/
def Directory.rename (dir : Directory Binary) (source target : String) : Option (Directory Binary) :=
  (dir source).map fun node => Function.update (dir.remove source) target (some node)

theorem Directory.rename_eq {dir : Directory Binary} {source : String} {node : Node Binary}
    (found : dir source = some node) (target : String) :
    dir.rename source target = some (Function.update (dir.remove source) target (some node)) := by
  rw [rename, found]
  rfl

theorem Directory.remove_of_ne {dir : Directory Binary} {name other : String} (apart : other ≠ name) :
    dir.remove name other = dir other := Function.update_of_ne apart _ _

end Files

/-- What is read of the marker: more than 4096 bytes are not parsed, and text without a usable `at`
records nothing. -/
inductive Marker where
  | oversized
  | text (recorded : Option Nat)
deriving DecidableEq

def Marker.recorded : Marker → Nat
  | .oversized => 0
  | .text recorded => recorded.getD 0

/-- An update whose marker was written and that was not confirmed since. -/
structure PendingUpdate (Binary : Type) where
  old : Binary
  recorded : Nat
  installed : Bool
deriving DecidableEq

/-- Where the process is: each phase is about to do the operation that it names. -/
inductive UpdatePhase (Binary : Type) where
  | down
  | checking
  | retain
  | restore
  | undoRestore
  | unmark
  | running
  | mark (temp : String) (binary : Binary)
  | clear (temp : String) (binary : Binary)
  | backUp (temp : String) (binary : Binary)
  | swap (temp : String) (binary : Binary)
  | undoInstall
  | undoMark
  | confirm
deriving DecidableEq

inductive UpdateEvent (Binary : Type) where
  | start
  | kill
  | wait (seconds : Nat)
  | next
  /-- A binary was downloaded to the temporary file and validated there. -/
  | install (pid : Nat) (binary : Binary)
  /-- A report succeeded. -/
  | confirm

/-- The files with what the code does not keep: the complete binaries, the update that is pending,
what each rollback restored and with which update pending, and what was pending when a check let the
process go on. -/
structure Host (Binary : Type) where
  dir : Directory Binary
  marker : Option Marker
  clock : Nat
  phase : UpdatePhase Binary
  loaded : Binary
  complete : List Binary
  update : Option (PendingUpdate Binary)
  restored : List (Node Binary × Option (PendingUpdate Binary))
  passed : List (Option (PendingUpdate Binary) × Nat)

namespace Host

variable {Binary : Type}

/-- The check returns, with `Ok(false)` or an error that `run` only prints. -/
def goOn (host : Host Binary) : Host Binary :=
  { host with phase := .running, passed := host.passed ++ [(host.update, host.clock)] }

/-- `rollback_stale_pending_update` up to its first operation on a binary. -/
def check (exe : String) (host : Host Binary) : Host Binary :=
  match host.marker with
  | none => host.goOn
  | some marker =>
      if 0 < marker.recorded ∧ host.clock - marker.recorded ≤ updatePendingConfirmWindowSec then host.goOn
      else if (host.dir backupFileName).any Node.regular ∧ (host.dir exe).all Node.regular then
        { host with
          marker := if marker = .oversized then none else host.marker
          dir := host.dir.remove failedFileName
          phase := .retain }
      else { host.goOn with marker := none }

def retain (exe : String) (host : Host Binary) : Host Binary :=
  match host.dir.rename exe failedFileName with
  | some dir => { host with dir, phase := .restore }
  | none => host.goOn

def restore (exe : String) (host : Host Binary) : Host Binary :=
  match host.dir backupFileName, host.dir.rename backupFileName exe with
  | some node, some dir =>
      { host with
        dir
        phase := .unmark
        update := none
        restored := host.restored ++ [(node, host.update)] }
  | _, _ => { host with phase := .undoRestore }

def beginInstall (exe : String) (host : Host Binary) (pid : Nat) (binary : Binary) : Host Binary :=
  let temp := tempName exe pid
  -- the file of a running program cannot be written to
  if temp = exe then host
  else
    { host with
      dir := Function.update host.dir temp (some (.file binary))
      complete := host.complete ++ [binary]
      phase := .mark temp binary }

def markUpdatePending (host : Host Binary) (temp : String) (binary : Binary) : Host Binary :=
  { host with
    marker := some (.text (some host.clock))
    update := some ⟨host.loaded, host.clock, false⟩
    phase := .clear temp binary }

def clearBackup (exe : String) (host : Host Binary) (temp : String) (binary : Binary) : Host Binary :=
  let backup := withExtension exe "bak"
  { host with
    dir := if (host.dir backup).any Node.present then host.dir.remove backup else host.dir
    phase := .backUp temp binary }

def backUp (exe : String) (host : Host Binary) (temp : String) (binary : Binary) : Host Binary :=
  match host.dir.rename exe (withExtension exe "bak") with
  | some dir => { host with dir, phase := .swap temp binary }
  | none => { host with phase := .running }

/-- The last rename; the process then restarts into the new binary. -/
def swap (exe : String) (host : Host Binary) (temp : String) : Host Binary :=
  match host.dir.rename temp exe with
  | some dir =>
      { host with
        dir
        phase := .down
        update := host.update.map fun update => { update with installed := true } }
  | none => { host with phase := .undoInstall }

def confirmPendingUpdate (host : Host Binary) : Host Binary :=
  if host.marker = none then host
  else { host with marker := none, update := none, phase := .confirm }

/-- The next operation of the process. -/
def next (exe : String) (host : Host Binary) : Host Binary :=
  match host.phase with
  | .down | .running => host
  | .checking => host.check exe
  | .retain => host.retain exe
  | .restore => host.restore exe
  | .undoRestore =>
      { host.goOn with dir := (host.dir.rename failedFileName exe).getD host.dir }
  | .unmark => { host with marker := none, phase := .down }
  | .mark temp binary => host.markUpdatePending temp binary
  | .clear temp binary => host.clearBackup exe temp binary
  | .backUp temp binary => host.backUp exe temp binary
  | .swap temp _ => host.swap exe temp
  | .undoInstall =>
      { host with
        dir := (host.dir.rename (withExtension exe "bak") exe).getD host.dir
        phase := .undoMark }
  | .undoMark => { host with marker := none, update := none, phase := .running }
  | .confirm =>
      { host with
        dir :=
          if (host.dir backupFileName).any Node.regular then host.dir.remove backupFileName
          else host.dir
        phase := .running }

def step (exe : String) (host : Host Binary) : UpdateEvent Binary → Host Binary
  | .kill => { host with phase := .down }
  | .wait seconds => { host with clock := host.clock + seconds }
  | .next => host.next exe
  | .start =>
      match host.phase, host.dir exe with
      | .down, some (.file binary) => { host with phase := .checking, loaded := binary }
      | _, _ => host
  | .install pid binary =>
      match host.phase with
      | .running => host.beginInstall exe pid binary
      | _ => host
  | .confirm =>
      match host.phase with
      | .running => host.confirmPendingUpdate
      | _ => host

/-- A process with the complete binary `old`, in a directory with any leftovers. -/
def initial (exe : String) (leftovers : Directory Binary) (marker : Option Marker) (clock : Nat)
    (old : Binary) : Host Binary where
  dir := Function.update leftovers exe (some (.file old))
  marker
  clock
  phase := .running
  loaded := old
  complete := [old]
  update := none
  restored := []
  passed := []

end Host
end NieSla.Agent
