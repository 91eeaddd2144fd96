import NieSla.Lib.Runs

/-! The polls of the agent for tasks. A result that could not be uploaded is written to one of two
files, and every poll uploads what these hold before it claims a task. The process may be
restarted between any two operations. -/
namespace NieSla.Agent

inductive Slot where
  | primary
  | backup
deriving DecidableEq

/-- The outcome of a task: where it is posted, and the payload. -/
structure Finished (Payload : Type) where
  taskId : String
  payload : Payload
deriving DecidableEq

section File

variable {Payload : Type}

/-- The members of the written object that are read; a `null` payload counts as absent. -/
structure PendingBody (Payload : Type) where
  taskId : Option String
  payload : Option Payload

/-- `body` is absent where the file cannot be read or parsed. -/
structure PendingFile (Payload : Type) where
  size : Nat
  body : Option (PendingBody Payload)

inductive Entry (Payload : Type) where
  | file (content : PendingFile Payload)
  | symlink (dangling : Bool)

/-- `path.exists()` follows a link. -/
def Entry.present : Entry Payload → Bool
  | .file _ => true
  | .symlink dangling => !dangling

def pendingReadBound : Nat := 4 * 1024 * 1024

def readPendingTaskResult : Entry Payload → Option (Finished Payload)
  | .symlink _ => none
  | .file content =>
      if pendingReadBound < content.size then none
      else content.body.bind fun body => body.payload.bind fun payload =>
        let taskId := body.taskId.getD ""
        if taskId = "" then none else some ⟨taskId, payload⟩

/-- The file of a result, whose serialization has `size` bytes. -/
def pendingEntry (size : Finished Payload → Nat) (result : Finished Payload) : Entry Payload :=
  .file ⟨size result, some ⟨some result.taskId, some result.payload⟩⟩

theorem readPendingTaskResult_pendingEntry {size : Finished Payload → Nat} {result : Finished Payload}
    (named : result.taskId ≠ "") (small : size result ≤ pendingReadBound) :
    readPendingTaskResult (pendingEntry size result) = some result := by
  simp [readPendingTaskResult, pendingEntry, named, not_lt.mpr small]

end File

/-- What the Worker answers to an upload. -/
inductive Answer where
  | success
  | status (code : Nat)
  | transport
deriving DecidableEq

/-- One link of an error chain. -/
inductive Cause where
  | statusCode (code : Nat)
  | other
deriving DecidableEq

/-- `post_json`, with the status error left in the chain. -/
def postJson : Answer → Except (List Cause) Unit
  | .success => .ok ()
  | .status code => .error [.other, .statusCode code]
  | .transport => .error [.other]

def terminalTaskStatus (error : List Cause) : Option Nat :=
  error.findSome? fun
    | .statusCode code => some code
    | .other => none

/-- A client error that a later upload cannot escape. -/
def TerminalStatus (code : Nat) : Prop := 400 ≤ code ∧ code < 500 ∧ code ≠ 408 ∧ code ≠ 429

instance (code : Nat) : Decidable (TerminalStatus code) := inferInstanceAs (Decidable (_ ∧ _))

def Refuses (answer : Answer) : Prop := ∃ code, answer = .status code ∧ TerminalStatus code

instance : (answer : Answer) → Decidable (Refuses answer)
  | .success => .isFalse (by simp [Refuses])
  | .status code => decidable_of_iff (TerminalStatus code) (by simp [Refuses])
  | .transport => .isFalse (by simp [Refuses])

/-- The members of a claimed task that `poll_once` asks for. -/
structure TaskReply where
  id : Option String
  action : Option String

/-- Where the process is in `poll_once`. -/
inductive Phase (Payload : Type) where
  | flush (slot : Slot) (flushed : Bool)
  | post (slot : Slot) (flushed : Bool) (result : Finished Payload)
  | remove (slot : Slot) (flushed : Bool)
  | claim
  | execute (taskId : String)
  | upload (result : Finished Payload) (attempt : Nat)
  | persist (result : Finished Payload)

/-- What the next operation meets. -/
inductive PollEvent (Payload : Type) where
  /-- An operation on a file, which may fail where the code ignores that. -/
  | file (done : Bool)
  | answer (answer : Answer)
  /-- The answer to a claim: an error, no task, or a task. -/
  | reply (reply : Option (Option TaskReply))
  | outcome (payload : Payload)
  | restart

/-- The two files and the process. The three lists are not kept by the code: what has been
finished, what was uploaded, and what was answered by a terminal client error. -/
structure Poller (Payload : Type) where
  disk : Slot → Option (Entry Payload)
  phase : Phase Payload
  finished : List (Finished Payload)
  delivered : List (Finished Payload)
  refused : List (Finished Payload)

namespace Poller

variable {Payload : Type}

def idle : Phase Payload := .flush .primary false

/-- The loop of `flush_pending_task_result` goes on, or ends with `Ok(flushed)`. -/
def nextSlot (flushed : Bool) : Slot → Phase Payload
  | .primary => .flush .backup flushed
  | .backup => if flushed then idle else .claim

def writeSlot (disk : Slot → Option (Entry Payload)) : Slot :=
  if (disk .primary).any Entry.present then .backup else .primary

def examine (poller : Poller Payload) (slot : Slot) (flushed done : Bool) : Poller Payload :=
  match poller.disk slot with
  | none | some (.symlink _) => { poller with phase := nextSlot flushed slot }
  | some (.file content) =>
      match readPendingTaskResult (.file content) with
      | some result => { poller with phase := .post slot flushed result }
      | none =>
          { poller with
            disk := if done then Function.update poller.disk slot none else poller.disk
            phase := nextSlot flushed slot }

/-- What the Worker has got, or will never take. -/
def note (poller : Poller Payload) (result : Finished Payload) (answer : Answer) : Poller Payload :=
  { poller with
    delivered := if answer = .success then poller.delivered ++ [result] else poller.delivered
    refused := if Refuses answer then poller.refused ++ [result] else poller.refused }

/-- The next operation on a file. -/
def operate (size : Finished Payload → Nat) (poller : Poller Payload) (done : Bool) : Poller Payload :=
  match poller.phase with
  | .flush slot flushed => poller.examine slot flushed done
  | .remove slot flushed =>
      { poller with
        disk := if done then Function.update poller.disk slot none else poller.disk
        phase := nextSlot flushed slot }
  | .persist result =>
      { poller with
        disk := Function.update poller.disk (writeSlot poller.disk) (some (pendingEntry size result))
        phase := idle }
  | _ => poller

/-- The answer to the upload of a kept result, or of the one that was just finished. -/
def receive (poller : Poller Payload) (answer : Answer) : Poller Payload :=
  match poller.phase with
  | .post slot flushed result =>
      { poller.note result answer with
        phase :=
          match postJson answer with
          | .ok () => .remove slot true
          | .error error =>
              if (terminalTaskStatus error).isSome then .remove slot flushed else idle }
  | .upload result attempt =>
      { poller.note result answer with
        phase :=
          match postJson answer with
          | .ok () => idle
          | .error _ => if attempt < 3 then .upload result (attempt + 1) else .persist result }
  | _ => poller

def claim (poller : Poller Payload) (reply : Option (Option TaskReply)) : Poller Payload :=
  match poller.phase with
  | .claim =>
      { poller with
        phase :=
          match reply with
          | some (some ⟨some taskId, some _⟩) => .execute taskId
          | _ => idle }
  | _ => poller

def finish (poller : Poller Payload) (payload : Payload) : Poller Payload :=
  match poller.phase with
  | .execute taskId =>
      { poller with
        phase := .upload ⟨taskId, payload⟩ 1
        finished := poller.finished ++ [⟨taskId, payload⟩] }
  | _ => poller

def step (size : Finished Payload → Nat) (poller : Poller Payload) : PollEvent Payload → Poller Payload
  | .file done => poller.operate size done
  | .answer answer => poller.receive answer
  | .reply reply => poller.claim reply
  | .outcome payload => poller.finish payload
  | .restart => { poller with phase := idle }

/-- The result that a slot holds. -/
def heldIn (disk : Slot → Option (Entry Payload)) (slot : Slot) : Option (Finished Payload) :=
  (disk slot).bind readPendingTaskResult

/-- A new process, on whatever files it finds. -/
def start (disk : Slot → Option (Entry Payload)) : Poller Payload where
  disk
  phase := idle
  finished := (heldIn disk .primary).toList ++ (heldIn disk .backup).toList
  delivered := []
  refused := []

end Poller
end NieSla.Agent
