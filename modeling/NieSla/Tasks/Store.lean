import NieSla.Util.Ids
import NieSla.Util.Text

/-! The tables of the agent tasks and the statements that read and write them. Every statement is
atomic; an `UPDATE` tells how many rows it has changed. -/
namespace NieSla.Tasks

inductive Action where
  | nodequality | ipUnlock | backroute
deriving DecidableEq

def Action.timeoutSec : Action → Nat
  | .nodequality => 3600
  | .ipUnlock => 600
  | .backroute => 900

def nqTaskExpiresSec : Nat := 7 * 24 * 60 * 60
def cancelGraceSec : Nat := 5 * 60
def runnerStaleSec : Nat := 30 * 60
def runnerInstanceMaxChars : Nat := 128

inductive Status where
  | queued | running | succeeded | failed | expired | cancelled
deriving DecidableEq

/-- `status IN ('queued', 'running')` -/
def Status.active : Status → Bool
  | .queued | .running => true
  | .succeeded | .failed | .expired | .cancelled => false

/-- The status that a runner reports. -/
def Status.reported (status : Status) : Prop := status = .succeeded ∨ status = .failed

/-- A value of `nowSec()`. -/
structure Moment where
  sec : Nat
  positive : 0 < sec
deriving DecidableEq

structure Task where
  id : String
  agentId : String
  action : Action
  options : Option String
  status : Status
  requestedAt : Nat
  expiresAt : Nat
  claimedAt : Option Nat := none
  cancelRequestedAt : Option Moment := none
  runnerInstanceId : Option String := none
  runnerHeartbeatAt : Option Nat := none
  finishedAt : Option Nat := none
  result : Option String := none
  error : Option String := none
  outputExcerpt : Option String := none
  agentVersion : Option String := none
deriving DecidableEq

/-- The columns of a target that a finished task fills. -/
structure TargetResults where
  nqUrl : Option String := none
  nqReport : Option String := none
  nqUpdatedAt : Option Nat := none
  nqUnlockData : Option String := none
  nqUnlockUpdatedAt : Option Nat := none
  backrouteData : Option String := none
  backrouteUpdatedAt : Option Nat := none
  unlockData : Option String := none
  unlockUpdatedAt : Option Nat := none
  updatedAt : Option Nat := none
deriving DecidableEq

structure Target where
  id : String
  type : String
  enabled : Bool
  results : TargetResults := {}
deriving DecidableEq

/-- What the statements of a call have done, for the record only. -/
inductive Change where
  | claimed (call : Nat) (taskId : String)
  | succeeded (call : Nat) (taskId : String)
deriving DecidableEq

structure Store where
  tasks : List Task
  targets : List Target
  journal : List Change := []
deriving DecidableEq

namespace Store

/-- `UPDATE agent_tasks SET … WHERE …` -/
def update (store : Store) (selects : Task → Bool) (set : Task → Task) : Store :=
  { store with tasks := store.tasks.map fun task => if selects task then set task else task }

/-- `meta.changes` of that statement. -/
def changes (store : Store) (selects : Task → Bool) : Nat := store.tasks.countP selects

/-- `INSERT INTO agent_tasks`: fails on a second row with this primary key, or with this raw
`agent_id` among the rows of the partial unique index `idx_agent_tasks_one_active`. -/
def insert (store : Store) (task : Task) : Option Store :=
  if store.tasks.any fun row => row.id = task.id ||
      row.status.active && task.status.active && row.agentId = task.agentId then none
  else some { store with tasks := store.tasks ++ [task] }

def row (store : Store) (taskId : String) : Option Task :=
  store.tasks.find? fun task => task.id = taskId

def record (store : Store) (change : Change) : Store :=
  { store with journal := store.journal ++ [change] }

/-- `UPDATE targets SET … WHERE id = ?` -/
def updateTarget (store : Store) (targetId : String)
    (set : TargetResults → TargetResults) : Store :=
  { store with targets := store.targets.map fun target =>
      if target.id = targetId then { target with results := set target.results } else target }

end Store

def resolveAgentTarget (targets : List Target) (agentIdValue : String) :
    Option Target × String :=
  let raw := trim agentIdValue
  let canonical := sanitizeAgentId raw
  if canonical = "" then (none, "")
  else
    match targets.find? fun target => target.id = raw with
    | some exact_ => (some exact_, canonical)
    | none =>
        match targets.find? fun target => target.id = canonical with
        | some canonicalTarget => (some canonicalTarget, canonical)
        | none =>
            (targets.find? fun target => target.enabled && target.type = "tcp" &&
              sanitizeAgentId target.id = canonical, canonical)

def agentTaskIds (targets : List Target) (agentIdValue : String) : List String :=
  let (target, canonical) := resolveAgentTarget targets agentIdValue
  let ids := if canonical = "" then [] else [canonical]
  match target with
  | some target => if target.id ∈ ids then ids else ids ++ [target.id]
  | none => ids

end NieSla.Tasks
