import NieSla.R2State.Store
import NieSla.Lib.Processes

/-! `mergeR2StateUpdates`, the commit of a session and `removeTargetFromR2State`, one statement or
R2 operation a step. -/
namespace NieSla.R2State

/-- The row `r2_state_lock` of `app_meta`: the text `expires:uuid`, whose `CAST` is `expires`. -/
structure LockToken where
  expires : Int
  uuid : String
deriving DecidableEq

/-- The database row, the object in R2 and the clock; `writes` are the calls whose `put` has landed,
in their order. -/
structure Shared where
  clock : Int
  lock : Option LockToken
  object : Option StateObject
  writes : List Nat

inductive Call where
  | merge (updates : List StateUpdate)
  | session (steps : List SessionStep)
  | remove (targetId : String)

/-- What `mergeR2StateUpdates` is called with. -/
def Call.updates : Call → List StateUpdate
  | .merge updates => updates
  | .session steps => sessionUpdates steps
  | .remove _ => []

/-- The updates that the caller has given. -/
def Call.given : Call → List StateUpdate
  | .merge updates => updates
  | .session steps => steps.flatMap SessionStep.given
  | .remove _ => []

/-- The object that a call writes after it has read `state`, if it writes one. -/
def Call.next (call : Call) (state : StateObject) (now : Int) : Option StateObject :=
  match call with
  | .remove targetId => removeTarget state targetId now
  | _ => some (mergeUpdates state call.updates now)

inductive Outcome where
  | written
  | skipped
  | lockFailed
  | failed
deriving DecidableEq

inductive Phase where
  | waiting
  | acquiring (attempt : Nat)
  | inserting (attempt : Nat) (now : Int)
  | confirming (attempt : Nat) (token : LockToken)
  | reading (lock : Option LockToken)
  | writing (lock : Option LockToken) (next : StateObject)
  | releasing (lock : Option LockToken) (outcome : Outcome)
  | returned (outcome : Outcome)

/-- The clock, whether the statement fails without effect, and whether its caller sees an error
although it took effect. -/
structure Input where
  now : Int
  fails : Bool := false
  unconfirmed : Bool := false

/-- The upsert of `acquireR2Lock`. -/
def upsertLock (lock : Option LockToken) (token : LockToken) (now : Int) : Option LockToken :=
  match lock with
  | none => some token
  | some held => if held.expires < now then some token else some held

/-- The `DELETE` of `releaseR2Lock`. -/
def deleteLock (lock : Option LockToken) (token : LockToken) : Option LockToken :=
  if lock = some token then none else lock

def lockAttempts : Nat := 12

/-- No call has started. -/
def idle (clock : Int) (lock : Option LockToken) (object : Option StateObject) :
    Processes.Pool Shared Phase :=
  ⟨⟨clock, lock, object, []⟩, fun _ => .waiting⟩

section Steps

variable (env : Env)

def r2LockTtlSec : Int := clamp (configured env.r2LockTtlSec 30) 15 120

/-- Where a call goes on when `acquireR2Lock` has returned `null`. -/
def Call.unlocked (call : Call) : Phase :=
  match call with
  | .remove _ => if env.databaseBound then .returned .failed else .reading none
  | _ => .returned .lockFailed

def Call.start (call : Call) : Phase :=
  match call with
  | .remove _ => if ¬ env.archiveBound then .returned .skipped
      else if env.databaseBound then .acquiring 0 else call.unlocked env
  | _ => if call.updates = [] then .returned .skipped
      else if env.databaseBound then .acquiring 0 else call.unlocked env

/-- The next step of a call. -/
def act (uuid : Nat → Nat → String) (calls : Nat → Call) (call : Nat) (state : Shared)
    (phase : Phase) (input : Input) : Shared × Phase :=
  let state := { state with clock := input.now }
  let error := input.fails || input.unconfirmed
  match phase with
  | .waiting => (state, (calls call).start env)
  | .acquiring attempt => (state, .inserting attempt input.now)
  | .inserting attempt now =>
      let token : LockToken := ⟨now + r2LockTtlSec env, uuid call attempt⟩
      ({ state with lock := if input.fails then state.lock else upsertLock state.lock token now },
        if error then (calls call).unlocked env else .confirming attempt token)
  | .confirming attempt token =>
      (state,
        if error then (calls call).unlocked env
        else if state.lock = some token then .reading (some token)
        else if attempt + 1 < lockAttempts then .acquiring (attempt + 1)
        else (calls call).unlocked env)
  | .reading lock =>
      (state,
        if error ∨ ¬ env.archiveBound then .releasing lock .failed
        else match (calls call).next (readR2State state.object) input.now with
          | none => .releasing lock .skipped
          | some next => .writing lock next)
  | .writing lock next =>
      if input.fails then (state, .releasing lock .failed)
      else ({ state with object := some next, writes := state.writes ++ [call] },
        .releasing lock (if input.unconfirmed then .failed else .written))
  | .releasing lock outcome =>
      ({ state with lock := match lock with
          | none => state.lock
          | some token => if input.fails then state.lock else deleteLock state.lock token },
        .returned outcome)
  | .returned outcome => (state, .returned outcome)

end Steps

/-- The lock of a call that holds it and has not written yet. -/
def Phase.held : Phase → Option LockToken
  | .reading lock => lock
  | .writing lock _ => lock
  | _ => none

/-- The call is between its read and its write. -/
def Phase.between : Phase → Bool
  | .writing _ _ => true
  | _ => false

/-- The clock goes on, every holder of the lock has written before its lock has run out, and a call
without the lock goes no further. -/
structure Orderly (pool : Processes.Pool Shared Phase) (event : Nat × Input) : Prop where
  clock : pool.shared.clock ≤ event.2.now
  held : ∀ call, ∀ token ∈ (pool.phase call).held, event.2.now ≤ token.expires
  locked : pool.phase event.1 ≠ .reading none

end NieSla.R2State
