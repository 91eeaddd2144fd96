import NieSla.Lib.Processes
import NieSla.Tasks.Store

/-! The calls that create, claim, complete, cancel and expire agent tasks, one database statement
a step. -/
namespace NieSla.Tasks

/-- A result as `normalizeTaskResult` returns it; the report is still as the agent sent it. -/
inductive TaskResult where
  | nodequality (reportUrl : String) (report : Option String)
  | backroute (summary : Option String)
  | ipUnlock (services : String)

structure Report where
  report : String
  unlock : Option String

/-- How results and reports are read. Which of them are accepted does not matter here. -/
structure Cleaning where
  normalizeTaskResult : Action → String → Except String TaskResult
  normalizeAgentNodeQualityReport : String → Moment → Except String Report
  uploadNodeQualityReportImages : Report → Report
  sanitizeAnsiContent : String → String
  storedResult : Status → TaskResult → Option Report → String

structure Body where
  status : String
  result : String := ""
  error : String := ""
  outputExcerpt : String := ""
  agentVersion : String := ""

inductive Call where
  | create (agentId : String) (action : Action) (options : Option String)
  | claim (agentIdValue : String) (allowedAction : Option Action) (runnerInstanceIdValue : String)
  | complete (taskId agentIdValue : String) (body : Body)
  | cancel (taskId : String)
  | expireStale (agentId : String)

/-- The values that a completion writes. -/
structure Outcome where
  status : Status
  finishedAt : Moment
  result : Option String
  error : Option String
  outputExcerpt : Option String
  agentVersion : Option String
  /-- The update of the target that follows, if any. -/
  store : Option (TargetResults → TargetResults)

structure Claim where
  taskIds : List String
  allowedAction : Option Action
  runnerInstanceId : String

inductive Phase where
  | waiting
  | checking (agentId : String) (action : Action) (options : Option String)
  | inserting (agentId : String) (action : Action) (options : Option String)
  | expiring (taskIds : List String) (now : Moment) (claim : Option Claim)
  | failingStale (taskIds : List String) (now : Moment) (claim : Option Claim)
  | recovering (claim : Claim)
  | selecting (claim : Claim)
  | claiming (claim : Claim) (queuedId : String)
  | completing (row : Task) (outcome : Outcome)
  | storing (row : Task) (store : TargetResults → TargetResults)
  | cancelling (row : Task) (now : Moment)
  | finished

/-- The clock, a new id, and whether the agent is online and offers the action. -/
structure Input where
  now : Moment
  uuid : String := ""
  capable : Bool := true

def orNull (text : String) : Option String := if text = "" then none else some text

/-- `replace(/[^A-Za-z0-9._:=-]/g, '')` after `trim` and `slice`. -/
def normalizeRunnerInstanceId (value : String) : String :=
  String.ofList ((cut runnerInstanceMaxChars (trim value)).toList.filter fun c =>
    c.isAlpha || c.isDigit || ['.', '_', ':', '=', '-'].contains c)

/-! Statements. -/

def amongIds (taskIds : List String) (task : Task) : Bool :=
  taskIds.isEmpty || taskIds.contains task.agentId

/-- A task that ends without its runner is cancelled when an administrator has asked for that. -/
def abandon (status : Status) (error : Option String) (now : Moment) (task : Task) : Task :=
  if task.cancelRequestedAt.isSome then
    { task with status := .cancelled, finishedAt := some now.sec, error := some "任务已被管理员强制停止" }
  else { task with status, finishedAt := some now.sec, error := error.or task.error }

def expires (taskIds : List String) (now : Moment) (task : Task) : Bool :=
  amongIds taskIds task && task.status.active && task.expiresAt ≤ now.sec

def stale (taskIds : List String) (now : Moment) (task : Task) : Bool :=
  amongIds taskIds task && task.status = .running && task.runnerInstanceId.isSome &&
    task.runnerHeartbeatAt.any fun heartbeat => (heartbeat : Int) ≤ now.sec - runnerStaleSec

def orphaned (claim : Claim) (task : Task) : Bool :=
  claim.taskIds.contains task.agentId && task.status = .running &&
    task.runnerInstanceId.any fun instance_ => instance_ ≠ claim.runnerInstanceId

def queuedTask (claim : Claim) (now : Moment) (store : Store) : Option Task :=
  ((store.tasks.filter fun task => claim.taskIds.contains task.agentId && task.status = .queued &&
      now.sec < task.expiresAt && claim.allowedAction.all fun action => task.action = action)
    |>.insertionSort fun first second => first.requestedAt ≤ second.requestedAt).head?

def claimable (claim : Claim) (queuedId : String) (task : Task) : Bool :=
  task.id = queuedId && claim.taskIds.contains task.agentId && task.status = .queued

def claimed (claim : Claim) (now : Moment) (task : Task) : Task :=
  { task with
    status := .running
    claimedAt := some now.sec
    runnerInstanceId := orNull claim.runnerInstanceId
    runnerHeartbeatAt := (orNull claim.runnerInstanceId).map fun _ => now.sec }

/-- The task is still as the completion has read it. -/
def completable (row task : Task) : Bool :=
  task.id = row.id && task.agentId = row.agentId && task.status = .running &&
    task.cancelRequestedAt = row.cancelRequestedAt

def Outcome.set (outcome : Outcome) (task : Task) : Task :=
  { task with
    status := outcome.status
    finishedAt := some outcome.finishedAt.sec
    result := outcome.result
    error := outcome.error
    outputExcerpt := outcome.outputExcerpt
    agentVersion := outcome.agentVersion }

def cancelled (now : Moment) (task : Task) : Task :=
  match task.status with
  | .queued =>
      { task with
        status := .cancelled
        cancelRequestedAt := some (task.cancelRequestedAt.getD now)
        finishedAt := some now.sec }
  | _ =>
      { task with
        cancelRequestedAt := some (task.cancelRequestedAt.getD now)
        expiresAt := min task.expiresAt (now.sec + cancelGraceSec) }

/-! Completion. -/

section Complete

variable (cleaning : Cleaning)

/-- The columns that a successful result fills. -/
def resultUpdate (now : Moment) : TaskResult → Option Report →
    Option (TargetResults → TargetResults)
  | .nodequality reportUrl _, some report => some fun results =>
      { results with
        nqUrl := some reportUrl, nqReport := some report.report, nqUpdatedAt := some now.sec
        nqUnlockData := report.unlock, nqUnlockUpdatedAt := report.unlock.map fun _ => now.sec
        updatedAt := some now.sec }
  | .nodequality reportUrl _, none => some fun results =>
      { results with nqUrl := some reportUrl, nqUpdatedAt := some now.sec, updatedAt := some now.sec }
  | .backroute summary, _ => summary.map fun summary results =>
      { results with
        backrouteData := some summary, backrouteUpdatedAt := some now.sec
        updatedAt := some now.sec }
  | .ipUnlock services, _ => some fun results =>
      { results with
        unlockData := some services, unlockUpdatedAt := some now.sec, updatedAt := some now.sec }

/-- The NodeQuality report that a result brings, with its images at their host. -/
def readReport (result : TaskResult) (now : Moment) : Except String (Option Report) :=
  match result with
  | .nodequality _ (some report) =>
      (cleaning.normalizeAgentNodeQualityReport report now).map
        (some ∘ cleaning.uploadNodeQualityReportImages)
  | _ => .ok none

def outcomeOf (row : Task) (body : Body) (now : Moment) : Outcome :=
  let bodyError := orNull (cut 2000 (trim body.error))
  let rawExcerpt := cut (16 * 1024) body.outputExcerpt
  let failed : Outcome :=
    { status := .failed
      finishedAt := now
      result := none
      error := bodyError
      outputExcerpt := (orNull rawExcerpt).map cleaning.sanitizeAnsiContent
      agentVersion := orNull (cut 32 (trim body.agentVersion))
      store := none }
  if row.cancelRequestedAt.isSome then
    { failed with status := .cancelled, error := some "任务已被管理员强制停止" }
  else if body.status ≠ "succeeded" then failed
  else
    match cleaning.normalizeTaskResult row.action body.result with
    | .error message =>
        { failed with error := bodyError.or (some ("结果校验失败: " ++ cut 400 message)) }
    | .ok result =>
        match readReport cleaning result now with
        -- The result stays in the row of a task whose report could not be read.
        | .error message =>
            { failed with
              result := some (cleaning.storedResult .failed result none)
              error := bodyError.or (some ("报告解析失败: " ++ cut 400 message)) }
        | .ok report =>
            { failed with
              status := .succeeded
              result := some (cleaning.storedResult .succeeded result report)
              store := resultUpdate now result report }

end Complete

/-! Steps. -/

def afterExpiring : Option Claim → Phase
  | some claim => .recovering claim
  | none => .finished

def start (cleaning : Cleaning) (call : Call) (store : Store) (input : Input) : Phase :=
  match call with
  | .create agentId action options =>
      match (resolveAgentTarget store.targets agentId).1 with
      | some target =>
          if target.type = "tcp" && target.enabled && input.capable then
            .checking agentId action options
          else .finished
      | none => .finished
  | .claim agentIdValue allowedAction runnerInstanceIdValue =>
      if sanitizeAgentId (trim agentIdValue) = "" then .finished
      else
        let taskIds := agentTaskIds store.targets agentIdValue
        .expiring taskIds input.now
          (some ⟨taskIds, allowedAction, normalizeRunnerInstanceId runnerInstanceIdValue⟩)
  | .complete taskId agentIdValue body =>
      match store.row taskId with
      | some row =>
          if sanitizeAgentId row.agentId = sanitizeAgentId agentIdValue && row.status = .running &&
              (body.status = "succeeded" || body.status = "failed") then
            .completing row (outcomeOf cleaning row body input.now)
          else .finished
      | none => .finished
  | .cancel taskId =>
      match store.row taskId with
      | some row => if row.status.active then .cancelling row input.now else .finished
      | none => .finished
  | .expireStale agentId =>
      .expiring (if agentId = "" then [] else agentTaskIds store.targets agentId) input.now none

def newTask (agentId : String) (action : Action) (options : Option String) (input : Input) : Task :=
  { id := input.uuid
    agentId
    action
    options
    status := .queued
    requestedAt := input.now.sec
    expiresAt := input.now.sec +
      (if action = .nodequality then nqTaskExpiresSec else action.timeoutSec) + 900 }

/-- The next statement of a call. -/
def act (cleaning : Cleaning) (calls : Nat → Call) (call : Nat) (store : Store) (phase : Phase)
    (input : Input) : Store × Phase :=
  match phase with
  | .waiting => (store, start cleaning (calls call) store input)
  | .checking agentId action options =>
      let taskIds := agentTaskIds store.targets agentId
      if store.tasks.any fun task => taskIds.contains task.agentId && task.status.active then
        (store, .finished)
      else (store, .inserting agentId action options)
  | .inserting agentId action options =>
      ((store.insert (newTask agentId action options input)).getD store, .finished)
  | .expiring taskIds now claim =>
      (store.update (expires taskIds now) (abandon .expired none now),
        .failingStale taskIds now claim)
  | .failingStale taskIds now claim =>
      (store.update (stale taskIds now)
        (abandon .failed (some "Agent Manager 心跳超时导致任务中断，请重新运行") now),
        afterExpiring claim)
  | .recovering claim =>
      (if claim.runnerInstanceId = "" then store
        else store.update (orphaned claim)
          (abandon .failed (some "Agent Manager 重启导致任务中断，请重新运行") input.now),
        .selecting claim)
  | .selecting claim =>
      match queuedTask claim input.now store with
      | some queued => (store, .claiming claim queued.id)
      | none => (store, .finished)
  | .claiming claim queuedId =>
      let selects := claimable claim queuedId
      if 1 ≤ store.changes selects then
        ((store.update selects (claimed claim input.now)).record (.claimed call queuedId),
          .finished)
      else (store, .finished)
  | .completing row outcome =>
      let selects := completable row
      if 1 ≤ store.changes selects then
        let after := store.update selects outcome.set
        if outcome.status = .succeeded then
          (after.record (.succeeded call row.id),
            match outcome.store with
            | some columns => .storing row columns
            | none => .finished)
        else (after, .finished)
      else (store, .finished)
  | .storing row columns => (store.updateTarget row.agentId columns, .finished)
  | .cancelling row now =>
      (store.update (fun task => task.id = row.id && task.status = row.status) (cancelled now),
        .finished)
  | .finished => (store, .finished)

end NieSla.Tasks
