import NieSla.Lib.OrderedMap
import NieSla.Util.Text

/-! A run of the alert checks: the messages it has collected are batched, sent and committed, and
at its end the backoff of the channels and the pending deliveries are stored. The counts and texts
of its report are left out. -/
namespace NieSla.Alerts

def channelRetryBaseSec : Nat := 300
def channelRetryMaxSec : Nat := 3600
def channelRetryMaxAttempts : Nat := 8
def pendingDeliveriesMax : Nat := 100

inductive Channel where
  | telegram | email | webhook | bark | gotify | feishu | dingtalk | wecom | serverchan
deriving DecidableEq

/-- A row of `alert_state`. -/
structure AlertState where
  active : Bool
  lastValue : Option ℚ := none
  openedAt : Option Nat := none
  resolvedAt : Option Nat := none
  lastSentAt : Option Nat := none
  updatedAt : Nat

/-- What the `commit` of a message calls, with its own `now`. -/
inductive Commit where
  | markActive (now : Nat) (value : Option ℚ)
  | markResolved (now : Nat)
deriving DecidableEq

structure Message where
  targetId : String
  ruleKey : String
  text : String
  commit : Commit
deriving DecidableEq

/-- The row that a commit leaves. -/
def Commit.write (commit : Commit) (stored : Option AlertState) : AlertState :=
  match commit, stored with
  | .markActive now value, stored =>
      { active := true
        lastValue := value
        openedAt := match stored with
          | some row => if row.active then row.openedAt else some now
          | none => some now
        lastSentAt := some now
        updatedAt := now }
  | .markResolved now, some row => { row with active := false, resolvedAt := some now, updatedAt := now }
  | .markResolved now, none => { active := false, resolvedAt := some now, updatedAt := now }

structure Backoff where
  failures : Nat
  nextAt : Nat
  error : String
  updatedAt : Nat

/-- An entry of `alert_pending_deliveries`. -/
structure PendingDelivery where
  channel : Channel
  text : String
  title : String
  target : String
  status : String
  alertCount : Nat
  attempts : Nat
  nextAt : Nat
  createdAt : Nat
  lastError : Option String := none
deriving DecidableEq

/-- `pendingDeliveryKey`; no name of a channel has the separator. -/
def PendingDelivery.key (entry : PendingDelivery) : Channel × String := (entry.channel, entry.text)

inductive SendResult where
  | ok
  | failed (error : String)

section Batches

structure Batch where
  items : List Message
  text : String

/-- `replace(/\n{3,}/g, '\n\n')` -/
def collapseNewlines (before : Nat) : List Char → List Char
  | [] => []
  | c :: rest =>
      if c ≠ '\n' then c :: collapseNewlines 0 rest
      else if before < 2 then c :: collapseNewlines (before + 1) rest
      else collapseNewlines (before + 1) rest

/-- `text.length` -/
def utf16Length (text : String) : Nat := (text.toList.map codeUnits).sum

def headerFor (total start count : Nat) : String :=
  let range := if 1 < total then s!"，{start + 1}-{start + count}" else ""
  s!"NIE-SLA 报警汇总（{total} 条{range}）"

def entryText (index : Nat) (item : Message) : String :=
  let text := String.ofList (collapseNewlines 0 (trim item.text).toList)
  s!"\n{index + 1}. {cut 900 text}"

def joinEntry (currentText entry : String) : String :=
  if currentText = "" then entry else s!"{currentText}\n{entry}"

/-- `flush` -/
def closeBatch (total start : Nat) (current : List Message) (currentText : String) : Batch where
  items := current
  text := cut 3900 s!"{headerFor total start current.length}\n{currentText}"

/-- The loop of `buildAlertBatches`; `start` is the index of the first message of the batch. -/
def batchesFrom (total maxChars : Nat) (index start : Nat) (current : List Message)
    (currentText : String) : List Message → List Batch
  | [] => if current.isEmpty then [] else [closeBatch total start current currentText]
  | item :: rest =>
      let entry := entryText index item
      let candidate := joinEntry currentText entry
      if !current.isEmpty && maxChars <
          utf16Length (headerFor total index current.length) + utf16Length candidate then
        closeBatch total start current currentText ::
          batchesFrom total maxChars (index + 1) index [item] entry rest
      else
        batchesFrom total maxChars (index + 1) (if current.isEmpty then index else start)
          (current ++ [item]) candidate rest

def buildAlertBatches (messages : List Message) : List Batch :=
  batchesFrom messages.length 2400 0 0 [] "" messages

theorem items_batchesFrom (total maxChars index start : Nat) (current : List Message)
    (currentText : String) (messages : List Message) :
    (batchesFrom total maxChars index start current currentText messages).flatMap Batch.items =
      current ++ messages := by
  induction messages generalizing index start current currentText with
  | nil =>
      unfold batchesFrom
      split
      · simp_all
      · simp [closeBatch]
  | cons item rest ih =>
      simp only [batchesFrom]
      split
      · rw [List.flatMap_cons, ih]
        rfl
      · rw [ih, List.append_assoc]
        rfl

/-- Every message is in one batch, in its order. -/
theorem items_buildAlertBatches (messages : List Message) :
    (buildAlertBatches messages).flatMap Batch.items = messages :=
  items_batchesFrom _ _ _ _ _ _ messages

end Batches

/-- What goes wrong in a run: the result of its sends and whether its commits throw, in their order,
and which reads and writes of the two lists fail. A read that fails gives the empty list. -/
structure Failures where
  send : Nat → SendResult
  commit : Nat → Bool
  readBackoff : Bool := false
  readPending : Bool := false
  writeBackoff : Bool := false
  writePending : Bool := false

/-- What D1 holds of the alerts; `writePendingDeliveries` stores no more than its limit. -/
structure Stored where
  backoff : OrderedMap Channel Backoff := .empty
  pending : List PendingDelivery := []
  alertState : OrderedMap (String × String) AlertState := .empty
  fits : pending.length ≤ pendingDeliveriesMax := by decide

/-- A run under way. `changed` is `deliveryStateChanged`; `delivered` are the sends that went
well and `committed` the messages whose commit is stored. -/
structure Progress where
  backoff : OrderedMap Channel Backoff
  pending : List PendingDelivery
  alertState : OrderedMap (String × String) AlertState
  changed : Bool := false
  sends : Nat := 0
  commits : Nat := 0
  delivered : List (Channel × String) := []
  committed : List Message := []

def channelRetryDelaySec (failures : Nat) : Nat :=
  min channelRetryMaxSec (channelRetryBaseSec * 2 ^ (max 1 failures - 1))

def recordChannelFailure (backoff : OrderedMap Channel Backoff) (channel : Channel) (error : String)
    (now : Nat) : OrderedMap Channel Backoff :=
  let failures := ((backoff.get? channel).map Backoff.failures).getD 0 + 1
  backoff.set channel
    { failures, nextAt := now + channelRetryDelaySec failures, error := cut 200 error, updatedAt := now }

/-- The queue, and whether it has changed; a queue that is too long loses its oldest entries. -/
def enqueuePendingDelivery (queue : List PendingDelivery) (entry : PendingDelivery) :
    List PendingDelivery × Bool :=
  if queue.any fun item => item.key = entry.key then (queue, false)
  else ((queue ++ [entry]).rtake pendingDeliveriesMax, true)

section Drain

variable (failures : Failures) (channels : List Channel) (now : Nat)

/-- One turn of the loop of `drainPendingDeliveries`; `pending` holds what it has kept so far. -/
def drainEntry (progress : Progress) (entry : PendingDelivery) : Progress :=
  if entry.channel ∉ channels then { progress with changed := true }
  else if now < entry.nextAt then { progress with pending := progress.pending ++ [entry] }
  else match failures.send progress.sends with
    | .ok =>
        { progress with
          sends := progress.sends + 1
          changed := true
          backoff := progress.backoff.erase entry.channel
          delivered := progress.delivered ++ [entry.key] }
    | .failed error =>
        let attempts := entry.attempts + 1
        let retry :=
          { entry with
            attempts
            nextAt := now + channelRetryDelaySec attempts
            lastError := some (cut 200 error) }
        { progress with
          sends := progress.sends + 1
          changed := true
          backoff := recordChannelFailure progress.backoff entry.channel error now
          pending := if channelRetryMaxAttempts ≤ attempts then progress.pending
            else progress.pending ++ [retry] }

def drainPendingDeliveries (progress : Progress) : Progress :=
  progress.pending.foldl (drainEntry failures channels now) { progress with pending := [] }

end Drain

section Batch

variable (failures : Failures) (now : Nat)

def pendingDeliveryEntry (channel : Channel) (batch : Batch) (nextAt : Nat) : PendingDelivery where
  channel
  text := batch.text
  title := s!"NIE-SLA 报警汇总（{batch.items.length} 条）"
  target := ", ".intercalate ((batch.items.map Message.targetId).filter (· ≠ "")).eraseDups
  status := "active"
  alertCount := batch.items.length
  attempts := 0
  nextAt
  createdAt := now

structure ChannelResult where
  ok : Bool
  queued : Bool

def Progress.enqueue (progress : Progress) (entry : PendingDelivery) : Progress :=
  let (pending, changed) := enqueuePendingDelivery progress.pending entry
  { progress with pending, changed := progress.changed || changed }

/-- A batch at one channel: deferred, sent, or queued after a send that failed. -/
def deliverTo (batch : Batch) (progress : Progress) (channel : Channel) : Progress × ChannelResult :=
  let state := progress.backoff.get? channel
  match state.filter fun backoff => now < backoff.nextAt with
  | some backoff =>
      (progress.enqueue (pendingDeliveryEntry now channel batch backoff.nextAt), ⟨false, true⟩)
  | none =>
      match failures.send progress.sends with
      | .ok =>
          ({ progress with
              sends := progress.sends + 1
              delivered := progress.delivered ++ [(channel, batch.text)]
              changed := progress.changed || state.isSome
              backoff := progress.backoff.erase channel }, ⟨true, false⟩)
      | .failed error =>
          let backoff := recordChannelFailure progress.backoff channel error now
          let nextAt := ((backoff.get? channel).map Backoff.nextAt).getD 0
          ({ progress with sends := progress.sends + 1, changed := true, backoff }.enqueue
              (pendingDeliveryEntry now channel batch nextAt), ⟨false, true⟩)

def deliverBatch (batch : Batch) : List Channel → Progress → Progress × List ChannelResult
  | [], progress => (progress, [])
  | channel :: rest, progress =>
      let (next, result) := deliverTo failures now batch progress channel
      let (last, results) := deliverBatch batch rest next
      (last, result :: results)

/-- The commits of a batch; an exception leaves what was reached. -/
def commitItems : List Message → Progress → Except Progress Progress
  | [], progress => .ok progress
  | item :: rest, progress =>
      if failures.commit progress.commits then .error progress
      else
        let row := item.commit.write (progress.alertState.get? (item.targetId, item.ruleKey))
        commitItems rest
          { progress with
            commits := progress.commits + 1
            alertState := progress.alertState.set (item.targetId, item.ruleKey) row
            committed := progress.committed ++ [item] }

def runBatch (channels : List Channel) (batch : Batch) (progress : Progress) :
    Except Progress Progress :=
  let (sent, results) := deliverBatch failures now batch channels progress
  let delivered := results.any ChannelResult.ok
  let queuedAll := results.all fun result => result.ok || result.queued
  if delivered || queuedAll then commitItems failures batch.items sent else .ok sent

def runBatches (channels : List Channel) : List Batch → Progress → Except Progress Progress
  | [], progress => .ok progress
  | batch :: rest, progress => runBatch failures now channels batch progress >>= runBatches channels rest

end Batch

structure Outcome where
  stored : Stored
  threw : Bool
  delivered : List (Channel × String) := []
  committed : List Message := []

/-- The run after the two lists are read. -/
def Progress.start (failures : Failures) (stored : Stored) : Progress where
  backoff := if failures.readBackoff then .empty else stored.backoff
  pending := if failures.readPending then [] else stored.pending
  alertState := stored.alertState

/-- `if (deliveryStateChanged)`: the two lists are stored, the backoff first. -/
def storeDeliveries (failures : Failures) (stored : Stored) (progress : Progress) : Outcome :=
  let alerted : Stored := { stored with alertState := progress.alertState }
  let outcome (stored : Stored) (threw : Bool) : Outcome :=
    { stored, threw, delivered := progress.delivered, committed := progress.committed }
  if !progress.changed then outcome alerted false
  else if failures.writeBackoff then outcome alerted true
  else if failures.writePending then outcome { alerted with backoff := progress.backoff } true
  else
    outcome
      { backoff := progress.backoff
        pending := progress.pending.take pendingDeliveriesMax
        alertState := progress.alertState
        fits := List.length_take_le _ _ } false

/-- The run, from the messages that it has collected; with `none` the collection has thrown. -/
def runAlertChecks (failures : Failures) (stored : Stored) (channels : List Channel)
    (messages : Option (List Message)) (now : Nat) : Outcome :=
  if channels.isEmpty then { stored, threw := false }
  else match messages with
    | none => { stored, threw := true }
    | some messages =>
        let drained := drainPendingDeliveries failures channels now (.start failures stored)
        match runBatches failures now channels (buildAlertBatches messages) drained with
        | .error progress =>
            { stored := { stored with alertState := progress.alertState }
              threw := true, delivered := progress.delivered, committed := progress.committed }
        | .ok progress => storeDeliveries failures stored progress

end NieSla.Alerts
