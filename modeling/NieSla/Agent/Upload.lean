import NieSla.Lib.Fifo

/-! The telemetry loop of the agent: three queues whose first entries are copied into an upload
and dropped by number when its result arrives, and the writer that keeps a second copy of the
samples for the queue file. -/
namespace NieSla.Agent
open Lib

def reportMaxSamples : Nat := 900
def reportMaxPings : Nat := 5000
def reportMaxProxyChecks : Nat := 100
def maxProxyQueueCapacity : Nat := 1000
def minPingQueueCapacity : Nat := 200
def maxPingQueueCapacity : Nat := 10000

/-- Saturating arithmetic of `u64`. -/
def saturated (value : Nat) : Nat := min value (2 ^ 64 - 1)

def divCeil (value divisor : Nat) : Nat := (value + divisor - 1) / divisor

def normalizeReportInterval (value : Nat) : Nat := max 10 (min value 3600)

structure Config where
  once : Bool
  queueMaxSamples : Nat
  reportSec : Nat
deriving DecidableEq

section Loop

variable {Sample Ping ProxyCheck : Type}

structure PingBatch (Ping ProxyCheck : Type) where
  results : List Ping
  proxyResults : List ProxyCheck
  intervalSec : Nat

/-- What an upload thread has got; its result brings the three lengths and the generation. -/
structure Upload (Sample Ping ProxyCheck : Type) where
  samples : Copied Sample
  pings : Copied Ping
  proxyChecks : Copied ProxyCheck
  generation : UInt64

def Upload.sampleCount (upload : Upload Sample Ping ProxyCheck) : Nat := upload.samples.items.length
def Upload.pingCount (upload : Upload Sample Ping ProxyCheck) : Nat := upload.pings.items.length
def Upload.proxyCount (upload : Upload Sample Ping ProxyCheck) : Nat :=
  upload.proxyChecks.items.length

/-- `AcknowledgeCount` carries the length of the batch only. -/
inductive QueueCommand (Sample : Type) where
  | append (sample : Sample)
  | acknowledgeCount (batch : Copied Sample)

/-- The state of `run`, with the upload threads it has not heard of and the queue writer. -/
structure Telemetry (Sample Ping ProxyCheck : Type) where
  samples : Fifo Sample
  pings : Fifo Ping
  proxyChecks : Fifo ProxyCheck
  pingQueueCapacity : Nat
  reportIntervalSec : Nat
  firstReport : Bool
  uploading : Bool
  lastUploadFailed : Bool
  uploadGeneration : UInt64
  uploads : List (Upload Sample Ping ProxyCheck)
  commands : List (QueueCommand Sample)
  writer : Fifo Sample
  stopped : Bool

inductive Event (Sample Ping ProxyCheck : Type) where
  | sample (sample : Sample)
  /-- The result of one of the running uploads: an error, or a reply with its report interval. -/
  | result (index : Nat) (reply : Option (Option Nat))
  | probes (batches : List (PingBatch Ping ProxyCheck))
  /-- The upload has run for `UPLOAD_STALL_SEC`. -/
  | stall
  | report (periodElapsed retryElapsed : Bool)
  | write

/-- `if queue.len() > cap { queue.pop_front() }` -/
def popFront {α : Type} (cap : Nat) (queue : Fifo α) : Fifo α :=
  if cap < queue.entries.length then queue.leave .evicted 1 else queue

/-- `if queue.len() > cap { queue.drain(0..queue.len() - cap) }` -/
def keepLast {α : Type} (cap : Nat) (queue : Fifo α) : Fifo α :=
  if cap < queue.entries.length then queue.leave .evicted (queue.entries.length - cap) else queue

/-- `queue.drain(0..count.min(queue.len()))` for the length of the batch. -/
def dropPrefix {α : Type} (batch : Copied α) (queue : Fifo α) : Fifo α :=
  queue.leave (.acknowledged batch) batch.items.length

def runQueueWriter (cfg : Config) (samples : Fifo Sample) : QueueCommand Sample → Fifo Sample
  | .append sample => popFront cfg.queueMaxSamples (samples.push sample)
  | .acknowledgeCount batch => dropPrefix batch samples

def uploadReportDue (firstReport once : Bool) (sampleCount : Nat)
    (lastUploadFailed periodElapsed retryElapsed : Bool) : Bool :=
  if lastUploadFailed then decide (0 < sampleCount) && retryElapsed
  else firstReport || once || decide (reportMaxSamples < sampleCount) || periodElapsed

namespace Telemetry

variable (cfg : Config)

def start (loaded : List Sample) : Telemetry Sample Ping ProxyCheck :=
  let samples := .holding (loaded.drop (loaded.length - cfg.queueMaxSamples))
  { samples
    pings := .holding []
    proxyChecks := .holding []
    pingQueueCapacity := minPingQueueCapacity
    reportIntervalSec := cfg.reportSec
    firstReport := true
    uploading := false
    lastUploadFailed := false
    uploadGeneration := 0
    uploads := []
    commands := []
    writer := samples
    stopped := false }

def takeSample (sample : Sample) (state : Telemetry Sample Ping ProxyCheck) :
    Telemetry Sample Ping ProxyCheck :=
  { state with
    samples := popFront cfg.queueMaxSamples (state.samples.push sample)
    commands := state.commands ++ [.append sample] }

/-- A successful result of the current upload. -/
def acknowledge (upload : Upload Sample Ping ProxyCheck) (reportInterval : Option Nat)
    (state : Telemetry Sample Ping ProxyCheck) : Telemetry Sample Ping ProxyCheck :=
  { state with
    uploading := false
    reportIntervalSec := (reportInterval.map normalizeReportInterval).getD state.reportIntervalSec
    lastUploadFailed := false
    samples := dropPrefix upload.samples state.samples
    commands := state.commands ++ [.acknowledgeCount upload.samples]
    pings := dropPrefix upload.pings state.pings
    proxyChecks := dropPrefix upload.proxyChecks state.proxyChecks }

/-- With `--once` the loop waits for its upload, leaves its own samples alone and ends. -/
def acknowledgeOnce (upload : Upload Sample Ping ProxyCheck)
    (state : Telemetry Sample Ping ProxyCheck) : Telemetry Sample Ping ProxyCheck :=
  { state with
    commands := state.commands ++ [.acknowledgeCount upload.samples]
    pings := dropPrefix upload.pings state.pings
    proxyChecks := dropPrefix upload.proxyChecks state.proxyChecks
    stopped := true }

def receive (upload : Upload Sample Ping ProxyCheck) (reply : Option (Option Nat))
    (state : Telemetry Sample Ping ProxyCheck) : Telemetry Sample Ping ProxyCheck :=
  if cfg.once then
    match reply with
    | some _ => acknowledgeOnce upload state
    | none => { state with stopped := true }
  else if upload.generation ≠ state.uploadGeneration then state
  else
    match reply with
    | some reportInterval => acknowledge upload reportInterval state
    | none => { state with uploading := false, lastUploadFailed := true }

def receivePings (batch : PingBatch Ping ProxyCheck)
    (state : Telemetry Sample Ping ProxyCheck) : Telemetry Sample Ping ProxyCheck :=
  let expectedCycles := saturated (divCeil state.reportIntervalSec batch.intervalSec + 2)
  { state with
    pingQueueCapacity := min (max state.pingQueueCapacity
      (saturated (expectedCycles * batch.results.length))) maxPingQueueCapacity
    pings := batch.results.foldl (fun pings ping => pings.push ping) state.pings
    proxyChecks := batch.proxyResults.foldl (fun checks check => checks.push check)
      state.proxyChecks }

def capProbes (state : Telemetry Sample Ping ProxyCheck) : Telemetry Sample Ping ProxyCheck :=
  { state with
    pings := keepLast state.pingQueueCapacity state.pings
    proxyChecks := keepLast maxProxyQueueCapacity state.proxyChecks }

def startUpload (state : Telemetry Sample Ping ProxyCheck) : Telemetry Sample Ping ProxyCheck :=
  let generation := state.uploadGeneration + 1
  { state with
    uploading := true
    uploadGeneration := generation
    firstReport := false
    uploads := state.uploads ++ [{
      samples := state.samples.copy reportMaxSamples
      pings := state.pings.copy reportMaxPings
      proxyChecks := state.proxyChecks.copy reportMaxProxyChecks
      generation }] }

/-- The part of the loop that runs next, or the writer. Waiting for its only upload, `--once`
does nothing else. -/
def step (state : Telemetry Sample Ping ProxyCheck) :
    Event Sample Ping ProxyCheck → Telemetry Sample Ping ProxyCheck
  | .write =>
      match state.commands with
      | [] => state
      | command :: rest =>
          { state with commands := rest, writer := runQueueWriter cfg state.writer command }
  | .result index reply =>
      match state.uploads[index]? with
      | some upload =>
          if state.stopped then state
          else receive cfg upload reply { state with uploads := state.uploads.eraseIdx index }
      | none => state
  | .sample sample =>
      if state.stopped || cfg.once && state.uploading then state else takeSample cfg sample state
  | .probes batches =>
      if state.stopped || cfg.once && state.uploading then state
      else capProbes (batches.foldl (fun state batch => receivePings batch state) state)
  | .stall =>
      if state.stopped || cfg.once && state.uploading then state else { state with uploading := false }
  | .report periodElapsed retryElapsed =>
      if state.stopped || state.uploading then state
      else if uploadReportDue state.firstReport cfg.once state.samples.entries.length
          state.lastUploadFailed periodElapsed retryElapsed then startUpload state
      else state

end Telemetry

end Loop

end NieSla.Agent
