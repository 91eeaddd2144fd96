import NieSla.Latency.Store
import NieSla.Lib.Processes

/-! `submitLatencyAgentResults` of one node, one statement or R2 operation a step. -/
namespace NieSla.Latency

/-- What a call has accepted, and its clock. -/
structure Submission where
  accepted : List LatencyPoint
  now : Int

/-- The state of `flushLatencyArchive`: the pending points it has read, those that wait for their
window, and the groups that are left. -/
structure ArchiveFlush where
  pending : List LatencyPoint
  remaining : List LatencyPoint
  groups : List (Int × List LatencyPoint)

/-- Where `writeLatencyD1Fallback` was called, with the pending points that were read there and
those that will be written back. -/
inductive Resume where
  | flush (read keep : List LatencyPoint)
  | retain (read keep : List LatencyPoint)
  | finish

inductive SubmitPhase where
  | waiting
  | readingPending (sub : Submission)
  | readingSegment (sub : Submission) (flush : ArchiveFlush)
  | writingSegment (sub : Submission) (flush : ArchiveFlush) (existing : List LatencyPoint)
      (payload : Segment)
  | verifyingSegment (sub : Submission) (flush : ArchiveFlush)
  | readingRetained (sub : Submission)
  | selectingRows (sub : Submission) (candidates : List LatencyPoint) (targetIds : List String)
      (existing : List PointKey) (resume : Resume)
  | insertingRows (sub : Submission) (rows : List LatencyPoint) (resume : Resume)
  | updatingPending (sub : Submission) (read keep : List LatencyPoint) (retained : Bool)
  | touching (sub : Submission)
  | readingCleanup (sub : Submission)
  | deletingOld (sub : Submission)
  | recordingCleanup (sub : Submission)
  | returned (sub : Submission)
  | rejected

/-- The points that a call has accepted, once it has returned `ok`. -/
def SubmitPhase.reported : SubmitPhase → List LatencyPoint
  | .returned sub => sub.accepted
  | _ => []

/-- Whether the statement fails, the clock, the rows of `targets`, and whether this isolate has
cleaned up for this node lately. -/
structure SubmitInput where
  fails : Bool := false
  now : Int
  targets : List TargetRow := []
  cleanupDue : Bool := false

def resumed (sub : Submission) : Resume → SubmitPhase
  | .flush read keep => .updatingPending sub read keep false
  | .retain read keep => .updatingPending sub read keep true
  | .finish => .touching sub

/-- `writeLatencyD1Fallback` -/
def writeLatencyD1Fallback (sub : Submission) (points : List LatencyPoint) (resume : Resume) :
    SubmitPhase :=
  if points = [] then resumed sub resume
  else
    let candidates := candidateRows points
    .selectingRows sub candidates (candidates.map LatencyPoint.targetId).eraseDups [] resume

/-- A batch of the fallback has failed. -/
def thrown (sub : Submission) : Resume → SubmitPhase
  | .flush _ _ => .readingRetained sub
  | .retain _ _ => writeLatencyD1Fallback sub sub.accepted .finish
  | .finish => .rejected

/-- After one `SELECT` of the fallback: the next one, or the rows that no `SELECT` has found. -/
def nextSelect (sub : Submission) (candidates : List LatencyPoint) (targetIds : List String)
    (existing : List PointKey) (resume : Resume) : SubmitPhase :=
  if targetIds = [] then
    let rows := candidates.filter fun point => point.key ∉ existing
    if rows = [] then resumed sub resume else .insertingRows sub rows resume
  else .selectingRows sub candidates targetIds existing resume

/-- No call has started. -/
def idle (store : LatencyStore) : Processes.Pool LatencyStore SubmitPhase :=
  ⟨store, fun _ => .waiting⟩

section Submit

variable (env : Env) (collate : String → String → Bool) (oversize : List LatencyPoint → Bool)

/-- What `flushLatencyArchive` does after its loop. -/
def settleFlush (sub : Submission) (flush : ArchiveFlush) : SubmitPhase :=
  let (keep, overflow) := capPendingResults oversize flush.remaining
  if overflow ≠ [] then writeLatencyD1Fallback sub overflow (.flush flush.pending keep)
  else if flush.pending ≠ [] ∨ keep ≠ [] then .updatingPending sub flush.pending keep false
  else .touching sub

def nextSegment (sub : Submission) (flush : ArchiveFlush) : SubmitPhase :=
  if flush.groups = [] then settleFlush oversize sub flush else .readingSegment sub flush

def retentionSec : Int := clamp (configured env.latencyResultRetentionHours 72) 24 168 * 3600

/-- The keys that one `SELECT` of the fallback finds. -/
def existingRows (store : LatencyStore) (candidates : List LatencyPoint) (chunk : List String) :
    List PointKey :=
  store.results.keys.filter fun key => chunk.contains key.targetId &&
    (candidates.any fun point => point.checkedAt ≤ key.checkedAt) &&
    candidates.any fun point => key.checkedAt ≤ point.checkedAt

def submitStart (results : List LatencyResult) (input : SubmitInput) : SubmitPhase :=
  if results = [] ∨ input.fails then .rejected
  else
    let accepted := (results.take 500).filterMap (acceptResult input.targets input.now)
    let sub : Submission := ⟨accepted, input.now⟩
    if accepted = [] then .touching sub
    else if env.archiveBound then .readingPending sub
    else writeLatencyD1Fallback sub accepted .finish

/-- The next statement of a call of `submitLatencyAgentResults`. -/
def submitAct (calls : Nat → List LatencyResult) (call : Nat) (store : LatencyStore)
    (phase : SubmitPhase) (input : SubmitInput) : LatencyStore × SubmitPhase :=
  match phase with
  | .waiting => (store, submitStart env (calls call) input)
  | .readingPending sub =>
      -- A failed read counts as an empty list.
      let pending := if input.fails then [] else parsePendingResults store.pendingResults
      let groups := OrderedMap.group (fun point => latencySegmentStart point.checkedAt)
        (pending ++ sub.accepted)
      (store, nextSegment oversize sub ⟨pending, [], groups.entries⟩)
  | .readingSegment sub flush =>
      match flush.groups with
      | [] => (store, nextSegment oversize sub flush)
      | (start, additions) :: rest =>
          if input.fails then (store, .readingRetained sub)
          else
            let lastWriteAt := ((store.segments.get? start).map Segment.updatedAt).getD 0
            if 0 < lastWriteAt ∧ input.now - lastWriteAt < archiveFlushMinSec then
              (store, nextSegment oversize sub
                { flush with remaining := flush.remaining ++ additions, groups := rest })
            else
              let existing := store.segmentPoints start
              (store, .writingSegment sub flush existing
                (mergeSegment collate existing additions input.now))
  | .writingSegment sub flush _ payload =>
      match flush.groups with
      | [] => (store, .rejected)
      | (start, _) :: rest =>
          if input.fails then (store, .readingRetained sub)
          else ({ store with segments := store.segments.set start payload },
            .verifyingSegment sub { flush with groups := rest })
  | .verifyingSegment sub flush =>
      if input.fails then (store, .readingRetained sub)
      else (store, nextSegment oversize sub flush)
  | .readingRetained sub =>
      let pending := if input.fails then [] else parsePendingResults store.pendingResults
      let (keep, overflow) := capPendingResults oversize (pending ++ sub.accepted)
      (store, writeLatencyD1Fallback sub overflow (.retain pending keep))
  | .selectingRows sub candidates targetIds existing resume =>
      let chunk := targetIds.take statementChunk
      let found := if input.fails then [] else existingRows store candidates chunk
      (store, nextSelect sub candidates (targetIds.drop statementChunk) (existing ++ found) resume)
  | .insertingRows sub rows resume =>
      if input.fails then (store, thrown sub resume)
      else
        ((rows.take statementChunk).foldl LatencyStore.insertResult store,
          if rows.drop statementChunk = [] then resumed sub resume
          else .insertingRows sub (rows.drop statementChunk) resume)
  | .updatingPending sub _ keep retained =>
      let after := if input.fails then store else { store with pendingResults := keep }
      (after,
        if retained then writeLatencyD1Fallback sub sub.accepted .finish
        else if input.fails then .readingRetained sub else .touching sub)
  | .touching sub =>
      if input.fails then (store, .rejected)
      else
        let touched := if store.lastSeenAt.all fun seen => 300 ≤ sub.now - seen then
            { store with
              lastSeenAt := some sub.now, latestResults := latestLatencyPoints sub.accepted }
          else store
        (touched, if input.cleanupDue then .readingCleanup sub else .returned sub)
  | .readingCleanup sub =>
      let previous := if input.fails then 0 else store.lastCleanup
      (store, if sub.now - 3600 < previous then .returned sub else .deletingOld sub)
  | .deletingOld sub =>
      if input.fails then (store, .rejected)
      else ({ store with
          results := store.results.filter fun key _ => sub.now - retentionSec env ≤ key.checkedAt },
        .recordingCleanup sub)
  | .recordingCleanup sub =>
      if input.fails then (store, .rejected)
      else ({ store with lastCleanup := sub.now }, .returned sub)
  | .returned sub => (store, .returned sub)
  | .rejected => (store, .rejected)

end Submit

end NieSla.Latency
