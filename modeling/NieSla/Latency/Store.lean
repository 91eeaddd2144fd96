import NieSla.Lib.OrderedMap
import NieSla.Util.Number
import NieSla.Util.Text

/-! Latency points of one node and where they are kept: six-hour segments in R2, the list
`pending_results` of the node, and the five-minute rows of `latency_results`. -/
namespace NieSla.Latency

def d1FallbackBucketSec : Int := 300
def archiveSegmentSec : Int := 6 * 3600
def archiveFlushMinSec : Int := 300
def pendingMaxPoints : Nat := 10000
def statementChunk : Nat := 80

/-- A target and a second; of two points of one key the later one counts. -/
structure PointKey where
  targetId : String
  checkedAt : Int
deriving DecidableEq

structure LatencyPoint where
  targetId : String
  checkedAt : Int
  latencyMs : Option Int
  ok : Bool
  error : Option String
  targetRevision : Int
deriving DecidableEq

def LatencyPoint.key (point : LatencyPoint) : PointKey := ⟨point.targetId, point.checkedAt⟩

/-- Whether a list has a point of this key. -/
def HasKey (key : PointKey) (points : List LatencyPoint) : Prop := ∃ point ∈ points, point.key = key

instance (key : PointKey) (points : List LatencyPoint) : Decidable (HasKey key points) :=
  inferInstanceAs (Decidable (∃ point ∈ points, _))

def latencySegmentStart (ts : Int) : Int := ts / archiveSegmentSec * archiveSegmentSec

def fallbackBucket (ts : Int) : Int := ts / d1FallbackBucketSec * d1FallbackBucketSec

/-- The primary key of `latency_results` for one node. -/
def PointKey.bucket (key : PointKey) : PointKey := ⟨key.targetId, fallbackBucket key.checkedAt⟩

/-! What a node reports. -/

/-- A reported result. A time that is missing, empty or 0 is `none`, as is a latency of `null`. -/
structure LatencyResult where
  targetId : String
  checkedAt : Option JsNumber := none
  latencyMs : Option JsNumber := none
  ok : Option Bool := none
  error : String := ""

structure TargetRow where
  id : String
  timeoutMs : Option JsNumber := none
  createdAt : Int := 0

/-- `Math.round(Number(value))`, when that is finite. -/
def roundedLatency : Option JsNumber → Option Int
  | some (.finite value) => some (mathRound value)
  | _ => none

def resultError (timedOut : Bool) (timeoutMs : Int) (error : String) : String :=
  let text :=
    if timedOut then "连接超时（>" ++ toString timeoutMs ++ "ms）"
    else if error = "" then "连接失败" else error
  cut 200 (String.ofList (text.toList.map fun c => if c.val ≤ 0x1F || c.val = 0x7F then ' ' else c))

def acceptResult (targets : List TargetRow) (now : Int) (result : LatencyResult) :
    Option LatencyPoint :=
  let targetId := trim result.targetId
  match targets.find? fun target => target.id = targetId, result.checkedAt.getD (.finite now) with
  | some target, .finite rawTs =>
      if rawTs < now - 900 ∨ now + 300 < rawTs then none
      else
        let rawLatency := roundedLatency result.latencyMs
        let timeoutMs := clamp (configured target.timeoutMs 1000) 500 1000
        let timedOut := rawLatency.any fun latency => timeoutMs < latency
        let latency := if timedOut then none else rawLatency.filter fun latency => 0 ≤ latency
        let ok := if timedOut then false else result.ok.getD latency.isSome
        some {
          targetId
          checkedAt := ⌊rawTs⌋
          latencyMs := latency
          ok
          error := if ok then none else some (resultError timedOut timeoutMs result.error)
          targetRevision := target.createdAt }
  | _, _ => none

/-! The stores. -/

/-- A six-hour object in R2. -/
structure Segment where
  updatedAt : Int
  points : List LatencyPoint
deriving DecidableEq

/-- A row of `latency_results`. -/
structure LatencyRow where
  latencyMs : Option Int
  ok : Bool
  error : Option String
deriving DecidableEq

structure LatencyStore where
  segments : OrderedMap Int Segment := .empty
  pendingResults : List LatencyPoint := []
  results : OrderedMap PointKey LatencyRow := .empty
  latestResults : List LatencyPoint := []
  lastSeenAt : Option Int := none
  lastCleanup : Int := 0

def LatencyStore.segmentPoints (store : LatencyStore) (start : Int) : List LatencyPoint :=
  ((store.segments.get? start).map Segment.points).getD []

def LatencyStore.InSegment (store : LatencyStore) (key : PointKey) : Prop :=
  HasKey key (store.segmentPoints (latencySegmentStart key.checkedAt))

def LatencyStore.InResults (store : LatencyStore) (key : PointKey) : Prop :=
  (store.results.get? key.bucket).isSome

/-- The point of this key, or its bucket, has left the pending list for good. -/
def LatencyStore.Archived (store : LatencyStore) (key : PointKey) : Prop :=
  store.InSegment key ∨ store.InResults key

def LatencyStore.Present (store : LatencyStore) (key : PointKey) : Prop :=
  store.Archived key ∨ HasKey key store.pendingResults

instance (store : LatencyStore) (key : PointKey) : Decidable (store.InSegment key) :=
  inferInstanceAs (Decidable (HasKey _ _))

instance (store : LatencyStore) (key : PointKey) : Decidable (store.Archived key) :=
  inferInstanceAs (Decidable (_ ∨ (_ : Bool) = true))

instance (store : LatencyStore) (key : PointKey) : Decidable (store.Present key) :=
  inferInstanceAs (Decidable (_ ∨ _))

/-! Pending points. -/

section Pending

-- Whether `JSON.stringify` makes more than `PENDING_MAX_BYTES` of a list.
variable (oversize : List LatencyPoint → Bool)

/-- `keepCount -= Math.max(1, Math.floor(keepCount / 10))` while the last `keepCount` points are
too large; `fuel` is at least `keepCount`. -/
def shrinkKeep (points : List LatencyPoint) : Nat → Nat → Nat
  | 0, keepCount => keepCount
  | fuel + 1, keepCount =>
      if 1 < keepCount ∧ oversize (points.drop (points.length - keepCount)) then
        shrinkKeep points fuel (keepCount - max 1 (keepCount / 10))
      else keepCount

/-- The points that stay, and the older ones that do not. -/
def capPendingResults (points : List LatencyPoint) : List LatencyPoint × List LatencyPoint :=
  if points.length ≤ pendingMaxPoints ∧ ¬ oversize points then (points, [])
  else
    let keepCount := shrinkKeep oversize points points.length (min points.length pendingMaxPoints)
    (points.drop (points.length - keepCount), points.take (points.length - keepCount))

def parsePendingResults (points : List LatencyPoint) : List LatencyPoint :=
  points.filter fun point => 0 < point.checkedAt

end Pending

/-! Segments and rows. -/

section Merge

variable (collate : String → String → Bool)

def mergeSegment (existing additions : List LatencyPoint) (now : Int) : Segment where
  updatedAt := now
  points := (OrderedMap.collect LatencyPoint.key (existing ++ additions)).values.insertionSort
    fun first second => first.checkedAt < second.checkedAt ∨
      first.checkedAt = second.checkedAt ∧ collate first.targetId second.targetId

end Merge

/-- The rows that `writeLatencyD1Fallback` may insert. -/
def candidateRows (points : List LatencyPoint) : List LatencyPoint :=
  (OrderedMap.collect LatencyPoint.key (points.map fun point =>
    { point with checkedAt := fallbackBucket point.checkedAt })).values

def latestLatencyPoints (points : List LatencyPoint) : List LatencyPoint :=
  (points.foldl (fun latest point =>
    match latest.get? point.targetId with
    | some previous =>
        if previous.checkedAt ≤ point.checkedAt then latest.set point.targetId point else latest
    | none => latest.set point.targetId point) (OrderedMap.empty : OrderedMap String _)).values

/-- A row of D1 for a candidate. -/
def LatencyStore.insertResult (store : LatencyStore) (point : LatencyPoint) : LatencyStore :=
  { store with
    results := store.results.set point.key ⟨point.latencyMs, point.ok, point.error⟩ }

/-! What the lists keep. -/

theorem HasKey.append {key : PointKey} {first second : List LatencyPoint} :
    HasKey key (first ++ second) ↔ HasKey key first ∨ HasKey key second := by
  simp [HasKey, or_and_right, exists_or]

theorem hasKey_capPendingResults (oversize : List LatencyPoint → Bool) {key : PointKey}
    {points : List LatencyPoint} (member : HasKey key points) :
    HasKey key (capPendingResults oversize points).1 ∨
      HasKey key (capPendingResults oversize points).2 := by
  unfold capPendingResults
  split
  · exact Or.inl member
  · dsimp only
    rw [Or.comm, ← HasKey.append, List.take_append_drop]
    exact member

theorem hasKey_collect {key : PointKey} {points : List LatencyPoint} (member : HasKey key points) :
    HasKey key (OrderedMap.collect LatencyPoint.key points).values := by
  obtain ⟨last, found⟩ := Option.isSome_iff_exists.mp (OrderedMap.lastBy_isSome.mpr member)
  have same := OrderedMap.key_of_lastBy found
  exact ⟨last, OrderedMap.mem_values_collect.mpr (same.symm ▸ found), same⟩

theorem hasKey_mergeSegment {collate : String → String → Bool} {key : PointKey}
    {existing additions : List LatencyPoint} {now : Int}
    (member : HasKey key existing ∨ HasKey key additions) :
    HasKey key (mergeSegment collate existing additions now).points := by
  obtain ⟨point, inside, same⟩ := hasKey_collect (HasKey.append.mpr member)
  exact ⟨point, (List.mem_insertionSort _).mpr inside, same⟩

theorem hasKey_candidateRows {key : PointKey} {points : List LatencyPoint}
    (member : HasKey key points) : HasKey key.bucket (candidateRows points) := by
  obtain ⟨point, inside, rfl⟩ := member
  apply hasKey_collect
  exact ⟨_, List.mem_map_of_mem inside, rfl⟩

end NieSla.Latency
