import NieSla.Util.Day
import NieSla.Util.Text

/-! Probe points: as they come in, as they are stored, and as they are read. -/
namespace NieSla.ProbeHistory

/-- A point as it comes in. The numbers of a JSON body are finite; `true` is 1. -/
structure RawPoint where
  checkedAt : ℚ := 0
  missed : Bool := false
  synthetic : Bool := false
  error : Option String := none
  lastError : Option String := none
  total : Option ℚ := none
  okCount : Option ℚ := none
  ok : Option ℚ := none
  lastOk : Option ℚ := none
  latencyMs : Option ℚ := none
  lastLatencyMs : Option ℚ := none
  sumLatencyMs : Option ℚ := none
  statusCode : Option ℚ := none
  lastStatusCode : Option ℚ := none
  probeRegion : Option String := none
  cfColo : Option String := none

def missedPhrase : String := "monitor missed this 5-minute check"

/-- The part of `isMissedMonitorPoint` that looks at the error. -/
def missedError (error : Option String) : Bool := error.any (includesLower missedPhrase)

/-- A point as it is stored. -/
structure ProbePoint where
  checkedAt : Int
  total : ℚ
  okCount : ℚ
  sumLatencyMs : ℚ
  lastOk : Bool
  lastLatencyMs : Option ℚ
  lastStatusCode : Option ℚ
  lastError : Option String
  probeRegion : String
  cfColo : Option String
  checkedAt_pos : 0 < checkedAt
  total_nonneg : 0 ≤ total
  okCount_nonneg : 0 ≤ okCount
  error_cut : lastError.map (cut 500) = lastError
  region_cut : cut 32 probeRegion = probeRegion
  region_ne : probeRegion ≠ ""
  colo_cut : cfColo.map (cut 32) = cfColo
  colo_ne : cfColo ≠ some ""
  /-- A missed check says nothing more than that. -/
  missed : missedError lastError = true →
    1 ≤ total ∧ okCount = 0 ∧ sumLatencyMs = 0 ∧ lastOk = false ∧ lastLatencyMs = none ∧
      lastStatusCode = none
deriving DecidableEq

/-- `text || fallback` -/
def orText (text : Option String) (fallback : String) : String :=
  (text.filter fun text => text ≠ "").getD fallback

def RawPoint.inputError (point : RawPoint) : Option String := point.error.or point.lastError

def RawPoint.isMissed (point : RawPoint) : Bool :=
  point.missed || point.synthetic || missedError point.inputError

def RawPoint.inputOk (point : RawPoint) : Option ℚ := point.ok.or point.lastOk

def RawPoint.inputLatency (point : RawPoint) : Option ℚ := point.latencyMs.or point.lastLatencyMs

def RawPoint.inputStatus (point : RawPoint) : Option ℚ := point.statusCode.or point.lastStatusCode

def truthy (value : Option ℚ) : Bool := value.any fun value => value ≠ 0

def RawPoint.normalTotal (point : RawPoint) : ℚ :=
  if point.isMissed then
    max 1 (if point.total.getD 0 = 0 then 1 else point.total.getD 0)
  else max 0 (point.total.getD 1)

def RawPoint.normalOkCount (point : RawPoint) : ℚ :=
  if point.isMissed then 0 else max 0 (point.okCount.getD (if truthy point.inputOk then 1 else 0))

def RawPoint.normalLatency (point : RawPoint) : Option ℚ :=
  if point.isMissed then none else point.inputLatency

def RawPoint.normalSumLatency (point : RawPoint) : ℚ :=
  if point.isMissed then 0
  else
    match point.sumLatencyMs with
    | some sum => max 0 sum
    | none => (point.normalLatency.map fun latency => latency * point.normalOkCount).getD 0

private theorem one_le_normalTotal {point : RawPoint} (missed : point.isMissed = true) :
    1 ≤ point.normalTotal := by
  rw [RawPoint.normalTotal, if_pos missed]
  exact le_max_left _ _

private theorem normalTotal_nonneg (point : RawPoint) : 0 ≤ point.normalTotal := by
  unfold RawPoint.normalTotal
  split
  · exact le_max_of_le_left zero_le_one
  · exact le_max_left _ _

private theorem normalOkCount_nonneg (point : RawPoint) : 0 ≤ point.normalOkCount := by
  unfold RawPoint.normalOkCount
  split
  · exact le_refl _
  · exact le_max_left _ _

private theorem isMissed_of_cut {point : RawPoint}
    (missed : missedError (point.inputError.map (cut 500)) = true) : point.isMissed = true := by
  have whole : missedError point.inputError = true := by
    cases error : point.inputError with
    | none => rw [error] at missed; exact missed
    | some text =>
        rw [error] at missed
        exact includesLower_of_cut missed
  simp [RawPoint.isMissed, whole]

private theorem orText_ne (text : Option String) {fallback : String} (some_ : fallback ≠ "") :
    orText text fallback ≠ "" := by
  cases text with
  | none => exact some_
  | some text =>
      by_cases empty : text = ""
      · simpa [orText, Option.filter, empty] using some_
      · simp [orText, Option.filter, empty]

private theorem cut_filter_ne (text : Option String) :
    (text.filter fun text => text ≠ "").map (cut 32) ≠ some "" := by
  intro same
  obtain ⟨kept, found, empty⟩ := Option.map_eq_some_iff.mp same
  have some_ := (Option.filter_eq_some_iff.mp found).2
  exact cut_ne_empty (by norm_num) (by simpa using some_) empty

def normalizeProbePoint (point : RawPoint) : Option ProbePoint :=
  if checked : 0 < ⌊point.checkedAt⌋ then
    some {
      checkedAt := ⌊point.checkedAt⌋
      total := point.normalTotal
      okCount := point.normalOkCount
      sumLatencyMs := point.normalSumLatency
      lastOk := !point.isMissed && truthy point.inputOk
      lastLatencyMs := point.normalLatency
      lastStatusCode := if point.isMissed then none else point.inputStatus
      lastError := point.inputError.map (cut 500)
      probeRegion := cut 32 (orText point.probeRegion "auto")
      cfColo := (point.cfColo.filter fun text => text ≠ "").map (cut 32)
      checkedAt_pos := checked
      total_nonneg := normalTotal_nonneg point
      okCount_nonneg := normalOkCount_nonneg point
      error_cut := by simp [Option.map_map, Function.comp_def]
      region_cut := cut_cut 32 _
      region_ne := cut_ne_empty (by norm_num) (orText_ne _ (by decide))
      colo_cut := by simp [Option.map_map, Function.comp_def]
      colo_ne := cut_filter_ne _
      missed := fun missed => by
        have whole := isMissed_of_cut missed
        refine ⟨one_le_normalTotal whole, ?_⟩
        simp [RawPoint.normalOkCount, RawPoint.normalSumLatency, RawPoint.normalLatency, whole] }
  else none

/-- A stored point as it is read again. -/
def ProbePoint.raw (point : ProbePoint) : RawPoint where
  checkedAt := point.checkedAt
  lastError := point.lastError
  total := some point.total
  okCount := some point.okCount
  lastOk := some (if point.lastOk then 1 else 0)
  lastLatencyMs := point.lastLatencyMs
  sumLatencyMs := some point.sumLatencyMs
  lastStatusCode := point.lastStatusCode
  probeRegion := some point.probeRegion
  cfColo := point.cfColo

structure PublicPoint where
  missed : Bool
  checkedAt : Int
  ok : Bool
  latencyMs : Option ℚ
  statusCode : Option ℚ
  error : Option String
  probeRegion : String
  total : ℚ
  okCount : ℚ
deriving DecidableEq

def toPublicPoint (point : ProbePoint) : PublicPoint :=
  let missed := missedError point.lastError || (point.total = 0 && point.okCount = 0)
  { missed
    checkedAt := point.checkedAt
    ok := !missed && point.lastOk
    latencyMs := if missed then none else point.lastLatencyMs
    statusCode := if missed then none else point.lastStatusCode
    error := point.lastError
    probeRegion := point.probeRegion
    total := if missed then max 1 (if point.total = 0 then 1 else point.total) else point.total
    okCount := if missed then 0 else point.okCount }

/-- What normalizing a stored point again changes: a sum of negative latencies. -/
def ProbePoint.settled (point : ProbePoint) : ProbePoint :=
  { point with
    sumLatencyMs := max 0 point.sumLatencyMs
    missed := fun missed => by simpa [(point.missed missed).2.2.1] using point.missed missed }

@[simp] theorem settled_checkedAt (point : ProbePoint) : point.settled.checkedAt = point.checkedAt :=
  rfl

@[simp] theorem toPublicPoint_settled (point : ProbePoint) :
    toPublicPoint point.settled = toPublicPoint point := rfl

@[simp] theorem settled_settled (point : ProbePoint) : point.settled.settled = point.settled := by
  simp [ProbePoint.settled]

section Again

variable (point : ProbePoint)

private theorem total_raw : point.raw.total = some point.total := rfl

private theorem normalTotal_raw : point.raw.normalTotal = point.total := by
  unfold RawPoint.normalTotal
  by_cases missed : point.raw.isMissed = true
  · have least := (point.missed missed).1
    rw [if_pos missed, total_raw, Option.getD_some, if_neg (zero_lt_one.trans_le least).ne']
    exact max_eq_right least
  · rw [if_neg missed]
    exact max_eq_right point.total_nonneg

private theorem normalOkCount_raw : point.raw.normalOkCount = point.okCount := by
  unfold RawPoint.normalOkCount
  by_cases missed : point.raw.isMissed = true
  · rw [if_pos missed]
    exact (point.missed missed).2.1.symm
  · rw [if_neg missed]
    exact max_eq_right point.okCount_nonneg

private theorem normalSumLatency_raw : point.raw.normalSumLatency = max 0 point.sumLatencyMs := by
  unfold RawPoint.normalSumLatency
  by_cases missed : point.raw.isMissed = true
  · rw [if_pos missed, (point.missed missed).2.2.1, max_self]
  · rw [if_neg missed]
    rfl

private theorem normalLatency_raw : point.raw.normalLatency = point.lastLatencyMs := by
  unfold RawPoint.normalLatency
  by_cases missed : point.raw.isMissed = true
  · rw [if_pos missed]
    exact (point.missed missed).2.2.2.2.1.symm
  · rw [if_neg missed]
    rfl

private theorem lastOk_raw :
    (!point.raw.isMissed && truthy point.raw.inputOk) = point.lastOk := by
  have read : truthy point.raw.inputOk = point.lastOk := by
    cases ok : point.lastOk <;> simp [RawPoint.inputOk, ProbePoint.raw, truthy, ok]
  rw [read]
  by_cases missed : point.raw.isMissed = true
  · simp [missed, (point.missed missed).2.2.2.1]
  · simp [missed]

private theorem status_raw :
    (if point.raw.isMissed then none else point.raw.inputStatus) = point.lastStatusCode := by
  by_cases missed : point.raw.isMissed = true
  · rw [if_pos missed]
    exact (point.missed missed).2.2.2.2.2.symm
  · rw [if_neg missed]
    rfl

private theorem region_raw : cut 32 (orText point.raw.probeRegion "auto") = point.probeRegion := by
  have kept : orText point.raw.probeRegion "auto" = point.probeRegion := by
    simp [orText, ProbePoint.raw, Option.filter, point.region_ne]
  rw [kept, point.region_cut]

private theorem colo_raw :
    (point.raw.cfColo.filter fun text => text ≠ "").map (cut 32) = point.cfColo := by
  have kept : point.raw.cfColo.filter (fun text => text ≠ "") = point.cfColo := by
    change point.cfColo.filter _ = _
    cases colo : point.cfColo with
    | none => rfl
    | some text =>
        have some_ : text ≠ "" := fun empty => point.colo_ne (empty ▸ colo)
        simp [Option.filter, some_]
  rw [kept, point.colo_cut]

/-- Stored points are normal. -/
theorem normalizeProbePoint_raw : normalizeProbePoint point.raw = some point.settled := by
  have checked : ⌊point.raw.checkedAt⌋ = point.checkedAt := Int.floor_intCast _
  have positive : 0 < ⌊point.raw.checkedAt⌋ := checked ▸ point.checkedAt_pos
  rw [normalizeProbePoint, dif_pos positive]
  simp only [checked, normalTotal_raw, normalOkCount_raw, normalSumLatency_raw,
    normalLatency_raw, lastOk_raw, status_raw, region_raw, colo_raw, Option.some.injEq]
  simp only [ProbePoint.settled, ProbePoint.mk.injEq, true_and, and_true]
  exact point.error_cut

end Again

end NieSla.ProbeHistory
