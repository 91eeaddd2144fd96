import Mathlib

/-! Numbers and configuration as the Worker reads them. -/
namespace NieSla

/-- A JavaScript number, the rounding of the finite ones aside. -/
inductive JsNumber where
  | nan
  | infinity
  | negInfinity
  | finite (value : ℚ)
deriving DecidableEq

/-- `clamp`: round down and keep within the bounds; what is no number is the lower bound. -/
def clamp (n : JsNumber) (low high : Int) : Int :=
  match n with
  | .nan => low
  | .infinity => high
  | .negInfinity => low
  | .finite value => max low (min high ⌊value⌋)

theorem clamp_ge {low high : Int} (ordered : low ≤ high) (n : JsNumber) :
    low ≤ clamp n low high := by
  cases n <;> simp [clamp, ordered]

theorem clamp_le {low high : Int} (ordered : low ≤ high) (n : JsNumber) :
    clamp n low high ≤ high := by
  cases n <;> simp [clamp, ordered]

/-- To the nearest integer, of two equally near ones to the even one. -/
def roundHalfEven (value : ℚ) : Int :=
  let low := ⌊value⌋
  if value - low < 1 / 2 then low
  else if 1 / 2 < value - low then low + 1
  else if low % 2 = 0 then low else low + 1

/-- The nearest double, for values in its normal range. -/
def toDouble (value : ℚ) : ℚ :=
  if value = 0 then 0
  else
    let unit : ℚ := (2 : ℚ) ^ (Int.log 2 |value| - 52)
    roundHalfEven (value / unit) * unit

/-- `Math.round` -/
def mathRound (value : ℚ) : Int := ⌊value + 1 / 2⌋

/-- The configuration variables. A variable is a text, read as a number; `none` is
a variable that is unset or empty. -/
structure Env where
  timezoneOffsetMinutes : Option JsNumber := none
  publicTimezoneOffsetMinutes : Option JsNumber := none
  archiveBound : Bool := true
  probeHistoryMaxPointsPerDay : Option JsNumber := none
  trafficPersistIntervalSec : Option JsNumber := none
  agentAvailabilityRetentionDays : Option JsNumber := none
  agentOfflineAfterSec : Option JsNumber := none
  telemetryFlushIntervalSec : Option JsNumber := none
  bufferedAgentState : Bool := false
  timeseriesExport : Bool := false
  latencyResultRetentionHours : Option JsNumber := none
  probeLatestStatusToD1 : Bool := true
  probeLatestStatusMinIntervalSec : Option JsNumber := none
  databaseBound : Bool := true
  r2LockTtlSec : Option JsNumber := none
  probeHistoryEnabled : Bool := true
  missedWriteBackfillMaxBuckets : Option JsNumber := none
  missedBackfillMaxBuckets : Option JsNumber := none
  missedBackfillGraceSec : Option JsNumber := none

/-- `Number(env.VARIABLE || fallback)`. -/
def configured (setting : Option JsNumber) (fallback : ℚ) : JsNumber :=
  setting.getD (.finite fallback)

end NieSla
