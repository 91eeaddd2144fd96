import NieSla.Lib.Interval
import NieSla.Lib.OrderedMap
import NieSla.Util.Day

/-! The seconds between two reports of an agent, per local day. -/
namespace NieSla.Availability

open Interval

/-- The seconds counted for one day, all of them and those online. -/
@[ext] structure DaySeconds where
  total : Int
  okCount : Int
deriving DecidableEq

namespace DaySeconds

instance : Zero DaySeconds := ⟨⟨0, 0⟩⟩

instance : Add DaySeconds :=
  ⟨fun first second => ⟨first.total + second.total, first.okCount + second.okCount⟩⟩

@[simp] theorem zero_total : (0 : DaySeconds).total = 0 := rfl
@[simp] theorem zero_okCount : (0 : DaySeconds).okCount = 0 := rfl

@[simp] theorem add_total (first second : DaySeconds) :
    (first + second).total = first.total + second.total := rfl

@[simp] theorem add_okCount (first second : DaySeconds) :
    (first + second).okCount = first.okCount + second.okCount := rfl

instance : AddCommMonoid DaySeconds where
  add_assoc _ _ _ := by ext <;> simp [add_assoc]
  zero_add _ := by ext <;> simp
  add_zero _ := by ext <;> simp
  add_comm _ _ := by ext <;> simp [add_comm]
  nsmul := nsmulRec

end DaySeconds

/-- Seconds that count as online, or not. -/
def counted (seconds : Int) (online : Bool) : DaySeconds :=
  ⟨seconds, if online then seconds else 0⟩

@[simp] theorem counted_zero (online : Bool) : counted 0 online = 0 := by
  cases online <;> rfl

theorem counted_add (first second : Int) (online : Bool) :
    counted (first + second) online = counted first online + counted second online := by
  cases online <;> ext <;> simp [counted]

/-! Intervals. -/

abbrev Rows := OrderedMap Int DaySeconds

def secondsAt (rows : Rows) (day : Int) : DaySeconds := (rows.get? day).getD 0

/-- `row.total += seconds; if (online) row.ok_count += seconds`. -/
def addSeconds (rows : Rows) (day seconds : Int) (online : Bool) : Rows :=
  rows.set day (secondsAt rows day + counted seconds online)

/-- The loop of `addInterval`: one day in each round. -/
def addDays (env : Env) (online : Bool) (stop : Int) : Nat → Int → Rows → Rows
  | 0, _, rows => rows
  | fuel + 1, cursor, rows =>
      if cursor < stop then
        let day := dayFromSec cursor env
        let segmentEnd := min stop (dayStartSec (day + 1) env)
        addDays env online stop fuel segmentEnd
          (addSeconds rows day (max 0 (segmentEnd - cursor)) online)
      else rows

def addInterval (rows : Rows) (start stop : Int) (online : Bool) (env : Env) : Rows :=
  addDays env online stop (dayFromSec stop env - dayFromSec start env + 1).toNat start rows

/-- The part of a day that lies in an interval. -/
def dayOverlap (env : Env) (day start stop : Int) : Int :=
  overlap (dayStartSec day env) (dayStartSec (day + 1) env) start stop

theorem secondsAt_addSeconds (rows : Rows) (day other seconds : Int) (online : Bool) :
    secondsAt (addSeconds rows day seconds online) other =
      secondsAt rows other + if other = day then counted seconds online else 0 := by
  unfold addSeconds secondsAt
  rw [OrderedMap.get?_set]
  by_cases same : other = day
  · subst same
    simp
  · simp [same]

/-- The first round of the loop takes what lies in the day of the cursor. -/
private theorem dayOverlap_first {env : Env} {cursor stop : Int} (before : cursor < stop)
    (day : Int) :
    dayOverlap env day cursor (min stop (dayStartSec (dayFromSec cursor env + 1) env)) =
      if day = dayFromSec cursor env then
        max 0 (min stop (dayStartSec (dayFromSec cursor env + 1) env) - cursor)
      else 0 := by
  obtain ⟨first, last⟩ := dayFromSec_eq_iff.mp (rfl : dayFromSec cursor env = _)
  unfold dayOverlap
  by_cases same : day = dayFromSec cursor env
  · subst same
    rw [if_pos rfl, overlap_of_inside first (by omega) (min_le_right _ _)]
    omega
  · rw [if_neg same]
    unfold dayStartSec at *
    rcases lt_or_gt_of_ne same with earlier | later
    · exact overlap_of_after (by omega)
    · exact overlap_of_before (by omega)

private theorem dayFromSec_dayStartSec (day : Int) (env : Env) :
    dayFromSec (dayStartSec day env) env = day := by
  unfold dayFromSec dayStartSec
  omega

private theorem secondsAt_addDays (env : Env) (online : Bool) (stop : Int) (fuel : Nat)
    (cursor : Int) (rows : Rows) (day : Int)
    (enough : stop ≤ cursor ∨ dayFromSec stop env - dayFromSec cursor env < fuel) :
    secondsAt (addDays env online stop fuel cursor rows) day =
      secondsAt rows day + counted (dayOverlap env day cursor stop) online := by
  induction fuel generalizing cursor rows with
  | zero =>
      have done : stop ≤ cursor := by
        rcases enough with done | enough
        · exact done
        · unfold dayFromSec at enough
          omega
      simp [addDays, dayOverlap, overlap_of_le done]
  | succ fuel ih =>
      unfold addDays
      split
      · rename_i before
        have inside := dayFromSec_eq_iff.mp (rfl : dayFromSec cursor env = _)
        have advanced : cursor ≤ min stop (dayStartSec (dayFromSec cursor env + 1) env) := by
          omega
        have cut : dayOverlap env day cursor
              (min stop (dayStartSec (dayFromSec cursor env + 1) env)) +
            dayOverlap env day (min stop (dayStartSec (dayFromSec cursor env + 1) env)) stop =
              dayOverlap env day cursor stop := overlap_add advanced (min_le_left _ _)
        rw [ih _ _ ?_, secondsAt_addSeconds, ← cut, dayOverlap_first before day, counted_add,
          add_assoc]
        · split <;> simp
        · rcases le_total stop (dayStartSec (dayFromSec cursor env + 1) env) with last | more
          · exact .inl (by omega)
          · refine .inr ?_
            rw [min_eq_right more, dayFromSec_dayStartSec]
            omega
      · rename_i done
        simp [dayOverlap, overlap_of_le (not_lt.mp done)]

/-- An interval adds to each day what lies in it. -/
theorem secondsAt_addInterval (rows : Rows) (start stop : Int) (online : Bool) (env : Env)
    (day : Int) :
    secondsAt (addInterval rows start stop online env) day =
      secondsAt rows day + counted (dayOverlap env day start stop) online :=
  secondsAt_addDays env online stop _ start rows day (.inr (by omega))

/-! Segments. -/

def offlineAfterSec (env : Env) : Int :=
  clamp (configured env.agentOfflineAfterSec 1800) 120 3600

def retentionDays (env : Env) : Int :=
  clamp (configured env.agentAvailabilityRetentionDays 90) 30 180

/-- `startAt`: nothing is counted beyond the retention. -/
def startAt (previousAt endAt : Int) (env : Env) : Int :=
  max previousAt (endAt - retentionDays env * 86400)

/-- `Math.max(startAt, onlineUntil)`: the agent counts as online up to here. -/
def onlineUntil (previousAt endAt : Int) (env : Env) : Int :=
  max (startAt previousAt endAt env) (min endAt (previousAt + offlineAfterSec env))

def segmentRows (previousAt endAt : Int) (env : Env) : Rows :=
  addInterval
    (addInterval .empty (startAt previousAt endAt env) (onlineUntil previousAt endAt env) true env)
    (onlineUntil previousAt endAt env) endAt false env

/-- `agentAvailabilitySegments` of two times in seconds, 0 where a time is missing. -/
def agentAvailabilitySegments (previousAt endAt : Int) (env : Env) : List (Int × DaySeconds) :=
  if previousAt = 0 ∨ endAt = 0 ∨ endAt ≤ previousAt then []
  else (segmentRows previousAt endAt env).entries.insertionSort fun first second =>
    first.1 ≤ second.1

/-- What the rows of a list hold for a day. -/
def segmentsAt (rows : List (Int × DaySeconds)) (day : Int) : DaySeconds :=
  (rows.map fun row => if row.1 = day then row.2 else 0).sum

theorem segmentsAt_entries (rows : Rows) (day : Int) :
    segmentsAt rows.entries day = secondsAt rows day :=
  rows.sum_entries day

/-- The segments of two times hold for each day what lies in it. -/
theorem segmentsAt_agentAvailabilitySegments {previousAt endAt : Int} (env : Env)
    (known : previousAt ≠ 0) (ends : endAt ≠ 0) (before : previousAt ≤ endAt) (day : Int) :
    segmentsAt (agentAvailabilitySegments previousAt endAt env) day =
      counted (dayOverlap env day (startAt previousAt endAt env)
          (onlineUntil previousAt endAt env)) true +
        counted (dayOverlap env day (onlineUntil previousAt endAt env) endAt) false := by
  unfold agentAvailabilitySegments
  split
  · rename_i nothing
    obtain rfl : previousAt = endAt := by omega
    have offline := clamp_ge (by norm_num : (120 : Int) ≤ 3600)
      (configured env.agentOfflineAfterSec 1800)
    have retained := clamp_ge (by norm_num : (30 : Int) ≤ 180)
      (configured env.agentAvailabilityRetentionDays 90)
    have start : startAt previousAt previousAt env = previousAt := by
      unfold startAt retentionDays
      omega
    have until_ : onlineUntil previousAt previousAt env = previousAt := by
      unfold onlineUntil offlineAfterSec
      omega
    have empty : dayOverlap env day previousAt previousAt = 0 := overlap_of_le le_rfl
    rw [start, until_, empty]
    rfl
  · have perm := List.perm_insertionSort (fun first second : Int × DaySeconds =>
      first.1 ≤ second.1) (segmentRows previousAt endAt env).entries
    unfold segmentsAt
    rw [(perm.map _).sum_eq]
    change segmentsAt _ day = _
    rw [segmentsAt_entries, segmentRows, secondsAt_addInterval, secondsAt_addInterval]
    simp [secondsAt]

end NieSla.Availability
